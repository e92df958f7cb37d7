import TensorGraph.Proofs.Contents
import TensorGraph.Proofs.Sessions
import TensorGraph.Proofs.Structure

/-!
The standard transformations stay within the changes a graph offers.

Each of them is made of the edits of the structure and of the attributes, and a pipeline of them is
made of these, of clean-ups and of inference. So they keep what is invariant, such as that graphs
are well-formed, and never fail as a transformation does that does not settle.
-/

namespace TensorGraph

open Edit

/-! ### Questions to a graph -/

lemma Shape.plain_normalizeAxis (axis rank : Int) : Plain (Shape.normalizeAxis axis rank) := by
  unfold Shape.normalizeAxis
  split
  · exact plain_ok _
  · exact plain_error nofun

namespace Graph

variable (g : Graph)

lemma plain_feedsResult (data : NodeId) : Plain (g.feedsResult data) :=
  plain_bind (g.plain_consumers data) fun _ =>
    plain_bind (plain_mapM fun e => g.plain_node e.dst) fun _ => plain_pure _

lemma plain_axis? (op : NodeId) : Plain (g.axis? op) :=
  plain_bind (g.plain_operation op) fun _ => plain_pure _

lemma plain_knownShape (op : NodeId) (port : Nat) : Plain (g.knownShape op port) := by
  refine plain_bind (g.plain_inputData op port) fun data => ?_
  split
  · exact plain_bind (g.plain_fact _) fun _ => plain_pure _
  · exact plain_pure _

lemma plain_dataRank? (op : NodeId) : Plain (g.dataRank? op) := by
  refine plain_bind (g.plain_inputData op 0) fun data => ?_
  split
  · exact plain_bind (g.plain_fact _) fun _ => plain_pure _
  · exact plain_pure _

lemma plain_flag (op : NodeId) (name : String) (default : Bool) :
    Plain (g.flag op name default) :=
  plain_bind (g.plain_operation op) fun _ => plain_pure _

lemma plain_comesFrom (op : NodeId) (port : Nat) (kinds : List String) :
    Plain (g.comesFrom op port kinds) := by
  refine plain_bind (g.plain_producerOp op port) fun p => ?_
  split
  · exact plain_bind (g.plain_node _) fun _ => plain_pure _
  · exact plain_pure _

lemma plain_newPattern (matmul : NodeId) (o : Operand) : Plain (g.newPattern matmul o) := by
  refine plain_bind (g.plain_flag _ _ _) fun transposeA => ?_
  refine plain_bind (g.plain_flag _ _ _) fun transposeB => ?_
  refine plain_bind (g.plain_comesFrom _ _ _) fun folded => ?_
  split
  · exact plain_pure _
  · refine plain_bind (g.plain_knownShape _ _) fun facing => ?_
    split
    · split
      · exact plain_ite (plain_pure _) (plain_pure _)
      · exact plain_pure _
    · exact plain_pure _

lemma plain_reshapeSite (matmul : NodeId) (o : Operand) : Plain (g.reshapeSite matmul o) := by
  refine plain_bind (g.plain_producerOp _ _) fun reshape => ?_
  split
  · refine plain_bind (g.plain_node _) fun n => ?_
    split
    · exact plain_pure _
    · refine plain_bind (g.plain_inputData _ _) fun data => ?_
      split
      · refine plain_bind (g.plain_producer _) fun constant => ?_
        split
        · refine plain_bind (g.plain_node _) fun n => ?_
          split
          · exact plain_pure _
          · refine plain_bind (g.plain_fact _) fun f => ?_
            split
            · exact plain_ite (plain_pure _) (plain_pure _)
            · exact plain_pure _
        · exact plain_pure _
      · exact plain_pure _
  · exact plain_pure _

lemma plain_replacement (matmul : NodeId) (o : Operand) (s : ReshapeSite) :
    Plain (g.replacement matmul o s) := by
  refine plain_bind (g.plain_newPattern _ _) fun pattern => ?_
  split
  · refine plain_ite (plain_pure _) (plain_bind (g.plain_knownShape _ _) fun input => ?_)
    split
    · exact plain_bind (g.plain_flag _ _ _) fun copyZero => plain_pure _
    · exact plain_pure _
  · exact plain_pure _

lemma plain_declaredShape (op : NodeId) (port : Nat) : Plain (g.declaredShape op port) := by
  refine plain_bind (g.plain_producerOp _ _) fun source => ?_
  split
  · exact plain_bind (g.plain_operation _) fun _ => plain_pure _
  · exact plain_pure _

lemma plain_dequeuedShape (dequeue queue : NodeId) : Plain (g.dequeuedShape dequeue queue) :=
  plain_bind (g.plain_operation _) fun _ =>
    plain_bind (g.plain_declaredShape _ _) fun _ => plain_pure _

lemma plain_ownInputs (op : NodeId) : Plain (g.ownInputs op) := by
  refine plain_bind (g.plain_inputs _) fun inputs => ?_
  refine plain_bind (plain_mapM fun input => ?_) fun _ => plain_pure _
  refine plain_bind (g.plain_consumers _) fun consumers => ?_
  split
  · exact plain_bind (g.plain_producer _) fun _ => plain_pure _
  · exact plain_pure _

end Graph

namespace Edit

/-! ### Values and marks -/

lemma annotating_setConstValue (op : NodeId) (value : Tensor) :
    Annotating (setConstValue op value) :=
  orderly_bind (inferring_setAttribute op _ _).annotating fun _ =>
    orderly_bind (orderly_query fun g => g.plain_outputs op) fun _ =>
      orderly_forM fun data =>
        (inferring_setFact data (Fact.shaped_ofValue value)).annotating

lemma annotating_markNeighbourhood (op : NodeId) : Annotating (markNeighbourhood op) :=
  orderly_bind (annotating_mark op) fun _ =>
    orderly_bind (orderly_query fun g => g.plain_outputs op) fun _ => orderly_forM annotating_mark

lemma inferring_normalizeGatherAxis (op : NodeId) : Inferring (normalizeGatherAxis op) := by
  refine orderly_bind (orderly_query fun g => g.plain_axis? op) fun axis => ?_
  split
  · refine orderly_ite (fun _ => orderly_pure _) fun _ => ?_
    refine orderly_bind (orderly_query fun g => g.plain_dataRank? op) fun rank => ?_
    split
    · exact orderly_bind (orderly_lift (Shape.plain_normalizeAxis _ _)) fun n =>
        inferring_setAttribute op _ _
    · exact orderly_pure _
  · exact orderly_pure _

/-! ### The standard transformations -/

lemma structural_mark (id : NodeId) : Structural (mark id) := (annotating_mark id).structural

lemma structural_removeIdentity (id : NodeId) : Structural (removeIdentity id) := by
  refine orderly_bind (orderly_query fun g => g.plain_inputData _ _) fun input => ?_
  refine orderly_bind (orderly_query fun g => g.plain_outputData _ _) fun output => ?_
  split
  · refine orderly_bind (orderly_query fun g => g.plain_feedsResult _) fun feeds =>
      orderly_ite (fun _ => orderly_pure _) fun _ => ?_
    refine orderly_bind (orderly_query fun g => g.plain_node _) fun n =>
      orderly_bind (orderly_note _ _) fun _ => ?_
    refine orderly_bind (structural_mergeData _ _) fun _ => ?_
    exact orderly_bind (structural_removeNode _ _) fun _ => structural_mark _
  · exact orderly_pure _

lemma structural_writePattern (s : Graph.ReshapeSite) (name : String) (pattern : Shape) :
    Structural (writePattern s name pattern) := by
  refine orderly_bind (orderly_query fun g => g.plain_consumers _) fun consumers =>
    orderly_ite (fun _ => ?_) fun _ => (annotating_setConstValue _ _).structural
  exact orderly_bind orderly_current fun g => orderly_bind (structural_addConst _ _) fun _ =>
    structural_rewireInput _ _ _

lemma structural_pinReshape (matmul : NodeId) (o : Operand) : Structural (pinReshape matmul o) := by
  refine orderly_bind (orderly_query fun g => g.plain_reshapeSite _ _) fun site => ?_
  split
  · refine orderly_bind (orderly_query fun g => g.plain_replacement _ _ _) fun new => ?_
    split
    · refine orderly_bind (orderly_query fun g => g.plain_node _) fun n =>
        orderly_bind (orderly_note _ _) fun _ => ?_
      exact orderly_bind (structural_writePattern _ _ _) fun _ =>
        (annotating_markNeighbourhood _).structural
    · exact orderly_pure _
  · exact orderly_pure _

lemma structural_removeLive (id : NodeId) : Structural (removeLive id) :=
  orderly_bind orderly_current fun _ =>
    orderly_ite (fun _ => structural_removeNode _ _) fun _ => orderly_pure _

lemma structural_replaceImage (dequeue queue image : NodeId) (shape : Shape) :
    Structural (replaceImage dequeue queue image shape) := by
  refine orderly_bind orderly_current fun g => ?_
  refine orderly_bind (orderly_lift (g.plain_node _)) fun n => ?_
  refine orderly_bind (orderly_lift (g.plain_ownInputs _)) fun own => ?_
  refine orderly_bind (orderly_lift (g.plain_consumers _)) fun consumers => ?_
  refine orderly_bind (orderly_forM structural_removeLive) fun _ => ?_
  refine orderly_bind orderly_current fun h =>
    orderly_bind (structural_addOpWithData _ _) fun p => ?_
  refine orderly_bind (structural_setFact _ (Fact.shaped_ofShape shape)) fun _ => ?_
  refine orderly_bind (orderly_forM fun e => orderly_discard (structural_addEdge _ _ _ _))
    fun _ => ?_
  exact orderly_bind (orderly_note _ _) fun _ => (annotating_markNeighbourhood _).structural

lemma structural_replaceQueue (dequeue : NodeId) : Structural (replaceQueue dequeue) := by
  refine orderly_bind (orderly_query fun g => g.plain_producerOp _ _) fun queue => ?_
  split
  · refine orderly_bind (orderly_query fun g => g.plain_node _) fun n =>
      orderly_ite (fun _ => orderly_pure _) fun _ => ?_
    refine orderly_bind (orderly_query fun g => g.plain_outputData _ _) fun image => ?_
    split
    · refine orderly_bind (orderly_query fun g => g.plain_dequeuedShape _ _) fun shape => ?_
      split
      · exact structural_replaceImage _ _ _ _
      · exact orderly_note _ _
    · exact orderly_pure _
  · exact orderly_pure _

/-- A pass over the operations of a kind. -/
lemma structural_pass {kind : String} {f : NodeId → Edit Unit} (hf : ∀ id, Structural (f id)) :
    Structural (do ((← current).opNodesOf kind).forM f) :=
  orderly_bind orderly_current fun _ => orderly_forM hf

lemma structural_standard {t : Transformation} (ht : t ∈ Transformation.standard) :
    Structural t.apply := by
  simp only [Transformation.standard, List.mem_cons, List.not_mem_nil, or_false] at ht
  rcases ht with rfl | rfl | rfl | rfl
  · exact structural_pass structural_replaceQueue
  · exact structural_pass structural_removeIdentity
  · exact structural_pass fun id => orderly_bind (structural_pinReshape id .left) fun _ =>
      structural_pinReshape id .right
  · exact structural_pass fun id => (inferring_normalizeGatherAxis id).annotating.structural

lemma structural_normalize (p : Pipeline) : Structural p.normalize := by
  have hinfer : Structural (discard p.registry.inferMarked) :=
    orderly_discard p.registry.inferring_inferMarked.annotating.structural
  refine orderly_bind (structural_cleanUp _) fun report => ?_
  split
  · exact orderly_bind (orderly_note _ _) fun _ => hinfer
  · exact hinfer

/-- A pipeline of standard transformations keeps what is invariant and does not depend on the
stage. -/
lemma keeps_pipeline_of {P : Graph → Prop} (hP : Graph.ShapedInvariant P)
    (henter : ∀ s, Keeps P (enter s)) {p : Pipeline}
    (hp : p.transformations ⊆ Transformation.standard) : p.Keeps P where
  cleanUp := (structural_cleanUp _).keeps hP
  inferMarked := p.registry.inferring_inferMarked.keeps hP.annotated.toImmune
  enter := henter
  apply _ ht := (structural_standard (hp ht)).keeps hP

/-! ### Well-formed graphs -/

lemma unaffected_wellFormed : Graph.Unaffected Graph.WellFormed where
  attr id _ _ _ hg := wellFormed_revision (hg.modifyOp id _) _
  flag id _ _ hg := wellFormed_revision (hg.modifyOp id _) _
  fact id _ _ hg := wellFormed_revision (hg.modifyFact id _) _

section

variable {P : Graph → Prop}

lemma keeps_markNeighbourhood_of (hP : Graph.Unaffected P) (op : NodeId) :
    Keeps P (markNeighbourhood op) := (annotating_markNeighbourhood op).keeps hP.annotated

lemma keeps_setConstValue_of (hP : Graph.Unaffected P) (op : NodeId) (value : Tensor) :
    Keeps P (setConstValue op value) := (annotating_setConstValue op value).keeps hP.annotated

/-- The pass over axes keeps what the setting of an attribute does. -/
lemma keeps_normalizeGatherAxis_of (hP : ∀ {k : Graph} id name value r, P k →
    P { k.modifyOp id (·.withAttribute name value) with revision := r }) (op : NodeId) :
    Keeps P (normalizeGatherAxis op) := by
  refine keeps_bind (keeps_query _) fun axis => ?_
  split
  · refine keeps_ite (fun _ => keeps_pure _) fun _ => keeps_bind (keeps_query _) fun rank => ?_
    split
    · exact keeps_bind (keeps_lift _) fun n => keeps_bind (fun k hk => hP op "axis" _ _ hk)
        fun _ => keeps_bind (keeps_query _) fun _ => keeps_pure _
    · exact keeps_pure _
  · exact keeps_pure _

end

lemma keeps_removeIdentity (id : NodeId) : Keeps Graph.WellFormed (removeIdentity id) :=
  (structural_removeIdentity id).keeps invariant_wellFormed.shaped

lemma keeps_pinReshape (matmul : NodeId) (o : Operand) :
    Keeps Graph.WellFormed (pinReshape matmul o) :=
  (structural_pinReshape matmul o).keeps invariant_wellFormed.shaped

lemma keeps_normalizeGatherAxis (op : NodeId) :
    Keeps Graph.WellFormed (normalizeGatherAxis op) :=
  (inferring_normalizeGatherAxis op).annotating.structural.keeps invariant_wellFormed.shaped

lemma keeps_standard {t : Transformation} (ht : t ∈ Transformation.standard) :
    Keeps Graph.WellFormed t.apply := (structural_standard ht).keeps invariant_wellFormed.shaped

lemma keeps_enter (s : Stage) : Keeps Graph.WellFormed (enter s) :=
  fun _ hg => wellFormed_stage hg s

end Edit

end TensorGraph
