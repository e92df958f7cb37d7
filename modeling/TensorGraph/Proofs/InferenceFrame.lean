import TensorGraph.Inference.Engine
import TensorGraph.Proofs.Orderly

/-!
What inference leaves alone.

Inference changes a graph in three ways only: it sets an attribute of an operation, puts its mark
on or off, or writes what is known of a data node, with the shape of every value. A property of
graphs that these keep is kept by every rule and by every run, whatever is registered and whether
the run succeeds or fails. Marks
are put on only before a run over the whole graph, so a property need not survive that to be
`Immune` to the rules.
-/

namespace TensorGraph

variable {α : Type}

open Edit

/-- The writes of rules and the taking off of marks keep the property, also when they fail. -/
structure Graph.Immune (P : Graph → Prop) : Prop where
  attr : ∀ id name value, Keeps P (setAttribute id name value)
  fact : ∀ id {f}, f.Shaped → Keeps P (Edit.modifyFact id fun _ => f)
  clear : ∀ id, Keeps P (Edit.modifyOp id fun o => { o with needsInference := false })

/-- Marking keeps the property too. -/
structure Graph.Annotated (P : Graph → Prop) : Prop extends Graph.Immune P where
  raise : ∀ id, Keeps P (Edit.modifyOp id fun o => { o with needsInference := true })

/-- Every change that inference makes keeps the property, whatever the revision. -/
structure Graph.Unaffected (P : Graph → Prop) : Prop where
  attr : ∀ {g : Graph} (id : NodeId) (name : String) (value : Attribute) (r : Nat), P g →
    P { g.modifyOp id (·.withAttribute name value) with revision := r }
  flag : ∀ {g : Graph} (id : NodeId) (b : Bool) (r : Nat), P g →
    P { g.modifyOp id (fun o => { o with needsInference := b }) with revision := r }
  fact : ∀ {g : Graph} (id : NodeId) (f : Fact) (r : Nat), P g →
    P { g.modifyFact id (fun _ => f) with revision := r }

namespace Edit

variable {P : Graph → Prop} {id : NodeId}

lemma keeps_modifyOp_of {f : Operation → Operation}
    (hf : ∀ {g : Graph} r, P g → P { g.modifyOp id f with revision := r }) :
    Keeps P (modifyOp id f) :=
  keeps_bind (fun _ hg => hf _ hg) fun _ => keeps_bind (keeps_query _) fun _ => keeps_pure _

lemma keeps_modifyFact_of {f : Fact → Fact}
    (hf : ∀ {g : Graph} r, P g → P { g.modifyFact id f with revision := r }) :
    Keeps P (modifyFact id f) :=
  keeps_bind (fun _ hg => hf _ hg) fun _ => keeps_bind (keeps_query _) fun _ => keeps_pure _

end Edit

namespace Graph

variable {P : Graph → Prop}

lemma ShapedInvariant.annotated (hP : ShapedInvariant P) : Annotated P where
  attr id name value := hP.modifyOp id (·.withAttribute name value)
  fact id _ hf := hP.setFact id hf
  clear id := hP.modifyOp id _
  raise id := hP.modifyOp id _

lemma Unaffected.annotated (hP : Unaffected P) : Annotated P where
  attr id name value := keeps_modifyOp_of (hP.attr id name value)
  fact id f _ := keeps_modifyFact_of (hP.fact id f)
  clear id := keeps_modifyOp_of (hP.flag id false)
  raise id := keeps_modifyOp_of (hP.flag id true)

end Graph

namespace Edit

/-! ### Writes of a rule -/

/-- The edit is made of the writes of rules. -/
abbrev Inferring (x : Edit α) : Prop := Orderly Graph.Immune x

lemma inferring_setAttribute (id : NodeId) (name : String) (value : Attribute) :
    Inferring (setAttribute id name value) :=
  (tame_modifyOp id _).orderly fun hP => hP.attr id name value

lemma inferring_setFact (id : NodeId) {f : Fact} (hf : f.Shaped) :
    Inferring (modifyFact id fun _ => f) :=
  (tame_modifyFact id _).orderly fun hP => hP.fact id hf

lemma inferring_writeFact (id : NodeId) {f : Fact} (hf : f.Shaped) (s : RuleState) :
    Inferring (writeFact id f s) := by
  refine orderly_bind (orderly_query fun g => g.plain_fact id) fun old => ?_
  split
  · exact orderly_pure _
  · exact orderly_bind (inferring_setFact id hf) fun _ => orderly_pure _

lemma inferring_writeOutput (op : NodeId) (port : Nat) {f : Fact} (hf : f.Shaped)
    (s : RuleState) : Inferring (writeOutput op port f s) := by
  refine orderly_bind (orderly_query fun g => g.plain_outputData op port) fun data => ?_
  split
  · exact inferring_writeFact _ hf s
  · exact orderly_pure _

lemma inferring_writeAttribute (op : NodeId) (name : String) (value : Attribute) :
    Inferring (writeAttribute op name value) :=
  orderly_bind (orderly_query fun g => g.plain_operation op) fun _ =>
    orderly_ite (fun _ => orderly_pure _) fun _ => inferring_setAttribute op name value

lemma inferring_writeProducer (data : NodeId) (value : Tensor) :
    Inferring (writeProducer data value) := by
  refine orderly_bind (orderly_query fun g => g.plain_producer data) fun op => ?_
  split
  · exact orderly_pure _
  · exact orderly_bind (orderly_query fun g => g.plain_operation _) fun o =>
      orderly_ite (fun _ => inferring_writeAttribute _ _ _) fun _ => orderly_pure _

lemma inferring_writeInput (op : NodeId) (name : String) (port : Nat) (value : Tensor)
    (s : RuleState) : Inferring (writeInput op name port value s) := by
  refine orderly_bind (orderly_query fun g => g.plain_inputIsShared op port) fun shared => ?_
  split
  · exact orderly_bind (orderly_note _ _) fun _ => orderly_pure _
  · refine orderly_bind (orderly_query fun g => g.plain_connectedInput op port) fun data => ?_
    exact orderly_bind (inferring_writeProducer _ _) fun _ =>
      inferring_writeFact _ (Fact.shaped_ofValue value) s

lemma inferring_performWrite (op : NodeId) (name : String) (s : RuleState) (w : Write) :
    Inferring (performWrite op name s w) := by
  cases w with
  | attr key value =>
    exact orderly_bind (inferring_writeAttribute op key value) fun _ => orderly_pure _
  | inputValue port value => exact inferring_writeInput op name port value s
  | outputShape port shape =>
    simp only [performWrite]
    split
    · exact orderly_fail nofun
    · exact inferring_writeOutput op port (Fact.shaped_ofShape shape) s
  | outputValue port value => exact inferring_writeOutput op port (Fact.shaped_ofValue value) s
  | outputUnknown port => exact inferring_writeOutput op port Fact.shaped_unknown s

/-- A rule changes nothing but by its writes. -/
lemma keeps_runRule {P : Graph → Prop} (hP : Graph.Immune P) (op : NodeId) (name : String)
    (m : RuleM α) (s : RuleState) : Keeps P (runRule op name m s) := by
  induction m generalizing s with
  | done a => exact keeps_pure _
  | fail e => exact keeps_fail _
  | inspect next ih => exact keeps_bind keeps_current fun g => ih _ s
  | note level text next ih => exact keeps_bind (keeps_note _ _) fun _ => ih s
  | write w next ih =>
    rw [runRule]
    refine keeps_bind (keeps_attempt ((inferring_performWrite op name s w).keeps hP)) fun r => ?_
    split
    · exact ih _ _
    · exact ih _ _

end Edit

/-! ### Errors of a rule -/

namespace RuleM

/-- The program fails with ordinary errors only, as long as its writes do. -/
def Plain : RuleM α → Prop
  | done _ => True
  | fail e => e.Ordinary
  | inspect next => ∀ v, (next v).Plain
  | note _ _ next => next.Plain
  | write _ next => ∀ r, TensorGraph.Plain r → (next r).Plain

lemma plain_ofExcept {x : Except Error α} (hx : TensorGraph.Plain x) : (ofExcept x).Plain := by
  cases x with
  | ok a => trivial
  | error e => exact hx e rfl

lemma plain_perform (w : Write) : (perform w).Plain := fun _ => plain_ofExcept

lemma Plain.bind {β : Type} {x : RuleM α} {f : α → RuleM β} (hx : x.Plain) (hf : ∀ a, (f a).Plain) :
    (x >>= f).Plain := by
  induction x with
  | done a => exact hf a
  | fail e => exact hx
  | inspect next ih => exact fun v => ih v (hx v)
  | note level text next ih => exact ih hx
  | write w next ih => exact fun r hr => ih r (hx r hr)

lemma plain_forM {l : List α} {f : α → Rule} (hf : ∀ a, (f a).Plain) : (l.forM f).Plain := by
  induction l with
  | nil => trivial
  | cons a l ih => exact (hf a).bind fun _ => ih

lemma plain_setOutputsUnknown : setOutputsUnknown.Plain :=
  Plain.bind (fun _ => trivial) fun _ => plain_forM fun _ => plain_perform _

end RuleM

namespace Edit

lemma inferring_runRule (op : NodeId) (name : String) {m : RuleM α} (hm : m.Plain)
    (s : RuleState) : Inferring (runRule op name m s) := by
  induction m generalizing s with
  | done a => exact orderly_pure _
  | fail e => exact orderly_fail hm
  | inspect next ih => exact orderly_bind orderly_current fun g => ih _ (hm _) s
  | note level text next ih => exact orderly_bind (orderly_note _ _) fun _ => ih hm s
  | write w next ih =>
    have hwrite := inferring_performWrite op name s w
    refine ⟨fun hP => keeps_runRule hP op name _ s, fun {g e} he => ?_⟩
    -- the error of a write is that of the edit it attempts
    rcases hr : ((performWrite op name s w).run g).result with e' | s'
    all_goals
      unfold Fails at he
      rw [runRule, run_bind_of_ok (a := _) (by rw [run_attempt, hr])] at he
    · exact (ih (.error e') (hm _ (plain_error (hwrite.fails hr))) s).fails he
    · exact (ih (.ok ()) (hm _ (plain_ok ())) s').fails he

end Edit

namespace Registry

lemma ordinary_ruleError (name : String) (e : Error) : (ruleError name e).Ordinary := by
  unfold ruleError
  split
  · next htyped =>
    intro n hn
    have hcause : e.cause = .noFixedPoint n := hn
    rw [hcause] at htyped
    cases htyped
  · exact nofun

lemma plain_hasUnknownInput (g : Graph) (ids : List NodeId) : Plain (hasUnknownInput g ids) := by
  induction ids with
  | nil => exact plain_pure _
  | cons id rest ih =>
    refine plain_bind (g.plain_fact id) fun f => ?_
    split
    · exact plain_pure _
    · exact ih

lemma inferring_applyRule (rule : Rule) (id : NodeId) (name : String) (attributes : Attributes) :
    Inferring (applyRule rule id name attributes) := by
  refine orderly_bind (orderly_query fun g => plain_bind (g.plain_inputs id) fun ids =>
    plain_hasUnknownInput g ids) fun missing => ?_
  split
  · refine orderly_bind (orderly_note _ _) fun _ => ?_
    exact orderly_bind (inferring_runRule _ _ RuleM.plain_setOutputsUnknown _) fun _ =>
      orderly_pure _
  · refine orderly_bind (orderly_attempt fun hP => keeps_runRule hP _ _ _ _) fun r => ?_
    split
    · exact orderly_pure _
    · exact orderly_fail (ordinary_ruleError _ _)

lemma inferring_unmark (id : NodeId) : Inferring (unmark id) := by
  refine orderly_bind (orderly_query fun g => g.plain_operation id) fun o =>
    orderly_ite (fun _ => ?_) fun _ => orderly_pure _
  exact (tame_modifyOp id _).orderly fun hP => hP.clear id

lemma inferring_noteFact (id : NodeId) : Inferring (noteFact id) :=
  orderly_bind (orderly_query fun g => g.plain_node id) fun _ =>
    orderly_bind (orderly_query fun g => g.plain_fact id) fun _ => orderly_note _ _

lemma inferring_inferNode (r : Registry) (id : NodeId) : Inferring (r.inferNode id) := by
  have hrun (e : OpEntry) (n : Node) (o : Operation) : Inferring (do
      let attributes := e.defaults.union o.attributes
      let changed ← applyRule (r.ruleOf e attributes) id n.name attributes
      unmark id
      changed.forM noteFact
      return changed) :=
    orderly_bind (inferring_applyRule _ _ _ _) fun _ => orderly_bind (inferring_unmark id) fun _ =>
      orderly_bind (orderly_forM inferring_noteFact) fun _ => orderly_pure _
  refine orderly_bind (orderly_query fun g => g.plain_node id) fun n => ?_
  refine orderly_bind (orderly_query fun g => g.plain_operation id) fun o => ?_
  refine orderly_bind (orderly_note _ _) fun _ => ?_
  split
  · next e he =>
    split
    · exact orderly_bind (orderly_fail nofun) fun _ => hrun e n o
    · exact hrun e n o
  · exact orderly_fail nofun

/-! ### Runs -/

lemma inferring_inferAmong (r : Registry) (changed : List NodeId) (visited : Nat)
    (ids : List NodeId) : Inferring (r.inferAmong changed visited ids) := by
  induction ids generalizing changed visited with
  | nil => exact orderly_pure _
  | cons id rest ih =>
    refine orderly_bind (orderly_query fun g => g.plain_node id) fun n => ?_
    split
    · exact ih _ _
    · refine orderly_bind (orderly_query fun g => g.plain_inputs id) fun inputs =>
        orderly_ite (fun _ => ?_) fun _ => ih _ _
      exact orderly_bind (inferring_inferNode r id) fun _ => ih _ _

end Registry

lemma Graph.plain_arrange (g : Graph) (done pending stack : List NodeId) :
    Plain (g.arrange done pending stack) := by
  fun_induction Graph.arrange g done pending stack with
  | case1 => exact plain_ok _
  | case3 => exact plain_error nofun
  | case5 => exact plain_error nofun
  | case2 _ _ _ _ _ ih | case4 _ _ _ _ _ _ _ _ _ ih | case6 _ _ _ _ _ _ _ _ _ _ ih => exact ih

namespace Registry

lemma inferring_inferMarked (r : Registry) : Inferring r.inferMarked :=
  orderly_bind (orderly_query fun g => g.plain_arrange _ _ _) fun _ =>
    orderly_bind (inferring_inferAmong r _ _ _) fun _ =>
      orderly_bind (orderly_note _ _) fun _ => orderly_pure _

end Registry

/-! ### Marking -/

namespace Edit

/-- The edit is made of the writes of rules and of marks. -/
abbrev Annotating (x : Edit α) : Prop := Orderly Graph.Annotated x

lemma Orderly.annotating {x : Edit α} (hx : Inferring x) : Annotating x :=
  hx.of_imp fun hP => hP.toImmune

lemma Orderly.structural {x : Edit α} (hx : Annotating x) : Structural x :=
  hx.of_imp fun hP => hP.annotated

lemma annotating_markOp (id : NodeId) : Annotating (markOp id) :=
  orderly_bind (orderly_query fun g => g.plain_operation id) fun _ =>
    orderly_ite (fun _ => orderly_pure _) fun _ =>
      (tame_modifyOp id _).orderly fun hP => hP.raise id

lemma annotating_mark (id : NodeId) : Annotating (mark id) := by
  refine orderly_bind (orderly_query fun g => g.plain_node id) fun n =>
    orderly_ite (fun _ => annotating_markOp id) fun _ => ?_
  exact orderly_bind (orderly_query fun g => g.plain_consumers id) fun edges =>
    orderly_forM fun e => annotating_markOp e.dst

end Edit

namespace Registry

lemma annotating_inferAll (r : Registry) : Annotating r.inferAll :=
  orderly_bind orderly_current fun _ => orderly_bind (orderly_forM annotating_mark) fun _ =>
    r.inferring_inferMarked.annotating

lemma annotating_inferNamed (r : Registry) (name : String) : Annotating (r.inferNamed name) :=
  orderly_bind (orderly_query fun g => g.plain_nodeId name) fun id =>
    (orderly_within (r.inferring_inferNode id)).annotating

variable {P : Graph → Prop} (hP : Graph.Unaffected P)

include hP

lemma keeps_inferMarked_of (r : Registry) : Keeps P r.inferMarked :=
  r.inferring_inferMarked.keeps hP.annotated.toImmune

lemma keeps_inferAll_of (r : Registry) : Keeps P r.inferAll :=
  r.annotating_inferAll.keeps hP.annotated

end Registry

end TensorGraph
