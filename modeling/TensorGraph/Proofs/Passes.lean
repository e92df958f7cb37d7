import TensorGraph.Proofs.Cleanups
import TensorGraph.Proofs.Runs
import TensorGraph.Proofs.StandardRules
import TensorGraph.Proofs.Transformations

/-!
What a run of the standard pipeline goes through.

Each pass is followed by a normalization, except the last one, which changes attributes only.
`gives_optimize` names the graphs in between. After a normalization the graph is tidy and no
operation is marked (`normalized_of_gives`).
-/

namespace TensorGraph

open Edit

/-! ### Normalization -/

namespace Registry

variable {r : Registry} {g h : Graph}

lemma Run.skeleton {changed l : List NodeId} (hrun : r.Run changed l g h) :
    h.skeleton = g.skeleton := by
  induction hrun with
  | nil halike => exact halike.symm.skeleton
  | data _ _ ih => exact ih
  | skip _ _ _ ih => exact ih
  | visit _ _ hk _ _ ih => exact ih.trans (skeleton_visit hk)

/-- Inference of what is marked is a run over an evaluation order. -/
lemma run_of_inferMarked (hr : r.Local) (hg : g.WellFormed) {n : Nat}
    (hx : Gives r.inferMarked g n h) : ∃ l, g.evalOrder = .ok l ∧ r.Run [] l g h := by
  obtain ⟨l, hl, hx⟩ := gives_inferMarked.1 hx
  exact ⟨l, hl, run_of_gives hr (runnable_of_evalOrder hg hl) hx⟩

/-- Rules put no marks on. -/
lemma immune_unmarked (id : NodeId) : Graph.Immune fun k => k.flag? id ≠ some true where
  attr i name value := keeps_modifyOp_of fun {k} _ hk => by
    have hflag : (k.modifyOp i (·.withAttribute name value)).flag? id = k.flag? id :=
      Graph.flag?_modifyOp i fun _ => rfl
    exact hflag.symm ▸ hk
  fact i f _ := keeps_modifyFact_of fun {k} _ hk => (k.flag?_modifyFact i _).symm ▸ hk
  clear i := keeps_modifyOp_of fun {k} _ hk => by
    show (k.unmark i).flag? id ≠ some true
    rw [Graph.flag?_unmark]
    split
    · rcases k.flag? i <;> simp
    · exact hk

lemma unmarked_of_unmark {id : NodeId} (hx : Gives (unmark id) g () h) :
    h.flag? id ≠ some true := by
  obtain ⟨o, _, hquery, hx⟩ := gives_bind.1 hx
  obtain ⟨ho, rfl⟩ := gives_query.1 hquery
  obtain ⟨k, hk, halike⟩ := gives_unmark (Graph.operation_eq_ok.1 ho)
  obtain ⟨-, rfl⟩ := Gives.unique (gives_bind.2 ⟨o, g, gives_query.2 ⟨ho, rfl⟩, hx⟩) hk
  rw [halike.flag?, Graph.flag?_unmark, if_pos rfl]
  rcases g.flag? id <;> simp

lemma unmarked_of_inferNode {id : NodeId} {changed : List NodeId}
    (hx : Gives (r.inferNode id) g changed h) : h.flag? id ≠ some true := by
  obtain ⟨rule, name, attributes, k, -, hunmark⟩ := exists_applyRule_of_inferNode hx
  exact unmarked_of_unmark hunmark

/-- A run leaves no mark on the operations of its list. -/
lemma unmarked_of_inferAmong {changed l : List NodeId} {visited n : Nat}
    (hx : Gives (r.inferAmong changed visited l) g n h) {id : NodeId} (hid : id ∈ l) :
    h.flag? id ≠ some true := by
  induction l generalizing g changed visited with
  | nil => cases hid
  | cons i l ih =>
    have hkept {changed visited k} (hx : Gives (r.inferAmong changed visited l) k n h)
        (hk : k.flag? i ≠ some true) : h.flag? i ≠ some true :=
      hx.keeps ((inferring_inferAmong r _ _ _).keeps (immune_unmarked i)) hk
    rcases gives_inferAmong_cons.1 hx with ⟨f, hf, hrest⟩ | ⟨o, ho, hstep⟩
    · rcases List.mem_cons.1 hid with rfl | hid
      · refine hkept hrest ?_
        rw [Graph.flag?, Graph.op?_eq_none_of_fact hf]
        simp
      · exact ih hrest hid
    · split at hstep
      · obtain ⟨more, k, hfirst, hrest⟩ := hstep
        rcases List.mem_cons.1 hid with rfl | hid
        · exact hkept hrest (unmarked_of_inferNode hfirst)
        · exact ih hrest hid
      · next hskip =>
        rcases List.mem_cons.1 hid with rfl | hid
        · refine hkept hstep ?_
          rw [Graph.flag?_of_op? ho]
          simp only [Bool.or_eq_true, not_or] at hskip
          simpa using hskip.1
        · exact ih hstep hid

/-- After an inference of what is marked, nothing is. -/
lemma unmarked_of_inferMarked {n : Nat} (hx : Gives r.inferMarked g n h) (id : NodeId) :
    h.flag? id ≠ some true := by
  obtain ⟨l, hl, hrun⟩ := gives_inferMarked.1 hx
  intro hflag
  have hsame : h.skeleton = g.skeleton :=
    hx.keeps (r.keeps_inferMarked_of (Graph.unaffected_skeleton _)) rfl
  have hop : (g.op? id).isSome := by
    rw [← Graph.isSome_op?_of_skeleton hsame]
    exact Graph.isSome_op?_of_flag? hflag
  obtain ⟨o, ho⟩ := Option.isSome_iff_exists.1 hop
  obtain ⟨name, hn⟩ := Graph.op?_eq_some.1 ho
  exact unmarked_of_inferAmong hrun ((Graph.ordered_of_evalOrder hl).mem.2 (hn ▸ rfl)) hflag

/-- Without marks there is nothing to infer. -/
lemma gives_inferMarked_of_unmarked (hflags : ∀ id, g.flag? id ≠ some true) {l : List NodeId}
    (hl : g.evalOrder = .ok l) : Gives r.inferMarked g 0 g := by
  have hrun {l : List NodeId} (hlive : ∀ id ∈ l, (g.node? id).isSome) :
      Gives (r.inferAmong [] 0 l) g 0 g := by
    induction l with
    | nil => exact gives_pure.2 ⟨rfl, rfl⟩
    | cons i l ih =>
      have ih := ih fun id hid => hlive id (List.mem_cons_of_mem i hid)
      obtain ⟨⟨name, o | f⟩, hn⟩ := Option.isSome_iff_exists.1 (hlive i (List.mem_cons_self ..))
      · have ho : g.op? i = some o := Graph.op?_eq_some.2 ⟨name, hn⟩
        have hflag : o.needsInference = false := by
          simpa [Graph.flag?_of_op? ho] using hflags i
        refine gives_inferAmong_cons.2 (.inr ⟨o, ho, ?_⟩)
        rw [hflag, if_neg (by simp)]
        exact ih
      · exact gives_inferAmong_cons.2 (.inl ⟨f, Graph.fact?_eq_some.2 ⟨name, hn⟩, ih⟩)
  exact gives_inferMarked.2 ⟨l, hl, hrun fun id hid => (Graph.ordered_of_evalOrder hl).mem.1 hid⟩

lemma eq_of_inferMarked (hflags : ∀ id, g.flag? id ≠ some true) {n : Nat}
    (hx : Gives r.inferMarked g n h) : h = g := by
  obtain ⟨l, hl, -⟩ := gives_inferMarked.1 hx
  exact (hx.unique (gives_inferMarked_of_unmarked hflags hl)).2

end Registry

namespace Pipeline

variable {p : Pipeline} {rules : Dict Rule} {g h : Graph}

lemma gives_normalize (hx : Gives p.normalize g () h) : ∃ report k n,
    Gives (cleanUp p.registry.isFixed) g report k ∧ Gives p.registry.inferMarked k n h := by
  obtain ⟨report, k, hclean, hx⟩ := gives_bind.1 hx
  split at hx
  · obtain ⟨_, _, hnote, hx⟩ := gives_bind.1 hx
    obtain rfl := gives_note.1 hnote
    obtain ⟨n, hinfer⟩ := gives_discard.1 hx
    exact ⟨report, k, n, hclean, hinfer⟩
  · obtain ⟨n, hinfer⟩ := gives_discard.1 hx
    exact ⟨report, k, n, hclean, hinfer⟩

/-- The graph is as a normalization leaves it: there is nothing to clean up, and nothing is
marked. -/
structure Normal (p : Pipeline) (g : Graph) : Prop where
  wellFormed : g.WellFormed
  tidy : g.Tidy p.registry.isFixed
  unmarked : ∀ id, g.flag? id ≠ some true

lemma normal_of_gives (hg : g.WellFormed) (hx : Gives p.normalize g () h) : p.Normal h := by
  obtain ⟨report, k, n, hclean, hinfer⟩ := gives_normalize hx
  have hk : k.WellFormed := hclean.keeps (keeps_cleanUp _) hg
  obtain ⟨port, hcleaned⟩ := cleaned_of_gives hg hclean
  have hskel : h.skeleton = k.skeleton :=
    hinfer.keeps (p.registry.keeps_inferMarked_of (Graph.unaffected_skeleton _)) rfl
  exact ⟨hk.of_skeleton hskel, (hcleaned.tidy hg).of_skeleton hskel,
    Registry.unmarked_of_inferMarked hinfer⟩

/-- A second normalization does nothing. -/
lemma Normal.eq_of_gives (hn : p.Normal g) (hx : Gives p.normalize g () h) : h = g := by
  obtain ⟨report, k, n, hclean, hinfer⟩ := gives_normalize hx
  obtain ⟨-, rfl⟩ := (gives_cleanUp_of_tidy hn.wellFormed hn.tidy).unique hclean
  exact Registry.eq_of_inferMarked hn.unmarked hinfer

section

variable {t : Transformation} (hnext : p.Followed t g h)

include hnext

lemma Followed.gives (ht : t.descriptor.kind = .pattern) : Gives p.normalize g () h := by
  rw [Followed, if_pos ht] at hnext
  exact hnext

/-- What follows an application leaves the graph normal, if it normalizes. -/
lemma Followed.normal (ht : t.descriptor.kind = .pattern) (hg : g.WellFormed) : p.Normal h :=
  normal_of_gives hg (hnext.gives ht)

/-- Nothing follows an application that left a normal graph as it is. -/
lemma Followed.eq (hg : t.descriptor.kind = .pattern → p.Normal g) : h = g := by
  unfold Followed at hnext
  split at hnext
  · next ht => exact (hg ht).eq_of_gives hnext
  · exact hnext.symm

end

/-- What a normalization leaves: there is nothing to clean up, and nothing is marked. -/
structure Normalized (g : Graph) : Prop where
  wellFormed : g.WellFormed
  tidy : g.Tidy Registry.standard.isFixed
  unmarked : ∀ id, g.flag? id ≠ some true

lemma normalized_of_gives (hg : g.WellFormed) (hx : Gives (standardWith rules).normalize g () h) :
    Normalized h :=
  have hn : (standardWith rules).Normal h := normal_of_gives hg hx
  ⟨hn.wellFormed, hn.tidy, hn.unmarked⟩

/-- Inference finds an order of evaluation. -/
lemma acyclic_of_normalize (hg : g.WellFormed) (hx : Gives p.normalize g () h) : h.Acyclic := by
  obtain ⟨report, k, n, hclean, hinfer⟩ := gives_normalize hx
  have hk : k.WellFormed := hclean.keeps (keeps_cleanUp _) hg
  have hskel : h.skeleton = k.skeleton :=
    hinfer.keeps (p.registry.keeps_inferMarked_of (Graph.unaffected_skeleton _)) rfl
  obtain ⟨l, hl, -⟩ := Registry.gives_inferMarked.1 hinfer
  exact (Graph.ordered_of_evalOrder (Graph.evalOrder_of_skeleton hskel hl)).acyclic
    (hk.of_skeleton hskel)

/-! ### Passes -/

/-- A pass over the structure, applied once and normalized. -/
def Passed (p : Pipeline) (t : Transformation) (g h : Graph) : Prop :=
  ∃ k, Gives t.apply g () k ∧ Gives p.normalize k () h

/-- A pass over the structure, applied until the revision stays as it is. -/
inductive Settles (p : Pipeline) (t : Transformation) : Graph → Graph → Prop
  | last {g k h : Graph} : Gives t.apply g () k → k.revision = g.revision →
      Gives p.normalize k () h → Settles p t g h
  | more {g k h : Graph} : p.Passed t g k → Settles p t k h → Settles p t g h

lemma passed_of_applyOnce {t : Transformation} (ht : t.descriptor.kind = .pattern) {b : Bool}
    (hx : Session.Gives (p.applyOnce t) g b h) : p.Passed t g h := by
  obtain ⟨k, happly, -, hnormal⟩ := gives_applyOnce hx
  rw [if_pos ht] at hnormal
  exact ⟨k, happly, hnormal⟩

lemma settles_of_applyRepeatedly {t : Transformation} (ht : t.descriptor.kind = .pattern) {n : Nat}
    (hx : Session.Gives (p.applyRepeatedly t n) g () h) : p.Settles t g h := by
  induction n generalizing g with
  | zero => exact absurd hx Session.Gives.fail
  | succ n ih =>
    obtain ⟨b, k, hfirst, hrest⟩ := hx.bind
    split at hrest
    · exact .more (passed_of_applyOnce ht hfirst) (ih hrest)
    · next hb =>
      obtain ⟨-, rfl⟩ := hrest.pure
      obtain ⟨m, happly, hchanged, hnormal⟩ := gives_applyOnce hfirst
      rw [if_pos ht] at hnormal
      refine .last happly ?_ hnormal
      simpa [hchanged] using hb

lemma applyOnce_of_runOne {t : Transformation} (ht : t.descriptor.mode = .once)
    (hx : Session.Gives (p.runOne t) g () h) : ∃ b, Session.Gives (p.applyOnce t) g b h := by
  unfold runOne at hx
  rw [ht] at hx
  exact hx.discard

/-- A stage of which the transformations are known enters it and runs them in turn. -/
lemma gives_runStage {ts : List Transformation} {s : Stage} (hs : p.options.stages.contains s)
    (hx : Session.Gives (p.runStage ts s) g () h) :
    Session.Gives ((ts.filter (·.descriptor.stage = s)).forM fun t =>
      (p.runOne t).within ("Running transformation " ++ t.descriptor.id))
      { g with stage := s } () h := by
  unfold runStage at hx
  rw [if_pos hs] at hx
  obtain ⟨_, k, henter, hx⟩ := hx.bind
  obtain ⟨-, rfl⟩ := henter.liftM
  exact hx

/-- **Runs of the standard pipeline**: the graph is normalized, queues are replaced, identities are
removed until none is left, reshapes are pinned, and axes are written without a sign. -/
theorem gives_optimize (hx : Gives (standardWith rules).optimize g () h) : ∃ g₀ g₁ g₂ g₃,
    Gives (standardWith rules).normalize g () g₀ ∧
    (standardWith rules).Passed .replaceQueues { g₀ with stage := .front } g₁ ∧
    (standardWith rules).Settles .removeIdentity { g₁ with stage := .middle } g₂ ∧
    (standardWith rules).Passed .pinReshapes { g₂ with stage := .back } g₃ ∧
    Gives Transformation.normalizeGatherAxes.apply g₃ () h := by
  have horder : Schedule.order (Transformation.standard.map (·.descriptor)) = .ok [0, 1, 2, 3] := by
    decide +kernel
  have hschedule : (standardWith rules).schedule = .ok Transformation.standard := by
    show (Schedule.order (Transformation.standard.map (·.descriptor)) >>= _) = _
    rw [horder]
    rfl
  obtain ⟨⟨r, count⟩, k, hrun, hlift⟩ := gives_bind.1 hx
  obtain ⟨rfl, rfl⟩ := Edit.gives_lift.1 hlift
  have hrun : Session.Gives (standardWith rules).optimizeIn g () k := ⟨0, count, hrun⟩
  obtain ⟨ts, g', hts, hrest⟩ := hrun.bind
  obtain rfl := Except.ok.inj (hschedule.symm.trans (gives_scheduleLogged hts.liftM))
  obtain rfl : g' = g := hts.liftM.keeps (P := (· = g)) keeps_scheduleLogged rfl
  obtain ⟨_, g₀, hnormal, hrest⟩ := hrest.bind
  obtain ⟨_, k', hstages, hrest⟩ := hrest.bind
  obtain rfl : k' = k := by
    obtain ⟨n, _, hcount, hnote⟩ := hrest.bind
    obtain ⟨_, _, hcount⟩ := hcount
    obtain ⟨-, rfl⟩ := Edit.gives_pure.1 hcount
    exact gives_note.1 hnote.liftM
  obtain ⟨_, _, hfront, hstages⟩ := hstages.bind
  obtain ⟨_, _, hmiddle, hstages⟩ := hstages.bind
  obtain ⟨_, _, hback, hstages⟩ := hstages.bind
  obtain ⟨-, rfl⟩ := hstages.pure
  -- each stage runs its own transformations
  obtain ⟨_, _, hqueues, hfront⟩ := (gives_runStage rfl hfront).bind
  obtain ⟨-, rfl⟩ := hfront.pure
  obtain ⟨_, _, hidentities, hmiddle⟩ := (gives_runStage rfl hmiddle).bind
  obtain ⟨-, rfl⟩ := hmiddle.pure
  obtain ⟨_, g₃, hreshapes, hback⟩ := (gives_runStage rfl hback).bind
  obtain ⟨_, _, haxes, hback⟩ := hback.bind
  obtain ⟨-, rfl⟩ := hback.pure
  obtain ⟨_, hqueues⟩ := applyOnce_of_runOne rfl hqueues.within
  obtain ⟨_, hreshapes⟩ := applyOnce_of_runOne rfl hreshapes.within
  obtain ⟨_, haxes⟩ := applyOnce_of_runOne rfl haxes.within
  obtain ⟨_, happly, -, rfl⟩ := gives_applyOnce haxes
  exact ⟨g₀, _, _, g₃, gives_within.1 hnormal.lift, passed_of_applyOnce rfl hqueues,
    settles_of_applyRepeatedly rfl hidentities.within, passed_of_applyOnce rfl hreshapes, happly⟩

end Pipeline

end TensorGraph
