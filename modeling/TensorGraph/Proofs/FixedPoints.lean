import TensorGraph.Proofs.Passes
import TensorGraph.Proofs.Revisions

/-!
Transformations that are applied until the graph stays as it is.

The session compares the revisions before and after an application, and normalizes the graph only
then. An application that leaves the revision leaves the graph, and so does the normalization of a
graph that was normal before (`Pipeline.Normal.eq_of_gives`). So the graph at the end is one that
the transformation leaves alone, and a session that gives up has seen the revision move every time
(`runOne_fixedPoint`).
-/

namespace TensorGraph

open Edit

variable {α : Type} {g h : Graph}

/-- An edit through the changes of a graph: it keeps graphs well-formed, leaves the graph as it is
when it leaves the revision, and does not fail as a transformation that never settles. -/
structure Edit.Accountable (x : Edit α) : Prop where
  wellFormed : Keeps Graph.WellFormed x
  unchanged : ∀ {g a h}, Gives x g a h → h.revision = g.revision → h = g
  fails : ∀ {g e}, Fails x g e → e.Ordinary

/-- All edits made of the changes of a graph are accountable, whatever they compute. -/
lemma Edit.Orderly.accountable {x : Edit α} (hx : Structural x) : x.Accountable where
  wellFormed := hx.keeps invariant_wellFormed.shaped
  unchanged hgives hr := by
    obtain ⟨-, rfl⟩ := hgives
    exact (hx.tracked _).eq hr
  fails := hx.fails

namespace Pipeline

variable {p : Pipeline} {t : Transformation}

/-- Applications in a row, each of which moves the revision, with what follows them. -/
inductive Moves (p : Pipeline) (t : Transformation) : Nat → Graph → Graph → Prop
  | none {g : Graph} : Moves p t 0 g g
  | more {n : Nat} {g m k h : Graph} : Gives t.apply g () m → m.revision ≠ g.revision →
      p.Followed t m k → Moves p t n k h → Moves p t (n + 1) g h

/-- The run of at most `n` applications ends at a graph that the transformation leaves alone, or has
moved the revision `n` times. -/
lemma ends_applyRepeatedly (ht : t.apply.Accountable) (n count : Nat)
    (hg : t.descriptor.kind = .pattern → p.Normal g) :
    Session.Ends (p.applyRepeatedly t n) count g fun r count' h =>
      match r with
      | .ok _ => (t.apply.run h).graph = h
      | .error e => e.Ordinary ∨ count' = count + n ∧ p.Moves t n g h := by
  induction n generalizing g count with
  | zero => exact Session.ends_fail (.inr ⟨rfl, .none⟩)
  | succ n ih =>
    refine Session.ends_bind ((ends_applyOnce t count g).mono fun r _ k hr => ?_)
    cases hr with
    | failed he => exact .inl (ht.fails he)
    | astray _ he => exact .inl ((structural_normalize p).fails he)
    | @done m _ happly hnext =>
      by_cases hmoved : m.revision = g.revision
      · obtain rfl := ht.unchanged happly hmoved
        obtain rfl := hnext.eq hg
        rw [decide_eq_false (fun hne => hne rfl)]
        exact Session.ends_pure happly.2
      · have hk : t.descriptor.kind = .pattern → p.Normal k := fun hkind =>
          hnext.normal hkind (happly.keeps ht.wellFormed (hg hkind).wellFormed)
        rw [decide_eq_true hmoved, if_pos hmoved]
        refine (ih (count + 1) hk).mono fun r count' h hr => ?_
        cases r with
        | ok _ => exact hr
        | error e =>
          refine hr.imp_right fun ⟨hcount, hmoves⟩ => ⟨?_, .more happly hmoved hnext hmoves⟩
          omega

end Pipeline

/-- **Fixed points**: a transformation that is applied until the graph stays as it is, from a graph
that is clean and without marks, ends with a graph of which another application does not move the
revision. When it gives up, each of the applications it was allowed moved the revision and was
counted. -/
theorem runOne_fixedPoint {p : Pipeline} {t : Transformation}
    (hmode : t.descriptor.mode = .fixedPoint) (ht : t.apply.Accountable) {g : Graph}
    (hg : g.WellFormed) {report : CleanupReport}
    (hclean : Gives (cleanUp p.registry.isFixed) g report g)
    (hmarks : ∀ id, g.flag? id ≠ some true) {count count' : Nat} {r : Except Error Unit} {h : Graph}
    (hrun : Gives ((p.runOne t).run count) g (r, count') h) :
    (r = .ok () → (t.apply.run h).graph.revision = h.revision) ∧
      ∀ e bound, r = .error e → e.cause = .noFixedPoint bound →
        p.Moves t p.options.maxIterations g h ∧ count' = count + p.options.maxIterations := by
  obtain ⟨port, hcleaned⟩ := cleaned_of_gives hg hclean
  have hn : p.Normal g := ⟨hg, hcleaned.tidy hg, hmarks⟩
  have hloop : p.runOne t = p.applyRepeatedly t p.options.maxIterations := by
    unfold Pipeline.runOne
    rw [hmode]
  rw [hloop] at hrun
  have hend := (Pipeline.ends_applyRepeatedly ht _ count fun _ => hn).of_gives hrun
  constructor
  · rintro rfl
    exact congrArg Graph.revision hend
  · rintro e bound rfl hcause
    obtain hord | ⟨hcount, hmoves⟩ := hend
    · exact absurd hcause (hord bound)
    · exact ⟨hmoves, hcount⟩

/-- Two identities in a row, and an output that reads what they pass on. -/
def passedTwice : Edit Unit := do
  let x ← addParameter "x" [2, 3]
  let a ← wire "a" (.ofKind "Identity") [x]
  let b ← wire "b" (.ofKind "Identity") [a]
  let y ← wire "y" (.ofKind "Relu") [b]
  discard (addResult "out" y)

/-- Touches the outputs of the model, and never leaves the revision. -/
def Transformation.touchResults : Transformation where
  descriptor := { Descriptor.ofKind .attributesOnly "Restless" .middle with mode := .fixedPoint }
  apply := do ((← current).opNodesOf "Result").forM fun id => discard (touch id)

/-- The identities are gone after one application that is counted, and a second one finds none. The
transformation that never settles is counted each time. -/
theorem runOne_fixedPoint_passedTwice :
    let p := Pipeline.standard
    let g := (p.normalize.run (passedTwice.run ∅).graph).graph
    let h := (((p.runOne .removeIdentity).run 0).run g).graph
    let k := (((p.runOne .touchResults).run 0).run g).graph
    g.WellFormed ∧ Gives (cleanUp p.registry.isFixed) g ⟨[], 0⟩ g ∧
      (∀ id, g.flag? id ≠ some true) ∧
      Gives ((p.runOne .removeIdentity).run 0) g (.ok (), 1) h ∧
      Gives ((p.runOne .touchResults).run 0) g (.error (Cause.noFixedPoint 16), 16) k ∧
      (Transformation.removeIdentity.apply.run h).graph.revision = h.revision ∧
      p.Moves .touchResults 16 g k := by
  intro p g h k
  have hnormal : p.Normal g := Pipeline.normal_of_gives (by decide +kernel)
    ⟨toOption_eq_some.1 (by decide +kernel), rfl⟩
  have hclean := gives_cleanUp_of_tidy hnormal.wellFormed hnormal.tidy
  have hremove : Gives ((p.runOne .removeIdentity).run 0) g (.ok (), 1) h :=
    ⟨toOption_eq_some.1 (by decide +kernel), rfl⟩
  have htouch : Gives ((p.runOne .touchResults).run 0) g (.error (Cause.noFixedPoint 16), 16) k :=
    ⟨toOption_eq_some.1 (by decide +kernel), rfl⟩
  have hst : Structural Transformation.removeIdentity.apply :=
    structural_standard (.tail _ (.head _))
  have hst' : Structural Transformation.touchResults.apply :=
    structural_pass fun id => orderly_discard (structural_touch id)
  refine ⟨hnormal.wellFormed, hclean, hnormal.unmarked, hremove, htouch, ?_, ?_⟩
  · exact (runOne_fixedPoint rfl hst.accountable hnormal.wellFormed hclean hnormal.unmarked
      hremove).1 rfl
  · exact ((runOne_fixedPoint rfl hst'.accountable hnormal.wellFormed hclean hnormal.unmarked
      htouch).2 _ 16 rfl rfl).1

end TensorGraph
