import TensorGraph.Proofs.Contents

/-!
What a rule does in a scene.

`RuleM.eval` runs a rule on a scene alone and gives the writes it makes. A rule that only looks at
the scene of its operation, as `RuleM.Local` says, does on a graph what `eval` says: it fails with
the same error, or it leaves the graph that takes up the writes one after the other
(`Graph.absorb`).
-/

namespace TensorGraph

variable {α β : Type}

/-! ### Rules that look at the scene only -/

/-- What a rule looks at does not depend on the graph around the scene. -/
def RuleM.Local : RuleM α → Prop
  | done _ => True
  | fail _ => True
  | inspect next =>
    (∀ v w : RuleView, v.toScene = w.toScene → next v = next w) ∧ ∀ v, (next v).Local
  | note _ _ next => next.Local
  | write _ next => ∀ r, (next r).Local

namespace Scene

/-- A view of the scene, with nothing around it. -/
def view (s : Scene) : RuleView := ⟨s, ∅, ⟨0⟩⟩

/-- Why a write is refused, if it is. -/
def refusal (s : Scene) : Write → Option Error
  | .outputShape _ shape =>
    (shape.find? (· < -1)).map fun bad => Cause.inference s.name (.dimension bad shape)
  | .inputValue port _ =>
    match s.inputIsShared port with
    | .ok _ => none
    | .error e => some e
  | _ => none

end Scene

/-- What is known after something is written: the old fact, if it is equal to the new one. -/
def Fact.update (old new : Fact) : Fact := if old == new then old else new

namespace Scene

/-- The scene after a write. -/
def after (s : Scene) : Write → Scene
  | .attr name value => { s with attributes := s.attributes.insert name value }
  | .inputValue port value =>
    match s.inputIsShared port with
    | .ok false =>
      { s with inputFact := fun p =>
          if p = port then (s.inputFact p).map (·.update (.ofValue value)) else s.inputFact p }
    | _ => s
  | _ => s

end Scene

/-- The result of a rule in a scene, with the writes it makes in order. -/
def RuleM.eval : RuleM α → Scene → Except Error (α × List Write)
  | done a, _ => .ok (a, [])
  | fail e, _ => .error e
  | inspect next, s => (next s.view).eval s
  | note _ _ next, s => next.eval s
  | write w next, s =>
    match s.refusal w with
    | some e => (next (.error e)).eval s
    | none => ((next (.ok ())).eval (s.after w)).map fun r => (r.1, w :: r.2)

namespace RuleM

/-! ### Evaluation of composed rules -/

lemma eval_bind (m : RuleM α) (f : α → RuleM β) (s : Scene) : (m >>= f).eval s = (do
    let (a, ws) ← m.eval s
    let (b, ws') ← (f a).eval (ws.foldl Scene.after s)
    return (b, ws ++ ws')) := by
  show (m.bind f).eval s = _
  induction m generalizing s with
  | done a =>
    show (f a).eval s = (f a).eval s >>= fun r => .ok (r.1, [] ++ r.2)
    rcases (f a).eval s with e | ⟨b, ws⟩ <;> rfl
  | fail e => rfl
  | inspect next ih => exact ih _ s
  | note level text next ih => exact ih s
  | write w next ih =>
    show (RuleM.write w fun r => (next r).bind f).eval s = _
    rw [eval, eval]
    split
    · exact ih _ s
    · rw [ih]
      rcases (next (.ok ())).eval (s.after w) with e | ⟨a, ws⟩
      · rfl
      · show Except.map _ ((f a).eval (ws.foldl Scene.after (s.after w)) >>= _) =
          ((f a).eval (ws.foldl Scene.after (s.after w)) >>= _)
        rcases (f a).eval (ws.foldl Scene.after (s.after w)) with e | ⟨b, ws'⟩ <;> rfl

@[simp] lemma eval_pure (a : α) (s : Scene) : (pure a : RuleM α).eval s = .ok (a, []) := rfl

@[simp] lemma eval_ofExcept (x : Except Error α) (s : Scene) :
    (ofExcept x).eval s = x.map (·, []) := by
  cases x <;> rfl

@[simp] lemma eval_liftM (x : Except Error α) (s : Scene) :
    (liftM x : RuleM α).eval s = x.map (·, []) := eval_ofExcept x s

@[simp] lemma eval_fail (e : Error) (s : Scene) : (RuleM.fail e : RuleM α).eval s = .error e := rfl

@[simp] lemma eval_read (f : RuleView → Except Error α) (s : Scene) :
    (read f).eval s = (f s.view).map (·, []) := eval_ofExcept _ s

@[simp] lemma eval_say (level : Level) (text : String) (s : Scene) :
    (say level text).eval s = .ok ((), []) := rfl

lemma eval_perform (w : Write) (s : Scene) : (perform w).eval s =
    match s.refusal w with
    | some e => .error e
    | none => .ok ((), [w]) := by
  unfold perform
  rw [eval]
  rcases s.refusal w with _ | e <;> rfl

/-! ### Locality of composed rules -/

lemma local_pure (a : α) : (pure a : RuleM α).Local := trivial

lemma local_fail (e : Error) : (RuleM.fail e : RuleM α).Local := trivial

lemma local_ofExcept (x : Except Error α) : (ofExcept x).Local := by
  cases x <;> trivial

lemma local_liftM (x : Except Error α) : (liftM x : RuleM α).Local := local_ofExcept x

lemma local_say (level : Level) (text : String) : (say level text).Local := trivial

lemma local_perform (w : Write) : (perform w).Local := local_ofExcept

lemma local_read {f : RuleView → Except Error α}
    (hf : ∀ v w : RuleView, v.toScene = w.toScene → f v = f w) : (read f).Local := by
  refine ⟨fun v w h => ?_, fun v => local_ofExcept _⟩
  show ofExcept (f v) = ofExcept (f w)
  rw [hf v w h]

lemma local_bind {m : RuleM α} {f : α → RuleM β} (hm : m.Local) (hf : ∀ a, (f a).Local) :
    (m >>= f).Local := by
  show (m.bind f).Local
  induction m with
  | done a => exact hf a
  | fail e => trivial
  | inspect next ih =>
    refine ⟨fun v w h => ?_, fun v => ih v (hm.2 v)⟩
    show (next v).bind f = (next w).bind f
    rw [hm.1 v w h]
  | note level text next ih => exact ih hm
  | write w next ih => exact fun r => ih r (hm r)

lemma local_forM {l : List α} {f : α → Rule} (hf : ∀ a, (f a).Local) : (l.forM f).Local := by
  induction l with
  | nil => exact local_pure ()
  | cons a l ih => exact local_bind (hf a) fun _ => ih

end RuleM

end TensorGraph
