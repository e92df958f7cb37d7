import TensorGraph.Graph.Basic
import TensorGraph.Log

/-!
An edit is a computation on a graph. It may fail, and what it did before failing stays done; it
also logs messages. The laws of a monad hold, so edits compose like programs.
-/

namespace TensorGraph

/-- What an edit leaves: a result or the reason of a failure, the graph as it is then, and the
messages logged on the way. -/
structure Outcome (α : Type) where
  result : Except Error α
  graph : Graph
  log : List Message

/-- A computation on a graph. -/
def Edit (α : Type) : Type := Graph → Outcome α

namespace Edit

variable {α β : Type}

def run (x : Edit α) (g : Graph) : Outcome α := x g

instance : Monad Edit where
  pure a := fun g => ⟨.ok a, g, []⟩
  bind x f := fun g =>
    let first := x g
    match first.result with
    | .ok a =>
      let second := f a first.graph
      ⟨second.result, second.graph, first.log ++ second.log⟩
    | .error e => ⟨.error e, first.graph, first.log⟩

theorem map_id (x : Edit α) : id <$> x = x := funext fun g => by
  show (match (x g).result with | .ok a => _ | .error e => _ : Outcome _) = x g
  rcases x g with ⟨_ | _, _, _⟩ <;> simp [Function.comp]

theorem bind_assoc {γ : Type} (x : Edit α) (f : α → Edit β) (h : β → Edit γ) :
    x >>= f >>= h = x >>= fun a => f a >>= h := funext fun g => by
  simp only [bind]
  rcases x g with ⟨_ | a, g₁, _⟩
  · rfl
  · rcases hf : f a g₁ with ⟨_ | _, _, _⟩ <;> simp [hf]

instance : LawfulMonad Edit := .mk' Edit map_id (fun _ _ => rfl) bind_assoc

def fail (e : Error) : Edit α := fun g => ⟨.error e, g, []⟩

instance : MonadLift (Except Error) Edit := ⟨fun x g => ⟨x, g, []⟩⟩

def current : Edit Graph := fun g => ⟨.ok g, g, []⟩

def query (f : Graph → Except Error α) : Edit α := fun g => ⟨f g, g, []⟩

/-- Changes the graph and moves its revision on by one. -/
def change (f : Graph → Graph) : Edit Unit := fun g =>
  ⟨.ok (), { f g with revision := g.revision + 1 }, []⟩

/-- Enters a stage, which is no change of the graph. -/
def enter (s : Stage) : Edit Unit := fun g => ⟨.ok (), { g with stage := s }, []⟩

def note (level : Level) (text : String) : Edit Unit := fun g => ⟨.ok (), g, [⟨level, text⟩]⟩

/-- Puts a context around the errors of an edit. -/
def within (context : String) (x : Edit α) : Edit α := fun g =>
  let o := x g
  { o with result := o.result.mapError (·.within context) }

/-- Runs an edit and hands on its failure as a result. -/
def attempt (x : Edit α) : Edit (Except Error α) := fun g =>
  let o := x g
  ⟨.ok o.result, o.graph, o.log⟩

/-! ### What each edit leaves -/

@[simp] theorem run_pure (a : α) (g : Graph) : (pure a : Edit α).run g = ⟨.ok a, g, []⟩ := rfl

@[simp] theorem run_fail (e : Error) (g : Graph) :
    (fail e : Edit α).run g = ⟨.error e, g, []⟩ := rfl

@[simp] theorem run_current (g : Graph) : current.run g = ⟨.ok g, g, []⟩ := rfl

@[simp] theorem run_query (f : Graph → Except Error α) (g : Graph) :
    (query f).run g = ⟨f g, g, []⟩ := rfl

@[simp] theorem run_change (f : Graph → Graph) (g : Graph) :
    (change f).run g = ⟨.ok (), { f g with revision := g.revision + 1 }, []⟩ := rfl

@[simp] theorem run_enter (s : Stage) (g : Graph) :
    (enter s).run g = ⟨.ok (), { g with stage := s }, []⟩ := rfl

@[simp] theorem run_note (level : Level) (text : String) (g : Graph) :
    (note level text).run g = ⟨.ok (), g, [⟨level, text⟩]⟩ := rfl

@[simp] theorem run_within (context : String) (x : Edit α) (g : Graph) :
    (within context x).run g =
      { x.run g with result := (x.run g).result.mapError (·.within context) } := rfl

@[simp] theorem run_attempt (x : Edit α) (g : Graph) :
    x.attempt.run g = ⟨.ok (x.run g).result, (x.run g).graph, (x.run g).log⟩ := rfl

theorem run_bind_of_ok {x : Edit α} {g : Graph} {a : α} (h : (x.run g).result = .ok a)
    (f : α → Edit β) : (x >>= f).run g =
      { (f a).run (x.run g).graph with
        log := (x.run g).log ++ ((f a).run (x.run g).graph).log } := by
  simp only [run, bind] at h ⊢
  rw [h]

theorem run_bind_of_error {x : Edit α} {g : Graph} {e : Error} (h : (x.run g).result = .error e)
    (f : α → Edit β) : (x >>= f).run g = ⟨.error e, (x.run g).graph, (x.run g).log⟩ := by
  simp only [run, bind] at h ⊢
  rw [h]

theorem result_bind_eq_ok {x : Edit α} {f : α → Edit β} {g : Graph} {b : β} :
    ((x >>= f).run g).result = .ok b ↔
      ∃ a, (x.run g).result = .ok a ∧ ((f a).run (x.run g).graph).result = .ok b := by
  rcases h : (x.run g).result with e | a
  · simp [run_bind_of_error h]
  · simp [run_bind_of_ok h]

end Edit

end TensorGraph
