import TensorGraph.Inference.View
import TensorGraph.Log

/-!
A rule is a program of reads and writes. It may read everything and write only through the
commands of `Write`, so what a rule can touch is settled by what these do, for all rules at once.
-/

namespace TensorGraph

/-- What a rule may change. -/
inductive Write where
  /-- Sets an attribute of the operation. -/
  | attr (name : String) (value : Attribute)
  /-- Gives an input that has no other consumer a value, and the constant it comes from too. -/
  | inputValue (port : Nat) (value : Tensor)
  /-- Says that all that is known of an output is its shape. -/
  | outputShape (port : Nat) (shape : Shape)
  /-- Gives an output a value, and the shape of the value. -/
  | outputValue (port : Nat) (value : Tensor)
  /-- Says that nothing is known of an output. -/
  | outputUnknown (port : Nat)

/-- A program that reads and writes around one operation and ends with a result or an error. -/
inductive RuleM (α : Type) : Type where
  | done (result : α)
  | fail (e : Error)
  | inspect (next : RuleView → RuleM α)
  | note (level : Level) (text : String) (next : RuleM α)
  | write (w : Write) (next : Except Error Unit → RuleM α)

abbrev Rule := RuleM Unit

namespace RuleM

variable {α β : Type}

def bind : RuleM α → (α → RuleM β) → RuleM β
  | done a, f => f a
  | fail e, _ => fail e
  | inspect next, f => inspect fun v => (next v).bind f
  | note level text next, f => note level text (next.bind f)
  | write w next, f => write w fun r => (next r).bind f

instance : Monad RuleM where
  pure := done
  bind := bind

theorem bind_done (x : RuleM α) : x.bind done = x := by
  induction x with
  | done | fail => rfl
  | inspect next ih => simp [bind, ih]
  | note level text next ih => simp [bind, ih]
  | write w next ih => simp [bind, ih]

theorem bind_bind {γ : Type} (x : RuleM α) (f : α → RuleM β) (h : β → RuleM γ) :
    (x.bind f).bind h = x.bind fun a => (f a).bind h := by
  induction x with
  | done | fail => rfl
  | inspect next ih => simp [bind, ih]
  | note level text next ih => simp [bind, ih]
  | write w next ih => simp [bind, ih]

instance : LawfulMonad RuleM := .mk' RuleM bind_done (fun _ _ => rfl) bind_bind

def ofExcept : Except Error α → RuleM α
  | .ok a => done a
  | .error e => fail e

instance : MonadLift (Except Error) RuleM := ⟨ofExcept⟩

def read (f : RuleView → Except Error α) : RuleM α := inspect fun v => ofExcept (f v)

/-- Writes something, and fails if that does. -/
def perform (w : Write) : Rule := write w ofExcept

def say (level : Level) (text : String) : Rule := note level text (done ())

def setAttribute (name : String) (value : Attribute) : Rule := perform (.attr name value)

/-- Gives an input that has no other consumer a value. -/
def setInputValue (port : Nat) (value : Tensor) : Rule := perform (.inputValue port value)

/-- Says that all that is known of an output is its shape. -/
def setOutputShape (port : Nat) (shape : Shape) : Rule := perform (.outputShape port shape)

def setOutputValue (port : Nat) (value : Tensor) : Rule := perform (.outputValue port value)

def setOutputValue? (port : Nat) : Option Tensor → Rule
  | some value => setOutputValue port value
  | none => pure ()

def setOutputUnknown (port : Nat) : Rule := perform (.outputUnknown port)

def setOutputsUnknown : Rule := do
  (← read fun v => return v.outputPorts).forM setOutputUnknown

end RuleM

end TensorGraph
