import TensorGraph.Inference.Standard
import TensorGraph.Proofs.Effects
import TensorGraph.Proofs.Structure

/-!
What each standard rule writes.

For each rule one lemma says when its evaluation in a scene succeeds and with which writes. Most
rules say the shape of output 0 and, where it is folded, the value (`shaped`).
-/

namespace TensorGraph

variable {α β : Type}

/-- A shape that may be written: no dimension is below `-1`. -/
def Shape.Valid (s : Shape) : Prop := ∀ d ∈ s, -1 ≤ d

/-- The writes that say the shape of an output, and its value if there is one. -/
def shaped (p : Nat) (shape : Shape) : Option Tensor → List Write
  | none => [.outputShape p shape]
  | some value => [.outputShape p shape, .outputValue p value]

/-- What is known when the shape is said, and then the value if there is one. -/
def Fact.known (shape : Shape) : Option Tensor → Fact
  | none => .ofShape shape
  | some value => .ofValue value

namespace RuleM

variable {s : Scene} {ws : List Write} {u : Unit}

/-! ### Programs step by step -/

section

variable {k : α → RuleM β} {a : α} {e : Error}

lemma eval_read_of_ok {f : RuleView → Except Error α} (h : f s.view = .ok a) :
    (read f >>= k).eval s = (k a).eval s := by
  rw [eval_bind, eval_read, h]
  show ((k a).eval s >>= fun r => .ok (r.1, [] ++ r.2)) = _
  rcases (k a).eval s with e | r <;> rfl

lemma eval_lift_of_ok {x : Except Error α} (h : x = .ok a) :
    ((liftM x : RuleM α) >>= k).eval s = (k a).eval s := by
  rw [eval_bind, eval_liftM, h]
  show ((k a).eval s >>= fun r => .ok (r.1, [] ++ r.2)) = _
  rcases (k a).eval s with e | r <;> rfl

lemma eval_lift_of_error {x : Except Error α} (h : x = .error e) :
    ((liftM x : RuleM α) >>= k).eval s = .error e := by
  rw [eval_bind, eval_liftM, h]
  rfl

/-- A write that is not refused and that the rest fails after. -/
lemma eval_perform_of_error {w : Write} {k : Unit → RuleM β} (hw : s.refusal w = none)
    (h : (k ()).eval (s.after w) = .error e) : (perform w >>= k).eval s = .error e := by
  rw [eval_bind, eval_perform, hw]
  show ((k ()).eval (s.after w) >>= fun r => _) = _
  rw [h]
  rfl

end

/-! ### Programs that succeed -/

lemma eval_bind_eq_ok {m : RuleM α} {f : α → RuleM β} {b : β} :
    (m >>= f).eval s = .ok (b, ws) ↔ ∃ a ws₁ ws₂, m.eval s = .ok (a, ws₁) ∧
      (f a).eval (ws₁.foldl Scene.after s) = .ok (b, ws₂) ∧ ws = ws₁ ++ ws₂ := by
  rw [eval_bind]
  constructor
  · intro h
    obtain ⟨⟨a, ws₁⟩, hm, h⟩ := bind_eq_ok.1 h
    obtain ⟨⟨b', ws₂⟩, hf, h⟩ := bind_eq_ok.1 h
    cases h
    exact ⟨a, ws₁, ws₂, hm, hf, rfl⟩
  · rintro ⟨a, ws₁, ws₂, hm, hf, rfl⟩
    exact bind_eq_ok.2 ⟨(a, ws₁), hm, bind_eq_ok.2 ⟨(b, ws₂), hf, rfl⟩⟩

lemma eval_pure_eq_ok {a b : α} : (pure a : RuleM α).eval s = .ok (b, ws) ↔ a = b ∧ ws = [] := by
  simp [eq_comm]

lemma eval_lift_eq_ok {x : Except Error α} {a : α} :
    (liftM x : RuleM α).eval s = .ok (a, ws) ↔ x = .ok a ∧ ws = [] := by
  rcases x with e | b <;> simp [Except.map, eq_comm]

lemma eval_read_eq_ok {f : RuleView → Except Error α} {a : α} :
    (read f).eval s = .ok (a, ws) ↔ f s.view = .ok a ∧ ws = [] := by
  rw [eval_read]
  rcases f s.view with e | b <;> simp [Except.map, eq_comm]

/-- The rest of a program that first reads something. -/
lemma eval_read_bind {f : RuleView → Except Error α} {k : α → RuleM β} {b : β} :
    (read f >>= k).eval s = .ok (b, ws) ↔ ∃ a, f s.view = .ok a ∧ (k a).eval s = .ok (b, ws) := by
  rw [eval_bind_eq_ok]
  simp only [eval_read_eq_ok]
  constructor
  · rintro ⟨a, _, ws₂, ⟨ha, rfl⟩, hk, rfl⟩
    exact ⟨a, ha, hk⟩
  · rintro ⟨a, ha, hk⟩
    exact ⟨a, [], ws, ⟨ha, rfl⟩, hk, rfl⟩

lemma eval_lift_bind {x : Except Error α} {k : α → RuleM β} {b : β} :
    ((liftM x : RuleM α) >>= k).eval s = .ok (b, ws) ↔
      ∃ a, x = .ok a ∧ (k a).eval s = .ok (b, ws) := by
  rw [eval_bind_eq_ok]
  simp only [eval_lift_eq_ok]
  constructor
  · rintro ⟨a, _, ws₂, ⟨ha, rfl⟩, hk, rfl⟩
    exact ⟨a, ha, hk⟩
  · rintro ⟨a, ha, hk⟩
    exact ⟨a, [], ws, ⟨ha, rfl⟩, hk, rfl⟩

lemma refusal_eq_none {p : Nat} {shape : Shape} :
    s.refusal (.outputShape p shape) = none ↔ shape.Valid := by
  rw [refusal_outputShape, Option.map_eq_none_iff, List.find?_eq_none]
  exact forall₂_congr fun d _ => by simp

lemma eval_setOutputShape {p : Nat} {shape : Shape} :
    (setOutputShape p shape).eval s = .ok (u, ws) ↔ shape.Valid ∧ ws = [.outputShape p shape] := by
  unfold setOutputShape
  rw [eval_perform, ← refusal_eq_none (s := s) (p := p)]
  rcases s.refusal (.outputShape p shape) with _ | e <;> simp [eq_comm]

lemma eval_setOutputValue {p : Nat} {value : Tensor} :
    (setOutputValue p value).eval s = .ok (u, ws) ↔ ws = [.outputValue p value] := by
  show Except.ok ((), [Write.outputValue p value]) = .ok (u, ws) ↔ _
  simp [eq_comm]

lemma eval_setOutputUnknown {p : Nat} :
    (setOutputUnknown p).eval s = .ok (u, ws) ↔ ws = [.outputUnknown p] := by
  show Except.ok ((), [Write.outputUnknown p]) = .ok (u, ws) ↔ _
  simp [eq_comm]

lemma eval_setAttribute {name : String} {value : Attribute} :
    (setAttribute name value).eval s = .ok (u, ws) ↔ ws = [.attr name value] := by
  show Except.ok ((), [Write.attr name value]) = .ok (u, ws) ↔ _
  simp [eq_comm]

lemma eval_setInputValue {p : Nat} {value : Tensor} :
    (setInputValue p value).eval s = .ok (u, ws) ↔
      (∃ b, s.inputIsShared p = .ok b) ∧ ws = [.inputValue p value] := by
  unfold setInputValue
  rw [eval_perform]
  unfold Scene.refusal
  rcases h : s.inputIsShared p with e | b <;> simp [h, eq_comm]

/-- The shape of an output is said, then perhaps the value; the rest sees the same scene. -/
lemma eval_setOutputShape_bind {p : Nat} {shape : Shape} {k : Unit → Rule} :
    (setOutputShape p shape >>= k).eval s = .ok (u, ws) ↔
      shape.Valid ∧ ∃ ws', (k ()).eval s = .ok (u, ws') ∧ ws = .outputShape p shape :: ws' := by
  rw [eval_bind_eq_ok]
  simp only [eval_setOutputShape]
  constructor
  · rintro ⟨_, _, ws₂, ⟨hvalid, rfl⟩, hk, rfl⟩
    exact ⟨hvalid, ws₂, hk, rfl⟩
  · rintro ⟨hvalid, ws₂, hk, rfl⟩
    exact ⟨(), _, ws₂, ⟨hvalid, rfl⟩, hk, rfl⟩

lemma eval_setOutputValue? {p : Nat} {value : Option Tensor} {shape : Shape} :
    (∃ ws', (setOutputValue? p value).eval s = .ok (u, ws') ∧
      ws = .outputShape p shape :: ws') ↔ ws = shaped p shape value := by
  cases value with
  | none =>
    show (∃ ws', Except.ok ((), []) = .ok (u, ws') ∧ ws = _) ↔ _
    simp [shaped]
  | some value =>
    unfold setOutputValue?
    simp only [eval_setOutputValue, exists_eq_left, shaped]

end RuleM

namespace Rules

open RuleM
open Edit (ensure_eq_ok)

variable {s : Scene} {ws : List Write} {u : Unit}

/-! ### Ends of a model -/

lemma eval_parameter : parameter.eval s = .ok (u, ws) ↔
    ∃ shape : Shape, s.ints "shape" = .ok shape ∧ shape.Valid ∧ ws = [.outputShape 0 shape] := by
  unfold parameter
  simp only [eval_read_bind, eval_setOutputShape]
  exact Iff.rfl

lemma eval_constant : constant.eval s = .ok (u, ws) ↔
    ∃ t, (s.attr? "value").bind (·.toTensor?) = some t ∧ ws = [.outputValue 0 t] := by
  unfold constant
  rw [eval_read_bind]
  show (∃ a, Except.ok ((s.attr? "value").bind (·.toTensor?)) = .ok a ∧ _) ↔ _
  simp only [Except.ok.injEq, exists_eq_left']
  rcases (s.attr? "value").bind (·.toTensor?) with _ | t
  · simp
  · simp only [eval_setOutputValue, Option.some.injEq, exists_eq_left']

lemma eval_output : output.eval s = .ok (u, ws) ↔ ws = [] := by
  show Except.ok ((), []) = .ok (u, ws) ↔ _
  simp [eq_comm]

lemma eval_queue : queue.eval s = .ok (u, ws) ↔ ws = s.outputPorts.map .outputUnknown := by
  unfold queue
  rw [eval_setOutputsUnknown]
  simp [eq_comm]

/-! ### Operations on elements -/

/-- A rule that passes the shape of input 0 on, and a value made of that of input 0. -/
lemma eval_elementwise {f : Option Tensor → Option Tensor} :
    (do
      setOutputShape 0 (← read (·.inputShape 0))
      setOutputValue? 0 (f (← read (·.inputValue 0))) : Rule).eval s = .ok (u, ws) ↔
    ∃ a v, s.inputShape 0 = .ok a ∧ a.Valid ∧ s.inputValue 0 = .ok v ∧
      ws = shaped 0 a (f v) := by
  simp only [eval_read_bind, eval_setOutputShape_bind]
  constructor
  · rintro ⟨a, ha, hvalid, ws', ⟨v, hv, hx⟩, rfl⟩
    exact ⟨a, v, ha, hvalid, hv, eval_setOutputValue?.1 ⟨ws', hx, rfl⟩⟩
  · rintro ⟨a, v, ha, hvalid, hv, hws⟩
    obtain ⟨ws', hx, rfl⟩ := (eval_setOutputValue? (s := s) (u := u)).2 hws
    exact ⟨a, ha, hvalid, ws', ⟨v, hv, hx⟩, rfl⟩

lemma eval_unary {f : Elementwise.Unary} : (unary f).eval s = .ok (u, ws) ↔
    ∃ a v, s.inputShape 0 = .ok a ∧ a.Valid ∧ s.inputValue 0 = .ok v ∧
      ws = shaped 0 a (v.bind (·.foldUnary f)) :=
  eval_elementwise (f := (·.bind (·.foldUnary f)))

lemma eval_identity : identity.eval s = .ok (u, ws) ↔
    ∃ a v, s.inputShape 0 = .ok a ∧ a.Valid ∧ s.inputValue 0 = .ok v ∧ ws = shaped 0 a v :=
  eval_elementwise (f := id)

lemma eval_convert : convert.eval s = .ok (u, ws) ↔
    ∃ name type a v, s.string "destination_type" = .ok name ∧ destinationType name = .ok type ∧
      s.inputShape 0 = .ok a ∧ a.Valid ∧ s.inputValue 0 = .ok v ∧
      ws = shaped 0 a (v.map (·.cast type)) := by
  unfold convert
  rw [eval_read_bind]
  simp only [eval_lift_bind, eval_elementwise (f := (·.map (·.cast _)))]
  constructor
  · rintro ⟨name, hname, type, htype, a, v, hrest⟩
    exact ⟨name, type, a, v, hname, htype, hrest⟩
  · rintro ⟨name, type, a, v, hname, htype, hrest⟩
    exact ⟨name, hname, type, htype, a, v, hrest⟩

lemma eval_binary {f : Elementwise.Binary} : (binary f).eval s = .ok (u, ws) ↔
    ∃ a b shape x y v, s.inputShape 0 = .ok a ∧ s.inputShape 1 = .ok b ∧
      Shape.broadcast [a, b] = .ok shape ∧ shape.Valid ∧ s.inputValue 0 = .ok x ∧
      s.inputValue 1 = .ok y ∧ foldBoth f shape x y = .ok v ∧ ws = shaped 0 shape v := by
  unfold binary
  simp only [eval_read_bind, eval_lift_bind, eval_setOutputShape_bind]
  constructor
  · rintro ⟨a, ha, b, hb, shape, hshape, hvalid, ws', ⟨x, hx, y, hy, v, hv, hev⟩, rfl⟩
    exact ⟨a, b, shape, x, y, v, ha, hb, hshape, hvalid, hx, hy, hv,
      eval_setOutputValue?.1 ⟨ws', hev, rfl⟩⟩
  · rintro ⟨a, b, shape, x, y, v, ha, hb, hshape, hvalid, hx, hy, hv, hws⟩
    obtain ⟨ws', hev, rfl⟩ := (eval_setOutputValue? (s := s) (u := u)).2 hws
    exact ⟨a, ha, b, hb, shape, hshape, hvalid, ws', ⟨x, hx, y, hy, v, hv, hev⟩, rfl⟩

/-- A value that is made of two, if there are two. -/
def bothValues (f : Tensor → Tensor → Except Error Tensor) :
    Option Tensor → Option Tensor → Except Error (Option Tensor)
  | some x, some y => (f x y).map some
  | _, _ => .ok none

/-- The end of a rule that folds two values. -/
lemma eval_bothValues {f : Tensor → Tensor → Except Error Tensor} {x y : Option Tensor}
    {shape : Shape} {p : Nat} :
    (∃ ws', (match x, y with
      | some x, some y => do setOutputValue p (← f x y)
      | _, _ => pure () : Rule).eval s = .ok (u, ws') ∧ ws = .outputShape p shape :: ws') ↔
    ∃ v, bothValues f x y = .ok v ∧ ws = shaped p shape v := by
  have hnone : (∃ ws', (pure () : Rule).eval s = .ok (u, ws') ∧
      ws = .outputShape p shape :: ws') ↔
      ∃ v, (.ok none : Except Error (Option Tensor)) = .ok v ∧ ws = shaped p shape v := by
    simp only [eval_pure_eq_ok, true_and, exists_eq_left, Except.ok.injEq, exists_eq_left', shaped]
  rcases x with _ | x <;> rcases y with _ | y
  · exact hnone
  · exact hnone
  · exact hnone
  · simp only [eval_lift_bind, eval_setOutputValue, bothValues, map_eq_ok]
    constructor
    · rintro ⟨_, ⟨v, hv, rfl⟩, rfl⟩
      exact ⟨some v, ⟨v, hv, rfl⟩, rfl⟩
    · rintro ⟨_, ⟨v, hv, rfl⟩, rfl⟩
      exact ⟨_, ⟨v, hv, rfl⟩, rfl⟩

lemma eval_gather : gather.eval s = .ok (u, ws) ↔
    ∃ data indices axis' axis x i v, s.inputShape 0 = .ok data ∧ s.inputShape 1 = .ok indices ∧
      data.length = indices.length ∧ s.int "axis" = .ok axis' ∧
      Shape.normalizeAxis axis' (Shape.signed data.length) = .ok axis ∧
      checkGatherAxes axis data indices = .ok () ∧ indices.Valid ∧ s.inputValue 0 = .ok x ∧
      s.inputValue 1 = .ok i ∧ bothValues (·.gather · axis) x i = .ok v ∧
      ws = shaped 0 indices v := by
  unfold gather
  simp only [eval_read_bind, eval_lift_bind, eval_setOutputShape_bind, ensure_eq_ok]
  constructor
  · rintro ⟨data, hdata, indices, hindices, -, hlen, axis', haxis', axis, haxis, ⟨⟩, hcheck,
      hvalid, ws', ⟨x, hx, i, hi, hev⟩, rfl⟩
    obtain ⟨v, hv, hws⟩ := eval_bothValues.1 ⟨ws', hev, rfl⟩
    exact ⟨data, indices, axis', axis, x, i, v, hdata, hindices, hlen, haxis', haxis,
      hcheck, hvalid,
      hx, hi, hv, hws⟩
  · rintro ⟨data, indices, axis', axis, x, i, v, hdata, hindices, hlen, haxis', haxis, hcheck,
      hvalid, hx, hi, hv, hws⟩
    obtain ⟨ws', hev, rfl⟩ := (eval_bothValues (s := s) (u := u)).2 ⟨v, hv, hws⟩
    exact ⟨data, hdata, indices, hindices, (), hlen, axis', haxis', axis, haxis, (), hcheck, hvalid,
      ws', ⟨x, hx, i, hi, hev⟩, rfl⟩

lemma eval_product : product.eval s = .ok (u, ws) ↔
    ∃ tA tB a b shape x y v, s.bool "transpose_a" = .ok tA ∧ s.bool "transpose_b" = .ok tB ∧
      s.inputShape 0 = .ok a ∧ s.inputShape 1 = .ok b ∧ Shape.product a b tA tB = .ok shape ∧
      shape.Valid ∧ s.inputValue 0 = .ok x ∧ s.inputValue 1 = .ok y ∧
      bothValues (·.product · tA tB) x y = .ok v ∧ ws = shaped 0 shape v := by
  unfold product
  simp only [eval_read_bind, eval_lift_bind, eval_setOutputShape_bind]
  constructor
  · rintro ⟨tA, htA, tB, htB, a, ha, b, hb, shape, hshape, hvalid, ws', ⟨x, hx, y, hy, hev⟩, rfl⟩
    obtain ⟨v, hv, hws⟩ := eval_bothValues.1 ⟨ws', hev, rfl⟩
    exact ⟨tA, tB, a, b, shape, x, y, v, htA, htB, ha, hb, hshape, hvalid, hx, hy, hv, hws⟩
  · rintro ⟨tA, tB, a, b, shape, x, y, v, htA, htB, ha, hb, hshape, hvalid, hx, hy, hv, hws⟩
    obtain ⟨ws', hev, rfl⟩ := (eval_bothValues (s := s) (u := u)).2 ⟨v, hv, hws⟩
    exact ⟨tA, htA, tB, htB, a, ha, b, hb, shape, hshape, hvalid, ws', ⟨x, hx, y, hy, hev⟩, rfl⟩

/-! ### Changes of shape -/

/-- The writes that say a rank, if it is known. -/
def ranked : Option Nat → List Write
  | some rank => [.outputShape 0 (unknownShape rank)]
  | none => [.outputUnknown 0]

lemma valid_unknownShape (rank : Nat) : (unknownShape rank).Valid := by
  intro d hd
  have heq : d = -1 := List.eq_of_mem_replicate hd
  omega

/-- The rank that the shape of a pattern tells. -/
def patternRank : Shape → Option Nat
  | [rank] => if 0 ≤ rank then some rank.toNat else none
  | _ => none

lemma eval_reshapeUnknown {b : Shape} :
    (reshapeUnknown b).eval s = .ok (u, ws) ↔ ws = ranked (patternRank b) := by
  have hunknown : (setOutputUnknown 0).eval s = .ok (u, ws) ↔ ws = ranked none :=
    eval_setOutputUnknown
  rcases b with _ | ⟨rank, _ | ⟨c, l⟩⟩
  · exact hunknown
  · simp only [reshapeUnknown, patternRank]
    split
    · rw [eval_setOutputShape]
      exact and_iff_right (valid_unknownShape _)
    · exact hunknown
  · exact hunknown

/-- The value of an input in a new shape, if there is one. -/
def reshapedValue (shape : Shape) : Option Tensor → Except Error (Option Tensor)
  | some t => (t.reshape shape.toSizes).map some
  | none => .ok none

lemma eval_reshapeValue {shape : Shape} :
    (∃ ws', (reshapeValue shape).eval s = .ok (u, ws') ∧ ws = .outputShape 0 shape :: ws') ↔
      ∃ x v, s.inputValue 0 = .ok x ∧ reshapedValue shape x = .ok v ∧ ws = shaped 0 shape v := by
  unfold reshapeValue
  simp only [eval_read_bind]
  constructor
  · rintro ⟨ws', ⟨x, hx, hev⟩, rfl⟩
    rcases x with _ | t
    · obtain ⟨-, rfl⟩ := eval_pure_eq_ok.1 hev
      exact ⟨none, none, hx, rfl, rfl⟩
    · simp only [eval_lift_bind, eval_setOutputValue] at hev
      obtain ⟨v, hv, rfl⟩ := hev
      exact ⟨some t, some v, hx, map_eq_ok.2 ⟨v, hv, rfl⟩, rfl⟩
  · rintro ⟨x, v, hx, hv, rfl⟩
    rcases x with _ | t
    · cases hv
      exact ⟨[], ⟨none, hx, rfl⟩, rfl⟩
    · obtain ⟨v', hv', rfl⟩ := map_eq_ok.1 hv
      refine ⟨[.outputValue 0 v'], ⟨some t, hx, ?_⟩, rfl⟩
      simp only [eval_lift_bind, eval_setOutputValue]
      exact ⟨v', hv', rfl⟩

lemma eval_reshape : reshape.eval s = .ok (u, ws) ↔
    ∃ copyZero input pattern?, s.bool "special_zero" = .ok copyZero ∧
      s.inputShape 0 = .ok input ∧ s.inputValue 1 = .ok pattern? ∧
      match pattern? with
      | none => ∃ b, s.inputShape 1 = .ok b ∧ ws = ranked (patternRank b)
      | some pattern => ∃ shape x v, Shape.reshape input pattern.toInts copyZero = .ok shape ∧
          shape.Valid ∧ s.inputValue 0 = .ok x ∧ reshapedValue shape x = .ok v ∧
          ws = shaped 0 shape v := by
  unfold reshape
  simp only [eval_read_bind]
  constructor
  · rintro ⟨copyZero, hzero, input, hinput, pattern?, hpattern, hev⟩
    refine ⟨copyZero, input, pattern?, hzero, hinput, hpattern, ?_⟩
    rcases pattern? with _ | pattern
    · simp only [eval_read_bind, eval_reshapeUnknown] at hev
      exact hev
    · simp only [eval_lift_bind, eval_setOutputShape_bind] at hev
      obtain ⟨shape, hshape, hvalid, ws', hev, rfl⟩ := hev
      obtain ⟨x, v, hx, hv, hws⟩ := eval_reshapeValue.1 ⟨ws', hev, rfl⟩
      exact ⟨shape, x, v, hshape, hvalid, hx, hv, hws⟩
  · rintro ⟨copyZero, input, pattern?, hzero, hinput, hpattern, hrest⟩
    refine ⟨copyZero, hzero, input, hinput, pattern?, hpattern, ?_⟩
    rcases pattern? with _ | pattern
    · simp only [eval_read_bind, eval_reshapeUnknown]
      exact hrest
    · obtain ⟨shape, x, v, hshape, hvalid, hx, hv, hws⟩ := hrest
      obtain ⟨ws', hev, rfl⟩ := (eval_reshapeValue (u := u)).2 ⟨x, v, hx, hv, hws⟩
      simp only [eval_lift_bind, eval_setOutputShape_bind]
      exact ⟨shape, hshape, hvalid, ws', hev, rfl⟩

/-- The write of the axes counted from the left, when they differ from those given and no other
operation reads them. -/
def axesWrites (shared : Except Error Bool) (axes : Tensor) (normalized : List Int) :
    Except Error (List Write) :=
  if normalized = axes.toInts then .ok []
  else do
    if ← shared then return []
    return [.inputValue 1 (.i64 (← Grid.ofCells axes.shape (normalized.map Int64.ofInt)))]

lemma eval_replaceAxes {axes : Tensor} {normalized : List Int} :
    (replaceAxes axes normalized).eval s = .ok (u, ws) ↔
      axesWrites (s.inputIsShared 1) axes normalized = .ok ws := by
  unfold replaceAxes axesWrites
  split
  · rw [eval_pure_eq_ok]
    simp [eq_comm]
  · rw [eval_read_bind]
    show (∃ b, s.inputIsShared 1 = .ok b ∧ _) ↔ _
    rcases hs : s.inputIsShared 1 with e | shared
    · simp
    · simp only [Except.ok.injEq, exists_eq_left', ok_bind]
      cases shared
      · simp only [Bool.false_eq_true, if_false, eval_lift_bind, eval_read_bind]
        simp only [eval_bind_eq_ok, eval_say, eval_setInputValue, bind_eq_ok, map_eq_ok]
        constructor
        · rintro ⟨_, ⟨cells, hcells, rfl⟩, name, -, _, _, ws₂, hsay, ⟨-, rfl⟩, rfl⟩
          cases hsay
          exact ⟨cells, hcells, rfl⟩
        · rintro ⟨cells, hcells, hws⟩
          cases hws
          exact ⟨_, ⟨cells, hcells, rfl⟩, s.name, rfl, (), [], _, rfl, ⟨⟨false, hs⟩, rfl⟩, rfl⟩
      · simp only [if_true, eval_pure_eq_ok]
        simp [pure, Except.pure, eq_comm]

/-- The rank of an unsqueezed input that the shape of the axes tells. -/
def axesRank (rank : Nat) (axes : Shape) : Except Error (Option Nat) :=
  if axes.hasUnknown then .ok none
  else (Shape.volume axes).map fun n => some (rank + n.toNat)

lemma eval_unsqueezeUnknown {rank : Nat} {b : Shape} :
    (unsqueezeUnknown rank b).eval s = .ok (u, ws) ↔
      ∃ r, axesRank rank b = .ok r ∧ ws = ranked r := by
  unfold unsqueezeUnknown axesRank
  split
  · rw [eval_setOutputUnknown]
    simp [ranked]
  · simp only [eval_lift_bind, eval_setOutputShape, map_eq_ok]
    constructor
    · rintro ⟨n, hn, -, rfl⟩
      exact ⟨_, ⟨n, hn, rfl⟩, rfl⟩
    · rintro ⟨_, ⟨n, hn, rfl⟩, rfl⟩
      exact ⟨n, hn, valid_unknownShape _, rfl⟩

/-- Writing the axes leaves the other input. -/
lemma inputValue_axesWrites {axes : Tensor} {normalized : List Int} {ws : List Write}
    (hws : axesWrites (s.inputIsShared 1) axes normalized = .ok ws) :
    (ws.foldl Scene.after s).inputValue 0 = s.inputValue 0 := by
  have hafter : ∀ value, (s.after (.inputValue 1 value)).inputValue 0 = s.inputValue 0 := by
    intro value
    rcases hs : s.inputIsShared 1 with e | b
    · simp only [Scene.after, hs]
    · cases b <;> simp [Scene.after, Scene.inputValue, hs]
  unfold axesWrites at hws
  split at hws
  · cases hws
    rfl
  · obtain ⟨shared, -, hws⟩ := bind_eq_ok.1 hws
    split at hws
    · cases hws
      rfl
    · obtain ⟨cells, -, hws⟩ := bind_eq_ok.1 hws
      cases hws
      exact hafter _

lemma eval_unsqueeze : unsqueeze.eval s = .ok (u, ws) ↔
    ∃ input axes?, s.inputShape 0 = .ok input ∧ s.inputValue 1 = .ok axes? ∧
      match axes? with
      | none => ∃ b r, s.inputShape 1 = .ok b ∧ axesRank input.length b = .ok r ∧ ws = ranked r
      | some axes => ∃ shape normalized wsAxes x v,
          Shape.unsqueeze input axes.toInts = .ok (shape, normalized) ∧
          axesWrites (s.inputIsShared 1) axes (normalized.map Int.ofNat) = .ok wsAxes ∧
          shape.Valid ∧ s.inputValue 0 = .ok x ∧ reshapedValue shape x = .ok v ∧
          ws = wsAxes ++ shaped 0 shape v := by
  unfold unsqueeze
  simp only [eval_read_bind]
  constructor
  · rintro ⟨input, hinput, axes?, haxes, hev⟩
    refine ⟨input, axes?, hinput, haxes, ?_⟩
    rcases axes? with _ | axes
    · simp only [eval_read_bind, eval_unsqueezeUnknown] at hev
      obtain ⟨b, hb, r, hr, hws⟩ := hev
      exact ⟨b, r, hb, hr, hws⟩
    · simp only [eval_lift_bind] at hev
      obtain ⟨⟨shape, normalized⟩, hshape, hev⟩ := hev
      obtain ⟨_, wsAxes, ws₂, haxes', hshaped, rfl⟩ := eval_bind_eq_ok.1 hev
      rw [eval_replaceAxes] at haxes'
      obtain ⟨hvalid, ws', hvalue, rfl⟩ := eval_setOutputShape_bind.1 hshaped
      obtain ⟨x, v, hx, hv, hws⟩ := eval_reshapeValue.1 ⟨ws', hvalue, rfl⟩
      rw [inputValue_axesWrites haxes'] at hx
      exact ⟨shape, normalized, wsAxes, x, v, hshape, haxes', hvalid, hx, hv, by rw [hws]⟩
  · rintro ⟨input, axes?, hinput, haxes, hrest⟩
    refine ⟨input, hinput, axes?, haxes, ?_⟩
    rcases axes? with _ | axes
    · obtain ⟨b, r, hb, hr, hws⟩ := hrest
      simp only [eval_read_bind, eval_unsqueezeUnknown]
      exact ⟨b, hb, r, hr, hws⟩
    · obtain ⟨shape, normalized, wsAxes, x, v, hshape, haxes', hvalid, hx, hv, rfl⟩ := hrest
      simp only [eval_lift_bind]
      refine ⟨(shape, normalized), hshape, eval_bind_eq_ok.2 ⟨(), wsAxes, shaped 0 shape v,
        eval_replaceAxes.2 haxes', ?_, rfl⟩⟩
      rw [← inputValue_axesWrites haxes'] at hx
      obtain ⟨ws', hev, hws⟩ := (eval_reshapeValue (u := u)).2 ⟨x, v, hx, hv, rfl⟩
      exact eval_setOutputShape_bind.2 ⟨hvalid, ws', hev, hws⟩

/-! ### Sparse reshapes -/

/-- The indices of a reshaped sparse tensor, if they are given and every dimension of the new
shape is positive. -/
def sparseValue (indices : Option Tensor) (input output : Shape) :
    Except Error (Option Tensor) :=
  match indices with
  | some indices =>
    if output.all (0 < ·) then (SparseIndices.reshape indices input output).map some else .ok none
  | none => .ok none

/-- The writes that give the new shape, and the indices if they are folded. -/
def sparseWrites (rows rank : Int) (output : Shape) : Option Tensor → List Write
  | none => [.outputShape 0 [rows, rank], .outputValue 1 (.ofInts output)]
  | some v => [.outputShape 0 [rows, rank], .outputValue 1 (.ofInts output), .outputValue 0 v]

lemma eval_sparseIndices {indices : Option Tensor} {input output : Shape} {rows rank : Int} :
    (∃ ws', (match indices with
      | some indices =>
        if output.all (0 < ·) then do
          setOutputValue 0 (← SparseIndices.reshape indices input output)
        else pure ()
      | none => pure () : Rule).eval s = .ok (u, ws') ∧
      ws = .outputShape 0 [rows, rank] :: .outputValue 1 (.ofInts output) :: ws') ↔
    ∃ v, sparseValue indices input output = .ok v ∧ ws = sparseWrites rows rank output v := by
  have hnone : (∃ ws', (pure () : Rule).eval s = .ok (u, ws') ∧
      ws = .outputShape 0 [rows, rank] :: .outputValue 1 (.ofInts output) :: ws') ↔
      ∃ v, (.ok none : Except Error (Option Tensor)) = .ok v ∧
        ws = sparseWrites rows rank output v := by
    simp only [eval_pure_eq_ok, true_and, exists_eq_left, Except.ok.injEq, exists_eq_left',
      sparseWrites]
  unfold sparseValue
  rcases indices with _ | t
  · exact hnone
  · simp only
    split
    · simp only [eval_lift_bind, eval_setOutputValue, map_eq_ok]
      constructor
      · rintro ⟨_, ⟨v, hv, rfl⟩, rfl⟩
        exact ⟨some v, ⟨v, hv, rfl⟩, rfl⟩
      · rintro ⟨_, ⟨v, hv, rfl⟩, rfl⟩
        exact ⟨_, ⟨v, hv, rfl⟩, rfl⟩
    · exact hnone

lemma eval_sparseReshape : sparseReshape.eval s = .ok (u, ws) ↔
    ∃ m rows columns b rank input? new?, s.inputShape 0 = .ok m ∧
      matrixSize m = .ok (rows, columns) ∧ s.inputShape 2 = .ok b ∧ vectorSize b = .ok rank ∧
      Shape.Valid [rows, rank] ∧ s.inputValue 1 = .ok input? ∧ s.inputValue 2 = .ok new? ∧
      match input?, new? with
      | some input, some new => ∃ output indices v,
          (columns < 0 ∨ columns = input.toInts.length) ∧
          Shape.sparseReshape input.toInts new.toInts = .ok output ∧
          s.inputValue 0 = .ok indices ∧ sparseValue indices input.toInts output = .ok v ∧
          ws = sparseWrites rows rank output v
      | _, _ => Shape.Valid [rank] ∧ ws = [.outputShape 0 [rows, rank], .outputShape 1 [rank]] := by
  have hunknown : ∀ {rows rank : Int} (k : Rule), k = setOutputShape 1 [rank] →
      ((∃ ws', k.eval s = .ok (u, ws') ∧ ws = .outputShape 0 [rows, rank] :: ws') ↔
        Shape.Valid [rank] ∧ ws = [.outputShape 0 [rows, rank], .outputShape 1 [rank]]) := by
    rintro rows rank _ rfl
    simp only [eval_setOutputShape]
    constructor
    · rintro ⟨_, ⟨hvalid, rfl⟩, rfl⟩
      exact ⟨hvalid, rfl⟩
    · rintro ⟨hvalid, rfl⟩
      exact ⟨_, ⟨hvalid, rfl⟩, rfl⟩
  unfold sparseReshape
  simp only [eval_read_bind, eval_lift_bind, eval_setOutputShape_bind]
  constructor
  · rintro ⟨m, hm, ⟨rows, columns⟩, hsize, b, hb, rank, hrank, hvalid, ws', ⟨input?, hinput, new?,
      hnew, hev⟩, rfl⟩
    refine ⟨m, rows, columns, b, rank, input?, new?, hm, hsize, hb, hrank, hvalid, hinput, hnew, ?_⟩
    rcases input? with _ | input <;> rcases new? with _ | new
    · exact (hunknown _ rfl).1 ⟨ws', hev, rfl⟩
    · exact (hunknown _ rfl).1 ⟨ws', hev, rfl⟩
    · exact (hunknown _ rfl).1 ⟨ws', hev, rfl⟩
    · simp only [eval_lift_bind, ensure_eq_ok] at hev
      obtain ⟨⟨⟩, hcolumns, output, houtput, hev⟩ := hev
      obtain ⟨_, _, ws₂, hvalue, hrest, rfl⟩ := eval_bind_eq_ok.1 hev
      rw [eval_setOutputValue] at hvalue
      subst hvalue
      obtain ⟨indices, hindices, hrest⟩ := eval_read_bind.1 hrest
      obtain ⟨v, hv, hws⟩ := eval_sparseIndices.1 ⟨ws₂, hrest, rfl⟩
      exact ⟨output, indices, v, hcolumns, houtput, hindices, hv, hws⟩
  · rintro ⟨m, rows, columns, b, rank, input?, new?, hm, hsize, hb, hrank, hvalid, hinput, hnew,
      hrest⟩
    refine ⟨m, hm, (rows, columns), hsize, b, hb, rank, hrank, hvalid, ?_⟩
    rcases input? with _ | input <;> rcases new? with _ | new
    · obtain ⟨ws', hev, rfl⟩ := (hunknown _ rfl).2 hrest
      exact ⟨ws', ⟨none, hinput, none, hnew, hev⟩, rfl⟩
    · obtain ⟨ws', hev, rfl⟩ := (hunknown _ rfl).2 hrest
      exact ⟨ws', ⟨none, hinput, some new, hnew, hev⟩, rfl⟩
    · obtain ⟨ws', hev, rfl⟩ := (hunknown _ rfl).2 hrest
      exact ⟨ws', ⟨some input, hinput, none, hnew, hev⟩, rfl⟩
    · obtain ⟨output, indices, v, hcolumns, houtput, hindices, hv, hws⟩ := hrest
      obtain ⟨ws₂, hev, rfl⟩ := (eval_sparseIndices (s := s) (u := u)).2 ⟨v, hv, hws⟩
      refine ⟨_, ⟨some input, hinput, some new, hnew, ?_⟩, rfl⟩
      simp only [eval_lift_bind, ensure_eq_ok]
      refine ⟨(), hcolumns, output, houtput, eval_bind_eq_ok.2 ⟨(), _, ws₂,
        eval_setOutputValue.2 rfl, eval_read_bind.2 ⟨indices, hindices, hev⟩, rfl⟩⟩

/-! ### Region proposals -/

/-- The write of the scales as texts, if there are any. -/
def scaleWrites : Option Attribute → Except Error (List Write)
  | some scale => (scaleTexts scale).map fun texts => [.attr "scale" (.strings texts)]
  | none => .ok []

lemma eval_replaceScale : replaceScale.eval s = .ok (u, ws) ↔
    scaleWrites (s.attr? "scale") = .ok ws := by
  unfold replaceScale
  rw [eval_read_bind]
  show (∃ a, Except.ok (s.attr? "scale") = .ok a ∧ _) ↔ _
  simp only [Except.ok.injEq, exists_eq_left']
  rcases s.attr? "scale" with _ | scale
  · simp [scaleWrites, eq_comm]
  · simp only [eval_lift_bind, eval_setAttribute, scaleWrites, map_eq_ok]
    exact exists_congr fun texts => and_congr_right fun _ => eq_comm

/-- Writing the scales leaves the other attributes and the output ports. -/
lemma int_scaleWrites {name : String} (hname : name ≠ "scale")
    (hws : scaleWrites (s.attr? "scale") = .ok ws) :
    (ws.foldl Scene.after s).int name = s.int name ∧
      (ws.foldl Scene.after s).outputPorts = s.outputPorts := by
  unfold scaleWrites at hws
  split at hws
  · obtain ⟨texts, -, rfl⟩ := map_eq_ok.1 hws
    refine ⟨?_, rfl⟩
    show (s.after (.attr "scale" (.strings texts))).int name = _
    unfold Scene.int Scene.typed Scene.attr Scene.attr? Scene.after
    simp only [Dict.find?_insert, if_neg hname]
  · cases hws
    exact ⟨rfl, rfl⟩

lemma eval_proposals : proposals.eval s = .ok (u, ws) ↔
    ∃ stride wsScale, s.int "feat_stride" = .ok stride ∧
      scaleWrites (s.attr? "scale") = .ok wsScale ∧
      if stride = supportedStride then
        ∃ n, s.int "post_nms_topn" = .ok n ∧ Shape.Valid [n, 5] ∧
          ws = wsScale ++ [.outputShape 0 [n, 5]]
      else ws = wsScale ++ s.outputPorts.map .outputUnknown := by
  unfold proposals
  rw [eval_read_bind]
  constructor
  · rintro ⟨stride, hstride, hev⟩
    obtain ⟨_, wsScale, ws₂, hscale, hrest, rfl⟩ := eval_bind_eq_ok.1 hev
    rw [eval_replaceScale] at hscale
    refine ⟨stride, wsScale, hstride, hscale, ?_⟩
    split at hrest
    · next hs =>
      rw [if_pos hs]
      obtain ⟨n, hn, hshape⟩ := eval_read_bind.1 hrest
      obtain ⟨hvalid, rfl⟩ := eval_setOutputShape.1 hshape
      exact ⟨n, (int_scaleWrites (by decide) hscale).1.symm.trans hn, hvalid, rfl⟩
    · next hs =>
      rw [if_neg hs]
      obtain ⟨name, -, hlog⟩ := eval_read_bind.1 hrest
      obtain ⟨_, _, ws₃, hsay, hunknown, rfl⟩ := eval_bind_eq_ok.1 hlog
      cases hsay
      rw [List.foldl_nil, eval_setOutputsUnknown] at hunknown
      cases hunknown
      rw [(int_scaleWrites (by decide : "post_nms_topn" ≠ "scale") hscale).2]
      rfl
  · rintro ⟨stride, wsScale, hstride, hscale, hrest⟩
    refine ⟨stride, hstride, ?_⟩
    split at hrest
    · next hs =>
      obtain ⟨n, hn, hvalid, rfl⟩ := hrest
      refine eval_bind_eq_ok.2 ⟨(), wsScale, _, eval_replaceScale.2 hscale, ?_, rfl⟩
      rw [if_pos hs]
      refine eval_read_bind.2 ⟨n, ?_, eval_setOutputShape.2 ⟨hvalid, rfl⟩⟩
      exact (int_scaleWrites (by decide) hscale).1.trans hn
    · next hs =>
      refine eval_bind_eq_ok.2 ⟨(), wsScale, _, eval_replaceScale.2 hscale, ?_, hrest⟩
      rw [if_neg hs]
      refine eval_read_bind.2 ⟨_, rfl, eval_bind_eq_ok.2 ⟨(), [], _, rfl, ?_, rfl⟩⟩
      rw [List.foldl_nil, eval_setOutputsUnknown,
        (int_scaleWrites (by decide : "post_nms_topn" ≠ "scale") hscale).2]

end Rules

end TensorGraph
