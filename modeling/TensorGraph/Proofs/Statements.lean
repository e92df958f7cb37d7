import TensorGraph.Proofs.Precision
import TensorGraph.Proofs.Rewrites

/-!
What the standard rules write, in order.

An operation first writes to its inputs or attributes, if at all, and then to its outputs
(`Registry.ordered_verdict`). Of an output it says nothing, or always the same whatever was known
(`Steady`), so that writing twice writes once (`Registry.portFact_again`).
-/

namespace TensorGraph

open RuleM Rules

variable {s : Scene} {u : Unit} {ws : List Write} {kind : String} {p : Nat} {f : Fact} {t : Tensor}

/-! ### Ports -/

/-- The writes leave a port, or say the same of it whatever was known. -/
def Steady (p : Nat) (ws : List Write) : Prop :=
  (∀ f, portFact p f ws = f) ∨ ∃ f', ∀ f, portFact p f ws = f'

lemma Steady.again (h : Steady p ws) (f : Fact) :
    portFact p (portFact p f ws) ws = portFact p f ws := by
  rcases h with h | ⟨f', h⟩
  · rw [h, h]
  · rw [h, h]

lemma steady_ite {c : Prop} [Decidable c] {f' : Fact}
    (h : ∀ f, portFact p f ws = if c then f' else f) : Steady p ws := by
  by_cases hc : c
  · exact Or.inr ⟨f', fun f => (h f).trans (if_pos hc)⟩
  · exact Or.inl fun f => (h f).trans (if_neg hc)

lemma steady_shaped (p q : Nat) (a : Shape) (v : Option Tensor) : Steady p (shaped q a v) :=
  steady_ite fun f => portFact_shaped q p f a v

lemma steady_ranked (p : Nat) (r : Option Nat) : Steady p (ranked r) :=
  steady_ite fun f => portFact_ranked p f r

lemma steady_unknowns (p : Nat) (ports : List Nat) : Steady p (ports.map .outputUnknown) :=
  steady_ite fun f => portFact_unknowns p f ports

lemma Steady.silent {ws' : List Write} (h : Steady p ws') (hws : ∀ w ∈ ws, w.tells p = none) :
    Steady p (ws ++ ws') := by
  have heq : ∀ f, portFact p f (ws ++ ws') = portFact p f ws' := fun f => by
    rw [portFact_append, portFact_of_silent hws]
  rcases h with h | ⟨f', h⟩
  · exact Or.inl fun f => (heq f).trans (h f)
  · exact Or.inr ⟨f', fun f => (heq f).trans (h f)⟩

lemma steady_sparseShapes (p : Nat) (rows rank : Int) :
    Steady p [.outputShape 0 [rows, rank], .outputShape 1 [rank]] := by
  by_cases hp : p = 0
  · exact Or.inr ⟨_, fun f => (portFact_sparseShapes p f).trans (if_pos hp)⟩
  · exact steady_ite (c := p = 1) fun f => (portFact_sparseShapes p f).trans (if_neg hp)

lemma steady_sparseWrites (p : Nat) (rows rank : Int) (output : Shape) (v : Option Tensor) :
    Steady p (sparseWrites rows rank output v) := by
  by_cases hp : p = 0
  · exact Or.inr ⟨_, fun f => (portFact_sparseWrites p f).trans (if_pos hp)⟩
  · have h : ∀ f, portFact p f (sparseWrites rows rank output v) =
        if p = 1 then .ofValue (.ofInts output) else f := fun f => by
      rw [portFact_sparseWrites, if_neg hp, Fact.update_ofInts]
    exact steady_ite h

/-! ### What operations write -/

/-- What an operation writes to its inputs and attributes. -/
inductive Preparation (kind : String) : List Write → Prop
  | nothing : Preparation kind []
  | axes (value : Tensor) : Preparation kind [.inputValue 1 value]
  | scale (texts : List String) : kind = "SimplerNMS" →
      Preparation kind [.attr "scale" (.strings texts)]

/-- What an operation writes to its outputs. -/
inductive Statement (kind : String) : List Write → Prop
  | nothing : Statement kind []
  | unknowns (ports : List Nat) : Statement kind (ports.map .outputUnknown)
  | shaped (a : Shape) (v : Option Tensor) : Statement kind (shaped 0 a v)
  | ranked (r : Option Nat) : Statement kind (ranked r)
  | sparseShapes (rows rank : Int) :
      Statement kind [.outputShape 0 [rows, rank], .outputShape 1 [rank]]
  | sparseWrites (rows rank : Int) (output : Shape) (v : Option Tensor) :
      Statement kind (sparseWrites rows rank output v)
  | value (t : Tensor) : kind = "Const" → Statement kind [.outputValue 0 t]

lemma Preparation.silent (h : Preparation kind ws) (p : Nat) : ∀ w ∈ ws, w.tells p = none := by
  cases h <;> simp [Write.tells]

lemma Statement.steady (h : Statement kind ws) (hkind : kind ≠ "Const") (p : Nat) :
    Steady p ws := by
  cases h with
  | nothing => exact Or.inl fun _ => rfl
  | unknowns ports => exact steady_unknowns p ports
  | shaped a v => exact steady_shaped p 0 a v
  | ranked r => exact steady_ranked p r
  | sparseShapes rows rank => exact steady_sparseShapes p rows rank
  | sparseWrites rows rank output v => exact steady_sparseWrites p rows rank output v
  | value t hconst => exact absurd hconst hkind

lemma Attributes.taken_of_forall (a : Attributes)
    (h : ∀ w ∈ ws, ∀ name value, w ≠ .attr name value) : Attributes.taken a ws = a := by
  unfold Attributes.taken
  induction ws with
  | nil => rfl
  | cons w ws ih =>
    have hrest := ih fun w' hw' => h w' (List.mem_cons_of_mem w hw')
    cases w with
    | attr name value => exact absurd rfl (h _ (List.mem_cons_self ..) name value)
    | _ => exact hrest

/-- Statements on outputs set no attribute. -/
lemma Statement.taken (h : Statement kind ws) (a : Attributes) : Attributes.taken a ws = a := by
  refine Attributes.taken_of_forall a fun w hw name value heq => ?_
  subst heq
  cases h with
  | nothing => cases hw
  | unknowns ports => simp at hw
  | shaped a v => cases v <;> simp [TensorGraph.shaped] at hw
  | ranked r => cases r <;> simp [Rules.ranked] at hw
  | sparseShapes rows rank => simp at hw
  | sparseWrites rows rank output v => cases v <;> simp [Rules.sparseWrites] at hw
  | value t => simp at hw

/-- What an operation writes is a preparation, and then a statement. -/
def Ordered (kind : String) (ws : List Write) : Prop :=
  ∃ front body, ws = front ++ body ∧ Preparation kind front ∧ Statement kind body

lemma Statement.ordered (h : Statement kind ws) : Ordered kind ws := ⟨[], ws, rfl, .nothing, h⟩

lemma ordered_sparseReshape (hev : sparseReshape.eval s = .ok (u, ws)) : Ordered kind ws := by
  obtain ⟨m, rows, columns, b, rank, input?, new?, -, -, -, -, -, -, -, hrest⟩ :=
    eval_sparseReshape.1 hev
  have hunknown : ws = [.outputShape 0 [rows, rank], .outputShape 1 [rank]] → Ordered kind ws :=
    fun h => h ▸ (Statement.sparseShapes rows rank).ordered
  rcases input? with _ | input <;> rcases new? with _ | new
  · exact hunknown hrest.2
  · exact hunknown hrest.2
  · exact hunknown hrest.2
  · obtain ⟨output, indices, v, -, -, -, -, rfl⟩ := hrest
    exact (Statement.sparseWrites rows rank output v).ordered

lemma preparation_scaleWrites {scale : Option Attribute} (h : scaleWrites scale = .ok ws) :
    Preparation "SimplerNMS" ws := by
  unfold scaleWrites at h
  split at h
  · obtain ⟨texts, -, rfl⟩ := map_eq_ok.1 h
    exact .scale texts rfl
  · cases h
    exact .nothing

lemma ordered_proposals (hev : proposals.eval s = .ok (u, ws)) : Ordered "SimplerNMS" ws := by
  obtain ⟨stride, wsScale, -, hscale, hrest⟩ := eval_proposals.1 hev
  split at hrest
  · obtain ⟨n, -, -, rfl⟩ := hrest
    exact ⟨wsScale, _, rfl, preparation_scaleWrites hscale, .shaped [n, 5] none⟩
  · exact ⟨wsScale, _, hrest, preparation_scaleWrites hscale, .unknowns _⟩

lemma ordered_reshape (hev : reshape.eval s = .ok (u, ws)) : Ordered kind ws := by
  obtain ⟨zero, a, pattern?, -, -, -, hrest⟩ := eval_reshape.1 hev
  rcases pattern? with _ | pattern
  · obtain ⟨b, -, rfl⟩ := hrest
    exact (Statement.ranked _).ordered
  · obtain ⟨shape, x, v, -, -, -, -, rfl⟩ := hrest
    exact (Statement.shaped shape v).ordered

lemma preparation_axesWrites {shared : Except Error Bool} {axes : Tensor} {l : List Int}
    (h : axesWrites shared axes l = .ok ws) : Preparation kind ws := by
  unfold axesWrites at h
  split at h
  · cases h
    exact .nothing
  · obtain ⟨b, -, h⟩ := bind_eq_ok.1 h
    split at h
    · cases h
      exact .nothing
    · obtain ⟨cells, -, h⟩ := bind_eq_ok.1 h
      cases h
      exact .axes _

lemma ordered_unsqueeze (hev : unsqueeze.eval s = .ok (u, ws)) : Ordered kind ws := by
  obtain ⟨a, axes?, -, -, hrest⟩ := eval_unsqueeze.1 hev
  rcases axes? with _ | axes
  · obtain ⟨b, r, -, -, rfl⟩ := hrest
    exact (Statement.ranked r).ordered
  · obtain ⟨shape, normalized, wsAxes, x, v, -, hwrites, -, -, -, rfl⟩ := hrest
    exact ⟨wsAxes, _, rfl, preparation_axesWrites hwrites, .shaped shape v⟩

lemma StandardRule.ordered {kind : String} {rule : Rule} (h : StandardRule kind rule)
    (hev : rule.eval s = .ok (u, ws)) : Ordered kind ws := by
  cases h with
  | parameter =>
    obtain ⟨a, -, -, rfl⟩ := eval_parameter.1 hev
    exact (Statement.shaped a none).ordered
  | constant =>
    obtain ⟨t, -, rfl⟩ := eval_constant.1 hev
    exact (Statement.value t rfl).ordered
  | output =>
    rw [eval_output.1 hev]
    exact Statement.nothing.ordered
  | identity =>
    obtain ⟨a, v, -, -, -, rfl⟩ := eval_identity.1 hev
    exact (Statement.shaped a v).ordered
  | reshape => exact ordered_reshape hev
  | unsqueeze => exact ordered_unsqueeze hev
  | gather =>
    obtain ⟨a, b, axis', axis, x, y, v, -, -, -, -, -, -, -, -, -, -, rfl⟩ := eval_gather.1 hev
    exact (Statement.shaped b v).ordered
  | sparseReshape => exact ordered_sparseReshape hev
  | product =>
    obtain ⟨tA, tB, a, b, shape, x, y, v, -, -, -, -, -, -, -, -, -, rfl⟩ := eval_product.1 hev
    exact (Statement.shaped shape v).ordered
  | convert =>
    obtain ⟨name, type, a, v, -, -, -, -, -, rfl⟩ := eval_convert.1 hev
    exact (Statement.shaped a _).ordered
  | proposals => exact ordered_proposals hev
  | queue kind =>
    rw [eval_queue.1 hev]
    exact (Statement.unknowns _).ordered
  | unary kind f =>
    obtain ⟨a, v, -, -, -, rfl⟩ := eval_unary.1 hev
    exact (Statement.shaped a _).ordered
  | binary kind f =>
    obtain ⟨a, b, shape, x, y, v, -, -, -, -, -, -, -, rfl⟩ := eval_binary.1 hev
    exact (Statement.shaped shape v).ordered

/-- **What is written**: perhaps to inputs or attributes first, and then to the outputs. -/
lemma Registry.ordered_verdict (hs : s.attributes.find? "infer" = none)
    (hv : standard.verdict kind s = .ok ws) : Ordered kind ws := by
  obtain ⟨e, he, hfind, -, hws⟩ := (verdict_standard hs).1 hv
  split at hws
  · exact hws ▸ (Statement.unknowns _).ordered
  · exact (mem_of_find?_standard hfind).2 ▸ (standardRule_of_mem he).ordered hws

/-- Operations other than constants leave a port, or always say the same of it. -/
lemma Registry.steady_verdict (hs : s.attributes.find? "infer" = none) (hkind : kind ≠ "Const")
    (hv : standard.verdict kind s = .ok ws) (p : Nat) : Steady p ws := by
  obtain ⟨front, body, rfl, hfront, hbody⟩ := ordered_verdict hs hv
  exact (hbody.steady hkind p).silent (hfront.silent p)

lemma Fact.update_again (f f' : Fact) : (f.update f').update f' = f.update f' := by
  unfold Fact.update
  by_cases h : (f == f') = true
  · rw [if_pos h, if_pos h]
  · rw [if_neg h, ite_self]

/-- What an operation writes to an output twice, it writes once. -/
lemma Registry.portFact_again (hs : s.attributes.find? "infer" = none)
    (hv : standard.verdict kind s = .ok ws) (p : Nat) (f : Fact) :
    portFact p (portFact p f ws) ws = portFact p f ws := by
  by_cases hkind : kind = "Const"
  · subst hkind
    rcases verdict_const_cases hs hv with rfl | ⟨t, -, rfl⟩
    · exact (steady_unknowns p _).again f
    · simp only [portFact_cons, portFact_nil, Write.tells]
      split
      · exact Fact.update_again f _
      · rfl
  · exact (steady_verdict hs hkind hv p).again f

end TensorGraph
