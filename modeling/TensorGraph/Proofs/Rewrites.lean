import TensorGraph.Proofs.Agreements
import TensorGraph.Proofs.StandardRules

/-!
What the standard rules write beside their outputs.

Only unsqueezing gives an input a value: axes of which some are counted from the right are written
over with the axes counted from the left (`Renumbers`). A constant writes none of its attributes.
-/

namespace TensorGraph

open RuleM Rules

/-- Inputs are left as they are. -/
def Quiet (ws : List Write) : Prop := ∀ w ∈ ws, ∀ p, w.puts p = none

/-- No element is negative. -/
def Tensor.Natural (t : Tensor) : Prop := ∀ i ∈ t.toInts, 0 ≤ i

/-- The axes on input 1, not all of them natural and read by no other operation, are written over
with natural ones, and the other inputs left as they are. -/
inductive Renumbers (s : Scene) : List Write → Prop
  | intro {axes : Tensor} {cells : Grid Int64} {ws : List Write} :
      s.inputValue 1 = .ok (some axes) → s.inputIsShared 1 = .ok false → ¬axes.Natural →
      (Tensor.i64 cells).Natural → Quiet ws → Renumbers s (.inputValue 1 (.i64 cells) :: ws)

variable {s : Scene} {u : Unit} {ws ws' : List Write}

lemma Quiet.append (h : Quiet ws) (h' : Quiet ws') : Quiet (ws ++ ws') := fun w hw =>
  (List.mem_append.1 hw).elim (h w) (h' w)

lemma quiet_shaped (p : Nat) (a : Shape) (v : Option Tensor) : Quiet (shaped p a v) := by
  cases v <;> simp [Quiet, shaped, Write.puts]

lemma quiet_ranked (r : Option Nat) : Quiet (ranked r) := by
  cases r <;> simp [Quiet, ranked, Write.puts]

lemma quiet_unknowns (ports : List Nat) : Quiet (ports.map .outputUnknown) := by
  simp [Quiet, Write.puts]

lemma quiet_scaleWrites {scale : Option Attribute} (h : scaleWrites scale = .ok ws) : Quiet ws := by
  unfold scaleWrites at h
  split at h
  · obtain ⟨texts, -, rfl⟩ := map_eq_ok.1 h
    simp [Quiet, Write.puts]
  · cases h
    simp [Quiet]

/-- What is written to an input that is left as it is. -/
lemma Quiet.inFact (h : Quiet ws) (p : Nat) (f : Fact) : inFact p f ws = f := by
  unfold TensorGraph.inFact
  induction ws generalizing f with
  | nil => rfl
  | cons w ws ih =>
    rw [List.foldl_cons, h w (List.mem_cons_self ..)]
    exact ih (fun w' hw' => h w' (List.mem_cons_of_mem w hw')) f

/-! ### Axes -/

namespace Shape

/-- Natural axes are counted from the left already. -/
lemma normalized_of_natural {axes : List Int} {rank : Int} {normalized : List Nat}
    (hn : axes.mapM (normalizeAxis · rank) = .ok normalized) (h : ∀ i ∈ axes, 0 ≤ i) :
    normalized.map Int.ofNat = axes := by
  have hsteps := forall₂_of_mapM hn
  clear hn
  induction hsteps with
  | nil => rfl
  | @cons axis n axes normalized hstep _ ih =>
    have hpos := h axis (List.mem_cons_self ..)
    rw [List.map_cons, ih fun i hi => h i (List.mem_cons_of_mem axis hi)]
    unfold normalizeAxis at hstep
    split at hstep
    · cases hstep
      rw [if_neg (by omega), Int.ofNat_eq_natCast, Int.toNat_of_nonneg hpos]
    · cases hstep

lemma signed_lt (n : Nat) : signed n < 0x8000000000000000 := by
  unfold signed
  rw [Int.bmod_def]
  split <;> omega

end Shape

lemma Grid.toList_ofCells {α : Type} {shape : List Nat} {cells : List α} {g : Grid α}
    (h : ofCells shape cells = .ok g) : g.toList = cells := by
  unfold ofCells at h
  split at h
  · split at h
    · cases h
      rfl
    · split at h <;> cases h
  · cases h

/-- Counts of axes as elements of a tensor. -/
lemma Tensor.toInts_ofCells {shape : List Nat} {l : List Nat} {g : Grid Int64}
    (h : Grid.ofCells shape ((l.map Int.ofNat).map Int64.ofInt) = .ok g)
    (hl : ∀ n ∈ l, (n : Int) < 0x8000000000000000) : (Tensor.i64 g).toInts = l.map Int.ofNat := by
  have hlist : (Tensor.i64 g).toInts = g.toList.map Int64.toInt := rfl
  rw [hlist, Grid.toList_ofCells h, List.map_map, List.map_map]
  refine List.map_congr_left fun n hn => ?_
  have hlt := hl n hn
  show (Int64.ofInt (n : Int)).toInt = n
  exact Int64.toInt_ofInt_of_le (by omega) hlt

lemma Tensor.natural_of_lt {shape : List Nat} {l : List Nat} {g : Grid Int64}
    (h : Grid.ofCells shape ((l.map Int.ofNat).map Int64.ofInt) = .ok g)
    (hl : ∀ n ∈ l, (n : Int) < 0x8000000000000000) : (Tensor.i64 g).Natural := by
  intro i hi
  rw [Tensor.toInts_ofCells h hl] at hi
  obtain ⟨n, -, rfl⟩ := List.mem_map.1 hi
  exact Int.natCast_nonneg n

lemma quiet_or_renumbers_axesWrites {input shape : Shape} {axes : Tensor} {normalized : List Nat}
    (haxes : s.inputValue 1 = .ok (some axes))
    (hshape : Shape.unsqueeze input axes.toInts = .ok (shape, normalized))
    (h : axesWrites (s.inputIsShared 1) axes (normalized.map Int.ofNat) = .ok ws)
    (hws : Quiet ws') : Quiet (ws ++ ws') ∨ Renumbers s (ws ++ ws') := by
  obtain ⟨hnorm, -, -⟩ := Shape.unsqueeze_eq_ok.1 hshape
  unfold axesWrites at h
  split at h
  · cases h
    exact Or.inl hws
  · next hne =>
    obtain ⟨shared, hshared, h⟩ := bind_eq_ok.1 h
    cases shared with
    | true =>
      cases h
      exact Or.inl hws
    | false =>
      obtain ⟨cells, hcells, h⟩ := bind_eq_ok.1 h
      cases h
      refine Or.inr (.intro haxes hshared (fun hnat => ?_)
        (Tensor.natural_of_lt hcells fun n hn => ?_) hws)
      · exact hne (Shape.normalized_of_natural hnorm hnat)
      · obtain ⟨axis, -, hstep⟩ := Shape.of_forall₂_right (Shape.forall₂_of_mapM hnorm) hn
        exact Int.lt_trans (Shape.normalizeAxis_lt hstep) (Shape.signed_lt _)

/-! ### The standard entries -/

lemma quiet_elementwise {a : Shape} {v : Option Tensor} (h : ws = shaped 0 a v) : Quiet ws :=
  h ▸ quiet_shaped 0 a v

lemma quiet_sparseReshape (hev : sparseReshape.eval s = .ok (u, ws)) : Quiet ws := by
  obtain ⟨m, rows, columns, b, rank, input?, new?, -, -, -, -, -, -, -, hrest⟩ :=
    eval_sparseReshape.1 hev
  have hunknown : ws = [.outputShape 0 [rows, rank], .outputShape 1 [rank]] → Quiet ws := by
    rintro rfl
    simp [Quiet, Write.puts]
  rcases input? with _ | input <;> rcases new? with _ | new
  · exact hunknown hrest.2
  · exact hunknown hrest.2
  · exact hunknown hrest.2
  · obtain ⟨output, indices, v, -, -, -, -, rfl⟩ := hrest
    cases v <;> simp [Quiet, sparseWrites, Write.puts]

lemma quiet_proposals (hev : proposals.eval s = .ok (u, ws)) : Quiet ws := by
  obtain ⟨stride, wsScale, -, hscale, hrest⟩ := eval_proposals.1 hev
  split at hrest
  · obtain ⟨n, -, -, rfl⟩ := hrest
    refine (quiet_scaleWrites hscale).append ?_
    simp [Quiet, Write.puts]
  · rw [hrest]
    exact (quiet_scaleWrites hscale).append (quiet_unknowns _)

lemma quiet_reshape (hev : reshape.eval s = .ok (u, ws)) : Quiet ws := by
  obtain ⟨zero, a, pattern?, -, -, -, hrest⟩ := eval_reshape.1 hev
  rcases pattern? with _ | pattern
  · obtain ⟨b, -, rfl⟩ := hrest
    exact quiet_ranked _
  · obtain ⟨shape, x, v, -, -, -, -, rfl⟩ := hrest
    exact quiet_shaped _ _ _

lemma quiet_or_renumbers_unsqueeze (hev : unsqueeze.eval s = .ok (u, ws)) :
    Quiet ws ∨ Renumbers s ws := by
  obtain ⟨a, axes?, -, haxes, hrest⟩ := eval_unsqueeze.1 hev
  rcases axes? with _ | axes
  · obtain ⟨b, r, -, -, rfl⟩ := hrest
    exact Or.inl (quiet_ranked r)
  · obtain ⟨shape, normalized, wsAxes, x, v, hshape, hwrites, -, -, -, rfl⟩ := hrest
    exact quiet_or_renumbers_axesWrites haxes hshape hwrites (quiet_shaped _ _ _)

lemma StandardRule.quiet {kind : String} {rule : Rule} (h : StandardRule kind rule)
    (hev : rule.eval s = .ok (u, ws)) : Quiet ws ∨ kind = "Unsqueeze" ∧ Renumbers s ws := by
  cases h with
  | parameter =>
    obtain ⟨a, -, -, rfl⟩ := eval_parameter.1 hev
    exact Or.inl (quiet_shaped 0 a none)
  | constant =>
    obtain ⟨t, -, rfl⟩ := eval_constant.1 hev
    exact Or.inl (by simp [Quiet, Write.puts])
  | output =>
    rw [eval_output.1 hev]
    exact Or.inl (by simp [Quiet])
  | identity =>
    obtain ⟨a, v, -, -, -, h⟩ := eval_identity.1 hev
    exact Or.inl (quiet_elementwise h)
  | reshape => exact Or.inl (quiet_reshape hev)
  | unsqueeze => exact (quiet_or_renumbers_unsqueeze hev).imp_right fun h => ⟨rfl, h⟩
  | gather =>
    obtain ⟨a, b, axis', axis, x, y, v, -, -, -, -, -, -, -, -, -, -, h⟩ := eval_gather.1 hev
    exact Or.inl (quiet_elementwise h)
  | sparseReshape => exact Or.inl (quiet_sparseReshape hev)
  | product =>
    obtain ⟨tA, tB, a, b, shape, x, y, v, -, -, -, -, -, -, -, -, -, h⟩ := eval_product.1 hev
    exact Or.inl (quiet_elementwise h)
  | convert =>
    obtain ⟨name, type, a, v, -, -, -, -, -, h⟩ := eval_convert.1 hev
    exact Or.inl (quiet_elementwise h)
  | proposals => exact Or.inl (quiet_proposals hev)
  | queue kind =>
    rw [eval_queue.1 hev]
    exact Or.inl (quiet_unknowns _)
  | unary kind f =>
    obtain ⟨a, v, -, -, -, h⟩ := eval_unary.1 hev
    exact Or.inl (quiet_elementwise h)
  | binary kind f =>
    obtain ⟨a, b, shape, x, y, v, -, -, -, -, -, -, -, h⟩ := eval_binary.1 hev
    exact Or.inl (quiet_elementwise h)

/-- **What is written to inputs**: an operation leaves its inputs as they are, or it unsqueezes and
writes natural axes over others. -/
lemma Registry.quiet_or_renumbers {kind : String} (hs : s.attributes.find? "infer" = none)
    (hv : standard.verdict kind s = .ok ws) :
    Quiet ws ∨ kind = "Unsqueeze" ∧ Renumbers s ws := by
  obtain ⟨e, he, hfind, -, hws⟩ := (verdict_standard hs).1 hv
  split at hws
  · rw [hws]
    exact Or.inl (quiet_unknowns _)
  · rw [← (mem_of_find?_standard hfind).2]
    refine ((standardRule_of_mem he).quiet hws).imp_right fun ⟨hkind, h⟩ => ⟨hkind, ?_⟩
    cases h with
    | intro haxes hshared hnot hnat hquiet => exact .intro haxes hshared hnot hnat hquiet

/-! ### Constants -/

/-- The attributes after some writes. -/
def Attributes.taken (a : Attributes) (ws : List Write) : Attributes :=
  ws.foldl (fun a w => match w with
    | .attr name value => a.store name value
    | _ => a) a

lemma Attributes.taken_const {a : Attributes} (hs : s.attributes.find? "infer" = none)
    (hv : Registry.standard.verdict "Const" s = .ok ws) : Attributes.taken a ws = a := by
  rcases Registry.verdict_const_cases hs hv with rfl | ⟨t, -, rfl⟩
  · unfold Attributes.taken
    induction s.outputPorts with
    | nil => rfl
    | cons p ports ih => exact ih
  · rfl

/-- What a constant says of an output: what was known, nothing, or the value that it holds. -/
lemma portFact_const (hs : s.attributes.find? "infer" = none)
    (hv : Registry.standard.verdict "Const" s = .ok ws) (p : Nat) (f : Fact) {t : Tensor}
    (ht : (portFact p f ws).value = some t) :
    portFact p f ws = f ∨ s.attributes.find? "value" = some (.tensor t) := by
  rcases Registry.verdict_const_cases hs hv with rfl | ⟨t', ht', rfl⟩
  · rw [portFact_unknowns] at ht ⊢
    split at ht
    · cases ht
    · next hp => exact Or.inl (if_neg hp)
  · rw [portFact_cons, portFact_nil, Write.tells] at ht ⊢
    split at ht
    · next hp =>
      rw [if_pos hp]
      simp only [Fact.told, Fact.update] at ht ⊢
      split at ht
      · next heq => exact Or.inl (if_pos heq)
      · cases ht
        exact Or.inr ht'
    · next hp =>
      rw [if_neg hp]
      exact Or.inl rfl

/-! ### Equal values

What is equal to a value already there is not written. It holds the same, but need not lie in memory
in the same order. -/

lemma Fact.update_self (f : Fact) : f.update f = f := ite_self _

lemma Tensor.exists_of_beq {t : Tensor} {cells : Grid Int64} (h : (t == .i64 cells) = true) :
    ∃ g, t = .i64 g ∧ (g == cells) = true := by
  cases t with
  | i64 g => exact ⟨g, rfl, h⟩
  | bool | f32 => cases h

lemma Tensor.toInts_of_beq {g cells : Grid Int64} (h : (g == cells) = true) :
    (i64 g).toInts = (i64 cells).toInts :=
  congrArg (fun a => a.toList.map Int64.toInt) (Grid.beq_iff.1 h).2

lemma Fact.value_of_beq {f : Fact} {cells : Grid Int64}
    (h : (f == .ofValue (.i64 cells)) = true) : ∃ g, f = .ofValue (.i64 g) ∧
      (g == cells) = true := by
  obtain ⟨shape, value⟩ := f
  obtain ⟨hshape, hvalue⟩ :
      (shape == some (Tensor.i64 cells).dims) = true ∧ (value == some (.i64 cells)) = true :=
    Bool.and_eq_true_iff.1 h
  rcases value with _ | t
  · cases hvalue
  · obtain ⟨g, rfl, hg⟩ := Tensor.exists_of_beq hvalue
    refine ⟨g, ?_, hg⟩
    rw [LawfulBEq.eq_of_beq hshape]
    exact congrArg (fun l => Fact.mk (some (l.map Int.ofNat)) _) (Grid.beq_iff.1 hg).1.symm

/-- Integers in the place of a value with other integers. -/
lemma Fact.update_of_toInts_ne {f : Fact} {t : Tensor} {cells : Grid Int64} (hf : f.value = some t)
    (hne : t.toInts ≠ (Tensor.i64 cells).toInts) :
    f.update (.ofValue (.i64 cells)) = .ofValue (.i64 cells) := by
  refine Fact.update_of_ne (Bool.eq_false_iff.2 fun heq => ?_)
  obtain ⟨g, rfl, hg⟩ := Fact.value_of_beq heq
  cases hf
  exact hne (Tensor.toInts_of_beq hg)

lemma Fact.update_of_beq {g cells : Grid Int64} (h : (g == cells) = true) :
    (Fact.ofValue (.i64 cells)).update (.ofValue (.i64 g)) = .ofValue (.i64 cells) := by
  obtain ⟨hshape, hcells⟩ := Grid.beq_iff.1 h
  have hdims : (some (Tensor.i64 cells).dims == some (Tensor.i64 g).dims) = true :=
    beq_iff_eq.2 (congrArg (fun l => some (l.map Int.ofNat)) hshape.symm)
  exact if_pos (Bool.and_eq_true_iff.2 ⟨hdims, Grid.beq_iff.2 ⟨hshape.symm, hcells.symm⟩⟩)

/-- A list of integers has only one order in memory. -/
@[simp] lemma Fact.update_ofInts (f : Fact) (xs : List Int) :
    f.update (.ofValue (.ofInts xs)) = .ofValue (.ofInts xs) := by
  unfold Fact.update
  split
  · next h =>
    obtain ⟨g, rfl, hg⟩ := Fact.value_of_beq h
    obtain ⟨hshape, hcells⟩ := Grid.beq_iff.1 hg
    obtain ⟨n, hn⟩ : ∃ n, (Grid.vector (xs.map Int64.ofInt)).shape = [n] := by
      unfold Grid.vector
      split
      · exact ⟨_, rfl⟩
      · exact ⟨_, rfl⟩
    have horder := (Grid.order_of_singleton (hshape.trans hn)).trans
      (Grid.order_of_singleton hn).symm
    rw [Grid.ext hshape hcells horder]
    rfl
  · rfl

/-- What is found where something has been stored is equal to it. -/
lemma Attributes.find?_store (a : Attributes) (name : String) (value : Attribute) :
    ∃ v, (a.store name value).find? name = some v ∧ (v = value ∨ (v == value) = true) := by
  unfold Attributes.store
  split
  · next heq =>
    rcases hf : a.find? name with _ | v
    · rw [hf] at heq
      cases heq
    · rw [hf] at heq
      exact ⟨v, rfl, Or.inr heq⟩
  · exact ⟨value, by rw [Dict.find?_insert, if_pos rfl], Or.inl rfl⟩

lemma Attributes.find?_store_strings (a : Attributes) (name : String) (texts : List String) :
    (a.store name (.strings texts)).find? name = some (.strings texts) := by
  obtain ⟨v, hv, rfl | heq⟩ := a.find?_store name (.strings texts)
  · exact hv
  · cases v with
    | strings l =>
      obtain rfl : l = texts := LawfulBEq.eq_of_beq heq
      exact hv
    | _ => cases heq

lemma Attributes.find?_store_i64 (a : Attributes) (name : String) (cells : Grid Int64) :
    ∃ g, (a.store name (.tensor (.i64 cells))).find? name = some (.tensor (.i64 g)) ∧
      (g == cells) = true := by
  obtain ⟨v, hv, rfl | heq⟩ := a.find?_store name (.tensor (.i64 cells))
  · exact ⟨cells, hv, Grid.beq_iff.2 ⟨rfl, rfl⟩⟩
  · cases v with
    | tensor t =>
      obtain ⟨g, rfl, hg⟩ := Tensor.exists_of_beq heq
      exact ⟨g, hv, hg⟩
    | _ => cases heq

lemma Attributes.find?_store_of_ne (a : Attributes) {name name' : String} (h : name' ≠ name)
    (value : Attribute) : (a.store name value).find? name' = a.find? name' := by
  unfold Attributes.store
  split
  · rfl
  · rw [Dict.find?_insert, if_neg h]

end TensorGraph
