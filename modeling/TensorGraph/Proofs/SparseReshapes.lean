import Mathlib.Algebra.BigOperators.Ring.List
import TensorGraph.Proofs.Applied
import TensorGraph.Proofs.Precision
import TensorGraph.Proofs.SparseIndices
import TensorGraph.Proofs.Volumes

/-!
Sparse reshapes with constant indices.

An accepted new shape whose dimensions are all positive has as many elements as the known shape
that it is for (`Shape.refits_of_sparseReshape`), which is what moving the indices rests on. The
rule then moves all of the indices or refuses one that is out of bounds
(`Rules.eval_sparseReshape_cases`), and so does the inference of the operation
(`Graph.Applied.folds_sparseReshape`).

A new shape is also accepted for an input of which not every dimension is known. No index is below
an unknown dimension, so indices are then refused that a reshape without their values does not look
at: `Graph.Applied.gives_sparseReshape_iff` says exactly when.
-/

namespace TensorGraph

open Edit

namespace Shape

variable {s t new : Shape}

/-! ### New shapes -/

/-- What an accepted new shape, with all of its dimensions positive, has in common with the known
shape that it is for. What the rule divides by is positive, too. -/
lemma refits_of_sparseReshape (hs : ∀ d ∈ s, 0 ≤ d) (h : sparseReshape s new = .ok t)
    (ht : ∀ d ∈ t, 0 < d) :
    Refits s t ∧ ∃ known, volume (new.filter (· ≠ -1)) = .ok known ∧ 0 < known := by
  have htpos : 0 < t.prod := List.prod_pos ht
  -- what is left to show when the number of elements stays
  have hrefits {known : Int} (hprod : s.prod = t.prod) (hfits : fits s.prod = true)
      (hknown : volume (new.filter (· ≠ -1)) = .ok known) (hpos : 0 < known) :
      Refits s t ∧ ∃ known, volume (new.filter (· ≠ -1)) = .ok known ∧ 0 < known := by
    refine ⟨⟨fun d hd => lt_of_le_of_ne (hs d hd) fun h0 => ?_, ht, hprod, hfits⟩,
      known, hknown, hpos⟩
    rw [List.prod_eq_zero (h0 ▸ hd)] at hprod
    omega
  rcases sparseReshape_cases h with ⟨hunknown, -⟩ | ⟨-, hone, total, known, htotal, hknown, h⟩
  · rw [hasUnknown_eq_false hs] at hunknown
    cases hunknown
  have hfits := volume_fits htotal
  obtain ⟨-, rfl⟩ := volume_eq_ok.1 htotal
  obtain ⟨-, hknown'⟩ := volume_eq_ok.1 hknown
  rcases h with ⟨i, hi, -, hmod, rfl⟩ | ⟨hi, heq, rfl⟩
  · have hlt : i < new.length := (List.getElem?_eq_some_iff.1 (getElem?_of_wildcard? hi)).1
    have hx : 0 < s.prod / known := ht _ (List.mem_set hlt _)
    have hprod := prod_set_wildcard (x := s.prod / known) hi hone
    rw [← hknown'] at hprod
    have hs' : s.prod / known * known = s.prod :=
      Int.ediv_mul_cancel (Int.dvd_of_emod_eq_zero hmod)
    exact hrefits (hs'.symm.trans hprod.symm) hfits hknown
      ((mul_pos_iff_of_pos_left hx).1 (hprod ▸ htpos))
  · have hfilter : t.filter (· ≠ -1) = t :=
      List.filter_eq_self.2 fun d hd => by simpa using List.findIdx?_eq_none_iff.1 hi d hd
    rw [hfilter] at hknown'
    exact hrefits (heq.symm.trans hknown') hfits hknown (hknown' ▸ htpos)

/-- A new shape is taken as it is where a dimension of the old one is not known. -/
lemma sparseReshape_of_unknown (hs : -1 ∈ s) (h : sparseReshape s new = .ok t) : new = t := by
  rcases sparseReshape_cases h with ⟨-, rfl⟩ | ⟨hknown, -⟩
  · rfl
  · rw [show hasUnknown s = true from List.any_eq_true.2 ⟨-1, hs, by decide⟩] at hknown
    cases hknown

end Shape

namespace Rules

open RuleM

variable {s : Scene} {f : Fact} {indices : Grid Int64} {input new : Tensor} {output : Shape}
  {n m : Nat}

/-! ### The rule -/

lemma dims_matrix {r : Nat} (h : indices.shape = [n, r]) :
    (Fact.ofValue (.i64 indices)).shape = some [(n : Int), (r : Int)] := by
  show some (indices.shape.map Int.ofNat) = _
  rw [h]
  rfl

lemma sparseValue_of_pos {x : Tensor} {s t : Shape} (ht : ∀ d ∈ t, 0 < d) :
    sparseValue (some x) s t = (SparseIndices.reshape x s t).map some :=
  if_pos (List.all_eq_true.2 fun d hd => decide_eq_true (ht d hd))

lemma sparseValue_of_not_pos {x : Option Tensor} {s t : Shape} (ht : ¬∀ d ∈ t, 0 < d) :
    sparseValue x s t = .ok none := by
  cases x with
  | none => rfl
  | some x =>
    exact if_neg fun hall => ht fun d hd => of_decide_eq_true (List.all_eq_true.1 hall d hd)

/-- The rule on constants of which the sizes fit and the new shape is accepted. -/
lemma eval_sparseReshape_given (hs : s.Given [f, .ofValue input, .ofValue new])
    (hf : f.shape = some [(n : Int), (input.toInts.length : Int)]) (hnew : new.dims = [(m : Int)])
    (houtput : Shape.sparseReshape input.toInts new.toInts = .ok output) :
    sparseReshape.eval s = (sparseValue f.value input.toInts output).map
      fun v => ((), sparseWrites n m output v) := by
  have hmatrix : s.inputShape 0 = .ok [(n : Int), (input.toInts.length : Int)] :=
    hs.inputShape rfl hf
  have hindices : s.inputValue 0 = .ok f.value := hs.inputValue rfl
  obtain ⟨-, hinput⟩ := hs.constant (p := 1) rfl
  obtain ⟨hvector, hvalue⟩ := hs.constant (p := 2) rfl
  rw [hnew] at hvector
  have hvalid : Shape.Valid [(n : Int), (m : Int)] := by
    intro d hd
    simp only [List.mem_cons, List.not_mem_nil, or_false] at hd
    omega
  rcases hv : sparseValue f.value input.toInts output with e | v
  · -- nothing but the indices is refused
    have hsize : matrixSize [(n : Int), (input.toInts.length : Int)] =
        .ok (n, input.toInts.length) := rfl
    have hrank : vectorSize [(m : Int)] = .ok m := rfl
    have hcolumns : ensure ((input.toInts.length : Int) < 0 ∨
        (input.toInts.length : Int) = input.toInts.length)
        (RuleFault.indexColumns input.toInts.length input.toInts.length : Error) = .ok () :=
      ensure_eq_ok.2 (.inr rfl)
    unfold sparseReshape
    rw [eval_read_of_ok hmatrix, eval_lift_of_ok hsize]
    dsimp only
    rw [eval_read_of_ok hvector, eval_lift_of_ok hrank]
    refine eval_perform_of_error (refusal_eq_none.2 hvalid) ?_
    rw [eval_read_of_ok hinput, eval_read_of_ok hvalue]
    dsimp only
    rw [eval_lift_of_ok hcolumns, eval_lift_of_ok houtput]
    refine eval_perform_of_error rfl ?_
    rw [eval_read_of_ok hindices]
    rcases hx : f.value with _ | x <;> rw [hx] at hv
    · cases hv
    · dsimp only
      by_cases hpos : ∀ d ∈ output, 0 < d
      · rw [sparseValue_of_pos hpos] at hv
        rw [if_pos (List.all_eq_true.2 fun d hd => decide_eq_true (hpos d hd)),
          eval_lift_of_error (map_eq_error.1 hv)]
      · cases hv.symm.trans (sparseValue_of_not_pos hpos)
  · exact eval_sparseReshape.2 ⟨_, _, _, _, _, _, _, hmatrix, rfl, hvector, rfl, hvalid, hinput,
      hvalue, output, _, v, .inr rfl, houtput, hindices, hv, rfl⟩

/-- Indices that are at least zero and below each dimension that is known are moved, or left as they
are unknown, but for one case: there are rows, a dimension is not known, and each dimension of the
new shape is positive. -/
lemma exists_sparseValue_iff {s new t : Shape}
    (hg : indices.shape = [n, s.length]) (hs : ∀ d ∈ s, -1 ≤ d)
    (h : Shape.sparseReshape s new = .ok t) (hi : Grid.indexable [n, t.length] = true)
    (hin : ∀ k < n, ∀ p ∈ (indices.row k).zip s, 0 ≤ p.1 ∧ (p.2 = -1 ∨ p.1 < p.2)) :
    (∃ v, sparseValue (some (.i64 indices)) s t = .ok v) ↔
      ¬(0 < n ∧ -1 ∈ s ∧ ∀ d ∈ new, 0 < d) := by
  by_cases hpos : ∀ d ∈ t, 0 < d
  · have hmoves : (∃ v, sparseValue (some (.i64 indices)) s t = .ok v) ↔
        ∃ v, SparseIndices.reshape (.i64 indices) s t = .ok v := by
      simp [sparseValue_of_pos hpos, map_eq_ok]
    rw [hmoves]
    by_cases hknown : -1 ∈ s
    · obtain rfl := Shape.sparseReshape_of_unknown hknown h
      rw [SparseIndices.exists_reshape_iff_of_unknown hg hi hknown, Nat.pos_iff_ne_zero]
      exact ⟨fun h0 hnot => hnot.1 h0, fun hnot => by_contra fun h0 => hnot ⟨h0, hknown, hpos⟩⟩
    · have hs' : ∀ d ∈ s, 0 ≤ d := fun d hd => by
        have := hs d hd
        have : d ≠ -1 := fun h => hknown (h ▸ hd)
        omega
      obtain ⟨hrefits, -⟩ := Shape.refits_of_sparseReshape hs' h hpos
      refine iff_of_true ?_ fun hnot => hknown hnot.2.1
      obtain ⟨out, hout, -⟩ := SparseIndices.exists_reshape hrefits hg hi fun k hk => by
        refine Shape.within_iff.2 ⟨SparseIndices.length_row hg k, fun p hp => ?_⟩
        obtain ⟨h0, hlt⟩ := hin k hk p hp
        exact ⟨h0, hlt.resolve_left fun h => hknown (h ▸ (List.of_mem_zip hp).2)⟩
      exact ⟨_, hout⟩
  · refine iff_of_true ⟨none, sparseValue_of_not_pos hpos⟩ ?_
    rintro ⟨-, hknown, hnew⟩
    exact hpos (Shape.sparseReshape_of_unknown hknown h ▸ hnew)

/-- For a known input shape and a new shape without a zero, indices within the input shape are moved
to the new one. Others are refused. -/
lemma eval_sparseReshape_cases
    (hs : s.Given [.ofValue (.i64 indices), .ofValue input, .ofValue new])
    (hmatrix : indices.shape = [n, input.toInts.length]) (hvector : new.shape = [m])
    (hinput : ∀ d ∈ input.toInts, 0 ≤ d)
    (houtput : Shape.sparseReshape input.toInts new.toInts = .ok output)
    (hpos : ∀ d ∈ output, 0 < d) (hi : Grid.indexable [n, output.length] = true) :
    ((∀ k < n, Shape.Within input.toInts (indices.row k)) →
      ∃ out, SparseIndices.Moves input.toInts output n indices out ∧
        sparseReshape.eval s = .ok ((), sparseWrites n m output (some (.i64 out)))) ∧
    ((∃ k < n, ¬Shape.Within input.toInts (indices.row k)) →
      ∃ k < n, ∃ p ∈ (indices.row k).zip input.toInts, ¬(0 ≤ p.1 ∧ p.1 < p.2) ∧
        sparseReshape.eval s = .error (ShapeFault.sparseIndex p.1 p.2)) := by
  obtain ⟨hrefits, -⟩ := Shape.refits_of_sparseReshape hinput houtput hpos
  have hnew : new.dims = [(m : Int)] := congrArg (List.map Int.ofNat) hvector
  have heval := eval_sparseReshape_given hs (dims_matrix hmatrix) hnew houtput
  rw [show (Fact.ofValue (.i64 indices)).value = some (.i64 indices) from rfl,
    sparseValue_of_pos hpos] at heval
  constructor
  · intro hrows
    obtain ⟨out, hout, hmoves⟩ := SparseIndices.exists_moves hrefits hmatrix hi hrows
    exact ⟨out, hmoves, by rw [heval, hout]; rfl⟩
  · intro hrows
    obtain ⟨k, hk, p, hp, hout, herr⟩ :=
      SparseIndices.exists_reshape_error hrefits hmatrix hrows
    exact ⟨k, hk, p, hp, hout, by rw [heval, herr]; rfl⟩

end Rules

namespace Graph

variable {g h : Graph} {id d : NodeId} {o : Operation} {indices : Grid Int64} {input new : Tensor}
  {output : Shape} {n m : Nat}

/-! ### Constant indices -/

lemma Applied.follows_sparseReshape {facts : List Fact} (ha : g.Applied id o facts)
    (hkind : o.kind = "SparseReshape") (hshapes : ∀ f ∈ facts, f.shape.isSome) :
    ∃ s : Scene, s.Given facts ∧ g.Follows id Rules.sparseReshape s := by
  have hentry : OpEntry.standard.reverse.find? (·.kind = o.kind) =
      some (OpEntry.ofRule "SparseReshape" Rules.sparseReshape).withFixedOutputs := by
    rw [hkind]
    rfl
  obtain ⟨s, hgiven, hfollows, -⟩ := ha.follows hentry rfl hshapes
  exact ⟨s, hgiven, hfollows⟩

/-- **Sparse reshapes of constants**: for a known input shape and an accepted new shape without a
zero, and as far as an array can hold the moved indices, inferring the operation succeeds exactly
when every row of indices is within the input shape. Output 0 then holds the indices moved to the
same places of the new shape, from where they go back to what they were. It fails otherwise, and
only for an index that is not in its dimension: no place is too large, and nothing is divided by
zero. -/
theorem Applied.folds_sparseReshape
    (ha : g.Applied id o [.ofValue (.i64 indices), .ofValue input, .ofValue new])
    (hkind : o.kind = "SparseReshape") (hmatrix : indices.shape = [n, input.toInts.length])
    (hvector : new.shape = [m]) (hinput : ∀ d ∈ input.toInts, 0 ≤ d)
    (houtput : Shape.sparseReshape input.toInts new.toInts = .ok output)
    (hpos : ∀ d ∈ output, 0 < d) (hi : Grid.indexable [n, output.length] = true) :
    ((∃ changed h, Gives (Registry.standard.inferNode id) g changed h) ↔
      ∀ k < n, Shape.Within input.toInts (indices.row k)) ∧
    ((∃ e, Fails (Registry.standard.inferNode id) g e) ↔
      ∃ k < n, ¬Shape.Within input.toInts (indices.row k)) ∧
    (∀ e, Fails (Registry.standard.inferNode id) g e →
      ∃ name, (g.node? id).map (·.name) = some name ∧ ∃ k < n,
        ∃ p ∈ (indices.row k).zip input.toInts, ¬(0 ≤ p.1 ∧ p.1 < p.2) ∧
        e = Registry.ruleError name (ShapeFault.sparseIndex p.1 p.2)) ∧
    (∀ changed h, Gives (Registry.standard.inferNode id) g changed h →
      ∃ out, SparseIndices.Moves input.toInts output n indices out ∧
        ∀ d, g.Output id 0 d → h.fact? d = some (.ofValue (.i64 out))) ∧
    (∃ known, Shape.volume (new.toInts.filter (· ≠ -1)) = .ok known ∧ 0 < known) ∧
      ∀ place, SparseIndices.split? place output = some (SparseIndices.split place output) := by
  obtain ⟨s, hgiven, hfollows⟩ := ha.follows_sparseReshape hkind (by simp [Fact.ofValue])
  obtain ⟨-, hknown⟩ := Shape.refits_of_sparseReshape hinput houtput hpos
  obtain ⟨hmoves, hrefused⟩ :=
    Rules.eval_sparseReshape_cases hgiven hmatrix hvector hinput houtput hpos hi
  have hrows_of_gives {changed : List NodeId} {h : Graph}
      (hx : Gives (Registry.standard.inferNode id) g changed h) :
      ∀ k < n, Shape.Within input.toInts (indices.row k) := by
    by_contra hrows
    push Not at hrows
    obtain ⟨k, -, p, -, -, he⟩ := hrefused hrows
    exact hx.not_fails (hfollows.fails he)
  have hgives : (∃ changed h, Gives (Registry.standard.inferNode id) g changed h) ↔
      ∀ k < n, Shape.Within input.toInts (indices.row k) := by
    refine ⟨fun ⟨changed, h, hx⟩ => hrows_of_gives hx, fun hrows => ?_⟩
    obtain ⟨out, -, hev⟩ := hmoves hrows
    exact hfollows.gives_iff.2 ⟨_, hev⟩
  have hiff : (∃ e, Fails (Registry.standard.inferNode id) g e) ↔
      ∃ k < n, ¬Shape.Within input.toInts (indices.row k) := by
    constructor
    · rintro ⟨e, he⟩
      by_contra hrows
      push Not at hrows
      obtain ⟨changed, h, hx⟩ := hgives.2 hrows
      exact hx.not_fails he
    · intro hrows
      obtain ⟨k, -, p, -, -, he⟩ := hrefused hrows
      exact ⟨_, hfollows.fails he⟩
  refine ⟨hgives, hiff, fun e he => ?_, fun changed h hx => ?_, hknown,
    SparseIndices.split?_eq fun d hd => (hpos d hd).ne'⟩
  · obtain ⟨k, hk, p, hp, hout, he'⟩ := hrefused (hiff.1 ⟨e, he⟩)
    exact ⟨s.name, hfollows.name, k, hk, p, hp, hout, he.unique (hfollows.fails he')⟩
  · obtain ⟨out, hout, hev⟩ := hmoves (hrows_of_gives hx)
    refine ⟨out, hout, fun d hd => hfollows.fact?_output ha hev hx (fun f' => ?_) hd⟩
    rw [portFact_sparseWrites]
    rfl

end Graph

/-- A sparse reshape of three entries. -/
def threeEntries : Edit Unit := do
  let indices ← addConst "indices" (.i64 ⟨[3, 2], #[0, 0, 1, 2, 3, 4], .rows, rfl, rfl, rfl⟩)
  let input ← addConst "input_shape" (.ofInts [4, 5])
  let new ← addConst "new_shape" (.ofInts [2, 10])
  discard (wire "y" (.ofKind "SparseReshape") [indices, input, new])

/-- The entry at `(1, 2)` is moved to `(0, 7)`. -/
theorem folds_sparseReshape_threeEntries :
    let g := (threeEntries.run ∅).graph
    let indices : Grid Int64 := ⟨[3, 2], #[0, 0, 1, 2, 3, 4], .rows, rfl, rfl, rfl⟩
    ∃ o, g.Applied ⟨6⟩ o [.ofValue (.i64 indices), .ofValue (.ofInts [4, 5]),
        .ofValue (.ofInts [2, 10])] ∧ o.kind = "SparseReshape" ∧
      ∃ changed h out, Gives (Registry.standard.inferNode ⟨6⟩) g changed h ∧
        h.fact? ⟨7⟩ = some (.ofValue (.i64 out)) ∧ out.shape = [3, 2] ∧ out.row 1 = [0, 7] := by
  intro g indices
  obtain ⟨o, hkind, ha⟩ : ∃ o, o.kind = "SparseReshape" ∧
      g.Applied ⟨6⟩ o [.ofValue (.i64 indices), .ofValue (.ofInts [4, 5]),
        .ofValue (.ofInts [2, 10])] := by
    refine ⟨_, rfl, .of_incoming (by decide +kernel) ?_ rfl rfl rfl rfl⟩
    unfold Graph.Apart
    decide +kernel
  have houtput : Shape.sparseReshape (Tensor.ofInts [4, 5]).toInts (Tensor.ofInts [2, 10]).toInts =
      .ok [2, 10] := by decide
  obtain ⟨hgives, -, -, hfold, -⟩ := ha.folds_sparseReshape (n := 3) (m := 2) hkind rfl rfl
    (by decide) houtput (by decide) (by decide)
  have hin : ∀ k < 3, Shape.Within (Tensor.ofInts [4, 5]).toInts (indices.row k) := by
    unfold Shape.Within
    decide
  obtain ⟨changed, h, hx⟩ := hgives.2 hin
  obtain ⟨out, hout, hfact⟩ := hfold changed h hx
  refine ⟨o, ha, hkind, changed, h, out, hx, hfact ⟨7⟩ ?_, hout.shape, ?_⟩
  · unfold Graph.Output
    decide +kernel
  · refine Shape.place_injective (hout.within 1 (by decide)) ?_
      ((hout.place 1 (by decide)).trans ?_)
    · unfold Shape.Within
      decide
    · decide
namespace Graph

variable {g g' : Graph} {id id' : NodeId} {o o' : Operation} {indices : Grid Int64} {input : Tensor}
  {f : Fact} {n r : Nat}

/-- **Constant indices in place of unknown ones**: where a sparse reshape with indices of which only
the shape is known is inferred, the same with constant indices that are at least zero and below each
known dimension is, but for one case: there are rows, a dimension of the input is unknown, and a
constant new shape has positive dimensions only. -/
theorem Applied.gives_sparseReshape_iff
    (ha : g.Applied id o [.ofShape [(n : Int), (r : Int)], .ofValue input, f])
    (hkind : o.kind = "SparseReshape")
    (hx : ∃ changed h, Gives (Registry.standard.inferNode id) g changed h)
    (ha' : g'.Applied id' o' [.ofValue (.i64 indices), .ofValue input, f])
    (hkind' : o'.kind = "SparseReshape") (hmatrix : indices.shape = [n, r])
    (hinput : ∀ d ∈ input.toInts, -1 ≤ d)
    (hin : ∀ k < n, ∀ p ∈ (indices.row k).zip input.toInts, 0 ≤ p.1 ∧ (p.2 = -1 ∨ p.1 < p.2))
    (hf : f.shape.isSome) (hvalue : ∀ new, f.value = some new → f = .ofValue new)
    (hi : ∀ new, f.value = some new → Grid.indexable [n, new.toInts.length] = true) :
    (∃ changed h, Gives (Registry.standard.inferNode id') g' changed h) ↔
      ¬(0 < n ∧ -1 ∈ input.toInts ∧ ∃ new, f.value = some new ∧ ∀ d ∈ new.toInts, 0 < d) := by
  obtain ⟨s, hgiven, hfollows⟩ :=
    ha.follows_sparseReshape hkind (by simp [Fact.ofShape, Fact.ofValue, hf])
  obtain ⟨s', hgiven', hfollows'⟩ :=
    ha'.follows_sparseReshape hkind' (by simp [Fact.ofValue, hf])
  have hdims := Rules.dims_matrix hmatrix
  obtain ⟨ws, hev⟩ := hfollows.gives_iff.1 hx
  obtain ⟨_, _, _, b, rank, _, _, hm, hsize, hb, hrank, hvalid, hinput?, hnew?, hrest⟩ :=
    Rules.eval_sparseReshape.1 hev
  cases (hgiven.inputShape (p := 0) rfl rfl).symm.trans hm
  cases hsize
  cases (hgiven.constant (p := 1) rfl).2.symm.trans hinput?
  cases (hgiven.inputValue (p := 2) rfl).symm.trans hnew?
  rw [hfollows'.gives_iff]
  rcases hfv : f.value with _ | new
  · -- without a new shape the indices are not looked at
    simp only [hfv] at hrest
    obtain ⟨b', hb'⟩ := Option.isSome_iff_exists.1 hf
    cases (hgiven.inputShape (p := 2) rfl hb').symm.trans hb
    have hev' : Rules.sparseReshape.eval s' = .ok ((), ws) :=
      Rules.eval_sparseReshape.2 ⟨_, _, _, _, rank, some input, none,
        hgiven'.inputShape (p := 0) rfl hdims, rfl, hgiven'.inputShape (p := 2) rfl hb', hrank,
        hvalid, (hgiven'.constant (p := 1) rfl).2, hfv ▸ hgiven'.inputValue (p := 2) rfl, hrest⟩
    exact iff_of_true ⟨ws, hev'⟩ (by simp)
  · simp only [hfv] at hrest
    obtain rfl := hvalue new hfv
    obtain ⟨output, -, -, hcolumns, houtput, -⟩ := hrest
    obtain rfl : r = input.toInts.length := by omega
    cases (hgiven.constant (p := 2) rfl).1.symm.trans hb
    obtain ⟨m, -, rfl⟩ := List.map_eq_singleton_iff.1 (Rules.vectorSize_eq_ok.1 hrank)
    have heval :=
      Rules.eval_sparseReshape_given hgiven' hdims (Rules.vectorSize_eq_ok.1 hrank) houtput
    have hlength := Shape.length_sparseReshape houtput
    rw [heval]
    simp only [map_eq_ok, Prod.mk.injEq, true_and, Option.some.injEq, exists_eq_left']
    rw [← Rules.exists_sparseValue_iff hmatrix hinput houtput (hlength ▸ hi new rfl) hin]
    constructor
    · rintro ⟨_, v, hv, -⟩
      exact ⟨v, hv⟩
    · rintro ⟨v, hv⟩
      exact ⟨_, v, hv, rfl⟩

end Graph

/-- A sparse reshape of indices for a matrix whose number of rows is unknown. -/
def unknownRows (indices : Edit NodeId) : Edit Unit := do
  let indices ← indices
  let input ← addConst "input_shape" (.ofInts [-1, 5])
  let new ← addConst "new_shape" (.ofInts [10, 2])
  discard (wire "y" (.ofKind "SparseReshape") [indices, input, new])

/-- One entry whose indices are not known is reshaped, but not the first entry. -/
theorem gives_sparseReshape_unknownRows :
    let g := ((unknownRows (addParameter "indices" [1, 2])).run ∅).graph
    let g' := ((unknownRows
      (addConst "indices" (.i64 ⟨[1, 2], #[0, 0], .rows, rfl, rfl, rfl⟩))).run ∅).graph
    (∃ changed h, Gives (Registry.standard.inferNode ⟨6⟩) g changed h) ∧
      ¬∃ changed h, Gives (Registry.standard.inferNode ⟨6⟩) g' changed h := by
  intro g g'
  have ha : g.Applied ⟨6⟩ (.ofKind "SparseReshape")
      [.ofShape [1, 2], .ofValue (.ofInts [-1, 5]), .ofValue (.ofInts [10, 2])] := by
    refine .of_incoming (by decide +kernel) ?_ rfl rfl rfl rfl
    unfold Graph.Apart
    decide +kernel
  have ha' : g'.Applied ⟨6⟩ (.ofKind "SparseReshape")
      [.ofValue (.i64 ⟨[1, 2], #[0, 0], .rows, rfl, rfl, rfl⟩), .ofValue (.ofInts [-1, 5]),
        .ofValue (.ofInts [10, 2])] := by
    refine .of_incoming (by decide +kernel) ?_ rfl rfl rfl rfl
    unfold Graph.Apart
    decide +kernel
  have hx : ∃ changed h, Gives (Registry.standard.inferNode ⟨6⟩) g changed h := by
    obtain ⟨s, hgiven, hfollows⟩ :=
      ha.follows_sparseReshape rfl (by simp [Fact.ofShape, Fact.ofValue])
    refine hfollows.gives_iff.2 ⟨_, Rules.eval_sparseReshape.2 ⟨_, _, _, _, _, _, _,
      hgiven.inputShape (p := 0) rfl rfl, rfl, (hgiven.constant (p := 2) rfl).1, rfl, ?_,
      (hgiven.constant (p := 1) rfl).2, (hgiven.constant (p := 2) rfl).2, [10, 2], none, none,
      .inr rfl, rfl, hgiven.inputValue (p := 0) rfl, rfl, rfl⟩⟩
    unfold Shape.Valid
    decide
  have hnew : ∀ new, (Fact.ofValue (.ofInts [10, 2])).value = some new → .ofInts [10, 2] = new :=
    fun _ h => Option.some.inj h
  refine ⟨hx, ?_⟩
  rw [ha.gives_sparseReshape_iff (n := 1) (r := 2) rfl hx ha' rfl rfl (by decide) (by decide) rfl
    (fun new h => congrArg _ (hnew new h)) fun new h => hnew new h ▸ by decide]
  exact not_not_intro ⟨by decide, by decide, .ofInts [10, 2], rfl, by decide⟩

end TensorGraph
