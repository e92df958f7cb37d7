import TensorGraph.Proofs.Volumes

/-!
What reshape patterns resolve to.

`Shape.Resolves` says what a pattern asks of a shape without saying how it is found. For a known
input a reshape succeeds exactly when such a shape can be counted out and is the only one
(`Shape.reshape_resolves`). Without copies, patterns are resolved as those of sparse tensors are
(`Shape.sparseReshape_iff_reshape`).
-/

namespace TensorGraph.Shape

variable {input pattern shape s t : Shape} {copyZero wild : Bool} {i : Nat} {total : Int}

/-! ### Reading patterns -/

/-- The dimension that an entry of a pattern at the index `i` asks for. -/
def asked? (input : Shape) (copyZero : Bool) (i : Nat) (d : Int) : Option Int :=
  if d = 0 ∧ copyZero then input[i]? else some d

lemma readPattern_cons {d : Int} {ds r : Shape} :
    readPattern input pattern copyZero wild i (d :: ds) = .ok r ↔
      ∃ e rest, asked? input copyZero i d = some e ∧ -1 ≤ d ∧ (d = -1 → wild = false) ∧
        readPattern input pattern copyZero (wild || d = -1) (i + 1) ds = .ok rest ∧
        e :: rest = r := by
  have hmore (e : Int) (wild : Bool) :
      (readPattern input pattern copyZero wild (i + 1) ds >>= fun rest => .ok (e :: rest)) = .ok r ↔
        ∃ rest, readPattern input pattern copyZero wild (i + 1) ds = .ok rest ∧ e :: rest = r := by
    simp only [bind_eq_ok, Except.ok.injEq]
  rw [readPattern, asked?]
  by_cases hcopy : d = 0 ∧ copyZero
  · obtain ⟨rfl, rfl⟩ := hcopy
    rcases input[i]? with _ | e
    · simp
    · simp only [and_self, if_true]
      refine (hmore e wild).trans ?_
      simp
  · rw [if_neg hcopy, if_neg hcopy]
    by_cases hd : d = -1
    · subst hd
      rw [if_pos rfl, bind_eq_ok]
      simp only [Edit.ensure_eq_ok]
      refine (exists_congr fun _ => and_congr_right' (hmore (-1) true)).trans ?_
      simp
    · rw [if_neg hd, bind_eq_ok]
      simp only [Edit.ensure_eq_ok]
      refine (exists_congr fun _ => and_congr_right' (hmore d wild)).trans ?_
      simp [hd, show 0 ≤ d ↔ -1 ≤ d by omega]

/-- A pattern is read when no entry is below `-1` and at most one is `-1`, entry by entry. -/
lemma readPattern_eq_ok {ds r : Shape} :
    readPattern input pattern copyZero wild i ds = .ok r ↔
      (∀ d ∈ ds, -1 ≤ d) ∧ ds.count (-1) ≤ (if wild then 0 else 1) ∧ r.length = ds.length ∧
        ∀ (j : Nat) (d : Int), ds[j]? = some d → r[j]? = asked? input copyZero (i + j) d := by
  induction ds generalizing wild i r with
  | nil => simp [readPattern, eq_comm]
  | cons d ds ih =>
    have hcount : ((d :: ds).count (-1) ≤ if wild then 0 else 1) ↔
        (d = -1 → wild = false) ∧ ds.count (-1) ≤ if wild || d = -1 then 0 else 1 := by
      rw [List.count_cons]
      by_cases hd : d = -1 <;> cases wild <;> simp [hd]
    have hplace (j : Nat) : i + (j + 1) = i + 1 + j := by omega
    rw [readPattern_cons, hcount, List.forall_mem_cons]
    simp only [ih]
    constructor
    · rintro ⟨e, rest, he, hd, hwild, ⟨hle, hone, hlen, hasked⟩, rfl⟩
      refine ⟨⟨hd, hle⟩, ⟨hwild, hone⟩, congrArg Nat.succ hlen, fun j d' hj => ?_⟩
      rcases j with _ | j
      · cases hj
        exact he.symm
      · exact hplace j ▸ hasked j d' hj
    · rintro ⟨⟨hd, hle⟩, ⟨hwild, hone⟩, hlen, hasked⟩
      obtain ⟨e, rest, rfl⟩ := List.exists_cons_of_length_eq_add_one hlen
      refine ⟨e, rest, (hasked 0 d rfl).symm, hd, hwild,
        ⟨hle, hone, Nat.succ.inj hlen, fun j d' hj => ?_⟩, rfl⟩
      exact hplace j ▸ hasked (j + 1) d' hj

/-- Without copies a pattern is read as it stands. -/
lemma readPattern_eq_self {new : Shape} :
    readPattern input new false false 0 new = .ok shape ↔
      (∀ d ∈ new, -1 ≤ d) ∧ new.count (-1) ≤ 1 ∧ shape = new := by
  rw [readPattern_eq_ok]
  refine and_congr_right' (and_congr_right' ⟨?_, ?_⟩)
  · rintro ⟨hlen, hasked⟩
    refine List.ext_getElem? fun j => ?_
    rcases hj : new[j]? with _ | d
    · rw [List.getElem?_eq_none_iff] at hj ⊢
      omega
    · rw [hasked j d hj]
      simp [asked?]
  · rintro rfl
    refine ⟨rfl, fun j d hj => ?_⟩
    simp [asked?, hj]

/-! ### Counting out -/

/-- The shape `s` is what a pattern has been read to, with what the other dimensions leave of the
elements in place of a `-1`. -/
inductive Fills (total : Int) (pattern shape s : Shape) : Prop
  | wildcard {i : Nat} {known : Int} (place : wildcard? pattern = some i)
      (count : volume (named pattern shape) = .ok known) (nonzero : known ≠ 0)
      (divides : total % known = 0) (filled : s = shape.set i (total / known))
  | plain (place : wildcard? pattern = none) (count : volume (named pattern shape) = .ok total)
      (same : s = shape)

/-- How the new shape is found from what the pattern has been read to. -/
def Finds (input pattern shape s : Shape) : Prop :=
  if hasUnknown input then s = shape
  else ∃ total, volume input = .ok total ∧ Fills total pattern shape s

lemma fills_of_some (hi : wildcard? pattern = some i) : Fills total pattern shape s ↔
    ∃ known, volume (named pattern shape) = .ok known ∧ (known ≠ 0 ∧ total % known = 0) ∧
      s = shape.set i (total / known) := by
  constructor
  · rintro (⟨place, count, nonzero, divides, filled⟩ | ⟨place, -, -⟩)
    · obtain rfl := Option.some.inj (hi.symm.trans place)
      exact ⟨_, count, ⟨nonzero, divides⟩, filled⟩
    · cases hi.symm.trans place
  · rintro ⟨known, count, ⟨nonzero, divides⟩, filled⟩
    exact .wildcard hi count nonzero divides filled

lemma fills_of_none (hi : wildcard? pattern = none) : Fills total pattern shape s ↔
    ∃ known, volume (named pattern shape) = .ok known ∧ known = total ∧ s = shape := by
  constructor
  · rintro (⟨place, -, -, -, -⟩ | ⟨-, count, same⟩)
    · cases hi.symm.trans place
    · exact ⟨total, count, rfl, same⟩
  · rintro ⟨_, count, rfl, same⟩
    exact .plain hi count same

lemma pure_eq_ok : (pure t : Except Error Shape) = .ok s ↔ s = t :=
  ⟨fun h => (Except.ok.inj h).symm, fun h => congrArg Except.ok h.symm⟩

lemma reshape_eq_ok : reshape input pattern copyZero = .ok s ↔
    ∃ shape, readPattern input pattern copyZero false 0 pattern = .ok shape ∧
      Finds input pattern shape s := by
  unfold reshape Finds
  rw [bind_eq_ok]
  refine exists_congr fun shape => and_congr_right fun hread => ?_
  obtain ⟨-, hone, hlen, -⟩ := readPattern_eq_ok.1 hread
  split
  · exact pure_eq_ok
  · rw [bind_eq_ok]
    refine exists_congr fun total => and_congr_right fun _ => ?_
    rcases hi : wildcard? pattern with _ | i
    · simp only [fills_of_none hi, named_of_count hlen (count_of_wildcard? hi), bind_eq_ok,
        Edit.ensure_eq_ok, pure_eq_ok, exists_const]
    · simp only [fills_of_some hi, named_eq_eraseIdx hlen hi hone, bind_eq_ok, Edit.ensure_eq_ok,
        pure_eq_ok, exists_const]

lemma sparseReshape_eq_ok {new : Shape} : sparseReshape input new = .ok s ↔
    (∀ d ∈ new, -1 ≤ d) ∧ new.count (-1) ≤ 1 ∧ Finds input new new s := by
  have hle : (∀ d ∈ new, -1 ≤ d) ↔ new.find? (· < -1) = none := by
    simp [List.find?_eq_none]
  unfold sparseReshape Finds
  rw [hle]
  rcases hbad : new.find? (· < -1) with _ | bad
  · simp only [hbad, true_and]
    refine bind_eq_ok.trans ?_
    simp only [Edit.ensure_eq_ok, exists_const]
    refine and_congr_right fun hone => ?_
    split
    · exact pure_eq_ok
    · rw [bind_eq_ok]
      refine exists_congr fun total => and_congr_right fun _ => ?_
      rcases hi : wildcard? new with _ | i
      · simp only [fills_of_none hi, named_self, bind_eq_ok, Edit.ensure_eq_ok, pure_eq_ok,
          exists_const]
      · simp only [fills_of_some hi, named_self, bind_eq_ok, Edit.ensure_eq_ok, pure_eq_ok,
          exists_const]
  · simp only [hbad, reduceCtorEq, false_and, iff_false]
    exact fun h => by cases h

/-- **Patterns of sparse tensors**: for every input shape, unknown dimensions included, a new shape
of a sparse tensor resolves to what it resolves to as a pattern without copies, if to anything. -/
theorem sparseReshape_iff_reshape (input new s : Shape) :
    sparseReshape input new = .ok s ↔ reshape input new false = .ok s := by
  rw [reshape_eq_ok, sparseReshape_eq_ok]
  simp only [readPattern_eq_self, and_assoc]
  constructor
  · rintro ⟨hle, hone, hs⟩
    exact ⟨new, hle, hone, rfl, hs⟩
  · rintro ⟨shape, hle, hone, rfl, hs⟩
    exact ⟨hle, hone, hs⟩

/-! ### Known inputs -/

lemma mem_named {x : Int} : x ∈ named pattern s ↔
    ∃ (i : Nat) (d : Int), pattern[i]? = some d ∧ d ≠ -1 ∧ s[i]? = some x := by
  unfold named
  simp only [List.mem_map, List.mem_filter]
  constructor
  · rintro ⟨⟨d, y⟩, ⟨hmem, hne⟩, rfl⟩
    obtain ⟨i, hi⟩ := List.mem_iff_getElem?.1 hmem
    obtain ⟨hd, hy⟩ := List.getElem?_zip_eq_some.1 hi
    exact ⟨i, d, hd, by simpa using hne, hy⟩
  · rintro ⟨i, d, hd, hne, hx⟩
    have hmem : (d, x) ∈ pattern.zip s :=
      List.mem_iff_getElem?.2 ⟨i, List.getElem?_zip_eq_some.2 ⟨hd, hx⟩⟩
    exact ⟨(d, x), ⟨hmem, by simpa using hne⟩, rfl⟩

/-- What has been read is filled to a shape with the right number of elements that differs from it
in no place but that of the `-1`. -/
lemma fills_iff (hlen : shape.length = pattern.length) (hone : pattern.count (-1) ≤ 1) :
    Fills total pattern shape s ↔ (s.length = pattern.length ∧
      ∀ (j : Nat) (d : Int), pattern[j]? = some d → d ≠ -1 → s[j]? = shape[j]?) ∧
      (∀ n, fits ((named pattern s).take n).prod) ∧ s.prod = total ∧
      (-1 ∈ pattern → (named pattern s).prod ≠ 0) := by
  constructor
  · rintro (@⟨i, known, place, count, nonzero, divides, rfl⟩ | ⟨place, count, rfl⟩)
    · have hi := getElem?_of_wildcard? place
      have hlt : i < shape.length := hlen ▸ (List.getElem?_eq_some_iff.1 hi).1
      have hother (j : Nat) (d : Int) (hd : pattern[j]? = some d) (hne : d ≠ -1) :
          (shape.set i (total / known))[j]? = shape[j]? := by
        refine List.getElem?_set_ne fun hij => hne ?_
        rw [hij, hd, Option.some.injEq] at hi
        exact hi
      have hnamed : named pattern (shape.set i (total / known)) = named pattern shape :=
        named_congr (by rwa [List.length_set]) hlen hother
      rw [hnamed]
      obtain ⟨hfits, hcount⟩ := volume_eq_ok.1 count
      refine ⟨⟨by rwa [List.length_set], hother⟩, hfits, ?_, fun _ => hcount ▸ nonzero⟩
      rw [prod_set hlt, ← named_eq_eraseIdx hlen place hone, ← hcount]
      exact Int.ediv_mul_cancel (Int.dvd_of_emod_eq_zero divides)
    · obtain ⟨hfits, hcount⟩ := volume_eq_ok.1 count
      have hnone := count_of_wildcard? place
      refine ⟨⟨hlen, fun _ _ _ _ => rfl⟩, hfits, ?_, fun hmem => ?_⟩
      · rw [hcount, named_of_count hlen hnone]
      · exact absurd hmem (List.count_eq_zero.1 hnone)
  · rintro ⟨⟨hlen', hsame⟩, hfits, rfl, hne⟩
    have hnamed : named pattern s = named pattern shape := named_congr hlen' hlen hsame
    rcases hi : wildcard? pattern with _ | i
    · have hnone := count_of_wildcard? hi
      obtain rfl : s = shape := by
        rw [← named_of_count hlen' hnone, hnamed, named_of_count hlen hnone]
      refine .plain hi (volume_eq_ok.2 ⟨hfits, ?_⟩) rfl
      rw [named_of_count hlen hnone]
    · have hmem := getElem?_of_wildcard? hi
      have hlt : i < s.length := hlen' ▸ (List.getElem?_eq_some_iff.1 hmem).1
      have hlt' : i < shape.length := hlen ▸ (List.getElem?_eq_some_iff.1 hmem).1
      have hne := hne (List.mem_of_getElem? hmem)
      have herase : s.eraseIdx i = shape.eraseIdx i := by
        rw [← named_eq_eraseIdx hlen' hi hone, hnamed, named_eq_eraseIdx hlen hi hone]
      have hprod : s[i] * (named pattern shape).prod = s.prod := by
        rw [← hnamed, named_eq_eraseIdx hlen' hi hone]
        exact List.CommMonoid.mul_prod_eraseIdx hlt
      rw [hnamed] at hfits hne
      refine .wildcard hi (volume_eq_ok.2 ⟨hfits, rfl⟩) hne ?_ ?_
      · rw [← hprod]
        exact Int.mul_emod_left ..
      · rw [← hprod, Int.mul_ediv_cancel _ hne, ← List.insertIdx_eraseIdx_self hlt'.ne, ← herase]
        exact (List.insertIdx_eraseIdx_getElem hlt).symm

/-- What a pattern asks of a shape in which it puts the elements of a known input. -/
structure Resolves (input pattern : Shape) (copyZero : Bool) (s : Shape) : Prop where
  length : s.length = pattern.length
  kept : ∀ (i : Nat) (d : Int), pattern[i]? = some d → 0 < d ∨ d = 0 ∧ copyZero = false →
    s[i]? = some d
  copied : ∀ i : Nat, pattern[i]? = some 0 → copyZero = true → s[i]? = input[i]?
  known : ∀ d ∈ s, 0 ≤ d
  count : s.prod = input.prod

/-- Where the pattern leaves nothing open a resolved shape has what it asks for. -/
lemma Resolves.asked? (h : Resolves input pattern copyZero s) (hle : ∀ d ∈ pattern, -1 ≤ d)
    {d : Int} (hd : pattern[i]? = some d) (hne : d ≠ -1) :
    s[i]? = Shape.asked? input copyZero i d := by
  have := hle d (List.mem_of_getElem? hd)
  unfold Shape.asked?
  split
  · next hzero =>
    obtain ⟨rfl, hzero⟩ := hzero
    exact h.copied i hd hzero
  · next hzero =>
    refine h.kept i d hd ?_
    by_cases h0 : d = 0
    · exact .inr ⟨h0, by simpa [h0] using hzero⟩
    · omega

/-- A shape with what the pattern asks for beside its `-1`, and with the right number of elements,
has no dimension below zero there either. -/
lemma resolves_of_asked? (hknown : ∀ d ∈ input, 0 ≤ d) (hle : ∀ d ∈ pattern, -1 ≤ d)
    (hlen : s.length = pattern.length) (hasked : ∀ (i : Nat) (d : Int), pattern[i]? = some d →
      d ≠ -1 → s[i]? = Shape.asked? input copyZero i d) (hcount : s.prod = input.prod)
    (hone : pattern.count (-1) ≤ 1) (hne : -1 ∈ pattern → (named pattern s).prod ≠ 0) :
    Resolves input pattern copyZero s := by
  have hnamed : ∀ x ∈ named pattern s, 0 ≤ x := by
    intro x hx
    obtain ⟨i, d, hd, hopen, hx⟩ := mem_named.1 hx
    rw [hasked i d hd hopen] at hx
    unfold Shape.asked? at hx
    split at hx
    · exact hknown x (List.mem_of_getElem? hx)
    · have := hle d (List.mem_of_getElem? hd)
      cases hx
      omega
  refine ⟨hlen, fun i d hd hkept => ?_, fun i hd hzero => ?_, fun x hx => ?_, hcount⟩
  · have hopen : d ≠ -1 := by omega
    rw [hasked i d hd hopen, Shape.asked?, if_neg]
    rintro ⟨rfl, hzero⟩
    simp [hzero] at hkept
  · rw [hasked i 0 hd (by decide), Shape.asked?, if_pos ⟨rfl, hzero⟩]
  · rcases hi : wildcard? pattern with _ | i
    · exact hnamed x ((named_of_count hlen (count_of_wildcard? hi)).symm ▸ hx)
    have hmem := getElem?_of_wildcard? hi
    have hlt : i < s.length := hlen ▸ (List.getElem?_eq_some_iff.1 hmem).1
    have herase := named_eq_eraseIdx hlen hi hone
    obtain ⟨j, hx⟩ := List.mem_iff_getElem?.1 hx
    by_cases hij : j = i
    · -- the product of the others is positive, and that of all is not negative
      subst hij
      rw [List.getElem?_eq_getElem hlt, Option.some.injEq] at hx
      subst hx
      have hpos : 0 < (named pattern s).prod :=
        lt_of_le_of_ne (List.prod_nonneg hnamed) (hne (List.mem_of_getElem? hmem)).symm
      refine nonneg_of_mul_nonneg_left ?_ hpos
      rw [herase, List.CommMonoid.mul_prod_eraseIdx hlt, hcount]
      exact List.prod_nonneg hknown
    · exact hnamed x (herase ▸ List.mem_eraseIdx_iff_getElem?.2 ⟨j, hij, hx⟩)

/-- A known input is reshaped to what the pattern asks for, if that can be counted out. -/
lemma reshape_eq_ok_of_known (hknown : ∀ d ∈ input, 0 ≤ d) :
    reshape input pattern copyZero = .ok s ↔
      Resolves input pattern copyZero s ∧ (∀ d ∈ pattern, -1 ≤ d) ∧ pattern.count (-1) ≤ 1 ∧
        (∀ n, fits (input.take n).prod) ∧ (∀ n, fits ((named pattern s).take n).prod) ∧
        (-1 ∈ pattern → (named pattern s).prod ≠ 0) := by
  rw [reshape_eq_ok]
  unfold Finds
  simp only [hasUnknown_eq_false hknown, Bool.false_eq_true, if_false, volume_eq_ok]
  constructor
  · rintro ⟨shape, hread, _, ⟨hinput, rfl⟩, hfills⟩
    obtain ⟨hle, hone, hlen, hasked⟩ := readPattern_eq_ok.1 hread
    obtain ⟨⟨hlen', hsame⟩, hnamed, hcount, hne⟩ := (fills_iff hlen hone).1 hfills
    refine ⟨resolves_of_asked? hknown hle hlen' (fun i d hd hne => ?_) hcount hone hne, hle, hone,
      hinput, hnamed, hne⟩
    rw [hsame i d hd hne, hasked i d hd, Nat.zero_add]
  · rintro ⟨h, hle, hone, hinput, hnamed, hne⟩
    -- the pattern is read to the resolved shape with `-1` in its place
    have hget (j : Nat) (d : Int) (hd : pattern[j]? = some d) :
        (pattern.zipWith (fun d x => if d = -1 then -1 else x) s)[j]? =
          if d = -1 then some (-1) else s[j]? := by
      have hlt : j < s.length := h.length ▸ (List.getElem?_eq_some_iff.1 hd).1
      rw [List.getElem?_zipWith, hd, List.getElem?_eq_getElem hlt]
      exact apply_ite some ..
    have hlen : (pattern.zipWith (fun d x => if d = -1 then -1 else x) s).length =
        pattern.length := by
      rw [List.length_zipWith, h.length, Nat.min_self]
    refine ⟨_, readPattern_eq_ok.2 ⟨hle, hone, hlen, fun j d hd => ?_⟩, _, ⟨hinput, rfl⟩,
      (fills_iff hlen hone).2 ⟨⟨h.length, fun j d hd hne => ?_⟩, hnamed, h.count, hne⟩⟩
    · rw [hget j d hd, Nat.zero_add]
      split
      · next hd => simp [Shape.asked?, hd]
      · next hne => exact h.asked? hle hd hne
    · rw [hget j d hd, if_neg hne]

/-- **Resolved patterns**: for a known input a reshape gives the shapes that the pattern can stand
for: no entry of the pattern is below `-1` and at most one is `-1`, the elements of the input and
those of the other dimensions can be counted from the left, and beside a `-1` the other dimensions
hold some. There is then no other shape that the pattern could stand for. -/
theorem reshape_resolves (hknown : ∀ d ∈ input, 0 ≤ d) (pattern : Shape) (copyZero : Bool)
    (s : Shape) :
    (reshape input pattern copyZero = .ok s ↔
      Resolves input pattern copyZero s ∧ (∀ d ∈ pattern, -1 ≤ d) ∧ pattern.count (-1) ≤ 1 ∧
        (∀ n, fits (input.take n).prod) ∧ (∀ n, fits ((named pattern s).take n).prod) ∧
        (-1 ∈ pattern → (named pattern s).prod ≠ 0)) ∧
    (reshape input pattern copyZero = .ok s → ∀ t, Resolves input pattern copyZero t → t = s) := by
  refine ⟨reshape_eq_ok_of_known hknown, fun hs t ht => ?_⟩
  obtain ⟨h, hle, hone, hinput, hnamed, hne⟩ := (reshape_eq_ok_of_known hknown).1 hs
  -- the other shape has the same dimensions beside the `-1`, so it would be given as well
  have hsame : named pattern s = named pattern t := named_congr h.length ht.length
    fun i d hd hopen => (h.asked? hle hd hopen).trans (ht.asked? hle hd hopen).symm
  rw [hsame] at hnamed hne
  have hreshape := (reshape_eq_ok_of_known hknown).2 ⟨ht, hle, hone, hinput, hnamed, hne⟩
  exact Except.ok.inj (hreshape.symm.trans hs)

/-- The copied dimension leaves a dimension of zero for the `-1` where there are no elements. -/
theorem reshape_resolves_noElements :
    (∀ d ∈ ([4, 0, 6] : Shape), 0 ≤ d) ∧ reshape [4, 0, 6] [0, -1] true = .ok [4, 0] ∧
      ∀ t, Resolves [4, 0, 6] [0, -1] true t → t = [4, 0] := by
  have hknown : ∀ d ∈ ([4, 0, 6] : Shape), 0 ≤ d := by decide
  have hreshape : reshape [4, 0, 6] [0, -1] true = .ok [4, 0] := by decide
  exact ⟨hknown, hreshape, (reshape_resolves hknown [0, -1] true [4, 0]).2 hreshape⟩

end TensorGraph.Shape
