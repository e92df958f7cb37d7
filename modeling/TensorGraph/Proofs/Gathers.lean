import TensorGraph.Proofs.Applied
import TensorGraph.Proofs.Grids
import TensorGraph.Proofs.ShapeOrder

/-!
What gathering from a constant gives.

Cells are looked up with a check here (`Grid.read?`), so that a lookup that succeeds is one of a
cell that is there. Gathering succeeds when the indices fit (`Tensor.Gatherable`), each of its cells
is then the cell of the data that its index names (`Tensor.Gathered`), and gathering with every
access checked does the same (`Tensor.gather?_eq`).
-/

namespace TensorGraph

open Edit

/-! ### Checked access -/

namespace Grid

variable {α : Type} {s c : List Nat}

instance decidableInside : ∀ s c : List Nat, Decidable (Inside s c)
  | [], [] => isTrue trivial
  | d :: ds, i :: is => @instDecidableAnd (i < d) (Inside ds is) _ (decidableInside ds is)
  | [], _ :: _ => isFalse id
  | _ :: _, [] => isFalse id

/-- The cell at coordinates, if they are inside the shape. -/
def read? (g : Grid α) (coords : List Nat) : Option α :=
  if Inside g.shape coords then g.cells[offset g.shape coords]? else none

lemma read?_of_inside [Inhabited α] {g : Grid α} (h : Inside g.shape c) :
    g.read? c = some (g.read c) := by
  have hlt : offset g.shape c < g.cells.size := g.size_cells ▸ offset_lt h
  simp [read?, read, h, Array.getD, hlt]

/-- The grid of cells each of which may be missing, if none is. -/
def ofFn? (shape : List Nat) (hfits : indexable shape = true) (f : List Nat → Option α) :
    Option (Grid α) :=
  if h : ∀ i : Fin (count shape), (f (coordinates shape i)).isSome then
    some ⟨shape, Array.ofFn fun i => (f (coordinates shape i)).get (h i), .rows, Array.size_ofFn,
      hfits, MemoryOrder.settled_rows shape⟩
  else none

lemma ofFn?_eq {hfits : indexable s = true} {f : List Nat → Option α} {f' : List Nat → α}
    (h : ∀ c, Inside s c → f c = some (f' c)) : ofFn? s hfits f = some (ofFn s hfits f') := by
  have hf (i : Fin (count s)) := h _ (inside_coordinates i.isLt)
  unfold ofFn?
  rw [dif_pos fun i => by rw [hf i]; rfl]
  simp only [hf, Option.get_some]
  rfl

lemma inside_set {t : List Nat} {a k : Nat} (hc : Inside t c) (hlen : s.length = t.length)
    (hoff : ∀ i ≠ a, s[i]? = t[i]?) (hk : ∀ d, s[a]? = some d → k < d) : Inside s (c.set a k) := by
  rw [inside_iff, List.forall₂_iff_get] at hc ⊢
  refine ⟨by rw [hlen, hc.1, List.length_set], fun i hi hi' => ?_⟩
  have ht : i < t.length := hlen ▸ hi
  simp only [List.get_eq_getElem, List.getElem_set]
  split
  · next ha => exact hk _ (ha ▸ List.getElem?_eq_getElem hi)
  · next ha =>
    have heq := hoff i (Ne.symm ha)
    rw [List.getElem?_eq_getElem hi, List.getElem?_eq_getElem ht, Option.some.injEq] at heq
    rw [heq]
    exact hc.2 i ht (by simpa using hi')

lemma read_mem_toList [Inhabited α] {g : Grid α} (h : Inside g.shape c) : g.read c ∈ g.toList := by
  have hlt : offset g.shape c < g.cells.size := g.size_cells ▸ offset_lt h
  simp [read, toList, Array.getD, hlt]

/-! ### Gathering with checks -/

variable {data : Grid α} {indices : Grid Int64} {a d : Nat}

/-- The cell of the data that the index at some coordinates names. -/
def gatherCell? (data : Grid α) (indices : Grid Int64) (axis dim : Nat) (coords : List Nat) :
    Option α := do
  let i ← indices.read? coords
  let _ ← coords[axis]?
  data.read? (coords.set axis (gatherCoordinate dim i.toInt))

/-- Gathering that gives nothing when it comes to a dimension, a coordinate or a cell that is not
there. -/
def gather? (data : Grid α) (indices : Grid Int64) (axis : Nat) : Option (Except Error (Grid α)) :=
  match data.shape[axis]? with
  | none => none
  | some dim =>
    match indices.toList.find? fun i => i.toInt < -(dim : Int) || (dim : Int) ≤ i.toInt with
    | some bad => some (.error (RuleFault.gatherIndex bad.toInt axis dim))
    | none => (ofFn? indices.shape indices.fits (data.gatherCell? indices axis dim)).map .ok

/-- The indices name coordinates in a dimension, from either end. -/
def Names (indices : Grid Int64) (d : Nat) : Prop :=
  ∀ i ∈ indices.toList, -(d : Int) ≤ i.toInt ∧ i.toInt < d

lemma names_iff : indices.Names d ↔
    indices.toList.find? (fun i => i.toInt < -(d : Int) || (d : Int) ≤ i.toInt) = none := by
  rw [List.find?_eq_none]
  refine forall₂_congr fun i _ => ?_
  simp

lemma natCast_gatherCoordinate {i : Int} (h : -(d : Int) ≤ i ∧ i < d) :
    (gatherCoordinate d i : Int) = if i < 0 then i + d else i := by
  unfold gatherCoordinate
  exact Int.toNat_of_nonneg (by split <;> omega)

lemma gather_eq_ok [Inhabited α] (hd : data.shape[a]? = some d) {k : Grid α} :
    data.gather indices a = .ok k ↔ indices.Names d ∧ k = ofFn indices.shape indices.fits fun c =>
      data.read (c.set a (gatherCoordinate d (indices.read c).toInt)) := by
  have hdim : data.shape.getD a 0 = d := by rw [List.getD_eq_getElem?_getD, hd]; rfl
  unfold gather
  simp only [hdim, names_iff]
  rcases indices.toList.find? _ with _ | bad <;> simp [eq_comm]

section

variable (hd : data.shape[a]? = some d) (hlen : data.shape.length = indices.shape.length)
  (hoff : ∀ i ≠ a, data.shape[i]? = indices.shape[i]?)

include hd hlen hoff

lemma gatherCell?_eq [Inhabited α] (hn : indices.Names d) (hc : Inside indices.shape c) :
    data.gatherCell? indices a d c =
      some (data.read (c.set a (gatherCoordinate d (indices.read c).toInt))) := by
  have ha : a < c.length := by
    rw [← hc.length_eq, ← hlen]
    exact (List.getElem?_eq_some_iff.1 hd).1
  have hin : Inside data.shape (c.set a (gatherCoordinate d (indices.read c).toInt)) := by
    refine inside_set hc hlen hoff fun d' hd' => ?_
    obtain rfl := Option.some.inj (hd.symm.trans hd')
    have hi := hn _ (read_mem_toList hc)
    have hk := natCast_gatherCoordinate hi
    split at hk <;> omega
  unfold gatherCell?
  rw [read?_of_inside hc, List.getElem?_eq_getElem ha]
  exact read?_of_inside hin

/-- Gathering comes to nothing that is not there, whether it succeeds or not. -/
lemma gather?_eq [Inhabited α] : data.gather? indices a = some (data.gather indices a) := by
  have hdim : data.shape.getD a 0 = d := by rw [List.getD_eq_getElem?_getD, hd]; rfl
  unfold gather? gather
  simp only [hd, hdim]
  rcases hbad : indices.toList.find? _ with _ | bad
  · simp only
    rw [ofFn?_eq fun c hc => gatherCell?_eq hd hlen hoff (names_iff.2 hbad) hc]
    rfl
  · rfl

/-- A cell that is gathered is the one that its index names. -/
lemma exists_gathered [Inhabited α] {k : Grid α} (hk : data.gather indices a = .ok k)
    (hc : Inside indices.shape c) : ∃ (i : Int64) (n : Nat) (x : α), indices.read? c = some i ∧
      (n : Int) = (if i.toInt < 0 then i.toInt + d else i.toInt) ∧
      data.read? (c.set a n) = some x ∧ k.read? c = some x := by
  obtain ⟨hn, rfl⟩ := (gather_eq_ok hd).1 hk
  have hread := gatherCell?_eq hd hlen hoff hn hc
  have hi := read?_of_inside hc
  obtain ⟨i, hi', hread⟩ := Option.bind_eq_some_iff.1 hread
  obtain rfl := Option.some.inj (hi.symm.trans hi')
  obtain ⟨_, -, hread⟩ := Option.bind_eq_some_iff.1 hread
  refine ⟨_, _, _, hi, natCast_gatherCoordinate (hn _ (read_mem_toList hc)), hread, ?_⟩
  have hin : Inside (ofFn indices.shape indices.fits fun c =>
    data.read (c.set a (gatherCoordinate d (indices.read c).toInt))).shape c := hc
  rw [read?_of_inside hin, read_ofFn hc]

end

end Grid

/-! ### Tensors -/

/-- A single element of a tensor. -/
inductive Cell where
  | bool (b : Bool)
  | i64 (x : Int64)
  | f32 (x : Float32)

namespace Tensor

/-- The element at coordinates, if they are inside the shape. -/
def cell? : Tensor → List Nat → Option Cell
  | bool g, c => (g.read? c).map .bool
  | i64 g, c => (g.read? c).map .i64
  | f32 g, c => (g.read? c).map .f32

/-- Gathering with every access checked. -/
def gather? (data : Tensor) (indices : Grid Int64) (axis : Nat) : Option (Except Error Tensor) :=
  match data with
  | bool g => (g.gather? indices axis).map (·.map .bool)
  | i64 g => (g.gather? indices axis).map (·.map .i64)
  | f32 g => (g.gather? indices axis).map (·.map .f32)

/-- The place of an axis that negative numbers count from the right. -/
def axisPlace (data : Tensor) (axis : Int) : Nat :=
  (if axis < 0 then axis + data.rank else axis).toNat

/-- Indices that name elements of data along an axis, which may be counted from the right. -/
structure Gatherable (data : Tensor) (indices : Grid Int64) (axis : Int) : Prop where
  rank : data.rank = indices.rank
  range : -(data.rank : Int) ≤ axis ∧ axis < data.rank
  shape : ∀ i ≠ data.axisPlace axis, data.shape[i]? = indices.shape[i]?
  names : indices.Names (data.shape.getD (data.axisPlace axis) 0)

/-- The elements that indices name in data along the axis `a`. -/
structure Gathered (data : Tensor) (indices : Grid Int64) (a : Nat) (t : Tensor) : Prop where
  shape : t.shape = indices.shape
  elementType : t.elementType = data.elementType
  cell : ∀ c, Grid.Inside indices.shape c → ∃ (i : Int64) (k : Nat) (x : Cell),
    indices.read? c = some i ∧
    (k : Int) = (if i.toInt < 0 then i.toInt + data.shape.getD a 0 else i.toInt) ∧
    data.cell? (c.set a k) = some x ∧ t.cell? c = some x

variable {data t : Tensor} {indices : Grid Int64} {a d : Nat} {axis : Int}

lemma normalizeAxis_eq_ok (hrank : data.rank < 0x8000000000000000) :
    Shape.normalizeAxis axis (Shape.signed data.dims.length) = .ok a ↔
      (-(data.rank : Int) ≤ axis ∧ axis < data.rank) ∧ a = data.axisPlace axis := by
  have hlen : data.dims.length = data.rank := List.length_map _
  rw [hlen, Shape.signed_of_lt hrank, Shape.normalizeAxis, axisPlace]
  split
  · next h => simp [h, eq_comm]
  · next h => simp [h]

lemma checkGatherAxes_dims (hrank : data.rank = indices.rank) :
    Rules.checkGatherAxes a data.dims (i64 indices).dims = .ok () ↔
      ∀ i ≠ a, data.shape[i]? = indices.shape[i]? := by
  have hlen : data.shape.length = indices.shape.length := hrank
  have hdims : (i64 indices).dims = indices.shape.map Int.ofNat := rfl
  rw [Rules.checkGatherAxes_eq_ok, hdims, dims]
  simp only [List.getElem?_map, Option.map_eq_some_iff]
  constructor
  · intro h i hi
    by_cases hlt : i < data.shape.length
    · have hlt' : i < indices.shape.length := hlen ▸ hlt
      have hdim := h i _ _ ⟨_, List.getElem?_eq_getElem hlt, rfl⟩
        ⟨_, List.getElem?_eq_getElem hlt', rfl⟩
      rw [List.getElem?_eq_getElem hlt, List.getElem?_eq_getElem hlt']
      congr 1
      simp only [Int.ofNat_eq_natCast] at hdim
      omega
    · rw [List.getElem?_eq_none (by omega), List.getElem?_eq_none (by omega)]
  · rintro h i _ _ ⟨m, hm, rfl⟩ ⟨n, hn, rfl⟩
    by_cases hi : i = a
    · exact .inl hi
    · rw [h i hi, hn] at hm
      cases hm
      exact .inr (.inr (.inr rfl))

/-- Data of the rank of the indices is gathered from whatever its element type. -/
lemma gather_eq (hrank : data.rank = indices.rank) : data.gather (i64 indices) a =
    match data with
    | bool g => (g.gather indices a).map bool
    | i64 g => (g.gather indices a).map i64
    | f32 g => (g.gather indices a).map f32 := by
  have hensure : ensure (data.rank = (i64 indices).rank)
      (RuleFault.ranks data.rank (i64 indices).rank : Error) = .ok () := Edit.ensure_eq_ok.2 hrank
  unfold gather
  rw [hensure, ok_bind]
  show (match data with
    | bool g => g.gather indices a >>= fun k => .ok (bool k)
    | i64 g => g.gather indices a >>= fun k => .ok (i64 k)
    | f32 g => g.gather indices a >>= fun k => .ok (f32 k)) = _
  cases data with
  | bool g => cases g.gather indices a <;> rfl
  | i64 g => cases g.gather indices a <;> rfl
  | f32 g => cases g.gather indices a <;> rfl

section

variable (hd : data.shape[a]? = some d) (hrank : data.rank = indices.rank)

include hd hrank

/-- Gathering succeeds exactly when the indices name elements on the axis. -/
lemma exists_gather : (∃ t, data.gather (i64 indices) a = .ok t) ↔ indices.Names d := by
  have hgrid {α : Type} [Inhabited α] (mk : Grid α → Tensor) {g : Grid α}
      (hg : g.shape[a]? = some d) :
      (∃ t, (g.gather indices a).map mk = .ok t) ↔ indices.Names d := by
    constructor
    · rintro ⟨t, ht⟩
      obtain ⟨k, hk, -⟩ := map_eq_ok.1 ht
      exact ((Grid.gather_eq_ok hg).1 hk).1
    · intro hn
      exact ⟨_, map_eq_ok.2 ⟨_, (Grid.gather_eq_ok hg).2 ⟨hn, rfl⟩, rfl⟩⟩
  rw [gather_eq hrank]
  cases data with
  | bool g => exact hgrid bool hd
  | i64 g => exact hgrid i64 hd
  | f32 g => exact hgrid f32 hd

variable (hoff : ∀ i ≠ a, data.shape[i]? = indices.shape[i]?)

include hoff

/-- Gathering comes to nothing that is not there, whether it succeeds or not. -/
lemma gather?_eq : data.gather? indices a = some (data.gather (i64 indices) a) := by
  rw [gather_eq hrank]
  cases data with
  | bool g => exact congrArg (Option.map (·.map bool)) (Grid.gather?_eq hd hrank hoff)
  | i64 g => exact congrArg (Option.map (·.map i64)) (Grid.gather?_eq hd hrank hoff)
  | f32 g => exact congrArg (Option.map (·.map f32)) (Grid.gather?_eq hd hrank hoff)

lemma gathered_of_gather (ht : data.gather (i64 indices) a = .ok t) :
    data.Gathered indices a t := by
  have hdim : data.shape.getD a 0 = d := by rw [List.getD_eq_getElem?_getD, hd]; rfl
  have hshape := shape_gather ht
  -- the same for each of the element types
  have hgrid {α : Type} [Inhabited α] (mk : Grid α → Tensor) (cell : α → Cell) {g : Grid α}
      (hg : data = mk g) (ht : (g.gather indices a).map mk = .ok t)
      (hmk : ∀ k : Grid α, (mk k).shape = k.shape ∧ (mk k).elementType = (mk g).elementType ∧
        ∀ c, (mk k).cell? c = (k.read? c).map cell) : data.Gathered indices a t := by
    obtain ⟨k, hk, rfl⟩ := map_eq_ok.1 ht
    subst hg
    have hlen : g.shape.length = indices.shape.length := (hmk g).1 ▸ hrank
    rw [(hmk g).1] at hd hoff
    refine ⟨hshape, (hmk k).2.1, fun c hc => ?_⟩
    obtain ⟨i, n, x, hi, hn, hx, hkx⟩ := Grid.exists_gathered hd hlen hoff hk hc
    exact ⟨i, n, cell x, hi, hdim ▸ hn, by rw [(hmk g).2.2, hx]; rfl, by rw [(hmk k).2.2, hkx]; rfl⟩
  rw [gather_eq hrank] at ht
  cases data with
  | bool g => exact hgrid bool .bool rfl ht fun _ => ⟨rfl, rfl, fun _ => rfl⟩
  | i64 g => exact hgrid i64 .i64 rfl ht fun _ => ⟨rfl, rfl, fun _ => rfl⟩
  | f32 g => exact hgrid f32 .f32 rfl ht fun _ => ⟨rfl, rfl, fun _ => rfl⟩

end

lemma getElem?_axisPlace (h : -(data.rank : Int) ≤ axis ∧ axis < data.rank) :
    data.shape[data.axisPlace axis]? = some (data.shape.getD (data.axisPlace axis) 0) := by
  have hlt : data.axisPlace axis < data.shape.length := by
    unfold axisPlace
    unfold rank at h ⊢
    split <;> omega
  rw [List.getD_eq_getElem _ _ hlt, List.getElem?_eq_getElem hlt]

/-- What the rule checks, and that the indices are accepted. -/
lemma gatherable_iff (hrank : data.rank < 0x8000000000000000) : data.Gatherable indices axis ↔
    data.rank = indices.rank ∧ ∃ a,
      Shape.normalizeAxis axis (Shape.signed data.dims.length) = .ok a ∧
      Rules.checkGatherAxes a data.dims (i64 indices).dims = .ok () ∧
      ∃ t, data.gather (i64 indices) a = .ok t := by
  constructor
  · intro h
    have hd := getElem?_axisPlace h.range
    exact ⟨h.rank, _, (normalizeAxis_eq_ok hrank).2 ⟨h.range, rfl⟩,
      (checkGatherAxes_dims h.rank).2 h.shape, (exists_gather hd h.rank).2 h.names⟩
  · rintro ⟨hranks, a, haxis, hcheck, ht⟩
    obtain ⟨hrange, rfl⟩ := (normalizeAxis_eq_ok hrank).1 haxis
    exact ⟨hranks, hrange, (checkGatherAxes_dims hranks).1 hcheck,
      (exists_gather (getElem?_axisPlace hrange) hranks).1 ht⟩

end Tensor

/-- The rule on constants writes what is gathered, if the checks pass. -/
lemma Rules.eval_gather_given {s : Scene} {data : Tensor} {indices : Grid Int64} {axis : Int}
    (hs : s.Given [.ofValue data, .ofValue (.i64 indices)]) (hint : s.int "axis" = .ok axis)
    (ws : List Write) : gather.eval s = .ok ((), ws) ↔
      data.rank = indices.rank ∧ ∃ a,
        Shape.normalizeAxis axis (Shape.signed data.dims.length) = .ok a ∧
        checkGatherAxes a data.dims (Tensor.i64 indices).dims = .ok () ∧
        ∃ t, data.gather (.i64 indices) a = .ok t ∧
          ws = shaped 0 (Tensor.i64 indices).dims (some t) := by
  obtain ⟨hshape₀, hvalue₀⟩ := hs.constant (p := 0) rfl
  obtain ⟨hshape₁, hvalue₁⟩ := hs.constant (p := 1) rfl
  have hlen : data.dims.length = data.rank := List.length_map _
  have hlen' : (Tensor.i64 indices).dims.length = indices.rank := List.length_map _
  rw [eval_gather]
  constructor
  · rintro ⟨x, y, axis', a, v, w, r, hx, hy, hranks, haxis', ha, hcheck, -, hv, hw, hr, rfl⟩
    cases hshape₀.symm.trans hx
    cases hshape₁.symm.trans hy
    cases hvalue₀.symm.trans hv
    cases hvalue₁.symm.trans hw
    cases hint.symm.trans haxis'
    obtain ⟨t, ht, rfl⟩ := map_eq_ok.1 hr
    exact ⟨by rw [← hlen, hranks, hlen'], a, ha, hcheck, t, ht, rfl⟩
  · rintro ⟨hranks, a, ha, hcheck, t, ht, rfl⟩
    exact ⟨_, _, axis, a, _, _, some t, hshape₀, hshape₁, by rw [hlen, hranks, hlen'], hint, ha,
      hcheck, Tensor.valid_dims _, hvalue₀, hvalue₁, map_eq_ok.2 ⟨t, ht, rfl⟩, rfl⟩

/-- **Gathering from constants**: inferring it succeeds exactly when the indices name elements of
the data. The output is then a constant that holds these, and whenever the rule gathers it comes to
nothing that is not there. -/
theorem Graph.Applied.folds_gatherElements {g : Graph} {id : NodeId} {o : Operation} {data : Tensor}
    {indices : Grid Int64} {axis : Int}
    (ha : g.Applied id o [.ofValue data, .ofValue (.i64 indices)])
    (hkind : o.kind = "GatherElements")
    (haxis : ((o.attributes.find? "axis").getD (.int 0)).toInt? = some axis)
    (hrank : data.rank < 0x8000000000000000) :
    ((∃ changed h, Gives (Registry.standard.inferNode id) g changed h) ↔
      data.Gatherable indices axis) ∧
    (∀ changed h, Gives (Registry.standard.inferNode id) g changed h →
      ∃ t, data.Gathered indices (data.axisPlace axis) t ∧
        ∀ d, g.Output id 0 d → h.fact? d = some (.ofValue t)) ∧
    ∀ a, data.rank = indices.rank →
      Shape.normalizeAxis axis (Shape.signed data.dims.length) = .ok a →
      Rules.checkGatherAxes a data.dims (Tensor.i64 indices).dims = .ok () →
      data.gather? indices a = some (data.gather (.i64 indices) a) := by
  have hentry : OpEntry.standard.reverse.find? (·.kind = o.kind) =
      some ((OpEntry.ofRule "GatherElements" Rules.gather).defaulting "axis" (.int 0)) := by
    rw [hkind]
    rfl
  obtain ⟨s, hgiven, hfollows, hattr⟩ := ha.follows hentry rfl (by simp [Fact.ofValue])
  have hint : s.int "axis" = .ok axis := by
    refine Scene.typed_eq_ok.2 ?_
    rw [hattr, ← haxis]
    rcases o.attributes.find? "axis" with _ | x <;> rfl
  have hrule := Rules.eval_gather_given hgiven hint
  refine ⟨?_, fun changed h hx => ?_, fun a hranks haxis' hcheck => ?_⟩
  · rw [hfollows.gives_iff, Tensor.gatherable_iff hrank]
    constructor
    · rintro ⟨ws, hev⟩
      obtain ⟨hranks, a, haxis', hcheck, t, ht, -⟩ := (hrule ws).1 hev
      exact ⟨hranks, a, haxis', hcheck, t, ht⟩
    · rintro ⟨hranks, a, haxis', hcheck, t, ht⟩
      exact ⟨_, (hrule _).2 ⟨hranks, a, haxis', hcheck, t, ht, rfl⟩⟩
  · obtain ⟨ws, hev⟩ := hfollows.gives_iff.1 ⟨changed, h, hx⟩
    obtain ⟨hranks, a, haxis', hcheck, t, ht, rfl⟩ := (hrule ws).1 hev
    obtain ⟨hrange, rfl⟩ := (Tensor.normalizeAxis_eq_ok hrank).1 haxis'
    exact ⟨t, Tensor.gathered_of_gather (Tensor.getElem?_axisPlace hrange) hranks
      ((Tensor.checkGatherAxes_dims hranks).1 hcheck) ht,
      fun d hd => hfollows.fact?_folded ha hev hx hd⟩
  · obtain ⟨hrange, rfl⟩ := (Tensor.normalizeAxis_eq_ok hrank).1 haxis'
    exact Tensor.gather?_eq (Tensor.getElem?_axisPlace hrange) hranks
      ((Tensor.checkGatherAxes_dims hranks).1 hcheck)

/-- One row gathered from two, the rows counted from the end. -/
def gatheredRow : Edit Unit := do
  let data ← addConst "data" (.bool ⟨[2, 2], #[false, false, true, false], .rows, rfl, rfl, rfl⟩)
  let indices ← addConst "indices" (.i64 ⟨[1, 2], #[-1, 0], .rows, rfl, rfl, rfl⟩)
  discard (wire "y" ((Operation.ofKind "GatherElements").withAttribute "axis" (.int (-2)))
    [data, indices])

/-- The index `-1` names the second row. -/
theorem folds_gatherElements_gatheredRow :
    let g := (gatheredRow.run ∅).graph
    let data : Tensor := .bool ⟨[2, 2], #[false, false, true, false], .rows, rfl, rfl, rfl⟩
    let indices : Grid Int64 := ⟨[1, 2], #[-1, 0], .rows, rfl, rfl, rfl⟩
    ∃ o, g.Applied ⟨4⟩ o [.ofValue data, .ofValue (.i64 indices)] ∧ o.kind = "GatherElements" ∧
      ((o.attributes.find? "axis").getD (.int 0)).toInt? = some (-2) ∧
      ∃ changed h t, Gives (Registry.standard.inferNode ⟨4⟩) g changed h ∧
        h.fact? ⟨5⟩ = some (.ofValue t) ∧ t.shape = [1, 2] ∧
        t.cell? [0, 0] = some (.bool true) := by
  intro g data indices
  obtain ⟨o, hkind, haxis, ha⟩ : ∃ o, o.kind = "GatherElements" ∧
      ((o.attributes.find? "axis").getD (.int 0)).toInt? = some (-2) ∧
      g.Applied ⟨4⟩ o [.ofValue data, .ofValue (.i64 indices)] := by
    refine ⟨_, rfl, rfl, .of_incoming (by decide +kernel) ?_ rfl rfl rfl rfl⟩
    unfold Graph.Apart
    decide +kernel
  have hgatherable : data.Gatherable indices (-2) := by
    refine ⟨rfl, by decide, fun i hi => ?_, Grid.names_iff.2 rfl⟩
    rcases i with _ | i
    · exact absurd rfl hi
    · rfl
  obtain ⟨hgives, hfold, -⟩ := ha.folds_gatherElements hkind haxis (by decide)
  obtain ⟨changed, h, hx⟩ := hgives.2 hgatherable
  obtain ⟨t, ht, hout⟩ := hfold changed h hx
  refine ⟨o, ha, hkind, haxis, changed, h, t, hx, hout ⟨5⟩ ?_, ht.shape, ?_⟩
  · unfold Graph.Output
    decide +kernel
  · obtain ⟨i, k, x, hi, hk, hx, htx⟩ := ht.cell [0, 0] ⟨by decide, by decide, trivial⟩
    obtain rfl : i = -1 := (Option.some.inj hi).symm
    obtain rfl : k = 1 := Int.ofNat.inj hk
    rw [htx, ← hx]
    rfl

end TensorGraph
