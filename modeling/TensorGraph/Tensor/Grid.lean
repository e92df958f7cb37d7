import TensorGraph.Error
import TensorGraph.Tensor.Layout

/-!
Arrays of any rank. The cells are listed with the last coordinate varying fastest, in whichever
order they lie in memory. `Grid.offset` gives the place of coordinates in the list, and
`Grid.coordinates` the coordinates at a place; inside the shape they are inverse to each other. All
operations are defined by the coordinates they read.
-/

namespace TensorGraph

/-- Number of cells of a shape, the product of its dimensions. -/
def Grid.count : List Nat → Nat
  | [] => 1
  | d :: ds => d * Grid.count ds

@[simp] theorem Grid.count_nil : Grid.count [] = 1 := rfl

@[simp] theorem Grid.count_cons (d : Nat) (ds : List Nat) :
    Grid.count (d :: ds) = d * Grid.count ds := rfl

/-- Can an array have this shape? The dimensions other than zero have a product of at most 63
bits. -/
def Grid.indexable (shape : List Nat) : Bool := count (shape.filter (· ≠ 0)) < 0x8000000000000000

theorem Grid.indexable_cons_one (shape : List Nat) :
    Grid.indexable (1 :: shape) = Grid.indexable shape := by simp [Grid.indexable]

@[ext]
structure Grid (α : Type) where
  shape : List Nat
  cells : Array α
  order : MemoryOrder
  size_cells : cells.size = Grid.count shape
  fits : Grid.indexable shape = true
  settled : order.settled shape = order

namespace Grid

variable {α β : Type}

/-- The order in memory does not matter. -/
instance [BEq α] : BEq (Grid α) := ⟨fun a b => a.shape == b.shape && a.cells == b.cells⟩

/-! ### Coordinates -/

def Inside : List Nat → List Nat → Prop
  | [], [] => True
  | d :: ds, c :: cs => c < d ∧ Inside ds cs
  | _, _ => False

/-- The place of coordinates in row-major order. -/
def offset : List Nat → List Nat → Nat
  | _ :: ds, c :: cs => c * count ds + offset ds cs
  | _, _ => 0

def coordinates : List Nat → Nat → List Nat
  | [], _ => []
  | _ :: ds, i => i / count ds :: coordinates ds (i % count ds)

theorem inside_coordinates {shape : List Nat} {i : Nat} (h : i < count shape) :
    Inside shape (coordinates shape i) := by
  induction shape generalizing i with
  | nil => trivial
  | cons d ds ih =>
    rw [count_cons] at h
    have hpos : 0 < count ds := by
      rcases Nat.eq_zero_or_pos (count ds) with h0 | h0
      · simp [h0] at h
      · exact h0
    refine ⟨?_, ih (Nat.mod_lt _ hpos)⟩
    exact (Nat.div_lt_iff_lt_mul hpos).2 h

theorem offset_coordinates {shape : List Nat} {i : Nat} (h : i < count shape) :
    offset shape (coordinates shape i) = i := by
  induction shape generalizing i with
  | nil =>
    simp only [count_nil] at h
    simp only [offset]
    omega
  | cons d ds ih =>
    rw [count_cons] at h
    have hpos : 0 < count ds := by
      rcases Nat.eq_zero_or_pos (count ds) with h0 | h0
      · simp [h0] at h
      · exact h0
    simp only [coordinates, offset, ih (Nat.mod_lt i hpos)]
    rw [Nat.mul_comm]
    exact Nat.div_add_mod i (count ds)

theorem offset_lt {shape coords : List Nat} (h : Inside shape coords) :
    offset shape coords < count shape := by
  induction shape generalizing coords with
  | nil =>
    cases coords with
    | nil => simp [offset]
    | cons => exact h.elim
  | cons d ds ih =>
    cases coords with
    | nil => exact h.elim
    | cons c cs =>
      obtain ⟨hc, hcs⟩ := h
      have := ih hcs
      simp only [offset, count_cons]
      calc c * count ds + offset ds cs < c * count ds + count ds := by omega
        _ = (c + 1) * count ds := by rw [Nat.add_mul, Nat.one_mul]
        _ ≤ d * count ds := Nat.mul_le_mul_right _ hc

theorem coordinates_offset {shape coords : List Nat} (h : Inside shape coords) :
    coordinates shape (offset shape coords) = coords := by
  induction shape generalizing coords with
  | nil =>
    cases coords with
    | nil => rfl
    | cons => exact h.elim
  | cons d ds ih =>
    cases coords with
    | nil => exact h.elim
    | cons c cs =>
      obtain ⟨_, hcs⟩ := h
      have hlt := offset_lt hcs
      have hpos : 0 < count ds := by omega
      have hdiv : (c * count ds + offset ds cs) / count ds = c := by
        rw [Nat.mul_comm, Nat.mul_add_div hpos, Nat.div_eq_of_lt hlt, Nat.add_zero]
      have hmod : (c * count ds + offset ds cs) % count ds = offset ds cs := by
        rw [Nat.mul_comm, Nat.mul_add_mod, Nat.mod_eq_of_lt hlt]
      simp only [offset, coordinates, hdiv, hmod, ih hcs]

/-! ### Building and reading -/

def ofFn (shape : List Nat) (hfits : indexable shape = true) (f : List Nat → α) : Grid α where
  shape := shape
  cells := Array.ofFn fun i : Fin (count shape) => f (coordinates shape i)
  order := .rows
  size_cells := Array.size_ofFn
  fits := hfits
  settled := MemoryOrder.settled_rows shape

/-- The cell at coordinates inside the shape; the default value elsewhere. -/
def read [Inhabited α] (g : Grid α) (coords : List Nat) : α :=
  g.cells.getD (offset g.shape coords) default

/-- The grid without cells. It stands for arrays that memory cannot hold. -/
def empty : Grid α := ⟨[0], #[], .rows, rfl, rfl, rfl⟩

def fill (shape : List Nat) (a : α) : Grid α :=
  if h : indexable shape = true then ofFn shape h fun _ => a else empty

def rank (g : Grid α) : Nat := g.shape.length

def size (g : Grid α) : Nat := g.cells.size

/-- Applies a function to every cell, where it lies. -/
def map (f : α → β) (g : Grid α) : Grid β :=
  ⟨g.shape, g.cells.map f, g.order, by simp [g.size_cells], g.fits, g.settled⟩

def toList (g : Grid α) : List α := g.cells.toList

def vector (cells : List α) : Grid α :=
  if h : indexable [cells.length] = true then
    ⟨[cells.length], cells.toArray, .rows, by simp, h, MemoryOrder.settled_rows _⟩
  else empty

/-- The grid of a shape with the given cells, the last coordinate varying fastest. -/
def ofCells (shape : List Nat) (cells : List α) : Except Error (Grid α) :=
  if hfits : indexable shape = true then
    if h : cells.length = count shape then
      .ok ⟨shape, cells.toArray, .rows, by simpa using h, hfits, MemoryOrder.settled_rows shape⟩
    else if cells.length < count shape then
      .error (TensorFault.count shape cells.length .tooFew)
    else .error (TensorFault.count shape cells.length .tooMany)
  else .error (TensorFault.count shape cells.length .overflow)

/-- The same cells in another shape that holds as many. The count is first compared modulo
`2 ^ 64`; a shape that passes only so, or that arrays cannot have, is refused for itself. -/
def reshape (g : Grid α) (shape : List Nat) : Except Error (Grid α) :=
  if count shape % 0x10000000000000000 ≠ g.size then .error (TensorFault.volume g.shape shape)
  else if h : count shape = g.size ∧ indexable shape = true then
    .ok ⟨shape, g.cells, .rows, h.1.symm, h.2, MemoryOrder.settled_rows shape⟩
  else .error TensorFault.notIndexable

def laidOut (g : Grid α) (order : MemoryOrder) : Grid α :=
  { g with
    order := order.settled g.shape
    settled := order.settled_settled g.shape }

def axes (g : Grid α) : List Axis := Axis.ofShape g.shape g.order

/-- How the grid is walked when it is stretched to a shape. -/
def walk (g : Grid α) (target : List Nat) : Walk := .ofAxes (Axis.stretched g.axes target)

def isStandard (g : Grid α) : Bool := Axis.inRows g.axes

def slice? (g : Grid α) : Option (List α) := if g.isStandard then some g.toList else none

@[simp] theorem shape_ofFn (shape : List Nat) (hfits : indexable shape = true)
    (f : List Nat → α) : (ofFn shape hfits f).shape = shape := rfl

@[simp] theorem shape_map (f : α → β) (g : Grid α) : (g.map f).shape = g.shape := rfl

theorem read_ofFn [Inhabited α] {shape : List Nat} {hfits : indexable shape = true}
    {f : List Nat → α} {coords : List Nat} (h : Inside shape coords) :
    (ofFn shape hfits f).read coords = f coords := by
  have hlt := offset_lt h
  simp [read, ofFn, Array.getD, hlt, coordinates_offset h]

theorem isStandard_iff {g : Grid α} : g.isStandard = true ↔ g.order = .rows := by
  rw [← g.settled, MemoryOrder.settled, isStandard, axes]
  split <;> simp [*]

theorem order_of_singleton {g : Grid α} {n : Nat} (hshape : g.shape = [n]) : g.order = .rows := by
  have hrows : Axis.inRows (Axis.ofShape [n] .rows) = true := Axis.inRows_ofShape [n]
  rw [← isStandard_iff, isStandard, axes, hshape]
  cases g.order
  · exact hrows
  · exact hrows

/-! ### Stretching -/

/-- Does a shape stretch to another? Counted from the right, each of its dimensions is one or
equals the other's. -/
def stretches (shape target : List Nat) : Bool :=
  shape.length ≤ target.length &&
    (shape.zip (target.drop (target.length - shape.length))).all fun p => p.1 = p.2 || p.1 = 1

/-- The coordinates read for coordinates of the stretched grid: leading ones are dropped, and a
stretched dimension is read at zero. -/
def unstretch (shape coords : List Nat) : List Nat :=
  (shape.zip (coords.drop (coords.length - shape.length))).map fun p =>
    if p.1 = 1 then 0 else p.2

/-- The grid repeated along new leading dimensions and dimensions of size one. -/
def stretch? [Inhabited α] (g : Grid α) (target : List Nat) : Option (Grid α) :=
  if h : indexable target = true ∧ stretches g.shape target = true then
    some (ofFn target h.1 fun c => g.read (unstretch g.shape c))
  else none

theorem shape_of_stretch? [Inhabited α] {g h : Grid α} {target : List Nat}
    (hs : g.stretch? target = some h) : h.shape = target := by
  unfold stretch? at hs
  split at hs
  · cases hs
    rfl
  · cases hs

/-! ### Exchanging the last two dimensions -/

def swapLast : List Nat → List Nat
  | [] => []
  | [a] => [a]
  | [a, b] => [b, a]
  | a :: b :: c :: rest => a :: swapLast (b :: c :: rest)

theorem indexable_swapLast (shape : List Nat) : indexable (swapLast shape) = indexable shape := by
  have hcount : count ((swapLast shape).filter (· ≠ 0)) = count (shape.filter (· ≠ 0)) := by
    induction shape using swapLast.induct with
    | case1 => rfl
    | case2 => rfl
    | case3 a b =>
      by_cases ha : a = 0 <;> by_cases hb : b = 0 <;> simp [swapLast, ha, hb, Nat.mul_comm]
    | case4 a b c rest ih =>
      by_cases ha : a = 0
      · simpa [swapLast, ha] using ih
      · simpa [swapLast, ha] using congrArg (a * ·) ih
  rw [indexable, indexable, hcount]

def transposeLast [Inhabited α] (g : Grid α) : Grid α :=
  ofFn (swapLast g.shape) ((indexable_swapLast g.shape).trans g.fits) fun c => g.read (swapLast c)

end Grid

end TensorGraph
