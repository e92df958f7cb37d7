/-!
How the cells of an array lie in memory.

An axis is known by its length and by the distance in memory between neighbours along it. An array
that two others are zipped into is laid out by columns if both are, or if no order suits both and
they lean towards columns; what an array leans towards is read off its first and last axis.
-/

namespace TensorGraph

/-- Which coordinate varies fastest in memory: the last, or the first. -/
inductive MemoryOrder where
  | rows
  | columns
deriving DecidableEq, Repr

structure Axis where
  size : Nat
  stride : Nat

namespace Axis

/-- Each axis strides over those before it, the first by `step`. Axes of a single cell do not
count. -/
def packed (step : Nat) : List Axis → Bool
  | [] => true
  | a :: axes =>
    if a.size = 1 then packed step axes else a.stride = step && packed (step * a.size) axes

/-- Does the last coordinate vary fastest, without gaps? -/
def inRows (axes : List Axis) : Bool := axes.any (·.size = 0) || packed 1 axes.reverse

def inColumns (axes : List Axis) : Bool := axes.any (·.size = 0) || packed 1 axes

/-- The axes of a shape laid out by columns, the first with stride `step`. -/
def byColumns (step : Nat) : List Nat → List Axis
  | [] => []
  | d :: ds => ⟨d, step⟩ :: byColumns (step * d) ds

def ofShape (shape : List Nat) : MemoryOrder → List Axis
  | .rows => (byColumns 1 shape.reverse).reverse
  | .columns => byColumns 1 shape

/-- The axes of an array that is seen in a shape to which it stretches: along a stretched or a new
axis one stays in place. -/
def stretched (axes : List Axis) (target : List Nat) : List Axis :=
  let new := target.length - axes.length
  (target.take new).map (⟨·, 0⟩) ++
    List.zipWith (fun d a => ⟨d, if d = a.size then a.stride else 0⟩) (target.drop new) axes

def isUnit (a : Axis) : Bool := 1 < a.size && a.stride = 1

theorem packed_byColumns (step : Nat) (shape : List Nat) :
    packed step (byColumns step shape) = true := by
  induction shape generalizing step with
  | nil => rfl
  | cons d ds ih =>
    by_cases hd : d = 1
    · simpa [packed, byColumns, hd] using ih step
    · simpa [packed, byColumns, hd] using ih (step * d)

theorem inRows_ofShape (shape : List Nat) : inRows (ofShape shape .rows) = true := by
  simp [inRows, ofShape, packed_byColumns]

end Axis

/-- In which orders an array can be walked straight through memory, and what it leans towards: rows
if positive, columns if negative. -/
structure Walk where
  rows : Bool
  columns : Bool
  leaning : Int

namespace Walk

def ofAxes (axes : List Axis) : Walk :=
  if Axis.inRows axes then
    if (axes.filter (1 < ·.size)).length ≤ 1 then ⟨true, true, 0⟩ else ⟨true, false, 2⟩
  else if Axis.inColumns axes then ⟨false, true, -2⟩
  else if axes.head?.any (·.isUnit) then ⟨false, false, -1⟩
  else if axes.getLast?.any (·.isUnit) then ⟨false, false, 1⟩
  else ⟨false, false, 0⟩

def zip (v w : Walk) : MemoryOrder :=
  if v.rows && w.rows then .rows
  else if v.columns && w.columns || v.leaning + w.leaning < 0 then .columns
  else .rows

theorem zip_comm (v w : Walk) : v.zip w = w.zip v := by
  rw [zip, zip, Bool.and_comm v.rows, Bool.and_comm v.columns, Int.add_comm]

end Walk

namespace MemoryOrder

/-- The order of a shape, by columns only where that is not the same as by rows. -/
def settled (order : MemoryOrder) (shape : List Nat) : MemoryOrder :=
  if Axis.inRows (Axis.ofShape shape order) then .rows else .columns

@[simp] theorem settled_rows (shape : List Nat) : settled .rows shape = .rows := by
  simp [settled, Axis.inRows_ofShape]

theorem settled_settled (order : MemoryOrder) (shape : List Nat) :
    (order.settled shape).settled shape = order.settled shape := by
  rcases ho : order.settled shape with _ | _
  · exact settled_rows shape
  · -- the order was by columns already
    unfold settled at ho
    split at ho
    · cases ho
    · next h =>
      cases order with
      | rows => exact absurd (Axis.inRows_ofShape shape) h
      | columns => exact if_neg h

end MemoryOrder

end TensorGraph
