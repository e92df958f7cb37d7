import TensorGraph.Transformation.Basic

/-!
Puts transformations in an order that respects their stages and dependencies. For each one the
predecessors not placed are counted down; those at zero wait in line, by stage and then by
registration, and the first one is placed. When some never come to zero, the error names
transformations that wait for each other.
-/

namespace TensorGraph.Schedule

/-! ### Dependencies -/

/-- A dependency as declared: between two transformations by index, the former first, or on a
transformation that is not there. -/
inductive Declared where
  | between (former latter : Nat)
  | unknown (id missing : String)
deriving DecidableEq, Repr

def index? (ds : List Descriptor) (id : String) : Option Nat := ds.findIdx? fun d => d.id == id

def declareAfter (ds : List Descriptor) (d : Descriptor) (i : Nat) (id : String) : Declared :=
  match index? ds id with
  | some j => .between j i
  | none => .unknown d.id id

def declareBefore (ds : List Descriptor) (d : Descriptor) (i : Nat) (id : String) : Declared :=
  match index? ds id with
  | some j => .between i j
  | none => .unknown d.id id

def declared (ds : List Descriptor) : List Declared :=
  ds.zipIdx.flatMap fun (d, i) =>
    d.after.map (declareAfter ds d i) ++ d.before.map (declareBefore ds d i)

def Declared.pair? : Declared → Option (Nat × Nat)
  | between former latter => some (former, latter)
  | unknown .. => none

/-- The dependencies as pairs of indices, the former first. -/
def dependencies (ds : List Descriptor) : List (Nat × Nat) := (declared ds).filterMap (·.pair?)

def stageAt (ds : List Descriptor) (i : Nat) : Nat :=
  match ds[i]? with
  | some d => d.stage.place
  | none => 0

def idAt (ds : List Descriptor) (i : Nat) : String :=
  match ds[i]? with
  | some d => d.id
  | none => ""

def isBackward (ds : List Descriptor) (p : Nat × Nat) : Bool :=
  decide (stageAt ds p.2 < stageAt ds p.1)

/-! ### Counting down -/

/-- The successors of each index, as they are declared: in this order, and as often. -/
def successors (n : Nat) (deps : List (Nat × Nat)) : List (List Nat) :=
  deps.foldl (fun table p => table.modify p.1 (· ++ [p.2])) (List.replicate n [])

/-- How often each index is a successor. -/
def inDegrees (table : List (List Nat)) : List Nat :=
  table.foldl (fun counts l => l.foldl (fun counts i => counts.modify i (· + 1)) counts)
    (List.replicate table.length 0)

/-- A stage and an index, the key by which an index waits for its turn. -/
def keyOf (ds : List Descriptor) (i : Nat) : Nat × Nat := (stageAt ds i, i)

def isBefore (k l : Nat × Nat) : Bool := decide (k.1 < l.1 ∨ k.1 = l.1 ∧ k.2 < l.2)

/-- Puts a key in its place among ascending ones, unless it is there. -/
def enqueue (k : Nat × Nat) : List (Nat × Nat) → List (Nat × Nat)
  | [] => [k]
  | l :: rest =>
    if k = l then l :: rest
    else if isBefore k l then k :: l :: rest
    else l :: enqueue k rest

/-- How far the scheduling has come: for each index how many of its predecessors are not placed, as
often as they are declared; the keys of those that may come next; and the indices placed. -/
structure Countdown where
  waiting : List Nat
  ready : List (Nat × Nat)
  order : List Nat

def Countdown.start (ds : List Descriptor) (waiting : List Nat) : Countdown where
  waiting := waiting
  ready := ((List.range ds.length).filter fun i => waiting[i]? == some 0).foldl
    (fun ready i => enqueue (keyOf ds i) ready) []
  order := []

/-- Takes one predecessor off an index, which may come next if it was the last. -/
def Countdown.release (ds : List Descriptor) (c : Countdown) (i : Nat) : Countdown :=
  let waiting := c.waiting.modify i (· - 1)
  let ready := if waiting[i]? = some 0 then enqueue (keyOf ds i) c.ready else c.ready
  { c with waiting, ready }

/-- Places the index of the first key, with `rest` behind it, and takes it off its successors. -/
def Countdown.place (ds : List Descriptor) (table : List (List Nat)) (c : Countdown) (i : Nat)
    (rest : List (Nat × Nat)) : Countdown :=
  (table.getD i []).foldl (·.release ds) { c with ready := rest, order := c.order ++ [i] }

/-- Places up to `n` indices. -/
def Countdown.drain (ds : List Descriptor) (table : List (List Nat)) : Nat → Countdown → Countdown
  | 0, c => c
  | n + 1, c =>
    match c.ready with
    | [] => c
    | k :: rest => drain ds table n (c.place ds table k.2 rest)

/-- Counts down until nothing more may come next. -/
def countdown (ds : List Descriptor) (deps : List (Nat × Nat)) : Countdown :=
  let table := successors ds.length deps
  (Countdown.start ds (inDegrees table)).drain ds table ds.length

/-! ### Cycles -/

def isBlocked (waiting : List Nat) (i : Nat) : Bool := (waiting[i]?).any (0 < ·)

/-- Follows blocked successors until one comes up again, in at most `n` steps. The path before its
last member is given. -/
def walk (table : List (List Nat)) (waiting : List Nat) : Nat → List Nat → Nat → List Nat
  | 0, path, last => path ++ [last]
  | n + 1, path, last =>
    let path := path ++ [last]
    match (table.getD last []).find? (isBlocked waiting) with
    | none => path
    | some next =>
      if path.contains next then path.dropWhile (· != next) ++ [next]
      else walk table waiting n path next

/-- Transformations that wait for each other, when some cannot be placed. -/
def findCycle (table : List (List Nat)) (waiting : List Nat) : List Nat :=
  match (List.range waiting.length).find? (isBlocked waiting) with
  | none => []
  | some start => walk table waiting waiting.length [] start

/-! ### Schedules -/

def duplicate? (seen : List String) : List Descriptor → Option String
  | [] => none
  | d :: ds => if seen.contains d.id then some d.id else duplicate? (d.id :: seen) ds

def order (ds : List Descriptor) : Except Error (List Nat) := do
  if let some id := duplicate? [] ds then
    Except.error (Cause.duplicateTransformation id)
  let deps := dependencies ds
  if let some (former, latter) := deps.find? (isBackward ds) then
    Except.error (Cause.schedulingCycle [idAt ds former, idAt ds latter])
  let c := countdown ds deps
  ensure (ds.length ≤ c.order.length)
    (Cause.schedulingCycle ((findCycle (successors ds.length deps) c.waiting).map (idAt ds)))
  return c.order

/-- Does the dependency stop the scheduling? -/
def Declared.isFatal (ds : List Descriptor) : Declared → Bool
  | between former latter => isBackward ds (former, latter)
  | unknown .. => false

def Declared.note? : Declared → Option Message
  | between .. => none
  | unknown id missing =>
    some ⟨.debug, id ++ ": ignoring dependency on unknown transformation " ++ missing⟩

/-- What is logged about the dependencies, up to the first that stops the scheduling. -/
def notes (ds : List Descriptor) : List Message :=
  match duplicate? [] ds with
  | some _ => []
  | none => ((declared ds).takeWhile fun d => !d.isFatal ds).filterMap (·.note?)

end TensorGraph.Schedule
