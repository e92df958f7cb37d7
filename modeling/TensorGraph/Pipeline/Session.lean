import TensorGraph.Edit.Cleanup
import TensorGraph.Inference.Engine
import TensorGraph.Pipeline.Basic

/-!
A session runs the transformations of a pipeline on a graph and counts the applications that
changed it. The count outlives a failure, like what was done to the graph.
-/

namespace TensorGraph

/-- An edit that counts changes, also when it fails. -/
def Session (α : Type) : Type := ExceptT Error (StateT Nat Edit) α

namespace Session

variable {α : Type}

instance : Monad Session := inferInstanceAs (Monad (ExceptT Error (StateT Nat Edit)))

instance : LawfulMonad Session := inferInstanceAs (LawfulMonad (ExceptT Error (StateT Nat Edit)))

/-- Runs a session that starts from a count, and gives what it comes to and the new count. -/
def run (x : Session α) (count : Nat) : Edit (Except Error α × Nat) := (ExceptT.run x).run count

def lift (x : Edit α) : Session α := ExceptT.mk fun count => do return (← x.attempt, count)

instance : MonadLift Edit Session := ⟨lift⟩

def fail (e : Error) : Session α := ExceptT.mk fun count => return (.error e, count)

def countChange : Session Nat := ExceptT.mk fun count => return (.ok (count + 1), count + 1)

def count : Session Nat := ExceptT.mk fun count => return (.ok count, count)

def within (context : String) (x : Session α) : Session α := ExceptT.mk fun count => do
  let (r, count) ← x.run count
  return (r.mapError (·.within context), count)

end Session

namespace Pipeline

/-- Cleans the graph up and infers what is marked. -/
def normalize (p : Pipeline) : Edit Unit := do
  let report ← Edit.cleanUp p.registry.isFixed
  if !report.isNoop then Edit.note .trace ("normalization: " ++ report.describe)
  discard p.registry.inferMarked

def noteChange (id : String) : Session Unit := do
  let n ← Session.countChange
  Edit.note .debug ("applied " ++ id ++ " (rewrite #" ++ toString n ++ ")")

/-- Applies a transformation once and normalizes what it may have changed. Tells whether the
graph changed before that. -/
def applyOnce (p : Pipeline) (t : Transformation) : Session Bool := do
  let before := (← Edit.current).revision
  t.apply
  let changed := (← Edit.current).revision ≠ before
  if changed then noteChange t.descriptor.id
  if t.descriptor.kind = .pattern then p.normalize
  return changed

/-- Applies a transformation until the graph stays as it is, at most `n` times. -/
def applyRepeatedly (p : Pipeline) (t : Transformation) : Nat → Session Unit
  | 0 => Session.fail (Cause.noFixedPoint p.options.maxIterations)
  | n + 1 => do
    if ← p.applyOnce t then p.applyRepeatedly t n

def runOne (p : Pipeline) (t : Transformation) : Session Unit :=
  match t.descriptor.mode with
  | .once => discard (p.applyOnce t)
  | .fixedPoint => p.applyRepeatedly t p.options.maxIterations

def runStage (p : Pipeline) (schedule : List Transformation) (s : Stage) : Session Unit := do
  if p.options.stages.contains s then
    Edit.enter s
    (schedule.filter (·.descriptor.stage = s)).forM fun t =>
      (p.runOne t).within ("Running transformation " ++ t.descriptor.id)
  else Edit.note .debug ("skipping " ++ s.text ++ " stage")

def scheduleLogged (p : Pipeline) : Edit (List Transformation) := do
  p.scheduleNotes.forM fun m => Edit.note m.level m.text
  p.schedule

/-- Normalizes the graph and runs all stages. -/
def optimizeIn (p : Pipeline) : Session Unit := do
  let schedule ← p.scheduleLogged
  Session.lift (p.normalize.within "Initial normalization")
  Stage.all.forM (p.runStage schedule)
  Edit.note .info ("optimization done, " ++ toString (← Session.count) ++ " rewrites applied")

def optimize (p : Pipeline) : Edit Unit := do
  let (r, _) ← p.optimizeIn.run 0
  r

end Pipeline

end TensorGraph
