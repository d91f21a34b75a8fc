import KubeArmor.Feeder.PushLog
import KubeArmor.Feeder.Service

/-!
# From `UpdateLogs` to the subscribers

`UpdateLogs` hands each log to a `PushLog` goroutine (`Pushes`). A goroutine's last statements
append its `pb.Log` to `LogQueue` under `LogLock`, the queue that the `WatchLogs` handlers drain
statement by statement (`Service`). `Pipeline` runs both over the one `LogQueue`: a goroutine's
append is the service's push, taken only while `LogLock` is free, and no handler step pushes.

Each queued `pb.Log` carries the index of the goroutine that appended it. Nothing reads the index:
the filter sees the `pb.Log` alone (`pipelineAdmits`). It names which call of `PushLog` an item
came from, so that what a stream is sent can be traced back to the log `UpdateLogs` handed over.
-/

namespace KubeArmor.Feeder

open KubeArmor.Go KubeArmor.Types

/-- The filter of `WatchLogs`, on a queued item. -/
def pipelineAdmits (filter : GoString) (e : Nat × PbLog) : Bool := logAdmits filter e.2

/-- The `PushLog` goroutines and the log service, over one `LogQueue`. -/
structure Pipeline where
  pushes : Pushes
  service : Service (Nat × PbLog)
  deriving DecidableEq

/-- Before the first event: `UpdateLogs` will hand over `logs`; no goroutine, no handler. -/
def Pipeline.init (logs : List Log) : Pipeline := ⟨.init logs, .init _⟩

/-- A step of a `PushLog` goroutine (or `UpdateLogs` spawning one), or of the log service. -/
inductive PipelineAction where
  | goroutine (a : PushAction)
  | handler (a : ServiceAction (Nat × PbLog))

/-- The item a scheduling decision appends to `LogQueue`: goroutine `i`'s `pb.Log`, when it is
about to append it. -/
def appendOf (s : Pushes) : PushAction → Option (Nat × PbLog)
  | .step i =>
    match s.goroutines[i]? with
    | some (_, .appending pb) => some (i, pb)
    | _ => none
  | .spawn => none

/-- One step, `none` when it cannot be taken. -/
def Pipeline.apply (fd : Feeder) (s : Pipeline) : PipelineAction → Option Pipeline
  | .goroutine a => do
    let p ← s.pushes.apply fd a
    match appendOf s.pushes a with
    | none => pure { s with pushes := p }
    | some e => do
      let sv ← s.service.apply pipelineAdmits (.push e)
      pure ⟨p, sv⟩
  | .handler (.push _) => none
  | .handler a => (s.service.apply pipelineAdmits a).map fun sv => { s with service := sv }

/-- The states reached from `Pipeline.init logs` by any interleaving. -/
def Pipeline.Reachable (fd : Feeder) (logs : List Log) (s : Pipeline) : Prop :=
  Machine.Reachable (Pipeline.apply fd) (Pipeline.init logs) s

/-- A sequence of steps, stopping at the first that cannot be taken. -/
def Pipeline.run (fd : Feeder) (s : Pipeline) (as : List PipelineAction) : Option Pipeline :=
  Machine.run (Pipeline.apply fd) s as

end KubeArmor.Feeder
