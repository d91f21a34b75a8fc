import KubeArmor.Types.LogJson
import KubeArmor.Machine

/-!
# `PushLog` and the goroutines `UpdateLogs` spawns for it

`PushLog(log)` runs `UpdateMatchedPolicy` on the log and returns at once when the result has no
`UpdatedTime`. Otherwise it writes `json.Marshal(log)` to the local sink (stdout, with
`fmt.Println`, when `output` is `"stdout"`; the file `output` names, with `kl.StrToFile`, unless
it is `"none"`), copies the log into a `pb.Log` that also carries the cluster's name, and appends
that to `LogQueue` under `LogLock`. `pushLog` is the pure part of one call: what it writes and what
it appends.

`UpdateLogs` calls it as `go mon.LogFeeder.PushLog(log)`, so every log gets a goroutine of its own
and the loop goes on to the next event without waiting. `Pushes` is the state of those goroutines
and of what they have written and appended; a schedule is any sequence of `PushAction`s, one
goroutine's step at a time, which is all the Go scheduler promises. A goroutine takes two steps:
the sink write (or the early return), then the locked append. The write is one `Write` call
(`Println` hands its whole line to one), and the append is atomic under `LogLock`. Each line and
each queued `pb.Log` is tagged with the index of the goroutine that wrote it, its place in spawn
order.

`UpdateMatchedPolicy` and `kl.StrToFile` are not in the modelled sources: the first is a field of
`Feeder`, read as a function of the log, and of the second only the text it is handed is kept.
-/

namespace KubeArmor.Feeder

open KubeArmor.Go KubeArmor.Types

set_option linter.dupNamespace false in
/-- The fields of `Feeder` that `PushLog` reads: the output mode, the cluster's name, and its
policy matcher `UpdateMatchedPolicy`. -/
structure Feeder where
  output : GoString
  clusterName : GoString
  updateMatchedPolicy : Log → Log

/-- The text `PushLog` writes to the local sink for `log`: to stdout when `output` is `"stdout"`,
to the file `output` names unless it is `"none"`. -/
def sinkText (fd : Feeder) (log : Log) : Option (List UInt8) :=
  if fd.output = lit "stdout" then some (marshalLog log)
  else if fd.output ≠ lit "none" then some (marshalLog log)
  else none

/-- `if len(s) > 0 { pbLog.F = s }` on a field of a fresh `pb.Log{}`, which otherwise keeps
`""`. -/
def copyNonEmpty (s : GoString) : GoString := if 0 < s.length then s else []

/-- The `pb.Log` `PushLog` builds from `log`. -/
def toPbLog (clusterName : GoString) (log : Log) : PbLog where
  updatedTime := log.updatedTime
  clusterName := clusterName
  hostName := log.hostName
  namespaceName := log.namespaceName
  podName := log.podName
  containerID := log.containerID
  containerName := log.containerName
  hostPID := log.hostPID
  ppid := log.ppid
  pid := log.pid
  uid := log.uid
  policyName := copyNonEmpty log.policyName
  severity := copyNonEmpty log.severity
  tags := copyNonEmpty log.tags
  message := copyNonEmpty log.message
  type := log.type
  source := log.source
  operation := log.operation
  resource := log.resource
  data := copyNonEmpty log.data
  action := copyNonEmpty log.action
  result := log.result

/-- What one call of `PushLog` that does not return early produces: the sink's text, if any, and
the `pb.Log` for `LogQueue`. -/
structure PushOut where
  text : Option (List UInt8)
  pbLog : PbLog
  deriving DecidableEq, Repr

/-- `PushLog(log)`: `none` when the matched log has no `UpdatedTime`. -/
def pushLog (fd : Feeder) (log : Log) : Option PushOut :=
  let log := fd.updateMatchedPolicy log
  if log.updatedTime = [] then none
  else some ⟨sinkText fd log, toPbLog fd.clusterName log⟩

/-! ## The goroutines -/

/-- Where a `PushLog` goroutine is. -/
inductive Pc where
  /-- Spawned; the sink write, or the early return, is next. -/
  | start
  /-- Past the write, holding the `pb.Log` it will append under `LogLock`. -/
  | appending (pbLog : PbLog)
  /-- Returned. -/
  | done
  deriving DecidableEq, Repr

/-- The `PushLog` goroutines and what they have done. -/
structure Pushes where
  /-- The logs `UpdateLogs` has still to hand over, in the order of their events. -/
  pending : List Log
  /-- The goroutines in spawn order: each one's argument and where it is. -/
  goroutines : List (Log × Pc)
  /-- The lines written to the local sink, each with its writer's index. -/
  sink : List (Nat × List UInt8)
  /-- `LogQueue`'s appends, each with its appender's index. -/
  logQueue : List (Nat × PbLog)
  deriving DecidableEq

/-- Before the first event: `UpdateLogs` will hand over `logs`, and nothing has run. -/
def Pushes.init (logs : List Log) : Pushes := ⟨logs, [], [], []⟩

/-- A scheduling decision. -/
inductive PushAction where
  /-- `UpdateLogs` runs `go PushLog(log)` for the next log. -/
  | spawn
  /-- Goroutine `i` takes its next step. -/
  | step (i : Nat)
  deriving DecidableEq, Repr

/-- One scheduling decision, `none` when it cannot be taken. -/
def Pushes.apply (fd : Feeder) (s : Pushes) : PushAction → Option Pushes
  | .spawn =>
    match s.pending with
    | [] => none
    | log :: rest => some { s with pending := rest, goroutines := s.goroutines ++ [(log, .start)] }
  | .step i =>
    match s.goroutines[i]? with
    | some (log, .start) =>
      match pushLog fd log with
      | none => some { s with goroutines := s.goroutines.set i (log, .done) }
      | some out =>
        some { s with goroutines := s.goroutines.set i (log, .appending out.pbLog)
                      sink := s.sink ++ (out.text.map fun t => (i, t)).toList }
    | some (log, .appending pb) =>
      some { s with goroutines := s.goroutines.set i (log, .done)
                    logQueue := s.logQueue ++ [(i, pb)] }
    | some (_, .done) => none
    | none => none

/-- A schedule, stopping at the first decision that cannot be taken. -/
def Pushes.run (fd : Feeder) (s : Pushes) (as : List PushAction) : Option Pushes :=
  Machine.run (Pushes.apply fd) s as

end KubeArmor.Feeder
