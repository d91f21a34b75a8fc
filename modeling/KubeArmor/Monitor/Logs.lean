import KubeArmor.Monitor.Context

/-!
# The log builder: `BuildLogBase` and `UpdateLogs`

`UpdateLogs` takes events off `ContextChan` one at a time. For each it builds the common part of a
log (`BuildLogBase`), shapes the event-specific part by a switch on the event ID, classifies the
return value, and hands the log to `go mon.LogFeeder.PushLog(log)`. An event the switch does not
handle, and an `open` or `openat` denied while auditd reports denials, yield no log (`continue`).

`BuildLogBase` falls back to the `Comm` bytes before the first NUL when the process tree knows no
executable path. Its slice `Comm[:bytes.IndexByte(Comm[:], 0)]` panics when `Comm` holds no NUL,
which ends `UpdateLogs` itself: `updateLog` returns `Outcome.panic` and `updateLogs` stops there.

The three socket-address cases differ only in whether `Data` is set before or after the loop over
the map, which writes `Resource` alone; they share `sockAddrLog`. The `listen` case keeps its own
arity: it reads its file descriptor only when the event has two arguments (`fdArg 2`), where
`close` reads it from one (`fdArg 1`).
-/

namespace KubeArmor.Monitor

open KubeArmor.Go KubeArmor.Types

variable (sys : Syscalls) (t : Tables) (mon : SystemMonitor)

/-- The lookup of `GetNameFromContainerID` in the registry it reads: the namespace, pod and
container names registered for the ID, or three empty strings. The copy of the lock before it and
the `RLock` on that copy, which can wait for good, are `builderStep`'s; `BuildLogBase` here is the
call whose `RLock` has returned. -/
def getNameFromContainerID (containers : List (GoString × Container)) (containerID : GoString) :
    GoString × GoString × GoString :=
  match containers.lookup containerID with
  | some val => (val.namespaceName, val.containerGroupName, val.containerName)
  | none => ([], [], [])

/-- The executable path `BuildLogBase` asks the process tree for: the parent's for `execve` and
`execveat`, the process's own otherwise. -/
def execPathOf (msg : ContextCombined) : GoString :=
  if msg.contextSys.eventID = sys.sysExecve ∨ msg.contextSys.eventID = sys.sysExecveat then
    t.getExecPath msg.containerID msg.contextSys.ppid
  else
    t.getExecPath msg.containerID msg.contextSys.pid

/-- `BuildLogBase`; `none` is the panic of the `Comm` slice. -/
def buildLogBase (now : GoString) (msg : ContextCombined) : Option Log :=
  let names := getNameFromContainerID mon.containers msg.containerID
  let log : Log :=
    { updatedTime := now
      hostName := mon.hostName
      containerID := msg.containerID
      namespaceName := names.1
      podName := names.2.1
      containerName := names.2.2
      hostPID := msg.contextSys.hostPID.toBitVec
      ppid := msg.contextSys.ppid.toBitVec
      pid := msg.contextSys.pid.toBitVec
      uid := msg.contextSys.uid.toBitVec
      source := execPathOf sys t msg }
  if log.source = [] then
    let comm := msg.contextSys.comm.bytes
    (sliceTo comm (indexByte comm 0)).map fun s => { log with source := s }
  else
    some log

/-! ## The switch on the event ID -/

/-- The file descriptor of a case that reads `ContextArgs[0].(int32)` only when the event has
`arity` arguments. -/
def fdArg (arity : Nat) (args : List Arg) : GoString :=
  if args.length = arity then (args.head?.map Arg.asItoa).getD [] else []

/-- `fileName, fileOpenFlags` of `open(path, flags)`. -/
def openArgs : List Arg → GoString × GoString
  | [a0, a1] => (a0.asString, a1.asString)
  | _ => ([], [])

/-- `fd, fileName, fileOpenFlags` of `openat(fd, path, flags)`. -/
def openatArgs : List Arg → GoString × GoString × GoString
  | [a0, a1, a2] => (a0.asItoa, a1.asString, a2.asString)
  | _ => ([], [], [])

/-- `sockDomain, sockType, sockProtocol` of `socket(domain, type, proto)`. -/
def socketArgs : List Arg → GoString × GoString × GoString
  | [a0, a1, a2] => (a0.asString, a1.asString, a2.asItoa)
  | _ => ([], [], [])

/-- `fd, sockAddr` of `connect`, `accept` and `bind(fd, sockaddr)`. -/
def sockAddrArgs : List Arg → GoString × List (GoString × GoString)
  | [a0, a1] => (a0.asItoa, a1.asSockAddr)
  | _ => ([], [])

/-- `log.Resource = log.Resource + " " + k + "=" + v`, for each entry in the order visited. -/
def appendSockAddr (resource : GoString) (visited : List (GoString × GoString)) : GoString :=
  visited.foldl (fun r kv => r ++ lit " " ++ kv.1 ++ lit "=" ++ kv.2) resource

/-- The text one map entry adds to `Resource`: `" " + k + "=" + v`. -/
def sockAddrSegment (kv : GoString × GoString) : GoString := lit " " ++ kv.1 ++ lit "=" ++ kv.2

/-- The `SYS_OPEN` case. -/
def openLog (args : List Arg) (log : Log) : Log :=
  { log with
    operation := lit "File", resource := (openArgs args).1
    data := lit "flags=" ++ (openArgs args).2 }

/-- The `SYS_OPENAT` case. -/
def openatLog (args : List Arg) (log : Log) : Log :=
  { log with
    operation := lit "File", resource := (openatArgs args).2.1
    data := lit "fd=" ++ (openatArgs args).1 ++ lit " flags=" ++ (openatArgs args).2.2 }

/-- The `SYS_CLOSE` case. -/
def closeLog (name : GoString) (args : List Arg) (log : Log) : Log :=
  { log with operation := lit "File", resource := name, data := lit "fd=" ++ fdArg 1 args }

/-- The `SYS_SOCKET` case. -/
def socketLog (name : GoString) (args : List Arg) (log : Log) : Log :=
  { log with
    operation := lit "Network"
    resource := lit "syscall=" ++ name ++ lit " domain=" ++ (socketArgs args).1 ++
      lit " type=" ++ (socketArgs args).2.1 ++ lit " protocol=" ++ (socketArgs args).2.2
    data := [] }

/-- The `SYS_CONNECT`, `SYS_ACCEPT` and `SYS_BIND` cases, the map visited in `order`. -/
def sockAddrLog (order : RangeOrder) (name : GoString) (args : List Arg) (log : Log) : Log :=
  { log with
    operation := lit "Network"
    resource := appendSockAddr (lit "syscall=" ++ name) (order.visit (sockAddrArgs args).2)
    data := lit "fd=" ++ (sockAddrArgs args).1 }

/-- The `SYS_LISTEN` case. -/
def listenLog (name : GoString) (args : List Arg) (log : Log) : Log :=
  { log with operation := lit "Network", resource := lit "syscall=" ++ name
             data := lit "fd=" ++ fdArg 2 args }

/-- The switch of `UpdateLogs`: the shaped log, or `none` for `continue`. -/
def updateLogSwitch (order : RangeOrder) (msg : ContextCombined) (log : Log) : Option Log :=
  let id := msg.contextSys.eventID
  let args := msg.contextArgs
  let name := t.getSyscallName id
  let denied := mon.enableAuditd = true ∧ msg.contextSys.retval = sys.permissionDenied
  match sys.cases.lookup id with
  | some .sysOpen => if denied then none else some (openLog args log)
  | some .sysOpenat => if denied then none else some (openatLog args log)
  | some .sysClose => some (closeLog name args log)
  | some .sysSocket => some (socketLog name args log)
  | some .sysConnect => some (sockAddrLog order name args log)
  | some .sysAccept => some (sockAddrLog order name args log)
  | some .sysBind => some (sockAddrLog order name args log)
  | some .sysListen => some (listenLog name args log)
  | none => none

/-- The `Result` of a log: `Passed`, the errno's name, or `Unknown (<retval>)`. -/
def resultOf (retval : Int) : GoString :=
  if retval < 0 then
    if t.getErrorMessage retval ≠ [] then t.getErrorMessage retval
    else lit "Unknown (" ++ itoa retval ++ lit ")"
  else lit "Passed"

/-- What `UpdateLogs` does with one event. -/
inductive Outcome where
  /-- `BuildLogBase` panicked: the loop, and the agent, stop. -/
  | panic
  /-- No log: `continue`, or no `LogFeeder` to push to. -/
  | skip
  /-- `go mon.LogFeeder.PushLog(log)`. -/
  | push (log : Log)

/-- Whether the event ended the loop. -/
def Outcome.isPanic : Outcome → Bool
  | .panic => true
  | _ => false

/-- The log handed to `PushLog`, if any. -/
def Outcome.log? : Outcome → Option Log
  | .push log => some log
  | _ => none

/-- One iteration of `UpdateLogs`' loop. -/
def updateLog (r : Received) : Outcome :=
  match buildLogBase sys t mon r.now r.msg with
  | none => .panic
  | some base =>
    match updateLogSwitch sys t mon r.order r.msg base with
    | none => .skip
    | some log =>
      if mon.logFeeder then .push { log with result := resultOf t r.msg.contextSys.retval }
      else .skip

/-- `UpdateLogs` over the events received before `StopChan` closes: the logs handed to `PushLog`,
in order, and whether the loop ended in a panic. -/
def updateLogs : List Received → List Log × Bool
  | [] => ([], false)
  | r :: rs =>
    match updateLog sys t mon r with
    | .panic => ([], true)
    | .skip => updateLogs rs
    | .push log => (log :: (updateLogs rs).1, (updateLogs rs).2)

end KubeArmor.Monitor
