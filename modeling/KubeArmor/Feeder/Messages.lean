import KubeArmor.Feeder.PushLog
import KubeArmor.Feeder.Service

/-!
# The agent's diagnostics: `PushMessage` and its six callers

`PushMessage(level, message)` builds a `pb.Message` stamped with `kl.GetDateTimeNow()`, the
feeder's cluster name and the host's name and address, and appends it to `MsgQueue` under
`MsgLock`. `Print`, `Debug` and `Err` push their text at `"INFO"`, `"DEBUG"` and `"ERROR"`;
`Printf`, `Debugf` and `Errf` push `fmt.Sprintf(message, args...)` at the same levels. All six also
hand the text to the `kg` logger, which is not in the modelled sources; `fmt.Sprintf` is a
parameter.

The message plane is a `Service` over `MsgQueue`: the `WatchMessages` handlers drain it statement
by statement, and only calls of the six push (`MsgAction`). Each queued message carries its place
in append order. Nothing reads it; it tells apart two deliveries of the same text.
-/

namespace KubeArmor.Feeder

open KubeArmor.Go KubeArmor.Types

/-- The fields of `Feeder` that `PushMessage` reads besides `clusterName`: the host's name and
address, which `NewFeeder` takes from `kl.GetHostName()` and `kl.GetExternalIPAddr()`. -/
structure Host where
  hostName : GoString
  hostIP : GoString
  deriving DecidableEq, Repr

/-- The `pb.Message` that `PushMessage(level, message)` appends, `now` being what
`kl.GetDateTimeNow()` returned. -/
def pushMessage (fd : Feeder) (host : Host) (now level message : GoString) : PbMessage where
  updatedTime := now
  clusterName := fd.clusterName
  hostName := host.hostName
  hostIP := host.hostIP
  level := level
  message := message

section Wrappers

variable {β : Type} (sprintf : GoString → List β → GoString) (fd : Feeder) (host : Host)
  (now message : GoString)

/-- What `Print`, `Debug` and `Err` push: their text, at their level. -/
def pushAt (level : GoString) : PbMessage := pushMessage fd host now level message

/-- What `Printf`, `Debugf` and `Errf` push: `fmt.Sprintf(message, args...)`, at their level. -/
def pushAtf (level : GoString) (args : List β) : PbMessage :=
  pushMessage fd host now level (sprintf message args)

/-- `fd.Print(message)`. -/
def print : PbMessage := pushAt fd host now message (lit "INFO")

/-- `fd.Printf(message, args...)`. -/
def printf (args : List β) : PbMessage := pushAtf sprintf fd host now message (lit "INFO") args

/-- `fd.Debug(message)`. -/
def debug : PbMessage := pushAt fd host now message (lit "DEBUG")

/-- `fd.Debugf(message, args...)`. -/
def debugf (args : List β) : PbMessage := pushAtf sprintf fd host now message (lit "DEBUG") args

/-- `fd.Err(message)`. -/
def err : PbMessage := pushAt fd host now message (lit "ERROR")

/-- `fd.Errf(message, args...)`. -/
def errf (args : List β) : PbMessage := pushAtf sprintf fd host now message (lit "ERROR") args

end Wrappers

/-- A call of one of the six, with its arguments. -/
inductive MsgCall (β : Type) where
  | print (message : GoString)
  | printf (message : GoString) (args : List β)
  | debug (message : GoString)
  | debugf (message : GoString) (args : List β)
  | err (message : GoString)
  | errf (message : GoString) (args : List β)

/-- The `pb.Message` a call pushes at time `now`. -/
def MsgCall.pbMessage {β : Type} (sprintf : GoString → List β → GoString) (fd : Feeder)
    (host : Host) (now : GoString) : MsgCall β → PbMessage
  | .print m => KubeArmor.Feeder.print fd host now m
  | .printf m args => KubeArmor.Feeder.printf sprintf fd host now m args
  | .debug m => KubeArmor.Feeder.debug fd host now m
  | .debugf m args => KubeArmor.Feeder.debugf sprintf fd host now m args
  | .err m => KubeArmor.Feeder.err fd host now m
  | .errf m args => KubeArmor.Feeder.errf sprintf fd host now m args

/-- The filter of `WatchMessages`, on a queued message. -/
def msgPlaneAdmits (filter : GoString) (e : Nat × PbMessage) : Bool := msgAdmits filter e.2

/-- A step of the message plane: one of the six called at time `now` (its `PushMessage`'s `Lock`,
append and `Unlock`), or a step of the `WatchMessages` handlers. -/
inductive MsgAction (β : Type) where
  | call (now : GoString) (c : MsgCall β)
  | handler (a : ServiceAction (Nat × PbMessage))

section Plane

variable {β : Type} (sprintf : GoString → List β → GoString) (fd : Feeder) (host : Host)

/-- One step, `none` when it cannot be taken. A call appends its message as the next in order. -/
def MsgAction.apply (s : Service (Nat × PbMessage)) :
    MsgAction β → Option (Service (Nat × PbMessage))
  | .call now c =>
    s.apply msgPlaneAdmits (.push (s.appended.length, c.pbMessage sprintf fd host now))
  | .handler (.push _) => none
  | .handler a => s.apply msgPlaneAdmits a

/-- The states of the message plane reached from `init()` by any interleaving. -/
def MsgReachable (s : Service (Nat × PbMessage)) : Prop :=
  Machine.Reachable (MsgAction.apply sprintf fd host) (Service.init _) s

/-- A sequence of steps, stopping at the first that cannot be taken. -/
def MsgAction.run (s : Service (Nat × PbMessage)) (as : List (MsgAction β)) :
    Option (Service (Nat × PbMessage)) :=
  Machine.run (MsgAction.apply sprintf fd host) s as

end Plane

end KubeArmor.Feeder
