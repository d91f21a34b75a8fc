import KubeArmor.Feeder.LogService
import KubeArmor.Machine

/-!
# The log service, statement by statement

`Feed` takes a drain as one step. Here a `WatchLogs` (or `WatchMessages`) handler runs its loop a
statement at a time: the check of `Running`, `LogLock.Lock()`, `getLogStructs()`, the check of
`len(LogQueue)` with the pop, each turn of the range loop over the snapshot with its `Send`, and
`LogLock.Unlock()`. Meanwhile other handlers register, find `Running` false and remove their
entries, streams fail and `DestroyFeeder` clears `Running`; a `PushLog` appends only while
`LogLock` is free.

`LogLock` is a mutex: `Lock` waits while it is held, and only its holder runs the statements up to
its `Unlock`. The lock therefore carries its holder and where the holder is in that critical
section (`Critical`); every other handler is at the check of `Running`, waiting in `Lock`, or
returned (`HandlerPc`).

Statements of one handler that no other goroutine can tell apart are one step: the check of
`len(LogQueue)` and the pop or the `Unlock` it leads to (`LogQueue` is read and written only under
`LogLock`); the check of `Running` that finds it false, the return and the deferred
`removeLogStruct` (nothing sets `Running` again). `addLogStruct`, `removeLogStruct` and
`getLogStructs` each run under `ls.LogLock`, which is held for nothing else, so each is one step.
`PushLog`'s `Lock`, `append` and `Unlock` is one step, taken while `LogLock` is free. The sleep
after `Unlock` changes nothing.

`Send` writes to a gRPC stream with flow control: once the client has stopped reading and the
stream's window is full, `Send` blocks until the client reads again or the stream fails (the client
cancels it, or its transport breaks), when it returns the error that the handler discards. The
streams whose clients have stopped reading are `stalled`; a turn of the range loop whose `Send`
would block cannot be taken, and the holder waits there with `LogLock` held.
-/

namespace KubeArmor.Feeder

open KubeArmor.Go KubeArmor.Types

/-- Where a handler is in `WatchLogs`, outside `LogLock`'s critical section. -/
inductive HandlerPc where
  /-- At `for Running`. -/
  | head
  /-- Found `Running` true; waits in `LogLock.Lock()`. -/
  | locking
  /-- Holds `LogLock`; where it is in the critical section, the lock says. -/
  | holding
  /-- Returned, its deferred `removeLogStruct` run. -/
  | exited
  deriving DecidableEq, Repr

/-- Where the holder of `LogLock` is between `Lock` and `Unlock`. -/
inductive Critical (α : Type) where
  /-- `getLogStructs()` is next. -/
  | snapshotting
  /-- At `len(LogQueue) != 0`, with its snapshot of the table. -/
  | popping (snapshot : List LogStruct)
  /-- In the range loop over `snapshot` for the popped `x`, the entries `rest` still to visit. -/
  | sending (snapshot : List LogStruct) (x : α) (rest : List LogStruct)
  deriving DecidableEq, Repr

/-- One side of the feeder's RPC plane: its queue, `LogLock`, the subscriber table, `Running`, the
handlers by uid, and the same history variables as `Feed`. -/
structure Service (α : Type) where
  queue : List α
  /-- `LogLock`: its holder and where the holder is, or `none` when free. -/
  logLock : Option (GoString × Critical α)
  structs : List (GoString × LogStruct)
  running : Bool
  handlers : List (GoString × HandlerPc)
  failed : List GoString
  /-- The streams whose clients have stopped reading. -/
  stalled : List GoString
  appended : List α
  popped : List α
  sent : List (GoString × α)
  registered : List (GoString × GoString)
  deriving DecidableEq

/-- The state after `init()` and `NewFeeder`: empty queue and table, `LogLock` free, `Running`
set, no handler. -/
def Service.init (α : Type) : Service α := ⟨[], none, [], true, [], [], [], [], [], [], []⟩

/-- What the items sent to `u`'s stream were, in order. -/
def Service.sentTo {α : Type} (s : Service α) (u : GoString) : List α :=
  (s.sent.filter fun p => p.1 == u).map Prod.snd

/-- Whether a `Send` on `u`'s stream blocks: its client has stopped reading, and the stream has
not failed. -/
def Service.blocks {α : Type} (s : Service α) (u : GoString) : Bool :=
  u ∈ s.stalled ∧ u ∉ s.failed

/-- Handler `uid` moved to `pc`. -/
def setPc (hs : List (GoString × HandlerPc)) (uid : GoString) (pc : HandlerPc) :
    List (GoString × HandlerPc) :=
  hs.map fun h => if h.1 = uid then (uid, pc) else h

/-- The sends of one turn of the range loop: to `lgs` when its filter admits `x`. -/
def sendOne {α : Type} (admits : GoString → α → Bool) (lgs : LogStruct) (x : α) :
    List (GoString × α) :=
  if admits lgs.filter x then [(lgs.client, x)] else []

/-- A step of one goroutine. -/
inductive ServiceAction (α : Type) where
  /-- `PushLog` or `PushMessage`: `Lock`, append, `Unlock`. -/
  | push (x : α)
  /-- `WatchLogs` is called: it draws `uid` and runs `addLogStruct`. -/
  | watch (uid filter : GoString)
  /-- Handler `uid` checks `Running`; if it is false, it returns and removes its entry. -/
  | check (uid : GoString)
  /-- Handler `uid` takes `LogLock`. -/
  | lock (uid : GoString)
  /-- The holder runs `getLogStructs()`, which lists the table in the map's order. -/
  | snapshot (snapshot : List LogStruct)
  /-- The holder checks `len(LogQueue)`: it pops the head, or unlocks when the queue is empty. -/
  | pop
  /-- The holder takes one turn of the range loop, or leaves it. -/
  | send
  /-- `DestroyFeeder` clears `Running`. -/
  | stop
  /-- The client of `uid`'s stream cancels it, or its transport breaks. -/
  | fail (uid : GoString)
  /-- The client of `uid`'s stream stops reading it. -/
  | stall (uid : GoString)
  /-- The client of `uid`'s stream reads it again. -/
  | resume (uid : GoString)

section Step

variable {α : Type} (admits : GoString → α → Bool)

/-- One step, `none` when it cannot be taken. -/
def Service.apply (s : Service α) : ServiceAction α → Option (Service α)
  | .push x =>
    match s.logLock with
    | none => some { s with queue := s.queue ++ [x], appended := s.appended ++ [x] }
    | some _ => none
  | .watch uid filter =>
    if uid ∈ s.registered.map Prod.fst then none
    else some { s with structs := mapSet s.structs uid ⟨uid, filter⟩
                       handlers := s.handlers ++ [(uid, .head)]
                       registered := s.registered ++ [(uid, filter)] }
  | .check uid =>
    if (uid, HandlerPc.head) ∈ s.handlers then
      if s.running then some { s with handlers := setPc s.handlers uid .locking }
      else some { s with structs := mapDelete s.structs uid
                         handlers := setPc s.handlers uid .exited }
    else none
  | .lock uid =>
    if (uid, HandlerPc.locking) ∈ s.handlers ∧ s.logLock.isNone then
      some { s with logLock := some (uid, .snapshotting)
                    handlers := setPc s.handlers uid .holding }
    else none
  | .snapshot snapshot =>
    match s.logLock with
    | some (uid, .snapshotting) =>
      if snapshot.Perm (s.structs.map Prod.snd) then
        some { s with logLock := some (uid, .popping snapshot) }
      else none
    | _ => none
  | .pop =>
    match s.logLock, s.queue with
    | some (uid, .popping _), [] =>
      some { s with logLock := none, handlers := setPc s.handlers uid .head }
    | some (uid, .popping snapshot), x :: q =>
      some { s with queue := q, popped := s.popped ++ [x]
                    logLock := some (uid, .sending snapshot x snapshot) }
    | _, _ => none
  | .send =>
    match s.logLock with
    | some (uid, .sending snapshot _ []) => some { s with logLock := some (uid, .popping snapshot) }
    | some (uid, .sending snapshot x (lgs :: rest)) =>
      if admits lgs.filter x ∧ s.blocks lgs.client then none
      else some { s with sent := s.sent ++ sendOne admits lgs x
                         logLock := some (uid, .sending snapshot x rest) }
    | _ => none
  | .stop => some { s with running := false }
  | .fail uid => some { s with failed := s.failed ++ [uid] }
  | .stall uid => some { s with stalled := s.stalled ++ [uid] }
  | .resume uid => some { s with stalled := s.stalled.filter (· ≠ uid) }

/-- The states reached from `Service.init` by any interleaving of steps. -/
def Service.Reachable (s : Service α) : Prop :=
  Machine.Reachable (Service.apply admits) (Service.init α) s

/-- A sequence of steps, stopping at the first that cannot be taken. -/
def Service.run (s : Service α) (as : List (ServiceAction α)) : Option (Service α) :=
  Machine.run (Service.apply admits) s as

end Step

end KubeArmor.Feeder
