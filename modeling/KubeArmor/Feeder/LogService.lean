import Mathlib.Data.List.Perm.Basic
import KubeArmor.Types.Log
import KubeArmor.Machine

/-!
# The log service: queues, subscriber tables and the drain loop

`PushLog` appends each log to the global `LogQueue` under `LogLock`; each `WatchLogs` handler
registers its stream in `LogStructs` (`addLogStruct`), then, while `Running` holds, repeatedly
takes `LogLock`, snapshots the table (`getLogStructs`), pops every queued log head first and sends
it to each snapshot entry whose filter admits it. When the loop ends the deferred
`removeLogStruct` drops the entry. The message side (`PushMessage`, `MsgQueue`, `MsgStructs`,
`WatchMessages`) is the same machine whose filter admits everything.

`Feed` is one side, over its items `α` and its filter `admits`. A drain is one step: it holds the
queue's lock throughout, so no push falls inside it, and a registration or removal made while it
runs does not touch the snapshot it sends to. The snapshot is the table's entries in any order,
as Go's map iteration leaves it. A handler's entry is keyed and named by its uid.

`failed` records the streams whose client cancelled or whose transport broke; nothing in the
handlers reads it. `appended`, `popped`, `sent` and `registered` are history variables: what was
ever pushed, popped, sent to whom, and registered with which filter.
-/

namespace KubeArmor.Feeder

open KubeArmor.Go KubeArmor.Types

/-- `LogStruct`, and `MsgStruct` of the same shape: a subscriber's stream, named by the uid of
its handler, and the filter of its request. -/
structure LogStruct where
  client : GoString
  filter : GoString
  deriving DecidableEq, Repr

/-- `m[k] = v` on a Go map held as its entries. -/
def mapSet {β : Type} (m : List (GoString × β)) (k : GoString) (v : β) : List (GoString × β) :=
  m.filter (fun e => e.1 != k) ++ [(k, v)]

/-- `delete(m, k)`. -/
def mapDelete {β : Type} (m : List (GoString × β)) (k : GoString) : List (GoString × β) :=
  m.filter fun e => e.1 != k

/-- The filter of `WatchLogs`: `""` admits every log, `"policy"` the matched ones, `"system"` the
unmatched ones. -/
def logAdmits (filter : GoString) (log : PbLog) : Bool :=
  if filter = [] then true
  else if filter = lit "policy" ∧
      (log.type = lit "MatchedPolicy" ∨ log.type = lit "MatchedHostPolicy") then true
  else if filter = lit "system" ∧ (log.type = lit "ContainerLog" ∨ log.type = lit "HostLog") then
    true
  else false

/-- `WatchMessages` sends every message to every subscriber, whatever its filter. -/
def msgAdmits (_filter : GoString) (_msg : PbMessage) : Bool := true

/-- One side of the feeder's RPC plane. -/
structure Feed (α : Type) where
  queue : List α
  structs : List (GoString × LogStruct)
  running : Bool
  /-- The handlers that found `Running` true and are about to run their loop's body. -/
  inBody : List GoString
  failed : List GoString
  appended : List α
  popped : List α
  sent : List (GoString × α)
  registered : List (GoString × GoString)

/-- The state after `init()` and `NewFeeder`: empty queue and table, `Running` set. -/
def Feed.init (α : Type) : Feed α := ⟨[], [], true, [], [], [], [], [], []⟩

/-- What the items sent to `u`'s stream were, in order. -/
def Feed.sentTo {α : Type} (s : Feed α) (u : GoString) : List α :=
  (s.sent.filter fun p => p.1 == u).map Prod.snd

/-- The sends of one drain iteration: each queued item, head first, to each snapshot entry whose
filter admits it. -/
def drainSends {α : Type} (admits : GoString → α → Bool) (snapshot : List LogStruct) :
    List α → List (GoString × α)
  | [] => []
  | x :: rest =>
    (snapshot.filterMap fun lgs => if admits lgs.filter x then some (lgs.client, x) else none) ++
      drainSends admits snapshot rest

/-- What can happen to a feed. -/
inductive Action (α : Type) where
  /-- `PushLog` or `PushMessage` appends an item under the queue's lock. -/
  | push (x : α)
  /-- A handler draws `uid` and registers its stream with the request's filter. -/
  | watch (uid filter : GoString)
  /-- The handler finds `Running` true and enters its loop's body. -/
  | enter (uid : GoString)
  /-- The body: take the queue's lock, snapshot the table, pop and send everything queued. -/
  | drain (uid : GoString) (snapshot : List LogStruct)
  /-- The handler finds `Running` false, returns, and its deferred removal runs. -/
  | exit (uid : GoString)
  /-- `DestroyFeeder` clears `Running`. -/
  | stop
  /-- The client of `uid`'s stream cancels it, or its transport breaks. -/
  | fail (uid : GoString)

section Step

variable {α : Type} (admits : GoString → α → Bool)

/-- One action on a feed, `none` when it cannot happen in that state. -/
def Feed.apply (s : Feed α) : Action α → Option (Feed α)
  | .push x => some { s with queue := s.queue ++ [x], appended := s.appended ++ [x] }
  | .watch uid filter =>
    if uid ∈ s.registered.map Prod.fst then none
    else some { s with structs := mapSet s.structs uid ⟨uid, filter⟩
                       registered := s.registered ++ [(uid, filter)] }
  | .enter uid =>
    if uid ∈ s.structs.map Prod.fst ∧ uid ∉ s.inBody ∧ s.running = true then
      some { s with inBody := uid :: s.inBody }
    else none
  | .drain uid snapshot =>
    if uid ∈ s.inBody ∧ snapshot.Perm (s.structs.map Prod.snd) then
      some { s with queue := [], popped := s.popped ++ s.queue
                    sent := s.sent ++ drainSends admits snapshot s.queue
                    inBody := s.inBody.erase uid }
    else none
  | .exit uid =>
    if uid ∈ s.structs.map Prod.fst ∧ uid ∉ s.inBody ∧ s.running = false then
      some { s with structs := mapDelete s.structs uid }
    else none
  | .stop => some { s with running := false }
  | .fail uid => some { s with failed := s.failed ++ [uid] }

/-- The states a feed reaches from `Feed.init` by any interleaving of actions. -/
def Feed.Reachable (s : Feed α) : Prop := Machine.Reachable (Feed.apply admits) (Feed.init α) s

/-- A sequence of actions, stopping at the first that cannot happen. -/
def Feed.run (s : Feed α) (as : List (Action α)) : Option (Feed α) :=
  Machine.run (Feed.apply admits) s as

end Step

end KubeArmor.Feeder
