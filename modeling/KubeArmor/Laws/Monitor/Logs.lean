import KubeArmor.Monitor.Logs

/-!
# Laws of the log builder

`buildLogBase_eq_none_iff` says exactly when `BuildLogBase` panics: the process tree knows no
executable path and `Comm` holds no NUL, whatever the event ID. `updateLogs_eq` is the loop: each
event before the first panic hands its log, if any, to `PushLog`, in order, and nothing after the
panic is looked at. Between them, `updateLog_log?_isSome_iff` and `updateLog_pushed` say which
events yield a log and what its operation, result and names are.

The socket-address cases build `Resource` by ranging over a map, so two runs on one event can
disagree on it; `appendSockAddr_eq` shows they disagree only in the order of the ` k=v` segments.
-/

namespace KubeArmor.Monitor

open KubeArmor.Go KubeArmor.Types

variable {sys : Syscalls} {t : Tables} {mon : SystemMonitor}

/-! ## `BuildLogBase` -/

/-- **When `BuildLogBase` panics**: exactly when the process tree knows no executable path for the
event and its `Comm` holds no NUL byte. -/
theorem buildLogBase_eq_none_iff (now : GoString) (msg : ContextCombined) :
    buildLogBase sys t mon now msg = none ↔
      execPathOf sys t msg = [] ∧ 0 ∉ msg.contextSys.comm.bytes := by
  by_cases hp : execPathOf sys t msg = []
  · by_cases hc : (0 : UInt8) ∈ msg.contextSys.comm.bytes
    · simp [buildLogBase, hp, hc, sliceTo_indexByte_of_mem hc]
    · simp [buildLogBase, hp, hc, sliceTo_indexByte_of_not_mem hc]
  · simp [buildLogBase, hp]

/-- The source `BuildLogBase` records: the executable path when the process tree knows one, and
the `Comm` bytes before the first NUL otherwise. -/
theorem buildLogBase_source {now : GoString} {msg : ContextCombined} {log : Log}
    (h : buildLogBase sys t mon now msg = some log) :
    log.source = if execPathOf sys t msg = [] then
      msg.contextSys.comm.bytes.takeWhile (· ≠ 0) else execPathOf sys t msg := by
  by_cases hp : execPathOf sys t msg = []
  · rw [if_pos hp]
    by_cases hc : (0 : UInt8) ∈ msg.contextSys.comm.bytes
    · simp only [buildLogBase, hp, if_true, sliceTo_indexByte_of_mem hc, Option.map_some'] at h
      cases h
      rfl
    · simp [buildLogBase, hp, sliceTo_indexByte_of_not_mem hc] at h
  · simp only [buildLogBase, hp, if_false, Option.some.injEq] at h
    rw [if_neg hp, ← h]

/-- A lookup in a list whose keys are distinct finds every listed pair. -/
private theorem lookup_of_mem {β : Type} {l : List (Int × β)} (hl : (l.map Prod.fst).Nodup)
    {k : Int} {v : β} (h : (k, v) ∈ l) : l.lookup k = some v := by
  induction l with
  | nil => cases h
  | cons p l ih =>
    obtain ⟨k', v'⟩ := p
    simp only [List.map_cons, List.nodup_cons] at hl
    rcases List.mem_cons.mp h with h | h
    · obtain ⟨rfl, rfl⟩ := Prod.mk.inj h
      simp [List.lookup_cons]
    · have hk : k ≠ k' := fun e => hl.1 (e ▸ List.mem_map_of_mem Prod.fst h)
      simp [List.lookup_cons, beq_false_of_ne hk, ih hl.2 h]

/-- Every case is listed with its own constant. -/
theorem Syscalls.const_mem_cases (sys : Syscalls) (c : SyscallCase) :
    (sys.const c, c) ∈ sys.cases := by
  cases c <;> simp [Syscalls.cases]

/-- **The switch selects the case whose constant the ID is**: Go's case constants are distinct. -/
theorem Syscalls.lookup_eq_some_iff {id : Int} {c : SyscallCase} :
    sys.cases.lookup id = some c ↔ id = sys.const c := by
  constructor
  · intro h
    obtain ⟨l₁, l₂, hl, -⟩ := List.lookup_eq_some_iff.mp h
    have hm : (id, c) ∈ sys.cases := hl ▸ List.mem_append_right _ (List.mem_cons_self _ _)
    obtain ⟨c', -, hc'⟩ := List.mem_map.mp hm
    cases hc'
    rfl
  · rintro rfl
    exact lookup_of_mem (by simpa [Syscalls.cases, Syscalls.const] using sys.cases_nodup)
      (sys.const_mem_cases c)

/-- The switch handles exactly the IDs of `Syscalls.handled`. -/
theorem Syscalls.lookup_isSome_iff {id : Int} :
    (sys.cases.lookup id).isSome ↔ id ∈ sys.handled := by
  simp only [Option.isSome_iff_exists, Syscalls.lookup_eq_some_iff]
  constructor
  · rintro ⟨c, rfl⟩
    cases c <;> simp [Syscalls.handled, Syscalls.const]
  · intro h
    simp only [Syscalls.handled, List.mem_cons, List.mem_singleton, List.not_mem_nil,
      or_false] at h
    rcases h with h | h | h | h | h | h | h | h
    exacts [⟨.sysOpen, h⟩, ⟨.sysOpenat, h⟩, ⟨.sysClose, h⟩, ⟨.sysSocket, h⟩, ⟨.sysConnect, h⟩,
      ⟨.sysAccept, h⟩, ⟨.sysBind, h⟩, ⟨.sysListen, h⟩]

/-- Once the switch has selected `c`, the ID is among some cases' constants exactly when `c` is
among those cases. -/
theorem Syscalls.mem_map_const_iff {id : Int} {c : SyscallCase} (hc : sys.cases.lookup id = some c)
    (cs : List SyscallCase) : id ∈ cs.map sys.const ↔ c ∈ cs := by
  constructor
  · intro hm
    obtain ⟨c', hc', rfl⟩ := List.mem_map.mp hm
    obtain rfl : c' = c := Option.some.inj ((Syscalls.lookup_eq_some_iff.mpr rfl).symm.trans hc)
    exact hc'
  · intro hm
    exact List.mem_map.mpr ⟨c, hm, (Syscalls.lookup_eq_some_iff.mp hc).symm⟩

/-- **Which events the switch drops**: an unhandled ID, and an `open` or `openat` denied while
auditd reports denials. -/
theorem updateLogSwitch_eq_none_iff {order : RangeOrder} {msg : ContextCombined} {base : Log} :
    updateLogSwitch sys t mon order msg base = none ↔
      msg.contextSys.eventID ∉ sys.handled ∨
      (mon.enableAuditd = true ∧ msg.contextSys.eventID ∈ [sys.sysOpen, sys.sysOpenat] ∧
        msg.contextSys.retval = sys.permissionDenied) := by
  rw [← Syscalls.lookup_isSome_iff]
  cases hc : sys.cases.lookup msg.contextSys.eventID with
  | none => simp [updateLogSwitch, hc]
  | some c =>
    have hm := Syscalls.mem_map_const_iff hc [.sysOpen, .sysOpenat]
    simp only [List.map_cons, List.map_nil, Syscalls.const] at hm
    cases c <;> simp [updateLogSwitch, hc, hm]

/-- A `connect`, `accept` or `bind` event is shaped by the socket-address case. -/
theorem updateLogSwitch_of_sockAddr {order : RangeOrder} {msg : ContextCombined} {base : Log}
    (hid : msg.contextSys.eventID ∈ [sys.sysConnect, sys.sysAccept, sys.sysBind]) :
    updateLogSwitch sys t mon order msg base =
      some (sockAddrLog order (t.getSyscallName msg.contextSys.eventID) msg.contextArgs base) := by
  simp only [List.mem_cons, List.mem_singleton, List.not_mem_nil, or_false] at hid
  rcases hid with h | h | h
  · simp [updateLogSwitch, (Syscalls.lookup_eq_some_iff (c := .sysConnect)).mpr h]
  · simp [updateLogSwitch, (Syscalls.lookup_eq_some_iff (c := .sysAccept)).mpr h]
  · simp [updateLogSwitch, (Syscalls.lookup_eq_some_iff (c := .sysBind)).mpr h]

/-! ## One event -/

/-- Once `BuildLogBase` returns, `UpdateLogs` hands on the switch's log with its result, when
there is a `LogFeeder` to hand it to. -/
theorem updateLog_log?_of_buildLogBase {r : Received} {base : Log}
    (hb : buildLogBase sys t mon r.now r.msg = some base) :
    (updateLog sys t mon r).log? = if mon.logFeeder then
      (updateLogSwitch sys t mon r.order r.msg base).map
        fun log => { log with result := resultOf t r.msg.contextSys.retval }
    else none := by
  simp only [updateLog, hb]
  cases updateLogSwitch sys t mon r.order r.msg base <;> cases mon.logFeeder <;> rfl

/-- An event ends the loop exactly when `BuildLogBase` panics on it. -/
theorem updateLog_isPanic_iff {r : Received} :
    (updateLog sys t mon r).isPanic ↔ buildLogBase sys t mon r.now r.msg = none := by
  cases hb : buildLogBase sys t mon r.now r.msg with
  | none => simp [updateLog, hb, Outcome.isPanic]
  | some base =>
    cases hs : updateLogSwitch sys t mon r.order r.msg base <;> cases hf : mon.logFeeder <;>
      simp [updateLog, hb, hs, hf, Outcome.isPanic]

/-- **Which events yield a log**, once `BuildLogBase` returns: with a `LogFeeder` set, the handled
events but an `open` or `openat` denied while auditd reports denials. -/
theorem updateLog_log?_isSome_iff {r : Received} (hb : (buildLogBase sys t mon r.now r.msg).isSome) :
    (updateLog sys t mon r).log?.isSome ↔
      mon.logFeeder = true ∧ r.msg.contextSys.eventID ∈ sys.handled ∧
      ¬ (mon.enableAuditd = true ∧ r.msg.contextSys.eventID ∈ [sys.sysOpen, sys.sysOpenat] ∧
        r.msg.contextSys.retval = sys.permissionDenied) := by
  obtain ⟨base, hbase⟩ := Option.isSome_iff_exists.mp hb
  rw [updateLog_log?_of_buildLogBase hbase]
  cases mon.logFeeder
  · simp
  · rw [if_pos rfl, Option.isSome_map', Option.isSome_iff_ne_none, Ne, updateLogSwitch_eq_none_iff,
      not_or, not_not]
    simp

/-- **The loop of `UpdateLogs`.** It hands `PushLog` the log of each event before the first one
that panics, in the order received, and reports whether a panic ended it. -/
theorem updateLogs_eq (rs : List Received) :
    updateLogs sys t mon rs =
      ((rs.takeWhile fun r => !(updateLog sys t mon r).isPanic).filterMap
          (fun r => (updateLog sys t mon r).log?),
        rs.any fun r => (updateLog sys t mon r).isPanic) := by
  induction rs with
  | nil => rfl
  | cons r rs ih =>
    cases h : updateLog sys t mon r <;> simp [updateLogs, h, ih, Outcome.isPanic, Outcome.log?]

/-! ## Sample events -/

/-- Lookups of a process tree that knows no executable path, and of empty syscall and errno
tables. -/
def noTables : Tables := ⟨fun _ _ => [], fun _ => [], fun _ => []⟩

/-- A monitor with a `LogFeeder` and auditd reporting off. -/
def feederMonitor : SystemMonitor := ⟨lit "node-1", [], false, true⟩

/-- An `open` of `/etc/passwd` whose `Comm` is sixteen `a`s, with no NUL. -/
def unterminatedOpen : ContextCombined :=
  ⟨lit "c1", ⟨42, 1, 7, 0, 2, 0, ⟨List.replicate 16 97, by decide⟩⟩,
    [.str (lit "/etc/passwd"), .str (lit "O_RDONLY")]⟩

/-- The same `open` from a process whose `Comm` is `cat`. -/
def catOpen : ContextCombined :=
  ⟨lit "c1", ⟨42, 1, 7, 0, 2, 0, ⟨lit "cat" ++ List.replicate 13 0, by decide⟩⟩,
    [.str (lit "/etc/passwd"), .str (lit "O_RDONLY")]⟩

/-- A `connect` on descriptor 3 to a socket address with two entries. -/
def curlConnect : ContextCombined :=
  ⟨lit "c1", ⟨42, 1, 7, 0, 42, 0, ⟨lit "curl" ++ List.replicate 12 0, by decide⟩⟩,
    [.int32 3, .sockAddr ⟨[(lit "sa_family", lit "AF_INET"), (lit "sin_port", lit "80")], by decide⟩]⟩

/-! ## The loop on every input -/

/-- **A NUL-less `Comm` stops `UpdateLogs`.** An event whose executable path the process tree does
not know and whose `Comm` holds no NUL panics in `BuildLogBase`, whatever its ID: `PushLog` is
called for neither it nor any event after it. -/
theorem updateLogs_panics_without_nul (r : Received) (rs : List Received)
    (hpath : execPathOf sys t r.msg = []) (hcomm : 0 ∉ r.msg.contextSys.comm.bytes) :
    updateLogs sys t mon (r :: rs) = ([], true) := by
  have hb := (@buildLogBase_eq_none_iff sys t mon r.now r.msg).mpr ⟨hpath, hcomm⟩
  simp [updateLogs, updateLog, hb]

/-- The failing input: the unterminated `open`, then the same `open` from `cat`; neither is pushed. -/
theorem updateLogs_panics_on_unterminated_open :
    execPathOf Syscalls.amd64 noTables unterminatedOpen = [] ∧
      0 ∉ unterminatedOpen.contextSys.comm.bytes ∧
      updateLogs Syscalls.amd64 noTables feederMonitor
        [⟨unterminatedOpen, [], .inOrder⟩, ⟨catOpen, [], .inOrder⟩] = ([], true) :=
  ⟨by decide, by decide, updateLogs_panics_without_nul _ _ (by decide) (by decide)⟩

/-- On events `BuildLogBase` accepts, `UpdateLogs` hands over the log of each event that yields
one, in order, and does not panic. -/
theorem updateLogs_of_isSome {rs : List Received}
    (hb : ∀ r ∈ rs, (buildLogBase sys t mon r.now r.msg).isSome) :
    updateLogs sys t mon rs = (rs.filterMap fun r => (updateLog sys t mon r).log?, false) := by
  have hnp : ∀ r ∈ rs, (updateLog sys t mon r).isPanic = false := fun r hr => by
    rw [Bool.eq_false_iff, Ne, updateLog_isPanic_iff, ← Option.not_isSome_iff_eq_none]
    exact not_not_intro (hb r hr)
  rw [updateLogs_eq, List.takeWhile_eq_self_iff.mpr (fun r hr => by simp [hnp r hr]),
    List.any_eq_false.mpr (fun r hr => by simp [hnp r hr])]

/-! ## Socket addresses: two runs on one event -/

/-- The loop over a socket address appends one ` k=v` segment per entry visited, in that order. -/
theorem appendSockAddr_eq (resource : GoString) (visited : List (GoString × GoString)) :
    appendSockAddr resource visited = resource ++ (visited.map sockAddrSegment).flatten := by
  induction visited generalizing resource with
  | nil => simp [appendSockAddr]
  | cons kv rest ih =>
    simp only [appendSockAddr, List.foldl_cons] at ih ⊢
    rw [ih]
    simp [sockAddrSegment]

/-- A permutation of a list of at most one element is the list itself. -/
private theorem perm_eq_of_length_le_one {α : Type} {l l' : List α} (h : l'.Perm l)
    (hl : l.length ≤ 1) : l' = l := by
  match l, hl with
  | [], _ => exact List.perm_nil.mp h
  | [_], _ => exact List.perm_singleton.mp h

/-- The run of `curlConnect` whose `range` visits `sa_family` first differs in `Resource` from the
run that visits `sin_port` first. -/
theorem updateLog_connect_resource_depends_on_order :
    ((updateLog Syscalls.amd64 noTables feederMonitor ⟨curlConnect, [], .inOrder⟩).log?.map
        Log.resource) ≠
      ((updateLog Syscalls.amd64 noTables feederMonitor ⟨curlConnect, [], .reversed⟩).log?.map
        Log.resource) := by
  decide

/-- The `Resource` of a log pushed for a `connect`, `accept` or `bind` event: `syscall=<name>`,
then the ` k=v` segment of each entry of the socket-address map, in the order the `range` loop
visits them. -/
theorem updateLog_sockAddr_resource {r : Received} {l : Log}
    (hid : r.msg.contextSys.eventID ∈ [sys.sysConnect, sys.sysAccept, sys.sysBind])
    (h : (updateLog sys t mon r).log? = some l) :
    l.resource = lit "syscall=" ++ t.getSyscallName r.msg.contextSys.eventID ++
      ((r.order.visit (sockAddrArgs r.msg.contextArgs).2).map sockAddrSegment).flatten := by
  cases hb : buildLogBase sys t mon r.now r.msg with
  | none => simp [updateLog, hb, Outcome.log?] at h
  | some base =>
    rw [updateLog_log?_of_buildLogBase hb, updateLogSwitch_of_sockAddr hid] at h
    split_ifs at h
    rw [← Option.some.inj h]
    exact appendSockAddr_eq _ _

/-- **Two runs on one socket-address event.** For a `connect`, `accept` or `bind` event, the
`Resource` of each of two runs, whatever their clocks and the orders their `range` loops take, is
`syscall=<name>` followed by the ` k=v` segments of the map's entries in some order; when the map
has at most one entry the two `Resource`s are equal. -/
theorem updateLog_sockAddr_two_runs {msg : ContextCombined} {now₁ now₂ : GoString}
    {o₁ o₂ : RangeOrder} {l₁ l₂ : Log}
    (hid : msg.contextSys.eventID ∈ [sys.sysConnect, sys.sysAccept, sys.sysBind])
    (h₁ : (updateLog sys t mon ⟨msg, now₁, o₁⟩).log? = some l₁)
    (h₂ : (updateLog sys t mon ⟨msg, now₂, o₂⟩).log? = some l₂) :
    (∃ v₁ v₂ : List (GoString × GoString),
      v₁.Perm (sockAddrArgs msg.contextArgs).2 ∧ v₂.Perm (sockAddrArgs msg.contextArgs).2 ∧
      l₁.resource = lit "syscall=" ++ t.getSyscallName msg.contextSys.eventID ++
        (v₁.map sockAddrSegment).flatten ∧
      l₂.resource = lit "syscall=" ++ t.getSyscallName msg.contextSys.eventID ++
        (v₂.map sockAddrSegment).flatten) ∧
    ((sockAddrArgs msg.contextArgs).2.length ≤ 1 → l₁.resource = l₂.resource) := by
  have hr₁ := updateLog_sockAddr_resource hid h₁
  have hr₂ := updateLog_sockAddr_resource hid h₂
  refine ⟨⟨_, _, o₁.perm _, o₂.perm _, hr₁, hr₂⟩, fun hle => ?_⟩
  rw [hr₁, hr₂, perm_eq_of_length_le_one (o₁.perm _) hle, perm_eq_of_length_le_one (o₂.perm _) hle]

/-- Two runs of `curlConnect` at different times, in and against the listed order. -/
theorem updateLog_sockAddr_two_runs_curl :
    ∃ (l₁ l₂ : Log) (v₁ v₂ : List (GoString × GoString)), (updateLog Syscalls.amd64 noTables feederMonitor
        ⟨curlConnect, lit "t1", .inOrder⟩).log? = some l₁ ∧
      (updateLog Syscalls.amd64 noTables feederMonitor
        ⟨curlConnect, lit "t2", .reversed⟩).log? = some l₂ ∧
      v₁.Perm (sockAddrArgs curlConnect.contextArgs).2 ∧
      v₂.Perm (sockAddrArgs curlConnect.contextArgs).2 ∧
      l₁.resource = lit "syscall=" ++ noTables.getSyscallName curlConnect.contextSys.eventID ++
        (v₁.map sockAddrSegment).flatten ∧
      l₂.resource = lit "syscall=" ++ noTables.getSyscallName curlConnect.contextSys.eventID ++
        (v₂.map sockAddrSegment).flatten := by
  obtain ⟨l₁, h₁⟩ := Option.isSome_iff_exists.mp (by decide : (updateLog Syscalls.amd64 noTables
    feederMonitor ⟨curlConnect, lit "t1", .inOrder⟩).log?.isSome)
  obtain ⟨l₂, h₂⟩ := Option.isSome_iff_exists.mp (by decide : (updateLog Syscalls.amd64 noTables
    feederMonitor ⟨curlConnect, lit "t2", .reversed⟩).log?.isSome)
  obtain ⟨⟨v₁, v₂, hv⟩, -⟩ := updateLog_sockAddr_two_runs (by decide) h₁ h₂
  exact ⟨l₁, l₂, v₁, v₂, h₁, h₂, hv⟩

end KubeArmor.Monitor
