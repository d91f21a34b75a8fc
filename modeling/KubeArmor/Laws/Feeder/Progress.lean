import KubeArmor.Laws.Feeder.Service

/-!
# The handlers' progress

A `Send` to a stream whose client has stopped reading blocks its handler with `LogLock` held
(`service_drain_completes`), and with it every `PushLog` and every other handler. Where no `Send`
blocks, `LogQueue` cannot get stuck while `Running` holds: from every reachable state in which some
handler has not returned, the handlers' own steps can pop every queued log, in order, and leave
`LogLock` free (`service_can_drain`). The holder of `LogLock` finishes its critical section, or a
handler at its check of `Running` or waiting in `Lock` takes the lock and drains.

`DestroyFeeder` clears `Running`, and no step sets it again. A handler reads `Running` only at the
top of its loop, so one that read it before it was cleared still takes `LogLock` and drains once
more; every other handler returns at its next check. Each handler takes `LogLock` at most once
more, and only if it was already waiting in `Lock`, whatever else happens meanwhile
(`service_stopped_locks_once`). With no new push or subscriber, the handlers' steps number at most
`Service.shutdownCost` under any schedule, and when none of them can move, every handler has
returned and `LogLock` is free, or the holder is blocked in a `Send` to a stream whose client has
stopped reading (`service_shutdown_terminates`). From a state with no handler in
its loop's body, nothing is sent again (`service_drained_sends_nothing`).
-/

namespace KubeArmor.Feeder

open KubeArmor.Go KubeArmor.Types

section Budget

variable {α : Type} {admits : GoString → α → Bool} {s s' : Service α}

/-- Whether a step is handler `uid` taking `LogLock`. -/
def ServiceAction.isLockOf (uid : GoString) : ServiceAction α → Bool
  | .lock u => decide (u = uid)
  | _ => false

/-- How many more times handler `uid` can take `LogLock` once `Running` is cleared: once if it
waits in `Lock`, never otherwise. -/
def Service.lockBudget (s : Service α) (uid : GoString) : Nat :=
  if (uid, HandlerPc.locking) ∈ s.handlers then 1 else 0

/-- No step sets `Running`. -/
theorem Service.running_of_apply {a : ServiceAction α} (h : s.apply admits a = some s')
    (hr : s.running = false) : s'.running = false := by
  cases a with
  | push => obtain ⟨-, rfl⟩ := Service.apply_push h; exact hr
  | watch => obtain ⟨-, rfl⟩ := Service.apply_watch h; exact hr
  | check => obtain ⟨-, ⟨-, rfl⟩ | ⟨-, rfl⟩⟩ := Service.apply_check h <;> exact hr
  | lock => obtain ⟨-, -, rfl⟩ := Service.apply_lock h; exact hr
  | snapshot => obtain ⟨_, -, -, rfl⟩ := Service.apply_snapshot h; exact hr
  | pop => obtain ⟨_, _, -, ⟨-, rfl⟩ | ⟨_, _, -, rfl⟩⟩ := Service.apply_pop h <;> exact hr
  | send => obtain ⟨_, _, _, ⟨-, rfl⟩ | ⟨_, _, -, rfl⟩⟩ := Service.apply_send h <;> exact hr
  | stop => rw [Service.apply_stop h]
  | fail => rw [Service.apply_fail h]; exact hr
  | stall => rw [Service.apply_stall h]; exact hr
  | resume => rw [Service.apply_resume h]; exact hr

/-- With `Running` cleared, no handler starts waiting in `Lock`, and one that waits there is still
waiting unless the step is its `Lock`. -/
theorem Service.locking_of_apply (hr : s.running = false) {a : ServiceAction α}
    (h : s.apply admits a = some s') {u : GoString} (hm : (u, HandlerPc.locking) ∈ s'.handlers) :
    (u, HandlerPc.locking) ∈ s.handlers ∧ a.isLockOf u = false := by
  cases a with
  | push => obtain ⟨-, rfl⟩ := Service.apply_push h; exact ⟨hm, rfl⟩
  | watch =>
    obtain ⟨-, rfl⟩ := Service.apply_watch h
    rcases List.mem_append.mp hm with hm | hm
    · exact ⟨hm, rfl⟩
    · cases (Prod.mk.inj (List.mem_singleton.mp hm)).2
  | check =>
    obtain ⟨-, ⟨hr', -⟩ | ⟨-, rfl⟩⟩ := Service.apply_check h
    · rw [hr] at hr'; cases hr'
    · rcases mem_setPc.mp hm with ⟨hm, -⟩ | ⟨e, -⟩
      · exact ⟨hm, rfl⟩
      · cases (Prod.mk.inj e).2
  | lock uid =>
    obtain ⟨-, -, rfl⟩ := Service.apply_lock h
    rcases mem_setPc.mp hm with ⟨hm, hu⟩ | ⟨e, -⟩
    · exact ⟨hm, decide_eq_false (Ne.symm hu)⟩
    · cases (Prod.mk.inj e).2
  | snapshot => obtain ⟨_, -, -, rfl⟩ := Service.apply_snapshot h; exact ⟨hm, rfl⟩
  | pop =>
    obtain ⟨_, _, -, ⟨-, rfl⟩ | ⟨_, _, -, rfl⟩⟩ := Service.apply_pop h
    · rcases mem_setPc.mp hm with ⟨hm, -⟩ | ⟨e, -⟩
      · exact ⟨hm, rfl⟩
      · cases (Prod.mk.inj e).2
    · exact ⟨hm, rfl⟩
  | send =>
    obtain ⟨_, _, _, ⟨-, rfl⟩ | ⟨_, _, -, rfl⟩⟩ := Service.apply_send h <;> exact ⟨hm, rfl⟩
  | stop => rw [Service.apply_stop h] at hm; exact ⟨hm, rfl⟩
  | fail => rw [Service.apply_fail h] at hm; exact ⟨hm, rfl⟩
  | stall => rw [Service.apply_stall h] at hm; exact ⟨hm, rfl⟩
  | resume => rw [Service.apply_resume h] at hm; exact ⟨hm, rfl⟩

/-- With `Running` cleared, a handler's `Lock` comes out of its budget. -/
theorem Service.lockBudget_step (hr : s.running = false) {a : ServiceAction α}
    (h : s.apply admits a = some s') (uid : GoString) :
    s'.lockBudget uid + (if a.isLockOf uid then 1 else 0) ≤ s.lockBudget uid := by
  unfold Service.lockBudget
  by_cases hm : (uid, HandlerPc.locking) ∈ s'.handlers
  · obtain ⟨hm₀, hl⟩ := Service.locking_of_apply hr h hm
    simp [hm, hm₀, hl]
  · rw [if_neg hm]
    cases a with
    | lock u =>
      by_cases e : u = uid
      · subst e
        simp [ServiceAction.isLockOf, (Service.apply_lock h).1]
      · simp [ServiceAction.isLockOf, e]
    | _ => simp [ServiceAction.isLockOf]

theorem Service.lockBudget_run (hr : s.running = false) {acts : List (ServiceAction α)}
    (h : s.run admits acts = some s') (uid : GoString) :
    acts.countP (ServiceAction.isLockOf uid) + s'.lockBudget uid ≤ s.lockBudget uid := by
  induction acts generalizing s with
  | nil => cases h; simp
  | cons a as ih =>
    obtain ⟨s₁, h₁, h⟩ := Option.bind_eq_some.mp h
    have e₁ := Service.lockBudget_step hr h₁ uid
    have e := ih (Service.running_of_apply h₁ hr) h
    rw [List.countP_cons]
    omega

/-- **After `DestroyFeeder`, a handler drains at most once more.** From any state where `Running`
is cleared, along every sequence of steps (pushes, new subscribers and failing streams included),
handler `uid` takes `LogLock` at most once, and not at all unless it was already waiting in
`Lock`. -/
theorem service_stopped_locks_once (hr : s.running = false) {acts : List (ServiceAction α)}
    (h : s.run admits acts = some s') (uid : GoString) :
    acts.countP (ServiceAction.isLockOf uid) ≤ 1 ∧
      ((uid, HandlerPc.locking) ∉ s.handlers → acts.countP (ServiceAction.isLockOf uid) = 0) := by
  have e := Service.lockBudget_run hr h uid
  have h₁ : s.lockBudget uid ≤ 1 := by unfold Service.lockBudget; split <;> omega
  refine ⟨by omega, fun hn => ?_⟩
  have h₀ : s.lockBudget uid = 0 := if_neg hn
  omega

end Budget

/-- Handler `a` registers and finds `Running` true; then `DestroyFeeder` runs. -/
def stoppedWaitingRun : List (ServiceAction PbLog) :=
  [.watch (lit "a") [], .check (lit "a"), .stop]

/-- Where `stoppedWaitingRun` leaves the service: `a` waits in `Lock`, `Running` is cleared. -/
def stoppedWaiting : Service PbLog :=
  ((Service.init PbLog).run logAdmits stoppedWaitingRun).getD (.init PbLog)

/-- `a`'s last drain: `Lock`, `getLogStructs()`, the check that finds the queue empty, and the
check of `Running` that returns. -/
def lastDrainRun : List (ServiceAction PbLog) :=
  [.lock (lit "a"), .snapshot [⟨lit "a", []⟩], .pop, .check (lit "a")]

/-- `a` takes `LogLock` once in its last drain. -/
theorem service_stopped_locks_once_lastDrain :
    lastDrainRun.countP (ServiceAction.isLockOf (lit "a")) ≤ 1 :=
  (service_stopped_locks_once (show stoppedWaiting.running = false by decide)
    (show stoppedWaiting.run logAdmits lastDrainRun =
      some ((stoppedWaiting.run logAdmits lastDrainRun).getD stoppedWaiting) by decide) _).1

/-! ## The handlers finish -/

section Finish

variable {α : Type} {admits : GoString → α → Bool} {s s' : Service α}

/-- The steps of the `WatchLogs` handlers themselves: not a push, a new call, `DestroyFeeder`, or a
client cancelling its stream, or no longer or again reading it. -/
def ServiceAction.byHandler : ServiceAction α → Bool
  | .check _ | .lock _ | .snapshot _ | .pop | .send => true
  | _ => false

end Finish

section Drain

variable {α : Type} {admits : GoString → α → Bool} {s : Service α}

/-- The drain loop is the holder's own steps. -/
theorem byHandler_drainActs (snapshot : List LogStruct) (q : List α) :
    ∀ a ∈ drainActs snapshot q, a.byHandler := by
  intro a ha
  simp only [drainActs, List.mem_append, List.mem_flatMap, List.mem_cons, List.mem_replicate,
    List.not_mem_nil, or_false] at ha
  rcases ha with ⟨_, _, rfl | ⟨_, rfl⟩⟩ | rfl <;> rfl

/-- The handlers' own steps `acts` take `s` to `s'`, popping every log `s` queued, in order, and
leaving `LogLock` free. -/
def Service.Empties (admits : GoString → α → Bool) (s : Service α) (acts : List (ServiceAction α))
    (s' : Service α) : Prop :=
  (∀ a ∈ acts, a.byHandler) ∧ s.run admits acts = some s' ∧ s'.queue = [] ∧
    s'.popped = s.popped ++ s.queue ∧ s'.logLock = none

/-- A handler's step that neither pops nor pushes, taken before steps that empty the queue. -/
theorem Service.Empties.cons {a : ServiceAction α} {s₁ s' : Service α}
    {acts : List (ServiceAction α)} (h₁ : s.apply admits a = some s₁) (ha : a.byHandler)
    (hq : s₁.queue = s.queue) (hp : s₁.popped = s.popped) (he : s₁.Empties admits acts s') :
    s.Empties admits (a :: acts) s' := by
  obtain ⟨hb, hr, hq', hp', hl'⟩ := he
  refine ⟨fun b hb' => ?_, by rw [Service.run, Machine.run_cons_of_step h₁]; exact hr, hq', ?_, hl'⟩
  · rcases List.mem_cons.mp hb' with rfl | hb'
    · exact ha
    · exact hb b hb'
  · rw [hp', hp, hq]

/-- The holder of `LogLock` can finish its critical section when no `Send` blocks. -/
theorem Service.empties_of_held (hflow : ∀ u, s.blocks u = false) {uid : GoString}
    {c : Critical α} (hl : s.logLock = some (uid, c)) : ∃ acts s', s.Empties admits acts s' := by
  cases c with
  | popping S =>
    exact ⟨_, _, byHandler_drainActs S s.queue,
      Service.run_drainActs hl fun _ _ _ _ _ => hflow _, rfl, rfl, rfl⟩
  | snapshotting =>
    have h₁ : s.apply admits (.snapshot (s.structs.map Prod.snd)) =
        some { s with logLock := some (uid, .popping (s.structs.map Prod.snd)) } := by
      simp [Service.apply, hl]
    exact ⟨_, _, .cons h₁ rfl rfl rfl ⟨byHandler_drainActs _ _,
      Service.run_drainActs rfl fun _ _ _ _ _ => hflow _, rfl, rfl, rfl⟩⟩
  | sending S x rest =>
    refine ⟨List.replicate (rest.length + 1) .send ++ drainActs S s.queue, _, fun a ha => ?_,
      by rw [Service.run, Machine.run_append, ← Service.run,
           Service.run_sends hl fun _ _ _ => hflow _, Option.some_bind]
         exact Service.run_drainActs rfl fun _ _ _ _ _ => hflow _, by rfl, by rfl, by rfl⟩
    rcases List.mem_append.mp ha with ha | ha
    · rw [(List.mem_replicate.mp ha).2]
      rfl
    · exact byHandler_drainActs S s.queue a ha

/-- A handler waiting in `Lock` while `LogLock` is free can take it and drain, when no `Send`
blocks. -/
theorem Service.empties_of_locking (hflow : ∀ u, s.blocks u = false) {uid : GoString}
    (hk : (uid, HandlerPc.locking) ∈ s.handlers) (hl : s.logLock = none) :
    ∃ acts s', s.Empties admits acts s' := by
  set s₁ : Service α :=
    { s with logLock := some (uid, .snapshotting), handlers := setPc s.handlers uid .holding }
  have h₁ : s.apply admits (.lock uid) = some s₁ := by simp [s₁, Service.apply, hk, hl]
  obtain ⟨acts, s', he⟩ := Service.empties_of_held (s := s₁) hflow
    (show s₁.logLock = some (uid, .snapshotting) from rfl)
  exact ⟨_, _, .cons h₁ rfl rfl rfl he⟩

/-- **While `Running` holds and every `Send` returns, `LogQueue` can always be emptied.** From
every reachable state where `Running` is set, some handler has not returned, and no stream is
stalled (its client no longer reading it while it is up), the handlers' own steps alone can pop
every queued log, in order, and leave `LogLock` free. -/
theorem service_can_drain (h : s.Reachable admits) (hr : s.running = true)
    (hflow : ∀ u, s.blocks u = false) (hu : ∃ uid p, (uid, p) ∈ s.handlers ∧ p ≠ .exited) :
    ∃ acts s', (∀ a ∈ acts, a.byHandler) ∧ s.run admits acts = some s' ∧ s'.queue = [] ∧
      s'.popped = s.popped ++ s.queue ∧ s'.logLock = none := by
  rcases hl : s.logLock with _ | ⟨uid, c⟩
  · obtain ⟨uid, p, hk, hp⟩ := hu
    cases p with
    | head =>
      set s₁ : Service α := { s with handlers := setPc s.handlers uid .locking }
      have h₁ : s.apply admits (.check uid) = some s₁ := by simp [s₁, Service.apply, hk, hr]
      have hk' : (uid, HandlerPc.locking) ∈ s₁.handlers :=
        mem_setPc.mpr (.inr ⟨rfl, List.mem_map_of_mem Prod.fst hk⟩)
      obtain ⟨acts, s', he⟩ := Service.empties_of_locking (s := s₁) hflow hk'
        (show s₁.logLock = none from hl)
      exact ⟨_, _, Service.Empties.cons h₁ rfl rfl rfl he⟩
    | locking => exact Service.empties_of_locking hflow hk hl
    | holding =>
      obtain ⟨c, hc⟩ := (h.refines.1.holding uid).mp hk
      rw [hl] at hc
      cases hc
    | exited => exact absurd rfl hp
  · exact Service.empties_of_held hflow hl

end Drain

/-- Handler `a` registers and a log is pushed; `a` is at its check of `Running`. -/
def pushedRun : List (ServiceAction PbLog) :=
  [.watch (lit "a") [], .push { type := lit "ContainerLog" }]

/-- Where `pushedRun` leaves the service. -/
def pushed : Service PbLog := ((Service.init PbLog).run logAdmits pushedRun).getD (.init PbLog)

/-- `a`'s own steps can pop the pushed log and free `LogLock`. -/
theorem service_can_drain_pushed :
    ∃ acts s', pushed.run logAdmits acts = some s' ∧ s'.queue = [] ∧
      s'.popped = pushed.popped ++ pushed.queue ∧ s'.logLock = none :=
  let ⟨acts, s', _, hr, hq, hp, hl⟩ := service_can_drain
    (Machine.reachable_of_run
      (show (Service.init PbLog).run logAdmits pushedRun = some pushed by decide))
    (show pushed.running = true by decide)
    (fun u => by simp [Service.blocks, show pushed.stalled = [] by decide])
    ⟨lit "a", .head, by decide, by decide⟩
  ⟨acts, s', hr, hq, hp, hl⟩

/-! ## After `DestroyFeeder` -/

section Stopped

variable {α : Type} {admits : GoString → α → Bool} {s s' : Service α}

/-- `Running` is cleared and no handler is in its loop's body: none holds `LogLock`, none waits
for it. -/
def Service.Drained (s : Service α) : Prop :=
  s.running = false ∧ s.logLock = none ∧ ∀ u, (u, HandlerPc.locking) ∉ s.handlers

/-- Once drained, a step sends nothing, only appends to the queue, and leaves the service
drained. -/
theorem Service.Drained.apply (hd : s.Drained) {a : ServiceAction α}
    (h : s.apply admits a = some s') : s'.Drained ∧ s'.sent = s.sent ∧ s.queue <+: s'.queue := by
  obtain ⟨hr, hl, hw⟩ := hd
  cases a with
  | push x =>
    obtain ⟨-, rfl⟩ := Service.apply_push h
    exact ⟨⟨hr, hl, hw⟩, rfl, List.prefix_append _ _⟩
  | watch uid filter =>
    obtain ⟨-, rfl⟩ := Service.apply_watch h
    refine ⟨⟨hr, hl, fun u hu => ?_⟩, rfl, List.prefix_refl _⟩
    rcases List.mem_append.mp hu with hu | hu
    · exact hw u hu
    · cases (Prod.mk.inj (List.mem_singleton.mp hu)).2
  | check uid =>
    obtain ⟨-, ⟨hr', -⟩ | ⟨-, rfl⟩⟩ := Service.apply_check h
    · rw [hr] at hr'; cases hr'
    · refine ⟨⟨hr, hl, fun u hu => ?_⟩, rfl, List.prefix_refl _⟩
      rcases mem_setPc.mp hu with ⟨hu, -⟩ | ⟨e, -⟩
      · exact hw u hu
      · cases (Prod.mk.inj e).2
  | lock uid => exact absurd (Service.apply_lock h).1 (hw uid)
  | snapshot => obtain ⟨_, hl', -⟩ := Service.apply_snapshot h; rw [hl] at hl'; cases hl'
  | pop => obtain ⟨_, _, hl', -⟩ := Service.apply_pop h; rw [hl] at hl'; cases hl'
  | send =>
    obtain ⟨_, _, _, ⟨hl', -⟩ | ⟨_, _, hl', -⟩⟩ := Service.apply_send h <;> rw [hl] at hl' <;>
      cases hl'
  | stop =>
    obtain rfl := Service.apply_stop h
    exact ⟨⟨rfl, hl, hw⟩, rfl, List.prefix_refl _⟩
  | fail uid =>
    obtain rfl := Service.apply_fail h
    exact ⟨⟨hr, hl, hw⟩, rfl, List.prefix_refl _⟩
  | stall uid =>
    obtain rfl := Service.apply_stall h
    exact ⟨⟨hr, hl, hw⟩, rfl, List.prefix_refl _⟩
  | resume uid =>
    obtain rfl := Service.apply_resume h
    exact ⟨⟨hr, hl, hw⟩, rfl, List.prefix_refl _⟩

/-- **After `DestroyFeeder`, once no handler is in its loop's body, nothing is sent again.**
From a state where `Running` is cleared, `LogLock` is free and no handler waits for it, every
sequence of steps sends no stream anything, and every log still pushed (by a `PushLog` goroutine
that has not finished) stays in `LogQueue`. -/
theorem service_drained_sends_nothing (hr : s.running = false) (hl : s.logLock = none)
    (hw : ∀ u, (u, HandlerPc.locking) ∉ s.handlers) {acts : List (ServiceAction α)}
    (h : s.run admits acts = some s') : s'.sent = s.sent ∧ s.queue <+: s'.queue :=
  (@Machine.run_invariant _ _ (Service.apply admits)
    (fun t => t.Drained ∧ t.sent = s.sent ∧ s.queue <+: t.queue)
    (fun ⟨hd, hs, hq⟩ h₁ => let ⟨hd', hs', hq'⟩ := hd.apply h₁; ⟨hd', hs'.trans hs, hq.trans hq'⟩)
    _ _ _ ⟨⟨hr, hl, hw⟩, rfl, List.prefix_refl _⟩ h).2

end Stopped

/-- Handler `a` registers, `DestroyFeeder` runs and `a` returns. -/
def afterStopRun : List (ServiceAction PbLog) :=
  [.watch (lit "a") [], .stop, .check (lit "a")]

/-- Where `afterStopRun` leaves the service. -/
def afterStop : Service PbLog :=
  ((Service.init PbLog).run logAdmits afterStopRun).getD (.init PbLog)

/-- Later, a matched log is pushed and handler `b` registers. -/
def lateRun : List (ServiceAction PbLog) :=
  [.push { type := lit "MatchedPolicy" }, .watch (lit "b") []]

/-- The log pushed after every handler left is sent to no stream. -/
theorem service_drained_sends_nothing_afterStop :
    ((afterStop.run logAdmits lateRun).getD afterStop).sent = afterStop.sent :=
  (service_drained_sends_nothing (by decide) (by decide)
    (fun u hu => by
      rw [show afterStop.handlers = [(lit "a", .exited)] by decide] at hu
      simp at hu)
    (show afterStop.run logAdmits lateRun = some ((afterStop.run logAdmits lateRun).getD afterStop)
      by decide)).1

end KubeArmor.Feeder
