import KubeArmor.Laws.Feeder.PushLog
import KubeArmor.Laws.Feeder.Service
import KubeArmor.Feeder.Pipeline

/-!
# Laws of the pipeline from `UpdateLogs` to the subscribers

`Pipeline.Inv` ties the two halves together: the goroutines keep `Pushes.Inv`, the service is a
reachable `Service` on its own, and what the service was pushed is what the goroutines appended.
From it, what any stream is sent traces back, item by item, to the logs `UpdateLogs` handed over
(`pipeline_delivers`). With `UpdateLogs` in front, each item goes back to one of the kernel
events it received (`events_reach_streams`).
-/

namespace KubeArmor.Feeder

open KubeArmor.Go KubeArmor.Types

variable {fd : Feeder} {logs : List Log}

/-- A scheduling decision appends to `LogQueue` what `appendOf` says. -/
theorem Pushes.logQueue_of_apply {s s' : Pushes} {a : PushAction} (h : s.apply fd a = some s') :
    s'.logQueue = s.logQueue ++ (appendOf s a).toList := by
  rcases Pushes.apply_cases h with ⟨-, -, rfl, -, rfl⟩ | ⟨i, _, rfl, hg, -, rfl⟩ |
    ⟨i, _, _, rfl, hg, -, rfl⟩ | ⟨i, _, pb, rfl, hg, rfl⟩
  · simp [appendOf]
  all_goals simp [appendOf, hg]

/-- An item in `LogQueue` is the `pb.Log` of the call of `PushLog` on the log of its index. -/
theorem Pushes.Inv.mem_logQueue {s : Pushes} (hs : s.Inv fd logs) {i : Nat} {pb : PbLog}
    (h : (i, pb) ∈ s.logQueue) :
    ∃ log out, logs[i]? = some log ∧ pushLog fd log = some out ∧ out.pbLog = pb := by
  have hq := (hs.queue_iff i pb).mp h
  rcases hg : s.goroutines[i]? with _ | ⟨log, _ | _ | _⟩ <;> simp only [queued, hg,
    reduceCtorEq] at hq
  obtain ⟨out, ho, rfl⟩ := Option.map_eq_some'.mp hq
  have hi : i < (s.goroutines.map Prod.fst).length := by
    simpa using (List.getElem?_eq_some_iff.mp hg).1
  refine ⟨log, out, ?_, ho, rfl⟩
  rw [← hs.args, List.getElem?_append_left hi, List.getElem?_map, hg]
  rfl

/-- A handler step of the pipeline is a step of the service. -/
theorem Pipeline.apply_handler {s s' : Pipeline} {a : ServiceAction (Nat × PbLog)}
    (h : s.apply fd (.handler a) = some s') :
    (∀ x, a ≠ .push x) ∧ ∃ sv, s.service.apply pipelineAdmits a = some sv ∧
      s' = { s with service := sv } := by
  have ha : ∀ x, a ≠ .push x := by rintro x rfl; cases h
  have e : s.apply fd (.handler a) =
      (s.service.apply pipelineAdmits a).map fun sv => { s with service := sv } := by
    cases a <;> first | rfl | exact absurd rfl (ha _)
  rw [e] at h
  obtain ⟨sv, hsv, rfl⟩ := Option.map_eq_some'.mp h
  exact ⟨ha, sv, hsv, rfl⟩

/-- What ties the goroutines to the service. -/
structure Pipeline.Inv (fd : Feeder) (logs : List Log) (s : Pipeline) : Prop where
  pushes : s.pushes.Inv fd logs
  service : s.service.Reachable pipelineAdmits
  /-- The service was pushed what the goroutines appended. -/
  appended : s.service.appended = s.pushes.logQueue

theorem Pipeline.inv_init : (Pipeline.init logs).Inv fd logs :=
  ⟨Pushes.inv_init fd logs, .init, rfl⟩

/-- **Every step keeps the pipeline's invariant.** -/
theorem Pipeline.Inv.apply {s s' : Pipeline} (hs : s.Inv fd logs) {a : PipelineAction}
    (h : s.apply fd a = some s') : s'.Inv fd logs := by
  cases a with
  | goroutine a =>
    obtain ⟨p, hp, h⟩ := Option.bind_eq_some.mp h
    have hq := Pushes.logQueue_of_apply hp
    rcases he : appendOf s.pushes a with _ | e <;> rw [he] at h
    · obtain rfl := Option.some.inj h
      exact ⟨Pushes.inv_apply hs.pushes hp, hs.service, by simp [hq, he, hs.appended]⟩
    · obtain ⟨sv, hsv, h⟩ := Option.bind_eq_some.mp h
      obtain rfl := Option.some.inj h
      obtain ⟨-, rfl⟩ := Service.apply_push hsv
      exact ⟨Pushes.inv_apply hs.pushes hp, hs.service.step hsv, by simp [hq, he, hs.appended]⟩
  | handler a =>
    obtain ⟨ha, sv, hsv, rfl⟩ := Pipeline.apply_handler h
    exact ⟨hs.pushes, hs.service.step hsv, (Service.appended_of_apply hsv ha).trans hs.appended⟩

theorem Pipeline.Reachable.inv {s : Pipeline} (h : s.Reachable fd logs) : s.Inv fd logs :=
  Machine.Reachable.invariant h Pipeline.inv_init fun hs ha => hs.apply ha

/-- **What a subscriber is sent came from `UpdateLogs`, once each.** In every state reached by any
interleaving of the `PushLog` goroutines and the statement-level `WatchLogs` handlers, for a
stream registered with filter `f`: it was sent a subsequence of what the goroutines appended to
`LogQueue`, in that order; no goroutine's `pb.Log` twice; and each item it was sent is the `pb.Log`
that `PushLog` builds from a log `UpdateLogs` handed over, admitted by `f`. -/
theorem pipeline_delivers {s : Pipeline} (h : s.Reachable fd logs) {u f : GoString}
    (hu : (u, f) ∈ s.service.registered) :
    (s.service.sentTo u).Sublist s.pushes.logQueue ∧
    ((s.service.sentTo u).map Prod.fst).Nodup ∧
    ∀ i pb, (i, pb) ∈ s.service.sentTo u →
      ∃ log out, logs[i]? = some log ∧ pushLog fd log = some out ∧ out.pbLog = pb ∧
        logAdmits f pb = true := by
  have hi := h.inv
  have hsub : (s.service.sentTo u).Sublist s.pushes.logQueue :=
    hi.appended ▸ hi.service.sentTo_sublist u
  refine ⟨hsub, hi.pushes.queue_nodup.sublist (hsub.map _), fun i pb hm => ?_⟩
  obtain ⟨log, out, hl, ho, rfl⟩ := hi.pushes.mem_logQueue (hsub.subset hm)
  exact ⟨log, out, hl, ho, rfl, hi.service.sentTo_admitted hu hm⟩

/-- Handler `a` registers with the empty filter; the goroutine for the first `open` of `cat`
writes and appends; `a` takes `LogQueue`'s one item and sends it to its stream. -/
def catDeliveryRun : List PipelineAction :=
  [.handler (.watch (lit "a") []), .goroutine .spawn, .goroutine (.step 0), .goroutine (.step 0),
    .handler (.check (lit "a")), .handler (.lock (lit "a")), .handler (.snapshot [⟨lit "a", []⟩]),
    .handler .pop, .handler .send, .handler .send]

/-- Where `catDeliveryRun` leaves the pipeline. -/
def catDelivered : Pipeline :=
  ((Pipeline.init twoCatLogs).run quietFeeder catDeliveryRun).getD (.init [])

/-- Stream `a` was sent the first goroutine's `pb.Log`, once, in append order. -/
theorem pipeline_delivers_cat :
    (catDelivered.service.sentTo (lit "a")).Sublist catDelivered.pushes.logQueue ∧
      ((catDelivered.service.sentTo (lit "a")).map Prod.fst).Nodup :=
  let h := pipeline_delivers (Machine.reachable_of_run
    (show (Pipeline.init twoCatLogs).run quietFeeder catDeliveryRun = some catDelivered by decide))
    (show (lit "a", []) ∈ catDelivered.service.registered by decide)
  ⟨h.1, h.2.1⟩

open KubeArmor.Monitor in
/-- **From the kernel's events to the subscribers.** Let `UpdateLogs` receive the events `rs`,
with `LogFeeder` set and none on which `BuildLogBase` panics, and hand its logs to `PushLog`
goroutines. In every state that any interleaving of the goroutines and the statement-level
`WatchLogs` handlers reaches, a stream registered with filter `f` was sent each goroutine's
`pb.Log` at most once, and each item it was sent is what `PushLog` built from the log of one of
the events, an event of a handled kind, and is admitted by `f`. -/
theorem events_reach_streams {sys : Syscalls} {t : Tables} {mon : SystemMonitor}
    {rs : List Received} (hb : ∀ r ∈ rs, (buildLogBase sys t mon r.now r.msg).isSome)
    {s : Pipeline} (h : s.Reachable fd (updateLogs sys t mon rs).1) {u f : GoString}
    (hu : (u, f) ∈ s.service.registered) :
    ((s.service.sentTo u).map Prod.fst).Nodup ∧
    ∀ e ∈ s.service.sentTo u, ∃ r ∈ rs, r.msg.contextSys.eventID ∈ sys.handled ∧
      ∃ log out, (updateLog sys t mon r).log? = some log ∧ pushLog fd log = some out ∧
        out.pbLog = e.2 ∧ logAdmits f e.2 = true := by
  have hi := h.inv
  have hsub : (s.service.sentTo u).Sublist s.pushes.logQueue :=
    hi.appended ▸ hi.service.sentTo_sublist u
  refine ⟨hi.pushes.queue_nodup.sublist (hsub.map _), fun ⟨i, pb⟩ he => ?_⟩
  obtain ⟨log, out, hl, ho, hpb⟩ := hi.pushes.mem_logQueue (hsub.subset he)
  have hm : log ∈ rs.filterMap fun r => (updateLog sys t mon r).log? := by
    rw [updateLogs_of_isSome hb] at hl
    exact List.getElem?_mem hl
  obtain ⟨r, hr, hlog⟩ := List.mem_filterMap.mp hm
  have hh := (updateLog_log?_isSome_iff (hb r hr)).mp (by rw [hlog]; rfl)
  exact ⟨r, hr, hh.2.1, log, out, hlog, ho, hpb, hi.service.sentTo_admitted hu he⟩

/-- Stream `a` was sent at most one `pb.Log` per goroutine. -/
theorem events_reach_streams_cat :
    ((catDelivered.service.sentTo (lit "a")).map Prod.fst).Nodup :=
  (events_reach_streams (show ∀ r ∈ twoCatOpens,
      (Monitor.buildLogBase Monitor.Syscalls.amd64 Monitor.noTables Monitor.feederMonitor r.now
        r.msg).isSome by decide)
    (Machine.reachable_of_run (show (Pipeline.init twoCatLogs).run quietFeeder catDeliveryRun =
      some catDelivered by decide))
    (show (lit "a", []) ∈ catDelivered.service.registered by decide)).1

end KubeArmor.Feeder
