import Mathlib.Data.List.Nodup
import KubeArmor.Feeder.LogService
import KubeArmor.Laws.Machine

/-!
# Laws of the log service

`Feed.Inv` is what every reachable state of a feed satisfies, whatever the interleaving: the
pushed items are the popped ones followed by the queued ones; what a stream was sent is a sublist
of what was popped, each item admitted by the stream's filter; the table is keyed by distinct
uids, each entry registered under its own uid; and while `Running` holds, every handler that ever
registered is still in the table. `Feed.sentTo_drain` says what one drain sends each stream.

From these, `watchLogs_fanout` is the fan-out law of `WatchLogs`, and `feed_failure_unobserved`
says what a failed or cancelled stream does to the table: nothing, until `Running` is false.
-/

namespace KubeArmor.Feeder

open KubeArmor.Go KubeArmor.Types

/-! ## Go maps -/

section Maps

variable {β : Type} {m : List (GoString × β)} {k : GoString} {v : β} {e : GoString × β}

theorem mem_mapSet : e ∈ mapSet m k v ↔ (e ∈ m ∧ e.1 ≠ k) ∨ e = (k, v) := by
  simp [mapSet]

theorem mem_mapDelete : e ∈ mapDelete m k ↔ e ∈ m ∧ e.1 ≠ k := by
  simp [mapDelete]

theorem mapSet_keys_nodup (h : (m.map Prod.fst).Nodup) : ((mapSet m k v).map Prod.fst).Nodup := by
  simp only [mapSet, List.map_append, List.map_cons, List.map_nil]
  refine List.nodup_append.mpr ⟨(h.sublist ((List.filter_sublist _).map _)), List.nodup_singleton _, ?_⟩
  simp [List.Disjoint]

theorem mapDelete_keys_nodup (h : (m.map Prod.fst).Nodup) :
    ((mapDelete m k).map Prod.fst).Nodup :=
  h.sublist ((List.filter_sublist _).map _)

end Maps

/-! ## One drain -/

section Drain

variable {α : Type} {admits : GoString → α → Bool}

/-- The sends of a drain come from the snapshot's entries, each admitting what it is sent. -/
theorem mem_drainSends {snapshot : List LogStruct} {q : List α} {p : GoString × α}
    (h : p ∈ drainSends admits snapshot q) :
    ∃ lgs ∈ snapshot, lgs.client = p.1 ∧ admits lgs.filter p.2 = true := by
  induction q with
  | nil => cases h
  | cons x q ih =>
    rcases List.mem_append.mp h with h | h
    · obtain ⟨lgs, hl, hs⟩ := List.mem_filterMap.mp h
      split at hs
      · cases hs
        exact ⟨lgs, hl, rfl, ‹_›⟩
      · cases hs
    · exact ih h

/-- The sends of one item to `u` come from the snapshot's entries for `u`. -/
private theorem sendOne_filter (snapshot : List LogStruct) (x : α) (u : GoString) :
    (snapshot.filterMap fun lgs => if admits lgs.filter x then some (lgs.client, x) else none).filter
        (fun p => p.1 == u) =
      (snapshot.filter fun lgs => lgs.client == u).filterMap
        fun lgs => if admits lgs.filter x then some (lgs.client, x) else none := by
  induction snapshot with
  | nil => rfl
  | cons lgs rest ih =>
    by_cases ha : admits lgs.filter x = true <;> by_cases hu : lgs.client = u <;>
      simp [List.filterMap_cons, List.filter_cons, ha, hu, ih]

/-- The sends of a drain to `u` are the drain's sends over the snapshot's entries for `u`. -/
theorem drainSends_filter (snapshot : List LogStruct) (q : List α) (u : GoString) :
    (drainSends admits snapshot q).filter (fun p => p.1 == u) =
      drainSends admits (snapshot.filter fun lgs => lgs.client == u) q := by
  induction q with
  | nil => rfl
  | cons x q ih => simp only [drainSends, List.filter_append, ih, sendOne_filter]

/-- A drain over one entry sends it the queued items its filter admits. -/
theorem drainSends_singleton (lgs : LogStruct) (q : List α) :
    (drainSends admits [lgs] q).map Prod.snd = q.filter (admits lgs.filter) := by
  induction q with
  | nil => rfl
  | cons x q ih =>
    by_cases ha : admits lgs.filter x = true <;> simp [drainSends, ha, ← ih]

/-- A drain over no entry sends nothing. -/
theorem drainSends_nil (q : List α) : drainSends admits [] q = [] := by
  induction q with
  | nil => rfl
  | cons x q ih => simp [drainSends, ih]

/-- In a snapshot whose streams are distinct, the entries of `lgs`'s stream are `lgs` alone. -/
theorem filter_client_eq_singleton {snapshot : List LogStruct}
    (hnd : (snapshot.map LogStruct.client).Nodup) {lgs : LogStruct} (hl : lgs ∈ snapshot) :
    snapshot.filter (fun l => l.client == lgs.client) = [lgs] := by
  induction snapshot with
  | nil => cases hl
  | cons l rest ih =>
    simp only [List.map_cons, List.nodup_cons] at hnd
    rcases List.mem_cons.mp hl with rfl | hl
    · simpa using fun (l' : LogStruct) (hl' : l' ∈ rest) (h : l'.client = lgs.client) =>
        hnd.1 (h ▸ List.mem_map_of_mem _ hl')
    · have hne : l.client ≠ lgs.client := fun h => hnd.1 (h ▸ List.mem_map_of_mem _ hl)
      simp [List.filter_cons, hne, ih hnd.2 hl]

end Drain

/-! ## What each action does -/

section Actions

variable {α : Type} {admits : GoString → α → Bool} {s s' : Feed α}

theorem Feed.apply_push {x : α} (h : s.apply admits (.push x) = some s') :
    s' = { s with queue := s.queue ++ [x], appended := s.appended ++ [x] } :=
  (Option.some.inj h).symm

theorem Feed.apply_watch {uid filter : GoString} (h : s.apply admits (.watch uid filter) = some s') :
    uid ∉ s.registered.map Prod.fst ∧
    s' = { s with structs := mapSet s.structs uid ⟨uid, filter⟩
                  registered := s.registered ++ [(uid, filter)] } := by
  simp only [Feed.apply] at h
  split_ifs at h with hg
  exact ⟨hg, (Option.some.inj h).symm⟩

theorem Feed.apply_enter {uid : GoString} (h : s.apply admits (.enter uid) = some s') :
    s.running = true ∧ s' = { s with inBody := uid :: s.inBody } := by
  simp only [Feed.apply] at h
  split_ifs at h with hg
  exact ⟨hg.2.2, (Option.some.inj h).symm⟩

theorem Feed.apply_drain {uid : GoString} {snapshot : List LogStruct}
    (h : s.apply admits (.drain uid snapshot) = some s') :
    snapshot.Perm (s.structs.map Prod.snd) ∧
    s' = { s with queue := [], popped := s.popped ++ s.queue
                  sent := s.sent ++ drainSends admits snapshot s.queue
                  inBody := s.inBody.erase uid } := by
  simp only [Feed.apply] at h
  split_ifs at h with hg
  exact ⟨hg.2, (Option.some.inj h).symm⟩

theorem Feed.apply_exit {uid : GoString} (h : s.apply admits (.exit uid) = some s') :
    s.running = false ∧ s' = { s with structs := mapDelete s.structs uid } := by
  simp only [Feed.apply] at h
  split_ifs at h with hg
  exact ⟨hg.2.2, (Option.some.inj h).symm⟩

theorem Feed.apply_stop (h : s.apply admits .stop = some s') : s' = { s with running := false } :=
  (Option.some.inj h).symm

theorem Feed.apply_fail {uid : GoString} (h : s.apply admits (.fail uid) = some s') :
    s' = { s with failed := s.failed ++ [uid] } :=
  (Option.some.inj h).symm

/-- `Running` is never set again once cleared. -/
theorem Feed.running_of_apply {a : Action α} (h : s.apply admits a = some s') (hr : s'.running = true) :
    s.running = true := by
  cases a with
  | stop => rw [Feed.apply_stop h] at hr; cases hr
  | push => rwa [Feed.apply_push h] at hr
  | watch => rwa [(Feed.apply_watch h).2] at hr
  | enter => rwa [(Feed.apply_enter h).2] at hr
  | drain => rwa [(Feed.apply_drain h).2] at hr
  | exit => rwa [(Feed.apply_exit h).2] at hr
  | fail => rwa [Feed.apply_fail h] at hr

end Actions

/-! ## The invariant -/

section Invariant

variable {α : Type} {admits : GoString → α → Bool} {s s' : Feed α}

/-- What every reachable state of a feed satisfies. -/
structure Feed.Inv (admits : GoString → α → Bool) (s : Feed α) : Prop where
  /-- Every pushed item was popped once or is still queued. -/
  history : s.appended = s.popped ++ s.queue
  /-- Each stream was sent a sublist of what was popped. -/
  sent_popped : ∀ u, (s.sentTo u).Sublist s.popped
  /-- Each send went to a registered stream whose filter admits the item. -/
  sent_admitted : ∀ p ∈ s.sent, ∃ f, (p.1, f) ∈ s.registered ∧ admits f p.2 = true
  /-- The table's keys are distinct. -/
  keys_nodup : (s.structs.map Prod.fst).Nodup
  /-- Each entry is its key's stream, with the filter its handler registered. -/
  struct_registered : ∀ e ∈ s.structs, e.2.client = e.1 ∧ (e.1, e.2.filter) ∈ s.registered
  /-- Handlers draw distinct uids. -/
  registered_nodup : (s.registered.map Prod.fst).Nodup
  /-- While `Running` holds, every handler that registered is still in the table. -/
  running_live : s.running = true → ∀ p ∈ s.registered, (p.1, ⟨p.1, p.2⟩) ∈ s.structs

theorem Feed.inv_init : (Feed.init α).Inv admits :=
  ⟨rfl, fun _ => List.Sublist.slnil, nofun, List.nodup_nil, nofun, List.nodup_nil, fun _ => nofun⟩

/-- A snapshot of the table names each stream once. -/
theorem Feed.Inv.snapshot_nodup (hi : s.Inv admits) {snapshot : List LogStruct}
    (hp : snapshot.Perm (s.structs.map Prod.snd)) : (snapshot.map LogStruct.client).Nodup := by
  have hkeys : (s.structs.map Prod.snd).map LogStruct.client = s.structs.map Prod.fst := by
    rw [List.map_map]
    exact List.map_congr_left fun e he => (hi.struct_registered e he).1
  exact (hp.map _).nodup_iff.mpr (hkeys ▸ hi.keys_nodup)

/-- What a drain sends `v`: the drain over the snapshot's entries for `v`. -/
theorem Feed.sentTo_of_drain {u v : GoString} {snapshot : List LogStruct}
    (h : s.apply admits (.drain u snapshot) = some s') :
    s'.sentTo v = s.sentTo v ++
      (drainSends admits (snapshot.filter fun lgs => lgs.client == v) s.queue).map Prod.snd := by
  rw [(Feed.apply_drain h).2]
  simp only [Feed.sentTo, List.filter_append, List.map_append, drainSends_filter]

/-- **What one drain sends each stream.** A stream in the snapshot is sent every queued item its
entry's filter admits, in queue order; a stream not in it, nothing. -/
theorem Feed.Inv.sentTo_drain (hi : s.Inv admits) {u : GoString} {snapshot : List LogStruct}
    (h : s.apply admits (.drain u snapshot) = some s') :
    (∀ lgs ∈ snapshot,
      s'.sentTo lgs.client = s.sentTo lgs.client ++ s.queue.filter (admits lgs.filter)) ∧
    (∀ v, v ∉ snapshot.map LogStruct.client → s'.sentTo v = s.sentTo v) := by
  have hnd := hi.snapshot_nodup (Feed.apply_drain h).1
  refine ⟨fun lgs hl => ?_, fun v hv => ?_⟩
  · rw [Feed.sentTo_of_drain h, filter_client_eq_singleton hnd hl, drainSends_singleton]
  · have hnone : snapshot.filter (fun lgs => lgs.client == v) = [] :=
      List.filter_eq_nil_iff.mpr fun lgs hl hc => hv (beq_iff_eq.mp hc ▸ List.mem_map_of_mem _ hl)
    rw [Feed.sentTo_of_drain h, hnone, drainSends_nil, List.map_nil, List.append_nil]

/-- **Every action keeps the invariant.** -/
theorem Feed.Inv.apply (hi : s.Inv admits) {a : Action α} (h : s.apply admits a = some s') :
    s'.Inv admits := by
  cases a with
  | push x =>
    obtain rfl := Feed.apply_push h
    exact ⟨by simp [hi.history], hi.2, hi.3, hi.4, hi.5, hi.6, hi.7⟩
  | watch uid f =>
    obtain ⟨hfresh, rfl⟩ := Feed.apply_watch h
    refine ⟨hi.1, hi.2, fun p hp => ?_, mapSet_keys_nodup hi.4, fun e he => ?_, ?_,
      fun hr p hp => ?_⟩
    · obtain ⟨f', hf', ha⟩ := hi.sent_admitted p hp
      exact ⟨f', List.mem_append_left _ hf', ha⟩
    · rcases mem_mapSet.mp he with ⟨he, -⟩ | rfl
      · exact ⟨(hi.5 e he).1, List.mem_append_left _ (hi.5 e he).2⟩
      · exact ⟨rfl, List.mem_append_right _ (List.mem_singleton_self _)⟩
    · simp only [List.map_append, List.map_cons, List.map_nil]
      exact List.nodup_append.mpr ⟨hi.6, List.nodup_singleton _, fun a ha hb =>
        hfresh (by rwa [List.mem_singleton.mp hb] at ha)⟩
    · rcases List.mem_append.mp hp with hp | hp
      · exact mem_mapSet.mpr (Or.inl ⟨hi.7 hr p hp, fun heq =>
          hfresh (heq ▸ List.mem_map_of_mem Prod.fst hp)⟩)
      · rw [List.mem_singleton.mp hp]
        exact mem_mapSet.mpr (Or.inr rfl)
  | enter uid =>
    obtain ⟨-, rfl⟩ := Feed.apply_enter h
    exact ⟨hi.1, hi.2, hi.3, hi.4, hi.5, hi.6, hi.7⟩
  | drain uid snapshot =>
    have hp := (Feed.apply_drain h).1
    have hsent := hi.sentTo_drain h
    obtain rfl := (Feed.apply_drain h).2
    refine ⟨by simp [hi.history], fun v => ?_, fun p hp' => ?_, hi.4, hi.5, hi.6, hi.7⟩
    · by_cases hv : v ∈ snapshot.map LogStruct.client
      · obtain ⟨lgs, hl, rfl⟩ := List.mem_map.mp hv
        rw [hsent.1 lgs hl]
        exact (hi.sent_popped _).append (List.filter_sublist _)
      · rw [hsent.2 v hv]
        exact (hi.sent_popped v).trans (List.sublist_append_left _ _)
    · rcases List.mem_append.mp hp' with hp' | hp'
      · exact hi.sent_admitted p hp'
      · obtain ⟨lgs, hl, hc, ha⟩ := mem_drainSends hp'
        obtain ⟨e, he, rfl⟩ := List.mem_map.mp (hp.mem_iff.mp hl)
        rw [← hc, (hi.5 e he).1]
        exact ⟨e.2.filter, (hi.5 e he).2, ha⟩
  | exit uid =>
    obtain ⟨hr, rfl⟩ := Feed.apply_exit h
    exact ⟨hi.1, hi.2, hi.3, mapDelete_keys_nodup hi.4, fun e he => hi.5 e (mem_mapDelete.mp he).1,
      hi.6, fun hr' => absurd (hr.symm.trans hr') Bool.false_ne_true⟩
  | stop =>
    obtain rfl := Feed.apply_stop h
    exact ⟨hi.1, hi.2, hi.3, hi.4, hi.5, hi.6, fun hr' => absurd hr' Bool.false_ne_true⟩
  | fail uid =>
    obtain rfl := Feed.apply_fail h
    exact ⟨hi.1, hi.2, hi.3, hi.4, hi.5, hi.6, hi.7⟩

/-- **The invariant holds in every reachable state.** -/
theorem Feed.Reachable.inv (h : s.Reachable admits) : s.Inv admits :=
  Machine.Reachable.invariant h Feed.inv_init fun hi ha => hi.apply ha

end Invariant

/-! ## Runs -/

section Runs

variable {α : Type} {admits : GoString → α → Bool} {s s' : Feed α}

/-- The items sent to a stream are the sends that name it. -/
theorem Feed.mem_sentTo {u : GoString} {x : α} : x ∈ s.sentTo u ↔ (u, x) ∈ s.sent := by
  simp only [Feed.sentTo, List.mem_map, List.mem_filter, beq_iff_eq]
  constructor
  · rintro ⟨p, ⟨hp, rfl⟩, rfl⟩
    exact hp
  · exact fun h => ⟨(u, x), ⟨h, rfl⟩, rfl⟩

/-- **A stream is sent only what its handler's filter admits.** -/
theorem Feed.Inv.sentTo_admitted (hi : s.Inv admits) {u f : GoString} (hu : (u, f) ∈ s.registered)
    {x : α} (hx : x ∈ s.sentTo u) : admits f x = true := by
  obtain ⟨f', hf', ha⟩ := hi.sent_admitted _ (Feed.mem_sentTo.mp hx)
  obtain rfl : f' = f := congrArg Prod.snd (List.inj_on_of_nodup_map hi.registered_nodup hf' hu rfl)
  exact ha

end Runs

/-! ## `WatchLogs` -/

/-- What the filter of `WatchLogs` admits. -/
theorem logAdmits_eq_true_iff {f : GoString} {l : PbLog} :
    logAdmits f l = true ↔ f = [] ∨
      (f = lit "policy" ∧ (l.type = lit "MatchedPolicy" ∨ l.type = lit "MatchedHostPolicy")) ∨
      (f = lit "system" ∧ (l.type = lit "ContainerLog" ∨ l.type = lit "HostLog")) := by
  unfold logAdmits
  split_ifs <;> simp_all

/-- **The fan-out law of `WatchLogs`.** In every state reached by any interleaving of pushes,
registrations, stream failures, drains and removals, handlers drawing distinct uids: every pushed
log was popped once or is still queued; what each stream was sent is a subsequence of the push
order; every log sent to a stream is admitted by its handler's filter (`""` every log, `"policy"`
the matched ones, `"system"` the unmatched ones, any other filter none); and a drain sends each
stream of its snapshot exactly the popped logs the stream's filter admits, in order, and any other
stream nothing. -/
theorem watchLogs_fanout {s : Feed PbLog} (h : s.Reachable logAdmits) :
    s.appended = s.popped ++ s.queue ∧
    (∀ u, (s.sentTo u).Sublist s.appended) ∧
    (∀ u f, (u, f) ∈ s.registered → ∀ l ∈ s.sentTo u, f = [] ∨
      (f = lit "policy" ∧ (l.type = lit "MatchedPolicy" ∨ l.type = lit "MatchedHostPolicy")) ∨
      (f = lit "system" ∧ (l.type = lit "ContainerLog" ∨ l.type = lit "HostLog"))) ∧
    (∀ u snapshot s', s.apply logAdmits (.drain u snapshot) = some s' →
      (∀ lgs ∈ snapshot, s'.sentTo lgs.client = s.sentTo lgs.client ++ s.queue.filter fun l =>
        decide (lgs.filter = [] ∨
          (lgs.filter = lit "policy" ∧
            (l.type = lit "MatchedPolicy" ∨ l.type = lit "MatchedHostPolicy")) ∨
          (lgs.filter = lit "system" ∧ (l.type = lit "ContainerLog" ∨ l.type = lit "HostLog")))) ∧
      (∀ v, v ∉ snapshot.map LogStruct.client → s'.sentTo v = s.sentTo v)) := by
  have hi := h.inv
  refine ⟨hi.history, fun u => ?_, fun u f hu l hl => ?_, fun u snapshot s' hd => ?_⟩
  · rw [hi.history]
    exact (hi.sent_popped u).trans (List.sublist_append_left _ _)
  · exact logAdmits_eq_true_iff.mp (hi.sentTo_admitted hu hl)
  · refine ⟨fun lgs hl => ?_, (hi.sentTo_drain hd).2⟩
    rw [(hi.sentTo_drain hd).1 lgs hl]
    congr 1
    exact List.filter_congr fun l _ =>
      Bool.eq_iff_iff.mpr (logAdmits_eq_true_iff.trans decide_eq_true_iff.symm)

/-- A subscriber with filter `"policy"`; a matched and an unmatched log are pushed; one drain. -/
def policyRun : List (Action PbLog) :=
  [.watch (lit "a") (lit "policy"), .push { type := lit "MatchedPolicy" },
    .push { type := lit "ContainerLog" }, .enter (lit "a"), .drain (lit "a") [⟨lit "a", lit "policy"⟩]]

/-- In `policyRun` the subscriber is sent the matched log alone. -/
theorem watchLogs_fanout_policy :
    ∃ s, (Feed.init PbLog).run logAdmits policyRun = some s ∧
      s.sentTo (lit "a") = [{ type := lit "MatchedPolicy" }] ∧
      (s.sentTo (lit "a")).Sublist s.appended := by
  refine ⟨_, rfl, by decide, ?_⟩
  exact (watchLogs_fanout
    (@Machine.reachable_of_run _ _ (Feed.apply logAdmits) _ _ policyRun rfl)).2.1 (lit "a")

/-! ## Failed and cancelled streams -/

section Failure

variable {α : Type} {admits : GoString → α → Bool} {s s' : Feed α}

/-- The only action that takes a stream out of the table is its handler's own return, which
happens once `Running` is false. -/
theorem Feed.apply_removes {a : Action α} (h : s.apply admits a = some s') {u : GoString}
    (hu : u ∈ s.structs.map Prod.fst) (hu' : u ∉ s'.structs.map Prod.fst) :
    a = .exit u ∧ s.running = false := by
  cases a with
  | push => rw [Feed.apply_push h] at hu'; exact absurd hu hu'
  | watch uid f =>
    rw [(Feed.apply_watch h).2] at hu'
    obtain ⟨e, he, rfl⟩ := List.mem_map.mp hu
    by_cases hk : e.1 = uid
    · exact (hu' (List.mem_map.mpr ⟨(uid, ⟨uid, f⟩), mem_mapSet.mpr (Or.inr rfl), hk.symm⟩)).elim
    · exact (hu' (List.mem_map_of_mem _ (mem_mapSet.mpr (Or.inl ⟨he, hk⟩)))).elim
  | enter => rw [(Feed.apply_enter h).2] at hu'; exact absurd hu hu'
  | drain => rw [(Feed.apply_drain h).2] at hu'; exact absurd hu hu'
  | exit uid =>
    obtain ⟨hr, rfl⟩ := Feed.apply_exit h
    by_cases hk : u = uid
    · exact ⟨hk ▸ rfl, hr⟩
    · obtain ⟨e, he, rfl⟩ := List.mem_map.mp hu
      exact (hu' (List.mem_map_of_mem _ (mem_mapDelete.mpr ⟨he, hk⟩))).elim
  | stop => rw [Feed.apply_stop h] at hu'; exact absurd hu hu'
  | fail => rw [Feed.apply_fail h] at hu'; exact absurd hu hu'

/-- **A failed or cancelled stream stays subscribed.** The handlers never look at a stream's
failure: while `Running` holds, every handler that registered is in the table, failed or not; an
entry leaves the table only by its own handler's return, once `Running` is false; and every drain
sends each stream of its snapshot the popped items its filter admits, as to a healthy one. This
holds of `WatchLogs` (`logAdmits`) and of `WatchMessages` (`msgAdmits`) alike. -/
theorem feed_failure_unobserved (h : s.Reachable admits) :
    (s.running = true → ∀ u f, (u, f) ∈ s.registered → (u, ⟨u, f⟩) ∈ s.structs) ∧
    (∀ a s', s.apply admits a = some s' → ∀ u ∈ s.structs.map Prod.fst,
      u ∉ s'.structs.map Prod.fst → a = .exit u ∧ s.running = false) ∧
    (∀ u snapshot s', s.apply admits (.drain u snapshot) = some s' → ∀ lgs ∈ snapshot,
      s'.sentTo lgs.client = s.sentTo lgs.client ++ s.queue.filter (admits lgs.filter)) :=
  ⟨fun hr u f hu => h.inv.running_live hr (u, f) hu, fun _ _ ha _ hu hu' => Feed.apply_removes ha hu hu',
    fun _ _ _ hd => (h.inv.sentTo_drain hd).1⟩

end Failure

/-- Two subscribers `a` and `b`; `b`'s stream is cancelled; a log is pushed; `a` enters its loop. -/
def cancelRun : List (Action PbLog) :=
  [.watch (lit "a") [], .watch (lit "b") [], .fail (lit "b"), .push {}, .enter (lit "a")]

/-- Stream `b` is cancelled, yet it stays in the table and the next drain sends to it. -/
theorem watchLogs_sends_after_failure :
    ∃ s s', (Feed.init PbLog).run logAdmits cancelRun = some s ∧
      s.Reachable logAdmits ∧ lit "b" ∈ s.failed ∧ lit "b" ∈ s.structs.map Prod.fst ∧
      s.apply logAdmits (.drain (lit "a") [⟨lit "a", []⟩, ⟨lit "b", []⟩]) = some s' ∧
      s'.sentTo (lit "b") = [{}] :=
  ⟨_, _, rfl, @Machine.reachable_of_run _ _ (Feed.apply logAdmits) _ _ cancelRun rfl, by decide,
    by decide, rfl, by decide⟩

/-- After `cancelRun`, the cancelled `b` is still registered in the table. -/
theorem feed_failure_unobserved_cancelled :
    ∃ s, (Feed.init PbLog).run logAdmits cancelRun = some s ∧ lit "b" ∈ s.failed ∧
      (lit "b", ⟨lit "b", []⟩) ∈ s.structs := by
  refine ⟨_, rfl, by decide, ?_⟩
  exact (feed_failure_unobserved
    (@Machine.reachable_of_run _ _ (Feed.apply logAdmits) _ _ cancelRun rfl)).1 rfl (lit "b") []
      (by decide)

/-! ## `WatchMessages` -/

/-- **`WatchMessages` ignores filters**: a drain of the message feed sends every stream of its
snapshot every popped message, in order, whatever the filter its request carried. -/
theorem watchMessages_sends_all {s s' : Feed PbMessage} (h : s.Reachable msgAdmits)
    {u : GoString} {snapshot : List LogStruct}
    (hd : s.apply msgAdmits (.drain u snapshot) = some s') :
    ∀ lgs ∈ snapshot, s'.sentTo lgs.client = s.sentTo lgs.client ++ s.queue := by
  intro lgs hl
  rw [(h.inv.sentTo_drain hd).1 lgs hl, List.filter_eq_self.mpr fun _ _ => (rfl : msgAdmits _ _ = true)]

/-- A message subscriber whose request asked for `"policy"` is sent a pushed message all the
same. -/
theorem watchMessages_sends_all_policy :
    ∃ s s', (Feed.init PbMessage).run msgAdmits
        [.watch (lit "a") (lit "policy"), .push { level := lit "INFO" }, .enter (lit "a")] = some s ∧
      s.apply msgAdmits (.drain (lit "a") [⟨lit "a", lit "policy"⟩]) = some s' ∧
      s'.sentTo (lit "a") = s.sentTo (lit "a") ++ s.queue := by
  refine ⟨_, _, rfl, rfl, ?_⟩
  exact @watchMessages_sends_all _ _ (@Machine.reachable_of_run _ _ (Feed.apply msgAdmits) _ _
    [.watch (lit "a") (lit "policy"), .push { level := lit "INFO" }, .enter (lit "a")] rfl)
    (lit "a") [⟨lit "a", lit "policy"⟩] rfl _ (List.mem_singleton_self _)

end KubeArmor.Feeder
