import KubeArmor.Laws.Feeder.LogService
import KubeArmor.Feeder.Service
import KubeArmor.Laws.Machine

/-!
# The statement-level handlers refine the atomic drain

`LogLock` makes a drain atomic as far as `LogQueue` goes, but not as far as the rest of the
service goes: while its holder sends, other handlers register, leave, and `Running` is cleared.
This module shows that nothing is lost by taking the drain as one step. `Service.abs` maps a state
of the statement-level loop to a `Feed`; a drain under way is taken to have happened at its
`getLogStructs()`, so the abstraction's queue is empty and its `sent` already holds the sends the
holder has still to make (`Service.pending`). Every step of `Service` is a step of `Feed` or leaves
the abstraction as it is (`Service.abs_step`), so every reachable `Service` maps to a reachable
`Feed` (`service_refines_feed`), and the laws of `Feed` hold of the code's own interleavings
(`service_fanout`).

`Service.Inv` is what the handlers' bookkeeping keeps: distinct uids, each registered, each with
its entry in the table until it returns, and a handler at `holding` exactly when it holds `LogLock`.
-/

namespace KubeArmor.Feeder

open KubeArmor.Go KubeArmor.Types

/-! ## The handler table -/

section Table

variable {hs : List (GoString × HandlerPc)} {uid : GoString} {pc : HandlerPc}

theorem setPc_cons (h : GoString × HandlerPc) (hs : List (GoString × HandlerPc)) :
    setPc (h :: hs) uid pc = (if h.1 = uid then (uid, pc) else h) :: setPc hs uid pc := rfl

@[simp] theorem map_fst_setPc : (setPc hs uid pc).map Prod.fst = hs.map Prod.fst := by
  induction hs with
  | nil => rfl
  | cons h hs ih => by_cases e : h.1 = uid <;> simp [setPc_cons, e, ih]

theorem mem_setPc {h : GoString × HandlerPc} :
    h ∈ setPc hs uid pc ↔ (h ∈ hs ∧ h.1 ≠ uid) ∨ (h = (uid, pc) ∧ uid ∈ hs.map Prod.fst) := by
  simp only [setPc, List.mem_map]
  constructor
  · rintro ⟨g, hg, rfl⟩
    by_cases e : g.1 = uid
    · rw [if_pos e]; exact .inr ⟨rfl, g, hg, e⟩
    · rw [if_neg e]; exact .inl ⟨hg, e⟩
  · rintro (⟨hh, e⟩ | ⟨rfl, hu⟩)
    · exact ⟨h, hh, if_neg e⟩
    · obtain ⟨g, hg, e⟩ := hu
      exact ⟨g, hg, if_pos e⟩

theorem setPc_of_not_mem (hu : uid ∉ hs.map Prod.fst) : setPc hs uid pc = hs := by
  induction hs with
  | nil => rfl
  | cons h hs ih =>
    simp only [List.map_cons, List.mem_cons, not_or] at hu
    rw [setPc_cons, if_neg (Ne.symm hu.1), ih hu.2]

/-- With distinct uids, a handler is at one place. -/
theorem pc_unique (hn : (hs.map Prod.fst).Nodup) {p q : HandlerPc} (hp : (uid, p) ∈ hs)
    (hq : (uid, q) ∈ hs) : p = q :=
  congrArg Prod.snd (List.inj_on_of_nodup_map hn hp hq rfl)

/-- The handlers waiting in `Lock`. -/
def lockingUids (hs : List (GoString × HandlerPc)) : List GoString :=
  (hs.filter fun h => h.2 == .locking).map Prod.fst

theorem lockingUids_cons (h : GoString × HandlerPc) (hs : List (GoString × HandlerPc)) :
    lockingUids (h :: hs) = if h.2 = .locking then h.1 :: lockingUids hs else lockingUids hs := by
  by_cases e : h.2 = .locking <;> simp [lockingUids, List.filter_cons, e]

theorem mem_lockingUids : uid ∈ lockingUids hs ↔ (uid, HandlerPc.locking) ∈ hs := by
  simp only [lockingUids, List.mem_map, List.mem_filter, beq_iff_eq]
  constructor
  · rintro ⟨⟨u, p⟩, ⟨hm, rfl⟩, rfl⟩
    exact hm
  · exact fun hm => ⟨_, ⟨hm, rfl⟩, rfl⟩

theorem lockingUids_nodup (hn : (hs.map Prod.fst).Nodup) : (lockingUids hs).Nodup :=
  hn.sublist ((List.filter_sublist _).map _)

/-- Moving a handler anywhere but `Lock` takes it off the waiting list. -/
theorem lockingUids_setPc (hpc : pc ≠ .locking) :
    lockingUids (setPc hs uid pc) = (lockingUids hs).filter (· != uid) := by
  induction hs with
  | nil => rfl
  | cons h hs ih =>
    rw [setPc_cons, lockingUids_cons, lockingUids_cons]
    by_cases e : h.1 = uid
    · by_cases l : h.2 = .locking <;> simp [e, l, hpc, ih]
    · by_cases l : h.2 = .locking <;> simp [e, l, ih]

/-- Moving a handler into `Lock` puts it on the waiting list. -/
theorem lockingUids_setPc_locking (hn : (hs.map Prod.fst).Nodup) (hu : uid ∈ hs.map Prod.fst)
    (hl : uid ∉ lockingUids hs) :
    (lockingUids (setPc hs uid .locking)).Perm (uid :: lockingUids hs) := by
  induction hs with
  | nil => cases hu
  | cons h hs ih =>
    simp only [List.map_cons, List.nodup_cons] at hn
    rw [setPc_cons, lockingUids_cons, lockingUids_cons]
    by_cases e : h.1 = uid
    · subst e
      have hnl : h.2 ≠ .locking := fun l => hl (by rw [lockingUids_cons, if_pos l]; exact .head _)
      rw [if_pos rfl, setPc_of_not_mem hn.1, if_neg hnl]
      simp
    · have hu' : uid ∈ hs.map Prod.fst := (List.mem_cons.mp hu).resolve_left (Ne.symm e)
      by_cases l : h.2 = .locking
      · rw [lockingUids_cons, if_pos l] at hl
        rw [if_neg e, if_pos l, if_pos l]
        exact ((ih hn.2 hu' fun m => hl (.tail _ m)).cons _).trans (.swap _ _ _)
      · rw [lockingUids_cons, if_neg l] at hl
        rw [if_neg e, if_neg l, if_neg l]
        exact ih hn.2 hu' hl

/-- `Perm.erase`, for the `==` of `GoString` that `List.erase` finds. -/
theorem perm_erase {l₁ l₂ : List GoString} (h : l₁.Perm l₂) (a : GoString) :
    (l₁.erase a).Perm (l₂.erase a) := by
  convert h.erase a using 2 <;> exact lawful_beq_subsingleton _ _

theorem perm_erase_append {l : List GoString} {a : GoString} (h : a ∈ l) :
    l.Perm (l.erase a ++ [a]) := by
  convert (List.perm_cons_erase h).trans (@List.perm_append_comm _ [a] _) using 2
  congr!

end Table

/-! ## What each step does -/

section Steps

variable {α : Type} {admits : GoString → α → Bool} {s s' : Service α}

theorem Service.apply_push {x : α} (h : s.apply admits (.push x) = some s') :
    s.logLock = none ∧ s' = { s with queue := s.queue ++ [x], appended := s.appended ++ [x] } := by
  rcases hl : s.logLock with _ | _ <;> simp only [Service.apply, hl, reduceCtorEq] at h
  exact ⟨rfl, (Option.some.inj h).symm⟩

theorem Service.apply_watch {uid filter : GoString}
    (h : s.apply admits (.watch uid filter) = some s') :
    uid ∉ s.registered.map Prod.fst ∧
    s' = { s with structs := mapSet s.structs uid ⟨uid, filter⟩
                  handlers := s.handlers ++ [(uid, .head)]
                  registered := s.registered ++ [(uid, filter)] } := by
  simp only [Service.apply] at h
  split_ifs at h with hg
  exact ⟨hg, (Option.some.inj h).symm⟩

theorem Service.apply_check {uid : GoString} (h : s.apply admits (.check uid) = some s') :
    (uid, HandlerPc.head) ∈ s.handlers ∧
    (s.running = true ∧ s' = { s with handlers := setPc s.handlers uid .locking } ∨
      s.running = false ∧ s' = { s with structs := mapDelete s.structs uid
                                        handlers := setPc s.handlers uid .exited }) := by
  simp only [Service.apply] at h
  split_ifs at h with hg hr
  · exact ⟨hg, .inl ⟨hr, (Option.some.inj h).symm⟩⟩
  · exact ⟨hg, .inr ⟨by simpa using hr, (Option.some.inj h).symm⟩⟩

theorem Service.apply_lock {uid : GoString} (h : s.apply admits (.lock uid) = some s') :
    (uid, HandlerPc.locking) ∈ s.handlers ∧ s.logLock = none ∧
    s' = { s with logLock := some (uid, .snapshotting)
                  handlers := setPc s.handlers uid .holding } := by
  simp only [Service.apply] at h
  split_ifs at h with hg
  exact ⟨hg.1, Option.isNone_iff_eq_none.mp hg.2, (Option.some.inj h).symm⟩

theorem Service.apply_snapshot {snapshot : List LogStruct}
    (h : s.apply admits (.snapshot snapshot) = some s') :
    ∃ uid, s.logLock = some (uid, .snapshotting) ∧ snapshot.Perm (s.structs.map Prod.snd) ∧
      s' = { s with logLock := some (uid, .popping snapshot) } := by
  rcases hl : s.logLock with _ | ⟨uid, _ | _ | _⟩ <;>
    simp only [Service.apply, hl, reduceCtorEq] at h
  split_ifs at h with hg
  exact ⟨uid, rfl, hg, (Option.some.inj h).symm⟩

theorem Service.apply_pop (h : s.apply admits .pop = some s') :
    ∃ uid snapshot, s.logLock = some (uid, .popping snapshot) ∧
      (s.queue = [] ∧ s' = { s with logLock := none, handlers := setPc s.handlers uid .head } ∨
        ∃ x q, s.queue = x :: q ∧
          s' = { s with queue := q, popped := s.popped ++ [x]
                        logLock := some (uid, .sending snapshot x snapshot) }) := by
  rcases hl : s.logLock with _ | ⟨uid, _ | snapshot | _⟩ <;>
    rcases hq : s.queue with _ | ⟨x, q⟩ <;> simp only [Service.apply, hl, hq, reduceCtorEq] at h
  · exact ⟨uid, snapshot, rfl, .inl ⟨rfl, (Option.some.inj h).symm⟩⟩
  · exact ⟨uid, snapshot, rfl, .inr ⟨x, q, rfl, (Option.some.inj h).symm⟩⟩

theorem Service.apply_send (h : s.apply admits .send = some s') :
    ∃ uid snapshot x,
      (s.logLock = some (uid, .sending snapshot x []) ∧
        s' = { s with logLock := some (uid, .popping snapshot) }) ∨
      ∃ lgs rest, s.logLock = some (uid, .sending snapshot x (lgs :: rest)) ∧
        s' = { s with sent := s.sent ++ sendOne admits lgs x
                      logLock := some (uid, .sending snapshot x rest) } := by
  rcases hl : s.logLock with _ | ⟨uid, _ | _ | ⟨snapshot, x, _ | ⟨lgs, rest⟩⟩⟩ <;>
    simp only [Service.apply, hl, reduceCtorEq] at h
  · exact ⟨uid, snapshot, x, .inl ⟨rfl, (Option.some.inj h).symm⟩⟩
  · split_ifs at h
    exact ⟨uid, snapshot, x, .inr ⟨lgs, rest, rfl, (Option.some.inj h).symm⟩⟩

theorem Service.apply_stop (h : s.apply admits .stop = some s') :
    s' = { s with running := false } :=
  (Option.some.inj h).symm

theorem Service.apply_fail {uid : GoString} (h : s.apply admits (.fail uid) = some s') :
    s' = { s with failed := s.failed ++ [uid] } :=
  (Option.some.inj h).symm

theorem Service.apply_stall {uid : GoString} (h : s.apply admits (.stall uid) = some s') :
    s' = { s with stalled := s.stalled ++ [uid] } :=
  (Option.some.inj h).symm

theorem Service.apply_resume {uid : GoString} (h : s.apply admits (.resume uid) = some s') :
    s' = { s with stalled := s.stalled.filter (· ≠ uid) } :=
  (Option.some.inj h).symm

/-- Only a push appends. -/
theorem Service.appended_of_apply {a : ServiceAction α} (h : s.apply admits a = some s')
    (ha : ∀ x, a ≠ .push x) : s'.appended = s.appended := by
  cases a with
  | push x => exact absurd rfl (ha x)
  | watch => rw [(Service.apply_watch h).2]
  | check =>
    obtain ⟨-, ⟨-, rfl⟩ | ⟨-, rfl⟩⟩ := Service.apply_check h <;> rfl
  | lock => rw [(Service.apply_lock h).2.2]
  | snapshot => obtain ⟨_, -, -, rfl⟩ := Service.apply_snapshot h; rfl
  | pop => obtain ⟨_, _, -, ⟨-, rfl⟩ | ⟨_, _, -, rfl⟩⟩ := Service.apply_pop h <;> rfl
  | send => obtain ⟨_, _, _, ⟨-, rfl⟩ | ⟨_, _, -, rfl⟩⟩ := Service.apply_send h <;> rfl
  | stop => rw [Service.apply_stop h]
  | fail => rw [Service.apply_fail h]
  | stall => rw [Service.apply_stall h]
  | resume => rw [Service.apply_resume h]

end Steps

/-! ## The handlers' bookkeeping -/

section Invariant

variable {α : Type} {admits : GoString → α → Bool} {s s' : Service α}

/-- What every reachable state keeps of its handlers. -/
structure Service.Inv (s : Service α) : Prop where
  /-- Handlers draw distinct uids. -/
  keys_nodup : (s.handlers.map Prod.fst).Nodup
  /-- Each handler registered under its uid. -/
  keys_registered : ∀ u ∈ s.handlers.map Prod.fst, u ∈ s.registered.map Prod.fst
  /-- A handler that has not returned has its entry in the table. -/
  live : ∀ u p, (u, p) ∈ s.handlers → p ≠ .exited → u ∈ s.structs.map Prod.fst
  /-- A handler is at `holding` exactly when it holds `LogLock`. -/
  holding : ∀ u, (u, HandlerPc.holding) ∈ s.handlers ↔ ∃ c, s.logLock = some (u, c)

theorem Service.inv_init : (Service.init α).Inv :=
  ⟨List.nodup_nil, nofun, nofun, fun _ => ⟨nofun, fun ⟨_, h⟩ => nomatch h⟩⟩

theorem mem_keys_mapSet {β : Type} {m : List (GoString × β)} {k u : GoString} {v : β} :
    u ∈ (mapSet m k v).map Prod.fst ↔ (u ∈ m.map Prod.fst ∧ u ≠ k) ∨ u = k := by
  simp only [List.mem_map, mem_mapSet]
  constructor
  · rintro ⟨e, ⟨he, hk⟩ | rfl, rfl⟩
    · exact .inl ⟨⟨e, he, rfl⟩, hk⟩
    · exact .inr rfl
  · rintro (⟨⟨e, he, rfl⟩, hk⟩ | rfl)
    · exact ⟨e, .inl ⟨he, hk⟩, rfl⟩
    · exact ⟨(u, v), .inr rfl, rfl⟩

theorem mem_keys_mapDelete {β : Type} {m : List (GoString × β)} {k u : GoString} :
    u ∈ (mapDelete m k).map Prod.fst ↔ u ∈ m.map Prod.fst ∧ u ≠ k := by
  simp only [List.mem_map, mem_mapDelete]
  constructor
  · rintro ⟨e, ⟨he, hk⟩, rfl⟩
    exact ⟨⟨e, he, rfl⟩, hk⟩
  · rintro ⟨⟨e, he, rfl⟩, hk⟩
    exact ⟨e, ⟨he, hk⟩, rfl⟩

/-- The holder moving within its critical section keeps the lock's holder. -/
theorem same_holder {uid : GoString} {c c' : Critical α} (hl : s.logLock = some (uid, c))
    (u : GoString) : (∃ d, some (uid, c') = some (u, d)) ↔ ∃ d, s.logLock = some (u, d) := by
  simp [hl]

namespace Service.Inv

variable (hs : s.Inv)
include hs

/-- Moving a handler keeps the uids. -/
theorem keys_setPc (uid : GoString) (p' : HandlerPc) :
    ((setPc s.handlers uid p').map Prod.fst).Nodup ∧
      ∀ u ∈ (setPc s.handlers uid p').map Prod.fst, u ∈ s.registered.map Prod.fst := by
  rw [map_fst_setPc]
  exact ⟨hs.keys_nodup, hs.keys_registered⟩

/-- The place of a handler that is not at `holding` is not the lock holder's. -/
theorem not_holder {uid : GoString} {p : HandlerPc} (hk : (uid, p) ∈ s.handlers)
    (hp : p ≠ .holding) {c : Critical α} : s.logLock ≠ some (uid, c) := fun hl =>
  hp (pc_unique hs.keys_nodup hk ((hs.holding uid).mpr ⟨c, hl⟩))

/-- Moving a handler from a place other than `holding` or `exited` to `p'`, the table kept and
the lock as it is, keeps the bookkeeping when `p'` is not `holding`. -/
theorem move {uid : GoString} {p p' : HandlerPc} (hk : (uid, p) ∈ s.handlers)
    (hp : p ≠ .holding) (hpe : p ≠ .exited) (hp' : p' ≠ .holding) :
    ({ s with handlers := setPc s.handlers uid p' } : Service α).Inv := by
  refine ⟨(hs.keys_setPc uid p').1, (hs.keys_setPc uid p').2, ?_, fun u => ?_⟩
  · intro u q hq hqe
    rcases mem_setPc.mp hq with ⟨hq, -⟩ | ⟨e, -⟩
    · exact hs.live u q hq hqe
    · obtain ⟨rfl, -⟩ := Prod.mk.inj e
      exact hs.live _ p hk hpe
  · rw [← hs.holding u, mem_setPc]
    constructor
    · rintro (⟨hq, -⟩ | ⟨e, -⟩)
      · exact hq
      · exact absurd (Prod.mk.inj e).2 (Ne.symm hp')
    · intro hq
      refine .inl ⟨hq, fun e => hp ?_⟩
      subst e
      exact pc_unique hs.keys_nodup hk hq

/-- A step that keeps the handlers, the registrations, the table and the lock's holder keeps the
bookkeeping. -/
theorem relock {s' : Service α} (hh : s'.handlers = s.handlers)
    (hr : s'.registered = s.registered) (hst : s'.structs = s.structs)
    (hl : ∀ u, (∃ c, s'.logLock = some (u, c)) ↔ ∃ c, s.logLock = some (u, c)) : s'.Inv := by
  refine ⟨hh ▸ hs.keys_nodup, hh ▸ hr ▸ hs.keys_registered, hh ▸ hst ▸ hs.live, fun u => ?_⟩
  rw [hh, hl]
  exact hs.holding u

/-- Registering a fresh uid keeps the bookkeeping. -/
theorem watch {uid filter : GoString} (hf : uid ∉ s.registered.map Prod.fst) :
    ({ s with structs := mapSet s.structs uid ⟨uid, filter⟩
              handlers := s.handlers ++ [(uid, .head)]
              registered := s.registered ++ [(uid, filter)] } : Service α).Inv := by
  have hnot : uid ∉ s.handlers.map Prod.fst := fun hm => hf (hs.keys_registered uid hm)
  refine ⟨?_, fun u hu => ?_, fun u q hq hqe => ?_, fun u => ?_⟩
  · rw [List.map_append]
    exact hs.keys_nodup.append (List.nodup_singleton _) (List.disjoint_singleton.mpr hnot)
  · simp only [List.map_append, List.map_cons, List.map_nil, List.mem_append,
      List.mem_singleton] at hu ⊢
    exact hu.imp (hs.keys_registered u) id
  · rcases List.mem_append.mp hq with hq | hq
    · exact mem_keys_mapSet.mpr
        (.inl ⟨hs.live u q hq hqe, fun e => hnot (e ▸ List.mem_map_of_mem Prod.fst hq)⟩)
    · obtain ⟨rfl, -⟩ := Prod.mk.inj (List.mem_singleton.mp hq)
      exact mem_keys_mapSet.mpr (.inr rfl)
  · rw [← hs.holding u]
    simp

/-- A handler finding `Running` false returns and removes its entry. -/
theorem exit {uid : GoString} (hk : (uid, HandlerPc.head) ∈ s.handlers) :
    ({ s with structs := mapDelete s.structs uid
              handlers := setPc s.handlers uid .exited } : Service α).Inv := by
  have h := hs.move hk (by decide) (by decide) (show HandlerPc.exited ≠ .holding by decide)
  refine ⟨h.keys_nodup, h.keys_registered, fun u q hq hqe => ?_, h.holding⟩
  rcases mem_setPc.mp hq with ⟨hq, hu⟩ | ⟨e, -⟩
  · exact mem_keys_mapDelete.mpr ⟨hs.live u q hq hqe, hu⟩
  · exact absurd (Prod.mk.inj e).2 hqe

/-- A handler taking the free `LogLock` becomes its holder. -/
theorem lock {uid : GoString} (hk : (uid, HandlerPc.locking) ∈ s.handlers)
    (hl : s.logLock = none) :
    ({ s with logLock := some (uid, .snapshotting)
              handlers := setPc s.handlers uid .holding } : Service α).Inv := by
  refine ⟨(hs.keys_setPc uid _).1, (hs.keys_setPc uid _).2, fun u q hq hqe => ?_, fun u => ?_⟩
  · rcases mem_setPc.mp hq with ⟨hq, -⟩ | ⟨e, -⟩
    · exact hs.live u q hq hqe
    · obtain ⟨rfl, -⟩ := Prod.mk.inj e
      exact hs.live _ _ hk (by decide)
  · have hno : (u, HandlerPc.holding) ∉ s.handlers := fun hm => by
      obtain ⟨c, hc⟩ := (hs.holding u).mp hm
      rw [hl] at hc; cases hc
    rw [mem_setPc]
    constructor
    · rintro (⟨hm, -⟩ | ⟨e, -⟩)
      · exact absurd hm hno
      · exact ⟨_, by rw [(Prod.mk.inj e).1]⟩
    · rintro ⟨c, e⟩
      obtain ⟨rfl, -⟩ := Prod.mk.inj (Option.some.inj e)
      exact .inr ⟨rfl, List.mem_map_of_mem Prod.fst hk⟩

/-- The holder finding the queue empty unlocks and goes back to the check of `Running`. -/
theorem unlock {uid : GoString} {c : Critical α} (hl : s.logLock = some (uid, c)) :
    ({ s with logLock := none, handlers := setPc s.handlers uid .head } : Service α).Inv := by
  have hk := (hs.holding uid).mpr ⟨c, hl⟩
  refine ⟨(hs.keys_setPc uid _).1, (hs.keys_setPc uid _).2, fun u q hq hqe => ?_, fun u => ?_⟩
  · rcases mem_setPc.mp hq with ⟨hq, -⟩ | ⟨e, -⟩
    · exact hs.live u q hq hqe
    · obtain ⟨rfl, -⟩ := Prod.mk.inj e
      exact hs.live _ _ hk (by decide)
  · rw [mem_setPc]
    constructor
    · rintro (⟨hm, hu⟩ | ⟨e, -⟩)
      · obtain ⟨d, hd⟩ := (hs.holding u).mp hm
        rw [hl] at hd
        exact absurd (Prod.mk.inj (Option.some.inj hd)).1.symm hu
      · cases (Prod.mk.inj e).2
    · rintro ⟨_, e⟩
      cases e

variable {admits : GoString → α → Bool}

/-- **Every step keeps the bookkeeping.** -/
theorem apply {a : ServiceAction α} (h : s.apply admits a = some s') : s'.Inv := by
  cases a with
  | push x =>
    obtain ⟨-, rfl⟩ := Service.apply_push h
    exact hs.relock rfl rfl rfl fun _ => Iff.rfl
  | watch uid filter =>
    obtain ⟨hf, rfl⟩ := Service.apply_watch h
    exact hs.watch hf
  | check uid =>
    obtain ⟨hk, ⟨-, rfl⟩ | ⟨-, rfl⟩⟩ := Service.apply_check h
    · exact hs.move hk (by decide) (by decide) (by decide)
    · exact hs.exit hk
  | lock uid =>
    obtain ⟨hk, hl, rfl⟩ := Service.apply_lock h
    exact hs.lock hk hl
  | snapshot snapshot =>
    obtain ⟨uid, hl, -, rfl⟩ := Service.apply_snapshot h
    exact hs.relock rfl rfl rfl (same_holder hl)
  | pop =>
    obtain ⟨uid, snapshot, hl, ⟨-, rfl⟩ | ⟨x, q, -, rfl⟩⟩ := Service.apply_pop h
    · exact hs.unlock hl
    · exact hs.relock rfl rfl rfl (same_holder hl)
  | send =>
    obtain ⟨uid, snapshot, x, ⟨hl, rfl⟩ | ⟨lgs, rest, hl, rfl⟩⟩ := Service.apply_send h
    all_goals exact hs.relock rfl rfl rfl (same_holder hl)
  | stop =>
    obtain rfl := Service.apply_stop h
    exact hs.relock rfl rfl rfl fun _ => Iff.rfl
  | fail uid =>
    obtain rfl := Service.apply_fail h
    exact hs.relock rfl rfl rfl fun _ => Iff.rfl
  | stall uid =>
    obtain rfl := Service.apply_stall h
    exact hs.relock rfl rfl rfl fun _ => Iff.rfl
  | resume uid =>
    obtain rfl := Service.apply_resume h
    exact hs.relock rfl rfl rfl fun _ => Iff.rfl

end Service.Inv

end Invariant

/-! ## The abstraction -/

section Abstraction

variable {α : Type} (admits : GoString → α → Bool)

/-- The sends of the range loop over `snapshot` for the popped `x`. -/
def sendsFor (snapshot : List LogStruct) (x : α) : List (GoString × α) :=
  snapshot.filterMap fun lgs => if admits lgs.filter x then some (lgs.client, x) else none

/-- Whether the holder has taken its snapshot, so that its drain is under way. -/
def Critical.taken : Critical α → Bool
  | .snapshotting => false
  | _ => true

/-- What the holder has still to send, `q` being what is left in the queue. -/
def Critical.pending (q : List α) : Critical α → List (GoString × α)
  | .snapshotting => []
  | .popping snapshot => drainSends admits snapshot q
  | .sending snapshot x rest => sendsFor admits rest x ++ drainSends admits snapshot q

/-- Whether a drain is under way. -/
def Service.taken (s : Service α) : Bool :=
  match s.logLock with
  | some (_, c) => c.taken
  | none => false

/-- What the drain under way has still to send. -/
def Service.pending (s : Service α) : List (GoString × α) :=
  match s.logLock with
  | some (_, c) => c.pending admits s.queue
  | none => []

/-- The handlers past their check of `Running` and not yet past their snapshot. -/
def Service.entered (s : Service α) : List GoString :=
  lockingUids s.handlers ++
    match s.logLock with
    | some (u, .snapshotting) => [u]
    | _ => []

/-- The atomic-drain state a statement-level state stands for, `inBody` listing the handlers
`Service.entered` lists, in the order the atomic model keeps them. A drain under way has happened:
the queue is empty, what is left of it popped, and what the holder has still to send sent. -/
def Service.abs (s : Service α) (inBody : List GoString) : Feed α where
  queue := if s.taken then [] else s.queue
  structs := s.structs
  running := s.running
  inBody := inBody
  failed := s.failed
  appended := s.appended
  popped := if s.taken then s.popped ++ s.queue else s.popped
  sent := s.sent ++ s.pending admits
  registered := s.registered

theorem drainSends_cons (snapshot : List LogStruct) (x : α) (q : List α) :
    drainSends admits snapshot (x :: q) =
      sendsFor admits snapshot x ++ drainSends admits snapshot q :=
  rfl

theorem sendsFor_cons (lgs : LogStruct) (rest : List LogStruct) (x : α) :
    sendsFor admits (lgs :: rest) x = sendOne admits lgs x ++ sendsFor admits rest x := by
  by_cases hx : admits lgs.filter x <;> simp [sendsFor, sendOne, hx]

end Abstraction

/-! ## One step at a time -/

section Simulation

variable {α : Type} {admits : GoString → α → Bool} {s s' : Service α}

namespace Service.Inv

variable (hs : s.Inv)
include hs

/-- A handler at the check of `Running` is not between that check and its snapshot. -/
theorem not_entered_of_head {uid : GoString} (hk : (uid, HandlerPc.head) ∈ s.handlers) :
    uid ∉ s.entered := by
  unfold Service.entered
  rw [List.mem_append, mem_lockingUids]
  rintro (hm | hm)
  · cases pc_unique hs.keys_nodup hk hm
  · split at hm
    · obtain rfl := List.mem_singleton.mp hm
      exact hs.not_holder hk (by decide) ‹_›
    · cases hm

/-- Moving a handler that is not waiting in `Lock` to a place other than `Lock` keeps the
waiting list. -/
theorem lockingUids_move {uid : GoString} {p p' : HandlerPc} (hk : (uid, p) ∈ s.handlers)
    (hp : p ≠ .locking) (hp' : p' ≠ .locking) :
    lockingUids (setPc s.handlers uid p') = lockingUids s.handlers := by
  rw [lockingUids_setPc hp', List.filter_eq_self]
  intro u hu
  rw [bne_iff_ne]
  rintro rfl
  exact hp (pc_unique hs.keys_nodup hk (mem_lockingUids.mp hu))

end Service.Inv

/-- **One step of the statement-level loop is one step of the atomic model, or none.** -/
theorem Service.abs_step (hs : s.Inv) {ib : List GoString} (hib : ib.Perm s.entered)
    {a : ServiceAction α} (h : s.apply admits a = some s') :
    ∃ ib', ib'.Perm s'.entered ∧ (s'.abs admits ib' = s.abs admits ib ∨
      ∃ b, (s.abs admits ib).apply admits b = some (s'.abs admits ib')) := by
  cases a with
  | push x =>
    obtain ⟨hl, rfl⟩ := Service.apply_push h
    exact ⟨ib, hib, .inr ⟨.push x, by simp [Feed.apply, Service.abs, Service.taken,
      Service.pending, hl]⟩⟩
  | watch uid filter =>
    obtain ⟨hf, rfl⟩ := Service.apply_watch h
    refine ⟨ib, ?_, .inr ⟨.watch uid filter, ?_⟩⟩
    · simpa [Service.entered, lockingUids, List.filter_append] using hib
    · simp [Feed.apply, Service.abs, Service.taken, Service.pending, hf]
  | check uid =>
    obtain ⟨hk, ⟨hr, rfl⟩ | ⟨hr, rfl⟩⟩ := Service.apply_check h
    · have hl : uid ∉ lockingUids s.handlers := fun m =>
        hs.not_entered_of_head hk (List.mem_append_left _ m)
      refine ⟨uid :: ib, ?_, .inr ⟨.enter uid, ?_⟩⟩
      · exact (hib.cons uid).trans (((lockingUids_setPc_locking hs.keys_nodup
          (List.mem_map_of_mem Prod.fst hk) hl).append_right _).symm)
      · have hs' := hs.live uid _ hk (by decide)
        have hi : uid ∉ ib := fun m => hs.not_entered_of_head hk (hib.subset m)
        simp [Feed.apply, Service.abs, Service.taken, Service.pending, hs', hi, hr]
    · refine ⟨ib, ?_, .inr ⟨.exit uid, ?_⟩⟩
      · simpa [Service.entered, hs.lockingUids_move hk (by decide)
          (show HandlerPc.exited ≠ .locking by decide)]
          using hib
      · have hs' := hs.live uid _ hk (by decide)
        have hi : uid ∉ ib := fun m => hs.not_entered_of_head hk (hib.subset m)
        simp [Feed.apply, Service.abs, Service.taken, Service.pending, hs', hi, hr]
  | lock uid =>
    obtain ⟨hk, hl, rfl⟩ := Service.apply_lock h
    refine ⟨ib, ?_, .inl ?_⟩
    · have hm := mem_lockingUids.mpr hk
      have e : (lockingUids s.handlers).filter (· != uid) = (lockingUids s.handlers).erase uid :=
        ((lockingUids_nodup hs.keys_nodup).erase_eq_filter uid).symm
      refine hib.trans ?_
      simp only [Service.entered, hl,
        lockingUids_setPc (show HandlerPc.holding ≠ .locking by decide), e, List.append_nil]
      exact perm_erase_append hm
    · simp [Service.abs, Service.taken, Service.pending, Critical.taken, Critical.pending, hl]
  | snapshot snapshot =>
    obtain ⟨uid, hl, hp, rfl⟩ := Service.apply_snapshot h
    have hu : uid ∉ lockingUids s.handlers := fun m =>
      hs.not_holder (mem_lockingUids.mp m) (by decide) hl
    refine ⟨ib.erase uid, ?_, .inr ⟨.drain uid snapshot, ?_⟩⟩
    · refine (perm_erase hib uid).trans ?_
      simp [Service.entered, hl, List.erase_append_right _ hu]
    · have hi : uid ∈ ib := hib.symm.subset (by simp [Service.entered, hl])
      simp [Feed.apply, Service.abs, Service.taken, Service.pending, Critical.taken,
        Critical.pending, hl, hi, hp]
  | pop =>
    obtain ⟨uid, snapshot, hl, ⟨hq, rfl⟩ | ⟨x, q, hq, rfl⟩⟩ := Service.apply_pop h
    · refine ⟨ib, ?_, .inl ?_⟩
      · have hk := (hs.holding uid).mpr ⟨_, hl⟩
        simpa [Service.entered, hl, hs.lockingUids_move hk (by decide)
          (show HandlerPc.head ≠ .locking by decide)]
          using hib
      · simp [Service.abs, Service.taken, Service.pending, Critical.taken, Critical.pending, hl,
          hq, drainSends]
    · refine ⟨ib, by simpa [Service.entered, hl] using hib, .inl ?_⟩
      simp [Service.abs, Service.taken, Service.pending, Critical.taken, Critical.pending, hl, hq,
        drainSends_cons]
  | send =>
    obtain ⟨uid, snapshot, x, ⟨hl, rfl⟩ | ⟨lgs, rest, hl, rfl⟩⟩ := Service.apply_send h
    · refine ⟨ib, by simpa [Service.entered, hl] using hib, .inl ?_⟩
      simp [Service.abs, Service.taken, Service.pending, Critical.taken, Critical.pending, hl,
        sendsFor]
    · refine ⟨ib, by simpa [Service.entered, hl] using hib, .inl ?_⟩
      simp [Service.abs, Service.taken, Service.pending, Critical.taken, Critical.pending, hl,
        sendsFor_cons]
  | stop =>
    obtain rfl := Service.apply_stop h
    exact ⟨ib, hib, .inr ⟨.stop, rfl⟩⟩
  | fail uid =>
    obtain rfl := Service.apply_fail h
    exact ⟨ib, hib, .inr ⟨.fail uid, rfl⟩⟩
  | stall uid =>
    obtain rfl := Service.apply_stall h
    exact ⟨ib, hib, .inl rfl⟩
  | resume uid =>
    obtain rfl := Service.apply_resume h
    exact ⟨ib, hib, .inl rfl⟩

end Simulation

/-! ## Every interleaving -/

section Runs

variable {α : Type} {admits : GoString → α → Bool} {s : Service α}

/-- Every reachable state keeps the bookkeeping and stands for a reachable atomic state. -/
theorem Service.Reachable.refines (h : s.Reachable admits) :
    s.Inv ∧ ∃ ib, ib.Perm s.entered ∧ (s.abs admits ib).Reachable admits := by
  induction h with
  | init => exact ⟨Service.inv_init, [], .nil, .init⟩
  | step _ ha ih =>
    obtain ⟨hi, ib, hib, hr⟩ := ih
    obtain ⟨ib', hib', e | ⟨b, hb⟩⟩ := Service.abs_step hi hib ha
    · exact ⟨hi.apply ha, ib', hib', e ▸ hr⟩
    · exact ⟨hi.apply ha, ib', hib', hr.step hb⟩

/-- **The statement-level handlers refine the atomic drain.** Every state that any interleaving
of the statement-level steps reaches stands for a state the atomic model reaches: the same table,
registrations, `Running` and pushes, with a drain under way taken as done at its snapshot, and the
handlers between their check of `Running` and their snapshot as the atomic model's `inBody`. -/
theorem service_refines_feed (h : s.Reachable admits) :
    ∃ ib, ib.Perm s.entered ∧ (s.abs admits ib).Reachable admits :=
  h.refines.2

/-- Handler `a` with the empty filter and handler `b` with `"policy"` register and a matched log
is pushed; `a` takes `LogLock`, snapshots the table, pops the log and sends it to its own stream;
while it is still in its range loop, handler `c` registers and `DestroyFeeder` runs. -/
def midDrainRun : List (ServiceAction PbLog) :=
  [.watch (lit "a") [], .watch (lit "b") (lit "policy"), .push { type := lit "MatchedPolicy" },
    .check (lit "a"), .lock (lit "a"), .snapshot [⟨lit "a", []⟩, ⟨lit "b", lit "policy"⟩], .pop,
    .send, .watch (lit "c") [], .stop]

/-- Where `midDrainRun` leaves the service. -/
def midDrain : Service PbLog :=
  ((Service.init PbLog).run logAdmits midDrainRun).getD (.init PbLog)

/-- The state in the middle of `a`'s drain stands for a reachable atomic state. -/
theorem service_refines_feed_midDrain :
    ∃ ib, ib.Perm midDrain.entered ∧ (midDrain.abs logAdmits ib).Reachable logAdmits :=
  service_refines_feed (Machine.reachable_of_run
    (show (Service.init PbLog).run logAdmits midDrainRun = some midDrain by decide))

/-- What a stream was sent is the start of what the abstraction has sent it. -/
theorem Service.sentTo_prefix (ib : List GoString) (u : GoString) :
    s.sentTo u <+: (s.abs admits ib).sentTo u := by
  simp only [Service.sentTo, Feed.sentTo, Service.abs, List.filter_append, List.map_append]
  exact List.prefix_append _ _

/-- The abstraction's popped items and queue are the service's. -/
theorem Service.abs_history (ib : List GoString) :
    (s.abs admits ib).popped ++ (s.abs admits ib).queue = s.popped ++ s.queue := by
  unfold Service.abs
  split <;> simp

/-- What a stream was sent is a subsequence of the push order. -/
theorem Service.Reachable.sentTo_sublist (h : s.Reachable admits) (u : GoString) :
    (s.sentTo u).Sublist s.appended := by
  obtain ⟨-, ib, -, hr⟩ := h.refines
  have hi := hr.inv
  refine (Service.sentTo_prefix ib u).sublist.trans ((hi.sent_popped u).trans ?_)
  rw [show s.appended = (s.abs admits ib).appended from rfl, hi.history]
  exact List.sublist_append_left _ _

/-- What a stream was sent its handler's filter admits. -/
theorem Service.Reachable.sentTo_admitted (h : s.Reachable admits) {u f : GoString}
    (hu : (u, f) ∈ s.registered) {x : α} (hx : x ∈ s.sentTo u) : admits f x = true := by
  obtain ⟨-, ib, -, hr⟩ := h.refines
  exact hr.inv.sentTo_admitted hu ((Service.sentTo_prefix ib u).subset hx)

end Runs

/-- **The fan-out law holds of the statement-level handlers.** In every state reached by any
interleaving of `PushLog` appends, `WatchLogs` statements, registrations, stream failures and
`DestroyFeeder`: at most one handler holds `LogLock`; every pushed log was popped once or is still
queued; what each stream was sent is a subsequence of the push order; every log sent to a stream
is admitted by its handler's filter; and while `Running` holds, every handler that registered is
still in the table. -/
theorem service_fanout {s : Service PbLog} (h : s.Reachable logAdmits) :
    (∀ u v, (u, HandlerPc.holding) ∈ s.handlers → (v, HandlerPc.holding) ∈ s.handlers → u = v) ∧
    s.appended = s.popped ++ s.queue ∧
    (∀ u, (s.sentTo u).Sublist s.appended) ∧
    (∀ u f, (u, f) ∈ s.registered → ∀ l ∈ s.sentTo u, logAdmits f l = true) ∧
    (s.running = true → ∀ p ∈ s.registered, (p.1, ⟨p.1, p.2⟩) ∈ s.structs) := by
  obtain ⟨hs, ib, -, hr⟩ := h.refines
  have hi := hr.inv
  refine ⟨fun u v hu hv => ?_, hi.history.trans (Service.abs_history ib),
    h.sentTo_sublist, fun u f hu l hl => h.sentTo_admitted hu hl, hi.running_live⟩
  obtain ⟨c, hc⟩ := (hs.holding u).mp hu
  obtain ⟨d, hd⟩ := (hs.holding v).mp hv
  exact (Prod.mk.inj (Option.some.inj (hc.symm.trans hd))).1

/-- In the middle of `a`'s drain, the pushed log is popped and `a`'s stream was sent it. -/
theorem service_fanout_midDrain :
    midDrain.appended = midDrain.popped ++ midDrain.queue ∧
      (midDrain.sentTo (lit "a")).Sublist midDrain.appended :=
  let h := service_fanout (Machine.reachable_of_run
    (show (Service.init PbLog).run logAdmits midDrainRun = some midDrain by decide))
  ⟨h.2.1, h.2.2.1 _⟩

/-! ## The holder's critical section -/

section Unlock

variable {α : Type} {admits : GoString → α → Bool} {s : Service α}

/-- The holder's steps from the check of `len(LogQueue)` to its `Unlock`: for each item queued, a
pop and a turn of the range loop per snapshot entry, with the turn that leaves it; then the check
that finds the queue empty and unlocks. -/
def drainActs (snapshot : List LogStruct) (q : List α) : List (ServiceAction α) :=
  q.flatMap (fun _ => .pop :: List.replicate (snapshot.length + 1) .send) ++ [.pop]

/-- The range loop over the rest of the snapshot runs to its end when none of its `Send`s
blocks. -/
theorem Service.run_sends {uid : GoString} {snapshot rest : List LogStruct} {x : α}
    (hl : s.logLock = some (uid, .sending snapshot x rest))
    (hf : ∀ lgs ∈ rest, admits lgs.filter x = true → s.blocks lgs.client = false) :
    s.run admits (List.replicate (rest.length + 1) .send) =
      some { s with sent := s.sent ++ sendsFor admits rest x
                    logLock := some (uid, .popping snapshot) } := by
  induction rest generalizing s with
  | nil => simp [Service.run, Service.apply, hl, sendsFor]
  | cons lgs rest ih =>
    have hb : ¬(admits lgs.filter x = true ∧ s.blocks lgs.client = true) := fun ⟨ha, hb⟩ => by
      rw [hf lgs (.head _) ha] at hb; cases hb
    have h₁ : s.apply admits .send =
        some { s with sent := s.sent ++ sendOne admits lgs x
                      logLock := some (uid, .sending snapshot x rest) } := by
      simp only [Service.apply, hl, if_neg hb]
    rw [List.length_cons, List.replicate_succ, Service.run, Machine.run_cons_of_step h₁,
      ← Service.run, ih rfl]
    · simp [sendsFor_cons]
    · exact fun l hl' => hf l (.tail _ hl')

/-- The drain loop runs to its end and does the atomic drain when none of its `Send`s blocks. -/
theorem Service.run_drainActs {uid : GoString} {snapshot : List LogStruct}
    (hl : s.logLock = some (uid, .popping snapshot))
    (hf : ∀ x ∈ s.queue, ∀ lgs ∈ snapshot, admits lgs.filter x = true →
      s.blocks lgs.client = false) :
    s.run admits (drainActs snapshot s.queue) =
      some { s with queue := [], popped := s.popped ++ s.queue
                    sent := s.sent ++ drainSends admits snapshot s.queue
                    logLock := none, handlers := setPc s.handlers uid .head } := by
  generalize hq : s.queue = q at hf
  induction q generalizing s with
  | nil =>
    simp [drainActs, Service.run, Service.apply, hl, hq, drainSends]
  | cons x q ih =>
    have h₁ : s.apply admits .pop =
        some { s with queue := q, popped := s.popped ++ [x]
                      logLock := some (uid, .sending snapshot x snapshot) } := by
      simp [Service.apply, hl, hq]
    rw [drainActs, List.flatMap_cons, List.append_assoc, List.cons_append, Service.run,
      Machine.run_cons_of_step h₁, Machine.run_append, ← Service.run, Service.run_sends rfl,
      Option.some_bind, ← Service.run, ← drainActs, ih rfl rfl]
    · simp [drainSends_cons]
    · exact fun y hy => hf y (.tail _ hy)
    · exact hf x (.head _)

end Unlock

end KubeArmor.Feeder
