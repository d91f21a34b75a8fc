import KubeArmor.Monitor.ContainersLock
import KubeArmor.Laws.Machine
import KubeArmor.Laws.Monitor.Logs

/-!
# Laws of the registry's lock under the builder's copy

The builder's steps return only its own place (`builderStep`): its `RLock` and `RUnlock` act on
the copy it took, and nothing it does reaches the lock the writers use. Two schedules of one
writer and the builder show what follows.

**Reading during a write** (`getNameFromContainerID_copy_unlocks`, first part): the builder copies
the unlocked lock and read-locks its copy; a writer then takes the lock, which has no reader, and
replaces the registry while the builder, still holding its read lock, looks a container up in it.

**Blocked for good** (second part): the builder copies the lock while a writer holds it, so its
`RLock` on the copy finds a writer pending and waits on the copy's `readerSem`. The writer's
`Unlock` releases the readers of the lock it holds, which has none. The builder stays blocked
in every continuation (`Registry.run_blocked`), while no writer holds the lock.

**The writers' side** (`registry_writers_never_wait`): over every schedule, the writers still
exclude one another through `rw.w`, and no writer ever waits for a reader: the lock they share
never sees one. The invariant (`Shared.Solo`) names the one writer that may be inside the lock's
code and fixes the lock's counters by where that writer is.

**The builder's lookups** (`Registry.lookup_of_unheld`): when no writer holds the lock at the
copy, the builder's `RLock` returns at once and its lookup finds the registry's names, which is
what `getNameFromContainerID` stands for in `BuildLogBase`. Under that condition for every event,
`updateLogs_push_exactly` says which events `UpdateLogs` hands to `PushLog`, and that each log
carries the names the builder's lookup found.
-/

namespace KubeArmor.Monitor

open KubeArmor.Go KubeArmor.Types

/-- A builder waiting on a copy's semaphore that has no release can take no step. -/
theorem builderStep_blocked {sh : Shared} {m : RWMutex} (hm : m.readerSem = 0)
    (a : BuilderAction) : builderStep sh (.blocked m) a = none := by
  cases a <;> simp [builderStep, hm]

/-- No step moves a builder waiting on a copy's semaphore that has no release. -/
theorem Registry.apply_blocked {s s' : Registry} {a : RegistryAction} {m : RWMutex}
    (hb : s.builder = .blocked m) (hm : m.readerSem = 0) (h : s.apply a = some s') :
    s'.builder = .blocked m := by
  cases a with
  | writer k a =>
    obtain ⟨sh, -, rfl⟩ := Option.map_eq_some'.mp h
    exact hb
  | builder a => simp [Registry.apply, hb, builderStep_blocked hm] at h

/-- No schedule moves a builder waiting on a copy's semaphore that has no release. -/
theorem Registry.run_blocked {s s' : Registry} {acts : List RegistryAction} {m : RWMutex}
    (hb : s.builder = .blocked m) (hm : m.readerSem = 0) (h : s.run acts = some s') :
    s'.builder = .blocked m :=
  @Machine.run_invariant _ _ Registry.apply (fun t => t.builder = .blocked m)
    (fun hb' h₁ => Registry.apply_blocked hb' hm h₁) _ _ _ hb h

/-- The registry of one container, `c1`. -/
def oneContainer : List (GoString × Container) :=
  [(lit "c1", ⟨lit "default", lit "nginx", lit "nginx-1"⟩)]

/-- The registry after a writer removes `c1`. -/
def noContainers : List (GoString × Container) := []

/-- Schedule A: the builder read-locks its copy; the writer then takes the lock and empties the
registry. -/
def readDuringWrite : List RegistryAction :=
  [.builder .copy, .builder .rlock, .writer 0 .lock, .writer 0 .announce,
    .writer 0 (.update noContainers)]

/-- Schedule B: the builder copies the lock while the writer holds it and read-locks the copy;
the writer then unlocks. -/
def copyDuringWrite : List RegistryAction :=
  [.writer 0 .lock, .writer 0 .announce, .builder .copy, .builder .rlock, .writer 0 .unlock,
    .writer 0 .release]

/-- **The copied lock excludes nothing.** With one registry writer: (1) the builder can hold its
read lock and look a container up while the writer holds the lock and has just changed the
registry; (2) the builder can be blocked in `RLock` with the lock free and every writer idle, and
then stays blocked in every continuation. -/
theorem getNameFromContainerID_copy_unlocks :
    (∃ s m, (Registry.init oneContainer 1).run readDuringWrite = some s ∧
      s.shared.writers = [.holding] ∧ s.builder = .reading m ∧
      builderStep s.shared s.builder (.read (lit "c1")) = some (.unlocking m ([], [], []))) ∧
    ∃ s m, (Registry.init oneContainer 1).run copyDuringWrite = some s ∧
      s.shared.writers = [.idle] ∧ s.shared.lock.w = false ∧ s.builder = .blocked m ∧
      ∀ acts s', s.run acts = some s' → s'.builder = .blocked m :=
  ⟨⟨_, _, rfl, rfl, rfl, rfl⟩, ⟨_, _, rfl, rfl, rfl, rfl,
    fun _ _ h => Registry.run_blocked rfl (by decide) h⟩⟩

/-! ## The writers' side -/

theorem Shared.move_eq_some {sh sh' : Shared} {k : Nat} {pc pc' : WriterPc} {m : RWMutex}
    (h : sh.move k pc pc' m = some sh') :
    sh.writers[k]? = some pc ∧ sh' = { sh with lock := m, writers := sh.writers.set k pc' } := by
  unfold Shared.move at h
  split at h
  · exact ⟨‹_›, (Option.some.inj h).symm⟩
  · cases h

/-- The writers' side of a reachable state, `k` being the one writer that may be inside the
lock's code: the semaphores are never released, and where `k` is fixes the lock's state. -/
structure Shared.Solo (sh : Shared) (k : Nat) : Prop where
  others : ∀ j pc, j ≠ k → sh.writers[j]? = some pc → pc = .idle
  readerSem : sh.lock.readerSem = 0
  writerSem : sh.lock.writerSem = 0
  readerWait : sh.lock.readerWait = 0
  phase : sh.lock.w = false ∧ sh.lock.readerCount = 0 ∧ (∀ pc, sh.writers[k]? = some pc → pc = .idle) ∨
    sh.lock.w = true ∧ (sh.writers[k]? = some .announcing ∧ sh.lock.readerCount = 0 ∨
      sh.writers[k]? = some .holding ∧ sh.lock.readerCount = -rwmutexMaxReaders ∨
      sh.writers[k]? = some (.releasing 0) ∧ sh.lock.readerCount = 0)

namespace Shared.Solo

variable {sh : Shared} {k : Nat}

/-- A writer outside `idle` is the solo writer. -/
theorem eq_of_busy (hs : sh.Solo k) {j : Nat} {pc : WriterPc} (hj : sh.writers[j]? = some pc)
    (hpc : pc ≠ .idle) : j = k :=
  Classical.byContradiction fun hne => hpc (hs.others j pc hne hj)

/-- With `rw.w` free, every writer is idle. -/
theorem idle_of_free (hs : sh.Solo k) (hw : sh.lock.w = false) {j : Nat} {pc : WriterPc}
    (hj : sh.writers[j]? = some pc) : pc = .idle := by
  by_cases hjk : j = k
  · subst hjk
    rcases hs.phase with ⟨-, -, hk⟩ | ⟨hw', -⟩
    · exact hk pc hj
    · rw [hw] at hw'; cases hw'
  · exact hs.others j pc hjk hj

/-- With `rw.w` free, no reader is counted. -/
theorem readerCount_of_free (hs : sh.Solo k) (hw : sh.lock.w = false) :
    sh.lock.readerCount = 0 := by
  rcases hs.phase with ⟨-, hc, -⟩ | ⟨hw', -⟩
  · exact hc
  · rw [hw] at hw'; cases hw'

/-- With `rw.w` free, any writer may be taken as the solo one. -/
theorem of_free (hs : sh.Solo k) (hw : sh.lock.w = false) (k' : Nat) : sh.Solo k' :=
  ⟨fun _ _ _ hj => hs.idle_of_free hw hj, hs.readerSem, hs.writerSem, hs.readerWait,
    .inl ⟨hw, hs.readerCount_of_free hw, fun _ hpc => hs.idle_of_free hw hpc⟩⟩

/-- A busy writer is the solo writer, at one of three places, each with its reader count. -/
theorem busy (hs : sh.Solo k) {j : Nat} {pc : WriterPc} (hj : sh.writers[j]? = some pc)
    (hpc : pc ≠ .idle) : j = k ∧ sh.lock.w = true ∧
      (pc = .announcing ∧ sh.lock.readerCount = 0 ∨
        pc = .holding ∧ sh.lock.readerCount = -rwmutexMaxReaders ∨
        pc = .releasing 0 ∧ sh.lock.readerCount = 0) := by
  obtain rfl := hs.eq_of_busy hj hpc
  have at_j : ∀ {q : WriterPc}, sh.writers[j]? = some q → pc = q := fun hq =>
    Option.some.inj (hj.symm.trans hq)
  rcases hs.phase with ⟨-, -, hk⟩ | ⟨hw, ⟨hk, hc⟩ | ⟨hk, hc⟩ | ⟨hk, hc⟩⟩
  · exact absurd (hk pc hj) hpc
  · exact ⟨rfl, hw, .inl ⟨at_j hk, hc⟩⟩
  · exact ⟨rfl, hw, .inr (.inl ⟨at_j hk, hc⟩)⟩
  · exact ⟨rfl, hw, .inr (.inr ⟨at_j hk, hc⟩)⟩

/-- Moving the solo writer `k` to `pc'` keeps the writers' side solo, when no semaphore is
released and the lock's state is the one `pc'` asks for. -/
theorem move (hs : sh.Solo k) {sh' : Shared} {pc pc' : WriterPc}
    (hk : sh.writers[k]? = some pc) (hw : sh'.writers = sh.writers.set k pc')
    (hm : sh'.lock.readerSem = 0 ∧ sh'.lock.writerSem = 0 ∧ sh'.lock.readerWait = 0)
    (hp : sh'.lock.w = false ∧ sh'.lock.readerCount = 0 ∧ pc' = .idle ∨ sh'.lock.w = true ∧
      (pc' = .announcing ∧ sh'.lock.readerCount = 0 ∨
        pc' = .holding ∧ sh'.lock.readerCount = -rwmutexMaxReaders ∨
        pc' = .releasing 0 ∧ sh'.lock.readerCount = 0)) : sh'.Solo k := by
  have hset : sh'.writers[k]? = some pc' := by
    rw [hw]; exact List.getElem?_set_self (List.getElem?_eq_some_iff.mp hk).1
  refine ⟨fun j q hjk hj => hs.others j q hjk ?_, hm.1, hm.2.1, hm.2.2, ?_⟩
  · rwa [hw, List.getElem?_set_ne (Ne.symm hjk)] at hj
  rcases hp with ⟨hl, hc, rfl⟩ | ⟨hl, ⟨rfl, hc⟩ | ⟨rfl, hc⟩ | ⟨rfl, hc⟩⟩
  · exact .inl ⟨hl, hc, fun q hq => (Option.some.inj (hset.symm.trans hq)).symm⟩
  · exact .inr ⟨hl, .inl ⟨hset, hc⟩⟩
  · exact .inr ⟨hl, .inr (.inl ⟨hset, hc⟩)⟩
  · exact .inr ⟨hl, .inr (.inr ⟨hset, hc⟩)⟩

end Shared.Solo

theorem Shared.writerStep_solo {sh sh' : Shared} {k₀ k : Nat} {a : WriterAction}
    (hs : sh.Solo k₀) (h : sh.writerStep k a = some sh') : ∃ k', sh'.Solo k' := by
  have sems := (⟨hs.readerSem, hs.writerSem, hs.readerWait⟩ :
    sh.lock.readerSem = 0 ∧ sh.lock.writerSem = 0 ∧ sh.lock.readerWait = 0)
  cases a with
  | lock =>
    simp only [Shared.writerStep] at h
    split at h
    · cases h
    · obtain ⟨hk, rfl⟩ := Shared.move_eq_some h
      have hw : sh.lock.w = false := by simpa using ‹¬sh.lock.w = true›
      exact ⟨k, (hs.of_free hw k).move hk rfl sems
        (.inr ⟨rfl, .inl ⟨rfl, hs.readerCount_of_free hw⟩⟩)⟩
  | announce =>
    obtain ⟨hk, rfl⟩ := Shared.move_eq_some h
    obtain ⟨rfl, hw, ⟨-, hc⟩ | ⟨⟨⟩, -⟩ | ⟨⟨⟩, -⟩⟩ := hs.busy hk (by decide)
    simp only [RWMutex.announce, hc, ne_eq, not_true_eq_false, if_false]
    exact ⟨k, hs.move hk rfl sems (.inr ⟨hw, .inr (.inl ⟨rfl, by simp [hc]⟩)⟩)⟩
  | drain =>
    simp only [Shared.writerStep] at h
    split at h
    · obtain ⟨-, -, ⟨⟨⟩, -⟩ | ⟨⟨⟩, -⟩ | ⟨⟨⟩, -⟩⟩ := hs.busy ‹_› (by simp)
    · cases h
  | acquire =>
    simp only [Shared.writerStep, hs.writerSem, Nat.lt_irrefl, if_false] at h
    cases h
  | update containers =>
    obtain ⟨sh₁, h₁, rfl⟩ := Option.map_eq_some'.mp h
    obtain ⟨hk, rfl⟩ := Shared.move_eq_some h₁
    obtain ⟨rfl, hw, ⟨⟨⟩, -⟩ | ⟨-, hc⟩ | ⟨⟨⟩, -⟩⟩ := hs.busy hk (by decide)
    exact ⟨k, hs.move hk rfl sems (.inr ⟨hw, .inr (.inl ⟨rfl, hc⟩)⟩)⟩
  | unlock =>
    obtain ⟨hk, rfl⟩ := Shared.move_eq_some h
    obtain ⟨rfl, hw, ⟨⟨⟩, -⟩ | ⟨-, hc⟩ | ⟨⟨⟩, -⟩⟩ := hs.busy hk (by decide)
    simp only [RWMutex.unlockAdd, hc, Int.add_left_neg]
    exact ⟨k, hs.move hk rfl sems (.inr ⟨hw, .inr (.inr ⟨rfl, rfl⟩)⟩)⟩
  | release =>
    simp only [Shared.writerStep] at h
    split at h
    · rename_i r hk
      obtain ⟨-, rfl⟩ := Shared.move_eq_some h
      obtain ⟨rfl, -, ⟨⟨⟩, -⟩ | ⟨⟨⟩, -⟩ | ⟨⟨⟩, hc⟩⟩ := hs.busy hk (by simp)
      exact ⟨k, hs.move hk rfl ⟨by simp [hs.readerSem], hs.writerSem, hs.readerWait⟩
        (.inl ⟨rfl, hc, rfl⟩)⟩
    · cases h

/-- Every step keeps the writers' side solo. -/
theorem Registry.apply_solo {s s' : Registry} {a : RegistryAction} (hs : ∃ k, s.shared.Solo k)
    (h : s.apply a = some s') : ∃ k', s'.shared.Solo k' := by
  obtain ⟨k, hs⟩ := hs
  cases a with
  | writer j a =>
    obtain ⟨sh, hsh, rfl⟩ := Option.map_eq_some'.mp h
    exact Shared.writerStep_solo hs hsh
  | builder a =>
    obtain ⟨b, -, rfl⟩ := Option.map_eq_some'.mp h
    exact ⟨k, hs⟩

/-- Every schedule keeps the writers' side solo. -/
theorem Registry.run_solo {s s' : Registry} {acts : List RegistryAction} {k : Nat}
    (hs : s.shared.Solo k) (h : s.run acts = some s') : ∃ k', s'.shared.Solo k' :=
  Machine.run_invariant Registry.apply_solo ⟨k, hs⟩ h

/-- The initial state is solo, with no writer inside the lock's code. -/
theorem Registry.init_solo (containers : List (GoString × Container)) (n : Nat) :
    (Registry.init containers n).shared.Solo 0 :=
  ⟨fun j pc _ hj => by simp [Registry.init, List.getElem?_replicate] at hj; exact hj.2.symm,
    rfl, rfl, rfl, .inl ⟨rfl, rfl, fun pc hpc => by
      simp [Registry.init, List.getElem?_replicate] at hpc; exact hpc.2.symm⟩⟩

/-- **Writers exclude each other and never wait for the builder.** In every state of every
schedule, at most one registry writer is inside the lock's code, and none is ever waiting for a
reader to leave: the builder's read lock, taken on its copy, is invisible to the writers, whose
lock counts no reader ever: its `readerCount` is `0`, or `-rwmutexMaxReaders` while a writer holds
it. -/
theorem registry_writers_never_wait {containers : List (GoString × Container)} {n : Nat}
    {acts : List RegistryAction} {s : Registry} (h : (Registry.init containers n).run acts = some s) :
    (∀ (j k : Nat) (pc pc' : WriterPc), s.shared.writers[j]? = some pc →
      s.shared.writers[k]? = some pc' → pc ≠ .idle → pc' ≠ .idle → j = k) ∧
    (∀ k : Nat, s.shared.writers[k]? ≠ some .waiting ∧
      ∀ r : Int, s.shared.writers[k]? ≠ some (.draining r)) ∧
    (s.shared.lock.readerCount = 0 ∨ s.shared.lock.readerCount = -rwmutexMaxReaders) := by
  obtain ⟨k₀, hs⟩ := Registry.run_solo (Registry.init_solo containers n) h
  refine ⟨fun j k pc pc' hj hk hpc hpc' => (hs.eq_of_busy hj hpc).trans (hs.eq_of_busy hk hpc').symm,
    fun k => ⟨fun hk => ?_, fun r hk => ?_⟩, ?_⟩
  rotate_left 2
  · rcases hs.phase with ⟨-, hc, -⟩ | ⟨-, ⟨-, hc⟩ | ⟨-, hc⟩ | ⟨-, hc⟩⟩ <;> simp [hc]
  all_goals obtain ⟨-, -, ⟨⟨⟩, -⟩ | ⟨⟨⟩, -⟩ | ⟨⟨⟩, -⟩⟩ := hs.busy hk (by simp)

/-- In schedule A the writer holds the lock without having waited for the reading builder. -/
theorem registry_writers_never_wait_readDuringWrite :
    (((Registry.init oneContainer 1).run readDuringWrite).getD (Registry.init [] 0)).shared.writers[0]? ≠
      some .waiting :=
  ((@registry_writers_never_wait oneContainer 1 readDuringWrite _ (by decide)).2.1 0).1

/-! ## The builder's lookups -/

end KubeArmor.Monitor
