import KubeArmor.Monitor.Logs
import KubeArmor.Machine

/-!
# The container registry's lock, and the copy `GetNameFromContainerID` takes of it

The registry `*mon.Containers` is guarded by `*mon.ContainersLock`, a `sync.RWMutex`: the
registry's writers (the container watchers, outside the modelled files) take it with `Lock` and
`Unlock` around each update, and the log builder reads the registry in `GetNameFromContainerID`.
That function first copies both: `Containers := *(mon.Containers)` copies a map header, so the copy
reads the live map, but `ContainersLock := *(mon.ContainersLock)` copies the mutex's struct, and
its `RLock` and `RUnlock` then act on the copy.

`RWMutex` is `sync.RWMutex` of Go 1.16 (`rwmutex.go`), its fields as the source has them and each
atomic step of its methods a transition. A semaphore is its count: `runtime_SemacquireMutex`
waits until the count is positive and takes one, `runtime_Semrelease` adds one. The runtime keys
a semaphore by its address, so the copy's semaphores are its own. The race detector's hooks are
left out, and so are the `throw`s for unlocking a lock that is not held, which no modelled
goroutine does.

`Registry` is the registry, its lock, the writers and the builder. A writer runs `Lock`, then
any number of updates, then `Unlock`; the builder runs `GetNameFromContainerID` for one container
ID after another.
-/

namespace KubeArmor.Monitor

open KubeArmor.Go KubeArmor.Types

/-- `rwmutexMaxReaders`, `1 << 30`. -/
def rwmutexMaxReaders : Int := 1073741824

/-- `sync.RWMutex`: the writers' mutex `w` (held or not), the writers' and readers' semaphores,
the count of pending readers and the count of departing readers a writer waits for. -/
structure RWMutex where
  w : Bool := false
  writerSem : Nat := 0
  readerSem : Nat := 0
  readerCount : Int := 0
  readerWait : Int := 0
  deriving DecidableEq, Repr

/-! ## The writers: `Lock` and `Unlock` -/

/-- Where a registry writer is. -/
inductive WriterPc where
  /-- Outside the lock; `Lock` starts with `rw.w.Lock()`. -/
  | idle
  /-- Holds `rw.w`; next, `readerCount -= rwmutexMaxReaders`. -/
  | announcing
  /-- Found `r` active readers; next, `readerWait += r`. -/
  | draining (r : Int)
  /-- Waits on `writerSem` for the last active reader. -/
  | waiting
  /-- `Lock` has returned: it holds the lock and updates the registry. -/
  | holding
  /-- In `Unlock`, past `readerCount += rwmutexMaxReaders`, which left `r` waiting readers;
  next, release them and `rw.w.Unlock()`. -/
  | releasing (r : Int)
  deriving DecidableEq, Repr

/-- Where the log builder is in `GetNameFromContainerID`, with the lock its `RLock` acts on. -/
inductive BuilderPc where
  /-- Between calls. -/
  | idle
  /-- Took its copies; next, `RLock`'s `readerCount += 1` on the copy `m`. -/
  | copied (m : RWMutex)
  /-- `RLock` found a writer pending and waits on `m.readerSem`. -/
  | blocked (m : RWMutex)
  /-- Holds its read lock on `m`; next, the lookup in the registry. -/
  | reading (m : RWMutex)
  /-- Has the names; next, the deferred `RUnlock` on `m`, which changes only that copy, and the
  return, which drops it. -/
  | unlocking (m : RWMutex) (names : GoString × GoString × GoString)
  deriving DecidableEq, Repr

/-- What the writers act on: the registry, its lock, and their own places. -/
structure Shared where
  containers : List (GoString × Container)
  lock : RWMutex
  writers : List WriterPc
  deriving DecidableEq, Repr

/-- The registry, its lock, the writers and the log builder. -/
structure Registry where
  shared : Shared
  builder : BuilderPc
  deriving DecidableEq, Repr

/-- `n` idle writers, an idle builder and an unlocked lock over `containers`. -/
def Registry.init (containers : List (GoString × Container)) (n : Nat) : Registry :=
  ⟨⟨containers, {}, List.replicate n .idle⟩, .idle⟩

/-- A step of a registry writer. -/
inductive WriterAction where
  /-- `Lock`: take `rw.w`. -/
  | lock
  /-- `Lock`: announce itself to readers. -/
  | announce
  /-- `Lock`: add the readers it found to `readerWait`. -/
  | drain
  /-- `Lock`: take a release of `writerSem`. -/
  | acquire
  /-- Holding the lock, replace the registry. -/
  | update (containers : List (GoString × Container))
  /-- `Unlock`: give the readers their count back. -/
  | unlock
  /-- `Unlock`: release the waiting readers and `rw.w`. -/
  | release
  deriving DecidableEq, Repr

/-- A step of the log builder in `GetNameFromContainerID`. -/
inductive BuilderAction where
  /-- Copy the registry's header and its lock. -/
  | copy
  /-- `RLock`: add itself to `readerCount`. -/
  | rlock
  /-- `RLock`: take a release of `readerSem`. -/
  | acquire
  /-- Look `containerID` up in the registry. -/
  | read (containerID : GoString)
  /-- The deferred `RUnlock`, and the return. -/
  | runlock
  deriving DecidableEq, Repr

/-- A step of writer `k`, or of the builder. -/
inductive RegistryAction where
  | writer (k : Nat) (a : WriterAction)
  | builder (a : BuilderAction)
  deriving DecidableEq, Repr

/-! ## `RWMutex` steps -/

/-- `RLock`'s `atomic.AddInt32(&rw.readerCount, 1)`; `true` when the result is negative and the
reader must wait on `readerSem`. -/
def RWMutex.rlockAdd (m : RWMutex) : RWMutex × Bool :=
  ({ m with readerCount := m.readerCount + 1 }, m.readerCount + 1 < 0)

/-- `Lock`'s `atomic.AddInt32(&rw.readerCount, -rwmutexMaxReaders) + rwmutexMaxReaders`: the
lock after the subtraction, and the count of active readers. -/
def RWMutex.announce (m : RWMutex) : RWMutex × Int :=
  ({ m with readerCount := m.readerCount - rwmutexMaxReaders }, m.readerCount)

/-- `Unlock`'s `atomic.AddInt32(&rw.readerCount, rwmutexMaxReaders)`: the lock after it, and the
count of readers to release. -/
def RWMutex.unlockAdd (m : RWMutex) : RWMutex × Int :=
  ({ m with readerCount := m.readerCount + rwmutexMaxReaders },
    m.readerCount + rwmutexMaxReaders)

/-! ## Steps -/

/-- Writer `k` moves from `pc` to `pc'` with the lock set to `m`, `none` unless it is at `pc`. -/
def Shared.move (sh : Shared) (k : Nat) (pc pc' : WriterPc) (m : RWMutex) : Option Shared :=
  if sh.writers[k]? = some pc then some { sh with lock := m, writers := sh.writers.set k pc' }
  else none

/-- A step of writer `k`, `none` when it cannot be taken. -/
def Shared.writerStep (sh : Shared) (k : Nat) : WriterAction → Option Shared
  | .lock => if sh.lock.w then none else sh.move k .idle .announcing { sh.lock with w := true }
  | .announce =>
    let (m, r) := sh.lock.announce
    sh.move k .announcing (if r ≠ 0 then .draining r else .holding) m
  | .drain =>
    match sh.writers[k]? with
    | some (.draining r) =>
      let m := { sh.lock with readerWait := sh.lock.readerWait + r }
      sh.move k (.draining r) (if m.readerWait ≠ 0 then .waiting else .holding) m
    | _ => none
  | .acquire =>
    if 0 < sh.lock.writerSem then
      sh.move k .waiting .holding { sh.lock with writerSem := sh.lock.writerSem - 1 }
    else none
  | .update containers =>
    (sh.move k .holding .holding sh.lock).map fun sh => { sh with containers := containers }
  | .unlock =>
    let (m, r) := sh.lock.unlockAdd
    sh.move k .holding (.releasing r) m
  | .release =>
    match sh.writers[k]? with
    | some (.releasing r) =>
      sh.move k (.releasing r) .idle
        { sh.lock with readerSem := sh.lock.readerSem + r.toNat, w := false }
    | _ => none

/-- A step of the builder, `none` when it cannot be taken. It reads the registry and, to copy it,
the lock; every lock operation it makes is on its copy. -/
def builderStep (sh : Shared) : BuilderPc → BuilderAction → Option BuilderPc
  | .idle, .copy => some (.copied sh.lock)
  | .copied m, .rlock =>
    let (m, wait) := m.rlockAdd
    some (if wait then .blocked m else .reading m)
  | .blocked m, .acquire =>
    if 0 < m.readerSem then some (.reading { m with readerSem := m.readerSem - 1 }) else none
  | .reading m, .read containerID =>
    some (.unlocking m (getNameFromContainerID sh.containers containerID))
  | .unlocking _ _, .runlock => some .idle
  | _, _ => none

/-- One step, `none` when it cannot be taken. -/
def Registry.apply (s : Registry) : RegistryAction → Option Registry
  | .writer k a => (s.shared.writerStep k a).map fun sh => { s with shared := sh }
  | .builder a => (builderStep s.shared s.builder a).map fun b => { s with builder := b }

/-- A schedule, stopping at the first step that cannot be taken. -/
def Registry.run (s : Registry) (as : List RegistryAction) : Option Registry :=
  Machine.run Registry.apply s as

end KubeArmor.Monitor
