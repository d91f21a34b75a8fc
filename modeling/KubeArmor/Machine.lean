import Mathlib.Data.List.Basic

/-!
# Machines: a step function, its schedules and its reachable states

Every concurrent part of the model is a state and a step function that takes one action of one
goroutine, `none` when that action cannot be taken in that state: the `WatchLogs` and
`WatchMessages` handlers over their queue, the `PushLog` goroutines, the registry's writers and the
log builder. A schedule is a list of actions run one after another, stopping at the first that
cannot be taken (`Machine.run`); the reachable states are those some schedule leads to from the
initial state (`Machine.Reachable`).

Each machine of the model defines its `run` and `Reachable` as these at its own step function, so
that what `KubeArmor.Laws.Machine` proves of them once holds of each.
-/

namespace KubeArmor.Machine

variable {σ α : Type} (step : σ → α → Option σ)

/-- A schedule, stopping at the first action that cannot be taken. -/
def run : σ → List α → Option σ
  | s, [] => some s
  | s, a :: as => (step s a).bind fun s' => run s' as

/-- The states some schedule leads to from `init`. -/
inductive Reachable (init : σ) : σ → Prop where
  | init : Reachable init init
  | step {s s' : σ} {a : α} : Reachable init s → step s a = some s' → Reachable init s'

end KubeArmor.Machine
