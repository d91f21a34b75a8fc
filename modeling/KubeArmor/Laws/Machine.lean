import KubeArmor.Machine

/-!
# Laws of schedules and reachable states

What every machine of the model inherits: a schedule's steps compose (`Machine.run_append`), an
invariant of one step holds after every schedule (`Machine.run_invariant`) and in every reachable
state (`Machine.Reachable.invariant`), and a schedule from a reachable state ends in one
(`Machine.Reachable.run`).
-/

namespace KubeArmor.Machine

variable {σ α : Type} {step : σ → α → Option σ}

@[simp] theorem run_nil (s : σ) : run step s [] = some s := rfl

@[simp] theorem run_cons (s : σ) (a : α) (as : List α) :
    run step s (a :: as) = (step s a).bind fun s' => run step s' as := rfl

/-- A schedule whose first action can be taken runs on from the state that action leads to. -/
theorem run_cons_of_step {s s₁ : σ} {a : α} (h : step s a = some s₁) (as : List α) :
    run step s (a :: as) = run step s₁ as := by
  rw [run_cons, h, Option.some_bind]

/-- A schedule followed by another runs the second from where the first ends. -/
theorem run_append (s : σ) (as bs : List α) :
    run step s (as ++ bs) = (run step s as).bind fun s' => run step s' bs := by
  induction as generalizing s with
  | nil => rfl
  | cons a as ih =>
    simp only [List.cons_append, run_cons, ih]
    cases step s a <;> rfl

/-- **An invariant of every step holds after every schedule.** -/
theorem run_invariant {P : σ → Prop} (hstep : ∀ {s s' : σ} {a : α}, P s → step s a = some s' → P s')
    {s s' : σ} {as : List α} (hs : P s) (h : run step s as = some s') : P s' := by
  induction as generalizing s with
  | nil => exact Option.some.inj h ▸ hs
  | cons a as ih =>
    obtain ⟨s₁, h₁, h⟩ := Option.bind_eq_some.mp h
    exact ih (hstep hs h₁) h

/-- A schedule from a reachable state ends in one. -/
theorem Reachable.run {init s s' : σ} (h : Reachable step init s) {as : List α}
    (hr : Machine.run step s as = some s') : Reachable step init s' :=
  run_invariant (fun hs h₁ => .step hs h₁) h hr

/-- The states a schedule from `init` ends in are reachable. -/
theorem reachable_of_run {init s : σ} {as : List α} (h : Machine.run step init as = some s) :
    Reachable step init s :=
  Reachable.init.run h

/-- **An invariant of the initial state and of every step holds in every reachable state.** -/
theorem Reachable.invariant {P : σ → Prop} {init s : σ} (h : Reachable step init s) (h₀ : P init)
    (hstep : ∀ {s s' : σ} {a : α}, P s → step s a = some s' → P s') : P s := by
  induction h with
  | init => exact h₀
  | step _ ha ih => exact hstep ih ha

end KubeArmor.Machine
