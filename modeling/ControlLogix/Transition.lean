import Mathlib.Data.List.Basic

/-!
# Runs of a partial step function

A system is given by `step : σ → α → Option σ`, which is `none` where an action is not possible.  `Run step ok s as u`
is a run from `s` to `u` by the actions `as` all of whose steps are allowed by `ok`; every property of all runs is
proved by an invariant.

* `Run.invariant`: what every allowed step preserves holds at the end of a run;
* `Run.history_invariant`: the same with a history variable;
* `run_after`, `run_afterIf`: runs on given actions, by evaluation;
* `indistinguishable_of`: states that a bisimulation relates cannot be told apart.
-/

namespace Transition

variable {σ α : Type*} {step : σ → α → Option σ} {ok ok' : σ → α → Prop}

inductive Run (step : σ → α → Option σ) (ok : σ → α → Prop) : σ → List α → σ → Prop
  | nil (s : σ) : Run step ok s [] s
  | cons {s t u : σ} {a : α} {as : List α} (allowed : ok s a) (taken : step s a = some t)
      (rest : Run step ok t as u) : Run step ok s (a :: as) u

/-- No restriction on the steps. -/
def always : σ → α → Prop := fun _ _ => True

theorem Run.invariant {I : σ → Prop} (hstep : ∀ s a t, I s → ok s a → step s a = some t → I t) {s u : σ}
    {as : List α} (h : Run step ok s as u) (hs : I s) : I u := by
  induction h with
  | nil s => exact hs
  | cons allowed taken rest ih => exact ih (hstep _ _ _ hs allowed taken)

theorem Run.mono (himp : ∀ s a, ok s a → ok' s a) {s u : σ} {as : List α} (h : Run step ok s as u) :
    Run step ok' s as u := by
  induction h with
  | nil s => exact .nil s
  | cons allowed taken rest ih => exact .cons (himp _ _ allowed) taken ih

theorem Run.free {s u : σ} {as : List α} (h : Run step ok s as u) : Run step always s as u :=
  h.mono fun _ _ _ => trivial

theorem Run.trans {s t u : σ} {as bs : List α} (h : Run step ok s as t) (h' : Run step ok t bs u) :
    Run step ok s (as ++ bs) u := by
  induction h with
  | nil s => exact h'
  | cons allowed taken rest ih => exact .cons allowed taken (ih h')

theorem Run.snoc {s t u : σ} {as : List α} {a : α} (h : Run step ok s as t) (allowed : ok t a)
    (taken : step t a = some u) : Run step ok s (as ++ [a]) u :=
  h.trans (.cons allowed taken (.nil u))

theorem Run.split {s u : σ} {as bs : List α} (h : Run step ok s (as ++ bs) u) :
    ∃ t, Run step ok s as t ∧ Run step ok t bs u := by
  induction as generalizing s with
  | nil => exact ⟨s, .nil s, h⟩
  | cons a as ih =>
    cases h with
    | cons allowed taken rest =>
      obtain ⟨t, hfirst, hlast⟩ := ih rest
      exact ⟨t, .cons allowed taken hfirst, hlast⟩

/-- A run of one step. -/
theorem Run.single {s u : σ} {a : α} (h : Run step ok s [a] u) : step s a = some u := by
  cases h with
  | cons allowed taken rest =>
    cases rest
    exact taken

/-! ### History variables

A history variable records something about the steps taken, which the states themselves do not keep. -/

/-- The value of a history variable after the actions, when it was `b` before and a step by `a` from `s` to `t` turns
`b` into `f s a t b`. -/
def history {β : Type*} (step : σ → α → Option σ) (f : σ → α → σ → β → β) : σ → List α → β → β
  | _, [], b => b
  | s, a :: as, b =>
    match step s a with
    | none => b
    | some t => history step f t as (f s a t b)

theorem history_cons {β : Type*} (f : σ → α → σ → β → β) {s t : σ} {a : α} (taken : step s a = some t) (as : List α)
    (b : β) : history step f s (a :: as) b = history step f t as (f s a t b) := by
  rw [history, taken]

/-- A history variable goes on from its value at the end of a run. -/
theorem Run.history_append {β : Type*} (f : σ → α → σ → β → β) {s t : σ} {as : List α} (h : Run step ok s as t)
    (bs : List α) (b : β) : history step f s (as ++ bs) b = history step f t bs (history step f s as b) := by
  induction h generalizing b with
  | nil s => rfl
  | cons allowed taken rest ih =>
    rw [List.cons_append, history_cons f taken, history_cons f taken]
    exact ih _

/-- What every allowed step preserves of the state and the history variable holds of both at the end of a run. -/
theorem Run.history_invariant {β : Type*} {f : σ → α → σ → β → β} {I : σ → β → Prop}
    (hstep : ∀ s a t b, I s b → ok s a → step s a = some t → I t (f s a t b)) {s u : σ} {as : List α} {b : β}
    (h : Run step ok s as u) (hs : I s b) : I u (history step f s as b) := by
  induction h generalizing b with
  | nil s => exact hs
  | cons allowed taken rest ih =>
    rw [history_cons f taken]
    exact ih (hstep _ _ _ _ hs allowed taken)

/-! ### Evaluation -/

def exec (step : σ → α → Option σ) : σ → List α → Option σ
  | s, [] => some s
  | s, a :: as =>
    match step s a with
    | none => none
    | some t => exec step t as

/-- `exec` that stops at the first step not allowed by `ok`. -/
def execIf (step : σ → α → Option σ) (ok : σ → α → Prop) [∀ s a, Decidable (ok s a)] : σ → List α → Option σ
  | s, [] => some s
  | s, a :: as =>
    if ok s a then
      match step s a with
      | none => none
      | some t => execIf step ok t as
    else none

theorem run_of_execIf [∀ s a, Decidable (ok s a)] {s u : σ} {as : List α} (h : execIf step ok s as = some u) :
    Run step ok s as u := by
  induction as generalizing s with
  | nil =>
    cases h
    exact .nil _
  | cons a as ih =>
    unfold execIf at h
    split at h
    · rename_i hok
      split at h
      · cases h
      · rename_i t ht
        exact .cons hok ht (ih h)
    · cases h

theorem run_of_exec {s u : σ} {as : List α} (h : exec step s as = some u) : Run step always s as u := by
  induction as generalizing s with
  | nil =>
    cases h
    exact .nil _
  | cons a as ih =>
    unfold exec at h
    split at h
    · cases h
    · rename_i t ht
      exact .cons trivial ht (ih h)

theorem Run.exec {s u : σ} {as : List α} (h : Run step ok s as u) : exec step s as = some u := by
  induction h with
  | nil s => rfl
  | cons allowed taken rest ih =>
    unfold Transition.exec
    rw [taken]
    exact ih

/-- Where the actions lead from `s`, or `s` when one of them is not possible. -/
def after (step : σ → α → Option σ) (s : σ) (as : List α) : σ := (exec step s as).getD s

theorem run_after {s : σ} {as : List α} (h : (exec step s as).isSome) : Run step always s as (after step s as) := by
  obtain ⟨u, hu⟩ := Option.isSome_iff_exists.1 h
  have e : after step s as = u := by
    rw [after, hu]
    rfl
  rw [e]
  exact run_of_exec hu

theorem step_after {s : σ} {a : α} (h : (step s a).isSome) : step s a = some (after step s [a]) := by
  obtain ⟨t, ht⟩ := Option.isSome_iff_exists.1 h
  rw [after, exec, ht]
  rfl

theorem run_afterIf (ok : σ → α → Prop) [∀ s a, Decidable (ok s a)] {s : σ} {as : List α}
    (h : (execIf step ok s as).isSome) : Run step ok s as (after step s as) := by
  obtain ⟨u, hu⟩ := Option.isSome_iff_exists.1 h
  have hrun := run_of_execIf hu
  have e : after step s as = u := by
    rw [after, hrun.exec]
    rfl
  rw [e]
  exact hrun

/-! ### What an observer can tell apart -/

/-- Whatever actions follow, the same is observed from `s` and from `t`. -/
def Indistinguishable {ω : Type*} (step : σ → α → Option σ) (obs : σ → ω) (s t : σ) : Prop :=
  ∀ as, (exec step s as).map obs = (exec step t as).map obs

/-- A relation that is kept by every action, and whose states look the same. -/
theorem indistinguishable_of {ω : Type*} {obs : σ → ω} {R : σ → σ → Prop} (hobs : ∀ s t, R s t → obs s = obs t)
    (hstep : ∀ s t a, R s t → Option.Rel R (step s a) (step t a)) {s t : σ} (h : R s t) :
    Indistinguishable step obs s t := by
  intro as
  induction as generalizing s t with
  | nil => exact congrArg some (hobs s t h)
  | cons a as ih =>
    have hrel := hstep s t a h
    unfold exec
    generalize step s a = x at hrel ⊢
    generalize step t a = y at hrel ⊢
    cases hrel with
    | none => rfl
    | some hnext => exact ih hnext

end Transition
