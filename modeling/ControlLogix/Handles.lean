import Mathlib.Data.List.Nodup

/-!
# Handles

A handle is acquired, used and released.  A history of such events stands newest first; `held` is what was acquired in
it and not released since, and a history is lawful when only what is held is used or released.

* `Lawful.acquired_since`: between the release of a handle and its next use or release it is acquired again.
-/

namespace Handles

variable {α : Type*}

inductive Event (α : Type*) where
  | acquire (a : α)
  | use (a : α)
  | release (a : α)
  deriving DecidableEq, Repr

variable [DecidableEq α]

/-- What was acquired and not released since. -/
def held : List (Event α) → List α
  | [] => []
  | .acquire a :: h => a :: held h
  | .use _ :: h => held h
  | .release a :: h => (held h).erase a

/-- Only what is not held is acquired, and only what is held is used or released. -/
def Lawful : List (Event α) → Prop
  | [] => True
  | .acquire a :: h => a ∉ held h ∧ Lawful h
  | .use a :: h | .release a :: h => a ∈ held h ∧ Lawful h

theorem Lawful.of_append {l h : List (Event α)} (hl : Lawful (l ++ h)) : Lawful h := by
  induction l with
  | nil => exact hl
  | cons e l ih => cases e <;> exact ih hl.2

theorem Lawful.nodup {h : List (Event α)} (hl : Lawful h) : (held h).Nodup := by
  induction h with
  | nil => exact List.nodup_nil
  | cons e h ih =>
    cases e with
    | acquire a => exact List.nodup_cons.2 ⟨hl.1, ih hl.2⟩
    | use a => exact ih hl.2
    | release a => exact (ih hl.2).erase a

theorem acquired_of_held {l h : List (Event α)} {a : α} (ha : a ∈ held (l ++ h)) (hn : a ∉ held h) :
    .acquire a ∈ l := by
  induction l with
  | nil => exact absurd ha hn
  | cons e l ih =>
    cases e with
    | acquire b =>
      rcases List.mem_cons.1 ha with rfl | ha
      · exact List.mem_cons_self
      · exact List.mem_cons_of_mem _ (ih ha)
    | use b => exact List.mem_cons_of_mem _ (ih ha)
    | release b => exact List.mem_cons_of_mem _ (ih (List.mem_of_mem_erase ha))

/-- What is used or released after its release was acquired in between. -/
theorem Lawful.acquired_since {l m h : List (Event α)} {e : Event α} {a : α} (he : e = .use a ∨ e = .release a)
    (hl : Lawful (l ++ e :: m ++ .release a :: h)) : .acquire a ∈ m := by
  rw [List.append_assoc] at hl
  have htail : Lawful (e :: (m ++ .release a :: h)) := hl.of_append
  have ha : a ∈ held (m ++ .release a :: h) := by
    rcases he with rfl | rfl
    · exact htail.1
    · exact htail.1
  have hrest : Lawful (m ++ .release a :: h) := by
    rcases he with rfl | rfl
    · exact htail.2
    · exact htail.2
  have hn : a ∉ held (.release a :: h) := by
    have hnodup := (hrest.of_append).2.nodup
    show a ∉ (held h).erase a
    exact hnodup.not_mem_erase
  exact acquired_of_held ha hn

end Handles
