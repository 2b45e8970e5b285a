import Mathlib.Data.List.FinRange
import Mathlib.Logic.Function.Basic

/-!
# Pools of places

A pool has `n` places, each of which is free or holds a value.  A new value goes to the lowest free place.

* `lowest_eq_some`: which place that is;
* `count_put`, `count_remove`: the number of values held.
-/

namespace Pool

variable {n : Nat} {α : Type*}

abbrev Places (n : Nat) (α : Type*) := Fin n → Option α

/-- A pool with nothing in it. -/
def empty : Places n α := fun _ => none

def lowest (p : Places n α) : Option (Fin n) := (List.finRange n).find? fun i => (p i).isNone

def put (p : Places n α) (i : Fin n) (a : α) : Places n α := Function.update p i (some a)

def remove (p : Places n α) (i : Fin n) : Places n α := Function.update p i none

def count (p : Places n α) : Nat := (List.finRange n).countP fun i => (p i).isSome

variable {p : Places n α} {i : Fin n} {a : α}

theorem lowest_eq_some : lowest p = some i ↔ p i = none ∧ ∀ j < i, (p j).isSome := by
  unfold lowest
  rw [List.find?_eq_some_iff_getElem]
  constructor
  · rintro ⟨hfree, k, hk, hki, hbelow⟩
    refine ⟨by simpa using hfree, fun j hj => ?_⟩
    have hlt : j.val < k := by
      rw [List.getElem_finRange] at hki
      rw [← hki] at hj
      exact hj
    have hj' := hbelow j.val hlt
    rw [List.getElem_finRange] at hj'
    simpa [Option.isSome_iff_ne_none] using hj'
  · rintro ⟨hfree, hbelow⟩
    have hlen : i.val < (List.finRange n).length := by
      rw [List.length_finRange]
      exact i.isLt
    refine ⟨by simp [hfree], i.val, hlen, by rw [List.getElem_finRange]; rfl, fun j hj => ?_⟩
    rw [List.getElem_finRange]
    have hj' := hbelow (Fin.cast (List.length_finRange) ⟨j, by omega⟩) hj
    simpa [Option.isSome_iff_ne_none] using hj'

/-! ### How many values there are -/

theorem count_le (p : Places n α) : count p ≤ n := by
  have hle := List.countP_le_length (p := fun i => (p i).isSome) (l := List.finRange n)
  rwa [List.length_finRange] at hle

/-- Two tests that differ at one place of a list only, where the second one holds. -/
private theorem countP_succ {q q' : Fin n → Bool} {l : List (Fin n)} (hl : l.Nodup) (hi : i ∈ l) (hold : q i = false)
    (hnew : q' i = true) (hsame : ∀ j, j ≠ i → q' j = q j) : l.countP q' = l.countP q + 1 := by
  induction l with
  | nil => cases hi
  | cons j l ih =>
    obtain ⟨hj, hl⟩ := List.nodup_cons.1 hl
    rcases List.mem_cons.1 hi with rfl | hi
    · have hrest : l.countP q' = l.countP q := by
        refine List.countP_congr fun k hk => ?_
        rw [hsame k fun e => hj (e ▸ hk)]
      rw [List.countP_cons_of_pos hnew, List.countP_cons_of_neg (by simp [hold]), hrest]
    · have hne : j ≠ i := fun e => hj (e ▸ hi)
      rw [List.countP_cons, List.countP_cons, ih hl hi, hsame j hne]
      omega

theorem count_put (h : p i = none) : count (put p i a) = count p + 1 := by
  refine countP_succ (List.nodup_finRange n) (List.mem_finRange i) (by simp [h]) (by simp [put]) fun j hj => ?_
  simp [put, hj]

theorem count_remove (h : (p i).isSome) : count (remove p i) + 1 = count p := by
  refine (countP_succ (List.nodup_finRange n) (List.mem_finRange i) (by simp [remove]) h fun j hj => ?_).symm
  simp [remove, hj]

theorem count_empty : count (empty : Places n α) = 0 := by
  unfold count
  rw [List.countP_eq_zero]
  simp [empty]

end Pool
