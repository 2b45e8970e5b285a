import Mathlib.Data.List.Basic

/-!
# Frames in a stream

A format of frames tells from the beginning of a stream how long its first frame is.  A stream splits into the whole
frames it begins with and a rest in which the next one is not complete.

* `Splits.unique`, `exists_splits`: every stream splits in exactly one way;
* `Splits.append`: what arrives later is split together with the rest.
-/

namespace Frames

variable {α : Type*}

structure Format (α : Type*) where
  /-- The length of the first frame of a stream, when enough of it is there to tell. -/
  size : List α → Option Nat
  pos : ∀ {s : List α} {k : Nat}, size s = some k → 0 < k
  stable : ∀ {s : List α} {k : Nat} (t : List α), size s = some k → size (s ++ t) = some k
  /-- The length is told by the frame itself. -/
  within : ∀ {s : List α} {k : Nat}, size s = some k → k ≤ s.length → size (s.take k) = some k

variable {F : Format α}

/-- One frame and nothing else. -/
def Format.Whole (F : Format α) (f : List α) : Prop := F.size f = some f.length

instance (F : Format α) (f : List α) : Decidable (F.Whole f) := inferInstanceAs (Decidable (_ = _))

/-- The first frame is not complete. -/
def Format.Short (F : Format α) (s : List α) : Prop := ∀ k, F.size s = some k → s.length < k

structure Format.Splits (F : Format α) (s : List α) (fs : List (List α)) (rest : List α) : Prop where
  eq : s = fs.flatten ++ rest
  whole : ∀ f ∈ fs, F.Whole f
  short : F.Short rest

namespace Format

/-- A whole frame is the first frame of every stream that begins with it. -/
theorem Whole.size_append {f : List α} (h : F.Whole f) (t : List α) : F.size (f ++ t) = some f.length :=
  F.stable t h

theorem Whole.not_short {f : List α} (h : F.Whole f) (t : List α) : ¬ F.Short (f ++ t) := by
  intro hshort
  have hlt := hshort _ (h.size_append t)
  rw [List.length_append] at hlt
  omega

/-- The frame a stream begins with is whole, when the stream is long enough. -/
theorem whole_take {s : List α} {k : Nat} (h : F.size s = some k) (hle : k ≤ s.length) : F.Whole (s.take k) := by
  unfold Whole
  rw [F.within h hle, List.length_take, Nat.min_eq_left hle]

theorem Splits.cons {s rest f : List α} {fs : List (List α)} (hf : F.Whole f) (h : F.Splits s fs rest) :
    F.Splits (f ++ s) (f :: fs) rest := by
  refine ⟨?_, ?_, h.short⟩
  · rw [h.eq, List.flatten_cons, List.append_assoc]
  · intro g hg
    rcases List.mem_cons.1 hg with rfl | hg
    · exact hf
    · exact h.whole g hg

theorem Splits.tail {s rest f : List α} {fs : List (List α)} (h : F.Splits s (f :: fs) rest) :
    ∃ t, s = f ++ t ∧ F.Whole f ∧ F.Splits t fs rest := by
  refine ⟨fs.flatten ++ rest, ?_, h.whole f List.mem_cons_self, rfl, ?_, h.short⟩
  · rw [h.eq, List.flatten_cons, List.append_assoc]
  · intro g hg
    exact h.whole g (List.mem_cons_of_mem f hg)

theorem Splits.nil {s : List α} (h : F.Short s) : F.Splits s [] s := ⟨rfl, nofun, h⟩

theorem Splits.unique {s rest rest' : List α} {fs gs : List (List α)} (h : F.Splits s fs rest)
    (h' : F.Splits s gs rest') : fs = gs ∧ rest = rest' := by
  induction fs generalizing s gs with
  | nil =>
    have hrest : s = rest := h.eq
    cases gs with
    | nil => exact ⟨rfl, hrest.symm.trans h'.eq⟩
    | cons g gs =>
      obtain ⟨t, rfl, hg, -⟩ := h'.tail
      rw [← hrest] at h
      exact absurd h.short (hg.not_short t)
  | cons f fs ih =>
    obtain ⟨t, rfl, hf, ht⟩ := h.tail
    cases gs with
    | nil =>
      have hrest : f ++ t = rest' := h'.eq
      rw [← hrest] at h'
      exact absurd h'.short (hf.not_short t)
    | cons g gs =>
      obtain ⟨u, hu, hg, hrest⟩ := h'.tail
      have hlen : f.length = g.length := by
        have hsize := hf.size_append t
        rw [hu, hg.size_append u] at hsize
        exact (Option.some.inj hsize).symm
      obtain ⟨rfl, rfl⟩ := List.append_inj hu hlen
      obtain ⟨rfl, rfl⟩ := ih ht hrest
      exact ⟨rfl, rfl⟩

theorem exists_splits (F : Format α) (s : List α) : ∃ fs rest, F.Splits s fs rest := by
  induction hn : s.length using Nat.strongRecOn generalizing s with
  | ind n ih =>
    by_cases hshort : F.Short s
    · exact ⟨[], s, .nil hshort⟩
    · obtain ⟨k, hcomplete⟩ := not_forall.1 hshort
      obtain ⟨hk, hle⟩ := Classical.not_imp.1 hcomplete
      rw [Nat.not_lt] at hle
      have hpos := F.pos hk
      obtain ⟨fs, rest, hsplits⟩ := ih (s.drop k).length (by rw [List.length_drop]; omega) (s.drop k) rfl
      have hall := hsplits.cons (whole_take hk hle)
      rw [List.take_append_drop] at hall
      exact ⟨_, _, hall⟩

/-- What follows a stream is split together with its rest. -/
theorem Splits.append {s t rest rest' : List α} {fs gs : List (List α)} (h : F.Splits s fs rest)
    (h' : F.Splits (rest ++ t) gs rest') : F.Splits (s ++ t) (fs ++ gs) rest' := by
  induction fs generalizing s with
  | nil =>
    have hrest : s = rest := h.eq
    rw [hrest]
    exact h'
  | cons f fs ih =>
    obtain ⟨u, rfl, hf, hu⟩ := h.tail
    rw [List.append_assoc]
    exact (ih hu).cons hf

/-- Whole frames, one after the other, and nothing else. -/
theorem splits_flatten {fs : List (List α)} (hnil : F.Short []) (h : ∀ f ∈ fs, F.Whole f) :
    F.Splits fs.flatten fs [] :=
  ⟨(List.append_nil _).symm, h, hnil⟩

end Format

end Frames
