import Mathlib.Data.List.Basic

/-!
# Streams of frames

A stream is a list cut into frames, which are the lists that satisfy `F`.  One who writes frames to a stream, or reads
frames from it, stands between two frames (`Whole`) or at some position of one (`At`).

* `At.advance`: the next part of the frame moves the position on;
* `At.whole`: at the end of a frame the stream is whole again;
* `At.stream`: at any position the stream is a concatenation of frames, the last of which may be cut.
-/

namespace Framing

variable {α : Type*} {F : List α → Prop} {s f : List α} {k : Nat}

/-- A concatenation of frames. -/
def Whole (F : List α → Prop) (s : List α) : Prop := ∃ fs : List (List α), (∀ f ∈ fs, F f) ∧ s = fs.flatten

/-- A concatenation of frames followed by the first `k` elements of `f`. -/
def At (F : List α → Prop) (s f : List α) (k : Nat) : Prop := ∃ t, Whole F t ∧ s = t ++ f.take k

/-- A concatenation of frames, the last of which may be cut. -/
def Stream (F : List α → Prop) (s : List α) : Prop := Whole F s ∨ ∃ f k, F f ∧ At F s f k

theorem Whole.nil : Whole F ([] : List α) := ⟨[], by simp, rfl⟩

theorem Whole.snoc (h : Whole F s) (hf : F f) : Whole F (s ++ f) := by
  obtain ⟨fs, hall, rfl⟩ := h
  refine ⟨fs ++ [f], fun g hg => ?_, by simp⟩
  rcases List.mem_append.1 hg with hg | hg
  · exact hall g hg
  · rw [List.mem_singleton.1 hg]
    exact hf

theorem Whole.start (h : Whole F s) (f : List α) : At F s f 0 := ⟨s, h, by simp⟩

theorem Whole.stream (h : Whole F s) : Stream F s := Or.inl h

theorem At.stream (h : At F s f k) (hf : F f) : Stream F s := Or.inr ⟨f, k, hf, h⟩

theorem At.whole (h : At F s f k) (hf : F f) (hk : f.length ≤ k) : Whole F s := by
  obtain ⟨t, ht, rfl⟩ := h
  rw [List.take_of_length_le hk]
  exact ht.snoc hf

theorem At.advance (h : At F s f k) (m : Nat) : At F (s ++ (f.drop k).take m) f (k + m) := by
  obtain ⟨t, ht, rfl⟩ := h
  exact ⟨t, ht, by rw [List.append_assoc, ← List.take_add]⟩

end Framing
