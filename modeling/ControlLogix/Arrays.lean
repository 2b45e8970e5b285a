import ControlLogix.Bytes

/-!
# Arrays of a fixed size

The length of a list of bytes is the size of an array here, and `load` and `put` fail where they leave it.  `puts` is
a sequence of stores, each an offset with the bytes stored there, and `layout` is the sequence that places parts one
after the other.

A sequence of stores `Places` bytes at an offset when it leaves the same as a single store of them, in every array
with room for it.

* `Places.append`, `Places.before`: sequences that place parts one after the other place them as a whole;
* `puts_fails`: a sequence with a store beyond the end fails;
* `put_put`, `foldlM_put`, `foldlM_load`: bytes that are stored or read one by one.
-/

namespace Arrays

open Bytes

/-- The `n` bytes at the offset, if the array has them. -/
def load (a : List UInt8) (off n : Nat) : Option (List UInt8) :=
  if off + n ≤ a.length then some ((a.drop off).take n) else none

/-- The array with the bytes stored at the offset, if it has a place for them. -/
def put (a : List UInt8) (off : Nat) (bs : List UInt8) : Option (List UInt8) :=
  if off + bs.length ≤ a.length then some (store a off bs) else none

def puts (a : List UInt8) : List (Nat × List UInt8) → Option (List UInt8)
  | [] => some a
  | (off, bs) :: ss => (put a off bs).bind fun a => puts a ss

/-- The parts one after the other, from the offset on. -/
def layout (off : Nat) : List (List UInt8) → List (Nat × List UInt8)
  | [] => []
  | bs :: parts => (off, bs) :: layout (off + bs.length) parts

variable {a a' : List UInt8} {off n : Nat} {bs : List UInt8}

theorem load_eq (h : off + n ≤ a.length) : load a off n = some ((a.drop off).take n) := if_pos h

theorem put_eq (h : off + bs.length ≤ a.length) : put a off bs = some (store a off bs) := if_pos h

/-- A store that succeeds has a place in the array, and leaves its size as it is. -/
theorem put_some (h : put a off bs = some a') : off + bs.length ≤ a.length ∧ a' = store a off bs ∧
    a'.length = a.length := by
  unfold put at h
  split at h
  · rename_i hin
    obtain rfl := Option.some.inj h
    exact ⟨hin, rfl, length_store hin⟩
  · cases h

theorem puts_append (ss ss' : List (Nat × List UInt8)) :
    puts a (ss ++ ss') = (puts a ss).bind fun a => puts a ss' := by
  induction ss generalizing a with
  | nil => rfl
  | cons s ss ih =>
    obtain ⟨off, bs⟩ := s
    show (put a off bs).bind (fun a => puts a (ss ++ ss')) = ((put a off bs).bind fun a => puts a ss).bind _
    rw [Option.bind_assoc]
    congr 1
    funext a₁
    exact ih

/-! ### Sequences that place bytes -/

/-- The sequence leaves the same as one store. -/
def Places (ss : List (Nat × List UInt8)) (off : Nat) (bs : List UInt8) : Prop :=
  ∀ a : List UInt8, off + bs.length ≤ a.length → puts a ss = some (store a off bs)

theorem places_one (off : Nat) (bs : List UInt8) : Places [(off, bs)] off bs := by
  intro a h
  rw [puts, put_eq h, Option.bind_some, puts]

/-- The copy of `n` bytes that is left out when there are none. -/
theorem places_copied (off : Nat) {bs : List UInt8} {n : Nat} (h : bs.length = n) :
    Places (if n ≠ 0 then [(off, bs)] else []) off bs := by
  by_cases hn : n = 0
  · have hnil : bs = [] := List.length_eq_zero_iff.1 (h.trans hn)
    intro a _
    rw [if_neg (not_not.2 hn), hnil, store_nil, puts]
  · rw [if_pos hn]
    exact places_one off bs

theorem Places.append {ss ss' : List (Nat × List UInt8)} {off n : Nat} {bs bs' : List UInt8} (h : Places ss off bs)
    (hn : off + bs.length = n) (h' : Places ss' n bs') : Places (ss ++ ss') off (bs ++ bs') := by
  subst hn
  intro a ha
  rw [List.length_append] at ha
  have hlen : (store a off bs).length = a.length := length_store (by omega)
  rw [puts_append, h a (by omega), Option.bind_some, h' _ (by omega), store_store _ _ (by omega)]

/-- What is stored last may lie before the rest. -/
theorem Places.before {ss : List (Nat × List UInt8)} {off : Nat} {bs bs' : List UInt8}
    (h : Places ss (off + bs.length) bs') : Places (ss ++ [(off, bs)]) off (bs ++ bs') := by
  intro a ha
  rw [List.length_append] at ha
  have hlen : (store a (off + bs.length) bs').length = a.length := length_store (by omega)
  rw [puts_append, h a (by omega), Option.bind_some, places_one off bs _ (by omega), store_before (by omega)]

/-- Parts that follow one another are stored as one. -/
theorem places_layout (off : Nat) (parts : List (List UInt8)) : Places (layout off parts) off parts.flatten := by
  induction parts generalizing off with
  | nil =>
    intro a _
    rw [layout, puts, List.flatten_nil, store_nil]
  | cons bs parts ih => exact (places_one off bs).append rfl (ih (off + bs.length))

/-! ### Stores beyond the end -/

/-- All stores of a sequence that succeeds lie inside the array, and leave its size as it is. -/
theorem puts_some {ss : List (Nat × List UInt8)} (h : puts a ss = some a') :
    (∀ s ∈ ss, s.1 + s.2.length ≤ a.length) ∧ a'.length = a.length := by
  induction ss generalizing a with
  | nil =>
    obtain rfl := Option.some.inj h
    exact ⟨fun s hs => absurd hs List.not_mem_nil, rfl⟩
  | cons s ss ih =>
    obtain ⟨off, bs⟩ := s
    obtain ⟨a₁, hput, hrest⟩ := Option.bind_eq_some_iff.1 h
    obtain ⟨hin, -, hlen⟩ := put_some hput
    obtain ⟨hall, hend⟩ := ih hrest
    rw [hlen] at hall hend
    refine ⟨fun s hs => ?_, hend⟩
    rcases List.mem_cons.1 hs with rfl | hs
    · exact hin
    · exact hall s hs

/-- A sequence with a store that leaves the array fails. -/
theorem puts_fails {ss : List (Nat × List UInt8)} {s : Nat × List UInt8} (hs : s ∈ ss)
    (h : a.length < s.1 + s.2.length) : puts a ss = none := by
  by_contra hne
  obtain ⟨a', ha⟩ := Option.ne_none_iff_exists'.1 hne
  have hin := (puts_some ha).1 s hs
  omega

/-! ### Byte by byte -/

/-- Two stores one after the other are one, also where they fail. -/
theorem put_put {xs : List UInt8} (hn : off + xs.length = n) (ys : List UInt8) :
    ((put a off xs).bind fun a => put a n ys) = put a off (xs ++ ys) := by
  subst hn
  by_cases hroom : off + (xs ++ ys).length ≤ a.length
  · have hsum := hroom
    rw [List.length_append] at hsum
    have hlen : (store a off xs).length = a.length := length_store (by omega)
    rw [put_eq hroom, put_eq (by omega), Option.bind_some, put_eq (by omega), store_store _ _ (by omega)]
  · have hnone : put a off (xs ++ ys) = none := if_neg hroom
    rw [hnone, Option.bind_eq_none_iff]
    intro a' hput
    obtain ⟨-, -, hlen⟩ := put_some hput
    rw [List.length_append] at hroom
    exact if_neg (by omega)

theorem put_then {xs : List UInt8} (hn : off + xs.length = n) (ys : List UInt8)
    (k : List UInt8 → Option (List UInt8)) :
    ((put a off xs).bind fun a => (put a n ys).bind k) = (put a off (xs ++ ys)).bind k := by
  rw [← Option.bind_assoc, put_put hn]

/-- A loop that stores one byte in each turn. -/
theorem foldlM_put (f : Nat → UInt8) (off n : Nat) :
    (List.range (n + 1)).foldlM (fun a i => put a (off + i) [f i]) a = put a off ((List.range (n + 1)).map f) := by
  induction n with
  | zero => simp
  | succ n ih =>
    rw [List.range_succ, List.foldlM_append, ih, List.map_append]
    simp only [List.map_cons, List.map_nil]
    rw [← put_put (n := off + (n + 1)) (by simp)]
    congr 1
    funext a
    simp

/-- The byte at an address, as it is seen from a pointer before it. -/
theorem byte_eq {i : Nat} (h : off + i < a.length) : a[off + i]? = some (peek (a.drop off) i) := by
  rw [peek, List.getD_eq_getElem?_getD, List.getElem?_drop, List.getElem?_eq_getElem h, Option.getD_some]

theorem load_some (h : load a off n = some bs) : off + n ≤ a.length ∧ bs = (a.drop off).take n := by
  unfold load at h
  split at h
  · rename_i hin
    exact ⟨hin, (Option.some.inj h).symm⟩
  · cases h

theorem load_none (h : a.length < off + n) : load a off n = none := if_neg (by omega)

private theorem foldlM_byte {β : Type} (f : β → UInt8 → β) (is : List Nat) (v : β)
    (h : ∀ i ∈ is, off + i < a.length) :
    is.foldlM (fun v i => (a[off + i]?).map (f v)) v = some (is.foldl (fun v i => f v (peek (a.drop off) i)) v) := by
  induction is generalizing v with
  | nil => rfl
  | cons i is ih =>
    have hi : off + i < a.length := h i List.mem_cons_self
    rw [List.foldlM_cons, byte_eq hi, Option.map_some, List.foldl_cons]
    exact ih _ fun j hj => h j (List.mem_cons_of_mem i hj)

private theorem foldlM_byte_none {β : Type} (f : β → UInt8 → β) {is : List Nat} (v : β) {i : Nat} (hi : i ∈ is)
    (h : a.length ≤ off + i) : is.foldlM (fun v i => (a[off + i]?).map (f v)) v = none := by
  induction is generalizing v with
  | nil => cases hi
  | cons j is ih =>
    rw [List.foldlM_cons]
    rcases List.mem_cons.1 hi with rfl | hi
    · rw [List.getElem?_eq_none h]
      rfl
    · exact Option.bind_eq_none_iff.2 fun v' _ => ih v' hi

/-- A loop that reads one byte in each turn, in any order. -/
theorem foldlM_load {β : Type} (f : β → UInt8 → β) {is : List Nat} (v : β) (his : ∀ i, i ∈ is ↔ i < n + 1) :
    is.foldlM (fun v i => (a[off + i]?).map (f v)) v =
      (load a off (n + 1)).map fun p => is.foldl (fun v i => f v (peek p i)) v := by
  by_cases hroom : off + (n + 1) ≤ a.length
  · have hbytes : ∀ i ∈ is, off + i < a.length := fun i hi => by
      have hlt := (his i).1 hi
      omega
    rw [foldlM_byte f is v hbytes, load_eq hroom, Option.map_some]
    congr 1
    apply List.foldl_ext
    intro v i hi
    rw [peek_congr (n := n + 1) (by rw [List.take_take, Nat.min_self]) ((his i).1 hi)]
  · rw [foldlM_byte_none f v ((his n).2 (by omega)) (by omega), load_none (by omega), Option.map_none]

end Arrays
