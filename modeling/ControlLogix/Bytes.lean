import Mathlib.Algebra.Group.Nat.Defs
import Mathlib.Data.List.Basic

/-!
# Byte strings

General facts about lists of bytes, used by every codec and buffer above:

* `leBytes n v` is the `n`-byte little-endian encoding of `v` and `leNat` reads such an encoding back; the two are
  inverse to each other (`leNat_leBytes`, `leBytes_leNat`);
* `peek p i` is the byte at offset `i` of a pointer `p`, and `peekLe n p` the little-endian number stored there;
* `store buf off bs` overwrites `buf` from `off` on.  The bytes below `off` stay and the stored bytes follow them
  (`take_store`), which is the only fact about a receive buffer a framing loop needs.
-/

namespace Bytes

/-- The `n`-byte little-endian encoding of `v`, which is cut to its low `n` bytes. -/
def leBytes : Nat → Nat → List UInt8
  | 0, _ => []
  | n + 1, v => UInt8.ofNat v :: leBytes n (v / 256)

/-- The number a little-endian byte string denotes. -/
def leNat : List UInt8 → Nat
  | [] => 0
  | b :: bs => b.toNat + 256 * leNat bs

@[simp] theorem length_leBytes (n v : Nat) : (leBytes n v).length = n := by
  induction n generalizing v with
  | zero => rfl
  | succ n ih => simp [leBytes, ih]

theorem leNat_lt (bs : List UInt8) : leNat bs < 256 ^ bs.length := by
  induction bs with
  | nil => simp [leNat]
  | cons b bs ih =>
    have hb := b.toNat_lt
    rw [leNat, List.length_cons, Nat.pow_succ]
    omega

theorem leNat_leBytes {n v : Nat} (h : v < 256 ^ n) : leNat (leBytes n v) = v := by
  induction n generalizing v with
  | zero => simp at h; simp [leBytes, leNat, h]
  | succ n ih =>
    have hv : v / 256 < 256 ^ n := by
      rw [Nat.pow_succ] at h
      omega
    rw [leBytes, leNat, ih hv]
    simp only [UInt8.toNat_ofNat']
    omega

theorem leBytes_leNat (bs : List UInt8) : leBytes bs.length (leNat bs) = bs := by
  induction bs with
  | nil => rfl
  | cons b bs ih =>
    have hb := b.toNat_lt
    rw [List.length_cons, leBytes, leNat]
    congr 1
    · apply UInt8.toNat_inj.1
      simp only [UInt8.toNat_ofNat']
      omega
    · rw [show (b.toNat + 256 * leNat bs) / 256 = leNat bs by omega, ih]

/-! ### Reading at a pointer -/

/-- The byte at offset `i` of the pointer `p`. -/
def peek (p : List UInt8) (i : Nat) : UInt8 := p.getD i 0

/-- The little-endian number in the first `n` bytes at `p`. -/
def peekLe (n : Nat) (p : List UInt8) : Nat := leNat ((List.range n).map (peek p))

theorem peek_congr {p q : List UInt8} {n : Nat} (h : p.take n = q.take n) {i : Nat} (hi : i < n) :
    peek p i = peek q i := by
  have e := congrArg (fun l : List UInt8 => l.getD i 0) h
  simpa [peek, List.getD_eq_getElem?_getD, List.getElem?_take, hi] using e

theorem peek_append_right {p q : List UInt8} {i : Nat} (h : p.length ≤ i) :
    peek (p ++ q) i = peek q (i - p.length) := by
  rw [peek, peek, List.getD_eq_getElem?_getD, List.getD_eq_getElem?_getD, List.getElem?_append_right h]

theorem peekLe_congr {p q : List UInt8} {n : Nat} (h : p.take n = q.take n) : peekLe n p = peekLe n q := by
  unfold peekLe
  congr 1
  apply List.map_congr_left
  intro i hi
  exact peek_congr h (List.mem_range.1 hi)

theorem map_peek_append (bs rest : List UInt8) : (List.range bs.length).map (peek (bs ++ rest)) = bs := by
  apply List.ext_getElem
  · simp
  · intro i h1 h2
    simp [peek, List.getD_eq_getElem?_getD, List.getElem?_append_left h2, List.getElem?_eq_getElem h2]

theorem peekLe_append (bs rest : List UInt8) : peekLe bs.length (bs ++ rest) = leNat bs := by
  rw [peekLe, map_peek_append]

theorem peekLe_leBytes {n v : Nat} (h : v < 256 ^ n) (rest : List UInt8) :
    peekLe n (leBytes n v ++ rest) = v := by
  have e := peekLe_append (leBytes n v) rest
  rw [length_leBytes] at e
  rw [e, leNat_leBytes h]

/-- A number that was read is encoded by the bytes it was read from. -/
theorem leBytes_peekLe {n : Nat} {p : List UInt8} (h : n ≤ p.length) : leBytes n (peekLe n p) = p.take n := by
  have hlen : (p.take n).length = n := by
    rw [List.length_take]
    omega
  have hread := peekLe_append (p.take n) (p.drop n)
  have hback := leBytes_leNat (p.take n)
  rw [hlen, List.take_append_drop] at hread
  rw [hlen] at hback
  rw [hread, hback]

theorem take_drop_congr {p q : List UInt8} {m : Nat} (h : p.take m = q.take m) {k n : Nat} (hk : k + n ≤ m) :
    (p.drop k).take n = (q.drop k).take n := by
  have e := congrArg (fun l => (l.drop k).take n) h
  simpa [List.drop_take, List.take_take, show min n (m - k) = n by omega] using e

/-! ### Words of a machine, put together from bytes -/

theorem or_shiftLeft {a i : Nat} (b : Nat) (h : a < 2 ^ i) : a ||| (b <<< i) = a + 2 ^ i * b := by
  rw [Nat.or_comm, ← Nat.shiftLeft_add_eq_or_of_lt h, Nat.shiftLeft_eq, Nat.add_comm, Nat.mul_comm]

/-! ### Overwriting a buffer -/

/-- `buf` with `bs` stored from offset `off` on. -/
def store (buf : List UInt8) (off : Nat) (bs : List UInt8) : List UInt8 :=
  buf.take off ++ bs ++ buf.drop (off + bs.length)

theorem take_store {buf : List UInt8} {off : Nat} (bs : List UInt8) (h : off ≤ buf.length) :
    (store buf off bs).take (off + bs.length) = buf.take off ++ bs := by
  have hl : (buf.take off ++ bs).length = off + bs.length := by simp; omega
  rw [store, ← hl, List.take_left]

theorem take_store_of_le {buf : List UInt8} {off k : Nat} (bs : List UInt8) (hk : k ≤ off)
    (h : off ≤ buf.length) : (store buf off bs).take k = buf.take k := by
  rw [store, List.append_assoc, List.take_append_of_le_length (by simp; omega), List.take_take,
    Nat.min_eq_left hk]

theorem length_store_ge {buf : List UInt8} {off : Nat} (bs : List UInt8) (h : off ≤ buf.length) :
    off + bs.length ≤ (store buf off bs).length := by
  simp [store]
  omega

theorem length_store {buf : List UInt8} {off : Nat} {bs : List UInt8} (h : off + bs.length ≤ buf.length) :
    (store buf off bs).length = buf.length := by
  simp [store]
  omega

/-- The stored bytes lie at their place, and the others are those of before. -/
theorem getElem?_store {buf : List UInt8} {off : Nat} {bs : List UInt8} (h : off + bs.length ≤ buf.length) (i : Nat) :
    (store buf off bs)[i]? = if off ≤ i ∧ i < off + bs.length then bs[i - off]? else buf[i]? := by
  have hoff : (buf.take off).length = off := by
    rw [List.length_take]
    omega
  have hhead : (buf.take off ++ bs).length = off + bs.length := by rw [List.length_append, hoff]
  rw [store]
  by_cases hi : i < off + bs.length
  · rw [List.getElem?_append_left (hhead ▸ hi)]
    by_cases hlow : i < off
    · rw [List.getElem?_append_left (hoff.symm ▸ hlow), if_neg (by omega), List.getElem?_take_of_lt hlow]
    · rw [List.getElem?_append_right (by omega), hoff, if_pos (by omega)]
  · rw [List.getElem?_append_right (by omega), hhead, if_neg (by omega), List.getElem?_drop]
    congr 1
    omega

/-- Reading where the bytes were stored. -/
theorem slice_store {buf : List UInt8} {off : Nat} {bs : List UInt8} (h : off + bs.length ≤ buf.length) :
    ((store buf off bs).drop off).take bs.length = bs := by
  rw [List.take_drop, take_store bs (by omega), List.drop_left' (by rw [List.length_take]; omega)]

/-- Reading beside them. -/
theorem slice_store_disjoint {buf : List UInt8} {off i n : Nat} {bs : List UInt8} (h : off + bs.length ≤ buf.length)
    (hd : i + n ≤ off ∨ off + bs.length ≤ i) : ((store buf off bs).drop i).take n = (buf.drop i).take n := by
  apply List.ext_getElem?
  intro j
  by_cases hj : j < n
  · rw [List.getElem?_take_of_lt hj, List.getElem?_take_of_lt hj, List.getElem?_drop, List.getElem?_drop,
      getElem?_store h, if_neg (by omega)]
  · rw [List.getElem?_take_eq_none (by omega), List.getElem?_take_eq_none (by omega)]

/-- Storing what lies there changes nothing. -/
theorem store_slice (buf : List UInt8) (off n : Nat) : store buf off ((buf.drop off).take n) = buf := by
  have hrest : buf.drop (off + ((buf.drop off).take n).length) = (buf.drop off).drop n := by
    rw [List.length_take, List.drop_drop]
    by_cases hn : n ≤ (buf.drop off).length
    · rw [Nat.min_eq_left hn]
    · rw [List.length_drop] at hn ⊢
      rw [List.drop_of_length_le (by omega), List.drop_of_length_le (by omega)]
  rw [store, hrest, List.append_assoc, List.take_append_drop, List.take_append_drop]

@[simp] theorem store_nil (buf : List UInt8) (off : Nat) : store buf off [] = buf := by
  simp [store]

/-- Two stores one after the other are one. -/
theorem store_store {buf : List UInt8} {off : Nat} (xs ys : List UInt8) (h : off ≤ buf.length) :
    store (store buf off xs) (off + xs.length) ys = store buf off (xs ++ ys) := by
  have hdrop : (store buf off xs).drop (off + xs.length + ys.length) = buf.drop (off + xs.length + ys.length) := by
    have hl : (buf.take off ++ xs).length = off + xs.length := by
      rw [List.length_append, List.length_take, Nat.min_eq_left h]
    rw [store, ← hl, ← List.drop_drop, List.drop_left, List.drop_drop]
  have hlen : off + xs.length + ys.length = off + (xs ++ ys).length := by
    rw [List.length_append]
    omega
  rw [store, hdrop, take_store xs h, hlen, store]
  simp only [List.append_assoc]

/-- A store before another one that it adjoins. -/
theorem store_before {buf : List UInt8} {off : Nat} {xs ys : List UInt8}
    (h : off + xs.length + ys.length ≤ buf.length) :
    store (store buf (off + xs.length) ys) off xs = store buf off (xs ++ ys) := by
  have hlen : (store buf (off + xs.length) ys).length = buf.length := length_store h
  have hboth : off + (xs ++ ys).length ≤ buf.length := by
    rw [List.length_append]
    omega
  apply List.ext_getElem?
  intro i
  rw [getElem?_store (by omega), getElem?_store h, getElem?_store hboth, List.length_append]
  by_cases hlow : off ≤ i ∧ i < off + xs.length
  · rw [if_pos hlow, if_pos (by omega), List.getElem?_append_left (by omega)]
  · by_cases hhigh : off + xs.length ≤ i ∧ i < off + xs.length + ys.length
    · rw [if_neg hlow, if_pos hhigh, if_pos (by omega), List.getElem?_append_right (by omega)]
      congr 1
      omega
    · rw [if_neg hlow, if_neg hhigh, if_neg (by omega)]

end Bytes
