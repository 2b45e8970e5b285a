import ControlLogix.Arrays
import ControlLogix.Tag

/-!
# The STRING accessors

A Logix STRING is a length of four bytes and the characters after it.  What `getString()` hands out is bounded by this
length, by the number of bytes received and by the buffer of the caller; `getStringIn` is the same function on arrays
of these two sizes, where an access beyond one of them fails.

* `getString_in`: it never fails, and is `getString()`;
* `strings_safe`: the round trip through `setString()`, and the bounds for all contents of the buffer.
-/

namespace ControlLogix

open Bytes
open Arrays

/-- The characters at a pointer, up to the first NUL. -/
def cString (p : List UInt8) : List UInt8 := p.takeWhile fun c => c != 0

theorem cString_append {s : List UInt8} (h : 0 ∉ s) (rest : List UInt8) : cString (s ++ 0 :: rest) = s := by
  unfold cString
  induction s with
  | nil => rfl
  | cons c s ih =>
    have hc : (c != 0) = true := by
      rw [bne_iff_ne]
      intro e
      exact h (e ▸ List.mem_cons_self)
    rw [List.cons_append, List.takeWhile_cons, if_pos hc, ih fun hs => h (List.mem_cons_of_mem _ hs)]

namespace Tag

/-- `getString()` on the bytes received and on the buffer of the caller, which has `bufLen` bytes. -/
def getStringIn (received buf : List UInt8) : Option (Nat × List UInt8) :=
  let bufLen := buf.length
  if received.length < 4 ∨ bufLen = 0 then some (0, buf)
  else
    (load received 0 4).bind fun head =>
      let len := (getU32 head).toNat
      let n := if len < received.length - 4 then len else received.length - 4
      let n := if n > bufLen - 1 then bufLen - 1 else n
      (load received 4 n).bind fun chars =>
        (put buf 0 chars).bind fun buf => (put buf n [0]).bind fun buf => some (n, buf)

/-- The number of characters that `getString()` hands out, of a text of length `len`. -/
private def handedOut (len received bufLen : Nat) : Nat :=
  let n := if len < received - 4 then len else received - 4
  if n > bufLen - 1 then bufLen - 1 else n

private theorem handedOut_le (len received bufLen : Nat) :
    handedOut len received bufLen ≤ len ∧ handedOut len received bufLen ≤ received - 4 ∧
      handedOut len received bufLen ≤ bufLen - 1 := by
  unfold handedOut
  dsimp only
  split <;> split <;> omega

section Read

variable {t : Tag}

/-- What `getString()` does to a buffer of `bufLen` bytes that lies before others. -/
private theorem getString_some {buf rest : List UInt8} (h4 : 4 ≤ t.dataLen) (hbuf : 0 < buf.length) {n : Nat}
    (hn : n = handedOut (getU32 t.data.bytes).toNat t.dataLen buf.length) :
    t.getString (some (buf ++ rest)) buf.length =
      (n, some (store (buf ++ rest) 0 ((t.data.bytes.drop 4).take n ++ [0]))) := by
  subst hn
  unfold getString
  dsimp only
  rw [if_neg (by omega)]
  rfl

/-- On the bytes received and the buffer of the caller no access fails, and the result is that of `getString()`. -/
theorem getString_in (ht : t.dataLen ≤ kMaxDataSize) (buf rest : List UInt8) :
    ∃ n buf', getStringIn (t.data.bytes.take t.dataLen) buf = some (n, buf') ∧ buf'.length = buf.length ∧
      t.getString (some (buf ++ rest)) buf.length = (n, some (buf' ++ rest)) := by
  have hlen : (t.data.bytes.take t.dataLen).length = t.dataLen := by
    rw [List.length_take, t.data.size]
    omega
  by_cases hshort : t.dataLen < 4 ∨ buf.length = 0
  · refine ⟨0, buf, ?_, rfl, ?_⟩
    · unfold getStringIn
      dsimp only
      rw [if_pos (by rw [hlen]; exact hshort)]
    · unfold getString
      dsimp only
      rw [if_pos hshort]
  · have h4 : 4 ≤ t.dataLen := by omega
    have hbuf : 0 < buf.length := by omega
    obtain ⟨n, hn⟩ : ∃ n, n = handedOut (getU32 t.data.bytes).toNat t.dataLen buf.length := ⟨_, rfl⟩
    obtain ⟨-, hread, hwrite⟩ := handedOut_le (getU32 t.data.bytes).toNat t.dataLen buf.length
    rw [← hn] at hread hwrite
    have hhead : load (t.data.bytes.take t.dataLen) 0 4 = some (t.data.bytes.take 4) := by
      rw [load_eq (by omega), List.drop_zero, List.take_take, Nat.min_eq_left h4]
    have hchars : load (t.data.bytes.take t.dataLen) 4 n = some ((t.data.bytes.drop 4).take n) := by
      rw [load_eq (by omega), List.drop_take, List.take_take, Nat.min_eq_left hread]
    have hlead : getU32 (t.data.bytes.take 4) = getU32 t.data.bytes := by
      apply getU32_congr
      rw [List.take_take, Nat.min_self]
    have hsize : ((t.data.bytes.drop 4).take n).length = n := by
      have := t.data.size
      rw [List.length_take, List.length_drop]
      omega
    -- the characters and the NUL are stored as one, within the buffer
    have hfirst : put buf 0 ((t.data.bytes.drop 4).take n) = some (store buf 0 ((t.data.bytes.drop 4).take n)) :=
      put_eq (by omega)
    have hsecond : put (store buf 0 ((t.data.bytes.drop 4).take n)) n [0] =
        some (store buf 0 ((t.data.bytes.drop 4).take n ++ [0])) := by
      have hone := store_store ((t.data.bytes.drop 4).take n) [0] (Nat.zero_le buf.length)
      rw [Nat.zero_add, hsize] at hone
      rw [put_eq, hone]
      rw [length_store (by omega)]
      show n + 1 ≤ buf.length
      omega
    refine ⟨n, store buf 0 ((t.data.bytes.drop 4).take n ++ [0]), ?_, ?_, ?_⟩
    · have hn' : n = if (if (getU32 t.data.bytes).toNat < t.dataLen - 4 then (getU32 t.data.bytes).toNat
          else t.dataLen - 4) > buf.length - 1 then buf.length - 1
        else if (getU32 t.data.bytes).toNat < t.dataLen - 4 then (getU32 t.data.bytes).toNat
          else t.dataLen - 4 := hn
      unfold getStringIn
      dsimp only
      rw [if_neg (by rw [hlen]; exact hshort), hhead, Option.bind_some]
      rw [hlead, hlen, ← hn', hchars, Option.bind_some, hfirst, Option.bind_some, hsecond, Option.bind_some]
    · rw [length_store]
      rw [List.length_append, hsize, List.length_singleton]
      omega
    · rw [getString_some h4 hbuf hn]
      have hfits : ((t.data.bytes.drop 4).take n ++ [0]).length ≤ buf.length := by
        rw [List.length_append, hsize, List.length_singleton]
        omega
      rw [store, store, List.take_zero, List.take_zero, List.drop_append_of_le_length (by omega)]
      simp only [List.nil_append, List.append_assoc]

/-- Reading back what `setString()` has stored. -/
theorem getString_setString (s buf : List UInt8) {bufLen : Nat} (hpos : 1 ≤ bufLen) {n : Nat}
    (hn : n = min (min s.length (kMaxDataSize - 4)) (bufLen - 1)) :
    (t.setString (some s)).getString (some buf) bufLen = (n, some (store buf 0 (s.take n ++ [0]))) := by
  have hk : kMaxDataSize = 256 := rfl
  obtain ⟨len, hlen⟩ : ∃ len, len = min s.length (kMaxDataSize - 4) := ⟨_, rfl⟩
  have hset : t.setString (some s) = { t with
      data := t.data.put 0 (putU32 (UInt32.ofNat len) ++ s.take len) (by simp [kMaxDataSize, hlen]; omega)
      dataLen := 4 + len } := by
    subst hlen
    rfl
  have hbytes : ∀ rest : List UInt8, t.data.bytes.drop (0 + (putU32 (UInt32.ofNat len) ++ s.take len).length) = rest →
      (t.setString (some s)).data.bytes = putU32 (UInt32.ofNat len) ++ (s.take len ++ rest) := by
    intro rest hrest
    rw [hset]
    show store t.data.bytes 0 _ = _
    rw [store, List.take_zero, List.nil_append, hrest, List.append_assoc]
  have hlead : (getU32 (t.setString (some s)).data.bytes).toNat = len := by
    rw [hbytes _ rfl, getU32_putU32, UInt32.toNat_ofNat']
    omega
  have htext : ((t.setString (some s)).data.bytes.drop 4).take n = s.take n := by
    rw [hbytes _ rfl, List.drop_left' (length_putU32 _), List.take_append_of_le_length, List.take_take,
      Nat.min_eq_left (by omega)]
    rw [List.length_take]
    omega
  have hdata : (t.setString (some s)).dataLen = 4 + len := by rw [hset]
  have hcount : handedOut len (4 + len) bufLen = n := by
    unfold handedOut
    dsimp only
    split <;> split <;> omega
  unfold handedOut at hcount
  unfold getString
  dsimp only at hcount ⊢
  rw [if_neg (by omega), hlead, hdata, hcount, htext]

/-- A text of a C string comes back as long as a tag and the buffer have room for it, with a NUL after it and nothing
else changed.  And whatever a tag has received, `getString()` reads no further than that and writes no further than
the buffer of the caller goes. -/
theorem strings_safe (t : Tag) :
    (∀ (s rest buf : List UInt8) (bufLen : Nat), 0 ∉ s → 1 ≤ bufLen → bufLen ≤ buf.length →
      ∀ n, n = min (min s.length 252) (bufLen - 1) →
        (t.setString (some (cString (s ++ 0 :: rest)))).getString (some buf) bufLen =
          (n, some (s.take n ++ [0] ++ buf.drop (n + 1)))) ∧
    (t.dataLen ≤ kMaxDataSize → ∀ buf rest : List UInt8,
      ∃ n buf', getStringIn (t.data.bytes.take t.dataLen) buf = some (n, buf') ∧ buf'.length = buf.length ∧
        t.getString (some (buf ++ rest)) buf.length = (n, some (buf' ++ rest))) := by
  refine ⟨fun s rest buf bufLen hs hpos hbuf n hn => ?_, fun ht buf rest => getString_in ht buf rest⟩
  have hlen : (s.take n ++ [0]).length = n + 1 := by
    rw [List.length_append, List.length_take, List.length_singleton]
    omega
  rw [cString_append hs, getString_setString s buf hpos hn, store, hlen, List.take_zero, List.nil_append,
    Nat.zero_add]

end Read

/-- The text "abc" in a buffer of three bytes, and a length prefix of 2^32 - 1 before two received bytes. -/
theorem strings_safe_cut :
    (({ data := .zero } : Tag).setString (some (cString [97, 98, 99, 0, 7]))).getString (some [1, 2, 3, 4]) 3 =
      (2, some [97, 98, 0, 4]) ∧
    ∃ n buf', getStringIn [0xFF, 0xFF, 0xFF, 0xFF, 97, 98] [1, 2, 3, 4] = some (n, buf') ∧ buf'.length = 4 := by
  have hcut := (strings_safe { data := .zero }).1 [97, 98, 99] [7] [1, 2, 3, 4] 3 (by decide) (by decide)
    (by decide) 2 (by decide)
  have hall :=
    (strings_safe { data := TagData.zero.put 0 [0xFF, 0xFF, 0xFF, 0xFF, 97, 98] (by decide), dataLen := 6 }).2
      (by decide) [1, 2, 3, 4] []
  obtain ⟨n, buf', hin, hlen, -⟩ := hall
  exact ⟨hcut, n, buf', hin, hlen⟩

end Tag

end ControlLogix
