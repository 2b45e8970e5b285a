import ControlLogix.Tag

/-!
# The typed accessors as a store of bytes

A getter and a setter of the same type are one `Accessor`: a width and a way to write a value as a number of that many
bytes.  Every setter stores the number of its value little-endian, and every getter makes its value of the number at
its place (`set_eq`, `get_eq`), so that all of them follow from reading and overwriting a list of bytes.

* `accessors_store`: what a setter leaves for all getters, within the buffer and beyond its end.
-/

namespace ControlLogix

open Bytes

/-- The typed accessors of a `Tag`. -/
inductive Accessor where
  | bool
  | int8
  | int16
  | int32
  | int64
  | uint8
  | uint16
  | uint32
  | uint64
  | float32
  | float64
  deriving DecidableEq, Repr

namespace Accessor

/-- What the accessors exchange; a floating-point number is its bits. -/
abbrev Value : Accessor → Type
  | bool => Bool
  | int8 => Int8
  | int16 => Int16
  | int32 => Int32
  | int64 => Int64
  | uint8 => UInt8
  | uint16 => UInt16
  | uint32 => UInt32
  | uint64 => UInt64
  | float32 => UInt32
  | float64 => UInt64

def width : Accessor → Nat
  | bool | int8 | uint8 => 1
  | int16 | uint16 => 2
  | int32 | uint32 | float32 => 4
  | int64 | uint64 | float64 => 8

def set (t : Tag) (off : Nat) : (a : Accessor) → a.Value → Tag
  | bool, v => t.setBool off v
  | int8, v => t.setInt8 off v
  | int16, v => t.setInt16 off v
  | int32, v => t.setInt32 off v
  | int64, v => t.setInt64 off v
  | uint8, v => t.setUint8 off v
  | uint16, v => t.setUint16 off v
  | uint32, v => t.setUint32 off v
  | uint64, v => t.setUint64 off v
  | float32, v => t.setFloat32 off v
  | float64, v => t.setFloat64 off v

def get (t : Tag) (off : Nat) : (a : Accessor) → a.Value
  | bool => t.getBool off
  | int8 => t.getInt8 off
  | int16 => t.getInt16 off
  | int32 => t.getInt32 off
  | int64 => t.getInt64 off
  | uint8 => t.getUint8 off
  | uint16 => t.getUint16 off
  | uint32 => t.getUint32 off
  | uint64 => t.getUint64 off
  | float32 => t.getFloat32 off
  | float64 => t.getFloat64 off

/-- The value 0. -/
def zero : (a : Accessor) → a.Value
  | bool => false
  | int8 => 0
  | int16 => 0
  | int32 => 0
  | int64 => 0
  | uint8 => 0
  | uint16 => 0
  | uint32 => 0
  | uint64 => 0
  | float32 => 0
  | float64 => 0

/-- The number with the bits of a value; a negative one is in two's complement. -/
def bits : (a : Accessor) → a.Value → Nat
  | bool, v => v.toNat
  | int8, v => v.toUInt8.toNat
  | int16, v => v.toUInt16.toNat
  | int32, v => v.toUInt32.toNat
  | int64, v => v.toUInt64.toNat
  | uint8, v => UInt8.toNat v
  | uint16, v => UInt16.toNat v
  | uint32, v => UInt32.toNat v
  | uint64, v => UInt64.toNat v
  | float32, v => UInt32.toNat v
  | float64, v => UInt64.toNat v

/-- The value with the bits of a number; every number but 0 is a true `bool`. -/
def ofBits : (a : Accessor) → Nat → a.Value
  | bool, n => n != 0
  | int8, n => (UInt8.ofNat n).toInt8
  | int16, n => (UInt16.ofNat n).toInt16
  | int32, n => (UInt32.ofNat n).toInt32
  | int64, n => (UInt64.ofNat n).toInt64
  | uint8, n => UInt8.ofNat n
  | uint16, n => UInt16.ofNat n
  | uint32, n => UInt32.ofNat n
  | uint64, n => UInt64.ofNat n
  | float32, n => UInt32.ofNat n
  | float64, n => UInt64.ofNat n

/-! ### Values and numbers -/

theorem bits_lt (a : Accessor) (v : a.Value) : a.bits v < 256 ^ a.width := by
  cases a with
  | bool => cases v <;> decide
  | int8 => exact UInt8.toNat_lt _
  | int16 => exact UInt16.toNat_lt _
  | int32 => exact UInt32.toNat_lt _
  | int64 => exact UInt64.toNat_lt _
  | uint8 => exact UInt8.toNat_lt _
  | uint16 => exact UInt16.toNat_lt _
  | uint32 => exact UInt32.toNat_lt _
  | uint64 => exact UInt64.toNat_lt _
  | float32 => exact UInt32.toNat_lt _
  | float64 => exact UInt64.toNat_lt _

theorem ofBits_bits (a : Accessor) (v : a.Value) : a.ofBits (a.bits v) = v := by
  cases a with
  | bool => cases v <;> rfl
  | _ => simp [ofBits, bits]

/-- Only `bool` forgets bits. -/
theorem bits_ofBits {a : Accessor} (ha : a ≠ bool) {n : Nat} (h : n < 256 ^ a.width) : a.bits (a.ofBits n) = n := by
  cases a with
  | bool => exact absurd rfl ha
  | _ =>
    simp only [width] at h
    simp [ofBits, bits]
    omega

/-! ### What the accessors do to the bytes -/

theorem set_eq (t : Tag) (off : Nat) (a : Accessor) (v : a.Value) :
    a.set t off v = t.setBytes off (leBytes a.width (a.bits v)) := by
  have hbyte : ∀ b : UInt8, [b] = leBytes 1 b.toNat := by
    intro b
    simp [leBytes]
  cases a with
  | bool => cases v <;> rfl
  | int8 => exact congrArg (t.setBytes off) (hbyte _)
  | int16 => exact congrArg (t.setBytes off) (putU16_eq _)
  | int32 => exact congrArg (t.setBytes off) (putU32_eq _)
  | int64 => exact congrArg (t.setBytes off) (putU64_eq _)
  | uint8 => exact congrArg (t.setBytes off) (hbyte _)
  | uint16 => exact congrArg (t.setBytes off) (putU16_eq _)
  | uint32 => exact congrArg (t.setBytes off) (putU32_eq _)
  | uint64 => exact congrArg (t.setBytes off) (putU64_eq _)
  | float32 => exact congrArg (t.setBytes off) (putU32_eq _)
  | float64 => exact congrArg (t.setBytes off) (putU64_eq _)

/-- What a getter makes of the bytes at its place. -/
def decode (a : Accessor) (p : List UInt8) : a.Value := a.ofBits (peekLe a.width p)

theorem get_eq (t : Tag) (off : Nat) (a : Accessor) : a.get t off = t.getBytes off a.width a.decode a.zero := by
  have hbyte : ∀ p : List UInt8, UInt8.ofNat (peekLe 1 p) = peek p 0 := by
    intro p
    simp [peekLe, leNat]
  have hu16 : ∀ p : List UInt8, UInt16.ofNat (peekLe 2 p) = getU16 p := by
    intro p
    rw [← toNat_getU16, UInt16.ofNat_toNat]
  have hu32 : ∀ p : List UInt8, UInt32.ofNat (peekLe 4 p) = getU32 p := by
    intro p
    rw [← toNat_getU32, UInt32.ofNat_toNat]
  have hu64 : ∀ p : List UInt8, UInt64.ofNat (peekLe 8 p) = getU64 p := by
    intro p
    rw [← toNat_getU64, UInt64.ofNat_toNat]
  unfold Tag.getBytes
  cases a with
  | bool =>
    have htrue : ∀ p : List UInt8, (peekLe 1 p != 0) = (peek p 0 != 0) := by
      intro p
      rw [← hbyte p, Bool.eq_iff_iff]
      simp [peekLe, leNat, ← UInt8.toNat_inj]
    simp only [get, Tag.getBool, Tag.getBytes, decode, ofBits, width, zero, htrue]
  | int8 => simp only [get, Tag.getInt8, Tag.getBytes, decode, ofBits, width, zero, hbyte]
  | int16 => simp only [get, Tag.getInt16, Tag.getBytes, decode, ofBits, width, zero, hu16]
  | int32 => simp only [get, Tag.getInt32, Tag.getBytes, decode, ofBits, width, zero, hu32]
  | int64 => simp only [get, Tag.getInt64, Tag.getBytes, decode, ofBits, width, zero, hu64]
  | uint8 => simp only [get, Tag.getUint8, Tag.getBytes, decode, ofBits, width, zero, hbyte]
  | uint16 => simp only [get, Tag.getUint16, Tag.getBytes, decode, ofBits, width, zero, hu16]
  | uint32 => simp only [get, Tag.getUint32, Tag.getBytes, decode, ofBits, width, zero, hu32]
  | uint64 => simp only [get, Tag.getUint64, Tag.getBytes, decode, ofBits, width, zero, hu64]
  | float32 => simp only [get, Tag.getFloat32, Tag.getBytes, decode, ofBits, width, zero, hu32]
  | float64 => simp only [get, Tag.getFloat64, Tag.getBytes, decode, ofBits, width, zero, hu64]

theorem width_le (a : Accessor) : a.width ≤ 8 := by
  cases a <;> decide

theorem inBounds_iff {off size : Nat} (h : size ≤ kMaxDataSize) :
    Tag.InBounds off size ↔ off + size ≤ kMaxDataSize := by
  unfold Tag.InBounds
  omega

/-- `inBounds()` as it is computed in a `size_t` of `w` bits. -/
def sizeInBounds {w : Nat} (off size : BitVec w) : Bool :=
  size ≤ BitVec.ofNat w kMaxDataSize && off ≤ BitVec.ofNat w kMaxDataSize - size

/-- No difference wraps, whatever the offset. -/
theorem sizeInBounds_iff {w : Nat} (hw : 16 ≤ w) (off : BitVec w) (a : Accessor) :
    sizeInBounds off (BitVec.ofNat w a.width) = true ↔ Tag.InBounds off.toNat a.width := by
  have hk : kMaxDataSize = 256 := rfl
  have ha := a.width_le
  have hpow : 2 ^ 16 ≤ 2 ^ w := Nat.pow_le_pow_right (by omega) hw
  have hsize : (BitVec.ofNat w a.width).toNat = a.width := by
    rw [BitVec.toNat_ofNat, Nat.mod_eq_of_lt (by omega)]
  have hmax : (BitVec.ofNat w kMaxDataSize).toNat = kMaxDataSize := by
    rw [BitVec.toNat_ofNat, Nat.mod_eq_of_lt (by omega)]
  have hle : BitVec.ofNat w a.width ≤ BitVec.ofNat w kMaxDataSize := by
    rw [BitVec.le_def, hsize, hmax]
    omega
  unfold sizeInBounds Tag.InBounds
  simp only [hle, decide_true, Bool.true_and, decide_eq_true_eq]
  rw [BitVec.le_def, BitVec.toNat_sub_of_le hle, hsize, hmax]
  omega

/-! ### The bytes after a setter -/

section Store

variable {t : Tag} {off : Nat} {a : Accessor} {v : a.Value}

/-- `t'` is `t` with these bytes at the offset and nothing else changed. -/
structure Stores (t : Tag) (off : Nat) (bs : List UInt8) (t' : Tag) : Prop where
  bytes : ∀ i : Nat, t'.data.bytes[i]? = if off ≤ i ∧ i < off + bs.length then bs[i - off]? else t.data.bytes[i]?
  rest : { t' with data := t.data } = t

theorem set_inside (h : off + a.width ≤ kMaxDataSize) :
    (a.set t off v).data.bytes = store t.data.bytes off (leBytes a.width (a.bits v)) ∧
      { a.set t off v with data := t.data } = t := by
  have hin : Tag.InBounds off (leBytes a.width (a.bits v)).length := by
    rw [length_leBytes]
    exact (inBounds_iff (by omega)).2 h
  rw [set_eq, Tag.setBytes, dif_pos hin]
  exact ⟨rfl, rfl⟩

/-- Beyond the end of the buffer a setter does nothing. -/
theorem set_outside (h : kMaxDataSize < off + a.width) : a.set t off v = t := by
  have ha := a.width_le
  have hk : kMaxDataSize = 256 := rfl
  rw [set_eq, Tag.setBytes, dif_neg]
  rw [length_leBytes, inBounds_iff (by omega)]
  omega

theorem get_outside (h : kMaxDataSize < off + a.width) : a.get t off = a.zero := by
  have ha := a.width_le
  have hk : kMaxDataSize = 256 := rfl
  rw [get_eq, Tag.getBytes, if_neg]
  rw [inBounds_iff (by omega)]
  omega

theorem stores_set (h : off + a.width ≤ kMaxDataSize) :
    Stores t off (leBytes a.width (a.bits v)) (a.set t off v) := by
  obtain ⟨hbytes, hrest⟩ := set_inside (t := t) (v := v) h
  refine ⟨fun i => ?_, hrest⟩
  rw [hbytes, getElem?_store]
  rw [length_leBytes, t.data.size]
  exact h

/-- A getter reads the bytes of its range only. -/
theorem get_congr {t t' : Tag} {b : Accessor}
    (h : (t'.data.bytes.drop off).take b.width = (t.data.bytes.drop off).take b.width) :
    b.get t' off = b.get t off := by
  rw [get_eq, get_eq, Tag.getBytes, Tag.getBytes, decode, decode, peekLe_congr h]

/-- A getter of the width of the setter, at the same place, reads the number that was stored. -/
theorem get_set (h : off + a.width ≤ kMaxDataSize) {b : Accessor} (hb : b.width = a.width) :
    b.get (a.set t off v) off = b.ofBits (a.bits v) := by
  have hk : kMaxDataSize = 256 := rfl
  have hread : ((a.set t off v).data.bytes.drop off).take a.width = leBytes a.width (a.bits v) := by
    have hfits : off + (leBytes a.width (a.bits v)).length ≤ t.data.bytes.length := by
      rw [length_leBytes, t.data.size]
      exact h
    have hslice := slice_store hfits
    rw [length_leBytes] at hslice
    rw [(set_inside h).1, hslice]
  have hnumber : peekLe a.width ((a.set t off v).data.bytes.drop off) = a.bits v := by
    rw [← List.take_append_drop a.width ((a.set t off v).data.bytes.drop off), hread, peekLe_leBytes (a.bits_lt v)]
  rw [get_eq, Tag.getBytes, if_pos ((inBounds_iff (by omega)).2 (by omega)), decode, hb, hnumber]

/-- A getter beside the stored bytes reads what it read before. -/
theorem get_set_disjoint (h : off + a.width ≤ kMaxDataSize) {b : Accessor} {i : Nat}
    (hd : i + b.width ≤ off ∨ off + a.width ≤ i) : b.get (a.set t off v) i = b.get t i := by
  apply get_congr
  rw [(set_inside h).1, slice_store_disjoint]
  · rw [length_leBytes, t.data.size]
    exact h
  · rw [length_leBytes]
    exact hd

/-- The typed accessors are a store addressed by bytes.  Within the buffer a setter stores its value little-endian and
nothing else; the getter of its type reads the value back, every other getter of its width the same bits, and the
getters beside it read what they read before.  Beyond the end of the buffer nothing is stored and 0 is read, for every
offset a `size_t` holds. -/
theorem accessors_store {w : Nat} (hw : 16 ≤ w) (t : Tag) (off : BitVec w) (a : Accessor) (v : a.Value) :
    (sizeInBounds off (BitVec.ofNat w a.width) = true ↔ off.toNat + a.width ≤ kMaxDataSize) ∧
    (off.toNat + a.width ≤ kMaxDataSize →
      a.get (a.set t off.toNat v) off.toNat = v ∧
      (∀ b : Accessor, b.width = a.width → b ≠ bool → b.bits (b.get (a.set t off.toNat v) off.toNat) = a.bits v) ∧
      Stores t off.toNat (leBytes a.width (a.bits v)) (a.set t off.toNat v) ∧
      ∀ (b : Accessor) (i : BitVec w), i.toNat + b.width ≤ off.toNat ∨ off.toNat + a.width ≤ i.toNat →
        b.get (a.set t off.toNat v) i.toNat = b.get t i.toNat) ∧
    (kMaxDataSize < off.toNat + a.width → a.set t off.toNat v = t ∧ a.get t off.toNat = a.zero) := by
  have ha := a.width_le
  have hk : kMaxDataSize = 256 := rfl
  refine ⟨(sizeInBounds_iff hw off a).trans (inBounds_iff (by omega)), fun h => ⟨?_, ?_, stores_set h, ?_⟩,
    fun h => ⟨set_outside h, get_outside h⟩⟩
  · rw [get_set h rfl, ofBits_bits]
  · intro b hb hne
    rw [get_set h hb, bits_ofBits hne]
    rw [hb]
    exact a.bits_lt v
  · intro b i hd
    exact get_set_disjoint h hd

theorem accessors_store_last : ({ data := .zero } : Tag).getInt16 254 = 0 ∧
    ((({ data := .zero } : Tag).setInt16 254 (-2)).getInt16 254 = -2) ∧
    ({ data := .zero } : Tag).setInt16 0xFFFFFFFF (-2) = { data := .zero } := by
  have hlast := accessors_store (w := 32) (by decide) { data := .zero } 254 .int16 (-2)
  have htop := accessors_store (w := 32) (by decide) { data := .zero } 0xFFFFFFFF .int16 (-2)
  exact ⟨by decide +kernel, (hlast.2.1 (by decide)).1, (htop.2.2 (by decide)).1⟩

end Store

end Accessor

end ControlLogix
