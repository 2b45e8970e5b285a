import ControlLogix.Bytes

/-!
# EtherNet/IP encapsulation

Every message is a 24-byte header, all fields little-endian, followed by a body.  The `put` and `get` helpers and
the header codec are those of `Encapsulation.cpp`; a pointer is the list of bytes from it on.

* `decodeHeader_encodeHeader`: decoding an encoded header gives it back, whatever follows it;
* `encodeHeader_decodeHeader`: encoding a decoded header gives the bytes it was decoded from;
* `decodeHeader_congr`: decoding reads the first 24 bytes only.
-/

namespace ControlLogix

open Bytes

/-- The encapsulation command codes the client sends. -/
inductive Command where
  | registerSession
  | unregisterSession
  | sendRRData
  | sendUnitData
  deriving DecidableEq, Repr

def Command.code : Command → UInt16
  | .registerSession => 0x0065
  | .unregisterSession => 0x0066
  | .sendRRData => 0x006F
  | .sendUnitData => 0x0070

def kEncapsulationHeaderSize : Nat := 24

structure EncapsulationHeader where
  command : UInt16 := 0
  length : UInt16 := 0
  session : UInt32 := 0
  status : UInt32 := 0
  context : UInt64 := 0
  options : UInt32 := 0
  deriving DecidableEq, Repr

def putU16 (v : UInt16) : List UInt8 := [v.toUInt8, (v >>> 8).toUInt8]

def putU32 (v : UInt32) : List UInt8 :=
  [v.toUInt8, (v >>> 8).toUInt8, (v >>> 16).toUInt8, (v >>> 24).toUInt8]

def putU64 (v : UInt64) : List UInt8 :=
  (List.range 8).map fun i => (v >>> UInt64.ofNat (8 * i)).toUInt8

def getU16 (p : List UInt8) : UInt16 := (peek p 0).toUInt16 ||| ((peek p 1).toUInt16 <<< 8)

def getU32 (p : List UInt8) : UInt32 :=
  (peek p 0).toUInt32 ||| ((peek p 1).toUInt32 <<< 8) ||| ((peek p 2).toUInt32 <<< 16) |||
    ((peek p 3).toUInt32 <<< 24)

/-- The loop runs from the last byte down to the first. -/
def getU64 (p : List UInt8) : UInt64 :=
  (List.range 8).foldr (fun i v => (v <<< 8) ||| (peek p i).toUInt64) 0

def encodeHeader (h : EncapsulationHeader) : List UInt8 :=
  putU16 h.command ++ putU16 h.length ++ putU32 h.session ++ putU32 h.status ++ putU64 h.context ++
    putU32 h.options

def decodeHeader (p : List UInt8) : EncapsulationHeader where
  command := getU16 p
  length := getU16 (p.drop 2)
  session := getU32 (p.drop 4)
  status := getU32 (p.drop 8)
  context := getU64 (p.drop 12)
  options := getU32 (p.drop 20)

/-! ### The helpers read and write little-endian numbers -/

@[simp] theorem length_putU16 (v : UInt16) : (putU16 v).length = 2 := rfl

@[simp] theorem length_putU32 (v : UInt32) : (putU32 v).length = 4 := rfl

@[simp] theorem length_putU64 (v : UInt64) : (putU64 v).length = 8 := rfl

@[simp] theorem length_encodeHeader (h : EncapsulationHeader) :
    (encodeHeader h).length = kEncapsulationHeaderSize := rfl

theorem putU16_eq (v : UInt16) : putU16 v = leBytes 2 v.toNat := by
  simp only [putU16, leBytes, List.cons.injEq, and_true]
  constructor <;> apply UInt8.toNat_inj.1 <;> simp [Nat.shiftRight_eq_div_pow]

theorem putU32_eq (v : UInt32) : putU32 v = leBytes 4 v.toNat := by
  simp only [putU32, leBytes, List.cons.injEq, and_true]
  refine ⟨?_, ?_, ?_, ?_⟩ <;> apply UInt8.toNat_inj.1 <;>
    simp [Nat.shiftRight_eq_div_pow, Nat.div_div_eq_div_mul]

theorem putU64_eq (v : UInt64) : putU64 v = leBytes 8 v.toNat := by
  have hr : List.range 8 = [0, 1, 2, 3, 4, 5, 6, 7] := rfl
  simp only [putU64, hr, List.map_cons, List.map_nil, leBytes, List.cons.injEq, and_true]
  refine ⟨?_, ?_, ?_, ?_, ?_, ?_, ?_, ?_⟩ <;> apply UInt8.toNat_inj.1 <;>
    simp [Nat.shiftRight_eq_div_pow, Nat.div_div_eq_div_mul]

theorem toNat_getU16 (p : List UInt8) : (getU16 p).toNat = peekLe 2 p := by
  have hr : List.range 2 = [0, 1] := rfl
  have h0 := (peek p 0).toNat_lt
  have h1 := (peek p 1).toNat_lt
  simp only [getU16, peekLe, hr, List.map_cons, List.map_nil, leNat, UInt16.toNat_or, UInt16.toNat_shiftLeft,
    UInt8.toNat_toUInt16]
  rw [Nat.mod_eq_of_lt (by simp [Nat.shiftLeft_eq]; omega)]
  simp only [UInt16.reduceToNat, Nat.reduceMod]
  rw [or_shiftLeft _ (by simpa using h0)]
  omega

theorem toNat_getU32 (p : List UInt8) : (getU32 p).toNat = peekLe 4 p := by
  have hr : List.range 4 = [0, 1, 2, 3] := rfl
  have h0 := (peek p 0).toNat_lt
  have h1 := (peek p 1).toNat_lt
  have h2 := (peek p 2).toNat_lt
  have h3 := (peek p 3).toNat_lt
  simp only [getU32, peekLe, hr, List.map_cons, List.map_nil, leNat, UInt32.toNat_or, UInt32.toNat_shiftLeft,
    UInt8.toNat_toUInt32, UInt32.reduceToNat, Nat.reduceMod]
  rw [Nat.mod_eq_of_lt (by simp [Nat.shiftLeft_eq]; omega), Nat.mod_eq_of_lt (by simp [Nat.shiftLeft_eq]; omega),
    Nat.mod_eq_of_lt (by simp [Nat.shiftLeft_eq]; omega), or_shiftLeft (a := (peek p 0).toNat) _ (by omega),
    or_shiftLeft (i := 16) _ (by omega), or_shiftLeft (i := 24) _ (by omega)]
  omega

private theorem toNat_foldr_shift (bs : List UInt8) (h : bs.length ≤ 8) :
    (bs.foldr (fun b (v : UInt64) => (v <<< 8) ||| b.toUInt64) 0).toNat = leNat bs := by
  induction bs with
  | nil => rfl
  | cons b bs ih =>
    have hb := b.toNat_lt
    rw [List.length_cons] at h
    have hlt : leNat bs < 2 ^ 56 := by
      have h1 := leNat_lt bs
      have h2 : 256 ^ bs.length ≤ 256 ^ 7 := Nat.pow_le_pow_right (by omega) (by omega)
      exact Nat.lt_of_lt_of_le h1 h2
    have ih' := ih (by omega)
    simp only [List.foldr_cons, leNat, UInt64.toNat_or, UInt64.toNat_shiftLeft, ih', UInt8.toNat_toUInt64,
      UInt64.reduceToNat, Nat.reduceMod]
    rw [Nat.mod_eq_of_lt (by simp [Nat.shiftLeft_eq]; omega), Nat.or_comm]
    refine (or_shiftLeft _ (by omega)).trans ?_
    omega

theorem toNat_getU64 (p : List UInt8) : (getU64 p).toNat = peekLe 8 p := by
  have h := toNat_foldr_shift ((List.range 8).map (peek p)) (by simp)
  rw [List.foldr_map] at h
  exact h

theorem getU16_putU16 (v : UInt16) (rest : List UInt8) : getU16 (putU16 v ++ rest) = v := by
  apply UInt16.toNat_inj.1
  rw [toNat_getU16, putU16_eq, peekLe_leBytes v.toNat_lt]

theorem getU32_putU32 (v : UInt32) (rest : List UInt8) : getU32 (putU32 v ++ rest) = v := by
  apply UInt32.toNat_inj.1
  rw [toNat_getU32, putU32_eq, peekLe_leBytes v.toNat_lt]

theorem getU64_putU64 (v : UInt64) (rest : List UInt8) : getU64 (putU64 v ++ rest) = v := by
  apply UInt64.toNat_inj.1
  rw [toNat_getU64, putU64_eq, peekLe_leBytes v.toNat_lt]

theorem getU16_congr {p q : List UInt8} (h : p.take 2 = q.take 2) : getU16 p = getU16 q := by
  apply UInt16.toNat_inj.1
  rw [toNat_getU16, toNat_getU16, peekLe_congr h]

theorem getU32_congr {p q : List UInt8} (h : p.take 4 = q.take 4) : getU32 p = getU32 q := by
  apply UInt32.toNat_inj.1
  rw [toNat_getU32, toNat_getU32, peekLe_congr h]

theorem getU64_congr {p q : List UInt8} (h : p.take 8 = q.take 8) : getU64 p = getU64 q := by
  apply UInt64.toNat_inj.1
  rw [toNat_getU64, toNat_getU64, peekLe_congr h]

theorem getU16_take (p : List UInt8) : getU16 (p.take 2) = getU16 p :=
  getU16_congr (by rw [List.take_take, Nat.min_self])

theorem getU32_take (p : List UInt8) : getU32 (p.take 4) = getU32 p :=
  getU32_congr (by rw [List.take_take, Nat.min_self])

theorem getU64_take (p : List UInt8) : getU64 (p.take 8) = getU64 p :=
  getU64_congr (by rw [List.take_take, Nat.min_self])

theorem putU16_getU16 {p : List UInt8} (h : 2 ≤ p.length) : putU16 (getU16 p) = p.take 2 := by
  rw [putU16_eq, toNat_getU16, leBytes_peekLe h]

theorem putU32_getU32 {p : List UInt8} (h : 4 ≤ p.length) : putU32 (getU32 p) = p.take 4 := by
  rw [putU32_eq, toNat_getU32, leBytes_peekLe h]

theorem putU64_getU64 {p : List UInt8} (h : 8 ≤ p.length) : putU64 (getU64 p) = p.take 8 := by
  rw [putU64_eq, toNat_getU64, leBytes_peekLe h]

/-! ### The header codec -/

theorem decodeHeader_congr {p q : List UInt8} (h : p.take 24 = q.take 24) : decodeHeader p = decodeHeader q := by
  simp only [decodeHeader, EncapsulationHeader.mk.injEq]
  refine ⟨getU16_congr ?_, getU16_congr ?_, getU32_congr ?_, getU32_congr ?_, getU64_congr ?_, getU32_congr ?_⟩
  · simpa using take_drop_congr (k := 0) (n := 2) h (by omega)
  · exact take_drop_congr h (by omega)
  · exact take_drop_congr h (by omega)
  · exact take_drop_congr h (by omega)
  · exact take_drop_congr h (by omega)
  · exact take_drop_congr h (by omega)

theorem decodeHeader_encodeHeader (h : EncapsulationHeader) (rest : List UInt8) :
    decodeHeader (encodeHeader h ++ rest) = h := by
  obtain ⟨command, length, session, status, context, options⟩ := h
  simp only [decodeHeader, encodeHeader, List.append_assoc, EncapsulationHeader.mk.injEq]
  refine ⟨getU16_putU16 _ _, ?_, ?_, ?_, ?_, ?_⟩
  · exact getU16_putU16 _ _
  · exact getU32_putU32 _ _
  · exact getU32_putU32 _ _
  · exact getU64_putU64 _ _
  · exact getU32_putU32 _ _

theorem decodeHeader_encoded (h : EncapsulationHeader) : decodeHeader (encodeHeader h) = h := by
  have hdecode := decodeHeader_encodeHeader h []
  rwa [List.append_nil] at hdecode

theorem decodeHeader_take (p : List UInt8) : decodeHeader (p.take 24) = decodeHeader p :=
  decodeHeader_congr (by rw [List.take_take, Nat.min_self])

/-- Encoding a decoded header gives back the bytes it was decoded from. -/
theorem encodeHeader_decodeHeader {p : List UInt8} (h : 24 ≤ p.length) :
    encodeHeader (decodeHeader p) = p.take 24 := by
  have hsplit : p.take 24 = p.take 2 ++ (p.drop 2).take 2 ++ (p.drop 4).take 4 ++ (p.drop 8).take 4 ++
      (p.drop 12).take 8 ++ (p.drop 20).take 4 := by
    rw [← List.take_add, ← List.take_add, ← List.take_add, ← List.take_add, ← List.take_add]
  simp only [encodeHeader, decodeHeader]
  rw [putU16_getU16 (by omega), putU16_getU16 (by rw [List.length_drop]; omega),
    putU32_getU32 (by rw [List.length_drop]; omega), putU32_getU32 (by rw [List.length_drop]; omega),
    putU64_getU64 (by rw [List.length_drop]; omega), putU32_getU32 (by rw [List.length_drop]; omega), hsplit]

end ControlLogix
