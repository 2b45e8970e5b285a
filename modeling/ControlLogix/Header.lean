import ControlLogix.Encoders
import ControlLogix.RoundTrip
import ControlLogix.Struct

/-!
# The header, byte by byte

The functions of `Encapsulation.cpp` are given here once more, with the stores and the reads of the code at its
offsets into an array of a fixed size, where `none` is an access beyond the end.  What is narrower than `int` is an
`Int32` in an expression.

* `encodeHeaderIn_eq`, `decodeHeaderIn_eq`: they store and read the 24 bytes of a header, and no others;
* `decode_of_encodeHeaderIn`, `encode_of_decodeHeaderIn`: so each undoes the other where it lies;
* `pack_fields`, `unpack_header`: these bytes are those of the format of the synthetic server;
* `header_codec`: encoding and decoding are inverse to each other.
-/

namespace ControlLogix

open Bytes
open Arrays

/-! ### The helpers -/

def putU16In (a : List UInt8) (p : Nat) (v : UInt16) : Option (List UInt8) := do
  let a ← put a p [v.toUInt8]
  put a (p + 1) [(v.toUInt32.toInt32 >>> 8).toUInt32.toUInt8]

def putU32In (a : List UInt8) (p : Nat) (v : UInt32) : Option (List UInt8) := do
  let a ← put a p [v.toUInt8]
  let a ← put a (p + 1) [(v >>> 8).toUInt8]
  let a ← put a (p + 2) [(v >>> 16).toUInt8]
  put a (p + 3) [(v >>> 24).toUInt8]

def putU64In (a : List UInt8) (p : Nat) (v : UInt64) : Option (List UInt8) :=
  (List.range 8).foldlM (fun a i => put a (p + i) [(v >>> UInt64.ofNat (8 * i)).toUInt8]) a

def getU16In (a : List UInt8) (p : Nat) : Option UInt16 := do
  let b₀ ← a[p]?
  let b₁ ← a[p + 1]?
  -- both sides of `|` are promoted, and the result is narrowed again
  return (b₀.toUInt16.toUInt32.toInt32 ||| (b₁.toUInt16.toUInt32.toInt32 <<< 8)).toUInt32.toUInt16

def getU32In (a : List UInt8) (p : Nat) : Option UInt32 := do
  let b₀ ← a[p]?
  let b₁ ← a[p + 1]?
  let b₂ ← a[p + 2]?
  let b₃ ← a[p + 3]?
  return b₀.toUInt32 ||| (b₁.toUInt32 <<< 8) ||| (b₂.toUInt32 <<< 16) ||| (b₃.toUInt32 <<< 24)

/-- The loop runs from the last byte down to the first, and `p[i]` is an `int` before it is widened. -/
def getU64In (a : List UInt8) (p : Nat) : Option UInt64 :=
  (List.range 8).reverse.foldlM
    (fun v i => (a[p + i]?).map fun b => (v <<< 8) ||| b.toUInt32.toInt32.toInt64.toUInt64) 0

/-- What is promoted is not negative. -/
private theorem msb_promoted {w : Nat} (x : BitVec w) (h : w < 32) : (x.setWidth 32).msb = false := by
  rw [BitVec.msb_eq_getLsbD_last, BitVec.getLsbD_setWidth, BitVec.getLsbD_of_ge x _ (by omega), Bool.and_false]

/-- So it is shifted to the right like a number without a sign. -/
private theorem shiftRight_promoted (v : UInt16) :
    (v.toUInt32.toInt32 >>> 8).toUInt32.toUInt8 = (v >>> 8).toUInt8 := by
  have hshift : BitVec.setWidth 32 (v.toBitVec >>> 8) = BitVec.setWidth 32 v.toBitVec >>> 8 :=
    BitVec.setWidth_ushiftRight (by omega)
  apply UInt8.toBitVec_inj.1
  show BitVec.setWidth 8 ((BitVec.setWidth 32 v.toBitVec).sshiftRight 8) = BitVec.setWidth 8 (v.toBitVec >>> 8)
  rw [BitVec.sshiftRight_eq_of_msb_false (msb_promoted v.toBitVec (by omega)), ← hshift,
    BitVec.setWidth_setWidth_of_le _ (by omega)]

private theorem or_promoted (b₀ b₁ : UInt8) :
    (b₀.toUInt16.toUInt32.toInt32 ||| (b₁.toUInt16.toUInt32.toInt32 <<< 8)).toUInt32.toUInt16 =
      b₀.toUInt16 ||| (b₁.toUInt16 <<< 8) := by
  apply UInt16.toBitVec_inj.1
  simp

/-- And the sign it is extended by is zero. -/
private theorem widen_promoted (b : UInt8) : b.toUInt32.toInt32.toInt64.toUInt64 = b.toUInt64 := by
  apply UInt64.toBitVec_inj.1
  simp [BitVec.signExtend_eq_setWidth_of_msb_false (msb_promoted b.toBitVec (by omega))]

section Helpers

variable (a : List UInt8) (p : Nat)

theorem putU16In_eq (v : UInt16) : putU16In a p v = put a p (putU16 v) := by
  show ((put a p [v.toUInt8]).bind fun a => put a (p + 1) [(v.toUInt32.toInt32 >>> 8).toUInt32.toUInt8]) = _
  rw [put_put (by rfl), shiftRight_promoted]
  rfl

theorem putU32In_eq (v : UInt32) : putU32In a p v = put a p (putU32 v) := by
  show ((put a p [v.toUInt8]).bind fun a => (put a (p + 1) [(v >>> 8).toUInt8]).bind fun a =>
    (put a (p + 2) [(v >>> 16).toUInt8]).bind fun a => put a (p + 3) [(v >>> 24).toUInt8]) = _
  rw [put_then (by rfl), put_then (by rfl), put_put (by rfl)]
  rfl

theorem putU64In_eq (v : UInt64) : putU64In a p v = put a p (putU64 v) :=
  foldlM_put (fun i => (v >>> UInt64.ofNat (8 * i)).toUInt8) p 7

theorem getU16In_eq : getU16In a p = (load a p 2).map getU16 := by
  unfold getU16In
  by_cases hroom : p + 2 ≤ a.length
  · have h₀ : a[p]? = some (peek (a.drop p) 0) := byte_eq (i := 0) (by omega)
    rw [load_eq hroom, Option.map_some, getU16_take, h₀, byte_eq (by omega)]
    exact congrArg some (or_promoted _ _)
  · have h₁ : a[p + 1]? = none := List.getElem?_eq_none (by omega)
    rw [load_none (by omega), h₁]
    simp

theorem getU32In_eq : getU32In a p = (load a p 4).map getU32 := by
  unfold getU32In
  by_cases hroom : p + 4 ≤ a.length
  · have h₀ : a[p]? = some (peek (a.drop p) 0) := byte_eq (i := 0) (by omega)
    rw [load_eq hroom, Option.map_some, getU32_take, h₀, byte_eq (by omega), byte_eq (by omega), byte_eq (by omega)]
    rfl
  · have h₃ : a[p + 3]? = none := List.getElem?_eq_none (by omega)
    rw [load_none (by omega), h₃]
    simp

theorem getU64In_eq : getU64In a p = (load a p 8).map getU64 := by
  have hloop : getU64In a p = (load a p (7 + 1)).map fun q => (List.range 8).reverse.foldl
      (fun (v : UInt64) i => (v <<< 8) ||| (peek q i).toUInt32.toInt32.toInt64.toUInt64) 0 :=
    foldlM_load _ 0 fun i => by simp
  rw [hloop]
  congr 1
  funext q
  rw [List.foldl_reverse, getU64]
  simp only [widen_promoted]

end Helpers

/-! ### The header in an array -/

def encodeHeaderIn (a : List UInt8) (out : Nat) (h : EncapsulationHeader) : Option (List UInt8) := do
  let a ← putU16In a out h.command
  let a ← putU16In a (out + 2) h.length
  let a ← putU32In a (out + 4) h.session
  let a ← putU32In a (out + 8) h.status
  let a ← putU64In a (out + 12) h.context
  putU32In a (out + 20) h.options

def decodeHeaderIn (a : List UInt8) (p : Nat) : Option EncapsulationHeader := do
  let command ← getU16In a p
  let length ← getU16In a (p + 2)
  let session ← getU32In a (p + 4)
  let status ← getU32In a (p + 8)
  let context ← getU64In a (p + 12)
  let options ← getU32In a (p + 20)
  return { command, length, session, status, context, options }

theorem encodeHeaderIn_eq (a : List UInt8) (out : Nat) (h : EncapsulationHeader) :
    encodeHeaderIn a out h = put a out (encodeHeader h) := by
  unfold encodeHeaderIn
  simp only [putU16In_eq, putU32In_eq, putU64In_eq, Option.bind_eq_bind]
  rw [put_then (by rfl), put_then (by rfl), put_then (by rfl), put_then (by rfl), put_put (by rfl)]
  rfl

theorem decodeHeaderIn_eq (a : List UInt8) (p : Nat) :
    decodeHeaderIn a p = (load a p kEncapsulationHeaderSize).map decodeHeader := by
  have hk : kEncapsulationHeaderSize = 24 := rfl
  unfold decodeHeaderIn
  simp only [getU16In_eq, getU32In_eq, getU64In_eq]
  by_cases hroom : p + 24 ≤ a.length
  · rw [hk, load_eq hroom, load_eq (by omega), load_eq (by omega), load_eq (by omega), load_eq (by omega),
      load_eq (by omega), load_eq (by omega)]
    simp only [Option.map_some, getU16_take, getU32_take, getU64_take, decodeHeader_take]
    simp only [decodeHeader, List.drop_drop]
    rfl
  · have hlast : load a (p + 20) 4 = none := load_none (by omega)
    rw [hk, load_none (by omega : a.length < p + 24), hlast]
    simp

section RoundTrips

variable {a a' : List UInt8} {p : Nat} {h : EncapsulationHeader}

theorem decode_of_encodeHeaderIn (hencode : encodeHeaderIn a p h = some a') : decodeHeaderIn a' p = some h := by
  rw [encodeHeaderIn_eq] at hencode
  obtain ⟨hroom, rfl, hlen⟩ := put_some hencode
  have hslice := slice_store hroom
  rw [length_encodeHeader] at hroom hslice
  rw [decodeHeaderIn_eq, load_eq (by omega), hslice, Option.map_some, decodeHeader_encoded]

/-- Encoding a header where it was decoded changes nothing. -/
theorem encode_of_decodeHeaderIn (hdecode : decodeHeaderIn a p = some h) : encodeHeaderIn a p h = some a := by
  have hk : kEncapsulationHeaderSize = 24 := rfl
  rw [decodeHeaderIn_eq] at hdecode
  obtain ⟨bs, hload, rfl⟩ := Option.map_eq_some_iff.1 hdecode
  obtain ⟨hroom, rfl⟩ := load_some hload
  have hlen : ((a.drop p).take kEncapsulationHeaderSize).length = 24 := by
    rw [List.length_take, List.length_drop]
    omega
  rw [encodeHeaderIn_eq, encodeHeader_decodeHeader (by omega), List.take_of_length_le (by omega), put_eq (by omega),
    store_slice]

end RoundTrips

/-! ### The format of the synthetic server -/

def headerFmt : String := "<HHIIQI"

/-- The fields in the order of the format. -/
def EncapsulationHeader.fields (h : EncapsulationHeader) : List Nat :=
  [h.command.toNat, h.length.toNat, h.session.toNat, h.status.toNat, h.context.toNat, h.options.toNat]

theorem codes_headerFmt : Struct.codes headerFmt = some [.H, .H, .I, .I, .Q, .I] := by decide

theorem packs_header (h : EncapsulationHeader) :
    Struct.Packs [.H, .H, .I, .I, .Q, .I] h.fields (encodeHeader h) := by
  have hbytes : encodeHeader h = leBytes 2 h.command.toNat ++ (leBytes 2 h.length.toNat ++
      (leBytes 4 h.session.toNat ++ (leBytes 4 h.status.toNat ++ (leBytes 8 h.context.toNat ++
        (leBytes 4 h.options.toNat ++ []))))) := by
    simp only [encodeHeader, putU16_eq, putU32_eq, putU64_eq, List.append_assoc, List.append_nil]
  rw [hbytes]
  apply Struct.Packs.cons .H h.command.toNat_lt
  apply Struct.Packs.cons .H h.length.toNat_lt
  apply Struct.Packs.cons .I h.session.toNat_lt
  apply Struct.Packs.cons .I h.status.toNat_lt
  apply Struct.Packs.cons .Q h.context.toNat_lt
  apply Struct.Packs.cons .I h.options.toNat_lt
  exact .nil

theorem pack_fields (h : EncapsulationHeader) : Struct.pack headerFmt h.fields = some (encodeHeader h) :=
  (Struct.pack_eq codes_headerFmt).trans (packs_header h).pack

example : Struct.pack headerFmt [0x006F, 0x0104, 0x13572468, 0, 0x0102030405060708, 9] =
    some [0x6F, 0, 0x04, 0x01, 0x68, 0x24, 0x57, 0x13, 0, 0, 0, 0, 8, 7, 6, 5, 4, 3, 2, 1, 9, 0, 0, 0] := by decide

theorem unpack_header (b : List UInt8) :
    Struct.unpack headerFmt b = if b.length = kEncapsulationHeaderSize then some (decodeHeader b).fields else
    none := by
  have hk : kEncapsulationHeaderSize = 24 := rfl
  by_cases hb : b.length = kEncapsulationHeaderSize
  · rw [if_pos hb, Struct.unpack_pack, pack_fields, encodeHeader_decodeHeader (by omega),
      List.take_of_length_le (by omega)]
  · rw [if_neg hb]
    by_contra hne
    obtain ⟨vs, hvs⟩ := Option.ne_none_iff_exists'.1 hne
    have hsize : Struct.calcsize headerFmt = some kEncapsulationHeaderSize := by decide
    rw [Struct.calcsize_of_unpack hvs] at hsize
    exact hb (Option.some.inj hsize)

namespace SyntheticServer

/-- `send_packet()`, which raises an exception for a body that is too long for the header. -/
def sendPacket (command : Command) (session status : UInt32) (context : UInt64) (body : List UInt8) :
    Option (List UInt8) :=
  (Struct.pack headerFmt [command.code.toNat, body.length, session.toNat, status.toNat, context.toNat, 0]).map
    fun header => header ++ body

/-- The header the server packs is the one of the library. -/
theorem sendPacket_eq (command : Command) (session status : UInt32) (context : UInt64) (body : List UInt8) :
    sendPacket command session status context body =
      if body.length < 2 ^ 16 then some (packet command session status context body) else none := by
  unfold sendPacket
  by_cases hlen : body.length < 2 ^ 16
  · have hlength : (UInt16.ofNat body.length).toNat = body.length := by
      rw [UInt16.toNat_ofNat']
      omega
    have hfields := pack_fields { command := command.code, length := UInt16.ofNat body.length, session := session,
                                  status := status, context := context, options := 0 }
    rw [EncapsulationHeader.fields, hlength] at hfields
    rw [if_pos hlen]
    exact congrArg (Option.map fun header => header ++ body) hfields
  · rw [if_neg hlen, Struct.pack_eq codes_headerFmt, Option.map_eq_none_iff]
    by_contra hne
    obtain ⟨bs, hbs⟩ := Option.ne_none_iff_exists'.1 hne
    cases Struct.packs_of_pack hbs with
    | cons _ hcommand hrest =>
      cases hrest with
      | cons _ hlength hrest => exact hlen hlength

end SyntheticServer

/-! ### The codec -/

def headerBytes (h : EncapsulationHeader) : Cells kEncapsulationHeaderSize := ⟨encodeHeader h, length_encodeHeader h⟩

/-- Every header has its own 24 bytes, which are those of the format, and all 24 bytes are those of a header.
Encoding stores them and no others, and decoding reads them and no others. -/
theorem header_codec :
    Function.Bijective headerBytes ∧
    (∀ h : EncapsulationHeader, decodeHeader (encodeHeader h) = h) ∧
    (∀ b : Cells kEncapsulationHeaderSize, encodeHeader (decodeHeader b.1) = b.1) ∧
    (∀ (a : List UInt8) (out : Nat) (h : EncapsulationHeader), encodeHeaderIn a out h =
      if out + kEncapsulationHeaderSize ≤ a.length then
        some (a.take out ++ encodeHeader h ++ a.drop (out + kEncapsulationHeaderSize))
      else none) ∧
    (∀ (a : List UInt8) (p : Nat), decodeHeaderIn a p =
      if p + kEncapsulationHeaderSize ≤ a.length then
        some (decodeHeader ((a.drop p).take kEncapsulationHeaderSize))
      else none) ∧
    (∀ h : EncapsulationHeader, Struct.pack headerFmt h.fields = some (encodeHeader h)) ∧
    ∀ b : Cells kEncapsulationHeaderSize, Struct.unpack headerFmt b.1 = some (decodeHeader b.1).fields := by
  have hencode : ∀ b : Cells kEncapsulationHeaderSize, encodeHeader (decodeHeader b.1) = b.1 := by
    intro b
    have hlen : b.1.length = 24 := b.2
    rw [encodeHeader_decodeHeader (by omega), List.take_of_length_le (by omega)]
  refine ⟨?_, decodeHeader_encoded, hencode, ?_, ?_, pack_fields, ?_⟩
  · apply Function.bijective_iff_has_inverse.2
    exact ⟨fun b => decodeHeader b.1, decodeHeader_encoded, fun b => Subtype.ext (hencode b)⟩
  · intro a out h
    rw [encodeHeaderIn_eq, put, store, length_encodeHeader]
  · intro a p
    rw [decodeHeaderIn_eq, load]
    split <;> rfl
  · intro b
    rw [unpack_header, if_pos b.2]

end ControlLogix
