import ControlLogix.Asked

/-!
# Writing back what was read

A reply carries a type code of 16 bits and the bytes of a value.  A tag keeps one byte of the code and a copy of the
value, and derives the length of what it writes anew.

* `poll_reads`: what a successful read leaves in the tag;
* `written_value`: when the value is as long as its type demands, it is what is written back;
* `written_back_iff`: an accepted write carries the type and the value back if and only if the code has 8 bits.
-/

namespace ControlLogix

open Bytes

/-- The message holds a reply with a type code and a value. -/
structure ExplicitMessage.Delivers (m : ExplicitMessage) (type : UInt16) (value : List UInt8) : Prop where
  data : m.data = putU16 type ++ value
  dataLen : m.dataLen = 2 + value.length

namespace Tag

/-- The length of a value of the type and the number of elements; that of a string is in its first four bytes. -/
def impliedLength (type : UInt16) (value : List UInt8) (elementCount : UInt32) : Option Nat :=
  if type = DataType.string.code.toUInt16 then
    if value.length < 4 then none else some (4 + (getU32 value).toNat)
  else if type.toNat < 256 then some (elementCount.toNat * dataTypeElementSize (DataType.ofCode type.toUInt8))
  else none

/-- The frame writes the type and, when the value is as long as the type implies, the value. -/
def WritesBack (type : UInt16) (value : List UInt8) (elementCount : UInt32) (frame : List UInt8) : Prop :=
  ∃ request, decodeRequest frame = some request ∧ request.type = some type.toNat ∧
    (impliedLength type value elementCount = some value.length → request.value = value)

/-- What a read with the reply leaves in the tag. -/
structure Read (t : Tag) (type : UInt16) (value : List UInt8) : Prop where
  type : t.dataType = type.toUInt8
  length : t.dataLen = min value.length kMaxDataSize
  bytes : t.data.bytes.take t.dataLen = value.take t.dataLen

section WriteBack

variable {t t' t'' : Tag} {msg msg' : ExplicitMessage} {conn conn' : TcpConnection} {os : Platform} {type : UInt16}
  {value : List UInt8} {elementCount : UInt32}

theorem poll_reads (hreading : t.state = .reading) (h : t.poll msg conn os = (.ok, t', msg', conn'))
    (hreply : msg'.Delivers type value) : t'.Read type value := by
  obtain ⟨mst, -, hadv⟩ := poll_inFlight (Or.inl hreading) h
  cases hadv with
  | broke hne => exact absurd rfl hne.2
  | done hok hcode =>
    have hlong : (putU16 type ++ value).length = 2 + value.length := by
      rw [List.length_append, length_putU16]
    obtain ⟨htype, hlen, hbytes⟩ := accept_value (t := { t with resultCode := msg'.resultCode }) hreading hreply.data
      (hreply.dataLen.trans hlong.symm) (by omega)
    have hdrop : (putU16 type ++ value).drop 2 = value := rfl
    refine ⟨?_, ?_, ?_⟩
    · rw [htype, getU16_putU16]
    · rw [hlen, hlong]
      congr 1
      omega
    · rw [hbytes, hdrop]

/-- A code of 8 bits is kept as it is. -/
private theorem toUInt8_small (h : type.toNat < 256) : type.toUInt8.toNat = type.toNat := by
  rw [UInt16.toNat_toUInt8]
  omega

private theorem string_iff (h : type.toNat < 256) :
    type.toUInt8 = DataType.string.code ↔ type = DataType.string.code.toUInt16 := by
  rw [← UInt8.toNat_inj, ← UInt16.toNat_inj, toUInt8_small h]
  rfl

/-- When the value is as long as its type demands, that is the length the tag derives. -/
theorem valueLength_read (hread : t.Read type value) (hsmall : type.toNat < 256)
    (h : impliedLength type value elementCount = some value.length) : t.valueLength elementCount = value.length := by
  have hk : kMaxDataSize = 256 := rfl
  unfold impliedLength at h
  unfold valueLength
  rw [hread.type]
  by_cases hstring : type = DataType.string.code.toUInt16
  · rw [if_pos hstring] at h
    rw [if_pos ((string_iff hsmall).2 hstring)]
    split at h
    · cases h
    · rename_i hfour
      have hlen := hread.length
      have hhead : t.data.bytes.take 4 = value.take 4 := by
        have hbytes := congrArg (List.take 4) hread.bytes
        rwa [List.take_take, List.take_take, Nat.min_eq_left (by omega)] at hbytes
      rw [getU32_congr hhead]
      exact Option.some.inj h
  · rw [if_neg hstring, if_pos hsmall] at h
    rw [if_neg (fun e => hstring ((string_iff hsmall).1 e))]
    exact Option.some.inj h

theorem written_value (hread : t.Read type value) (hsmall : type.toNat < 256)
    (hfits : t.valueLength elementCount ≤ kMaxDataSize)
    (h : impliedLength type value elementCount = some value.length) :
    t.data.bytes.take (t.valueLength elementCount) = value := by
  have hlen := valueLength_read hread hsmall h
  have hall : t.dataLen = value.length := by
    rw [hread.length]
    omega
  have hbytes := hread.bytes
  rw [hall, List.take_length] at hbytes
  rw [hlen, hbytes]

/-- A value that was read with its type and is written back carries type and value if and only if the code of the type
has 8 bits. -/
theorem written_back_iff {msg₂ msg₃ : ExplicitMessage} {conn₂ : TcpConnection} {sessionHandle : UInt32}
    {name : Option (List UInt8)} {timeoutMs now : UInt32} (hreading : t.state = .reading)
    (hpoll : t.poll msg conn os = (.ok, t', msg', conn')) (hreply : msg'.Delivers type value)
    (hwrite : t'.write msg₂ conn₂ sessionHandle name elementCount timeoutMs now = (.pending, t'', msg₃)) :
    WritesBack type value elementCount (msg₃.tx.take msg₃.txLen) ↔ type.toNat < 256 := by
  have hread := poll_reads hreading hpoll hreply
  cases name with
  | none =>
    simp only [write, Prod.mk.injEq] at hwrite
    cases hwrite.1
  | some name =>
    obtain ⟨hfits, hdecodes⟩ := write_decodes hwrite
    constructor
    · rintro ⟨request, hrequest, htype, -⟩
      rw [hdecodes] at hrequest
      obtain rfl := Option.some.inj hrequest
      have hsame := Option.some.inj htype
      rw [← hsame]
      exact UInt8.toNat_lt _
    · intro hsmall
      refine ⟨_, hdecodes, ?_, fun h => written_value hread hsmall hfits h⟩
      show some t'.dataType.toNat = some type.toNat
      rw [hread.type, toUInt8_small hsmall]

end WriteBack

/-- A read of a tag that ends with the reply. -/
def readBack (r : Reply) : Status × Tag × ExplicitMessage × TcpConnection :=
  ({ data := .zero, state := .reading } : Tag).poll
    { rx := r.frame, rxLen := r.frame.length, rxExpected := r.frame.length, deadline := 1000, state := .receiving,
      sentContext := r.context }
    { fd := 3, state := .ok } {}

/-- The tag `A` is written back as one element. -/
def writeBack (r : Reply) : Status × Tag × ExplicitMessage :=
  (readBack r).2.1.write (readBack r).2.2.1 (readBack r).2.2.2 7 (some [65]) 1 1000 0

/-- The DINT 1. -/
def dintReply : Reply := { exchange := 0, service := 0xCC, data := [0xC4, 0x00, 1, 0, 0, 0], fits := by decide }

/-- A type code of which the low byte is that of DINT. -/
def longReply : Reply := { exchange := 0, service := 0xCC, data := [0xC4, 0x01, 1, 0, 0, 0], fits := by decide }

private theorem split_ok {r : Status × Tag × ExplicitMessage × TcpConnection} (h : r.1 = .ok) :
    r = (.ok, r.2.1, r.2.2.1, r.2.2.2) :=
  Prod.ext h rfl

theorem written_back_iff_dint :
    WritesBack 0x00C4 [1, 0, 0, 0] 1 ((writeBack dintReply).2.2.tx.take (writeBack dintReply).2.2.txLen) := by
  have hread : (readBack dintReply).1 = .ok := by decide +kernel
  have hwrite : (writeBack dintReply).1 = .pending := by decide +kernel
  have hreply : (readBack dintReply).2.2.1.Delivers 0x00C4 [1, 0, 0, 0] := ⟨by decide +kernel, by decide +kernel⟩
  exact (written_back_iff rfl (split_ok hread) hreply (split_pending hwrite)).2 (by decide)

/-- What was read with the type code 0x01C4 is written back with the code 0x00C4. -/
theorem type_truncated :
    ¬ ∀ (t t' t'' : Tag) (msg msg' msg₂ msg₃ : ExplicitMessage) (conn conn' conn₂ : TcpConnection) (os : Platform)
      (type : UInt16) (value : List UInt8) (sessionHandle elementCount timeoutMs now : UInt32) (name : List UInt8),
      t.state = .reading → t.poll msg conn os = (.ok, t', msg', conn') → msg'.Delivers type value →
      t'.write msg₂ conn₂ sessionHandle (some name) elementCount timeoutMs now = (.pending, t'', msg₃) →
        WritesBack type value elementCount (msg₃.tx.take msg₃.txLen) := by
  intro h
  have hread : (readBack longReply).1 = .ok := by decide +kernel
  have hwrite : (writeBack longReply).1 = .pending := by decide +kernel
  have hreply : (readBack longReply).2.2.1.Delivers 0x01C4 [1, 0, 0, 0] := ⟨by decide +kernel, by decide +kernel⟩
  obtain ⟨request, hrequest, htype, -⟩ :=
    h _ _ _ _ _ _ _ _ _ _ _ 0x01C4 [1, 0, 0, 0] _ _ _ _ _ rfl (split_ok hread) hreply (split_pending hwrite)
  have hsent := Option.some.inj ((write_decodes (split_pending hwrite)).2.symm.trans hrequest)
  have hcode : (readBack longReply).2.1.dataType = 0xC4 := by decide +kernel
  rw [← hsent, hcode] at htype
  exact absurd htype (by decide)

end Tag

end ControlLogix
