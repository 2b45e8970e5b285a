import ControlLogix.Capacity
import ControlLogix.Tlv

/-!
# What a request asks for

A decoder of its own takes a request apart: the header, the two items, the service, the path and the data of the
service. The count of a request is a field of two bytes, and `read()` and `write()` take 32 bits.

* `decodeRequest_requestFrame`: the decoder takes a frame of `ExplicitMessage` apart;
* `read_decodes`, `write_decodes`: what the frame of an accepted call asks for;
* `asked_iff`: it is what the call asked for if and only if the count has 16 bits.
-/

namespace ControlLogix

open Bytes
open Tlv (Item)
open ExplicitMessage (requestFrame kMaxCipData)

/-! ### A decoder of requests -/

structure TagRequest where
  service : UInt8
  name : List UInt8
  count : Nat
  type : Option Nat
  value : List UInt8
  deriving DecidableEq, Repr

/-- The name in a path that is one symbolic segment, with its pad. -/
def decodeSymbolic : List UInt8 → Option (List UInt8)
  | segment :: len :: rest =>
    if segment = kSegmentSymbolic ∧ len.toNat ≤ rest.length ∧
        rest.drop len.toNat = (if len.toNat % 2 = 1 then [0] else []) then
      some (rest.take len.toNat)
    else none
  | _ => none

/-- The count, the type and the value in the data of a service. -/
def decodeServiceData (service : UInt8) (data : List UInt8) : Option (Nat × Option Nat × List UInt8) :=
  if service = TagService.read.code then
    if data.length = 2 then some (leNat data, none, []) else none
  else if service = TagService.write.code then
    if data.length < 4 then none
    else some (leNat (data.take 2), some (leNat ((data.drop 2).take 2)), data.drop 4)
  else none

/-- The CIP part of a request: the service, the number of words of the path, the path, and the data. -/
def decodeCip : List UInt8 → Option TagRequest
  | service :: words :: rest =>
    if rest.length < 2 * words.toNat then none
    else
      match decodeSymbolic (rest.take (2 * words.toNat)), decodeServiceData service (rest.drop (2 * words.toNat)) with
      | some name, some (count, type, value) => some ⟨service, name, count, type, value⟩
      | _, _ => none
  | _ => none

/-- The request in a SendRRData frame with a null address item and an unconnected-data item, and nothing after
them. -/
def decodeRequest (frame : List UInt8) : Option TagRequest :=
  let header := decodeHeader frame
  if frame.length < 32 ∨ header.command ≠ Command.sendRRData.code ∨
      header.length.toNat ≠ frame.length - kEncapsulationHeaderSize ∨ header.status ≠ 0 then none
  else
    match Tlv.decode 2 2 (getU16 (frame.drop 30)).toNat (frame.drop 32) with
    | some ([address, data], []) =>
      if address = ⟨0x0000, []⟩ ∧ data.type = 0x00B2 then decodeCip data.content else none
    | _ => none

/-! ### The frames of `ExplicitMessage` -/

theorem decode_appendSymbolic {name : List UInt8} (h : name.length ≤ kMaxSymbolicName) :
    decodeSymbolic (appendSymbolic name) = some name := by
  have hk : kMaxSymbolicName = 120 := rfl
  have hmin : min name.length kMaxSymbolicName = name.length := Nat.min_eq_left h
  have hlen : (UInt8.ofNat name.length).toNat = name.length := by
    rw [UInt8.toNat_ofNat']
    omega
  have hpath : appendSymbolic name =
      kSegmentSymbolic :: UInt8.ofNat name.length :: (name ++ if name.length % 2 = 1 then [0] else []) := by
    unfold appendSymbolic
    dsimp only
    rw [hmin, List.take_length]
    rfl
  rw [hpath, decodeSymbolic, hlen, List.take_left, if_pos]
  refine ⟨rfl, ?_, List.drop_left⟩
  rw [List.length_append]
  omega

section Frame

variable {session : UInt32} {context : UInt64} {service : UInt8} {name data : List UInt8}

private theorem decode_cip (hname : name.length ≤ kMaxSymbolicName) :
    decodeCip ([service, UInt8.ofNat ((appendSymbolic name).length / 2)] ++ appendSymbolic name ++ data) =
      (decodeServiceData service data).map fun d => ⟨service, name, d.1, d.2.1, d.2.2⟩ := by
  obtain ⟨heven, hpath⟩ := length_appendSymbolic name
  have hwords : 2 * (UInt8.ofNat ((appendSymbolic name).length / 2)).toNat = (appendSymbolic name).length := by
    rw [UInt8.toNat_ofNat']
    omega
  change decodeCip (service :: UInt8.ofNat ((appendSymbolic name).length / 2) :: (appendSymbolic name ++ data)) = _
  rw [decodeCip, hwords, if_neg (by rw [List.length_append]; omega), List.take_left, List.drop_left,
    decode_appendSymbolic hname]
  cases decodeServiceData service data with
  | none => rfl
  | some d => rfl

theorem decodeRequest_requestFrame (hname : name.length ≤ kMaxSymbolicName)
    (hfits : 2 + (appendSymbolic name).length + data.length ≤ kMaxCipData) :
    decodeRequest (requestFrame session context service (appendSymbolic name) data) =
      (decodeServiceData service data).map fun d => ⟨service, name, d.1, d.2.1, d.2.2⟩ := by
  have hk : kMaxCipData = 256 := rfl
  have hcip := cipLength_small hfits
  have hlen := length_requestFrame session context service (appendSymbolic name) data
  have hheader := decode_requestFrame session context service (appendSymbolic name) data
  generalize hitem : [service, UInt8.ofNat ((appendSymbolic name).length / 2)] ++ appendSymbolic name ++ data = item
  have hsize : item.length = 2 + (appendSymbolic name).length + data.length := by
    rw [← hitem]
    simp only [List.length_append, List.length_cons, List.length_nil]
  -- what follows the number of items is the encoding of the two
  have hdrop : (requestFrame session context service (appendSymbolic name) data).drop 32 =
      [(⟨0x0000, []⟩ : Item), ⟨0x00B2, item⟩].flatMap (Item.encode 2 2) ++ [] := by
    have hlen16 : (UInt16.ofNat item.length).toNat = item.length := by
      rw [UInt16.toNat_ofNat']
      omega
    have hencoded : [(⟨0x0000, []⟩ : Item), ⟨0x00B2, item⟩].flatMap (Item.encode 2 2) ++ [] =
        putU16 0x0000 ++ putU16 0 ++ putU16 0x00B2 ++ putU16 (UInt16.ofNat item.length) ++ item := by
      simp only [List.flatMap_cons, List.flatMap_nil, Item.encode, putU16_eq, hlen16, List.append_nil,
        List.append_assoc]
      rfl
    rw [hencoded, hsize, ← hitem]
    simp only [requestFrame, hcip, List.append_assoc]
    rfl
  have hcount : (getU16 ((requestFrame session context service (appendSymbolic name) data).drop 30)).toNat = 2 := by
    have hat : (requestFrame session context service (appendSymbolic name) data).drop 30 =
        putU16 2 ++ (requestFrame session context service (appendSymbolic name) data).drop 32 := by
      simp only [requestFrame, List.append_assoc]
      rfl
    rw [hat, getU16_putU16]
    rfl
  have hdecode : Tlv.decode 2 2 2 ((requestFrame session context service (appendSymbolic name) data).drop 32) =
      some ([⟨0x0000, []⟩, ⟨0x00B2, item⟩], []) := by
    have hall : ∀ i ∈ [(⟨0x0000, []⟩ : Item), ⟨0x00B2, item⟩], i.Fits 2 2 := by
      intro i hi
      simp only [List.mem_cons, List.not_mem_nil, or_false] at hi
      rcases hi with rfl | rfl
      · exact ⟨by decide, by decide⟩
      · have htype : 0x00B2 < 256 ^ 2 := by decide
        refine ⟨htype, ?_⟩
        show item.length < 256 ^ 2
        omega
    rw [hdrop]
    exact Tlv.decode_encode hall []
  unfold decodeRequest
  dsimp only
  rw [hheader, hcount, hdecode, if_neg]
  · dsimp only
    rw [if_pos ⟨rfl, rfl⟩, ← hitem, decode_cip hname]
  · rw [hlen, hcip]
    simp only [ExplicitMessage.requestHeader, UInt16.toNat_ofNat', not_or, ne_eq, Decidable.not_not]
    refine ⟨by omega, trivial, ?_, trivial⟩
    have h24 : kEncapsulationHeaderSize = 24 := rfl
    omega

end Frame

/-! ### What the calls of a tag ask for -/

namespace Tag

/-- The frame asks for the elements of the tag with the name. -/
def SaysRead (name : List UInt8) (elementCount : UInt32) (frame : List UInt8) : Prop :=
  decodeRequest frame = some ⟨TagService.read.code, name, elementCount.toNat, none, []⟩

/-- The frame asks to write the value of the tag. -/
structure SaysWrite (t : Tag) (name : List UInt8) (elementCount : UInt32) (frame : List UInt8) : Prop where
  request : decodeRequest frame = some ⟨TagService.write.code, name, elementCount.toNat, some t.dataType.toNat,
    t.data.bytes.take (t.valueLength elementCount)⟩
  value : t.valueLength elementCount ≤ kMaxDataSize

section Calls

variable {t t' : Tag} {msg msg' : ExplicitMessage} {conn : TcpConnection} {sessionHandle : UInt32}
  {name : List UInt8} {elementCount timeoutMs now : UInt32}

/-- The two bytes of the count. -/
theorem leNat_count (elementCount : UInt32) : leNat (putU16 elementCount.toUInt16) = elementCount.toNat % 65536 := by
  rw [putU16_eq, leNat_leBytes (UInt16.toNat_lt _), UInt32.toNat_toUInt16]

theorem read_decodes
    (h : t.read msg conn sessionHandle (some name) elementCount timeoutMs now = (.pending, t', msg')) :
    decodeRequest (msg'.tx.take msg'.txLen) =
      some ⟨TagService.read.code, name, elementCount.toNat % 65536, none, []⟩ := by
  obtain ⟨-, hreq⟩ := read_requested h
  have hframe : _ = msg'.tx.take msg'.txLen := hreq.started.request
  have htwo : (readData elementCount).length = 2 := length_putU16 _
  rw [← hframe, decodeRequest_requestFrame hreq.named hreq.fits, decodeServiceData, if_pos rfl, if_pos htwo, readData,
    leNat_count]
  rfl

theorem write_decodes
    (h : t.write msg conn sessionHandle (some name) elementCount timeoutMs now = (.pending, t', msg')) :
    t.valueLength elementCount ≤ kMaxDataSize ∧ decodeRequest (msg'.tx.take msg'.txLen) =
      some ⟨TagService.write.code, name, elementCount.toNat % 65536, some t.dataType.toNat,
        t.data.bytes.take (t.valueLength elementCount)⟩ := by
  obtain ⟨-, n, hn, hreq⟩ := write_requested h
  have hsmall := writeLength_le hn
  rw [writeLength_eq hn] at hsmall hreq
  refine ⟨hsmall, ?_⟩
  have hframe : _ = msg'.tx.take msg'.txLen := hreq.started.request
  have htype : leNat (putU16 t.dataType.toUInt16) = t.dataType.toNat := by
    rw [putU16_eq, leNat_leBytes (UInt16.toNat_lt _)]
    rfl
  generalize t.data.bytes.take (t.valueLength elementCount) = value at hframe hreq ⊢
  have hcount : (writeData t.dataType elementCount value).take 2 = putU16 elementCount.toUInt16 := rfl
  have hcode : ((writeData t.dataType elementCount value).drop 2).take 2 = putU16 t.dataType.toUInt16 := rfl
  have hvalue : (writeData t.dataType elementCount value).drop 4 = value := rfl
  rw [← hframe, decodeRequest_requestFrame hreq.named hreq.fits, decodeServiceData, if_neg (by decide), if_pos rfl,
    if_neg (by rw [length_writeData]; omega), hcount, hcode, hvalue, leNat_count, htype]
  rfl

end Calls

/-- The frame of an accepted call says what was asked if and only if the count has 16 bits. -/
theorem asked_iff (t t' : Tag) (msg msg' : ExplicitMessage) (conn : TcpConnection) (sessionHandle : UInt32)
    (name : Option (List UInt8)) (elementCount timeoutMs now : UInt32) :
    (t.read msg conn sessionHandle name elementCount timeoutMs now = (.pending, t', msg') →
      ((∃ given, name = some given ∧ SaysRead given elementCount (msg'.tx.take msg'.txLen)) ↔
        elementCount.toNat < 65536)) ∧
    (t.write msg conn sessionHandle name elementCount timeoutMs now = (.pending, t', msg') →
      ((∃ given, name = some given ∧ SaysWrite t given elementCount (msg'.tx.take msg'.txLen)) ↔
        elementCount.toNat < 65536)) := by
  constructor
  · intro h
    cases name with
    | none =>
      simp only [read, Prod.mk.injEq] at h
      cases h.1
    | some name =>
      have hdecodes := read_decodes h
      constructor
      · -- the count on the wire is the remainder
        rintro ⟨given, -, hsays⟩
        rw [SaysRead, hdecodes, Option.some.injEq, TagRequest.mk.injEq] at hsays
        omega
      · intro hsmall
        refine ⟨name, rfl, ?_⟩
        rw [SaysRead, hdecodes, Nat.mod_eq_of_lt hsmall]
  · intro h
    cases name with
    | none =>
      simp only [write, Prod.mk.injEq] at h
      cases h.1
    | some name =>
      obtain ⟨hvalue, hdecodes⟩ := write_decodes h
      constructor
      · rintro ⟨given, -, hsays⟩
        have hrequest := hsays.request
        rw [hdecodes, Option.some.injEq, TagRequest.mk.injEq] at hrequest
        omega
      · intro hsmall
        refine ⟨name, rfl, ?_, hvalue⟩
        rw [hdecodes, Nat.mod_eq_of_lt hsmall]

/-- The results of a call that returned `Pending`. -/
theorem split_pending {r : Status × Tag × ExplicitMessage} (h : r.1 = .pending) : r = (.pending, r.2.1, r.2.2) :=
  Prod.ext h rfl

/-- A read of one element of `A`, and a write of the string in `A` as one element. -/
theorem asked_iff_one :
    (∃ msg', (({ data := .zero } : Tag).read {} { fd := 3, state := .ok } 7 (some [65]) 1 1000 0).2.2 = msg' ∧
      SaysRead [65] 1 (msg'.tx.take msg'.txLen)) ∧
    ∃ msg', (({ data := .zero, dataType := 0xD0 } : Tag).write {} { fd := 3, state := .ok } 7 (some [65]) 1 1000
      0).2.2 = msg' ∧ SaysWrite { data := .zero, dataType := 0xD0 } [65] 1 (msg'.tx.take msg'.txLen) := by
  constructor
  · have hst : (({ data := .zero } : Tag).read {} { fd := 3, state := .ok } 7 (some [65]) 1 1000 0).1 = .pending := by
      decide +kernel
    obtain ⟨given, hgiven, hsays⟩ := ((asked_iff _ _ _ _ _ _ _ _ _ _).1 (split_pending hst)).2 (by decide)
    obtain rfl := Option.some.inj hgiven
    exact ⟨_, rfl, hsays⟩
  · have hst : (({ data := .zero, dataType := 0xD0 } : Tag).write {} { fd := 3, state := .ok } 7 (some [65]) 1 1000
        0).1 = .pending := by
      decide +kernel
    obtain ⟨given, hgiven, hsays⟩ := ((asked_iff _ _ _ _ _ _ _ _ _ _).2 (split_pending hst)).2 (by decide)
    obtain rfl := Option.some.inj hgiven
    exact ⟨_, rfl, hsays⟩

/-- A read of 65537 elements asks for one, and so does a write of a string. -/
theorem count_truncated :
    (¬ ∀ (t t' : Tag) (msg msg' : ExplicitMessage) (name : List UInt8) (elementCount : UInt32),
      t.read msg { fd := 3, state := .ok } 7 (some name) elementCount 1000 0 = (.pending, t', msg') →
        SaysRead name elementCount (msg'.tx.take msg'.txLen)) ∧
    ¬ ∀ (t t' : Tag) (msg msg' : ExplicitMessage) (name : List UInt8) (elementCount : UInt32),
      t.write msg { fd := 3, state := .ok } 7 (some name) elementCount 1000 0 = (.pending, t', msg') →
        SaysWrite t name elementCount (msg'.tx.take msg'.txLen) := by
  constructor
  · intro h
    have hst : (({ data := .zero } : Tag).read {} { fd := 3, state := .ok } 7 (some [65]) 65537 1000 0).1 =
        .pending := by
      decide +kernel
    have hsays := h _ _ _ _ _ _ (split_pending hst)
    rw [SaysRead, read_decodes (split_pending hst)] at hsays
    -- 65537 and its remainder
    revert hsays
    decide
  · intro h
    have hst : (({ data := .zero, dataType := 0xD0 } : Tag).write {} { fd := 3, state := .ok } 7 (some [65])
      65537 1000 0).1 = .pending := by
      decide +kernel
    have hsays := (h _ _ _ _ _ _ (split_pending hst)).request
    rw [(write_decodes (split_pending hst)).2, Option.some.injEq, TagRequest.mk.injEq] at hsays
    exact absurd hsays.2.2.1 (by decide)

end Tag

end ControlLogix
