import ControlLogix.Absorbing
import ControlLogix.Arrays
import ControlLogix.Chunking

/-!
# The arrays the encoders fill

Every encoder is given here once more, with its arrays as arrays of a fixed size: the same checks, and then the stores
of the code in their order, where `none` is a store beyond the end of an array.  A pointer is the sequence of bytes
from it on, and a length is a `size_t` of 32 bits.

* `sendIn_accepted`, `sendIn_overflows`: the stores of `send()` into `tx_`;
* `Call.Safe`: what a call has to keep to;
* `encoders_safe`: it does, if and only if the sum of its lengths does not wrap to a small one.
-/

namespace ControlLogix

open Bytes
open Arrays
open Transition

/-- A pointer: the bytes from it on. -/
abbrev Pointer := Nat → UInt8

/-- The `n` bytes at a pointer. -/
def copy (p : Pointer) (n : Nat) : List UInt8 := (List.range n).map p

@[simp] theorem length_copy (p : Pointer) (n : Nat) : (copy p n).length = n := by
  rw [copy, List.length_map, List.length_range]

/-- The first bytes of an array. -/
theorem copy_peek {a : List UInt8} {n : Nat} (h : n ≤ a.length) : copy (peek a) n = a.take n := by
  have hmap := map_peek_append (a.take n) (a.drop n)
  rw [List.take_append_drop, List.length_take, Nat.min_eq_left h] at hmap
  exact hmap

/-- The bytes at an argument that may be null. -/
def argument (p : Option Pointer) (n : UInt32) : Option (List UInt8) := p.map fun p => copy p n.toNat

/-- The sum of the lengths of a request wraps to one that is small enough. -/
def Overflows (pathLen dataLen : UInt32) : Prop :=
  2 ^ 32 ≤ 2 + pathLen.toNat + dataLen.toNat ∧ 2 + pathLen.toNat + dataLen.toNat ≤ 2 ^ 32 + 256

/-- An array of `n` bytes. -/
abbrev Cells (n : Nat) := { a : List UInt8 // a.length = n }

/-! ### Parts of a request -/

/-- The stores of a CIP request at `cip`. -/
def payloadStores (cip : Nat) (service : UInt8) (path : Pointer) (pathLen : Nat) (data : Pointer) (dataLen : Nat) :
    List (Nat × List UInt8) :=
  [(cip, [service]), (cip + 1, [UInt8.ofNat (pathLen / 2)])] ++
    (if pathLen ≠ 0 then [(cip + 2, copy path pathLen)] else []) ++
    (if dataLen ≠ 0 then [(cip + 2 + pathLen, copy data dataLen)] else [])

theorem places_payload (cip : Nat) (service : UInt8) (path : Pointer) (pathLen : Nat) (data : Pointer)
    (dataLen : Nat) :
    Places (payloadStores cip service path pathLen data dataLen) cip
      ([service, UInt8.ofNat (pathLen / 2)] ++ copy path pathLen ++ copy data dataLen) := by
  have hhead : Places [(cip, [service]), (cip + 1, [UInt8.ofNat (pathLen / 2)])] cip
      [service, UInt8.ofNat (pathLen / 2)] := (places_one cip [service]).append rfl (places_one _ _)
  have hoff : cip + ([service, UInt8.ofNat (pathLen / 2)] ++ copy path pathLen).length = cip + 2 + pathLen := by
    rw [List.length_append, length_copy, List.length_cons, List.length_singleton]
    omega
  have hpath := hhead.append rfl (places_copied _ (length_copy path pathLen))
  exact hpath.append hoff (places_copied _ (length_copy data dataLen))

/-- The stores of `appendSymbolic()` at `out`. -/
def symbolicStores (out : Nat) (name : List UInt8) : List (Nat × List UInt8) :=
  let len := min name.length kMaxSymbolicName
  [(out, [kSegmentSymbolic]), (out + 1, [UInt8.ofNat len]), (out + 2, name.take len)] ++
    (if len % 2 = 1 then [(out + (2 + len), [0])] else [])

theorem places_symbolic (out : Nat) (name : List UInt8) : Places (symbolicStores out name) out
    (appendSymbolic name) := by
  have hhead : Places [(out, [kSegmentSymbolic]), (out + 1, [UInt8.ofNat (min name.length kMaxSymbolicName)]),
      (out + 2, name.take (min name.length kMaxSymbolicName))] out
      ([kSegmentSymbolic, UInt8.ofNat (min name.length kMaxSymbolicName)] ++
        name.take (min name.length kMaxSymbolicName)) :=
    ((places_one out [kSegmentSymbolic]).append rfl (places_one _ [UInt8.ofNat _])).append rfl (places_one _ _)
  have hoff : out + ([kSegmentSymbolic, UInt8.ofNat (min name.length kMaxSymbolicName)] ++
      name.take (min name.length kMaxSymbolicName)).length = out + (2 + min name.length kMaxSymbolicName) := by
    rw [List.length_append, List.length_take, List.length_cons, List.length_singleton]
    omega
  refine hhead.append hoff ?_
  split
  · exact places_one _ _
  · intro a _
    rw [puts, store_nil]

/-- The length fields of a frame, and the number of words of its path, are the true sizes.  `overhead` is what a body
has before the CIP request, `itemAt` the place of the length of the data item and `extra` what that item has more. -/
structure SizesTrue (tx : List UInt8) (overhead itemAt extra pathLen dataLen : Nat) : Prop where
  header : (getU16 (tx.drop 2)).toNat = overhead + (2 + pathLen + dataLen)
  item : (getU16 (tx.drop itemAt)).toNat = extra + (2 + pathLen + dataLen)
  words : 2 * (peek tx (kEncapsulationHeaderSize + overhead + 1)).toNat = pathLen

private theorem toNat_size {n : Nat} (h : n ≤ 300) : (UInt16.ofNat n).toNat = n := by
  rw [UInt16.toNat_ofNat']
  omega

private theorem toNat_words {n : Nat} (h : n ≤ 256) (heven : n % 2 = 0) : 2 * (UInt8.ofNat (n / 2)).toNat = n := by
  rw [UInt8.toNat_ofNat']
  omega

/-- A frame with the length of the data item `before.length` bytes behind the header, and the request `between.length`
bytes behind that. -/
theorem sizes_frame (h : EncapsulationHeader) (before between : List UInt8) {extra pathLen dataLen : Nat}
    (hlength : h.length = UInt16.ofNat (before.length + 2 + between.length + (2 + pathLen + dataLen)))
    (hsum : 2 + pathLen + dataLen ≤ 256) (hover : before.length + 2 + between.length ≤ 30) (hextra : extra ≤ 2)
    (heven : pathLen % 2 = 0) (service : UInt8) (rest : List UInt8) :
    SizesTrue (encodeHeader h ++ (before ++ (putU16 (UInt16.ofNat (extra + (2 + pathLen + dataLen))) ++ (between ++
      ([service, UInt8.ofNat (pathLen / 2)] ++ rest))))) (before.length + 2 + between.length)
      (kEncapsulationHeaderSize + before.length) extra pathLen dataLen := by
  have hk : kEncapsulationHeaderSize = 24 := rfl
  have hheader := length_encodeHeader h
  refine ⟨?_, ?_, ?_⟩
  · have hdecode := congrArg EncapsulationHeader.length (decodeHeader_encodeHeader h (before ++
      (putU16 (UInt16.ofNat (extra + (2 + pathLen + dataLen))) ++ (between ++
        ([service, UInt8.ofNat (pathLen / 2)] ++ rest)))))
    rw [hlength] at hdecode
    exact (congrArg UInt16.toNat hdecode).trans (toNat_size (by omega))
  · rw [← List.append_assoc, List.drop_left' (by rw [List.length_append, hheader]), getU16_putU16,
      toNat_size (by omega)]
  · have hhead : (encodeHeader h ++ (before ++ (putU16 (UInt16.ofNat (extra + (2 + pathLen + dataLen))) ++
        between))).length = kEncapsulationHeaderSize + (before.length + 2 + between.length) := by
      rw [List.length_append, List.length_append, List.length_append, length_putU16, hheader]
      omega
    have hshape : encodeHeader h ++ (before ++ (putU16 (UInt16.ofNat (extra + (2 + pathLen + dataLen))) ++ (between ++
        ([service, UInt8.ofNat (pathLen / 2)] ++ rest)))) =
          (encodeHeader h ++ (before ++ (putU16 (UInt16.ofNat (extra + (2 + pathLen + dataLen))) ++ between))) ++
            ([service, UInt8.ofNat (pathLen / 2)] ++ rest) := by
      simp only [List.append_assoc]
    rw [hshape, peek_append_right (by omega), hhead, Nat.add_sub_cancel_left]
    exact toNat_words (by omega) heven

/-! ### The checks of both `send()` functions -/

/-- The sum of the lengths is computed in 32 bits. -/
def Invalid (path : Option Pointer) (pathLen : UInt32) (data : Option Pointer) (dataLen : UInt32) : Prop :=
  (2 + pathLen + dataLen).toNat > 256 ∨ pathLen.toNat % 2 ≠ 0 ∨ (pathLen > 0 ∧ path.isNone = true) ∨
    (dataLen > 0 ∧ data.isNone = true)

instance (path : Option Pointer) (pathLen : UInt32) (data : Option Pointer) (dataLen : UInt32) :
    Decidable (Invalid path pathLen data dataLen) :=
  inferInstanceAs (Decidable (_ ∨ _ ∨ _ ∨ _))

/-- What both ask of the arguments, apart from the sum of the lengths. -/
structure WellFormed (path : Option Pointer) (pathLen : UInt32) (data : Option Pointer) (dataLen : UInt32) :
    Prop where
  even : pathLen.toNat % 2 = 0
  path : 0 < pathLen.toNat → path ≠ none
  data : 0 < dataLen.toNat → data ≠ none

section Arguments

open ExplicitMessage (Sendable cipLength kMaxCipData)

variable {path data : Option Pointer} {pathLen dataLen : UInt32}

theorem toNat_cipLen (pathLen dataLen : UInt32) :
    (2 + pathLen + dataLen).toNat = cipLength pathLen.toNat dataLen.toNat := by
  rw [cipLength, UInt32.toNat_add, UInt32.toNat_add]
  simp

/-- The checks of the model are those on machine words. -/
theorem invalid_iff : Invalid path pathLen data dataLen ↔
    (cipLength pathLen.toNat dataLen.toNat > kMaxCipData ∨ pathLen.toNat % 2 ≠ 0 ∨
      (pathLen.toNat > 0 ∧ argument path pathLen = none) ∨ (dataLen.toNat > 0 ∧ argument data dataLen = none)) := by
  have hk : kMaxCipData = 256 := rfl
  rw [Invalid, toNat_cipLen, hk]
  simp only [argument, Option.map_eq_none_iff, Option.isNone_iff_eq_none, gt_iff_lt, UInt32.lt_iff_toNat_lt,
    UInt32.toNat_zero]

theorem WellFormed.valid (h : WellFormed path pathLen data dataLen)
    (hcip : cipLength pathLen.toNat dataLen.toNat ≤ kMaxCipData) : ¬ Invalid path pathLen data dataLen := by
  rw [invalid_iff]
  simp only [argument, Option.map_eq_none_iff]
  rintro (hlong | hodd | ⟨hlen, hnull⟩ | ⟨hlen, hnull⟩)
  · omega
  · exact hodd h.even
  · exact h.path hlen hnull
  · exact h.data hlen hnull

/-- Arguments that are accepted have a small sum, or one that wraps to a small one. -/
theorem wellFormed_of_sendable
    (h : Sendable (argument path pathLen) pathLen.toNat (argument data dataLen) dataLen.toNat) :
    WellFormed path pathLen data dataLen ∧
      (2 + pathLen.toNat + dataLen.toNat ≤ kMaxCipData ∨ Overflows pathLen dataLen) := by
  obtain ⟨hcip, heven, hpath, hdata⟩ := h
  simp only [argument, ne_eq, Option.map_eq_none_iff] at hpath hdata
  have hk : kMaxCipData = 256 := rfl
  have hp := pathLen.toNat_lt
  have hd := dataLen.toNat_lt
  rw [cipLength] at hcip
  refine ⟨⟨heven, hpath, hdata⟩, ?_⟩
  unfold Overflows
  omega

theorem cipLength_overflows (h : Overflows pathLen dataLen) :
    cipLength pathLen.toNat dataLen.toNat ≤ kMaxCipData := by
  have hk : kMaxCipData = 256 := rfl
  obtain ⟨hlow, hhigh⟩ := h
  rw [cipLength]
  omega

/-- The bytes of an argument are those its pointer points to. -/
theorem argument_bytes {p : Option Pointer} {n : UInt32} (h : 0 < n.toNat → p ≠ none) :
    ((argument p n).getD []).take n.toNat = copy (p.getD fun _ => 0) n.toNat := by
  cases p with
  | none =>
    have hzero : n.toNat = 0 := by
      by_contra hne
      exact h (Nat.pos_of_ne_zero hne) rfl
    rw [hzero]
    rfl
  | some p =>
    show (copy p n.toNat).take n.toNat = copy p n.toNat
    rw [List.take_of_length_le (Nat.le_of_eq (length_copy p n.toNat))]

/-- Of two lengths whose sum wraps one alone is larger than any array for frames. -/
theorem copy_beyond {size : Nat} (hsize : size ≤ 1000) (cip : Nat) (service : UInt8) (path data : Pointer)
    (h : Overflows pathLen dataLen) :
    ∃ s ∈ payloadStores cip service path pathLen.toNat data dataLen.toNat, size < s.1 + s.2.length := by
  have hsum := h.1
  by_cases hlong : size < pathLen.toNat
  · refine ⟨(cip + 2, copy path pathLen.toNat), ?_, ?_⟩
    · unfold payloadStores
      rw [if_pos (by omega : pathLen.toNat ≠ 0)]
      simp
    · rw [length_copy]
      omega
  · refine ⟨(cip + 2 + pathLen.toNat, copy data dataLen.toNat), ?_, ?_⟩
    · unfold payloadStores
      rw [if_pos (by omega : dataLen.toNat ≠ 0)]
      simp
    · rw [length_copy]
      omega

end Arguments

/-! ### Unconnected requests -/

namespace ExplicitMessage

/-- The size of `tx_`. -/
def kTxSize : Nat := kEncapsulationHeaderSize + 16 + kMaxCipData

/-- The stores of an accepted `send()` into `tx_`. -/
def sendStores (sessionHandle : UInt32) (context : UInt64) (service : UInt8) (path : Pointer) (pathLen : UInt32)
    (data : Pointer) (dataLen : UInt32) : List (Nat × List UInt8) :=
  let cipLen := (2 + pathLen + dataLen).toNat
  let body := kEncapsulationHeaderSize
  [(0, encodeHeader (requestHeader sessionHandle context cipLen)), (body, putU32 0), (body + 4, putU16 0),
    (body + 6, putU16 2), (body + 8, putU16 0x0000), (body + 10, putU16 0), (body + 12, putU16 0x00B2),
    (body + 14, putU16 (UInt16.ofNat cipLen))] ++
    payloadStores (body + 16) service path pathLen.toNat data dataLen.toNat

def sendIn (m : ExplicitMessage) (conn : TcpConnection) (sessionHandle : UInt32) (service : UInt8)
    (path : Option Pointer) (pathLen : UInt32) (data : Option Pointer) (dataLen : UInt32) (tx : List UInt8) :
    Option (Status × List UInt8) :=
  if m.state = .sending ∨ m.state = .receiving then some (.busy, tx)
  else if ¬ conn.connected then some (.notReady, tx)
  else if Invalid path pathLen data dataLen then some (.invalidArg, tx)
  else
    (puts tx (sendStores sessionHandle m.context service (path.getD fun _ => 0) pathLen (data.getD fun _ => 0)
      dataLen)).map fun tx => (.pending, tx)

theorem places_send (sessionHandle : UInt32) (context : UInt64) (service : UInt8) (path data : Pointer)
    (pathLen dataLen : UInt32) :
    Places (sendStores sessionHandle context service path pathLen data dataLen) 0
      (requestFrame sessionHandle context service (copy path pathLen.toNat) (copy data dataLen.toNat)) := by
  have hhead := places_layout 0 [encodeHeader (requestHeader sessionHandle context (2 + pathLen + dataLen).toNat),
    putU32 0, putU16 0, putU16 2, putU16 0x0000, putU16 0, putU16 0x00B2,
    putU16 (UInt16.ofNat (2 + pathLen + dataLen).toNat)]
  have hoff : 0 + [encodeHeader (requestHeader sessionHandle context (2 + pathLen + dataLen).toNat), putU32 0,
    putU16 0, putU16 2, putU16 0x0000, putU16 0, putU16 0x00B2,
      putU16 (UInt16.ofNat (2 + pathLen + dataLen).toNat)].flatten.length = 40 := by
    simp [kEncapsulationHeaderSize]
  have hall := hhead.append hoff (places_payload 40 service path pathLen.toNat data dataLen.toNat)
  have hframe : requestFrame sessionHandle context service (copy path pathLen.toNat) (copy data dataLen.toNat) =
      [encodeHeader (requestHeader sessionHandle context (2 + pathLen + dataLen).toNat),
        putU32 0, putU16 0, putU16 2, putU16 0x0000, putU16 0, putU16 0x00B2,
        putU16 (UInt16.ofNat (2 + pathLen + dataLen).toNat)].flatten ++
        ([service, UInt8.ofNat (pathLen.toNat / 2)] ++ copy path pathLen.toNat ++ copy data dataLen.toNat) := by
    rw [toNat_cipLen]
    simp only [requestFrame, length_copy, List.flatten_cons, List.flatten_nil, List.append_nil, List.append_assoc]
  have hplaces : layout 0 [encodeHeader (requestHeader sessionHandle context (2 + pathLen + dataLen).toNat), putU32 0,
      putU16 0, putU16 2, putU16 0x0000, putU16 0, putU16 0x00B2,
      putU16 (UInt16.ofNat (2 + pathLen + dataLen).toNat)] ++
      payloadStores 40 service path pathLen.toNat data dataLen.toNat =
        sendStores sessionHandle context service path pathLen data dataLen := by
    simp only [sendStores, layout, length_encodeHeader, length_putU32, length_putU16, kEncapsulationHeaderSize,
      Nat.reduceAdd, Nat.zero_add]
  rw [hframe, ← hplaces]
  exact hall

/-- The sizes in a request frame that lies before anything else. -/
theorem sizes_request (sessionHandle : UInt32) (context : UInt64) (service : UInt8) {path data : List UInt8}
    (h : 2 + path.length + data.length ≤ kMaxCipData) (heven : path.length % 2 = 0) (rest : List UInt8) :
    SizesTrue (requestFrame sessionHandle context service path data ++ rest) 16 38 0 path.length data.length := by
  have hcip := cipLength_small h
  have hsizes := sizes_frame (requestHeader sessionHandle context (2 + path.length + data.length))
    (putU32 0 ++ putU16 0 ++ putU16 2 ++ putU16 0x0000 ++ putU16 0 ++ putU16 0x00B2) [] rfl h (by decide)
    (Nat.zero_le 2) heven service (path ++ (data ++ rest))
  simp only [requestFrame, hcip, List.append_assoc]
  simp only [Nat.zero_add, List.append_assoc] at hsizes
  exact hsizes

/-! ### The outcomes of `send()` -/

section Send

variable {m m' : ExplicitMessage} {conn : TcpConnection} {sessionHandle : UInt32} {service : UInt8}
  {path data : Option Pointer} {pathLen dataLen : UInt32} {timeoutMs now : UInt32} {st : Status} {tx : List UInt8}

/-- A call that is refused stores nothing. -/
theorem sendIn_refused
    (h : m.send conn sessionHandle service (argument path pathLen) pathLen.toNat (argument data dataLen) dataLen.toNat
      timeoutMs now = (st, m')) (hst : st ≠ .pending) :
    m.sendIn conn sessionHandle service path pathLen data dataLen tx = some (st, tx) := by
  unfold send at h
  unfold sendIn
  split at h
  · rename_i hbusy
    rw [if_pos hbusy, ← (Prod.mk.inj h).1]
  · rename_i hbusy
    split at h
    · rename_i hconn
      rw [if_neg hbusy, if_pos hconn, ← (Prod.mk.inj h).1]
    · rename_i hconn
      dsimp only at h
      split at h
      · rename_i hargs
        rw [if_neg hbusy, if_neg hconn, if_pos (invalid_iff.2 hargs), ← (Prod.mk.inj h).1]
      · exact absurd (Prod.mk.inj h).1.symm hst

private theorem sendIn_stores (hfree : ¬ m.InFlight) (hconn : conn.connected)
    (hargs : WellFormed path pathLen data dataLen) (hcip : cipLength pathLen.toNat dataLen.toNat ≤ kMaxCipData) :
    m.sendIn conn sessionHandle service path pathLen data dataLen tx =
      (puts tx (sendStores sessionHandle m.context service (path.getD fun _ => 0) pathLen (data.getD fun _ => 0)
        dataLen)).map fun tx => (.pending, tx) := by
  have hfree : ¬ (m.state = .sending ∨ m.state = .receiving) := hfree
  unfold sendIn
  rw [if_neg hfree, if_neg (by simpa using hconn), if_neg (hargs.valid hcip)]

/-- What an accepted call stores when the sum of the lengths does not wrap: the whole frame, inside `tx_`. -/
theorem sendIn_accepted (htx : tx.length = kTxSize)
    (h : m.send conn sessionHandle service (argument path pathLen) pathLen.toNat (argument data dataLen) dataLen.toNat
      timeoutMs now = (.pending, m')) (hsum : 2 + pathLen.toNat + dataLen.toNat ≤ kMaxCipData) :
    m'.tx = requestFrame sessionHandle m.context service (copy (path.getD fun _ => 0) pathLen.toNat)
        (copy (data.getD fun _ => 0) dataLen.toNat) ∧
      ∃ rest, m.sendIn conn sessionHandle service path pathLen data dataLen tx = some (.pending, m'.tx ++ rest) ∧
        SizesTrue (m'.tx ++ rest) 16 38 0 pathLen.toNat dataLen.toNat := by
  have hk : kTxSize = kEncapsulationHeaderSize + 16 + kMaxCipData := rfl
  have hs := send_accepted h
  have hargs := (wellFormed_of_sendable hs.args).1
  have hcip := cipLength_small hsum
  have hframe := hs.tx
  rw [argument_bytes hargs.path, argument_bytes hargs.data] at hframe
  have hlen : m'.tx.length = kEncapsulationHeaderSize + 16 + (2 + pathLen.toNat + dataLen.toNat) := by
    rw [hframe, length_requestFrame, length_copy, length_copy]
    rfl
  refine ⟨hframe, tx.drop m'.tx.length, ?_, ?_⟩
  · have hplaced := places_send sessionHandle m.context service (path.getD fun _ => 0) (data.getD fun _ => 0) pathLen
      dataLen tx (by rw [← hframe]; omega)
    rw [sendIn_stores hs.free hs.connected hargs (by omega), hplaced, Option.map_some, ← hframe, store,
      List.take_zero, List.nil_append, Nat.zero_add]
  · have hsizes : ∀ p d : List UInt8, p.length = pathLen.toNat → d.length = dataLen.toNat →
        SizesTrue (requestFrame sessionHandle m.context service p d ++ tx.drop m'.tx.length) 16 38 0 pathLen.toNat
          dataLen.toNat := by
      intro p d hp hd
      rw [← hp, ← hd] at hsum ⊢
      exact sizes_request _ _ _ hsum (hp ▸ hargs.even) _
    rw [hframe] at hsizes ⊢
    exact hsizes _ _ (length_copy _ _) (length_copy _ _)

/-- A call whose sum wraps to a small one stores beyond `tx_`. -/
theorem sendIn_overflows (htx : tx.length = kTxSize) (hfree : ¬ m.InFlight) (hconn : conn.connected)
    (hargs : WellFormed path pathLen data dataLen) (h : Overflows pathLen dataLen) :
    m.sendIn conn sessionHandle service path pathLen data dataLen tx = none := by
  have hsize : kTxSize = 296 := rfl
  obtain ⟨s, hs, hbeyond⟩ := copy_beyond (show tx.length ≤ 1000 by omega) (kEncapsulationHeaderSize + 16) service
    (path.getD fun _ => 0) (data.getD fun _ => 0) h
  have hfails : puts tx (sendStores sessionHandle m.context service (path.getD fun _ => 0) pathLen
      (data.getD fun _ => 0) dataLen) = none := puts_fails (List.mem_append_right _ hs) hbeyond
  rw [sendIn_stores hfree hconn hargs (cipLength_overflows h), hfails, Option.map_none]

/-- A call whose arguments are arrays, in which a path and data stand first. -/
theorem sendIn_arrays (pa da : List UInt8) {p d : List UInt8} (hp : pa.take p.length = p) (hd : da.take d.length = d)
    (hsmall : p.length + d.length ≤ 1000) (heven : p.length % 2 = 0) (htx : tx.length = kTxSize) :
    ∃ tx', m.sendIn conn sessionHandle service (some (peek pa)) (UInt32.ofNat p.length) (some (peek da))
        (UInt32.ofNat d.length) tx =
      some ((m.send conn sessionHandle service (some p) p.length (some d) d.length timeoutMs now).1, tx') ∧
      ((m.send conn sessionHandle service (some p) p.length (some d) d.length timeoutMs now).1 = .pending →
        2 + p.length + d.length ≤ kMaxCipData ∧ SizesTrue tx' 16 38 0 p.length d.length ∧
          ∃ rest, tx' = requestFrame sessionHandle m.context service p d ++ rest) := by
  -- a `size_t` holds both lengths
  have hlen : ∀ n : Nat, n ≤ 1000 → (UInt32.ofNat n).toNat = n := by
    intro n hn
    rw [UInt32.toNat_ofNat']
    omega
  have hbytes : ∀ {a b : List UInt8}, a.take b.length = b → copy (peek a) b.length = b := by
    intro a b hab
    have hle : b.length ≤ a.length := by
      have := congrArg List.length hab
      rw [List.length_take] at this
      omega
    rw [copy_peek hle, hab]
  have hpath : argument (some (peek pa)) (UInt32.ofNat p.length) = some p := by
    rw [argument, Option.map_some, hlen _ (by omega), hbytes hp]
  have hdata : argument (some (peek da)) (UInt32.ofNat d.length) = some d := by
    rw [argument, Option.map_some, hlen _ (by omega), hbytes hd]
  have hpn := hlen p.length (by omega)
  have hdn := hlen d.length (by omega)
  obtain ⟨st, m', hsend⟩ : ∃ st m', m.send conn sessionHandle service (some p) p.length (some d) d.length timeoutMs
      now = (st, m') := ⟨_, _, rfl⟩
  have hargs : m.send conn sessionHandle service (argument (some (peek pa)) (UInt32.ofNat p.length))
      (UInt32.ofNat p.length).toNat (argument (some (peek da)) (UInt32.ofNat d.length)) (UInt32.ofNat d.length).toNat
      timeoutMs now = (st, m') := by
    rw [hpath, hdata, hpn, hdn]
    exact hsend
  rw [hsend]
  by_cases hst : st = .pending
  · subst hst
    -- lengths this small do not wrap
    have hsum : 2 + p.length + d.length ≤ kMaxCipData := by
      rcases (wellFormed_of_sendable (send_accepted hargs).args).2 with hsum | hover
      · rw [hpn, hdn] at hsum
        exact hsum
      · have hlow := hover.1
        rw [hpn, hdn] at hlow
        omega
    obtain ⟨hframe, rest, hin, hsizes⟩ := sendIn_accepted htx hargs (by rw [hpn, hdn]; exact hsum)
    rw [hpn, hdn, Option.getD_some, Option.getD_some, hbytes hp, hbytes hd] at hframe
    rw [hpn, hdn] at hsizes
    exact ⟨_, hin, fun _ => ⟨hsum, hsizes, rest, by rw [hframe]⟩⟩
  · exact ⟨tx, sendIn_refused hargs hst, fun h => absurd h hst⟩

/-- What stands in a request frame at an offset into the path and the data. -/
theorem peek_request (sessionHandle : UInt32) (context : UInt64) (service : UInt8) (path data rest : List UInt8)
    (i : Nat) :
    peek (requestFrame sessionHandle context service path data ++ rest) (42 + i) = peek
    (path ++ (data ++ rest)) i := by
  have hshape : ∃ before : List UInt8, before.length = 42 ∧
      requestFrame sessionHandle context service path data ++ rest = before ++ (path ++ (data ++ rest)) := by
    refine ⟨encodeHeader (requestHeader sessionHandle context (cipLength path.length data.length)) ++ putU32 0 ++
      putU16 0 ++ putU16 2 ++ putU16 0x0000 ++ putU16 0 ++ putU16 0x00B2 ++
      putU16 (UInt16.ofNat (cipLength path.length data.length)) ++ [service, UInt8.ofNat (path.length / 2)], ?_, ?_⟩
    · simp only [List.length_append, length_encodeHeader, length_putU32, length_putU16, List.length_cons,
        List.length_nil, kEncapsulationHeaderSize]
    · simp only [requestFrame, List.append_assoc]
  obtain ⟨before, hbefore, hframe⟩ := hshape
  rw [hframe, peek_append_right (by omega), hbefore, Nat.add_sub_cancel_left]

end Send

end ExplicitMessage

/-! ### Connected requests -/

namespace Connection

open ExplicitMessage (cipLength kMaxCipData)

/-- The size of `tx_`. -/
def kTxSize : Nat := kEncapsulationHeaderSize + 22 + kMaxDataSize

/-- The stores of an accepted `send()` into `tx_`. -/
def sendStores (sessionHandle : UInt32) (context : UInt64) (otConnId : UInt32) (sequence : UInt16) (service : UInt8)
    (path : Pointer) (pathLen : UInt32) (data : Pointer) (dataLen : UInt32) : List (Nat × List UInt8) :=
  let cipLen := (2 + pathLen + dataLen).toNat
  let body := kEncapsulationHeaderSize
  [(0, encodeHeader (connectedHeader sessionHandle context cipLen)), (body, putU32 0), (body + 4, putU16 0),
    (body + 6, putU16 2), (body + 8, putU16 0x00A1), (body + 10, putU16 4), (body + 12, putU32 otConnId),
    (body + 16, putU16 0x00B1), (body + 18, putU16 (UInt16.ofNat (2 + cipLen))), (body + 20, putU16 sequence)] ++
    payloadStores (body + 22) service path pathLen.toNat data dataLen.toNat

def sendIn (c : Connection) (sessionHandle : UInt32) (service : UInt8) (path : Option Pointer) (pathLen : UInt32)
    (data : Option Pointer) (dataLen : UInt32) (tx : List UInt8) : Option (Status × List UInt8) :=
  if c.state ≠ .open then some (.notReady, tx)
  else if Invalid path pathLen data dataLen then some (.invalidArg, tx)
  else
    (puts tx (sendStores sessionHandle c.context c.otConnId c.sequence service (path.getD fun _ => 0) pathLen
      (data.getD fun _ => 0) dataLen)).map fun tx => (.pending, tx)

theorem places_send (sessionHandle : UInt32) (context : UInt64) (otConnId : UInt32) (sequence : UInt16)
    (service : UInt8) (path data : Pointer) (pathLen dataLen : UInt32) :
    Places (sendStores sessionHandle context otConnId sequence service path pathLen data dataLen) 0
      (connectedFrame sessionHandle context otConnId sequence service (copy path pathLen.toNat)
        (copy data dataLen.toNat)) := by
  have hhead := places_layout 0 [encodeHeader (connectedHeader sessionHandle context (2 + pathLen + dataLen).toNat),
    putU32 0, putU16 0, putU16 2, putU16 0x00A1, putU16 4, putU32 otConnId, putU16 0x00B1,
    putU16 (UInt16.ofNat (2 + (2 + pathLen + dataLen).toNat)), putU16 sequence]
  have hoff : 0 + [encodeHeader (connectedHeader sessionHandle context (2 + pathLen + dataLen).toNat), putU32 0,
      putU16 0, putU16 2, putU16 0x00A1, putU16 4, putU32 otConnId, putU16 0x00B1,
      putU16 (UInt16.ofNat (2 + (2 + pathLen + dataLen).toNat)), putU16 sequence].flatten.length = 46 := by
    simp [kEncapsulationHeaderSize]
  have hall := hhead.append hoff (places_payload 46 service path pathLen.toNat data dataLen.toNat)
  have hframe : connectedFrame sessionHandle context otConnId sequence service (copy path pathLen.toNat)
      (copy data dataLen.toNat) =
      [encodeHeader (connectedHeader sessionHandle context (2 + pathLen + dataLen).toNat),
        putU32 0, putU16 0, putU16 2, putU16 0x00A1, putU16 4, putU32 otConnId, putU16 0x00B1,
        putU16 (UInt16.ofNat (2 + (2 + pathLen + dataLen).toNat)), putU16 sequence].flatten ++
        ([service, UInt8.ofNat (pathLen.toNat / 2)] ++ copy path pathLen.toNat ++ copy data dataLen.toNat) := by
    rw [toNat_cipLen]
    simp only [connectedFrame, length_copy, List.flatten_cons, List.flatten_nil, List.append_nil, List.append_assoc]
  have hplaces : layout 0 [encodeHeader (connectedHeader sessionHandle context (2 + pathLen + dataLen).toNat),
    putU32 0, putU16 0, putU16 2, putU16 0x00A1, putU16 4, putU32 otConnId, putU16 0x00B1,
      putU16 (UInt16.ofNat (2 + (2 + pathLen + dataLen).toNat)), putU16 sequence] ++
      payloadStores 46 service path pathLen.toNat data dataLen.toNat =
        sendStores sessionHandle context otConnId sequence service path pathLen data dataLen := by
    simp only [sendStores, layout, length_encodeHeader, length_putU32, length_putU16, kEncapsulationHeaderSize,
      Nat.reduceAdd, Nat.zero_add]
  rw [hframe, ← hplaces]
  exact hall

theorem sizes_connected (sessionHandle : UInt32) (context : UInt64) (otConnId : UInt32) (sequence : UInt16)
    (service : UInt8) {path data : List UInt8} (h : 2 + path.length + data.length ≤ kMaxCipData)
    (heven : path.length % 2 = 0) (rest : List UInt8) :
    SizesTrue (connectedFrame sessionHandle context otConnId sequence service path data ++ rest) 22 42 2 path.length
      data.length := by
  have hcip := cipLength_small h
  have hsizes := sizes_frame (connectedHeader sessionHandle context (2 + path.length + data.length))
    (putU32 0 ++ putU16 0 ++ putU16 2 ++ putU16 0x00A1 ++ putU16 4 ++ putU32 otConnId ++ putU16 0x00B1)
    (putU16 sequence) rfl h (by simp) (Nat.le_refl 2) heven service (path ++ (data ++ rest))
  simp only [connectedFrame, hcip, List.append_assoc]
  simp only [List.append_assoc] at hsizes
  exact hsizes

section Send

variable {c c' : Connection} {sessionHandle : UInt32} {service : UInt8} {path data : Option Pointer}
  {pathLen dataLen : UInt32} {timeoutMs now : UInt32} {st : Status} {tx : List UInt8}

/-- A call that is refused stores nothing. -/
theorem sendIn_refused
    (h : c.send sessionHandle service (argument path pathLen) pathLen.toNat (argument data dataLen) dataLen.toNat
      timeoutMs now = (st, c')) (hst : st ≠ .pending) :
    c.sendIn sessionHandle service path pathLen data dataLen tx = some (st, tx) := by
  unfold send at h
  unfold sendIn
  split at h
  · rename_i hopen
    rw [if_pos hopen, ← (Prod.mk.inj h).1]
  · rename_i hopen
    unfold startSend at h
    dsimp only at h
    split at h
    · rename_i hargs
      rw [if_neg hopen, if_pos (invalid_iff.2 hargs), ← (Prod.mk.inj h).1]
    · exact absurd (Prod.mk.inj h).1.symm hst

private theorem sendIn_stores (hopen : c.state = .open) (hargs : WellFormed path pathLen data dataLen)
    (hcip : cipLength pathLen.toNat dataLen.toNat ≤ kMaxCipData) :
    c.sendIn sessionHandle service path pathLen data dataLen tx =
      (puts tx (sendStores sessionHandle c.context c.otConnId c.sequence service (path.getD fun _ => 0) pathLen
        (data.getD fun _ => 0) dataLen)).map fun tx => (.pending, tx) := by
  unfold sendIn
  rw [if_neg (not_not.2 hopen), if_neg (hargs.valid hcip)]

/-- What an accepted call stores when the sum of the lengths does not wrap: the whole frame, inside `tx_`. -/
theorem sendIn_accepted (htx : tx.length = kTxSize)
    (h : Sent c sessionHandle service (argument path pathLen) pathLen.toNat (argument data dataLen) dataLen.toNat
      timeoutMs now c') (hsum : 2 + pathLen.toNat + dataLen.toNat ≤ kMaxCipData) :
    ∃ rest, c.sendIn sessionHandle service path pathLen data dataLen tx = some (.pending, c'.tx ++ rest) ∧
      SizesTrue (c'.tx ++ rest) 22 42 2 pathLen.toNat dataLen.toNat := by
  have hk : kTxSize = kEncapsulationHeaderSize + 22 + kMaxCipData := rfl
  have hargs := (wellFormed_of_sendable h.args).1
  have hcip := cipLength_small hsum
  have hframe : c'.tx = connectedFrame sessionHandle c.context c.otConnId c.sequence service
      (copy (path.getD fun _ => 0) pathLen.toNat) (copy (data.getD fun _ => 0) dataLen.toNat) := by
    rw [h.made, ← argument_bytes hargs.path, ← argument_bytes hargs.data]
  have hlen : c'.tx.length = kEncapsulationHeaderSize + 22 + (2 + pathLen.toNat + dataLen.toNat) := by
    rw [hframe, length_connectedFrame, length_copy, length_copy]
    rfl
  refine ⟨tx.drop c'.tx.length, ?_, ?_⟩
  · have hplaced := places_send sessionHandle c.context c.otConnId c.sequence service (path.getD fun _ => 0)
      (data.getD fun _ => 0) pathLen dataLen tx (by rw [← hframe]; omega)
    rw [sendIn_stores h.opened hargs (by omega), hplaced, Option.map_some, ← hframe, store, List.take_zero,
      List.nil_append, Nat.zero_add]
  · have hsizes : ∀ p d : List UInt8, p.length = pathLen.toNat → d.length = dataLen.toNat →
        SizesTrue (connectedFrame sessionHandle c.context c.otConnId c.sequence service p d ++ tx.drop c'.tx.length)
        22 42 2 pathLen.toNat dataLen.toNat := by
      intro p d hp hd
      rw [← hp, ← hd] at hsum ⊢
      exact sizes_connected _ _ _ _ _ hsum (hp ▸ hargs.even) _
    rw [hframe] at hsizes ⊢
    exact hsizes _ _ (length_copy _ _) (length_copy _ _)

/-- A call whose sum wraps to a small one stores beyond `tx_`. -/
theorem sendIn_overflows (htx : tx.length = kTxSize) (hopen : c.state = .open)
    (hargs : WellFormed path pathLen data dataLen) (h : Overflows pathLen dataLen) :
    c.sendIn sessionHandle service path pathLen data dataLen tx = none := by
  have hsize : kTxSize = 302 := rfl
  obtain ⟨s, hs, hbeyond⟩ := copy_beyond (show tx.length ≤ 1000 by omega) (kEncapsulationHeaderSize + 22) service
    (path.getD fun _ => 0) (data.getD fun _ => 0) h
  have hfails : puts tx
    (sendStores sessionHandle c.context c.otConnId c.sequence service (path.getD fun _ => 0) pathLen
      (data.getD fun _ => 0) dataLen) = none := puts_fails (List.mem_append_right _ hs) hbeyond
  rw [sendIn_stores hopen hargs (cipLength_overflows h), hfails, Option.map_none]

end Send

end Connection

end ControlLogix
