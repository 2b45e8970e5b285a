import ControlLogix.Operations

/-!
# The capacities of the layers

A tag holds values of 256 bytes.  A request and a reply hold 256 bytes too, but these have room for more than the
value: a request for the service, the path, the number of elements and the type, a reply for the header of the
response and the type.

* `Writes`, `Reads`: a value of a known type can be written, and a reply that carries it can be read;
* `write_value_iff`, `reads_iff`: when a call of `write()` is accepted, and when a read ends with its value;
* `capacities`: both hold if and only if the path and the value leave 6 bytes of the 256 in a request.
-/

namespace ControlLogix

open Bytes
open Buffers (atOnce taken verdict received bodyLength)

namespace Tag

open ExplicitMessage (kMaxCipData)

/-- The tag holds a value of `elementCount` elements of the type. -/
structure Value (t : Tag) (type : DataType) (elementCount : UInt32) (value : List UInt8) : Prop where
  code : t.dataType = type.code
  bytes : t.data.bytes.take value.length = value
  small : value.length ≤ kMaxDataSize
  size : value.length =
    if type = .string then 4 + (getU32 value).toNat else elementCount.toNat * dataTypeElementSize (some type)

instance decidableValue (t : Tag) (type : DataType) (elementCount : UInt32) (value : List UInt8) :
    Decidable (Value t type elementCount value) :=
  decidable_of_iff (t.dataType = type.code ∧ t.data.bytes.take value.length = value ∧ value.length ≤ kMaxDataSize ∧
    value.length =
      if type = .string then 4 + (getU32 value).toNat else elementCount.toNat * dataTypeElementSize (some type))
    ⟨fun h => ⟨h.1, h.2.1, h.2.2.1, h.2.2.2⟩, fun h => ⟨h.code, h.bytes, h.small, h.size⟩⟩

/-- A well-formed Read Tag reply that carries the value. -/
structure Carries (r : Reply) (type : DataType) (value : List UInt8) : Prop where
  service : r.service = 0xCC
  success : r.encapStatus = 0 ∧ r.status = 0 ∧ r.extSize = 0
  data : r.data = putU16 type.code.toUInt16 ++ value

/-- A tag that holds the value can write it under the name when its message is idle and the connection is up. -/
def Writes (name : List UInt8) (type : DataType) (value : List UInt8) : Prop :=
  ∀ (t : Tag) (msg : ExplicitMessage) (conn : TcpConnection) (sessionHandle elementCount timeoutMs now : UInt32),
    Value t type elementCount value → ¬ t.InFlight → ¬ msg.InFlight → conn.connected →
      (t.write msg conn sessionHandle (some name) elementCount timeoutMs now).1 = .pending

/-- A read under the name to which the server answers with the value ends, in whatever pieces the request and the
reply pass, and has got all bytes of the value. -/
def Reads (name : List UInt8) (type : DataType) (value : List UInt8) : Prop :=
  ∀ (t t₁ t' : Tag) (msg msg₁ msg' : ExplicitMessage) (conn conn' : TcpConnection)
    (sessionHandle elementCount timeoutMs now : UInt32) (r : Reply) (ts : List Turn) (millis : Nat → UInt32)
    (st : Status),
    t.read msg conn sessionHandle (some name) elementCount timeoutMs now = (.pending, t₁, msg₁) → conn.Usable →
    conn.sock.inbox = [] → Carries r type value → r.context = msg₁.sentContext →
    (∀ u ∈ ts, u.InTime msg₁.deadline) → expired (millis 0) msg₁.deadline = false → delivered ts = r.frame →
    drive machine.poll (t₁, msg₁) conn (ts ++ [.poll (atOnce millis)]) = (st, (t', msg'), conn') →
      st = .ok ∧ Holding t' type.code value

/-! ### Writing -/

theorem elementSize_pos {type : DataType} (h : type ≠ .string) : 0 < dataTypeElementSize (some type) := by
  cases type <;> first | exact absurd rfl h | decide

/-- The length that `startWrite()` derives from the type is that of the value. -/
theorem writeLength_value {t : Tag} {type : DataType} {elementCount : UInt32} {value : List UInt8}
    (h : Value t type elementCount value) : t.writeLength elementCount = some value.length := by
  have hk : kMaxDataSize = 256 := rfl
  have hsmall := h.small
  have hsize := h.size
  unfold writeLength
  rw [h.code]
  by_cases hstring : type = .string
  · subst hstring
    rw [if_pos rfl] at hsize ⊢
    -- the length of the string is in the first four bytes of the value
    have hhead : t.data.bytes.take 4 = value.take 4 := by
      rw [← h.bytes, List.take_take, Nat.min_eq_left (by omega)]
    rw [getU32_congr hhead]
    dsimp only
    rw [if_neg (by omega), hsize]
  · have hcode : type.code ≠ DataType.string.code := by
      intro h
      apply hstring
      revert h
      cases type <;> decide
    have hpos := elementSize_pos hstring
    rw [if_neg hstring] at hsize
    rw [if_neg hcode, DataType.ofCode_code]
    dsimp only
    rw [if_neg, hsize]
    rintro (hzero | hlarge)
    · omega
    · rw [gt_iff_lt, Nat.div_lt_iff_lt_mul hpos] at hlarge
      omega

theorem write_value_iff {t : Tag} {msg : ExplicitMessage} {conn : TcpConnection} {sessionHandle : UInt32}
    {name : List UInt8} {type : DataType} {elementCount timeoutMs now : UInt32} {value : List UInt8}
    (hname : name.length ≤ kMaxSymbolicName) (h : Value t type elementCount value) (ht : ¬ t.InFlight)
    (hm : ¬ msg.InFlight) (hconn : conn.connected) :
    (t.write msg conn sessionHandle (some name) elementCount timeoutMs now).1 = .pending ↔
      6 + (appendSymbolic name).length + value.length ≤ kMaxCipData := by
  have htype : t.dataType ≠ 0 := by
    rw [h.code]
    cases type <;> decide
  rw [write_iff ht hm hconn, writeLength_value h]
  constructor
  · rintro ⟨-, -, n, hn, hfits⟩
    simp only [Option.some.injEq] at hn
    omega
  · intro hfits
    exact ⟨hname, htype, value.length, rfl, by omega⟩

/-! ### Reading -/

private theorem Carries.length {r : Reply} {type : DataType} {value : List UInt8} (h : Carries r type value) :
    r.data.length = 2 + value.length := by
  rw [h.data, List.length_append, length_putU16]

/-- A reply arrives whole, or its header alone is read. -/
private theorem taken_frame (r : Reply) (cap : Nat) : taken cap r.frame ≤ r.frame.length := by
  have hwhole := r.whole
  have hlen := r.length_frame
  unfold WholeFrame at hwhole
  unfold taken
  split <;> omega

theorem reads_iff {t t₁ t' : Tag} {msg msg₁ msg' : ExplicitMessage} {conn conn' : TcpConnection}
    {sessionHandle elementCount timeoutMs now : UInt32} {name value : List UInt8} {type : DataType} {r : Reply}
    {ts : List Turn} {millis : Nat → UInt32} {st : Status}
    (h : t.read msg conn sessionHandle (some name) elementCount timeoutMs now = (.pending, t₁, msg₁))
    (hu : conn.Usable) (hinbox : conn.sock.inbox = []) (hr : Carries r type value)
    (hcontext : r.context = msg₁.sentContext) (hts : ∀ u ∈ ts, u.InTime msg₁.deadline)
    (hnow : expired (millis 0) msg₁.deadline = false) (hdelivered : delivered ts = r.frame)
    (hd : drive machine.poll (t₁, msg₁) conn (ts ++ [.poll (atOnce millis)]) = (st, (t', msg'), conn')) :
    st = .ok ∧ Holding t' type.code value ↔ value.length ≤ 250 := by
  obtain ⟨hmade, hreq⟩ := read_requested h
  have harrived : conn.sock.inbox ++ delivered ts = r.frame := by
    rw [hinbox, hdelivered, List.nil_append]
  have hcap : machine.cap = 272 := rfl
  have hbody : bodyLength r.frame = 22 + value.length := by
    have hlen := r.bodyLength_frame []
    rw [List.append_nil, hr.length] at hlen
    omega
  obtain ⟨hne, hcon⟩ := hreq.started.completes hu hts hnow (by rw [harrived]; exact taken_frame r _) hd
  rw [harrived] at hcon
  by_cases hfits : value.length ≤ 250
  · have hverdict : verdict machine.cap r.frame = .ok := if_neg (by omega)
    rw [hverdict] at hcon
    have hlen : r.data.length ≤ 252 := by
      rw [hr.length]
      omega
    have hout := ended_frame ⟨hne, hcon⟩ hlen hr.success.1 hcontext
    have hread : t₁.state = .reading := by rw [hmade]
    exact ⟨fun _ => hfits, fun _ => ⟨hout.accepted hr.success.2.1, hout.value hr.success.2.1 hread _ _ hr.data⟩⟩
  · -- the header announces more than the message takes
    have hverdict : verdict machine.cap r.frame = .error := if_pos (by omega)
    rw [hverdict] at hcon
    have hst : st = .error := by
      have hstatus := congrArg Prod.fst hcon
      exact hstatus
    constructor
    · rintro ⟨hok, -⟩
      rw [hst] at hok
      cases hok
    · intro h
      exact absurd h hfits

/-! ### Both -/

/-- A fresh tag whose message is idle, and a connection that is up. -/
private theorem accepted {name : List UInt8} (hname : name.length ≤ kMaxSymbolicName) :
    ∃ t₁ msg₁, ({ data := .zero } : Tag).read {} { fd := 3, state := .ok } 7 (some name) 1 1000 0 =
      (.pending, t₁, msg₁) := by
  have hst : (({ data := .zero } : Tag).read {} { fd := 3, state := .ok } 7 (some name) 1 1000 0).1 = .pending :=
    (read_iff (by decide) (by decide) rfl).2 hname
  obtain ⟨st, t₁, msg₁, hread⟩ : ∃ st t₁ msg₁, ({ data := .zero } : Tag).read {} { fd := 3, state := .ok } 7
    (some name) 1 1000 0 = (st, t₁, msg₁) := ⟨_, _, _, rfl⟩
  rw [hread] at hst
  subst hst
  exact ⟨t₁, msg₁, hread⟩

private theorem reads_of_small {name value : List UInt8} {type : DataType} (h : value.length ≤ 250) :
    Reads name type value := by
  intro t t₁ t' msg msg₁ msg' conn conn' sessionHandle elementCount timeoutMs now r ts millis st hread hu hinbox hr
    hcontext hts hnow hdelivered hd
  have hk : kMaxDataSize = 256 := rfl
  exact (reads_iff hread hu hinbox hr hcontext hts hnow hdelivered hd).2 h

/-- The server can answer with every value. -/
private theorem answerable (type : DataType) {value : List UInt8} (hsmall : value.length ≤ kMaxDataSize)
    (context : UInt64) : ∃ r : Reply, Carries r type value ∧ r.context = context := by
  have hk : kMaxDataSize = 256 := rfl
  have hfits : 20 + (putU16 type.code.toUInt16 ++ value).length < 2 ^ 16 := by
    rw [List.length_append, length_putU16]
    omega
  exact ⟨{ exchange := context.toNat, service := 0xCC, data := putU16 type.code.toUInt16 ++ value, fits := hfits },
    ⟨rfl, ⟨rfl, rfl, rfl⟩, rfl⟩, UInt64.ofNat_toNat⟩

/-- There is a time before every deadline. -/
private theorem expired_before (deadline : UInt32) : expired (deadline - 1) deadline = false := by
  have hminus : deadline - 1 - deadline = (0 : UInt32) - 1 := by grind
  rw [expired, hminus]
  decide

private theorem small_of_reads {name value : List UInt8} {type : DataType} (hname : name.length ≤ kMaxSymbolicName)
    (hsmall : value.length ≤ kMaxDataSize) (h : Reads name type value) : value.length ≤ 250 := by
  obtain ⟨t₁, msg₁, hread⟩ := accepted hname
  obtain ⟨r, hr, hcontext⟩ := answerable type hsmall msg₁.sentContext
  obtain ⟨millis, hnow⟩ : ∃ millis : Nat → UInt32, expired (millis 0) msg₁.deadline = false :=
    ⟨fun _ => msg₁.deadline - 1, expired_before msg₁.deadline⟩
  have hts : ∀ u ∈ [Turn.deliver r.frame], u.InTime msg₁.deadline := by
    intro u hu
    rw [List.mem_singleton.1 hu]
    trivial
  have hdelivered : delivered [Turn.deliver r.frame] = r.frame := by
    simp [delivered]
  have hu : ({ fd := 3, state := .ok } : TcpConnection).Usable := by decide
  generalize hts' : [Turn.deliver r.frame] = ts at hts hdelivered
  obtain ⟨st, ⟨t', msg'⟩, conn', hd⟩ : ∃ st s conn', drive machine.poll (t₁, msg₁) { fd := 3, state := .ok }
    (ts ++ [.poll (atOnce millis)]) = (st, s, conn') := ⟨_, _, _, rfl⟩
  have hends := h _ t₁ t' _ msg₁ msg' _ conn' 7 1 1000 0 r ts millis st hread hu rfl hr hcontext hts hnow
    hdelivered hd
  exact (reads_iff hread hu rfl hr hcontext hts hnow hdelivered hd).1 hends

/-- A value of a known type can be written under a name and read back if and only if it leaves room for the path of
the name and 6 more bytes in a request; that it can be read takes less. -/
theorem capacities {name : List UInt8} {type : DataType} {value : List UInt8} (hname : name.length ≤ kMaxSymbolicName)
    (hvalue : ∃ t elementCount, Value t type elementCount value) :
    (Writes name type value ∧ Reads name type value ↔ 6 + (appendSymbolic name).length + value.length ≤ kMaxCipData) ∧
      (Reads name type value ↔ value.length ≤ 250) := by
  obtain ⟨t, elementCount, hv⟩ := hvalue
  have hk : kMaxCipData = 256 := rfl
  constructor
  · constructor
    · rintro ⟨hwrites, -⟩
      have hrest : Value { t with state := .idle } type elementCount value := ⟨hv.code, hv.bytes, hv.small, hv.size⟩
      have hidle : ¬ ({ t with state := .idle } : Tag).InFlight := by simp [InFlight]
      have hfree : ¬ ({} : ExplicitMessage).InFlight := by decide
      have hconn : ({ fd := 3, state := .ok } : TcpConnection).connected := rfl
      rw [← write_value_iff hname hrest hidle hfree hconn]
      exact hwrites _ _ _ 7 elementCount 1000 0 hrest hidle hfree hconn
    · intro hfits
      constructor
      · intro t msg conn sessionHandle elementCount timeoutMs now hv ht hm hconn
        exact (write_value_iff hname hv ht hm hconn).2 hfits
      · -- a path is not empty
        have hpath : 2 ≤ (appendSymbolic name).length := by
          simp only [appendSymbolic, List.length_append, List.length_cons]
          omega
        exact reads_of_small (by omega)
  · exact ⟨small_of_reads hname hv.small, reads_of_small⟩

/-- The tag `A` holds the DINT 1. -/
theorem capacities_dint : Writes [65] .dint [1, 0, 0, 0] ∧ Reads [65] .dint [1, 0, 0, 0] := by
  have hvalue : Value { data := TagData.zero.put 0 [1, 0, 0, 0] (by decide), dataType := 0xC4 } .dint 1
    [1, 0, 0, 0] := by
    decide +kernel
  exact (capacities (by decide) ⟨_, _, hvalue⟩).1.2 (by decide)

/-- 256 bytes of type USINT fill a tag, but can neither be written nor read. -/
theorem capacities_disagree :
    (¬ ∀ name type value, name.length ≤ kMaxSymbolicName → (∃ t elementCount, Value t type elementCount value) →
      Writes name type value) ∧
    ¬ ∀ name type value, name.length ≤ kMaxSymbolicName → (∃ t elementCount, Value t type elementCount value) →
      Reads name type value := by
  have hvalue : Value { data := .zero, dataType := 0xC6 } .usint 256 (List.replicate 256 0) := by decide +kernel
  have hname : ([65] : List UInt8).length ≤ kMaxSymbolicName := by decide
  constructor
  · intro h
    have hwrites := h [65] .usint (List.replicate 256 0) hname ⟨_, _, hvalue⟩ _ {} { fd := 3, state := .ok } 7
      256 1000 0 hvalue (by decide) (by decide) rfl
    rw [write_value_iff hname hvalue (by decide) (by decide) rfl] at hwrites
    have hk : kMaxCipData = 256 := rfl
    rw [List.length_replicate] at hwrites
    omega
  · intro h
    have hsmall := small_of_reads hname hvalue.small (h [65] .usint (List.replicate 256 0) hname ⟨_, _, hvalue⟩)
    rw [List.length_replicate] at hsmall
    omega

end Tag

end ControlLogix
