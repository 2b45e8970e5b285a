import ControlLogix.Link
import ControlLogix.Tag

/-!
# Tag operations as exchanges

A tag that reads or writes, together with the message it shares, is a machine.  The request of a read is its name and
the number of elements, that of a write is its name, the number of elements, the type and the bytes of the value, as
many as type and number of elements demand.

* `read_iff`, `write_iff`: when an operation is accepted;
* `read_requested`, `write_requested`: the frame it sends;
* `ended_frame`: what a reply makes of the operation.
-/

namespace ControlLogix

open Bytes
open Buffers (received)

namespace Tag

open ExplicitMessage (requestFrame kMaxCipData)

/-! ### The machine -/

/-- What `poll()` makes of the outcome of the message. -/
def conclude (t : Tag) (msg : ExplicitMessage) (st : Status) : Status × Tag × ExplicitMessage :=
  match msg.conclude st with
  | (.ok, msg) =>
    let t : Tag := { t with resultCode := msg.resultCode }
    if t.resultCode ≠ 0 then (.error, { t with state := .failed }, msg) else (.ok, t.accept msg, msg)
  | (st, msg) => (st, { t with state := .failed }, msg)

private theorem concluded (t : Tag) (msg : ExplicitMessage) {st : Status} (hst : st ≠ .pending) :
    (t.conclude msg st).1 ≠ .pending ∧ (t.conclude msg st).2.2 = (msg.conclude st).2 := by
  have hne := (ExplicitMessage.concluded msg hst).1
  unfold conclude
  generalize msg.conclude st = r at hne
  obtain ⟨st', m⟩ := r
  cases st' <;> first | exact absurd rfl hne | exact ⟨nofun, rfl⟩ | skip
  dsimp only
  split
  · exact ⟨nofun, rfl⟩
  · exact ⟨nofun, rfl⟩

/-- A tag that reads or writes, with the message it shares. -/
def machine : Machine (Tag × ExplicitMessage) where
  poll s conn os :=
    match s.1.poll s.2 conn os with
    | (st, t, msg, conn) => (st, (t, msg), conn)
  buffers s := s.2.toBuffers
  deadline s := s.2.deadline
  cap := 16 + kMaxCipData
  Going s := s.1.InFlight ∧ s.2.InFlight
  put s b := (s.1, ExplicitMessage.machine.put s.2 b)
  conclude s st := s.1.conclude s.2 st
  buffers_put _ _ := rfl
  concluded s st hst := by
    obtain ⟨hne, hmsg⟩ := concluded s.1 s.2 hst
    refine ⟨hne, ?_⟩
    rw [hmsg]
    exact (ExplicitMessage.concluded s.2 hst).2
  poll_pending := by
    rintro ⟨t, msg⟩ conn os b conn' ⟨ht, hm⟩ hu hup hnow hfit hx
    obtain ⟨m, hp, hin, hb, hd, hput⟩ := ExplicitMessage.machine.poll_pending hm hu hup hnow hfit hx
    have hp' : msg.poll conn os = (.pending, m, conn') := hp
    have hbusy : ¬ (t.state ≠ .reading ∧ t.state ≠ .writing) := fun h => ht.elim h.1 h.2
    refine ⟨(t, m), ?_, ⟨ht, hin⟩, hb, hd, ?_⟩
    · dsimp only
      rw [poll, if_neg hbusy, hp']
    · funext b
      rw [hput]
  poll_ended := by
    rintro ⟨t, msg⟩ conn os st b conn' ⟨ht, hm⟩ hu hup hnow hfit hx hst
    have hp := ExplicitMessage.machine.poll_ended hm hu hup hnow hfit hx hst
    have hne := (ExplicitMessage.machine.concluded (ExplicitMessage.machine.put msg b) st hst).1
    change msg.poll conn os = (((ExplicitMessage.machine.put msg b).conclude st).1,
      ((ExplicitMessage.machine.put msg b).conclude st).2, conn') at hp
    change ((ExplicitMessage.machine.put msg b).conclude st).1 ≠ .pending at hne
    have hbusy : ¬ (t.state ≠ .reading ∧ t.state ≠ .writing) := fun h => ht.elim h.1 h.2
    dsimp only
    rw [poll, if_neg hbusy, hp, conclude]
    generalize (ExplicitMessage.machine.put msg b).conclude st = r at hne
    obtain ⟨st', m⟩ := r
    cases st' <;> first | exact absurd rfl hne | rfl | skip
    dsimp only
    split <;> rfl

/-! ### Starting -/

section Start

variable {t t' : Tag} {msg msg' : ExplicitMessage} {conn : TcpConnection} {sessionHandle : UInt32}
  {name : List UInt8} {elementCount timeoutMs now : UInt32}

/-- What a read sends after its path. -/
def readData (elementCount : UInt32) : List UInt8 := putU16 elementCount.toUInt16

/-- The length of the value that a tag of this type and this number of elements has. -/
def valueLength (t : Tag) (elementCount : UInt32) : Nat :=
  if t.dataType = DataType.string.code then 4 + (getU32 t.data.bytes).toNat
  else elementCount.toNat * dataTypeElementSize (DataType.ofCode t.dataType)

theorem writeLength_eq {n : Nat} (h : t.writeLength elementCount = some n) : n = t.valueLength elementCount := by
  unfold writeLength at h
  unfold valueLength
  dsimp only at h
  split at h
  · rename_i hstring
    split at h
    · cases h
    · rw [if_pos hstring]
      exact (Option.some.inj h).symm
  · rename_i hstring
    split at h
    · cases h
    · rw [if_neg hstring]
      exact (Option.some.inj h).symm

/-- What a write sends after its path. -/
def writeData (dataType : UInt8) (elementCount : UInt32) (value : List UInt8) : List UInt8 :=
  putU16 elementCount.toUInt16 ++ putU16 dataType.toUInt16 ++ value

theorem length_writeData (dataType : UInt8) (elementCount : UInt32) (value : List UInt8) :
    (writeData dataType elementCount value).length = 4 + value.length := by
  simp only [writeData, List.length_append, length_putU16]

/-- The arguments a tag operation gives to the message are in order when they are short enough. -/
private theorem sendable_iff (data : List UInt8) (hdata : data.length ≤ 4 + kMaxDataSize) :
    ExplicitMessage.Sendable (some (appendSymbolic name)) (appendSymbolic name).length (some data) data.length ↔
      2 + (appendSymbolic name).length + data.length ≤ kMaxCipData := by
  obtain ⟨heven, hlen⟩ := length_appendSymbolic name
  have hk : kMaxDataSize = 256 := rfl
  have hcip : ExplicitMessage.cipLength (appendSymbolic name).length data.length =
      2 + (appendSymbolic name).length + data.length := by
    apply Nat.mod_eq_of_lt
    omega
  constructor
  · rintro ⟨h, -⟩
    rw [← hcip]
    exact h
  · intro h
    refine ⟨?_, heven, nofun, nofun⟩
    rw [hcip]
    exact h

private theorem backed (data : List UInt8) (hdata : data.length ≤ 4 + kMaxDataSize) :
    ExplicitMessage.Backed (some (appendSymbolic name)) (appendSymbolic name).length (some data) data.length := by
  have hlen := (length_appendSymbolic name).2
  have hk : kMaxDataSize = 256 := rfl
  refine ⟨?_, ?_, by omega⟩
  · rintro p hp
    cases hp
    exact Nat.le_refl _
  · rintro d hd
    cases hd
    exact Nat.le_refl _

theorem read_eq (ht : ¬ t.InFlight) (hname : name.length ≤ kMaxSymbolicName) :
    t.read msg conn sessionHandle (some name) elementCount timeoutMs now =
      t.startRead msg conn sessionHandle name elementCount timeoutMs now := by
  unfold read
  dsimp only
  rw [if_neg (by omega)]
  exact if_neg ht

theorem write_eq (ht : ¬ t.InFlight) (hname : name.length ≤ kMaxSymbolicName) (htype : t.dataType ≠ 0) :
    t.write msg conn sessionHandle (some name) elementCount timeoutMs now =
      t.startWrite msg conn sessionHandle name elementCount timeoutMs now := by
  unfold write
  dsimp only
  rw [if_neg (by omega), if_neg htype]
  exact if_neg ht

/-- The path and the count of a read always fit. -/
theorem read_iff (ht : ¬ t.InFlight) (hm : ¬ msg.InFlight) (hconn : conn.connected) :
    (t.read msg conn sessionHandle (some name) elementCount timeoutMs now).1 = .pending ↔
      name.length ≤ kMaxSymbolicName := by
  by_cases hname : name.length ≤ kMaxSymbolicName
  · rw [read_eq ht hname]
    have hfits : ExplicitMessage.Sendable (some (appendSymbolic name)) (appendSymbolic name).length
        (some (readData elementCount)) (readData elementCount).length := by
      have hlen := (length_appendSymbolic name).2
      have hcount : (readData elementCount).length = 2 := length_putU16 _
      have hk : kMaxCipData = 256 := rfl
      have hk' : kMaxDataSize = 256 := rfl
      rw [sendable_iff _ (by omega)]
      omega
    have hsend : (msg.send conn sessionHandle TagService.read.code (some (appendSymbolic name))
        (appendSymbolic name).length (some (readData elementCount)) (readData elementCount).length timeoutMs now).1 =
          .pending := (ExplicitMessage.send_iff hm hconn).2 hfits
    unfold startRead
    dsimp only
    split
    · simp [hname]
    · rename_i hne heq
      rw [readData, heq] at hsend
      exact absurd hsend (by simpa using hne)
  · unfold read
    dsimp only
    rw [if_pos (by omega)]
    simp [hname]

/-- A write fits when its path and its value do. -/
theorem write_iff (ht : ¬ t.InFlight) (hm : ¬ msg.InFlight) (hconn : conn.connected) :
    (t.write msg conn sessionHandle (some name) elementCount timeoutMs now).1 = .pending ↔
      name.length ≤ kMaxSymbolicName ∧ t.dataType ≠ 0 ∧
        ∃ n, t.writeLength elementCount = some n ∧ 2 + (appendSymbolic name).length + (4 + n) ≤ kMaxCipData := by
  by_cases hname : name.length ≤ kMaxSymbolicName
  · by_cases htype : t.dataType = 0
    · unfold write
      dsimp only
      rw [if_neg (by omega), if_pos htype]
      simp [htype]
    · rw [write_eq ht hname htype]
      unfold startWrite
      cases hlen : t.writeLength elementCount with
      | none => simp
      | some n =>
        have hn := writeLength_le hlen
        have hsize := t.data.size
        have hk : kMaxDataSize = 256 := rfl
        have hdata : (writeData t.dataType elementCount (t.data.bytes.take n)).length = 4 + n := by
          rw [length_writeData, List.length_take]
          omega
        have hsend : (msg.send conn sessionHandle TagService.write.code (some (appendSymbolic name))
            (appendSymbolic name).length (some (writeData t.dataType elementCount (t.data.bytes.take n))) (4 + n)
              timeoutMs now).1 = .pending ↔ 2 + (appendSymbolic name).length + (4 + n) ≤ kMaxCipData := by
          rw [← hdata, ExplicitMessage.send_iff hm hconn, sendable_iff _ (by omega)]
        dsimp only
        rw [writeData] at hsend
        split
        · rename_i heq
          rw [heq] at hsend
          simp only [true_iff] at hsend
          simp [hname, htype, hsend]
        · rename_i hne heq
          rw [heq] at hsend
          constructor
          · intro h
            exact absurd h (by simpa using hne)
          · rintro ⟨-, -, n', hn', hfits⟩
            cases hn'
            exact absurd (hsend.2 hfits) (by simpa using hne)
  · unfold write
    dsimp only
    rw [if_pos (by omega)]
    simp [hname]

/-- `msg'` carries the request of an operation on the name `name`, and the tag waits for it. -/
structure Requested (msg : ExplicitMessage) (sessionHandle : UInt32) (service : UInt8) (name data : List UInt8)
    (timeoutMs now : UInt32) (t' : Tag) (msg' : ExplicitMessage) : Prop where
  started : machine.Started (t', msg') (requestFrame sessionHandle msg.context service (appendSymbolic name) data)
  sentContext : msg'.sentContext = msg.context
  deadline : msg'.deadline = now + timeoutMs
  named : name.length ≤ kMaxSymbolicName
  fits : 2 + (appendSymbolic name).length + data.length ≤ kMaxCipData

private theorem requested {service : UInt8} {data : List UInt8} (hname : name.length ≤ kMaxSymbolicName)
    (ht : t'.InFlight) (hdata : data.length ≤ 4 + kMaxDataSize)
    (h : msg.send conn sessionHandle service (some (appendSymbolic name)) (appendSymbolic name).length (some data)
      data.length timeoutMs now = (.pending, msg')) :
    Requested msg sessionHandle service name data timeoutMs now t' msg' := by
  have hsent := ExplicitMessage.send_accepted h
  have hs := ExplicitMessage.send_started (backed data hdata) h
  simp only [Option.getD_some, List.take_length] at hs
  exact ⟨⟨⟨ht, hs.going⟩, hs.loaded, hs.request, hs.short, hs.cap⟩, hsent.sentContext, hsent.deadline, hname,
    (sendable_iff data hdata).1 hsent.args⟩

theorem read_requested
    (h : t.read msg conn sessionHandle (some name) elementCount timeoutMs now = (.pending, t', msg')) :
    t' = { t with dataLen := 0, resultCode := 0, state := .reading } ∧
      Requested msg sessionHandle TagService.read.code name (readData elementCount) timeoutMs now t' msg' := by
  rcases read_cases h with ⟨-, hs⟩ | ⟨hne, -⟩
  · rw [read_eq hs.rest hs.bounded] at h
    unfold startRead at h
    dsimp only at h
    split at h
    · rename_i m hsend
      simp only [Prod.mk.injEq, true_and] at h
      obtain ⟨rfl, rfl⟩ := h
      have hcount : (readData elementCount).length ≤ 4 + kMaxDataSize := by
        simp [readData, kMaxDataSize]
      exact ⟨rfl, requested hs.bounded (Or.inl rfl) hcount hsend⟩
    · rename_i hne heq
      simp only [Prod.mk.injEq] at h
      exact absurd h.1 (by simpa using hne)
  · exact absurd rfl hne

theorem write_requested
    (h : t.write msg conn sessionHandle (some name) elementCount timeoutMs now = (.pending, t', msg')) :
    t' = { t with state := .writing } ∧ ∃ n, t.writeLength elementCount = some n ∧
      Requested msg sessionHandle TagService.write.code name
        (writeData t.dataType elementCount (t.data.bytes.take n)) timeoutMs now t' msg' := by
  rcases write_cases h with ⟨-, htype, hs⟩ | ⟨hne, -⟩
  · rw [write_eq hs.rest hs.bounded htype] at h
    unfold startWrite at h
    split at h
    · simp only [Prod.mk.injEq] at h
      cases h.1
    · rename_i n hlen
      have hn := writeLength_le hlen
      have hsize := t.data.size
      have hk : kMaxDataSize = 256 := rfl
      have hdata : (writeData t.dataType elementCount (t.data.bytes.take n)).length = 4 + n := by
        rw [length_writeData, List.length_take]
        omega
      dsimp only at h
      split at h
      · rename_i m hsend
        simp only [Prod.mk.injEq, true_and] at h
        obtain ⟨rfl, rfl⟩ := h
        rw [← writeData, ← hdata] at hsend
        exact ⟨rfl, n, hlen, requested hs.bounded (Or.inr rfl) (by omega) hsend⟩
      · rename_i hne heq
        simp only [Prod.mk.injEq] at h
        exact absurd h.1 (by simpa using hne)
  · exact absurd rfl hne

end Start

/-! ### The reply -/

section Answer

variable {t : Tag} {msg : ExplicitMessage} {r : Reply} {rest : List UInt8}

theorem conclude_refused (hrx : msg.rx = r.frame ++ rest) (hlen : msg.rxLen = 44 + r.data.length)
    (hstatus : r.encapStatus = 0) (hcontext : r.context = msg.sentContext) (hcode : r.status ≠ 0) :
    t.conclude msg .ok =
      (.error, { t with resultCode := r.status, state := .failed },
        { msg.respond r.response with state := .done }) := by
  obtain ⟨hcon, -⟩ := ExplicitMessage.conclude_frame hrx hlen hstatus hcontext
  rw [conclude, hcon]
  exact if_pos hcode

theorem conclude_accepted (hrx : msg.rx = r.frame ++ rest) (hlen : msg.rxLen = 44 + r.data.length)
    (hstatus : r.encapStatus = 0) (hcontext : r.context = msg.sentContext) (hcode : r.status = 0) :
    t.conclude msg .ok =
      (.ok, { t with resultCode := 0 }.accept { msg.respond r.response with state := .done },
        { msg.respond r.response with state := .done }) := by
  obtain ⟨hcon, -⟩ := ExplicitMessage.conclude_frame hrx hlen hstatus hcontext
  have hres : ({ msg.respond r.response with state := .done } : ExplicitMessage).resultCode = 0 := hcode
  rw [conclude, hcon]
  dsimp only
  rw [hres]
  exact if_neg fun h => h rfl

/-- What a read that takes a value of type `dataType` makes of the tag. -/
structure Holding (t : Tag) (dataType : UInt8) (value : List UInt8) : Prop where
  type : t.dataType = dataType
  length : t.dataLen = value.length
  bytes : t.data.bytes.take t.dataLen = value

theorem accept_holding {dataType : UInt8} {value : List UInt8} (ht : t.state = .reading)
    (hrx : msg.rx = r.frame ++ rest) (hlen : msg.rxLen = 44 + r.data.length) (hstatus : r.encapStatus = 0)
    (hcontext : r.context = msg.sentContext) (hdata : r.data = putU16 dataType.toUInt16 ++ value)
    (hvalue : value.length ≤ kMaxDataSize) :
    Holding (t.accept { msg.respond r.response with state := .done }) dataType value := by
  obtain ⟨-, hmsg⟩ := ExplicitMessage.conclude_frame hrx hlen hstatus hcontext
  have hlong : r.data.length = 2 + value.length := by
    rw [hdata, List.length_append, length_putU16]
  have hcount : ({ msg.respond r.response with state := .done } : ExplicitMessage).dataLen = r.data.length := rfl
  obtain ⟨htype, hsize, hbytes⟩ := accept_value ht hmsg hcount (by omega)
  have hdrop : r.data.drop 2 = value := by
    rw [hdata]
    rfl
  have hall : (t.accept { msg.respond r.response with state := .done }).dataLen = value.length := by
    rw [hsize, hlong]
    omega
  refine ⟨?_, hall, ?_⟩
  · rw [htype, hdata, getU16_putU16]
    simp
  · rw [hbytes, hdrop, hall, List.take_length]

/-- What the reply `r` makes of the operation of the tag `t`. -/
structure Outcome (t : Tag) (r : Reply) (st : Status) (t' : Tag) (msg' : ExplicitMessage) : Prop where
  rest : ¬ t'.InFlight ∧ ¬ msg'.InFlight
  refused : r.status ≠ 0 → st = .error ∧ t'.resultCode = r.status
  accepted : r.status = 0 → st = .ok
  value : r.status = 0 → t.state = .reading → ∀ dataType value, r.data = putU16 dataType.toUInt16 ++ value →
    Holding t' dataType value

theorem ended_frame {st : Status} {t' : Tag} {msg' : ExplicitMessage}
    (h : Link.Ended machine (t, msg) r.frame st (t', msg')) (hfits : r.data.length ≤ 252)
    (hstatus : r.encapStatus = 0) (hcontext : r.context = msg.sentContext) : Outcome t r st t' msg' := by
  obtain ⟨hrx, hlen, hsent⟩ := ExplicitMessage.put_frame msg hfits
  have hcon : (st, t', msg') =
    t.conclude (ExplicitMessage.machine.put msg (received ExplicitMessage.machine.cap msg.toBuffers r.frame)) .ok :=
      h.concluded
  generalize ExplicitMessage.machine.put msg (received ExplicitMessage.machine.cap msg.toBuffers r.frame) = m at *
  rw [← hsent] at hcontext
  have hfree : ¬ ({ m.respond r.response with state := .done } : ExplicitMessage).InFlight := by
    simp [ExplicitMessage.InFlight]
  by_cases hcode : r.status = 0
  · have haccepted := conclude_accepted (t := t) hrx hlen hstatus hcontext hcode
    rw [haccepted] at hcon
    simp only [Prod.mk.injEq] at hcon
    obtain ⟨rfl, rfl, rfl⟩ := hcon
    refine ⟨⟨?_, hfree⟩, fun h => absurd hcode h, fun _ => rfl, fun _ ht dataType value hdata => ?_⟩
    · rw [InFlight, accept_state]
      simp
    · have hlong := congrArg List.length hdata
      rw [List.length_append, length_putU16] at hlong
      have hk : kMaxDataSize = 256 := rfl
      exact accept_holding (t := { t with resultCode := 0 }) ht hrx hlen hstatus hcontext hdata (by omega)
  · have hrefused := conclude_refused (t := t) hrx hlen hstatus hcontext hcode
    rw [hrefused] at hcon
    simp only [Prod.mk.injEq] at hcon
    obtain ⟨rfl, rfl, rfl⟩ := hcon
    refine ⟨⟨?_, hfree⟩, fun _ => ⟨rfl, rfl⟩, fun h => absurd h hcode, fun h => absurd h hcode⟩
    simp [InFlight]

end Answer

end Tag

end ControlLogix
