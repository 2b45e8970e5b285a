import ControlLogix.Cip
import ControlLogix.Exchange

/-!
# A CIP connection (`Connection`)

`open()` sends a Forward Open and `close()` a Forward Close through an `ExplicitMessage` of the object's own (`fwd_`);
`send()` builds a SendUnitData frame in the object's own buffers.  The random source is an argument of `open()`.  As
for `ExplicitMessage`, the TCP connection is handed to every call instead of kept, and the response pointer `data_` is
an offset into the receive buffer.

* `open_cases`, `close_cases`: a call starts an exchange of `fwd_` (`Forwarded`), or is refused;
* `send_cases`: a call starts a connected exchange (`Sent`), or changes nothing;
* `finishOpen_cases`: a Forward Open response opens the connection exactly when it is an `OpenReply`.
-/

namespace ControlLogix

open Bytes

inductive Connection.State where
  | idle
  | opening
  | «open»
  | sending
  | closing
  | closed
  | failed
  deriving DecidableEq, Repr

structure Connection extends Buffers where
  fwd : ExplicitMessage := {}
  state : Connection.State := .idle
  otConnId : UInt32 := 0
  toConnId : UInt32 := 0
  sequence : UInt16 := 1
  tagName : List UInt8 := []
  replyService : UInt8 := 0
  resultCode : UInt8 := 0
  dataPos : Option Nat := none
  dataLen : Nat := 0
  deadline : UInt32 := 0
  context : UInt64 := 1
  sentContext : UInt64 := 0
  sentSequence : UInt16 := 0
  deriving DecidableEq, Repr

namespace Connection

def kMaxDataSize : Nat := 256

/-- `sizeof(tagName_)`. -/
def kTagNameSize : Nat := 64

def isOpen (c : Connection) : Bool := c.state = .open

/-! ### Forward Open and Forward Close -/

/-- The path of the Connection Manager: class 6, instance 1. -/
def managerPath : List UInt8 := [0x20, 0x06, 0x24, 0x01]

/-- The connection path, a symbolic segment after its size in words. -/
def connectionPath (tagName : List UInt8) : List UInt8 :=
  UInt8.ofNat ((appendSymbolic tagName).length / 2) :: appendSymbolic tagName

/-- The parameters of the Forward Open request. -/
def openData (otConnId : UInt32) (tagName : List UInt8) : List UInt8 :=
  [0x0A, 0x0E] ++ putU32 otConnId ++ putU32 0 ++ putU16 1 ++ putU16 0x0001 ++ putU32 0x00000001 ++ [0x03] ++
    [0, 0, 0] ++ putU32 10000 ++ putU16 0x4200 ++ putU32 10000 ++ putU16 0x4200 ++ [0xA3] ++ connectionPath tagName

/-- The parameters of the Forward Close request. -/
def closeData (tagName : List UInt8) : List UInt8 :=
  connectionPath tagName ++ putU16 1 ++ putU16 0x0001 ++ putU32 0x00000001

/-- A connection ID from the random source, which must not be zero. -/
def chooseConnId (random : UInt32) : UInt32 := if random = 0 then 1 else random

/-- A request to the Connection Manager through `fwd_`, and the state while it is going on. -/
def forward (c : Connection) (conn : TcpConnection) (sessionHandle : UInt32) (service : UInt8) (data : List UInt8)
    (timeoutMs now : UInt32) (next : Connection.State) : Status × Connection :=
  match c.fwd.send conn sessionHandle service (some managerPath) managerPath.length (some data) data.length timeoutMs
      now with
  | (.pending, fwd) => (.pending, { c with fwd := fwd, state := next })
  | (st, fwd) => (st, { c with fwd := fwd })

def startOpen (c : Connection) (conn : TcpConnection) (sessionHandle : UInt32) (tagName : List UInt8)
    (timeoutMs now random : UInt32) : Status × Connection :=
  let c := { c with otConnId := chooseConnId random, toConnId := 0, tagName := tagName.take (kTagNameSize - 1) }
  c.forward conn sessionHandle 0x54 (openData c.otConnId c.tagName) timeoutMs now .opening

def startClose (c : Connection) (conn : TcpConnection) (sessionHandle timeoutMs now : UInt32) : Status × Connection :=
  c.forward conn sessionHandle 0x4E (closeData c.tagName) timeoutMs now .closing

/-- `open()`; a null pointer is `none`. -/
def «open» (c : Connection) (conn : TcpConnection) (sessionHandle : UInt32) (tagName : Option (List UInt8))
    (timeoutMs now random : UInt32) : Status × Connection :=
  match tagName with
  | none => (.invalidArg, c)
  | some tagName =>
    if tagName.length ≥ kTagNameSize then (.invalidArg, c)
    else if c.state = .opening ∨ c.state = .sending ∨ c.state = .closing then (.busy, c)
    else c.startOpen conn sessionHandle tagName timeoutMs now random

def close (c : Connection) (conn : TcpConnection) (sessionHandle timeoutMs now : UInt32) : Status × Connection :=
  if c.state ≠ .open then (.notReady, c) else c.startClose conn sessionHandle timeoutMs now

/-! ### Connected requests -/

def connectedHeader (sessionHandle : UInt32) (context : UInt64) (cipLen : Nat) : EncapsulationHeader where
  command := Command.sendUnitData.code
  length := UInt16.ofNat (22 + cipLen)
  session := sessionHandle
  status := 0
  context := context
  options := 0

/-- The bytes `startSend()` stores into `tx_`. -/
def connectedFrame (sessionHandle : UInt32) (context : UInt64) (otConnId : UInt32) (sequence : UInt16)
    (service : UInt8) (path data : List UInt8) : List UInt8 :=
  let cipLen := ExplicitMessage.cipLength path.length data.length
  encodeHeader (connectedHeader sessionHandle context cipLen) ++ putU32 0 ++ putU16 0 ++ putU16 2 ++ putU16 0x00A1 ++
    putU16 4 ++ putU32 otConnId ++ putU16 0x00B1 ++ putU16 (UInt16.ofNat (2 + cipLen)) ++ putU16 sequence ++
    [service, UInt8.ofNat (path.length / 2)] ++ path ++ data

def startSend (c : Connection) (sessionHandle : UInt32) (service : UInt8) (path : Option (List UInt8)) (pathLen : Nat)
    (data : Option (List UInt8)) (dataLen : Nat) (timeoutMs now : UInt32) : Status × Connection :=
  let cipLen := ExplicitMessage.cipLength pathLen dataLen
  if cipLen > kMaxDataSize ∨ pathLen % 2 ≠ 0 ∨ (pathLen > 0 ∧ path = none) ∨ (dataLen > 0 ∧ data = none) then
    (.invalidArg, c)
  else
    (.pending,
      { c with
        tx := connectedFrame sessionHandle c.context c.otConnId c.sequence service ((path.getD []).take pathLen)
          ((data.getD []).take dataLen)
        txLen := kEncapsulationHeaderSize + 22 + cipLen
        txSent := 0
        rxLen := 0
        rxExpected := kEncapsulationHeaderSize
        sentContext := c.context
        sentSequence := c.sequence
        context := c.context + 1
        sequence := c.sequence + 1
        deadline := now + timeoutMs
        state := .sending })

def send (c : Connection) (sessionHandle : UInt32) (service : UInt8) (path : Option (List UInt8)) (pathLen : Nat)
    (data : Option (List UInt8)) (dataLen : Nat) (timeoutMs now : UInt32) : Status × Connection :=
  if c.state ≠ .open then (.notReady, c)
  else c.startSend sessionHandle service path pathLen data dataLen timeoutMs now

/-- The item loop of `parseConnectedResponse()`: `n` items are left, `p` is the offset of the pointer in `rx_`,
`connId` the ID in the last connected-address item and `cd` the offset and length of the last connected-data item.
`none` is `return Status::Error`. -/
def findConnected (rx : List UInt8) :
    Nat → (p remaining : Nat) → Option UInt32 → Option (Nat × Nat) → Option (Option UInt32 × Option (Nat × Nat))
  | 0, _, _, connId, cd => some (connId, cd)
  | n + 1, p, remaining, connId, cd =>
    if remaining < 4 then none
    else
      let type := getU16 (rx.drop p)
      let len := (getU16 (rx.drop (p + 2))).toNat
      if len > remaining - 4 then none
      else if type = 0x00A1 then
        if len < 4 then none
        else findConnected rx n (p + 4 + len) (remaining - 4 - len) (some (getU32 (rx.drop (p + 4)))) cd
      else
        findConnected rx n (p + 4 + len) (remaining - 4 - len) connId
          (if type = 0x00B1 then some (p + 4, len) else cd)

/-- The checks of `parseConnectedResponse()` on the first `rxLen` bytes of `rx`. -/
def parse (rx : List UInt8) (rxLen : Nat) (sentContext : UInt64) (toConnId : UInt32) (sentSequence : UInt16) :
    Option ExplicitMessage.Response :=
  let h := decodeHeader rx
  if h.command ≠ Command.sendUnitData.code ∨ h.status ≠ 0 then none
  else if h.context ≠ sentContext then none
  else
    let body := kEncapsulationHeaderSize
    let bodyLen := rxLen - kEncapsulationHeaderSize
    if bodyLen < 8 then none
    else
      let itemCount := (getU16 (rx.drop (body + 6))).toNat
      match findConnected rx itemCount (body + 8) (bodyLen - 8) none none with
      | some (some connId, some (cd, cdLen)) =>
        if cdLen < 4 then none
        else if connId ≠ toConnId then none
        else if getU16 (rx.drop cd) ≠ sentSequence then none
        else if cdLen - 2 < 4 then none
        else some ⟨peek (rx.drop (cd + 2)) 0, peek (rx.drop (cd + 2)) 2, cd + 6, cdLen - 6⟩
      | _ => none

/-- `c` with the response accessors set. -/
def respond (c : Connection) (r : ExplicitMessage.Response) : Connection :=
  { c with replyService := r.replyService, resultCode := r.resultCode, dataPos := some r.dataPos,
           dataLen := r.dataLen }

def parseConnectedResponse (c : Connection) : Status × Connection :=
  match parse c.rx c.rxLen c.sentContext c.toConnId c.sentSequence with
  | none => (.error, c)
  | some r => (.ok, c.respond r)

/-- `data()`, as many bytes as `dataLength()` tells. -/
def data (c : Connection) : List UInt8 :=
  match c.dataPos with
  | none => []
  | some p => (c.rx.drop p).take c.dataLen

/-! ### `poll()` -/

/-- The check of the Forward Open response. -/
def finishOpen (c : Connection) : Status × Connection :=
  if c.fwd.resultCode ≠ 0 ∨ c.fwd.dataLen < 12 then (.error, { c with state := .failed })
  else
    let ot := getU32 c.fwd.data
    let toId := getU32 (c.fwd.data.drop 4)
    if ot = 0 ∨ toId = 0 then (.error, { c with state := .failed })
    else if ot ≠ c.otConnId then (.error, { c with state := .failed })
    else (.ok, { c with toConnId := toId, state := .open })

/-- The contents of the Forward Close response are not looked at. -/
def finishClose (c : Connection) : Status × Connection := (.ok, { c with state := .closed })

/-- The common part of `pollOpening()` and `pollClosing()`; `finish` looks at the response. -/
def pollForward (finish : Connection → Status × Connection) (c : Connection) (conn : TcpConnection) (os : Platform) :
    Status × Connection × TcpConnection :=
  match c.fwd.poll conn os with
  | (.pending, fwd, conn) => (.pending, { c with fwd := fwd }, conn)
  | (.ok, fwd, conn) =>
    let (st, c) := finish { c with fwd := fwd }
    (st, c, conn)
  | (st, fwd, conn) => (st, { c with fwd := fwd, state := .failed }, conn)

def pollOpening (c : Connection) (conn : TcpConnection) (os : Platform) : Status × Connection × TcpConnection :=
  pollForward finishOpen c conn os

def pollClosing (c : Connection) (conn : TcpConnection) (os : Platform) : Status × Connection × TcpConnection :=
  pollForward finishClose c conn os

def pollSending (c : Connection) (conn : TcpConnection) (os : Platform) : Status × Connection × TcpConnection :=
  if expired (os.millis 0) c.deadline then (.timeout, { c with state := .failed }, conn)
  else
    match c.toBuffers.writePending conn os.sends with
    | (.ok, b, conn) =>
      match b.readResponse (22 + kMaxDataSize) conn os.recvs with
      | (.pending, b, conn) => (.pending, { c with toBuffers := b }, conn)
      | (.ok, b, conn) =>
        let (st, c) := { c with toBuffers := b }.parseConnectedResponse
        (st, { c with state := if st = .ok then .open else .failed }, conn)
      | (st, b, conn) => (st, { c with toBuffers := b, state := .failed }, conn)
    | (.pending, b, conn) => (.pending, { c with toBuffers := b }, conn)
    | (st, b, conn) => (st, { c with toBuffers := b, state := .failed }, conn)

def poll (c : Connection) (conn : TcpConnection) (os : Platform) : Status × Connection × TcpConnection :=
  match c.state with
  | .opening => c.pollOpening conn os
  | .sending => c.pollSending conn os
  | .closing => c.pollClosing conn os
  | .open => (.ok, c, conn)
  | .closed => (.closed, c, conn)
  | .failed => (.error, c, conn)
  | .idle => (.notReady, c, conn)

/-- An exchange is going on. -/
def InFlight (c : Connection) : Prop := c.state = .opening ∨ c.state = .sending ∨ c.state = .closing

instance decidableInFlight (c : Connection) : Decidable c.InFlight := inferInstanceAs (Decidable (_ ∨ _ ∨ _))

/-! ### Starting an exchange -/

/-- The parameters of both requests fit into `data[128]`, and into a request with the path of the Connection
Manager. -/
theorem length_openData (otConnId : UInt32) (tagName : List UInt8) : (openData otConnId tagName).length ≤ 164 := by
  have hpath := (length_appendSymbolic tagName).2
  simp only [openData, connectionPath, List.length_append, List.length_cons, List.length_nil, length_putU16,
    length_putU32]
  omega

theorem length_closeData (tagName : List UInt8) : (closeData tagName).length ≤ 137 := by
  have hpath := (length_appendSymbolic tagName).2
  simp only [closeData, connectionPath, List.length_append, List.length_cons, length_putU16, length_putU32]
  omega

/-- `c'` is `c` with a request to the Connection Manager on its way. -/
structure Forwarded (c : Connection) (conn : TcpConnection) (sessionHandle : UInt32) (service : UInt8)
    (data : List UInt8) (timeoutMs now : UInt32) (next : State) (c' : Connection) : Prop where
  sent : c.fwd.send conn sessionHandle service (some managerPath) managerPath.length (some data) data.length timeoutMs
    now = (.pending, c'.fwd)
  rest : c' = { c with fwd := c'.fwd, state := next }

section Start

variable {c c' : Connection} {conn : TcpConnection} {sessionHandle timeoutMs now random : UInt32} {st : Status}

theorem forward_cases {service : UInt8} {data : List UInt8} {next : State}
    (h : c.forward conn sessionHandle service data timeoutMs now next = (st, c')) :
    (st = .pending ∧ Forwarded c conn sessionHandle service data timeoutMs now next c') ∨
      (st ≠ .pending ∧ c' = c ∧ (data.length ≤ 200 → st = .busy ∧ c.fwd.InFlight ∨
        st = .notReady ∧ conn.connected = false)) := by
  unfold forward at h
  split at h
  · rename_i fwd hs
    simp only [Prod.mk.injEq] at h
    obtain ⟨rfl, rfl⟩ := h
    exact Or.inl ⟨rfl, hs, rfl⟩
  · rename_i st₁ fwd hne hs
    simp only [Prod.mk.injEq] at h
    obtain ⟨rfl, rfl⟩ := h
    have hst : st₁ ≠ .pending := by simpa using hne
    have hfwd := ExplicitMessage.send_refused hs hst
    subst hfwd
    refine Or.inr ⟨hst, rfl, fun hdata => ?_⟩
    unfold ExplicitMessage.send at hs
    split at hs
    · rename_i hin
      simp only [Prod.mk.injEq] at hs
      exact Or.inl ⟨hs.1.symm, hin⟩
    · split at hs
      · rename_i hc
        simp only [Prod.mk.injEq] at hs
        exact Or.inr ⟨hs.1.symm, by simpa using hc⟩
      · -- the arguments are as `send()` wants them
        have hk : ExplicitMessage.kMaxCipData = 256 := rfl
        have hm : managerPath.length = 4 := rfl
        have hcip : ExplicitMessage.cipLength managerPath.length data.length = 6 + data.length := by
          rw [ExplicitMessage.cipLength, Nat.mod_eq_of_lt (by omega)]
          omega
        dsimp only at hs
        rw [hcip, if_neg] at hs
        · simp only [Prod.mk.injEq] at hs
          exact absurd hs.1.symm hst
        · simp only [not_or, not_and, reduceCtorEq, not_false_eq_true, implies_true, and_true]
          omega

/-- `c` as `startOpen()` leaves it when it hands the request to `fwd_`. -/
def prepared (c : Connection) (random : UInt32) (tagName : List UInt8) : Connection :=
  { c with otConnId := chooseConnId random, toConnId := 0, tagName := tagName.take (kTagNameSize - 1) }

theorem open_cases {tagName : Option (List UInt8)}
    (h : c.open conn sessionHandle tagName timeoutMs now random = (st, c')) :
    (∃ name, tagName = some name ∧ name.length < kTagNameSize ∧ ¬ c.InFlight ∧
      (c.prepared random name).forward conn sessionHandle 0x54 (openData (chooseConnId random) name) timeoutMs now
        .opening = (st, c')) ∨
      ((st = .invalidArg ∨ st = .busy ∧ c.InFlight) ∧ c' = c) := by
  unfold «open» at h
  split at h
  · simp only [Prod.mk.injEq] at h
    exact Or.inr ⟨Or.inl h.1.symm, h.2.symm⟩
  · rename_i name
    split at h
    · simp only [Prod.mk.injEq] at h
      exact Or.inr ⟨Or.inl h.1.symm, h.2.symm⟩
    · rename_i hlen
      split at h
      · rename_i hin
        simp only [Prod.mk.injEq] at h
        exact Or.inr ⟨Or.inr ⟨h.1.symm, hin⟩, h.2.symm⟩
      · rename_i hin
        have hname : name.take (kTagNameSize - 1) = name := by
          apply List.take_of_length_le
          omega
        refine Or.inl ⟨name, rfl, by omega, hin, ?_⟩
        unfold startOpen at h
        dsimp only at h
        rw [hname] at h
        rw [prepared, hname]
        exact h

theorem close_cases (h : c.close conn sessionHandle timeoutMs now = (st, c')) :
    (c.state = .open ∧
      c.forward conn sessionHandle 0x4E (closeData c.tagName) timeoutMs now .closing = (st, c')) ∨
      (c.state ≠ .open ∧ st = .notReady ∧ c' = c) := by
  unfold close at h
  split at h
  · rename_i hs
    simp only [Prod.mk.injEq] at h
    exact Or.inr ⟨hs, h.1.symm, h.2.symm⟩
  · rename_i hs
    exact Or.inl ⟨by simpa using hs, h⟩

/-- A connection at rest can open on a connection that is up. -/
theorem open_accepted (sessionHandle timeoutMs now random : UInt32) {name : List UInt8} (hrest : ¬ c.InFlight)
    (hfree : ¬ c.fwd.InFlight) (hconn : conn.connected) (hname : name.length < kTagNameSize) :
    ∃ c', c.open conn sessionHandle (some name) timeoutMs now random = (.pending, c') := by
  have hopen : c.open conn sessionHandle (some name) timeoutMs now random =
      c.startOpen conn sessionHandle name timeoutMs now random := by
    unfold «open»
    dsimp only
    rw [if_neg (by omega)]
    exact if_neg hrest
  obtain ⟨st, c', hf⟩ : ∃ st c', c.startOpen conn sessionHandle name timeoutMs now random = (st, c') := ⟨_, _, rfl⟩
  rw [hopen, hf]
  rcases forward_cases hf with ⟨rfl, -⟩ | ⟨-, -, hwhy⟩
  · exact ⟨c', rfl⟩
  · rcases hwhy (Nat.le_trans (length_openData _ _) (by decide)) with ⟨-, hin⟩ | ⟨-, hdown⟩
    · exact absurd hin hfree
    · rw [hconn] at hdown
      cases hdown

/-- An open connection can close on a connection that is up. -/
theorem close_accepted (sessionHandle timeoutMs now : UInt32) (hopen : c.state = .open) (hfree : ¬ c.fwd.InFlight)
    (hconn : conn.connected) : ∃ c', c.close conn sessionHandle timeoutMs now = (.pending, c') := by
  obtain ⟨st, c', hclose⟩ : ∃ st c', c.close conn sessionHandle timeoutMs now = (st, c') := ⟨_, _, rfl⟩
  rw [hclose]
  rcases close_cases hclose with ⟨-, hf⟩ | ⟨hne, -⟩
  · rcases forward_cases hf with ⟨rfl, -⟩ | ⟨-, -, hwhy⟩
    · exact ⟨c', rfl⟩
    · rcases hwhy (Nat.le_trans (length_closeData _) (by decide)) with ⟨-, hin⟩ | ⟨-, hdown⟩
      · exact absurd hin hfree
      · rw [hconn] at hdown
        cases hdown
  · exact absurd hopen hne

/-- What an accepted `send()` makes of the connection. -/
structure Sent (c : Connection) (sessionHandle : UInt32) (service : UInt8) (path : Option (List UInt8))
  (pathLen : Nat) (data : Option (List UInt8)) (dataLen : Nat) (timeoutMs now : UInt32) (c' : Connection) : Prop where
  opened : c.state = .open
  args : ExplicitMessage.Sendable path pathLen data dataLen
  made : c' = { c with
    tx := connectedFrame sessionHandle c.context c.otConnId c.sequence service ((path.getD []).take pathLen)
      ((data.getD []).take dataLen)
    txLen := kEncapsulationHeaderSize + 22 + ExplicitMessage.cipLength pathLen dataLen
    txSent := 0, rxLen := 0, rxExpected := kEncapsulationHeaderSize, sentContext := c.context
    sentSequence := c.sequence, context := c.context + 1, sequence := c.sequence + 1, deadline := now + timeoutMs
    state := .sending }

theorem send_cases {service : UInt8} {path data : Option (List UInt8)} {pathLen dataLen : Nat}
    (h : c.send sessionHandle service path pathLen data dataLen timeoutMs now = (st, c')) :
    (st = .pending ∧ Sent c sessionHandle service path pathLen data dataLen timeoutMs now c') ∨
      ((c.state ≠ .open ∧ st = .notReady ∨ st = .invalidArg) ∧ c' = c) := by
  unfold send at h
  split at h
  · rename_i hs
    simp only [Prod.mk.injEq] at h
    exact Or.inr ⟨Or.inl ⟨hs, h.1.symm⟩, h.2.symm⟩
  · rename_i hs
    unfold startSend at h
    dsimp only at h
    split at h
    · simp only [Prod.mk.injEq] at h
      exact Or.inr ⟨Or.inr h.1.symm, h.2.symm⟩
    · rename_i ha
      simp only [not_or, not_and, Nat.not_lt, ne_eq, Decidable.not_not] at ha
      simp only [Prod.mk.injEq] at h
      exact Or.inl ⟨h.1.symm, by simpa using hs, ⟨ha.1, ha.2.1, ha.2.2.1, ha.2.2.2⟩, h.2.symm⟩

end Start

theorem poll_rest {c : Connection} (h : ¬ c.InFlight) (conn : TcpConnection) (os : Platform) :
    (c.poll conn os).2 = (c, conn) := by
  unfold poll
  cases hs : c.state
  · rfl
  · exact absurd (Or.inl hs) h
  · rfl
  · exact absurd (Or.inr (Or.inl hs)) h
  · exact absurd (Or.inr (Or.inr hs)) h
  · rfl
  · rfl

/-! ### The end of a Forward Open -/

/-- What the check of the Forward Open response looks at. -/
def OpenReply (c : Connection) : Prop :=
  c.fwd.resultCode = 0 ∧ 12 ≤ c.fwd.dataLen ∧ getU32 c.fwd.data = c.otConnId ∧ getU32 c.fwd.data ≠ 0 ∧
    getU32 (c.fwd.data.drop 4) ≠ 0

theorem finishOpen_cases (c : Connection) :
    (c.OpenReply ∧ c.finishOpen = (.ok, { c with toConnId := getU32 (c.fwd.data.drop 4), state := .open })) ∨
      (¬ c.OpenReply ∧ c.finishOpen = (.error, { c with state := .failed })) := by
  unfold finishOpen
  dsimp only
  split
  · rename_i hcode
    refine Or.inr ⟨?_, rfl⟩
    rintro ⟨h1, h2, -⟩
    rcases hcode with h | h
    · exact h h1
    · omega
  · rename_i hcode
    obtain ⟨hcode, hlen⟩ := not_or.1 hcode
    split
    · rename_i hzero
      refine Or.inr ⟨?_, rfl⟩
      rintro ⟨-, -, -, h1, h2⟩
      exact hzero.elim h1 h2
    · rename_i hzero
      obtain ⟨hot, hto⟩ := not_or.1 hzero
      split
      · rename_i hne
        exact Or.inr ⟨fun h => hne h.2.2.1, rfl⟩
      · rename_i heq
        exact Or.inl ⟨⟨not_not.1 hcode, by omega, not_not.1 heq, hot, hto⟩, rfl⟩

theorem finishOpen_fwd (c : Connection) : c.finishOpen.2.fwd = c.fwd := by
  rcases c.finishOpen_cases with ⟨-, h⟩ | ⟨-, h⟩
  · rw [h]
  · rw [h]

private theorem pollForward_fwd {finish : Connection → Status × Connection} (hfinish : ∀ c, (finish c).2.fwd = c.fwd)
    (c : Connection) (conn : TcpConnection) (os : Platform) :
    ∃ st, c.fwd.poll conn os = (st, (pollForward finish c conn os).2.1.fwd, (pollForward finish c conn os).2.2) := by
  obtain ⟨st, fwd, conn', hp⟩ : ∃ st fwd conn', c.fwd.poll conn os = (st, fwd, conn') := ⟨_, _, _, rfl⟩
  refine ⟨st, ?_⟩
  unfold pollForward
  rw [hp]
  cases st <;> first | rfl | rw [hfinish]

private theorem parseConnectedResponse_fwd (c : Connection) : c.parseConnectedResponse.2.fwd = c.fwd := by
  unfold parseConnectedResponse
  split <;> rfl

/-- `poll()` polls `fwd_`, or leaves it alone. -/
theorem poll_fwd (c : Connection) (conn : TcpConnection) (os : Platform) :
    (∃ st, c.fwd.poll conn os = (st, (c.poll conn os).2.1.fwd, (c.poll conn os).2.2)) ∨
      (c.poll conn os).2.1.fwd = c.fwd := by
  by_cases hrest : c.InFlight
  · rcases hrest with h | h | h
    · have hpoll : c.poll conn os = pollForward finishOpen c conn os := by
        rw [poll, h]
        rfl
      rw [hpoll]
      exact Or.inl (pollForward_fwd finishOpen_fwd c conn os)
    · refine Or.inr ?_
      have hpoll : c.poll conn os = c.pollSending conn os := by rw [poll, h]
      rw [hpoll]
      unfold pollSending
      split
      · rfl
      · split
        · split
          · rfl
          · rename_i b conn₁ hread
            exact parseConnectedResponse_fwd { c with toBuffers := b }
          · rfl
        · rfl
        · rfl
    · have hpoll : c.poll conn os = pollForward finishClose c conn os := by
        rw [poll, h]
        rfl
      rw [hpoll]
      exact Or.inl (pollForward_fwd (fun _ => rfl) c conn os)
  · rw [poll_rest hrest]
    exact Or.inr rfl

end Connection

end ControlLogix
