import ControlLogix.Buffers

/-!
# One unconnected CIP exchange (`ExplicitMessage`)

`send()` builds a SendRRData frame and starts the exchange, `poll()` advances it, `abort()` drops it.  The response
pointer `data_` is an offset into the receive buffer.  The field `conn_` is not kept: it is the connection handed to
`send()`, and the model hands it to `poll()` as well.

* `send_cases`: a call of `send()` either starts an exchange or leaves the message as it is;
* `poll_spec`: what a call of `poll()` does to an exchange in flight (`Polled`);
* `poll_rest`: a message that is not in flight is not changed by `poll()`.
-/

namespace ControlLogix

open Bytes
open TcpConnection (Transfer)
open Buffers (Framed Wrote Got Moved)

/-- The clock and the socket layer during one call: `millis n` is the reading number `n` of `millis()`. -/
structure Platform where
  millis : Nat → UInt32 := fun _ => 0
  sends : List SendAnswer := []
  recvs : List RecvAnswer := []
  connect : ConnectAnswers := {}
  poll : PollAnswers := {}
  /-- `ETH.linkUp() && ETH.hasIP()`. -/
  link : Bool := true

inductive ExplicitMessage.State where
  | idle
  | sending
  | receiving
  | done
  | failed
  deriving DecidableEq, Repr

structure ExplicitMessage extends Buffers where
  state : ExplicitMessage.State := .idle
  deadline : UInt32 := 0
  context : UInt64 := 1
  sentContext : UInt64 := 0
  replyService : UInt8 := 0
  resultCode : UInt8 := 0
  dataPos : Option Nat := none
  dataLen : Nat := 0
  deriving DecidableEq, Repr

namespace ExplicitMessage

def kMaxCipData : Nat := 256

/-- `const size_t cipLen = 2 + pathLen + dataLen`, with a 32-bit `size_t`. -/
def cipLength (pathLen dataLen : Nat) : Nat := (2 + pathLen + dataLen) % 2 ^ 32

def requestHeader (sessionHandle : UInt32) (context : UInt64) (cipLen : Nat) : EncapsulationHeader where
  command := Command.sendRRData.code
  length := UInt16.ofNat (16 + cipLen)
  session := sessionHandle
  status := 0
  context := context
  options := 0

/-- The bytes `send()` stores into `tx_`. -/
def requestFrame (sessionHandle : UInt32) (context : UInt64) (service : UInt8) (path data : List UInt8) :
    List UInt8 :=
  let cipLen := cipLength path.length data.length
  encodeHeader (requestHeader sessionHandle context cipLen) ++ putU32 0 ++ putU16 0 ++ putU16 2 ++
    putU16 0x0000 ++ putU16 0 ++ putU16 0x00B2 ++ putU16 (UInt16.ofNat cipLen) ++
    [service, UInt8.ofNat (path.length / 2)] ++ path ++ data

def send (m : ExplicitMessage) (conn : TcpConnection) (sessionHandle : UInt32) (service : UInt8)
    (path : Option (List UInt8)) (pathLen : Nat) (data : Option (List UInt8)) (dataLen : Nat)
    (timeoutMs now : UInt32) : Status × ExplicitMessage :=
  if m.state = .sending ∨ m.state = .receiving then (.busy, m)
  else if ¬ conn.connected then (.notReady, m)
  else
    let cipLen := cipLength pathLen dataLen
    if cipLen > kMaxCipData ∨ pathLen % 2 ≠ 0 ∨ (pathLen > 0 ∧ path = none) ∨ (dataLen > 0 ∧ data = none) then
      (.invalidArg, m)
    else
      (.pending,
        { m with
          tx := requestFrame sessionHandle m.context service ((path.getD []).take pathLen)
            ((data.getD []).take dataLen)
          txLen := kEncapsulationHeaderSize + 16 + cipLen
          txSent := 0
          rxLen := 0
          rxExpected := kEncapsulationHeaderSize
          sentContext := m.context
          context := m.context + 1
          deadline := now + timeoutMs
          state := .sending })

def abort (m : ExplicitMessage) : ExplicitMessage := { m with state := .idle }

/-- The item loop of `parseResponse()`: `n` items are left, `p` is the offset of the pointer in `rx_` and `cip` the
offset and length of the last unconnected-data item.  `none` is `return Status::Error`. -/
def findUnconnected (rx : List UInt8) :
    Nat → (p remaining : Nat) → (cip : Option (Nat × Nat)) → Option (Option (Nat × Nat))
  | 0, _, _, cip => some cip
  | n + 1, p, remaining, cip =>
    if remaining < 4 then none
    else
      let type := getU16 (rx.drop p)
      let len := (getU16 (rx.drop (p + 2))).toNat
      if len > remaining - 4 then none
      else
        findUnconnected rx n (p + 4 + len) (remaining - 4 - len)
          (if type = 0x00B2 then some (p + 4, len) else cip)

/-- The fields a response sets. -/
structure Response where
  replyService : UInt8
  resultCode : UInt8
  dataPos : Nat
  dataLen : Nat
  deriving DecidableEq, Repr

/-- The checks of `parseResponse()` on the first `rxLen` bytes of `rx`. -/
def parse (rx : List UInt8) (rxLen : Nat) (sentContext : UInt64) : Option Response :=
  let h := decodeHeader rx
  if h.command ≠ Command.sendRRData.code ∨ h.status ≠ 0 then none
  else if h.context ≠ sentContext then none
  else
    let body := kEncapsulationHeaderSize
    let bodyLen := rxLen - kEncapsulationHeaderSize
    if bodyLen < 8 then none
    else
      let itemCount := (getU16 (rx.drop (body + 6))).toNat
      match findUnconnected rx itemCount (body + 8) (bodyLen - 8) none with
      | some (some (cip, cipLen)) =>
        if cipLen < 4 then none
        else some ⟨peek (rx.drop cip) 0, peek (rx.drop cip) 2, cip + 4, cipLen - 4⟩
      | _ => none

/-- `m` with the response accessors set. -/
def respond (m : ExplicitMessage) (r : Response) : ExplicitMessage :=
  { m with replyService := r.replyService, resultCode := r.resultCode, dataPos := some r.dataPos,
           dataLen := r.dataLen }

def parseResponse (m : ExplicitMessage) : Status × ExplicitMessage :=
  match parse m.rx m.rxLen m.sentContext with
  | none => (.error, m)
  | some r => (.ok, m.respond r)

/-- The case `Sending`, `Receiving` of `poll()`. -/
def advance (m : ExplicitMessage) (conn : TcpConnection) (os : Platform) :
    Status × ExplicitMessage × TcpConnection :=
  if expired (os.millis 0) m.deadline then (.timeout, { m with state := .failed }, conn)
  else
    match m.toBuffers.writePending conn os.sends with
    | (.ok, b, conn) =>
      let m := { m with toBuffers := b, state := .receiving }
      match m.toBuffers.readResponse (16 + kMaxCipData) conn os.recvs with
      | (.pending, b, conn) => (.pending, { m with toBuffers := b }, conn)
      | (.ok, b, conn) =>
        match { m with toBuffers := b }.parseResponse with
        | (.ok, m) => (.ok, { m with state := .done }, conn)
        | (st, m) => (st, { m with state := .failed }, conn)
      | (st, b, conn) => (st, { m with toBuffers := b, state := .failed }, conn)
    | (.pending, b, conn) => (.pending, { m with toBuffers := b }, conn)
    | (st, b, conn) => (st, { m with toBuffers := b, state := .failed }, conn)

def poll (m : ExplicitMessage) (conn : TcpConnection) (os : Platform) : Status × ExplicitMessage × TcpConnection :=
  match m.state with
  | .sending | .receiving => m.advance conn os
  | .done => (.ok, m, conn)
  | .failed => (.error, m, conn)
  | .idle => (.notReady, m, conn)

/-- `data()`, as many bytes as `dataLength()` tells. -/
def data (m : ExplicitMessage) : List UInt8 :=
  match m.dataPos with
  | none => []
  | some p => (m.rx.drop p).take m.dataLen

/-- An exchange is going on. -/
def InFlight (m : ExplicitMessage) : Prop := m.state = .sending ∨ m.state = .receiving

instance (m : ExplicitMessage) : Decidable m.InFlight := inferInstanceAs (Decidable (_ ∨ _))

/-! ### Starting and dropping an exchange -/

/-- What `send()` asks of its arguments. -/
def Sendable (path : Option (List UInt8)) (pathLen : Nat) (data : Option (List UInt8)) (dataLen : Nat) : Prop :=
  cipLength pathLen dataLen ≤ kMaxCipData ∧ pathLen % 2 = 0 ∧ (pathLen > 0 → path ≠ none) ∧
    (dataLen > 0 → data ≠ none)

/-- What an accepted `send()` makes of the message. -/
structure Sent (m : ExplicitMessage) (conn : TcpConnection) (sessionHandle : UInt32) (service : UInt8)
    (path : Option (List UInt8)) (pathLen : Nat) (data : Option (List UInt8)) (dataLen : Nat)
    (timeoutMs now : UInt32) (m' : ExplicitMessage) : Prop where
  free : ¬ m.InFlight
  connected : conn.connected
  args : Sendable path pathLen data dataLen
  state : m'.state = .sending
  tx : m'.tx = requestFrame sessionHandle m.context service ((path.getD []).take pathLen)
    ((data.getD []).take dataLen)
  txLen : m'.txLen = kEncapsulationHeaderSize + 16 + cipLength pathLen dataLen
  txSent : m'.txSent = 0
  rx : m'.rx = m.rx
  rxLen : m'.rxLen = 0
  rxExpected : m'.rxExpected = 24
  sentContext : m'.sentContext = m.context
  context : m'.context = m.context + 1
  deadline : m'.deadline = now + timeoutMs

section Send

variable {m m' : ExplicitMessage} {conn : TcpConnection} {sessionHandle : UInt32} {service : UInt8}
  {path data : Option (List UInt8)} {pathLen dataLen : Nat} {timeoutMs now : UInt32} {st : Status}

theorem send_cases (h : m.send conn sessionHandle service path pathLen data dataLen timeoutMs now = (st, m')) :
    (st = .pending ∧ Sent m conn sessionHandle service path pathLen data dataLen timeoutMs now m') ∨
      (m' = m ∧ (st = .busy ∧ m.InFlight ∨ st = .notReady ∧ conn.connected = false ∨ st = .invalidArg)) := by
  unfold send at h
  split at h
  · rename_i hf
    simp only [Prod.mk.injEq] at h
    obtain ⟨rfl, rfl⟩ := h
    exact Or.inr ⟨rfl, Or.inl ⟨rfl, hf⟩⟩
  · rename_i hf
    split at h
    · rename_i hc
      simp only [Prod.mk.injEq] at h
      obtain ⟨rfl, rfl⟩ := h
      exact Or.inr ⟨rfl, Or.inr (Or.inl ⟨rfl, by simpa using hc⟩)⟩
    · rename_i hc
      dsimp only at h
      split at h
      · simp only [Prod.mk.injEq] at h
        obtain ⟨rfl, rfl⟩ := h
        exact Or.inr ⟨rfl, Or.inr (Or.inr rfl)⟩
      · rename_i ha
        simp only [not_or, not_and, Nat.not_lt, ne_eq, Decidable.not_not] at ha
        simp only [Prod.mk.injEq] at h
        obtain ⟨rfl, rfl⟩ := h
        exact Or.inl ⟨rfl, ⟨hf, by simpa using hc, ⟨ha.1, ha.2.1, ha.2.2.1, ha.2.2.2⟩, rfl, rfl, rfl, rfl, rfl, rfl,
          rfl, rfl, rfl, rfl⟩⟩

theorem send_accepted
    (h : m.send conn sessionHandle service path pathLen data dataLen timeoutMs now = (.pending, m')) :
    Sent m conn sessionHandle service path pathLen data dataLen timeoutMs now m' := by
  rcases send_cases h with ⟨-, hs⟩ | ⟨-, ⟨h', -⟩ | ⟨h', -⟩ | h'⟩
  · exact hs
  · cases h'
  · cases h'
  · cases h'

theorem send_refused (h : m.send conn sessionHandle service path pathLen data dataLen timeoutMs now = (st, m'))
    (hst : st ≠ .pending) : m' = m := by
  rcases send_cases h with ⟨h', -⟩ | ⟨h', -⟩
  · exact absurd h' hst
  · exact h'

/-- The arguments alone decide whether an idle message sends on a connection that is up. -/
theorem send_iff (hm : ¬ m.InFlight) (hconn : conn.connected) :
    (m.send conn sessionHandle service path pathLen data dataLen timeoutMs now).1 = .pending ↔
      Sendable path pathLen data dataLen := by
  constructor
  · intro h
    obtain ⟨st, m', hsend⟩ : ∃ st m', m.send conn sessionHandle service path pathLen data dataLen timeoutMs now =
      (st, m') := ⟨_, _, rfl⟩
    rw [hsend] at h
    change st = .pending at h
    subst h
    exact (send_accepted hsend).args
  · rintro ⟨hlen, heven, hpath, hdata⟩
    have hfree : ¬ (m.state = .sending ∨ m.state = .receiving) := hm
    unfold send
    rw [if_neg hfree, if_neg (by simpa using hconn)]
    dsimp only
    rw [if_neg]
    rintro (h | h | ⟨hpos, hnull⟩ | ⟨hpos, hnull⟩)
    · omega
    · exact h heven
    · exact hpath hpos hnull
    · exact hdata hpos hnull

theorem Sent.framed {cap : Nat} (h : Sent m conn sessionHandle service path pathLen data dataLen timeoutMs now m') :
    Framed cap m'.toBuffers := by
  refine ⟨?_, ?_, fun _ => h.rxExpected, fun hge => ?_⟩
  · rw [h.rxLen]
    exact Nat.zero_le _
  · rw [h.rxLen]
    exact Nat.zero_le _
  · rw [h.rxLen] at hge
    omega

end Send

@[simp] theorem not_inFlight_abort (m : ExplicitMessage) : ¬ m.abort.InFlight := by
  rintro (h | h) <;> cases h

/-! ### Advancing an exchange -/

/-- What `poll()` did to a message in flight when it returned `st`, having read `inp` from the socket. -/
structure Polled (m : ExplicitMessage) (conn : TcpConnection) (st : Status) (m' : ExplicitMessage)
    (conn' : TcpConnection) (inp : List UInt8) : Prop where
  moved : Moved m.toBuffers conn m'.toBuffers conn' inp
  deadline : m'.deadline = m.deadline
  contexts : m'.context = m.context ∧ m'.sentContext = m.sentContext
  outcome : (st = .pending ∧ m'.InFlight) ∨ (st = .ok ∧ m'.state = .done) ∨
    ((st = .timeout ∨ st = .closed ∨ st = .error ∨ st = .invalidArg) ∧ m'.state = .failed)
  framed : st = .pending ∨ st = .ok → Framed (16 + kMaxCipData) m'.toBuffers
  parsed : st = .ok → m'.rxLen = m'.rxExpected ∧ m.txLen ≤ m'.txSent ∧
    ∃ r, parse m'.rx m'.rxLen m'.sentContext = some r ∧ m' = m'.respond r
  kept : st ≠ .ok → m'.replyService = m.replyService ∧ m'.resultCode = m.resultCode ∧ m'.dataPos = m.dataPos ∧
    m'.dataLen = m.dataLen
  closed : st = .closed → ¬ conn'.Usable

theorem poll_rest {m : ExplicitMessage} (h : ¬ m.InFlight) (conn : TcpConnection) (os : Platform) :
    m.poll conn os = (if m.state = .done then .ok else if m.state = .failed then .error else .notReady, m, conn) := by
  unfold poll
  cases hs : m.state
  · rfl
  · exact absurd (Or.inl hs) h
  · exact absurd (Or.inr hs) h
  · rfl
  · rfl

theorem poll_inFlight {m : ExplicitMessage} (h : m.InFlight) (conn : TcpConnection) (os : Platform) :
    m.poll conn os = m.advance conn os := by
  unfold poll
  rcases h with h | h <;> rw [h]

theorem poll_expired {m : ExplicitMessage} (h : m.InFlight) (conn : TcpConnection) {os : Platform}
    (he : expired (os.millis 0) m.deadline = true) :
    m.poll conn os = (.timeout, { m with state := .failed }, conn) := by
  rw [poll_inFlight h, advance, if_pos he]

/-- The exchange ended while writing, or goes on writing. -/
private theorem polled_unread {m m' : ExplicitMessage} {conn conn' : TcpConnection} {st : Status} {b : Buffers}
    (hf : Framed (16 + kMaxCipData) m.toBuffers) (hw : Wrote m.toBuffers conn st b conn') (hst : st ≠ .ok)
    (hm : m' = { m with toBuffers := b, state := m'.state })
    (ho : st = .pending ∧ m'.InFlight ∨ st ≠ .pending ∧ m'.state = .failed) : Polled m conn st m' conn' [] := by
  have hlast : m'.toBuffers = b ∧ m'.deadline = m.deadline ∧
      (m'.context = m.context ∧ m'.sentContext = m.sentContext) ∧
      m'.replyService = m.replyService ∧ m'.resultCode = m.resultCode ∧ m'.dataPos = m.dataPos ∧
      m'.dataLen = m.dataLen := by
    rw [hm]
    simp
  obtain ⟨rfl, h1, h2, h3⟩ := hlast
  refine ⟨hw.moved hf, h1, h2, ?_, fun _ => hw.framed hf, fun h => absurd h hst, fun _ => h3, hw.closed⟩
  rcases ho with ho | ⟨hp, ho⟩
  · exact Or.inl ho
  · refine Or.inr (Or.inr ⟨?_, ho⟩)
    rcases hw.status with h | h | h | h | h
    · exact absurd h hst
    · exact absurd h hp
    · exact Or.inr (Or.inl h)
    · exact Or.inr (Or.inr (Or.inl h))
    · exact Or.inr (Or.inr (Or.inr h))

/-- The frame was written out and `readResponse()` returned `st`; the rest of `poll()` returned `st'`. -/
private theorem polled_read {m m' : ExplicitMessage} {conn conn₁ conn₂ : TcpConnection} {st st' : Status}
    {b₁ b₂ : Buffers} {x : List UInt8} (hw : Wrote m.toBuffers conn .ok b₁ conn₁)
    (hg : Got (16 + kMaxCipData) b₁ conn₁ st b₂ conn₂ x) (hb : m'.toBuffers = b₂)
    (hd : m'.deadline = m.deadline) (hc : m'.context = m.context ∧ m'.sentContext = m.sentContext)
    (ho : (st' = .pending ∧ m'.InFlight) ∨ (st' = .ok ∧ m'.state = .done) ∨
      ((st' = .closed ∨ st' = .error) ∧ m'.state = .failed))
    (hlive : st' = .pending ∨ st' = .ok → st = .pending ∨ st = .ok)
    (hp : st' = .ok → st = .ok ∧ ∃ r, parse m'.rx m'.rxLen m'.sentContext = some r ∧ m' = m'.respond r)
    (hk : st' ≠ .ok → m'.replyService = m.replyService ∧ m'.resultCode = m.resultCode ∧ m'.dataPos = m.dataPos ∧
      m'.dataLen = m.dataLen) (hcl : st' = .closed → st = .closed) : Polled m conn st' m' conn₂ x := by
  subst hb
  refine ⟨hw.moved_got hg, hd, hc, ?_, fun h => hg.live (Or.symm (hlive h)), fun h => ?_, hk,
    fun h => hg.closed (hcl h)⟩
  · rcases ho with h | h | ⟨h | h, h'⟩
    · exact Or.inl h
    · exact Or.inr (Or.inl h)
    · exact Or.inr (Or.inr ⟨Or.inr (Or.inl h), h'⟩)
    · exact Or.inr (Or.inr ⟨Or.inr (Or.inr (Or.inl h)), h'⟩)
  · obtain ⟨hst, hr⟩ := hp h
    refine ⟨hg.ok hst, ?_, hr⟩
    rw [show m'.txSent = b₁.txSent from hg.tx.2.2]
    exact hw.ok rfl

theorem poll_spec {m m' : ExplicitMessage} {conn conn' : TcpConnection} {os : Platform} {st : Status}
    (hin : m.InFlight) (hf : Framed (16 + kMaxCipData) m.toBuffers) (h : m.poll conn os = (st, m', conn')) :
    ∃ inp, Polled m conn st m' conn' inp := by
  rw [poll_inFlight hin] at h
  unfold advance at h
  split at h
  · simp only [Prod.mk.injEq] at h
    obtain ⟨rfl, rfl, rfl⟩ := h
    exact ⟨[], ⟨hf.moved_refl conn, rfl, ⟨rfl, rfl⟩, Or.inr (Or.inr ⟨Or.inl rfl, rfl⟩), by simp, nofun,
      fun _ => ⟨rfl, rfl, rfl, rfl⟩, nofun⟩⟩
  · split at h
    · rename_i b₁ conn₁ hwr
      have hw := Buffers.writePending_spec hwr
      have hf₁ := hw.framed hf
      dsimp only at h
      split at h
      · rename_i b₂ conn₂ hrd
        obtain ⟨x, hg⟩ := Buffers.readResponse_spec hf₁ hrd
        simp only [Prod.mk.injEq] at h
        obtain ⟨rfl, rfl, rfl⟩ := h
        exact ⟨x, polled_read hw hg rfl rfl ⟨rfl, rfl⟩ (Or.inl ⟨rfl, Or.inr rfl⟩) (fun _ => Or.inl rfl) nofun
          (fun _ => ⟨rfl, rfl, rfl, rfl⟩) nofun⟩
      · rename_i b₂ conn₂ hrd
        obtain ⟨x, hg⟩ := Buffers.readResponse_spec hf₁ hrd
        split at h
        · -- the response was accepted
          rename_i m₂ hpr
          simp only [Prod.mk.injEq] at h
          obtain ⟨rfl, rfl, rfl⟩ := h
          unfold parseResponse at hpr
          split at hpr
          · cases hpr
          · rename_i r hr
            simp only [Prod.mk.injEq, true_and] at hpr
            subst hpr
            exact ⟨x, polled_read hw hg rfl rfl ⟨rfl, rfl⟩ (Or.inr (Or.inl ⟨rfl, rfl⟩)) (fun _ => Or.inr rfl)
              (fun _ => ⟨rfl, r, hr, rfl⟩) (fun h => absurd rfl h) nofun⟩
        · rename_i st₂ m₂ hne hpr
          simp only [Prod.mk.injEq] at h
          obtain ⟨rfl, rfl, rfl⟩ := h
          unfold parseResponse at hpr
          split at hpr
          · simp only [Prod.mk.injEq] at hpr
            obtain ⟨rfl, rfl⟩ := hpr
            exact ⟨x, polled_read hw hg rfl rfl ⟨rfl, rfl⟩ (Or.inr (Or.inr ⟨Or.inr rfl, rfl⟩)) (by simp) nofun
              (fun _ => ⟨rfl, rfl, rfl, rfl⟩) nofun⟩
          · simp only [Prod.mk.injEq] at hpr
            exact absurd hpr.1.symm (by simpa using hne)
      · rename_i st₂ b₂ conn₂ hnp hno hrd
        obtain ⟨x, hg⟩ := Buffers.readResponse_spec hf₁ hrd
        simp only [Prod.mk.injEq] at h
        obtain ⟨rfl, rfl, rfl⟩ := h
        have hst : st₂ = .closed ∨ st₂ = .error := by
          rcases hg.status with e | e | e | e
          · exact absurd e (by simpa using hno)
          · exact absurd e (by simpa using hnp)
          · exact Or.inl e
          · exact Or.inr e
        refine ⟨x, polled_read hw hg rfl rfl ⟨rfl, rfl⟩ (Or.inr (Or.inr ⟨hst, rfl⟩)) ?_ ?_
          (fun _ => ⟨rfl, rfl, rfl, rfl⟩) id⟩
        · exact id
        · intro e
          rcases hst with e' | e' <;> rw [e'] at e <;> cases e
    · rename_i b₁ conn₁ hwr
      have hw := Buffers.writePending_spec hwr
      simp only [Prod.mk.injEq] at h
      obtain ⟨rfl, rfl, rfl⟩ := h
      exact ⟨[], polled_unread hf hw nofun rfl (Or.inl ⟨rfl, hin⟩)⟩
    · rename_i st₁ b₁ conn₁ hno hnp hwr
      have hw := Buffers.writePending_spec hwr
      simp only [Prod.mk.injEq] at h
      obtain ⟨rfl, rfl, rfl⟩ := h
      exact ⟨[], polled_unread hf hw (by simpa using hno) rfl (Or.inr ⟨by simpa using hnp, rfl⟩)⟩

end ExplicitMessage

end ControlLogix
