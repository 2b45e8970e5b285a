import ControlLogix.ExplicitMessage

/-!
# The encapsulation session (`Session`)

`open()` sends RegisterSession, `close()` sends UnregisterSession, and `poll()` advances whichever exchange is going
on.  `pollRegistering()` and `pollUnregistering()` differ in what they make of a complete response only, so both are
`pollExchange` with that last part as an argument.  The clock reading of `poll()` is an argument, because the facade
has read the clock before.  As for `ExplicitMessage`, the connection is handed to every call instead of kept.

* `poll_exchange`: what a call of `poll()` does to an exchange (`Polled`);
* `poll_settled`: a session without an exchange is not changed by `poll()`.
-/

namespace ControlLogix

open TcpConnection (Transfer)
open Buffers (Framed Wrote Got Moved)

inductive Session.State where
  | idle
  | registering
  | registered
  | unregistering
  | closed
  | failed
  deriving DecidableEq, Repr

structure Session extends Buffers where
  state : Session.State := .idle
  handle : UInt32 := 0
  deadline : UInt32 := 0
  context : UInt64 := 1
  deriving DecidableEq, Repr

namespace Session

def kMaxBodySize : Nat := 512

def registerHeader (context : UInt64) : EncapsulationHeader where
  command := Command.registerSession.code
  length := 4
  session := 0
  status := 0
  context := context
  options := 0

/-- Protocol version 1 and option flags 0 follow the header. -/
def registerFrame (context : UInt64) : List UInt8 := encodeHeader (registerHeader context) ++ putU16 1 ++ putU16 0

theorem decode_registerFrame (context : UInt64) : decodeHeader (registerFrame context) = registerHeader context := by
  rw [registerFrame, List.append_assoc, decodeHeader_encodeHeader]

def unregisterHeader (handle : UInt32) (context : UInt64) : EncapsulationHeader where
  command := Command.unregisterSession.code
  length := 0
  session := handle
  status := 0
  context := context
  options := 0

def unregisterFrame (handle : UInt32) (context : UInt64) : List UInt8 :=
  encodeHeader (unregisterHeader handle context)

theorem decode_unregisterFrame (handle : UInt32) (context : UInt64) :
    decodeHeader (unregisterFrame handle context) = unregisterHeader handle context :=
  decodeHeader_encoded _

def startRegister (s : Session) : Status × Session :=
  (.pending,
    { s with
      tx := registerFrame s.context
      txLen := kEncapsulationHeaderSize + 4
      txSent := 0
      rxLen := 0
      rxExpected := kEncapsulationHeaderSize
      state := .registering })

def startUnregister (s : Session) : Status × Session :=
  (.pending,
    { s with
      tx := unregisterFrame s.handle s.context
      txLen := kEncapsulationHeaderSize
      txSent := 0
      rxLen := 0
      rxExpected := kEncapsulationHeaderSize
      state := .unregistering })

def «open» (s : Session) (conn : TcpConnection) (timeoutMs now : UInt32) : Status × Session :=
  if s.state = .registering ∨ s.state = .registered then (.busy, s)
  else if ¬ conn.connected then (.notReady, s)
  else { s with deadline := now + timeoutMs }.startRegister

def abort (s : Session) : Session :=
  { s with state := .closed, handle := 0, txLen := 0, txSent := 0, rxLen := 0, rxExpected := 0 }

def close (s : Session) : Status × Session :=
  if s.state = .registered then s.startUnregister
  else if s.state = .registering ∨ s.state = .unregistering then (.busy, s)
  else (.ok, s.abort)

/-- The common part of `pollRegistering()` and `pollUnregistering()`; `finish` looks at the complete response.  A
failing `writePending()` leaves the state as it is, a failing `readResponse()` sets `Failed`. -/
def pollExchange (finish : Session → Status × Session) (s : Session) (conn : TcpConnection) (now : UInt32)
    (os : Platform) : Status × Session × TcpConnection :=
  if expired now s.deadline then (.timeout, { s with state := .failed }, conn)
  else
    match s.toBuffers.writePending conn os.sends with
    | (.ok, b, conn) =>
      match b.readResponse kMaxBodySize conn os.recvs with
      | (.pending, b, conn) => (.pending, { s with toBuffers := b }, conn)
      | (.ok, b, conn) =>
        let (st, s) := finish { s with toBuffers := b }
        (st, s, conn)
      | (st, b, conn) => (st, { s with toBuffers := b, state := .failed }, conn)
    | (st, b, conn) => (st, { s with toBuffers := b }, conn)

/-- The validation of the RegisterSession response. -/
def finishRegister (s : Session) : Status × Session :=
  let h := decodeHeader s.rx
  if h.command ≠ Command.registerSession.code ∨ h.status ≠ 0 ∨ h.length < 4 then (.error, { s with state := .failed })
  else if h.session = 0 then (.error, { s with handle := h.session, state := .failed })
  else (.ok, { s with handle := h.session, state := .registered })

/-- The contents of the UnregisterSession response are not looked at. -/
def finishUnregister (s : Session) : Status × Session := (.ok, { s with state := .closed })

def pollRegistering (s : Session) (conn : TcpConnection) (now : UInt32) (os : Platform) :
    Status × Session × TcpConnection :=
  pollExchange finishRegister s conn now os

def pollUnregistering (s : Session) (conn : TcpConnection) (now : UInt32) (os : Platform) :
    Status × Session × TcpConnection :=
  pollExchange finishUnregister s conn now os

def poll (s : Session) (conn : TcpConnection) (now : UInt32) (os : Platform) : Status × Session × TcpConnection :=
  match s.state with
  | .registering => s.pollRegistering conn now os
  | .unregistering => s.pollUnregistering conn now os
  | .registered => (.ok, s, conn)
  | .closed => (.closed, s, conn)
  | .failed => (.error, s, conn)
  | .idle => (.notReady, s, conn)

/-- An exchange is going on. -/
def Exchanging (s : Session) : Prop := s.state = .registering ∨ s.state = .unregistering

instance (s : Session) : Decidable s.Exchanging := inferInstanceAs (Decidable (_ ∨ _))

/-- The transmit buffer holds the whole frame of the exchange. -/
structure Loaded (s : Session) : Prop where
  frame : (∃ c, s.tx = registerFrame c) ∨ ∃ h c, s.tx = unregisterFrame h c
  len : s.txLen = s.tx.length
  sent : s.txSent ≤ s.txLen

/-! ### Starting an exchange -/

theorem startRegister_loaded (s : Session) : s.startRegister.2.Loaded :=
  ⟨Or.inl ⟨_, rfl⟩, rfl, Nat.zero_le _⟩

theorem startUnregister_loaded (s : Session) : s.startUnregister.2.Loaded :=
  ⟨Or.inr ⟨_, _, rfl⟩, rfl, Nat.zero_le _⟩

theorem startRegister_framed (s : Session) : Framed kMaxBodySize s.startRegister.2.toBuffers :=
  ⟨Nat.zero_le _, Nat.zero_le _, fun _ => rfl, fun h => absurd h (by simp [startRegister])⟩

theorem startUnregister_framed (s : Session) : Framed kMaxBodySize s.startUnregister.2.toBuffers :=
  ⟨Nat.zero_le _, Nat.zero_le _, fun _ => rfl, fun h => absurd h (by simp [startUnregister])⟩

/-- `open()` either registers anew or changes nothing. -/
theorem open_cases {s s' : Session} {conn : TcpConnection} {timeoutMs now : UInt32} {st : Status}
    (h : s.open conn timeoutMs now = (st, s')) :
    (st = .pending ∧ conn.connected ∧ s' = { s with deadline := now + timeoutMs }.startRegister.2) ∨
      (st ≠ .pending ∧ s' = s) := by
  unfold «open» at h
  split at h
  · simp only [Prod.mk.injEq] at h
    obtain ⟨rfl, rfl⟩ := h
    exact Or.inr ⟨nofun, rfl⟩
  · split at h
    · simp only [Prod.mk.injEq] at h
      obtain ⟨rfl, rfl⟩ := h
      exact Or.inr ⟨nofun, rfl⟩
    · rename_i hc
      simp only [startRegister, Prod.mk.injEq] at h
      obtain ⟨rfl, rfl⟩ := h
      exact Or.inl ⟨rfl, by simpa using hc, rfl⟩

theorem close_registered {s : Session} (h : s.state = .registered) : s.close = s.startUnregister := by
  rw [close, if_pos h]

/-! ### Advancing an exchange -/

/-- How an exchange stands after `poll()` returned `st`. -/
inductive Outcome (s : Session) (st : Status) (s' : Session) : Prop where
  /-- It goes on: nothing was finished, or a write failed. -/
  | stays (state : s'.state = s.state) (handle : s'.handle = s.handle) (status : st ≠ .ok)
      (framed : Framed kMaxBodySize s'.toBuffers)
  | fails (state : s'.state = .failed) (status : st ≠ .ok ∧ st ≠ .pending)
  | registers (before : s.state = .registering) (state : s'.state = .registered) (status : st = .ok)
      (handle : s'.handle = (decodeHeader s'.rx).session) (whole : 24 ≤ s'.rxLen) (written : s.txLen ≤ s'.txSent)
  | unregisters (before : s.state = .unregistering) (state : s'.state = .closed) (status : st = .ok)
      (handle : s'.handle = s.handle)

/-- What `poll()` did to an exchange when it returned `st`, having read `inp` from the socket. -/
structure Polled (s : Session) (conn : TcpConnection) (st : Status) (s' : Session) (conn' : TcpConnection)
    (inp : List UInt8) : Prop where
  moved : Moved s.toBuffers conn s'.toBuffers conn' inp
  deadline : s'.deadline = s.deadline
  outcome : Outcome s st s'

theorem poll_settled {s : Session} (h : ¬ s.Exchanging) (conn : TcpConnection) (now : UInt32) (os : Platform) :
    (s.poll conn now os).2 = (s, conn) := by
  unfold poll
  cases hs : s.state
  · rfl
  · exact absurd (Or.inl hs) h
  · rfl
  · exact absurd (Or.inr hs) h
  · rfl
  · rfl

/-- What `finish` may do with a session whose response is complete. -/
private structure Finish (finish : Session → Status × Session) (s : Session) : Prop where
  buffers : (finish s).2.toBuffers = s.toBuffers
  deadline : (finish s).2.deadline = s.deadline
  outcome : 24 ≤ s.rxLen → s.txLen ≤ s.txSent → Outcome s (finish s).1 (finish s).2

private theorem finish_register {s : Session} (h : s.state = .registering) : Finish finishRegister s := by
  refine ⟨?_, ?_, fun hl hw => ?_⟩
  · simp only [finishRegister]
    split
    · rfl
    · split <;> rfl
  · simp only [finishRegister]
    split
    · rfl
    · split <;> rfl
  · simp only [finishRegister]
    split
    · exact .fails rfl ⟨nofun, nofun⟩
    · split
      · exact .fails rfl ⟨nofun, nofun⟩
      · exact .registers h rfl rfl rfl hl hw

private theorem finish_unregister {s : Session} (h : s.state = .unregistering) : Finish finishUnregister s :=
  ⟨rfl, rfl, fun _ _ => .unregisters h rfl rfl rfl⟩

/-- The outcome does not depend on the buffers the exchange started from. -/
private theorem Outcome.rebase {s s₁ s' : Session} {st : Status} (h : Outcome s₁ st s') (hs : s₁.state = s.state)
    (hh : s₁.handle = s.handle) (ht : s₁.txLen = s.txLen) : Outcome s st s' := by
  cases h with
  | stays state handle status framed => exact .stays (state.trans hs) (handle.trans hh) status framed
  | fails state status => exact .fails state status
  | registers before state status handle whole written =>
    exact .registers (hs ▸ before) state status handle whole (ht ▸ written)
  | unregisters before state status handle => exact .unregisters (hs ▸ before) state status (handle.trans hh)

private theorem pollExchange_spec {finish : Session → Status × Session} {s s' : Session}
    {conn conn' : TcpConnection} {now : UInt32} {os : Platform} {st : Status}
    (hf : Framed kMaxBodySize s.toBuffers) (hfin : ∀ b, Finish finish { s with toBuffers := b })
    (h : pollExchange finish s conn now os = (st, s', conn')) : ∃ inp, Polled s conn st s' conn' inp := by
  unfold pollExchange at h
  split at h
  · simp only [Prod.mk.injEq] at h
    obtain ⟨rfl, rfl, rfl⟩ := h
    exact ⟨[], hf.moved_refl conn, rfl, .fails rfl ⟨nofun, nofun⟩⟩
  · split at h
    · rename_i b₁ conn₁ hwr
      have hw := Buffers.writePending_spec hwr
      have hf₁ := hw.framed hf
      split at h
      · rename_i b₂ conn₂ hrd
        obtain ⟨x, hg⟩ := Buffers.readResponse_spec hf₁ hrd
        simp only [Prod.mk.injEq] at h
        obtain ⟨rfl, rfl, rfl⟩ := h
        exact ⟨x, hw.moved_got hg, rfl, .stays rfl rfl nofun (hg.live (Or.inr rfl))⟩
      · rename_i b₂ conn₂ hrd
        obtain ⟨x, hg⟩ := Buffers.readResponse_spec hf₁ hrd
        have hfin₂ := hfin b₂
        have hfr₂ := hg.live (Or.inl rfl)
        have hm := hw.moved_got hg
        simp only [Prod.mk.injEq] at h
        obtain ⟨rfl, rfl, rfl⟩ := h
        have hwhole : 24 ≤ b₂.rxLen := by
          by_contra hlt
          have h1 := hfr₂.head (by omega)
          have h2 := hg.ok rfl
          omega
        have hwritten : b₂.txLen ≤ b₂.txSent := by
          have h1 := hw.ok rfl
          have h2 : b₁.txLen = s.txLen := by rw [hw.frame]
          rw [hg.tx.2.1, hg.tx.2.2, h2]
          exact h1
        refine ⟨x, ?_, hfin₂.deadline, (hfin₂.outcome hwhole hwritten).rebase rfl rfl hm.tx.2⟩
        rw [hfin₂.buffers]
        exact hm
      · rename_i st₂ b₂ conn₂ hnp hno hrd
        obtain ⟨x, hg⟩ := Buffers.readResponse_spec hf₁ hrd
        simp only [Prod.mk.injEq] at h
        obtain ⟨rfl, rfl, rfl⟩ := h
        exact ⟨x, hw.moved_got hg, rfl, .fails rfl ⟨hno, hnp⟩⟩
    · rename_i st₁ b₁ conn₁ hno hwr
      have hw := Buffers.writePending_spec hwr
      simp only [Prod.mk.injEq] at h
      obtain ⟨rfl, rfl, rfl⟩ := h
      exact ⟨[], hw.moved hf, rfl, .stays rfl rfl hno (hw.framed hf)⟩

theorem poll_exchange {s s' : Session} {conn conn' : TcpConnection} {now : UInt32} {os : Platform} {st : Status}
    (hx : s.Exchanging) (hf : Framed kMaxBodySize s.toBuffers) (h : s.poll conn now os = (st, s', conn')) :
    ∃ inp, Polled s conn st s' conn' inp := by
  unfold poll at h
  rcases hx with hx | hx
  · rw [hx] at h
    exact pollExchange_spec hf (fun b => finish_register hx) h
  · rw [hx] at h
    exact pollExchange_spec hf (fun b => finish_unregister hx) h

end Session

end ControlLogix
