import ControlLogix.Agreement
import ControlLogix.Alternation
import ControlLogix.Deadlines

/-!
# Lost connections

Four answers of the socket layer tell that the peer has ended the connection: `recv()` returns 0 or fails with
`ECONNRESET`, `send()` fails with `EPIPE` or `ECONNRESET`.  `TcpConnection::write()` takes both of its errors for a
lost connection, `TcpConnection::read()` takes its error for any other one.

* `sending_of_loss`, `receiving_of_loss`: how an exchange ends when a loss is reported to it;
* `turned_loss`: what a turn of the loop makes of it;
* `call_run`: what a call of `poll()` keeps in mind until it returns, whatever its callbacks do;
* `lost_iff`: the client drops the connection in the same `poll()`, unless it was `recv()` that failed.
-/

namespace ControlLogix

open Transition
open Buffers (Framed bodyLength stored)

variable {n : Nat}

/-! ### What the socket layer reports -/

inductive Loss where
  | recvZero
  | recvReset
  | sendPipe
  | sendReset
  deriving DecidableEq, Repr

def SendAnswer.loss : SendAnswer → Option Loss
  | .failed .epipe => some .sendPipe
  | .failed .econnreset => some .sendReset
  | _ => none

def RecvAnswer.loss : RecvAnswer → Option Loss
  | .eof => some .recvZero
  | .failed .econnreset => some .recvReset
  | _ => none

/-- What is reported by the call the write loop stops at, with `left` bytes to be written. -/
def sendLoss : Nat → List SendAnswer → Option Loss
  | _, [] => none
  | left, .accepted k :: as => if left = 0 ∨ k = 0 then none else sendLoss (left - k) as
  | left, .failed e :: _ => if left = 0 then none else (SendAnswer.failed e).loss

/-- What is reported by the call the read loop stops at, with `pos` bytes of `stream` read. -/
def recvLoss (cap : Nat) (stream : List UInt8) (pos : Nat) : List RecvAnswer → Option Loss
  | [] => none
  | .data k :: as =>
    let got := min (min (k + 1) (needed stream pos - pos)) (stream.length - pos)
    if needed stream pos ≤ pos ∨ got = 0 ∨ pos + got = 24 ∧ cap < bodyLength stream then none
    else recvLoss cap stream (pos + got) as
  | .eof :: _ => if needed stream pos ≤ pos then none else RecvAnswer.eof.loss
  | .failed e :: _ => if needed stream pos ≤ pos then none else (RecvAnswer.failed e).loss

theorem sending_of_loss {left : Nat} {as : List SendAnswer} {l : Loss} (h : sendLoss left as = some l) :
    sending left as = .closed ∧ l ≠ .recvReset := by
  induction as generalizing left with
  | nil => cases h
  | cons a as ih =>
    cases a with
    | accepted k =>
      unfold sendLoss at h
      split at h
      · cases h
      · rename_i hgo
        rw [not_or] at hgo
        obtain ⟨hend, hl⟩ := ih h
        refine ⟨?_, hl⟩
        rw [sending, if_neg hgo.1, if_neg hgo.2, hend]
    | failed e =>
      unfold sendLoss at h
      split at h
      · cases h
      · rename_i hleft
        rw [sending, if_neg hleft]
        cases e <;> simp [SendAnswer.loss] at h ⊢
        · simp [← h]
        · simp [← h]

theorem receiving_of_loss {cap : Nat} {stream : List UInt8} {pos : Nat} {as : List RecvAnswer} {l : Loss}
    (h : recvLoss cap stream pos as = some l) :
    receiving cap stream pos as = if l = .recvReset then .fault else .closed := by
  induction as generalizing pos with
  | nil => cases h
  | cons a as ih =>
    cases a with
    | data k =>
      unfold recvLoss at h
      dsimp only at h
      split at h
      · cases h
      · rename_i hgo
        rw [not_or, not_or] at hgo
        rw [receiving, if_neg hgo.1]
        dsimp only
        rw [if_neg hgo.2.1, if_neg hgo.2.2]
        exact ih h
    | eof =>
      unfold recvLoss at h
      split at h
      · cases h
      · rename_i hmore
        obtain rfl := Option.some.inj h
        rw [receiving, if_neg hmore]
        rfl
    | failed e =>
      unfold recvLoss at h
      split at h
      · cases h
      · rename_i hmore
        rw [receiving, if_neg hmore]
        cases e <;> simp [RecvAnswer.loss] at h ⊢
        rw [← h]

/-! ### The state of the connection -/

namespace TcpConnection

/-- Only `Closed` says that the connection is lost. -/
private theorem read_alive {t t' : TcpConnection} {length : Nat} {a : RecvAnswer} {st : Status}
    (h : t.read length a = (.error st, t')) (hst : st ≠ .closed) : t'.state = t.state := by
  unfold read at h
  split at h
  · simp only [Prod.mk.injEq, Except.error.injEq] at h
    exact absurd h.1.symm hst
  · split at h
    · simp only [Prod.mk.injEq] at h
      rw [← h.2]
    · dsimp only at h
      split at h
      · simp only [Prod.mk.injEq, Except.error.injEq] at h
        exact absurd h.1.symm hst
      · cases h
      · split at h
        · cases h
        · simp only [Prod.mk.injEq] at h
          rw [← h.2]

private theorem write_alive {t t' : TcpConnection} {bs : List UInt8} {a : SendAnswer} {st : Status}
    (h : t.write bs a = (.error st, t')) (hst : st ≠ .closed) : t'.state = t.state := by
  unfold write at h
  split at h
  · simp only [Prod.mk.injEq, Except.error.injEq] at h
    exact absurd h.1.symm hst
  · split at h
    · simp only [Prod.mk.injEq] at h
      rw [← h.2]
    · dsimp only at h
      split at h
      · cases h
      · split at h
        · cases h
        · split at h
          · simp only [Prod.mk.injEq, Except.error.injEq] at h
            exact absurd h.1.symm hst
          · simp only [Prod.mk.injEq] at h
            rw [← h.2]

end TcpConnection

namespace Buffers

private theorem writePending_alive {b b' : Buffers} {conn conn' : TcpConnection} {as : List SendAnswer} {st : Status}
    (h : b.writePending conn as = (st, b', conn')) (hst : st ≠ .closed) : conn'.state = conn.state := by
  induction as generalizing b conn with
  | nil =>
    unfold writePending at h
    split at h
    · split at h
      · rename_i hw
        simp only [Prod.mk.injEq] at h
        rw [← h.2.2]
        exact (TcpConnection.write_ok hw).2.2.2
      · rename_i hw
        simp only [Prod.mk.injEq] at h
        obtain ⟨rfl, -, rfl⟩ := h
        exact TcpConnection.write_alive hw hst
    · simp only [Prod.mk.injEq] at h
      rw [← h.2.2]
  | cons a as ih =>
    unfold writePending at h
    split at h
    · split at h
      · rename_i hw
        simp only [Prod.mk.injEq] at h
        rw [← h.2.2]
        exact (TcpConnection.write_ok hw).2.2.2
      · rename_i hw
        exact (ih h).trans (TcpConnection.write_ok hw).2.2.2
      · rename_i hw
        simp only [Prod.mk.injEq] at h
        obtain ⟨rfl, -, rfl⟩ := h
        exact TcpConnection.write_alive hw hst
    · simp only [Prod.mk.injEq] at h
      rw [← h.2.2]

private theorem readResponse_alive {cap : Nat} {b b' : Buffers} {conn conn' : TcpConnection} {as : List RecvAnswer}
    {st : Status} (h : b.readResponse cap conn as = (st, b', conn')) (hst : st ≠ .closed) :
    conn'.state = conn.state := by
  -- one answer of the socket after the other
  induction as generalizing b conn with
  | nil =>
    unfold readResponse at h
    split at h
    · split at h
      · rename_i hr
        simp only [Prod.mk.injEq] at h
        rw [← h.2.2]
        exact (TcpConnection.read_ok hr).2.2.2
      · rename_i hr
        simp only [Prod.mk.injEq] at h
        obtain ⟨rfl, -, rfl⟩ := h
        exact TcpConnection.read_alive hr hst
    · simp only [Prod.mk.injEq] at h
      rw [← h.2.2]
  | cons a as ih =>
    unfold readResponse at h
    split at h
    · split at h
      · rename_i hr
        simp only [Prod.mk.injEq] at h
        rw [← h.2.2]
        exact (TcpConnection.read_ok hr).2.2.2
      · rename_i hr
        have hsame := (TcpConnection.read_ok hr).2.2.2
        dsimp only at h
        split at h
        · split at h
          · simp only [Prod.mk.injEq] at h
            rw [← h.2.2]
            exact hsame
          · exact (ih h).trans hsame
        · exact (ih h).trans hsame
      · rename_i hr
        simp only [Prod.mk.injEq] at h
        obtain ⟨rfl, -, rfl⟩ := h
        exact TcpConnection.read_alive hr hst
    · simp only [Prod.mk.injEq] at h
      rw [← h.2.2]

end Buffers

/-- As long as `poll()` does not return `Closed`, the connection is what it was. -/
theorem ExplicitMessage.poll_alive {m m' : ExplicitMessage} {conn conn' : TcpConnection} {os : Platform} {st : Status}
    (hin : m.InFlight) (h : m.poll conn os = (st, m', conn')) (hst : st ≠ .closed) : conn'.state = conn.state := by
  rw [poll_inFlight hin] at h
  unfold advance at h
  split at h
  · simp only [Prod.mk.injEq] at h
    rw [← h.2.2]
  · split at h
    · rename_i hw
      have hwrote := Buffers.writePending_alive hw nofun
      dsimp only at h
      split at h
      · rename_i hr
        simp only [Prod.mk.injEq] at h
        rw [← h.2.2]
        exact (Buffers.readResponse_alive hr nofun).trans hwrote
      · rename_i hr
        have hread := (Buffers.readResponse_alive hr nofun).trans hwrote
        split at h
        · simp only [Prod.mk.injEq] at h
          rw [← h.2.2]
          exact hread
        · simp only [Prod.mk.injEq] at h
          rw [← h.2.2]
          exact hread
      · rename_i hr
        simp only [Prod.mk.injEq] at h
        obtain ⟨rfl, -, rfl⟩ := h
        exact (Buffers.readResponse_alive hr hst).trans hwrote
    · rename_i hw
      simp only [Prod.mk.injEq] at h
      rw [← h.2.2]
      exact Buffers.writePending_alive hw nofun
    · rename_i hw
      simp only [Prod.mk.injEq] at h
      obtain ⟨rfl, -, rfl⟩ := h
      exact Buffers.writePending_alive hw hst

/-! ### One turn of the loop -/

/-- What the socket layer reports to the exchange in flight.  Nothing is reported when its deadline has passed, since
no call is made then. -/
def PlcClient.loss (p : PlcClient n) (os : Platform) : Option Loss :=
  if expired (os.millis 0) p.msg.deadline = true ∨ ¬ p.tcp.Usable then none
  else
    match sending (p.msg.txLen - p.msg.txSent) os.sends with
    | .complete => recvLoss (16 + ExplicitMessage.kMaxCipData) (stream p.msg.toBuffers p.tcp) p.msg.rxLen os.recvs
    | _ => sendLoss (p.msg.txLen - p.msg.txSent) os.sends

theorem PlcClient.loss_ending {p : PlcClient n} {os : Platform} {l : Loss} (h : p.loss os = some l) :
    expired (os.millis 0) p.msg.deadline = false ∧ p.tcp.Usable ∧
      p.msg.ending p.tcp os = if l = .recvReset then .fault else .closed := by
  unfold PlcClient.loss at h
  split at h
  · cases h
  · rename_i hgo
    rw [not_or, Classical.not_not] at hgo
    obtain ⟨hnow, hu⟩ := hgo
    refine ⟨by simpa using hnow, hu, ?_⟩
    unfold ExplicitMessage.ending Buffers.ending
    rw [if_neg fun h' => h'.1 hu]
    cases hsend : sending (p.msg.txLen - p.msg.txSent) os.sends with
    | complete =>
      rw [hsend] at h
      exact receiving_of_loss h
    | closed =>
      rw [hsend] at h
      rw [if_neg (sending_of_loss h).2]
    | blocked =>
      rw [hsend] at h
      have hclosed := (sending_of_loss h).1
      rw [hsend] at hclosed
      cases hclosed
    | fault =>
      rw [hsend] at h
      have hclosed := (sending_of_loss h).1
      rw [hsend] at hclosed
      cases hclosed

/-- A turn to which a loss is reported ends the operation.  It notes that the connection is lost, and the connection
is no longer up, unless it was `recv()` that failed. -/
theorem turned_loss {p p' : PlcClient n} {i : Fin n} {os : Platform} {st : Status} {l : Loss} (hc : Coupled p)
    (hl : p.msg.InFlight → p.msg.Loaded) (hin : (p.slots i).tag.InFlight) (hloss : p.loss os = some l)
    (ht : PlcClient.Turned p i os st p') :
    (p'.slots i).tag.state = .failed ∧ (st = .closed ↔ l ≠ .recvReset) ∧
      (p'.tcp.connected = false ↔ l ≠ .recvReset) := by
  obtain ⟨hnow, hu, hend⟩ := PlcClient.loss_ending hloss
  cases ht with
  | rest hr => exact absurd hin hr
  | @inFlight mst st tag msg tcp _ polled advanced =>
    have hm := hc.used i hin
    obtain ⟨inp, hp⟩ := ExplicitMessage.poll_spec hm (hc.framed hm) polled
    -- the message reports the loss, unless it was `recv()` that failed
    have hmst : mst = if l = .recvReset then .error else .closed := by
      have hstatus := ExplicitMessage.poll_status hm (hc.framed hm) (Nat.le_of_eq (hl hm).len) p.tcp os
      rw [polled, hend] at hstatus
      dsimp only at hstatus
      rcases hstatus with ⟨hlate, -⟩ | ⟨-, -, h⟩ | ⟨-, h, -⟩
      · rw [hnow] at hlate
        cases hlate
      · rw [h]
        split <;> rfl
      · split at h <;> cases h
    have hfd : tcp.fd = p.tcp.fd := hp.moved.transfer.fd
    show (({ p with msg := msg, tcp := tcp } : PlcClient n).setSlot i _ |>.slots i).tag.state = .failed ∧ _ ∧
      (tcp.connected = false ↔ _)
    rw [PlcClient.setSlot_self]
    by_cases hreset : l = .recvReset
    · -- the error is taken for any other one
      rw [if_pos hreset] at hmst
      subst hmst
      have hup : tcp.state = .ok := (ExplicitMessage.poll_alive hm polled nofun).trans hu.2
      have hconnected : tcp.connected = true := by simp [TcpConnection.connected, hup]
      have hiff : (tcp.connected = false ↔ l ≠ .recvReset) := by simp [hconnected, hreset]
      cases advanced with
      | pending h => cases h
      | broke h => exact ⟨rfl, ⟨nofun, fun h' => absurd hreset h'⟩, hiff⟩
      | refused h => cases h
      | done h => cases h
    · rw [if_neg hreset] at hmst
      subst hmst
      -- the connection marks itself as down when it returns `Closed`
      have hdown : tcp.connected = false := by
        by_contra hne
        refine hp.closed rfl ⟨?_, ?_⟩
        · rw [hfd]
          exact hu.1
        · simpa [TcpConnection.connected] using hne
      cases advanced with
      | pending h => cases h
      | broke h => exact ⟨rfl, ⟨fun _ => hreset, fun _ => rfl⟩, fun _ => hreset, fun _ => hdown⟩
      | refused h => cases h
      | done h => cases h

namespace World

/-! ### A whole call of `poll()` -/

/-- An action of the call of `poll()` that began above the calls `ps`, or of what its callbacks do. -/
def InCall (ps : List PollFrame) (w : World n) (_ : Act) : Prop := ps.length < w.polls.length

instance (ps : List PollFrame) (w : World n) (a : Act) : Decidable (InCall ps w a) :=
  inferInstanceAs (Decidable (_ < _))

/-- The statuses that this call of `poll()` itself calls the state callback with, once it is in its loop.  The calls
of `poll()` that its callbacks make are not counted. -/
def noteOwn (ps : List PollFrame) (w : World n) (a : Act) (w' : World n) (sts : List Status) : List Status :=
  match a with
  | .iter _ | .leave => if w.polls.tail = ps then sts ++ stateCallbacks (w'.log.drop w.log.length) else sts
  | _ => sts

def ownCallbacks (ps : List PollFrame) (w : World n) (as : List Act) : List Status :=
  history step (noteOwn ps) w as []

/-- The client has no connection and no session. -/
structure Offline (p : PlcClient n) : Prop where
  state : p.state = .idle
  session : p.session.state = .closed ∧ p.session.handle = 0
  socket : p.tcp.fd < 0
  connected : p.tcp.connected = false

/-- A turn of the loop calls no state callback. -/
theorem noteOwn_iter (ps : List PollFrame) {w w' : World n} {os : Platform} (h : step w (.iter os) = some w')
    (sts : List Status) : noteOwn ps w (.iter os) w' sts = sts := by
  have hquiet : stateCallbacks (w'.log.drop w.log.length) = [] := by
    obtain ⟨f, fs, hf, -, hiter⟩ := step_iterated h
    cases hiter with
    | turned st p hu ht =>
      rw [List.append_assoc, List.drop_left]
      exact stateCallbacks_turn
    | skipped =>
      rw [List.drop_length]
      rfl
  unfold noteOwn
  dsimp only
  rw [hquiet, List.append_nil, ite_self]

/-- Until it returns, a call of `poll()` has called no state callback itself and does not forget a loss. -/
private structure Ongoing (ps : List PollFrame) (lost : Bool) (own : List Status) (w : World n) (sts : List Status) :
    Prop where
  frame : ∃ pre f, w.polls = pre ++ f :: ps ∧ (lost = true → f.disconnected = true)
  own : sts = own

private theorem ongoing_step {ps : List PollFrame} {lost : Bool} {own sts : List Status} {w w' : World n} {a : Act}
    (h : Ongoing ps lost own w sts) (hs : step w a = some w') :
    w'.polls = ps ∨ Ongoing ps lost own w' (noteOwn ps w a w' sts) := by
  obtain ⟨⟨pre, f, hp, hlost⟩, rfl⟩ := h
  rcases frames_step hp hs with ⟨-, -, hend⟩ | ⟨pre', f', hp', hflag⟩
  · exact Or.inl hend
  · refine Or.inr ⟨⟨pre', f', hp', fun hl => hflag (hlost hl)⟩, ?_⟩
    cases a with
    | deliver bs => rfl
    | call op => rfl
    | poll os => rfl
    | iter os => exact noteOwn_iter ps hs sts
    | leave =>
      -- another call of `poll()` returns, one that a callback of this one has made
      obtain ⟨g, gs, hpg, -, rfl⟩ := step_leave hs
      have hgs : gs ≠ ps := by
        rintro rfl
        have hlen : gs.length = (pre' ++ f' :: gs).length := congrArg List.length hp'
        rw [List.length_append, List.length_cons] at hlen
        omega
      unfold noteOwn
      dsimp only
      rw [hpg, List.tail_cons, if_neg hgs]

/-- What a call of `poll()` keeps in mind, whatever its callbacks do. -/
theorem call_run {ps fs : List PollFrame} {w v : World n} {as : List Act} {f g : PollFrame}
    (hr : Run step (InCall ps) w as v) (hf : w.polls = f :: ps) (hg : v.polls = g :: fs) (hfs : fs = ps)
    (sts : List Status) :
    history step (noteOwn ps) w as sts = sts ∧ (f.disconnected = true → g.disconnected = true) := by
  subst hfs
  have hend := hr.history_invariant
    (I := fun v b => v.polls = fs ∨ Ongoing fs f.disconnected sts v b)
    (fun v a v' b hv hok hs => by
      rcases hv with hv | hv
      · unfold InCall at hok
        rw [hv] at hok
        omega
      · exact ongoing_step hv hs)
    (b := sts) (Or.inr ⟨⟨[], f, hf, fun h => h⟩, rfl⟩)
  rcases hend with hend | ⟨⟨pre, f', hp, hlost⟩, hown⟩
  · have hlen := congrArg List.length (hg.symm.trans hend)
    rw [List.length_cons] at hlen
    omega
  · have hpre : pre = [] := by
      have hlen := congrArg List.length (hg.symm.trans hp)
      rw [List.length_cons, List.length_append, List.length_cons] at hlen
      exact List.length_eq_zero_iff.1 (by omega)
    subst hpre
    rw [hg, List.nil_append, List.cons.injEq] at hp
    obtain ⟨rfl, -⟩ := hp
    exact ⟨hown, hlost⟩

/-- What follows the loop when a loss was noted. -/
theorem leave_lost {ps : List PollFrame} {v u : World n} {g : PollFrame} (hs : step v .leave = some u)
    (hg : v.polls = g :: ps) (hlost : g.disconnected = true) (sts : List Status) :
    Offline u.plc ∧ noteOwn ps v .leave u sts = sts ++ if v.plc.stateCallback then [.closed] else [] := by
  obtain ⟨g', gs, hpg, -, rfl⟩ := step_leave hs
  rw [hg, List.cons.injEq] at hpg
  obtain ⟨rfl, rfl⟩ := hpg
  have hloop : v.plc.loopEnd g.disconnected =
      (.closed, { v.plc with session := v.plc.session.abort, tcp := v.plc.tcp.close, state := .idle },
        if v.plc.stateCallback then some .closed else none) := by
    rw [PlcClient.loopEnd, hlost, if_pos rfl]
  unfold World.leave
  rw [hloop]
  constructor
  · refine ⟨rfl, ⟨rfl, rfl⟩, (TcpConnection.close_dropped _).fd, ?_⟩
    show v.plc.tcp.close.connected = false
    unfold TcpConnection.close
    split <;> rfl
  · unfold noteOwn
    dsimp only
    rw [hg, List.tail_cons, if_pos rfl, List.drop_left, stateCallbacks_map]
    split <;> rfl

/-- The client takes the connection for lost in the call of `poll()` that began at `w₁`, above the calls `ps`, and
whose turn on slot `i` led to `w'` by the actions `bs`. -/
structure Recognised (ps : List PollFrame) (w₁ : World n) (bs : List Act) (w' : World n) (i : Fin n) : Prop where
  failed : (w'.plc.slots i).tag.state = .failed
  down : w'.plc.tcp.connected = false
  returns : ∀ as v u, Run step (InCall ps) w' as v → step v .leave = some u → u.polls = ps →
    Offline u.plc ∧ ownCallbacks ps w₁ (bs ++ as ++ [.leave]) = if v.plc.stateCallback then [.closed] else []

/-- Let a call of `poll()` find the client in `Ready`, and let a turn of its loop come to an operation in flight to
which the socket layer reports that the peer has ended the connection.  The client takes the connection for lost if
and only if it is not the failure of `recv()` with `ECONNRESET` that reports it. -/
theorem lost_iff {w₀ w₁ w w' : World n} (h : Reachable w₀) (hready : w₀.plc.state = .ready) {os₀ os : Platform}
    (hpoll : step w₀ (.poll os₀) = some w₁) {bs : List Act} (hrun : Run step (InCall w₀.polls) w₁ bs w)
    {f : PollFrame} (hf : w.polls = f :: w₀.polls) {i : Fin n} (hi : f.next = i.val)
    (hused : (w.plc.slots i).inUse = true) (hin : (w.plc.slots i).tag.InFlight) {l : Loss}
    (hloss : w.plc.loss os = some l) (hturn : step w (.iter os) = some w') :
    Recognised w₀.polls w₁ (bs ++ [.iter os]) w' i ↔ l ≠ .recvReset := by
  have hreach : Reachable w := by
    obtain ⟨w₂, cs, hinit, hbefore⟩ := h
    exact ⟨w₂, _, hinit, (hbefore.snoc trivial hpoll).trans hrun.free⟩
  have hw₁ : w₁ = { w₀ with polls := {} :: w₀.polls } := by
    obtain ⟨-, rfl⟩ := step_poll hpoll
    unfold World.poll
    rw [PlcClient.pollState_none.2 hready]
  obtain ⟨g, gs, hg, hpg, hiter⟩ := step_iterated hturn
  rw [hf, List.cons.injEq] at hpg
  obtain ⟨rfl, rfl⟩ := hpg
  -- the turn is on slot `i`
  have hslot : (⟨f.next, hg⟩ : Fin n) = i := Fin.ext hi
  rw [hslot] at hiter
  cases hiter with
  | skipped hfree =>
    rw [hused] at hfree
    cases hfree
  | turned st p _ ht =>
    obtain ⟨hfailed, hclosed, hdown⟩ := turned_loss hreach.coupled hreach.loaded hin hloss ht
    constructor
    · intro hr
      exact hdown.1 hr.down
    · intro hl
      refine ⟨hfailed, hdown.2 hl, ?_⟩
      intro as v u hafter hleave hu
      obtain ⟨g', gs', hv, -, hleft⟩ := step_leave hleave
      have hgs' : gs' = w₀.polls := by
        rw [← hu, hleft]
        rfl
      -- no callback before the turn, none after it, and the one at the end of the loop
      obtain ⟨hbefore, -⟩ := call_run hrun (by rw [hw₁]) hf rfl []
      obtain ⟨hown, hlost⟩ := call_run hafter rfl hv hgs' []
      rw [hgs'] at hv
      obtain ⟨hoff, hlast⟩ := leave_lost hleave hv (hlost (by simp [hclosed.2 hl])) []
      refine ⟨hoff, ?_⟩
      unfold ownCallbacks
      rw [List.append_assoc, List.append_assoc, hrun.history_append, hbefore, List.singleton_append,
        history_cons _ hturn, noteOwn_iter _ hturn, hafter.history_append, hown, history_cons _ hleave, hlast]
      rfl

/-- The read of `readSeen`, in a call of `poll()` in which the peer has closed the connection. -/
theorem lost_iff_closed :
    Recognised readSeen.polls (after step readSeen [.poll peerClosed]) ([] ++ [.iter peerClosed])
      (inCallback peerClosed) 0 :=
  (lost_iff reachable_readSeen (by decide +kernel) (step_after (by decide +kernel) :
      step readSeen (.poll peerClosed) = some (after step readSeen [.poll peerClosed])) (.nil _)
    (by decide +kernel : (after step readSeen [.poll peerClosed]).polls = {} :: readSeen.polls) (by decide)
    (by decide +kernel)
    (by decide +kernel) (by decide +kernel : (after step readSeen [.poll peerClosed]).plc.loss peerClosed =
      some .recvZero)
    (step_after (by decide +kernel))).2 (by decide)

/-- The peer has reset the connection, and `recv()` says so. -/
def peerReset : Platform := { millis := fun _ => 30, recvs := [.failed .econnreset] }

/-- When `poll()` returns, the read has failed, the client is still in `Ready` and its connection up. -/
theorem reset_missed :
    (¬ ∀ (w₀ w₁ w w' : World 2) (os₀ os : Platform) (bs : List Act) (f : PollFrame) (i : Fin 2) (l : Loss),
      Reachable w₀ → w₀.plc.state = .ready → step w₀ (.poll os₀) = some w₁ → Run step (InCall w₀.polls) w₁ bs w →
      w.polls = f :: w₀.polls → f.next = i.val → (w.plc.slots i).inUse = true → (w.plc.slots i).tag.InFlight →
      w.plc.loss os = some l → step w (.iter os) = some w' → Recognised w₀.polls w₁ (bs ++ [.iter os]) w' i) ∧
      (after step (inCallback peerReset) [.iter peerReset, .leave]).plc.state = .ready ∧
      (after step (inCallback peerReset) [.iter peerReset, .leave]).plc.tcp.connected = true ∧
      ownCallbacks readSeen.polls readSeen [.poll peerReset, .iter peerReset, .iter peerReset, .leave] = [] := by
  refine ⟨fun h => ?_, by decide +kernel, by decide +kernel, by decide +kernel⟩
  have hr := h readSeen (after step readSeen [.poll peerReset]) (after step readSeen [.poll peerReset])
    (inCallback peerReset) peerReset peerReset [] {} 0 .recvReset reachable_readSeen (by decide +kernel)
    (step_after (by decide +kernel)) (.nil _) (by decide +kernel) (by decide) (by decide +kernel) (by decide +kernel)
    (by decide +kernel) (step_after (by decide +kernel))
  have hdown := hr.down
  revert hdown
  decide +kernel

end World

end ControlLogix
