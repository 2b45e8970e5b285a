import ControlLogix.Connection
import ControlLogix.Endings

/-!
# What has ended stays ended

A failure of `TcpConnection` is kept in two places: some failures close the descriptor, others only mark the state,
and `poll()` looks at the descriptor first.

* `TcpConnection.down_iff`: once a call has reported the end, a connection stays down until the next `connect()` if
  and only if no `poll()` finds the descriptor of a marked connection writable without an error;
* `TcpConnection.risen`: a connection the peer has closed, which `poll()` reports to be up.
-/

namespace ControlLogix

open Transition
open Buffers (Framed)

namespace TcpConnection

/-- A call with what the socket layer answers to it, or the arrival of bytes of the peer.  A null buffer is an empty
one. -/
inductive Call where
  | connect (ip : IPAddress) (port : UInt16) (timeoutMs : UInt32) (os : ConnectAnswers) (now : UInt32)
  | poll (os : PollAnswers) (now : UInt32)
  | read (length : Nat) (a : RecvAnswer)
  | write (bs : List UInt8) (a : SendAnswer)
  | close
  | deliver (bs : List UInt8)

/-- What a call returns: a status, a number of bytes or a failure, or nothing. -/
inductive Result where
  | status (st : Status)
  | count (r : Except Status Nat)
  | none

def call (t : TcpConnection) : Call → Result × TcpConnection
  | .connect ip port timeoutMs os now =>
    let (st, t) := t.connect ip port timeoutMs os now
    (.status st, t)
  | .poll os now =>
    let (st, t) := t.poll os now
    (.status st, t)
  | .read length a =>
    let (r, t) := t.read length a
    (.count (r.map List.length), t)
  | .write bs a =>
    let (r, t) := t.write bs a
    (.count r, t)
  | .close => (.none, t.close)
  | .deliver bs => (.none, t.deliver bs)

def step (t : TcpConnection) (c : Call) : Option TcpConnection := some (t.call c).2

/-- A call of `read()` or `write()`. -/
def Call.Transfers : Call → Prop
  | .read .. | .write .. => True
  | _ => False

/-- The call reports the end of the connection. -/
def Call.Ends : Call → Result → Prop
  | .poll .., .status st => st = .closed ∨ st = .timeout ∨ st = .error
  | .read .., .count r | .write .., .count r => r = .error .closed
  | _, _ => False

/-- `Ok`, or some bytes. -/
def Result.Alive : Result → Prop
  | .status st => st = .ok
  | .count (.ok n) => 0 < n
  | _ => False

/-- Until the next `connect()` the connection is not up, and no call finds it up. -/
def Down (t : TcpConnection) : List Call → Prop
  | [] | .connect .. :: _ => t.connected = false
  | c :: cs => t.connected = false ∧ ¬ (t.call c).1.Alive ∧ Down (t.call c).2 cs

/-- The first call of `poll()` that does not go on waiting comes before any `close()` or `connect()`, and finds the
socket writable without an error. -/
def Rises (deadline : UInt32) : List Call → Prop
  | [] | .connect .. :: _ | .close :: _ => False
  | .poll os now :: cs =>
    if os.select = 0 ∧ expired now deadline = false then Rises deadline cs
    else 0 < os.select ∧ 0 ≤ os.getsockopt ∧ os.soError = 0
  | .read .. :: cs | .write .. :: cs | .deliver .. :: cs => Rises deadline cs

/-! ### The descriptor and the state -/

/-- A connection without a descriptor is not up. -/
def Tidy (t : TcpConnection) : Prop := t.fd < 0 → t.state ≠ .ok

theorem close_state (t : TcpConnection) : t.close.state = .closed := by
  unfold close
  split <;> rfl

/-- A connection that cannot be used is not up, with or without a descriptor. -/
private theorem Tidy.not_ok {t : TcpConnection} (h : Tidy t) (hu : ¬ t.Usable) : t.state ≠ .ok := by
  intro e
  by_cases hf : t.fd < 0
  · exact h hf e
  · exact hu ⟨by omega, e⟩

private theorem tidy_close (t : TcpConnection) : Tidy t.close := by
  intro _
  rw [close_state]
  decide

private theorem tidy_connect {t : TcpConnection} (h : Tidy t) (ip : IPAddress) (port : UInt16) (timeoutMs : UInt32)
    (os : ConnectAnswers) (now : UInt32) : Tidy (t.connect ip port timeoutMs os now).2 := by
  have hbase : (if 0 ≤ t.fd then t.close else t).state ≠ .ok := by
    split
    · rw [close_state]
      decide
    · exact h (by omega)
  unfold connect
  dsimp only
  generalize (if 0 ≤ t.fd then t.close else t) = t₁ at hbase ⊢
  intro _
  split
  · exact hbase
  · split
    · exact hbase
    · split
      · exact hbase
      · split
        · exact hbase
        · split
          · exact hbase
          · show Status.pending ≠ .ok
            decide

private theorem tidy_poll {t : TcpConnection} (h : Tidy t) (os : PollAnswers) (now : UInt32) :
    Tidy (t.poll os now).2 := by
  unfold poll
  split
  · exact h
  · rename_i hfd
    have hkept : ∀ t' : TcpConnection, t'.fd = t.fd → Tidy t' := fun t' e hlt => absurd (e ▸ hlt) hfd
    split
    · exact h
    · dsimp only
      split
      · exact tidy_close _
      · split
        · split
          · exact tidy_close _
          · exact hkept _ rfl
        · split
          · exact tidy_close _
          · split
            · exact hkept _ rfl
            · exact tidy_close _

private theorem Transfer.tidy {t t' : TcpConnection} {out inp : List UInt8} (ht : Transfer t t' out inp)
    (h : Tidy t) : Tidy t' := by
  intro hlt
  rw [ht.fd] at hlt
  rcases ht.state with e | e
  · rw [e]
    exact h hlt
  · rw [e]
    decide

/-- `read()` and `write()` keep the descriptor, and may mark the state. -/
private theorem read_transfer (t : TcpConnection) (length : Nat) (a : RecvAnswer) :
    ∃ inp, Transfer t (t.read length a).2 [] inp := by
  obtain ⟨r, t', hr⟩ : ∃ r t', t.read length a = (r, t') := ⟨_, _, rfl⟩
  rw [hr]
  cases r with
  | ok bs => exact ⟨bs, (read_ok hr).1⟩
  | error st => exact ⟨[], (read_error hr).1⟩

private theorem write_transfer (t : TcpConnection) (bs : List UInt8) (a : SendAnswer) :
    ∃ out, Transfer t (t.write bs a).2 out [] := by
  obtain ⟨r, t', hr⟩ : ∃ r t', t.write bs a = (r, t') := ⟨_, _, rfl⟩
  rw [hr]
  cases r with
  | ok n => exact ⟨bs.take n, (write_ok hr).1⟩
  | error st => exact ⟨[], (write_error hr).1⟩

theorem tidy_call {t : TcpConnection} (h : Tidy t) (c : Call) : Tidy (t.call c).2 := by
  cases c with
  | connect ip port timeoutMs os now => exact tidy_connect h ip port timeoutMs os now
  | poll os now => exact tidy_poll h os now
  | read length a =>
    obtain ⟨inp, ht⟩ := read_transfer t length a
    exact ht.tidy h
  | write bs a =>
    obtain ⟨out, ht⟩ := write_transfer t bs a
    exact ht.tidy h
  | close => exact tidy_close t
  | deliver bs => exact h

theorem tidy_of_run {t : TcpConnection} {cs : List Call} (h : Run step always {} cs t) : Tidy t := by
  refine h.invariant ?_ fun _ => by decide
  intro s c s' hs _ hstep
  obtain rfl := Option.some.inj hstep
  exact tidy_call hs c

/-! ### The end -/

private theorem read_deadline (t : TcpConnection) (length : Nat) (a : RecvAnswer) :
    (t.read length a).2.deadline = t.deadline := by
  unfold read
  split
  · rfl
  · split
    · rfl
    · dsimp only
      split
      · rfl
      · rfl
      · split <;> rfl

private theorem write_deadline (t : TcpConnection) (bs : List UInt8) (a : SendAnswer) :
    (t.write bs a).2.deadline = t.deadline := by
  unfold write
  split
  · rfl
  · split
    · rfl
    · dsimp only
      split
      · rfl
      · split
        · rfl
        · split <;> rfl

/-- How a connection is left by the call that reports its end: without a descriptor by `poll()`, and only marked by
`read()` and `write()`. -/
private theorem ended {t : TcpConnection} (h : Tidy t) {c : Call} (hc : c.Ends (t.call c).1) :
    (t.call c).2.state ≠ .ok ∧
      (c.Transfers ∧ (t.call c).2.fd = t.fd ∧ (t.call c).2.deadline = t.deadline ∨
        ¬ c.Transfers ∧ (t.call c).2.fd < 0) := by
  cases c with
  | connect ip port timeoutMs os now => exact absurd hc (by simp [Call.Ends])
  | close => exact absurd hc (by simp [Call.Ends])
  | deliver bs => exact absurd hc (by simp [Call.Ends])
  | read length a =>
    obtain ⟨r, t', hr⟩ : ∃ r t', t.read length a = (r, t') := ⟨_, _, rfl⟩
    have hd := read_deadline t length a
    simp only [call, hr, Call.Ends] at hc hd ⊢
    cases r with
    | ok bs => cases hc
    | error st =>
      obtain ⟨ht, hst⟩ := read_error hr
      cases hc
      refine ⟨?_, Or.inl ⟨trivial, ht.fd, hd⟩⟩
      rcases hst with ⟨-, hu⟩ | ⟨e, -⟩ | e
      · exact (ht.tidy h).not_ok hu
      · cases e
      · cases e
  | write bs a =>
    obtain ⟨r, t', hr⟩ : ∃ r t', t.write bs a = (r, t') := ⟨_, _, rfl⟩
    have hd := write_deadline t bs a
    simp only [call, hr, Call.Ends] at hc hd ⊢
    cases r with
    | ok n => cases hc
    | error st =>
      obtain ⟨ht, hst⟩ := write_error hr
      cases hc
      refine ⟨?_, Or.inl ⟨trivial, ht.fd, hd⟩⟩
      rcases hst with ⟨-, hu⟩ | ⟨e, -⟩ | e
      · exact (ht.tidy h).not_ok hu
      · cases e
      · cases e
  | poll os now =>
    obtain ⟨st, t', hp⟩ : ∃ st t', t.poll os now = (st, t') := ⟨_, _, rfl⟩
    have htidy := tidy_poll h os now
    simp only [call, hp, Call.Ends] at hc htidy ⊢
    have hgone : t'.fd < 0 := by
      by_cases hfd : t.fd < 0
      · rw [poll, if_pos hfd, Prod.mk.injEq] at hp
        rw [← hp.2]
        exact hfd
      · by_cases hs : t.state = .ok
        · rw [poll, if_neg hfd, if_pos hs, Prod.mk.injEq] at hp
          rw [← hp.1] at hc
          rcases hc with e | e | e <;> cases e
        · rcases poll_connecting (by omega) hs hp with ⟨e, -⟩ | ⟨e, -⟩ | ⟨-, hd⟩
          · rw [e] at hc
            rcases hc with e | e | e <;> cases e
          · rw [e] at hc
            rcases hc with e | e | e <;> cases e
          · exact hd.fd
    exact ⟨htidy hgone, Or.inr ⟨fun e => e, hgone⟩⟩

/-! ### After the end -/

private theorem not_connected {t : TcpConnection} (hs : t.state ≠ .ok) : t.connected = false := by
  simp [connected, hs]

/-- Without a descriptor every call fails. -/
theorem down_of_gone {t : TcpConnection} (hfd : t.fd < 0) (hs : t.state ≠ .ok) (cs : List Call) : t.Down cs := by
  have hconn := not_connected hs
  have hu : ¬ t.Usable := fun h => hs h.2
  -- no call before the next `connect()` brings a descriptor
  induction cs generalizing t with
  | nil => exact hconn
  | cons c cs ih =>
    cases c with
    | connect ip port timeoutMs os now => exact hconn
    | poll os now =>
      have hp : t.poll os now = (.closed, t) := by rw [poll, if_pos hfd]
      refine ⟨hconn, ?_, ?_⟩
      · simp [call, hp, Result.Alive]
      · simp only [call, hp]
        exact ih hfd hs hconn hu
    | read length a =>
      refine ⟨hconn, ?_, ?_⟩
      · simp [call, read_unusable hu, Result.Alive, Except.map]
      · simp only [call, read_unusable hu]
        exact ih hfd hs hconn hu
    | write bs a =>
      refine ⟨hconn, ?_, ?_⟩
      · simp [call, write_unusable hu, Result.Alive]
      · simp only [call, write_unusable hu]
        exact ih hfd hs hconn hu
    | close =>
      have hs' : t.close.state ≠ .ok := by
        rw [close_state]
        decide
      exact ⟨hconn, fun h => h, ih (close_dropped t).fd hs' (not_connected hs') fun h => hs' h.2⟩
    | deliver bs => exact ⟨hconn, fun h => h, ih hfd hs (not_connected hs) fun h => hs h.2⟩

/-- `poll()` of a marked connection that still has its descriptor. -/
private theorem poll_marked {t : TcpConnection} (hfd : 0 ≤ t.fd) (hs : t.state ≠ .ok) (os : PollAnswers)
    (now : UInt32) :
    (os.select = 0 ∧ expired now t.deadline = false ∧
      ∃ calls, t.poll os now = (.pending, { t with calls := calls })) ∨
    (¬ (os.select = 0 ∧ expired now t.deadline = false) ∧
      ((0 < os.select ∧ 0 ≤ os.getsockopt ∧ os.soError = 0) ∧ (t.poll os now).1 = .ok ∨
        ¬ (0 < os.select ∧ 0 ≤ os.getsockopt ∧ os.soError = 0) ∧ (t.poll os now).1 ≠ .ok ∧
          (t.poll os now).2.fd < 0 ∧ (t.poll os now).2.state ≠ .ok)) := by
  have hgone : ∀ t' : TcpConnection, t'.close.fd < 0 ∧ t'.close.state ≠ .ok := by
    intro t'
    rw [close_state]
    exact ⟨(close_dropped t').fd, by decide⟩
  unfold poll
  rw [if_neg (by omega), if_neg hs]
  dsimp only
  by_cases hneg : os.select < 0
  · rw [if_pos hneg]
    exact Or.inr ⟨fun h => by omega, Or.inr ⟨fun h => by omega, by simp, hgone _⟩⟩
  · by_cases hzero : os.select = 0
    · rw [if_neg hneg, if_pos hzero]
      cases hnow : expired now t.deadline
      · exact Or.inl ⟨hzero, rfl, _, rfl⟩
      · exact Or.inr ⟨by simp, Or.inr ⟨fun h => by omega, by simp, hgone _⟩⟩
    · rw [if_neg hneg, if_neg hzero]
      refine Or.inr ⟨fun h => hzero h.1, ?_⟩
      by_cases hopt : os.getsockopt < 0
      · rw [if_pos hopt]
        exact Or.inr ⟨fun h => by omega, by simp, hgone _⟩
      · by_cases herr : os.soError = 0
        · rw [if_neg hopt, if_pos herr]
          exact Or.inl ⟨⟨by omega, by omega, herr⟩, rfl⟩
        · rw [if_neg hopt, if_neg herr]
          exact Or.inr ⟨fun h => herr h.2.2, by simp, hgone _⟩

/-- With its descriptor, a marked connection is down until it rises. -/
private theorem down_marked {t : TcpConnection} (hfd : 0 ≤ t.fd) (hs : t.state ≠ .ok) (cs : List Call) :
    t.Down cs ↔ ¬ Rises t.deadline cs := by
  have hconn := not_connected hs
  have hu : ¬ t.Usable := fun h => hs h.2
  induction cs generalizing t with
  | nil => exact ⟨fun _ h => h, fun _ => hconn⟩
  | cons c cs ih =>
    cases c with
    | connect ip port timeoutMs os now => exact ⟨fun _ h => h, fun _ => hconn⟩
    | poll os now =>
      unfold Rises
      rcases poll_marked hfd hs os now with ⟨hsel, hnow, calls, hp⟩ | ⟨hend, hp⟩
      · -- the wait goes on
        have hrest := ih (t := { t with calls := calls }) hfd hs hconn hu
        rw [if_pos ⟨hsel, hnow⟩]
        simp only [Down, call, hp, hconn, Result.Alive, reduceCtorEq, not_false_eq_true, true_and]
        exact hrest
      · rw [if_neg hend]
        rcases hp with ⟨hup, hst⟩ | ⟨hdown, hst, hgone, hs'⟩
        · constructor
          · intro h
            exact absurd hst h.2.1
          · intro h
            exact absurd hup h
        · exact ⟨fun _ => hdown, fun _ => ⟨hconn, hst, down_of_gone hgone hs' cs⟩⟩
    | read length a =>
      have hrest := ih hfd hs hconn hu
      simp only [Down, Rises, call, read_unusable hu, hconn, Result.Alive, Except.map, not_false_eq_true, true_and]
      exact hrest
    | write bs a =>
      have hrest := ih hfd hs hconn hu
      simp only [Down, Rises, call, write_unusable hu, hconn, Result.Alive, not_false_eq_true, true_and]
      exact hrest
    | close =>
      have hs' : t.close.state ≠ .ok := by
        rw [close_state]
        decide
      exact ⟨fun _ h => h, fun _ => ⟨hconn, fun h => h, down_of_gone (close_dropped t).fd hs' cs⟩⟩
    | deliver bs =>
      have hrest := ih (t := t.deliver bs) hfd hs hconn fun h => hs h.2
      simp only [Down, Rises, call, hconn, Result.Alive, not_false_eq_true, true_and]
      exact hrest

/-- In every run, once a call has reported the end of the connection, it is down until the next `connect()` unless the
report came from `read()` or `write()`, which leave the descriptor open, and a `poll()` then finds the socket writable
without an error. -/
theorem down_iff {t : TcpConnection} {history : List Call} (h : Run step always {} history t) {c : Call}
    (hc : c.Ends (t.call c).1) (cs : List Call) :
    (t.call c).2.Down cs ↔ ¬ (c.Transfers ∧ 0 ≤ t.fd ∧ Rises t.deadline cs) := by
  obtain ⟨hs, ⟨htr, hfd, hd⟩ | ⟨htr, hgone⟩⟩ := ended (tidy_of_run h) hc
  · by_cases hopen : 0 ≤ t.fd
    · have hmarked := down_marked (hfd ▸ hopen) hs cs
      rw [hmarked, hd]
      exact ⟨fun hn hr => hn hr.2.2, fun hn hr => hn ⟨htr, hopen, hr⟩⟩
    · have hdown := down_of_gone (by omega) hs cs
      exact ⟨fun _ hr => hopen hr.2.1, fun _ => hdown⟩
  · exact ⟨fun _ hr => htr hr.1, fun _ => down_of_gone hgone hs cs⟩

/-- A connection that is up, and that the peer closes then. -/
def upCalls : List Call := [.connect 0x0101A8C0 44818 5000 { connect := -1 } 0, .poll {} 10]

def up : TcpConnection := after step {} upCalls

private theorem up_run : Run step always {} upCalls up := run_after (by decide)

private theorem up_eof : Call.Ends (.read 24 .eof) (up.call (.read 24 .eof)).1 := by
  rw [show (up.call (.read 24 .eof)).1 = .count (.error .closed) from rfl]
  exact rfl

theorem down_iff_eof :
    (up.call (.read 24 .eof)).2.Down [.read 24 (.data 0), .close, .poll {} 30] ↔
      ¬ (Call.Transfers (.read 24 .eof) ∧ 0 ≤ up.fd ∧
        Rises up.deadline [.read 24 (.data 0), .close, .poll {} 30]) :=
  down_iff up_run up_eof _

/-- `read()` finds the stream at its end and returns `Closed`; the next `poll()` returns `Ok`. -/
theorem risen : ¬ ∀ (history : List Call) (t : TcpConnection), Run step always {} history t → ∀ c : Call,
    c.Ends (t.call c).1 → ∀ cs, (t.call c).2.Down cs := by
  intro hall
  have hdown := hall upCalls up up_run (.read 24 .eof) up_eof [.poll {} 20]
  have hst : ((up.call (.read 24 .eof)).2.call (.poll {} 20)).1 = .status .ok := rfl
  have hdead : ¬ ((up.call (.read 24 .eof)).2.call (.poll {} 20)).1.Alive := hdown.2.1
  rw [hst] at hdead
  exact hdead rfl

end TcpConnection

/-! ### The exchanges -/

/-- Every later call of `poll()` fails, and calls nothing on the socket. -/
def Silent {σ : Type} (poll : σ → TcpConnection → Platform → Status × σ × TcpConnection) :
    σ → List (TcpConnection × Platform) → Prop
  | _, [] => True
  | s, (conn, os) :: later =>
    (poll s conn os).1.toInt < 0 ∧ (poll s conn os).2.2 = conn ∧ Silent poll (poll s conn os).2.1 later

private theorem silent_of_kept {σ : Type} {poll : σ → TcpConnection → Platform → Status × σ × TcpConnection} {s : σ}
    {st : Status} (hst : st.toInt < 0) (h : ∀ conn os, poll s conn os = (st, s, conn))
    (later : List (TcpConnection × Platform)) : Silent poll s later := by
  induction later with
  | nil => trivial
  | cons l later ih =>
    obtain ⟨conn, os⟩ := l
    rw [Silent, h]
    exact ⟨hst, rfl, ih⟩

/-- `writePending()` fails: the socket is not usable, or it reports a failure before it has taken the frame. -/
def Buffers.SendFails (b : Buffers) (conn : TcpConnection) (os : Platform) : Prop :=
  b.txSent < b.txLen ∧ (conn.Usable → sending (b.txLen - b.txSent) os.sends = .closed ∨
    sending (b.txLen - b.txSent) os.sends = .fault)

private theorem writePending_fails {b : Buffers} (hfit : b.txLen ≤ b.tx.length) (conn : TcpConnection)
    (os : Platform) : (b.writePending conn os.sends).1.toInt < 0 ↔ b.SendFails conn os := by
  by_cases hlt : b.txSent < b.txLen
  · by_cases hu : conn.Usable
    · rw [writePending_status os.sends hfit hu]
      unfold Buffers.SendFails
      cases sending (b.txLen - b.txSent) os.sends <;> simp [Ending.status, Status.toInt, hlt, hu]
    · rw [writePending_unusable hlt hu]
      exact ⟨fun _ => ⟨hlt, fun h => absurd h hu⟩, fun _ => by simp [Status.toInt]⟩
  · rw [writePending_through hlt]
    exact ⟨fun h => absurd h (by simp [Status.toInt]), fun h => absurd h.1 hlt⟩

namespace Session

inductive Call where
  | open (conn : TcpConnection) (timeoutMs now : UInt32)
  | close
  | abort
  | poll (conn : TcpConnection) (os : Platform)

/-- `poll()`, which reads the clock once. -/
def pollOnce (s : Session) (conn : TcpConnection) (os : Platform) : Status × Session × TcpConnection :=
  s.poll conn (os.millis 0) os

def step (s : Session) : Call → Option Session
  | .open conn timeoutMs now => some (s.open conn timeoutMs now).2
  | .close => some s.close.2
  | .abort => some s.abort
  | .poll conn os => some (s.pollOnce conn os).2.1

/-- A session that nothing has been done with, whatever its arrays hold. -/
def Initial (s : Session) : Prop := s = { tx := s.tx, rx := s.rx }

/-- The exchange is over: it does not go on by itself, and a new one can be started. -/
structure Over (s : Session) : Prop where
  ended : s.state = .failed ∨ s.state = .closed
  silent : ∀ later, Silent pollOnce s later
  reopens : ∀ conn timeoutMs now, (s.open conn timeoutMs now).1 ≠ .busy

theorem over_iff_ended (s : Session) : s.Over ↔ s.state = .failed ∨ s.state = .closed := by
  refine ⟨fun h => h.ended, fun h => ⟨h, ?_, ?_⟩⟩
  · rcases h with h | h
    · refine silent_of_kept (show Status.error.toInt < 0 by decide) ?_
      intro conn os
      rw [pollOnce, poll, h]
    · refine silent_of_kept (show Status.closed.toInt < 0 by decide) ?_
      intro conn os
      rw [pollOnce, poll, h]
  · intro conn timeoutMs now
    have hfree : ¬ (s.state = .registering ∨ s.state = .registered) := by
      rcases h with h | h <;> simp [h]
    unfold «open»
    rw [if_neg hfree]
    split <;> simp [startRegister]

/-- The buffers of an exchange hold its whole frame. -/
private theorem ready_of_run {s₀ s : Session} {cs : List Call} (h₀ : s₀.Initial) (h : Run step always s₀ cs s) :
    s.Exchanging → Framed kMaxBodySize s.toBuffers ∧ s.Loaded := by
  refine h.invariant (I := fun s => s.Exchanging → Framed kMaxBodySize s.toBuffers ∧ s.Loaded) ?_ ?_
  · -- an exchange is started by `open()` and `close()` only, and both load the whole frame
    intro s c s' hs _ hstep
    cases c with
    | «open» conn timeoutMs now =>
      obtain ⟨st, s₁, hopen⟩ : ∃ st s₁, s.open conn timeoutMs now = (st, s₁) := ⟨_, _, rfl⟩
      rw [step, hopen, Option.some.injEq] at hstep
      subst hstep
      intro hx
      rcases open_cases hopen with ⟨-, -, rfl⟩ | ⟨-, rfl⟩
      · exact ⟨startRegister_framed _, startRegister_loaded _⟩
      · exact hs hx
    | close =>
      rw [step, Option.some.injEq] at hstep
      subst hstep
      intro hx
      unfold close at hx ⊢
      split
      · exact ⟨startUnregister_framed s, startUnregister_loaded s⟩
      · rename_i hreg
        rw [if_neg hreg] at hx
        split
        · rename_i hexch
          rw [if_pos hexch] at hx
          exact hs hx
        · rename_i hexch
          rw [if_neg hexch] at hx
          rcases hx with hx | hx <;> cases hx
    | abort =>
      obtain rfl := Option.some.inj hstep
      intro hx
      rcases hx with hx | hx <;> cases hx
    | poll conn os =>
      rw [step, Option.some.injEq] at hstep
      subst hstep
      intro hx
      by_cases hbefore : s.Exchanging
      · obtain ⟨st, s₁, conn₁, hp⟩ : ∃ st s₁ conn₁, s.poll conn (os.millis 0) os = (st, s₁, conn₁) := ⟨_, _, _, rfl⟩
        obtain ⟨inp, hpolled⟩ := poll_exchange hbefore (hs hbefore).1 hp
        rw [pollOnce, hp] at hx ⊢
        exact polled_exchanging (hs hbefore).2 hpolled hx
      · rw [pollOnce, poll_settled hbefore] at hx
        exact absurd hx hbefore
  · intro hx
    rw [h₀] at hx
    rcases hx with hx | hx <;> cases hx

/-- A `poll()` that fails ends the exchange, unless it is `writePending()` that failed. -/
private theorem pollExchange_ends {finish : Session → Status × Session}
    (hfinish : ∀ s, (finish s).1.toInt < 0 → (finish s).2.state = .failed) {s : Session} {conn : TcpConnection}
    {os : Platform} (hl : s.Loaded) (hx : s.Exchanging)
    (hst : (pollExchange finish s conn (os.millis 0) os).1.toInt < 0) :
    (pollExchange finish s conn (os.millis 0) os).2.1.Over ↔
      expired (os.millis 0) s.deadline = true ∨ ¬ s.SendFails conn os := by
  have hfails := writePending_fails (Nat.le_of_eq hl.len) conn os
  rw [over_iff_ended]
  unfold pollExchange at hst ⊢
  split
  · rename_i hlate
    exact ⟨fun _ => Or.inl hlate, fun _ => Or.inl rfl⟩
  · rename_i hlate
    rw [if_neg hlate] at hst
    obtain ⟨st₁, b₁, conn₁, hw⟩ : ∃ st b₁ conn₁, s.toBuffers.writePending conn os.sends = (st, b₁, conn₁) :=
      ⟨_, _, _, rfl⟩
    rw [hw] at hst hfails ⊢
    by_cases hok : st₁ = .ok
    · subst hok
      have hsent : ¬ s.SendFails conn os := fun h => absurd (hfails.2 h) (by simp [Status.toInt])
      refine ⟨fun _ => Or.inr hsent, fun _ => Or.inl ?_⟩
      dsimp only at hst ⊢
      split at hst
      · exact absurd hst (by simp [Status.toInt])
      · rename_i b₂ conn₂ hr
        exact hfinish _ hst
      · rename_i st₂ b₂ conn₂ hnp hno hr
        cases st₂ with
        | pending => exact absurd rfl hnp
        | ok => exact absurd rfl hno
        | _ => rfl
    · -- the failure of `writePending()` leaves the state as it is
      cases st₁ with
      | ok => exact absurd rfl hok
      | _ =>
        have hsf := hfails.1 hst
        constructor
        · intro hended
          rcases hx with hx | hx <;> rcases hended with e | e <;> exact absurd (hx.symm.trans e) (by decide)
        · rintro (h | h)
          · exact absurd h hlate
          · exact absurd hsf h

end Session

namespace ExplicitMessage

structure Over (m : ExplicitMessage) : Prop where
  ended : m.state = .failed
  silent : ∀ later, Silent poll m later
  reopens : ∀ conn sessionHandle service path pathLen data dataLen timeoutMs now,
    (m.send conn sessionHandle service path pathLen data dataLen timeoutMs now).1 ≠ .busy

theorem over_of_failed {m : ExplicitMessage} (h : m.state = .failed) : m.Over := by
  refine ⟨h, ?_, ?_⟩
  · refine silent_of_kept (show Status.error.toInt < 0 by decide) ?_
    intro conn os
    rw [poll, h]
  · intro conn sessionHandle service path pathLen data dataLen timeoutMs now
    unfold send
    rw [if_neg (by simp [h])]
    dsimp only
    split
    · simp
    · split <;> simp

/-- An exchange goes on, is done, or has failed, as the status of `poll()` says. -/
theorem poll_state {m : ExplicitMessage} (hin : m.InFlight) (conn : TcpConnection) (os : Platform) :
    ((m.poll conn os).1 = .pending ∧ (m.poll conn os).2.1.InFlight) ∨
      ((m.poll conn os).1 = .ok ∧ (m.poll conn os).2.1.state = .done) ∨
      ((m.poll conn os).1 ≠ .pending ∧ (m.poll conn os).1 ≠ .ok ∧ (m.poll conn os).2.1.state = .failed) := by
  rw [poll_inFlight hin]
  unfold advance
  split
  · exact Or.inr (Or.inr ⟨by simp, by simp, rfl⟩)
  · split
    · dsimp only
      split
      · exact Or.inl ⟨rfl, Or.inr rfl⟩
      · split
        · exact Or.inr (Or.inl ⟨rfl, rfl⟩)
        · rename_i st m' hne hparse
          have hst : st = .error := by
            unfold parseResponse at hparse
            split at hparse
            · exact (Prod.mk.inj hparse).1.symm
            · exact absurd (Prod.mk.inj hparse).1.symm hne
          subst hst
          exact Or.inr (Or.inr ⟨by simp, by simp, rfl⟩)
      · rename_i st b conn₁ hnp hno hr
        exact Or.inr (Or.inr ⟨hnp, hno, rfl⟩)
    · exact Or.inl ⟨rfl, hin⟩
    · rename_i st b conn₁ hno hnp hw
      exact Or.inr (Or.inr ⟨hnp, hno, rfl⟩)

/-- A message that `poll()` does not leave pending is at rest. -/
theorem poll_rested {m : ExplicitMessage} {conn : TcpConnection} {os : Platform}
    (hst : (m.poll conn os).1 ≠ .pending) : ¬ (m.poll conn os).2.1.InFlight := by
  by_cases hin : m.InFlight
  · rcases poll_state hin conn os with ⟨e, -⟩ | ⟨-, e⟩ | ⟨-, -, e⟩
    · exact absurd e hst
    · simp [InFlight, e]
    · simp [InFlight, e]
  · rw [poll_rest hin]
    exact hin

theorem over_of_poll {m : ExplicitMessage} (hin : m.InFlight) {conn : TcpConnection} {os : Platform}
    (hst : (m.poll conn os).1.toInt < 0) : (m.poll conn os).2.1.Over := by
  rcases poll_state hin conn os with ⟨e, -⟩ | ⟨e, -⟩ | ⟨-, -, e⟩
  · rw [e] at hst
    exact absurd hst (by decide)
  · rw [e] at hst
    exact absurd hst (by decide)
  · exact over_of_failed e

end ExplicitMessage

namespace Connection

inductive Call where
  | open (conn : TcpConnection) (sessionHandle : UInt32) (tagName : Option (List UInt8))
      (timeoutMs now random : UInt32)
  | send (sessionHandle : UInt32) (service : UInt8) (path : Option (List UInt8)) (pathLen : Nat)
      (data : Option (List UInt8)) (dataLen : Nat) (timeoutMs now : UInt32)
  | close (conn : TcpConnection) (sessionHandle timeoutMs now : UInt32)
  | poll (conn : TcpConnection) (os : Platform)

/-- What a call returns, and the connection after it. -/
def call (c : Connection) : Call → Status × Connection
  | .open conn sessionHandle tagName timeoutMs now random =>
    c.open conn sessionHandle tagName timeoutMs now random
  | .send sessionHandle service path pathLen data dataLen timeoutMs now =>
    c.send sessionHandle service path pathLen data dataLen timeoutMs now
  | .close conn sessionHandle timeoutMs now => c.close conn sessionHandle timeoutMs now
  | .poll conn os => ((c.poll conn os).1, (c.poll conn os).2.1)

def step (c : Connection) (a : Call) : Option Connection := some (c.call a).2

/-- A connection that nothing has been done with, whatever its arrays hold. -/
def Initial (c : Connection) : Prop := c = { tx := c.tx, rx := c.rx, fwd := { tx := c.fwd.tx, rx := c.fwd.rx } }

/-- `fwd_` is busy only while the connection is being opened or closed. -/
def Engaged (c : Connection) : Prop := c.fwd.InFlight → c.state = .opening ∨ c.state = .closing

structure Over (c : Connection) : Prop where
  ended : c.state = .failed ∨ c.state = .closed
  silent : ∀ later, Silent poll c later
  reopens : ∀ conn sessionHandle tagName timeoutMs now random,
    (c.open conn sessionHandle tagName timeoutMs now random).1 ≠ .busy

/-- `poll()` of a connection that waits for the Connection Manager. -/
theorem pollForward_cases (finish : Connection → Status × Connection) (c : Connection) (conn : TcpConnection)
    (os : Platform) :
    ∃ st fwd conn', c.fwd.poll conn os = (st, fwd, conn') ∧
      ((st = .pending ∧ pollForward finish c conn os = (.pending, { c with fwd := fwd }, conn')) ∨
        (st = .ok ∧ pollForward finish c conn os =
          ((finish { c with fwd := fwd }).1, (finish { c with fwd := fwd }).2, conn')) ∨
        (st ≠ .pending ∧ st ≠ .ok ∧
          pollForward finish c conn os = (st, { c with fwd := fwd, state := .failed }, conn'))) := by
  obtain ⟨st, fwd, conn', hp⟩ : ∃ st fwd conn', c.fwd.poll conn os = (st, fwd, conn') := ⟨_, _, _, rfl⟩
  refine ⟨st, fwd, conn', hp, ?_⟩
  unfold pollForward
  rw [hp]
  cases st with
  | pending => exact Or.inl ⟨rfl, rfl⟩
  | ok => exact Or.inr (Or.inl ⟨rfl, rfl⟩)
  | _ => exact Or.inr (Or.inr ⟨by simp, by simp, rfl⟩)

private theorem engaged_of_rest {c : Connection} (h : ¬ c.fwd.InFlight) : c.Engaged := fun hin => absurd hin h

private theorem engaged_forward {c c' : Connection} {conn : TcpConnection} {sessionHandle timeoutMs now : UInt32}
    {service : UInt8} {data : List UInt8} {next : State} {st : Status} (h : c.Engaged)
    (hnext : next = .opening ∨ next = .closing)
    (hf : c.forward conn sessionHandle service data timeoutMs now next = (st, c')) : c'.Engaged := by
  rcases forward_cases hf with ⟨-, hsent⟩ | ⟨-, rfl, -⟩
  · intro _
    rw [hsent.rest]
    exact hnext
  · exact h

private theorem engaged_pollForward {finish : Connection → Status × Connection}
    (hfinish : ∀ c, (finish c).2.fwd = c.fwd) {c : Connection} (hs : c.state = .opening ∨ c.state = .closing)
    (conn : TcpConnection) (os : Platform) : (pollForward finish c conn os).2.1.Engaged := by
  obtain ⟨st, fwd, conn', hp, hr⟩ := pollForward_cases finish c conn os
  have hrested : st ≠ .pending → ¬ fwd.InFlight := by
    intro hne
    have hrest : (c.fwd.poll conn os).1 ≠ .pending → ¬ (c.fwd.poll conn os).2.1.InFlight :=
      ExplicitMessage.poll_rested
    rw [hp] at hrest
    exact hrest hne
  rcases hr with ⟨-, hr⟩ | ⟨rfl, hr⟩ | ⟨hne, -, hr⟩
  · rw [hr]
    exact fun _ => hs
  · rw [hr]
    apply engaged_of_rest
    rw [hfinish]
    exact hrested (by decide)
  · rw [hr]
    exact engaged_of_rest (hrested hne)

theorem engaged_call {c : Connection} (h : c.Engaged) (a : Call) : (c.call a).2.Engaged := by
  cases a with
  | «open» conn sessionHandle tagName timeoutMs now random =>
    obtain ⟨st, c', hopen⟩ : ∃ st c', c.open conn sessionHandle tagName timeoutMs now random = (st, c') :=
      ⟨_, _, rfl⟩
    rw [call, hopen]
    rcases open_cases hopen with ⟨name, -, -, -, hf⟩ | ⟨-, rfl⟩
    · have hprep : (c.prepared random name).Engaged := h
      exact engaged_forward hprep (Or.inl rfl) hf
    · exact h
  | send sessionHandle service path pathLen data dataLen timeoutMs now =>
    obtain ⟨st, c', hsend⟩ : ∃ st c', c.send sessionHandle service path pathLen data dataLen timeoutMs now =
      (st, c') := ⟨_, _, rfl⟩
    rw [call, hsend]
    rcases send_cases hsend with ⟨-, hsent⟩ | ⟨-, rfl⟩
    · apply engaged_of_rest
      intro hin
      rw [hsent.made] at hin
      rcases h hin with e | e <;> rw [hsent.opened] at e <;> cases e
    · exact h
  | close conn sessionHandle timeoutMs now =>
    obtain ⟨st, c', hclose⟩ : ∃ st c', c.close conn sessionHandle timeoutMs now = (st, c') := ⟨_, _, rfl⟩
    rw [call, hclose]
    rcases close_cases hclose with ⟨-, hf⟩ | ⟨-, -, rfl⟩
    · exact engaged_forward h (Or.inr rfl) hf
    · exact h
  | poll conn os =>
    change (c.poll conn os).2.1.Engaged
    by_cases hx : c.state = .opening ∨ c.state = .closing
    · rcases hx with hs | hs
      · have hpoll : c.poll conn os = pollForward finishOpen c conn os := by
          rw [poll, hs]
          rfl
        rw [hpoll]
        exact engaged_pollForward finishOpen_fwd (Or.inl hs) conn os
      · have hpoll : c.poll conn os = pollForward finishClose c conn os := by
          rw [poll, hs]
          rfl
        rw [hpoll]
        exact engaged_pollForward (fun _ => rfl) (Or.inr hs) conn os
    · -- `fwd_` is at rest, whether it is polled or not
      have hfree : ¬ c.fwd.InFlight := fun hin => hx (h hin)
      apply engaged_of_rest
      rcases c.poll_fwd conn os with ⟨st, hp⟩ | e
      · rw [ExplicitMessage.poll_rest hfree, Prod.mk.injEq, Prod.mk.injEq] at hp
        rw [← hp.2.1]
        exact hfree
      · rw [e]
        exact hfree

theorem engaged_of_run {c₀ c : Connection} {as : List Call} (h₀ : c₀.Initial) (h : Run step always c₀ as c) :
    c.Engaged := by
  refine h.invariant ?_ ?_
  · intro s a s' hs _ hstep
    obtain rfl := Option.some.inj hstep
    exact engaged_call hs a
  · apply engaged_of_rest
    rw [h₀]
    simp [ExplicitMessage.InFlight]

private theorem over_of_ended {c : Connection} (h : c.state = .failed ∨ c.state = .closed)
    (hfree : ¬ c.fwd.InFlight) : c.Over := by
  refine ⟨h, ?_, ?_⟩
  · rcases h with h | h
    · refine silent_of_kept (show Status.error.toInt < 0 by decide) ?_
      intro conn os
      rw [poll, h]
    · refine silent_of_kept (show Status.closed.toInt < 0 by decide) ?_
      intro conn os
      rw [poll, h]
  · intro conn sessionHandle tagName timeoutMs now random
    obtain ⟨st, c', hopen⟩ : ∃ st c', c.open conn sessionHandle tagName timeoutMs now random = (st, c') :=
      ⟨_, _, rfl⟩
    rw [hopen]
    show st ≠ .busy
    rcases open_cases hopen with ⟨name, -, -, -, hf⟩ | ⟨e | ⟨-, hin⟩, -⟩
    · rcases forward_cases hf with ⟨e, -⟩ | ⟨-, -, hwhy⟩
      · simp [e]
      · rcases hwhy (Nat.le_trans (length_openData _ _) (by decide)) with ⟨-, hin⟩ | ⟨e, -⟩
        · exact absurd hin hfree
        · simp [e]
    · simp [e]
    · rcases h with h | h <;> simp [InFlight, h] at hin

/-- `poll()` of an exchange that returns a failure leaves the connection failed. -/
theorem poll_fails {c : Connection} (hin : c.InFlight) {conn : TcpConnection} {os : Platform}
    (hst : (c.poll conn os).1.toInt < 0) : (c.poll conn os).2.1.state = .failed := by
  have hforward : ∀ finish : Connection → Status × Connection,
      (∀ c, (finish c).1.toInt < 0 → (finish c).2.state = .failed) → c.poll conn os = pollForward finish c conn os →
      (c.poll conn os).2.1.state = .failed := by
    intro finish hfinish hpoll
    obtain ⟨st, fwd, conn', -, hr⟩ := pollForward_cases finish c conn os
    rw [hpoll] at hst ⊢
    rcases hr with ⟨-, hr⟩ | ⟨-, hr⟩ | ⟨-, -, hr⟩
    · rw [hr] at hst
      exact absurd hst (by simp [Status.toInt])
    · rw [hr] at hst ⊢
      exact hfinish _ hst
    · rw [hr]
  rcases hin with hs | hs | hs
  · refine hforward finishOpen ?_ (by rw [poll, hs]; rfl)
    intro c' hneg
    rcases finishOpen_cases c' with ⟨-, e⟩ | ⟨-, e⟩
    · rw [e] at hneg
      exact absurd hneg (by simp [Status.toInt])
    · rw [e]
  · have hpoll : c.poll conn os = c.pollSending conn os := by rw [poll, hs]
    rw [hpoll] at hst ⊢
    unfold pollSending at hst ⊢
    split
    · rfl
    · rename_i hlate
      rw [if_neg hlate] at hst
      split at hst
      · split at hst
        · exact absurd hst (by simp [Status.toInt])
        · dsimp only at hst ⊢
          rw [if_neg]
          intro hok
          rw [hok] at hst
          exact absurd hst (by simp [Status.toInt])
        · rfl
      · exact absurd hst (by simp [Status.toInt])
      · rfl
  · refine hforward finishClose ?_ (by rw [poll, hs]; rfl)
    intro c' hneg
    exact absurd hneg (by simp [finishClose, Status.toInt])

theorem over_of_poll {c : Connection} (h : c.Engaged) (hin : c.InFlight) {conn : TcpConnection} {os : Platform}
    (hst : (c.poll conn os).1.toInt < 0) : (c.poll conn os).2.1.Over := by
  have hfailed := poll_fails hin hst
  apply over_of_ended (Or.inl hfailed)
  intro hbusy
  rcases engaged_call h (.poll conn os) hbusy with e | e <;> exact absurd (hfailed.symm.trans e) (by decide)

end Connection

/-! ### Errors absorb -/

section Errors

theorem Session.over_iff {s₀ s : Session} {cs : List Session.Call} (h₀ : s₀.Initial)
    (h : Run Session.step always s₀ cs s) (hx : s.Exchanging) {conn : TcpConnection} {os : Platform}
    (hst : (s.pollOnce conn os).1.toInt < 0) :
    (s.pollOnce conn os).2.1.Over ↔ expired (os.millis 0) s.deadline = true ∨ ¬ s.SendFails conn os := by
  obtain ⟨-, hl⟩ := Session.ready_of_run h₀ h hx
  rcases hx with hs | hs
  · have hpoll : s.pollOnce conn os = Session.pollExchange Session.finishRegister s conn (os.millis 0) os := by
      rw [Session.pollOnce, Session.poll, hs]
      rfl
    rw [hpoll] at hst ⊢
    refine Session.pollExchange_ends ?_ hl (Or.inl hs) hst
    intro s' hneg
    unfold Session.finishRegister at hneg ⊢
    dsimp only at hneg ⊢
    split at hneg
    · rename_i hbad
      rw [if_pos hbad]
    · rename_i hgood
      rw [if_neg hgood]
      split at hneg
      · rename_i hzero
        rw [if_pos hzero]
      · exact absurd hneg (by simp [Status.toInt])
  · have hpoll : s.pollOnce conn os = Session.pollExchange Session.finishUnregister s conn (os.millis 0) os := by
      rw [Session.pollOnce, Session.poll, hs]
      rfl
    rw [hpoll] at hst ⊢
    refine Session.pollExchange_ends ?_ hl (Or.inr hs) hst
    intro s' hneg
    exact absurd hneg (by simp [Session.finishUnregister, Status.toInt])

/-- A `poll()` that fails ends the exchange: of an `ExplicitMessage` and of a `Connection` always, of a `Session`
exactly when it is not `writePending()` that failed. -/
theorem errors_absorb (conn : TcpConnection) (os : Platform) :
    (∀ (s₀ s : Session) (cs : List Session.Call), s₀.Initial → Run Session.step always s₀ cs s → s.Exchanging →
      (s.pollOnce conn os).1.toInt < 0 →
        ((s.pollOnce conn os).2.1.Over ↔ expired (os.millis 0) s.deadline = true ∨ ¬ s.SendFails conn os)) ∧
    (∀ m : ExplicitMessage, m.InFlight → (m.poll conn os).1.toInt < 0 → (m.poll conn os).2.1.Over) ∧
    (∀ (c₀ c : Connection) (as : List Connection.Call), c₀.Initial → Run Connection.step always c₀ as c → c.InFlight →
      (c.poll conn os).1.toInt < 0 → (c.poll conn os).2.1.Over) := by
  refine ⟨?_, ?_, ?_⟩
  · intro s₀ s cs h₀ h hx hst
    exact Session.over_iff h₀ h hx hst
  · intro m hin hst
    exact ExplicitMessage.over_of_poll hin hst
  · intro c₀ c as h₀ h hin hst
    exact Connection.over_of_poll (Connection.engaged_of_run h₀ h) hin hst

/-- A socket that is up, and at which a RegisterSession response waits. -/
def answeredSocket : TcpConnection :=
  { fd := 3, state := .ok
    sock := { inbox := encodeHeader { Session.registerHeader 1 with session := 7 } ++ [1, 0, 0, 0] } }

def registering : Session := after Session.step {} [.open answeredSocket 5000 0]

private theorem registering_run : Run Session.step always {} [.open answeredSocket 5000 0] registering :=
  run_after (by decide +kernel)

/-- The clock reads 10 and the first `lwip_send` fails. -/
def broken : Platform := { millis := fun _ => 10, sends := [.failed (.other 5)] }

/-- The clock reads 20, and everything goes through. -/
def mended : Platform := { millis := fun _ => 20, sends := [.accepted 28], recvs := [.data 23, .data 3] }

theorem errors_absorb_broken :
    ((registering.pollOnce answeredSocket broken).2.1.Over ↔
      expired 10 registering.deadline = true ∨ ¬ registering.SendFails answeredSocket broken) ∧
    (ExplicitMessage.poll { state := .sending, txLen := 1 } {} {}).2.1.Over ∧
    (Connection.poll (after Connection.step {} [.open answeredSocket 7 (some [77]) 5000 0 0]) {} {}).2.1.Over :=
  ⟨(errors_absorb answeredSocket broken).1 {} registering _ rfl registering_run (Or.inl (by decide +kernel))
      (by decide +kernel),
    (errors_absorb {} {}).2.1 _ (Or.inl rfl) (by decide +kernel),
    (errors_absorb {} {}).2.2 {} _ _ rfl (run_after (by decide +kernel)) (Or.inl (by decide +kernel))
      (by decide +kernel)⟩

/-- `poll()` returns `Error`, and the next one completes the exchange that failed. -/
theorem error_overcome : ¬ ∀ (s₀ s : Session) (cs : List Session.Call), s₀.Initial → Run Session.step always s₀ cs s →
    s.Exchanging → ∀ conn os, (s.pollOnce conn os).1.toInt < 0 → (s.pollOnce conn os).2.1.Over := by
  intro hall
  have hover := hall {} registering _ rfl registering_run (Or.inl (by decide +kernel)) answeredSocket broken
    (by decide +kernel)
  have hok : ((registering.pollOnce answeredSocket broken).2.1.pollOnce answeredSocket mended).1 = .ok := by
    decide +kernel
  have hfails := (hover.silent [(answeredSocket, mended)]).1
  rw [hok] at hfails
  exact absurd hfails (by decide)

end Errors

end ControlLogix
