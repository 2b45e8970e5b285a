import ControlLogix.Site
import ControlLogix.Timeouts
import Mathlib.Order.Monotone.Basic

/-!
# From `connect()` to `Ready` and back

A client that dials the synthetic server over a network that works.

* `brought_up`: however the transfers are split, the client becomes ready before the timeout, with the handle of the
  server;
* `taken_down`: a `disconnect()` that is over before the deadline of the session ends in `Idle`.
-/

namespace ControlLogix

open Bytes
open Buffers (atOnce bodyLength received)
open PlcClient (Unmoved SameTags)

variable {n : Nat}

/-! ### A network that works -/

/-- The socket is created, and the connection is made at once or in progress. -/
structure ConnectAnswers.Dial (a : ConnectAnswers) : Prop where
  socket : 0 ≤ a.socket
  flags : 0 ≤ a.getFlags ∧ 0 ≤ a.setFlags
  connect : 0 ≤ a.connect ∨ a.errno = .einprogress

/-- The connection is still in progress, or it has been made. -/
structure PollAnswers.Go (a : PollAnswers) : Prop where
  select : 0 ≤ a.select
  getsockopt : 0 ≤ a.getsockopt
  soError : a.soError = 0

/-- The clock is read in order, less than `timeoutMs` milliseconds after `start`. -/
def Platform.Between (start timeoutMs : UInt32) (os : Platform) : Prop :=
  ∃ e : Nat → Nat, (∀ k, e k ≤ e (k + 1)) ∧ (∀ k, e k < timeoutMs.toNat) ∧ ∀ k,
  os.millis k = start + UInt32.ofNat (e k)

structure Platform.Fine (start timeoutMs : UInt32) (os : Platform) : Prop where
  up : os.Up
  go : os.poll.Go
  between : os.Between start timeoutMs

def Move.Fine (start timeoutMs : UInt32) : Move → Prop
  | .poll os => os.Fine start timeoutMs
  | .serve | .deliver _ => True

/-- Calls of `poll()` for which nothing is split and the connection has been made. -/
def arrive (millis : Nat → UInt32) : List Move := .poll (atOnce millis) :: flush millis

section Clock

variable {start timeoutMs : UInt32} {os : Platform}

theorem Platform.Between.early (h : os.Between start timeoutMs) (hshort : timeoutMs.toNat ≤ 2 ^ 30) (k : Nat)
    {d : Nat} (hd : d < timeoutMs.toNat) :
    expired (os.millis k) (start + UInt32.ofNat (timeoutMs.toNat + d)) = false := by
  obtain ⟨e, -, hlt, hmillis⟩ := h
  have hk := hlt k
  rw [hmillis]
  apply Bool.eq_false_iff.2
  intro hlate
  rw [expired_early start (by omega) (by omega)] at hlate
  omega

theorem Platform.Between.before (h : os.Between start timeoutMs) (hshort : timeoutMs.toNat ≤ 2 ^ 30) (k : Nat) :
    expired (os.millis k) (start + timeoutMs) = false := by
  have hpos : 0 < timeoutMs.toNat := by
    obtain ⟨e, -, hlt, -⟩ := h
    exact Nat.lt_of_le_of_lt (Nat.zero_le _) (hlt 0)
  have hearly := h.early hshort k hpos
  rwa [Nat.add_zero, UInt32.ofNat_toNat] at hearly

/-- The timeout that is handed on is counted from a later reading. -/
theorem Platform.Between.handed (h : os.Between start timeoutMs) {j k : Nat} (hjk : j ≤ k) :
    ∃ d, d < timeoutMs.toNat ∧ os.millis k + (start + timeoutMs - os.millis j) =
      start + UInt32.ofNat (timeoutMs.toNat + d) := by
  obtain ⟨e, hmono, hlt, hmillis⟩ := h
  have hle : e j ≤ e k := monotone_nat_of_le_succ hmono hjk
  have hk := hlt k
  refine ⟨e k - e j, by omega, ?_⟩
  have hsplit : UInt32.ofNat (e k) = UInt32.ofNat (e k - e j) + UInt32.ofNat (e j) := by
    rw [← UInt32.ofNat_add, Nat.sub_add_cancel hle]
  rw [hmillis, hmillis, hsplit, UInt32.ofNat_add, UInt32.ofNat_toNat]
  grind

end Clock

/-! ### The session at the server -/

namespace SyntheticServer

def registered (context : UInt64) : List UInt8 :=
  packet .registerSession sessionHandle 0 context (putU16 1 ++ putU16 0)

def unregistered (context : UInt64) : List UInt8 := packet .unregisterSession 0 0 context []

theorem handle_registerFrame (s : SyntheticServer) (context : UInt64) :
    s.handle (Session.registerFrame context) = (s, registered context) := by
  unfold handle
  rw [Session.decode_registerFrame]
  exact if_pos rfl

theorem handle_unregisterFrame (s : SyntheticServer) (handle : UInt32) (context : UInt64) :
    s.handle (Session.unregisterFrame handle context) = (s, unregistered context) := by
  have hne : (Session.unregisterHeader handle context).command ≠ Command.registerSession.code := by
    show Command.unregisterSession.code ≠ Command.registerSession.code
    decide
  unfold SyntheticServer.handle
  rw [Session.decode_unregisterFrame]
  dsimp only
  rw [if_neg hne]
  exact if_pos rfl

end SyntheticServer

namespace Session

theorem whole_registerFrame (context : UInt64) : WholeFrame (registerFrame context) := by
  rw [WholeFrame, bodyLength, decode_registerFrame]
  rfl

theorem whole_unregisterFrame (handle : UInt32) (context : UInt64) : WholeFrame (unregisterFrame handle context) := by
  rw [WholeFrame, bodyLength, decode_unregisterFrame]
  rfl

/-- The reply of the server registers the session. -/
theorem conclude_registered {s : Session} (hs : s.state = .registering) (context : UInt64) :
    ∃ s' : Session,
    machine.conclude (machine.put s (received machine.cap s.toBuffers (SyntheticServer.registered context)))
      .ok = (.ok, s') ∧ s'.state = .registered ∧ s'.handle = SyntheticServer.sessionHandle ∧
        s'.context = s.context := by
  obtain ⟨hwhole, hbody⟩ := SyntheticServer.whole_packet .registerSession SyntheticServer.sessionHandle 0 context
    (show (putU16 1 ++ putU16 0).length < 2 ^ 16 by decide)
  have hfits : bodyLength (SyntheticServer.registered context) ≤ machine.cap := by
    rw [SyntheticServer.registered, hbody]
    decide
  obtain ⟨hrx, -⟩ := received_whole hwhole hfits s.toBuffers
  have hdecode := SyntheticServer.decode_packet .registerSession SyntheticServer.sessionHandle 0 context
    (putU16 1 ++ putU16 0) (s.rx.drop (SyntheticServer.registered context).length)
  change (received machine.cap s.toBuffers (SyntheticServer.registered context)).rx = _ at hrx
  generalize received machine.cap s.toBuffers (SyntheticServer.registered context) = b at hrx ⊢
  have hput : (machine.put s b).state = .registering := hs
  have hheader : decodeHeader (machine.put s b).rx =
      { command := Command.registerSession.code, length := 4, session := SyntheticServer.sessionHandle, status := 0,
        context := context, options := 0 } := by
    change decodeHeader b.rx = _
    rw [hrx]
    exact hdecode
  refine ⟨{ machine.put s b with handle := SyntheticServer.sessionHandle, state := .registered }, ?_, rfl, rfl, rfl⟩
  show (machine.put s b).finish = _
  rw [finish, if_pos hput, finishRegister, hheader]
  rfl

/-- Any reply ends the session. -/
theorem conclude_unregistered {s : Session} (hs : s.state = .unregistering) (b : Buffers) :
    ∃ s' : Session, machine.conclude (machine.put s b) .ok = (.ok, s') ∧ s'.state = .closed := by
  have hput : (machine.put s b).state ≠ .registering := by
    change s.state ≠ .registering
    rw [hs]
    decide
  refine ⟨{ machine.put s b with state := .closed }, ?_, rfl⟩
  show (machine.put s b).finish = _
  rw [finish, if_neg hput]
  rfl

end Session

/-! ### What `poll()` makes of the exchange -/

namespace PlcClient

/-- Neither a tag nor the shared message has changed. -/
structure TagsKept (p p' : PlcClient n) : Prop where
  slots : ∀ j, ∃ st, p'.slots j = { p.slots j with prevStatus := st }
  msg : p'.msg = p.msg

theorem TagsKept.refl (p : PlcClient n) : TagsKept p p := ⟨fun _ => ⟨_, rfl⟩, rfl⟩

theorem TagsKept.trans {p p' p'' : PlcClient n} (h : TagsKept p p') (h' : TagsKept p' p'') : TagsKept p p'' := by
  refine ⟨fun j => ?_, h'.msg.trans h.msg⟩
  obtain ⟨st, hst⟩ := h.slots j
  obtain ⟨st', hst'⟩ := h'.slots j
  refine ⟨st', ?_⟩
  rw [hst', hst]

theorem TagsKept.tag {p p' : PlcClient n} (h : TagsKept p p') (j : Fin n) : (p'.slots j).tag = (p.slots j).tag := by
  obtain ⟨st, hst⟩ := h.slots j
  rw [hst]

theorem TagsKept.of_same {p p' : PlcClient n} (hslots : p'.slots = p.slots) (hmsg : p'.msg = p.msg) :
    TagsKept p p' := by
  refine ⟨fun j => ⟨(p.slots j).prevStatus, ?_⟩, hmsg⟩
  rw [hslots]

theorem TagsKept.of_unmoved {p p' : PlcClient n} (h : Unmoved p p') : TagsKept p p' := by
  refine ⟨h.slots, ?_⟩
  rw [h.same]

/-- The readings that are left for the session. -/
def later (os : Platform) : Platform := { os with millis := fun k => os.millis (k + 1) }

/-- `poll()` goes on with the exchange of the session that `session` tells. -/
structure Exchanges (state : State) (deadline : UInt32) (p₀ : PlcClient n) (session : Session) (p : PlcClient n) :
    Prop where
  state : p.state = state
  session : p.session = session
  deadline : p.deadline = deadline
  kept : TagsKept p₀ p

section Poll

variable {p p₀ : PlcClient n} {os : Platform} {st : Status} {x' : Session} {conn' : TcpConnection}

private theorem poll_later (x : Session) (conn : TcpConnection) (os : Platform) :
    Session.machine.poll x conn (later os) = x.poll conn (os.millis 1) os := rfl

theorem poll_registering (hs : p.state = .registering) (hnow : expired (os.millis 0) p.deadline = false)
    (hp : Session.machine.poll p.session p.tcp (later os) = (st, x', conn')) (hst : st = .pending ∨ st = .ok) :
    (p.poll os).2 =
      { p with session := x', tcp := conn', state := if st = .ok then .ready else .registering } := by
  have hstate : p.pollState os = some (p.pollRegistering os) := by rw [pollState, hs]
  rw [poll_later] at hp
  rw [poll, hstate, pollRegistering, if_neg (by simp [hnow]), hp]
  rcases hst with rfl | rfl
  · rw [← hs]
    rfl
  · rfl

theorem poll_disconnecting (os : Platform) (hs : p.state = .disconnecting)
    (hp : Session.machine.poll p.session p.tcp os = (st, x', conn')) :
    (p.poll os).2 =
      if st = .ok ∨ st = .closed then { p with session := x', tcp := conn'.close, state := .idle }
      else { p with session := x', tcp := conn' } := by
  have hstate : p.pollState os = some (p.pollDisconnecting os) := by rw [pollState, hs]
  have hpoll : p.session.poll p.tcp (os.millis 0) os = (st, x', conn') := hp
  rw [poll, hstate, pollDisconnecting, hpoll]
  dsimp only
  split <;> rfl

theorem follows_registering (deadline : UInt32) (p₀ : PlcClient n) :
    Site.Follows Session.machine.poll later (fun os => expired (os.millis 0) deadline = false)
      (Exchanges .registering deadline p₀) := by
  constructor
  · intro x p conn h
    exact ⟨h.state, h.session, h.deadline, h.kept.slots, h.kept.msg⟩
  · intro x p os x' conn' h hnow hp
    obtain ⟨hs, rfl, rfl, hkept⟩ := h
    have hpoll := poll_registering hs hnow hp (Or.inl rfl)
    rw [hpoll]
    exact ⟨⟨rfl, rfl, rfl, hkept.slots, hkept.msg⟩, rfl, Session.poll_sockets hp⟩

theorem follows_disconnecting (deadline : UInt32) (p₀ : PlcClient n) :
    Site.Follows Session.machine.poll id (fun _ => True) (Exchanges .disconnecting deadline p₀) := by
  constructor
  · intro x p conn h
    exact ⟨h.state, h.session, h.deadline, h.kept.slots, h.kept.msg⟩
  · intro x p os x' conn' h _ hp
    obtain ⟨hs, rfl, hdeadline, hkept⟩ := h
    have hpoll := poll_disconnecting os hs hp
    rw [if_neg (by decide)] at hpoll
    rw [hpoll]
    exact ⟨⟨hs, rfl, hdeadline, hkept.slots, hkept.msg⟩, rfl, Session.poll_sockets hp⟩

end Poll

end PlcClient

namespace Site

open PlcClient (TagsKept Exchanges later)

/-- The client is ready with the handle of the server, and nothing is going on. -/
structure Standing (s : Site n) : Prop where
  ready : s.plc.state = .ready
  registered : s.plc.session.state = .registered
  handle : s.plc.session.handle = SyntheticServer.sessionHandle
  quiet : s.link.Quiet
  rest : ∀ i, ¬ (s.plc.slots i).tag.InFlight
  free : ¬ s.plc.msg.InFlight

/-- Whatever the network does, a site where nothing is going on stays as it is. -/
theorem standing_move {s : Site n} (h : Standing s) (m : Move) :
    Standing (s.move m) ∧ Unmoved s.plc (s.move m).plc ∧ (s.move m).link = s.link ∧ (s.move m).server = s.server := by
  cases m with
  | poll os =>
    obtain ⟨-, hunmoved⟩ := PlcClient.poll_rest h.ready h.rest os
    have hsame := hunmoved.same
    have htcp : (s.plc.poll os).2.tcp = s.plc.tcp := by rw [hsame]
    have hmove : s.move (.poll os) = { s with plc := (s.plc.poll os).2 } := attach_same (by rw [htcp])
    have hlink : (s.move (.poll os)).link = s.link := by
      rw [hmove, link, htcp]
      rfl
    refine ⟨⟨?_, ?_, ?_, ?_, fun i => ?_, ?_⟩, ?_, hlink, ?_⟩
    · rw [hmove, hsame]
      exact h.ready
    · rw [hmove, hsame]
      exact h.registered
    · rw [hmove, hsame]
      exact h.handle
    · rw [hlink]
      exact h.quiet
    · rw [hmove, hunmoved.tag i]
      exact h.rest i
    · rw [hmove, hsame]
      exact h.free
    · rw [hmove]
      exact hunmoved
    · rw [hmove]
  | serve =>
    rw [move_quiet h.quiet (fun os hm => by cases hm)]
    exact ⟨h, .refl _, rfl, rfl⟩
  | deliver k =>
    rw [move_quiet h.quiet (fun os hm => by cases hm)]
    exact ⟨h, .refl _, rfl, rfl⟩

theorem standing_moves {s : Site n} (h : Standing s) (ms : List Move) :
    Standing (s.moves ms) ∧ Unmoved s.plc (s.moves ms).plc ∧ (s.moves ms).link = s.link ∧
      (s.moves ms).server = s.server := by
  induction ms generalizing s with
  | nil => exact ⟨h, .refl _, rfl, rfl⟩
  | cons m ms ih =>
    obtain ⟨hs, hunmoved, hlink, hserver⟩ := standing_move h m
    obtain ⟨hs', hunmoved', hlink', hserver'⟩ := ih hs
    exact ⟨hs', hunmoved.trans hunmoved', hlink'.trans hlink, hserver'.trans hserver⟩

/-! ### Registering -/

/-- The exchange with the server that registers the session. -/
inductive Enrolling (start timeoutMs : UInt32) (p₀ : PlcClient n) (v : SyntheticServer) (s : Site n) : Prop where
  | mk {x₀ x : Session} {conn₀ : TcpConnection}
      (started : Session.machine.Started x₀ (Session.registerFrame x₀.context)) (state : x₀.state = .registering)
      (deadline : ∃ d, d < timeoutMs.toNat ∧ x₀.deadline = start + UInt32.ofNat (timeoutMs.toNat + d))
      (exchanges : Exchanges .registering (start + timeoutMs) p₀ x s.plc)
      (phase : Link.Phase Session.machine x₀ conn₀ (SyntheticServer.registered x₀.context) v v x s.link s.server)

/-- The client has been brought up; nothing else has changed. -/
structure Risen (p₀ : PlcClient n) (v : SyntheticServer) (s : Site n) : Prop where
  standing : Standing s
  kept : TagsKept p₀ s.plc
  server : s.server = v

section Enrolling

variable {start timeoutMs : UInt32} {p₀ : PlcClient n} {v : SyntheticServer} {s : Site n} {ms : List Move}
  {millis : Nat → UInt32}

theorem Risen.moves (h : Risen p₀ v s) (ms : List Move) : Risen p₀ v (s.moves ms) := by
  obtain ⟨hs, hunmoved, -, hserver⟩ := standing_moves h.standing ms
  exact ⟨hs, h.kept.trans (.of_unmoved hunmoved), hserver.trans h.server⟩

theorem whole_registered (context : UInt64) : WholeFrame (SyntheticServer.registered context) ∧
    bodyLength (SyntheticServer.registered context) ≤ Session.machine.cap := by
  obtain ⟨hwhole, hbody⟩ := SyntheticServer.whole_packet .registerSession SyntheticServer.sessionHandle 0 context
    (show (putU16 1 ++ putU16 0).length < 2 ^ 16 by decide)
  refine ⟨hwhole, ?_⟩
  change bodyLength (SyntheticServer.registered context) = _ at hbody
  rw [hbody]
  decide

/-- The `poll()` that ends the exchange brings the client up. -/
private theorem risen_poll {x₀ x x' : Session} {os : Platform} {st : Status} {l' : Link}
    (hrest : ∀ i, ¬ (p₀.slots i).tag.InFlight) (hfree : ¬ p₀.msg.InFlight) (hstate : x₀.state = .registering)
    (hx : Exchanges .registering (start + timeoutMs) p₀ x s.plc)
    (hnow : expired (os.millis 0) (start + timeoutMs) = false)
    (hpoll : Session.machine.poll x s.plc.tcp (later os) = (st, x', l'.conn))
    (hended : Link.Ended Session.machine x₀ (SyntheticServer.registered x₀.context) st x')
    (hlink : l' = { s.link with conn := l'.conn }) (hquiet : l'.Quiet) (hserver : s.server = v) :
    Risen p₀ v (s.move (.poll os)) := by
  obtain ⟨x₁, hconclude, hregistered, hhandle, -⟩ := Session.conclude_registered hstate x₀.context
  have hdone := hended.concluded
  rw [show Session.machine.buffers x₀ = x₀.toBuffers from rfl, hconclude, Prod.mk.injEq] at hdone
  obtain ⟨rfl, rfl⟩ := hdone
  obtain ⟨hs, rfl, hdeadline, hkept⟩ := hx
  rw [← hdeadline] at hnow
  have hpolled := PlcClient.poll_registering hs hnow hpoll (Or.inr rfl)
  have hsockets := Session.poll_sockets hpoll
  have hmove : s.move (.poll os) =
    { s with plc := { s.plc with session := x', tcp := l'.conn, state := .ready } } := by
    rw [move, attach_same (by rw [hpolled]; exact hsockets), hpolled]
    rfl
  rw [hmove]
  refine ⟨⟨rfl, hregistered, hhandle, ?_, fun i => ?_, ?_⟩, ⟨hkept.slots, hkept.msg⟩, hserver⟩
  · change Link.Quiet { s.link with conn := l'.conn }
    rw [← hlink]
    exact hquiet
  · rw [hkept.tag i]
    exact hrest i
  · rw [hkept.msg]
    exact hfree

private theorem enrolling_followed (hrest : ∀ i, ¬ (p₀.slots i).tag.InFlight) (hfree : ¬ p₀.msg.InFlight)
    (hshort : timeoutMs.toNat ≤ 2 ^ 30) (h : Enrolling start timeoutMs p₀ v s)
    (hms : ∀ m ∈ ms, m.Fine start timeoutMs) :
    (Enrolling start timeoutMs p₀ v (s.moves ms) ∧ ∀ millis, ms ≠ flush millis) ∨ Risen p₀ v (s.moves ms) := by
  obtain ⟨hstarted, hstate, ⟨d, hd, hdeadline⟩, hx, hphase⟩ := h
  rename_i x₀ x conn₀
  obtain ⟨hwhole, hfits⟩ := whole_registered x₀.context
  have hhandle := v.handle_registerFrame x₀.context
  have hframe := Session.whole_registerFrame x₀.context
  have hfine : ∀ os, Move.poll os ∈ ms → expired (os.millis 0) (start + timeoutMs) = false := by
    intro os hos
    have hos : os.Fine start timeoutMs := hms _ hos
    exact hos.between.before hshort 0
  have htime : ∀ m ∈ ms.map (Move.map later), m.InTime (Session.machine.deadline x₀) := by
    intro m hm
    obtain ⟨m₀, hm₀, rfl⟩ := List.mem_map.1 hm
    cases m₀ with
    | poll os =>
      have hos : os.Fine start timeoutMs := hms _ hm₀
      refine ⟨⟨hos.up.sends, hos.up.recvs⟩, ?_⟩
      change expired (os.millis 1) x₀.deadline = false
      rw [hdeadline]
      exact hos.between.early hshort 1 hd
    | serve => trivial
    | deliver k => trivial
  obtain ⟨st, x', l', v', hcon⟩ : ∃ st x' l' v', Link.converse Session.machine.poll SyntheticServer.handle x s.link
    s.server (ms.map (Move.map later)) = (st, x', l', v') := ⟨_, _, _, _, rfl⟩
  have hfollowed := moves_converse (PlcClient.follows_registering _ p₀) hx hfine hcon
  have hcases := Link.converse_cases hstarted hframe hhandle hwhole hfits hphase htime hcon
  cases hfollowed with
  | goesOn holds link server =>
    rcases hcases with ⟨-, hphase'⟩ | ⟨hended, -⟩
    · rw [← link, ← server] at hphase'
      refine Or.inl ⟨⟨hstarted, hstate, ⟨d, hd, hdeadline⟩, holds, hphase'⟩, ?_⟩
      rintro millis rfl
      have hnow := htime (.poll (atOnce fun k => millis (k + 1))) List.mem_cons_self
      exact absurd rfl (Link.flush_ends hstarted hframe hhandle hwhole hfits hphase hnow.2 hcon)
    · exact absurd rfl hended.status
  | @ended _ hne used rest os x₁ split holds polled link server =>
    rcases hcases with ⟨rfl, -⟩ | ⟨hended, hquiet, rfl⟩
    · exact absurd rfl hne
    · have hos := hfine os (by rw [split]; exact List.mem_append_right _ List.mem_cons_self)
      have hrisen := risen_poll hrest hfree hstate holds hos polled hended link hquiet server
      rw [split, moves_append, moves_cons]
      exact Or.inr (hrisen.moves rest)

end Enrolling

/-! ### Dialling -/

/-- The TCP connection is being made, and nothing has passed over it. -/
structure Dialling (start timeoutMs : UInt32) (p₀ : PlcClient n) (v : SyntheticServer) (s : Site n) : Prop where
  state : s.plc.state = .connecting
  deadline : s.plc.deadline = start + timeoutMs
  fd : 0 ≤ s.plc.tcp.fd
  pending : s.plc.tcp.state = .pending
  sock : s.plc.tcp.sock = {}
  tcpDeadline : ∃ d, d < timeoutMs.toNat ∧ s.plc.tcp.deadline = start + UInt32.ofNat (timeoutMs.toNat + d)
  session : s.plc.session.state = .closed
  kept : TagsKept p₀ s.plc
  handled : s.handled = 0
  wire : s.wire = []
  server : s.server = v

section Dialling

variable {start timeoutMs : UInt32} {p₀ : PlcClient n} {v : SyntheticServer} {s : Site n} {ms : List Move}
  {os : Platform}

/-- While `select()` says nothing. -/
private theorem tcp_poll_waits {t : TcpConnection} (hfd : 0 ≤ t.fd) (hs : t.state = .pending) {a : PollAnswers}
    (hselect : a.select = 0) (now : UInt32) (hnow : expired now t.deadline = false) :
    t.poll a now = (.pending, { t with calls := .use t.fd :: t.calls }) := by
  unfold TcpConnection.poll
  rw [if_neg (by omega), if_neg (by simp [hs])]
  dsimp only
  rw [if_neg (by omega), if_pos hselect, if_neg (by simp [hnow])]

/-- The connection has been made. -/
private theorem tcp_poll_made {t : TcpConnection} (hfd : 0 ≤ t.fd) (hs : t.state = .pending) {a : PollAnswers}
    (ha : a.Go) (hselect : a.select ≠ 0) (now : UInt32) :
    t.poll a now = (.ok, { t with calls := .use t.fd :: .use t.fd :: t.calls, state := .ok }) := by
  have hpos := ha.select
  have hget := ha.getsockopt
  unfold TcpConnection.poll
  rw [if_neg (by omega), if_neg (by simp [hs])]
  dsimp only
  rw [if_neg (by omega), if_neg hselect, if_neg (by omega), if_pos ha.soError]

private theorem dialling_poll (h : Dialling start timeoutMs p₀ v s) (hos : os.Fine start timeoutMs)
    (hshort : timeoutMs.toNat ≤ 2 ^ 30) :
    (os.poll.select = 0 ∧ Dialling start timeoutMs p₀ v (s.move (.poll os))) ∨
      Enrolling start timeoutMs p₀ v (s.move (.poll os)) := by
  obtain ⟨hstate, hdeadline, hfd, hpending, hsock, ⟨d, hd, htcp⟩, hsession, hkept, hhandled, hwire, hserver⟩ := h
  have hnow : expired (os.millis 0) s.plc.deadline = false := by
    rw [hdeadline]
    exact hos.between.before hshort 0
  have hpollState : s.plc.pollState os = some (s.plc.pollConnecting os) := by rw [PlcClient.pollState, hstate]
  by_cases hselect : os.poll.select = 0
  · have hwait := tcp_poll_waits hfd hpending hselect (os.millis 1)
      (by rw [htcp]; exact hos.between.early hshort 1 hd)
    have hpoll : (s.plc.poll os).2 =
        { s.plc with tcp := { s.plc.tcp with calls := .use s.plc.tcp.fd :: s.plc.tcp.calls } } := by
      rw [PlcClient.poll, hpollState, PlcClient.pollConnecting, if_neg (by simp [hnow]), hwait]
      rfl
    have hmove : s.move (.poll os) = { s with plc := { s.plc with tcp :=
        { s.plc.tcp with calls := .use s.plc.tcp.fd :: s.plc.tcp.calls } } } := by
      rw [move, hpoll]
      exact attach_same rfl
    rw [hmove]
    exact Or.inl ⟨hselect, hstate, hdeadline, hfd, hpending, hsock, ⟨d, hd, htcp⟩, hsession, ⟨hkept.slots, hkept.msg⟩,
      hhandled, hwire, hserver⟩
  · have hmade := tcp_poll_made hfd hpending hos.go hselect (os.millis 1)
    generalize htcp' : ({ s.plc.tcp with
      calls := .use s.plc.tcp.fd :: .use s.plc.tcp.fd :: s.plc.tcp.calls, state := .ok } : TcpConnection) = t at hmade
    have hsockets : t.sockets = s.plc.tcp.sockets := by rw [← htcp']
    have hconnected : t.connected = true := by
      rw [← htcp']
      rfl
    obtain ⟨x, hopen⟩ : ∃ x, s.plc.session.open t (s.plc.deadline - os.millis 2) (os.millis 3) = (.pending, x) := by
      unfold Session.open
      rw [if_neg (by rw [hsession]; decide), if_neg (by rw [hconnected]; decide)]
      exact ⟨_, rfl⟩
    have hx : x.state = .registering ∧ x.context = s.plc.session.context ∧
        x.deadline = os.millis 3 + (s.plc.deadline - os.millis 2) := by
      rcases Session.open_cases hopen with ⟨-, -, rfl⟩ | ⟨hne, -⟩
      · exact ⟨rfl, rfl, rfl⟩
      · exact absurd rfl hne
    obtain ⟨hregistering, hcontext, hxdeadline⟩ := hx
    have hstarted := Session.open_started hopen
    rw [← hcontext] at hstarted
    obtain ⟨d', hd', hhanded⟩ := hos.between.handed (j := 2) (k := 3) (by omega)
    have hpoll : (s.plc.poll os).2 = { s.plc with tcp := t, session := x, state := .registering } := by
      rw [PlcClient.poll, hpollState, PlcClient.pollConnecting, if_neg (by simp [hnow]), hmade]
      dsimp only
      rw [if_pos rfl, hopen]
      rfl
    have hmove : s.move (.poll os) =
      { s with plc := { s.plc with tcp := t, session := x, state := .registering } } := by
      rw [move, hpoll]
      exact attach_same hsockets
    have hquiet : Link.Quiet { conn := t, handled := s.handled, wire := s.wire } := by
      subst htcp'
      refine ⟨⟨hfd, rfl⟩, ?_, hwire, ?_⟩
      · change s.plc.tcp.sock.inbox = []
        rw [hsock]
      · change s.handled = s.plc.tcp.sock.sent.length
        rw [hsock, hhandled]
        rfl
    rw [hmove]
    refine Or.inr ⟨hstarted, hregistering, ⟨d', hd', ?_⟩, ⟨rfl, rfl, hdeadline, hkept.slots, hkept.msg⟩,
      .asking (hquiet.start hstarted) hserver⟩
    rw [hxdeadline, hdeadline]
    exact hhanded

private theorem dialling_move (h : Dialling start timeoutMs p₀ v s) {m : Move} (hm : ∀ os, m ≠ .poll os) :
    s.move m = s := by
  have hnil : s.plc.tcp.sock.inbox = [] ∧ s.plc.tcp.sock.sent = [] := by
    rw [h.sock]
    exact ⟨rfl, rfl⟩
  cases m with
  | poll os => exact absurd rfl (hm os)
  | serve =>
    have hun : s.link.unhandled = [] := by
      change s.plc.tcp.sock.sent.drop s.handled = []
      rw [hnil.2, List.drop_nil]
    rw [move, Link.request, hun, if_neg (by simp)]
  | deliver k =>
    obtain ⟨plc, handled, wire, server⟩ := s
    have hwire : wire = [] := h.wire
    subst hwire
    rw [move]
    simp [withLink, Site.link, Link.deliver, TcpConnection.deliver]

/-- How far the client has come. -/
inductive Rising (start timeoutMs : UInt32) (p₀ : PlcClient n) (v : SyntheticServer) (s : Site n) : Prop where
  | dialling (h : Dialling start timeoutMs p₀ v s)
  | enrolling (h : Enrolling start timeoutMs p₀ v s)
  | risen (h : Risen p₀ v s)

theorem rising_moves (hrest : ∀ i, ¬ (p₀.slots i).tag.InFlight) (hfree : ¬ p₀.msg.InFlight)
    (hshort : timeoutMs.toNat ≤ 2 ^ 30) (h : Rising start timeoutMs p₀ v s) (hms : ∀ m ∈ ms, m.Fine start timeoutMs) :
    Rising start timeoutMs p₀ v (s.moves ms) := by
  induction ms generalizing s with
  | nil => exact h
  | cons m ms ih =>
    have htail : ∀ m' ∈ ms, m'.Fine start timeoutMs := fun m' hm' => hms m' (List.mem_cons_of_mem m hm')
    cases h with
    | dialling h =>
      rw [moves_cons]
      refine ih ?_ htail
      cases m with
      | poll os =>
        rcases dialling_poll h (hms _ List.mem_cons_self) hshort with ⟨-, hdialling⟩ | henrolling
        · exact .dialling hdialling
        · exact .enrolling henrolling
      | serve =>
        rw [dialling_move h (fun os hm => by cases hm)]
        exact .dialling h
      | deliver k =>
        rw [dialling_move h (fun os hm => by cases hm)]
        exact .dialling h
    | enrolling h =>
      rcases enrolling_followed hrest hfree hshort h hms with ⟨henrolling, -⟩ | hrisen
      · exact .enrolling henrolling
      · exact .risen hrisen
    | risen h => exact .risen (h.moves _)

theorem rising_arrives {millis : Nat → UInt32} (hrest : ∀ i, ¬ (p₀.slots i).tag.InFlight) (hfree : ¬ p₀.msg.InFlight)
    (hshort : timeoutMs.toNat ≤ 2 ^ 30) (h : Rising start timeoutMs p₀ v s)
    (hlast : (atOnce millis).Between start timeoutMs) : Risen p₀ v (s.moves (arrive millis)) := by
  have hone : (atOnce millis).poll.select = 1 := rfl
  have hgo : (atOnce millis).poll.Go := ⟨by omega, Int.le_refl 0, rfl⟩
  have hfine : (atOnce millis).Fine start timeoutMs := ⟨Buffers.atOnce_up millis, hgo, hlast⟩
  have hflush : ∀ m ∈ flush millis, m.Fine start timeoutMs := by
    intro m hm
    simp only [flush, List.mem_cons, List.not_mem_nil, or_false] at hm
    rcases hm with rfl | rfl | rfl | rfl
    · exact hfine
    · trivial
    · trivial
    · exact hfine
  have hfrom : ∀ {s : Site n}, Enrolling start timeoutMs p₀ v s → Risen p₀ v (s.moves (flush millis)) := by
    intro s h
    rcases enrolling_followed hrest hfree hshort h hflush with ⟨-, hne⟩ | hrisen
    · exact absurd rfl (hne millis)
    · exact hrisen
  rw [arrive, moves_cons]
  cases h with
  | dialling h =>
    rcases dialling_poll h hfine hshort with ⟨hselect, -⟩ | henrolling
    · omega
    · exact hfrom henrolling
  | enrolling h =>
    have hfirst : ∀ m ∈ [Move.poll (atOnce millis)], m.Fine start timeoutMs := by
      intro m hm
      rw [List.mem_singleton.1 hm]
      exact hfine
    rcases enrolling_followed hrest hfree hshort h hfirst with ⟨henrolling, -⟩ | hrisen
    · exact hfrom henrolling
    · exact hrisen.moves _
  | risen h => exact (h.moves [.poll (atOnce millis)]).moves _

/-- `tcp_.connect()` makes a new socket. -/
private theorem connect_made (t : TcpConnection) {ip : IPAddress} {port : UInt16} (timeoutMs : UInt32)
    {a : ConnectAnswers} (hip : ip ≠ 0) (hport : port ≠ 0) (ha : a.Dial) (now : UInt32) :
    ∃ t', t.connect ip port timeoutMs a now = (.pending, t') ∧ TcpConnection.Dialled t t' ∧
      t'.deadline = now + timeoutMs := by
  have hsocket := ha.socket
  have hflags := ha.flags
  have hconnect : ¬ (a.connect < 0 ∧ a.errno ≠ .einprogress) := by
    rintro ⟨hlt, hne⟩
    rcases ha.connect with hle | heq
    · omega
    · exact hne heq
  have hresult : ∃ t', t.connect ip port timeoutMs a now = (.pending, t') := by
    unfold TcpConnection.connect
    dsimp only
    rw [if_neg (by simp [hip, hport]), if_neg (by omega), if_neg (by omega), if_neg (by omega), if_neg hconnect]
    exact ⟨_, rfl⟩
  obtain ⟨t', hmade⟩ := hresult
  rcases TcpConnection.connect_cases hmade with ⟨-, hdialled⟩ | ⟨hne, -⟩
  · exact ⟨t', hmade, hdialled, TcpConnection.connect_deadline hmade⟩
  · exact absurd rfl hne

private theorem connect_dialling {ip : IPAddress} {port : UInt16} (hready : s.plc.eth.ready = true) (hip : ip ≠ 0)
    (hport : port ≠ 0) (hdial : os.connect.Dial) (hclock : os.Between (os.millis 0) timeoutMs) :
    Dialling (os.millis 0) timeoutMs s.plc s.server (s.call (.connect ip port timeoutMs os)) := by
  obtain ⟨t, hmade, hdialled, hdeadline⟩ := connect_made s.plc.tcp.close timeoutMs hip hport hdial (os.millis 1)
  have hcall : (s.plc.call (.connect ip port timeoutMs os)).2 =
      { s.plc with
        remoteIp := ip, remotePort := port, connectTimeoutMs := timeoutMs, wantConnect := false,
        session := s.plc.session.abort, tcp := t, state := .connecting, deadline := os.millis 0 + timeoutMs } := by
    change (s.plc.connect ip port timeoutMs os).2 = _
    unfold PlcClient.connect
    dsimp only
    rw [if_pos hready, PlcClient.dial, hmade]
  have hnew : t.sockets ≠ s.plc.tcp.sockets := by
    rw [hdialled.sockets, (TcpConnection.close_dropped s.plc.tcp).sockets]
    omega
  obtain ⟨d, hd, hhanded⟩ := hclock.handed (j := 0) (k := 1) (by omega)
  have hsite : s.call (.connect ip port timeoutMs os) = { s with
      plc := { s.plc with
        remoteIp := ip, remotePort := port, connectTimeoutMs := timeoutMs, wantConnect := false,
        session := s.plc.session.abort, tcp := t, state := .connecting, deadline := os.millis 0 + timeoutMs },
      handled := 0, wire := [] } := by
    rw [call, hcall]
    exact if_neg hnew
  rw [hsite]
  refine ⟨rfl, rfl, hdialled.fd, hdialled.state, hdialled.sock, ⟨d, hd, ?_⟩, rfl, .of_same rfl rfl, rfl, rfl, rfl⟩
  dsimp only
  rw [hdeadline, ← hhanded]
  grind

end Dialling

/-- With Ethernet up and no tag operation going on, a client in any state that connects to the server over a network
that works becomes ready, however the transfers are split and whenever the connection is made, when `poll()` is called
on after that.  It has the handle of the server, nothing is left on the way, and neither its tags nor the server have
changed. -/
theorem brought_up {s : Site n} {ip : IPAddress} {port : UInt16} {timeoutMs : UInt32} {os : Platform}
    {ms : List Move} {millis : Nat → UInt32} (hready : s.plc.eth.ready = true)
    (hrest : ∀ i, ¬ (s.plc.slots i).tag.InFlight) (hfree : ¬ s.plc.msg.InFlight) (hip : ip ≠ 0) (hport : port ≠ 0)
    (hdial : os.connect.Dial) (hclock : os.Between (os.millis 0) timeoutMs) (hshort : timeoutMs.toNat ≤ 2 ^ 30)
    (hms : ∀ m ∈ ms, m.Fine (os.millis 0) timeoutMs) (hlast : (atOnce millis).Between (os.millis 0) timeoutMs) :
    Risen s.plc s.server ((s.call (.connect ip port timeoutMs os)).moves (ms ++ arrive millis)) := by
  have hdialling := connect_dialling hready hip hport hdial hclock
  rw [moves_append]
  exact rising_arrives hrest hfree hshort (rising_moves hrest hfree hshort (.dialling hdialling) hms) hlast

/-- A client of which Ethernet is up, and whose memory is zero. -/
def plugged : Site 2 where
  plc := { PlcClient.fresh 2 with eth := { started := true, ready := true } }

/-- The request goes out in two pieces, and the reply comes in two. -/
def pieces : List Move :=
  [.poll { poll := { select := 0 } }, .poll {}, .poll { sends := [.accepted 10] }, .poll { sends := [.accepted 100] },
   .serve, .deliver 20, .poll { recvs := [.data 1000] }]

private theorem between_zero {os : Platform} (h : ∀ k, os.millis k = 0) : os.Between 0 1000 :=
  ⟨fun _ => 0, fun _ => Nat.le_refl 0, fun _ => by show 0 < 1000; omega, h⟩

theorem brought_up_plugged :
    ((plugged.call (.connect 1 44818 1000 {})).moves (pieces ++ arrive fun _ => 0)).plc.state = .ready ∧
      ((plugged.call (.connect 1 44818 1000 {})).moves (pieces ++ arrive fun _ => 0)).plc.session.handle =
      0x13572468 := by
  have hrest : ∀ i, ¬ (plugged.plc.slots i).tag.InFlight := by decide
  have hpieces : ∀ m ∈ pieces, m.Fine 0 1000 := by
    intro m hm
    simp only [pieces, List.mem_cons, List.not_mem_nil, or_false] at hm
    rcases hm with rfl | rfl | rfl | rfl | rfl | rfl | rfl
    all_goals first
      | trivial
      | exact ⟨by decide, ⟨by decide, by decide, rfl⟩, between_zero fun _ => rfl⟩
  have hrisen : Risen plugged.plc plugged.server
      ((plugged.call (.connect 1 44818 1000 {})).moves (pieces ++ arrive fun _ => 0)) :=
    brought_up rfl hrest (by decide) (by decide) (by decide) ⟨by decide, by decide, by decide⟩
    (between_zero fun _ => rfl) (by decide) hpieces (between_zero fun _ => rfl)
  exact ⟨hrisen.standing.ready, hrisen.standing.handle⟩

/-! ### Disconnecting -/

/-- The client is idle without a TCP connection, and nothing is on the way; nothing else has changed. -/
structure Down (p₀ : PlcClient n) (v : SyntheticServer) (s : Site n) : Prop where
  idle : s.plc.state = .idle
  closed : s.plc.session.state = .closed
  dropped : s.plc.tcp.fd < 0
  kept : TagsKept p₀ s.plc
  handled : s.handled = s.plc.tcp.sock.sent.length
  wire : s.wire = []
  server : s.server = v

section Disconnecting

variable {p₀ : PlcClient n} {v : SyntheticServer} {s : Site n} {ms : List Move}

theorem Down.move (h : Down p₀ v s) (m : Move) : s.move m = s := by
  cases m with
  | poll os =>
    have hpoll : (s.plc.poll os).2 = s.plc := by
      rw [PlcClient.poll, PlcClient.pollState, h.idle]
    rw [Site.move, hpoll]
    exact attach_same rfl
  | serve =>
    have hun : s.link.unhandled = [] := by
      change s.plc.tcp.sock.sent.drop s.handled = []
      rw [h.handled, List.drop_length]
    rw [Site.move, Link.request, hun, if_neg (by simp)]
  | deliver k =>
    obtain ⟨plc, handled, wire, server⟩ := s
    have hwire : wire = [] := h.wire
    subst hwire
    rw [Site.move]
    simp [withLink, Site.link, Link.deliver, TcpConnection.deliver]

theorem Down.moves (h : Down p₀ v s) (ms : List Move) : s.moves ms = s := by
  induction ms with
  | nil => rfl
  | cons m ms ih => rw [moves_cons, h.move m, ih]

private theorem whole_unregistered (context : UInt64) : WholeFrame (SyntheticServer.unregistered context) ∧
    bodyLength (SyntheticServer.unregistered context) ≤ Session.machine.cap := by
  obtain ⟨hwhole, hbody⟩ := SyntheticServer.whole_packet .unregisterSession 0 0 context
    (show ([] : List UInt8).length < 2 ^ 16 by decide)
  refine ⟨hwhole, ?_⟩
  change bodyLength (SyntheticServer.unregistered context) = _ at hbody
  rw [hbody]
  decide

/-- The `poll()` that ends the exchange closes the TCP connection. -/
private theorem down_poll {x₀ x x' : Session} {os : Platform} {st : Status} {l' : Link} {reply : List UInt8}
    {deadline : UInt32} (hstate : x₀.state = .unregistering) (hx : Exchanges .disconnecting deadline p₀ x s.plc)
    (hpoll : Session.machine.poll x s.plc.tcp os = (st, x', l'.conn))
    (hended : Link.Ended Session.machine x₀ reply st x') (hlink : l' = { s.link with conn := l'.conn })
    (hquiet : l'.Quiet) (hserver : s.server = v) : Down p₀ v (s.move (.poll os)) := by
  obtain ⟨x₁, hconclude, hclosed⟩ := Session.conclude_unregistered hstate
    (received Session.machine.cap (Session.machine.buffers x₀) reply)
  have hdone := hended.concluded
  rw [hconclude, Prod.mk.injEq] at hdone
  obtain ⟨rfl, rfl⟩ := hdone
  obtain ⟨hs, rfl, hdeadline, hkept⟩ := hx
  have hpolled := PlcClient.poll_disconnecting os hs hpoll
  rw [if_pos (Or.inl rfl)] at hpolled
  have hdropped := TcpConnection.close_dropped l'.conn
  have hsockets : l'.conn.close.sockets = s.plc.tcp.sockets :=
    hdropped.sockets.trans (Session.poll_sockets hpoll)
  have hmove : s.move (.poll os) =
      { s with plc := { s.plc with session := x', tcp := l'.conn.close, state := .idle } } := by
    rw [Site.move, attach_same (by rw [hpolled]; exact hsockets), hpolled]
  rw [hmove]
  refine ⟨rfl, hclosed, hdropped.fd, ⟨hkept.slots, hkept.msg⟩, ?_, ?_, hserver⟩
  · have hall := hquiet.handled
    rw [hlink] at hall
    change s.handled = l'.conn.close.sock.sent.length
    rw [hdropped.sock]
    exact hall
  · have hwire := hquiet.wire
    rw [hlink] at hwire
    exact hwire

end Disconnecting

/-- A client that is ready and has no tag operation going on disconnects from the server, however the transfers are
split, when `poll()` is called before the deadline that the session has had since it was opened: the session is
unregistered, and the TCP connection is closed. -/
theorem taken_down {s : Site n} {ms : List Move} {millis : Nat → UInt32} (h : Standing s)
    (hms : ∀ m ∈ ms, m.InTime s.plc.session.deadline) (hnow : expired (millis 0) s.plc.session.deadline = false) :
    Down s.plc s.server ((s.call .disconnect).moves (ms ++ flush millis)) := by
  -- the call starts the exchange
  obtain ⟨x₀, hclose⟩ : ∃ x₀, s.plc.session.close = (.pending, x₀) := by
    rw [Session.close_registered h.registered]
    exact ⟨_, rfl⟩
  have hstarted := Session.close_started hclose
  have hx₀ : x₀.state = .unregistering ∧ x₀.deadline = s.plc.session.deadline := by
    rw [Session.close_registered h.registered, Session.startUnregister, Prod.mk.injEq] at hclose
    rw [← hclose.2]
    exact ⟨rfl, rfl⟩
  obtain ⟨hstate, hdeadline⟩ := hx₀
  have hcall : s.call .disconnect = { s with plc := { s.plc with state := .disconnecting, session := x₀ } } := by
    have hplc : (s.plc.call .disconnect).2 = { s.plc with state := .disconnecting, session := x₀ } := by
      change s.plc.disconnect.2 = _
      rw [PlcClient.disconnect, if_pos h.ready, hclose]
    rw [call, hplc]
    exact attach_same rfl
  -- and the moves run it
  obtain ⟨hwhole, hfits⟩ := whole_unregistered s.plc.session.context
  have hhandle := s.server.handle_unregisterFrame s.plc.session.handle s.plc.session.context
  obtain ⟨st, x', l', v', hcon⟩ : ∃ st x' l' v', Link.converse Session.machine.poll SyntheticServer.handle x₀ s.link
    s.server (ms ++ flush millis) = (st, x', l', v') := ⟨_, _, _, _, rfl⟩
  have hdone := Link.converse_completes h.quiet hstarted (Session.whole_unregisterFrame _ _) hhandle hwhole hfits
    (by change ∀ m ∈ ms, m.InTime x₀.deadline; rw [hdeadline]; exact hms)
    (by change expired (millis 0) x₀.deadline = false; rw [hdeadline]; exact hnow) hcon
  obtain ⟨hended, hquiet, rfl⟩ := hdone
  rw [hcall]
  have hx : Exchanges .disconnecting s.plc.deadline s.plc x₀ { s.plc with state := .disconnecting, session := x₀ } :=
    ⟨rfl, rfl, rfl, .of_same rfl rfl⟩
  rw [← Move.map_id (ms ++ flush millis)] at hcon
  have hfollowed := moves_converse (s := { s with plc := { s.plc with state := .disconnecting, session := x₀ } })
    (PlcClient.follows_disconnecting s.plc.deadline s.plc) hx (fun _ _ => trivial) hcon
  cases hfollowed with
  | goesOn holds link server => exact absurd rfl hended.status
  | @ended _ hne used rest os x₁ split holds polled link server =>
    rw [id_eq] at polled
    have hdown := down_poll hstate holds polled hended link hquiet server
    rw [split, moves_append, moves_cons, hdown.moves]
    exact hdown

/-- The same client, connected. -/
def connected : Site 2 where
  plc := { plugged.plc with
    state := .ready, tcp := { fd := 3, state := .ok },
    session := { state := .registered, handle := SyntheticServer.sessionHandle, deadline := 1000 } }

theorem standing_connected : Standing connected :=
  ⟨rfl, rfl, rfl, ⟨by decide, rfl, rfl, rfl⟩, by decide, by decide⟩

theorem taken_down_connected :
    ((connected.call .disconnect).moves (pieces ++ flush fun _ => 0)).plc.state = .idle ∧
      ((connected.call .disconnect).moves (pieces ++ flush fun _ => 0)).plc.tcp.fd < 0 := by
  have hpieces : ∀ m ∈ pieces, m.InTime connected.plc.session.deadline := by decide
  have hdown : Down connected.plc connected.server
    ((connected.call .disconnect).moves (pieces ++ flush fun _ => 0)) :=
    taken_down standing_connected hpieces (by decide)
  exact ⟨hdown.idle, hdown.dropped⟩

end Site

end ControlLogix
