import ControlLogix.Ownership

/-!
# The connection through the states of the client

The state of the facade, the TCP connection and the session are three machines that run together.  `Staged` is what
the state of the facade tells about the other two, and `Relinked` lists everything that a call of `connect()`,
`disconnect()`, `begin()` or `poll()` can do to the three of them.

* `relinked_call`, `relinked_poll`, `relinked_leave`: the functions of the client do nothing else;
* `Relinked.rejoined`: what they do to the socket;
* `staged_step`: every action keeps the three in step;
* `sameLink_called`, `turned_link`: the tag operations and the loop of `Ready` leave state and session alone.
-/

namespace ControlLogix

open Transition
open TcpConnection (Transfer Dialled Dropped)
open Buffers (Framed Moved)

variable {n : Nat}

/-! ### What the state of the facade tells -/

structure Staged (p : PlcClient n) : Prop where
  connecting : p.state = .connecting →
    0 ≤ p.tcp.fd ∧ p.tcp.state = .pending ∧ p.tcp.sock.sent = [] ∧ p.tcp.sock.recvd = []
  registering : p.state = .registering → p.session.state = .registering ∨ p.session.state = .failed
  ready : p.state = .ready → p.session.state = .registered
  disconnecting : p.state = .disconnecting → p.session.state = .unregistering ∨ p.session.state = .failed
  exchanging : p.session.Exchanging → Framed Session.kMaxBodySize p.session.toBuffers ∧ p.session.Loaded

/-- `t'` is `t` but for its state, its deadline and the calls made. -/
structure TcpConnection.SameSocket (t t' : TcpConnection) : Prop where
  fd : t'.fd = t.fd
  sock : t'.sock = t.sock
  sockets : t'.sockets = t.sockets

/-- What a call about the connection can do to the state, the session and the TCP connection. -/
inductive Relinked (p p' : PlcClient n) : Prop where
  | kept (tcp : p'.tcp = p.tcp) (session : p'.session = p.session)
      (state : p'.state = p.state ∨ p'.state = .ethernet ∨ p'.state = .failed)
  | dialled (tcp : Dialled p.tcp p'.tcp) (session : p'.session = p.session ∨ p'.session = p.session.abort)
      (state : p'.state = .connecting)
  | dropped (tcp : Dropped p.tcp p'.tcp) (session : p'.session = p.session ∨ p'.session = p.session.abort)
      (state : p'.state = .failed ∨ p'.state = .idle)
  | waited (before : p.state = .connecting) (tcp : p.tcp.SameSocket p'.tcp) (pending : p'.tcp.state = p.tcp.state)
      (session : p'.session = p.session) (state : p'.state = .connecting)
  | refused (before : p.state = .connecting) (tcp : p.tcp.SameSocket p'.tcp) (session : p'.session = p.session)
      (state : p'.state = .failed)
  | opened {deadline : UInt32} (before : p.state = .connecting) (tcp : p.tcp.SameSocket p'.tcp)
      (session : p'.session = { p.session with deadline := deadline }.startRegister.2)
      (state : p'.state = .registering)
  | registers {st : Status} {inp : List UInt8} (before : p.state = .registering) (exchanging : p.session.Exchanging)
      (polled : Session.Polled p.session p.tcp st p'.session p'.tcp inp)
      (state : st = .ok ∧ p'.state = .ready ∨ st ≠ .ok ∧ (p'.state = .registering ∨ p'.state = .failed))
  | closing (before : p.state = .ready) (tcp : p'.tcp = p.tcp) (session : p'.session = p.session.startUnregister.2)
      (state : p'.state = .disconnecting)
  | unregisters {st : Status} {inp : List UInt8} {tcp : TcpConnection} (before : p.state = .disconnecting)
      (exchanging : p.session.Exchanging) (polled : Session.Polled p.session p.tcp st p'.session tcp inp)
      (state : p'.state = .disconnecting ∧ p'.tcp = tcp ∧ st ≠ .ok ∨ p'.state = .idle ∧ Dropped tcp p'.tcp)

/-- The connection is being made, or the session on it registered. -/
def PlcClient.Joining (p : PlcClient n) : Prop := p.state = .connecting ∨ p.state = .registering

/-- What becomes of the socket: there is a new one, or bytes may have been read from the old one. -/
inductive Rejoined (p p' : PlcClient n) : Prop where
  | dialled (sockets : p'.tcp.sockets = p.tcp.sockets + 1) (sock : p'.tcp.sock = {}) (state : p'.state = .connecting)
  | same (inp : List UInt8) (sockets : p'.tcp.sockets = p.tcp.sockets)
      (recvd : p'.tcp.sock.recvd = p.tcp.sock.recvd ++ inp) (inbox : p.tcp.sock.inbox = inp ++ p'.tcp.sock.inbox)
      (joining : p'.Joining → p.Joining)
      (ready : p'.state = .ready → p.state = .registering ∨ p.state = .ready ∧ inp = [])

/-- A socket from which nothing is read. -/
private theorem rejoined_still {p p' : PlcClient n} (sockets : p'.tcp.sockets = p.tcp.sockets)
    (sock : p'.tcp.sock = p.tcp.sock) (joining : p'.Joining → p.Joining)
    (ready : p'.state = .ready → p.state = .registering ∨ p.state = .ready) : Rejoined p p' :=
  .same [] sockets (by rw [sock, List.append_nil]) (by rw [sock, List.nil_append]) joining fun h =>
    (ready h).imp id fun h => ⟨h, rfl⟩

theorem Relinked.rejoined {p p' : PlcClient n} (h : Relinked p p') : Rejoined p p' := by
  have hout : ∀ {s : PlcClient.State}, p'.state = s → s ≠ .connecting → s ≠ .registering → p'.Joining →
    p.Joining := by
    rintro s e h1 h2 (e' | e')
    · exact absurd (e.symm.trans e') h1
    · exact absurd (e.symm.trans e') h2
  cases h with
  | kept tcp session state =>
    refine rejoined_still (by rw [tcp]) (by rw [tcp]) ?_ ?_
    · rcases state with e | e | e
      · unfold PlcClient.Joining
        rw [e]
        exact id
      · exact hout e (by decide) (by decide)
      · exact hout e (by decide) (by decide)
    · rcases state with e | e | e <;> rw [e]
      · exact Or.inr
      · nofun
      · nofun
  | dialled tcp session state => exact .dialled tcp.sockets tcp.sock state
  | dropped tcp session state =>
    refine rejoined_still tcp.sockets tcp.sock ?_ ?_
    · rcases state with e | e
      · exact hout e (by decide) (by decide)
      · exact hout e (by decide) (by decide)
    · rcases state with e | e <;> rw [e] <;> nofun
  | waited before tcp pending session state =>
    refine rejoined_still tcp.sockets tcp.sock (fun _ => Or.inl before) ?_
    rw [state]
    nofun
  | refused before tcp session state =>
    refine rejoined_still tcp.sockets tcp.sock (fun _ => Or.inl before) ?_
    rw [state]
    nofun
  | opened before tcp session state =>
    refine rejoined_still tcp.sockets tcp.sock (fun _ => Or.inl before) ?_
    rw [state]
    nofun
  | @registers st inp before exchanging polled state =>
    have ht := polled.moved.transfer
    exact .same inp ht.sockets ht.recvd ht.inbox (fun _ => Or.inr before) fun _ => Or.inl before
  | closing before tcp session state =>
    refine rejoined_still (by rw [tcp]) (by rw [tcp]) (hout state (by decide) (by decide)) ?_
    rw [state]
    nofun
  | @unregisters st inp tcp before exchanging polled state =>
    have ht := polled.moved.transfer
    rcases state with ⟨e, htcp, -⟩ | ⟨e, hdropped⟩
    · refine .same inp ?_ ?_ ?_ (hout e (by decide) (by decide)) (by rw [e]; nofun)
      · rw [htcp]
        exact ht.sockets
      · rw [htcp]
        exact ht.recvd
      · rw [htcp]
        exact ht.inbox
    · refine .same inp ?_ ?_ ?_ (hout e (by decide) (by decide)) (by rw [e]; nofun)
      · rw [hdropped.sockets]
        exact ht.sockets
      · rw [hdropped.sock]
        exact ht.recvd
      · rw [hdropped.sock]
        exact ht.inbox

/-! ### Connecting and disconnecting -/

theorem dial_cases (p : PlcClient n) (os : Platform) :
    (p.dial os).2.session = p.session ∧
      (Dialled p.tcp (p.dial os).2.tcp ∧ (p.dial os).2.state = p.state ∨
        Dropped p.tcp (p.dial os).2.tcp ∧ (p.dial os).2.state = .failed) := by
  unfold PlcClient.dial
  split
  · rename_i t ht
    rcases TcpConnection.connect_cases ht with ⟨-, hd⟩ | ⟨hne, -⟩
    · exact ⟨rfl, Or.inl ⟨hd, rfl⟩⟩
    · exact absurd rfl hne
  · rename_i st t hne ht
    rcases TcpConnection.connect_cases ht with ⟨rfl, -⟩ | ⟨-, hd⟩
    · exact absurd rfl hne
    · exact ⟨rfl, Or.inr ⟨hd, rfl⟩⟩

private theorem relinked_connect (p : PlcClient n) (ip : IPAddress) (port : UInt16) (timeoutMs : UInt32)
    (os : Platform) : Relinked p (p.connect ip port timeoutMs os).2 := by
  unfold PlcClient.connect
  dsimp only
  split
  · -- the old connection is closed before the new one is dialled
    have hclose := TcpConnection.close_dropped p.tcp
    obtain ⟨hs, ⟨hd, hst⟩ | ⟨hd, hst⟩⟩ := dial_cases { p with
      remoteIp := ip, remotePort := port, connectTimeoutMs := timeoutMs, wantConnect := false,
      session := p.session.abort, tcp := p.tcp.close, state := .connecting, deadline := os.millis 0 + timeoutMs } os
    · refine .dialled ⟨hd.fd, hd.state, hd.sock, ?_⟩ (Or.inr hs) hst
      rw [hd.sockets]
      exact congrArg (· + 1) hclose.sockets
    · exact .dropped (hclose.trans hd) (Or.inr hs) (Or.inl hst)
  · exact .kept rfl rfl (Or.inr (Or.inl rfl))

private theorem relinked_disconnect {p : PlcClient n} (h : Staged p) : Relinked p p.disconnect.2 := by
  unfold PlcClient.disconnect
  split
  · rename_i hr
    refine .closing hr rfl ?_ rfl
    simp only
    rw [Session.close_registered (h.ready hr)]
  · exact .dropped (TcpConnection.close_dropped p.tcp) (Or.inr rfl) (Or.inr rfl)

theorem relinked_call {p : PlcClient n} (h : Staged p) {op : Op} (hop : op.Link) : Relinked p (p.call op).2 := by
  cases op with
  | begin began configured => exact .kept rfl rfl (Or.inr (Or.inl rfl))
  | connect ip port timeoutMs os => exact relinked_connect p ip port timeoutMs os
  | disconnect => exact relinked_disconnect h
  | setStateCallback set => exact .kept rfl rfl (Or.inl rfl)
  | _ => exact absurd hop id

theorem relinked_leave (p : PlcClient n) (disconnected : Bool) : Relinked p (p.loopEnd disconnected).2.1 := by
  unfold PlcClient.loopEnd
  split
  · exact .dropped (TcpConnection.close_dropped p.tcp) (Or.inr rfl) (Or.inr rfl)
  · exact .kept rfl rfl (Or.inl rfl)

/-! ### `poll()` -/

private theorem relinked_ethernet (p : PlcClient n) (os : Platform) : Relinked p (p.pollEthernet os).2.1 := by
  unfold PlcClient.pollEthernet
  dsimp only
  split
  · split
    · obtain ⟨hs, ⟨hd, hst⟩ | ⟨hd, hst⟩⟩ := dial_cases { p with
        eth := (p.eth.poll os.link).2, wantConnect := false, state := .connecting,
        deadline := os.millis 0 + p.connectTimeoutMs } os
      · exact .dialled hd (Or.inl hs) hst
      · exact .dropped hd (Or.inl hs) (Or.inl hst)
    · exact .kept rfl rfl (Or.inl rfl)
  · split
    · exact .kept rfl rfl (Or.inr (Or.inr rfl))
    · exact .kept rfl rfl (Or.inl rfl)

private theorem relinked_connecting {p : PlcClient n} (h : Staged p) (hs : p.state = .connecting) (os : Platform) :
    Relinked p (p.pollConnecting os).2.1 := by
  obtain ⟨hfd, hst, -, -⟩ := h.connecting hs
  have hne : p.tcp.state ≠ .ok := by
    rw [hst]
    nofun
  obtain ⟨st, tcp, hpoll⟩ : ∃ st tcp, p.tcp.poll os.poll (os.millis 1) = (st, tcp) := ⟨_, _, rfl⟩
  unfold PlcClient.pollConnecting
  rw [hpoll]
  dsimp only
  split
  · exact .kept rfl rfl (Or.inr (Or.inr rfl))
  · rcases TcpConnection.poll_connecting hfd hne hpoll with ⟨rfl, h1, h2, h3, h4⟩ | ⟨rfl, h1, h2, h3, h4⟩ | ⟨hbad, hd⟩
    · exact .waited hs ⟨h1, h3, h4⟩ h2 rfl hs
    · obtain ⟨openSt, session, hopen⟩ : ∃ openSt session,
          p.session.open tcp (p.deadline - os.millis 2) (os.millis 3) = (openSt, session) := ⟨_, _, rfl⟩
      rw [if_pos rfl, hopen]
      dsimp only
      rcases Session.open_cases hopen with ⟨rfl, -, rfl⟩ | ⟨hne', rfl⟩
      · rw [if_neg (by simp)]
        exact .opened hs ⟨h1, h3, h4⟩ rfl rfl
      · rw [if_pos hne']
        exact .refused hs ⟨h1, h3, h4⟩ rfl rfl
    · have hok : st ≠ .ok := by
        rcases hbad with rfl | rfl <;> nofun
      rw [if_neg hok, if_pos hbad]
      exact .dropped hd (Or.inl rfl) (Or.inl rfl)

theorem poll_failed {s : Session} (h : s.state = .failed) (conn : TcpConnection) (now : UInt32)
    (os : Platform) : s.poll conn now os = (.error, s, conn) := by
  unfold Session.poll
  rw [h]

private theorem relinked_registering {p : PlcClient n} (h : Staged p) (hs : p.state = .registering) (os : Platform) :
    Relinked p (p.pollRegistering os).2.1 := by
  obtain ⟨st, session, tcp, hpoll⟩ : ∃ st session tcp, p.session.poll p.tcp (os.millis 1) os = (st, session, tcp) :=
    ⟨_, _, _, rfl⟩
  unfold PlcClient.pollRegistering
  rw [hpoll]
  dsimp only
  split
  · exact .kept rfl rfl (Or.inr (Or.inr rfl))
  · rcases h.registering hs with hx | hx
    · have hx : p.session.Exchanging := Or.inl hx
      obtain ⟨inp, hp⟩ := Session.poll_exchange hx (h.exchanging hx).1 hpoll
      split
      · rename_i hok
        exact .registers hs hx hp (Or.inl ⟨hok, rfl⟩)
      · rename_i hok
        split
        · exact .registers hs hx hp (Or.inr ⟨hok, Or.inr rfl⟩)
        · exact .registers hs hx hp (Or.inr ⟨hok, Or.inl hs⟩)
    · -- a failed session answers `Error`
      rw [poll_failed hx] at hpoll
      simp only [Prod.mk.injEq] at hpoll
      obtain ⟨rfl, rfl, rfl⟩ := hpoll
      exact .kept rfl rfl (Or.inr (Or.inr rfl))

private theorem relinked_disconnecting {p : PlcClient n} (h : Staged p) (hs : p.state = .disconnecting)
    (os : Platform) : Relinked p (p.pollDisconnecting os).2.1 := by
  obtain ⟨st, session, tcp, hpoll⟩ : ∃ st session tcp, p.session.poll p.tcp (os.millis 0) os = (st, session, tcp) :=
    ⟨_, _, _, rfl⟩
  unfold PlcClient.pollDisconnecting
  rw [hpoll]
  dsimp only
  rcases h.disconnecting hs with hx | hx
  · have hx : p.session.Exchanging := Or.inr hx
    obtain ⟨inp, hp⟩ := Session.poll_exchange hx (h.exchanging hx).1 hpoll
    split
    · exact .unregisters hs hx hp (Or.inr ⟨rfl, TcpConnection.close_dropped tcp⟩)
    · rename_i hne
      exact .unregisters hs hx hp (Or.inl ⟨hs, rfl, fun e => hne (Or.inl e)⟩)
  · rw [poll_failed hx] at hpoll
    simp only [Prod.mk.injEq] at hpoll
    obtain ⟨rfl, rfl, rfl⟩ := hpoll
    exact .kept rfl rfl (Or.inl rfl)

theorem relinked_poll {p p' : PlcClient n} {os : Platform} {st : Status} {called : Option Status} (h : Staged p)
    (hp : p.pollState os = some (st, p', called)) : Relinked p p' := by
  unfold PlcClient.pollState at hp
  cases hs : p.state <;> rw [hs] at hp <;> simp only [Option.some.injEq, reduceCtorEq] at hp
  · cases hp
    exact .kept rfl rfl (Or.inl rfl)
  · have e := relinked_ethernet p os
    rwa [hp] at e
  · have e := relinked_connecting h hs os
    rwa [hp] at e
  · have e := relinked_registering h hs os
    rwa [hp] at e
  · have e := relinked_disconnecting h hs os
    rwa [hp] at e
  · cases hp
    exact .kept rfl rfl (Or.inl rfl)

/-! ### Every action keeps the three in step -/

private theorem loaded_moved {s s' : Session} {conn conn' : TcpConnection} {inp : List UInt8} (h : s.Loaded)
    (hm : Moved s.toBuffers conn s'.toBuffers conn' inp) : s'.Loaded := by
  obtain ⟨htx, hlen⟩ := hm.tx
  refine ⟨?_, ?_, ?_⟩
  · rw [htx]
    exact h.frame
  · rw [htx, hlen]
    exact h.len
  · have h1 := hm.bound
    have h2 := h.sent
    rw [hlen]
    omega

/-- A session that is still exchanging is in the same exchange, with its frame loaded. -/
theorem polled_exchanging {s s' : Session} {conn conn' : TcpConnection} {st : Status} {inp : List UInt8}
    (hl : s.Loaded) (h : Session.Polled s conn st s' conn' inp) (hx : s'.Exchanging) :
    Framed Session.kMaxBodySize s'.toBuffers ∧ s'.Loaded := by
  refine ⟨?_, loaded_moved hl h.moved⟩
  cases h.outcome with
  | stays state handle status framed => exact framed
  | fails state status => rcases hx with hx | hx <;> rw [state] at hx <;> cases hx
  | registers before state status => rcases hx with hx | hx <;> rw [state] at hx <;> cases hx
  | unregisters before state status => rcases hx with hx | hx <;> rw [state] at hx <;> cases hx

private theorem staged_exchanging {p p' : PlcClient n} (h : Staged p)
    (hs : p'.session = p.session ∨ p'.session = p.session.abort) (hx : p'.session.Exchanging) :
    Framed Session.kMaxBodySize p'.session.toBuffers ∧ p'.session.Loaded := by
  rcases hs with e | e
  · rw [e] at hx ⊢
    exact h.exchanging hx
  · rw [e] at hx
    rcases hx with hx | hx <;> cases hx

/-- Which exchange is going on is told by the state of the facade. -/
theorem Staged.session_registering {p : PlcClient n} (h : Staged p) (before : p.state = .registering)
    (exchanging : p.session.Exchanging) : p.session.state = .registering := by
  rcases h.registering before with e | e
  · exact e
  · rcases exchanging with hx | hx <;> rw [e] at hx <;> cases hx

theorem Staged.session_unregistering {p : PlcClient n} (h : Staged p) (before : p.state = .disconnecting)
    (exchanging : p.session.Exchanging) : p.session.state = .unregistering := by
  rcases h.disconnecting before with e | e
  · exact e
  · rcases exchanging with hx | hx <;> rw [e] at hx <;> cases hx

/-- The facade has the state `s`, and none of the conditions on other states applies. -/
private theorem staged_of_state {p : PlcClient n} {s : PlcClient.State} (hs : p.state = s)
    (hc : s = .connecting → 0 ≤ p.tcp.fd ∧ p.tcp.state = .pending ∧ p.tcp.sock.sent = [] ∧ p.tcp.sock.recvd = [])
    (hg : s = .registering → p.session.state = .registering ∨ p.session.state = .failed)
    (hr : s = .ready → p.session.state = .registered)
    (hd : s = .disconnecting → p.session.state = .unregistering ∨ p.session.state = .failed)
    (hx : p.session.Exchanging → Framed Session.kMaxBodySize p.session.toBuffers ∧ p.session.Loaded) : Staged p := by
  subst hs
  exact ⟨hc, hg, hr, hd, hx⟩

theorem staged_relinked {p p' : PlcClient n} (h : Staged p) (hr : Relinked p p') : Staged p' := by
  cases hr with
  | kept tcp session state =>
    have hx := staged_exchanging h (Or.inl session)
    rcases state with hs | hs | hs
    · refine ⟨?_, ?_, ?_, ?_, hx⟩
      · rw [hs, tcp]
        exact h.connecting
      · rw [hs, session]
        exact h.registering
      · rw [hs, session]
        exact h.ready
      · rw [hs, session]
        exact h.disconnecting
    · exact staged_of_state hs nofun nofun nofun nofun hx
    · exact staged_of_state hs nofun nofun nofun nofun hx
  | dialled tcp session state =>
    refine staged_of_state state (fun _ => ⟨tcp.fd, tcp.state, ?_, ?_⟩) nofun nofun nofun
      (staged_exchanging h session)
    · rw [tcp.sock]
    · rw [tcp.sock]
  | dropped tcp session state =>
    have hx := staged_exchanging h session
    rcases state with hs | hs
    · exact staged_of_state hs nofun nofun nofun nofun hx
    · exact staged_of_state hs nofun nofun nofun nofun hx
  | waited before tcp pending session state =>
    refine staged_of_state state (fun _ => ?_) nofun nofun nofun (staged_exchanging h (Or.inl session))
    rw [tcp.fd, pending, tcp.sock]
    exact h.connecting before
  | refused before tcp session state =>
    exact staged_of_state state nofun nofun nofun nofun (staged_exchanging h (Or.inl session))
  | opened before tcp session state =>
    refine staged_of_state state nofun (fun _ => Or.inl ?_) nofun nofun fun _ => ?_
    · rw [session]
      rfl
    · rw [session]
      exact ⟨Session.startRegister_framed _, Session.startRegister_loaded _⟩
  | registers before exchanging polled state =>
    have hbefore := h.session_registering before exchanging
    have hx := polled_exchanging (h.exchanging exchanging).2 polled
    rcases state with ⟨hok, hs⟩ | ⟨hok, hs⟩
    · refine staged_of_state hs nofun nofun (fun _ => ?_) nofun hx
      cases polled.outcome with
      | stays state handle status framed => exact absurd hok status
      | fails state status => exact absurd hok status.1
      | registers before' state => exact state
      | unregisters before' state => rw [hbefore] at before'; cases before'
    · have hstay : p'.session.state = .registering ∨ p'.session.state = .failed := by
        cases polled.outcome with
        | stays state handle status framed => exact Or.inl (state.trans hbefore)
        | fails state status => exact Or.inr state
        | registers before' state status => exact absurd status hok
        | unregisters before' state status => exact absurd status hok
      rcases hs with hs | hs
      · exact staged_of_state hs nofun (fun _ => hstay) nofun nofun hx
      · exact staged_of_state hs nofun nofun nofun nofun hx
  | closing before tcp session state =>
    refine staged_of_state state nofun nofun nofun (fun _ => Or.inl ?_) fun _ => ?_
    · rw [session]
      rfl
    · rw [session]
      exact ⟨Session.startUnregister_framed _, Session.startUnregister_loaded _⟩
  | unregisters before exchanging polled state =>
    have hbefore := h.session_unregistering before exchanging
    have hx := polled_exchanging (h.exchanging exchanging).2 polled
    rcases state with ⟨hs, -, hok⟩ | ⟨hs, -⟩
    · refine staged_of_state hs nofun nofun nofun (fun _ => ?_) hx
      cases polled.outcome with
      | stays state handle status framed => exact Or.inl (state.trans hbefore)
      | fails state status => exact Or.inr state
      | registers before' state status => exact absurd status hok
      | unregisters before' state status => exact absurd status hok
    · exact staged_of_state hs nofun nofun nofun nofun hx

/-- `p` and `p'` agree on the state, the session and the TCP connection. -/
structure SameLink (p p' : PlcClient n) : Prop where
  state : p'.state = p.state
  session : p'.session = p.session
  tcp : p'.tcp = p.tcp

/-- The operations on tags leave the connection alone. -/
theorem sameLink_called {p p' : PlcClient n} {op : Op} {es : List (Event n)} (h : Called p op p' es) :
    (op.Link ∧ p' = (p.call op).2 ∧ es = []) ∨ (¬ op.Link ∧ SameLink p p') := by
  cases h with
  | linked hop => exact Or.inl ⟨hop, rfl, rfl⟩
  | registered set => exact Or.inr ⟨id, rfl, rfl, rfl⟩
  | created free bounded => exact Or.inr ⟨id, rfl, rfl, rfl⟩
  | destroyed inUse => exact Or.inr ⟨id, rfl, rfl, rfl⟩
  | started hop inUse ready free started =>
    refine Or.inr ⟨?_, rfl, rfl, rfl⟩
    rcases hop with rfl | rfl <;> exact id
  | aborted inUse => exact Or.inr ⟨id, rfl, rfl, rfl⟩
  | edited inUse => exact Or.inr ⟨id, rfl, rfl, rfl⟩
  | refused hop => exact Or.inr ⟨hop, rfl, rfl, rfl⟩

/-- A turn of the loop leaves the connection alone, but for what the shared message moves through the socket. -/
theorem turned_link {p p' : PlcClient n} {i : Fin n} {os : Platform} {st : Status} (hc : Coupled p)
    (h : PlcClient.Turned p i os st p') :
    p'.state = p.state ∧ p'.session = p.session ∧ ∃ out inp, Transfer p.tcp p'.tcp out inp := by
  cases h with
  | rest => exact ⟨rfl, rfl, [], [], Transfer.refl _⟩
  | inFlight hin polled advanced =>
    have hm := hc.used i hin
    obtain ⟨inp, hp⟩ := ExplicitMessage.poll_spec hm (hc.framed hm) polled
    exact ⟨rfl, rfl, _, inp, hp.moved.transfer⟩

theorem Staged.of_sameLink {p p' : PlcClient n} (h : Staged p) (hs : SameLink p p') : Staged p' := by
  obtain ⟨e1, e2, e3⟩ := hs
  refine ⟨?_, ?_, ?_, ?_, ?_⟩
  · rw [e1, e3]
    exact h.connecting
  · rw [e1, e2]
    exact h.registering
  · rw [e1, e2]
    exact h.ready
  · rw [e1, e2]
    exact h.disconnecting
  · rw [e2]
    exact h.exchanging

/-- The socket is not usable before the connection is made, so nothing moves through it. -/
private theorem staged_transfer {p p' : PlcClient n} {out inp : List UInt8} (h : Staged p) (hs : p'.state = p.state)
    (hx : p'.session = p.session) (ht : Transfer p.tcp p'.tcp out inp) : Staged p' := by
  refine ⟨fun hc => ?_, ?_, ?_, ?_, ?_⟩
  · rw [hs] at hc
    have hold := h.connecting hc
    have hu : ¬ p.tcp.Usable := by
      rintro ⟨-, hok⟩
      rw [hold.2.1] at hok
      cases hok
    rw [(ht.unusable hu).1]
    exact hold
  · rw [hs, hx]
    exact h.registering
  · rw [hs, hx]
    exact h.ready
  · rw [hs, hx]
    exact h.disconnecting
  · rw [hx]
    exact h.exchanging

theorem staged_turned {p p' : PlcClient n} {i : Fin n} {os : Platform} {st : Status} (hc : Coupled p) (h : Staged p)
    (ht : PlcClient.Turned p i os st p') : Staged p' := by
  obtain ⟨hs, hx, out, inp, htr⟩ := turned_link hc ht
  exact staged_transfer h hs hx htr

namespace World

theorem staged_initial {w : World n} (h : Initial w) : Staged w.plc := by
  refine staged_of_state h.fresh.state nofun nofun nofun nofun fun hx => ?_
  rw [h.fresh.session] at hx
  rcases hx with hx | hx <;> cases hx

theorem staged_step {w w' : World n} {a : Act} (hc : Coupled w.plc) (h : Staged w.plc) (hs : step w a = some w') :
    Staged w'.plc := by
  cases a with
  | deliver bs =>
    obtain rfl := Option.some.inj hs
    exact ⟨h.connecting, h.registering, h.ready, h.disconnecting, h.exchanging⟩
  | call op =>
    obtain ⟨-, rfl⟩ := step_call hs
    rcases sameLink_called (call_cases w.plc op) with ⟨hop, -, -⟩ | ⟨-, hl⟩
    · exact staged_relinked h (relinked_call h hop)
    · exact h.of_sameLink hl
  | poll os =>
    obtain ⟨-, rfl⟩ := step_poll hs
    unfold World.poll
    split
    · exact h
    · rename_i st p called hp
      exact staged_relinked h (relinked_poll h hp)
  | iter os =>
    obtain ⟨f, fs, hf, -, hiter⟩ := step_iterated hs
    cases hiter with
    | turned st p hu ht =>
      exact staged_turned hc h ht
    | skipped => exact h
  | leave =>
    obtain ⟨f, fs, -, -, rfl⟩ := step_leave hs
    exact staged_relinked h (relinked_leave w.plc f.disconnected)

/-! ### A step, by what it concerns -/

/-- The event `poll()` adds when it has registered the session. -/
def registration (p p' : PlcClient n) : List (Event n) :=
  if p.state = .registering ∧ p'.state = .ready then
    [.registered p'.tcp.sockets (decodeHeader p'.tcp.sock.recvd).session]
  else []

/-- What an action can do: it concerns the connection, the tags, or the turn of the loop. -/
inductive Stepped (w w' : World n) : Act → Prop where
  | delivered {bs : List UInt8} (plc : w'.plc = { w.plc with tcp := w.plc.tcp.deliver bs }) (log : w'.log = w.log) :
      Stepped w w' (.deliver bs)
  | called {op : Op} (hop : ¬ op.Link) (called : Called w.plc op w'.plc (callEvents w.plc op))
      (log : w'.log = w.log ++ callEvents w.plc op) : Stepped w w' (.call op)
  | relinked {a : Act} {es : List (Event n)} (link : Relinked w.plc w'.plc)
      (closing : w.plc.state = .ready → w'.plc.state = .disconnecting → a = .call .disconnect)
      (same : PlcClient.SameTags w.plc w'.plc) (callbacks : ∀ e ∈ es, ∃ st, e = .stateCallback st)
      (log : w'.log = w.log ++ registration w.plc w'.plc ++ es) : Stepped w w' a
  | turned {os : Platform} {f : PollFrame} {fs : List PollFrame} {i : Fin n} {st : Status} {es : List (Event n)}
      (polls : w.polls = f :: fs) (slot : f.next = i.val) (inUse : (w.plc.slots i).inUse = true)
      (turned : PlcClient.Turned w.plc i os st w'.plc) (callbacks : ∀ e ∈ es, ∃ st, e = .tagCallback i st)
      (log : w'.log = w.log ++ iterEvents w.plc i st w'.plc (starts w.log) ++ es) : Stepped w w' (.iter os)
  | skipped {os : Platform} (plc : w'.plc = w.plc) (log : w'.log = w.log) : Stepped w w' (.iter os)

theorem connect_state (p : PlcClient n) (ip : IPAddress) (port : UInt16) (timeoutMs : UInt32) (os : Platform) :
    (p.connect ip port timeoutMs os).2.state = .connecting ∨ (p.connect ip port timeoutMs os).2.state = .failed ∨
      (p.connect ip port timeoutMs os).2.state = .ethernet := by
  unfold PlcClient.connect
  dsimp only
  split
  · obtain ⟨-, ⟨-, hst⟩ | ⟨-, hst⟩⟩ := dial_cases { p with
      remoteIp := ip, remotePort := port, connectTimeoutMs := timeoutMs, wantConnect := false,
      session := p.session.abort, tcp := p.tcp.close, state := .connecting, deadline := os.millis 0 + timeoutMs } os
    · exact Or.inl hst
    · exact Or.inr (Or.inl hst)
  · exact Or.inr (Or.inr rfl)

/-- Only `poll()` makes a client ready, and only `disconnect()` makes a ready client disconnect. -/
private theorem call_state {p : PlcClient n} {op : Op} (hop : op.Link) :
    ((p.call op).2.state = .ready → p.state = .ready) ∧
      (p.state = .ready → (p.call op).2.state = .disconnecting → op = .disconnect) := by
  cases op with
  | begin began configured => exact ⟨nofun, nofun⟩
  | connect ip port timeoutMs os =>
    have hst := connect_state p ip port timeoutMs os
    change ((p.connect ip port timeoutMs os).2.state = .ready → p.state = .ready) ∧
      (p.state = .ready → (p.connect ip port timeoutMs os).2.state = .disconnecting → _)
    rcases hst with e | e | e <;> rw [e] <;> exact ⟨nofun, nofun⟩
  | disconnect =>
    refine ⟨fun h => ?_, fun _ _ => rfl⟩
    change p.disconnect.2.state = .ready at h
    unfold PlcClient.disconnect at h
    split at h <;> cases h
  | setStateCallback set =>
    refine ⟨id, fun h h' => ?_⟩
    change p.state = .disconnecting at h'
    rw [h] at h'
    cases h'
  | _ => exact absurd hop id

private theorem registration_nil {p p' : PlcClient n} (h : p'.state = .ready → p.state = .ready) :
    registration p p' = [] := by
  unfold registration
  refine if_neg ?_
  rintro ⟨h1, h2⟩
  have h3 := h h2
  rw [h1] at h3
  cases h3

theorem step_cases {w w' : World n} {a : Act} (h : Staged w.plc) (hs : step w a = some w') : Stepped w w' a := by
  cases a with
  | deliver bs =>
    obtain rfl := Option.some.inj hs
    exact .delivered rfl rfl
  | call op =>
    obtain ⟨-, rfl⟩ := step_call hs
    have hc := call_cases w.plc op
    rcases sameLink_called hc with ⟨hop, -, he⟩ | ⟨hop, -⟩
    · obtain ⟨hready, hclosing⟩ := call_state (p := w.plc) hop
      have hlog : (w.call op).log = w.log ++ registration w.plc (w.call op).plc ++ [] := by
        change w.log ++ callEvents w.plc op = w.log ++ registration w.plc (w.plc.call op).2 ++ []
        rw [he, registration_nil hready, List.append_nil, List.append_nil]
      exact .relinked (relinked_call h hop) (fun h h' => congrArg Act.call (hclosing h h')) (hop.sameTags w.plc)
        (fun _ h => absurd h List.not_mem_nil) hlog
    · exact .called hop hc rfl
  | poll os =>
    obtain ⟨-, rfl⟩ := step_poll hs
    have hsame := w.poll_sameTags os
    unfold World.poll at hsame ⊢
    split
    · have hlog : w.log = w.log ++ registration w.plc w.plc ++ [] := by
        rw [registration_nil fun h => h, List.append_nil, List.append_nil]
      have hkeep : w.plc.state = .ready → w.plc.state ≠ .disconnecting := by
        intro e
        rw [e]
        nofun
      exact .relinked (.kept rfl rfl (Or.inl rfl)) (fun h h' => absurd h' (hkeep h)) ⟨rfl, rfl, rfl⟩
        (fun _ h => absurd h List.not_mem_nil) hlog
    · rename_i st p called hp
      rw [hp] at hsame
      have hready : w.plc.state ≠ .ready := by
        intro e
        rw [PlcClient.pollState_none.2 e] at hp
        cases hp
      refine .relinked (relinked_poll h hp) (fun h _ => absurd h hready) hsame (fun e he => ?_) rfl
      obtain ⟨st, -, rfl⟩ := List.mem_map.1 he
      exact ⟨st, rfl⟩
  | iter os =>
    obtain ⟨f, fs, hf, hp, hiter⟩ := step_iterated hs
    cases hiter with
    | turned st p hu ht =>
      refine .turned hp rfl hu ht (fun e he => ?_) rfl
      split at he
      · rw [List.mem_singleton] at he
        exact ⟨st, he⟩
      · cases he
    | skipped => exact .skipped rfl rfl
  | leave =>
    obtain ⟨f, fs, -, -, rfl⟩ := step_leave hs
    have hstate : (w.plc.loopEnd f.disconnected).2.1.state = w.plc.state ∨
        (w.plc.loopEnd f.disconnected).2.1.state = .idle := by
      unfold PlcClient.loopEnd
      split
      · exact Or.inr rfl
      · exact Or.inl rfl
    have hready : (w.leave f fs).plc.state = .ready → w.plc.state = .ready := by
      change (w.plc.loopEnd f.disconnected).2.1.state = .ready → _
      rcases hstate with e | e <;> rw [e]
      · exact id
      · nofun
    have hkeep : w.plc.state = .ready → (w.leave f fs).plc.state ≠ .disconnecting := by
      intro hr
      change (w.plc.loopEnd f.disconnected).2.1.state ≠ .disconnecting
      rcases hstate with e | e <;> rw [e]
      · rw [hr]
        nofun
      · nofun
    have hlog : (w.leave f fs).log = w.log ++ registration w.plc (w.leave f fs).plc ++
        (w.plc.loopEnd f.disconnected).2.2.toList.map .stateCallback := by
      rw [registration_nil hready, List.append_nil]
      rfl
    refine .relinked (relinked_leave w.plc f.disconnected) (fun h h' => absurd h' (hkeep h)) (w.leave_sameTags f fs)
      (fun e he => ?_) hlog
    obtain ⟨st, -, rfl⟩ := List.mem_map.1 he
    exact ⟨st, rfl⟩

theorem Reachable.staged {w : World n} (h : Reachable w) : Staged w.plc := by
  have hall : Coupled w.plc ∧ Staged w.plc := by
    refine h.invariant (I := fun w => Coupled w.plc ∧ Staged w.plc) (fun w hi => ?_) fun w a w' hw hs => ?_
    · exact ⟨coupled_initial hi, staged_initial hi⟩
    · exact ⟨coupled_step hw.1 hs, staged_step hw.1 hw.2 hs⟩
  exact hall.2

end World

end ControlLogix
