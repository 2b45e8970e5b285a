import ControlLogix.Stages

/-!
# A queued connect and an immediate one

`connect()` on a client whose Ethernet is not ready stores its arguments, and the `poll()` that finds Ethernet ready
dials.  The two ways to a dialled connection are separate code: `connect()` aborts the session and closes the socket
first, while `poll()` only dials.  The socket comes out the same, because `TcpConnection::connect` closes the old one
itself; the session is whatever it was when `connect()` was called.

* `TcpConnection.connect_alike`: dialling forgets what the connection did before;
* `waiting_step`: nothing but `begin()` and `connect()` touches a queued connect;
* `queued_iff`: when the released client is like the one that dialled at once.
-/

namespace ControlLogix

open Transition
open TcpConnection (Transfer)

variable {n : Nat}

/-! ### The socket -/

namespace TcpConnection

/-- Without a socket, nothing is left of the last one. -/
def Cleared (t : TcpConnection) : Prop :=
  t.fd < 0 → t.state = .closed ∧ t.remoteIp = 0 ∧ t.remotePort = 0 ∧ t.deadline = 0

theorem close_cleared (t : TcpConnection) : t.close.Cleared := by
  intro _
  unfold close
  split <;> exact ⟨rfl, rfl, rfl, rfl⟩

theorem connect_cleared {t : TcpConnection} (h : t.Cleared) (ip : IPAddress) (port : UInt16) (timeoutMs now : UInt32)
    (os : ConnectAnswers) : (t.connect ip port timeoutMs os now).2.Cleared := by
  have hup : (if 0 ≤ t.fd then t.close else t).Cleared := by
    split
    · exact close_cleared t
    · exact h
  unfold connect
  dsimp only
  generalize (if 0 ≤ t.fd then t.close else t) = t₁ at hup
  split
  · exact hup
  · split
    · exact hup
    · rename_i hsock
      split
      · exact hup
      · split
        · exact hup
        · split
          · exact hup
          · intro hfd
            simp only at hfd
            omega

theorem poll_cleared {t : TcpConnection} (h : t.Cleared) (os : PollAnswers) (now : UInt32) :
    (t.poll os now).2.Cleared := by
  unfold poll
  dsimp only
  split
  · exact h
  · rename_i hfd
    split
    · exact h
    · split
      · exact close_cleared _
      · split
        · split
          · exact close_cleared _
          · exact h
        · split
          · exact close_cleared _
          · split
            · exact fun hneg => absurd hneg hfd
            · exact close_cleared _

/-- Nothing moves through a connection without a socket. -/
theorem Transfer.cleared {t t' : TcpConnection} {out inp : List UInt8} (ht : Transfer t t' out inp) (h : t.Cleared) :
    t'.Cleared := by
  intro hfd
  have hu : ¬ t.Usable := by
    rintro ⟨h0, -⟩
    rw [ht.fd] at hfd
    omega
  obtain ⟨rfl, -, -⟩ := ht.unusable hu
  exact h hfd

/-- The two connections are in the same state, on sockets that have carried the same bytes. -/
structure Alike (t t' : TcpConnection) : Prop where
  fd : t'.fd = t.fd
  state : t'.state = t.state
  remoteIp : t'.remoteIp = t.remoteIp
  remotePort : t'.remotePort = t.remotePort
  sock : 0 ≤ t.fd → t'.sock = t.sock
  sockets : t'.sockets = t.sockets

/-- `connect()` closes the old socket itself. -/
theorem connect_close {t : TcpConnection} (h : t.Cleared) (ip : IPAddress) (port : UInt16) (timeoutMs now : UInt32)
    (os : ConnectAnswers) : t.close.connect ip port timeoutMs os now = t.connect ip port timeoutMs os now := by
  have e : (if 0 ≤ t.close.fd then t.close.close else t.close) = if 0 ≤ t.fd then t.close else t := by
    rw [if_neg (by have := (close_dropped t).fd; omega)]
    split
    · rfl
    · rename_i hfd
      obtain ⟨h1, h2, h3, h4⟩ := h (by omega)
      unfold close
      rw [if_neg hfd]
      cases t
      simp only at h1 h2 h3 h4
      rw [h1, h2, h3, h4]
  unfold connect
  dsimp only
  rw [e]

/-- Dialling again leaves no trace of what the connection did before. -/
theorem connect_alike {t t' : TcpConnection} (ht : t.Cleared) (ht' : t'.Cleared) (hfd : t'.fd = t.fd)
    (hs : t'.sockets = t.sockets) (ip : IPAddress) (port : UInt16) (timeoutMs now now' : UInt32)
    (os : ConnectAnswers) :
    (t'.connect ip port timeoutMs os now').1 = (t.connect ip port timeoutMs os now).1 ∧
      Alike (t.connect ip port timeoutMs os now).2 (t'.connect ip port timeoutMs os now').2 := by
  -- after the old socket is closed, the two differ in the histories only
  have hup : Alike (if 0 ≤ t.fd then t.close else t) (if 0 ≤ t'.fd then t'.close else t') ∧
      (if 0 ≤ t.fd then t.close else t).fd < 0 := by
    rw [hfd]
    split
    · rename_i h0
      have h0' : 0 ≤ t'.fd := by omega
      unfold close
      rw [if_pos h0, if_pos h0']
      exact ⟨⟨rfl, rfl, rfl, rfl, fun hneg => by simp at hneg, hs⟩, by simp⟩
    · rename_i h0
      obtain ⟨h1, h2, h3, -⟩ := ht (by omega)
      obtain ⟨h1', h2', h3', -⟩ := ht' (by omega)
      exact ⟨⟨hfd, h1'.trans h1.symm, h2'.trans h2.symm, h3'.trans h3.symm, fun hneg => absurd hneg h0, hs⟩, by omega⟩
  obtain ⟨ha, hneg⟩ := hup
  unfold connect
  dsimp only
  generalize (if 0 ≤ t.fd then t.close else t) = u at ha hneg
  generalize (if 0 ≤ t'.fd then t'.close else t') = u' at ha
  split
  · exact ⟨rfl, ha⟩
  · split
    · exact ⟨rfl, ha⟩
    · split
      · exact ⟨rfl, ha.fd, ha.state, ha.remoteIp, ha.remotePort, ha.sock, ha.sockets⟩
      · split
        · exact ⟨rfl, ha.fd, ha.state, ha.remoteIp, ha.remotePort, ha.sock, ha.sockets⟩
        · split
          · exact ⟨rfl, ha.fd, ha.state, ha.remoteIp, ha.remotePort, ha.sock, ha.sockets⟩
          · exact ⟨rfl, rfl, rfl, rfl, rfl, fun _ => rfl, congrArg (· + 1) ha.sockets⟩

end TcpConnection

/-! ### The session -/

namespace Session

/-- The two sessions hold the same exchange.  A session that was never opened is like one that was dropped. -/
structure Alike (s s' : Session) : Prop where
  state : s'.state = s.state ∨ (s'.state = .idle ∨ s'.state = .closed) ∧ (s.state = .idle ∨ s.state = .closed)
  handle : s'.handle = s.handle
  context : s'.context = s.context
  tx : s'.tx = s.tx ∧ s'.txLen = s.txLen ∧ s'.txSent = s.txSent
  rx : s'.rx = s.rx ∧ s'.rxLen = s.rxLen ∧ s'.rxExpected = s.rxExpected

/-- There is no session, and nothing is left of the last one. -/
structure Unused (s : Session) : Prop where
  state : s.state = .idle ∨ s.state = .closed
  handle : s.handle = 0
  tx : s.txLen = 0 ∧ s.txSent = 0
  rx : s.rxLen = 0 ∧ s.rxExpected = 0

theorem alike_abort {s : Session} : s.abort.Alike s ↔ s.Unused := by
  constructor
  · intro h
    obtain ⟨hst, hh, -, ⟨-, h1, h2⟩, -, h3, h4⟩ := h
    refine ⟨?_, hh, ⟨h1, h2⟩, h3, h4⟩
    rcases hst with e | ⟨e, -⟩
    · exact Or.inr e
    · exact e
  · rintro ⟨hst, hh, ⟨h1, h2⟩, h3, h4⟩
    exact ⟨Or.inr ⟨hst, Or.inr rfl⟩, hh, rfl, ⟨rfl, h1, h2⟩, rfl, h3, h4⟩

/-- `open()` cannot find a session that is there. -/
def NeverBusy (s : Session) : Prop := ∀ conn timeoutMs now, (s.open conn timeoutMs now).1 ≠ .busy

theorem neverBusy_iff {s : Session} : s.NeverBusy ↔ s.state ≠ .registering ∧ s.state ≠ .registered := by
  constructor
  · intro h
    rw [← not_or]
    intro hs
    have hb := h {} 0 0
    rw [«open», if_pos hs] at hb
    exact hb rfl
  · intro h conn timeoutMs now
    unfold «open»
    rw [if_neg (not_or.2 h)]
    split
    · nofun
    · nofun

theorem Unused.neverBusy {s : Session} (h : s.Unused) : s.NeverBusy := by
  rw [neverBusy_iff]
  rcases h.state with e | e <;> rw [e] <;> exact ⟨nofun, nofun⟩

end Session

/-! ### A connect that waits -/

/-- The client `p` still carries the connect to `ip`, `port` that was queued when the client was `p₀`. -/
structure Waiting (p₀ : PlcClient n) (ip : IPAddress) (port : UInt16) (timeoutMs : UInt32) (p : PlcClient n) :
    Prop where
  want : p.wantConnect = true
  remoteIp : p.remoteIp = ip
  remotePort : p.remotePort = port
  timeout : p.connectTimeoutMs = timeoutMs
  session : p.session = p₀.session
  fd : p.tcp.fd = p₀.tcp.fd
  sockets : p.tcp.sockets = p₀.tcp.sockets
  eth : p.eth.started = p₀.eth.started ∧ p.eth.failed = p₀.eth.failed

/-- `p` and `p'` agree on what a queued connect is about. -/
structure SameQueue (p p' : PlcClient n) : Prop where
  want : p'.wantConnect = p.wantConnect
  remoteIp : p'.remoteIp = p.remoteIp
  remotePort : p'.remotePort = p.remotePort
  timeout : p'.connectTimeoutMs = p.connectTimeoutMs
  session : p'.session = p.session
  fd : p'.tcp.fd = p.tcp.fd
  sockets : p'.tcp.sockets = p.tcp.sockets
  eth : p'.eth.started = p.eth.started ∧ p'.eth.failed = p.eth.failed

theorem Waiting.of_sameQueue {p₀ p p' : PlcClient n} {ip : IPAddress} {port : UInt16} {timeoutMs : UInt32}
    (h : Waiting p₀ ip port timeoutMs p) (hs : SameQueue p p') : Waiting p₀ ip port timeoutMs p' where
  want := hs.want.trans h.want
  remoteIp := hs.remoteIp.trans h.remoteIp
  remotePort := hs.remotePort.trans h.remotePort
  timeout := hs.timeout.trans h.timeout
  session := hs.session.trans h.session
  fd := hs.fd.trans h.fd
  sockets := hs.sockets.trans h.sockets
  eth := ⟨hs.eth.1.trans h.eth.1, hs.eth.2.trans h.eth.2⟩

/-- The calls about tags leave a queued connect alone. -/
theorem called_sameQueue {p p' : PlcClient n} {op : Op} {es : List (Event n)} (h : Called p op p' es)
    (hop : ¬ op.Link) : SameQueue p p' := by
  cases h with
  | linked hop' => exact absurd hop' hop
  | _ => exact ⟨rfl, rfl, rfl, rfl, rfl, rfl, rfl, rfl, rfl⟩

theorem turned_sameQueue {p p' : PlcClient n} {i : Fin n} {os : Platform} {st : Status} (hc : Coupled p)
    (h : PlcClient.Turned p i os st p') : SameQueue p p' := by
  obtain ⟨-, -, out, inp, ht⟩ := turned_link hc h
  cases h with
  | rest hr => exact ⟨rfl, rfl, rfl, rfl, rfl, rfl, rfl, rfl, rfl⟩
  | inFlight hin polled advanced => exact ⟨rfl, rfl, rfl, rfl, rfl, ht.fd, ht.sockets, rfl, rfl⟩

/-- Only `begin()` and `connect()` bring a client back to waiting for Ethernet. -/
theorem pollState_ethernet {p p' : PlcClient n} {os : Platform} {st : Status} {called : Option Status}
    (hp : p.pollState os = some (st, p', called)) (h : p'.state = .ethernet) : p.state = .ethernet := by
  have hreg : (p.pollRegistering os).2.1.state = .ethernet → p.state = .ethernet := by
    unfold PlcClient.pollRegistering
    dsimp only
    split
    · nofun
    · split
      · nofun
      · split
        · nofun
        · exact id
  have hcon : (p.pollConnecting os).2.1.state = .ethernet → p.state = .ethernet := by
    unfold PlcClient.pollConnecting
    dsimp only
    split
    · nofun
    · split
      · split <;> nofun
      · split
        · nofun
        · exact id
  have hdis : (p.pollDisconnecting os).2.1.state = .ethernet → p.state = .ethernet := by
    unfold PlcClient.pollDisconnecting
    dsimp only
    split
    · nofun
    · exact id
  unfold PlcClient.pollState at hp
  cases hs : p.state <;> rw [hs] at hp <;> simp only [Option.some.injEq, reduceCtorEq] at hp
  · cases hp
    exact absurd h (by rw [hs]; nofun)
  · rw [hp] at hcon
    rw [← hs]
    exact hcon h
  · rw [hp] at hreg
    rw [← hs]
    exact hreg h
  · rw [hp] at hdis
    rw [← hs]
    exact hdis h
  · cases hp
    exact absurd h (by rw [hs]; nofun)

/-- The client as `poll()` makes it ready to dial. -/
def PlcClient.released (p : PlcClient n) (os : Platform) : PlcClient n :=
  { p with eth := (p.eth.poll os.link).2, wantConnect := false, state := .connecting,
           deadline := os.millis 0 + p.connectTimeoutMs }

theorem pollEthernet_released {p : PlcClient n} {os : Platform} (hw : p.wantConnect = true)
    (hup : (p.eth.poll os.link).1 = .ok) :
    p.pollEthernet os = (((p.released os).dial os).1, ((p.released os).dial os).2, none) := by
  unfold PlcClient.pollEthernet
  dsimp only
  rw [if_pos hup, if_pos hw]
  rfl

/-- A `poll()` that leaves the client waiting for Ethernet has not used the queued connect. -/
theorem pollEthernet_waits {p : PlcClient n} {os : Platform} (hw : p.wantConnect = true)
    (h : (p.pollEthernet os).2.1.state = .ethernet) : SameQueue p (p.pollEthernet os).2.1 := by
  by_cases hup : (p.eth.poll os.link).1 = .ok
  · -- Ethernet is ready, and the client dials
    rw [pollEthernet_released hw hup] at h
    obtain ⟨-, ⟨-, hst⟩ | ⟨-, hst⟩⟩ := dial_cases (p.released os) os
    · rw [hst] at h
      cases h
    · rw [hst] at h
      cases h
  · have heth : (p.eth.poll os.link).2.started = p.eth.started ∧ (p.eth.poll os.link).2.failed = p.eth.failed := by
      unfold Client.poll
      split
      · exact ⟨rfl, rfl⟩
      · split
        · exact ⟨rfl, rfl⟩
        · split
          · exact ⟨rfl, rfl⟩
          · split <;> exact ⟨rfl, rfl⟩
    unfold PlcClient.pollEthernet
    dsimp only
    rw [if_neg hup]
    split
    · exact ⟨rfl, rfl, rfl, rfl, rfl, rfl, rfl, heth⟩
    · exact ⟨rfl, rfl, rfl, rfl, rfl, rfl, rfl, heth⟩

namespace World

/-- Nothing but `begin()` and another `connect()` takes a queued connect back. -/
def Waits (_ : World n) : Act → Prop
  | .call (.begin ..) => False
  | .call (.connect ..) => False
  | _ => True

instance (w : World n) : (a : Act) → Decidable (Waits w a)
  | .call (.begin ..) | .call (.connect ..) => .isFalse id
  | .call .disconnect | .call (.createTag ..) | .call (.destroyTag _) | .call (.read ..) | .call (.write ..)
  | .call (.abortTag _) | .call (.editTag ..) | .call (.setTagCallback _) | .call (.setStateCallback _) | .deliver _
  | .poll _ | .iter _ | .leave => .isTrue trivial

theorem waiting_step {w w' : World n} {a : Act} {p₀ : PlcClient n} {ip : IPAddress} {port : UInt16}
    {timeoutMs : UInt32} (hc : Coupled w.plc) (h : w.plc.state = .ethernet → Waiting p₀ ip port timeoutMs w.plc)
    (hok : Waits w a) (hs : step w a = some w') (he : w'.plc.state = .ethernet) :
    Waiting p₀ ip port timeoutMs w'.plc := by
  cases a with
  | deliver bs =>
    obtain rfl := Option.some.inj hs
    exact (h he).of_sameQueue ⟨rfl, rfl, rfl, rfl, rfl, rfl, rfl, rfl, rfl⟩
  | call op =>
    obtain ⟨-, rfl⟩ := step_call hs
    have hcall := call_cases w.plc op
    rcases sameLink_called hcall with ⟨hop, -, -⟩ | ⟨hop, hl⟩
    · cases op with
      | begin began configured => exact absurd hok id
      | connect ip port timeoutMs os => exact absurd hok id
      | disconnect =>
        change w.plc.disconnect.2.state = .ethernet at he
        unfold PlcClient.disconnect at he
        split at he <;> cases he
      | setStateCallback set => exact (h he).of_sameQueue ⟨rfl, rfl, rfl, rfl, rfl, rfl, rfl, rfl, rfl⟩
      | _ => exact absurd hop id
    · exact (h (hl.state.symm.trans he)).of_sameQueue (called_sameQueue hcall hop)
  | poll os =>
    obtain ⟨-, rfl⟩ := step_poll hs
    unfold World.poll at he
    split at he
    · rename_i hnone
      rw [PlcClient.pollState_none.1 hnone] at he
      cases he
    · rename_i st p called hp
      have hbefore := pollState_ethernet hp he
      have hwait := h hbefore
      have hpe : w.plc.pollEthernet os = (st, p, called) := by
        unfold PlcClient.pollState at hp
        rw [hbefore] at hp
        exact Option.some.inj hp
      have hsame : SameQueue w.plc (w.plc.pollEthernet os).2.1 :=
        pollEthernet_waits hwait.want (by rw [hpe]; exact he)
      rw [hpe] at hsame
      have hplc : (w.poll os).plc = p := by
        unfold World.poll
        rw [hp]
      rw [hplc]
      exact hwait.of_sameQueue hsame
  | iter os =>
    obtain ⟨f, fs, hf, -, hiter⟩ := step_iterated hs
    cases hiter with
    | turned st p hu ht =>
      have hst := (turned_link hc ht).1
      exact (h (hst.symm.trans he)).of_sameQueue (turned_sameQueue hc ht)
    | skipped => exact h he
  | leave =>
    obtain ⟨f, fs, -, -, rfl⟩ := step_leave hs
    have hkeep : (w.leave f fs).plc.state = .ethernet → (w.leave f fs).plc = w.plc := by
      unfold World.leave PlcClient.loopEnd
      by_cases hd : f.disconnected = true
      · rw [if_pos hd]
        nofun
      · rw [if_neg hd]
        exact fun _ => rfl
    have hplc := hkeep he
    rw [hplc] at he ⊢
    exact h he

/-! ### The socket in every reachable state -/

private theorem dial_cleared {p : PlcClient n} (h : p.tcp.Cleared) (os : Platform) : (p.dial os).2.tcp.Cleared := by
  have hc := TcpConnection.connect_cleared h p.remoteIp p.remotePort p.connectTimeoutMs (os.millis 1) os.connect
  unfold PlcClient.dial
  split
  · rename_i t ht
    rw [ht] at hc
    exact hc
  · rename_i st t hne ht
    rw [ht] at hc
    exact hc

private theorem cleared_link {p : PlcClient n} (h : p.tcp.Cleared) {op : Op} (hop : op.Link) :
    (p.call op).2.tcp.Cleared := by
  cases op with
  | begin began configured => exact h
  | connect ip port timeoutMs os =>
    change (p.connect ip port timeoutMs os).2.tcp.Cleared
    unfold PlcClient.connect
    dsimp only
    split
    · exact dial_cleared (TcpConnection.close_cleared p.tcp) os
    · exact h
  | disconnect =>
    change p.disconnect.2.tcp.Cleared
    unfold PlcClient.disconnect
    split
    · exact h
    · exact TcpConnection.close_cleared p.tcp
  | setStateCallback set => exact h
  | _ => exact absurd hop id

private theorem cleared_session {p : PlcClient n} (hst : Staged p) (h : p.tcp.Cleared) (now : UInt32)
    (os : Platform) :
    (p.session.poll p.tcp now os).2.2.Cleared := by
  by_cases hx : p.session.Exchanging
  · obtain ⟨st, session, tcp, hpoll⟩ : ∃ st session tcp, p.session.poll p.tcp now os = (st, session, tcp) :=
      ⟨_, _, _, rfl⟩
    obtain ⟨inp, hp⟩ := Session.poll_exchange hx (hst.exchanging hx).1 hpoll
    rw [hpoll]
    exact TcpConnection.Transfer.cleared hp.moved.transfer h
  · rw [Session.poll_settled hx]
    exact h

private theorem cleared_poll {p p' : PlcClient n} {os : Platform} {st : Status} {called : Option Status}
    (hst : Staged p) (h : p.tcp.Cleared) (hp : p.pollState os = some (st, p', called)) : p'.tcp.Cleared := by
  have heth : (p.pollEthernet os).2.1.tcp.Cleared := by
    unfold PlcClient.pollEthernet
    dsimp only
    split
    · split
      · exact dial_cleared (p := p.released os) h os
      · exact h
    · split <;> exact h
  have hcon : (p.pollConnecting os).2.1.tcp.Cleared := by
    have hpoll := TcpConnection.poll_cleared h os.poll (os.millis 1)
    unfold PlcClient.pollConnecting
    dsimp only
    split
    · exact h
    · split
      · split <;> exact hpoll
      · split <;> exact hpoll
  have hreg : (p.pollRegistering os).2.1.tcp.Cleared := by
    have hpoll := cleared_session hst h (os.millis 1) os
    unfold PlcClient.pollRegistering
    dsimp only
    split
    · exact h
    · split
      · exact hpoll
      · split <;> exact hpoll
  have hdis : (p.pollDisconnecting os).2.1.tcp.Cleared := by
    have hpoll := cleared_session hst h (os.millis 0) os
    unfold PlcClient.pollDisconnecting
    dsimp only
    split
    · exact TcpConnection.close_cleared _
    · exact hpoll
  unfold PlcClient.pollState at hp
  cases hs : p.state <;> rw [hs] at hp <;> simp only [Option.some.injEq, reduceCtorEq] at hp
  · cases hp
    exact h
  · rwa [hp] at heth
  · rwa [hp] at hcon
  · rwa [hp] at hreg
  · rwa [hp] at hdis
  · cases hp
    exact h

theorem cleared_step {w w' : World n} {a : Act} (hc : Coupled w.plc) (hst : Staged w.plc) (h : w.plc.tcp.Cleared)
    (hs : step w a = some w') : w'.plc.tcp.Cleared := by
  cases a with
  | deliver bs =>
    obtain rfl := Option.some.inj hs
    exact h
  | call op =>
    obtain ⟨-, rfl⟩ := step_call hs
    rcases sameLink_called (call_cases w.plc op) with ⟨hop, -, -⟩ | ⟨-, hl⟩
    · exact cleared_link h hop
    · rw [show (w.call op).plc.tcp = w.plc.tcp from hl.tcp]
      exact h
  | poll os =>
    obtain ⟨-, rfl⟩ := step_poll hs
    unfold World.poll
    split
    · exact h
    · rename_i st p called hp
      exact cleared_poll hst h hp
  | iter os =>
    obtain ⟨f, fs, hf, -, hiter⟩ := step_iterated hs
    cases hiter with
    | turned st p hu ht =>
      obtain ⟨-, -, out, inp, htr⟩ := turned_link hc ht
      exact TcpConnection.Transfer.cleared htr h
    | skipped => exact h
  | leave =>
    obtain ⟨f, fs, -, -, rfl⟩ := step_leave hs
    change (w.plc.loopEnd f.disconnected).2.1.tcp.Cleared
    unfold PlcClient.loopEnd
    split
    · exact TcpConnection.close_cleared _
    · exact h

/-- What is known of the connection in every reachable state. -/
structure Consistent (w : World n) : Prop where
  coupled : Coupled w.plc
  staged : Staged w.plc
  cleared : w.plc.tcp.Cleared

theorem consistent_step {w w' : World n} {a : Act} (h : Consistent w) (hs : step w a = some w') : Consistent w' :=
  ⟨coupled_step h.coupled hs, staged_step h.coupled h.staged hs, cleared_step h.coupled h.staged h.cleared hs⟩

theorem Reachable.consistent {w : World n} (h : Reachable w) : Consistent w := by
  refine h.invariant (fun w hi => ⟨coupled_initial hi, staged_initial hi, ?_⟩) fun _ _ _ => consistent_step
  rw [hi.fresh.tcp]
  exact fun _ => ⟨rfl, rfl, rfl, rfl⟩

end World

/-! ### The released client and the one that dialled at once -/

/-- The same client, with Ethernet ready. -/
def PlcClient.withReady (p : PlcClient n) : PlcClient n := { p with eth := { p.eth with ready := true } }

/-- The client as `connect()` makes it ready to dial. -/
def PlcClient.hungUp (p : PlcClient n) (ip : IPAddress) (port : UInt16) (timeoutMs : UInt32) (os : Platform) :
    PlcClient n :=
  { p with remoteIp := ip, remotePort := port, connectTimeoutMs := timeoutMs, wantConnect := false,
           session := p.session.abort, tcp := p.tcp.close, state := .connecting, deadline := os.millis 0 + timeoutMs }

theorem connect_ready {p : PlcClient n} (h : p.eth.ready = true) (ip : IPAddress) (port : UInt16)
    (timeoutMs : UInt32) (os : Platform) :
    p.connect ip port timeoutMs os = (p.hungUp ip port timeoutMs os).dial os := by
  unfold PlcClient.connect
  dsimp only
  rw [if_pos h]
  rfl

/-- The two clients are in the same state; the deadlines may differ. -/
structure PlcClient.Alike (p p' : PlcClient n) : Prop where
  state : p'.state = p.state
  remote : p'.remoteIp = p.remoteIp ∧ p'.remotePort = p.remotePort
  timeout : p'.connectTimeoutMs = p.connectTimeoutMs
  want : p'.wantConnect = p.wantConnect
  eth : p'.eth = p.eth
  session : p.session.Alike p'.session
  tcp : p.tcp.Alike p'.tcp

theorem dial_state (p : PlcClient n) (os : Platform) : (p.dial os).2 =
    { p with tcp := (p.tcp.connect p.remoteIp p.remotePort p.connectTimeoutMs os.connect (os.millis 1)).2,
             state := if (p.tcp.connect p.remoteIp p.remotePort p.connectTimeoutMs os.connect (os.millis 1)).1 =
               .pending then p.state else .failed } := by
  unfold PlcClient.dial
  split
  · rename_i t ht
    rw [ht]
    rfl
  · rename_i st t hne ht
    rw [ht]
    rw [if_neg (by simpa using hne)]

/-- Two clients that dial the same peer, one with its old socket closed already, come out alike. -/
private theorem dial_alike (p p' : PlcClient n) {t : TcpConnection} {os os' : Platform}
    (hos : os'.connect = os.connect) (ht : t.Cleared) (htcp : p.tcp = t.close) (hp' : p'.tcp.Cleared)
    (hfd : p'.tcp.fd = t.fd)
    (hsock : p'.tcp.sockets = t.sockets) (hstate : p'.state = p.state) (hip : p'.remoteIp = p.remoteIp)
    (hport : p'.remotePort = p.remotePort) (htime : p'.connectTimeoutMs = p.connectTimeoutMs) :
    (p'.dial os').2.state = (p.dial os).2.state ∧ (p.dial os).2.tcp.Alike (p'.dial os').2.tcp := by
  obtain ⟨hst, ha⟩ := TcpConnection.connect_alike ht hp' hfd hsock p.remoteIp p.remotePort p.connectTimeoutMs
    (os.millis 1) (os'.millis 1) os.connect
  rw [dial_state, dial_state, hip, hport, htime, hos, htcp, TcpConnection.connect_close ht, hst, hstate]
  exact ⟨rfl, ha⟩

theorem client_released {c : Client} {up : Bool} (h : (c.poll up).1 = .ok) :
    (c.poll up).2 = { c with ready := true } := by
  unfold Client.poll at h ⊢
  split at h
  · cases h
  · rename_i h1
    split at h
    · cases h
    · rename_i h2
      rw [if_neg h1, if_neg h2]
      split at h
      · rename_i h3
        rw [if_pos h3, ← h3]
      · rename_i h3
        rw [if_neg h3]
        split at h
        · rename_i h4
          rw [if_pos h4]
        · cases h

namespace World

section Release

variable {w₀ w : World n} {as : List Act} {ip : IPAddress} {port : UInt16} {timeoutMs : UInt32}
  {os₀ os os' : Platform}

/-- Every step after the queued connect keeps it, for as long as the client waits. -/
private theorem waiting_run (hr : Reachable w₀) (hq : w₀.plc.eth.ready = false)
    (hrun : Run step Waits (w₀.call (.connect ip port timeoutMs os₀)) as w) :
    Consistent w ∧ (w.plc.state = .ethernet → Waiting w₀.plc ip port timeoutMs w.plc) := by
  have hcon := hr.consistent
  have hcall : (w₀.call (.connect ip port timeoutMs os₀)).plc =
      { w₀.plc with remoteIp := ip, remotePort := port, connectTimeoutMs := timeoutMs, wantConnect := true,
                    state := .ethernet } := by
    change (w₀.plc.connect ip port timeoutMs os₀).2 = _
    unfold PlcClient.connect
    dsimp only
    rw [if_neg (by rw [hq]; nofun)]
  have hstart : Consistent (w₀.call (.connect ip port timeoutMs os₀)) := by
    have hop : (Op.connect ip port timeoutMs os₀).Link := trivial
    have hst := staged_relinked hcon.staged (relinked_call hcon.staged hop)
    have hco := coupled_called hcon.coupled (call_cases w₀.plc (.connect ip port timeoutMs os₀))
    refine ⟨hco, hst, ?_⟩
    rw [hcall]
    exact hcon.cleared
  refine hrun.invariant (I := fun w => Consistent w ∧
    (w.plc.state = .ethernet → Waiting w₀.plc ip port timeoutMs w.plc))
    (fun w a w' hw hok hs => ⟨consistent_step hw.1 hs, waiting_step hw.1.coupled hw.2 hok hs⟩) ⟨hstart, fun _ => ?_⟩
  rw [hcall]
  exact ⟨rfl, rfl, rfl, rfl, rfl, rfl, rfl, rfl, rfl⟩

/-- A connect queued in any reachable state and released by `poll()` makes the client that an immediate connect
makes, with a session that `open()` accepts, exactly when the client had no session at the call and nothing was left
of an earlier one.  The `open()` that follows can find the session busy exactly when one was there. -/
theorem queued_iff (hr : Reachable w₀) (hq : w₀.plc.eth.ready = false)
    (hrun : Run step Waits (w₀.call (.connect ip port timeoutMs os₀)) as w) (hw : w.plc.state = .ethernet)
    (hup : (w.plc.eth.poll os.link).1 = .ok) (hos : os'.connect = os.connect) :
    (((w₀.plc.withReady.connect ip port timeoutMs os').2.Alike (w.poll os).plc ∧ (w.poll os).plc.session.NeverBusy) ↔
        w₀.plc.session.Unused) ∧
      ((w.poll os).plc.session.NeverBusy ↔
        w₀.plc.session.state ≠ .registering ∧ w₀.plc.session.state ≠ .registered) ∧
      (w₀.plc.withReady.connect ip port timeoutMs os').2.session.NeverBusy := by
  obtain ⟨hcon, hwait⟩ := waiting_run hr hq hrun
  have hwait := hwait hw
  have hcleared := hr.consistent.cleared
  -- what the released client is
  have hplc : (w.poll os).plc = ((w.plc.released os).dial os).2 := by
    unfold World.poll PlcClient.pollState
    rw [hw]
    dsimp only
    rw [pollEthernet_released hwait.want hup]
  have hsession : (w.poll os).plc.session = w₀.plc.session := by
    rw [hplc, (dial_cases _ _).1]
    exact hwait.session
  -- what the immediate one is
  have himm := connect_ready (p := w₀.plc.withReady) rfl ip port timeoutMs os'
  have himmSession : (w₀.plc.withReady.connect ip port timeoutMs os').2.session = w₀.plc.session.abort := by
    rw [himm, (dial_cases _ _).1]
    rfl
  obtain ⟨hstate, htcp⟩ := dial_alike (w₀.plc.withReady.hungUp ip port timeoutMs os') (w.plc.released os) hos.symm
    hcleared rfl hcon.cleared hwait.fd hwait.sockets rfl hwait.remoteIp hwait.remotePort hwait.timeout
  have heth : (w.plc.eth.poll os.link).2 = w₀.plc.withReady.eth := by
    rw [client_released hup]
    change Client.mk w.plc.eth.started true w.plc.eth.failed = Client.mk w₀.plc.eth.started true w₀.plc.eth.failed
    rw [hwait.eth.1, hwait.eth.2]
  have halike : (w₀.plc.withReady.connect ip port timeoutMs os').2.Alike (w.poll os).plc ↔ w₀.plc.session.Unused := by
    rw [← Session.alike_abort]
    constructor
    · intro h
      rw [← himmSession, ← hsession]
      exact h.session
    · intro h
      refine ⟨?_, ?_, ?_, ?_, ?_, ?_, ?_⟩
      · rw [hplc, himm]
        exact hstate
      · rw [hplc, himm, dial_state, dial_state]
        exact ⟨hwait.remoteIp, hwait.remotePort⟩
      · rw [hplc, himm, dial_state, dial_state]
        exact hwait.timeout
      · rw [hplc, himm, dial_state, dial_state]
        rfl
      · rw [hplc, himm, dial_state, dial_state]
        exact heth
      · rw [himmSession, hsession]
        exact h
      · rw [hplc, himm]
        exact htcp
  refine ⟨?_, ?_, ?_⟩
  · rw [halike, hsession]
    exact ⟨fun h => h.1, fun h => ⟨h, h.neverBusy⟩⟩
  · rw [hsession, Session.neverBusy_iff]
  · rw [himmSession, Session.neverBusy_iff]
    exact ⟨nofun, nofun⟩

end Release

/-- The first connect of a sketch, called before the link is up. -/
theorem queued_iff_first :
    let w₀ := reached 2 [.call (.begin true true)]
    let w := after step (w₀.call (.connect 1 44818 5000 {})) [.poll { link := false }]
    (w₀.plc.withReady.connect 1 44818 5000 {}).2.Alike (w.poll {}).plc ∧ (w.poll {}).plc.session.NeverBusy :=
  (queued_iff (reachable_reached (by decide +kernel)) (by decide +kernel)
    (run_afterIf Waits (by decide +kernel)) (by decide +kernel) (by decide +kernel)
    rfl).1.2 ⟨by decide +kernel, by decide +kernel, by decide +kernel, by decide +kernel⟩

/-- A client with a session calls `begin()` again and queues a connect: `open()` finds the old session. -/
theorem busy_after_release : ¬ ∀ (w₀ w : World 2) (as : List Act) (ip : IPAddress) (port : UInt16)
    (timeoutMs : UInt32) (os₀ os os' : Platform), Reachable w₀ → w₀.plc.eth.ready = false →
    Run step Waits (w₀.call (.connect ip port timeoutMs os₀)) as w → w.plc.state = .ethernet →
    (w.plc.eth.poll os.link).1 = .ok → os'.connect = os.connect →
    (w₀.plc.withReady.connect ip port timeoutMs os').2.Alike (w.poll os).plc ∧
      ∀ os₁, ((w.poll os).plc.pollConnecting os₁).1 ≠ .busy := by
  intro h
  obtain ⟨-, hb⟩ := h (reached 2 (bringUp 7 ++ [.call (.begin true true)])) _ [] 1 44818 5000 {} {} {}
    (reachable_reached (by decide +kernel)) (by decide +kernel) (.nil _) (by decide +kernel) (by decide +kernel) rfl
  have e := hb {}
  revert e
  decide +kernel

end World

end ControlLogix
