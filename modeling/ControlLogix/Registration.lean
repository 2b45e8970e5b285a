import ControlLogix.Connections
import ControlLogix.Link

/-!
# What `ready()` means

`PlcClient` reports `Ready` from its own state, and reads the session handle from the session.  The two agree because
the only way into `Ready` is a RegisterSession exchange that the session has just ended with success, and because
whatever takes the session or the socket away also takes the client out of `Ready`.

* `Connects`: the actions that call `tcp_.connect()`;
* `heard`: the bytes that `poll()` has read for the session since the last of them.  A loop over the tags that goes on
  after a callback has connected again reads from the new socket, too, but for the shared message;
* `ready_registered`: in every run, a ready client has heard one complete reply to RegisterSession, and holds its
  handle.
-/

namespace ControlLogix

open Transition
open Buffers (Framed bodyLength)

variable {n : Nat}

/-! ### The reply that registers a session -/

/-- A complete reply to RegisterSession that reports success and names the session `handle`. -/
structure Session.Grants (reply : List UInt8) (handle : UInt32) : Prop where
  whole : WholeFrame reply
  command : (decodeHeader reply).command = Command.registerSession.code
  status : (decodeHeader reply).status = 0
  body : 4 ≤ bodyLength reply
  session : (decodeHeader reply).session = handle

/-- The validation passes only a reply that grants a handle other than 0. -/
private theorem finishRegister_grants {s s' : Session} (hf : Framed Session.kMaxBodySize s.toBuffers)
    (hlen : s.rxLen = s.rxExpected) (h : s.finishRegister = (.ok, s')) :
    Session.Grants (s'.rx.take s'.rxLen) s'.handle ∧ s'.handle ≠ 0 := by
  have hwhole : 24 ≤ s.rxLen := by
    by_contra hlt
    have := hf.head (by omega)
    omega
  have htake : (s.rx.take s.rxLen).take 24 = s.rx.take 24 := by
    rw [List.take_take, Nat.min_eq_left hwhole]
  have hheader := decodeHeader_congr htake
  have hbody := Buffers.bodyLength_congr htake
  unfold Session.finishRegister at h
  dsimp only at h
  split at h
  · cases (Prod.mk.inj h).1
  · rename_i hvalid
    simp only [not_or, Decidable.not_not, UInt16.not_lt] at hvalid
    obtain ⟨hcommand, hstatus, hlength⟩ := hvalid
    split at h
    · cases (Prod.mk.inj h).1
    · rename_i hzero
      obtain rfl := (Prod.mk.inj h).2
      refine ⟨⟨?_, ?_, ?_, ?_, ?_⟩, hzero⟩
      · change (s.rx.take s.rxLen).length = 24 + bodyLength (s.rx.take s.rxLen)
        rw [hbody, List.length_take, Nat.min_eq_left hf.fits, hlen]
        exact (hf.body hwhole).1
      · rw [← hcommand]
        exact congrArg EncapsulationHeader.command hheader
      · rw [← hstatus]
        exact congrArg EncapsulationHeader.status hheader
      · change 4 ≤ bodyLength (s.rx.take s.rxLen)
        rw [hbody]
        exact UInt16.le_iff_toNat_le.1 hlength
      · exact congrArg EncapsulationHeader.session hheader

/-- The exchange ends with success when the receive buffer holds such a reply. -/
theorem Session.poll_grants {s s' : Session} {conn conn' : TcpConnection} {now : UInt32} {os : Platform}
    (hs : s.state = .registering) (hf : Framed Session.kMaxBodySize s.toBuffers)
    (h : s.poll conn now os = (.ok, s', conn')) :
    Session.Grants (s'.rx.take s'.rxLen) s'.handle ∧ s'.handle ≠ 0 := by
  have hpoll : s.poll conn now os = Session.pollExchange Session.finishRegister s conn now os := by
    rw [Session.poll, hs]
    rfl
  rw [hpoll] at h
  unfold Session.pollExchange at h
  split at h
  · cases (Prod.mk.inj h).1
  · split at h
    · rename_i b₁ conn₁ hwrite
      have hf₁ := (Buffers.writePending_spec hwrite).framed hf
      split at h
      · cases (Prod.mk.inj h).1
      · rename_i b₂ conn₂ hread
        obtain ⟨inp, hgot⟩ := Buffers.readResponse_spec hf₁ hread
        obtain ⟨st, session, hfinish⟩ : ∃ st session,
            Session.finishRegister { s with toBuffers := b₂ } = (st, session) := ⟨_, _, rfl⟩
        rw [hfinish] at h
        simp only [Prod.mk.injEq] at h
        obtain ⟨rfl, rfl, -⟩ := h
        exact finishRegister_grants (hgot.live (Or.inl rfl)) (hgot.ok rfl) hfinish
      · rename_i hno hread
        exact absurd (Prod.mk.inj h).1 hno
    · rename_i hno hwrite
      exact absurd (Prod.mk.inj h).1 hno

namespace World

/-! ### What the session has heard -/

/-- The action calls `tcp_.connect()`: `connect()` does when Ethernet is ready, and `poll()` for a queued connect. -/
def Connects (w : World n) : Act → Prop
  | .call (.connect ..) => w.plc.eth.ready = true
  | .poll os => w.plc.state = .ethernet ∧ (w.plc.eth.poll os.link).1 = .ok ∧ w.plc.wantConnect = true
  | _ => False

instance (w : World n) : (a : Act) → Decidable (Connects w a)
  | .call (.connect ..) => inferInstanceAs (Decidable (_ = _))
  | .poll _ => inferInstanceAs (Decidable (_ ∧ _ ∧ _))
  | .call (.begin ..) | .call .disconnect | .call (.createTag ..) | .call (.destroyTag _) | .call (.read ..)
  | .call (.write ..) | .call (.abortTag _) | .call (.editTag ..) | .call (.setTagCallback _)
  | .call (.setStateCallback _) | .deliver _ | .iter _ | .leave => .isFalse id

/-- What has been read for the session since the last `tcp_.connect()`, when `heard` was before the action.  It is
`poll()` before the loop that reads for the session, and a turn of the loop that reads for the shared message. -/
def hear (w : World n) (a : Act) (w' : World n) (heard : List UInt8) : List UInt8 :=
  if Connects w a then []
  else
    match a with
    | .poll _ => heard ++ w'.plc.tcp.sock.recvd.drop w.plc.tcp.sock.recvd.length
    | _ => heard

/-- The bytes read for the session since the last `tcp_.connect()` of a run. -/
def heard (w : World n) (as : List Act) : List UInt8 := history step hear w as []

/-- What the session has heard, by the state of the client. -/
structure Hears (p : PlcClient n) (heard : List UInt8) : Prop where
  connecting : p.state = .connecting → heard = []
  registering : p.state = .registering → p.session.Exchanging → heard = p.session.rx.take p.session.rxLen
  ready : p.state = .ready → Session.Grants heard p.session.handle ∧ p.session.handle ≠ 0
  socket : p.state = .registering ∨ p.state = .ready → heard.Sublist p.tcp.sock.recvd

/-- A client that is neither connected nor connecting has no reply to show. -/
private theorem Hears.apart {p : PlcClient n} {s : PlcClient.State} (hs : p.state = s)
    (h : s ≠ .connecting ∧ s ≠ .registering ∧ s ≠ .ready) (heard : List UInt8) : Hears p heard := by
  rw [← hs] at h
  obtain ⟨hc, hg, hr⟩ := h
  exact ⟨fun e => absurd e hc, fun e => absurd e hg, fun e => absurd e hr,
    fun e => e.elim (fun e => absurd e hg) fun e => absurd e hr⟩

/-- A client that has just called `tcp_.connect()`. -/
private theorem Hears.connecting_or {p : PlcClient n} {s : PlcClient.State} (hs : p.state = s)
    (h : s = .connecting ∨ s ≠ .registering ∧ s ≠ .ready) : Hears p [] := by
  by_cases hc : s = .connecting
  · rw [hc] at hs
    refine ⟨fun _ => rfl, ?_, ?_, ?_⟩
    all_goals
      rw [hs]
      simp
  · exact Hears.apart hs ⟨hc, h.resolve_left hc⟩ []

/-- Bytes that are read for the shared message change nothing. -/
private theorem Hears.of_same {p p' : PlcClient n} {heard inp : List UInt8} (h : Hears p heard)
    (hstate : p'.state = p.state) (hsession : p'.session = p.session)
    (hrecvd : p'.tcp.sock.recvd = p.tcp.sock.recvd ++ inp) : Hears p' heard := by
  refine ⟨?_, ?_, ?_, ?_⟩
  · rw [hstate]
    exact h.connecting
  · rw [hstate, hsession]
    exact h.registering
  · rw [hstate, hsession]
    exact h.ready
  · rw [hstate, hrecvd]
    exact fun hr => (h.socket hr).trans (List.sublist_append_left _ _)

private theorem Hears.same {p p' : PlcClient n} {heard : List UInt8} (h : Hears p heard) (hl : SameLink p p') :
    Hears p' heard := by
  have hrecvd : p'.tcp.sock.recvd = p.tcp.sock.recvd ++ [] := by rw [hl.tcp, List.append_nil]
  exact h.of_same hl.state hl.session hrecvd

/-! ### Calls -/

private theorem hears_call {w : World n} {op : Op} {heard : List UInt8} (h : Hears w.plc heard) :
    Hears (w.call op).plc (hear w (.call op) (w.call op) heard) := by
  rcases sameLink_called (call_cases w.plc op) with ⟨hop, -, -⟩ | ⟨hop, hl⟩
  · cases op with
    | begin began configured => exact Hears.apart (s := .ethernet) rfl (by decide) _
    | connect ip port timeoutMs os =>
      have hstate := connect_state w.plc ip port timeoutMs os
      by_cases hready : w.plc.eth.ready = true
      · have hnew : hear w (.call (.connect ip port timeoutMs os)) (w.call (.connect ip port timeoutMs os))
          heard = [] :=
          if_pos hready
        rw [hnew]
        rcases hstate with e | e | e
        · exact Hears.connecting_or e (Or.inl rfl)
        · exact Hears.connecting_or e (Or.inr (by decide))
        · exact Hears.connecting_or e (Or.inr (by decide))
      · -- the connect is queued
        have e : (w.plc.connect ip port timeoutMs os).2.state = .ethernet := by
          simp [PlcClient.connect, hready]
        exact Hears.apart (s := .ethernet) e (by decide) _
    | disconnect =>
      have hstate : w.plc.disconnect.2.state = .disconnecting ∨ w.plc.disconnect.2.state = .idle := by
        unfold PlcClient.disconnect
        split
        · exact Or.inl rfl
        · exact Or.inr rfl
      rcases hstate with e | e
      · exact Hears.apart (s := .disconnecting) e (by decide) _
      · exact Hears.apart (s := .idle) e (by decide) _
    | setStateCallback set => exact h.same ⟨rfl, rfl, rfl⟩
    | _ => exact absurd hop id
  · have hkeep : hear w (.call op) (w.call op) heard = heard := by
      refine if_neg ?_
      cases op with
      | connect ip port timeoutMs os => exact absurd trivial hop
      | _ => exact id
    rw [hkeep]
    exact h.same hl

/-! ### `poll()` -/

private theorem hear_poll {w w' : World n} {os : Platform} (hs : w.plc.state ≠ .ethernet) {heard inp : List UInt8}
    (hrecvd : w'.plc.tcp.sock.recvd = w.plc.tcp.sock.recvd ++ inp) : hear w (.poll os) w' heard = heard ++ inp := by
  have hnot : ¬ Connects w (.poll os) := fun hc => hs hc.1
  unfold hear
  rw [if_neg hnot]
  dsimp only
  rw [hrecvd, List.drop_left]

private theorem hears_ethernet {w w' : World n} {os : Platform} {heard : List UInt8} (hs : w.plc.state = .ethernet)
    (hw : w'.plc = (w.plc.pollEthernet os).2.1) : Hears w'.plc (hear w (.poll os) w' heard) := by
  by_cases hc : Connects w (.poll os)
  · obtain ⟨-, hok, hwant⟩ := hc
    have hnew : hear w (.poll os) w' heard = [] := if_pos ⟨hs, hok, hwant⟩
    have hdial : w'.plc = ({ w.plc with
        eth := (w.plc.eth.poll os.link).2, wantConnect := false, state := .connecting,
        deadline := os.millis 0 + w.plc.connectTimeoutMs }.dial os).2 := by
      rw [hw]
      simp [PlcClient.pollEthernet, hok, hwant]
    rw [hnew]
    obtain ⟨-, ⟨-, e⟩ | ⟨-, e⟩⟩ := dial_cases { w.plc with
      eth := (w.plc.eth.poll os.link).2, wantConnect := false, state := .connecting,
      deadline := os.millis 0 + w.plc.connectTimeoutMs } os
    · exact Hears.connecting_or (s := .connecting) (by rw [hdial, e]) (Or.inl rfl)
    · exact Hears.connecting_or (s := .failed) (by rw [hdial, e]) (Or.inr (by decide))
  · have hstate : w'.plc.state = .ethernet ∨ w'.plc.state = .failed := by
      have hnot : (w.plc.eth.poll os.link).1 = .ok → w.plc.wantConnect = false := by
        intro hok
        by_contra hwant
        exact hc ⟨hs, hok, by simpa using hwant⟩
      rw [hw]
      unfold PlcClient.pollEthernet
      dsimp only
      split
      · rename_i hok
        rw [hnot hok]
        exact Or.inl hs
      · split
        · exact Or.inr rfl
        · exact Or.inl hs
    rcases hstate with e | e
    · exact Hears.apart e (by decide) _
    · exact Hears.apart e (by decide) _

private theorem hears_connecting {w w' : World n} {os : Platform} {heard : List UInt8} (h : Hears w.plc heard)
    (hst : Staged w.plc) (hs : w.plc.state = .connecting) (hr : Relinked w.plc w'.plc) :
    Hears w'.plc (hear w (.poll os) w' heard) := by
  have hnil : heard = [] := h.connecting hs
  have hrecvd : w.plc.tcp.sock.recvd = [] := (hst.connecting hs).2.2.2
  have hne : w.plc.state ≠ .ethernet := by
    rw [hs]
    decide
  -- as long as the client is connecting, the socket has handed out nothing
  have hsilent : w'.plc.tcp.sock = w.plc.tcp.sock → hear w (.poll os) w' heard = [] := by
    intro hsock
    have hsame : w'.plc.tcp.sock.recvd = w.plc.tcp.sock.recvd ++ [] := by rw [hsock, List.append_nil]
    rw [hear_poll hne hsame, hnil, List.append_nil]
  cases hr with
  | kept tcp session state =>
    rw [hsilent (by rw [tcp])]
    rcases state with e | e | e
    · exact Hears.connecting_or (e.trans hs) (Or.inl rfl)
    · exact Hears.connecting_or e (Or.inr (by decide))
    · exact Hears.connecting_or e (Or.inr (by decide))
  | dialled tcp session state =>
    have hsame : w'.plc.tcp.sock.recvd = w.plc.tcp.sock.recvd ++ [] := by
      rw [tcp.sock, hrecvd]
      rfl
    rw [hear_poll hne hsame, hnil]
    exact Hears.connecting_or state (Or.inl rfl)
  | dropped tcp session state =>
    rcases state with e | e
    · exact Hears.apart e (by decide) _
    · exact Hears.apart e (by decide) _
  | waited before tcp pending session state =>
    rw [hsilent tcp.sock]
    exact Hears.connecting_or state (Or.inl rfl)
  | refused before tcp session state => exact Hears.apart state (by decide) _
  | opened before tcp session state =>
    rw [hsilent tcp.sock]
    refine ⟨fun _ => rfl, fun _ _ => ?_, ?_, fun _ => List.nil_sublist _⟩
    · -- the receive buffer of an exchange just started is empty
      rw [session]
      rfl
    · rw [state]
      simp
  | registers before exchanging polled state =>
    rw [hs] at before
    cases before
  | closing before tcp session state =>
    rw [hs] at before
    cases before
  | unregisters before exchanging polled state =>
    rw [hs] at before
    cases before

private theorem hears_registering {w w' : World n} {os : Platform} {heard : List UInt8} (h : Hears w.plc heard)
    (hst : Staged w.plc) (hs : w.plc.state = .registering) (hw : w'.plc = (w.plc.pollRegistering os).2.1) :
    Hears w'.plc (hear w (.poll os) w' heard) := by
  have hne : w.plc.state ≠ .ethernet := by
    rw [hs]
    decide
  obtain ⟨st, session, tcp, hpoll⟩ : ∃ st session tcp,
      w.plc.session.poll w.plc.tcp (os.millis 1) os = (st, session, tcp) := ⟨_, _, _, rfl⟩
  unfold PlcClient.pollRegistering at hw
  rw [hpoll] at hw
  dsimp only at hw
  split at hw
  · exact Hears.apart (s := .failed) (by rw [hw]) (by decide) _
  · rcases hst.registering hs with hx | hx
    · have hexchanging : w.plc.session.Exchanging := Or.inl hx
      have hframed := (hst.exchanging hexchanging).1
      obtain ⟨inp, hp⟩ := Session.poll_exchange hexchanging hframed hpoll
      have hsub : (heard ++ inp).Sublist tcp.sock.recvd := by
        rw [hp.moved.transfer.recvd]
        exact (h.socket (Or.inl hs)).append (List.Sublist.refl inp)
      have hbytes : heard ++ inp = session.rx.take session.rxLen := by
        rw [h.registering hs hexchanging, hp.moved.bytes]
      have htcp : w'.plc.tcp = tcp := by
        rw [hw]
        split
        · rfl
        · split <;> rfl
      have hheard : hear w (.poll os) w' heard = heard ++ inp :=
        hear_poll hne (by rw [htcp, hp.moved.transfer.recvd])
      rw [hheard]
      by_cases hok : st = .ok
      · rw [if_pos hok] at hw
        rw [hok] at hpoll
        have hgrants := Session.poll_grants hx hframed hpoll
        rw [← hbytes] at hgrants
        rw [hw]
        exact ⟨by simp, by simp, fun _ => hgrants, fun _ => hsub⟩
      · rw [if_neg hok] at hw
        split at hw
        · exact Hears.apart (s := .failed) (by rw [hw]) (by decide) _
        · rw [hw]
          refine ⟨?_, fun _ _ => hbytes, ?_, fun _ => hsub⟩
          · simp [hs]
          · simp [hs]
    · -- a failed session answers `Error`
      rw [poll_failed hx] at hpoll
      simp only [Prod.mk.injEq] at hpoll
      obtain ⟨rfl, rfl, rfl⟩ := hpoll
      exact Hears.apart (s := .failed) (by rw [hw]; rfl) (by decide) _

private theorem hears_poll {w : World n} {os : Platform} {heard : List UInt8} (h : Hears w.plc heard)
    (hst : Staged w.plc) : Hears (w.poll os).plc (hear w (.poll os) (w.poll os) heard) := by
  by_cases hr : w.plc.state = .ready
  · have hplc : (w.poll os).plc = w.plc := by
      rw [World.poll, PlcClient.pollState_none.2 hr]
    have hne : w.plc.state ≠ .ethernet := by
      rw [hr]
      decide
    have hsame : (w.poll os).plc.tcp.sock.recvd = w.plc.tcp.sock.recvd ++ [] := by rw [hplc, List.append_nil]
    rw [hear_poll hne hsame, List.append_nil, hplc]
    exact h
  · obtain ⟨⟨st, p, called⟩, hp⟩ := Option.ne_none_iff_exists'.1 (mt PlcClient.pollState_none.1 hr)
    have hplc : (w.poll os).plc = p := by
      rw [World.poll, hp]
    have hrelinked : Relinked w.plc (w.poll os).plc := by
      rw [hplc]
      exact relinked_poll hst hp
    cases hs : w.plc.state with
    | ready => exact absurd hs hr
    | connecting => exact hears_connecting h hst hs hrelinked
    | idle =>
      rw [PlcClient.pollState, hs] at hp
      cases hp
      exact Hears.apart (hplc ▸ hs) (by decide) _
    | failed =>
      rw [PlcClient.pollState, hs] at hp
      cases hp
      exact Hears.apart (hplc ▸ hs) (by decide) _
    | ethernet =>
      rw [PlcClient.pollState, hs, Option.some.injEq] at hp
      exact hears_ethernet hs (by rw [hplc, hp])
    | registering =>
      rw [PlcClient.pollState, hs, Option.some.injEq] at hp
      exact hears_registering h hst hs (by rw [hplc, hp])
    | disconnecting =>
      rw [PlcClient.pollState, hs, Option.some.injEq] at hp
      have hstate : p.state = .idle ∨ p.state = .disconnecting := by
        have e : p = (w.plc.pollDisconnecting os).2.1 := by rw [hp]
        rw [e]
        unfold PlcClient.pollDisconnecting
        dsimp only
        split
        · exact Or.inl rfl
        · exact Or.inr hs
      rcases hstate with e | e
      · exact Hears.apart (hplc ▸ e) (by decide) _
      · exact Hears.apart (hplc ▸ e) (by decide) _

/-! ### Every run -/

private theorem hears_initial {w : World n} (h : Initial w) : Hears w.plc [] :=
  Hears.apart h.fresh.state (by decide) _

private theorem hears_step {w w' : World n} {a : Act} {heard : List UInt8} (hc : Coupled w.plc) (hst : Staged w.plc)
    (h : Hears w.plc heard) (hs : step w a = some w') : Hears w'.plc (hear w a w' heard) := by
  cases a with
  | deliver bs =>
    obtain rfl := Option.some.inj hs
    exact ⟨h.connecting, h.registering, h.ready, h.socket⟩
  | call op =>
    obtain ⟨-, rfl⟩ := step_call hs
    exact hears_call h
  | poll os =>
    obtain ⟨-, rfl⟩ := step_poll hs
    exact hears_poll h hst
  | iter os =>
    obtain ⟨f, fs, hf, -, hiter⟩ := step_iterated hs
    cases hiter with
    | turned st p inUse turned =>
      obtain ⟨hstate, hsession, out, inp, htransfer⟩ := turned_link hc turned
      exact h.of_same hstate hsession htransfer.recvd
    | skipped free => exact h
  | leave =>
    obtain ⟨f, fs, -, -, rfl⟩ := step_leave hs
    change Hears (w.plc.loopEnd f.disconnected).2.1 heard
    unfold PlcClient.loopEnd
    split
    · exact Hears.apart (s := .idle) rfl (by decide) _
    · exact h

/-! ### Requests -/

/-- The frame an accepted operation of a tag loads carries the handle of the session. -/
private theorem startTag_handle {p : PlcClient n} {handle : Int}
    {f : Tag → ExplicitMessage → TcpConnection → UInt32 → Option (List UInt8) → UInt32 →
      Status × Tag × ExplicitMessage}
    (hf : ∀ t msg conn session name elemCount t' msg',
      f t msg conn session (some name) elemCount = (.pending, t', msg') → (decodeHeader msg'.tx).session = session)
    (h : (p.startTag handle f).1 = .pending) :
    (decodeHeader (p.startTag handle f).2.msg.tx).session = p.session.handle := by
  unfold PlcClient.startTag at h ⊢
  cases hv : p.validHandle handle with
  | none =>
    rw [hv] at h
    cases h
  | some i =>
    rw [hv] at h
    dsimp only at h ⊢
    split at h
    · cases h
    · rename_i hready
      split at h
      · cases h
      · rename_i hbusy
        rw [if_neg hready, if_neg hbusy]
        exact hf _ _ _ _ _ _ _ _ (Prod.ext h rfl)

private theorem read_handle {p : PlcClient n} {handle : Int} {timeoutMs now : UInt32}
    (h : (p.read handle timeoutMs now).1 = .pending) :
    (decodeHeader (p.read handle timeoutMs now).2.msg.tx).session = p.session.handle := by
  refine startTag_handle (fun t msg conn session name elemCount t' msg' hread => ?_) h
  rcases Tag.read_cases hread with ⟨-, hstarted⟩ | ⟨hne, -⟩
  · exact (started_loaded hstarted).2.2
  · exact absurd rfl hne

private theorem write_handle {p : PlcClient n} {handle : Int} {timeoutMs now : UInt32}
    (h : (p.write handle timeoutMs now).1 = .pending) :
    (decodeHeader (p.write handle timeoutMs now).2.msg.tx).session = p.session.handle := by
  refine startTag_handle (fun t msg conn session name elemCount t' msg' hwrite => ?_) h
  rcases Tag.write_cases hwrite with ⟨-, -, hstarted⟩ | ⟨hne, -⟩
  · exact (started_loaded hstarted).2.2
  · exact absurd rfl hne

/-- A ready client holds a registered session.  What was read for the session from the socket of the last
`tcp_.connect()` is one complete reply to RegisterSession, the handle is the one it grants, and every request that
`read()` or `write()` builds carries this handle. -/
theorem ready_registered {w₀ w : World n} {as : List Act} (h0 : Initial w₀) (h : Run step always w₀ as w)
    (hr : w.plc.ready = true) :
    w.plc.session.state = .registered ∧ w.plc.session.handle ≠ 0 ∧
      Session.Grants (heard w₀ as) w.plc.session.handle ∧ (heard w₀ as).Sublist w.plc.tcp.sock.recvd ∧
      ∀ (handle : Int) (timeoutMs now : UInt32),
        ((w.plc.read handle timeoutMs now).1 = .pending →
          (decodeHeader (w.plc.read handle timeoutMs now).2.msg.tx).session = w.plc.session.handle) ∧
        ((w.plc.write handle timeoutMs now).1 = .pending →
          (decodeHeader (w.plc.write handle timeoutMs now).2.msg.tx).session = w.plc.session.handle) := by
  have hready : w.plc.state = .ready := of_decide_eq_true hr
  have hall : Coupled w.plc ∧ Staged w.plc ∧ Hears w.plc (heard w₀ as) := by
    refine h.history_invariant (I := fun w b => Coupled w.plc ∧ Staged w.plc ∧ Hears w.plc b) ?_
      ⟨coupled_initial h0, staged_initial h0, hears_initial h0⟩
    intro w a w' b hw _ hs
    exact ⟨coupled_step hw.1 hs, staged_step hw.1 hw.2.1 hs, hears_step hw.1 hw.2.1 hw.2.2 hs⟩
  obtain ⟨-, hst, hh⟩ := hall
  obtain ⟨hgrants, hzero⟩ := hh.ready hready
  refine ⟨hst.ready hready, hzero, hgrants, hh.socket (Or.inr hready), fun handle timeoutMs now => ⟨?_, ?_⟩⟩
  · exact read_handle
  · exact write_handle

/-- A sketch with a tag connects a second time. -/
def renewed : List Act := bringUp 7 ++ [.call (.createTag (some [65]) 1)] ++ reconnect 9

/-- The handle of the first connection is forgotten. -/
theorem ready_registered_renewed :
    heard (fresh 2) renewed = registerReply 9 ∧ Session.Grants (heard (fresh 2) renewed) 9 ∧
      (decodeHeader ((reached 2 renewed).plc.read 0 1000 10).2.msg.tx).session = 9 := by
  have hready : (reached 2 renewed).plc.ready = true := by decide +kernel
  have hhandle : (reached 2 renewed).plc.session.handle = 9 := by decide +kernel
  obtain ⟨-, -, hgrants, -, hrequests⟩ :=
    ready_registered (fresh_initial 2) (run_reached (by decide +kernel)) hready
  rw [hhandle] at hgrants
  refine ⟨by decide +kernel, hgrants, ?_⟩
  rw [(hrequests 0 1000 10).1 (by decide +kernel), hhandle]

end World

end ControlLogix
