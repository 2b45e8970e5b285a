import ControlLogix.Descriptors
import ControlLogix.Stages

/-!
# The sockets of the client

All that a client does to its socket it does through the functions of `TcpConnection`: what one action makes of the
connection is what a run of their calls makes of it (`Made`), and the calls of the socket layer in such a run are
bounded.

* `World.descriptors_held`: which descriptors a client holds in which state, and that its destructor leaves none open;
* `World.poll_bounded`: no answer of the socket layer keeps `poll()` busy.
-/

namespace ControlLogix

open Transition
open Buffers (Framed)

variable {n : Nat}

/-! ### Calls of the functions of `TcpConnection` -/

namespace TcpConnection

/-- `t'` is `t` after calls that made at most `k` calls of the socket layer. -/
def Made (k : Nat) (t t' : TcpConnection) : Prop :=
  (∃ cs, Run step always t cs t') ∧ t'.calls.length ≤ t.calls.length + k

variable {t t' t'' : TcpConnection} {k l : Nat}

theorem Made.refl (k : Nat) (t : TcpConnection) : Made k t t := ⟨⟨[], .nil t⟩, by omega⟩

theorem Made.of_eq (h : t' = t) : Made k t t' := by
  rw [h]
  exact .refl k t

theorem Made.trans (h : Made k t t') (h' : Made l t' t'') : Made (k + l) t t'' := by
  obtain ⟨⟨cs, hrun⟩, hlen⟩ := h
  obtain ⟨⟨cs', hrun'⟩, hlen'⟩ := h'
  exact ⟨⟨cs ++ cs', hrun.trans hrun'⟩, by omega⟩

theorem Made.mono (h : Made k t t') (hle : k ≤ l) : Made l t t' := by
  obtain ⟨hrun, hlen⟩ := h
  exact ⟨hrun, by omega⟩

theorem Made.of_call {c : Call} (h : (t.call c).2 = t') (hlen : t'.calls.length ≤ t.calls.length + k) : Made k t t' :=
  ⟨⟨[c], .cons trivial (congrArg some h) (.nil t')⟩, hlen⟩

theorem length_close (t : TcpConnection) : t.close.calls.length ≤ t.calls.length + 1 := by
  unfold close
  split
  · exact Nat.le_refl _
  · simp only
    omega

theorem made_close (t : TcpConnection) : Made 1 t t.close := .of_call (c := .close) rfl t.length_close

theorem made_deliver (t : TcpConnection) (bs : List UInt8) : Made 0 t (t.deliver bs) :=
  .of_call (c := .deliver bs) rfl (Nat.le_refl _)

/-- `lwip_socket`, two calls of `lwip_fcntl`, `lwip_connect` and, if that fails, `lwip_close`. -/
private theorem length_connect {t : TcpConnection} (hfd : t.fd < 0) (ip : IPAddress) (port : UInt16)
    (timeoutMs : UInt32)
    (os : ConnectAnswers) (now : UInt32) :
    (t.connect ip port timeoutMs os now).2.calls.length ≤ t.calls.length + 5 := by
  have hopen : (if 0 ≤ t.fd then t.close else t) = t := if_neg (by omega)
  unfold connect
  dsimp only
  rw [hopen]
  split
  · simp only
    omega
  · split
    · simp only
      omega
    · split
      · simp only [List.length_cons]
        omega
      · split
        · simp only [List.length_cons]
          omega
        · split <;> simp only [List.length_cons] <;> omega

theorem made_connect_new {t : TcpConnection} (hfd : t.fd < 0) (ip : IPAddress) (port : UInt16) (timeoutMs : UInt32)
    (os : ConnectAnswers) (now : UInt32) : Made 5 t (t.connect ip port timeoutMs os now).2 :=
  .of_call (c := .connect ip port timeoutMs os now) rfl (length_connect hfd ip port timeoutMs os now)

/-- `connect()` closes the descriptor it has first. -/
theorem made_connect (t : TcpConnection) (ip : IPAddress) (port : UInt16) (timeoutMs : UInt32) (os : ConnectAnswers)
    (now : UInt32) : Made 6 t (t.connect ip port timeoutMs os now).2 := by
  by_cases hfd : t.fd < 0
  · exact (made_connect_new hfd ip port timeoutMs os now).mono (by omega)
  · have hclosed : t.close.fd < 0 := (close_dropped t).fd
    have hold : (if 0 ≤ t.fd then t.close else t) = t.close := if_pos (by omega)
    have hnew : (if 0 ≤ t.close.fd then t.close.close else t.close) = t.close := if_neg (by omega)
    have hsame : t.connect ip port timeoutMs os now = t.close.connect ip port timeoutMs os now := by
      unfold connect
      dsimp only
      rw [hold, hnew]
    rw [hsame]
    exact t.made_close.trans (made_connect_new hclosed ip port timeoutMs os now)

theorem made_poll (t : TcpConnection) (os : PollAnswers) (now : UInt32) : Made 3 t (t.poll os now).2 := by
  refine .of_call (c := .poll os now) rfl ?_
  have hselected := length_close { t with calls := .use t.fd :: t.calls }
  have hasked := length_close { t with calls := .use t.fd :: .use t.fd :: t.calls }
  simp only [List.length_cons] at hselected hasked
  unfold poll
  split
  · simp only
    omega
  · split
    · simp only
      omega
    · dsimp only
      split
      · exact Nat.le_succ_of_le hselected
      · split
        · split
          · exact Nat.le_succ_of_le hselected
          · simp only [List.length_cons]
            omega
        · split
          · exact hasked
          · split
            · simp only [List.length_cons]
              omega
            · exact hasked

theorem made_read (t : TcpConnection) (length : Nat) (a : RecvAnswer) : Made 1 t (t.read length a).2 := by
  refine .of_call (c := .read length a) rfl ?_
  unfold read
  split
  · simp only
    omega
  · split
    · simp only
      omega
    · dsimp only
      split
      · exact Nat.le_refl _
      · exact Nat.le_refl _
      · split <;> exact Nat.le_refl _

theorem made_write (t : TcpConnection) (bs : List UInt8) (a : SendAnswer) : Made 1 t (t.write bs a).2 := by
  refine .of_call (c := .write bs a) rfl ?_
  unfold write
  split
  · simp only
    omega
  · split
    · simp only
      omega
    · dsimp only
      split
      · exact Nat.le_refl _
      · split
        · exact Nat.le_refl _
        · split <;> exact Nat.le_refl _

/-- Whatever every call preserves, calls preserve. -/
theorem Made.invariant {I : TcpConnection → Prop} (hcall : ∀ t c, I t → I (t.call c).2) (h : Made k t t') (ht : I t) :
    I t' := by
  obtain ⟨⟨cs, hrun⟩, -⟩ := h
  refine hrun.invariant (fun s c s' hs _ hstep => ?_) ht
  obtain rfl := Option.some.inj hstep
  exact hcall s c hs

end TcpConnection

open TcpConnection (Made)

/-! ### The loops -/

namespace Buffers

/-- Every turn but the last one writes a byte. -/
theorem made_writePending (b : Buffers) (conn : TcpConnection) (as : List SendAnswer) :
    Made (b.txLen - b.txSent) conn (b.writePending conn as).2.2 := by
  induction as generalizing b conn with
  | nil =>
    unfold writePending
    split
    · rename_i hlt
      have hwrite := conn.made_write ((b.tx.drop b.txSent).take (b.txLen - b.txSent)) (.failed .ewouldblock)
      split
      · rename_i k conn₁ hw
        rw [hw] at hwrite
        exact hwrite.mono (by omega)
      · rename_i st conn₁ hw
        rw [hw] at hwrite
        exact hwrite.mono (by omega)
    · exact .refl _ _
  | cons a as ih =>
    unfold writePending
    split
    · rename_i hlt
      have hwrite := conn.made_write ((b.tx.drop b.txSent).take (b.txLen - b.txSent)) a
      split
      · rename_i conn₁ hw
        rw [hw] at hwrite
        exact hwrite.mono (by omega)
      · rename_i k conn₁ hw
        rw [hw] at hwrite
        have hnext := ih { b with txSent := b.txSent + (k + 1) } conn₁
        exact (hwrite.trans hnext).mono (by simp only; omega)
      · rename_i st conn₁ hw
        rw [hw] at hwrite
        exact hwrite.mono (by omega)
    · exact .refl _ _

/-- Every turn but the last one reads a byte, and the cursor stays within the cap. -/
theorem made_readResponse {cap : Nat} {b : Buffers} (hf : Framed cap b) (conn : TcpConnection)
    (as : List RecvAnswer) :
    Made (24 + cap - b.rxLen) conn (b.readResponse cap conn as).2.2 := by
  have hroom : ∀ b : Buffers, Framed cap b → b.rxExpected ≤ 24 + cap := by
    intro b hf
    by_cases hlt : b.rxLen < 24
    · have hhead := hf.head hlt
      omega
    · obtain ⟨hbody, hcap⟩ := hf.body (by omega)
      omega
  induction as generalizing b conn with
  | nil =>
    have hexpected := hroom b hf
    unfold readResponse
    split
    · rename_i hlt
      have hread := conn.made_read (b.rxExpected - b.rxLen) (.failed .ewouldblock)
      split
      · rename_i bs conn₁ hr
        rw [hr] at hread
        exact hread.mono (by omega)
      · rename_i st conn₁ hr
        rw [hr] at hread
        exact hread.mono (by omega)
    · exact .refl _ _
  | cons a as ih =>
    have hexpected := hroom b hf
    unfold readResponse
    split
    · rename_i hlt
      have hread := conn.made_read (b.rxExpected - b.rxLen) a
      split
      · rename_i conn₁ hr
        rw [hr] at hread
        exact hread.mono (by omega)
      · rename_i c cs conn₁ hr
        obtain ⟨-, hlen, -, -⟩ := TcpConnection.read_ok hr
        rw [hr] at hread
        have hmore : (b.stored (c :: cs)).rxLen = b.rxLen + (cs.length + 1) := rfl
        simp only [List.length_cons] at hlen
        dsimp only
        split
        · rename_i h24
          split
          · exact hread.mono (by omega)
          · rename_i hcap
            have hnext := ih (stored_header hf (c :: cs) h24 (Nat.not_lt.1 hcap)) conn₁
            exact (hread.trans hnext).mono (by simp only; omega)
        · rename_i h24
          have hnext := ih (stored_framed hf (List.cons_ne_nil c cs) hlen hlt h24) conn₁
          exact (hread.trans hnext).mono (by omega)
      · rename_i st conn₁ hr
        rw [hr] at hread
        exact hread.mono (by omega)
    · exact .refl _ _

end Buffers

/-- A call of `poll()` on a session in an exchange. -/
private theorem made_exchange {finish : Session → Status × Session} {s : Session}
    (hf : Framed Session.kMaxBodySize s.toBuffers) (conn : TcpConnection) (now : UInt32) (os : Platform) :
    Made (s.txLen + 536) conn (Session.pollExchange finish s conn now os).2.2 := by
  have hwrite := s.toBuffers.made_writePending conn os.sends
  unfold Session.pollExchange
  split
  · exact .refl _ _
  · split
    · rename_i b conn₁ hw
      have hread := Buffers.made_readResponse ((Buffers.writePending_spec hw).framed hf) conn₁ os.recvs
      rw [hw] at hwrite
      have hboth := (hwrite.trans hread).mono (l := s.txLen + 536) (by simp only [Session.kMaxBodySize]; omega)
      split
      · rename_i b₂ conn₂ hr
        rwa [hr] at hboth
      · rename_i b₂ conn₂ hr
        rwa [hr] at hboth
      · rename_i st b₂ conn₂ hne hnp hr
        rwa [hr] at hboth
    · rename_i st b conn₁ hne hw
      rw [hw] at hwrite
      exact hwrite.mono (by omega)

theorem Session.made_poll {s : Session} (hx : s.Exchanging → Framed kMaxBodySize s.toBuffers ∧ s.Loaded)
    (conn : TcpConnection) (now : UInt32) (os : Platform) : Made 564 conn (s.poll conn now os).2.2 := by
  by_cases hin : s.Exchanging
  · obtain ⟨hf, hl⟩ := hx hin
    have hlen : s.txLen ≤ 28 := by
      rw [hl.len]
      rcases hl.frame with ⟨c, e⟩ | ⟨h, c, e⟩
      · have hregister : (registerFrame c).length = 28 := rfl
        rw [e]
        omega
      · have hunregister : (unregisterFrame h c).length = 24 := rfl
        rw [e]
        omega
    unfold poll
    rcases hin with e | e
    · rw [e]
      exact (made_exchange hf conn now os).mono (by omega)
    · rw [e]
      exact (made_exchange hf conn now os).mono (by omega)
  · exact .of_eq (congrArg Prod.snd (poll_settled hin conn now os))

theorem ExplicitMessage.made_poll {m : ExplicitMessage} (hf : m.InFlight → Framed (16 + kMaxCipData) m.toBuffers)
    (hlen : m.txLen ≤ 296) (conn : TcpConnection) (os : Platform) : Made 592 conn (m.poll conn os).2.2 := by
  by_cases hin : m.InFlight
  · have hwrite := m.toBuffers.made_writePending conn os.sends
    rw [poll_inFlight hin]
    unfold advance
    split
    · exact .refl _ _
    · split
      · rename_i b conn₁ hw
        have hread := Buffers.made_readResponse ((Buffers.writePending_spec hw).framed (hf hin)) conn₁ os.recvs
        rw [hw] at hwrite
        have hboth := (hwrite.trans hread).mono (l := 592) (by simp only [kMaxCipData]; omega)
        dsimp only
        split
        · rename_i b₂ conn₂ hr
          rwa [hr] at hboth
        · rename_i b₂ conn₂ hr
          rw [hr] at hboth
          split <;> exact hboth
        · rename_i st b₂ conn₂ hne hnp hr
          rwa [hr] at hboth
      · rename_i b conn₁ hw
        rw [hw] at hwrite
        exact hwrite.mono (by omega)
      · rename_i st b conn₁ hne hnp hw
        rw [hw] at hwrite
        exact hwrite.mono (by omega)
  · rw [poll_rest hin]
    exact .refl _ _

/-! ### The functions of the client -/

namespace PlcClient

/-- `~PlcClient()`, and after it the destructor of `tcp_`. -/
def destroy (p : PlcClient n) : PlcClient n := { p with session := p.session.abort, tcp := p.tcp.close.destroy }

/-- The frame in the shared message is no longer than its buffer. -/
def Sized (p : PlcClient n) : Prop := p.msg.txLen ≤ 296

private theorem dial_tcp (p : PlcClient n) (os : Platform) :
    (p.dial os).2.tcp = (p.tcp.connect p.remoteIp p.remotePort p.connectTimeoutMs os.connect (os.millis 1)).2 := by
  unfold dial
  split
  · rename_i tcp hc
    rw [hc]
  · rename_i st tcp hne hc
    rw [hc]

theorem made_dial (p : PlcClient n) (os : Platform) : Made 6 p.tcp (p.dial os).2.tcp := by
  rw [dial_tcp]
  exact p.tcp.made_connect p.remoteIp p.remotePort p.connectTimeoutMs os.connect (os.millis 1)

theorem made_call (p : PlcClient n) (op : Op) : Made 6 p.tcp (p.call op).2.tcp := by
  have hcalled := call_cases p op
  by_cases hop : op.Link
  · cases op with
    | begin began configured => exact .refl _ _
    | connect ip port timeoutMs os =>
      show Made 6 p.tcp (p.connect ip port timeoutMs os).2.tcp
      unfold connect
      dsimp only
      split
      · rw [dial_tcp]
        have hclosed : p.tcp.close.fd < 0 := (TcpConnection.close_dropped p.tcp).fd
        exact p.tcp.made_close.trans
          (TcpConnection.made_connect_new hclosed ip port timeoutMs os.connect (os.millis 1))
      · exact .refl _ _
    | disconnect =>
      show Made 6 p.tcp p.disconnect.2.tcp
      unfold disconnect
      split
      · exact .refl _ _
      · exact p.tcp.made_close.mono (by omega)
    | setStateCallback set => exact .refl _ _
    | _ => exact absurd hop id
  · rcases sameLink_called hcalled with ⟨hlink, -, -⟩ | ⟨-, hsame⟩
    · exact absurd hlink hop
    · exact .of_eq hsame.tcp

theorem made_loopEnd (p : PlcClient n) (disconnected : Bool) : Made 1 p.tcp (p.loopEnd disconnected).2.1.tcp := by
  unfold loopEnd
  split
  · exact p.tcp.made_close
  · exact .refl _ _

private theorem made_ethernet (p : PlcClient n) (os : Platform) : Made 6 p.tcp (p.pollEthernet os).2.1.tcp := by
  unfold pollEthernet
  dsimp only
  split
  · split
    · exact made_dial { p with
        eth := (p.eth.poll os.link).2, wantConnect := false, state := .connecting,
        deadline := os.millis 0 + p.connectTimeoutMs } os
    · exact .refl _ _
  · split <;> exact .refl _ _

private theorem made_connecting (p : PlcClient n) (os : Platform) : Made 3 p.tcp (p.pollConnecting os).2.1.tcp := by
  have hpoll := p.tcp.made_poll os.poll (os.millis 1)
  unfold pollConnecting
  dsimp only
  split
  · exact .refl _ _
  · split
    · split <;> exact hpoll
    · split <;> exact hpoll

private theorem made_registering {p : PlcClient n} (h : Staged p) (os : Platform) :
    Made 564 p.tcp (p.pollRegistering os).2.1.tcp := by
  have hpoll := Session.made_poll h.exchanging p.tcp (os.millis 1) os
  unfold pollRegistering
  dsimp only
  split
  · exact .refl _ _
  · split
    · exact hpoll
    · split <;> exact hpoll

private theorem made_disconnecting {p : PlcClient n} (h : Staged p) (os : Platform) :
    Made 565 p.tcp (p.pollDisconnecting os).2.1.tcp := by
  have hpoll := Session.made_poll h.exchanging p.tcp (os.millis 0) os
  unfold pollDisconnecting
  dsimp only
  split
  · exact hpoll.trans (TcpConnection.made_close _)
  · exact hpoll.mono (by omega)

theorem made_pollState {p p' : PlcClient n} {os : Platform} {st : Status} {called : Option Status} (h : Staged p)
    (hp : p.pollState os = some (st, p', called)) : Made 565 p.tcp p'.tcp := by
  unfold pollState at hp
  cases hs : p.state <;> rw [hs] at hp <;> simp only [Option.some.injEq, reduceCtorEq] at hp
  · cases hp
    exact .refl _ _
  · have hmade := made_ethernet p os
    rw [hp] at hmade
    exact hmade.mono (by omega)
  · have hmade := made_connecting p os
    rw [hp] at hmade
    exact hmade.mono (by omega)
  · have hmade := made_registering h os
    rw [hp] at hmade
    exact hmade.mono (by omega)
  · have hmade := made_disconnecting h os
    rwa [hp] at hmade
  · cases hp
    exact .refl _ _

/-- A turn of the loop on a slot at rest makes no calls. -/
theorem made_turned {p p' : PlcClient n} {i : Fin n} {os : Platform} {st : Status} (hc : Coupled p) (hl : p.Sized)
    (h : Turned p i os st p') : Made (if (p.slots i).tag.InFlight then 592 else 0) p.tcp p'.tcp := by
  cases h with
  | rest => exact .refl _ _
  | @inFlight mst st tag msg tcp hin polled advanced =>
    have hpoll := ExplicitMessage.made_poll hc.framed hl p.tcp os
    rw [polled] at hpoll
    rwa [if_pos hin]

theorem Sized.of_sameTags {p p' : PlcClient n} (h : p.Sized) (hs : SameTags p p') : p'.Sized := by
  unfold Sized
  rw [hs.msg]
  exact h

theorem sized_called {p p' : PlcClient n} {op : Op} {events : List (Event n)} (h : p.Sized)
    (hc : Called p op p' events) : p'.Sized := by
  cases hc with
  | linked hop => exact h.of_sameTags (hop.sameTags p)
  | registered set => exact h
  | created free bounded => exact h
  | destroyed inUse => exact h
  | @started op i timeoutMs now tag msg hop inUse ready free started =>
    obtain ⟨service, data, -, hs⟩ := started.sent
    have hfits : ExplicitMessage.cipLength _ _ ≤ 256 := hs.args.1
    show msg.txLen ≤ 296
    rw [hs.txLen, kEncapsulationHeaderSize]
    omega
  | @aborted i inUse =>
    show (((p.slots i).tag.abort p.msg).2).txLen ≤ 296
    unfold Tag.abort
    dsimp only
    split <;> exact h
  | edited inUse => exact h
  | refused hop => exact h

theorem sized_turned {p p' : PlcClient n} {i : Fin n} {os : Platform} {st : Status} (hc : Coupled p) (hl : p.Sized)
    (h : Turned p i os st p') : p'.Sized := by
  cases h with
  | rest => exact hl
  | @inFlight mst st tag msg tcp hin polled advanced =>
    have hm := hc.used i hin
    obtain ⟨inp, hp⟩ := ExplicitMessage.poll_spec hm (hc.framed hm) polled
    show msg.txLen ≤ 296
    rw [hp.moved.tx.2]
    exact hl

end PlcClient

namespace World

theorem sized_step {w w' : World n} {a : Act} (hc : Coupled w.plc) (h : w.plc.Sized) (hs : step w a = some w') :
    w'.plc.Sized := by
  cases a with
  | deliver bs =>
    obtain rfl := Option.some.inj hs
    exact h
  | call op =>
    obtain ⟨-, rfl⟩ := step_call hs
    exact PlcClient.sized_called h (call_cases w.plc op)
  | poll os =>
    obtain ⟨-, rfl⟩ := step_poll hs
    exact h.of_sameTags (w.poll_sameTags os)
  | iter os =>
    obtain ⟨f, fs, hf, -, hiter⟩ := step_iterated hs
    cases hiter with
    | turned st p inUse turned => exact PlcClient.sized_turned hc h turned
    | skipped => exact h
  | leave =>
    obtain ⟨f, fs, -, -, rfl⟩ := step_leave hs
    exact h.of_sameTags (w.leave_sameTags f fs)

/-- What one action makes of the connection. -/
theorem made_step {w w' : World n} {a : Act} (hc : Coupled w.plc) (hg : Staged w.plc) (hl : w.plc.Sized)
    (hs : step w a = some w') : Made 592 w.plc.tcp w'.plc.tcp := by
  cases a with
  | deliver bs =>
    obtain rfl := Option.some.inj hs
    exact (w.plc.tcp.made_deliver bs).mono (by omega)
  | call op =>
    obtain ⟨-, rfl⟩ := step_call hs
    exact (w.plc.made_call op).mono (by omega)
  | poll os =>
    obtain ⟨-, rfl⟩ := step_poll hs
    unfold World.poll
    split
    · exact .refl _ _
    · rename_i st p called hp
      exact (PlcClient.made_pollState hg hp).mono (by omega)
  | iter os =>
    obtain ⟨f, fs, hf, -, hiter⟩ := step_iterated hs
    cases hiter with
    | turned st p inUse turned =>
      refine (PlcClient.made_turned hc hl turned).mono ?_
      split <;> omega
    | skipped => exact .refl _ _
  | leave =>
    obtain ⟨f, fs, -, -, rfl⟩ := step_leave hs
    exact (w.plc.made_loopEnd f.disconnected).mono (by omega)

end World

/-! ### The descriptors -/

/-- The states of a client that has a socket. -/
def PlcClient.State.Linked : PlcClient.State → Prop
  | .connecting | .registering | .ready | .disconnecting => True
  | _ => False

/-- What the state of the client tells about the descriptor. -/
structure Anchored (p : PlcClient n) : Prop where
  idle : p.state = .idle → p.tcp.fd < 0
  linked : p.state.Linked → 0 ≤ p.tcp.fd

/-- The client has a socket, or is in a state that promises none. -/
private theorem Anchored.of_fd {p : PlcClient n} (hfd : 0 ≤ p.tcp.fd) (hs : p.state ≠ .idle) : Anchored p :=
  ⟨fun e => absurd e hs, fun _ => hfd⟩

private theorem Anchored.of_none {p : PlcClient n} (hfd : p.tcp.fd < 0) (hs : ¬ p.state.Linked) : Anchored p :=
  ⟨fun _ => hfd, fun e => absurd e hs⟩

private theorem Anchored.of_state {p : PlcClient n} (hs : p.state = .ethernet ∨ p.state = .failed) : Anchored p := by
  constructor
  · intro e
    rcases hs with e' | e' <;> rw [e'] at e <;> cases e
  · intro e
    rcases hs with e' | e' <;> rw [e'] at e <;> cases e

theorem anchored_relinked {p p' : PlcClient n} (h : Anchored p) (hr : Relinked p p') : Anchored p' := by
  -- a state with a socket goes on with it
  have hkeep : ∀ s : PlcClient.State, p.state = s → s.Linked → 0 ≤ p.tcp.fd := by
    rintro s rfl hl
    exact h.linked hl
  cases hr with
  | kept tcp session state =>
    rcases state with hs | hs
    · constructor
      · rw [hs, tcp]
        exact h.idle
      · rw [hs, tcp]
        exact h.linked
    · exact .of_state hs
  | dialled tcp session state =>
    refine .of_fd tcp.fd ?_
    rw [state]
    nofun
  | dropped tcp session state =>
    refine .of_none tcp.fd ?_
    rcases state with hs | hs <;> rw [hs] <;> exact id
  | waited before tcp pending session state =>
    refine .of_fd ?_ ?_
    · rw [tcp.fd]
      exact hkeep _ before trivial
    · rw [state]
      nofun
  | refused before tcp session state => exact .of_state (Or.inr state)
  | opened before tcp session state =>
    refine .of_fd ?_ ?_
    · rw [tcp.fd]
      exact hkeep _ before trivial
    · rw [state]
      nofun
  | registers before exchanging polled state =>
    refine .of_fd ?_ ?_
    · rw [polled.moved.transfer.fd]
      exact hkeep _ before trivial
    · rcases state with ⟨-, hs⟩ | ⟨-, hs | hs⟩ <;> rw [hs] <;> nofun
  | closing before tcp session state =>
    refine .of_fd ?_ ?_
    · rw [tcp]
      exact hkeep _ before trivial
    · rw [state]
      nofun
  | unregisters before exchanging polled state =>
    rcases state with ⟨hs, htcp, -⟩ | ⟨hs, hd⟩
    · refine .of_fd ?_ ?_
      · rw [htcp, polled.moved.transfer.fd]
        exact hkeep _ before trivial
      · rw [hs]
        nofun
    · refine .of_none hd.fd ?_
      rw [hs]
      exact id

theorem Anchored.of_same {p p' : PlcClient n} (h : Anchored p) (hs : p'.state = p.state)
    (hfd : p'.tcp.fd = p.tcp.fd) :
    Anchored p' := by
  constructor
  · rw [hs, hfd]
    exact h.idle
  · rw [hs, hfd]
    exact h.linked

theorem World.anchored_step {w w' : World n} {a : Act} (hc : Coupled w.plc) (hg : Staged w.plc) (h : Anchored w.plc)
    (hs : step w a = some w') : Anchored w'.plc := by
  cases step_cases hg hs with
  | delivered plc log =>
    rw [plc]
    exact h.of_same rfl rfl
  | called hop called log =>
    rcases sameLink_called called with ⟨hlink, -, -⟩ | ⟨-, hsame⟩
    · exact absurd hlink hop
    · exact h.of_same hsame.state (congrArg TcpConnection.fd hsame.tcp)
  | relinked link closing same callbacks log => exact anchored_relinked h link
  | turned polls slot inUse turned callbacks log =>
    obtain ⟨hstate, -, out, inp, htransfer⟩ := turned_link hc turned
    exact h.of_same hstate htransfer.fd
  | skipped plc log =>
    rw [plc]
    exact h

namespace World

/-- What holds of the connection in every reachable state. -/
private structure Plugged (p : PlcClient n) : Prop where
  coupled : Coupled p
  staged : Staged p
  sized : p.Sized
  anchored : Anchored p
  owning : p.tcp.Owning

private theorem Reachable.plugged {w : World n} (h : Reachable w) : Plugged w.plc := by
  refine h.invariant (I := fun w => Plugged w.plc) (fun w hi => ?_) fun w a w' hw hs => ?_
  · have htcp : w.plc.tcp = {} := hi.fresh.tcp
    have hmsg := hi.fresh.msg
    refine ⟨coupled_initial hi, staged_initial hi, ?_, ⟨fun _ => ?_, fun hl => ?_⟩, ?_⟩
    · unfold PlcClient.Sized
      rw [hmsg]
      exact Nat.zero_le _
    · rw [htcp]
      decide
    · rw [hi.fresh.state] at hl
      exact absurd hl id
    · rw [htcp]
      exact ⟨trivial, rfl⟩
  · have hmade := made_step hw.coupled hw.staged hw.sized hs
    exact ⟨coupled_step hw.coupled hs, staged_step hw.coupled hw.staged hs, sized_step hw.coupled hw.sized hs,
      anchored_step hw.coupled hw.staged hw.anchored hs, hmade.invariant (fun _ c ht => ht.call c) hw.owning⟩

/-- A client holds the descriptor in `fd_` and no other.  It has one in the states from `Connecting` to
`Disconnecting`, and none when it is `Idle`; every descriptor is closed once and not used afterwards, and the
destructor leaves none open. -/
theorem descriptors_held {w : World n} (h : Reachable w) :
    (w.plc.tcp.held = if 0 ≤ w.plc.tcp.fd then [w.plc.tcp.fd] else []) ∧
      (w.plc.state = .idle → w.plc.tcp.held = []) ∧ (w.plc.state.Linked → w.plc.tcp.held = [w.plc.tcp.fd]) ∧
      w.plc.tcp.ClosedOnce ∧ w.plc.tcp.UnusedAfterClose ∧ w.plc.destroy.tcp.held = [] ∧
      w.plc.destroy.tcp.ClosedOnce ∧ w.plc.destroy.tcp.UnusedAfterClose := by
  obtain ⟨-, -, -, hanchored, howning⟩ := h.plugged
  have hheld : w.plc.tcp.held = if 0 ≤ w.plc.tcp.fd then [w.plc.tcp.fd] else [] := howning.held
  have hend : w.plc.destroy.tcp.Owning := (howning.call .close).call .close
  have hnone : w.plc.destroy.tcp.fd < 0 := (TcpConnection.close_dropped w.plc.tcp.close).fd
  refine ⟨hheld, ?_, ?_, howning.closedOnce, howning.unusedAfterClose, ?_, hend.closedOnce, hend.unusedAfterClose⟩
  · intro hidle
    have hfd := hanchored.idle hidle
    rw [hheld, if_neg (by omega)]
  · intro hlinked
    rw [hheld, if_pos (hanchored.linked hlinked)]
  · rw [hend.held, TcpConnection.own, if_neg (by omega)]

/-- A second connection gets the descriptor of the first one again, and the client is destroyed while it registers. -/
theorem descriptors_held_reconnected :
    (reached 2 (bringUp 7 ++ [.call (.connect 1 44818 5000 {}), .poll {}])).plc.tcp.held = [0] ∧
      (reached 2 (bringUp 7 ++ [.call (.connect 1 44818 5000 {}), .poll {}])).plc.destroy.tcp.held = [] := by
  have hstate : (reached 2 (bringUp 7 ++ [.call (.connect 1 44818 5000 {}), .poll {}])).plc.state = .registering := by
    decide +kernel
  have hfd : (reached 2 (bringUp 7 ++ [.call (.connect 1 44818 5000 {}), .poll {}])).plc.tcp.fd = 0 := by
    decide +kernel
  have hreached : Reachable (reached 2 (bringUp 7 ++ [.call (.connect 1 44818 5000 {}), .poll {}])) :=
    reachable_reached (by decide +kernel)
  obtain ⟨-, -, hlinked, -, -, hnone, -, -⟩ := descriptors_held hreached
  rw [hstate, hfd] at hlinked
  exact ⟨hlinked trivial, hnone⟩

/-! ### How long a call takes -/

/-- No slot from `k` on is in flight. -/
private def Settled (p : PlcClient n) (k : Nat) : Prop := ∀ j : Fin n, k ≤ j.val → ¬ (p.slots j).tag.InFlight

/-- A turn of the loop on slot `k`, and what it leaves for the slots behind. -/
private theorem turn_made {w w' : World n} {os : Platform} {f : PollFrame} {fs : List PollFrame} (hc : Coupled w.plc)
    (hl : w.plc.Sized) (hp : w.polls = f :: fs) (hs : step w (.iter os) = some w') :
    (∃ f', w'.polls = f' :: fs ∧ f'.next = f.next + 1) ∧
      (Settled w.plc f.next → Made 0 w.plc.tcp w'.plc.tcp ∧ Settled w'.plc (f.next + 1)) ∧
      (Made 592 w.plc.tcp w'.plc.tcp ∧ Settled w'.plc (f.next + 1) ∨ Made 0 w.plc.tcp w'.plc.tcp) := by
  obtain ⟨f₀, fs₀, hf, hp₀, hiter⟩ := step_iterated hs
  rw [hp] at hp₀
  obtain ⟨rfl, rfl⟩ := List.cons.inj hp₀
  cases hiter with
  | turned st p inUse turned =>
    have hmade := PlcClient.made_turned hc hl turned
    refine ⟨⟨_, rfl, rfl⟩, fun hsettled => ?_, ?_⟩
    · have hrest := hsettled ⟨f.next, hf⟩ (Nat.le_refl _)
      rw [if_neg hrest] at hmade
      refine ⟨hmade, fun j hj => ?_⟩
      show ¬ (p.slots j).tag.InFlight
      cases turned with
      | rest =>
        rw [PlcClient.setSlot_of_ne _ _ (fun e => by rw [e] at hj; simp only at hj; omega)]
        exact hsettled j (by omega)
      | inFlight hin => exact absurd hin hrest
    · by_cases hin : (w.plc.slots ⟨f.next, hf⟩).tag.InFlight
      · rw [if_pos hin] at hmade
        refine Or.inl ⟨hmade, fun j hj hj' => ?_⟩
        change (p.slots j).tag.InFlight at hj'
        have hne : j ≠ ⟨f.next, hf⟩ := fun e => by rw [e] at hj; simp only at hj; omega
        cases turned with
        | rest hr => exact hr hin
        | inFlight =>
          rw [PlcClient.setSlot_of_ne _ _ hne] at hj'
          exact hne (hc.single j _ hj' hin)
      · rw [if_neg hin] at hmade
        exact Or.inr hmade
  | skipped free =>
    refine ⟨⟨_, rfl, rfl⟩, fun hsettled => ⟨.refl _ _, fun j hj => hsettled j (by omega)⟩, Or.inr (.refl _ _)⟩

/-- The turns behind the slot in flight make no calls. -/
private theorem settled_turns {w w' : World n} {oss : List Platform} {f : PollFrame} {fs : List PollFrame}
    (hc : Coupled w.plc) (hl : w.plc.Sized) (hp : w.polls = f :: fs) (hsettled : Settled w.plc f.next)
    (hrun : Run step always w (oss.map .iter) w') : Made 0 w.plc.tcp w'.plc.tcp := by
  induction oss generalizing w f with
  | nil =>
    cases hrun
    exact .refl _ _
  | cons os oss ih =>
    cases hrun with
    | cons _ taken rest =>
      obtain ⟨⟨f', hp', hnext⟩, hquiet, -⟩ := turn_made hc hl hp taken
      obtain ⟨hmade, hbehind⟩ := hquiet hsettled
      rw [← hnext] at hbehind
      exact hmade.trans (ih (coupled_step hc taken) (sized_step hc hl taken) hp' hbehind rest)

/-- At most one turn of the loop makes calls. -/
private theorem turns_made {w w' : World n} {oss : List Platform} {f : PollFrame} {fs : List PollFrame}
    (hc : Coupled w.plc) (hl : w.plc.Sized) (hp : w.polls = f :: fs)
    (hrun : Run step always w (oss.map .iter) w') : Made 592 w.plc.tcp w'.plc.tcp := by
  induction oss generalizing w f with
  | nil =>
    cases hrun
    exact .refl _ _
  | cons os oss ih =>
    cases hrun with
    | cons _ taken rest =>
      have hc' := coupled_step hc taken
      have hl' := sized_step hc hl taken
      obtain ⟨⟨f', hp', hnext⟩, -, hturn⟩ := turn_made hc hl hp taken
      rcases hturn with ⟨hmade, hbehind⟩ | hmade
      · rw [← hnext] at hbehind
        exact hmade.trans (settled_turns hc' hl' hp' hbehind rest)
      · exact (hmade.trans (ih hc' hl' hp' rest)).mono (by omega)

/-- A call of `poll()` whose callbacks call nothing makes at most 593 calls of the socket layer: those for two frames,
one byte at a time, and one close.  The other functions of the client make at most 6. -/
theorem poll_bounded {w w' : World n} (h : Reachable w) :
    (∀ op, step w (.call op) = some w' → w'.plc.tcp.calls.length ≤ w.plc.tcp.calls.length + 6) ∧
      (∀ os, w.plc.state ≠ .ready → step w (.poll os) = some w' →
        w'.plc.tcp.calls.length ≤ w.plc.tcp.calls.length + 565) ∧
      ∀ (os : Platform) (oss : List Platform), w.plc.state = .ready →
      Run step always w (.poll os :: oss.map .iter ++ [.leave]) w' →
        w'.plc.tcp.calls.length ≤ w.plc.tcp.calls.length + 593 := by
  obtain ⟨hc, hg, hl, -, -⟩ := h.plugged
  refine ⟨fun op hs => ?_, fun os hstate hs => ?_, fun os oss hstate hrun => ?_⟩
  · obtain ⟨-, rfl⟩ := step_call hs
    exact (w.plc.made_call op).2
  · obtain ⟨-, rfl⟩ := step_poll hs
    unfold World.poll
    split
    · exact Nat.le_add_right _ _
    · rename_i st p called hp
      exact (PlcClient.made_pollState hg hp).2
  · cases hrun with
    | cons _ taken rest =>
      rename_i w₁
      obtain ⟨-, rfl⟩ := step_poll taken
      have hfirst : w.poll os = { w with polls := {} :: w.polls } := by
        unfold World.poll
        rw [PlcClient.pollState_none.2 hstate]
      rw [hfirst] at rest
      obtain ⟨w₂, hturns, hend⟩ := rest.split
      obtain ⟨f, fs, -, -, rfl⟩ := step_leave hend.single
      have hloop := turns_made (w := { w with polls := {} :: w.polls }) hc hl rfl hturns
      exact (hloop.trans (w₂.plc.made_loopEnd f.disconnected)).2

/-- A read has been accepted and not yet sent. -/
def asking : World 2 :=
  reached 2 (bringUp 7 ++ [.call (.createTag (some [65]) 1), .call (.read 0 1000 10)])

theorem poll_bounded_asking :
    (after step asking (wholePoll 2 (generous 20))).plc.tcp.calls.length ≤ asking.plc.tcp.calls.length + 593 :=
  (poll_bounded (reachable_reached (by decide +kernel))).2.2 (generous 20) [generous 20, generous 20]
    (by decide +kernel) (run_after (by decide +kernel))

end World

end ControlLogix
