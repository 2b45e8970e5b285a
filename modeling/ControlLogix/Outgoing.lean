import ControlLogix.Connections
import ControlLogix.Framing

/-!
# The outgoing byte stream

The session and the shared message write to one TCP connection, each with a cursor of its own.  Neither knows where
the other one stands, and a request that is timed out or aborted loses its cursor in the middle of its frame.

* `IsFrame`: the frames the two encode;
* `frames_sent`: in a run whose steps are `Orderly`, what is written to a connection is a concatenation of frames, the
  last of which may be cut;
* `torn`: a read that follows a read aborted in the middle of its frame tears the stream.
-/

namespace ControlLogix

open Bytes Transition Framing
open TcpConnection (Dropped)
open ExplicitMessage (requestFrame)

variable {n : Nat}

/-! ### The frames of the two writers -/

/-- A complete frame as `Session` or `ExplicitMessage` encodes it. -/
def IsFrame (f : List UInt8) : Prop :=
  (∃ context, f = Session.registerFrame context) ∨ (∃ handle context, f = Session.unregisterFrame handle context) ∨
    IsRequest f

theorem Session.Loaded.isFrame {s : Session} (h : s.Loaded) : IsFrame s.tx := by
  rcases h.frame with hf | hf
  · exact Or.inl hf
  · exact Or.inr (Or.inl hf)

theorem ExplicitMessage.Loaded.isFrame {m : ExplicitMessage} (h : m.Loaded) : IsFrame m.tx :=
  Or.inr (Or.inr h.request)

namespace World

/-! ### The conditions on a step -/

/-- Where the last request bytes were written: the connection, the frame, and the position in the frame after them. -/
def noteWrote (l : Option (Nat × List UInt8 × Nat)) : Event n → Option (Nat × List UInt8 × Nat)
  | .wrote sock _ frame off bytes => some (sock, frame, off + bytes.length)
  | _ => l

def lastWrote (log : List (Event n)) : Option (Nat × List UInt8 × Nat) := log.foldl noteWrote none

/-- The last request written to the connection is not complete. -/
def RequestCut (p : PlcClient n) (log : List (Event n)) : Prop :=
  ∃ l ∈ lastWrote log, l.1 = p.tcp.sockets ∧ l.2.2 < l.2.1.length

instance (p : PlcClient n) (log : List (Event n)) : Decidable (RequestCut p log) :=
  inferInstanceAs (Decidable (∃ l ∈ lastWrote log, _))

/-- No read or write is accepted, and a ready client is not disconnected, after a request that was cut; the loop hands
a request to the socket only while the session is registered, and goes on with one on the connection it was begun
on. -/
def Orderly (w : World n) : Act → Prop
  | .call (.disconnect) => w.plc.state = .ready → ¬ RequestCut w.plc w.log
  | .call (.read handle timeoutMs now) =>
    (w.plc.call (.read handle timeoutMs now)).1 = Status.pending.toInt → ¬ RequestCut w.plc w.log
  | .call (.write handle timeoutMs now) =>
    (w.plc.call (.write handle timeoutMs now)).1 = Status.pending.toInt → ¬ RequestCut w.plc w.log
  | .iter os => w.advancing ≠ none → w.plc.tcp.Usable → expired (os.millis 0) w.plc.msg.deadline = false →
      w.plc.msg.txSent < w.plc.msg.txLen → w.plc.session.state = .registered ∧
        (w.plc.msg.txSent = 0 ∨ ∃ l ∈ lastWrote w.log, l.1 = w.plc.tcp.sockets)
  | _ => True

instance (w : World n) : (a : Act) → Decidable (Orderly w a)
  | .call .disconnect => inferInstanceAs (Decidable (_ → ¬ _))
  | .call (.read ..) => inferInstanceAs (Decidable (_ → ¬ _))
  | .call (.write ..) => inferInstanceAs (Decidable (_ → ¬ _))
  | .iter _ => inferInstanceAs (Decidable (_ → _ → _ → _ → _ ∧ (_ ∨ ∃ l ∈ lastWrote w.log, _)))
  | .call (.begin ..) | .call (.connect ..) | .call (.createTag ..) | .call (.destroyTag _) | .call (.abortTag _)
  | .call (.editTag ..) | .call (.setTagCallback _) | .call (.setStateCallback _) | .deliver _ | .poll _
  | .leave => .isTrue trivial

/-! ### The invariant -/

structure Penned (p : PlcClient n) (log : List (Event n)) : Prop where
  behind : ∀ l ∈ lastWrote log, l.1 ≤ p.tcp.sockets
  early : p.state = .connecting ∨ p.state = .registering → ∀ l ∈ lastWrote log, l.1 < p.tcp.sockets
  stream : Stream IsFrame p.tcp.sock.sent
  exchange : p.state = .registering ∨ p.state = .disconnecting → p.session.Exchanging →
    At IsFrame p.tcp.sock.sent p.session.tx p.session.txSent
  whole : p.session.state = .registered → ¬ RequestCut p log → Whole IsFrame p.tcp.sock.sent
  cut : p.session.state = .registered → ∀ l ∈ lastWrote log, l.1 = p.tcp.sockets → l.2.2 < l.2.1.length →
    At IsFrame p.tcp.sock.sent l.2.1 l.2.2
  begun : p.msg.InFlight → p.msg.txSent = 0 ∧ ¬ RequestCut p log ∨
    p.msg.txSent ≠ 0 ∧ ∃ k, lastWrote log = some (k, p.msg.tx, p.msg.txSent)

/-- A request on an earlier connection is not cut on this one. -/
private theorem not_cut_of_early {p : PlcClient n} {log : List (Event n)}
    (h : ∀ l ∈ lastWrote log, l.1 < p.tcp.sockets) :
    ¬ RequestCut p log := by
  rintro ⟨l, hl, heq, -⟩
  have := h l hl
  omega

private theorem lastWrote_append {log es : List (Event n)}
    (h : ∀ e ∈ es, ∀ sock serial frame off bytes, e ≠ .wrote sock serial frame off bytes) :
    lastWrote (log ++ es) = lastWrote log := by
  have hsame : ∀ l, es.foldl noteWrote l = l := by
    intro l
    induction es with
    | nil => rfl
    | cons e es ih =>
      rw [List.foldl_cons]
      have hne := h e List.mem_cons_self
      have hnote : noteWrote l e = l := by
        cases e with
        | wrote sock serial frame off bytes => exact absurd rfl (hne sock serial frame off bytes)
        | _ => rfl
      rw [hnote]
      exact ih fun e he => h e (List.mem_cons_of_mem _ he)
  rw [lastWrote, List.foldl_append, hsame]
  rfl

private theorem requestCut_congr {p p' : PlcClient n} {log log' : List (Event n)}
    (hs : p'.tcp.sockets = p.tcp.sockets)
    (hl : lastWrote log' = lastWrote log) : RequestCut p' log' ↔ RequestCut p log := by
  unfold RequestCut
  rw [hs, hl]

/-- A step that neither concerns the connection nor writes anything. -/
private theorem Penned.calm {p p' : PlcClient n} {log log' : List (Event n)} (h : Penned p log)
    (hstate : p'.state = p.state) (hsession : p'.session = p.session) (hsent : p'.tcp.sock.sent = p.tcp.sock.sent)
    (hsockets : p'.tcp.sockets = p.tcp.sockets) (hw : lastWrote log' = lastWrote log)
    (hm : p'.msg.InFlight → p.msg.InFlight ∧ p'.msg.tx = p.msg.tx ∧ p'.msg.txSent = p.msg.txSent ∨
      p'.msg.txSent = 0 ∧ ¬ RequestCut p log) : Penned p' log' := by
  have hcut : RequestCut p' log' ↔ RequestCut p log := requestCut_congr hsockets hw
  refine ⟨?_, ?_, ?_, ?_, ?_, ?_, fun hin => ?_⟩
  · rw [hw, hsockets]
    exact h.behind
  · rw [hw, hsockets, hstate]
    exact h.early
  · rw [hsent]
    exact h.stream
  · rw [hstate, hsession, hsent]
    exact h.exchange
  · rw [hsession, hcut, hsent]
    exact h.whole
  · rw [hsession, hw, hsockets, hsent]
    exact h.cut
  · rw [hw, hcut]
    rcases hm hin with ⟨hin', htx, hts⟩ | e
    · rw [htx, hts]
      exact h.begun hin'
    · exact Or.inl e

/-- The same for a step on a tag. -/
private theorem Penned.tag {p p' : PlcClient n} {log log' : List (Event n)} (h : Penned p log) (hl : SameLink p p')
    (hw : lastWrote log' = lastWrote log)
    (hm : p'.msg.InFlight → p'.msg = p.msg ∨ p'.msg.txSent = 0 ∧ ¬ RequestCut p log) : Penned p' log' := by
  refine h.calm hl.state hl.session (by rw [hl.tcp]) (by rw [hl.tcp]) hw fun hin => ?_
  rcases hm hin with e | e
  · rw [e] at hin
    exact Or.inl ⟨hin, by rw [e], by rw [e]⟩
  · exact Or.inr e

/-- The operation of a `started` event was accepted. -/
private theorem accepted_of_started {p : PlcClient n} {op : Op} {handle : Int} {timeoutMs now : UInt32} {e : Event n}
    (hop : op = .read handle timeoutMs now ∨ op = .write handle timeoutMs now) (he : callEvents p op = [e]) :
    (p.call op).1 = Status.pending.toInt := by
  by_contra hne
  rcases hop with rfl | rfl
  · rw [callEvents] at he
    dsimp only at he
    rw [if_neg hne] at he
    cases he
  · rw [callEvents] at he
    dsimp only at he
    rw [if_neg hne] at he
    cases he

private theorem penned_called {w : World n} {p' : PlcClient n} {op : Op} (h : Penned w.plc w.log) (hop : ¬ op.Link)
    (hok : Orderly w (.call op)) (hc : Called w.plc op p' (callEvents w.plc op)) :
    Penned p' (w.log ++ callEvents w.plc op) := by
  rcases sameLink_called hc with ⟨hop', -⟩ | ⟨-, hl⟩
  · exact absurd hop' hop
  · generalize he : callEvents w.plc op = es at hc
    have hnil : lastWrote (w.log ++ []) = lastWrote w.log := by rw [List.append_nil]
    cases hc with
    | linked hop' => exact absurd hop' hop
    | registered set => exact h.tag hl hnil fun _ => Or.inl rfl
    | created free bounded => exact h.tag hl (lastWrote_append (by simp)) fun _ => Or.inl rfl
    | destroyed inUse => exact h.tag hl hnil fun _ => Or.inl rfl
    | @started op i timeoutMs now tag msg hop' inUse ready free started =>
      have hacc := accepted_of_started hop' he
      have hcut : ¬ RequestCut w.plc w.log := by
        rcases hop' with rfl | rfl
        · exact hok hacc
        · exact hok hacc
      exact h.tag hl (lastWrote_append (by simp)) fun _ => Or.inr ⟨(started_loaded started).2.1, hcut⟩
    | @aborted i inUse =>
      refine h.tag hl hnil fun hin => ?_
      by_cases hi : (w.plc.slots i).tag.InFlight
      · change ((w.plc.slots i).tag.abort w.plc.msg).2.InFlight at hin
        rw [Tag.abort_inFlight hi] at hin
        exact absurd hin (ExplicitMessage.not_inFlight_abort _)
      · exact Or.inl (Tag.abort_rest hi _)
    | edited inUse => exact h.tag hl hnil fun _ => Or.inl rfl
    | refused hop' => exact h.tag hl hnil fun _ => Or.inl rfl

/-! ### Steps that concern the connection -/

/-- The session writes the next part of its frame. -/
private theorem at_polled {s s' : Session} {conn conn' : TcpConnection} {st : Status} {inp : List UInt8}
    (h : At IsFrame conn.sock.sent s.tx s.txSent) (hp : Session.Polled s conn st s' conn' inp) :
    At IsFrame conn'.sock.sent s'.tx s'.txSent := by
  have hadv := h.advance (s'.txSent - s.txSent)
  have hmono := hp.moved.mono
  rw [Nat.add_sub_cancel' hmono] at hadv
  rw [hp.moved.transfer.sent, hp.moved.tx.1]
  exact hadv

private theorem penned_link {p p' : PlcClient n} {log log' : List (Event n)} (h : Penned p log)
    (hs : PlcClient.SameTags p p') (hw : lastWrote log' = lastWrote log)
    (hsock : p'.tcp.sockets = p.tcp.sockets ∨ p.tcp.sockets < p'.tcp.sockets)
    (hearly : p'.state = .connecting ∨ p'.state = .registering → ∀ l ∈ lastWrote log, l.1 < p'.tcp.sockets)
    (hstream : Stream IsFrame p'.tcp.sock.sent)
    (hexchange : p'.state = .registering ∨ p'.state = .disconnecting → p'.session.Exchanging →
      At IsFrame p'.tcp.sock.sent p'.session.tx p'.session.txSent)
    (hwhole : p'.session.state = .registered → ¬ RequestCut p' log' → Whole IsFrame p'.tcp.sock.sent)
    (hcut : p'.session.state = .registered → ∀ l ∈ lastWrote log, l.1 = p'.tcp.sockets → l.2.2 < l.2.1.length →
      At IsFrame p'.tcp.sock.sent l.2.1 l.2.2) : Penned p' log' := by
  rw [← hw] at hearly hcut
  refine ⟨?_, hearly, hstream, hexchange, hwhole, hcut, ?_⟩
  · rw [hw]
    intro l hl
    have hle := h.behind l hl
    rcases hsock with e | e <;> omega
  · rw [hs.msg, hw]
    intro hin
    rcases h.begun hin with ⟨hzero, hnc⟩ | hb
    · refine Or.inl ⟨hzero, ?_⟩
      rcases hsock with e | e
      · rw [requestCut_congr e hw]
        exact hnc
      · refine not_cut_of_early fun l hl => ?_
        rw [hw] at hl
        exact Nat.lt_of_le_of_lt (h.behind l hl) e
    · exact Or.inr hb

/-- The same connection with the same session, in a state without an exchange or in the state it had. -/
private theorem penned_kept {p p' : PlcClient n} {log log' : List (Event n)} (h : Penned p log)
    (hs : PlcClient.SameTags p p') (hw : lastWrote log' = lastWrote log) (hsock : p'.tcp.sock = p.tcp.sock)
    (hsockets : p'.tcp.sockets = p.tcp.sockets) (hsession : p'.session = p.session ∨ p'.session = p.session.abort)
    (hstate : p'.state = p.state ∧ p'.session = p.session ∨ p'.state = .ethernet ∨ p'.state = .failed ∨
      p'.state = .idle ∨ p'.state = .connecting ∧ p.state = .connecting) : Penned p' log' := by
  have hsame : p'.session.state = .registered → p'.session = p.session := by
    intro hr
    rcases hsession with e | e
    · exact e
    · rw [e] at hr
      cases hr
  refine penned_link h hs hw (Or.inl hsockets) ?_ ?_ ?_ ?_ ?_
  · rw [hsockets]
    rcases hstate with ⟨e, -⟩ | e | e | e | ⟨e, e'⟩ <;> rw [e]
    · exact h.early
    · rintro (h | h) <;> cases h
    · rintro (h | h) <;> cases h
    · rintro (h | h) <;> cases h
    · exact fun _ => h.early (Or.inl e')
  · rw [hsock]
    exact h.stream
  · rw [hsock]
    rcases hstate with ⟨e, e'⟩ | e | e | e | ⟨e, -⟩ <;> rw [e]
    · rw [e']
      exact h.exchange
    all_goals rintro (h | h) <;> cases h
  · intro hr
    rw [requestCut_congr hsockets hw, hsock]
    have e := hsame hr
    rw [e] at hr
    exact h.whole hr
  · intro hr
    rw [hsockets, hsock]
    have e := hsame hr
    rw [e] at hr
    exact h.cut hr

/-- The frame of an exchange stays where it is. -/
private theorem polled_frame {s s' : Session} {conn conn' : TcpConnection} {st : Status} {inp : List UInt8}
    (hl : s.Loaded) (h : Session.Polled s conn st s' conn' inp) : IsFrame s'.tx := by
  rw [h.moved.tx.1]
  exact hl.isFrame

/-- A session is registered by the reply to a frame that was written out. -/
private theorem polled_registered {s s' : Session} {conn conn' : TcpConnection} {st : Status} {inp : List UInt8}
    (h : Session.Polled s conn st s' conn' inp) (hx : s.Exchanging) (hr : s'.state = .registered) :
    s.state = .registering ∧ s.txLen ≤ s'.txSent := by
  cases h.outcome with
  | stays state =>
    rw [state] at hr
    rcases hx with hx | hx <;> rw [hx] at hr <;> cases hr
  | fails state =>
    rw [state] at hr
    cases hr
  | registers before state status handle whole written => exact ⟨before, written⟩
  | unregisters before state =>
    rw [state] at hr
    cases hr

private theorem penned_relinked {p p' : PlcClient n} {log log' : List (Event n)} (hst : Staged p) (h : Penned p log)
    (hr : Relinked p p') (hs : PlcClient.SameTags p p') (hw : lastWrote log' = lastWrote log)
    (hclose : p.state = .ready → p'.state = .disconnecting → ¬ RequestCut p log) : Penned p' log' := by
  cases hr with
  | kept tcp session state =>
    refine penned_kept h hs hw (by rw [tcp]) (by rw [tcp]) (Or.inl session) ?_
    rcases state with e | e | e
    · exact Or.inl ⟨e, session⟩
    · exact Or.inr (Or.inl e)
    · exact Or.inr (Or.inr (Or.inl e))
  | dialled tcp session state =>
    have hlt : ∀ l ∈ lastWrote log, l.1 < p'.tcp.sockets := by
      intro l hl
      have := h.behind l hl
      rw [tcp.sockets]
      omega
    have hsent : p'.tcp.sock.sent = [] := by rw [tcp.sock]
    refine penned_link h hs hw (Or.inr ?_) (fun _ => hlt) ?_ ?_ ?_ ?_
    · rw [tcp.sockets]
      omega
    · rw [hsent]
      exact Whole.nil.stream
    · rw [state]
      rintro (e | e) <;> cases e
    · rw [hsent]
      exact fun _ _ => Whole.nil
    · intro _ l hl heq
      have := hlt l hl
      omega
  | dropped tcp session state =>
    refine penned_kept h hs hw tcp.sock tcp.sockets session ?_
    rcases state with e | e
    · exact Or.inr (Or.inr (Or.inl e))
    · exact Or.inr (Or.inr (Or.inr (Or.inl e)))
  | waited before tcp pending session state =>
    exact penned_kept h hs hw tcp.sock tcp.sockets (Or.inl session)
      (Or.inr (Or.inr (Or.inr (Or.inr ⟨state, before⟩))))
  | refused before tcp session state =>
    exact penned_kept h hs hw tcp.sock tcp.sockets (Or.inl session) (Or.inr (Or.inr (Or.inl state)))
  | @opened deadline before tcp session state =>
    -- nothing has been written on a connection that was still being made
    have hsent : p'.tcp.sock.sent = [] := by
      rw [tcp.sock]
      exact (hst.connecting before).2.2.1
    have hnr : p'.session.state ≠ .registered := by
      rw [session]
      nofun
    refine penned_link h hs hw (Or.inl tcp.sockets) (fun _ => ?_) ?_ (fun _ _ => ?_) (fun e => absurd e hnr)
      fun e => absurd e hnr
    · rw [tcp.sockets]
      exact h.early (Or.inl before)
    · rw [hsent]
      exact Whole.nil.stream
    · rw [hsent, session]
      exact Whole.nil.start _
  | registers before exchanging polled state =>
    have hat := at_polled (h.exchange (Or.inl before) exchanging) polled
    have hloaded := (hst.exchanging exchanging).2
    have hframe := polled_frame hloaded polled
    have hsockets := polled.moved.transfer.sockets
    refine penned_link h hs hw (Or.inl hsockets) (fun _ => ?_) (hat.stream hframe) (fun _ _ => hat) ?_ ?_
    · rw [hsockets]
      exact h.early (Or.inr before)
    · intro hreg _
      refine hat.whole hframe ?_
      rw [polled.moved.tx.1, ← hloaded.len]
      exact (polled_registered polled exchanging hreg).2
    · intro _ l hl heq
      have := h.early (Or.inr before) l hl
      omega
  | closing before tcp session state =>
    have hwhole := h.whole (hst.ready before) (hclose before state)
    have hnr : p'.session.state ≠ .registered := by
      rw [session]
      nofun
    refine penned_link h hs hw (Or.inl (by rw [tcp])) ?_ ?_ (fun _ _ => ?_) (fun e => absurd e hnr)
      fun e => absurd e hnr
    · rw [state]
      rintro (e | e) <;> cases e
    · rw [tcp]
      exact h.stream
    · rw [tcp, session]
      exact hwhole.start _
  | @unregisters st inp tcp before exchanging polled state =>
    have hsession := hst.session_unregistering before exchanging
    have hat := at_polled (h.exchange (Or.inr before) exchanging) polled
    have hframe := polled_frame (hst.exchanging exchanging).2 polled
    have hnr : p'.session.state ≠ .registered := by
      intro hreg
      have hregistering := (polled_registered polled exchanging hreg).1
      rw [hsession] at hregistering
      cases hregistering
    have hsockets := polled.moved.transfer.sockets
    have htcp : p'.tcp.sock = tcp.sock ∧ p'.tcp.sockets = tcp.sockets := by
      rcases state with ⟨-, e, -⟩ | ⟨-, e⟩
      · rw [e]
        exact ⟨rfl, rfl⟩
      · exact ⟨e.sock, e.sockets⟩
    refine penned_link h hs hw (Or.inl (htcp.2.trans hsockets)) ?_ ?_ ?_ (fun e => absurd e hnr)
      fun e => absurd e hnr
    · rcases state with ⟨e, -⟩ | ⟨e, -⟩ <;> rw [e] <;> rintro (e | e) <;> cases e
    · rw [htcp.1]
      exact hat.stream hframe
    · rw [htcp.1]
      exact fun _ _ => hat

/-! ### A turn of the loop -/

private theorem penned_turned {p p' : PlcClient n} {log es : List (Event n)} {i : Fin n} {os : Platform} {st : Status}
    {out inp : List UInt8} (hst : Staged p) (hl : p.msg.Loaded) (hin : (p.slots i).tag.InFlight) (hm : p.msg.InFlight)
    (h : Penned p log) (hstate : p'.state = p.state) (hsession : p'.session = p.session) (hmv : Moves p p' os out inp)
    (hok : p.tcp.Usable → expired (os.millis 0) p.msg.deadline = false → p.msg.txSent < p.msg.txLen →
      p.session.state = .registered ∧ (p.msg.txSent = 0 ∨ ∃ l ∈ lastWrote log, l.1 = p.tcp.sockets))
    (hes : ∀ e ∈ es, ∃ st, e = .tagCallback i st) : Penned p' (log ++ iterEvents p i st p' (starts log) ++ es) := by
  have hquiet : ∀ log', lastWrote (log' ++ [.advanced i st] ++ es) = lastWrote log' := by
    intro log'
    rw [List.append_assoc]
    refine lastWrote_append fun e he sock serial frame off bytes hw => ?_
    rcases List.mem_append.1 he with he | he
    · rw [List.mem_singleton.1 he] at hw
      cases hw
    · obtain ⟨st, rfl⟩ := hes e he
      cases hw
  have hcursor := hmv.cursor
  rw [iterEvents_moves hin hmv, ← List.append_assoc log]
  by_cases hout : out = []
  · -- nothing was written
    have hsent := hmv.sent
    rw [hout, List.append_nil] at hsent
    rw [hout, List.length_nil, Nat.add_zero] at hcursor
    rw [if_pos hout, List.append_nil]
    exact h.calm hstate hsession hsent hmv.sockets (hquiet log) fun _ => Or.inl ⟨hm, hmv.tx.1, hcursor⟩
  · rw [if_neg hout]
    have hlast : lastWrote (log ++ [.wrote p.tcp.sockets (starts log) p.msg.tx p.msg.txSent out] ++
        [.advanced i st] ++ es) = some (p.tcp.sockets, p.msg.tx, p'.msg.txSent) := by
      rw [hquiet, lastWrote, List.foldl_append, hcursor]
      rfl
    generalize log ++ [.wrote p.tcp.sockets (starts log) p.msg.tx p.msg.txSent out] ++ [.advanced i st] ++ es =
      log' at *
    obtain ⟨hu, hd⟩ := hmv.live (Or.inl hout)
    have hpos : 0 < out.length := List.length_pos_iff.2 hout
    have hlen := hl.len
    have hbound := hmv.bound
    obtain ⟨hreg, hhere⟩ := hok hu hd (by omega)
    have hat : At IsFrame p.tcp.sock.sent p.msg.tx p.msg.txSent := by
      rcases h.begun hm with ⟨hzero, hnc⟩ | ⟨hne, k, hk⟩
      · rw [hzero]
        exact (h.whole hreg hnc).start _
      · obtain ⟨l, hl', hsock⟩ := hhere.resolve_left hne
        rw [hk, Option.mem_def, Option.some.injEq] at hl'
        subst hl'
        exact h.cut hreg _ hk hsock (by dsimp only; omega)
    have hat' : At IsFrame p'.tcp.sock.sent p.msg.tx p'.msg.txSent := by
      have hadv := hat.advance (p'.msg.txSent - p.msg.txSent)
      rw [Nat.add_sub_cancel' (by omega), ← hmv.part, ← hmv.sent] at hadv
      exact hadv
    have hnx : ¬ p.session.Exchanging := by
      rintro (e | e) <;> rw [hreg] at e <;> cases e
    refine ⟨?_, ?_, hat'.stream hl.isFrame, ?_, ?_, ?_, fun _ => Or.inr ⟨by omega, p.tcp.sockets, ?_⟩⟩
    · rw [hlast]
      intro l hl'
      rw [Option.mem_def, Option.some.injEq] at hl'
      exact Nat.le_of_eq (by rw [← hl', hmv.sockets])
    · -- requests are written on a connection that is up and registered
      rw [hstate]
      rintro (e | e)
      · have hp := (hst.connecting e).2.1
        rw [hu.2] at hp
        cases hp
      · rcases hst.registering e with e | e <;> rw [hreg] at e <;> cases e
    · rw [hsession]
      exact fun _ hx => absurd hx hnx
    · intro _ hnc
      refine hat'.whole hl.isFrame ?_
      by_contra hlt
      exact hnc ⟨_, hlast, hmv.sockets.symm, by simpa using hlt⟩
    · intro _ l hl' _ _
      rw [hlast, Option.mem_def, Option.some.injEq] at hl'
      rw [← hl']
      exact hat'
    · rw [hlast, hmv.tx.1]

/-! ### Every run -/

theorem penned_initial {w : World n} (h : Initial w) : Penned w.plc w.log := by
  have hsent : w.plc.tcp.sock.sent = [] := by rw [h.fresh.tcp]
  have hlast : lastWrote w.log = none := by
    rw [h.log]
    rfl
  refine ⟨?_, ?_, ?_, ?_, ?_, ?_, ?_⟩
  · rw [hlast]
    nofun
  · rw [hlast]
    nofun
  · rw [hsent]
    exact Whole.nil.stream
  · rw [h.fresh.state]
    rintro (e | e) <;> cases e
  · rw [hsent]
    exact fun _ _ => Whole.nil
  · rw [hlast]
    nofun
  · rw [h.fresh.msg]
    rintro (e | e) <;> cases e

/-- What an orderly run preserves. -/
private structure Tidy (w : World n) : Prop where
  coupled : Coupled w.plc
  staged : Staged w.plc
  loaded : w.plc.msg.InFlight → w.plc.msg.Loaded
  penned : Penned w.plc w.log

private theorem tidy_step {w w' : World n} {a : Act} (h : Tidy w) (hok : Orderly w a) (hs : step w a = some w') :
    Tidy w' := by
  refine ⟨coupled_step h.coupled hs, staged_step h.coupled h.staged hs,
    loaded_step h.coupled h.staged h.loaded hs, ?_⟩
  obtain ⟨hc, hst, hl, hp⟩ := h
  cases step_cases hst hs with
  | delivered plc log =>
    rw [plc, log]
    exact hp.calm rfl rfl rfl rfl rfl fun hin => Or.inl ⟨hin, rfl, rfl⟩
  | called hop called log =>
    rw [log]
    exact penned_called hp hop hok called
  | @relinked a es link closing same callbacks log =>
    have hw : lastWrote w'.log = lastWrote w.log := by
      rw [log, List.append_assoc]
      refine lastWrote_append fun e he sock serial frame off bytes hwr => ?_
      rcases List.mem_append.1 he with he | he
      · unfold registration at he
        split at he
        · rw [List.mem_singleton.1 he] at hwr
          cases hwr
        · cases he
      · obtain ⟨st, rfl⟩ := callbacks e he
        cases hwr
    refine penned_relinked hst hp link same hw fun hr hd => ?_
    have ha := closing hr hd
    subst ha
    exact hok hr
  | @turned os f fs i st es polls slot inUse turned callbacks log =>
    rw [log]
    by_cases hin : (w.plc.slots i).tag.InFlight
    · have hm := hc.used i hin
      obtain ⟨out, inp, hmv⟩ := turned_moves hc (hl hm) hin turned
      obtain ⟨hstate, hsession, -⟩ := turned_link hc turned
      refine penned_turned hst (hl hm) hin hm hp hstate hsession hmv (hok ?_) callbacks
      rw [advancing_inFlight polls slot inUse hin]
      nofun
    · rw [iterEvents_rest hin turned, List.append_nil]
      have hr := turned_rest hin turned
      refine hp.tag hr.toSameLink (lastWrote_append fun e he sock serial frame off bytes hwr => ?_) fun _ =>
        Or.inl hr.msg
      obtain ⟨st, rfl⟩ := callbacks e he
      cases hwr
  | skipped plc log =>
    rw [plc, log]
    exact hp

/-- In an orderly run, what is written to a TCP connection is a concatenation of frames, the last of which may be
cut. -/
theorem frames_sent {w₀ w : World n} {as : List Act} (h0 : Initial w₀) (h : Run step Orderly w₀ as w) :
    Stream IsFrame w.plc.tcp.sock.sent := by
  have htidy : Tidy w₀ := by
    refine ⟨coupled_initial h0, staged_initial h0, ?_, penned_initial h0⟩
    rw [h0.fresh.msg]
    rintro (e | e) <;> cases e
  exact (h.invariant (fun _ _ _ => tidy_step) htidy).penned.stream

/-! ### A stream that is none -/

/-- Look for the first byte of a frame at the beginning, and then behind as many bytes as the header announces. -/
def wellFramed : Nat → List UInt8 → Bool
  | 0, _ => true
  | _ + 1, [] => true
  | k + 1, b :: bs =>
    decide (b = 0x65 ∨ b = 0x66 ∨ b = 0x6F) &&
      (decide (bs.length < 3) || wellFramed k ((b :: bs).drop (24 + (getU16 ((b :: bs).drop 2)).toNat)))

/-- A frame is as long as its header announces. -/
private structure Announced (f : List UInt8) : Prop where
  long : 24 ≤ f.length
  head : ∃ b bs, f = b :: bs ∧ (b = 0x65 ∨ b = 0x66 ∨ b = 0x6F)
  length : f.length = 24 + (decodeHeader f).length.toNat

private theorem head_encodeHeader (h : EncapsulationHeader) (bs : List UInt8) :
    ∃ rest, encodeHeader h ++ bs = h.command.toUInt8 :: rest := by
  simp only [encodeHeader, putU16, List.append_assoc, List.cons_append]
  exact ⟨_, rfl⟩

private theorem announced_register (context : UInt64) : Announced (Session.registerFrame context) := by
  obtain ⟨rest, hhead⟩ := head_encodeHeader (Session.registerHeader context) (putU16 1 ++ putU16 0)
  rw [← List.append_assoc] at hhead
  refine ⟨by simp [Session.registerFrame, kEncapsulationHeaderSize], ⟨_, rest, hhead, Or.inl rfl⟩, ?_⟩
  rw [Session.decode_registerFrame]
  simp [Session.registerFrame, Session.registerHeader, kEncapsulationHeaderSize]

private theorem announced_unregister (handle : UInt32) (context : UInt64) :
    Announced (Session.unregisterFrame handle context) := by
  obtain ⟨rest, hhead⟩ := head_encodeHeader (Session.unregisterHeader handle context) []
  rw [List.append_nil] at hhead
  refine ⟨by simp [Session.unregisterFrame, kEncapsulationHeaderSize], ⟨_, rest, hhead, Or.inr (Or.inl rfl)⟩, ?_⟩
  rw [Session.decode_unregisterFrame]
  simp [Session.unregisterFrame, Session.unregisterHeader, kEncapsulationHeaderSize]

private theorem announced_request {f : List UInt8} (h : IsRequest f) : Announced f := by
  obtain ⟨session, context, service, path, data, hsmall, hf⟩ := h
  rw [hf]
  refine ⟨?_, ?_, ?_⟩
  · rw [length_requestFrame]
    omega
  · rw [ExplicitMessage.requestFrame]
    simp only [List.append_assoc]
    obtain ⟨rest, hhead⟩ := head_encodeHeader _ _
    exact ⟨_, rest, hhead, Or.inr (Or.inr rfl)⟩
  · rw [length_requestFrame, decode_requestFrame, cipLength_small hsmall]
    simp only [ExplicitMessage.requestHeader, UInt16.toNat_ofNat']
    have hk : ExplicitMessage.kMaxCipData = 256 := rfl
    omega

private theorem announced {f : List UInt8} (h : IsFrame f) : Announced f := by
  rcases h with ⟨context, hf⟩ | ⟨handle, context, hf⟩ | hrequest
  · rw [hf]
    exact announced_register context
  · rw [hf]
    exact announced_unregister handle context
  · exact announced_request hrequest

/-- The length is announced by the third and the fourth byte. -/
private theorem announced_congr {s f : List UInt8} (hf : Announced f) (hs : s.take 4 = f.take 4) :
    24 + (getU16 (s.drop 2)).toNat = f.length := by
  have hget : getU16 (s.drop 2) = (decodeHeader f).length := getU16_congr (take_drop_congr hs (by omega))
  rw [hget, hf.length]

private theorem wellFramed_cons {k : Nat} {b : UInt8} {bs : List UInt8} (hb : b = 0x65 ∨ b = 0x66 ∨ b = 0x6F)
    (h : ¬ bs.length < 3 → wellFramed k ((b :: bs).drop (24 + (getU16 ((b :: bs).drop 2)).toNat)) = true) :
    wellFramed (k + 1) (b :: bs) = true := by
  rw [wellFramed, Bool.and_eq_true, Bool.or_eq_true]
  refine ⟨by simpa using hb, ?_⟩
  by_cases hl : bs.length < 3
  · exact Or.inl (by simpa using hl)
  · exact Or.inr (h hl)

private theorem wellFramed_nil (k : Nat) : wellFramed k [] = true := by
  cases k <;> rfl

private theorem wellFramed_cut {f : List UInt8} (hf : Announced f) (k m : Nat) : wellFramed k (f.take m) = true := by
  cases k with
  | zero => rfl
  | succ k =>
    obtain ⟨b, bs, hb, hcode⟩ := hf.head
    cases m with
    | zero => rfl
    | succ m =>
      have htake : f.take (m + 1) = b :: bs.take m := by rw [hb, List.take_succ_cons]
      rw [htake]
      refine wellFramed_cons hcode fun hlong => ?_
      rw [← htake, announced_congr hf, List.drop_eq_nil_of_le]
      · exact wellFramed_nil k
      · exact List.length_take_le' _ _
      · rw [List.take_take, Nat.min_eq_left]
        rw [List.length_take] at hlong
        omega

private theorem wellFramed_frames {f : List UInt8} (hf : Announced f) (m : Nat) {fs : List (List UInt8)}
    (hfs : ∀ g ∈ fs, Announced g) (k : Nat) : wellFramed k (fs.flatten ++ f.take m) = true := by
  induction fs generalizing k with
  | nil => exact wellFramed_cut hf k m
  | cons g gs ih =>
    cases k with
    | zero => rfl
    | succ k =>
      have hg := hfs g List.mem_cons_self
      have hrest := ih (fun g hg => hfs g (List.mem_cons_of_mem _ hg)) k
      obtain ⟨b, bs, hb, hcode⟩ := hg.head
      have hstart : (g ++ (gs.flatten ++ f.take m)).take 4 = g.take 4 := by
        have := hg.long
        rw [List.take_append_of_le_length (by omega)]
      have hlen := announced_congr hg hstart
      rw [List.flatten_cons, List.append_assoc]
      rw [hb, List.cons_append] at hlen ⊢
      refine wellFramed_cons hcode fun _ => ?_
      rw [hlen, ← List.cons_append, List.drop_left]
      exact hrest

theorem wellFramed_of_stream {s : List UInt8} (h : Stream IsFrame s) (k : Nat) : wellFramed k s = true := by
  rcases h with ⟨fs, hfs, rfl⟩ | ⟨f, m, hf, t, ⟨fs, hfs, rfl⟩, rfl⟩
  · have hf : Announced (Session.registerFrame 0) := announced (Or.inl ⟨0, rfl⟩)
    have hw := wellFramed_frames hf 0 (fun g hg => announced (hfs g hg)) k
    rwa [List.take_zero, List.append_nil] at hw
  · exact wellFramed_frames (announced hf) m (fun g hg => announced (hfs g hg)) k

/-- Two reads that are written out, a part at a time, and a disconnection. -/
def orderlyRun : List Act :=
  bringUp 7 ++ [.call (.createTag (some [65]) 1), .call (.read 0 1000 10)] ++
    wholePoll 2 { millis := fun _ => 20, sends := [.accepted 10] } ++ wholePoll 2 (generous 30) ++
    [.call (.abortTag 0), .call (.read 0 1000 40)] ++ wholePoll 2 (generous 50) ++
    [.call .disconnect, .poll (generous 60)]

theorem frames_sent_orderly : Stream IsFrame (reached 2 orderlyRun).plc.tcp.sock.sent :=
  frames_sent (fresh_initial 2) (run_reachedIf Orderly (by decide +kernel))

/-- A read aborted after ten bytes of its request, and the next one. -/
def tornRun : List Act :=
  bringUp 7 ++ [.call (.createTag (some [65]) 1), .call (.read 0 1000 10)] ++
    wholePoll 2 { millis := fun _ => 20, sends := [.accepted 10] } ++
    [.call (.abortTag 0), .call (.read 0 1000 30)] ++ wholePoll 2 (generous 40)

/-- The request of the second read starts in the middle of the frame of the first. -/
theorem torn : ¬ ∀ w : World 2, Reachable w → Stream IsFrame w.plc.tcp.sock.sent := by
  intro h
  have hreach : Reachable (reached 2 tornRun) := reachable_reached (by decide +kernel)
  have hbad : wellFramed 3 (reached 2 tornRun).plc.tcp.sock.sent = false := by decide +kernel
  rw [wellFramed_of_stream (h _ hreach) 3] at hbad
  cases hbad

end World

end ControlLogix
