import ControlLogix.Connections
import ControlLogix.Recovery
import ControlLogix.Recycling
import ControlLogix.Reentrancy

/-!
# Fresh handles

A client and the peer at the other end of its TCP connection.  In `Ready` the peer sends nothing but replies to the
operations accepted so far, in their order; before and after that it sends what it likes.  A new connection has a peer
that has not sent anything.

* `FreshTag`: what is asked of a handle that `createTag()` has just returned;
* `fresh_iff`: it is so if and only if the `Tag` of the slot is as the constructor left it, in all runs in which the
  operations of the slot begin between two replies and end on their own connection (`InStep`);
* `not_fresh`: a slot that was destroyed while its read was in flight, and a reply that was read in part.
-/

namespace ControlLogix

open Transition
open Buffers (Framed bodyLength)
open World (Live starts startSock)

variable {n : Nat}

/-! ### The number of the operation in the message -/

namespace World

/-- The contexts number the accepted operations, and the last of them was started on this connection or an earlier
one. -/
structure Counted (w : World n) : Prop where
  context : w.plc.msg.context = UInt64.ofNat (starts w.log + 1)
  sent : w.plc.msg.InFlight → w.plc.msg.sentContext = UInt64.ofNat (starts w.log)
  behind : ∀ k, startSock w.log = some k → k ≤ w.plc.tcp.sockets
  early : w.plc.Joining → ∀ k, startSock w.log = some k → k < w.plc.tcp.sockets

/-- A call about the tags starts an operation, or leaves the message alone while it is in flight. -/
theorem called_message {p p' : PlcClient n} {op : Op} {es : List (Event n)} (hop : ¬ op.Link)
    (h : Called p op p' es) :
    (∃ i timeoutMs now tag, es = [.started i p.tcp.sockets (now + timeoutMs)] ∧ p.state = .ready ∧
      (p'.slots i).tag.InFlight ∧
      Tag.Started (p.slots i).tag p.msg p.tcp p.session.handle (p.slots i).name timeoutMs now tag p'.msg) ∨
    (∀ e ∈ es, ∃ i, e = .created i) ∧ p'.msg.context = p.msg.context ∧ (p'.msg.InFlight → p'.msg = p.msg) := by
  have hnil : ∀ e ∈ ([] : List (Event n)), ∃ i, e = .created i := fun e he => absurd he List.not_mem_nil
  cases h with
  | linked hop' => exact absurd hop' hop
  | registered set => exact Or.inr ⟨hnil, rfl, fun _ => rfl⟩
  | @created name elementCount i free bounded =>
    exact Or.inr ⟨fun e he => ⟨i, List.mem_singleton.1 he⟩, rfl, fun _ => rfl⟩
  | destroyed inUse => exact Or.inr ⟨hnil, rfl, fun _ => rfl⟩
  | @started op i timeoutMs now tag msg hop' inUse ready free started =>
    refine Or.inl ⟨i, timeoutMs, now, tag, rfl, ready, ?_, started⟩
    rw [PlcClient.setSlot_self]
    exact started.inFlight
  | @aborted i inUse =>
    refine Or.inr ⟨hnil, ?_⟩
    by_cases hi : (p.slots i).tag.InFlight
    · refine ⟨?_, fun hin => ?_⟩
      · change ((p.slots i).tag.abort p.msg).2.context = _
        rw [Tag.abort_inFlight hi]
        rfl
      · change ((p.slots i).tag.abort p.msg).2.InFlight at hin
        rw [Tag.abort_inFlight hi] at hin
        exact absurd hin (ExplicitMessage.not_inFlight_abort _)
    · have hsame : ((p.slots i).tag.abort p.msg).2 = p.msg := Tag.abort_rest hi _
      exact ⟨congrArg ExplicitMessage.context hsame, fun _ => hsame⟩
  | edited inUse => exact Or.inr ⟨hnil, rfl, fun _ => rfl⟩
  | refused hop' => exact Or.inr ⟨hnil, rfl, fun _ => rfl⟩

/-- A turn of the loop leaves the numbers in the message alone. -/
theorem turned_contexts {p p' : PlcClient n} {i : Fin n} {os : Platform} {st : Status} (hc : Coupled p)
    (h : PlcClient.Turned p i os st p') : p'.msg.context = p.msg.context ∧
      (p'.msg.InFlight → p.msg.InFlight ∧ p'.msg.sentContext = p.msg.sentContext) := by
  cases h with
  | rest hr => exact ⟨rfl, fun hin => ⟨hin, rfl⟩⟩
  | inFlight hin polled advanced =>
    have hm := hc.used i hin
    obtain ⟨inp, hp⟩ := ExplicitMessage.poll_spec hm (hc.framed hm) polled
    exact ⟨hp.contexts.1, fun _ => ⟨hm, hp.contexts.2⟩⟩

/-- What a turn of the loop reads from the socket goes to the buffer. -/
theorem turned_read {p p' : PlcClient n} {i : Fin n} {os : Platform} {st : Status} (hc : Coupled p)
    (hin : (p.slots i).tag.InFlight) (h : PlcClient.Turned p i os st p') :
    ∃ out inp, TcpConnection.Transfer p.tcp p'.tcp out inp ∧
      p'.msg.rx.take p'.msg.rxLen = p.msg.rx.take p.msg.rxLen ++ inp := by
  cases h with
  | rest hr => exact absurd hin hr
  | inFlight _ polled advanced =>
    have hm := hc.used i hin
    obtain ⟨inp, hp⟩ := ExplicitMessage.poll_spec hm (hc.framed hm) polled
    exact ⟨_, inp, hp.moved.transfer, hp.moved.bytes⟩

/-- The events of a turn of the loop. -/
theorem unstarted_turn {p p' : PlcClient n} {i : Fin n} {st : Status} {es : List (Event n)} (log : List (Event n))
    (k : Nat) (hes : ∀ e ∈ es, ∃ st, e = .tagCallback i st) : Unstarted log (iterEvents p i st p' k ++ es) := by
  refine unstarted log fun e he j sock deadline hstart => ?_
  subst hstart
  rcases List.mem_append.1 he with he | he
  · unfold iterEvents at he
    dsimp only at he
    split at he <;> split at he <;> simp at he
  · obtain ⟨st, hst⟩ := hes _ he
    cases hst

theorem counted_initial {w : World n} (h : Initial w) : Counted w := by
  have hlog := h.log
  have hmsg := h.fresh.msg
  refine ⟨?_, ?_, ?_, ?_⟩
  · rw [hlog, hmsg]
    rfl
  · rw [hmsg]
    rintro (e | e) <;> cases e
  · rw [hlog]
    intro k hk
    cases hk
  · rw [hlog]
    intro _ k hk
    cases hk

/-- The numbers stay as they are when nothing is started. -/
private theorem Counted.keep {w w' : World n} {es : List (Event n)} (h : Counted w) (hun : Unstarted w.log es)
    (hlog : w'.log = w.log ++ es) (hcontext : w'.plc.msg.context = w.plc.msg.context)
    (hsent : w'.plc.msg.InFlight → w.plc.msg.InFlight ∧ w'.plc.msg.sentContext = w.plc.msg.sentContext)
    (hbehind : ∀ k, startSock w.log = some k → k ≤ w'.plc.tcp.sockets)
    (hearly : w'.plc.Joining → ∀ k, startSock w.log = some k → k < w'.plc.tcp.sockets) : Counted w' := by
  refine ⟨?_, fun hin => ?_, ?_, ?_⟩
  · rw [hcontext, hlog, hun.serial, h.context]
  · obtain ⟨hold, hsame⟩ := hsent hin
    rw [hsame, hlog, hun.serial, h.sent hold]
  · rw [hlog, hun.sock]
    exact hbehind
  · rw [hlog, hun.sock]
    exact hearly

theorem counted_step {w w' : World n} {a : Act} (hl : Live w) (h : Counted w) (hs : step w a = some w') :
    Counted w' := by
  have hnil : Unstarted w.log [] := unstarted w.log fun e he => absurd he List.not_mem_nil
  cases step_cases hl.staged hs with
  | delivered plc log =>
    refine h.keep hnil (by rw [log, List.append_nil]) ?_ ?_ ?_ ?_ <;> rw [plc]
    · exact fun hin => ⟨hin, rfl⟩
    · exact h.behind
    · exact h.early
  | called hop called log =>
    rcases sameLink_called called with ⟨hop', -⟩ | ⟨-, hlink⟩
    · exact absurd hop' hop
    · rcases called_message hop called with ⟨i, timeoutMs, now, tag, hes, hready, -, started⟩ | ⟨hes, hcontext, hmsg⟩
      · obtain ⟨service, data, -, hsent⟩ := started.sent
        have hstarts : starts w'.log = starts w.log + 1 := by
          rw [log, hes, starts_append]
          rfl
        have hsock : startSock w'.log = some w.plc.tcp.sockets := by
          rw [log, hes, startSock, lastStart_append]
          rfl
        refine ⟨?_, fun _ => ?_, ?_, ?_⟩
        · rw [hstarts, hsent.context, h.context]
          apply UInt64.toNat_inj.1
          simp
        · rw [hstarts, hsent.sentContext, h.context]
        · rw [hsock, hlink.tcp]
          intro k hk
          exact Nat.le_of_eq (Option.some.inj hk).symm
        · unfold PlcClient.Joining
          rw [hlink.state, hready]
          rintro (e | e) <;> cases e
      · refine h.keep (unstarted w.log fun e he j sock deadline hstart => ?_) log hcontext (fun hin => ?_) ?_ ?_
        · obtain ⟨j', hj'⟩ := hes e he
          rw [hj'] at hstart
          cases hstart
        · have hsame := hmsg hin
          rw [hsame] at hin
          exact ⟨hin, congrArg ExplicitMessage.sentContext hsame⟩
        · rw [hlink.tcp]
          exact h.behind
        · unfold PlcClient.Joining
          rw [hlink.tcp, hlink.state]
          exact h.early
  | relinked link closing same callbacks log =>
    refine h.keep (unstarted_link w.log callbacks) (by rw [log, List.append_assoc]) (by rw [same.msg]) ?_
      (behind_link link h.behind) (early_link link h.behind h.early)
    rw [same.msg]
    exact fun hin => ⟨hin, rfl⟩
  | @turned os f fs i st es polls slot inUse turned callbacks log =>
    obtain ⟨hstate, -, out, inp, htransfer⟩ := turned_link hl.coupled turned
    obtain ⟨hcontext, hsent⟩ := turned_contexts hl.coupled turned
    refine h.keep (unstarted_turn w.log _ callbacks) (by rw [log, List.append_assoc]) hcontext hsent ?_ ?_
    · rw [htransfer.sockets]
      exact h.behind
    · unfold PlcClient.Joining
      rw [htransfer.sockets, hstate]
      exact h.early
  | skipped plc log =>
    refine h.keep hnil (by rw [log, List.append_nil]) ?_ ?_ ?_ ?_ <;> rw [plc]
    · exact fun hin => ⟨hin, rfl⟩
    · exact h.behind
    · exact h.early

end World

/-! ### A client and its peer -/

structure Peered (n : Nat) where
  world : World n
  /-- What the peer sent on this connection before the client was `Ready`. -/
  greeting : List UInt8 := []
  /-- The replies it sent while the client was `Ready`. -/
  replies : List Reply := []
  /-- What it sent after that. -/
  farewell : List UInt8 := []
  /-- What the peer has sent and the network has not delivered. -/
  wire : List UInt8 := []

namespace Peered

inductive Act where
  | client (a : ControlLogix.Act)
  | say (bs : List UInt8)
  | answer (r : Reply)
  | deliver (k : Nat)

/-- The client goes on, and its peer is another one when it has dialled. -/
def follow (s : Peered n) (w : World n) : Peered n :=
  if w.plc.tcp.sockets = s.world.plc.tcp.sockets then { s with world := w } else { world := w }

def step (s : Peered n) : Act → Option (Peered n)
  | .client (.deliver _) => none
  | .client a => (World.step s.world a).map s.follow
  | .say bs =>
    match s.world.plc.state with
    | .ready => none
    | .connecting | .registering => some { s with greeting := s.greeting ++ bs, wire := s.wire ++ bs }
    | _ => some { s with farewell := s.farewell ++ bs, wire := s.wire ++ bs }
  | .answer r =>
    if s.world.plc.state = .ready ∧ 0 < r.exchange ∧ r.exchange ≤ starts s.world.log ∧
        ∀ q ∈ s.replies, q.exchange < r.exchange then
      some { s with replies := s.replies ++ [r], wire := s.wire ++ r.frame }
    else none
  | .deliver k =>
    (World.step s.world (.deliver (s.wire.take k))).map fun w => { s with world := w, wire := s.wire.drop k }

/-- A sketch that has just constructed its client. -/
structure Initial (s : Peered n) : Prop where
  world : World.Initial s.world
  silent : s = { world := s.world }

/-- The bytes of the first `j` replies. -/
def bytes (s : Peered n) (j : Nat) : List UInt8 := ((s.replies.take j).map Reply.frame).flatten

/-- What has been read of the replies are whole ones. -/
def Even (s : Peered n) : Prop :=
  ∃ j ≤ s.replies.length, s.world.plc.tcp.sock.recvd = s.greeting ++ s.bytes j

/-- An operation of slot `i` begins between two replies, with a context that has not been used, and is advanced in
`Ready` on the connection it was started on. -/
def InStep (i : Fin n) (s : Peered n) : Act → Prop
  | .client (.call op) => (∃ sock deadline, Event.started i sock deadline ∈ World.callEvents s.world.plc op) →
      s.Even ∧ starts s.world.log + 1 < 2 ^ 64
  | .client (.iter os) => s.world.advancing = some i → s.world.plc.tcp.Usable →
      expired (os.millis 0) s.world.plc.msg.deadline = false →
        s.world.plc.state = .ready ∧ startSock s.world.log = some s.world.plc.tcp.sockets
  | _ => True

/-- The action is one of those that are `ok`, and does not free slot `i`. -/
def Holds (ok : Peered n → Act → Prop) (i : Fin n) (s : Peered n) (a : Act) : Prop :=
  ok s a ∧ match a with
    | .client a => World.Kept i s.world a
    | _ => True

/-- The tag `name` that `createTag()` has put into slot `i`, giving `s`, has no trace of an earlier tag in this slot,
for which the constructor left `t₀`. -/
structure FreshTag (ok : Peered n → Act → Prop) (t₀ : Tag) (s : Peered n) (i : Fin n) (name : List UInt8) : Prop where
  status : s.world.plc.tagStatus i.val = .notReady
  fields : ∃ t, s.world.plc.tag i.val = some t ∧ t.dataLen = 0 ∧ t.dataType = 0 ∧ t.resultCode = 0 ∧ t.data = t₀.data
  /-- Until the tag is read, its type set or its handle freed, `write()` is refused and changes nothing: with
  `NotReady`, unless another operation makes it `Busy` before. -/
  refuses : ∀ as w, Run World.step (World.Untyped i) s.world as w → ∀ timeoutMs now,
    w.plc.write i.val timeoutMs now = (.notReady, w.plc) ∨
      w.plc.anyTagBusy = true ∧ w.plc.write i.val timeoutMs now = (.busy, w.plc)
  /-- Until `read()` or `write()` is called for the handle, no callback is made for it, and only calls change the
  tag. -/
  quiet : ∀ as w, Run World.step (World.Unused i) s.world as w →
    (∃ es, w.log = s.world.log ++ es ∧ ∀ st, .tagCallback i st ∉ es) ∧
      ∀ a w', World.step w a = some w' → (w'.plc.slots i).tag ≠ (w.plc.slots i).tag →
        ∃ op, a = .call op ∧ op.handle = some i.val
  /-- On every network, as long as the tag is not destroyed, the loop changes it only while the message carries a
  request for its own name, and a result comes from a reply that echoes the context of this request. -/
  own : ∀ as w os w', Run World.step (World.Kept i) s.world as w → World.step w (.iter os) = some w' →
    (w'.plc.slots i).tag ≠ (w.plc.slots i).tag → RequestFor name w.plc.msg ∧
      ((w'.plc.slots i).tag.state = .done → (decodeHeader w'.plc.msg.rx).context = w.plc.msg.sentContext)
  /-- A result is that of the reply to this very request. -/
  reply : ∀ as u os u', Run step (Holds ok i) s as u → Holds ok i u (.client (.iter os)) →
    step u (.client (.iter os)) = some u' → (u'.world.plc.slots i).tag ≠ (u.world.plc.slots i).tag →
      (u'.world.plc.slots i).tag.state = .done → ∃ r ∈ u.replies, r.exchange = starts u.world.log ∧
        r.context = u.world.plc.msg.sentContext ∧
        Station.Completed (u.world.plc.slots i).tag r (u'.world.plc.slots i).tag

/-! ### What the client has read -/

/-- What the peer has sent is read, waits at the socket or is on the way, and the replies answer accepted
operations. -/
structure Sourced (s : Peered n) : Prop where
  stream : s.world.plc.tcp.sock.recvd ++ (s.world.plc.tcp.sock.inbox ++ s.wire) =
    s.greeting ++ ((s.replies.map Reply.frame).flatten ++ s.farewell)
  joining : s.world.plc.Joining → s.replies = [] ∧ s.farewell = []
  ready : s.world.plc.state = .ready → s.farewell = []
  numbered : ∀ r ∈ s.replies, r.exchange ≤ starts s.world.log

/-- The operation of slot `i` has read the beginning of a reply. -/
def Reading (i : Fin n) (s : Peered n) : Prop :=
  (s.world.plc.slots i).tag.InFlight → s.world.plc.state = .ready →
    startSock s.world.log = some s.world.plc.tcp.sockets → starts s.world.log < 2 ^ 64 ∧
      ∃ j ≤ s.replies.length, s.world.plc.tcp.sock.recvd =
        s.greeting ++ (s.bytes j ++ s.world.plc.msg.rx.take s.world.plc.msg.rxLen)

theorem follow_same {s : Peered n} {w : World n} (h : w.plc.tcp.sockets = s.world.plc.tcp.sockets) :
    s.follow w = { s with world := w } := if_pos h

theorem follow_new {s : Peered n} {w : World n} (h : w.plc.tcp.sockets = s.world.plc.tcp.sockets + 1) :
    s.follow w = { world := w } := by
  unfold follow
  rw [if_neg (by omega)]

@[simp] theorem follow_world (s : Peered n) (w : World n) : (s.follow w).world = w := by
  unfold follow
  split <;> rfl

/-- The history of the client only grows. -/
private theorem starts_step {w w' : World n} {a : ControlLogix.Act} (h : World.step w a = some w') :
    starts w.log ≤ starts w'.log := by
  obtain ⟨es, hes, -⟩ := World.step_extends h
  rw [hes, World.starts_append]
  exact Nat.le_add_right _ _

/-- A step that may have read bytes from the socket. -/
private theorem Sourced.moved {s : Peered n} {w : World n} (h : Sourced s) (inp : List UInt8)
    (hsockets : w.plc.tcp.sockets = s.world.plc.tcp.sockets)
    (hrecvd : w.plc.tcp.sock.recvd = s.world.plc.tcp.sock.recvd ++ inp)
    (hinbox : s.world.plc.tcp.sock.inbox = inp ++ w.plc.tcp.sock.inbox) (hjoining : w.plc.Joining →
      s.world.plc.Joining)
    (hready : w.plc.state = .ready → s.world.plc.state = .ready ∨ s.world.plc.Joining)
    (hstarts : starts s.world.log ≤ starts w.log) : Sourced (s.follow w) := by
  rw [follow_same hsockets]
  refine ⟨?_, fun hj => h.joining (hjoining hj), fun hr => ?_, fun r hr => Nat.le_trans (h.numbered r hr) hstarts⟩
  · have hstream := h.stream
    rw [hinbox] at hstream
    rw [← hstream, hrecvd]
    simp only [List.append_assoc]
  · rcases hready hr with hr | hj
    · exact h.ready hr
    · exact (h.joining hj).2

/-- A step that reads nothing. -/
private theorem Sourced.still {s : Peered n} {w : World n} (h : Sourced s) (htcp : w.plc.tcp = s.world.plc.tcp)
    (hstate : w.plc.state = s.world.plc.state) (hstarts : starts s.world.log ≤ starts w.log) :
    Sourced (s.follow w) := by
  have hjoining : w.plc.Joining → s.world.plc.Joining := by
    unfold PlcClient.Joining
    rw [hstate]
    exact id
  exact h.moved [] (by rw [htcp]) (by rw [htcp, List.append_nil]) (by rw [htcp, List.nil_append]) hjoining
    (fun hr => Or.inl (hstate.symm.trans hr)) hstarts

private theorem sourced_client {s : Peered n} {w : World n} {a : ControlLogix.Act} (hl : Live s.world) (h : Sourced s)
    (ha : ∀ bs, a ≠ .deliver bs) (hs : World.step s.world a = some w) : Sourced (s.follow w) := by
  have hstarts := starts_step hs
  cases World.step_cases hl.staged hs with
  | delivered plc log => exact absurd rfl (ha _)
  | called hop called log =>
    rcases sameLink_called called with ⟨hop', -⟩ | ⟨-, hlink⟩
    · exact absurd hop' hop
    · exact h.still hlink.tcp hlink.state hstarts
  | relinked link closing same callbacks log =>
    cases link.rejoined with
    | dialled sockets sock state =>
      rw [follow_new sockets]
      refine ⟨?_, fun _ => ⟨rfl, rfl⟩, fun _ => rfl, fun r hr => absurd hr List.not_mem_nil⟩
      change w.plc.tcp.sock.recvd ++ (w.plc.tcp.sock.inbox ++ []) = _
      rw [sock]
      rfl
    | same inp sockets recvd inbox joining ready =>
      refine h.moved inp sockets recvd inbox joining (fun hr => ?_) hstarts
      rcases ready hr with e | ⟨e, -⟩
      · exact Or.inr (Or.inr e)
      · exact Or.inl e
  | @turned os f fs i st es polls slot inUse turned callbacks log =>
    obtain ⟨hstate, -, out, inp, htransfer⟩ := turned_link hl.coupled turned
    have hjoining : w.plc.Joining → s.world.plc.Joining := by
      unfold PlcClient.Joining
      rw [hstate]
      exact id
    exact h.moved inp htransfer.sockets htransfer.recvd htransfer.inbox hjoining
      (fun hr => Or.inl (hstate.symm.trans hr)) hstarts
  | skipped plc log => exact h.still (by rw [plc]) (by rw [plc]) hstarts

/-- The operation goes on, and reads into the buffer what it reads from the socket. -/
private theorem Reading.moved {i : Fin n} {s : Peered n} {w : World n} (h : Reading i s) (inp : List UInt8)
    (hin : (s.world.plc.slots i).tag.InFlight) (hready : s.world.plc.state = .ready)
    (hsockets : w.plc.tcp.sockets = s.world.plc.tcp.sockets) (hsock : startSock w.log = startSock s.world.log)
    (hstarts : starts w.log = starts s.world.log)
    (hrecvd : w.plc.tcp.sock.recvd = s.world.plc.tcp.sock.recvd ++ inp)
    (hrx : w.plc.msg.rx.take w.plc.msg.rxLen = s.world.plc.msg.rx.take s.world.plc.msg.rxLen ++ inp) :
    Reading i (s.follow w) := by
  rw [follow_same hsockets]
  intro _ _ hown
  change startSock w.log = some w.plc.tcp.sockets at hown
  rw [hsock, hsockets] at hown
  obtain ⟨hfew, j, hj, hread⟩ := h hin hready hown
  refine ⟨hstarts ▸ hfew, j, hj, ?_⟩
  change w.plc.tcp.sock.recvd = s.greeting ++ (s.bytes j ++ w.plc.msg.rx.take w.plc.msg.rxLen)
  rw [hrecvd, hread, hrx]
  simp only [List.append_assoc]

/-- An operation that has just begun. -/
private theorem reading_started {i : Fin n} {s : Peered n} {w : World n}
    (hsockets : w.plc.tcp = s.world.plc.tcp) (heven : s.Even) (hfew : starts w.log < 2 ^ 64)
    (hrxLen : w.plc.msg.rxLen = 0) : Reading i (s.follow w) := by
  rw [follow_same (by rw [hsockets])]
  intro _ _ _
  obtain ⟨j, hj, hread⟩ := heven
  refine ⟨hfew, j, hj, ?_⟩
  change w.plc.tcp.sock.recvd = s.greeting ++ (s.bytes j ++ w.plc.msg.rx.take w.plc.msg.rxLen)
  rw [hsockets, hread, hrxLen, List.take_zero, List.append_nil]

private theorem reading_client {i : Fin n} {s : Peered n} {w : World n} {a : ControlLogix.Act} (hl : Live s.world)
    (hc : World.Counted s.world) (h : Reading i s) (hok : InStep i s (.client a)) (ha : ∀ bs, a ≠ .deliver bs)
    (hs : World.step s.world a = some w) : Reading i (s.follow w) := by
  have hcoupled : Coupled w.plc := World.coupled_step hl.coupled hs
  by_cases hin : (w.plc.slots i).tag.InFlight
  swap
  · intro hin'
    rw [follow_world] at hin'
    exact absurd hin' hin
  by_cases hready : w.plc.state = .ready
  swap
  · intro _ hready'
    rw [follow_world] at hready'
    exact absurd hready' hready
  by_cases hown : startSock w.log = some w.plc.tcp.sockets
  swap
  · intro _ _ hown'
    rw [follow_world] at hown'
    exact absurd hown' hown
  cases World.step_cases hl.staged hs with
  | delivered plc log => exact absurd rfl (ha _)
  | @called op hop called log =>
    rcases sameLink_called called with ⟨hop', -⟩ | ⟨-, hlink⟩
    · exact absurd hop' hop
    · rcases World.called_message hop called with
        ⟨i', timeoutMs, now, tag, hes, -, hin', started⟩ | ⟨hes, -, hmsg⟩
      · -- only one slot is in flight, so it is this one that has been started
        obtain rfl := hcoupled.single i i' hin hin'
        obtain ⟨service, data, -, hsent⟩ := started.sent
        obtain ⟨heven, hfew⟩ := hok ⟨_, _, by rw [hes]; exact List.mem_singleton_self _⟩
        have hstarts : starts w.log = starts s.world.log + 1 := by
          rw [log, hes, World.starts_append]
          rfl
        exact reading_started hlink.tcp heven (by rw [hstarts]; exact hfew) hsent.rxLen
      · have hun : World.Unstarted s.world.log (World.callEvents s.world.plc op) := by
          refine World.unstarted _ fun e he j sock deadline hstart => ?_
          obtain ⟨j', hj'⟩ := hes e he
          rw [hj'] at hstart
          cases hstart
        have hold : (s.world.plc.slots i).tag.InFlight := by
          rcases World.called_inFlight called hin with hold | ⟨sock, deadline, hstart⟩
          · exact hold
          · obtain ⟨j', hj'⟩ := hes _ hstart
            cases hj'
        have hsame := hmsg (hcoupled.used i hin)
        refine h.moved [] hold (hlink.state.symm.trans hready) (by rw [hlink.tcp]) ?_ ?_ ?_ ?_
        · rw [log, hun.sock]
        · rw [log, hun.serial]
        · rw [hlink.tcp, List.append_nil]
        · rw [hsame, List.append_nil]
  | @relinked _ es link closing same callbacks log =>
    have hun : World.Unstarted s.world.log (World.registration s.world.plc w.plc ++ es) :=
      World.unstarted_link _ callbacks
    have hsock : startSock w.log = startSock s.world.log := by rw [log, List.append_assoc, hun.sock]
    have hstarts : starts w.log = starts s.world.log := by rw [log, List.append_assoc, hun.serial]
    rw [same.slots] at hin
    cases link.rejoined with
    | dialled sockets sock state =>
      rw [state] at hready
      cases hready
    | same inp sockets recvd inbox joining ready =>
      rcases ready hready with e | ⟨e, rfl⟩
      · -- an operation of this connection would have begun before it was `Ready`
        rw [hsock, sockets] at hown
        exact absurd (hc.early (Or.inr e) _ hown) (Nat.lt_irrefl _)
      · exact h.moved [] hin e sockets hsock hstarts recvd (by rw [same.msg, List.append_nil])
  | @turned os f fs j st es polls slot inUse turned callbacks log =>
    have hun : World.Unstarted s.world.log (World.iterEvents s.world.plc j st w.plc (starts s.world.log) ++ es) :=
      World.unstarted_turn _ _ callbacks
    have hsock : startSock w.log = startSock s.world.log := by rw [log, List.append_assoc, hun.sock]
    have hstarts : starts w.log = starts s.world.log := by rw [log, List.append_assoc, hun.serial]
    obtain ⟨hstate, -⟩ := turned_link hl.coupled turned
    have hold : (s.world.plc.slots i).tag.InFlight := by
      by_contra hrest
      exact hrest (World.turned_tag turned fun e => hrest (e ▸ hin)).2
    by_cases hj : (s.world.plc.slots j).tag.InFlight
    · obtain ⟨out, inp, htransfer, hbytes⟩ := World.turned_read hl.coupled hj turned
      exact h.moved inp hold (hstate.symm.trans hready) htransfer.sockets hsock hstarts htransfer.recvd hbytes
    · have hrest := turned_rest hj turned
      refine h.moved [] hold (hstate.symm.trans hready) (by rw [hrest.tcp]) hsock hstarts ?_ ?_
      · rw [hrest.tcp, List.append_nil]
      · rw [hrest.msg, List.append_nil]
  | skipped plc log =>
    refine h.moved [] (plc ▸ hin) (plc ▸ hready) (by rw [plc]) (by rw [log]) (by rw [log]) ?_ ?_
    · rw [plc, List.append_nil]
    · rw [plc, List.append_nil]

/-! ### Runs -/

theorem step_client {s s' : Peered n} {a : ControlLogix.Act} (h : step s (.client a) = some s') :
    (∀ bs, a ≠ .deliver bs) ∧ ∃ w, World.step s.world a = some w ∧ s' = s.follow w := by
  cases a with
  | deliver bs => cases h
  | _ =>
    obtain ⟨w, hw, rfl⟩ := Option.map_eq_some_iff.1 h
    exact ⟨by simp, w, hw, rfl⟩

/-- What every run preserves. -/
structure Sound (s : Peered n) : Prop where
  live : Live s.world
  watching : Watching s.world.plc s.world.log
  counted : World.Counted s.world
  sourced : Sourced s

theorem sound_initial {s : Peered n} (h : Initial s) : Sound s := by
  have hworld := h.world
  refine ⟨World.Reachable.live ⟨_, [], hworld, .nil _⟩, World.watching_initial hworld,
    World.counted_initial hworld, ?_⟩
  rw [h.silent]
  refine ⟨?_, fun _ => ⟨rfl, rfl⟩, fun _ => rfl, fun r hr => absurd hr List.not_mem_nil⟩
  change s.world.plc.tcp.sock.recvd ++ (s.world.plc.tcp.sock.inbox ++ []) = _
  rw [hworld.fresh.tcp]
  rfl

/-- The peer sends something, or some of it arrives. -/
private inductive Sends (s : Peered n) : Act → Peered n → Prop where
  | greeted {bs : List UInt8} (joining : s.world.plc.Joining) :
      Sends s (.say bs) { s with greeting := s.greeting ++ bs, wire := s.wire ++ bs }
  | left {bs : List UInt8} (out : ¬ s.world.plc.Joining) (past : s.world.plc.state ≠ .ready) :
      Sends s (.say bs) { s with farewell := s.farewell ++ bs, wire := s.wire ++ bs }
  | answered {r : Reply} (ready : s.world.plc.state = .ready) (known : r.exchange ≤ starts s.world.log) :
      Sends s (.answer r) { s with replies := s.replies ++ [r], wire := s.wire ++ r.frame }
  | delivered {k : Nat} {w : World n} (step : World.step s.world (.deliver (s.wire.take k)) = some w) :
      Sends s (.deliver k) { s with world := w, wire := s.wire.drop k }

private theorem step_sends {s s' : Peered n} {a : Act} (h : step s a = some s') :
    (∃ b, a = .client b) ∨ Sends s a s' := by
  cases a with
  | client b => exact Or.inl ⟨b, rfl⟩
  | say bs =>
    right
    have hout : ∀ {t : PlcClient.State}, s.world.plc.state = t → t ≠ .connecting → t ≠ .registering →
        ¬ s.world.plc.Joining := by
      rintro t e h1 h2 (e' | e')
      · exact h1 (e.symm.trans e')
      · exact h2 (e.symm.trans e')
    dsimp only [step] at h
    split at h
    · cases h
    · rename_i hs
      obtain rfl := Option.some.inj h
      exact .greeted (Or.inl hs)
    · rename_i hs
      obtain rfl := Option.some.inj h
      exact .greeted (Or.inr hs)
    · rename_i h1 h2 h3
      obtain rfl := Option.some.inj h
      exact .left (hout rfl h2 h3) h1
  | answer r =>
    right
    dsimp only [step] at h
    split at h
    · rename_i hr
      obtain rfl := Option.some.inj h
      exact .answered hr.1 hr.2.2.1
    · cases h
  | deliver k =>
    right
    dsimp only [step] at h
    obtain ⟨w, hw, rfl⟩ := Option.map_eq_some_iff.1 h
    exact .delivered hw

theorem sound_step {s s' : Peered n} {a : Act} (h : Sound s) (hs : step s a = some s') : Sound s' := by
  obtain ⟨hl, hwatch, hc, hsource⟩ := h
  have hstream := hsource.stream
  rcases step_sends hs with ⟨b, rfl⟩ | hsends
  · obtain ⟨hb, w, hw, rfl⟩ := step_client hs
    refine ⟨?_, ?_, ?_, sourced_client hl hsource hb hw⟩
    · rw [follow_world]
      exact World.live_step hl hw
    · rw [follow_world]
      exact World.watching_step hwatch hw
    · rw [follow_world]
      exact World.counted_step hl hc hw
  · cases hsends with
    | greeted joining =>
      obtain ⟨hnone, hover⟩ := hsource.joining joining
      refine ⟨hl, hwatch, hc, ?_, hsource.joining, hsource.ready, hsource.numbered⟩
      rw [hnone, hover] at hstream
      simp only [hnone, hover, List.map_nil, List.flatten_nil, List.append_nil] at hstream ⊢
      rw [← hstream]
      simp only [List.append_assoc]
    | left out past =>
      refine ⟨hl, hwatch, hc, ?_, fun hj => absurd hj out, fun hr => absurd hr past, hsource.numbered⟩
      change s.world.plc.tcp.sock.recvd ++ (s.world.plc.tcp.sock.inbox ++ (s.wire ++ _)) = _
      rw [← List.append_assoc, ← List.append_assoc, ← List.append_assoc, List.append_assoc _ _ s.wire, hstream]
      simp only [List.append_assoc]
    | @answered r ready known =>
      have hover := hsource.ready ready
      refine ⟨hl, hwatch, hc, ?_, fun hj => ?_, fun _ => hover, fun q hq => ?_⟩
      · change s.world.plc.tcp.sock.recvd ++ (s.world.plc.tcp.sock.inbox ++ (s.wire ++ r.frame)) =
          s.greeting ++ (((s.replies ++ [r]).map Reply.frame).flatten ++ s.farewell)
        rw [hover, List.append_nil] at hstream ⊢
        rw [List.map_append, List.flatten_append, ← List.append_assoc s.greeting, ← hstream]
        simp
      · rcases hj with e | e <;> rw [ready] at e <;> cases e
      · rcases List.mem_append.1 hq with hq | hq
        · exact hsource.numbered q hq
        · rw [List.mem_singleton.1 hq]
          exact known
    | @delivered k w step =>
      refine ⟨World.live_step hl step, World.watching_step hwatch step, World.counted_step hl hc step, ?_⟩
      obtain rfl := Option.some.inj step
      refine ⟨?_, hsource.joining, hsource.ready, hsource.numbered⟩
      change s.world.plc.tcp.sock.recvd ++ ((s.world.plc.tcp.sock.inbox ++ s.wire.take k) ++ s.wire.drop k) = _
      rw [List.append_assoc s.world.plc.tcp.sock.inbox, List.take_append_drop]
      exact hstream

theorem reading_step {i : Fin n} {s s' : Peered n} {a : Act} (h : Sound s) (hr : Reading i s) (hok : InStep i s a)
    (hs : step s a = some s') : Reading i s' := by
  rcases step_sends hs with ⟨b, rfl⟩ | hsends
  · obtain ⟨hb, w, hw, rfl⟩ := step_client hs
    exact reading_client h.live h.counted hr hok hb hw
  · cases hsends with
    | greeted joining =>
      intro _ hready
      rcases joining with e | e <;> rw [show s.world.plc.state = .ready from hready] at e <;> cases e
    | left out past => exact fun _ hready => absurd hready past
    | @answered r ready known =>
      intro hin hready hown
      obtain ⟨hfew, j, hj, hread⟩ := hr hin hready hown
      refine ⟨hfew, j, ?_, ?_⟩
      · rw [List.length_append]
        exact Nat.le_add_right_of_le hj
      · have hbytes : bytes { s with replies := s.replies ++ [r], wire := s.wire ++ r.frame } j = s.bytes j := by
          unfold bytes
          rw [List.take_append_of_le_length hj]
        rw [hbytes]
        exact hread
    | @delivered k w step =>
      obtain rfl := Option.some.inj step
      exact hr

/-! ### The end of an operation -/

/-- A result of slot `i` is that of the reply to the operation started last. -/
theorem completes {i : Fin n} {u u' : Peered n} {os : Platform} (h : Sound u) (hr : Reading i u)
    (hok : InStep i u (.client (.iter os))) (hs : step u (.client (.iter os)) = some u')
    (hne : (u'.world.plc.slots i).tag ≠ (u.world.plc.slots i).tag) (hd : (u'.world.plc.slots i).tag.state = .done) :
    ∃ r ∈ u.replies, r.exchange = starts u.world.log ∧ r.context = u.world.plc.msg.sentContext ∧
      Station.Completed (u.world.plc.slots i).tag r (u'.world.plc.slots i).tag := by
  obtain ⟨hl, -, hc, hsource⟩ := h
  obtain ⟨-, w, hw, rfl⟩ := step_client hs
  rw [follow_world] at hne hd ⊢
  obtain ⟨f, fs, hf, hpolls, hiter⟩ := World.step_iterated hw
  cases hiter with
  | skipped => exact absurd rfl hne
  | turned st p inUse turned =>
    obtain ⟨rfl, hin⟩ := World.turned_tag turned hne
    cases turned with
    | rest hrest => exact absurd hin hrest
    | @inFlight mst st tag msg tcp _ polled advanced =>
      have hself := PlcClient.setSlot_self ({ u.world.plc with msg := msg, tcp := tcp } : PlcClient n) ⟨f.next, hf⟩
        { u.world.plc.slots ⟨f.next, hf⟩ with tag := tag, prevStatus := st }
      dsimp only at hd hne ⊢
      rw [hself] at hd ⊢
      have hm := hl.coupled.used _ hin
      obtain rfl := World.advanced_done advanced hin hd
      -- the message has not ended otherwise: the connection is usable and the deadline has not passed
      have hu : u.world.plc.tcp.Usable := by
        by_contra hu
        obtain ⟨-, hst⟩ := ExplicitMessage.poll_unusable hm (hl.unread hm) hu polled
        split at hst <;> cases hst
      have hnow : expired (os.millis 0) u.world.plc.msg.deadline = false := by
        by_contra hlate
        rw [ExplicitMessage.poll_expired hm _ (by simpa using hlate)] at polled
        cases (Prod.mk.inj polled).1
      obtain ⟨hready, hown⟩ := hok (World.advancing_inFlight hpolls rfl inUse hin) hu hnow
      obtain ⟨hfew, j, hj, hread⟩ := hr hin hready hown
      obtain ⟨inp, hp⟩ := ExplicitMessage.poll_spec hm (hl.coupled.framed hm) polled
      have hmv := hp.moved
      obtain ⟨hfull, hsent, res, hparse, hres⟩ := hp.parsed rfl
      have hframed := hp.framed (Or.inr rfl)
      have h24 : 24 ≤ msg.rxLen := by
        by_contra hlt
        have h1 := hframed.head (by omega)
        omega
      have hlen : msg.rxLen = 24 + bodyLength msg.rx := by
        rw [← (hframed.body h24).1]
        exact hfull
      -- behind the greeting, what has been read is some replies and the frame in the buffer
      have hbehind : (u.bytes j ++ msg.rx.take msg.rxLen) ++ (tcp.sock.inbox ++ u.wire) =
          (u.replies.map Reply.frame).flatten := by
        have hstream := hsource.stream
        rw [hsource.ready hready, List.append_nil, hread, hmv.transfer.inbox] at hstream
        refine (List.append_right_inj u.greeting).1 ?_
        rw [← hstream, hmv.bytes]
        simp only [List.append_assoc]
      obtain ⟨r, rs, hdrop, hframe⟩ := Dialogue.next_reply hbehind rfl hmv.fits hlen
      have hmem : r ∈ u.replies := by
        refine List.mem_of_mem_drop (i := j) ?_
        rw [hdrop]
        exact List.mem_cons_self
      have hcontext : r.context = msg.sentContext := by
        have hecho := ExplicitMessage.parse_context hparse
        have hsplit : msg.rx = r.frame ++ msg.rx.drop msg.rxLen := by
          rw [← hframe, List.take_append_drop]
        rw [← hecho, hsplit, Reply.decode_frame]
        rfl
      have hnumber : r.exchange = starts u.world.log := by
        have hsame := hcontext
        rw [hp.contexts.2, hc.sent hm, Reply.context] at hsame
        have hn := congrArg UInt64.toNat hsame
        have hle := hsource.numbered r hmem
        simp only [UInt64.toNat_ofNat'] at hn
        omega
      have hended : ExplicitMessage.Ended .ok msg :=
        ⟨by rw [hmv.tx.2]; exact hsent, hlen, Or.inr ⟨rfl, res, hparse, hres⟩⟩
      exact ⟨r, hmem, hnumber, hcontext.trans hp.contexts.2,
        (Station.completed_of_ended hended hframe hmv.fits hcontext advanced hin).2⟩

/-! ### What a new tag finds in its slot -/

/-- A tag as its constructor leaves it. -/
private theorem constructed {w : World n} (h : World.Initial w) (i : Fin n) :
    (w.plc.slots i).tag = { data := (w.plc.slots i).tag.data } := by
  have hslot := congrArg Slot.tag (h.fresh.slots i)
  exact hslot

/-- A client whose memory was zero, and a peer that has sent nothing. -/
def fresh (n : Nat) : Peered n := { world := World.fresh n }

theorem initial_fresh (n : Nat) : Initial (fresh n) := ⟨World.fresh_initial n, rfl⟩

/-- The client comes up, with session 7. -/
def comeUp : List Act :=
  [.client (.call (.begin true true)), .client (.call (.connect 1 44818 5000 {})), .client (.poll {}),
    .client (.poll {}),
   .say (World.registerReply 7), .deliver 28, .client (.poll (World.generous 0))]

/-- A call of `poll()` in `Ready`. -/
def wholePoll (os : Platform) : List Act := (World.wholePoll 8 os).map .client

/-- The tag `A` is created in slot 0, and its read is sent. -/
def asked : List Act :=
  comeUp ++ [.client (.call (.createTag (some [65]) 1)), .client (.call (.read 0 1000 10))] ++ wholePoll
  (World.generous 20)

/-- The tag `B` is created. -/
def createB : ControlLogix.Act := .call (.createTag (some [66]) 1)

/-- The read is aborted and the tag destroyed before the reply has come. -/
def aborted : List Act := asked ++ [.client (.call (.abortTag 0)), .client (.call (.destroyTag 0))]

/-- A reply to the second operation. -/
def forged : Reply := { exchange := 2, service := 0xCC, data := [0xC4, 0, 3, 0, 0, 0], fits := by decide }

/-- The reply to the first one, in which the value of the tag `A` is the frame of the other. -/
def carrier : Reply := { exchange := 1, service := 0xCC, data := forged.frame, fits := by decide }

/-- The socket layer hands out 44 bytes. -/
def partly : Platform := { millis := fun _ => 30, recvs := [.data 23, .data 19] }

/-- The read is aborted and the tag destroyed when 44 bytes of the reply have been read. -/
def givenUp : List Act :=
  asked ++ [.answer carrier, .deliver 94] ++ wholePoll partly ++
    [.client (.call (.abortTag 0)), .client (.call (.destroyTag 0))]

def readB : ControlLogix.Act := .call (.read 0 1000 40)

/-- The tag `B` is created and its read begun. -/
def begun : Peered 8 :=
  after step (after step (after step (after step (fresh 8) givenUp) [.client createB]) [.client readB])
    [.client (.poll (World.generous 40))]

end Peered

end ControlLogix
