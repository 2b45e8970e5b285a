import ControlLogix.Matching
import ControlLogix.Requests
import ControlLogix.Uplink

/-!
# Operations after an abandoned one

A `Station` is the tags of a client with the message they share, and a server that answers every request it has got
completely, in order and with a whole reply.  The TCP connection stays up.

* `Recovers`: an operation in flight whose reply has been delivered ends with the outcome of that reply, when it is
  polled often enough before its deadline;
* `recovers`: it does in every run in which each operation begins with no earlier reply outstanding (`Quiet`);
* `misled`: an operation that follows one that timed out ends with the late reply to that one.
-/

namespace ControlLogix

open Transition Bytes
open Buffers (Framed Moved bodyLength)
open ExplicitMessage (kMaxCipData)

structure Station (n : Nat) extends Dialogue where
  tags : Fin n → Tag
  /-- The exchanges whose requests are out and not answered yet, in order. -/
  asked : List Nat := []

namespace Station

inductive Act (n : Nat) where
  | read (i : Fin n) (sessionHandle : UInt32) (name : Option (List UInt8)) (elementCount timeoutMs now : UInt32)
  | write (i : Fin n) (sessionHandle : UInt32) (name : Option (List UInt8)) (elementCount timeoutMs now : UInt32)
  | edit (i : Fin n) (e : PlcClient.Edit)
  | poll (i : Fin n) (os : Platform)
  | abort (i : Fin n)
  | answer (r : Reply)
  | deliver (k : Nat)

variable {n : Nat}

/-- The station after `Tag::read()` or `Tag::write()` of tag `i`. -/
def started (s : Station n) (i : Fin n) (result : Status × Tag × ExplicitMessage) : Station n :=
  { s with tags := Function.update s.tags i result.2.1, msg := result.2.2,
           serial := if result.1 = .pending then s.serial + 1 else s.serial }

def step (s : Station n) : Act n → Option (Station n)
  | .read i sessionHandle name elementCount timeoutMs now =>
    some (s.started i ((s.tags i).read s.msg s.conn sessionHandle name elementCount timeoutMs now))
  | .write i sessionHandle name elementCount timeoutMs now =>
    some (s.started i ((s.tags i).write s.msg s.conn sessionHandle name elementCount timeoutMs now))
  | .edit i e => some { s with tags := Function.update s.tags i (e.apply (s.tags i)) }
  | .poll i os =>
    let (_, tag, msg, conn) := (s.tags i).poll s.msg s.conn os
    some { s with tags := Function.update s.tags i tag, msg := msg, conn := conn,
                  asked := if s.msg.txSent < s.msg.txLen ∧ msg.txLen ≤ msg.txSent then s.asked ++ [s.serial]
                    else s.asked }
  | .abort i =>
    let (tag, msg) := (s.tags i).abort s.msg
    some { s with tags := Function.update s.tags i tag, msg := msg }
  | .answer r =>
    match s.asked with
    | [] => none
    | e :: es =>
      if r.exchange = e then some { s with replies := s.replies ++ [r], wire := s.wire ++ r.frame, asked := es }
      else none
  | .deliver k => some { s with conn := s.conn.deliver (s.wire.take k), wire := s.wire.drop k }

structure Initial (s : Station n) : Prop where
  dialogue : s.toDialogue.Initial
  rest : ∀ i, ¬ (s.tags i).InFlight
  asked : s.asked = []

/-- The connection stays up, and an operation is given up or runs out of time only when its request is out. -/
def Fair (s : Station n) : Act n → Prop
  | .poll i os => os.Up ∧
      ((s.tags i).InFlight → expired (os.millis 0) s.msg.deadline = true → s.msg.txLen ≤ s.msg.txSent)
  | .abort i => (s.tags i).InFlight → s.msg.txLen ≤ s.msg.txSent
  | _ => True

/-- No reply is outstanding, and everything that came has been read. -/
def Settled (s : Station n) : Prop := s.asked = [] ∧ s.conn.sock.inbox = [] ∧ s.wire = []

/-- An operation begins with no earlier reply outstanding, and its reply fits into the receive buffer. -/
def Quiet (s : Station n) : Act n → Prop
  | .read i sessionHandle name elementCount timeoutMs now =>
    ((s.tags i).read s.msg s.conn sessionHandle name elementCount timeoutMs now).1 = .pending → s.Settled
  | .write i sessionHandle name elementCount timeoutMs now =>
    ((s.tags i).write s.msg s.conn sessionHandle name elementCount timeoutMs now).1 = .pending → s.Settled
  | .answer r => s.msg.InFlight → r.exchange = s.serial → 20 + r.data.length ≤ 16 + kMaxCipData
  | _ => True

instance (s : Station n) : (a : Act n) → Decidable (Fair s a)
  | .poll .. => inferInstanceAs (Decidable (_ ∧ (_ → _ → _)))
  | .abort _ => inferInstanceAs (Decidable (_ → _))
  | .read .. | .write .. | .edit .. | .answer _ | .deliver _ => .isTrue trivial

instance (s : Station n) : Decidable s.Settled := inferInstanceAs (Decidable (_ ∧ _))

instance (s : Station n) : (a : Act n) → Decidable (Quiet s a)
  | .read .. => inferInstanceAs (Decidable (_ → _))
  | .write .. => inferInstanceAs (Decidable (_ → _))
  | .answer _ => inferInstanceAs (Decidable (_ → _ → _))
  | .edit .. | .poll .. | .abort _ | .deliver _ => .isTrue trivial

/-- What is done meanwhile leaves tag `i` alone, except that it is polled before `deadline`. -/
def Attends (i : Fin n) (deadline : UInt32) : Act n → Prop
  | .read j _ _ _ _ _ | .write j _ _ _ _ _ | .edit j _ | .abort j => j ≠ i
  | .poll j os => j = i → expired (os.millis 0) deadline = false
  | _ => True

instance (i : Fin n) (deadline : UInt32) : (a : Act n) → Decidable (Attends i deadline a)
  | .read .. => inferInstanceAs (Decidable (_ ≠ _))
  | .write .. => inferInstanceAs (Decidable (_ ≠ _))
  | .edit .. => inferInstanceAs (Decidable (_ ≠ _))
  | .abort _ => inferInstanceAs (Decidable (_ ≠ _))
  | .poll .. => inferInstanceAs (Decidable (_ → _))
  | .answer _ | .deliver _ => .isTrue trivial

/-- A call of `poll()` on tag `i` to which the socket layer hands out bytes when there are any. -/
def serves (i : Fin n) : Act n → Bool
  | .poll j os =>
    match os.recvs with
    | .data _ :: _ => j = i
    | _ => false
  | _ => false

/-- `t'` is the tag `t` whose operation ended with the outcome of the reply `r`. -/
structure Completed (t : Tag) (r : Reply) (t' : Tag) : Prop where
  status : t'.status = if r.encapStatus = 0 ∧ r.status = 0 then .ok else .error
  resultCode : r.encapStatus = 0 → t'.resultCode = r.status
  value : r.encapStatus = 0 → r.status = 0 → t.state = .reading → 2 ≤ r.data.length →
    t'.dataType = (getU16 r.data).toUInt8 ∧ t'.dataLen = min (r.data.length - 2) kMaxDataSize ∧
      t'.data.bytes.take t'.dataLen = (r.data.drop 2).take t'.dataLen

/-- An operation in flight whose own reply has been delivered ends with the outcome of that reply once it has been
polled as often as the reply has bytes. -/
def Recovers (s : Station n) : Prop :=
  ∀ i r as u, (s.tags i).InFlight → r ∈ s.replies → r.exchange = s.serial → s.wire = [] → Run step Fair s as u →
    (∀ a ∈ as, Attends i s.msg.deadline a) → r.frame.length ≤ as.countP (serves i) →
      Completed (s.tags i) r (u.tags i)

/-! ### The invariant -/

/-- What has come on the connection and is not read past. -/
def unread (s : Station n) : List UInt8 := s.msg.rx.take s.msg.rxLen ++ (s.conn.sock.inbox ++ s.wire)

/-- How far the exchange in flight has come. -/
inductive Phase (s : Station n) : Prop where
  | unsent (tx : s.msg.txSent < s.msg.txLen) (asked : s.asked = []) (old : ∀ q ∈ s.replies, q.exchange < s.serial)
      (unread : s.unread = [])
  | asked (tx : s.msg.txLen ≤ s.msg.txSent) (asked : s.asked = [s.serial])
      (old : ∀ q ∈ s.replies, q.exchange < s.serial) (unread : s.unread = [])
  | answered (r : Reply) (tx : s.msg.txLen ≤ s.msg.txSent) (asked : s.asked = []) (reply : r ∈ s.replies)
      (own : r.exchange = s.serial) (only : ∀ q ∈ s.replies, q.exchange = s.serial → q = r)
      (fits : 20 + r.data.length ≤ 16 + kMaxCipData) (unread : s.unread = r.frame)

structure Going (s : Station n) : Prop where
  framed : Framed (16 + kMaxCipData) s.msg.toBuffers
  more : s.msg.rxLen < s.msg.rxExpected
  loaded : s.msg.Loaded
  sent : s.msg.sentContext = UInt64.ofNat s.serial
  phase : Phase s

structure Attended (s : Station n) : Prop where
  one : ∀ i j, (s.tags i).InFlight → (s.tags j).InFlight → i = j
  used : ∀ i, (s.tags i).InFlight → s.msg.InFlight
  usable : s.conn.Usable
  known : ∀ e ∈ s.asked, e ≤ s.serial
  numbered : ∀ r ∈ s.replies, r.exchange ≤ s.serial
  context : s.msg.context = UInt64.ofNat (s.serial + 1)
  going : s.msg.InFlight → Going s

/-! ### One call of `poll()` -/

/-- An exchange that has read the whole of its reply gives the tag the outcome of that reply. -/
theorem completed_of_ended {t t' : Tag} {m : ExplicitMessage} {mst st : Status} {r : Reply}
    (hended : ExplicitMessage.Ended mst m) (hrx : m.rx.take m.rxLen = r.frame) (hfits : m.rxLen ≤ m.rx.length)
    (hcontext : r.context = m.sentContext) (hadvanced : Tag.Advanced t mst m st t') (hin : t.InFlight) :
    ¬ t'.InFlight ∧ Completed t r t' := by
  have hlen : m.rxLen = 44 + r.data.length := by
    have h := congrArg List.length hrx
    rw [List.length_take, Reply.length_frame] at h
    omega
  have hsplit : m.rx = r.frame ++ m.rx.drop m.rxLen := by
    rw [← hrx, List.take_append_drop]
  have hparse : ExplicitMessage.parse m.rx m.rxLen m.sentContext =
      if r.encapStatus = 0 ∧ r.context = m.sentContext then some r.response else none := by
    rw [hsplit, hlen, Reply.parse_frame]
  have hdata := Reply.data_frame r (m.rx.drop m.rxLen)
  rw [← hsplit] at hdata
  have hrest := hadvanced.inFlight_iff hin
  rcases hended.outcome with ⟨rfl, hnone⟩ | ⟨rfl, res, hsome, hm⟩
  · have hstatus : r.encapStatus ≠ 0 := by
      intro h0
      rw [if_pos ⟨h0, hcontext⟩, hnone] at hparse
      cases hparse
    cases hadvanced with
    | pending h => cases h
    | refused h => cases h
    | done h => cases h
    | broke h =>
      refine ⟨fun hin' => absurd (hrest.1 hin') (by simp), ?_, fun h0 => absurd h0 hstatus, fun h0 =>
        absurd h0 hstatus⟩
      rw [if_neg fun h0 => hstatus h0.1]
      rfl
  · have hstatus : r.encapStatus = 0 := by
      by_contra h0
      rw [if_neg fun h => h0 h.1, hsome] at hparse
      cases hparse
    rw [if_pos ⟨hstatus, hcontext⟩, hsome] at hparse
    obtain rfl := Option.some.inj hparse
    have hcode : m.resultCode = r.status := by
      rw [hm]
      rfl
    have hcount : m.dataLen = r.data.length := by
      rw [hm]
      rfl
    have hvalue : m.data = r.data := by
      rw [hm]
      exact hdata
    cases hadvanced with
    | pending h => cases h
    | broke h => exact absurd rfl h.2
    | refused h hc =>
      have hne : r.status ≠ 0 := hcode ▸ hc
      refine ⟨fun hin' => absurd (hrest.1 hin') (by simp), ?_, fun _ => hcode, fun _ h0 => absurd h0 hne⟩
      rw [if_neg fun h0 => hne h0.2]
      rfl
    | done h hc =>
      have hzero : r.status = 0 := hcode ▸ hc
      refine ⟨fun hin' => absurd (hrest.1 hin') (by simp), ?_, fun _ => ?_, fun _ _ hr h2 => ?_⟩
      · rw [if_pos ⟨hstatus, hzero⟩, Tag.status, Tag.accept_state]
      · unfold Tag.accept
        split <;> exact hcode
      · exact Tag.accept_value (t := { t with resultCode := m.resultCode }) hr hvalue hcount h2

/-- What a call of `poll()` in time does to the tag in flight and the message. -/
inductive Turned (s : Station n) (i : Fin n) (tag : Tag) (msg : ExplicitMessage) : Prop where
  | waits (same : tag = s.tags i) (inFlight : msg.InFlight) (framed : Framed (16 + kMaxCipData) msg.toBuffers)
      (more : msg.rxLen < msg.rxExpected)
  | ends (r : Reply) (reply : r ∈ s.replies) (own : r.exchange = s.serial) (rest : ¬ tag.InFlight)
      (free : ¬ msg.InFlight) (completed : Completed (s.tags i) r tag)

section Poll

variable {s : Station n} {i : Fin n} {os : Platform} {st : Status} {tag : Tag} {msg : ExplicitMessage}
  {conn : TcpConnection}

private theorem unread_moved {inp : List UInt8} (hmv : Moved s.msg.toBuffers s.conn msg.toBuffers conn inp) :
    msg.rx.take msg.rxLen ++ (conn.sock.inbox ++ s.wire) = s.unread := by
  rw [unread, hmv.bytes, hmv.transfer.inbox]
  simp only [List.append_assoc]

/-- The header of a reply that waits at the socket announces no more than fits. -/
private theorem phase_fits (h : Phase s) :
    24 ≤ (stream s.msg.toBuffers s.conn).length →
      bodyLength (stream s.msg.toBuffers s.conn) ≤ 16 + kMaxCipData := by
  intro h24
  have hunread : stream s.msg.toBuffers s.conn ++ s.wire = s.unread := by
    rw [stream, unread, List.append_assoc]
  cases h with
  | unsent tx asked old nothing =>
    rw [nothing, List.append_eq_nil_iff] at hunread
    rw [hunread.1] at h24
    exact absurd h24 (by simp)
  | asked tx asked old nothing =>
    rw [nothing, List.append_eq_nil_iff] at hunread
    rw [hunread.1] at h24
    exact absurd h24 (by simp)
  | answered r tx asked reply own only fits whole =>
    have hbody := Reply.bodyLength_frame r []
    rw [List.append_nil, ← whole, ← hunread, Reply.bodyLength_starts h24] at hbody
    omega

/-- A message that has read a whole frame has read the reply to its own exchange. -/
private theorem phase_whole (h : Phase s) (hunread : msg.rx.take msg.rxLen ++ (conn.sock.inbox ++ s.wire) = s.unread)
    (hfits : msg.rxLen ≤ msg.rx.length) (hwhole : msg.rxLen = 24 + bodyLength msg.rx) :
    ∃ r ∈ s.replies, r.exchange = s.serial ∧ msg.rx.take msg.rxLen = r.frame := by
  have hlen : (msg.rx.take msg.rxLen).length = msg.rxLen := by rw [List.length_take, Nat.min_eq_left hfits]
  have hsome : s.unread ≠ [] := by
    intro hnil
    rw [hnil, List.append_eq_nil_iff] at hunread
    rw [hunread.1, List.length_nil] at hlen
    omega
  cases h with
  | unsent tx asked old nothing => exact absurd nothing hsome
  | asked tx asked old nothing => exact absurd nothing hsome
  | answered r tx asked reply own only fits whole =>
    refine ⟨r, reply, own, ?_⟩
    have hone : msg.rx.take msg.rxLen ++ (conn.sock.inbox ++ s.wire) = ([r].map Reply.frame).flatten := by
      rw [hunread, whole]
      simp
    have hbody : bodyLength (msg.rx.take msg.rxLen) = bodyLength msg.rx := by
      apply Buffers.bodyLength_congr
      rw [List.take_take, Nat.min_eq_left (by omega)]
    obtain ⟨r', rs, hcons, hframe⟩ := Reply.whole_frame hone (by omega) (by rw [hlen, hbody, ← hwhole])
    obtain ⟨rfl, -⟩ := List.cons.inj hcons
    exact hframe

theorem turned_of_poll (ha : Attended s) (hin : (s.tags i).InFlight) (hup : os.Up)
    (hnow : expired (os.millis 0) s.msg.deadline = false)
    (hp : (s.tags i).poll s.msg s.conn os = (st, tag, msg, conn)) : conn.Usable ∧ Turned s i tag msg := by
  obtain ⟨mst, hm, hadvanced⟩ := Tag.poll_inFlight hin hp
  have hmsg := ha.used i hin
  have hg := ha.going hmsg
  obtain ⟨inp, hpolled⟩ := ExplicitMessage.poll_spec hmsg hg.framed hm
  obtain ⟨hu, ⟨rfl, hmore⟩ | hended⟩ :=
    ExplicitMessage.poll_up hmsg hg.framed (Nat.le_of_eq hg.loaded.len) ha.usable hup
      (phase_fits hg.phase) hnow hg.more hm
  · refine ⟨hu, ?_⟩
    have hmsg' : msg.InFlight := by
      rcases hpolled.outcome with ⟨-, h⟩ | ⟨h, -⟩ | ⟨h, -⟩
      · exact h
      · cases h
      · rcases h with h | h | h | h <;> cases h
    cases hadvanced with
    | pending h => exact .waits rfl hmsg' (hpolled.framed (Or.inl rfl)) hmore
    | broke h => exact absurd rfl h.1
    | refused h => cases h
    | done h => cases h
  · refine ⟨hu, ?_⟩
    obtain ⟨r, hr, hown, hframe⟩ := phase_whole hg.phase (unread_moved hpolled.moved) hpolled.moved.fits hended.whole
    have hcontext : r.context = msg.sentContext := by
      rw [hpolled.contexts.2, hg.sent, Reply.context, hown]
    obtain ⟨hrest, hcompleted⟩ := completed_of_ended hended hframe hpolled.moved.fits hcontext hadvanced hin
    have hmsg' : ¬ msg.InFlight := by
      have hstate : msg.state = .done ∨ msg.state = .failed := by
        rcases hpolled.outcome with ⟨h, -⟩ | ⟨-, h⟩ | ⟨-, h⟩
        · rcases hended.outcome with ⟨h', -⟩ | ⟨h', -⟩
          · rw [h] at h'
            cases h'
          · rw [h] at h'
            cases h'
        · exact Or.inl h
        · exact Or.inr h
      rintro (h | h) <;> rcases hstate with h' | h' <;> rw [h] at h' <;> cases h'
    exact .ends r hr hown hrest hmsg' hcompleted

end Poll

/-! ### The steps -/

section Step

variable {s s' : Station n} {i : Fin n}

private theorem inFlight_update {tags : Fin n → Tag} {t : Tag} (h : t.InFlight ↔ (tags i).InFlight) (j : Fin n) :
    (Function.update tags i t j).InFlight ↔ (tags j).InFlight := by
  by_cases hj : j = i
  · subst hj
    rw [Function.update_self]
    exact h
  · rw [Function.update_of_ne hj]

private theorem rest_update {tags : Fin n → Tag} {t : Tag} (h : ¬ t.InFlight) {j : Fin n}
    (hj : (Function.update tags i t j).InFlight) : (tags j).InFlight ∧ j ≠ i := by
  by_cases hji : j = i
  · subst hji
    rw [Function.update_self] at hj
    exact absurd hj h
  · rw [Function.update_of_ne hji] at hj
    exact ⟨hj, hji⟩

/-- What has come is the same when more of it is at the socket, and the tags do not matter. -/
private theorem going_same (h : Going s) (hmsg : s'.msg = s.msg) (hserial : s'.serial = s.serial)
    (hasked : s'.asked = s.asked) (hreplies : s'.replies = s.replies) (hunread : s'.unread = s.unread) :
    Going s' := by
  refine ⟨hmsg ▸ h.framed, hmsg ▸ h.more, hmsg ▸ h.loaded, hmsg ▸ hserial ▸ h.sent, ?_⟩
  cases h.phase with
  | unsent tx asked old nothing =>
    exact .unsent (hmsg ▸ tx) (hasked.trans asked) (by rw [hreplies, hserial]; exact old) (hunread.trans nothing)
  | asked tx asked old nothing =>
    exact .asked (hmsg ▸ tx) (by rw [hasked, hserial]; exact asked) (by rw [hreplies, hserial]; exact old)
      (hunread.trans nothing)
  | answered r tx asked reply own only fits whole =>
    exact .answered r (hmsg ▸ tx) (hasked.trans asked) (hreplies ▸ reply) (own.trans hserial.symm)
      (by rw [hreplies, hserial]; exact only) fits (hunread.trans whole)

/-- An operation that was not accepted changes nothing. -/
private theorem started_refused {st : Status} (h : st ≠ .pending) : s.started i (st, s.tags i, s.msg) = s := by
  unfold started
  rw [if_neg h, Function.update_eq_self]

/-- An operation that begins with nothing outstanding is the only one, and nothing of its reply is there. -/
private theorem attended_started (ha : Attended s) {sessionHandle timeoutMs now : UInt32} {name : List UInt8}
    {t : Tag} {msg : ExplicitMessage} (hq : s.Settled)
    (hs : Tag.Started (s.tags i) s.msg s.conn sessionHandle name timeoutMs now t msg) :
    Attended (s.started i (.pending, t, msg)) := by
  obtain ⟨hloaded, htx, -⟩ := started_loaded hs
  obtain ⟨service, data, -, hsent⟩ := hs.sent
  obtain ⟨hasked, hinbox, hwire⟩ := hq
  have honly : ∀ j, (Function.update s.tags i t j).InFlight → j = i := by
    intro j hj
    by_contra hji
    rw [Function.update_of_ne hji] at hj
    exact hsent.free (ha.used j hj)
  have hold : ∀ q ∈ s.replies, q.exchange < s.serial + 1 := fun q hq => Nat.lt_succ_of_le (ha.numbered q hq)
  refine ⟨fun j k hj hk => (honly j hj).trans (honly k hk).symm, fun _ _ => Or.inl hsent.state, ha.usable, ?_,
    fun q hq => Nat.le_of_lt (hold q hq), ?_, fun _ => ⟨hsent.framed, ?_, hloaded, ?_, ?_⟩⟩
  · intro e he
    exact Nat.le_succ_of_le (ha.known e he)
  · change msg.context = UInt64.ofNat (s.serial + 1 + 1)
    rw [hsent.context, ha.context]
    apply UInt64.toNat_inj.1
    simp
  · change msg.rxLen < msg.rxExpected
    rw [hsent.rxLen, hsent.rxExpected]
    omega
  · change msg.sentContext = UInt64.ofNat (s.serial + 1)
    rw [hsent.sentContext, ha.context]
  · refine .unsent ?_ hasked hold ?_
    · change msg.txSent < msg.txLen
      rw [htx, hsent.txLen, kEncapsulationHeaderSize]
      omega
    · change msg.rx.take msg.rxLen ++ (s.conn.sock.inbox ++ s.wire) = []
      rw [hsent.rxLen, hinbox, hwire]
      rfl

/-- An operation that ended leaves every tag and the message at rest. -/
private theorem attended_free (ha : Attended s) (hin : (s.tags i).InFlight) {t : Tag} (ht : ¬ t.InFlight)
    {msg : ExplicitMessage} (hm : ¬ msg.InFlight) (hcontext : msg.context = s.msg.context) {conn : TcpConnection}
    (hu : conn.Usable) {asked : List Nat} (hknown : ∀ e ∈ asked, e ≤ s.serial) :
    Attended { s with tags := Function.update s.tags i t, msg := msg, conn := conn, asked := asked } := by
  have hnone : ∀ j, ¬ (Function.update s.tags i t j).InFlight := by
    intro j hj
    obtain ⟨hj', hne⟩ := rest_update ht hj
    exact hne (ha.one j i hj' hin)
  exact ⟨fun j _ hj => absurd hj (hnone j), fun j hj => absurd hj (hnone j), hu, hknown, ha.numbered,
    hcontext.trans ha.context, fun h => absurd h hm⟩

/-- The numbers of the requests that are out after one more is, or not. -/
private theorem known_asked (ha : Attended s) {c : Prop} [Decidable c] :
    ∀ e ∈ (if c then s.asked ++ [s.serial] else s.asked), e ≤ s.serial := by
  intro e he
  split at he
  · rcases List.mem_append.1 he with he | he
    · exact ha.known e he
    · exact Nat.le_of_eq (List.mem_singleton.1 he)
  · exact ha.known e he

private theorem attended_waits (ha : Attended s) (hg : Going s) {msg : ExplicitMessage} {conn : TcpConnection}
    {inp : List UInt8} (hu : conn.Usable) (hmv : Moved s.msg.toBuffers s.conn msg.toBuffers conn inp)
    (hcontexts : msg.context = s.msg.context ∧ msg.sentContext = s.msg.sentContext) (hin : msg.InFlight)
    (hf : Framed (16 + kMaxCipData) msg.toBuffers) (hmore : msg.rxLen < msg.rxExpected) :
    Attended { s with msg := msg, conn := conn,
                      asked := if s.msg.txSent < s.msg.txLen ∧ msg.txLen ≤ msg.txSent then s.asked ++ [s.serial]
                        else s.asked } := by
  obtain ⟨htx, hlen⟩ := hmv.tx
  have hmono := hmv.mono
  have hbound := hmv.bound
  have hsent := hg.loaded.sent
  have hunread := unread_moved hmv
  have hloaded : msg.Loaded := ⟨htx ▸ hg.loaded.request, by rw [hlen, htx]; exact hg.loaded.len, by omega⟩
  refine ⟨ha.one, fun _ _ => hin, hu, known_asked ha, ha.numbered, hcontexts.1.trans ha.context,
    fun _ => ⟨hf, hmore, hloaded, hcontexts.2.trans hg.sent, ?_⟩⟩
  cases hg.phase with
  | unsent tx asked old nothing =>
    by_cases hout : msg.txLen ≤ msg.txSent
    · refine .asked hout ?_ old (hunread.trans nothing)
      change (if _ then s.asked ++ [s.serial] else s.asked) = [s.serial]
      rw [if_pos ⟨tx, hout⟩, asked, List.nil_append]
    · refine .unsent (Nat.lt_of_not_le hout) ?_ old (hunread.trans nothing)
      change (if _ then s.asked ++ [s.serial] else s.asked) = []
      rw [if_neg fun h => hout h.2, asked]
  | asked tx asked old nothing =>
    refine .asked (by simp only; omega) ?_ old (hunread.trans nothing)
    change (if _ then s.asked ++ [s.serial] else s.asked) = [s.serial]
    rw [if_neg fun h => Nat.not_lt.2 tx h.1, asked]
  | answered r tx asked reply own only fits whole =>
    refine .answered r (by simp only; omega) ?_ reply own only fits (hunread.trans whole)
    change (if _ then s.asked ++ [s.serial] else s.asked) = []
    rw [if_neg fun h => Nat.not_lt.2 tx h.1, asked]

/-- A call of `poll()` after the deadline drops the exchange. -/
private theorem poll_late (ha : Attended s) (hin : (s.tags i).InFlight) {os : Platform}
    (hnow : expired (os.millis 0) s.msg.deadline = true) {st : Status} {tag : Tag} {msg : ExplicitMessage}
    {conn : TcpConnection} (hp : (s.tags i).poll s.msg s.conn os = (st, tag, msg, conn)) :
    ¬ tag.InFlight ∧ msg = { s.msg with state := .failed } ∧ conn = s.conn := by
  obtain ⟨mst, hm, hadvanced⟩ := Tag.poll_inFlight hin hp
  have hrest := hadvanced.inFlight_iff hin
  rw [ExplicitMessage.poll_expired (ha.used i hin) s.conn hnow] at hm
  simp only [Prod.mk.injEq] at hm
  obtain ⟨rfl, rfl, rfl⟩ := hm
  refine ⟨fun htag => ?_, rfl, rfl⟩
  have hst := hrest.1 htag
  subst hst
  cases hadvanced with
  | pending h => cases h

/-- What a call of `Tag::read()` or `Tag::write()` of tag `i` may give. -/
inductive Accepted (s : Station n) (i : Fin n) : Status × Tag × ExplicitMessage → Prop where
  | started {sessionHandle timeoutMs now : UInt32} {name : List UInt8} {t : Tag} {msg : ExplicitMessage}
      (h : Tag.Started (s.tags i) s.msg s.conn sessionHandle name timeoutMs now t msg) :
      Accepted s i (.pending, t, msg)
  | refused {st : Status} (h : st ≠ .pending) : Accepted s i (st, s.tags i, s.msg)

private theorem read_accepted (s : Station n) (i : Fin n) (sessionHandle : UInt32) (name : Option (List UInt8))
    (elementCount timeoutMs now : UInt32) :
    Accepted s i ((s.tags i).read s.msg s.conn sessionHandle name elementCount timeoutMs now) := by
  cases name with
  | none => exact .refused nofun
  | some name =>
    obtain ⟨st, t, msg, h⟩ : ∃ st t msg,
      (s.tags i).read s.msg s.conn sessionHandle (some name) elementCount timeoutMs now = (st, t, msg) :=
      ⟨_, _, _, rfl⟩
    rw [h]
    rcases Tag.read_cases h with ⟨rfl, hs⟩ | ⟨hne, rfl, rfl⟩
    · exact .started hs
    · exact .refused hne

private theorem write_accepted (s : Station n) (i : Fin n) (sessionHandle : UInt32) (name : Option (List UInt8))
    (elementCount timeoutMs now : UInt32) :
    Accepted s i ((s.tags i).write s.msg s.conn sessionHandle name elementCount timeoutMs now) := by
  cases name with
  | none => exact .refused nofun
  | some name =>
    obtain ⟨st, t, msg, h⟩ : ∃ st t msg,
      (s.tags i).write s.msg s.conn sessionHandle (some name) elementCount timeoutMs now = (st, t, msg) :=
      ⟨_, _, _, rfl⟩
    rw [h]
    rcases Tag.write_cases h with ⟨rfl, -, hs⟩ | ⟨hne, rfl, rfl⟩
    · exact .started hs
    · exact .refused hne

private theorem attended_op (ha : Attended s) {result : Status × Tag × ExplicitMessage} (h : Accepted s i result)
    (hq : result.1 = .pending → s.Settled) : Attended (s.started i result) := by
  cases h with
  | started h => exact attended_started ha (hq rfl) h
  | refused h =>
    rw [started_refused h]
    exact ha

private theorem attended_poll (ha : Attended s) {os : Platform} {st : Status} {tag : Tag} {msg : ExplicitMessage}
    {conn : TcpConnection} (hok : Fair s (.poll i os)) (hp : (s.tags i).poll s.msg s.conn os = (st, tag, msg, conn)) :
    Attended { s with tags := Function.update s.tags i tag, msg := msg, conn := conn,
                      asked := if s.msg.txSent < s.msg.txLen ∧ msg.txLen ≤ msg.txSent then s.asked ++ [s.serial]
                        else s.asked } := by
  by_cases hin : (s.tags i).InFlight
  · by_cases hnow : expired (os.millis 0) s.msg.deadline = true
    · obtain ⟨htag, hmsg, rfl⟩ := poll_late ha hin hnow hp
      refine attended_free ha hin htag ?_ ?_ ha.usable (known_asked ha)
      · rw [hmsg]
        rintro (h | h) <;> cases h
      · rw [hmsg]
    · have hmsg := ha.used i hin
      have hg := ha.going hmsg
      obtain ⟨hu, hturned⟩ := turned_of_poll ha hin hok.1 (by simpa using hnow) hp
      obtain ⟨mst, hm, -⟩ := Tag.poll_inFlight hin hp
      obtain ⟨inp, hpolled⟩ := ExplicitMessage.poll_spec hmsg hg.framed hm
      cases hturned with
      | waits same inFlight framed more =>
        rw [same, Function.update_eq_self]
        exact attended_waits ha hg hu hpolled.moved hpolled.contexts inFlight framed more
      | ends r reply own rest free completed =>
        exact attended_free ha hin rest free hpolled.contexts.1 hu (known_asked ha)
  · rw [Tag.poll_rest hin] at hp
    simp only [Prod.mk.injEq] at hp
    obtain ⟨-, rfl, rfl, rfl⟩ := hp
    rw [Function.update_eq_self, if_neg (by omega)]
    exact ha

private theorem attended_answer (ha : Attended s) {r : Reply} {es : List Nat} (hasked : s.asked = r.exchange :: es)
    (hfits : s.msg.InFlight → r.exchange = s.serial → 20 + r.data.length ≤ 16 + kMaxCipData) :
    Attended { s with replies := s.replies ++ [r], wire := s.wire ++ r.frame, asked := es } := by
  have hle : r.exchange ≤ s.serial := ha.known _ (by rw [hasked]; exact List.mem_cons_self)
  refine ⟨ha.one, ha.used, ha.usable, ?_, ?_, ha.context, fun hin => ?_⟩
  · intro e he
    exact ha.known e (by rw [hasked]; exact List.mem_cons_of_mem _ he)
  · intro q hq
    rcases List.mem_append.1 hq with hq | hq
    · exact ha.numbered q hq
    · rw [List.mem_singleton.1 hq]
      exact hle
  · have hg := ha.going hin
    refine ⟨hg.framed, hg.more, hg.loaded, hg.sent, ?_⟩
    cases hg.phase with
    | unsent tx asked old nothing =>
      rw [hasked] at asked
      cases asked
    | answered q tx asked reply own only fits whole =>
      rw [hasked] at asked
      cases asked
    | asked tx asked old nothing =>
      -- the only request that is out is that of the exchange in flight
      rw [hasked] at asked
      obtain ⟨hown, rfl⟩ := List.cons.inj asked
      refine .answered r tx rfl (List.mem_append_right _ List.mem_cons_self) hown ?_ (hfits hin hown) ?_
      · intro q hq hserial
        rcases List.mem_append.1 hq with hq | hq
        · have hlt := old q hq
          change q.exchange = s.serial at hserial
          omega
        · exact List.mem_singleton.1 hq
      · change s.msg.rx.take s.msg.rxLen ++ (s.conn.sock.inbox ++ (s.wire ++ r.frame)) = r.frame
        rw [unread] at nothing
        rw [← List.append_assoc s.conn.sock.inbox, ← List.append_assoc, nothing, List.nil_append]

private theorem attended_step {a : Act n} (ha : Attended s) (hok : Fair s a ∧ Quiet s a) (hs : step s a = some s') :
    Attended s' := by
  obtain ⟨hfair, hquiet⟩ := hok
  cases a with
  | read i sessionHandle name elementCount timeoutMs now =>
    obtain rfl := Option.some.inj hs
    exact attended_op ha (read_accepted _ _ _ _ _ _ _) hquiet
  | write i sessionHandle name elementCount timeoutMs now =>
    obtain rfl := Option.some.inj hs
    exact attended_op ha (write_accepted _ _ _ _ _ _ _) hquiet
  | edit i e =>
    obtain rfl := Option.some.inj hs
    have hsame := inFlight_update (PlcClient.edit_inFlight e (s.tags i))
    exact ⟨fun j k hj hk => ha.one j k ((hsame j).1 hj) ((hsame k).1 hk), fun j hj => ha.used j ((hsame j).1 hj),
      ha.usable, ha.known, ha.numbered, ha.context, fun hin => going_same (ha.going hin) rfl rfl rfl rfl rfl⟩
  | poll i os =>
    obtain ⟨st, tag, msg, conn, hp⟩ : ∃ st tag msg conn, (s.tags i).poll s.msg s.conn os = (st, tag, msg, conn) :=
      ⟨_, _, _, _, rfl⟩
    simp only [step, hp, Option.some.injEq] at hs
    subst hs
    exact attended_poll ha hfair hp
  | abort i =>
    obtain ⟨tag, msg, hp⟩ : ∃ tag msg, (s.tags i).abort s.msg = (tag, msg) := ⟨_, _, rfl⟩
    simp only [step, hp, Option.some.injEq] at hs
    subst hs
    have htag : ((s.tags i).abort s.msg).1 = tag := congrArg Prod.fst hp
    have hmsg : ((s.tags i).abort s.msg).2 = msg := congrArg Prod.snd hp
    have hidle : ¬ tag.InFlight := by
      rw [← htag]
      rintro (h | h) <;> cases h
    by_cases hin : (s.tags i).InFlight
    · rw [Tag.abort_inFlight hin] at hmsg
      subst hmsg
      exact attended_free ha hin hidle (ExplicitMessage.not_inFlight_abort _) rfl ha.usable ha.known
    · rw [Tag.abort_rest hin] at hmsg
      subst hmsg
      have hsame := inFlight_update (iff_of_false hidle hin)
      exact ⟨fun j k hj hk => ha.one j k ((hsame j).1 hj) ((hsame k).1 hk), fun j hj => ha.used j ((hsame j).1 hj),
        ha.usable, ha.known, ha.numbered, ha.context, fun hin => going_same (ha.going hin) rfl rfl rfl rfl rfl⟩
  | answer r =>
    simp only [step] at hs
    split at hs
    · cases hs
    · rename_i e es hasked
      split at hs
      · rename_i he
        obtain rfl := Option.some.inj hs
        subst he
        exact attended_answer ha hasked hquiet
      · cases hs
  | deliver k =>
    obtain rfl := Option.some.inj hs
    refine ⟨ha.one, ha.used, ha.usable, ha.known, ha.numbered, ha.context,
      fun hin => going_same (ha.going hin) rfl rfl rfl rfl ?_⟩
    change s.msg.rx.take s.msg.rxLen ++ (s.conn.sock.inbox ++ s.wire.take k ++ s.wire.drop k) = s.unread
    rw [List.append_assoc s.conn.sock.inbox, List.take_append_drop, unread]

end Step

/-! ### Waiting for a reply that has come -/

/-- The operation `t` of tag `i` is in flight, and what is not read past is its own reply. -/
structure Awaiting (i : Fin n) (t : Tag) (r : Reply) (deadline : UInt32) (s : Station n) : Prop where
  attended : Attended s
  tag : s.tags i = t
  inFlight : t.InFlight
  deadline : s.msg.deadline = deadline
  wire : s.wire = []
  tx : s.msg.txLen ≤ s.msg.txSent
  asked : s.asked = []
  only : ∀ q ∈ s.replies, q.exchange = s.serial → q = r
  whole : s.unread = r.frame

section Awaiting

variable {s s' u : Station n} {i : Fin n} {t : Tag} {r : Reply} {deadline : UInt32} {a : Act n} {as : List (Act n)}

theorem Awaiting.msg (h : Awaiting i t r deadline s) : s.msg.InFlight :=
  h.attended.used i (by rw [h.tag]; exact h.inFlight)

/-- The operation goes on until the last byte of the reply has been read. -/
private theorem awaiting_short (h : Awaiting i t r deadline s) : s.msg.rxLen < r.frame.length := by
  have hg := h.attended.going h.msg
  have hmore := hg.more
  have hlong := Reply.length_frame r
  by_cases h24 : s.msg.rxLen < 24
  · omega
  · have hlen : (s.msg.rx.take s.msg.rxLen).length = s.msg.rxLen := by
      rw [List.length_take, Nat.min_eq_left hg.framed.fits]
    have hbody := Reply.bodyLength_frame r []
    rw [List.append_nil, ← h.whole, unread, Reply.bodyLength_starts (by omega)] at hbody
    have hhead : bodyLength (s.msg.rx.take s.msg.rxLen) = bodyLength s.msg.rx := by
      apply Buffers.bodyLength_congr
      rw [List.take_take, Nat.min_eq_left (by omega)]
    have hexpected := (hg.framed.body (by omega)).1
    omega

/-- No other operation is accepted meanwhile, and no other reply is asked for. -/
private theorem awaiting_quiet (h : Awaiting i t r deadline s) (hs : step s a = some s') : Quiet s a := by
  have hbusy : ∀ j result, Accepted s j result → result.1 ≠ .pending := by
    intro j result hr
    cases hr with
    | started hs =>
      obtain ⟨_, _, -, hsent⟩ := hs.sent
      exact absurd h.msg hsent.free
    | refused hne => exact hne
  cases a with
  | read j sessionHandle name elementCount timeoutMs now =>
    exact fun hp => absurd hp (hbusy j _ (read_accepted _ _ _ _ _ _ _))
  | write j sessionHandle name elementCount timeoutMs now =>
    exact fun hp => absurd hp (hbusy j _ (write_accepted _ _ _ _ _ _ _))
  | answer q =>
    simp only [step, h.asked] at hs
    cases hs
  | edit => trivial
  | poll => trivial
  | abort => trivial
  | deliver => trivial

private theorem awaiting_same (h : Awaiting i t r deadline s) (ha : Attended s') (htag : s'.tags i = s.tags i)
    (hmsg : s'.msg = s.msg) (hasked : s'.asked = s.asked) (hreplies : s'.replies = s.replies)
    (hserial : s'.serial = s.serial) (hwire : s'.wire = s.wire) (hunread : s'.unread = s.unread) :
    Awaiting i t r deadline s' ∧ s'.msg.rxLen = s.msg.rxLen :=
  ⟨⟨ha, htag.trans h.tag, h.inFlight, hmsg ▸ h.deadline, hwire.trans h.wire, hmsg ▸ h.tx, hasked.trans h.asked,
    by rw [hreplies, hserial]; exact h.only, hunread.trans h.whole⟩, by rw [hmsg]⟩

/-- A call of `poll()` in time on the tag that waits. -/
private theorem awaiting_poll (h : Awaiting i t r deadline s) {os : Platform} (hfair : Fair s (.poll i os))
    (hnow : expired (os.millis 0) deadline = false) (hs : step s (.poll i os) = some s') :
    (Awaiting i t r deadline s' ∧ s.msg.rxLen ≤ s'.msg.rxLen ∧
      (serves i (.poll i os) = true → s.msg.rxLen < s'.msg.rxLen)) ∨
        (Completed t r (s'.tags i) ∧ ¬ (s'.tags i).InFlight) := by
  have hin : (s.tags i).InFlight := by
    rw [h.tag]
    exact h.inFlight
  have ha' := attended_step h.attended ⟨hfair, awaiting_quiet h hs⟩ hs
  have hg := h.attended.going h.msg
  have hnow' : expired (os.millis 0) s.msg.deadline = false := by
    rw [h.deadline]
    exact hnow
  obtain ⟨st, tag, msg, conn, hp⟩ : ∃ st tag msg conn, (s.tags i).poll s.msg s.conn os = (st, tag, msg, conn) :=
    ⟨_, _, _, _, rfl⟩
  obtain ⟨-, hturned⟩ := turned_of_poll h.attended hin hfair.1 hnow' hp
  obtain ⟨mst, hm, -⟩ := Tag.poll_inFlight hin hp
  obtain ⟨inp, hpolled⟩ := ExplicitMessage.poll_spec h.msg hg.framed hm
  have hmv := hpolled.moved
  have hmono := hmv.mono
  have hlen := hmv.len
  obtain ⟨-, htxLen⟩ := hmv.tx
  have htx := h.tx
  simp only [step, hp, Option.some.injEq] at hs
  subst hs
  cases hturned with
  | waits same inFlight framed more =>
    refine Or.inl ⟨⟨ha', ?_, h.inFlight, ?_, h.wire, ?_, ?_, h.only, ?_⟩, ?_, fun hserves => ?_⟩
    · change Function.update s.tags i tag i = t
      rw [Function.update_self, same, h.tag]
    · exact hpolled.deadline.trans h.deadline
    · change msg.txLen ≤ msg.txSent
      omega
    · change (if _ then s.asked ++ [s.serial] else s.asked) = []
      rw [if_neg fun hout => Nat.not_lt.2 htx hout.1, h.asked]
    · exact (unread_moved hmv).trans h.whole
    · change s.msg.rxLen ≤ msg.rxLen
      omega
    · -- the rest of the reply waits at the socket
      have hinbox : s.conn.sock.inbox ≠ [] := by
        intro hnil
        have hwhole := congrArg List.length h.whole
        rw [unread, hnil, h.wire, List.append_nil, List.append_nil, List.length_take] at hwhole
        have hshort := awaiting_short h
        omega
      simp only [serves] at hserves
      split at hserves
      · rename_i hrecvs
        exact ExplicitMessage.poll_progress h.msg hg.framed htx h.attended.usable hnow' hg.more hinbox hrecvs hm
      · cases hserves
  | ends q reply own rest free completed =>
    refine Or.inr ?_
    change Completed t r (Function.update s.tags i tag i) ∧ ¬ (Function.update s.tags i tag i).InFlight
    rw [Function.update_self, ← h.tag, ← h.only q reply own]
    exact ⟨completed, rest⟩

/-- What is done with other tags leaves the operation and its message alone. -/
private theorem awaiting_step (h : Awaiting i t r deadline s) (hfair : Fair s a) (hattends : Attends i deadline a)
    (hs : step s a = some s') :
    (Awaiting i t r deadline s' ∧ s.msg.rxLen ≤ s'.msg.rxLen ∧ (serves i a = true → s.msg.rxLen < s'.msg.rxLen)) ∨
      (Completed t r (s'.tags i) ∧ ¬ (s'.tags i).InFlight) := by
  have ha' := attended_step h.attended ⟨hfair, awaiting_quiet h hs⟩ hs
  have hin : (s.tags i).InFlight := by
    rw [h.tag]
    exact h.inFlight
  have hsame : serves i a = false → Awaiting i t r deadline s' ∧ s'.msg.rxLen = s.msg.rxLen →
      Awaiting i t r deadline s' ∧ s.msg.rxLen ≤ s'.msg.rxLen ∧ (serves i a = true → s.msg.rxLen < s'.msg.rxLen) := by
    rintro hserves ⟨hw, hlen⟩
    exact ⟨hw, Nat.le_of_eq hlen.symm, fun hs => absurd hs (by simp [hserves])⟩
  have hother : ∀ j result, Accepted s j result → s.started j result = s := by
    intro j result hr
    cases hr with
    | started hs =>
      obtain ⟨_, _, -, hsent⟩ := hs.sent
      exact absurd h.msg hsent.free
    | refused hne => exact started_refused hne
  cases a with
  | read j sessionHandle name elementCount timeoutMs now =>
    obtain rfl := Option.some.inj hs
    refine Or.inl (hsame rfl ?_)
    rw [hother j _ (read_accepted _ _ _ _ _ _ _)]
    exact ⟨h, rfl⟩
  | write j sessionHandle name elementCount timeoutMs now =>
    obtain rfl := Option.some.inj hs
    refine Or.inl (hsame rfl ?_)
    rw [hother j _ (write_accepted _ _ _ _ _ _ _)]
    exact ⟨h, rfl⟩
  | edit j e =>
    obtain rfl := Option.some.inj hs
    have ha'' := awaiting_same h ha' (Function.update_of_ne (Ne.symm hattends) _ _) rfl rfl rfl rfl rfl rfl
    exact Or.inl (hsame rfl ha'')
  | poll j os =>
    by_cases hji : j = i
    · subst hji
      exact awaiting_poll h hfair (hattends rfl) hs
    · have hrest : ¬ (s.tags j).InFlight := fun hj => hji (h.attended.one j i hj hin)
      have hidle : s' = s := by
        simp only [step, Tag.poll_rest hrest, Option.some.injEq] at hs
        rw [← hs, Function.update_eq_self, if_neg (by omega)]
      refine Or.inl (hsame ?_ (by rw [hidle]; exact ⟨h, rfl⟩))
      simp only [serves]
      split
      · exact decide_eq_false hji
      · rfl
  | abort j =>
    have hrest : ¬ (s.tags j).InFlight := fun hj => hattends (h.attended.one j i hj hin)
    obtain ⟨tag, msg, hp⟩ : ∃ tag msg, (s.tags j).abort s.msg = (tag, msg) := ⟨_, _, rfl⟩
    have hmsg : ((s.tags j).abort s.msg).2 = msg := congrArg Prod.snd hp
    rw [Tag.abort_rest hrest] at hmsg
    simp only [step, hp, Option.some.injEq] at hs
    subst hs
    subst hmsg
    have ha'' := awaiting_same h ha' (Function.update_of_ne (Ne.symm hattends) _ _) rfl rfl rfl rfl rfl rfl
    exact Or.inl (hsame rfl ha'')
  | answer q =>
    simp only [step, h.asked] at hs
    cases hs
  | deliver k =>
    obtain rfl := Option.some.inj hs
    have hnil : s.wire.take k = [] ∧ s.wire.drop k = [] := by
      rw [h.wire]
      exact ⟨List.take_nil, List.drop_nil⟩
    refine Or.inl (hsame rfl (awaiting_same h ha' rfl rfl rfl rfl rfl (hnil.2.trans h.wire.symm) ?_))
    change s.msg.rx.take s.msg.rxLen ++ (s.conn.sock.inbox ++ s.wire.take k ++ s.wire.drop k) = s.unread
    rw [List.append_assoc s.conn.sock.inbox, List.take_append_drop, unread]

/-- A tag at rest with which nothing is begun stays as it is. -/
private theorem rest_step (hrest : ¬ (s.tags i).InFlight) (hattends : Attends i deadline a)
    (hs : step s a = some s') :
    s'.tags i = s.tags i := by
  cases a with
  | read j =>
    obtain rfl := Option.some.inj hs
    exact Function.update_of_ne (Ne.symm hattends) _ _
  | write j =>
    obtain rfl := Option.some.inj hs
    exact Function.update_of_ne (Ne.symm hattends) _ _
  | edit j =>
    obtain rfl := Option.some.inj hs
    exact Function.update_of_ne (Ne.symm hattends) _ _
  | abort j =>
    obtain rfl := Option.some.inj hs
    exact Function.update_of_ne (Ne.symm hattends) _ _
  | poll j os =>
    obtain rfl := Option.some.inj hs
    by_cases hji : j = i
    · subst hji
      change Function.update s.tags j ((s.tags j).poll s.msg s.conn os).2.1 j = s.tags j
      rw [Function.update_self, Tag.poll_rest hrest]
    · exact Function.update_of_ne (Ne.symm hji) _ _
  | answer q =>
    simp only [step] at hs
    split at hs
    · cases hs
    · split at hs
      · obtain rfl := Option.some.inj hs
        rfl
      · cases hs
  | deliver k =>
    obtain rfl := Option.some.inj hs
    rfl

private theorem rest_run (h : Run step Fair s as u) (hrest : ¬ (s.tags i).InFlight)
    (hattends : ∀ a ∈ as, Attends i deadline a) : u.tags i = s.tags i := by
  induction h with
  | nil s => rfl
  | cons allowed taken rest ih =>
    have hsame := rest_step hrest (hattends _ List.mem_cons_self) taken
    rw [ih (by rw [hsame]; exact hrest) fun b hb => hattends b (List.mem_cons_of_mem _ hb), hsame]

/-- Every call of `poll()` that hands out bytes brings the operation nearer to the end of its reply. -/
private theorem awaiting_run (h : Run step Fair s as u) (hw : Awaiting i t r deadline s)
    (hattends : ∀ a ∈ as, Attends i deadline a) (henough : r.frame.length ≤ s.msg.rxLen + as.countP (serves i)) :
    Completed t r (u.tags i) := by
  induction h with
  | nil s =>
    have hshort := awaiting_short hw
    rw [List.countP_nil] at henough
    omega
  | @cons s s' u a as allowed taken rest ih =>
    have hrest : ∀ b ∈ as, Attends i deadline b := fun b hb => hattends b (List.mem_cons_of_mem _ hb)
    rcases awaiting_step hw allowed (hattends a List.mem_cons_self) taken with ⟨hw', hle, hlt⟩ | ⟨hc, hidle⟩
    · refine ih hw' hrest ?_
      rw [List.countP_cons] at henough
      split at henough
      · rename_i hserves
        have hmore := hlt hserves
        omega
      · omega
    · rw [rest_run rest hidle hrest]
      exact hc

end Awaiting

/-! ### Every run -/

theorem attended_initial {s : Station n} (h : Initial s) : Attended s := by
  obtain ⟨hmsg, husable, hsock, hserial, hreplies, hwire⟩ := h.dialogue
  have hrest : ¬ s.msg.InFlight := by
    rw [hmsg]
    rintro (e | e) <;> cases e
  refine ⟨fun i _ hi => absurd hi (h.rest i), fun i hi => absurd hi (h.rest i), husable, ?_, ?_, ?_,
    fun hin => absurd hin hrest⟩
  · rw [h.asked]
    nofun
  · rw [hreplies]
    nofun
  · rw [hmsg, hserial]
    rfl

/-- In a run in which every operation begins with no earlier reply outstanding, the operation in flight ends with the
outcome of its own reply once that has come. -/
theorem recovers {s₀ s : Station n} {as : List (Act n)} (h0 : Initial s₀)
    (h : Run step (fun s a => Fair s a ∧ Quiet s a) s₀ as s) : Recovers s := by
  have ha := h.invariant (fun _ _ _ => attended_step) (attended_initial h0)
  intro i r bs u hin hr hown hwire hrun hattends henough
  have hg := ha.going (ha.used i hin)
  have hlt : ¬ ∀ q ∈ s.replies, q.exchange < s.serial := by
    intro hold
    have h1 := hold r hr
    omega
  cases hg.phase with
  | unsent tx asked old nothing => exact absurd old hlt
  | asked tx asked old nothing => exact absurd old hlt
  | answered q tx asked reply own only fits whole =>
    obtain rfl := only r hr hown
    exact awaiting_run hrun ⟨ha, rfl, hin, rfl, hwire, tx, asked, only, whole⟩ hattends (by omega)

/-- Two tags on the connection that is open on descriptor 3. -/
def opened : Station 2 where
  toDialogue := Dialogue.opened
  tags := fun _ => { data := TagData.zero }

theorem initial_opened : Initial opened := by
  refine ⟨Dialogue.initial_opened, fun _ => ?_, rfl⟩
  rintro (h | h) <;> cases h

/-- A read of one element of the tag `A`, for 1000 ms. -/
def readA (i : Fin 2) (now : UInt32) : Act 2 := .read i 7 (some [65]) 1 1000 now

def pollAt (i : Fin 2) (now : UInt32) : Act 2 :=
  .poll i { millis := fun _ => now, sends := [.accepted 1000], recvs := [.data 9, .data 9] }

/-- The reply to the first read has come. -/
def waiting : Station 2 :=
  after step opened [readA 0 0, pollAt 0 1, .answer (Dialogue.dint 1 5), .deliver 20, pollAt 0 2, .deliver 99]

/-- The first read ends with the value in its reply. -/
theorem recovers_read :
    Completed (waiting.tags 0) (Dialogue.dint 1 5) ((after step waiting (List.replicate 50 (pollAt 0 3))).tags 0) :=
  recovers initial_opened (run_afterIf (fun s a => Fair s a ∧ Quiet s a) (by decide +kernel)) 0 (Dialogue.dint 1 5)
    (List.replicate 50 (pollAt 0 3)) _ (by decide +kernel) (by decide +kernel) (by decide +kernel) (by decide +kernel)
    (run_afterIf Fair (by decide +kernel)) (by decide +kernel) (by decide +kernel)

/-- A read that times out, and the replies to it and to the next read, which come together. -/
def late : Station 2 :=
  after step opened [readA 0 0, pollAt 0 1, pollAt 0 1000, readA 1 1001, pollAt 1 1002, .answer (Dialogue.dint 1 5),
    .answer (Dialogue.dint 2 6), .deliver 200]

/-- The second read takes the late reply for its own, and fails. -/
theorem misled : ¬ ∀ (s₀ s : Station 2) as, Initial s₀ → Run step Fair s₀ as s → Recovers s := by
  intro h
  have hrun : Run step Fair late (List.replicate 50 (pollAt 1 1003))
      (after step late (List.replicate 50 (pollAt 1 1003))) := run_afterIf Fair (by decide +kernel)
  have hcompleted := h opened late _ initial_opened (run_afterIf Fair (by decide +kernel)) 1 (Dialogue.dint 2 6)
    (List.replicate 50 (pollAt 1 1003)) _ (by decide +kernel) (by decide +kernel) (by decide +kernel)
    (by decide +kernel) hrun (by decide +kernel) (by decide +kernel)
  have hfailed : ((after step late (List.replicate 50 (pollAt 1 1003))).tags 1).status = .error := by decide +kernel
  have hok := hcompleted.status
  rw [hfailed] at hok
  cases hok

end Station

end ControlLogix
