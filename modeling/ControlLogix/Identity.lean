import ControlLogix.Absorbing
import ControlLogix.Replies

/-!
# The identity of an open connection

A Forward Open asks for a connection with an ID and a tag name, and its response gives the other ID.  `startOpen()`
stores the ID and the name before `fwd_` has accepted the request.

* `call_outcome`: what a call does to the fields, one lemma for all calls;
* `settled_step`: the fields of an open connection are those of the last Forward Open that was answered;
* `identity_iff`: along every run in which `open()` is not refused by `fwd_` this holds, and a refused call changes
  nothing if and only if it is not such a call.
-/

namespace ControlLogix

open Transition
open ExplicitMessage (requestFrame)

namespace Connection

/-- What a Forward Open and its response agree on. -/
structure Identity where
  otConnId : UInt32
  toConnId : UInt32
  tagName : List UInt8
  deriving DecidableEq, Repr

/-- A connection, what its last Forward Open asked for, and what the last one that completed `Ok` agreed on. -/
structure Tracked where
  object : Connection
  asked : Option (UInt32 × List UInt8) := none
  agreed : Option Identity := none

/-- What a call that returned `st` asks the Connection Manager for. -/
def Call.asks (st : Status) : Call → Option (UInt32 × List UInt8)
  | .open _ _ (some tagName) _ _ random => if st = .pending then some (chooseConnId random, tagName) else none
  | _ => none

/-- What the response that a call of `poll()` has got agrees to. -/
def Tracked.agrees (s : Tracked) (st : Status) (c : Connection) : Call → Option Identity
  | .poll .. =>
    if s.object.state = .opening ∧ st = .ok then
      s.asked.map fun q => ⟨q.1, getU32 (c.fwd.data.drop 4), q.2⟩
    else none
  | _ => none

def Tracked.step (s : Tracked) (a : Call) : Option Tracked :=
  let (st, c) := s.object.call a
  some { object := c, asked := (a.asks st).or s.asked, agreed := (s.agrees st c a).or s.agreed }

/-! ### What is held of the fields -/

/-- The fields of a connection agree with a Forward Open. -/
structure Holds (c : Connection) (id : Identity) : Prop where
  otConnId : c.otConnId = id.otConnId
  toConnId : c.toConnId = id.toConnId
  tagName : c.tagName = id.tagName
  nonzero : id.otConnId ≠ 0 ∧ id.toConnId ≠ 0

/-- The invariant: a connection that is being opened has asked for its fields, and one that is open has agreed on
them. -/
structure Settled (s : Tracked) : Prop where
  engaged : s.object.Engaged
  opening : s.object.state = .opening → s.asked = some (s.object.otConnId, s.object.tagName)
  settled : s.object.state = .open ∨ s.object.state = .sending → ∃ id, s.agreed = some id ∧ s.object.Holds id

/-- `open()` with a name that fits, on an object that has no exchange going on, over a connection that is down.  The
request is refused by `fwd_`, and the fields were not those of the request. -/
def Call.Spoils (c : Connection) : Call → Prop
  | .open conn _ (some tagName) _ _ random =>
    tagName.length < kTagNameSize ∧ ¬ c.InFlight ∧ conn.connected = false ∧
      ¬ (c.otConnId = chooseConnId random ∧ c.toConnId = 0 ∧ c.tagName = tagName)
  | _ => False

/-- A call other than `poll()` that does not return `Pending` leaves the connection as it is. -/
def Unharmed (c : Connection) : Call → Prop
  | .poll .. => True
  | a => (c.call a).1 ≠ .pending → (c.call a).2 = c

/-! ### One call -/

/-- `poll()` of an object that is not being opened keeps the fields, and opens only what was open before. -/
structure Keeps (c c' : Connection) : Prop where
  fields : c'.otConnId = c.otConnId ∧ c'.toConnId = c.toConnId ∧ c'.tagName = c.tagName
  opening : c'.state ≠ .opening
  opened : c'.state = .open ∨ c'.state = .sending → c.state = .open ∨ c.state = .sending

section Calls

variable {c c' : Connection} {conn conn' : TcpConnection} {os : Platform} {st : Status}

private theorem keeps_sending (hs : c.state = .sending) (conn : TcpConnection) (os : Platform) :
    Keeps c (c.pollSending conn os).2.1 := by
  have hmade : ∀ c' : Connection, c'.otConnId = c.otConnId ∧ c'.toConnId = c.toConnId ∧ c'.tagName = c.tagName →
      c'.state ≠ .opening → Keeps c c' := fun c' h hne => ⟨h, hne, fun _ => Or.inr hs⟩
  have hne : c.state ≠ .opening := by simp [hs]
  unfold pollSending
  split
  · exact hmade _ ⟨rfl, rfl, rfl⟩ (by simp)
  · split
    · split
      · exact hmade _ ⟨rfl, rfl, rfl⟩ hne
      · dsimp only
        refine hmade _ ?_ ?_
        · unfold parseConnectedResponse
          split <;> exact ⟨rfl, rfl, rfl⟩
        · dsimp only
          split <;> simp
      · exact hmade _ ⟨rfl, rfl, rfl⟩ (by simp)
    · exact hmade _ ⟨rfl, rfl, rfl⟩ hne
    · exact hmade _ ⟨rfl, rfl, rfl⟩ (by simp)

private theorem keeps_closing (hs : c.state = .closing) (conn : TcpConnection) (os : Platform) :
    Keeps c (pollForward finishClose c conn os).2.1 := by
  obtain ⟨st, fwd, conn', -, hr⟩ := pollForward_cases finishClose c conn os
  rcases hr with ⟨-, hr⟩ | ⟨-, hr⟩ | ⟨-, -, hr⟩
  · rw [hr]
    exact ⟨⟨rfl, rfl, rfl⟩, by simp [hs], by simp [hs]⟩
  · rw [hr]
    exact ⟨⟨rfl, rfl, rfl⟩, by simp [finishClose], by simp [finishClose]⟩
  · rw [hr]
    exact ⟨⟨rfl, rfl, rfl⟩, by simp, by simp⟩

theorem poll_keeps (h : c.state ≠ .opening) (conn : TcpConnection) (os : Platform) :
    Keeps c (c.poll conn os).2.1 := by
  by_cases hin : c.InFlight
  · rcases hin with hs | hs | hs
    · exact absurd hs h
    · have hpoll : c.poll conn os = c.pollSending conn os := by rw [poll, hs]
      rw [hpoll]
      exact keeps_sending hs conn os
    · have hpoll : c.poll conn os = pollForward finishClose c conn os := by
        rw [poll, hs]
        rfl
      rw [hpoll]
      exact keeps_closing hs conn os
  · rw [poll_rest hin]
    exact ⟨⟨rfl, rfl, rfl⟩, h, fun e => e⟩

/-- How `poll()` leaves an object that is being opened. -/
theorem poll_opening (hs : c.state = .opening) (h : c.poll conn os = (st, c', conn')) :
    (c'.otConnId = c.otConnId ∧ c'.tagName = c.tagName) ∧
      (c'.state = .opening ∨ c'.state = .failed ∨
        st = .ok ∧ c'.state = .open ∧ c'.toConnId = getU32 (c'.fwd.data.drop 4) ∧ c'.otConnId ≠ 0 ∧
          c'.toConnId ≠ 0) := by
  have hpoll : c.poll conn os = pollForward finishOpen c conn os := by
    rw [poll, hs]
    rfl
  rw [hpoll] at h
  obtain ⟨st₁, fwd, conn₁, -, hr⟩ := pollForward_cases finishOpen c conn os
  rcases hr with ⟨-, hr⟩ | ⟨-, hr⟩ | ⟨-, -, hr⟩
  · rw [hr] at h
    cases h
    exact ⟨⟨rfl, rfl⟩, Or.inl hs⟩
  · rw [hr] at h
    rcases finishOpen_cases { c with fwd := fwd } with ⟨hreply, hf⟩ | ⟨-, hf⟩
    · rw [hf] at h
      cases h
      obtain ⟨-, -, hot, hne, hto⟩ := hreply
      exact ⟨⟨rfl, rfl⟩, Or.inr (Or.inr ⟨rfl, rfl, rfl, hot ▸ hne, hto⟩)⟩
    · rw [hf] at h
      cases h
      exact ⟨⟨rfl, rfl⟩, Or.inr (Or.inl rfl)⟩
  · rw [hr] at h
    cases h
    exact ⟨⟨rfl, rfl⟩, Or.inr (Or.inl rfl)⟩

theorem prepared_eq_iff {random : UInt32} {tagName : List UInt8} (h : tagName.length < kTagNameSize) :
    c.prepared random tagName = c ↔
      c.otConnId = chooseConnId random ∧ c.toConnId = 0 ∧ c.tagName = tagName := by
  have hname : tagName.take (kTagNameSize - 1) = tagName := List.take_of_length_le (by omega)
  constructor
  · intro e
    have hot := congrArg Connection.otConnId e
    have hto := congrArg Connection.toConnId e
    have htag := congrArg Connection.tagName e
    exact ⟨hot.symm, hto.symm, htag.symm.trans hname⟩
  · rintro ⟨hot, hto, htag⟩
    rw [prepared, hname, ← hot, ← hto, ← htag]

/-- How a call of `open()` ends: with a request on its way, refused by `fwd_` because the connection is down, or
refused before. -/
theorem open_ends (he : c.Engaged) {sessionHandle timeoutMs now random : UInt32} {tagName : List UInt8}
    (h : c.open conn sessionHandle (some tagName) timeoutMs now random = (st, c')) :
    (st = .pending ∧ conn.connected = true ∧ (c'.otConnId = chooseConnId random ∧ c'.tagName = tagName) ∧
        c'.state = .opening) ∨
      (st ≠ .pending ∧ (tagName.length < kTagNameSize ∧ ¬ c.InFlight ∧ conn.connected = false) ∧
        c' = c.prepared random tagName) ∨
      (st ≠ .pending ∧ ¬ (tagName.length < kTagNameSize ∧ ¬ c.InFlight) ∧ c' = c) := by
  by_cases hlen : tagName.length < kTagNameSize
  · have hname : tagName.take (kTagNameSize - 1) = tagName := List.take_of_length_le (by omega)
    by_cases hin : c.InFlight
    · have hbusy : c.open conn sessionHandle (some tagName) timeoutMs now random = (.busy, c) := by
        unfold «open»
        dsimp only
        rw [if_neg (by omega)]
        exact if_pos hin
      rw [hbusy] at h
      cases h
      exact Or.inr (Or.inr ⟨nofun, fun e => e.2 hin, rfl⟩)
    · rcases open_cases h with ⟨name, hsome, -, -, hf⟩ | ⟨hst, -⟩
      · obtain rfl := Option.some.inj hsome
        rcases forward_cases hf with ⟨rfl, hsent⟩ | ⟨hne, rfl, hwhy⟩
        · have hconn : conn.connected = true := by
            have hreq := hsent.sent
            unfold ExplicitMessage.send at hreq
            split at hreq
            · simp only [Prod.mk.injEq] at hreq
              cases hreq.1
            · split at hreq
              · simp only [Prod.mk.injEq] at hreq
                cases hreq.1
              · rename_i hup
                simpa using hup
          rw [hsent.rest]
          exact Or.inl ⟨rfl, hconn, ⟨rfl, hname⟩, rfl⟩
        · -- the data of the request fit, so that `fwd_` has but two reasons
          rcases hwhy (Nat.le_trans (length_openData _ _) (by decide)) with ⟨-, hfwd⟩ | ⟨-, hdown⟩
          · rcases he hfwd with e | e
            · exact absurd (Or.inl e) hin
            · exact absurd (Or.inr (Or.inr e)) hin
          · exact Or.inr (Or.inl ⟨hne, ⟨hlen, hin, hdown⟩, rfl⟩)
      · have hstart : c.open conn sessionHandle (some tagName) timeoutMs now random =
            c.startOpen conn sessionHandle tagName timeoutMs now random := by
          unfold «open»
          dsimp only
          rw [if_neg (by omega)]
          exact if_neg hin
        rcases hst with rfl | ⟨-, hbusy⟩
        · rw [hstart] at h
          rcases forward_cases h with ⟨e, -⟩ | ⟨-, -, hwhy⟩
          · cases e
          · rcases hwhy (Nat.le_trans (length_openData _ _) (by decide)) with ⟨e, -⟩ | ⟨e, -⟩
            · cases e
            · cases e
        · exact absurd hbusy hin
  · have hrefused : c.open conn sessionHandle (some tagName) timeoutMs now random = (.invalidArg, c) := by
      unfold «open»
      exact if_pos (by omega)
    rw [hrefused] at h
    cases h
    exact Or.inr (Or.inr ⟨nofun, fun e => hlen e.1, rfl⟩)

/-- A call that is refused changes nothing if and only if it is not one that spoils the fields. -/
theorem unharmed_iff (he : c.Engaged) (a : Call) : Unharmed c a ↔ ¬ a.Spoils c := by
  cases a with
  | «open» conn sessionHandle tagName timeoutMs now random =>
    cases tagName with
    | none => exact ⟨fun _ h => h, fun _ _ => rfl⟩
    | some tagName =>
      obtain ⟨st, c', hopen⟩ : ∃ st c', c.open conn sessionHandle (some tagName) timeoutMs now random = (st, c') :=
        ⟨_, _, rfl⟩
      simp only [Unharmed, call, hopen, Call.Spoils]
      rcases open_ends he hopen with ⟨rfl, hconn, -⟩ | ⟨hne, ⟨hlen, hin, hdown⟩, rfl⟩ | ⟨hne, hnot, rfl⟩
      · simp [hconn]
      · rw [prepared_eq_iff hlen]
        constructor
        · rintro h ⟨-, -, -, hdiffer⟩
          exact hdiffer (h hne)
        · intro h _
          by_cases hsame : c.otConnId = chooseConnId random ∧ c.toConnId = 0 ∧ c.tagName = tagName
          · exact hsame
          · exact absurd ⟨hlen, hin, hdown, hsame⟩ h
      · exact ⟨fun _ h => hnot ⟨h.1, h.2.1⟩, fun _ _ => rfl⟩
  | send sessionHandle service path pathLen data dataLen timeoutMs now =>
    obtain ⟨st, c', hsend⟩ : ∃ st c', c.send sessionHandle service path pathLen data dataLen timeoutMs
      now = (st, c') :=
      ⟨_, _, rfl⟩
    simp only [Unharmed, call, hsend, Call.Spoils, not_false_eq_true, iff_true]
    intro hne
    rcases send_cases hsend with ⟨e, -⟩ | ⟨-, e⟩
    · exact absurd e hne
    · exact e
  | close conn sessionHandle timeoutMs now =>
    obtain ⟨st, c', hclose⟩ : ∃ st c', c.close conn sessionHandle timeoutMs now = (st, c') := ⟨_, _, rfl⟩
    simp only [Unharmed, call, hclose, Call.Spoils, not_false_eq_true, iff_true]
    intro hne
    rcases close_cases hclose with ⟨-, hf⟩ | ⟨-, -, e⟩
    · rcases forward_cases hf with ⟨e, -⟩ | ⟨-, e, -⟩
      · exact absurd e hne
      · exact e
    · exact e
  | poll conn os => simp [Unharmed, Call.Spoils]

end Calls

/-- `open()` with a name that fits, on an object that has no exchange going on, over a connection that is down. -/
def Call.Strips (c : Connection) : Call → Prop
  | .open conn _ (some tagName) _ _ _ => tagName.length < kTagNameSize ∧ ¬ c.InFlight ∧ conn.connected = false
  | _ => False

/-- The call neither asks for anything nor gets an agreement. -/
def Tracked.Quiet (s : Tracked) (st : Status) (c' : Connection) (a : Call) : Prop :=
  a.asks st = none ∧ s.agrees st c' a = none

/-- What a call that returned `st` made of the connection, and of what is known of it. -/
inductive Outcome (s : Tracked) (a : Call) (st : Status) (c' : Connection) : Prop where
  /-- A Forward Open is on its way. -/
  | asked {otConnId : UInt32} {tagName : List UInt8} (spares : ¬ a.Strips s.object)
      (asks : a.asks st = some (otConnId, tagName)) (agrees : s.agrees st c' a = none)
      (fields : c'.otConnId = otConnId ∧ c'.tagName = tagName) (state : c'.state = .opening)
  /-- It was refused by `fwd_`, after the fields had been stored. -/
  | stripped (strips : a.Strips s.object) (quiet : s.Quiet st c' a) (spoils : c' = s.object ∨ a.Spoils s.object)
      (state : c'.state = s.object.state) (lost : c'.toConnId = 0)
  | same (spares : ¬ a.Strips s.object) (quiet : s.Quiet st c' a) (object : c' = s.object)
  | kept (spares : ¬ a.Strips s.object) (quiet : s.Quiet st c' a) (keeps : Keeps s.object c')
  /-- The response is still waited for, or has not been an agreement. -/
  | unanswered (spares : ¬ a.Strips s.object) (asks : a.asks st = none) (before : s.object.state = .opening)
      (fields : c'.otConnId = s.object.otConnId ∧ c'.tagName = s.object.tagName)
      (state : c'.state = .opening ∨ c'.state = .failed)
  | agreed (spares : ¬ a.Strips s.object) (asks : a.asks st = none)
      (agrees : s.agrees st c' a = s.asked.map fun q => ⟨q.1, c'.toConnId, q.2⟩) (before : s.object.state = .opening)
      (fields : c'.otConnId = s.object.otConnId ∧ c'.tagName = s.object.tagName) (state : c'.state = .open)
      (nonzero : c'.otConnId ≠ 0 ∧ c'.toConnId ≠ 0)

private theorem open_outcome {s : Tracked} (he : s.object.Engaged) (conn : TcpConnection)
    (sessionHandle : UInt32) (tagName : List UInt8) (timeoutMs now random : UInt32) :
    Outcome s (.open conn sessionHandle (some tagName) timeoutMs now random)
      (s.object.open conn sessionHandle (some tagName) timeoutMs now random).1
      (s.object.open conn sessionHandle (some tagName) timeoutMs now random).2 := by
  obtain ⟨st, c', hopen⟩ : ∃ st c', s.object.open conn sessionHandle (some tagName) timeoutMs now random = (st, c') :=
    ⟨_, _, rfl⟩
  rw [hopen]
  rcases open_ends he hopen with ⟨rfl, hconn, hfields, hstate⟩ | ⟨hne, hstrips, rfl⟩ | ⟨hne, hnot, rfl⟩
  · have hspares : ¬ (Call.open conn sessionHandle (some tagName) timeoutMs now random).Strips s.object := by
      -- `fwd_` accepts a request only over a connection that is up
      rintro ⟨-, -, hdown⟩
      rw [hconn] at hdown
      cases hdown
    exact .asked hspares rfl rfl hfields hstate
  · refine .stripped hstrips ⟨if_neg hne, rfl⟩ ?_ rfl rfl
    obtain ⟨hlen, hin, hdown⟩ := hstrips
    rw [prepared_eq_iff hlen]
    by_cases hsame : s.object.otConnId = chooseConnId random ∧ s.object.toConnId = 0 ∧ s.object.tagName = tagName
    · exact Or.inl hsame
    · exact Or.inr ⟨hlen, hin, hdown, hsame⟩
  · exact .same (fun h => hnot ⟨h.1, h.2.1⟩) ⟨if_neg hne, rfl⟩ rfl

/-- One lemma for all calls: what they do to the connection. -/
theorem call_outcome {s : Tracked} (he : s.object.Engaged) (a : Call) :
    Outcome s a (s.object.call a).1 (s.object.call a).2 := by
  cases a with
  | «open» conn sessionHandle tagName timeoutMs now random =>
    cases tagName with
    | none => exact .same id ⟨rfl, rfl⟩ rfl
    | some tagName => exact open_outcome he conn sessionHandle tagName timeoutMs now random
  | send sessionHandle service path pathLen data dataLen timeoutMs now =>
    obtain ⟨st, c', hsend⟩ : ∃ st c', s.object.send sessionHandle service path pathLen data dataLen timeoutMs now =
      (st, c') := ⟨_, _, rfl⟩
    rw [call, hsend]
    rcases send_cases hsend with ⟨-, hsent⟩ | ⟨-, hc⟩
    · refine .kept id ⟨rfl, rfl⟩ ⟨?_, ?_, fun _ => Or.inl hsent.opened⟩
      · rw [hsent.made]
        exact ⟨rfl, rfl, rfl⟩
      · rw [hsent.made]
        simp
    · exact .same id ⟨rfl, rfl⟩ hc
  | close conn sessionHandle timeoutMs now =>
    obtain ⟨st, c', hclose⟩ : ∃ st c', s.object.close conn sessionHandle timeoutMs now = (st, c') := ⟨_, _, rfl⟩
    rw [call, hclose]
    rcases close_cases hclose with ⟨-, hf⟩ | ⟨-, -, hc⟩
    · rcases forward_cases hf with ⟨-, hsent⟩ | ⟨-, hc, -⟩
      · refine .kept id ⟨rfl, rfl⟩ ⟨?_, ?_, ?_⟩
        · rw [hsent.rest]
          exact ⟨rfl, rfl, rfl⟩
        · rw [hsent.rest]
          simp
        · rw [hsent.rest]
          simp
      · exact .same id ⟨rfl, rfl⟩ hc
    · exact .same id ⟨rfl, rfl⟩ hc
  | poll conn os =>
    obtain ⟨st, c', conn', hpoll⟩ : ∃ st c' conn', s.object.poll conn os = (st, c', conn') := ⟨_, _, _, rfl⟩
    simp only [call, hpoll]
    by_cases hs : s.object.state = .opening
    · obtain ⟨hfields, hend⟩ := poll_opening hs hpoll
      rcases hend with e | e | ⟨rfl, e, hto, hne⟩
      · exact .unanswered id rfl hs hfields (Or.inl e)
      · exact .unanswered id rfl hs hfields (Or.inr e)
      · refine .agreed id rfl ?_ hs hfields e hne
        rw [hto]
        exact if_pos ⟨hs, rfl⟩
    · have hkeeps : Keeps s.object c' := by
        have hk := poll_keeps hs conn os
        rwa [hpoll] at hk
      exact .kept id ⟨rfl, if_neg fun h => hs h.1⟩ hkeeps

/-! ### Along a run -/

/-- A connection that nothing has been done with. -/
def Tracked.Initial (s : Tracked) : Prop := s.object.Initial ∧ s.asked = none ∧ s.agreed = none

/-- The call does not spoil the fields. -/
def Tracked.Spares (s : Tracked) (a : Call) : Prop := ¬ a.Spoils s.object

theorem settled_initial {s : Tracked} (h : s.Initial) : Settled s := by
  obtain ⟨hobject, -, -⟩ := h
  have hstate : s.object.state = .idle := by rw [hobject]
  refine ⟨?_, ?_, ?_⟩
  · intro hin
    rw [hobject] at hin
    exact absurd hin (by simp [ExplicitMessage.InFlight])
  · intro e
    rw [hstate] at e
    cases e
  · intro e
    rw [hstate] at e
    rcases e with e | e <;> cases e

theorem settled_step {s t : Tracked} {a : Call} (h : Settled s) (hok : s.Spares a) (hstep : s.step a = some t) :
    Settled t := by
  have hengaged := engaged_call h.engaged a
  have hout := call_outcome h.engaged a
  simp only [Tracked.step, Option.some.injEq] at hstep
  subst hstep
  generalize (s.object.call a).1 = st at hout ⊢
  generalize (s.object.call a).2 = c' at hout hengaged ⊢
  have hsame : s.Quiet st c' a → c' = s.object →
      Settled { object := c', asked := (a.asks st).or s.asked, agreed := (s.agrees st c' a).or s.agreed } := by
    rintro ⟨hasks, hagrees⟩ rfl
    rw [hasks, hagrees]
    exact h
  cases hout with
  | asked spares asks agrees fields state =>
    refine ⟨hengaged, ?_, ?_⟩
    · intro _
      simp [asks, fields.1, fields.2]
    · intro e
      simp [state] at e
  | stripped strips quiet spoils state lost =>
    rcases spoils with hc | hspoils
    · exact hsame quiet hc
    · exact absurd hspoils hok
  | same spares quiet object => exact hsame quiet object
  | kept spares quiet keeps =>
    obtain ⟨hot, hto, htag⟩ := keeps.fields
    refine ⟨hengaged, fun e => absurd e keeps.opening, fun e => ?_⟩
    obtain ⟨id, hid, hholds⟩ := h.settled (keeps.opened e)
    refine ⟨id, ?_, hot.trans hholds.otConnId, hto.trans hholds.toConnId, htag.trans hholds.tagName, hholds.nonzero⟩
    rw [quiet.2]
    exact hid
  | unanswered spares asks before fields state =>
    refine ⟨hengaged, ?_, ?_⟩
    · intro _
      rw [asks, fields.1, fields.2]
      exact h.opening before
    · intro e
      rcases state with e' | e' <;> simp [e'] at e
  | agreed spares asks agrees before fields state nonzero =>
    refine ⟨hengaged, ?_, ?_⟩
    · intro e
      simp [state] at e
    · intro _
      -- the response has agreed to what was asked for
      refine ⟨⟨c'.otConnId, c'.toConnId, c'.tagName⟩, ?_, rfl, rfl, rfl, nonzero⟩
      simp [agrees, h.opening before, fields.1, fields.2]

theorem settled_run {s₀ s : Tracked} {as : List Call} (h₀ : s₀.Initial)
    (h : Run Tracked.step Tracked.Spares s₀ as s) : Settled s :=
  h.invariant (fun _ _ _ hs hok hstep => settled_step hs hok hstep) (settled_initial h₀)

/-! ### What is sent of the fields -/

/-- The fields of an open connection are those of a Forward Open, and the next request over it and the request to
close it carry them. -/
structure Identified (c : Connection) (id : Identity) : Prop where
  holds : c.Holds id
  sends : ∀ sessionHandle service path pathLen data dataLen timeoutMs now c',
    c.send sessionHandle service path pathLen data dataLen timeoutMs now = (.pending, c') →
      c'.tx = connectedFrame sessionHandle c.context id.otConnId c.sequence service ((path.getD []).take pathLen)
        ((data.getD []).take dataLen) ∧ c'.Holds id
  closes : ∀ conn sessionHandle timeoutMs now c', c.close conn sessionHandle timeoutMs now = (.pending, c') →
    c'.fwd.tx = requestFrame sessionHandle c.fwd.context 0x4E managerPath (closeData id.tagName) ∧ c'.Holds id

theorem Holds.identified {c : Connection} {id : Identity} (h : c.Holds id) : Identified c id := by
  refine ⟨h, ?_, ?_⟩
  · intro sessionHandle service path pathLen data dataLen timeoutMs now c' hsend
    rcases send_cases hsend with ⟨-, hsent⟩ | ⟨he | he, -⟩
    · rw [hsent.made, ← h.otConnId]
      exact ⟨rfl, h.otConnId, h.toConnId, h.tagName, h.nonzero⟩
    · cases he.2
    · cases he
  · intro conn sessionHandle timeoutMs now c' hclose
    rcases close_cases hclose with ⟨-, hf⟩ | ⟨-, he, -⟩
    · rcases forward_cases hf with ⟨-, hsent⟩ | ⟨hne, -⟩
      · have hreq := (ExplicitMessage.send_accepted hsent.sent).tx
        simp only [Option.getD_some, List.take_length] at hreq
        refine ⟨?_, ?_⟩
        · rw [hreq, h.tagName]
        · rw [hsent.rest]
          exact ⟨h.otConnId, h.toConnId, h.tagName, h.nonzero⟩
      · exact absurd rfl hne
    · cases he

/-- In every run in which no call spoils the fields, an open connection has the fields of the last Forward Open that
completed `Ok`, and a call that is refused leaves the connection as it is if and only if it does not spoil them. -/
theorem identity_iff {s₀ s : Tracked} {as : List Call} (h₀ : s₀.Initial)
    (h : Run Tracked.step Tracked.Spares s₀ as s) :
    (s.object.isOpen → ∃ id, s.agreed = some id ∧ Identified s.object id) ∧
      ∀ a, Unharmed s.object a ↔ s.Spares a := by
  have hsettled := settled_run h₀ h
  constructor
  · intro hopen
    obtain ⟨id, hid, hholds⟩ := hsettled.settled (Or.inl (by simpa [isOpen] using hopen))
    exact ⟨id, hid, hholds.identified⟩
  · exact unharmed_iff hsettled.engaged

/-! ### A connection that is opened twice -/

/-- The response to a Forward Open with the ID 5. -/
def agreement : Reply :=
  { exchange := 1, service := 0xD4, data := [5, 0, 0, 0, 9, 0, 0, 0, 1, 0, 1, 0], fits := by decide }

/-- `open()` over a connection that is up. -/
def openCall : Call := .open { fd := 3, state := .ok } 7 (some [77]) 5000 0 5

/-- `poll()` that sends the request and gets the response. -/
def answerCall : Call :=
  .poll { fd := 3, state := .ok, sock := { inbox := agreement.frame } }
    { millis := fun _ => 1, sends := [.accepted 1000], recvs := [.data 1000, .data 1000] }

/-- `open()` with another name over a connection that is lost. -/
def lostCall : Call := .open {} 7 (some [78]) 5000 0 6

theorem identity_iff_opened :
    ∃ id, (after Tracked.step ⟨{}, none, none⟩ [openCall, answerCall]).agreed = some id ∧
      Identified (after Tracked.step ⟨{}, none, none⟩ [openCall, answerCall]).object id := by
  have hfirst : Tracked.Spares ⟨{}, none, none⟩ openCall := by
    simp [Tracked.Spares, Call.Spoils, openCall, TcpConnection.connected]
  have hrun : Run Tracked.step Tracked.Spares ⟨{}, none, none⟩ [openCall, answerCall]
      (after Tracked.step (after Tracked.step ⟨{}, none, none⟩ [openCall]) [answerCall]) :=
    .cons hfirst (step_after (by decide)) (.cons (fun h => h) (step_after (by decide)) (.nil _))
  have hinit : Tracked.Initial ⟨{}, none, none⟩ := ⟨rfl, rfl, rfl⟩
  exact (identity_iff hinit hrun).1 (by decide +kernel)

/-- A refused `open()` leaves an open connection without an ID. -/
theorem open_spoils :
    ¬ ∀ (s₀ s : Tracked) (as : List Call), s₀.Initial → Run Tracked.step always s₀ as s → s.object.isOpen →
      ∃ id, s.agreed = some id ∧ Identified s.object id := by
  intro hall
  obtain ⟨id, -, hid⟩ := hall ⟨{}, none, none⟩ _ [openCall, answerCall, lostCall] ⟨rfl, rfl, rfl⟩
    (run_after (by decide +kernel)) (by decide +kernel)
  have hzero : (after Tracked.step ⟨{}, none, none⟩ [openCall, answerCall, lostCall]).object.toConnId = 0 := by
    decide +kernel
  exact hid.holds.nonzero.2 (hid.holds.toConnId.symm.trans hzero)

end Connection

end ControlLogix
