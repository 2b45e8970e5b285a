import ControlLogix.Identity
import ControlLogix.Link
import ControlLogix.Parsing

/-!
# Replayed connected replies

A connected reply must echo the sender context of the request, the T->O ID of the connection and the sequence number.
The contexts of an object are counted over all its requests, so those of earlier requests are never taken for the
current one.

* `numbered_step`, `negotiated_step`: the contexts sent so far, and the T->O ID that the current open has negotiated;
* `Rejects`: a reply with the context of an earlier request, with another T->O ID or another sequence number makes the
  exchange fail, and changes nothing else;
* `rejects_iff`: that is so exactly when no `open()` has been refused on the open connection for want of a TCP
  connection.
-/

namespace ControlLogix

open Transition Bytes
open Buffers (Framed)

namespace Connection

/-! ### What a reply echoes -/

/-- The sequence number of a connected request. -/
def sequenceOf (frame : List UInt8) : UInt16 := getU16 (frame.drop 44)

section Frame

variable (session : UInt32) (context : UInt64) (connId : UInt32) (sequence : UInt16) (service : UInt8)
  {path data : List UInt8}

theorem sequenceOf_connectedFrame :
    sequenceOf (connectedFrame session context connId sequence service path data) = sequence := by
  have hdrop : (connectedFrame session context connId sequence service path data).drop 44 =
      putU16 sequence ++ ([service, UInt8.ofNat (path.length / 2)] ++ (path ++ data)) := by
    simp only [connectedFrame, List.append_assoc]
    rfl
  rw [sequenceOf, hdrop, getU16_putU16]

/-- The two items of a connected request. -/
theorem cpfItems_connectedFrame (hfits : 2 + path.length + data.length ≤ kMaxDataSize) :
    cpfItems (connectedFrame session context connId sequence service path data) =
      some [⟨0x00A1, putU32 connId⟩,
        ⟨0x00B1, putU16 sequence ++ ([service, UInt8.ofNat (path.length / 2)] ++ path ++ data)⟩] := by
  have hk : kMaxDataSize = 256 := rfl
  have hcip : ExplicitMessage.cipLength path.length data.length = 2 + path.length + data.length :=
    cipLength_small hfits
  generalize hitem : [service, UInt8.ofNat (path.length / 2)] ++ path ++ data = item
  have hsize : item.length = 2 + path.length + data.length := by
    rw [← hitem]
    simp only [List.length_append, List.length_cons, List.length_nil]
  -- what follows the number of items is the encoding of the two
  have hdrop : (connectedFrame session context connId sequence service path data).drop 32 =
      [(⟨0x00A1, putU32 connId⟩ : Tlv.Item), ⟨0x00B1, putU16 sequence ++ item⟩].flatMap
      (Tlv.Item.encode 2 2) ++ [] := by
    have hlen16 : (UInt16.ofNat (2 + item.length)).toNat = 2 + item.length := by
      rw [UInt16.toNat_ofNat']
      omega
    have hencoded : [(⟨0x00A1, putU32 connId⟩ : Tlv.Item), ⟨0x00B1, putU16 sequence ++ item⟩].flatMap
        (Tlv.Item.encode 2 2) ++ [] = putU16 0x00A1 ++ putU16 4 ++ putU32 connId ++ putU16 0x00B1 ++
          putU16 (UInt16.ofNat (2 + item.length)) ++ putU16 sequence ++ item := by
      simp only [List.flatMap_cons, List.flatMap_nil, Tlv.Item.encode, putU16_eq, hlen16, List.append_nil,
        List.append_assoc, List.length_append, length_leBytes, length_putU32]
      rfl
    rw [hencoded, hsize, ← hitem]
    simp only [connectedFrame, hcip, List.append_assoc]
    rfl
  have hcount : (getU16 ((connectedFrame session context connId sequence service path data).drop 30)).toNat = 2 := by
    have hat : (connectedFrame session context connId sequence service path data).drop 30 =
        putU16 2 ++ (connectedFrame session context connId sequence service path data).drop 32 := by
      simp only [connectedFrame, List.append_assoc]
      rfl
    rw [hat, getU16_putU16]
    rfl
  have hall : ∀ i ∈ [(⟨0x00A1, putU32 connId⟩ : Tlv.Item), ⟨0x00B1, putU16 sequence ++ item⟩], i.Fits 2 2 := by
    intro i hi
    simp only [List.mem_cons, List.not_mem_nil, or_false] at hi
    rcases hi with rfl | rfl
    · have htype : 0x00A1 < 256 ^ 2 := by decide
      refine ⟨htype, ?_⟩
      show (putU32 connId).length < 256 ^ 2
      simp
    · have htype : 0x00B1 < 256 ^ 2 := by decide
      refine ⟨htype, ?_⟩
      show (putU16 sequence ++ item).length < 256 ^ 2
      rw [List.length_append, length_putU16]
      omega
  have hdecode : Tlv.decode 2 2 2 ((connectedFrame session context connId sequence service path data).drop 32) =
      some ([⟨0x00A1, putU32 connId⟩, ⟨0x00B1, putU16 sequence ++ item⟩], []) := by
    rw [hdrop]
    exact Tlv.decode_encode hall []
  rw [cpfItems, hcount, hdecode, Option.map_some]

end Frame

/-! ### The object and its history -/

/-- A connection with what its Forward Opens have asked for and agreed on, the frames of the requests accepted so far,
and whether an `open()` has made it forget its T->O ID. -/
structure Audited extends Tracked where
  sent : List (List UInt8) := []
  forgotten : Bool := false

/-- The frame of an accepted request. -/
def Call.sends (st : Status) (c : Connection) : Call → List (List UInt8)
  | .send .. => if st = .pending then [c.tx] else []
  | _ => []

/-- `open()` of an open connection, with a name that fits, over a TCP connection that is down. -/
def Call.Forgets (c : Connection) : Call → Prop
  | .open conn _ (some tagName) _ _ _ => c.state = .open ∧ tagName.length < kTagNameSize ∧ conn.connected = false
  | _ => False

instance decidableForgets (c : Connection) : (a : Call) → Decidable (a.Forgets c)
  | .open _ _ (some _) _ _ _ => inferInstanceAs (Decidable (_ ∧ _ ∧ _))
  | .open _ _ none _ _ _ | .send .. | .close .. | .poll .. => .isFalse id

def Audited.step (s : Audited) (a : Call) : Option Audited :=
  let (st, c) := s.object.call a
  some
    { object := c
      asked := (a.asks st).or s.asked
      agreed := (s.agrees st c a).or s.agreed
      sent := s.sent ++ a.sends st c
      forgotten := if a.Forgets s.object then true else if (a.asks st).isSome then false else s.forgotten }

structure Audited.Initial (s : Audited) : Prop where
  tracked : s.toTracked.Initial
  sent : s.sent = []
  forgotten : s.forgotten = false

/-- A whole reply that must not be taken for the response to the current request: it echoes the context of an earlier
request, or its last connected-address item has another ID than the one the current open has negotiated, or its last
connected-data item another sequence number than the current request. -/
inductive Foreign (s : Audited) (frame : List UInt8) : Prop where
  | replayed {f : List UInt8} (earlier : f ∈ s.sent.dropLast)
      (echoes : (decodeHeader frame).context = (decodeHeader f).context)
  | misrouted {id : Identity} {items : List Tlv.Item} {address : List UInt8} (agreed : s.agreed = some id)
      (decoded : cpfItems frame = some items) (last : Tlv.last? 0x00A1 items = some address)
      (other : getU32 address ≠ id.toConnId)
  | late {items : List Tlv.Item} {content f : List UInt8} (decoded : cpfItems frame = some items)
      (last : Tlv.last? 0x00B1 items = some content) (current : s.sent.getLast? = some f)
      (other : getU16 content ≠ sequenceOf f)

/-- Such a reply makes the exchange fail, and changes nothing but the received bytes. -/
structure Rejects (s : Audited) : Prop where
  parse : ∀ b : Buffers, b.Whole → Foreign s b.response →
    { s.object with toBuffers := b }.parseConnectedResponse = (.error, { s.object with toBuffers := b })
  fails : ∀ (conn : TcpConnection) (os : Platform) (b : Buffers) (conn' : TcpConnection),
    expired (os.millis 0) s.object.deadline = false →
    s.object.toBuffers.exchange (22 + kMaxDataSize) conn os = (.ok, b, conn') → Foreign s b.response →
      s.object.poll conn os = (.error, { s.object with toBuffers := b, state := .failed }, conn')

/-! ### Contexts and sequence numbers -/

/-- What a call that starts no connected request leaves of the one that is going on. -/
structure Continues (c c' : Connection) : Prop where
  context : c'.context = c.context
  sending : c'.state = .sending → c.state = .sending ∧ c'.sentContext = c.sentContext ∧
    c'.sentSequence = c.sentSequence ∧
    (Framed (22 + kMaxDataSize) c.toBuffers → Framed (22 + kMaxDataSize) c'.toBuffers)

private theorem Continues.refl (c : Connection) : Continues c c := ⟨rfl, fun h => ⟨h, rfl, rfl, fun hf => hf⟩⟩

/-- A call that ends up in another state than `Sending`. -/
private theorem Continues.of_state {c c' : Connection} (h : c'.context = c.context) (hs : c'.state ≠ .sending) :
    Continues c c' :=
  ⟨h, fun e => absurd e hs⟩

private theorem continues_forward {c c' : Connection} {conn : TcpConnection} {sessionHandle timeoutMs now : UInt32}
    {service : UInt8} {data : List UInt8} {next : State} {st : Status} (hnext : next ≠ .sending)
    (h : c.forward conn sessionHandle service data timeoutMs now next = (st, c')) : Continues c c' := by
  rcases forward_cases h with ⟨-, hf⟩ | ⟨-, rfl, -⟩
  · rw [hf.rest]
    exact .of_state rfl hnext
  · exact .refl c'

private theorem continues_pollForward {finish : Connection → Status × Connection}
    (hfinish : ∀ c, (finish c).2.context = c.context ∧ (finish c).2.state ≠ .sending) {c : Connection}
    (hs : c.state ≠ .sending) (conn : TcpConnection) (os : Platform) :
    Continues c (pollForward finish c conn os).2.1 := by
  obtain ⟨st, fwd, conn', -, hr⟩ := pollForward_cases finish c conn os
  rcases hr with ⟨-, hr⟩ | ⟨-, hr⟩ | ⟨-, -, hr⟩
  · rw [hr]
    exact .of_state rfl hs
  · rw [hr]
    exact .of_state (hfinish _).1 (hfinish _).2
  · rw [hr]
    exact .of_state rfl nofun

private theorem continues_sending {c : Connection} (hs : c.state = .sending) (conn : TcpConnection) (os : Platform) :
    Continues c (c.pollSending conn os).2.1 := by
  unfold pollSending
  split
  · exact .of_state rfl nofun
  · split
    · rename_i b₁ conn₁ hw
      split
      · rename_i b₂ conn₂ hr
        -- the response is not complete yet
        refine ⟨rfl, fun _ => ⟨hs, rfl, rfl, fun hf => ?_⟩⟩
        obtain ⟨x, hgot⟩ := Buffers.readResponse_spec ((Buffers.writePending_spec hw).framed hf) hr
        exact hgot.live (Or.inr rfl)
      · rename_i b₂ conn₂ hr
        dsimp only
        refine .of_state ?_ ?_
        · unfold parseConnectedResponse
          split <;> rfl
        · dsimp only
          split <;> nofun
      · exact .of_state rfl nofun
    · rename_i b₁ conn₁ hw
      exact ⟨rfl, fun _ => ⟨hs, rfl, rfl, fun hf => (Buffers.writePending_spec hw).framed hf⟩⟩
    · exact .of_state rfl nofun

private theorem finishOpen_continues (c : Connection) :
    c.finishOpen.2.context = c.context ∧ c.finishOpen.2.state ≠ .sending := by
  rcases c.finishOpen_cases with ⟨-, h⟩ | ⟨-, h⟩
  · rw [h]
    exact ⟨rfl, nofun⟩
  · rw [h]
    exact ⟨rfl, nofun⟩

/-- Only an accepted `send()` takes a context and a sequence number. -/
theorem call_continues (c : Connection) {a : Call} (ha : a.sends (c.call a).1 (c.call a).2 = []) :
    Continues c (c.call a).2 := by
  cases a with
  | «open» conn sessionHandle tagName timeoutMs now random =>
    obtain ⟨st, c', hopen⟩ : ∃ st c', c.open conn sessionHandle tagName timeoutMs now random = (st, c') := ⟨_, _, rfl⟩
    rw [call, hopen]
    rcases open_cases hopen with ⟨name, -, -, -, hf⟩ | ⟨-, rfl⟩
    · have hne : State.opening ≠ .sending := by decide
      have hcont := continues_forward hne hf
      exact ⟨hcont.context, hcont.sending⟩
    · exact .refl c'
  | send sessionHandle service path pathLen data dataLen timeoutMs now =>
    obtain ⟨st, c', hsend⟩ : ∃ st c', c.send sessionHandle service path pathLen data dataLen timeoutMs
      now = (st, c') :=
      ⟨_, _, rfl⟩
    rw [call, hsend] at ha ⊢
    rcases send_cases hsend with ⟨rfl, -⟩ | ⟨-, rfl⟩
    · simp [Call.sends] at ha
    · exact .refl c'
  | close conn sessionHandle timeoutMs now =>
    obtain ⟨st, c', hclose⟩ : ∃ st c', c.close conn sessionHandle timeoutMs now = (st, c') := ⟨_, _, rfl⟩
    rw [call, hclose]
    rcases close_cases hclose with ⟨-, hf⟩ | ⟨-, -, rfl⟩
    · have hne : State.closing ≠ .sending := by decide
      exact continues_forward hne hf
    · exact .refl c'
  | poll conn os =>
    show Continues c (c.poll conn os).2.1
    by_cases hin : c.InFlight
    · rcases hin with hs | hs | hs
      · have hpoll : c.poll conn os = pollForward finishOpen c conn os := by
          rw [poll, hs]
          rfl
        rw [hpoll]
        exact continues_pollForward finishOpen_continues (by simp [hs]) conn os
      · have hpoll : c.poll conn os = c.pollSending conn os := by rw [poll, hs]
        rw [hpoll]
        exact continues_sending hs conn os
      · have hpoll : c.poll conn os = pollForward finishClose c conn os := by
          rw [poll, hs]
          rfl
        rw [hpoll]
        exact continues_pollForward (fun c => ⟨rfl, by simp [finishClose]⟩) (by simp [hs]) conn os
    · rw [poll_rest hin]
      exact .refl c

/-- The contexts of the requests are counted from 1, and the object waits for the response to the last one. -/
structure Numbered (s : Audited) : Prop where
  context : s.object.context = UInt64.ofNat (s.sent.length + 1)
  contexts : ∀ k f, s.sent[k]? = some f → (decodeHeader f).context = UInt64.ofNat (k + 1)
  current : s.object.state = .sending → ∃ f, s.sent.getLast? = some f ∧
    (decodeHeader f).context = s.object.sentContext ∧ sequenceOf f = s.object.sentSequence
  framed : s.object.state = .sending → Framed (22 + kMaxDataSize) s.object.toBuffers

theorem numbered_initial {s : Audited} (h : s.Initial) : Numbered s := by
  obtain ⟨⟨hobject, -, -⟩, hsent, -⟩ := h
  have hstate : s.object.state = .idle := by rw [hobject]
  refine ⟨?_, ?_, by simp [hstate], by simp [hstate]⟩
  · rw [hobject, hsent]
    rfl
  · intro k f hf
    rw [hsent] at hf
    cases hf

/-- A call that starts no connected request. -/
private theorem Numbered.continues {s t : Audited} (h : Numbered s) (hc : Continues s.object t.object)
    (hsent : t.sent = s.sent) : Numbered t := by
  refine ⟨?_, ?_, ?_, ?_⟩
  · rw [hc.context, hsent]
    exact h.context
  · rw [hsent]
    exact h.contexts
  · intro hs
    obtain ⟨hold, hcontext, hsequence, -⟩ := hc.sending hs
    rw [hsent, hcontext, hsequence]
    exact h.current hold
  · intro hs
    obtain ⟨hold, -, -, hframed⟩ := hc.sending hs
    exact hframed (h.framed hold)

/-- An accepted `send()` takes the next context. -/
private theorem Numbered.sends {s t : Audited} {sessionHandle timeoutMs now : UInt32} {service : UInt8}
    {path data : Option (List UInt8)} {pathLen dataLen : Nat} (h : Numbered s)
    (hmade : Sent s.object sessionHandle service path pathLen data dataLen timeoutMs now t.object)
    (hsent : t.sent = s.sent ++ [t.object.tx]) : Numbered t := by
  have hframe : (decodeHeader t.object.tx).context = s.object.context ∧
    sequenceOf t.object.tx = s.object.sequence := by
    rw [hmade.made]
    dsimp only
    rw [decode_connectedFrame, sequenceOf_connectedFrame]
    exact ⟨rfl, rfl⟩
  refine ⟨?_, ?_, ?_, ?_⟩
  · rw [hsent, hmade.made, List.length_append]
    show s.object.context + 1 = UInt64.ofNat (s.sent.length + 1 + 1)
    rw [h.context, UInt64.ofNat_add (s.sent.length + 1) 1]
    rfl
  · intro k f hf
    rw [hsent] at hf
    by_cases hk : k < s.sent.length
    · rw [List.getElem?_append_left hk] at hf
      exact h.contexts k f hf
    · rw [List.getElem?_append_right (Nat.le_of_not_lt hk)] at hf
      have hlast : k - s.sent.length = 0 := by
        have hlt := (List.getElem?_eq_some_iff.1 hf).1
        simp only [List.length_cons, List.length_nil] at hlt
        omega
      rw [hlast] at hf
      obtain rfl := Option.some.inj hf
      have hk' : k = s.sent.length := by omega
      rw [hframe.1, h.context, hk']
  · intro _
    refine ⟨t.object.tx, by rw [hsent, List.getLast?_concat], ?_, ?_⟩
    · rw [hframe.1, hmade.made]
    · rw [hframe.2, hmade.made]
  · intro _
    rw [hmade.made]
    exact ⟨Nat.zero_le _, Nat.zero_le _, fun _ => rfl, fun h24 => absurd h24 (by simp)⟩

theorem numbered_step {s t : Audited} {a : Call} (h : Numbered s) (hstep : s.step a = some t) : Numbered t := by
  cases hstep
  -- every call but an accepted `send()` goes on with the request there is
  by_cases ha : a.sends (s.object.call a).1 (s.object.call a).2 = []
  · refine h.continues (call_continues s.object ha) ?_
    show s.sent ++ a.sends (s.object.call a).1 (s.object.call a).2 = s.sent
    rw [ha, List.append_nil]
  · cases a with
    | send sessionHandle service path pathLen data dataLen timeoutMs now =>
      obtain ⟨st, c', hsend⟩ : ∃ st c', s.object.send sessionHandle service path pathLen data dataLen timeoutMs now =
        (st, c') := ⟨_, _, rfl⟩
      rcases send_cases hsend with ⟨rfl, hmade⟩ | ⟨hrefused, -⟩
      · simp only [hsend]
        exact h.sends hmade rfl
      · refine absurd ?_ ha
        show Call.sends (s.object.send sessionHandle service path pathLen data dataLen timeoutMs now).1 _ _ = []
        rw [hsend]
        rcases hrefused with ⟨-, rfl⟩ | rfl
        · rfl
        · rfl
    | «open» => exact absurd rfl ha
    | close => exact absurd rfl ha
    | poll => exact absurd rfl ha

/-! ### The negotiated ID -/

/-- What the current open has negotiated, and what the object holds of it. -/
structure Negotiated (s : Audited) : Prop where
  engaged : s.object.Engaged
  opening : s.object.state = .opening → (∃ q, s.asked = some q) ∧ s.forgotten = false
  agreed : s.object.state = .open ∨ s.object.state = .sending → ∃ id, s.agreed = some id ∧ id.toConnId ≠ 0 ∧
    s.object.toConnId = if s.forgotten then 0 else id.toConnId

theorem negotiated_initial {s : Audited} (h : s.Initial) : Negotiated s := by
  obtain ⟨hobject, -, -⟩ := h.tracked
  have hstate : s.object.state = .idle := by rw [hobject]
  refine ⟨?_, by simp [hstate], by simp [hstate]⟩
  intro hin
  rw [hobject] at hin
  exact absurd hin (by simp [ExplicitMessage.InFlight])

theorem forgets_iff {c : Connection} {a : Call} : a.Forgets c ↔ a.Strips c ∧ c.state = .open := by
  cases a with
  | «open» conn sessionHandle tagName timeoutMs now random =>
    cases tagName with
    | none => exact ⟨False.elim, fun h => h.1⟩
    | some tagName =>
      constructor
      · rintro ⟨hopened, hlen, hdown⟩
        exact ⟨⟨hlen, by simp [InFlight, hopened], hdown⟩, hopened⟩
      · rintro ⟨⟨hlen, -, hdown⟩, hopened⟩
        exact ⟨hopened, hlen, hdown⟩
  | send => exact ⟨False.elim, fun h => h.1⟩
  | close => exact ⟨False.elim, fun h => h.1⟩
  | poll => exact ⟨False.elim, fun h => h.1⟩

/-- What strips a connection of its fields is an `open()` without an exchange going on. -/
theorem Call.Strips.rest {c : Connection} {a : Call} (h : a.Strips c) : ¬ c.InFlight := by
  cases a with
  | «open» conn sessionHandle tagName timeoutMs now random =>
    cases tagName with
    | none => exact absurd h id
    | some tagName => exact h.2.1
  | send => exact absurd h id
  | close => exact absurd h id
  | poll => exact absurd h id

theorem negotiated_step {s t : Audited} {a : Call} (h : Negotiated s) (hstep : s.step a = some t) : Negotiated t := by
  have hengaged := engaged_call h.engaged a
  have hout := call_outcome (s := s.toTracked) h.engaged a
  simp only [Audited.step, Option.some.injEq] at hstep
  subst hstep
  generalize (s.object.call a).1 = st at hout ⊢
  generalize (s.object.call a).2 = c' at hout hengaged ⊢
  have hspared : ¬ a.Strips s.object → ¬ a.Forgets s.object := fun hs hf => hs (forgets_iff.1 hf).1
  cases hout with
  | asked spares asks agrees fields state =>
    refine ⟨hengaged, ?_, ?_⟩
    · intro _
      simp [hspared spares, asks]
    · intro e
      simp [state] at e
  | stripped strips quiet spoils state lost =>
    -- an open connection loses its ID
    refine ⟨hengaged, ?_, ?_⟩
    · intro e
      exact absurd (Or.inl (state.symm.trans e)) strips.rest
    · intro e
      have hopened : s.object.state = .open := by
        rcases e with e | e
        · exact state.symm.trans e
        · exact absurd (Or.inr (Or.inl (state.symm.trans e))) strips.rest
      obtain ⟨id, hid, hnonzero, -⟩ := h.agreed (Or.inl hopened)
      refine ⟨id, ?_, hnonzero, ?_⟩
      · rw [quiet.2]
        exact hid
      · rw [if_pos (if_pos (forgets_iff.2 ⟨strips, hopened⟩))]
        exact lost
  | same spares quiet object =>
    subst object
    simp only [hspared spares, quiet.1, quiet.2, Option.none_or, ↓reduceIte, Option.isSome_none, Bool.false_eq_true]
    exact ⟨h.engaged, h.opening, h.agreed⟩
  | kept spares quiet keeps =>
    refine ⟨hengaged, fun e => absurd e keeps.opening, fun e => ?_⟩
    obtain ⟨id, hid, hnonzero, hheld⟩ := h.agreed (keeps.opened e)
    refine ⟨id, ?_, hnonzero, ?_⟩
    · rw [quiet.2]
      exact hid
    · simp only [hspared spares, quiet.1, ↓reduceIte, Option.isSome_none, Bool.false_eq_true]
      exact keeps.fields.2.1.trans hheld
  | unanswered spares asks before fields state =>
    refine ⟨hengaged, ?_, ?_⟩
    · intro _
      simp only [hspared spares, asks, Option.none_or, ↓reduceIte, Option.isSome_none, Bool.false_eq_true]
      exact h.opening before
    · intro e
      rcases state with e' | e' <;> simp [e'] at e
  | agreed spares asks agrees before fields state nonzero =>
    -- the response has agreed to an ID
    obtain ⟨⟨q, hasked⟩, hforgotten⟩ := h.opening before
    refine ⟨hengaged, ?_, ?_⟩
    · intro e
      simp [state] at e
    · intro _
      refine ⟨⟨q.1, c'.toConnId, q.2⟩, ?_, nonzero.2, ?_⟩
      · simp [agrees, hasked]
      · simp [hspared spares, asks, hforgotten]

theorem audited_run {s₀ s : Audited} {as : List Call} (h₀ : s₀.Initial) (h : Run Audited.step always s₀ as s) :
    Numbered s ∧ Negotiated s :=
  h.invariant (I := fun s => Numbered s ∧ Negotiated s)
    (fun _ _ _ hs _ hstep => ⟨numbered_step hs.1 hstep, negotiated_step hs.2 hstep⟩)
    ⟨numbered_initial h₀, negotiated_initial h₀⟩

/-! ### What is rejected -/

/-- A reply that must not be taken is none to the current request, while the object still has its ID. -/
theorem Foreign.not_connected {s : Audited} {frame : List UInt8} (hf : Foreign s frame) (hn : Numbered s)
    (hg : Negotiated s) (hfew : s.sent.length < 2 ^ 64) (hs : s.object.state = .sending) (hkept : s.forgotten = false)
    (cip : List UInt8) :
    ¬ Connected s.object.sentContext s.object.toConnId s.object.sentSequence frame cip := by
  rintro ⟨ha, items, address, content, hitems, -, hadr, hto, hcon, -, hseq, -⟩
  obtain ⟨g, hlast, hcontext, hsequence⟩ := hn.current hs
  cases hf with
  | @replayed f hearlier hechoes =>
    -- the request before was the `k`-th one, with a smaller context
    obtain ⟨k, hk, hget⟩ := List.mem_iff_getElem.1 hearlier
    have hsmaller : k < s.sent.length - 1 := by
      rw [← List.length_dropLast]
      exact hk
    have hsize : UInt64.size = 2 ^ 64 := rfl
    have hold : (decodeHeader f).context = UInt64.ofNat (k + 1) := by
      refine hn.contexts k f ?_
      rw [← hget, List.getElem_dropLast]
      exact List.getElem?_eq_getElem (by omega)
    have hnew : (decodeHeader g).context = UInt64.ofNat (s.sent.length - 1 + 1) := by
      refine hn.contexts (s.sent.length - 1) g ?_
      rw [← hlast, List.getLast?_eq_getElem?]
    have heq : UInt64.ofNat (k + 1) = UInt64.ofNat (s.sent.length - 1 + 1) := by
      rw [← hold, ← hnew, hcontext, ← ha.context, hechoes]
    have hnat := congrArg UInt64.toNat heq
    rw [UInt64.toNat_ofNat_of_lt' (by omega), UInt64.toNat_ofNat_of_lt' (by omega)] at hnat
    omega
  | @misrouted id items' address' hagreed hdecoded haddress hother =>
    obtain rfl := Option.some.inj (hitems.symm.trans hdecoded)
    obtain rfl := Option.some.inj (hadr.symm.trans haddress)
    obtain ⟨id', hid, -, hheld⟩ := hg.agreed (Or.inr hs)
    obtain rfl := Option.some.inj (hagreed.symm.trans hid)
    refine hother (hto.trans ?_)
    simpa [hkept] using hheld
  | @late items' content' f hdecoded hcontent hcurrent hother =>
    obtain rfl := Option.some.inj (hitems.symm.trans hdecoded)
    obtain rfl := Option.some.inj (hcon.symm.trans hcontent)
    obtain rfl := Option.some.inj (hlast.symm.trans hcurrent)
    exact hother (hseq.trans hsequence.symm)

theorem parse_none {c : Connection} (hw : c.Whole)
    (h : ∀ cip, ¬ Connected c.sentContext c.toConnId c.sentSequence c.response cip) :
    c.parseConnectedResponse = (.error, c) := by
  rcases @parse_connected c.rx c.rxLen c.sentContext c.toConnId c.sentSequence hw.header hw.fits with
    ⟨hparse, -⟩ | ⟨r, cip, -, hconn, -⟩
  · rw [parseConnectedResponse, hparse]
  · exact absurd hconn (h cip)

/-- A whole reply that is not parsed ends the exchange. -/
theorem pollSending_rejected {c : Connection} {conn conn' : TcpConnection} {os : Platform} {b : Buffers}
    (ht : expired (os.millis 0) c.deadline = false)
    (hx : c.toBuffers.exchange (22 + kMaxDataSize) conn os = (.ok, b, conn'))
    (h : { c with toBuffers := b }.parseConnectedResponse = (.error, { c with toBuffers := b })) :
    c.pollSending conn os = (.error, { c with toBuffers := b, state := .failed }, conn') := by
  unfold pollSending
  rw [if_neg (by simp [ht])]
  unfold Buffers.exchange at hx
  split at hx
  · rename_i b₁ conn₁ hw
    simp only [hw, hx, h]
    rfl
  · rename_i hne
    exact absurd hx (hne b conn')

theorem exchange_whole {c : Connection} {conn conn' : TcpConnection} {os : Platform} {b : Buffers}
    (hf : Framed (22 + kMaxDataSize) c.toBuffers)
    (hx : c.toBuffers.exchange (22 + kMaxDataSize) conn os = (.ok, b, conn')) : b.Whole := by
  unfold Buffers.exchange at hx
  split at hx
  · rename_i b₁ conn₁ hw
    exact Buffers.readResponse_whole ((Buffers.writePending_spec hw).framed hf) hx
  · rename_i hne
    exact absurd hx (hne b conn')

/-- A response with the ID 0. -/
def forged (c : Connection) : List UInt8 := connectedFrame 0 c.sentContext 0 c.sentSequence 0xCC [] [0, 0]

theorem forged_connected (c : Connection) :
    Connected c.sentContext 0 c.sentSequence (forged c) [0xCC, 0, 0, 0] := by
  have hlen : (forged c).length = 50 := length_connectedFrame _ _ _ _ _ _ _
  have hhead : decodeHeader (forged c) = connectedHeader 0 c.sentContext 4 := decode_connectedFrame _ _ _ _ _ _ _
  have hitems := @cpfItems_connectedFrame 0 c.sentContext 0 c.sentSequence 0xCC [] [0, 0] (by decide)
  -- all that the parser asks for, with the ID 0
  refine ⟨⟨?_, ?_, ?_, ?_, ?_⟩, _, putU32 0, putU16 c.sentSequence ++ [0xCC, 0, 0, 0], hitems, ?_, ?_, ?_, ?_,
    ?_, ?_, ?_⟩
  · rw [hlen]
    decide
  · rw [hhead]
    rfl
  · rw [hhead]
    rfl
  · rw [hhead]
    rfl
  · rw [List.length_drop, hlen]
    decide
  · intro i hi htype
    simp only [List.mem_cons, List.not_mem_nil, or_false] at hi
    rcases hi with rfl | rfl
    · simp
    · cases htype
  · rfl
  · exact getU32_putU32 0 []
  · rfl
  · simp
  · exact getU16_putU16 _ _
  · rfl

/-- An object that has forgotten its ID takes such a response. -/
theorem forged_taken {s : Audited} (hg : Negotiated s) (hs : s.object.state = .sending) (hlost : s.forgotten = true) :
    ¬ Rejects s := by
  intro hr
  obtain ⟨id, hid, hnonzero, hheld⟩ := hg.agreed (Or.inr hs)
  have hzero : s.object.toConnId = 0 := by simpa [hlost] using hheld
  have hlen : (forged s.object).length = 50 := length_connectedFrame _ _ _ _ _ _ _
  let b : Buffers := { s.object.toBuffers with rx := forged s.object, rxLen := 50 }
  have hwhole : b.Whole := by
    refine ⟨?_, Nat.le_of_eq hlen.symm⟩
    show 24 ≤ 50
    omega
  have hresponse : b.response = forged s.object := List.take_of_length_le (Nat.le_of_eq hlen)
  have hconn := forged_connected s.object
  have hforeign : Foreign s b.response := by
    obtain ⟨-, items, address, content, hitems, -, hadr, hto, -⟩ := hconn
    rw [hresponse]
    exact .misrouted hid hitems hadr (fun e => hnonzero (e.symm.trans hto))
  -- the same frame is rejected as misrouted and accepted as a response
  have herror := hr.parse b hwhole hforeign
  rcases @parse_connected b.rx b.rxLen s.object.sentContext s.object.toConnId s.object.sentSequence hwhole.header
    hwhole.fits with ⟨-, hnone⟩ | ⟨r, cip, hparse, -⟩
  · refine hnone [0xCC, 0, 0, 0] ?_
    show Connected s.object.sentContext s.object.toConnId s.object.sentSequence b.response [0xCC, 0, 0, 0]
    rw [hzero, hresponse]
    exact hconn
  · have hok : { s.object with toBuffers := b }.parseConnectedResponse =
        (.ok, { s.object with toBuffers := b }.respond r) := by
      unfold parseConnectedResponse
      dsimp only
      rw [hparse]
    rw [hok] at herror
    cases herror

/-- In every run of fewer than 2^64 requests, an object that waits for a response rejects every one that echoes the
context of an earlier request, another T->O ID or another sequence number, if and only if no `open()` has made it
forget its ID. -/
theorem rejects_iff {s₀ s : Audited} {as : List Call} (h₀ : s₀.Initial) (h : Run Audited.step always s₀ as s)
    (hfew : s.sent.length < 2 ^ 64) (hs : s.object.state = .sending) : Rejects s ↔ s.forgotten = false := by
  obtain ⟨hn, hg⟩ := audited_run h₀ h
  constructor
  · intro hr
    by_contra hlost
    exact forged_taken hg hs (by simpa using hlost) hr
  · intro hkept
    have hparse : ∀ b : Buffers, b.Whole → Foreign s b.response →
        { s.object with toBuffers := b }.parseConnectedResponse = (.error, { s.object with toBuffers := b }) :=
      fun b hw hf => parse_none hw (hf.not_connected hn hg hfew hs hkept)
    refine ⟨hparse, ?_⟩
    intro conn os b conn' ht hx hf
    have hpoll : s.object.poll conn os = s.object.pollSending conn os := by rw [poll, hs]
    rw [hpoll]
    exact pollSending_rejected ht hx (hparse b (exchange_whole (hn.framed hs) hx) hf)

/-! ### Runs that are rejected, and one that is not -/

/-- A request of two bytes over an open connection. -/
def sendCall : Call := .send 7 0x4C (some []) 0 (some [1, 0]) 2 5000 2

theorem rejects_iff_opened :
    Rejects (after Audited.step ⟨⟨{}, none, none⟩, [], false⟩ [openCall, answerCall, sendCall]) := by
  have hinit : Audited.Initial ⟨⟨{}, none, none⟩, [], false⟩ := ⟨⟨rfl, rfl, rfl⟩, rfl, rfl⟩
  have hrun : Run Audited.step always ⟨⟨{}, none, none⟩, [], false⟩ [openCall, answerCall, sendCall]
      (after Audited.step ⟨⟨{}, none, none⟩, [], false⟩ [openCall, answerCall, sendCall]) :=
    run_after (by decide +kernel)
  exact (rejects_iff hinit hrun (by decide +kernel) (by decide +kernel)).2 (by decide +kernel)

/-- After a refused `open()` a response with the ID 0 is taken, although another one was agreed on. -/
theorem forgotten_accepts :
    ¬ ∀ (s₀ s : Audited) (as : List Call), s₀.Initial → Run Audited.step always s₀ as s → s.sent.length < 2 ^ 64 →
      s.object.state = .sending → Rejects s := by
  intro hall
  have hinit : Audited.Initial ⟨⟨{}, none, none⟩, [], false⟩ := ⟨⟨rfl, rfl, rfl⟩, rfl, rfl⟩
  have hrun : Run Audited.step always ⟨⟨{}, none, none⟩, [], false⟩ [openCall, answerCall, lostCall, sendCall]
      (after Audited.step ⟨⟨{}, none, none⟩, [], false⟩ [openCall, answerCall, lostCall, sendCall]) :=
    run_after (by decide +kernel)
  have hlost : (after Audited.step ⟨⟨{}, none, none⟩, [], false⟩
      [openCall, answerCall, lostCall, sendCall]).forgotten = true := by decide +kernel
  exact forged_taken (audited_run hinit hrun).2 (by decide +kernel) hlost
    (hall _ _ _ hinit hrun (by decide +kernel) (by decide +kernel))

end Connection

end ControlLogix
