import ControlLogix.Link
import ControlLogix.Transition

/-!
# A connection and its target

A `Lifecycle` is one `Connection` object and the target at the other end, which adds a connection for every Forward
Open it answers with general status 0 and removes one for every Forward Close it answers so.

* `Matched`: with no exchange in flight, an open object has one connection at the target, and a closed one has none;
* `matched_kept`: a run keeps to that as long as `open()` is accepted only when the target holds no connection, the
  target refuses no Forward Close, and every answer is a frame that fits (`Kept`);
* `not_matched`: a refused Forward Close leaves a closed object with a connection, a second `open()` an open one with
  two.
-/

namespace ControlLogix

open Transition
open Buffers (bodyLength received)
open Link (Asking Answered Ended Quiet)

structure Lifecycle where
  c : Connection := {}
  link : Link
  held : Nat := 0

namespace Lifecycle

inductive Act where
  | open (sessionHandle : UInt32) (tagName : Option (List UInt8)) (timeoutMs now random : UInt32)
  | send (sessionHandle : UInt32) (service : UInt8) (path : Option (List UInt8)) (pathLen : Nat)
      (data : Option (List UInt8)) (dataLen : Nat) (timeoutMs now : UInt32)
  | close (sessionHandle timeoutMs now : UInt32)
  | poll (os : Platform)
  /-- The target answers a SendRRData request. -/
  | answer (r : Reply)
  /-- The target answers a SendUnitData request, with any bytes. -/
  | respond (reply : List UInt8)
  | deliver (k : Nat)

/-- The deadline of the exchange that is going on. -/
def deadline (c : Connection) : UInt32 := if c.state = .sending then c.deadline else c.fwd.deadline

/-- The CIP service of a SendRRData request, which follows the header and the items. -/
def service (request : List UInt8) : UInt8 := request.getD 40 0

theorem service_requestFrame (session : UInt32) (context : UInt64) (code : UInt8) (path data : List UInt8) :
    service (ExplicitMessage.requestFrame session context code path data) = code := by
  simp only [service, ExplicitMessage.requestFrame]
  generalize hcip : ExplicitMessage.cipLength path.length data.length = cipLen
  rw [List.append_assoc, List.append_assoc, List.getD_eq_getElem?_getD, List.getElem?_append_right]
  · simp [kEncapsulationHeaderSize]
  · simp [kEncapsulationHeaderSize]

/-- The connections the target holds when it has answered `request` with general status `status`. -/
def settle (held : Nat) (request : List UInt8) (status : UInt8) : Nat :=
  if status ≠ 0 then held
  else if service request = 0x54 then held + 1
  else if service request = 0x4E then held - 1
  else held

/-- A reply that echoes the context of the request. -/
def echo (request : List UInt8) (r : Reply) : Reply := { r with exchange := (decodeHeader request).context.toNat }

/-- No call of `poll()` comes after the deadline or finds the transport failed, and the caller's buffers are as long
as it says. -/
def step (d : Lifecycle) : Act → Option Lifecycle
  | .open sessionHandle tagName timeoutMs now random =>
    some { d with c := (d.c.open d.link.conn sessionHandle tagName timeoutMs now random).2 }
  | .send sessionHandle service path pathLen data dataLen timeoutMs now =>
    if ExplicitMessage.Backed path pathLen data dataLen then
      some { d with c := (d.c.send sessionHandle service path pathLen data dataLen timeoutMs now).2 }
    else none
  | .close sessionHandle timeoutMs now =>
    some { d with c := (d.c.close d.link.conn sessionHandle timeoutMs now).2 }
  | .poll os =>
    if (Turn.poll os).InTime (deadline d.c) then
      let (_, c, conn) := d.c.poll d.link.conn os
      some { d with c := c, link := { d.link with conn := conn } }
    else none
  | .answer r =>
    match d.link.request with
    | none => none
    | some request =>
      if (decodeHeader request).command = Command.sendRRData.code then
        some { d with link := d.link.answer request (echo request r).frame, held := settle d.held request r.status }
      else none
  | .respond reply =>
    match d.link.request with
    | none => none
    | some request =>
      if (decodeHeader request).command = Command.sendUnitData.code then
        some { d with link := d.link.answer request reply }
      else none
  | .deliver k => some { d with link := d.link.deliver k }

/-- A fresh object, a connection on which nothing is on the way, and a target that holds no connection. -/
structure Initial (d : Lifecycle) : Prop where
  c : d.c = { tx := d.c.tx, rx := d.c.rx, fwd := { tx := d.c.fwd.tx, rx := d.c.fwd.rx } }
  link : d.link.Quiet
  held : d.held = 0

/-- With no exchange in flight, the object is open only with one connection at the target, and has completed `close()`
only with none. -/
def Matched (d : Lifecycle) : Prop :=
  ¬ d.c.InFlight → (d.c.isOpen → d.held = 1) ∧ (d.c.state = .closed → d.held = 0)

/-- `open()` is accepted only when the target holds no connection, a Forward Close is answered with status 0, and
every answer is a frame that fits into the buffer it is for. -/
def Kept (d : Lifecycle) : Act → Prop
  | .open sessionHandle tagName timeoutMs now random =>
    (d.c.open d.link.conn sessionHandle tagName timeoutMs now random).1 = .pending → d.held = 0
  | .answer r =>
    20 + r.data.length ≤ 16 + ExplicitMessage.kMaxCipData ∧
      ((d.link.request.map service) = some 0x4E → r.status = 0)
  | .respond reply => WholeFrame reply ∧ bodyLength reply ≤ 22 + Connection.kMaxDataSize
  | _ => True

/-! ### The end of an exchange -/

/-- What a reply to a Forward Open or a Forward Close makes of the connection. -/
private theorem concluded_frame {c : Connection} {r : Reply} {rest : List UInt8} (hrx : c.fwd.rx = r.frame ++ rest)
    (hlen : c.fwd.rxLen = 44 + r.data.length) :
    ¬ (c.concludeForward .ok).2.InFlight ∧ ¬ (c.concludeForward .ok).2.fwd.InFlight ∧
      ((c.concludeForward .ok).2.state = .open → c.state = .opening ∧ r.status = 0) ∧
      ((c.concludeForward .ok).2.state = .closed → c.state ≠ .opening) := by
  unfold Connection.concludeForward
  cases hparse : ExplicitMessage.parse c.fwd.rx c.fwd.rxLen c.fwd.sentContext with
  | none =>
    rw [ExplicitMessage.conclude_unparsed hparse]
    refine ⟨?_, ?_, by simp, by simp⟩
    · simp [Connection.InFlight]
    · simp [ExplicitMessage.InFlight]
  | some res =>
    rw [ExplicitMessage.conclude_parsed hparse]
    rw [hrx, hlen, Reply.parse_frame] at hparse
    have hres : res.resultCode = r.status := by
      split at hparse
      · cases hparse
        rfl
      · cases hparse
    have hfwd : ¬ ({ c.fwd.respond res with state := .done } : ExplicitMessage).InFlight := by
      simp [ExplicitMessage.InFlight]
    generalize hm : ({ c.fwd.respond res with state := .done } : ExplicitMessage) = m at hfwd
    have hcode : m.resultCode = r.status := by
      rw [← hm]
      exact hres
    dsimp only
    unfold Connection.finish
    split
    · rename_i hopening
      rcases Connection.finishOpen_cases { c with fwd := m } with ⟨hreply, h⟩ | ⟨-, h⟩
      · rw [h]
        refine ⟨?_, hfwd, fun _ => ⟨hopening, hcode.symm.trans hreply.1⟩, by simp⟩
        simp [Connection.InFlight]
      · rw [h]
        refine ⟨?_, hfwd, by simp, by simp⟩
        simp [Connection.InFlight]
    · rename_i hclosing
      refine ⟨?_, hfwd, by simp [Connection.finishClose], fun _ => hclosing⟩
      simp [Connection.finishClose, Connection.InFlight]

/-- A connected response leaves the object open or failed. -/
private theorem concluded_response (c : Connection) :
    ((c.conclude .ok).2.state = .open ∨ (c.conclude .ok).2.state = .failed) ∧ (c.conclude .ok).2.fwd = c.fwd := by
  cases hparse : Connection.parse c.rx c.rxLen c.sentContext c.toConnId c.sentSequence with
  | none =>
    rw [Connection.conclude_unparsed hparse]
    exact ⟨Or.inr rfl, rfl⟩
  | some r =>
    rw [Connection.conclude_parsed hparse]
    exact ⟨Or.inl rfl, rfl⟩

/-! ### The invariant -/

/-- What the target has done with the request of `fwd_`, by what the object is doing. -/
structure Settled (state : Connection.State) (held : Nat) (r : Reply) : Prop where
  opening : state = .opening → r.status = 0 → held = 1
  closing : state = .closing → held = 0

structure Resting (d : Lifecycle) : Prop where
  rest : ¬ d.c.InFlight
  free : ¬ d.c.fwd.InFlight
  quiet : d.link.Quiet
  opened : d.c.state = .open → d.held = 1
  closed : d.c.state = .closed → d.held = 0

inductive Stage (d : Lifecycle) : Prop where
  | resting (resting : Resting d)
  | asking {c₀ : Connection} {conn₀ : TcpConnection} {req : List UInt8}
      (started : Connection.forwarding.Started c₀ req) (whole : WholeFrame req)
      (command : (decodeHeader req).command = Command.sendRRData.code)
      (opening : d.c.state = .opening → service req = 0x54 ∧ d.held = 0)
      (closing : d.c.state = .closing → service req = 0x4E ∧ d.held = 1)
      (asking : Asking Connection.forwarding c₀ conn₀ d.c d.link)
  | answered {c₀ : Connection} {conn₀ : TcpConnection} {req : List UInt8} {r : Reply}
      (started : Connection.forwarding.Started c₀ req) (settled : Settled d.c.state d.held r)
      (answered : Answered Connection.forwarding c₀ conn₀ r.frame d.c d.link)
  | sending {c₀ : Connection} {conn₀ : TcpConnection} {req : List UInt8}
      (started : Connection.sending.Started c₀ req) (whole : WholeFrame req)
      (command : (decodeHeader req).command = Command.sendUnitData.code) (free : ¬ d.c.fwd.InFlight)
      (held : d.held = 1) (asking : Asking Connection.sending c₀ conn₀ d.c d.link)
  | responded {c₀ : Connection} {conn₀ : TcpConnection} {req reply : List UInt8}
      (started : Connection.sending.Started c₀ req) (free : ¬ d.c.fwd.InFlight) (held : d.held = 1)
      (answered : Answered Connection.sending c₀ conn₀ reply d.c d.link)

theorem stage_initial {d : Lifecycle} (h : Initial d) : Stage d := by
  have hc := h.c
  refine .resting ⟨?_, ?_, h.link, ?_, ?_⟩
  · rw [hc]
    simp [Connection.InFlight]
  · rw [hc]
    simp [ExplicitMessage.InFlight]
  · rw [hc]
    simp
  · rw [hc]
    simp

section Stage

variable {d d' : Lifecycle}

/-- An exchange is in flight in all stages but one. -/
private theorem Stage.at_rest (h : Stage d) (hrest : ¬ d.c.InFlight) : Resting d := by
  have hforward : ¬ (d.c.state = .opening ∨ d.c.state = .closing) := fun h => hrest (h.imp id Or.inr)
  have hsend : d.c.state ≠ .sending := fun h => hrest (Or.inr (Or.inl h))
  cases h with
  | resting resting => exact resting
  | asking started whole command opening closing asking => exact absurd asking.mid.going.1 hforward
  | answered started settled answered =>
    obtain ⟨arrived, -, hmid⟩ := answered.arriving
    exact absurd hmid.going.1 hforward
  | sending started whole command free held asking => exact absurd asking.mid.going hsend
  | responded started free held answered =>
    obtain ⟨arrived, -, hmid⟩ := answered.arriving
    exact absurd hmid.going hsend

theorem Stage.rest_matched (h : Stage d) : Matched d := by
  intro hrest
  have hr := h.at_rest hrest
  refine ⟨fun hopen => hr.opened ?_, hr.closed⟩
  simpa [Connection.isOpen] using hopen

/-! ### The calls that start an exchange -/

private theorem stage_open {sessionHandle timeoutMs now random : UInt32} {tagName : Option (List UInt8)}
    (h : Stage d) (hk : Kept d (.open sessionHandle tagName timeoutMs now random))
    (hs : step d (.open sessionHandle tagName timeoutMs now random) = some d') : Stage d' := by
  obtain ⟨st, c', hopen⟩ : ∃ st c', d.c.open d.link.conn sessionHandle tagName timeoutMs now random = (st, c') :=
    ⟨_, _, rfl⟩
  simp only [step, Option.some.injEq] at hs
  simp only [Kept] at hk
  rw [hopen] at hs hk
  subst hs
  rcases Connection.open_cases hopen with ⟨name, rfl, hname, hrest, hf⟩ | ⟨-, rfl⟩
  · have hr := h.at_rest hrest
    rcases Connection.forward_cases hf with ⟨rfl, hfwd⟩ | ⟨hne, rfl, -⟩
    · have hlen := Connection.length_openData (Connection.chooseConnId random) name
      have hstate : c'.state = .opening := by rw [hfwd.rest]
      have hstart := Connection.open_started hopen
      refine .asking hstart ?_ ?_ (fun _ => ⟨service_requestFrame _ _ _ _ _, hk rfl⟩) ?_ (hr.quiet.start hstart)
      · apply ExplicitMessage.whole_requestFrame
        have hm : Connection.managerPath.length = 4 := rfl
        have hmax : ExplicitMessage.kMaxCipData = 256 := rfl
        omega
      · rw [decode_requestFrame]
        rfl
      · intro hclosing
        change c'.state = .closing at hclosing
        rw [hstate] at hclosing
        cases hclosing
    · exact .resting ⟨hr.rest, hr.free, hr.quiet, hr.opened, hr.closed⟩
  · exact h

private theorem stage_close {sessionHandle timeoutMs now : UInt32} (h : Stage d)
    (hs : step d (.close sessionHandle timeoutMs now) = some d') : Stage d' := by
  obtain ⟨st, c', hclose⟩ : ∃ st c', d.c.close d.link.conn sessionHandle timeoutMs now = (st, c') := ⟨_, _, rfl⟩
  simp only [step, Option.some.injEq] at hs
  rw [hclose] at hs
  subst hs
  rcases Connection.close_cases hclose with ⟨hopen, hf⟩ | ⟨-, -, rfl⟩
  · have hrest : ¬ d.c.InFlight := by
      rw [Connection.InFlight, hopen]
      simp
    have hr := h.at_rest hrest
    rcases Connection.forward_cases hf with ⟨rfl, hfwd⟩ | ⟨hne, rfl, -⟩
    · have hlen := Connection.length_closeData d.c.tagName
      have hstate : c'.state = .closing := by rw [hfwd.rest]
      have hstart := Connection.close_started hclose
      refine .asking hstart ?_ ?_ ?_ (fun _ => ⟨service_requestFrame _ _ _ _ _, hr.opened hopen⟩)
        (hr.quiet.start hstart)
      · apply ExplicitMessage.whole_requestFrame
        have hm : Connection.managerPath.length = 4 := rfl
        have hmax : ExplicitMessage.kMaxCipData = 256 := rfl
        omega
      · rw [decode_requestFrame]
        rfl
      · intro hopening
        change c'.state = .opening at hopening
        rw [hstate] at hopening
        cases hopening
    · exact h
  · exact h

private theorem stage_send {sessionHandle : UInt32} {service : UInt8} {path data : Option (List UInt8)}
    {pathLen dataLen : Nat} {timeoutMs now : UInt32} (h : Stage d)
    (hs : step d (.send sessionHandle service path pathLen data dataLen timeoutMs now) = some d') : Stage d' := by
  obtain ⟨st, c', hsend⟩ : ∃ st c', d.c.send sessionHandle service path pathLen data dataLen timeoutMs
    now = (st, c') :=
    ⟨_, _, rfl⟩
  simp only [step] at hs
  split at hs
  · rename_i hback
    rw [hsend] at hs
    simp only [Option.some.injEq] at hs
    subst hs
    rcases Connection.send_cases hsend with ⟨rfl, hsent⟩ | ⟨-, rfl⟩
    · have hopen := hsent.opened
      have hrest : ¬ d.c.InFlight := by
        rw [Connection.InFlight, hopen]
        simp
      have hr := h.at_rest hrest
      have hstart := Connection.send_started hback hsend
      obtain ⟨hpath, hdata, -, hsmall⟩ := hback.lengths hsent.args
      refine .sending hstart ?_ ?_ ?_ (hr.opened hopen) (hr.quiet.start hstart)
      · apply Connection.whole_connectedFrame
        rw [hpath, hdata]
        exact hsmall
      · rw [Connection.decode_connectedFrame]
        rfl
      · have hfwd : c'.fwd = d.c.fwd := by rw [hsent.made]
        change ¬ c'.fwd.InFlight
        rw [hfwd]
        exact hr.free
    · exact h
  · cases hs

/-! ### The target -/

private theorem stage_answer {r : Reply} (h : Stage d) (hk : Kept d (.answer r))
    (hs : step d (.answer r) = some d') : Stage d' := by
  cases hreq : d.link.request with
  | none =>
    simp only [step, hreq] at hs
    cases hs
  | some request =>
    simp only [step, hreq] at hs
    simp only [Kept, hreq, Option.map_some, Option.some.injEq] at hk
    obtain ⟨hfits, hrefused⟩ := hk
    split at hs
    · rename_i hcommand
      simp only [Option.some.injEq] at hs
      subst hs
      have hbody : bodyLength (echo request r).frame ≤ Connection.forwarding.cap := by
        have hb := (echo request r).bodyLength_frame []
        rw [List.append_nil] at hb
        rw [hb]
        exact hfits
      cases h with
      | resting hr =>
        rw [hr.quiet.request] at hreq
        cases hreq
      | asking started whole command opening closing asking =>
        obtain ⟨rfl, -⟩ := asking.request started whole hreq
        refine .answered (r := echo request r) started ⟨fun hopening hstatus => ?_, fun hclosing => ?_⟩
          (asking.answer started whole hreq (Reply.whole _) hbody)
        · obtain ⟨hservice, hheld⟩ := opening hopening
          have hstatus' : r.status = 0 := hstatus
          change settle d.held request r.status = 1
          rw [settle, if_neg (by simp [hstatus']), if_pos hservice, hheld]
        · obtain ⟨hservice, hheld⟩ := closing hclosing
          change settle d.held request r.status = 0
          rw [settle, if_neg (by simp [hrefused hservice]), if_neg (by rw [hservice]; decide), if_pos hservice, hheld]
      | answered started settled answered =>
        rw [answered.request] at hreq
        cases hreq
      | sending started whole command free held asking =>
        obtain ⟨rfl, -⟩ := asking.request started whole hreq
        rw [command] at hcommand
        cases hcommand
      | responded started free held answered =>
        rw [answered.request] at hreq
        cases hreq
    · cases hs

private theorem stage_respond {reply : List UInt8} (h : Stage d) (hk : Kept d (.respond reply))
    (hs : step d (.respond reply) = some d') : Stage d' := by
  cases hreq : d.link.request with
  | none =>
    simp only [step, hreq] at hs
    cases hs
  | some request =>
    simp only [step, hreq] at hs
    simp only [Kept] at hk
    split at hs
    · rename_i hcommand
      simp only [Option.some.injEq] at hs
      subst hs
      cases h with
      | resting hr =>
        rw [hr.quiet.request] at hreq
        cases hreq
      | asking started whole command opening closing asking =>
        obtain ⟨rfl, -⟩ := asking.request started whole hreq
        rw [command] at hcommand
        cases hcommand
      | answered started settled answered =>
        rw [answered.request] at hreq
        cases hreq
      | sending started whole command free held asking =>
        exact .responded started free held (asking.answer started whole hreq hk.1 hk.2)
      | responded started free held answered =>
        rw [answered.request] at hreq
        cases hreq
    · cases hs

private theorem stage_deliver {k : Nat} (h : Stage d) (hs : step d (.deliver k) = some d') : Stage d' := by
  simp only [step, Option.some.injEq] at hs
  subst hs
  cases h with
  | resting hr => exact .resting ⟨hr.rest, hr.free, hr.quiet.deliver k, hr.opened, hr.closed⟩
  | asking started whole command opening closing asking =>
    exact .asking started whole command opening closing (asking.deliver k)
  | answered started settled answered => exact .answered started settled (answered.deliver k)
  | sending started whole command free held
    asking => exact .sending started whole command free held (asking.deliver k)
  | responded started free held answered => exact .responded started free held (answered.deliver k)

/-! ### `poll()` -/

/-- An exchange keeps the state and, while it is a connected one, `fwd_`. -/
private theorem forwarding_state {c c₀ : Connection}
    (h : Connection.forwarding.put c = Connection.forwarding.put c₀) :
    c.state = c₀.state := by
  have hsame : (Connection.forwarding.put c {}).state = (Connection.forwarding.put c₀ {}).state := by rw [h]
  exact hsame

private theorem sending_fwd {c c₀ : Connection} (h : Connection.sending.put c = Connection.sending.put c₀) :
    c.fwd = c₀.fwd := by
  have hsame : (Connection.sending.put c {}).fwd = (Connection.sending.put c₀ {}).fwd := by rw [h]
  exact hsame

/-- The deadline that `poll()` looks at is that of the exchange. -/
private theorem forwarding_deadline {c c₀ : Connection} {conn₀ conn : TcpConnection} {arrived : List UInt8}
    (h : Connection.forwarding.Midway c₀ conn₀ arrived c conn) : Connection.forwarding.deadline c₀ = deadline c := by
  have hstate : c.state ≠ .sending := by
    rcases h.going.1 with e | e <;> rw [e] <;> decide
  rw [deadline, if_neg hstate]
  exact h.deadline.symm

private theorem sending_deadline {c c₀ : Connection} {conn₀ conn : TcpConnection} {arrived : List UInt8}
    (h : Connection.sending.Midway c₀ conn₀ arrived c conn) : Connection.sending.deadline c₀ = deadline c := by
  have hstate : c.state = .sending := h.going
  rw [deadline, if_pos hstate]
  exact h.deadline.symm

/-- The whole reply to a Forward Open or a Forward Close has been read. -/
private theorem answered_ended {c₀ c' : Connection} {conn₀ conn : TcpConnection} {arrived : List UInt8} {r : Reply}
    {st : Status} {link : Link} (hmid : Connection.forwarding.Midway c₀ conn₀ arrived d.c conn)
    (settled : Settled d.c.state d.held r) (hwhole : WholeFrame r.frame)
    (hfits : bodyLength r.frame ≤ Connection.forwarding.cap) (hend : Ended Connection.forwarding c₀ r.frame st c')
    (hquiet : link.Quiet) : Resting { d with c := c', link := link } := by
  have hcon := hend.concluded
  rw [← hmid.put] at hcon
  obtain ⟨hrx, hlen⟩ := received_whole hwhole hfits (Connection.forwarding.buffers c₀)
  rw [Reply.length_frame] at hlen
  obtain ⟨hrest, hfree, hopen, hclosed⟩ := concluded_frame
    (c := Connection.forwarding.put d.c
      (received Connection.forwarding.cap (Connection.forwarding.buffers c₀) r.frame))
    hrx hlen
  have hc' : c' = (Connection.concludeForward (Connection.forwarding.put d.c
      (received Connection.forwarding.cap (Connection.forwarding.buffers c₀) r.frame)) .ok).2 :=
    congrArg Prod.snd hcon
  rw [← hc'] at hrest hfree hopen hclosed
  refine ⟨hrest, hfree, hquiet, fun ho => ?_, fun hc => ?_⟩
  · obtain ⟨hopening, hstatus⟩ := hopen ho
    exact settled.opening hopening hstatus
  · rcases hmid.going.1 with h | h
    · exact absurd h (hclosed hc)
    · exact settled.closing h

/-- The whole connected response has been read. -/
private theorem responded_ended {c₀ c' : Connection} {conn₀ conn : TcpConnection} {arrived reply : List UInt8}
    {st : Status} {link : Link} (hmid : Connection.sending.Midway c₀ conn₀ arrived d.c conn)
    (free : ¬ d.c.fwd.InFlight) (held : d.held = 1) (hend : Ended Connection.sending c₀ reply st c')
    (hquiet : link.Quiet) : Resting { d with c := c', link := link } := by
  have hcon := hend.concluded
  rw [← hmid.put] at hcon
  obtain ⟨hstate, hfwd⟩ := concluded_response (Connection.sending.put d.c
    (received Connection.sending.cap (Connection.sending.buffers c₀) reply))
  have hc' : c' = (Connection.conclude (Connection.sending.put d.c
      (received Connection.sending.cap (Connection.sending.buffers c₀) reply)) .ok).2 :=
    congrArg Prod.snd hcon
  rw [← hc'] at hstate hfwd
  refine ⟨?_, ?_, hquiet, fun _ => held, ?_⟩
  · change ¬ c'.InFlight
    rw [Connection.InFlight]
    rcases hstate with h | h <;> rw [h] <;> simp
  · change ¬ c'.fwd.InFlight
    rw [hfwd]
    exact free
  · change c'.state = .closed → d.held = 0
    rcases hstate with h | h <;> rw [h] <;> nofun

private theorem stage_poll {os : Platform} (h : Stage d) (hs : step d (.poll os) = some d') : Stage d' := by
  obtain ⟨st, c', conn', hp⟩ : ∃ st c' conn', d.c.poll d.link.conn os = (st, c', conn') := ⟨_, _, _, rfl⟩
  simp only [step] at hs
  split at hs
  · rename_i htime
    rw [hp] at hs
    simp only [Option.some.injEq] at hs
    subst hs
    cases h with
    | resting hr =>
      have hsame := Connection.poll_rest hr.rest d.link.conn os
      rw [hp, Prod.mk.injEq] at hsame
      obtain ⟨rfl, rfl⟩ := hsame
      exact .resting ⟨hr.rest, hr.free, hr.quiet, hr.opened, hr.closed⟩
    | @asking c₀ conn₀ req started whole command opening closing asking =>
      rw [← forwarding_deadline asking.mid] at htime
      obtain ⟨rfl, hasking⟩ := asking.poll started htime hp
      have hstate : c'.state = d.c.state :=
        (forwarding_state hasking.mid.put).trans (forwarding_state asking.mid.put).symm
      refine .asking started whole command ?_ ?_ hasking
      · intro h
        exact opening (hstate ▸ h)
      · intro h
        exact closing (hstate ▸ h)
    | @answered c₀ conn₀ req r started settled answered =>
      obtain ⟨arrived, -, hmid⟩ := answered.arriving
      rw [← forwarding_deadline hmid] at htime
      rcases answered.poll started htime hp with ⟨rfl, hanswered⟩ | ⟨hend, hquiet⟩
      · obtain ⟨arrived', -, hmid'⟩ := hanswered.arriving
        have hstate : c'.state = d.c.state := (forwarding_state hmid'.put).trans (forwarding_state hmid.put).symm
        refine .answered (r := r) started ?_ hanswered
        change Settled c'.state d.held r
        rw [hstate]
        exact settled
      · exact .resting (answered_ended hmid settled answered.whole answered.fits hend hquiet)
    | @sending c₀ conn₀ req started whole command free held asking =>
      rw [← sending_deadline asking.mid] at htime
      obtain ⟨rfl, hasking⟩ := asking.poll started htime hp
      have hfwd : c'.fwd = d.c.fwd := (sending_fwd hasking.mid.put).trans (sending_fwd asking.mid.put).symm
      refine .sending started whole command ?_ held hasking
      change ¬ c'.fwd.InFlight
      rw [hfwd]
      exact free
    | @responded c₀ conn₀ req reply started free held answered =>
      obtain ⟨arrived, -, hmid⟩ := answered.arriving
      rw [← sending_deadline hmid] at htime
      rcases answered.poll started htime hp with ⟨rfl, hanswered⟩ | ⟨hend, hquiet⟩
      · obtain ⟨arrived', -, hmid'⟩ := hanswered.arriving
        have hfwd : c'.fwd = d.c.fwd := (sending_fwd hmid'.put).trans (sending_fwd hmid.put).symm
        refine .responded started ?_ held hanswered
        change ¬ c'.fwd.InFlight
        rw [hfwd]
        exact free
      · exact .resting (responded_ended hmid free held hend hquiet)
  · cases hs

theorem stage_step {a : Act} (h : Stage d) (hk : Kept d a) (hs : step d a = some d') : Stage d' := by
  cases a with
  | «open» => exact stage_open h hk hs
  | send => exact stage_send h hs
  | close => exact stage_close h hs
  | poll => exact stage_poll h hs
  | answer => exact stage_answer h hk hs
  | respond => exact stage_respond h hk hs
  | deliver => exact stage_deliver h hs

end Stage

/-- In a run whose steps keep to the condition, the object and its target agree. -/
theorem matched_kept {d₀ d : Lifecycle} {as : List Act} (h0 : Initial d₀) (h : Run step Kept d₀ as d) : Matched d :=
  (h.invariant (fun _ _ _ => stage_step) (stage_initial h0)).rest_matched

/-! ### Runs -/

instance decidableKept (d : Lifecycle) : (a : Act) → Decidable (Kept d a)
  | .open .. => inferInstanceAs (Decidable (_ → _))
  | .answer _ => inferInstanceAs (Decidable (_ ∧ (_ → _)))
  | .respond _ => inferInstanceAs (Decidable (_ ∧ _))
  | .send .. | .close .. | .poll _ | .deliver _ => .isTrue trivial

/-- A fresh object on the connection that is open on descriptor 3. -/
def fresh : Lifecycle := { link := { conn := { fd := 3, state := .ok } } }

theorem initial_fresh : Initial fresh := ⟨rfl, ⟨by decide, rfl, rfl, rfl⟩, rfl⟩

/-- A call of `poll()` in which the socket layer takes and hands out whatever there is. -/
def pollAll : Act := .poll { sends := [.accepted 1000], recvs := [.data 999, .data 999] }

/-- An exchange that `start` begins, and that the target answers by `reply`. -/
def exchange (start reply : Act) : List Act := [start, pollAll, reply, .deliver 1000, pollAll]

/-- The object opens a connection to the tag `A`, with O->T ID 5. -/
def openA : Act := .open 7 (some [65]) 1000 0 5

/-- The target accepts, with T->O ID 9. -/
def opened : Act :=
  .answer { exchange := 0, service := 0xD4, data := [5, 0, 0, 0, 9, 0, 0, 0, 1, 0, 1, 0], fits := by simp }

/-- The answer to a Forward Close, with general status `status`. -/
def closing (status : UInt8) :
    Act := .answer { exchange := 0, service := 0xCE, status := status, data := [], fits := by simp }

def closeA : Act := .close 7 1000 0

/-- The object opens and closes its connection, and opens it again. -/
theorem matched_kept_reopened :
    Matched (after step fresh (exchange openA opened ++ exchange closeA (closing 0) ++ exchange openA opened)) ∧
      (after step fresh (exchange openA opened ++ exchange closeA (closing 0) ++ exchange openA opened)).c.isOpen :=
  ⟨matched_kept initial_fresh (run_afterIf Kept (by decide +kernel)), by decide +kernel⟩

/-- A Forward Close that is refused completes all the same, and a second `open()` leaves the first connection
behind. -/
theorem not_matched :
    (¬ ∀ d₀ d as, Initial d₀ → Run step always d₀ as d → ¬ d.c.InFlight → d.c.state = .closed → d.held = 0) ∧
      ¬ ∀ d₀ d as, Initial d₀ → Run step always d₀ as d → ¬ d.c.InFlight → d.c.isOpen → d.held = 1 := by
  constructor
  · intro h
    have hheld := h _ _ (exchange openA opened ++ exchange closeA (closing 1)) initial_fresh
      (run_after (by decide +kernel)) (by decide +kernel) (by decide +kernel)
    revert hheld
    decide +kernel
  · intro h
    have hheld := h _ _ (exchange openA opened ++ exchange openA opened) initial_fresh
      (run_after (by decide +kernel)) (by decide +kernel) (by decide +kernel)
    revert hheld
    decide +kernel

end Lifecycle

end ControlLogix
