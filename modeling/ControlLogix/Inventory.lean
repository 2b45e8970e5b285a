import ControlLogix.Duration
import ControlLogix.Faults
import ControlLogix.Operations
import ControlLogix.Readiness

/-!
# The inventory of a network of devices

A `Plant` is the sketch, the connection it has, with the bytes on the way in either direction, and the device at the
other end.  `loop()` is called, the device takes a request, or bytes of the device arrive, in any order; the socket
layer may fail, refuse or split at any call.

* `Honest`: what a device has to do, in the terms of the frames of the library;
* `Talk`: what is going on between the sketch and the device in each phase;
* `Plant.reports_genuine`: every report is about the device at its address, and about no other.
-/

namespace ControlLogix

open Bytes
open Buffers (bodyLength Framed)
open ExplicitMessage (requestFrame kMaxCipData)
open LanInventory (Identity RunSwitch Report Looped Queried Sound Stands Sessionless Fails modeTag kIdentityAttrs
  kIdentityAttrCount)
open Link (Ended Quiet)
open Session (registerFrame kMaxBodySize)

/-! ### Devices -/

/-- What a device answers: the data for each attribute of its identity object, and general status and data for the tag
`ControllerInfo.Mode`. -/
structure Card where
  attr : UInt8 → List UInt8
  status : UInt8
  mode : List UInt8

namespace Card

def recorded (c : Card) (n : Nat) : Identity :=
  (kIdentityAttrs.take n).foldl (fun id a => id.record a (c.attr a) (c.attr a).length) {}

/-- What is to be reported of the identity. -/
def identity (c : Card) : Identity := c.recorded kIdentityAttrCount

def runSwitch (c : Card) : RunSwitch :=
  if c.status ≠ 0 then .unavailable c.status
  else if 6 ≤ c.mode.length then .mode (getU32 (c.mode.drop 2)).toInt32
  else .unavailable 0

theorem recorded_succ (c : Card) {n : Nat} (h : n < kIdentityAttrCount) : c.recorded (n + 1) =
    (c.recorded n).record (kIdentityAttrs.getD n 0) (c.attr (kIdentityAttrs.getD n 0))
      (c.attr (kIdentityAttrs.getD n 0)).length := by
  have hget : kIdentityAttrs[n]? = some (kIdentityAttrs.getD n 0) := by
    rw [List.getD_eq_getElem?_getD, List.getElem?_eq_getElem h]
    rfl
  rw [recorded, recorded, List.take_add_one, hget, List.foldl_append]
  rfl

end Card

/-- The request for an attribute of the identity object. -/
def attributeFrame (session : UInt32) (context : UInt64) (a : UInt8) : List UInt8 :=
  requestFrame session context Service.getAttributeSingle.code (appendClass 1 ++ appendInstance 1) (appendAttribute a)

def modeFrame (session : UInt32) (context : UInt64) : List UInt8 :=
  requestFrame session context TagService.read.code (appendSymbolic modeTag) (Tag.readData 1)

/-- `bs` is a reply to the request with `context`, with general status and data as given. -/
def RepliesWith (context : UInt64) (status : UInt8) (data bs : List UInt8) : Prop :=
  ∃ r : Reply, bs = r.frame ∧ r.encapStatus = 0 ∧ r.context = context ∧ r.status = status ∧ r.data = data

/-- While it is asked as the sketch asks, a device in one of the states `I` answers as its card says. -/
structure Honest {Θ : Type} (handle : Θ → List UInt8 → Θ × List UInt8) (c : Card) (I : Θ → Prop) : Prop where
  register : ∀ v context, I v → I (handle v (registerFrame context)).1 ∧
    WholeFrame (handle v (registerFrame context)).2 ∧ bodyLength (handle v (registerFrame context)).2 ≤ kMaxBodySize
  attr : ∀ v session context a, I v → a ∈ kIdentityAttrs → I (handle v (attributeFrame session context a)).1 ∧
    ∃ status, RepliesWith context status (c.attr a) (handle v (attributeFrame session context a)).2
  mode : ∀ v session context, I v → I (handle v (modeFrame session context)).1 ∧
    RepliesWith context c.status c.mode (handle v (modeFrame session context)).2
  fits : (∀ a ∈ kIdentityAttrs, (c.attr a).length ≤ 252) ∧ c.mode.length ≤ 252

/-! ### The plant -/

structure Plant (Θ : Type) where
  sketch : LanInventory
  handled : Nat := 0
  wire : List UInt8 := []
  peer : Θ

namespace Plant

variable {Θ : Type}

def link (p : Plant Θ) : Link := ⟨p.sketch.tcp, p.handled, p.wire⟩

/-- A new socket leads to the device at the address that is probed, and nothing is on its way yet. -/
def attach (devices : IPAddress → Θ) (p : Plant Θ) (s : LanInventory) : Plant Θ :=
  if s.tcp.sockets = p.sketch.tcp.sockets then { p with sketch := s } else
    { sketch := s, peer := devices s.currentIp }

def move (lan : Lan) (handle : Θ → List UInt8 → Θ × List UInt8) (devices : IPAddress → Θ) (p : Plant Θ) :
    Move → Plant Θ
  | .poll os => p.attach devices (p.sketch.loop lan os)
  | .serve =>
    match p.link.request with
    | none => p
    | some f =>
      let l := p.link.answer f (handle p.peer f).2
      { p with handled := l.handled, wire := l.wire, peer := (handle p.peer f).1 }
  | .deliver k =>
    let l := p.link.deliver k
    { p with sketch := { p.sketch with tcp := l.conn }, wire := l.wire }

/-- The plant after `setup()` and some moves.  At the beginning there is no connection. -/
def run (lan : Lan) (handle : Θ → List UInt8 → Θ × List UInt8) (devices : IPAddress → Θ) (began configured : Bool)
    (ms : List Move) : Plant Θ :=
  ms.foldl (move lan handle devices) { sketch := LanInventory.setup {} began configured, peer := devices 0 }

/-! ### Exchanges with a device -/

section Exchange

variable {σ : Type} {handle : Θ → List UInt8 → Θ × List UInt8} {M : Machine σ} {req : List UInt8} {I : Θ → Prop}
  {Kept : σ → Prop} {s s' : σ} {l : Link} {v : Θ} {st : Status} {conn' : TcpConnection} {os : Platform}

/-- An exchange that `s₀` began, where `Kept s₀`, with a device in one of the states `I`. -/
def Exchange (handle : Θ → List UInt8 → Θ × List UInt8) (M : Machine σ) (req : List UInt8) (I : Θ → Prop)
    (Kept : σ → Prop) (s : σ) (l : Link) (v : Θ) : Prop :=
  ∃ s₀ conn₀ v₀, Kept s₀ ∧ I v₀ ∧ M.Started s₀ req ∧
    Link.Phase M s₀ conn₀ (handle v₀ req).2 v₀ (handle v₀ req).1 s l v

/-- The device answers the request with a frame that fits. -/
structure Answerable (handle : Θ → List UInt8 → Θ × List UInt8) (M : Machine σ) (req : List UInt8) (I : Θ → Prop) :
    Prop where
  whole : WholeFrame req
  reply : ∀ v, I v → WholeFrame (handle v req).2 ∧ bodyLength (handle v req).2 ≤ M.cap

theorem Exchange.start (hl : l.Quiet) (hs : M.Started s req) (hkept : Kept s) (hv : I v) :
    Exchange handle M req I Kept s l v :=
  ⟨s, l.conn, v, hkept, hv, hs, .asking (hl.start hs) rfl⟩

theorem Exchange.poll (hM : M.Faultless) (h : Exchange handle M req I Kept s l v)
    (hp : M.poll s l.conn os = (st, s', conn')) :
    (st = .pending ∧ Exchange handle M req I Kept s' { l with conn := conn' } v) ∨
      (∃ s₀ v₀, Kept s₀ ∧ I v₀ ∧ Ended M s₀ (handle v₀ req).2 st s' ∧ Quiet { l with conn := conn' } ∧
        v = (handle v₀ req).1) ∨ (st ≠ .ok ∧ st ≠ .pending) := by
  obtain ⟨s₀, conn₀, v₀, hkept, hv₀, hs, hphase⟩ := h
  rcases hphase.poll hM hs hp with ⟨hst, hphase'⟩ | ⟨hended, hquiet, hdone⟩ | hst
  · exact Or.inl ⟨hst, s₀, conn₀, v₀, hkept, hv₀, hs, hphase'⟩
  · exact Or.inr (Or.inl ⟨s₀, v₀, hkept, hv₀, hended, hquiet, hdone⟩)
  · exact Or.inr (Or.inr hst)

theorem Exchange.serve (ha : Answerable handle M req I) (h : Exchange handle M req I Kept s l v) {f : List UInt8}
    (hf : l.request = some f) : Exchange handle M req I Kept s (l.answer f (handle v f).2) (handle v f).1 := by
  obtain ⟨s₀, conn₀, v₀, hkept, hv₀, hs, hphase⟩ := h
  obtain ⟨hwhole, hfits⟩ := ha.reply v₀ hv₀
  have hhandle : handle v₀ req = ((handle v₀ req).1, (handle v₀ req).2) := rfl
  exact ⟨s₀, conn₀, v₀, hkept, hv₀, hs, hphase.serve hs ha.whole hhandle hwhole hfits hf⟩

theorem Exchange.deliver (h : Exchange handle M req I Kept s l v) (k : Nat) :
    Exchange handle M req I Kept s (l.deliver k) v := by
  obtain ⟨s₀, conn₀, v₀, hkept, hv₀, hs, hphase⟩ := h
  exact ⟨s₀, conn₀, v₀, hkept, hv₀, hs, hphase.deliver k⟩

end Exchange

section Honest

variable {handle : Θ → List UInt8 → Θ × List UInt8} {c : Card} {I : Θ → Prop}

private theorem answerable_register (h : Honest handle c I) (context : UInt64) :
    Answerable handle Session.machine (registerFrame context) I :=
  ⟨Session.whole_registerFrame context, fun v hv => (h.register v context hv).2⟩

/-- A reply that fits into the message. -/
private theorem reply_fits {context : UInt64} {status : UInt8} {data bs : List UInt8}
    (h : RepliesWith context status data bs)
    (hfits : data.length ≤ 252) : WholeFrame bs ∧ bodyLength bs ≤ ExplicitMessage.machine.cap := by
  obtain ⟨r, rfl, -, -, -, rfl⟩ := h
  have hbody := r.bodyLength_frame []
  rw [List.append_nil] at hbody
  refine ⟨r.whole, ?_⟩
  rw [hbody]
  show 20 + r.data.length ≤ 272
  omega

private theorem answerable_attribute (h : Honest handle c I) (session : UInt32) (context : UInt64) {a : UInt8}
    (ha : a ∈ kIdentityAttrs) : Answerable handle ExplicitMessage.machine (attributeFrame session context a) I := by
  refine ⟨ExplicitMessage.whole_requestFrame _ _ _ (show 2 + 4 + 2 ≤ 256 by omega), fun v hv => ?_⟩
  obtain ⟨status, hreply⟩ := (h.attr v session context a hv ha).2
  exact reply_fits hreply (h.fits.1 a ha)

private theorem answerable_mode (h : Honest handle c I) (session : UInt32) (context : UInt64) :
    Answerable handle ExplicitMessage.machine (modeFrame session context) I := by
  refine ⟨ExplicitMessage.whole_requestFrame _ _ _ (by decide), fun v hv => ?_⟩
  exact reply_fits (h.mode v session context hv).2 h.fits.2

/-- What the reply makes of the message. -/
private theorem ended_reply {m m' : ExplicitMessage} {context : UInt64} {status : UInt8} {data bs : List UInt8}
    {st : Status}
    (hreply : RepliesWith context status data bs) (hfits : data.length ≤ 252) (hcontext : m.sentContext = context)
    (h : Ended ExplicitMessage.machine m bs st m') :
    st = .ok ∧ m'.state = .done ∧ m'.resultCode = status ∧ m'.data = data ∧ m'.dataLen = data.length := by
  obtain ⟨r, rfl, hstatus, hc, rfl, rfl⟩ := hreply
  obtain ⟨hrx, hlen, hsent⟩ := ExplicitMessage.put_frame m hfits
  obtain ⟨hcon, hdata⟩ := ExplicitMessage.conclude_frame hrx hlen hstatus (by rw [hc, hsent, hcontext])
  have hconcluded := h.concluded.trans hcon
  rw [Prod.mk.injEq] at hconcluded
  obtain ⟨rfl, rfl⟩ := hconcluded
  exact ⟨rfl, rfl, rfl, hdata, rfl⟩

end Honest

/-! ### What is going on with the device -/

/-- A report says of a device what its card says; when the query for the tag has failed, only that of its identity. -/
def Faithful (c : Card) (r : Report) : Prop :=
  r.id = c.identity ∧ (r.runSwitch = c.runSwitch ∨ r.runSwitch = .unavailable 0)

/-- Nothing has passed between the sketch and a device in one of the states `I`. -/
structure Fresh (I : Θ → Prop) (p : Plant Θ) : Prop where
  state : p.sketch.tcp.state ≠ .ok
  sock : p.sketch.tcp.sock = {}
  handled : p.handled = 0
  wire : p.wire = []
  device : I p.peer

/-- What is going on between the sketch and the device with the card `c`, in one of the states `I`. -/
inductive Talk (handle : Θ → List UInt8 → Θ × List UInt8) (c : Card) (I : Θ → Prop) (p : Plant Θ) : Prop where
  | apart (phase : p.sketch.phase ≠ .connect ∧ p.sketch.phase ≠ .register ∧ p.sketch.phase ≠ .query)
  | dialling (phase : p.sketch.phase = .connect) (fresh : 0 ≤ p.sketch.tcp.fd → Fresh I p)
  | registering (phase : p.sketch.phase = .register) (context : UInt64)
    (exchange : Exchange handle Session.machine (registerFrame context) I (fun _ => True) p.sketch.session
      p.link p.peer)
  | lost (phase : p.sketch.phase = .register) (lost : p.sketch.session.state = .failed ∨ ¬ p.sketch.tcp.Usable)
  | between (phase : p.sketch.phase = .query) (idle : p.sketch.stepStarted = false) (quiet : p.link.Quiet)
    (device : I p.peer) (id : p.sketch.id = c.recorded p.sketch.queryIndex)
  | identity (phase : p.sketch.phase = .query) (started : p.sketch.stepStarted = true)
    (index : p.sketch.queryIndex < kIdentityAttrCount) (id : p.sketch.id = c.recorded p.sketch.queryIndex)
    (exchange : (∃ session context, Exchange handle ExplicitMessage.machine
      (attributeFrame session context (kIdentityAttrs.getD p.sketch.queryIndex 0)) I
      (fun m => m.sentContext = context) p.sketch.msg p.link p.peer) ∨ p.sketch.msg.state = .failed)
  | mode (phase : p.sketch.phase = .query) (started : p.sketch.stepStarted = true)
    (index : p.sketch.queryIndex = kIdentityAttrCount) (id : p.sketch.id = c.identity)
    (blank : p.sketch.tag.dataLen = 0 ∧ p.sketch.tag.resultCode = 0)
    (exchange : (p.sketch.tag.state = .reading ∧ ∃ session context, Exchange handle ExplicitMessage.machine
      (modeFrame session context) I (fun m => m.sentContext = context) p.sketch.msg p.link p.peer) ∨
      p.sketch.tag.state = .failed)

/-- The sketch and the device fit, and the reports made so far are right. -/
structure Genuine (handle : Θ → List UInt8 → Θ × List UInt8) (cards : IPAddress → Card) (I : IPAddress → Θ → Prop)
    (p : Plant Θ) : Prop where
  sound : Sound p.sketch
  talk : Talk handle (cards p.sketch.currentIp) (I p.sketch.currentIp) p
  reports : ∀ r ∈ p.sketch.reports, Faithful (cards r.ip) r

section Talk

variable {handle : Θ → List UInt8 → Θ × List UInt8} {c : Card} {I : Θ → Prop} {p : Plant Θ}

private theorem attr_mem {i : Nat} (h : i < kIdentityAttrCount) : kIdentityAttrs.getD i 0 ∈ kIdentityAttrs := by
  rw [List.getD_eq_getElem?_getD, List.getElem?_eq_getElem h]
  exact List.getElem_mem h

/-- The device takes a request. -/
theorem talk_serve (hc : Honest handle c I) (h : Talk handle c I p) {f : List UInt8} (hf : p.link.request = some f) :
    Talk handle c I { p with handled := (p.link.answer f (handle p.peer f).2).handled,
                             wire := (p.link.answer f (handle p.peer f).2).wire, peer := (handle p.peer f).1 } := by
  cases h with
  | apart phase => exact .apart phase
  | dialling phase fresh =>
    refine .dialling phase fun hfd => ?_
    have hnil : p.link.unhandled = [] := by
      rw [Link.unhandled]
      change p.sketch.tcp.sock.sent.drop p.handled = []
      rw [(fresh hfd).sock, List.drop_eq_nil_iff]
      exact Nat.zero_le _
    rw [Link.request, hnil, if_neg (by simp)] at hf
    cases hf
  | registering phase context exchange =>
    exact .registering phase context (exchange.serve (answerable_register hc context) hf)
  | lost phase lost => exact .lost phase lost
  | between phase idle quiet =>
    rw [quiet.request] at hf
    cases hf
  | identity phase started index id exchange =>
    refine .identity phase started index id (exchange.imp_left ?_)
    rintro ⟨session, context, exchange⟩
    exact ⟨session, context, exchange.serve (answerable_attribute hc session context (attr_mem index)) hf⟩
  | mode phase started index id blank exchange =>
    refine .mode phase started index id blank (exchange.imp_left ?_)
    rintro ⟨reading, session, context, exchange⟩
    exact ⟨reading, session, context, exchange.serve (answerable_mode hc session context) hf⟩

/-- Bytes of the device arrive. -/
theorem talk_deliver (h : Talk handle c I p) (k : Nat) :
    Talk handle c I
    { p with sketch := { p.sketch with tcp := (p.link.deliver k).conn }, wire := (p.link.deliver k).wire } := by
  cases h with
  | apart phase => exact .apart phase
  | dialling phase fresh =>
    refine .dialling phase fun hfd => ?_
    have hfresh := fresh hfd
    have hnil : p.wire.take k = [] := by rw [hfresh.wire, List.take_nil]
    refine ⟨hfresh.state, ?_, hfresh.handled, ?_, hfresh.device⟩
    · change { p.sketch.tcp.sock with inbox := p.sketch.tcp.sock.inbox ++ p.wire.take k } = ({} : Socket)
      rw [hnil, hfresh.sock]
      rfl
    · change p.wire.drop k = []
      rw [hfresh.wire, List.drop_nil]
  | registering phase context exchange => exact .registering phase context (exchange.deliver k)
  | lost phase lost => exact .lost phase lost
  | between phase idle quiet device id => exact .between phase idle (quiet.deliver k) device id
  | identity phase started index id exchange =>
    refine .identity phase started index id (exchange.imp_left ?_)
    rintro ⟨session, context, exchange⟩
    exact ⟨session, context, exchange.deliver k⟩
  | mode phase started index id blank exchange =>
    refine .mode phase started index id blank (exchange.imp_left ?_)
    rintro ⟨reading, session, context, exchange⟩
    exact ⟨reading, session, context, exchange.deliver k⟩

/-! ### What a call of `poll()` makes of an exchange with a device -/

theorem Exchange.going {σ : Type} {M : Machine σ} {req : List UInt8} {Kept : σ → Prop} {s : σ} {l : Link} {v : Θ}
    (h : Exchange handle M req I Kept s l v) : M.Going s ∧ l.conn.Usable := by
  obtain ⟨s₀, conn₀, v₀, -, -, -, hphase⟩ := h
  cases hphase with
  | asking asking => exact ⟨asking.mid.going, asking.mid.underway.usable⟩
  | answered answered =>
    obtain ⟨arrived, -, hmid⟩ := answered.arriving
    exact ⟨hmid.going, hmid.underway.usable⟩

variable {m m' : ExplicitMessage} {t t' : Tag} {l : Link} {v : Θ} {conn' : TcpConnection} {os : Platform}
  {st : Status} {session : UInt32} {context : UInt64}

/-- A message in an exchange that does not succeed has failed. -/
private theorem message_failed {req : List UInt8} {Kept : ExplicitMessage → Prop}
    (hf : m.InFlight → Framed (16 + ExplicitMessage.kMaxCipData) m.toBuffers)
    (h : Exchange handle ExplicitMessage.machine req I Kept m l v) (hp : m.poll l.conn os = (st, m', conn'))
    (hst : st ≠ .ok ∧ st ≠ .pending) : m'.state = .failed := by
  obtain ⟨hstands, -⟩ := LanInventory.msg_polled hf (Or.inl h.going) hp
  cases hstands with
  | going status => exact absurd status hst.2
  | answered status => exact absurd status hst.1
  | failed _ state => exact state

/-- The query for an attribute waits, has the attribute of the device, or has failed. -/
theorem attribute_polled (hc : Honest handle c I) {a : UInt8} (ha : a ∈ kIdentityAttrs)
    (hf : m.InFlight → Framed (16 + ExplicitMessage.kMaxCipData) m.toBuffers)
    (h : Exchange handle ExplicitMessage.machine (attributeFrame session context a) I
      (fun m => m.sentContext = context) m l v) (hp : m.poll l.conn os = (st, m', conn')) :
    (st = .pending ∧ Exchange handle ExplicitMessage.machine (attributeFrame session context a) I
        (fun m => m.sentContext = context) m' { l with conn := conn' } v) ∨
      (st = .ok ∧ m'.data = c.attr a ∧ m'.dataLen = (c.attr a).length ∧ Quiet { l with conn := conn' } ∧ I v) ∨
      (st ≠ .ok ∧ st ≠ .pending ∧ m'.state = .failed) := by
  rcases h.poll ExplicitMessage.faultless hp with hpending | ⟨m₀, v₀, hcontext, hv₀, hended, hquiet, rfl⟩ | hst
  · exact Or.inl hpending
  · obtain ⟨hv, status, hreply⟩ := hc.attr v₀ session context a hv₀ ha
    obtain ⟨hok, -, -, hdata, hlen⟩ := ended_reply hreply (hc.fits.1 a ha) hcontext hended
    exact Or.inr (Or.inl ⟨hok, hdata, hlen, hquiet, hv⟩)
  · exact Or.inr (Or.inr ⟨hst.1, hst.2, message_failed hf h hp hst⟩)

/-- What `printDevice()` makes of the tag. -/
def shown (t : Tag) : RunSwitch :=
  if 4 ≤ t.dataLen then .mode (getU32 t.data.bytes).toInt32 else .unavailable t.resultCode

private theorem shown_blank (h : t.dataLen = 0 ∧ t.resultCode = 0) : shown t = .unavailable 0 := by
  rw [shown, if_neg (by omega), h.2]

/-- The value of the tag is the one of the device. -/
private theorem shown_accept (hread : t.state = .reading) (hlen : t.dataLen = 0) (hfits : c.mode.length ≤ 252)
    (hstatus : c.status = 0) (hdata : m.data = c.mode) (hdataLen : m.dataLen = c.mode.length) :
    shown (({ t with resultCode := 0 } : Tag).accept m) = c.runSwitch := by
  rw [Card.runSwitch, if_neg (not_not.2 hstatus)]
  by_cases h2 : 2 ≤ c.mode.length
  · obtain ⟨-, hn, hbytes⟩ := Tag.accept_value (t := { t with resultCode := 0 }) hread hdata hdataLen h2
    rw [Nat.min_eq_left (show c.mode.length - 2 ≤ kMaxDataSize by change _ ≤ 256; omega)] at hn
    have hcode : (({ t with resultCode := 0 } : Tag).accept m).resultCode = 0 := by
      unfold Tag.accept
      split <;> rfl
    rw [shown, hn, hcode]
    by_cases h6 : 6 ≤ c.mode.length
    · rw [if_pos (show 4 ≤ c.mode.length - 2 by omega), if_pos h6]
      rw [hn] at hbytes
      have hword : getU32 (({ t with resultCode := 0 } : Tag).accept m).data.bytes = getU32 (c.mode.drop 2) := by
        have htake := congrArg (List.take 4) hbytes
        rw [List.take_take, List.take_take, Nat.min_eq_left (show 4 ≤ c.mode.length - 2 by omega)] at htake
        rw [← getU32_take, htake, getU32_take]
      rw [hword]
    · rw [if_neg (show ¬ 4 ≤ c.mode.length - 2 by omega), if_neg h6]
  · have haccept : ({ t with resultCode := 0 } : Tag).accept m = { t with resultCode := 0, state := .done } := by
      rw [Tag.accept, if_neg (by omega)]
    rw [haccept, if_neg (by omega)]
    exact shown_blank ⟨hlen, rfl⟩

/-- The query for the tag waits, or has something to be shown. -/
theorem mode_polled (hc : Honest handle c I) (hread : t.state = .reading) (hblank : t.dataLen = 0 ∧ t.resultCode = 0)
    (h : Exchange handle ExplicitMessage.machine (modeFrame session context) I
      (fun m => m.sentContext = context) m l v)
    (hp : t.poll m l.conn os = (st, t', m', conn')) :
    (st = .pending ∧ t' = t ∧ Exchange handle ExplicitMessage.machine (modeFrame session context) I
        (fun m => m.sentContext = context) m' { l with conn := conn' } v) ∨
      (st ≠ .pending ∧ (shown t' = c.runSwitch ∨ shown t' = .unavailable 0) ∧
        (st ≠ .ok → ¬ Fails st → t'.state = .failed ∧ t'.dataLen = 0 ∧ t'.resultCode = 0)) := by
  obtain ⟨mst, hm, hadvanced⟩ := Tag.poll_inFlight (Or.inl hread) hp
  -- the message has the answer of the device
  have hanswer (hok : mst = .ok) : m'.resultCode = c.status ∧ m'.data = c.mode ∧ m'.dataLen = c.mode.length := by
    rcases h.poll ExplicitMessage.faultless hm with ⟨hpending, -⟩ | ⟨m₀, v₀, hcontext, hv₀, hended, -⟩ | hst
    · rw [hok] at hpending
      cases hpending
    · obtain ⟨-, -, hcode, hdata, hlen⟩ :=
        ended_reply (hc.mode v₀ session context hv₀).2 hc.fits.2 hcontext hended
      exact ⟨hcode, hdata, hlen⟩
    · exact absurd hok hst.1
  cases hadvanced with
  | pending hmst =>
    rcases h.poll ExplicitMessage.faultless hm with ⟨-, hexchange⟩ | ⟨m₀, v₀, -, -, hended, -⟩ | hst
    · exact Or.inl ⟨rfl, rfl, hexchange⟩
    · exact absurd hmst hended.status
    · exact absurd hmst hst.2
  | broke hmst =>
    exact Or.inr ⟨hmst.1, Or.inr (shown_blank (t := { t with state := .failed }) hblank), fun _ _ => ⟨rfl, hblank⟩⟩
  | refused hmst hcode =>
    obtain ⟨hstatus, -⟩ := hanswer hmst
    refine Or.inr ⟨by decide, Or.inl ?_, fun _ hfails => absurd (by decide) hfails⟩
    rw [hstatus] at hcode ⊢
    rw [Card.runSwitch, if_pos hcode, shown, if_neg]
    exact show ¬ 4 ≤ t.dataLen by omega
  | done hmst hcode =>
    obtain ⟨hstatus, hdata, hlen⟩ := hanswer hmst
    refine Or.inr ⟨by decide, Or.inl ?_, fun hok => absurd rfl hok⟩
    rw [hcode] at hstatus ⊢
    exact shown_accept hread hblank.1 hc.fits.2 hstatus.symm hdata hlen

/-! ### Queries -/

/-- The next query is on its way. -/
theorem talk_asks (hs : Sound p.sketch) (h : Talk handle c I p) (hp : p.sketch.phase = .query)
    (hidle : p.sketch.stepStarted = false) (now : UInt32) :
    Talk handle c I { p with sketch := p.sketch.startQuery now } := by
  obtain ⟨-, hindex, husable⟩ := hs.querying hp
  have hu := husable hidle
  have hfree : ¬ p.sketch.msg.InFlight := hs.free (by simp [hidle])
  have hrest : ¬ p.sketch.tag.InFlight := hs.rest (by simp [hidle])
  have hconn : p.sketch.tcp.connected := by
    have hstate : p.sketch.tcp.state = .ok := hu.2
    simpa [TcpConnection.connected] using hstate
  cases h with
  | between phase idle quiet device id =>
    by_cases hlast : p.sketch.queryIndex < kIdentityAttrCount
    · obtain ⟨st, msg, hsend⟩ : ∃ st msg, p.sketch.msg.send p.sketch.tcp p.sketch.session.handle
        Service.getAttributeSingle.code (some (appendClass 1 ++ appendInstance 1))
        (appendClass 1 ++ appendInstance 1).length
        (some (appendAttribute (kIdentityAttrs.getD p.sketch.queryIndex 0)))
        (appendAttribute (kIdentityAttrs.getD p.sketch.queryIndex 0)).length LanInventory.MESSAGE_TIMEOUT_MS now =
          (st, msg) := ⟨_, _, rfl⟩
      have hfits : ExplicitMessage.cipLength 4 2 ≤ ExplicitMessage.kMaxCipData := by decide
      have hpending : st = .pending :=
        (congrArg Prod.fst hsend).symm.trans ((ExplicitMessage.send_iff hfree hconn).2 ⟨hfits, rfl, by simp, by simp⟩)
      subst hpending
      have hback : ExplicitMessage.Backed (some (appendClass 1 ++ appendInstance 1))
          (appendClass 1 ++ appendInstance 1).length
          (some (appendAttribute (kIdentityAttrs.getD p.sketch.queryIndex 0)))
          (appendAttribute (kIdentityAttrs.getD p.sketch.queryIndex 0)).length :=
        ⟨fun q hq => Nat.le_of_eq (congrArg List.length (Option.some.inj hq)),
          fun d hd => Nat.le_of_eq (congrArg List.length (Option.some.inj hd)), show 2 + 4 + 2 < 2 ^ 32 by omega⟩
      have hstarted := ExplicitMessage.send_started hback hsend
      have hstart : p.sketch.startQuery now = { p.sketch with msg := msg, stepStarted := true } := by
        rw [LanInventory.startQuery, if_pos hlast]
        dsimp only
        rw [hsend]
        rfl
      rw [hstart]
      exact .identity phase rfl hlast id (Or.inl ⟨_, _,
        .start (l := p.link) quiet hstarted (ExplicitMessage.send_accepted hsend).sentContext device⟩)
    · have hmode : p.sketch.queryIndex = kIdentityAttrCount := by omega
      obtain ⟨st, tag, msg, hread⟩ : ∃ st tag msg, p.sketch.tag.read p.sketch.msg p.sketch.tcp p.sketch.session.handle
        (some modeTag) 1 LanInventory.MESSAGE_TIMEOUT_MS now = (st, tag, msg) := ⟨_, _, _, rfl⟩
      have hpending : st = .pending :=
        (congrArg Prod.fst hread).symm.trans ((Tag.read_iff hrest hfree hconn).2 (by decide))
      subst hpending
      obtain ⟨rfl, hrequested⟩ := Tag.read_requested hread
      have hstarted : ExplicitMessage.machine.Started msg (modeFrame p.sketch.session.handle p.sketch.msg.context) :=
        ⟨hrequested.started.going.2, hrequested.started.loaded, hrequested.started.request, hrequested.started.short,
          hrequested.started.cap⟩
      have hstart : p.sketch.startQuery now = { p.sketch with
          tag := { p.sketch.tag with dataLen := 0, resultCode := 0, state := .reading }, msg := msg,
          stepStarted := true } := by
        rw [LanInventory.startQuery, if_neg hlast, hread]
        rfl
      rw [hstart]
      rw [hmode] at id
      exact .mode phase rfl hmode id ⟨rfl, rfl⟩ (Or.inl ⟨rfl, _, _,
        .start (l := p.link) quiet hstarted hrequested.sentContext device⟩)
  | apart phase => exact absurd hp phase.2.2
  | dialling phase => rw [hp] at phase; cases phase
  | registering phase => rw [hp] at phase; cases phase
  | lost phase => rw [hp] at phase; cases phase
  | identity _ started => rw [hidle] at started; cases started
  | mode _ started => rw [hidle] at started; cases started

/-- What the end of a query comes to: the next query, or a report that is right. -/
private theorem talk_answered {s₁ : LanInventory} (hq : Queried p.sketch s₁) (hp : p.sketch.phase = .query)
    (hindex : s₁.queryIndex < kIdentityAttrCount →
      s₁.msg.data = c.attr (kIdentityAttrs.getD s₁.queryIndex 0) ∧
      s₁.msg.dataLen = (c.attr (kIdentityAttrs.getD s₁.queryIndex 0)).length ∧
      Quiet { p.link with conn := s₁.tcp } ∧ I p.peer)
    (hid : s₁.id = c.recorded s₁.queryIndex) : Talk handle c I { p with sketch := s₁.finishQuery } := by
  rcases s₁.finishQuery_cases with ⟨hlt, heq⟩ | ⟨-, heq⟩
  · obtain ⟨hdata, hlen, hquiet, hdevice⟩ := hindex hlt
    rw [heq]
    refine .between (hq.phase.trans hp) rfl hquiet hdevice ?_
    change s₁.id.record _ s₁.msg.data s₁.msg.dataLen = c.recorded (s₁.queryIndex + 1)
    rw [c.recorded_succ hlt, hid, hdata, hlen]
  · rw [heq]
    exact .apart ⟨nofun, nofun, nofun⟩

private theorem pollQuery_attribute {s s₁ : LanInventory} (hindex : s.queryIndex < kIdentityAttrCount)
    (h : s.pollQuery os = (st, s₁)) :
    ∃ msg tcp, s.msg.poll s.tcp os = (st, msg, tcp) ∧ s₁ = { s with msg := msg, tcp := tcp } := by
  obtain ⟨mst, msg, tcp, hm⟩ : ∃ mst msg tcp, s.msg.poll s.tcp os = (mst, msg, tcp) := ⟨_, _, _, rfl⟩
  rw [LanInventory.pollQuery, if_neg (by omega), hm, Prod.mk.injEq] at h
  obtain ⟨rfl, rfl⟩ := h
  exact ⟨msg, tcp, hm, rfl⟩

private theorem pollQuery_mode {s s₁ : LanInventory} (hindex : kIdentityAttrCount ≤ s.queryIndex)
    (h : s.pollQuery os = (st, s₁)) :
    ∃ tag msg tcp, s.tag.poll s.msg s.tcp os = (st, tag, msg, tcp) ∧
    s₁ = { s with tag := tag, msg := msg, tcp := tcp } := by
  obtain ⟨tst, tag, msg, tcp, ht⟩ : ∃ tst tag msg tcp, s.tag.poll s.msg s.tcp os = (tst, tag, msg, tcp) :=
    ⟨_, _, _, _, rfl⟩
  rw [LanInventory.pollQuery, if_pos hindex, ht, Prod.mk.injEq] at h
  obtain ⟨rfl, rfl⟩ := h
  exact ⟨tag, msg, tcp, ht, rfl⟩

/-- A query goes on, or ends as the sketch needs it. -/
theorem talk_query (hc : Honest handle c I) (hs : Sound p.sketch) (h : Talk handle c I p)
    (hp : p.sketch.phase = .query) (hstarted : p.sketch.stepStarted = true) {s₁ : LanInventory}
    (hpoll : p.sketch.pollQuery os = (st, s₁)) :
    (st ≠ .ok ∧ ¬ Fails st → Talk handle c I { p with sketch := s₁ }) ∧
      (st = .ok ∨ Fails st ∧ kIdentityAttrCount ≤ p.sketch.queryIndex →
        Talk handle c I { p with sketch := s₁.finishQuery } ∧
          (kIdentityAttrCount ≤ s₁.queryIndex → Faithful c s₁.printDevice)) := by
  have hq := (LanInventory.pollQuery_queried hpoll).1
  cases h with
  | identity phase started index id exchange =>
    obtain ⟨msg, tcp, hm, rfl⟩ := pollQuery_attribute index hpoll
    have hshort : ¬ kIdentityAttrCount ≤ p.sketch.queryIndex := Nat.not_le.2 index
    rcases exchange with ⟨session, context, exchange⟩ | hfailed
    · rcases attribute_polled hc (attr_mem index) hs.framed exchange hm with
        ⟨rfl, hexchange⟩ | ⟨rfl, hdata, hlen, hquiet, hdevice⟩ | ⟨hok, hpending, hfailed⟩
      · exact ⟨fun _ => .identity phase started index id (Or.inl ⟨session, context, hexchange⟩),
          fun hend => absurd hend (by simp [Fails])⟩
      · exact ⟨fun hst => absurd rfl hst.1, fun _ =>
          ⟨talk_answered hq hp (fun _ => ⟨hdata, hlen, hquiet, hdevice⟩) id, fun hle => absurd hle hshort⟩⟩
      · exact ⟨fun _ => .identity phase started index id (Or.inr hfailed),
          fun hend => absurd hend (not_or.2 ⟨hok, fun hf => hshort hf.2⟩)⟩
    · have hrest : ¬ p.sketch.msg.InFlight := by
        rintro (e | e) <;> rw [hfailed] at e <;> cases e
      rw [ExplicitMessage.poll_rest hrest, if_neg (by rw [hfailed]; decide), if_pos hfailed, Prod.mk.injEq,
        Prod.mk.injEq] at hm
      obtain ⟨rfl, rfl, rfl⟩ := hm
      exact ⟨fun hst => absurd (by decide) hst.2, fun hend => absurd hend (by simp [hshort])⟩
  | mode phase started index id blank exchange =>
    obtain ⟨tag, msg, tcp, ht, rfl⟩ := pollQuery_mode (Nat.le_of_eq index.symm) hpoll
    have hlast : ¬ p.sketch.queryIndex < kIdentityAttrCount := by omega
    have hrecorded : p.sketch.id = c.recorded p.sketch.queryIndex := by
      rw [index]
      exact id
    have hend (hshown : shown tag = c.runSwitch ∨ shown tag = .unavailable 0) :
        Talk handle c I
        { p with sketch := ({ p.sketch with tag := tag, msg := msg, tcp := tcp } : LanInventory).finishQuery } ∧
          (kIdentityAttrCount ≤ p.sketch.queryIndex →
            Faithful c ({ p.sketch with tag := tag, msg := msg, tcp := tcp } : LanInventory).printDevice) :=
      ⟨talk_answered hq hp (fun hlt => absurd hlt hlast) hrecorded, fun _ => ⟨id, hshown⟩⟩
    rcases exchange with ⟨hread, session, context, exchange⟩ | hfailed
    · rcases mode_polled hc hread blank exchange ht with ⟨rfl, rfl, hexchange⟩ | ⟨hpending, hshown, hfails⟩
      · exact ⟨fun _ => .mode phase started index id blank (Or.inl ⟨hread, session, context, hexchange⟩),
          fun hend => absurd hend (by simp [Fails])⟩
      · refine ⟨fun hst => ?_, fun _ => hend hshown⟩
        obtain ⟨hfailed, hblank⟩ := hfails hst.1 hst.2
        exact .mode phase started index id hblank (Or.inr hfailed)
    · have hrest : ¬ p.sketch.tag.InFlight := by
        rintro (e | e) <;> rw [hfailed] at e <;> cases e
      have hstatus : p.sketch.tag.status = .error := by rw [Tag.status, hfailed]
      rw [Tag.poll_rest hrest, hstatus, Prod.mk.injEq, Prod.mk.injEq, Prod.mk.injEq] at ht
      obtain ⟨rfl, rfl, rfl, rfl⟩ := ht
      exact ⟨fun hst => absurd (by decide) hst.2, fun _ => hend (Or.inr (shown_blank blank))⟩
  | apart phase => exact absurd hp phase.2.2
  | dialling phase => rw [hp] at phase; cases phase
  | registering phase => rw [hp] at phase; cases phase
  | lost phase => rw [hp] at phase; cases phase
  | between _ idle => rw [hstarted] at idle; cases idle

/-! ### The connection to a device -/

/-- A connection that is being made. -/
private theorem Talk.dialled (h : Talk handle c I p) (hp : p.sketch.phase = .connect) :
    0 ≤ p.sketch.tcp.fd → Fresh I p := by
  cases h with
  | dialling _ fresh => exact fresh
  | apart phase => exact absurd hp phase.1
  | registering phase => rw [hp] at phase; cases phase
  | lost phase => rw [hp] at phase; cases phase
  | between phase => rw [hp] at phase; cases phase
  | identity phase => rw [hp] at phase; cases phase
  | mode phase => rw [hp] at phase; cases phase

private theorem talk_dialling (h : Talk handle c I p) (hp : p.sketch.phase = .connect) {a : PollAnswers}
    {now : UInt32} {tcp : TcpConnection} (hpoll : p.sketch.tcp.poll a now = (st, tcp)) :
    tcp.sockets = p.sketch.tcp.sockets ∧
      (st ≠ .ok ∧ ¬ Fails st → Talk handle c I { p with sketch := { p.sketch with tcp := tcp } }) := by
  by_cases hfd : 0 ≤ p.sketch.tcp.fd
  · have hfresh := h.dialled hp hfd
    rcases TcpConnection.poll_connecting hfd hfresh.state hpoll with
      ⟨-, hfd', hstate, hsock, hsockets⟩ | ⟨rfl, -, -, -, hsockets⟩ | ⟨hst, hdropped⟩
    · refine ⟨hsockets, fun _ => .dialling hp fun _ => ⟨?_, ?_, hfresh.handled, hfresh.wire, hfresh.device⟩⟩
      · change tcp.state ≠ .ok
        rw [hstate]
        exact hfresh.state
      · change tcp.sock = {}
        rw [hsock, hfresh.sock]
    · exact ⟨hsockets, fun hst => absurd rfl hst.1⟩
    · exact ⟨hdropped.sockets, fun hgoing => absurd (hst.imp_right Or.inl) hgoing.2⟩
  · rw [TcpConnection.poll, if_pos (by omega), Prod.mk.injEq] at hpoll
    obtain ⟨rfl, rfl⟩ := hpoll
    exact ⟨rfl, fun hst => absurd (by decide) hst.2⟩

/-- The session that is opened on a new connection. -/
private theorem talk_connected (hs : Sound p.sketch) (h : Talk handle c I p) (hp : p.sketch.phase = .connect)
    {a : PollAnswers} {now now' : UInt32} {tcp : TcpConnection} (hpoll : p.sketch.tcp.poll a now = (.ok, tcp))
    (timeoutMs : UInt32) :
    Talk handle c I { p with sketch := { p.sketch with
      tcp := tcp, session := (p.sketch.session.open tcp timeoutMs now').2, phase := .register } } := by
  have hu := LanInventory.tcp_poll_ok hpoll
  have hfd : 0 ≤ p.sketch.tcp.fd := by
    by_contra hfd
    rw [TcpConnection.poll, if_pos (by omega), Prod.mk.injEq] at hpoll
    cases hpoll.1
  have hfresh := h.dialled hp hfd
  obtain ⟨x, hopen⟩ : ∃ x, p.sketch.session.open tcp timeoutMs now' = (.pending, x) := by
    rw [LanInventory.open_registering (hs.connecting hp) hu]
    exact ⟨_, rfl⟩
  rcases TcpConnection.poll_connecting hfd hfresh.state hpoll with ⟨hst, -⟩ | ⟨-, -, -, hsock, -⟩ | ⟨hst, -⟩
  · cases hst
  · rw [hopen]
    rw [hfresh.sock] at hsock
    have hquiet : Quiet { p.link with conn := tcp } := by
      refine ⟨hu, ?_, hfresh.wire, ?_⟩
      · change tcp.sock.inbox = []
        rw [hsock]
      · change p.handled = tcp.sock.sent.length
        rw [hfresh.handled, hsock]
        rfl
    exact .registering rfl _
      (.start (l := { p.link with conn := tcp }) hquiet (Session.open_started hopen) trivial hfresh.device)
  · simp at hst

/-- A session that is being opened stays so, or is lost, or is open with the device as it was. -/
private theorem talk_register (hc : Honest handle c I) (hs : Sound p.sketch) (h : Talk handle c I p)
    (hp : p.sketch.phase = .register) {x : Session} {tcp : TcpConnection}
    (hpoll : p.sketch.session.poll p.sketch.tcp (os.millis 0) os = (st, x, tcp)) :
    (st ≠ .ok ∧ st ≠ .error → Talk handle c I { p with sketch := { p.sketch with session := x, tcp := tcp } }) ∧
      (st = .ok → Quiet { p.link with conn := tcp } ∧ I p.peer) := by
  cases h with
  | registering phase context exchange =>
    have hx : p.sketch.session.Exchanging := exchange.going.1
    have hload := (hs.exchanging hx).2
    refine ⟨fun hst => ?_, fun hok => ?_⟩
    · by_cases hpending : st = .pending
      · rcases exchange.poll Session.faultless hpoll with ⟨-, hexchange⟩ | ⟨x₀, v₀, -, -, hended, -⟩ | hne
        · exact .registering phase context hexchange
        · exact absurd hpending hended.status
        · exact absurd hpending hne.2
      · rcases Session.poll_faulty hx (Nat.le_of_eq hload.len) hpoll ⟨hst.1, hpending⟩ with hfailed | herror | hlost
        · exact .lost phase (Or.inl hfailed)
        · exact absurd herror hst.2
        · exact .lost phase (Or.inr hlost)
    · rcases exchange.poll Session.faultless hpoll with ⟨hpending, -⟩ | ⟨x₀, v₀, -, hv₀, -, hquiet, hdone⟩ | hne
      · rw [hok] at hpending
        cases hpending
      · exact ⟨hquiet, hdone ▸ (hc.register v₀ context hv₀).1⟩
      · exact absurd hok hne.1
  | lost phase lost =>
    by_cases hx : p.sketch.session.Exchanging
    · obtain ⟨inp, hpolled⟩ := Session.poll_exchange hx (hs.exchanging hx).1 hpoll
      have hlost : ¬ p.sketch.tcp.Usable := by
        rcases lost with hfailed | hlost
        · rcases hx with e | e <;> rw [hfailed] at e <;> cases e
        · exact hlost
      have hlost' : ¬ tcp.Usable := fun hu => hlost (hpolled.moved.transfer.usable hu)
      refine ⟨fun _ => .lost phase (Or.inr hlost'), fun hok => ?_⟩
      rcases hs.registering hp with ⟨-, hlinked⟩ | hfailed
      · exact absurd ((Session.poll_linked hx (hs.exchanging hx).1 hlinked hpoll).1 hok) hlost'
      · rcases hx with e | e <;> rw [hfailed] at e <;> cases e
    · have hfailed : p.sketch.session.state = .failed :=
        (hs.registering hp).resolve_left fun hr => hx (Or.inl hr.1)
      rw [poll_failed hfailed, Prod.mk.injEq] at hpoll
      rw [← hpoll.1]
      exact ⟨fun hst => absurd rfl hst.2, nofun⟩
  | apart phase => exact absurd hp phase.2.1
  | dialling phase => rw [hp] at phase; cases phase
  | between phase => rw [hp] at phase; cases phase
  | identity phase => rw [hp] at phase; cases phase
  | mode phase => rw [hp] at phase; cases phase

private theorem attach_sketch {devices : IPAddress → Θ} {s : LanInventory}
    (h : s.tcp.sockets = p.sketch.tcp.sockets) :
    p.attach devices s = { p with sketch := s } := if_pos h

private theorem pollQuery_sockets {s s₁ : LanInventory} (h : s.pollQuery os = (st, s₁)) :
    s₁.tcp.sockets = s.tcp.sockets := by
  by_cases hindex : s.queryIndex < kIdentityAttrCount
  · obtain ⟨msg, tcp, hm, rfl⟩ := pollQuery_attribute hindex h
    exact ExplicitMessage.poll_sockets hm
  · obtain ⟨tag, msg, tcp, ht, rfl⟩ := pollQuery_mode (Nat.le_of_not_lt hindex) h
    exact Tag.poll_sockets ht

end Talk

/-! ### The server as a device -/

/-- What the synthetic server answers as long as nothing is written to it. -/
def serverCard : Card where
  attr a := (SyntheticServer.identityAttributes a).getD []
  status := 0
  mode := [0xC4, 0, 1, 0, 0, 0]

private theorem replies_server (context : UInt64) (service status : UInt8) {data : List UInt8}
    (h : 20 + data.length < 2 ^ 16) :
    RepliesWith context status data (SyntheticServer.unconnectedReply context ([service, 0, status, 0] ++ data)) :=
  ⟨_, SyntheticServer.unconnectedReply_frame context service status h, rfl, UInt64.ofNat_toNat, rfl, rfl⟩

theorem honest_server : Honest SyntheticServer.handle serverCard fun v => v = {} := by
  have hidentity : ∀ a ∈ kIdentityAttrs,
      SyntheticServer.identity (appendAttribute a) = [0x8E, 0, 0, 0] ++ serverCard.attr a := by
    decide +kernel
  have hattrs : ∀ a ∈ kIdentityAttrs, (serverCard.attr a).length ≤ 252 := by decide +kernel
  have hmode : SyntheticServer.readTag {} (appendSymbolic modeTag) = [0xCC, 0, 0, 0] ++ serverCard.mode := by
    decide +kernel
  constructor
  · rintro v context rfl
    rw [SyntheticServer.handle_registerFrame]
    exact ⟨rfl, Site.whole_registered context⟩
  · rintro v session context a rfl ha
    have hlong : 20 + (serverCard.attr a).length < 2 ^ 16 := by
      have hle := hattrs a ha
      omega
    have hunconnected : SyntheticServer.unconnected {} session Service.getAttributeSingle.code
        (appendClass 1 ++ appendInstance 1) (appendAttribute a) =
        ({}, SyntheticServer.identity (appendAttribute a)) :=
      if_pos ⟨rfl, rfl⟩
    have hfits : 2 + (appendClass 1 ++ appendInstance 1).length + (appendAttribute a).length ≤
        ExplicitMessage.kMaxCipData := show 2 + 4 + 2 ≤ 256 by omega
    have hall : 2 ≤ (appendClass 1 ++ appendInstance 1).length + (appendAttribute a).length :=
      show 2 ≤ 4 + 2 by omega
    rw [attributeFrame, SyntheticServer.handle_requestFrame rfl hfits hall, hunconnected, hidentity a ha]
    exact ⟨rfl, 0, replies_server context 0x8E 0 hlong⟩
  · rintro v session context rfl
    rw [modeFrame, SyntheticServer.handle_requestFrame (by decide) (by decide) (by decide),
      SyntheticServer.unconnected_read, hmode]
    exact ⟨rfl, replies_server context 0xCC 0 (by decide)⟩
  · exact ⟨hattrs, by decide⟩

/-! ### Every run -/

section Run

variable {handle : Θ → List UInt8 → Θ × List UInt8} {p : Plant Θ} {os : Platform}
  {cards : IPAddress → Card} {J : IPAddress → Θ → Prop} {devices : IPAddress → Θ} {lan : Lan}

/-- A call of `loop()` on the connection there is. -/
private theorem Genuine.kept {s : LanInventory} (h : Genuine handle cards J p) (hs : Sound s)
    (hsockets : s.tcp.sockets = p.sketch.tcp.sockets) (hip : s.currentIp = p.sketch.currentIp)
    (htalk : Talk handle (cards p.sketch.currentIp) (J p.sketch.currentIp) { p with sketch := s })
    (hreports : ∀ r ∈ s.reports, r ∈ p.sketch.reports ∨ Faithful (cards r.ip) r) :
    Genuine handle cards J (p.attach devices s) := by
  rw [attach_sketch hsockets]
  refine ⟨hs, ?_, fun r hr => (hreports r hr).elim (h.reports r) fun hf => hf⟩
  change Talk handle (cards s.currentIp) (J s.currentIp) { p with sketch := s }
  rw [hip]
  exact htalk

/-- A call of `loop()` after which no device is being talked to. -/
private theorem Genuine.left {s : LanInventory} (h : Genuine handle cards J p) (hs : Sound s)
    (hsockets : s.tcp.sockets = p.sketch.tcp.sockets) (hreports : s.reports = p.sketch.reports)
    (hphase : s.phase ≠ .connect ∧ s.phase ≠ .register ∧ s.phase ≠ .query) :
    Genuine handle cards J (p.attach devices s) := by
  rw [attach_sketch hsockets]
  refine ⟨hs, .apart hphase, ?_⟩
  change ∀ r ∈ s.reports, Faithful (cards r.ip) r
  rw [hreports]
  exact h.reports

theorem genuine_loop (hcards : ∀ ip, Honest handle (cards ip) (J ip)) (hdevices : ∀ ip, J ip (devices ip))
    (h : Genuine handle cards J p) (os : Platform) :
    Genuine handle cards J (p.attach devices (p.sketch.loop lan os)) := by
  have hl := LanInventory.loop_cases lan os p.sketch
  have hsound := LanInventory.sound_loop h.sound hl
  have hc := hcards p.sketch.currentIp
  have hsame : ∀ r ∈ p.sketch.reports, r ∈ p.sketch.reports ∨ Faithful (cards r.ip) r := fun r hr => Or.inl hr
  generalize p.sketch.loop lan os = s at hl hsound ⊢
  cases hl with
  | rests => exact h.kept hsound rfl rfl h.talk hsame
  | waits => exact h.kept hsound rfl rfl h.talk hsame
  | fails => exact h.left hsound rfl rfl ⟨nofun, nofun, nofun⟩
  | starts => exact h.left hsound rfl rfl ⟨nofun, nofun, nofun⟩
  | ends => exact h.left hsound rfl rfl ⟨nofun, nofun, nofun⟩
  | skips phase => exact h.left hsound rfl rfl (by simp [phase])
  | dials phase ip =>
    obtain ⟨st, tcp, hconnect⟩ : ∃ st tcp, p.sketch.tcp.connect ip LanInventory.EIP_PORT LanInventory.SCAN_TIMEOUT_MS
      os.connect (os.millis 0) = (st, tcp) := ⟨_, _, rfl⟩
    rw [hconnect] at hsound ⊢
    rcases TcpConnection.connect_cases hconnect with ⟨-, hdialled⟩ | ⟨-, hdropped⟩
    · have hnew : ¬ tcp.sockets = p.sketch.tcp.sockets := by
        have hsockets := hdialled.sockets
        omega
      rw [attach, if_neg hnew]
      refine ⟨hsound, .dialling rfl fun _ => ⟨?_, hdialled.sock, rfl, rfl, hdevices ip⟩, h.reports⟩
      change tcp.state ≠ .ok
      rw [hdialled.state]
      decide
    · rw [attach_sketch hdropped.sockets]
      refine ⟨hsound, .dialling rfl fun hfd => ?_, h.reports⟩
      have hfd' : 0 ≤ tcp.fd := hfd
      have hneg := hdropped.fd
      omega
  | connecting phase st tcp polled going =>
    obtain ⟨hsockets, htalk⟩ := talk_dialling h.talk phase polled
    exact h.kept hsound hsockets rfl (htalk going) hsame
  | refused phase st tcp polled =>
    obtain ⟨hsockets, -⟩ := talk_dialling h.talk phase polled
    exact h.left hsound ((TcpConnection.close_dropped tcp).sockets.trans hsockets) rfl ⟨nofun, nofun, nofun⟩
  | connected phase tcp polled =>
    obtain ⟨hsockets, -⟩ := talk_dialling h.talk phase polled
    exact h.kept hsound hsockets rfl (talk_connected h.sound h.talk phase polled _) hsame
  | registering phase st session tcp polled going =>
    have hsockets := Session.poll_sockets polled
    exact h.kept hsound hsockets rfl ((talk_register hc h.sound h.talk phase polled).1 ⟨going.1, going.2.2⟩) hsame
  | rejected phase st session tcp polled =>
    have hsockets := Session.poll_sockets polled
    exact h.left hsound ((TcpConnection.close_dropped tcp).sockets.trans hsockets) rfl ⟨nofun, nofun, nofun⟩
  | registered phase session tcp polled =>
    have hsockets := Session.poll_sockets polled
    obtain ⟨hquiet, hdevice⟩ := (talk_register hc h.sound h.talk phase polled).2 rfl
    exact h.kept hsound hsockets rfl (.between rfl rfl hquiet hdevice rfl) hsame
  | asks phase idle =>
    obtain ⟨hq, htcp⟩ := p.sketch.startQuery_queried (os.millis 0)
    refine h.kept hsound (by rw [htcp]) hq.currentIp (talk_asks h.sound h.talk phase idle _) ?_
    rw [hq.reports]
    exact hsame
  | asking phase started st s₁ polled going =>
    have hq := (LanInventory.pollQuery_queried polled).1
    refine h.kept hsound (pollQuery_sockets polled) hq.currentIp
      ((talk_query hc h.sound h.talk phase started polled).1 going) ?_
    rw [hq.reports]
    exact hsame
  | drops phase started st s₁ polled =>
    have hq := (LanInventory.pollQuery_queried polled).1
    exact h.left hsound ((TcpConnection.close_dropped s₁.tcp).sockets.trans (pollQuery_sockets polled)) hq.reports
      ⟨nofun, nofun, nofun⟩
  | answered phase started st s₁ polled ended =>
    have hq := (LanInventory.pollQuery_queried polled).1
    obtain ⟨htalk, hreport⟩ := (talk_query hc h.sound h.talk phase started polled).2 ended
    have hsockets := pollQuery_sockets polled
    rcases s₁.finishQuery_cases with ⟨-, heq⟩ | ⟨hlast, heq⟩
    · rw [heq] at hsound htalk ⊢
      refine h.kept hsound hsockets hq.currentIp htalk ?_
      rw [← hq.reports] at hsame ⊢
      exact hsame
    · rw [heq] at hsound htalk ⊢
      refine h.kept hsound hsockets hq.currentIp htalk fun r hr => ?_
      rcases List.mem_append.1 hr with hold | hnew
      · rw [hq.reports] at hold
        exact hsame r hold
      · obtain rfl := List.mem_singleton.1 hnew
        right
        change Faithful (cards s₁.currentIp) s₁.printDevice
        rw [hq.currentIp]
        exact hreport hlast
  | closing phase st session tcp polled =>
    have hsockets := Session.poll_sockets polled
    exact h.left hsound hsockets rfl (by simp [phase])
  | closed phase st session session' tcp polled =>
    have hsockets := Session.poll_sockets polled
    exact h.left hsound ((TcpConnection.close_dropped tcp).sockets.trans hsockets) rfl ⟨nofun, nofun, nofun⟩

theorem genuine_move (hcards : ∀ ip, Honest handle (cards ip) (J ip)) (hdevices : ∀ ip, J ip (devices ip))
    (h : Genuine handle cards J p) (m : Move) : Genuine handle cards J (p.move lan handle devices m) := by
  cases m with
  | poll os => exact genuine_loop hcards hdevices h os
  | serve =>
    rw [move]
    cases hf : p.link.request with
    | none => exact h
    | some f => exact ⟨h.sound, talk_serve (hcards p.sketch.currentIp) h.talk hf, h.reports⟩
  | deliver k =>
    exact ⟨LanInventory.sound_step lan h.sound (.deliver (p.wire.take k)), talk_deliver h.talk k, h.reports⟩

/-- Every report of the sketch is about the device at its address: it has the identity of that device, and says of the
run switch what the device answers, or nothing when the query has failed. -/
theorem reports_genuine (hcards : ∀ ip, Honest handle (cards ip) (J ip)) (hdevices : ∀ ip, J ip (devices ip))
    (lan : Lan) (began configured : Bool) (ms : List Move) :
    ∀ r ∈ (run lan handle devices began configured ms).sketch.reports, Faithful (cards r.ip) r := by
  have hrun : ∀ p : Plant Θ, Genuine handle cards J p →
      Genuine handle cards J (ms.foldl (move lan handle devices) p) := by
    induction ms with
    | nil => exact fun p h => h
    | cons m ms ih => exact fun p h => ih _ (genuine_move hcards hdevices h m)
  have hphase : (LanInventory.setup {} began configured).phase ≠ .connect ∧
      (LanInventory.setup {} began configured).phase ≠ .register ∧
      (LanInventory.setup {} began configured).phase ≠ .query := by
    revert began configured
    decide
  exact (hrun _ ⟨LanInventory.sound_setup began configured, .apart hphase, fun r hr =>
    absurd hr List.not_mem_nil⟩).reports

end Run

/-- The sketch dials the first host, and registers a session and asks its nine queries with nothing split. -/
def survey : List Move :=
  List.replicate 5 (.poll {}) ++ flush (fun _ => 0) ++ (List.replicate 9 (.poll {} :: flush fun _ => 0)).flatten

theorem reports_genuine_survey :
    (run LanInventory.smallLan SyntheticServer.handle (fun _ => {}) true true survey).sketch.reports.map Report.ip =
      [.ofOctets 192 168 1 3] ∧
    ∀ r ∈ (run LanInventory.smallLan SyntheticServer.handle (fun _ => {}) true true survey).sketch.reports,
      r.id.serial = 0x12345678 := by
  have hserial : serverCard.identity.serial = 0x12345678 := by decide +kernel
  refine ⟨by decide +kernel, fun r hr => ?_⟩
  have hfaithful :=
    reports_genuine (fun _ => honest_server) (fun _ => rfl) LanInventory.smallLan true true survey r hr
  rw [hfaithful.1]
  exact hserial

end Plant

end ControlLogix
