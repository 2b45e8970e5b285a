import ControlLogix.Chunking
import ControlLogix.Replies

/-!
# The peer at the other end of the connection

A `Link` is a TCP connection together with what its two ends do not share: how many of the bytes the client has sent
the peer has taken, and which bytes of the peer are still on the way.  The peer takes whole requests and answers each
with one frame.

* `Quiet`: nothing is on the way in either direction;
* `Asking`, `Answered`: the exchange that a machine runs, before and after the peer has taken the request;
* `Answered.poll`: the exchange ends when the machine has read exactly the answer, and leaves the link quiet;
* `whole_requestFrame`, `whole_connectedFrame`, `Reply.whole`: the frames of the library are whole frames.
-/

namespace ControlLogix

open Buffers (Underway taken verdict received bodyLength)

/-- A header and the body it announces. -/
def WholeFrame (f : List UInt8) : Prop := f.length = 24 + bodyLength f

instance decidableWholeFrame (f : List UInt8) : Decidable (WholeFrame f) := inferInstanceAs (Decidable (_ = _))

/-- `handled` of the bytes sent over `conn` have been taken by the peer, and its bytes in `wire` have not arrived. -/
structure Link where
  conn : TcpConnection
  handled : Nat := 0
  wire : List UInt8 := []

namespace Link

/-- What the client has sent and the peer has not taken. -/
def unhandled (l : Link) : List UInt8 := l.conn.sock.sent.drop l.handled

/-- The next request, when the whole of it has been sent. -/
def request (l : Link) : Option (List UInt8) :=
  if 24 ≤ l.unhandled.length ∧ 24 + bodyLength l.unhandled ≤ l.unhandled.length then
    some (l.unhandled.take (24 + bodyLength l.unhandled))
  else none

/-- The peer takes a request and sends a reply. -/
def answer (l : Link) (request reply : List UInt8) : Link :=
  { l with handled := l.handled + request.length, wire := l.wire ++ reply }

/-- Up to `k` bytes of the peer arrive. -/
def deliver (l : Link) (k : Nat) : Link :=
  { l with conn := l.conn.deliver (l.wire.take k), wire := l.wire.drop k }

/-- Nothing is on the way. -/
structure Quiet (l : Link) : Prop where
  usable : l.conn.Usable
  inbox : l.conn.sock.inbox = []
  wire : l.wire = []
  handled : l.handled = l.conn.sock.sent.length

theorem Quiet.request {l : Link} (h : l.Quiet) : l.request = none := by
  have hnil : l.unhandled = [] := by
    rw [unhandled, h.handled, List.drop_length]
  rw [Link.request, hnil, if_neg]
  simp

theorem Quiet.deliver {l : Link} (h : l.Quiet) (k : Nat) : (l.deliver k).Quiet := by
  have hnil : l.wire.take k = [] := by rw [h.wire, List.take_nil]
  refine ⟨h.usable, ?_, ?_, h.handled⟩
  · change l.conn.sock.inbox ++ l.wire.take k = []
    rw [hnil, List.append_nil, h.inbox]
  · change l.wire.drop k = []
    rw [h.wire, List.drop_nil]

/-! ### An exchange -/

section Exchange

variable {σ : Type} (M : Machine σ) (s₀ : σ) (conn₀ : TcpConnection)

/-- The peer has not taken the request. -/
structure Asking (s : σ) (l : Link) : Prop where
  mid : M.Midway s₀ conn₀ [] s l.conn
  handled : l.handled = conn₀.sock.sent.length
  wire : l.wire = []

/-- The peer has taken the request and sent `reply`. -/
structure Answered (reply : List UInt8) (s : σ) (l : Link) : Prop where
  arriving : ∃ arrived, arrived ++ l.wire = reply ∧ M.Midway s₀ conn₀ arrived s l.conn
  sent : (M.buffers s).txLen ≤ (M.buffers s).txSent
  handled : l.handled = l.conn.sock.sent.length
  whole : WholeFrame reply
  fits : bodyLength reply ≤ M.cap

/-- `poll()` has concluded the exchange. -/
structure Ended (reply : List UInt8) (st : Status) (s : σ) : Prop where
  status : st ≠ .pending
  concluded : (st, s) = M.conclude (M.put s₀ (received M.cap (M.buffers s₀) reply)) .ok

variable {M s₀ conn₀} {s s' : σ} {l : Link} {conn' : TcpConnection} {os : Platform} {st : Status}
  {req reply : List UInt8}

theorem Quiet.start (h : l.Quiet) (hs : M.Started s req) : Asking M s l.conn s l := by
  have hmid := hs.midway h.usable
  rw [h.inbox] at hmid
  exact ⟨hmid, h.handled, h.wire⟩

theorem Asking.deliver (h : Asking M s₀ conn₀ s l) (k : Nat) : Asking M s₀ conn₀ s (l.deliver k) := by
  have hnil : l.wire.take k = [] := by rw [h.wire, List.take_nil]
  refine ⟨?_, h.handled, ?_⟩
  · change M.Midway s₀ conn₀ [] s (l.conn.deliver (l.wire.take k))
    rw [hnil]
    exact h.mid.deliver []
  · change l.wire.drop k = []
    rw [h.wire, List.drop_nil]

theorem Answered.deliver (h : Answered M s₀ conn₀ reply s l) (k : Nat) :
    Answered M s₀ conn₀ reply s (l.deliver k) := by
  obtain ⟨arrived, hsplit, hmid⟩ := h.arriving
  refine ⟨⟨arrived ++ l.wire.take k, ?_, hmid.deliver _⟩, h.sent, h.handled, h.whole, h.fits⟩
  change arrived ++ l.wire.take k ++ l.wire.drop k = reply
  rw [List.append_assoc, List.take_append_drop]
  exact hsplit

/-- Without an answer the exchange waits. -/
theorem Asking.poll (h : Asking M s₀ conn₀ s l) (hs : M.Started s₀ req)
    (ht : Turn.InTime (M.deadline s₀) (.poll os)) (hp : M.poll s l.conn os = (st, s', conn')) :
    st = .pending ∧ Asking M s₀ conn₀ s' { l with conn := conn' } := by
  rcases h.mid.poll hs.loaded.fits ht hp with ⟨hst, hmid, -⟩ | ⟨-, htaken, -⟩
  · exact ⟨hst, hmid, h.handled, h.wire⟩
  · have hge := Buffers.taken_ge M.cap []
    rw [List.length_nil] at htaken
    omega

/-- An exchange under way whose frame has been read has read the whole answer. -/
private theorem arrived_whole {arrived wire : List UInt8} {cap : Nat} (hsplit : arrived ++ wire = reply)
    (hwhole : WholeFrame reply) (hfits : bodyLength reply ≤ cap) (htaken : taken cap arrived ≤ arrived.length) :
    arrived = reply ∧ wire = [] ∧ taken cap reply = reply.length ∧ verdict cap reply = .ok := by
  have hge := Buffers.taken_ge cap arrived
  have hbody : bodyLength arrived = bodyLength reply := by
    rw [← hsplit]
    exact (Reply.bodyLength_starts (by omega)).symm
  have hsmall : ¬ cap < bodyLength reply := Nat.not_lt.2 hfits
  have hlen := congrArg List.length hsplit
  rw [List.length_append] at hlen
  have hwire : wire = [] := by
    apply List.length_eq_zero_iff.1
    rw [taken, hbody, if_neg hsmall] at htaken
    unfold WholeFrame at hwhole
    omega
  rw [hwire, List.append_nil] at hsplit
  refine ⟨hsplit, hwire, ?_, ?_⟩
  · rw [taken, if_neg hsmall]
    exact hwhole.symm
  · rw [verdict, if_neg hsmall]

/-- The exchange waits for the rest of the answer, or ends with it. -/
theorem Answered.poll (h : Answered M s₀ conn₀ reply s l) (hs : M.Started s₀ req)
    (ht : Turn.InTime (M.deadline s₀) (.poll os)) (hp : M.poll s l.conn os = (st, s', conn')) :
    (st = .pending ∧ Answered M s₀ conn₀ reply s' { l with conn := conn' }) ∨
      (Ended M s₀ reply st s' ∧ Quiet { l with conn := conn' }) := by
  obtain ⟨arrived, hsplit, hmid⟩ := h.arriving
  have hall : (M.buffers s).txSent = (M.buffers s₀).txLen := by
    have hle := hmid.underway.sent
    have hlen : (M.buffers s).txLen = (M.buffers s₀).txLen := hmid.underway.tx.2
    have hsent := h.sent
    omega
  have hbefore := hmid.underway.written
  rw [hall] at hbefore
  rcases hmid.poll hs.loaded.fits ht hp with ⟨hst, hmid', hmono⟩ | ⟨hne, htaken, hunder, hb, hcon⟩
  · have hlen' : (M.buffers s').txLen = (M.buffers s₀).txLen := hmid'.underway.tx.2
    have hle' := hmid'.underway.sent
    have hall' : (M.buffers s').txSent = (M.buffers s₀).txLen := by omega
    have hafter := hmid'.underway.written
    rw [hall', ← hbefore] at hafter
    refine Or.inl ⟨hst, ⟨arrived, hsplit, hmid'⟩, by omega, ?_, h.whole, h.fits⟩
    change l.handled = conn'.sock.sent.length
    rw [hafter]
    exact h.handled
  · obtain ⟨rfl, hwire, hlen, hverdict⟩ := arrived_whole hsplit h.whole h.fits htaken
    rw [hverdict] at hcon
    refine Or.inr ⟨⟨hne, hcon⟩, hunder.usable, ?_, hwire, ?_⟩
    · change conn'.sock.inbox = []
      have hrest := hunder.inbox
      rw [hb] at hrest
      change conn'.sock.inbox = arrived.drop (taken M.cap arrived) at hrest
      rw [hrest, hlen, List.drop_length]
    · change l.handled = conn'.sock.sent.length
      have hafter := hunder.written
      rw [hb] at hafter
      change conn'.sock.sent = conn₀.sock.sent ++ (M.buffers s₀).tx.take (M.buffers s₀).txLen at hafter
      rw [hafter, ← hbefore]
      exact h.handled

/-- What the peer finds is the request, when all of it has been sent. -/
theorem Asking.request (h : Asking M s₀ conn₀ s l) (hs : M.Started s₀ req) (hwhole : WholeFrame req)
    {f : List UInt8} (hf : l.request = some f) : f = req ∧ (M.buffers s).txLen ≤ (M.buffers s).txSent := by
  have hreq := hs.request
  have hlen : (M.buffers s).txLen = (M.buffers s₀).txLen := h.mid.underway.tx.2
  have hfit := hs.loaded.fits
  have hreqlen : req.length = (M.buffers s₀).txLen := by
    rw [hreq, List.length_take]
    omega
  have hle := h.mid.underway.sent
  have hun : l.unhandled = req.take (M.buffers s).txSent := by
    rw [unhandled, h.handled, h.mid.underway.written, List.drop_left, hreq, List.take_take,
      Nat.min_eq_left (by omega)]
  rw [Link.request, hun] at hf
  split at hf
  · rename_i hall
    obtain ⟨h24, hbody⟩ := hall
    rw [List.length_take] at h24 hbody
    have hstart : bodyLength (req.take (M.buffers s).txSent) = bodyLength req := by
      have happ := Reply.bodyLength_starts (p := req.take (M.buffers s).txSent)
        (q := req.drop (M.buffers s).txSent) (by rw [List.length_take]; exact h24)
      rw [List.take_append_drop] at happ
      exact happ.symm
    rw [hstart] at hbody hf
    unfold WholeFrame at hwhole
    have hsent : (M.buffers s).txSent = req.length := by omega
    simp only [Option.some.injEq] at hf
    rw [hsent, List.take_length, ← hwhole, List.take_length] at hf
    exact ⟨hf.symm, by omega⟩
  · cases hf

theorem Asking.answer (h : Asking M s₀ conn₀ s l) (hs : M.Started s₀ req) (hwhole : WholeFrame req)
    {f : List UInt8} (hf : l.request = some f) (hreply : WholeFrame reply) (hfits : bodyLength reply ≤ M.cap) :
    Answered M s₀ conn₀ reply s (l.answer f reply) := by
  obtain ⟨rfl, hsent⟩ := h.request hs hwhole hf
  have hlen : (M.buffers s).txLen = (M.buffers s₀).txLen := h.mid.underway.tx.2
  have hle := h.mid.underway.sent
  have hall : (M.buffers s).txSent = (M.buffers s₀).txLen := by omega
  refine ⟨⟨[], ?_, h.mid⟩, hsent, ?_, hreply, hfits⟩
  · change [] ++ (l.wire ++ reply) = reply
    rw [h.wire]
    rfl
  · change l.handled + f.length = l.conn.sock.sent.length
    have hwritten := h.mid.underway.written
    rw [hall, ← hs.request] at hwritten
    rw [hwritten, List.length_append, h.handled]

theorem Answered.request (h : Answered M s₀ conn₀ reply s l) : l.request = none := by
  have hnil : l.unhandled = [] := by
    rw [unhandled, h.handled, List.drop_length]
  rw [Link.request, hnil, if_neg]
  simp

end Exchange

end Link

/-- The receive buffer begins with the frame that has been read. -/
theorem received_whole {cap : Nat} {reply : List UInt8} (hwhole : WholeFrame reply) (hfits : bodyLength reply ≤ cap)
    (b : Buffers) :
    (received cap b reply).rx = reply ++ b.rx.drop reply.length ∧ (received cap b reply).rxLen = reply.length := by
  have hlen : taken cap reply = reply.length := by
    rw [taken, if_neg (Nat.not_lt.2 hfits)]
    exact hwhole.symm
  unfold received
  dsimp only
  rw [hlen, List.take_length]
  refine ⟨?_, rfl⟩
  rw [Bytes.store, List.take_zero, List.nil_append, Nat.zero_add]

/-! ### The frames of this library -/

theorem Reply.whole (r : Reply) : WholeFrame r.frame := by
  have hbody := r.bodyLength_frame []
  rw [List.append_nil] at hbody
  rw [WholeFrame, hbody, Reply.length_frame]
  omega

theorem ExplicitMessage.whole_requestFrame (session : UInt32) (context : UInt64) (service : UInt8)
    {path data : List UInt8} (h : 2 + path.length + data.length ≤ kMaxCipData) :
    WholeFrame (requestFrame session context service path data) := by
  have hk : kMaxCipData = 256 := rfl
  have hbody : bodyLength (requestFrame session context service path data) = 16 +
    (2 + path.length + data.length) := by
    rw [bodyLength, decode_requestFrame, cipLength_small h]
    simp only [requestHeader, UInt16.toNat_ofNat']
    omega
  rw [WholeFrame, hbody, length_requestFrame]
  omega

namespace ExplicitMessage

/-- The message when the whole of a reply that fits has been read. -/
theorem put_frame (msg : ExplicitMessage) {r : Reply} (hfits : r.data.length ≤ 252) :
    let m := machine.put msg (received machine.cap msg.toBuffers r.frame)
    m.rx = r.frame ++ msg.rx.drop r.frame.length ∧ m.rxLen = 44 + r.data.length ∧
    m.sentContext = msg.sentContext := by
  have hbody : bodyLength r.frame = 20 + r.data.length := by
    have hlen := r.bodyLength_frame []
    rwa [List.append_nil] at hlen
  have hcap : bodyLength r.frame ≤ machine.cap := by
    change bodyLength r.frame ≤ 272
    omega
  obtain ⟨hrx, hlen⟩ := received_whole r.whole hcap msg.toBuffers
  rw [Reply.length_frame] at hlen
  exact ⟨hrx, hlen, rfl⟩

/-- What a whole reply to the last request makes of the message. -/
theorem conclude_frame {m : ExplicitMessage} {r : Reply} {rest : List UInt8} (hrx : m.rx = r.frame ++ rest)
    (hlen : m.rxLen = 44 + r.data.length) (hstatus : r.encapStatus = 0) (hcontext : r.context = m.sentContext) :
    m.conclude .ok = (.ok, { m.respond r.response with state := .done }) ∧
      ({ m.respond r.response with state := .done } : ExplicitMessage).data = r.data := by
  constructor
  · apply conclude_parsed
    rw [hrx, hlen, Reply.parse_frame, if_pos ⟨hstatus, hcontext⟩]
  · change (m.rx.drop 44).take r.data.length = r.data
    rw [hrx]
    exact r.data_frame rest

end ExplicitMessage

theorem Connection.decode_connectedFrame (session : UInt32) (context : UInt64) (otConnId : UInt32) (sequence : UInt16)
    (service : UInt8) (path data : List UInt8) :
    decodeHeader (connectedFrame session context otConnId sequence service path data) =
      connectedHeader session context (ExplicitMessage.cipLength path.length data.length) := by
  simp only [connectedFrame, List.append_assoc]
  exact decodeHeader_encodeHeader _ _

theorem Connection.whole_connectedFrame (session : UInt32) (context : UInt64) (otConnId : UInt32) (sequence : UInt16)
    (service : UInt8) {path data : List UInt8} (h : 2 + path.length + data.length ≤ kMaxDataSize) :
    WholeFrame (connectedFrame session context otConnId sequence service path data) := by
  have hk : kMaxDataSize = 256 := rfl
  have hbody : bodyLength (connectedFrame session context otConnId sequence service path data) =
      22 + (2 + path.length + data.length) := by
    rw [bodyLength, decode_connectedFrame, cipLength_small h]
    simp only [connectedHeader, UInt16.toNat_ofNat']
    omega
  rw [WholeFrame, hbody, length_connectedFrame]
  omega

end ControlLogix
