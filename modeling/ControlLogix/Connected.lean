import ControlLogix.Conversation
import ControlLogix.Server

/-!
# Connected messaging

A `Connection` and the synthetic server, over one link and with one session handle.  `open()`, any number of `send()`
and `close()` are called one after the other, each run to completion however moves split what passes.

* `Paired`: an open connection and the server have the same connection IDs;
* `open_paired`, `send_paired`, `close_ended`: what the three calls come to;
* `connected_messaging`: `open()` works, each accepted `send()` ends with the response that the server computed for
  it, and `close()` works and leaves the connection closed.
-/

namespace ControlLogix

open Bytes
open ExplicitMessage (Backed requestFrame kMaxCipData)
open Buffers (received bodyLength)

structure Messaging where
  c : Connection := {}
  link : Link
  server : SyntheticServer := {}

namespace Messaging

/-- The times of a call, and what happens until its exchange has ended. -/
structure Course where
  timeoutMs : UInt32
  now : UInt32
  moves : List Move
  millis : Nat → UInt32

/-- No call of `poll()` comes after the deadline or finds the transport failed. -/
structure Course.Fair (o : Course) : Prop where
  moves : ∀ m ∈ o.moves, m.InTime (o.now + o.timeoutMs)
  last : expired (o.millis 0) (o.now + o.timeoutMs) = false

/-- A call of `send()`. -/
structure Request where
  service : UInt8
  path : Option (List UInt8)
  pathLen : Nat
  data : Option (List UInt8)
  dataLen : Nat
  course : Course

def Request.pathBytes (r : Request) : List UInt8 := (r.path.getD []).take r.pathLen

def Request.dataBytes (r : Request) : List UInt8 := (r.data.getD []).take r.dataLen

structure Request.Fair (r : Request) : Prop where
  backed : Backed r.path r.pathLen r.data r.dataLen
  course : r.course.Fair

/-! ### Running calls -/

/-- A call that was refused is over, one that was accepted is run to completion. -/
def complete (m : Messaging) (o : Course) : Status × Connection → Status × Messaging
  | (.pending, c) =>
    match Link.converse Connection.poll SyntheticServer.handle c m.link m.server (o.moves ++ flush o.millis) with
    | (st, c, link, server) => (st, { c := c, link := link, server := server })
  | (st, c) => (st, { m with c := c })

def «open» (m : Messaging) (sessionHandle : UInt32) (name : List UInt8) (random : UInt32) (o : Course) :
    Status × Messaging :=
  m.complete o (m.c.open m.link.conn sessionHandle (some name) o.timeoutMs o.now random)

def startSend (m : Messaging) (sessionHandle : UInt32) (r : Request) : Status × Connection :=
  m.c.send sessionHandle r.service r.path r.pathLen r.data r.dataLen r.course.timeoutMs r.course.now

def send (m : Messaging) (sessionHandle : UInt32) (r : Request) : Status × Messaging :=
  m.complete r.course (m.startSend sessionHandle r)

def close (m : Messaging) (sessionHandle : UInt32) (o : Course) : Status × Messaging :=
  m.complete o (m.c.close m.link.conn sessionHandle o.timeoutMs o.now)

def sendAll (sessionHandle : UInt32) : Messaging → List Request → Messaging
  | m, [] => m
  | m, r :: rs => sendAll sessionHandle (m.send sessionHandle r).2 rs

/-- Nothing is going on, nothing is on the way, and the server has its own tags. -/
structure Initial (m : Messaging) : Prop where
  rest : ¬ m.c.InFlight
  free : ¬ m.c.fwd.InFlight
  quiet : m.link.Quiet
  tags : m.server.tags = ({} : SyntheticServer).tags

/-- The response that the server computes for a request. -/
def response (m : Messaging) (r : Request) : List UInt8 := (m.server.connected r.service r.pathBytes r.dataBytes).2

/-- The connection is open and holds the response of the server to the request. -/
structure Answered (m : Messaging) (r : Request) (m' : Messaging) : Prop where
  opened : m'.c.isOpen
  replyService : m'.c.replyService = peek (m.response r) 0
  resultCode : m'.c.resultCode = peek (m.response r) 2
  data : m'.c.data = (m.response r).drop 4
  server : m'.server = (m.server.connected r.service r.pathBytes r.dataBytes).1

/-! ### The invariant -/

/-- The connection is open, nothing is on the way, and the server has it under the IDs the client uses. -/
structure Paired (sessionHandle : UInt32) (m : Messaging) : Prop where
  opened : m.c.state = .open
  free : ¬ m.c.fwd.InFlight
  quiet : m.link.Quiet
  known : m.server.connections sessionHandle = some ⟨m.c.otConnId, m.c.toConnId⟩
  small : m.server.Small

section Exchange

variable {m m' : Messaging} {o : Course} {sessionHandle : UInt32} {st : Status}

/-- A call that was accepted ends with the answer of the server. -/
private theorem complete_ended {M : Machine Connection} {c : Connection} {req reply : List UInt8}
    {server : SyntheticServer} (hpoll : M.poll = Connection.poll) (hquiet : m.link.Quiet) (ho : o.Fair)
    (hs : M.Started c req) (hdeadline : M.deadline c = o.now + o.timeoutMs) (hreq : WholeFrame req)
    (hhandle : m.server.handle req = (server, reply)) (hreply : WholeFrame reply) (hfits : bodyLength reply ≤ M.cap)
    (h : m.complete o (.pending, c) = (st, m')) :
    Link.Ended M c reply st m'.c ∧ m'.link.Quiet ∧ m'.server = server := by
  obtain ⟨st₁, c₁, link₁, server₁, hcon⟩ : ∃ st c₁ link₁ server₁, Link.converse M.poll SyntheticServer.handle c m.link
    m.server (o.moves ++ flush o.millis) = (st, c₁, link₁, server₁) := ⟨_, _, _, _, rfl⟩
  have hdone := Link.converse_completes hquiet hs hreq hhandle hreply hfits
    (by rw [hdeadline]; exact ho.moves) (by rw [hdeadline]; exact ho.last) hcon
  rw [hpoll] at hcon
  rw [complete, hcon] at h
  simp only [Prod.mk.injEq] at h
  obtain ⟨rfl, rfl⟩ := h
  exact hdone

/-- The reply to a request of `fwd_`, and what it makes of the connection. -/
private theorem forward_ended {c : Connection} {service code replyService : UInt8} {data cipData : List UInt8}
    {server : SyntheticServer} {context : UInt64} (hquiet : m.link.Quiet) (ho : o.Fair)
    (hs : Connection.forwarding.Started c (requestFrame sessionHandle context service Connection.managerPath data))
    (hcontext : c.fwd.sentContext = context) (hdeadline : c.fwd.deadline = o.now + o.timeoutMs)
    (hdata : data.length ≤ 200) (hlong : 6 ≤ data.length)
    (hserver : m.server.unconnected sessionHandle service Connection.managerPath data =
      (server, [replyService, 0, code, 0] ++ cipData))
    (hsmall : cipData.length ≤ 252) (h : m.complete o (.pending, c) = (st, m')) :
    m'.link.Quiet ∧ m'.server = server ∧ ∃ fwd : ExplicitMessage, ¬ fwd.InFlight ∧ fwd.resultCode = code ∧
      fwd.dataLen = cipData.length ∧ fwd.data = cipData ∧ (st, m'.c) = { c with fwd := fwd }.finish := by
  have hm : Connection.managerPath.length = 4 := rfl
  have hk : kMaxCipData = 256 := rfl
  have hfits : 20 + cipData.length < 2 ^ 16 := by omega
  obtain ⟨r, hr, hcode, hrdata, hstatus, hrcontext⟩ : ∃ r : Reply,
    SyntheticServer.unconnectedReply context ([replyService, 0, code, 0] ++ cipData) = r.frame ∧ r.status = code ∧
      r.data = cipData ∧ r.encapStatus = 0 ∧ r.context = context :=
    ⟨_, SyntheticServer.unconnectedReply_frame _ _ _ hfits, rfl, rfl, rfl, UInt64.ofNat_toNat⟩
  have hhandle : m.server.handle (requestFrame sessionHandle context service Connection.managerPath data) =
      (server, r.frame) := by
    rw [SyntheticServer.handle_requestFrame (by decide) (by omega) (by omega), hserver, hr]
  have hwhole : WholeFrame (requestFrame sessionHandle context service Connection.managerPath data) :=
    ExplicitMessage.whole_requestFrame sessionHandle context service (by omega)
  have hrlen : r.data.length ≤ 252 := by
    rw [hrdata]
    exact hsmall
  have hbody : bodyLength r.frame ≤ Connection.forwarding.cap := by
    have hlen := r.bodyLength_frame []
    rw [List.append_nil] at hlen
    change bodyLength r.frame ≤ 272
    omega
  obtain ⟨hended, hquiet', hserver'⟩ := complete_ended rfl hquiet ho hs hdeadline hwhole hhandle r.whole hbody h
  obtain ⟨hrx, hlen, hsent⟩ := ExplicitMessage.put_frame c.fwd hrlen
  have hcon : (st, m'.c) = Connection.concludeForward
      { c with
        fwd := ExplicitMessage.machine.put c.fwd (received ExplicitMessage.machine.cap c.fwd.toBuffers r.frame) }
      .ok := hended.concluded
  generalize ExplicitMessage.machine.put c.fwd (received ExplicitMessage.machine.cap c.fwd.toBuffers r.frame) = f at *
  have hrsent : r.context = f.sentContext := by
    rw [hrcontext, hsent, hcontext]
  obtain ⟨hconclude, hfdata⟩ := ExplicitMessage.conclude_frame hrx hlen hstatus hrsent
  refine ⟨hquiet', hserver', { f.respond r.response with state := .done }, ?_, hcode, ?_, hfdata.trans hrdata, ?_⟩
  · simp [ExplicitMessage.InFlight]
  · change r.data.length = cipData.length
    rw [hrdata]
  · rw [hcon, Connection.concludeForward, hconclude]

/-- The connection `c` with the response `cipResp` to its request. -/
structure Responded (c : Connection) (cipResp : List UInt8) (st : Status) (c' : Connection) : Prop where
  status : st = .ok
  opened : c'.state = .open
  fwd : c'.fwd = c.fwd
  ids : c'.otConnId = c.otConnId ∧ c'.toConnId = c.toConnId
  replyService : c'.replyService = peek cipResp 0
  resultCode : c'.resultCode = peek cipResp 2
  data : c'.data = cipResp.drop 4

/-- The reply to a connected request, and what it makes of the connection. -/
private theorem response_ended {c c' : Connection} {cipResp : List UInt8}
    (h : Link.Ended Connection.sending c
      (SyntheticServer.connectedReply sessionHandle c.sentContext c.toConnId c.sentSequence cipResp) st c')
    (h4 : 4 ≤ cipResp.length) (h256 : cipResp.length ≤ 256) : Responded c cipResp st c' := by
  obtain ⟨hwhole, hbody⟩ :=
    SyntheticServer.whole_connectedReply sessionHandle c.sentContext c.toConnId c.sentSequence h256
  obtain ⟨hparse, hbytes⟩ :=
    SyntheticServer.parse_connectedReply sessionHandle c.sentContext c.toConnId c.sentSequence
      (c.rx.drop (46 + cipResp.length)) h4 h256
  generalize SyntheticServer.connectedReply sessionHandle c.sentContext c.toConnId c.sentSequence cipResp = reply at *
  have hlong : reply.length = 46 + cipResp.length := by
    unfold WholeFrame at hwhole
    omega
  have hcap : bodyLength reply ≤ Connection.sending.cap := by
    change bodyLength reply ≤ 278
    omega
  obtain ⟨hrx, hrxLen⟩ := received_whole hwhole hcap c.toBuffers
  rw [hlong] at hrx hrxLen
  rw [← hrx] at hparse hbytes
  have hcon : (st, c') =
      Connection.conclude { c with toBuffers := received Connection.sending.cap c.toBuffers reply } .ok := h.concluded
  generalize received Connection.sending.cap c.toBuffers reply = b at *
  have hparsed : Connection.parse b.rx b.rxLen c.sentContext c.toConnId c.sentSequence =
      some ⟨peek cipResp 0, peek cipResp 2, 50, cipResp.length - 4⟩ := by
    rw [hrxLen]
    exact hparse
  generalize hc₁ : ({ c with toBuffers := b } : Connection) = c₁ at hcon
  have hparsed₁ : Connection.parse c₁.rx c₁.rxLen c₁.sentContext c₁.toConnId c₁.sentSequence =
      some ⟨peek cipResp 0, peek cipResp 2, 50, cipResp.length - 4⟩ := by
    rw [← hc₁]
    exact hparsed
  rw [Connection.conclude_parsed hparsed₁, ← hc₁, Prod.mk.injEq] at hcon
  obtain ⟨rfl, rfl⟩ := hcon
  exact ⟨rfl, rfl, rfl, ⟨rfl, rfl⟩, rfl, rfl, hbytes⟩

end Exchange

/-! ### The calls -/

section Calls

variable {m : Messaging} {o : Course} {sessionHandle random : UInt32} {name : List UInt8}

/-- The server takes the O->T ID out of a Forward Open. -/
private theorem forwardOpen_openData (server : SyntheticServer) (otConnId : UInt32) :
    server.unconnected sessionHandle 0x54 Connection.managerPath (Connection.openData otConnId name) =
      ({ server with connections := Function.update server.connections sessionHandle (some ⟨otConnId, 0x10203040⟩) },
        [0xD4, 0, 0, 0] ++ (putU32 otConnId ++ putU32 0x10203040 ++ putU16 1 ++ putU16 0x0001)) := by
  have hlong : 6 ≤ (Connection.openData otConnId name).length := by
    simp only [Connection.openData, List.length_append, List.length_cons, List.length_nil, length_putU32,
      length_putU16]
    omega
  have hot : getU32 ((Connection.openData otConnId name).drop 2) = otConnId := by
    simp only [Connection.openData, List.append_assoc, List.cons_append, List.nil_append, List.drop_succ_cons,
      List.drop_zero]
    exact getU32_putU32 otConnId _
  unfold SyntheticServer.unconnected
  rw [if_neg fun h => absurd h.1 (by decide), if_neg (by decide), if_neg (by decide), if_pos rfl,
    SyntheticServer.forwardOpen, if_pos hlong]
  dsimp only
  rw [hot]

theorem open_paired (h : Initial m) (ho : o.Fair) (hname : name.length < Connection.kTagNameSize) :
    (m.open sessionHandle name random o).1 = .ok ∧ Paired sessionHandle (m.open sessionHandle name random o).2 := by
  obtain ⟨c, hopen⟩ := Connection.open_accepted sessionHandle o.timeoutMs o.now random h.rest h.free
    (by simpa [TcpConnection.connected] using h.quiet.usable.2) hname
  obtain ⟨st, m', hdone⟩ : ∃ st m', m.complete o (.pending, c) = (st, m') := ⟨_, _, rfl⟩
  have hstart : m.open sessionHandle name random o = (st, m') := by rw [Messaging.open, hopen, hdone]
  rw [hstart]
  have hstarted := Connection.open_started hopen
  obtain ⟨hstate, hot, hsent⟩ : c.state = .opening ∧ c.otConnId = Connection.chooseConnId random ∧
      c.fwd.sentContext = m.c.fwd.context ∧ c.fwd.deadline = o.now + o.timeoutMs := by
    rcases Connection.open_cases hopen with ⟨name', -, -, -, hf⟩ | ⟨hst, -⟩
    · rcases Connection.forward_cases hf with ⟨-, hfwd⟩ | ⟨hne, -⟩
      · have hs := ExplicitMessage.send_accepted hfwd.sent
        refine ⟨?_, ?_, hs.sentContext, hs.deadline⟩
        · rw [hfwd.rest]
        · rw [hfwd.rest]
          rfl
      · exact absurd rfl hne
    · rcases hst with hst | ⟨hst, -⟩ <;> cases hst
  have hlen := Connection.length_openData (Connection.chooseConnId random) name
  have hlong : 6 ≤ (Connection.openData (Connection.chooseConnId random) name).length := by
    simp only [Connection.openData, List.length_append, List.length_cons, List.length_nil, length_putU32,
      length_putU16]
    omega
  obtain ⟨hquiet, hserver, fwd, hfree, hcode, hdataLen, hdata, hfinish⟩ := forward_ended h.quiet ho hstarted hsent.1
    hsent.2 (by omega) hlong (forwardOpen_openData m.server _) (by simp) hdone
  have hfirst : getU32 fwd.data = Connection.chooseConnId random := by
    rw [hdata]
    simp only [List.append_assoc]
    exact getU32_putU32 _ _
  have hsecond : getU32 (fwd.data.drop 4) = 0x10203040 := by
    rw [hdata]
    exact getU32_putU32 _ _
  have hreply : Connection.OpenReply { c with fwd := fwd } := by
    refine ⟨hcode, ?_, ?_, ?_, ?_⟩
    · change 12 ≤ fwd.dataLen
      rw [hdataLen]
      simp
    · change getU32 fwd.data = c.otConnId
      rw [hfirst, hot]
    · change getU32 fwd.data ≠ 0
      rw [hfirst, Connection.chooseConnId]
      split
      · decide
      · assumption
    · change getU32 (fwd.data.drop 4) ≠ 0
      rw [hsecond]
      decide
  rw [Connection.finish, if_pos hstate] at hfinish
  rcases Connection.finishOpen_cases { c with fwd := fwd } with ⟨-, hopened⟩ | ⟨hno, -⟩
  · rw [hopened, Prod.mk.injEq] at hfinish
    obtain ⟨rfl, hc⟩ := hfinish
    refine ⟨rfl, ?_, ?_, hquiet, ?_, ?_⟩
    · rw [hc]
    · rw [hc]
      exact hfree
    · rw [hserver, hc]
      dsimp only
      rw [Function.update_self, hsecond, hot]
    · rw [hserver]
      exact SyntheticServer.small_initial h.tags
  · exact absurd hreply hno

theorem send_paired {r : Request} (h : Paired sessionHandle m) (hr : r.Fair)
    (haccepted : (m.startSend sessionHandle r).1 = .pending) :
    (m.send sessionHandle r).1 = .ok ∧ Answered m r (m.send sessionHandle r).2 ∧
      Paired sessionHandle (m.send sessionHandle r).2 := by
  obtain ⟨st₀, c, hsend⟩ : ∃ st c, m.startSend sessionHandle r = (st, c) := ⟨_, _, rfl⟩
  rw [hsend] at haccepted
  change st₀ = .pending at haccepted
  subst haccepted
  obtain ⟨st, m', hdone⟩ : ∃ st m', m.complete r.course (.pending, c) = (st, m') := ⟨_, _, rfl⟩
  have hstart : m.send sessionHandle r = (st, m') := by rw [Messaging.send, hsend, hdone]
  rw [hstart]
  have hstarted := Connection.send_started hr.backed hsend
  rcases Connection.send_cases hsend with ⟨-, hsent⟩ | ⟨hst, -⟩
  · obtain ⟨hpath, hdata, -, hfits⟩ := hr.backed.lengths hsent.args
    change r.pathBytes.length = r.pathLen at hpath
    change r.dataBytes.length = r.dataLen at hdata
    have hk : kMaxCipData = 256 := rfl
    have hk' : Connection.kMaxDataSize = 256 := rfl
    have heven : r.pathBytes.length % 2 = 0 := by
      rw [hpath]
      exact hsent.args.2.1
    have hdataLen : r.dataBytes.length ≤ 254 := by omega
    obtain ⟨hsmall, hconns, h4, h256⟩ := h.small.connected r.service r.pathBytes hdataLen
    change 4 ≤ (m.response r).length at h4
    change (m.response r).length ≤ 256 at h256
    have hlong : 2 + r.pathBytes.length + r.dataBytes.length ≤ Connection.kMaxDataSize := by omega
    have hhandle : m.server.handle (Connection.connectedFrame sessionHandle m.c.context m.c.otConnId m.c.sequence
      r.service r.pathBytes r.dataBytes) = ((m.server.connected r.service r.pathBytes r.dataBytes).1,
          SyntheticServer.connectedReply sessionHandle m.c.context m.c.toConnId m.c.sequence (m.response r)) :=
      SyntheticServer.handle_connectedFrame heven hlong h.known
    obtain ⟨hwhole, hbody⟩ :=
      SyntheticServer.whole_connectedReply sessionHandle m.c.context m.c.toConnId m.c.sequence h256
    have hbody' : bodyLength (SyntheticServer.connectedReply sessionHandle m.c.context m.c.toConnId m.c.sequence
        (m.response r)) ≤ Connection.sending.cap := by
      change bodyLength _ ≤ 278
      omega
    have hdeadline : Connection.sending.deadline c = r.course.now + r.course.timeoutMs := by rw [hsent.made]; rfl
    obtain ⟨hended, hquiet, hserver⟩ := complete_ended rfl h.quiet hr.course hstarted hdeadline
      (Connection.whole_connectedFrame _ _ _ _ _ hlong) hhandle hwhole hbody' hdone
    have hmade : c.fwd = m.c.fwd ∧ c.otConnId = m.c.otConnId ∧ c.toConnId = m.c.toConnId ∧
        c.sentContext = m.c.context ∧ c.sentSequence = m.c.sequence := by
      rw [hsent.made]
      exact ⟨rfl, rfl, rfl, rfl, rfl⟩
    obtain ⟨hfwd, hot, hto, hcontext, hsequence⟩ := hmade
    rw [← hto, ← hcontext, ← hsequence] at hended
    have hdone' := response_ended hended h4 h256
    refine ⟨hdone'.status, ⟨?_, hdone'.replyService, hdone'.resultCode, hdone'.data, hserver⟩,
      ⟨hdone'.opened, ?_, hquiet, ?_, ?_⟩⟩
    · simpa [Connection.isOpen] using hdone'.opened
    · rw [hdone'.fwd, hfwd]
      exact h.free
    · rw [hserver, hconns, h.known, hdone'.ids.1, hdone'.ids.2, hot, hto]
    · rw [hserver]
      exact hsmall
  · rcases hst with ⟨-, hst⟩ | hst <;> cases hst

/-- A call of `send()` that is refused changes nothing. -/
private theorem send_refused {r : Request} (h : (m.startSend sessionHandle r).1 ≠ .pending) :
    (m.send sessionHandle r).2 = m := by
  obtain ⟨st, c, hsend⟩ : ∃ st c, m.startSend sessionHandle r = (st, c) := ⟨_, _, rfl⟩
  rcases Connection.send_cases hsend with ⟨rfl, -⟩ | ⟨hst, rfl⟩
  · rw [hsend] at h
    exact absurd rfl h
  · rw [send, hsend]
    rcases hst with ⟨-, rfl⟩ | rfl <;> rfl

theorem sendAll_paired {rs : List Request} (h : Paired sessionHandle m) (hrs : ∀ r ∈ rs, r.Fair) :
    Paired sessionHandle (sendAll sessionHandle m rs) := by
  induction rs generalizing m with
  | nil => exact h
  | cons r rs ih =>
    have hrest : ∀ r ∈ rs, r.Fair := fun q hq => hrs q (List.mem_cons_of_mem _ hq)
    rw [sendAll]
    by_cases haccepted : (m.startSend sessionHandle r).1 = .pending
    · exact ih (send_paired h (hrs r List.mem_cons_self) haccepted).2.2 hrest
    · rw [send_refused haccepted]
      exact ih h hrest

theorem close_ended (h : Paired sessionHandle m) (ho : o.Fair) :
    (m.close sessionHandle o).1 = .ok ∧ (m.close sessionHandle o).2.c.state = .closed := by
  obtain ⟨c, hclose⟩ := Connection.close_accepted sessionHandle o.timeoutMs o.now h.opened h.free
    (by simpa [TcpConnection.connected] using h.quiet.usable.2)
  obtain ⟨st, m', hdone⟩ : ∃ st m', m.complete o (.pending, c) = (st, m') := ⟨_, _, rfl⟩
  have hstart : m.close sessionHandle o = (st, m') := by rw [close, hclose, hdone]
  rw [hstart]
  have hstarted := Connection.close_started hclose
  obtain ⟨hstate, hsent⟩ : c.state = .closing ∧ c.fwd.sentContext = m.c.fwd.context ∧
      c.fwd.deadline = o.now + o.timeoutMs := by
    rcases Connection.close_cases hclose with ⟨-, hf⟩ | ⟨-, hst, -⟩
    · rcases Connection.forward_cases hf with ⟨-, hfwd⟩ | ⟨hne, -⟩
      · have hs := ExplicitMessage.send_accepted hfwd.sent
        refine ⟨?_, hs.sentContext, hs.deadline⟩
        rw [hfwd.rest]
      · exact absurd rfl hne
    · cases hst
  have hlen := Connection.length_closeData m.c.tagName
  have hlong : 6 ≤ (Connection.closeData m.c.tagName).length := by
    simp only [Connection.closeData, List.length_append, length_putU32, length_putU16]
    omega
  have hserver : m.server.unconnected sessionHandle 0x4E Connection.managerPath (Connection.closeData m.c.tagName) =
      (m.server, [0xCE, 0, 0, 0] ++ []) := by
    unfold SyntheticServer.unconnected
    rw [if_neg fun h => absurd h.1 (by decide), if_neg (by decide), if_neg (by decide), if_neg (by decide),
      if_pos rfl]
    rfl
  obtain ⟨-, -, fwd, -, -, -, -, hfinish⟩ :=
    forward_ended h.quiet ho hstarted hsent.1 hsent.2 (by omega) hlong hserver
      (Nat.zero_le _) hdone
  have hclosing : ({ c with fwd := fwd } : Connection).state ≠ .opening := by
    change c.state ≠ .opening
    rw [hstate]
    decide
  rw [Connection.finish, if_neg hclosing, Connection.finishClose, Prod.mk.injEq] at hfinish
  obtain ⟨rfl, hc⟩ := hfinish
  exact ⟨rfl, by rw [hc]⟩

/-- A connection that a client opens to the server under a tag name works: however many requests have been sent over
it, it is open, an accepted `send()` ends with the response that the server computes for the request and leaves it
open, and `close()` works and leaves it closed. -/
theorem connected_messaging {rs : List Request} (h : Initial m) (ho : o.Fair)
    (hname : name.length < Connection.kTagNameSize) (hrs : ∀ r ∈ rs, r.Fair) :
    let opened := m.open sessionHandle name random o
    let sent := sendAll sessionHandle opened.2 rs
    opened.1 = .ok ∧ opened.2.c.isOpen ∧
      (∀ r : Request, r.Fair → (sent.startSend sessionHandle r).1 = .pending →
        (sent.send sessionHandle r).1 = .ok ∧ Answered sent r (sent.send sessionHandle r).2) ∧
      ∀ o' : Course, o'.Fair →
        (sent.close sessionHandle o').1 = .ok ∧ (sent.close sessionHandle o').2.c.state = .closed := by
  obtain ⟨hok, hopened⟩ : (m.open sessionHandle name random o).1 = .ok ∧
      Paired sessionHandle (m.open sessionHandle name random o).2 := open_paired h ho hname
  have hsent := sendAll_paired hopened hrs
  refine ⟨hok, ?_, fun r hr haccepted => ?_, fun o' ho' => close_ended hsent ho'⟩
  · have hstate := hopened.opened
    simpa [Connection.isOpen] using hstate
  · obtain ⟨hst, hanswered, -⟩ := send_paired hsent hr haccepted
    exact ⟨hst, hanswered⟩

end Calls

/-- A fresh connection object, on a connection that is up. -/
def fresh : Messaging where
  link := { conn := { fd := 3, state := .ok } }

theorem initial_fresh : Initial fresh := ⟨by decide, by decide, ⟨by decide, rfl, rfl, rfl⟩, rfl⟩

/-- The request goes out in two pieces, the reply comes in two. -/
def demoCourse : Course where
  timeoutMs := 1000
  now := 0
  moves := [.poll { sends := [.accepted 30] }, .serve, .poll {}, .deliver 3, .poll { recvs := [.data 1] }]
  millis _ := 0

theorem fair_demoCourse : demoCourse.Fair := ⟨by decide, by decide⟩

/-- A request for the tag `A`. -/
def demoRequest (service : UInt8) (data : List UInt8) : Request where
  service := service
  path := some [0xA0, 1, 65, 0]
  pathLen := 4
  data := some data
  dataLen := data.length
  course := demoCourse

/-- The USINT 5 is written to the tag `A` and read back. -/
theorem connected_messaging_demo :
    (fresh.open 7 [65] 0 demoCourse).1 = .ok ∧
      ((sendAll 7 (fresh.open 7 [65] 0 demoCourse).2 [demoRequest 0x4D [1, 0, 0xC6, 0, 5]]).send 7
        (demoRequest 0x4C [1, 0])).2.c.data = [0xC6, 0, 5] ∧
      ((sendAll 7 (fresh.open 7 [65] 0 demoCourse).2 [demoRequest 0x4D [1, 0, 0xC6, 0, 5]]).close 7
        demoCourse).1 = .ok := by
  have hfair : ∀ r ∈ [demoRequest 0x4D [1, 0, 0xC6, 0, 5]], r.Fair := by
    intro r hr
    rw [List.mem_singleton.1 hr]
    exact ⟨by decide, fair_demoCourse⟩
  have hname : ([65] : List UInt8).length < Connection.kTagNameSize := by decide
  obtain ⟨hopen, -, hsend, hclose⟩ := @connected_messaging fresh demoCourse 7 0 [65] _ initial_fresh fair_demoCourse
    hname hfair
  obtain ⟨-, hanswered⟩ := hsend (demoRequest 0x4C [1, 0]) ⟨by decide, fair_demoCourse⟩ (by decide +kernel)
  refine ⟨hopen, ?_, (hclose demoCourse fair_demoCourse).1⟩
  rw [hanswered.data]
  decide +kernel

end Messaging

end ControlLogix
