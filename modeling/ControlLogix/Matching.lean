import ControlLogix.Replies
import ControlLogix.Transition

/-!
# Matching replies with exchanges

A `Dialogue` is one `ExplicitMessage` and a server at the two ends of one TCP connection.  The server may send a reply
to any exchange that was begun, in the order of the exchanges; the network delivers the bytes in any portions.

* `Matched`: the result of an exchange is that of its own reply, and what is read is cut into whole replies;
* `matched`: a run keeps to that as long as every accepted `send()` finds the receive cursor between two replies
  (`Between`), and there are fewer than `2 ^ 64` of them;
* `mistaken`: after an abort in the middle of a reply, the bytes of a tag are taken for the next reply.
-/

namespace ControlLogix

open Transition
open Buffers (Framed bodyLength)

structure Dialogue where
  msg : ExplicitMessage
  conn : TcpConnection
  /-- The number of accepted calls of `send()`. -/
  serial : Nat := 0
  replies : List Reply := []
  /-- What the server has sent and the network has not delivered. -/
  wire : List UInt8 := []

namespace Dialogue

inductive Act where
  | send (sessionHandle : UInt32) (service : UInt8) (path : Option (List UInt8)) (pathLen : Nat)
      (data : Option (List UInt8)) (dataLen : Nat) (timeoutMs now : UInt32)
  | poll (os : Platform)
  | abort
  | answer (r : Reply)
  | deliver (k : Nat)

def step (d : Dialogue) : Act → Option Dialogue
  | .send sessionHandle service path pathLen data dataLen timeoutMs now =>
    let (st, msg) := d.msg.send d.conn sessionHandle service path pathLen data dataLen timeoutMs now
    some { d with msg := msg, serial := if st = .pending then d.serial + 1 else d.serial }
  | .poll os =>
    let (_, msg, conn) := d.msg.poll d.conn os
    some { d with msg := msg, conn := conn }
  | .abort => some { d with msg := d.msg.abort }
  | .answer r =>
    if 0 < r.exchange ∧ r.exchange ≤ d.serial ∧ ∀ q ∈ d.replies, q.exchange < r.exchange then
      some { d with replies := d.replies ++ [r], wire := d.wire ++ r.frame }
    else none
  | .deliver k => some { d with conn := d.conn.deliver (d.wire.take k), wire := d.wire.drop k }

/-- A message as its constructor leaves it, on a connection just made. -/
structure Initial (d : Dialogue) : Prop where
  msg : d.msg = { tx := d.msg.tx, rx := d.msg.rx }
  usable : d.conn.Usable
  sock : d.conn.sock = {}
  serial : d.serial = 0
  replies : d.replies = []
  wire : d.wire = []

/-- The bytes of the first `j` replies. -/
def bytes (d : Dialogue) (j : Nat) : List UInt8 := ((d.replies.take j).map Reply.frame).flatten

structure Matched (d : Dialogue) : Prop where
  /-- An exchange that ends `Ok` has the fields of its own reply. -/
  own : ∀ os msg conn, d.msg.poll d.conn os = (.ok, msg, conn) → ∃ r ∈ d.replies, r.exchange = d.serial ∧
    msg.replyService = r.service ∧ msg.resultCode = r.status ∧ msg.data = r.data
  /-- The receive buffer begins where a reply begins. -/
  aligned : ∃ j, d.conn.sock.recvd = d.bytes j ++ d.msg.rx.take d.msg.rxLen

/-- An accepted `send()` finds nothing read of the reply, or all of it; and contexts are not used up. -/
def Between (d : Dialogue) : Act → Prop
  | .send sessionHandle service path pathLen data dataLen timeoutMs now =>
    (d.msg.send d.conn sessionHandle service path pathLen data dataLen timeoutMs now).1 = .pending →
      (d.msg.rxLen = 0 ∨ d.msg.rxLen = 24 + bodyLength d.msg.rx) ∧ d.serial + 1 < 2 ^ 64
  | _ => True

instance (d : Dialogue) : (a : Act) → Decidable (Between d a)
  | .send .. => inferInstanceAs (Decidable (_ → (_ ∨ _) ∧ _))
  | .poll _ | .abort | .answer _ | .deliver _ => .isTrue trivial

/-! ### The invariant -/

/-- The message has the fields of the reply to exchange `serial`. -/
def Answered (replies : List Reply) (serial : Nat) (m : ExplicitMessage) : Prop :=
  ∃ r ∈ replies, r.exchange = serial ∧ m.replyService = r.service ∧ m.resultCode = r.status ∧ m.data = r.data

structure Aligned (d : Dialogue) : Prop where
  stream : d.conn.sock.recvd ++ (d.conn.sock.inbox ++ d.wire) = (d.replies.map Reply.frame).flatten
  start : ∃ j, j ≤ d.replies.length ∧ d.conn.sock.recvd = d.bytes j ++ d.msg.rx.take d.msg.rxLen
  fits : d.msg.rxLen ≤ d.msg.rx.length
  within : 24 ≤ d.msg.rxLen → d.msg.rxLen ≤ 24 + bodyLength d.msg.rx
  framed : d.msg.InFlight → Framed (16 + ExplicitMessage.kMaxCipData) d.msg.toBuffers
  numbered : ∀ r ∈ d.replies, r.exchange ≤ d.serial
  context : d.msg.context = UInt64.ofNat (d.serial + 1)
  sent : d.msg.InFlight → d.msg.sentContext = UInt64.ofNat d.serial
  few : d.serial < 2 ^ 64
  done : d.msg.state = .done → Answered d.replies d.serial d.msg

/-- What has not been read begins with the rest of a reply. -/
private theorem unread {replies : List Reply} {recvd tail p : List UInt8} {j : Nat}
    (hs : recvd ++ tail = (replies.map Reply.frame).flatten)
    (hj : recvd = ((replies.take j).map Reply.frame).flatten ++ p) :
    p ++ tail = ((replies.drop j).map Reply.frame).flatten := by
  have hsplit : (replies.map Reply.frame).flatten =
      ((replies.take j).map Reply.frame).flatten ++ ((replies.drop j).map Reply.frame).flatten := by
    rw [← List.flatten_append, ← List.map_append, List.take_append_drop]
  rw [hj, hsplit, List.append_assoc] at hs
  exact List.append_cancel_left hs

private theorem bodyLength_take {rx : List UInt8} {rxLen : Nat} (h24 : 24 ≤ rxLen) :
    bodyLength (rx.take rxLen) = bodyLength rx := by
  apply Buffers.bodyLength_congr
  rw [List.take_take, Nat.min_eq_left h24]

/-- A complete frame in the receive buffer is the next reply. -/
theorem next_reply {replies : List Reply} {recvd tail rx : List UInt8} {j rxLen : Nat}
    (hs : recvd ++ tail = (replies.map Reply.frame).flatten)
    (hj : recvd = ((replies.take j).map Reply.frame).flatten ++ rx.take rxLen) (hfits : rxLen ≤ rx.length)
    (hlen : rxLen = 24 + bodyLength rx) : ∃ r rs, replies.drop j = r :: rs ∧ rx.take rxLen = r.frame := by
  have hp : (rx.take rxLen).length = rxLen := by rw [List.length_take, Nat.min_eq_left hfits]
  have h24 : 24 ≤ rxLen := by omega
  refine Reply.whole_frame (unread hs hj) (by omega) ?_
  rw [hp, bodyLength_take h24]
  exact hlen

/-- Parsing a whole reply that echoes the context of exchange `serial` gives the fields of the reply to it. -/
private theorem answered_of_parse {replies : List Reply} {serial : Nat} {m : ExplicitMessage}
    {res : ExplicitMessage.Response} {r : Reply} (hr : r ∈ replies) (hle : r.exchange ≤ serial)
    (hfew : serial < 2 ^ 64) (hrx : m.rx.take m.rxLen = r.frame) (hfits : m.rxLen ≤ m.rx.length)
    (hctx : m.sentContext = UInt64.ofNat serial)
    (hparse : ExplicitMessage.parse m.rx m.rxLen m.sentContext = some res) (hm : m = m.respond res) :
    Answered replies serial m := by
  have hlen : m.rxLen = 44 + r.data.length := by
    have h := congrArg List.length hrx
    rw [List.length_take, Reply.length_frame] at h
    omega
  have hsplit : m.rx = r.frame ++ m.rx.drop m.rxLen := by
    rw [← hrx, List.take_append_drop]
  have hdata := Reply.data_frame r (m.rx.drop m.rxLen)
  rw [hsplit, hlen, Reply.parse_frame] at hparse
  split at hparse
  · rename_i hok
    obtain rfl := Option.some.inj hparse
    have hnumber : r.exchange = serial := by
      have h := hok.2
      rw [hctx, Reply.context] at h
      have hn := congrArg UInt64.toNat h
      simp only [UInt64.toNat_ofNat'] at hn
      omega
    refine ⟨r, hr, hnumber, ?_, ?_, ?_⟩
    · rw [hm]
      rfl
    · rw [hm]
      rfl
    · rw [hm]
      change (m.rx.drop 44).take r.data.length = r.data
      rw [hsplit]
      exact hdata
  · cases hparse

/-! ### The steps -/

/-- A message at rest is left alone, and a finished one has answered already. -/
private theorem rest_poll {d : Dialogue} (h : Aligned d) (hr : ¬ d.msg.InFlight) {os : Platform} {st : Status}
    {msg : ExplicitMessage} {conn : TcpConnection} (hp : d.msg.poll d.conn os = (st, msg, conn)) :
    msg = d.msg ∧ conn = d.conn ∧ (st = .ok → Answered d.replies d.serial msg) := by
  rw [ExplicitMessage.poll_rest hr] at hp
  simp only [Prod.mk.injEq] at hp
  obtain ⟨hst, rfl, rfl⟩ := hp
  refine ⟨rfl, rfl, fun hok => h.done ?_⟩
  rw [hok] at hst
  by_contra hne
  rw [if_neg hne] at hst
  split at hst <;> cases hst

private theorem inFlight_poll {d : Dialogue} (h : Aligned d) (hin : d.msg.InFlight) {os : Platform} {st : Status}
    {msg : ExplicitMessage} {conn : TcpConnection} (hp : d.msg.poll d.conn os = (st, msg, conn)) :
    Aligned { d with msg := msg, conn := conn } ∧ (st = .ok → Answered d.replies d.serial msg) := by
  obtain ⟨inp, hpolled⟩ := ExplicitMessage.poll_spec hin (h.framed hin) hp
  obtain ⟨j, hj, hrecvd⟩ := h.start
  have hmv := hpolled.moved
  -- the bytes read go from the inbox to the receive buffer
  have hrecvd' : conn.sock.recvd = d.bytes j ++ msg.rx.take msg.rxLen := by
    rw [hmv.transfer.recvd, hrecvd, hmv.bytes, List.append_assoc]
  have hstream : conn.sock.recvd ++ (conn.sock.inbox ++ d.wire) = (d.replies.map Reply.frame).flatten := by
    have hs := h.stream
    rw [hmv.transfer.inbox] at hs
    rw [hmv.transfer.recvd, ← hs]
    simp only [List.append_assoc]
  have hctx : msg.sentContext = UInt64.ofNat d.serial := by rw [hpolled.contexts.2, h.sent hin]
  have hok : st = .ok → Answered d.replies d.serial msg := by
    rintro rfl
    obtain ⟨hfull, -, res, hparse, hm⟩ := hpolled.parsed rfl
    have hframed := hpolled.framed (Or.inr rfl)
    have h24 : 24 ≤ msg.rxLen := by
      by_contra hlt
      have h1 := hframed.head (by omega)
      omega
    have hlen : msg.rxLen = 24 + bodyLength msg.rx := by
      rw [← (hframed.body h24).1]
      exact hfull
    obtain ⟨r, rs, hdrop, hframe⟩ := next_reply hstream hrecvd' hmv.fits hlen
    have hr : r ∈ d.replies := by
      have hmem : r ∈ d.replies.drop j := by
        rw [hdrop]
        exact List.mem_cons_self
      exact List.mem_of_mem_drop hmem
    exact answered_of_parse hr (h.numbered r hr) h.few hframe hmv.fits hctx hparse hm
  refine ⟨⟨hstream, ⟨j, hj, hrecvd'⟩, hmv.fits, hmv.within, fun hin' => ?_, h.numbered, ?_, fun _ => hctx, h.few,
    fun hdone => ?_⟩, hok⟩
  · refine hpolled.framed (Or.inl ?_)
    rcases hpolled.outcome with ⟨e, -⟩ | ⟨-, e⟩ | ⟨-, e⟩
    · exact e
    · rcases hin' with hin' | hin' <;> rw [e] at hin' <;> cases hin'
    · rcases hin' with hin' | hin' <;> rw [e] at hin' <;> cases hin'
  · change msg.context = _
    rw [hpolled.contexts.1, h.context]
  · refine hok ?_
    change msg.state = .done at hdone
    rcases hpolled.outcome with ⟨-, e | e⟩ | ⟨e, -⟩ | ⟨-, e⟩
    · rw [e] at hdone
      cases hdone
    · rw [e] at hdone
      cases hdone
    · exact e
    · rw [e] at hdone
      cases hdone

private theorem aligned_send {d : Dialogue} (h : Aligned d) {sessionHandle : UInt32} {service : UInt8}
    {path data : Option (List UInt8)} {pathLen dataLen : Nat} {timeoutMs now : UInt32} {msg : ExplicitMessage}
    (hbetween : d.msg.rxLen = 0 ∨ d.msg.rxLen = 24 + bodyLength d.msg.rx) (hfew : d.serial + 1 < 2 ^ 64)
    (hs : ExplicitMessage.Sent d.msg d.conn sessionHandle service path pathLen data dataLen timeoutMs now msg) :
    Aligned { d with msg := msg, serial := d.serial + 1 } := by
  obtain ⟨j, hj, hrecvd⟩ := h.start
  have hnil : msg.rx.take msg.rxLen = [] := by rw [hs.rxLen, List.take_zero]
  refine ⟨h.stream, ?_, ?_, fun h24 => ?_, fun _ => hs.framed, fun r hr => Nat.le_succ_of_le (h.numbered r hr), ?_,
    fun _ => ?_, hfew, fun hdone => ?_⟩
  · rcases hbetween with hzero | hwhole
    · refine ⟨j, hj, ?_⟩
      rw [hzero, List.take_zero] at hrecvd
      rw [hnil]
      exact hrecvd
    · -- all of the reply has been read: the next one comes after it
      obtain ⟨r, rs, hdrop, hframe⟩ := next_reply h.stream hrecvd h.fits hwhole
      have hlt : j < d.replies.length := by
        by_contra hge
        rw [List.drop_eq_nil_of_le (by omega)] at hdrop
        cases hdrop
      have hget : d.replies[j] = r := by
        rw [List.drop_eq_getElem_cons hlt, List.cons.injEq] at hdrop
        exact hdrop.1
      refine ⟨j + 1, hlt, ?_⟩
      rw [hnil, List.append_nil]
      change d.conn.sock.recvd = ((d.replies.take (j + 1)).map Reply.frame).flatten
      rw [List.take_succ_eq_append_getElem hlt, hget, List.map_append, List.flatten_append, hrecvd, hframe]
      simp [bytes]
  · change msg.rxLen ≤ _
    rw [hs.rxLen]
    exact Nat.zero_le _
  · change 24 ≤ msg.rxLen at h24
    rw [hs.rxLen] at h24
    omega
  · change msg.context = UInt64.ofNat (d.serial + 1 + 1)
    rw [hs.context, h.context]
    apply UInt64.toNat_inj.1
    simp
  · change msg.sentContext = UInt64.ofNat (d.serial + 1)
    rw [hs.sentContext, h.context]
  · change msg.state = .done at hdone
    rw [hs.state] at hdone
    cases hdone

private theorem bytes_take {d d' : Dialogue} {j : Nat} (h : d'.replies.take j = d.replies.take j) :
    d'.bytes j = d.bytes j := by
  unfold bytes
  rw [h]

private theorem aligned_step {d d' : Dialogue} {a : Act} (h : Aligned d) (hok : Between d a)
    (hs : step d a = some d') :
    Aligned d' := by
  cases a with
  | send sessionHandle service path pathLen data dataLen timeoutMs now =>
    obtain ⟨st, msg, he⟩ : ∃ st msg,
        d.msg.send d.conn sessionHandle service path pathLen data dataLen timeoutMs now = (st, msg) := ⟨_, _, rfl⟩
    simp only [step, he, Option.some.injEq] at hs
    subst hs
    simp only [Between, he] at hok
    rcases ExplicitMessage.send_cases he with ⟨rfl, hsent⟩ | ⟨rfl, hst⟩
    · obtain ⟨hbetween, hfew⟩ := hok rfl
      rw [if_pos rfl]
      exact aligned_send h hbetween hfew hsent
    · have hne : st ≠ .pending := by
        rcases hst with ⟨rfl, -⟩ | ⟨rfl, -⟩ | rfl <;> nofun
      rw [if_neg hne]
      exact h
  | poll os =>
    obtain ⟨st, msg, conn, he⟩ : ∃ st msg conn, d.msg.poll d.conn os = (st, msg, conn) := ⟨_, _, _, rfl⟩
    simp only [step, he, Option.some.injEq] at hs
    subst hs
    by_cases hin : d.msg.InFlight
    · exact (inFlight_poll h hin he).1
    · obtain ⟨rfl, rfl, -⟩ := rest_poll h hin he
      exact h
  | abort =>
    obtain rfl := Option.some.inj hs
    exact ⟨h.stream, h.start, h.fits, h.within, fun hin => absurd hin (ExplicitMessage.not_inFlight_abort _),
      h.numbered, h.context, fun hin => absurd hin (ExplicitMessage.not_inFlight_abort _), h.few, nofun⟩
  | answer r =>
    simp only [step] at hs
    split at hs
    · rename_i hr
      obtain rfl := Option.some.inj hs
      obtain ⟨j, hj, hrecvd⟩ := h.start
      refine ⟨?_, ⟨j, ?_, ?_⟩, h.fits, h.within, h.framed, fun q hq => ?_, h.context, h.sent, h.few, fun hdone => ?_⟩
      · rw [List.map_append, List.flatten_append, ← h.stream]
        simp
      · rw [List.length_append]
        omega
      · have hb : bytes { d with replies := d.replies ++ [r], wire := d.wire ++ r.frame } j = d.bytes j := by
          refine bytes_take ?_
          rw [List.take_append_of_le_length hj]
        rw [hb]
        exact hrecvd
      · rcases List.mem_append.1 hq with hq | hq
        · exact h.numbered q hq
        · rw [List.mem_singleton.1 hq]
          exact hr.2.1
      · obtain ⟨q, hq, hfields⟩ := h.done hdone
        exact ⟨q, List.mem_append_left _ hq, hfields⟩
    · cases hs
  | deliver k =>
    obtain rfl := Option.some.inj hs
    refine ⟨?_, h.start, h.fits, h.within, h.framed, h.numbered, h.context, h.sent, h.few, h.done⟩
    rw [← h.stream]
    change d.conn.sock.recvd ++ (d.conn.sock.inbox ++ d.wire.take k ++ d.wire.drop k) = _
    rw [List.append_assoc, List.take_append_drop]

/-! ### Every run -/

private theorem aligned_initial {d : Dialogue} (h : Initial d) : Aligned d := by
  have hrest : ¬ d.msg.InFlight := by
    rw [h.msg]
    rintro (e | e) <;> cases e
  have hlen : d.msg.rxLen = 0 := by rw [h.msg]
  refine ⟨?_, ⟨0, Nat.zero_le _, ?_⟩, ?_, ?_, fun hin => absurd hin hrest, ?_, ?_, fun hin =>
    absurd hin hrest, ?_, ?_⟩
  · rw [h.sock, h.wire, h.replies]
    rfl
  · rw [h.sock, hlen, List.take_zero]
    rfl
  · rw [hlen]
    exact Nat.zero_le _
  · rw [hlen]
    omega
  · rw [h.replies]
    nofun
  · rw [h.msg, h.serial]
    rfl
  · rw [h.serial]
    omega
  · rw [h.msg]
    nofun

/-- In a run that begins every exchange between two replies, an exchange that ends `Ok` has its own reply, and no
reply is read from the middle. -/
theorem matched {d₀ d : Dialogue} {as : List Act} (h0 : Initial d₀) (h : Run step Between d₀ as d) : Matched d := by
  have ha := h.invariant (fun _ _ _ => aligned_step) (aligned_initial h0)
  refine ⟨fun os msg conn hp => ?_, ?_⟩
  · by_cases hin : d.msg.InFlight
    · exact (inFlight_poll ha hin hp).2 rfl
    · exact (rest_poll ha hin hp).2.2 rfl
  · obtain ⟨j, -, hj⟩ := ha.start
    exact ⟨j, hj⟩

/-- A message on the connection that is open on descriptor 3. -/
def opened : Dialogue := { msg := {}, conn := { fd := 3, state := .ok } }

theorem initial_opened : Initial opened := ⟨rfl, by decide, rfl, rfl, rfl, rfl⟩

/-- A Read Tag of the tag `A`. -/
def readA (now : UInt32) : Act := .send 7 0x4C (some [0x91, 1, 65, 0]) 4 (some [1, 0]) 2 1000 now

/-- A call of `poll()` in which the socket layer takes and hands out `k + 1` bytes at a time, twice. -/
def pollBy (now : UInt32) (k : Nat) : Act :=
  .poll { millis := fun _ => now, sends := [.accepted 1000], recvs := [.data k, .data k] }

/-- The reply to exchange `exchange` with the value of the tag, a DINT. -/
def dint (exchange : Nat) (value : UInt8) : Reply where
  exchange := exchange
  service := 0xCC
  data := [0xC4, 0, value, 0, 0, 0]
  fits := by simp

/-- Two exchanges: the first is given up before its reply is read, and the second reads the reply to it. -/
theorem matched_answered :
    Matched (after step opened [readA 0, pollBy 1 99, .answer (dint 1 5), .deliver 99, pollBy 2 99,
    readA 3, pollBy 4 99, .abort, readA 5, pollBy 6 99, .answer (dint 3 6), .deliver 20, pollBy 7 5, .deliver 99,
    pollBy 8 99]) :=
  matched initial_opened (run_afterIf Between (by decide +kernel))

/-- A tag whose value is the reply to the second exchange. -/
def forged : Reply where
  exchange := 1
  service := 0xCC
  data := (dint 2 13).frame
  fits := by simp [dint]

/-- The first exchange is given up when 44 bytes of its reply have been read; the second one takes the rest of them
for its reply. -/
def mistakenRun : List Act :=
  [readA 0, pollBy 1 99, .answer forged, .deliver 200, .poll { recvs := [.data 23, .data 19] }, .abort, readA 2,
    .answer (dint 2 5), .deliver 200]

theorem mistaken : ¬ ∀ d₀ d as, Initial d₀ → Run step always d₀ as d → Matched d := by
  intro h
  have hrun : Run step always opened mistakenRun (after step opened mistakenRun) := run_after (by decide +kernel)
  let os : Platform := { millis := fun _ => 3, sends := [.accepted 1000], recvs := [.data 99, .data 99] }
  have hok : ((after step opened mistakenRun).msg.poll (after step opened mistakenRun).conn os).1 = .ok := by
    decide +kernel
  have hforeign : ∀ r ∈ (after step opened mistakenRun).replies, r.exchange = (after step opened mistakenRun).serial →
      ((after step opened mistakenRun).msg.poll (after step opened mistakenRun).conn os).2.1.data ≠ r.data := by
    decide +kernel
  obtain ⟨r, hr, hown, -, -, hdata⟩ := (h _ _ _ initial_opened hrun).own os _ _ (Prod.ext hok rfl)
  exact hforeign r hr hown hdata

end Dialogue

end ControlLogix
