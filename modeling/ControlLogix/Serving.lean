import ControlLogix.Frames
import ControlLogix.Header

/-!
# The server at its socket

`recv_exact()` and the loop of `handle_connection()`, over a socket that hands out the stream of the client in any
pieces.  Where the handlers raise `struct.error`, which ends the server, they have the value `none` here.  `sendall()`
is taken to succeed.

* `handleConnection_eq`: the server handles the whole frames of the stream, in order, however it is cut into pieces;
* `serve_answers`: each reply is one frame and echoes the request it answers;
* `serve_library`: the requests of the library raise no exception.
-/

namespace ControlLogix

open Bytes
open Buffers (bodyLength)

/-! ### Encapsulation frames -/

/-- The length of a frame is told by its header. -/
def encapsulation : Frames.Format UInt8 where
  size s := if 24 ≤ s.length then some (24 + bodyLength s) else none
  pos := by
    intro s k h
    split at h
    · obtain rfl := Option.some.inj h
      omega
    · cases h
  stable := by
    intro s k t h
    split at h
    · rename_i hlen
      rw [if_pos (by rw [List.length_append]; omega), Reply.bodyLength_starts hlen]
      exact h
    · cases h
  within := by
    intro s k h hle
    split at h
    · obtain rfl := Option.some.inj h
      have hlen : (s.take (24 + bodyLength s)).length = 24 + bodyLength s := by
        rw [List.length_take, Nat.min_eq_left hle]
      have hhead : (s.take (24 + bodyLength s)).take 24 = s.take 24 := by
        rw [List.take_take, Nat.min_eq_left (by omega)]
      rw [if_pos (by omega), Buffers.bodyLength_congr hhead]
    · cases h

theorem whole_encapsulation {f : List UInt8} : encapsulation.Whole f ↔ WholeFrame f := by
  show (if 24 ≤ f.length then some (24 + bodyLength f) else none) = some f.length ↔ f.length = 24 + bodyLength f
  constructor
  · intro h
    split at h
    · exact (Option.some.inj h).symm
    · cases h
  · intro h
    rw [if_pos (by omega), ← h]

theorem short_nil : encapsulation.Short [] := by
  intro k h
  cases h

namespace SyntheticServer

/-! ### The socket -/

/-- What `recv()` finds: some bytes, none at the end of the stream, or an exception. -/
inductive Arrival where
  | chunk (bs : List UInt8)
  | timeout
  | reset
  deriving DecidableEq, Repr

/-- Why `recv_exact()` has nothing to return; `waiting` is a call that has not returned yet. -/
inductive Stop where
  | waiting
  | eof
  | timeout
  | reset
  deriving DecidableEq, Repr

/-- `recv_exact()`: `n` more bytes are needed after `data`.  A piece that is too long is handed out in part. -/
def recvExact : List Arrival → (n : Nat) → (data : List UInt8) → Except Stop (List UInt8) × List Arrival
  | as, 0, data => (.ok data, as)
  | [], _ + 1, _ => (.error .waiting, [])
  | .chunk bs :: as, n + 1, data =>
    if bs = [] then (.error .eof, as)
    else if bs.length ≤ n + 1 then recvExact as (n + 1 - bs.length) (data ++ bs)
    else (.ok (data ++ bs.take (n + 1)), .chunk (bs.drop (n + 1)) :: as)
  | .timeout :: as, _ + 1, _ => (.error .timeout, as)
  | .reset :: as, _ + 1, _ => (.error .reset, as)

/-- The bytes that arrive before the end. -/
def stream : List Arrival → List UInt8
  | [] => []
  | .chunk bs :: as => if bs = [] then [] else bs ++ stream as
  | _ :: _ => []

/-- What comes after them. -/
def stop : List Arrival → Stop
  | [] => .waiting
  | .chunk bs :: as => if bs = [] then .eof else stop as
  | .timeout :: _ => .timeout
  | .reset :: _ => .reset

theorem chunk_append {bs : List UInt8} (h : bs ≠ []) (as : List Arrival) :
    stream (.chunk bs :: as) = bs ++ stream as ∧ stop (.chunk bs :: as) = stop as :=
  ⟨if_neg h, if_neg h⟩

theorem recvExact_enough {as : List Arrival} {n : Nat} (data : List UInt8) (h : n ≤ (stream as).length) :
    ∃ as', recvExact as n data = (.ok (data ++ (stream as).take n), as') ∧ stream as' = (stream as).drop n ∧
      stop as' = stop as := by
  induction as generalizing n data with
  | nil =>
    obtain rfl : n = 0 := Nat.le_zero.1 h
    refine ⟨[], ?_, rfl, rfl⟩
    rw [List.take_zero, List.append_nil]
    rfl
  | cons a as ih =>
    cases n with
    | zero =>
      refine ⟨a :: as, ?_, rfl, rfl⟩
      rw [List.take_zero, List.append_nil]
      unfold recvExact
      rfl
    | succ n =>
      cases a with
      | chunk bs =>
        by_cases hnil : bs = []
        · rw [hnil] at h
          exact absurd h (by simp [stream])
        · obtain ⟨hstream, hstop⟩ := chunk_append hnil as
          rw [hstream, List.length_append] at h
          rw [hstream, hstop]
          unfold recvExact
          rw [if_neg hnil]
          by_cases hle : bs.length ≤ n + 1
          · obtain ⟨as', hrecv, hafter, hend⟩ := ih (data ++ bs) (by omega : n + 1 - bs.length ≤ (stream as).length)
            refine ⟨as', ?_, ?_, hend⟩
            · rw [if_pos hle, hrecv, List.take_append, List.take_of_length_le hle, List.append_assoc]
            · rw [hafter, List.drop_append, List.drop_of_length_le hle, List.nil_append]
          · have hrest : bs.drop (n + 1) ≠ [] := by
              rw [Ne, List.drop_eq_nil_iff]
              exact hle
            obtain ⟨hafter, hend⟩ := chunk_append hrest as
            refine ⟨.chunk (bs.drop (n + 1)) :: as, ?_, ?_, hend⟩
            · rw [if_neg hle, List.take_append_of_le_length (by omega)]
            · rw [hafter, List.drop_append_of_le_length (by omega)]
      | timeout => exact absurd h (by simp [stream])
      | reset => exact absurd h (by simp [stream])

theorem recvExact_short {as : List Arrival} {n : Nat} (data : List UInt8) (h : (stream as).length < n) :
    ∃ as', recvExact as n data = (.error (stop as), as') := by
  induction as generalizing n data with
  | nil =>
    cases n with
    | zero => exact absurd h (Nat.not_lt_zero _)
    | succ n => exact ⟨[], rfl⟩
  | cons a as ih =>
    cases n with
    | zero => exact absurd h (Nat.not_lt_zero _)
    | succ n =>
      cases a with
      | chunk bs =>
        unfold recvExact stop
        unfold stream at h
        by_cases hnil : bs = []
        · rw [if_pos hnil, if_pos hnil]
          exact ⟨as, rfl⟩
        · rw [if_neg hnil, List.length_append] at h
          rw [if_neg hnil, if_neg hnil, if_pos (by omega)]
          exact ih (data ++ bs) (by omega)
      | timeout => exact ⟨as, rfl⟩
      | reset => exact ⟨as, rfl⟩

/-- What was received was there. -/
theorem recvExact_ok {as as' : List Arrival} {n : Nat} {bs : List UInt8} (h : recvExact as n [] = (.ok bs, as')) :
    n ≤ (stream as).length ∧ bs = (stream as).take n ∧ stream as' = (stream as).drop n ∧ stop as' = stop as := by
  by_cases hle : n ≤ (stream as).length
  · obtain ⟨as₁, hrecv, hstream, hstop⟩ := recvExact_enough [] hle
    rw [hrecv] at h
    cases h
    exact ⟨hle, rfl, hstream, hstop⟩
  · obtain ⟨as₁, hrecv⟩ := recvExact_short [] (Nat.not_le.1 hle)
    rw [hrecv] at h
    cases h

/-- What was not received was not there. -/
theorem recvExact_error {as as' : List Arrival} {n : Nat} {e : Stop} (h : recvExact as n [] = (.error e, as')) :
    (stream as).length < n ∧ e = stop as := by
  by_cases hle : n ≤ (stream as).length
  · obtain ⟨as₁, hrecv, -, -⟩ := recvExact_enough [] hle
    rw [hrecv] at h
    cases h
  · obtain ⟨as₁, hrecv⟩ := recvExact_short [] (Nat.not_le.1 hle)
    rw [hrecv] at h
    cases h
    exact ⟨Nat.not_le.1 hle, rfl⟩

/-! ### The handlers and their exceptions -/

/-- The type of an item and the length of its data. -/
def itemFmt : String := "<HH"

theorem pack_item (type : UInt16) (length : Nat) : Struct.pack itemFmt [type.toNat, length] =
    if length < 2 ^ 16 then some (putU16 type ++ putU16 (UInt16.ofNat length)) else none := by
  have hcodes : Struct.codes itemFmt = some [.H, .H] := by decide
  rw [Struct.pack_eq hcodes]
  by_cases hlen : length < 2 ^ 16
  · have hnat : (UInt16.ofNat length).toNat = length := by
      rw [UInt16.toNat_ofNat']
      omega
    have hbytes : putU16 type ++ putU16 (UInt16.ofNat length) = leBytes 2 type.toNat ++ (leBytes 2 length ++ []) := by
      rw [putU16_eq, putU16_eq, hnat, List.append_nil]
    rw [if_pos hlen, hbytes]
    exact (Struct.Packs.cons .H type.toNat_lt (Struct.Packs.cons .H hlen .nil)).pack
  · rw [if_neg hlen]
    by_contra hne
    obtain ⟨bs, hbs⟩ := Option.ne_none_iff_exists'.1 hne
    cases Struct.packs_of_pack hbs with
    | cons _ htype hrest =>
      cases hrest with
      | cons _ hlength hrest => exact hlen hlength

/-- The end of `handle_send_rr_data()`. -/
def sendUnconnected (context : UInt64) (cipResp : List UInt8) : Option (List UInt8) :=
  (Struct.pack itemFmt [(0x00B2 : UInt16).toNat, cipResp.length]).bind fun item =>
    sendPacket .sendRRData sessionHandle 0 context
      (putU32 0 ++ putU16 0 ++ putU16 2 ++ (putU16 0x0000 ++ putU16 0) ++ item ++ cipResp)

/-- The end of `handle_send_unit_data()`. -/
def sendConnected (session : UInt32) (context : UInt64) (toId : UInt32) (sequence : UInt16) (cipResp : List UInt8) :
    Option (List UInt8) :=
  (Struct.pack itemFmt [(0x00B1 : UInt16).toNat, 2 + cipResp.length]).bind fun item =>
    sendPacket .sendUnitData session 0 context
      (putU32 0 ++ putU16 0 ++ putU16 2 ++ (putU16 0x00A1 ++ putU16 4 ++ putU32 toId) ++ (item ++ putU16 sequence) ++
        cipResp)

/-- The item loop of `handle_send_unit_data()` comes to an address of which less than four bytes are left in the
body. -/
def addressCut (body : List UInt8) : Nat → (p : Nat) → Bool
  | 0, _ => false
  | n + 1, p =>
    if p + 4 > body.length then false
    else
      let itemType := getU16 (body.drop p)
      let itemLen := (getU16 (body.drop (p + 2))).toNat
      if p + 4 + itemLen > body.length then false
      else if itemType = 0x00A1 ∧ p + 8 > body.length then true
      else addressCut body n (p + 4 + itemLen)

def raisingSendRRData (s : SyntheticServer) (session : UInt32) (context : UInt64) (body : List UInt8) :
    Option (SyntheticServer × List UInt8) :=
  match parseRRData body with
  | none => some (s, [])
  | some (service, path, rest) =>
    let (s, cipResp) := s.unconnected session service path rest
    (sendUnconnected context cipResp).map fun packet => (s, packet)

/-- In a body of less than 8 bytes the loop finds no address. -/
def raisingSendUnitData (s : SyntheticServer) (session : UInt32) (context : UInt64) (body : List UInt8) :
    Option (SyntheticServer × List UInt8) :=
  if addressCut body (getU16 (body.drop 6)).toNat 8 then none
  else
    match parseUnitData body with
    | none => some (s, [])
    | some (connId, sequence, service, path, rest) =>
      match s.connections session with
      | none => some (s, [])
      | some connState =>
        if connId ≠ connState.ot then some (s, [])
        else
          let (s, cipResp) := s.connected service path rest
          (sendConnected session context connState.toId sequence cipResp).map fun packet => (s, packet)

/-- The choice of the handler in `handle_connection()`. -/
def dispatch (s : SyntheticServer) (h : EncapsulationHeader) (body : List UInt8) :
    Option (SyntheticServer × List UInt8) :=
  if h.command = Command.registerSession.code then
    (sendPacket .registerSession sessionHandle 0 h.context (putU16 1 ++ putU16 0)).map fun packet => (s, packet)
  else if h.command = Command.unregisterSession.code then
    (sendPacket .unregisterSession 0 0 h.context []).map fun packet => (s, packet)
  else if h.command = Command.sendRRData.code then s.raisingSendRRData h.session h.context body
  else if h.command = Command.sendUnitData.code then s.raisingSendUnitData h.session h.context body
  else some (s, [])

theorem sendUnconnected_eq (context : UInt64) (cipResp : List UInt8) : sendUnconnected context cipResp =
    if 16 + cipResp.length < 2 ^ 16 then some (unconnectedReply context cipResp) else none := by
  unfold sendUnconnected
  rw [pack_item]
  by_cases hitem : cipResp.length < 2 ^ 16
  · rw [if_pos hitem, Option.bind_some, sendPacket_eq]
    simp only [List.length_append, length_putU32, length_putU16]
    by_cases hall : 16 + cipResp.length < 2 ^ 16
    · rw [if_pos hall, if_pos (by omega), unconnectedReply]
      simp only [List.append_assoc]
    · rw [if_neg hall, if_neg (by omega)]
  · rw [if_neg hitem, if_neg (by omega)]
    rfl

theorem sendConnected_eq (session : UInt32) (context : UInt64) (toId : UInt32) (sequence : UInt16)
    (cipResp : List UInt8) :
    sendConnected session context toId sequence cipResp =
      if 22 + cipResp.length < 2 ^ 16 then some (connectedReply session context toId sequence cipResp) else none := by
  unfold sendConnected
  rw [pack_item]
  by_cases hitem : 2 + cipResp.length < 2 ^ 16
  · rw [if_pos hitem, Option.bind_some, sendPacket_eq]
    simp only [List.length_append, length_putU32, length_putU16]
    by_cases hall : 22 + cipResp.length < 2 ^ 16
    · rw [if_pos hall, if_pos (by omega), connectedReply]
      simp only [List.append_assoc]
    · rw [if_neg hall, if_neg (by omega)]
  · rw [if_neg hitem, if_neg (by omega)]
    rfl

/-! ### What a handler does -/

section Dispatch

variable {s : SyntheticServer} {session : UInt32} {context : UInt64} {body : List UInt8}
  {r : SyntheticServer × List UInt8}

private theorem raisingSendRRData_some (h : s.raisingSendRRData session context body = some r) :
    s.handleSendRRData session context body = r := by
  unfold raisingSendRRData at h
  unfold handleSendRRData
  cases hparse : parseRRData body with
  | none =>
    rw [hparse] at h
    exact Option.some.inj h
  | some parts =>
    obtain ⟨service, path, rest⟩ := parts
    rw [hparse] at h
    dsimp only at h ⊢
    rw [sendUnconnected_eq] at h
    split at h
    · exact Option.some.inj h
    · cases h

private theorem raisingSendUnitData_some (h : s.raisingSendUnitData session context body = some r) :
    s.handleSendUnitData session context body = r := by
  unfold raisingSendUnitData at h
  unfold handleSendUnitData
  split at h
  · cases h
  · cases hparse : parseUnitData body with
    | none =>
      rw [hparse] at h
      exact Option.some.inj h
    | some parts =>
      obtain ⟨connId, sequence, service, path, rest⟩ := parts
      rw [hparse] at h
      dsimp only at h ⊢
      cases hconn : s.connections session with
      | none =>
        rw [hconn] at h
        exact Option.some.inj h
      | some connState =>
        rw [hconn] at h
        dsimp only at h ⊢
        by_cases hid : connId ≠ connState.ot
        · rw [if_pos hid] at h ⊢
          exact Option.some.inj h
        · rw [if_neg hid] at h ⊢
          rw [sendConnected_eq] at h
          split at h
          · exact Option.some.inj h
          · cases h

/-- A handler that raises no exception does what it does to a whole request. -/
theorem dispatch_handle {f : List UInt8} (h : s.dispatch (decodeHeader f) (f.drop 24) = some r) : s.handle f = r := by
  have hregister := sendPacket_eq .registerSession sessionHandle 0 (decodeHeader f).context (putU16 1 ++ putU16 0)
  have hunregister := sendPacket_eq .unregisterSession 0 0 (decodeHeader f).context []
  rw [if_pos (by decide)] at hregister hunregister
  unfold dispatch at h
  unfold handle
  split at h
  · rename_i hc
    rw [hregister] at h
    rw [if_pos hc]
    exact Option.some.inj h
  · rename_i hc
    rw [if_neg hc]
    split at h
    · rename_i hc
      rw [hunregister] at h
      rw [if_pos hc]
      exact Option.some.inj h
    · rename_i hc
      rw [if_neg hc]
      split at h
      · rename_i hc
        rw [if_pos hc]
        exact raisingSendRRData_some h
      · rename_i hc
        rw [if_neg hc]
        split at h
        · rename_i hc
          rw [if_pos hc]
          exact raisingSendUnitData_some h
        · rename_i hc
          rw [if_neg hc]
          exact Option.some.inj h

/-- `out` is nothing, or one frame that answers a request with the header `h`. -/
def Answers (h : EncapsulationHeader) (out : List UInt8) : Prop :=
  out = [] ∨ WholeFrame out ∧ (decodeHeader out).command = h.command ∧ (decodeHeader out).context = h.context ∧
    (decodeHeader out).status = 0

private theorem answers_packet {command : Command} {session : UInt32} {h : EncapsulationHeader}
    {body out : List UInt8}
    (hsend : sendPacket command session 0 h.context body = some out) (hc : h.command = command.code) :
    Answers h out := by
  rw [sendPacket_eq] at hsend
  split at hsend
  · rename_i hlen
    obtain rfl := Option.some.inj hsend
    have hdecode := decode_packet command session 0 h.context body []
    rw [List.append_nil] at hdecode
    refine Or.inr ⟨(whole_packet command session 0 h.context hlen).1, ?_, ?_, ?_⟩
    · rw [hdecode, hc]
    · rw [hdecode]
    · rw [hdecode]
  · cases hsend

private theorem answers_unconnected {h : EncapsulationHeader} {cipResp out : List UInt8}
    (hsend : sendUnconnected h.context cipResp = some out) (hc : h.command = Command.sendRRData.code) :
    Answers h out := by
  obtain ⟨item, -, hpacket⟩ := Option.bind_eq_some_iff.1 hsend
  exact answers_packet hpacket hc

private theorem answers_connected {h : EncapsulationHeader} {session : UInt32} {toId : UInt32} {sequence : UInt16}
    {cipResp out : List UInt8} (hsend : sendConnected session h.context toId sequence cipResp = some out)
    (hc : h.command = Command.sendUnitData.code) : Answers h out := by
  obtain ⟨item, -, hpacket⟩ := Option.bind_eq_some_iff.1 hsend
  exact answers_packet hpacket hc

theorem dispatch_answers {h : EncapsulationHeader} (hd : s.dispatch h body = some r) : Answers h r.2 := by
  unfold dispatch at hd
  split at hd
  · rename_i hc
    obtain ⟨out, hsend, rfl⟩ := Option.map_eq_some_iff.1 hd
    exact answers_packet hsend hc
  · split at hd
    · rename_i hc
      obtain ⟨out, hsend, rfl⟩ := Option.map_eq_some_iff.1 hd
      exact answers_packet hsend hc
    · split at hd
      · rename_i hc
        unfold raisingSendRRData at hd
        split at hd
        · obtain rfl := Option.some.inj hd
          exact Or.inl rfl
        · obtain ⟨out, hsend, rfl⟩ := Option.map_eq_some_iff.1 hd
          exact answers_unconnected hsend hc
      · split at hd
        · rename_i hc
          unfold raisingSendUnitData at hd
          split at hd
          · cases hd
          · split at hd
            · obtain rfl := Option.some.inj hd
              exact Or.inl rfl
            · split at hd
              · obtain rfl := Option.some.inj hd
                exact Or.inl rfl
              · split at hd
                · obtain rfl := Option.some.inj hd
                  exact Or.inl rfl
                · obtain ⟨out, hsend, rfl⟩ := Option.map_eq_some_iff.1 hd
                  exact answers_connected hsend hc
        · obtain rfl := Option.some.inj hd
          exact Or.inl rfl

end Dispatch

/-! ### The loop -/

/-- How `handle_connection()` stands: it waits for more, it has closed the connection, or an exception has ended the
server. -/
inductive Ending where
  | waits
  | closed
  | raised
  deriving DecidableEq, Repr

def Stop.ending : Stop → Ending
  | .waiting => .waits
  | _ => .closed

/-- Header and body are taken from what arrives. -/
private theorem shorter {as as₁ as₂ : List Arrival} {header body : List UInt8} {n : Nat}
    (hheader : recvExact as 24 [] = (.ok header, as₁)) (hbody : recvExact as₁ n [] = (.ok body, as₂)) :
    (stream as₂).length < (stream as).length := by
  obtain ⟨hlen, -, hfirst, -⟩ := recvExact_ok hheader
  obtain ⟨-, -, hsecond, -⟩ := recvExact_ok hbody
  rw [hsecond, hfirst, List.length_drop, List.length_drop]
  omega

/-- `handle_connection()`: the server afterwards, the bytes sent, and how it ended. -/
def handleConnection (s : SyntheticServer) (as : List Arrival) : SyntheticServer × List UInt8 × Ending :=
  match _hheader : recvExact as 24 [] with
  | (.error e, _) => (s, [], e.ending)
  | (.ok header, as₁) =>
    match _hbody : recvExact as₁ (decodeHeader header).length.toNat [] with
    | (.error e, _) => (s, [], e.ending)
    | (.ok body, as₂) =>
      match s.dispatch (decodeHeader header) body with
      | none => (s, [], .raised)
      | some (s, reply) =>
        let (s, replies, ending) := s.handleConnection as₂
        (s, reply ++ replies, ending)
termination_by (stream as).length
decreasing_by exact shorter ‹_› ‹_›

/-- Requests one after the other: the server afterwards, a reply for each request handled, and whether an exception
has ended the server. -/
def serve : SyntheticServer → List (List UInt8) → SyntheticServer × List (List UInt8) × Bool
  | s, [] => (s, [], false)
  | s, f :: fs =>
    match s.dispatch (decodeHeader f) (f.drop 24) with
    | none => (s, [], true)
    | some (s, reply) =>
      let (s, replies, raised) := s.serve fs
      (s, reply :: replies, raised)

/-- The server handles the whole frames of the stream one after the other, in whatever pieces the stream arrives.
What is left of the stream is not looked at. -/
theorem handleConnection_eq (s : SyntheticServer) {as : List Arrival} {fs : List (List UInt8)} {rest : List UInt8}
    (h : encapsulation.Splits (stream as) fs rest) :
    s.handleConnection as =
      ((s.serve fs).1, (s.serve fs).2.1.flatten, if (s.serve fs).2.2 then .raised else (stop as).ending) := by
  induction fs generalizing s as with
  | nil =>
    have hrest : stream as = rest := h.eq
    have hshort := h.short
    rw [← hrest] at hshort
    rw [handleConnection]
    split
    · rename_i e as₁ hheader
      obtain ⟨-, rfl⟩ := recvExact_error hheader
      rfl
    · rename_i header as₁ hheader
      obtain ⟨hlen, rfl, hafter, hstop⟩ := recvExact_ok hheader
      split
      · rename_i e as₂ hbody
        obtain ⟨-, rfl⟩ := recvExact_error hbody
        rw [hstop]
        rfl
      · rename_i body as₂ hbody
        obtain ⟨hroom, -, -, -⟩ := recvExact_ok hbody
        rw [hafter, List.length_drop, decodeHeader_take] at hroom
        have hlt := hshort (24 + bodyLength (stream as)) (if_pos hlen)
        unfold bodyLength at hlt
        omega
  | cons f fs ih =>
    obtain ⟨t, hstream, hf, ht⟩ := h.tail
    have hwhole : f.length = 24 + bodyLength f := whole_encapsulation.1 hf
    have hhead : (f ++ t).take 24 = f.take 24 := List.take_append_of_le_length (by omega)
    have hroom : (stream as).length = f.length + t.length := by rw [hstream, List.length_append]
    rw [handleConnection]
    split
    · rename_i e as₁ hheader
      obtain ⟨hshort, -⟩ := recvExact_error hheader
      omega
    · rename_i header as₁ hheader
      obtain ⟨-, rfl, hafter, hstop⟩ := recvExact_ok hheader
      rw [hstream, hhead, decodeHeader_take]
      have hbody : (f.drop 24).length = (decodeHeader f).length.toNat := by
        rw [List.length_drop, hwhole]
        exact Nat.add_sub_cancel_left _ _
      have hfollowing : stream as₁ = f.drop 24 ++ t := by
        rw [hafter, hstream, List.drop_append_of_le_length (by omega)]
      split
      · rename_i e as₂ hrecv
        obtain ⟨hshort, -⟩ := recvExact_error hrecv
        rw [hfollowing, List.length_append] at hshort
        omega
      · rename_i body as₂ hrecv
        obtain ⟨-, rfl, hafter', hstop'⟩ := recvExact_ok hrecv
        rw [hfollowing, List.take_left' hbody]
        rw [hfollowing, List.drop_left' hbody] at hafter'
        unfold serve
        cases hd : s.dispatch (decodeHeader f) (f.drop 24) with
        | none => rfl
        | some r =>
          rw [← hafter'] at ht
          dsimp only
          rw [ih r.1 ht, hstop', hstop, List.flatten_cons]

/-! ### The replies -/

/-- What requests make of a server whose handlers raise no exceptions, and the replies. -/
def handleAll : SyntheticServer → List (List UInt8) → SyntheticServer × List (List UInt8)
  | s, [] => (s, [])
  | s, f :: fs =>
    let (s, reply) := s.handle f
    let (s, replies) := s.handleAll fs
    (s, reply :: replies)

theorem serve_handleAll {s : SyntheticServer} {fs : List (List UInt8)} (h : (s.serve fs).2.2 = false) :
    ((s.serve fs).1, (s.serve fs).2.1) = s.handleAll fs := by
  induction fs generalizing s with
  | nil => rfl
  | cons f fs ih =>
    unfold serve at h ⊢
    unfold handleAll
    cases hd : s.dispatch (decodeHeader f) (f.drop 24) with
    | none =>
      rw [hd] at h
      cases h
    | some r =>
      rw [hd] at h
      rw [dispatch_handle hd]
      dsimp only at h ⊢
      rw [← ih h]

theorem serve_answers (s : SyntheticServer) (fs : List (List UInt8)) :
    List.Forall₂ (fun f out => Answers (decodeHeader f) out) (fs.take (s.serve fs).2.1.length) (s.serve fs).2.1 ∧
      ((s.serve fs).2.2 = false → (s.serve fs).2.1.length = fs.length) := by
  induction fs generalizing s with
  | nil => exact ⟨.nil, fun _ => rfl⟩
  | cons f fs ih =>
    unfold serve
    cases hd : s.dispatch (decodeHeader f) (f.drop 24) with
    | none => exact ⟨.nil, nofun⟩
    | some r =>
      obtain ⟨hanswers, hlen⟩ := ih r.1
      refine ⟨.cons (dispatch_answers hd) hanswers, fun h => ?_⟩
      exact congrArg (· + 1) (hlen h)

private theorem whole_of_answers {fs replies : List (List UInt8)}
    (h : List.Forall₂ (fun f out => Answers (decodeHeader f) out) fs replies) :
    ∀ out ∈ replies, out = [] ∨ WholeFrame out := by
  induction h with
  | nil => nofun
  | cons hfirst _ ih =>
    intro out hout
    rcases List.mem_cons.1 hout with rfl | hout
    · rcases hfirst with hnil | ⟨hwhole, -⟩
      · exact Or.inl hnil
      · exact Or.inr hwhole
    · exact ih out hout

/-- The replies that are sent are the frames a client finds in the bytes of the server. -/
theorem replies_split {replies : List (List UInt8)} (h : ∀ out ∈ replies, out = [] ∨ WholeFrame out) :
    encapsulation.Splits replies.flatten (replies.filter (· ≠ [])) [] := by
  have hframes : ∀ out ∈ replies.filter (· ≠ []), encapsulation.Whole out := by
    intro out hout
    obtain ⟨hmem, hne⟩ := List.mem_filter.1 hout
    rcases h out hmem with hnil | hwhole
    · exact absurd hnil (by simpa using hne)
    · exact whole_encapsulation.2 hwhole
  have hsplits := Frames.Format.splits_flatten short_nil hframes
  rwa [List.flatten_filter_ne_nil] at hsplits

/-- In whatever pieces the stream of a client arrives, the server handles its whole frames in order and waits for the
rest. What it sends is a stream of whole frames, at most one for each request and in the order of the requests, and
each echoes the command and the context of the request it answers. -/
theorem connection_served (s : SyntheticServer) (as : List Arrival) :
    ∃ fs rest, encapsulation.Splits (stream as) fs rest ∧
      s.handleConnection as =
        ((s.serve fs).1, (s.serve fs).2.1.flatten, if (s.serve fs).2.2 then .raised else (stop as).ending) ∧
      (∀ bs, stream bs = stream as → stop bs = stop as → s.handleConnection bs = s.handleConnection as) ∧
      List.Forall₂ (fun f out => Answers (decodeHeader f) out) (fs.take (s.serve fs).2.1.length) (s.serve fs).2.1 ∧
      ((s.serve fs).2.2 = false → (s.serve fs).2.1.length = fs.length ∧
        ((s.serve fs).1, (s.serve fs).2.1) = s.handleAll fs) ∧
      encapsulation.Splits (s.handleConnection as).2.1 ((s.serve fs).2.1.filter (· ≠ [])) [] := by
  obtain ⟨fs, rest, hsplits⟩ := encapsulation.exists_splits (stream as)
  obtain ⟨hanswers, hlen⟩ := s.serve_answers fs
  have hserved := s.handleConnection_eq hsplits
  refine ⟨fs, rest, hsplits, hserved, ?_, hanswers, fun h => ⟨hlen h, serve_handleAll h⟩, ?_⟩
  · intro bs hstream hstop
    rw [← hstream] at hsplits
    rw [hserved, s.handleConnection_eq hsplits, hstop]
  · rw [hserved]
    exact replies_split (whole_of_answers hanswers)

/-! ### Requests that raise no exception -/

/-- Every value fits a reply many times over. -/
def Modest (s : SyntheticServer) : Prop := ∀ key entry, s.tags key = some entry → entry.value.length ≤ 1000

theorem Small.modest {s : SyntheticServer} (h : s.Small) : s.Modest :=
  fun key entry hentry => Nat.le_trans (h key entry hentry) (by omega)

section Modest

variable {s : SyntheticServer} {path rest : List UInt8}

private theorem Modest.readTag (h : s.Modest) (path : List UInt8) : (s.readTag path).length ≤ 1006 := by
  unfold SyntheticServer.readTag
  split
  · rename_i entry hentry
    have hvalue := h _ entry hentry
    simp only [List.length_append, List.length_cons, List.length_nil, length_putU16]
    omega
  · simp

private theorem Modest.writeTag (h : s.Modest) (path : List UInt8) (hrest : rest.length ≤ 1000) :
    (s.writeTag path rest).1.Modest ∧ (s.writeTag path rest).2.length ≤ 1006 := by
  unfold SyntheticServer.writeTag
  split
  · refine ⟨fun key entry hentry => ?_, by simp⟩
    by_cases hkey : key = parseSymbolicPath path
    · dsimp only at hentry
      rw [hkey, Function.update_self] at hentry
      obtain rfl := Option.some.inj hentry
      rw [List.length_drop]
      omega
    · dsimp only at hentry
      rw [Function.update_of_ne hkey] at hentry
      exact h key entry hentry
  · exact ⟨h, by simp⟩

private theorem length_identity (rest : List UInt8) : (identity rest).length ≤ 1006 := by
  unfold identity
  split
  · split
    · simp
    · rename_i value hvalue
      unfold identityAttributes at hvalue
      have hshort : value.length ≤ 13 := by
        repeat' split at hvalue
        all_goals first
          | cases hvalue
            done
          | obtain rfl := Option.some.inj hvalue
            decide
      simp only [List.length_append, List.length_cons, List.length_nil]
      omega
  · simp

theorem Modest.unconnected (h : s.Modest) (session : UInt32) (service : UInt8) (path : List UInt8)
    (hrest : rest.length ≤ 1000) : (s.unconnected session service path rest).1.Modest ∧
      (s.unconnected session service path rest).2.length ≤ 1006 := by
  unfold SyntheticServer.unconnected
  split
  · exact ⟨h, length_identity rest⟩
  · split
    · exact ⟨h, h.readTag path⟩
    · split
      · exact h.writeTag path hrest
      · split
        · unfold SyntheticServer.forwardOpen
          split
          · exact ⟨h, by simp⟩
          · exact ⟨h, by simp⟩
        · split <;> exact ⟨h, by simp⟩

theorem Modest.connected (h : s.Modest) (service : UInt8) (path : List UInt8) (hrest : rest.length ≤ 1000) :
    (s.connected service path rest).1.Modest ∧ (s.connected service path rest).2.length ≤ 1006 := by
  unfold SyntheticServer.connected
  split
  · exact ⟨h, h.readTag path⟩
  · split
    · exact h.writeTag path hrest
    · exact ⟨h, by simp⟩

end Modest

/-- What the item loops find lies in the body. -/
private theorem length_unconnectedItem {body cip : List UInt8} {n p : Nat} {found : Option (List UInt8)}
    (hfound : ∀ c, found = some c → c.length ≤ body.length) (h : unconnectedItem body n p found = some (some cip)) :
    cip.length ≤ body.length := by
  induction n generalizing p found with
  | zero => exact hfound cip (Option.some.inj h)
  | succ n ih =>
    unfold unconnectedItem at h
    split at h
    · cases h
    · dsimp only at h
      split at h
      · cases h
      · refine ih (fun c hc => ?_) h
        split at hc
        · obtain rfl := Option.some.inj hc
          rw [List.length_take, List.length_drop]
          omega
        · exact hfound c hc

private theorem length_connectedItems {body connData : List UInt8} {n p : Nat} {connId : Option UInt32}
    {connId' : UInt32} {found : Option (List UInt8)} (hfound : ∀ c, found = some c → c.length ≤ body.length)
    (h : connectedItems body n p connId found = some (some connId', some connData)) :
    connData.length ≤ body.length := by
  induction n generalizing p connId found with
  | zero =>
    have hpair := Option.some.inj h
    exact hfound connData (congrArg Prod.snd hpair)
  | succ n ih =>
    unfold connectedItems at h
    split at h
    · cases h
    · dsimp only at h
      split at h
      · cases h
      · split at h
        · split at h
          · cases h
          · exact ih hfound h
        · refine ih (fun c hc => ?_) h
          split at hc
          · obtain rfl := Option.some.inj hc
            rw [List.length_take, List.length_drop]
            omega
          · exact hfound c hc

private theorem length_parseRRData {body path rest : List UInt8} {service : UInt8}
    (h : parseRRData body = some (service, path, rest)) : rest.length ≤ body.length := by
  unfold parseRRData at h
  split at h
  · cases h
  · dsimp only at h
    split at h
    · rename_i cip hitem
      have hcip := length_unconnectedItem (fun c (hnone : none = some c) => by cases hnone) hitem
      split at h
      · cases h
      · simp only [Option.some.injEq, Prod.mk.injEq] at h
        obtain ⟨-, -, rfl⟩ := h
        rw [List.length_drop]
        omega
    · cases h

private theorem length_parseUnitData {body path rest : List UInt8} {connId : UInt32} {sequence : UInt16}
    {service : UInt8}
    (h : parseUnitData body = some (connId, sequence, service, path, rest)) : rest.length ≤ body.length := by
  unfold parseUnitData at h
  split at h
  · cases h
  · dsimp only at h
    split at h
    · rename_i connData hitems
      have hdata := length_connectedItems (fun c (hnone : none = some c) => by cases hnone) hitems
      split at h
      · cases h
      · simp only [Option.some.injEq, Prod.mk.injEq] at h
        obtain ⟨-, -, -, -, rfl⟩ := h
        rw [List.length_drop, List.length_drop]
        omega
    · cases h

/-- A request whose body is short and whose addresses are whole. -/
structure Tame (f : List UInt8) : Prop where
  short : (f.drop 24).length ≤ 1000
  addresses : (decodeHeader f).command = Command.sendUnitData.code →
    addressCut (f.drop 24) (getU16 ((f.drop 24).drop 6)).toNat 8 = false

theorem dispatch_tame {s : SyntheticServer} {f : List UInt8} (hs : s.Modest) (hf : Tame f) :
    ∃ r, s.dispatch (decodeHeader f) (f.drop 24) = some r ∧ r.1.Modest := by
  obtain ⟨hshort, haddresses⟩ := hf
  unfold dispatch
  split
  · rw [sendPacket_eq, if_pos (by decide)]
    exact ⟨_, rfl, hs⟩
  · split
    · rw [sendPacket_eq, if_pos (by decide)]
      exact ⟨_, rfl, hs⟩
    · split
      · unfold raisingSendRRData
        split
        · exact ⟨_, rfl, hs⟩
        · rename_i service path rest hparse
          have hrest := length_parseRRData hparse
          have hshort : rest.length ≤ 1000 := by omega
          obtain ⟨hafter, hlen⟩ := hs.unconnected (decodeHeader f).session service path hshort
          dsimp only
          rw [sendUnconnected_eq, if_pos (by omega)]
          exact ⟨_, rfl, hafter⟩
      · split
        · rename_i hcommand
          unfold raisingSendUnitData
          rw [if_neg (by rw [haddresses hcommand]; decide)]
          split
          · exact ⟨_, rfl, hs⟩
          · rename_i connId sequence service path rest hparse
            have hrest := length_parseUnitData hparse
            have hshort : rest.length ≤ 1000 := by omega
            split
            · exact ⟨_, rfl, hs⟩
            · split
              · exact ⟨_, rfl, hs⟩
              · obtain ⟨hafter, hlen⟩ := hs.connected service path hshort
                dsimp only
                rw [sendConnected_eq, if_pos (by omega)]
                exact ⟨_, rfl, hafter⟩
        · exact ⟨_, rfl, hs⟩

/-- The frames of `Session`, `ExplicitMessage` and `Connection`. -/
inductive OfLibrary : List UInt8 → Prop where
  | register (context : UInt64) : OfLibrary (Session.registerFrame context)
  | unregister (handle : UInt32) (context : UInt64) : OfLibrary (Session.unregisterFrame handle context)
  | request (session : UInt32) (context : UInt64) (service : UInt8) {path data : List UInt8}
      (fits : 2 + path.length + data.length ≤ ExplicitMessage.kMaxCipData) :
      OfLibrary (ExplicitMessage.requestFrame session context service path data)
  | connected (session : UInt32) (context : UInt64) (otConnId : UInt32) (sequence : UInt16) (service : UInt8)
      {path data : List UInt8} (fits : 2 + path.length + data.length ≤ Connection.kMaxDataSize) :
      OfLibrary (Connection.connectedFrame session context otConnId sequence service path data)

/-- The body of a request of `Connection`, up to the length of its data. -/
private def addressedBody (otConnId : UInt32) (rest : List UInt8) : List UInt8 :=
  putU32 0 ++ putU16 0 ++ putU16 2 ++ putU16 0x00A1 ++ putU16 4 ++ putU32 otConnId ++ putU16 0x00B1 ++ rest

/-- The address in a request of `Connection` is whole. -/
private theorem addressCut_addressedBody (otConnId : UInt32) (rest : List UInt8) :
    addressCut (addressedBody otConnId rest) (getU16 ((addressedBody otConnId rest).drop 6)).toNat 8 = false := by
  have hlong : (addressedBody otConnId rest).length = 18 + rest.length := by
    simp only [addressedBody, List.length_append, length_putU32, length_putU16]
  have hitems : (addressedBody otConnId rest).drop 6 = putU16 2 ++ (addressedBody otConnId rest).drop 8 := rfl
  have haddress : (addressedBody otConnId rest).drop 8 = putU16 0x00A1 ++ (addressedBody otConnId rest).drop 10 := rfl
  have hfour : (addressedBody otConnId rest).drop (8 + 2) = putU16 4 ++ (addressedBody otConnId rest).drop 12 := rfl
  have hdata : (addressedBody otConnId rest).drop 16 = putU16 0x00B1 ++ (addressedBody otConnId rest).drop 18 := rfl
  have hcount : (getU16 ((addressedBody otConnId rest).drop 6)).toNat = 2 := by
    rw [hitems, getU16_putU16]
    rfl
  have htype₁ : getU16 ((addressedBody otConnId rest).drop 8) = 0x00A1 := by rw [haddress, getU16_putU16]
  have hlen₁ : (getU16 ((addressedBody otConnId rest).drop (8 + 2))).toNat = 4 := by
    rw [hfour, getU16_putU16]
    rfl
  have htype₂ : getU16 ((addressedBody otConnId rest).drop 16) = 0x00B1 := by rw [hdata, getU16_putU16]
  generalize addressedBody otConnId rest = body at *
  rw [hcount]
  unfold addressCut
  dsimp only
  rw [htype₁, hlen₁, if_neg (by omega), if_neg (by omega), if_neg (fun h => by omega)]
  unfold addressCut
  dsimp only
  rw [htype₂]
  split
  · rfl
  · split
    · rfl
    · rw [if_neg (fun h => absurd h.1 (by decide))]
      rfl

/-- A request with another command. -/
private theorem tame_of_command {f : List UInt8} (hlen : f.length ≤ 1024)
    (hc : (decodeHeader f).command ≠ Command.sendUnitData.code) : Tame f := by
  refine ⟨?_, fun h => absurd h hc⟩
  rw [List.length_drop]
  omega

theorem OfLibrary.tame {f : List UInt8} (h : OfLibrary f) : Tame f := by
  have hk : ExplicitMessage.kMaxCipData = 256 := rfl
  have hk' : Connection.kMaxDataSize = 256 := rfl
  cases h with
  | register context =>
    refine tame_of_command (Nat.le_trans (Nat.le_of_eq (rfl : _ = 28)) (by omega)) ?_
    rw [Session.decode_registerFrame]
    show Command.registerSession.code ≠ Command.sendUnitData.code
    decide
  | unregister handle context =>
    refine tame_of_command (Nat.le_trans (Nat.le_of_eq (rfl : _ = 24)) (by omega)) ?_
    rw [Session.decode_unregisterFrame]
    show Command.unregisterSession.code ≠ Command.sendUnitData.code
    decide
  | @request session context service path data fits =>
    refine tame_of_command ?_ ?_
    · rw [length_requestFrame]
      omega
    · rw [decode_requestFrame]
      show Command.sendRRData.code ≠ Command.sendUnitData.code
      decide
  | @connected session context otConnId sequence service path data fits =>
    have hlen := Connection.length_connectedFrame session context otConnId sequence service path data
    refine ⟨?_, fun _ => ?_⟩
    · rw [List.length_drop]
      omega
    · have hbody : ∃ rest, (Connection.connectedFrame session context otConnId sequence service path data).drop 24 =
          addressedBody otConnId rest := by
        refine ⟨putU16 (UInt16.ofNat (2 + ExplicitMessage.cipLength path.length data.length)) ++ putU16 sequence ++
          [service, UInt8.ofNat (path.length / 2)] ++ path ++ data, ?_⟩
        simp only [Connection.connectedFrame, addressedBody, List.append_assoc]
        rfl
      obtain ⟨rest, hbody⟩ := hbody
      rw [hbody]
      exact addressCut_addressedBody otConnId rest

private theorem serve_tame {s : SyntheticServer} (hs : s.Modest) {fs : List (List UInt8)} (htame : ∀ f ∈ fs, Tame f) :
    (s.serve fs).2.2 = false ∧ (s.serve fs).1.Modest := by
  induction fs generalizing s with
  | nil => exact ⟨rfl, hs⟩
  | cons f fs ih =>
    obtain ⟨r, hr, hafter⟩ := dispatch_tame hs (htame f List.mem_cons_self)
    unfold serve
    rw [hr]
    exact ih hafter fun g hg => htame g (List.mem_cons_of_mem f hg)

/-- A server with short values raises no exception for the frames of the library, in whatever pieces they come: it
does what it does to whole requests, and its values stay short. -/
theorem serve_library {s : SyntheticServer} (hs : s.Modest) {as : List Arrival} {fs : List (List UInt8)}
    {rest : List UInt8} (hsplits : encapsulation.Splits (stream as) fs rest) (hlib : ∀ f ∈ fs, OfLibrary f) :
    s.handleConnection as = ((s.handleAll fs).1, (s.handleAll fs).2.flatten, (stop as).ending) ∧
      (s.handleAll fs).1.Modest := by
  obtain ⟨hraised, hafter⟩ := serve_tame hs fun f hf => (hlib f hf).tame
  rw [handleConnection_eq s hsplits, ← serve_handleAll hraised, hraised]
  exact ⟨rfl, hafter⟩

/-- The name `TestInt`, of which the server has the value 0xFF85. -/
def testInt : List UInt8 := [0x54, 0x65, 0x73, 0x74, 0x49, 0x6E, 0x74]

/-- The INT 5 is written to the tag, and the tag is read over the connection 1. -/
def testRequests : List (List UInt8) :=
  [ExplicitMessage.requestFrame 7 8 0x4D (appendSymbolic testInt) [1, 0, 0xC3, 0, 5, 0],
   Connection.connectedFrame 7 9 1 3 0x4C (appendSymbolic testInt) [1, 0]]

/-- The pieces in which they arrive end inside the first request, inside the second and inside a third. -/
def cutFrames : List Arrival :=
  [.chunk (testRequests.flatten.take 30), .chunk ((testRequests.flatten.drop 30).take 70),
   .chunk (testRequests.flatten.drop 100 ++ (Session.unregisterFrame 7 10).take 5), .timeout]

/-- A server with an open connection. -/
def serving : SyntheticServer where
  connections := Function.update (fun _ => none) 7 (some ⟨1, 0x10203040⟩)

theorem serve_library_cut :
    (serving.handleConnection cutFrames).2.2 = .closed ∧
      (serving.handleConnection cutFrames).2.1 = unconnectedReply 8 [0xCD, 0, 0, 0] ++
        connectedReply 7 9 0x10203040 3 [0xCC, 0, 0, 0, 0xC3, 0, 5, 0] ∧
      (serving.handleConnection cutFrames).1.tags (some (decodeAscii testInt)) = some ⟨0xC3, [5, 0]⟩ := by
  have hwhole : ∀ f ∈ testRequests, encapsulation.Whole f := by decide
  have hshort : encapsulation.Short ((Session.unregisterFrame 7 10).take 5) := by
    intro k h
    cases h
  have hsplits : encapsulation.Splits (stream cutFrames) testRequests ((Session.unregisterFrame 7 10).take 5) := by
    have hstream : stream cutFrames = testRequests.flatten ++ (Session.unregisterFrame 7 10).take 5 := by decide
    have hfirst := ((Frames.Format.Splits.nil hshort).cons (hwhole _ (.tail _ (.head _)))).cons (hwhole _ (.head _))
    rw [← List.append_assoc] at hfirst
    rwa [hstream]
  have hlib : ∀ f ∈ testRequests, OfLibrary f := by
    intro f hf
    rcases List.mem_cons.1 hf with rfl | hf
    · exact .request 7 8 0x4D (by decide)
    · obtain rfl := List.mem_singleton.1 hf
      exact .connected 7 9 1 3 0x4C (by decide)
  obtain ⟨hserved, -⟩ := serve_library (s := serving) (small_initial rfl).modest hsplits hlib
  rw [hserved]
  exact ⟨by decide +kernel, by decide +kernel, by decide +kernel⟩

end SyntheticServer

end ControlLogix
