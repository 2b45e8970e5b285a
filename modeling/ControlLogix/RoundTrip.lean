import ControlLogix.Server

/-!
# Requests that come apart as they were put together

The server reads a header, as many bytes as its length says, the items in these bytes and the parts of the CIP
request.

* `receive_requestFrame`, `request_of_stream`: what it finds in a stream that begins with a request of
  `ExplicitMessage`;
* `requests_decode`: `send()` builds a request for all arguments of the right lengths, from which the server recovers
  what was sent, so that no two requests look the same.
-/

namespace ControlLogix

open ExplicitMessage (requestFrame cipLength kMaxCipData)

namespace SyntheticServer

/-- The two calls of `recv_exact()` in `handle_connection()`: the header, the body, and what follows them in the
stream. -/
def receive (stream : List UInt8) : Option (EncapsulationHeader × List UInt8 × List UInt8) :=
  if stream.length < 24 then none
  else
    let h := decodeHeader stream
    let length := h.length.toNat
    if stream.length < 24 + length then none
    else some (h, (stream.drop 24).take length, stream.drop (24 + length))

/-- What was asked. -/
structure Request where
  session : UInt32
  context : UInt64
  service : UInt8
  path : List UInt8
  data : List UInt8
  deriving DecidableEq, Repr

/-- The request at the beginning of a stream, and what follows it; `none` is anything else. -/
def requestOf (stream : List UInt8) : Option (Request × List UInt8) :=
  match receive stream with
  | none => none
  | some (h, body, rest) =>
    if h.command = Command.sendRRData.code then
      (parseRRData body).map fun (service, path, data) => (⟨h.session, h.context, service, path, data⟩, rest)
    else none

section Requests

variable {session : UInt32} {context : UInt64} {service : UInt8} {path data : List UInt8}

/-- The header says how many bytes follow it. -/
theorem header_counts (hfits : 2 + path.length + data.length ≤ kMaxCipData) :
    (decodeHeader (requestFrame session context service path data)).length.toNat =
      ((requestFrame session context service path data).drop 24).length := by
  have hk : kMaxCipData = 256 := rfl
  rw [decode_requestFrame, List.length_drop, length_requestFrame, cipLength_small hfits]
  show (UInt16.ofNat (16 + (2 + path.length + data.length))).toNat = _
  rw [UInt16.toNat_ofNat']
  omega

/-- A request is read off the stream as a whole. -/
theorem receive_requestFrame (hfits : 2 + path.length + data.length ≤ kMaxCipData) (rest : List UInt8) :
    receive (requestFrame session context service path data ++ rest) =
      some (ExplicitMessage.requestHeader session context (cipLength path.length data.length),
        (requestFrame session context service path data).drop 24, rest) := by
  have hlen := length_requestFrame session context service path data
  have hdecode : decodeHeader (requestFrame session context service path data ++ rest) =
      decodeHeader (requestFrame session context service path data) := by
    apply decodeHeader_congr
    rw [List.take_append_of_le_length (by omega)]
  have hcount : (decodeHeader (requestFrame session context service path data)).length.toNat =
    ((requestFrame session context service path data).drop 24).length := header_counts hfits
  have hbody : ((requestFrame session context service path data).drop 24).length = 16 +
    (2 + path.length + data.length) := by
    rw [List.length_drop, hlen]
    omega
  unfold receive
  rw [if_neg (by rw [List.length_append]; omega)]
  dsimp only
  rw [hdecode, hcount, if_neg (by rw [List.length_append]; omega), List.drop_append_of_le_length (by omega),
    List.take_left, decode_requestFrame, List.drop_left' (by omega)]

theorem request_of_stream (heven : path.length % 2 = 0) (hfits : 2 + path.length + data.length ≤ kMaxCipData)
    (hlong : 2 ≤ path.length + data.length) (rest : List UInt8) :
    requestOf (requestFrame session context service path data ++ rest) =
      some (⟨session, context, service, path, data⟩, rest) := by
  have hcommand : (ExplicitMessage.requestHeader session context (cipLength path.length data.length)).command =
      Command.sendRRData.code := rfl
  unfold requestOf
  rw [receive_requestFrame hfits]
  dsimp only
  rw [if_pos hcommand, parse_requestFrame heven hfits hlong]
  rfl

end Requests

end SyntheticServer

namespace ExplicitMessage

variable {m : ExplicitMessage} {conn : TcpConnection} {sessionHandle : UInt32} {service : UInt8}
  {path data : Option (List UInt8)} {timeoutMs now : UInt32}

/-- The contents of an argument that may be null. -/
abbrev contents (p : Option (List UInt8)) : List UInt8 := p.getD []

/-- With a message and a connection that are ready, `send()` starts an exchange for all arguments of the right
lengths. -/
theorem send_builds (hfree : ¬ m.InFlight) (hconn : conn.connected) (heven : (contents path).length % 2 = 0)
    (hfits : 2 + (contents path).length + (contents data).length ≤ kMaxCipData) :
    ∃ m', m.send conn sessionHandle service path (contents path).length data (contents data).length timeoutMs now =
        (.pending, m') ∧
      m'.tx = requestFrame sessionHandle m.context service (contents path) (contents data) ∧
      m'.txLen = m'.tx.length := by
  have hfree : ¬ (m.state = .sending ∨ m.state = .receiving) := hfree
  have hcip := cipLength_small hfits
  have hnull : ∀ p : Option (List UInt8), ¬ ((contents p).length > 0 ∧ p = none) := by
    rintro p ⟨hpos, rfl⟩
    exact absurd hpos (by decide)
  unfold send
  rw [if_neg hfree, if_neg (by simpa using hconn)]
  dsimp only
  rw [hcip, if_neg]
  · refine ⟨_, rfl, ?_, ?_⟩
    · show requestFrame _ _ _ ((contents path).take _) ((contents data).take _) = _
      rw [List.take_length, List.take_length]
    · show _ = (requestFrame _ _ _ ((contents path).take _) ((contents data).take _)).length
      rw [List.take_length, List.take_length, length_requestFrame]
      rfl
  · rintro (hlong | hodd | hpath | hdata)
    · omega
    · exact hodd heven
    · exact hnull path hpath
    · exact hnull data hdata

/-- For every service, every path of even length and every data with a request of 4 to 256 bytes `send()` builds a
frame whose header counts the bytes behind it, from which the server recovers the session, the context, the service,
the path and the data; so two such frames are the same only for the same service, path and data. -/
theorem requests_decode (hfree : ¬ m.InFlight) (hconn : conn.connected) (heven : (contents path).length % 2 = 0)
    (hlong : 4 ≤ 2 + (contents path).length + (contents data).length)
    (hfits : 2 + (contents path).length + (contents data).length ≤ kMaxCipData) :
    ∃ m', m.send conn sessionHandle service path (contents path).length data (contents data).length timeoutMs now =
        (.pending, m') ∧
      m'.txLen = m'.tx.length ∧
      (decodeHeader m'.tx).length.toNat = (m'.tx.drop kEncapsulationHeaderSize).length ∧
      (∀ rest, SyntheticServer.requestOf (m'.tx ++ rest) =
        some (⟨sessionHandle, m.context, service, contents path, contents data⟩, rest)) ∧
      ∀ (session₂ : UInt32) (context₂ : UInt64) (service₂ : UInt8) (path₂ data₂ : List UInt8), path₂.length % 2 = 0 →
        4 ≤ 2 + path₂.length + data₂.length → 2 + path₂.length + data₂.length ≤ kMaxCipData →
        m'.tx = requestFrame session₂ context₂ service₂ path₂ data₂ →
          service = service₂ ∧ contents path = path₂ ∧ contents data = data₂ := by
  obtain ⟨m', hsend, hframe, hlen⟩ : ∃ m', m.send conn sessionHandle service path (contents path).length data
      (contents data).length timeoutMs now = (.pending, m') ∧
        m'.tx = requestFrame sessionHandle m.context service (contents path) (contents data) ∧
        m'.txLen = m'.tx.length :=
    send_builds hfree hconn heven hfits
  have hdecode : ∀ rest, SyntheticServer.requestOf (m'.tx ++ rest) =
      some (⟨sessionHandle, m.context, service, contents path, contents data⟩, rest) := by
    intro rest
    rw [hframe]
    exact SyntheticServer.request_of_stream heven hfits (by omega) rest
  refine ⟨m', hsend, hlen, ?_, hdecode, ?_⟩
  · rw [hframe]
    exact SyntheticServer.header_counts hfits
  · intro session₂ context₂ service₂ path₂ data₂ heven₂ hlong₂ hfits₂ hsame
    -- what the server finds in the one frame it finds in the other
    have hfirst := hdecode []
    rw [hsame, SyntheticServer.request_of_stream heven₂ hfits₂ (by omega) []] at hfirst
    simp only [Option.some.injEq, Prod.mk.injEq, SyntheticServer.Request.mk.injEq] at hfirst
    obtain ⟨⟨-, -, hservice, hpath, hdata⟩, -⟩ := hfirst
    exact ⟨hservice.symm, hpath.symm, hdata.symm⟩

theorem requests_decode_identity :
    ∃ m', ({} : ExplicitMessage).send { fd := 3, state := .ok } 7 0x0E (some [0x20, 0x01, 0x24, 0x01]) 4
        (some [0x30, 0x07]) 2 1000 0 = (.pending, m') ∧
      SyntheticServer.requestOf m'.tx = some (⟨7, 1, 0x0E, [0x20, 0x01, 0x24, 0x01], [0x30, 0x07]⟩, []) := by
  have hfree : ¬ ({} : ExplicitMessage).InFlight := by decide
  have hconn : ({ fd := 3, state := .ok } : TcpConnection).connected = true := by decide
  have hpath : (contents (some [0x20, 0x01, 0x24, 0x01])).length % 2 = 0 := by decide
  have hlong : 4 ≤ 2 + (contents (some [0x20, 0x01, 0x24, 0x01])).length + (contents (some [0x30, 0x07])).length := by
    decide
  obtain ⟨m', hsend, -, -, hdecode, -⟩ := requests_decode hfree hconn hpath hlong (by decide)
  have hall := hdecode []
  rw [List.append_nil] at hall
  exact ⟨m', hsend, hall⟩

end ExplicitMessage

end ControlLogix
