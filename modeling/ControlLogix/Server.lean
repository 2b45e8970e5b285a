import ControlLogix.Link

/-!
# The synthetic server

The server of `tools/synthetic_eip_server.py`: what it keeps, and what it makes of a whole request.  A Python `str` is
the list of its characters, a `dict` a function to optional entries, and `print()` is left out.  A handler that
returns without sending has the empty reply.

* `parse_requestFrame`, `handle_requestFrame`: what the server makes of a request of `ExplicitMessage`, found in its
  bytes;
* `handle_connectedFrame`: what it makes of a request of `Connection`.
-/

namespace ControlLogix

open Bytes

/-- An entry of `TAGS`. -/
structure TagEntry where
  typeCode : UInt8
  value : List UInt8
  deriving DecidableEq, Repr

/-- The name of a tag, or `None`. -/
abbrev TagKey := Option (List Char)

abbrev TagTable := TagKey → Option TagEntry

/-- An entry of `connections`. -/
structure ServerConnection where
  ot : UInt32
  toId : UInt32
  deriving DecidableEq, Repr

def initialTags : List (List Char × TagEntry) :=
  [(['T', 'e', 's', 't', 'D', 'i', 'n', 't'], ⟨0xC4, putU32 1001⟩),
   (['T', 'e', 's', 't', 'R', 'e', 'a', 'l'], ⟨0xCA, putU32 0x4048F5C3⟩),
   (['T', 'e', 's', 't', 'B', 'o', 'o', 'l'], ⟨0xC1, [1]⟩),
   (['T', 'e', 's', 't', 'I', 'n', 't'], ⟨0xC3, putU16 0xFF85⟩),
   (['T', 'e', 's', 't', 'S', 't', 'r', 'i', 'n', 'g'],
     ⟨0xD0, putU32 11 ++ [0x48, 0x65, 0x6C, 0x6C, 0x6F, 0x20, 0x57, 0x6F, 0x72, 0x6C, 0x64]⟩),
   (['C', 'o', 'n', 't', 'r', 'o', 'l', 'l', 'e', 'r', 'I', 'n', 'f', 'o', '.', 'M', 'o', 'd', 'e'],
     ⟨0xC4, putU32 1⟩)]

structure SyntheticServer where
  tags : TagTable := fun key => (initialTags.find? fun entry => some entry.1 = key).map Prod.snd
  connections : UInt32 → Option ServerConnection := fun _ => none

namespace SyntheticServer

def sessionHandle : UInt32 := 0x13572468

def identityAttributes (attr : UInt8) : Option (List UInt8) :=
  if attr = 1 then some (putU16 1)
  else if attr = 2 then some (putU16 0x000E)
  else if attr = 3 then some (putU16 0x0001)
  else if attr = 4 then some [1, 20]
  else if attr = 5 then some (putU16 0)
  else if attr = 6 then some (putU32 0x12345678)
  else if attr = 7 then some [0x53, 0x79, 0x6E, 0x74, 0x68, 0x65, 0x74, 0x69, 0x63, 0x20, 0x50, 0x4C, 0x43]
  else if attr = 8 then some [3]
  else none

/-- `decode("ascii", "replace")`: a byte that is not ASCII becomes U+FFFD. -/
def decodeAscii (bs : List UInt8) : List Char :=
  bs.map fun b => if b < 0x80 then Char.ofNat b.toNat else Char.ofNat 0xFFFD

def parseSymbolicPath (path : List UInt8) : TagKey :=
  if path.length < 2 ∨ peek path 0 ≠ 0xA0 then none
  else some (decodeAscii ((path.drop 2).take (peek path 1).toNat))

/-- `send_packet()`. -/
def packet (command : Command) (session status : UInt32) (context : UInt64) (body : List UInt8) : List UInt8 :=
  encodeHeader { command := command.code, length := UInt16.ofNat body.length, session := session, status := status,
                 context := context, options := 0 } ++ body

/-! ### The services -/

def readTag (s : SyntheticServer) (path : List UInt8) : List UInt8 :=
  match s.tags (parseSymbolicPath path) with
  | some entry => [0xCC, 0, 0, 0] ++ putU16 entry.typeCode.toUInt16 ++ entry.value
  | none => [0xCC, 0, 0x04, 0]

def writeTag (s : SyntheticServer) (path rest : List UInt8) : SyntheticServer × List UInt8 :=
  if 4 ≤ rest.length then
    let entry : TagEntry := ⟨(getU16 (rest.drop 2)).toUInt8, rest.drop 4⟩
    ({ s with tags := Function.update s.tags (parseSymbolicPath path) (some entry) }, [0xCD, 0, 0, 0])
  else (s, [0xCD, 0, 0x04, 0])

def identity (rest : List UInt8) : List UInt8 :=
  if 2 ≤ rest.length ∧ peek rest 0 = 0x30 then
    match identityAttributes (peek rest 1) with
    | none => [0x8E, 0, 0x09, 0]
    | some value => [0x8E, 0, 0, 0] ++ value
  else [0x8E, 0, 0x05, 0]

def forwardOpen (s : SyntheticServer) (session : UInt32) (rest : List UInt8) : SyntheticServer × List UInt8 :=
  if 6 ≤ rest.length then
    let ot := getU32 (rest.drop 2)
    let toId : UInt32 := 0x10203040
    ({ s with connections := Function.update s.connections session (some ⟨ot, toId⟩) },
      [0xD4, 0, 0, 0] ++ (putU32 ot ++ putU32 toId ++ putU16 1 ++ putU16 0x0001))
  else (s, [0xD4, 0, 0x04, 0])

/-- The response to a CIP request that comes in a SendRRData request. -/
def unconnected (s : SyntheticServer) (session : UInt32) (service : UInt8) (path rest : List UInt8) :
    SyntheticServer × List UInt8 :=
  if service = 0x0E ∧ path = [0x20, 0x01, 0x24, 0x01] then (s, identity rest)
  else if service = 0x4C then (s, s.readTag path)
  else if service = 0x4D then s.writeTag path rest
  else if service = 0x54 then s.forwardOpen session rest
  else if service = 0x4E then (s, [0xCE, 0, 0, 0])
  else (s, [0x8E, 0, 0x08, 0])

/-- The response to a CIP request that comes over a connection. -/
def connected (s : SyntheticServer) (service : UInt8) (path rest : List UInt8) : SyntheticServer × List UInt8 :=
  if service = 0x4C then (s, s.readTag path)
  else if service = 0x4D then s.writeTag path rest
  else (s, [service ||| 0x80, 0, 0x08, 0])

/-! ### The handlers -/

/-- The item loop of `handle_send_rr_data()`, which remembers the last unconnected-data item.  `none` is an early
return. -/
def unconnectedItem (body : List UInt8) : Nat → (p : Nat) → (cip : Option (List UInt8)) → Option (Option (List UInt8))
  | 0, _, cip => some cip
  | n + 1, p, cip =>
    if p + 4 > body.length then none
    else
      let itemType := getU16 (body.drop p)
      let itemLen := (getU16 (body.drop (p + 2))).toNat
      if p + 4 + itemLen > body.length then none
      else
        unconnectedItem body n (p + 4 + itemLen)
          (if itemType = 0x00B2 then some ((body.drop (p + 4)).take itemLen) else cip)

/-- The packet at the end of `handle_send_rr_data()`. -/
def unconnectedReply (context : UInt64) (cipResp : List UInt8) : List UInt8 :=
  packet .sendRRData sessionHandle 0 context
    (putU32 0 ++ putU16 0 ++ putU16 2 ++ putU16 0x0000 ++ putU16 0 ++ putU16 0x00B2 ++
      putU16 (UInt16.ofNat cipResp.length) ++ cipResp)

/-- Service, path and data that `handle_send_rr_data()` finds in a body; `none` is an early return. -/
def parseRRData (body : List UInt8) : Option (UInt8 × List UInt8 × List UInt8) :=
  if body.length < 8 then none
  else
    let itemCount := (getU16 (body.drop 6)).toNat
    match unconnectedItem body itemCount 8 none with
    | some (some cip) =>
      if cip.length < 4 then none
      else
        let pathWords := (peek cip 1).toNat
        some (peek cip 0, (cip.drop 2).take (pathWords * 2), cip.drop (2 + pathWords * 2))
    | _ => none

def handleSendRRData (s : SyntheticServer) (session : UInt32) (context : UInt64) (body : List UInt8) :
    SyntheticServer × List UInt8 :=
  match parseRRData body with
  | none => (s, [])
  | some (service, path, rest) =>
    let (s, cipResp) := s.unconnected session service path rest
    (s, unconnectedReply context cipResp)

/-- The item loop of `handle_send_unit_data()`, which remembers the last connected-address and connected-data items.
`none` is an early return, or the exception of an address of less than four bytes. -/
def connectedItems (body : List UInt8) : Nat → (p : Nat) → (connId : Option UInt32) →
    (connData : Option (List UInt8)) → Option (Option UInt32 × Option (List UInt8))
  | 0, _, connId, connData => some (connId, connData)
  | n + 1, p, connId, connData =>
    if p + 4 > body.length then none
    else
      let itemType := getU16 (body.drop p)
      let itemLen := (getU16 (body.drop (p + 2))).toNat
      if p + 4 + itemLen > body.length then none
      else if itemType = 0x00A1 then
        if p + 8 > body.length then none
        else connectedItems body n (p + 4 + itemLen) (some (getU32 (body.drop (p + 4)))) connData
      else
        connectedItems body n (p + 4 + itemLen) connId
          (if itemType = 0x00B1 then some ((body.drop (p + 4)).take itemLen) else connData)

/-- The packet at the end of `handle_send_unit_data()`. -/
def connectedReply (session : UInt32) (context : UInt64) (toId : UInt32) (sequence : UInt16) (cipResp : List UInt8) :
    List UInt8 :=
  packet .sendUnitData session 0 context
    (putU32 0 ++ putU16 0 ++ putU16 2 ++ putU16 0x00A1 ++ putU16 4 ++ putU32 toId ++ putU16 0x00B1 ++
      putU16 (UInt16.ofNat (2 + cipResp.length)) ++ putU16 sequence ++ cipResp)

/-- What `handle_send_unit_data()` finds in a body: connection ID, sequence, service, path and data. -/
def parseUnitData (body : List UInt8) : Option (UInt32 × UInt16 × UInt8 × List UInt8 × List UInt8) :=
  if body.length < 8 then none
  else
    let itemCount := (getU16 (body.drop 6)).toNat
    match connectedItems body itemCount 8 none none with
    | some (some connId, some connData) =>
      if connData.length < 4 then none
      else
        let cip := connData.drop 2
        let pathWords := (peek cip 1).toNat
        some (connId, getU16 connData, peek cip 0, (cip.drop 2).take (pathWords * 2), cip.drop (2 + pathWords * 2))
    | _ => none

def handleSendUnitData (s : SyntheticServer) (session : UInt32) (context : UInt64) (body : List UInt8) :
    SyntheticServer × List UInt8 :=
  match parseUnitData body with
  | none => (s, [])
  | some (connId, sequence, service, path, rest) =>
    match s.connections session with
    | none => (s, [])
    | some connState =>
      if connId ≠ connState.ot then (s, [])
      else
        let (s, cipResp) := s.connected service path rest
        (s, connectedReply session context connState.toId sequence cipResp)

/-- One turn of the loop of `handle_connection()`, for a whole request. -/
def handle (s : SyntheticServer) (request : List UInt8) : SyntheticServer × List UInt8 :=
  let h := decodeHeader request
  let body := request.drop 24
  if h.command = Command.registerSession.code then
    (s, packet .registerSession sessionHandle 0 h.context (putU16 1 ++ putU16 0))
  else if h.command = Command.unregisterSession.code then (s, packet .unregisterSession 0 0 h.context [])
  else if h.command = Command.sendRRData.code then s.handleSendRRData h.session h.context body
  else if h.command = Command.sendUnitData.code then s.handleSendUnitData h.session h.context body
  else (s, [])

/-! ### Requests of the library -/

/-- A CIP request, taken apart again. -/
private theorem split_cip (service : UInt8) {path : List UInt8} (data : List UInt8) (heven : path.length % 2 = 0)
    (hfits : path.length ≤ 256) :
    peek ([service, UInt8.ofNat (path.length / 2)] ++ path ++ data) 0 = service ∧
      (([service, UInt8.ofNat (path.length / 2)] ++ path ++ data).drop 2).take
        ((peek ([service, UInt8.ofNat (path.length / 2)] ++ path ++ data) 1).toNat * 2) = path ∧
      ([service, UInt8.ofNat (path.length / 2)] ++ path ++ data).drop
        (2 + (peek ([service, UInt8.ofNat (path.length / 2)] ++ path ++ data) 1).toNat * 2) = data := by
  have hwords : (peek ([service, UInt8.ofNat (path.length / 2)] ++ path ++ data) 1).toNat * 2 = path.length := by
    change (UInt8.ofNat (path.length / 2)).toNat * 2 = path.length
    rw [UInt8.toNat_ofNat']
    omega
  have hdrop : ([service, UInt8.ofNat (path.length / 2)] ++ path ++ data).drop 2 = path ++ data := rfl
  refine ⟨rfl, ?_, ?_⟩
  · rw [hwords, hdrop, List.take_left]
  · rw [hwords, ← List.drop_drop, hdrop, List.drop_left]

section Requests

variable {s : SyntheticServer} {session : UInt32} {context : UInt64} {service : UInt8} {path data : List UInt8}

/-- The body of a SendRRData request. -/
private def requestBody (cip : List UInt8) : List UInt8 :=
  putU32 0 ++ putU16 0 ++ putU16 2 ++ putU16 0x0000 ++ putU16 0 ++ putU16 0x00B2 ++ putU16
  (UInt16.ofNat cip.length) ++ cip

private theorem length_requestBody (cip : List UInt8) : (requestBody cip).length = 16 + cip.length := by
  simp only [requestBody, List.length_append, length_putU32, length_putU16]

/-- The server finds the CIP request behind the null address. -/
private theorem unconnectedItem_body (cip : List UInt8) (h : cip.length < 2 ^ 16) :
    (getU16 ((requestBody cip).drop 6)).toNat = 2 ∧ unconnectedItem (requestBody cip) 2 8 none = some (some cip) := by
  have hlen := length_requestBody cip
  have hitems : (requestBody cip).drop 6 = putU16 2 ++ (requestBody cip).drop 8 := rfl
  have hnull : (requestBody cip).drop 8 = putU16 0x0000 ++ (requestBody cip).drop 10 := rfl
  have hzero : (requestBody cip).drop (8 + 2) = putU16 0 ++ (requestBody cip).drop 12 := rfl
  have hdata : (requestBody cip).drop 12 = putU16 0x00B2 ++ (requestBody cip).drop 14 := rfl
  have hsize : (requestBody cip).drop (12 + 2) = putU16 (UInt16.ofNat cip.length) ++ cip := rfl
  have hcip : (requestBody cip).drop 16 = cip := rfl
  have hcount : (getU16 ((requestBody cip).drop 6)).toNat = 2 := by
    rw [hitems, getU16_putU16]
    rfl
  have htype₁ : getU16 ((requestBody cip).drop 8) = 0 := by rw [hnull, getU16_putU16]
  have hlen₁ : (getU16 ((requestBody cip).drop (8 + 2))).toNat = 0 := by
    rw [hzero, getU16_putU16]
    rfl
  have htype₂ : getU16 ((requestBody cip).drop 12) = 0x00B2 := by rw [hdata, getU16_putU16]
  have hlen₂ : (getU16 ((requestBody cip).drop (12 + 2))).toNat = cip.length := by
    rw [hsize, getU16_putU16, UInt16.toNat_ofNat']
    omega
  refine ⟨hcount, ?_⟩
  generalize requestBody cip = body at *
  unfold unconnectedItem
  dsimp only
  rw [htype₁, hlen₁, if_neg (by omega), if_neg (by omega), if_neg (by decide)]
  unfold unconnectedItem
  dsimp only
  rw [htype₂, hlen₂, if_neg (by omega), if_neg (by omega), if_pos rfl, hcip, List.take_length]
  rfl

/-- The server finds service, path and data of a request in its body. -/
theorem parse_requestFrame (heven : path.length % 2 = 0)
    (hfits : 2 + path.length + data.length ≤ ExplicitMessage.kMaxCipData) (hlong : 2 ≤ path.length + data.length) :
    parseRRData ((ExplicitMessage.requestFrame session context service path data).drop 24) =
      some (service, path, data) := by
  have hk : ExplicitMessage.kMaxCipData = 256 := rfl
  obtain ⟨hservice, hpath, hdata⟩ := split_cip service data heven (by omega)
  generalize hcip : [service, UInt8.ofNat (path.length / 2)] ++ path ++ data = cip at hservice hpath hdata
  have hlen : cip.length = 2 + path.length + data.length := by
    rw [← hcip]
    simp only [List.length_append, List.length_cons, List.length_nil]
  have hbody : (ExplicitMessage.requestFrame session context service path data).drop 24 = requestBody cip := by
    rw [requestBody, hlen, ← hcip]
    simp only [ExplicitMessage.requestFrame, cipLength_small hfits, List.append_assoc]
    rfl
  obtain ⟨hcount, hitem⟩ := unconnectedItem_body cip (by omega)
  have hlong' : (requestBody cip).length = 16 + cip.length := length_requestBody cip
  rw [hbody]
  unfold parseRRData
  rw [if_neg (by omega), hcount]
  dsimp only
  rw [hitem]
  dsimp only
  rw [if_neg (by omega), hservice, hpath, hdata]

theorem handle_requestFrame (heven : path.length % 2 = 0)
    (hfits : 2 + path.length + data.length ≤ ExplicitMessage.kMaxCipData) (hlong : 2 ≤ path.length + data.length) :
    s.handle (ExplicitMessage.requestFrame session context service path data) =
      ((s.unconnected session service path data).1,
        unconnectedReply context (s.unconnected session service path data).2) := by
  have hcommand : (ExplicitMessage.requestHeader session context
    (ExplicitMessage.cipLength path.length data.length)).command = Command.sendRRData.code := rfl
  unfold handle
  rw [decode_requestFrame]
  dsimp only
  rw [hcommand, if_neg (by decide), if_neg (by decide), if_pos rfl, handleSendRRData,
    parse_requestFrame heven hfits hlong]
  rfl

/-- The body of a SendUnitData request. -/
private def connectedBody (connId : UInt32) (connData : List UInt8) : List UInt8 :=
  putU32 0 ++ putU16 0 ++ putU16 2 ++ putU16 0x00A1 ++ putU16 4 ++ putU32 connId ++ putU16 0x00B1 ++
    putU16 (UInt16.ofNat connData.length) ++ connData

private theorem length_connectedBody (connId : UInt32) (connData : List UInt8) :
    (connectedBody connId connData).length = 20 + connData.length := by
  simp only [connectedBody, List.length_append, length_putU32, length_putU16]

/-- The server finds the connection ID and the data. -/
private theorem connectedItems_body (connId : UInt32) (connData : List UInt8) (h : connData.length < 2 ^ 16) :
    (getU16 ((connectedBody connId connData).drop 6)).toNat = 2 ∧
      connectedItems (connectedBody connId connData) 2 8 none none = some (some connId, some connData) := by
  have hlen := length_connectedBody connId connData
  have hitems : (connectedBody connId connData).drop 6 = putU16 2 ++ (connectedBody connId connData).drop 8 := rfl
  have haddress : (connectedBody connId connData).drop 8 = putU16 0x00A1 ++ (connectedBody connId connData).drop 10 :=
    rfl
  have hfour : (connectedBody connId connData).drop (8 + 2) = putU16 4 ++ (connectedBody connId connData).drop 12 :=
    rfl
  have hid : (connectedBody connId connData).drop (8 + 4) =
      putU32 connId ++ (connectedBody connId connData).drop 16 := rfl
  have hdata : (connectedBody connId connData).drop 16 = putU16 0x00B1 ++ (connectedBody connId connData).drop 18 :=
    rfl
  have hsize : (connectedBody connId connData).drop (16 + 2) = putU16 (UInt16.ofNat connData.length) ++ connData :=
    rfl
  have hrest : (connectedBody connId connData).drop (16 + 4) = connData := rfl
  have hcount : (getU16 ((connectedBody connId connData).drop 6)).toNat = 2 := by
    rw [hitems, getU16_putU16]
    rfl
  have htype₁ : getU16 ((connectedBody connId connData).drop 8) = 0x00A1 := by rw [haddress, getU16_putU16]
  have hlen₁ : (getU16 ((connectedBody connId connData).drop (8 + 2))).toNat = 4 := by
    rw [hfour, getU16_putU16]
    rfl
  have hconnId : getU32 ((connectedBody connId connData).drop (8 + 4)) = connId := by rw [hid, getU32_putU32]
  have htype₂ : getU16 ((connectedBody connId connData).drop 16) = 0x00B1 := by rw [hdata, getU16_putU16]
  have hlen₂ : (getU16 ((connectedBody connId connData).drop (16 + 2))).toNat = connData.length := by
    rw [hsize, getU16_putU16, UInt16.toNat_ofNat']
    omega
  refine ⟨hcount, ?_⟩
  generalize connectedBody connId connData = body at *
  unfold connectedItems
  dsimp only
  rw [htype₁, hlen₁, hconnId, if_neg (by omega), if_neg (by omega), if_pos rfl, if_neg (by omega)]
  unfold connectedItems
  dsimp only
  rw [htype₂, hlen₂, hrest, if_neg (by omega), if_neg (by omega), if_neg (by decide), if_pos rfl, List.take_length]
  rfl

theorem handle_connectedFrame {ot toId : UInt32} {sequence : UInt16} (heven : path.length % 2 = 0)
    (hfits : 2 + path.length + data.length ≤ Connection.kMaxDataSize)
    (hconn : s.connections session = some ⟨ot, toId⟩) :
    s.handle (Connection.connectedFrame session context ot sequence service path data) =
      ((s.connected service path data).1,
        connectedReply session context toId sequence (s.connected service path data).2) := by
  have hk : Connection.kMaxDataSize = 256 := rfl
  obtain ⟨hservice, hpath, hdata⟩ := split_cip service data heven (by omega)
  generalize hcip : [service, UInt8.ofNat (path.length / 2)] ++ path ++ data = cip at hservice hpath hdata
  have hlen : cip.length = 2 + path.length + data.length := by
    rw [← hcip]
    simp only [List.length_append, List.length_cons, List.length_nil]
  have hconnData : (putU16 sequence ++ cip).length = 2 + cip.length := by
    rw [List.length_append, length_putU16]
  have hbody : (Connection.connectedFrame session context ot sequence service path data).drop 24 =
      connectedBody ot (putU16 sequence ++ cip) := by
    rw [connectedBody, hconnData, hlen, ← hcip]
    simp only [Connection.connectedFrame, cipLength_small hfits, List.append_assoc]
    rfl
  obtain ⟨hcount, hitems⟩ := connectedItems_body ot (putU16 sequence ++ cip) (by omega)
  have hlong := length_connectedBody ot (putU16 sequence ++ cip)
  have hsequence : getU16 (putU16 sequence ++ cip) = sequence := getU16_putU16 _ _
  have hdrop : (putU16 sequence ++ cip).drop 2 = cip := rfl
  have hcommand : (Connection.connectedHeader session context
    (ExplicitMessage.cipLength path.length data.length)).command = Command.sendUnitData.code := rfl
  unfold handle
  rw [Connection.decode_connectedFrame, hbody]
  dsimp only
  rw [hcommand, if_neg (by decide), if_neg (by decide), if_neg (by decide), if_pos rfl]
  change s.handleSendUnitData session context (connectedBody ot (putU16 sequence ++ cip)) = _
  have hparse : parseUnitData (connectedBody ot (putU16 sequence ++ cip)) =
      some (ot, sequence, service, path, data) := by
    unfold parseUnitData
    rw [if_neg (by omega), hcount]
    dsimp only
    rw [hitems]
    dsimp only
    rw [if_neg (by omega), hsequence, hdrop, hservice, hpath, hdata]
  unfold handleSendUnitData
  rw [hparse]
  dsimp only
  rw [hconn]
  exact if_neg fun hne => hne rfl

end Requests

/-- The packet of a CIP response with the header `service`, `status` is the frame of a reply. -/
theorem unconnectedReply_frame (context : UInt64) (service status : UInt8) {data : List UInt8}
    (h : 20 + data.length < 2 ^ 16) :
    unconnectedReply context ([service, 0, status, 0] ++ data) =
      ({ exchange := context.toNat, session := sessionHandle, service := service, status := status, data := data
         fits := h } : Reply).frame := by
  have hcontext : UInt64.ofNat context.toNat = context := UInt64.ofNat_toNat
  have hlen : (putU32 0 ++ putU16 0 ++ putU16 2 ++ putU16 0x0000 ++ putU16 0 ++ putU16 0x00B2 ++
      putU16 (UInt16.ofNat ([service, 0, status, 0] ++ data).length) ++ ([service, 0, status, 0] ++ data)).length =
        20 + data.length := by
    simp only [List.length_append, length_putU32, length_putU16, List.length_cons, List.length_nil]
    omega
  have hcip : ([service, 0, status, 0] ++ data).length = 4 + data.length := by
    simp only [List.length_append, List.length_cons, List.length_nil]
  rw [unconnectedReply, packet, hlen, hcip, Reply.frame, Reply.header, Reply.context, hcontext, Reply.body]
  simp only [List.append_assoc]

theorem decode_packet (command : Command) (session status : UInt32) (context : UInt64) (body rest : List UInt8) :
    decodeHeader (packet command session status context body ++ rest) =
      { command := command.code, length := UInt16.ofNat body.length, session := session, status := status,
        context := context, options := 0 } := by
  rw [packet, List.append_assoc]
  exact decodeHeader_encodeHeader _ _

theorem whole_packet (command : Command) (session status : UInt32) (context : UInt64) {body : List UInt8}
    (h : body.length < 2 ^ 16) : WholeFrame (packet command session status context body) ∧
      Buffers.bodyLength (packet command session status context body) = body.length := by
  have hbody : Buffers.bodyLength (packet command session status context body) = body.length := by
    have hdecode := decode_packet command session status context body []
    rw [List.append_nil] at hdecode
    rw [Buffers.bodyLength, hdecode, UInt16.toNat_ofNat']
    omega
  refine ⟨?_, hbody⟩
  rw [WholeFrame, hbody, packet, List.length_append, length_encodeHeader, kEncapsulationHeaderSize]

/-- The reply to a connected request has the items of a connected request. -/
private theorem connectedReply_eq (session : UInt32) (context : UInt64) (toId : UInt32) (sequence : UInt16)
    (cipResp : List UInt8) : connectedReply session context toId sequence cipResp =
      packet .sendUnitData session 0 context (connectedBody toId (putU16 sequence ++ cipResp)) := by
  have hlen : (putU16 sequence ++ cipResp).length = 2 + cipResp.length := by
    rw [List.length_append, length_putU16]
  rw [connectedReply, connectedBody, hlen]
  simp only [List.append_assoc]

theorem whole_connectedReply (session : UInt32) (context : UInt64) (toId : UInt32) (sequence : UInt16)
    {cipResp : List UInt8} (h : cipResp.length ≤ 256) :
    WholeFrame (connectedReply session context toId sequence cipResp) ∧
      Buffers.bodyLength (connectedReply session context toId sequence cipResp) = 22 + cipResp.length := by
  have hlen : (connectedBody toId (putU16 sequence ++ cipResp)).length = 22 + cipResp.length := by
    rw [length_connectedBody, List.length_append, length_putU16]
    omega
  rw [connectedReply_eq, ← hlen]
  exact whole_packet _ _ _ _ (by omega)

/-- The client finds the connection ID and the data where the server put them. -/
private theorem findConnected_reply (session : UInt32) (context : UInt64) (toId : UInt32) (sequence : UInt16)
    {cipResp : List UInt8} (rest : List UInt8) (h : cipResp.length ≤ 256) :
    Connection.findConnected (connectedReply session context toId sequence cipResp ++ rest) 2 32 (14 + cipResp.length)
      none none = some (some toId, some (44, 2 + cipResp.length)) := by
  generalize hrx : connectedReply session context toId sequence cipResp ++ rest = rx
  have haddress : rx.drop 32 = putU16 0x00A1 ++ rx.drop 34 := by rw [← hrx]; rfl
  have hfour : rx.drop (32 + 2) = putU16 4 ++ rx.drop 36 := by rw [← hrx]; rfl
  have hid : rx.drop (32 + 4) = putU32 toId ++ rx.drop 40 := by rw [← hrx]; rfl
  have hdata : rx.drop 40 = putU16 0x00B1 ++ rx.drop 42 := by rw [← hrx]; rfl
  have hsize : rx.drop (40 + 2) = putU16 (UInt16.ofNat (2 + cipResp.length)) ++ rx.drop 44 := by rw [← hrx]; rfl
  have htype₁ : getU16 (rx.drop 32) = 0x00A1 := by rw [haddress, getU16_putU16]
  have hlen₁ : (getU16 (rx.drop (32 + 2))).toNat = 4 := by
    rw [hfour, getU16_putU16]
    rfl
  have hconnId : getU32 (rx.drop (32 + 4)) = toId := by rw [hid, getU32_putU32]
  have htype₂ : getU16 (rx.drop 40) = 0x00B1 := by rw [hdata, getU16_putU16]
  have hlen₂ : (getU16 (rx.drop (40 + 2))).toNat = 2 + cipResp.length := by
    rw [hsize, getU16_putU16, UInt16.toNat_ofNat']
    omega
  unfold Connection.findConnected
  dsimp only
  rw [htype₁, hlen₁, hconnId, if_neg (by omega), if_neg (by omega), if_pos rfl, if_neg (by omega)]
  unfold Connection.findConnected
  dsimp only
  rw [htype₂, hlen₂, if_neg (by omega), if_neg (by omega), if_neg (by decide), if_pos rfl]
  rfl

theorem parse_connectedReply (session : UInt32) (context : UInt64) (toId : UInt32) (sequence : UInt16)
    {cipResp : List UInt8} (rest : List UInt8) (h4 : 4 ≤ cipResp.length) (h : cipResp.length ≤ 256) :
    Connection.parse (connectedReply session context toId sequence cipResp ++ rest) (46 + cipResp.length) context toId
      sequence = some ⟨peek cipResp 0, peek cipResp 2, 50, cipResp.length - 4⟩ ∧
    ((connectedReply session context toId sequence cipResp ++ rest).drop 50).take (cipResp.length - 4) =
      cipResp.drop 4 := by
  have hfind := findConnected_reply session context toId sequence rest h
  have hdecode : decodeHeader (connectedReply session context toId sequence cipResp ++ rest) =
      { command := Command.sendUnitData.code,
        length := UInt16.ofNat (connectedBody toId (putU16 sequence ++ cipResp)).length, session :=
          session, status := 0,
        context := context, options := 0 } := by
    rw [connectedReply_eq]
    exact decode_packet _ _ _ _ _ _
  generalize hrx : connectedReply session context toId sequence cipResp ++ rest = rx at hfind hdecode
  have hitems : rx.drop (24 + 6) = putU16 2 ++ rx.drop 32 := by rw [← hrx]; rfl
  have hsequence : rx.drop 44 = putU16 sequence ++ rx.drop 46 := by rw [← hrx]; rfl
  have hcip : rx.drop 46 = cipResp ++ rest := by rw [← hrx]; rfl
  have hcount : (getU16 (rx.drop (24 + 6))).toNat = 2 := by
    rw [hitems, getU16_putU16]
    rfl
  have hseq : getU16 (rx.drop 44) = sequence := by rw [hsequence, getU16_putU16]
  have hservice : peek (cipResp ++ rest) 0 = peek cipResp 0 :=
    peek_congr (n := 4) (List.take_append_of_le_length h4) (by omega)
  have hstatus : peek (cipResp ++ rest) 2 = peek cipResp 2 :=
    peek_congr (n := 4) (List.take_append_of_le_length h4) (by omega)
  have hsplit : rx.drop 50 = cipResp.drop 4 ++ rest := by
    have hdrop : rx.drop (46 + 4) = (rx.drop 46).drop 4 := by rw [List.drop_drop]
    rw [hdrop, hcip, List.drop_append_of_le_length h4]
  constructor
  · have hleft : 46 + cipResp.length - 24 - 8 = 14 + cipResp.length := by omega
    unfold Connection.parse
    rw [hdecode, kEncapsulationHeaderSize]
    dsimp only
    rw [if_neg (by simp), if_neg (by simp), if_neg (by omega), hcount, hleft, hfind]
    dsimp only
    rw [if_neg (by omega), if_neg (by simp), hseq, if_neg (by simp), if_neg (by omega), hcip, hservice, hstatus]
    simp only [Option.some.injEq, ExplicitMessage.Response.mk.injEq, true_and]
    omega
  · rw [hsplit, ← List.length_drop, List.take_left]

/-! ### Tags -/

theorem unconnected_read (s : SyntheticServer) (session : UInt32) (path rest : List UInt8) :
    s.unconnected session TagService.read.code path rest = (s, s.readTag path) := by
  unfold unconnected
  rw [if_neg fun h => absurd h.1 (by decide)]
  exact if_pos rfl

theorem unconnected_write (s : SyntheticServer) (session : UInt32) (path rest : List UInt8) :
    s.unconnected session TagService.write.code path rest = s.writeTag path rest := by
  unfold unconnected
  rw [if_neg fun h => absurd h.1 (by decide), if_neg (by decide)]
  exact if_pos rfl

/-- The server reads back the name that `appendSymbolic()` writes. -/
theorem parse_appendSymbolic {name : List UInt8} (h : name.length ≤ kMaxSymbolicName) :
    parseSymbolicPath (appendSymbolic name) = some (decodeAscii name) := by
  have hk : kMaxSymbolicName = 120 := rfl
  have hmin : min name.length kMaxSymbolicName = name.length := Nat.min_eq_left h
  have hlen : (UInt8.ofNat name.length).toNat = name.length := by
    rw [UInt8.toNat_ofNat']
    omega
  generalize hpad : (if name.length % 2 = 1 then [0] else [] : List UInt8) = pad
  have hpath : appendSymbolic name = kSegmentSymbolic :: UInt8.ofNat name.length :: (name ++ pad) := by
    unfold appendSymbolic
    dsimp only
    rw [hmin, List.take_length, hpad]
    rfl
  rw [hpath, parseSymbolicPath, if_neg]
  · change some (decodeAscii ((name ++ pad).take (UInt8.ofNat name.length).toNat)) = some (decodeAscii name)
    rw [hlen, List.take_left]
  · rintro (hshort | hsegment)
    · simp only [List.length_cons] at hshort
      omega
    · exact hsegment rfl

/-- All characters are ASCII. -/
def Ascii (name : List UInt8) : Prop := ∀ b ∈ name, b < 0x80

instance decidableAscii (name : List UInt8) : Decidable (Ascii name) :=
  inferInstanceAs (Decidable (∀ b ∈ name, b < 0x80))

private theorem toNat_ascii : ∀ n < 0x80, (Char.ofNat n).toNat = n := by decide

/-- Different ASCII names are different strings. -/
theorem decodeAscii_inj {a b : List UInt8} (ha : Ascii a) (hb : Ascii b) (h : decodeAscii a = decodeAscii b) :
    a = b := by
  induction a generalizing b with
  | nil =>
    cases b with
    | nil => rfl
    | cons y ys => cases h
  | cons x xs ih =>
    cases b with
    | nil => cases h
    | cons y ys =>
      have hx := ha x List.mem_cons_self
      have hy := hb y List.mem_cons_self
      simp only [decodeAscii, List.map_cons, List.cons.injEq] at h
      obtain ⟨hhead, htail⟩ := h
      rw [if_pos hx, if_pos hy] at hhead
      have hsame : x.toNat = y.toNat := by
        have hx' : x.toNat < 0x80 := hx
        have hy' : y.toNat < 0x80 := hy
        have hnat := congrArg Char.toNat hhead
        rwa [toNat_ascii _ hx', toNat_ascii _ hy'] at hnat
      rw [UInt8.toNat_inj.1 hsame, ih (fun c hc => ha c (List.mem_cons_of_mem _ hc))
        (fun c hc => hb c (List.mem_cons_of_mem _ hc)) htail]

/-- Every value is short enough for a reply. -/
def Small (s : SyntheticServer) : Prop := ∀ key entry, s.tags key = some entry → entry.value.length ≤ 250

theorem small_initial {s : SyntheticServer} (h : s.tags = ({} : SyntheticServer).tags) : s.Small := by
  intro key entry hentry
  have hall : ∀ entry ∈ initialTags, entry.2.value.length ≤ 250 := by decide
  rw [h] at hentry
  simp only [Option.map_eq_some_iff] at hentry
  obtain ⟨pair, hfind, rfl⟩ := hentry
  exact hall pair (List.mem_of_find?_eq_some hfind)

theorem Small.update {s s' : SyntheticServer} (h : s.Small) {key : TagKey} {entry : TagEntry}
    (htags : s'.tags = Function.update s.tags key (some entry)) (hentry : entry.value.length ≤ 250) : s'.Small := by
  intro other found hfound
  rw [htags] at hfound
  by_cases hkey : other = key
  · rw [hkey, Function.update_self] at hfound
    cases hfound
    exact hentry
  · rw [Function.update_of_ne hkey] at hfound
    exact h other found hfound

theorem Small.readTag {s : SyntheticServer} (h : s.Small) (path : List UInt8) :
    4 ≤ (s.readTag path).length ∧ (s.readTag path).length ≤ 256 := by
  unfold SyntheticServer.readTag
  split
  · rename_i entry hentry
    have hvalue := h _ entry hentry
    simp only [List.length_append, List.length_cons, List.length_nil, length_putU16]
    omega
  · simp

theorem Small.writeTag {s : SyntheticServer} (h : s.Small) (path : List UInt8) {rest : List UInt8}
    (hrest : rest.length ≤ 254) : (s.writeTag path rest).1.Small ∧ (s.writeTag path rest).2.length = 4 ∧
      (s.writeTag path rest).1.connections = s.connections := by
  unfold SyntheticServer.writeTag
  split
  · refine ⟨h.update rfl ?_, rfl, rfl⟩
    dsimp only
    rw [List.length_drop]
    omega
  · exact ⟨h, rfl, rfl⟩

/-- What a request over a connection leaves, and how long the response is. -/
theorem Small.connected {s : SyntheticServer} (h : s.Small) (service : UInt8) (path : List UInt8) {rest : List UInt8}
    (hrest : rest.length ≤ 254) : (s.connected service path rest).1.Small ∧
      (s.connected service path rest).1.connections = s.connections ∧ 4 ≤ (s.connected service path rest).2.length ∧
        (s.connected service path rest).2.length ≤ 256 := by
  unfold SyntheticServer.connected
  split
  · exact ⟨h, rfl, h.readTag path⟩
  · split
    · obtain ⟨hsmall, hlen, hsame⟩ := h.writeTag path hrest
      exact ⟨hsmall, hsame, by omega, by omega⟩
    · exact ⟨h, rfl, by simp, by simp⟩

end SyntheticServer

end ControlLogix
