import ControlLogix.Encoders
import ControlLogix.Replies
import ControlLogix.Tag

/-!
# No encoder stores outside its arrays

The encoders that build their arguments in arrays of their own: `open()` and `close()` of a connection fill
`data[128]` and `tagName_`, `read()` and `write()` of a tag fill `path[128]`, `count[2]` and `wdata`, before the
message below looks at the lengths.

* `Call.Safe`: what a call of an encoder has to keep to;
* `encoders_safe`: it does, if and only if the sum of its lengths does not wrap to a small one.
-/

namespace ControlLogix

open Bytes
open Arrays
open Transition
open ExplicitMessage (requestFrame kMaxCipData)

/-- A segment in front of other bytes: its second byte is the length of the name. -/
theorem peek_symbolic {name : List UInt8} (h : name.length ≤ kMaxSymbolicName) (rest : List UInt8) :
    (peek (appendSymbolic name ++ rest) 1).toNat = name.length := by
  have hk : kMaxSymbolicName = 120 := rfl
  show (UInt8.ofNat (min name.length kMaxSymbolicName)).toNat = _
  rw [UInt8.toNat_ofNat']
  omega

/-- An array in which bytes were placed at the beginning. -/
theorem take_placed {ss : List (Nat × List UInt8)} {bs a : List UInt8} (h : Places ss 0 bs)
    (ha : bs.length ≤ a.length) :
    ∃ a', puts a ss = some a' ∧ a'.take bs.length = bs := by
  refine ⟨store a 0 bs, h a (by omega), ?_⟩
  have htake := take_store bs (Nat.zero_le a.length)
  rw [Nat.zero_add, List.take_zero, List.nil_append] at htake
  exact htake

/-- A call returns the status without an access beyond its arrays, and when it is accepted `tx_` is as it should
be. -/
def Keeps (outcome : Option (Status × List UInt8)) (st : Status) (good : List UInt8 → Prop) : Prop :=
  ∃ tx, outcome = some (st, tx) ∧ (st = .pending → good tx)

/-- A call that is refused keeps to everything. -/
theorem keeps_refused {st : Status} (hst : st ≠ .pending) (tx : List UInt8) (good : List UInt8 → Prop) :
    Keeps (some (st, tx)) st good :=
  ⟨tx, rfl, fun h => absurd h hst⟩

/-- The bounds and the sizes of an unconnected request with these lengths. -/
structure RequestSizes (pathLen dataLen : Nat) (tx : List UInt8) : Prop where
  bounded : 2 + pathLen + dataLen ≤ kMaxCipData
  sizes : SizesTrue tx 16 38 0 pathLen dataLen

/-! ### Forward Open and Forward Close -/

namespace Connection

/-- The stores into `data[128]` of `startOpen()`; the size of the connection path is stored behind the path. -/
def openStores (otConnId : UInt32) (tagName : List UInt8) : List (Nat × List UInt8) :=
  layout 0 [[0x0A], [0x0E], putU32 otConnId, putU32 0, putU16 1, putU16 0x0001, putU32 0x00000001, [0x03], [0], [0],
    [0], putU32 10000, putU16 0x4200, putU32 10000, putU16 0x4200, [0xA3]] ++
    (symbolicStores (35 + 1) tagName ++ [(35, [UInt8.ofNat ((appendSymbolic tagName).length / 2)])])

/-- The stores into `data[128]` of `startClose()`. -/
def closeStores (tagName : List UInt8) : List (Nat × List UInt8) :=
  symbolicStores 1 tagName ++ [(0, [UInt8.ofNat ((appendSymbolic tagName).length / 2)])] ++
    layout (1 + (appendSymbolic tagName).length) [putU16 1, putU16 0x0001, putU32 0x00000001]

/-- The stores into `tagName_`: `strncpy()` fills what the name leaves with zeros. -/
def nameStores (tagName : List UInt8) : List (Nat × List UInt8) :=
  let name := tagName.take (kTagNameSize - 1)
  [(0, name ++ List.replicate (kTagNameSize - 1 - name.length) 0), (kTagNameSize - 1, [0])]

/-- The size of `data[]` in both. -/
def kDataSize : Nat := 128

def openIn (c : Connection) (conn : TcpConnection) (sessionHandle : UInt32) (tagName : Option (List UInt8))
    (random : UInt32) (name data tx : List UInt8) : Option (Status × List UInt8) :=
  match tagName with
  | none => some (.invalidArg, tx)
  | some tagName =>
    if tagName.length ≥ kTagNameSize then some (.invalidArg, tx)
    else if c.state = .opening ∨ c.state = .sending ∨ c.state = .closing then some (.busy, tx)
    else
      (puts name (nameStores tagName)).bind fun _ =>
        let path := tagName.take (kTagNameSize - 1)
        (puts data (openStores (chooseConnId random) path)).bind fun data =>
          c.fwd.sendIn conn sessionHandle 0x54 (some (peek managerPath)) (UInt32.ofNat managerPath.length)
            (some (peek data)) (UInt32.ofNat (36 + (appendSymbolic path).length)) tx

def closeIn (c : Connection) (conn : TcpConnection) (sessionHandle : UInt32) (data tx : List UInt8) :
    Option (Status × List UInt8) :=
  if c.state ≠ .open then some (.notReady, tx)
  else
    (puts data (closeStores c.tagName)).bind fun data =>
      c.fwd.sendIn conn sessionHandle 0x4E (some (peek managerPath)) (UInt32.ofNat managerPath.length)
        (some (peek data)) (UInt32.ofNat (1 + (appendSymbolic c.tagName).length + 8)) tx

theorem places_open (otConnId : UInt32) (tagName : List UInt8) :
    Places (openStores otConnId tagName) 0 (openData otConnId tagName) := by
  have hhead := places_layout 0 [[0x0A], [0x0E], putU32 otConnId, putU32 0, putU16 1, putU16 0x0001,
    putU32 0x00000001, [0x03], [0], [0], [0], putU32 10000, putU16 0x4200, putU32 10000, putU16 0x4200, [0xA3]]
  have hpath : Places (symbolicStores (35 + 1) tagName ++ [(35, [UInt8.ofNat ((appendSymbolic tagName).length / 2)])])
    35 (connectionPath tagName) := Places.before (places_symbolic (35 + 1) tagName)
  exact hhead.append rfl hpath

theorem places_close (tagName : List UInt8) : Places (closeStores tagName) 0 (closeData tagName) := by
  have hpath : Places (symbolicStores 1 tagName ++ [(0, [UInt8.ofNat ((appendSymbolic tagName).length / 2)])]) 0
      (connectionPath tagName) := Places.before (places_symbolic 1 tagName)
  have hrest := places_layout (1 + (appendSymbolic tagName).length) [putU16 1, putU16 0x0001, putU32 0x00000001]
  have hoff : 0 + (connectionPath tagName).length = 1 + (appendSymbolic tagName).length := by
    rw [connectionPath, List.length_cons]
    omega
  have hdata : closeData tagName =
      connectionPath tagName ++ [putU16 1, putU16 0x0001, putU32 0x00000001].flatten := by
    simp only [closeData, List.flatten_cons, List.flatten_nil, List.append_nil, List.append_assoc]
  rw [hdata]
  exact hpath.append hoff hrest

theorem exact_openData (otConnId : UInt32) (tagName : List UInt8) :
    (openData otConnId tagName).length = 36 + (appendSymbolic tagName).length := by
  simp only [openData, connectionPath, List.length_append, List.length_cons, List.length_nil, length_putU16,
    length_putU32]
  omega

theorem exact_closeData (tagName : List UInt8) :
    (closeData tagName).length = 1 + (appendSymbolic tagName).length + 8 := by
  simp only [closeData, connectionPath, List.length_append, List.length_cons, length_putU16, length_putU32]
  omega

/-- A name that fits into `tagName_` has a short segment. -/
theorem length_segment {tagName : List UInt8} (h : tagName.length < kTagNameSize) :
    (appendSymbolic tagName).length ≤ 66 := by
  have hk : kTagNameSize = 64 := rfl
  simp only [appendSymbolic, List.length_append, List.length_cons, List.length_nil, List.length_take]
  split
  · rw [List.length_singleton]
    omega
  · rw [List.length_nil]
    omega

/-! ### The name of a connection -/

/-- The name fits into `tagName_`. -/
def Named (c : Connection) : Prop := c.tagName.length < kTagNameSize

private theorem tagName_forward {c c' : Connection} {conn : TcpConnection} {sessionHandle timeoutMs now : UInt32}
    {service : UInt8} {data : List UInt8} {next : State} {st : Status}
    (hf : c.forward conn sessionHandle service data timeoutMs now next = (st, c')) : c'.tagName = c.tagName := by
  rcases forward_cases hf with ⟨-, hsent⟩ | ⟨-, rfl, -⟩
  · rw [hsent.rest]
  · rfl

private theorem tagName_finishOpen (c : Connection) : (finishOpen c).2.tagName = c.tagName := by
  unfold finishOpen
  split
  · rfl
  · dsimp only
    split
    · rfl
    · split <;> rfl

private theorem tagName_pollForward {finish : Connection → Status × Connection}
    (hfinish : ∀ c, (finish c).2.tagName = c.tagName) (c : Connection) (conn : TcpConnection) (os : Platform) :
    (pollForward finish c conn os).2.1.tagName = c.tagName := by
  obtain ⟨st, fwd, conn', -, hr⟩ := pollForward_cases finish c conn os
  rcases hr with ⟨-, hr⟩ | ⟨-, hr⟩ | ⟨-, -, hr⟩
  · rw [hr]
  · rw [hr]
    exact hfinish _
  · rw [hr]

private theorem tagName_pollSending (c : Connection) (conn : TcpConnection) (os : Platform) :
    (c.pollSending conn os).2.1.tagName = c.tagName := by
  unfold pollSending
  split
  · rfl
  · split
    · split
      · rfl
      · rename_i b _ _
        show ({ c with toBuffers := b } : Connection).parseConnectedResponse.2.tagName = c.tagName
        unfold parseConnectedResponse
        split <;> rfl
      · rfl
    · rfl
    · rfl

theorem named_call {c : Connection} (h : Named c) (a : Call) : Named (c.call a).2 := by
  cases a with
  | «open» conn sessionHandle tagName timeoutMs now random =>
    obtain ⟨st, c', hopen⟩ : ∃ st c', c.open conn sessionHandle tagName timeoutMs now random = (st, c') :=
      ⟨_, _, rfl⟩
    rw [call, hopen]
    rcases open_cases hopen with ⟨name, -, -, -, hf⟩ | ⟨-, rfl⟩
    · -- `strncpy()` with one byte less than the array has
      have hname : c'.tagName = name.take (kTagNameSize - 1) := tagName_forward hf
      show c'.tagName.length < kTagNameSize
      rw [hname, List.length_take]
      exact Nat.lt_of_le_of_lt (Nat.min_le_left _ _) (by decide)
    · exact h
  | send sessionHandle service path pathLen data dataLen timeoutMs now =>
    obtain ⟨st, c', hsend⟩ : ∃ st c', c.send sessionHandle service path pathLen data dataLen timeoutMs now =
      (st, c') := ⟨_, _, rfl⟩
    rw [call, hsend]
    rcases send_cases hsend with ⟨-, hsent⟩ | ⟨-, rfl⟩
    · show c'.tagName.length < kTagNameSize
      rw [hsent.made]
      exact h
    · exact h
  | close conn sessionHandle timeoutMs now =>
    obtain ⟨st, c', hclose⟩ : ∃ st c', c.close conn sessionHandle timeoutMs now = (st, c') := ⟨_, _, rfl⟩
    rw [call, hclose]
    show c'.tagName.length < kTagNameSize
    rcases close_cases hclose with ⟨-, hf⟩ | ⟨-, -, rfl⟩
    · rw [tagName_forward hf]
      exact h
    · exact h
  | poll conn os =>
    show (c.poll conn os).2.1.tagName.length < kTagNameSize
    -- no state of `poll()` touches the name
    unfold poll
    split
    · rw [pollOpening, tagName_pollForward tagName_finishOpen]
      exact h
    · rw [tagName_pollSending]
      exact h
    · rw [pollClosing, tagName_pollForward fun _ => rfl]
      exact h
    · exact h
    · exact h
    · exact h
    · exact h

/-- So it does in every run. -/
theorem named_of_run {c₀ c : Connection} {cs : List Call} (hi : Initial c₀) (h : Run step always c₀ cs c) :
    Named c := by
  refine h.invariant (I := Named) ?_ ?_
  · intro s a s' hs _ hstep
    obtain rfl := Option.some.inj hstep
    exact named_call hs a
  · rw [hi]
    show (0 : Nat) < kTagNameSize
    decide

/-! ### The calls -/

private theorem status_forward (c : Connection) (conn : TcpConnection) (sessionHandle : UInt32) (service : UInt8)
    (data : List UInt8) (timeoutMs now : UInt32) (next : State) :
    (c.forward conn sessionHandle service data timeoutMs now next).1 =
      (c.fwd.send conn sessionHandle service (some managerPath) managerPath.length (some data) data.length timeoutMs
        now).1 := by
  unfold forward
  split
  · rename_i fwd h
    rw [h]
  · rename_i st fwd hne h
    rw [h]

/-- What stands in a request to the Connection Manager at an offset into the data. -/
private theorem peek_forwarded (sessionHandle : UInt32) (context : UInt64) (service : UInt8) (data rest : List UInt8)
    (i : Nat) : peek (requestFrame sessionHandle context service managerPath data ++ rest) (46 + i) =
      peek (data ++ rest) i := by
  have hlen : managerPath.length = 4 := rfl
  have hoff : 46 + i = 42 + (4 + i) := by omega
  rw [hoff, ExplicitMessage.peek_request, peek_append_right (by omega), hlen, Nat.add_sub_cancel_left]

section Calls

variable {c : Connection} {conn : TcpConnection} {sessionHandle timeoutMs now random : UInt32}
  {name data tx : List UInt8}

private theorem fwd_keeps (c : Connection) (conn : TcpConnection) (sessionHandle : UInt32) (service : UInt8)
    {d : List UInt8} (hdata : data.take d.length = d) (hsmall : d.length ≤ 200)
    (htx : tx.length = ExplicitMessage.kTxSize) :
    Keeps (c.fwd.sendIn conn sessionHandle service (some (peek managerPath)) (UInt32.ofNat managerPath.length)
        (some (peek data)) (UInt32.ofNat d.length) tx)
      (c.fwd.send conn sessionHandle service (some managerPath) managerPath.length (some d) d.length timeoutMs now).1
      fun tx' => RequestSizes 4 d.length tx' ∧
        ∃ rest, tx' = requestFrame sessionHandle c.fwd.context service managerPath d ++ rest := by
  have hpath : managerPath.take managerPath.length = managerPath := List.take_length
  have hlen : managerPath.length = 4 := rfl
  obtain ⟨tx', hin, hgood⟩ := ExplicitMessage.sendIn_arrays managerPath data hpath hdata (by omega) (by decide) htx
  refine ⟨tx', hin, fun h => ?_⟩
  obtain ⟨hsum, hsizes, hframe⟩ := hgood h
  exact ⟨⟨hsum, hsizes⟩, hframe⟩

/-- The stores of a name that fits, and of the zeros behind it. -/
private theorem puts_name {n : List UInt8} (hname : name.length = kTagNameSize) (hn : n.length < kTagNameSize) :
    ∃ name', puts name (nameStores n) = some name' := by
  have hk : kTagNameSize = 64 := rfl
  obtain ⟨fill, hfill⟩ : ∃ fill, fill = n ++ List.replicate (kTagNameSize - 1 - n.length) (0 : UInt8) := ⟨_, rfl⟩
  have hlen : fill.length = kTagNameSize - 1 := by
    rw [hfill, List.length_append, List.length_replicate]
    omega
  have hstores : nameStores n = [(0, fill), (kTagNameSize - 1, [0])] := by
    have hall : n.take (kTagNameSize - 1) = n := List.take_of_length_le (by omega)
    rw [nameStores, hall, hfill]
  have hlast : kTagNameSize - 1 + [(0 : UInt8)].length ≤ (store name 0 fill).length := by
    rw [length_store (by omega), List.length_singleton]
    omega
  refine ⟨store (store name 0 fill) (kTagNameSize - 1) [0], ?_⟩
  rw [hstores, puts, put_eq (by omega), Option.bind_some, puts, put_eq hlast, Option.bind_some, puts]

/-- The sizes in a connection path. -/
private theorem sizes_path {n : List UInt8} (hn : n.length < kTagNameSize) (rest : List UInt8) :
    2 * (peek (connectionPath n ++ rest) 0).toNat = (appendSymbolic n).length ∧
      (peek (connectionPath n ++ rest) 2).toNat = n.length := by
  have hk : kTagNameSize = 64 := rfl
  have hmax : kMaxSymbolicName = 120 := rfl
  have hsegment := length_segment hn
  have heven := (length_appendSymbolic n).1
  refine ⟨?_, ?_⟩
  · show 2 * (UInt8.ofNat ((appendSymbolic n).length / 2)).toNat = _
    rw [UInt8.toNat_ofNat']
    omega
  · show (peek (appendSymbolic n ++ rest) 1).toNat = _
    exact peek_symbolic (by omega) rest

/-- `open()` keeps to its arrays, and the sizes in its request are those of the name. -/
theorem open_keeps (tagName : Option (List UInt8)) (hname : name.length = kTagNameSize)
    (hdata : data.length = kDataSize) (htx : tx.length = ExplicitMessage.kTxSize) :
    Keeps (c.openIn conn sessionHandle tagName random name data tx)
      (c.open conn sessionHandle tagName timeoutMs now random).1 fun tx' =>
        ∃ n, tagName = some n ∧ RequestSizes 4 (36 + (appendSymbolic n).length) tx' ∧
          2 * (peek tx' 81).toNat = (appendSymbolic n).length ∧ (peek tx' 83).toNat = n.length := by
  cases tagName with
  | none => exact keeps_refused (by decide) tx _
  | some n =>
    unfold openIn «open»
    dsimp only
    split
    · exact keeps_refused (by decide) tx _
    · rename_i hlong
      split
      · exact keeps_refused (by decide) tx _
      · have hk : kTagNameSize = 64 := rfl
        have hsize : kDataSize = 128 := rfl
        -- the whole name fits, so that nothing is cut off
        have hall : n.take (kTagNameSize - 1) = n := List.take_of_length_le (by omega)
        have hsegment : (appendSymbolic n).length ≤ 66 := length_segment (by omega)
        have heven := (length_appendSymbolic n).1
        have hlen := exact_openData (chooseConnId random) n
        -- the two arrays are filled in turn
        obtain ⟨name', hstored⟩ := puts_name hname (by omega : n.length < kTagNameSize)
        obtain ⟨data', hputs, htake⟩ := take_placed (a := data) (places_open (chooseConnId random) n) (by omega)
        unfold startOpen
        dsimp only
        rw [hall, status_forward, hstored, Option.bind_some, hputs, Option.bind_some, ← hlen]
        obtain ⟨tx', hin, hgood⟩ :=
          fwd_keeps { c with otConnId := chooseConnId random, toConnId := 0, tagName := n } conn
            sessionHandle 0x54 htake (by omega) htx
        refine ⟨tx', hin, fun h => ?_⟩
        obtain ⟨hframed, rest, hframe⟩ := hgood h
        rw [hlen] at hframed
        -- the path stands behind 35 bytes of parameters
        obtain ⟨before, hbefore, hopen⟩ : ∃ before : List UInt8, before.length = 35 ∧
            openData (chooseConnId random) n = before ++ connectionPath n := by
          refine ⟨_, ?_, rfl⟩
          simp only [List.length_append, List.length_cons, List.length_nil, length_putU16, length_putU32]
        have hpeek : ∀ i, peek tx' (81 + i) = peek (connectionPath n ++ rest) i := by
          intro i
          have hoff : 81 + i = 46 + (35 + i) := by omega
          rw [hframe, hoff, peek_forwarded, hopen, List.append_assoc, peek_append_right (by omega), hbefore,
            Nat.add_sub_cancel_left]
        obtain ⟨hwords, hsize⟩ := sizes_path (by omega : n.length < kTagNameSize) rest
        rw [← hpeek 0] at hwords
        rw [← hpeek 2] at hsize
        exact ⟨n, rfl, hframed, hwords, hsize⟩

/-- `close()` keeps to its arrays, and the sizes in its request are those of the name. -/
theorem close_keeps (hc : Named c) (hdata : data.length = kDataSize) (htx : tx.length = ExplicitMessage.kTxSize) :
    Keeps (c.closeIn conn sessionHandle data tx) (c.close conn sessionHandle timeoutMs now).1 fun tx' =>
      RequestSizes 4 (1 + (appendSymbolic c.tagName).length + 8) tx' ∧
        2 * (peek tx' 46).toNat = (appendSymbolic c.tagName).length ∧ (peek tx' 48).toNat = c.tagName.length := by
  unfold closeIn close
  split
  · exact keeps_refused (by decide) tx _
  · have hsize : kDataSize = 128 := rfl
    have hsegment := length_segment hc
    have hlen := exact_closeData c.tagName
    obtain ⟨data', hputs, htake⟩ := take_placed (a := data) (places_close c.tagName) (by omega)
    unfold startClose
    rw [status_forward, hputs, Option.bind_some, ← hlen]
    obtain ⟨tx', hin, hgood⟩ := fwd_keeps c conn sessionHandle 0x4E htake (by omega) htx
    refine ⟨tx', hin, fun h => ?_⟩
    obtain ⟨hframed, rest, hframe⟩ := hgood h
    have hpeek : ∀ i, peek tx' (46 + i) = peek (connectionPath c.tagName ++
        (putU16 1 ++ (putU16 0x0001 ++ (putU32 0x00000001 ++ rest)))) i := by
      intro i
      rw [hframe, peek_forwarded]
      simp only [closeData, List.append_assoc]
    obtain ⟨hwords, hname⟩ := sizes_path hc (putU16 1 ++ (putU16 0x0001 ++ (putU32 0x00000001 ++ rest)))
    rw [← hpeek 0] at hwords
    rw [← hpeek 2] at hname
    exact ⟨hframed, hwords, hname⟩

end Calls

end Connection

/-! ### Read Tag and Write Tag -/

namespace Tag

/-- The size of `path[]`. -/
def kPathSize : Nat := 128

/-- The size of `wdata[]`. -/
def kWriteSize : Nat := 2 + 2 + kMaxDataSize

/-- The stores into `wdata` of `startWrite()`. -/
def writeStores (t : Tag) (elementCount : UInt32) (dataLen : Nat) : List (Nat × List UInt8) :=
  [(0, putU16 elementCount.toUInt16), (2, putU16 t.dataType.toUInt16), (4, copy (peek t.data.bytes) dataLen)]

def readIn (t : Tag) (msg : ExplicitMessage) (conn : TcpConnection) (sessionHandle : UInt32)
    (name : Option (List UInt8)) (elementCount : UInt32) (path count tx : List UInt8) :
    Option (Status × List UInt8) :=
  match name with
  | none => some (.invalidArg, tx)
  | some name =>
    if name.length > kMaxSymbolicName then some (.invalidArg, tx)
    else if t.state = .reading ∨ t.state = .writing then some (.busy, tx)
    else
      (puts path (symbolicStores 0 name)).bind fun path =>
        (put count 0 (putU16 elementCount.toUInt16)).bind fun count =>
          msg.sendIn conn sessionHandle TagService.read.code (some (peek path))
            (UInt32.ofNat (appendSymbolic name).length) (some (peek count)) (UInt32.ofNat 2) tx

def writeIn (t : Tag) (msg : ExplicitMessage) (conn : TcpConnection) (sessionHandle : UInt32)
    (name : Option (List UInt8)) (elementCount : UInt32) (path wdata tx : List UInt8) :
    Option (Status × List UInt8) :=
  match name with
  | none => some (.invalidArg, tx)
  | some name =>
    if name.length > kMaxSymbolicName then some (.invalidArg, tx)
    else if t.dataType = 0 then some (.notReady, tx)
    else if t.state = .reading ∨ t.state = .writing then some (.busy, tx)
    else
      match t.writeLength elementCount with
      | none => some (.invalidArg, tx)
      | some dataLen =>
        (puts path (symbolicStores 0 name)).bind fun path =>
          (puts wdata (t.writeStores elementCount dataLen)).bind fun wdata =>
            msg.sendIn conn sessionHandle TagService.write.code (some (peek path))
              (UInt32.ofNat (appendSymbolic name).length) (some (peek wdata)) (UInt32.ofNat (4 + dataLen)) tx

private theorem status_startRead (t : Tag) (msg : ExplicitMessage) (conn : TcpConnection) (sessionHandle : UInt32)
    (name : List UInt8) (elementCount timeoutMs now : UInt32) :
    (t.startRead msg conn sessionHandle name elementCount timeoutMs now).1 =
      (msg.send conn sessionHandle TagService.read.code (some (appendSymbolic name)) (appendSymbolic name).length
        (some (putU16 elementCount.toUInt16)) (putU16 elementCount.toUInt16).length timeoutMs now).1 := by
  unfold startRead
  dsimp only
  split
  · rename_i msg' h
    rw [h]
  · rename_i st msg' hne h
    rw [h]

private theorem status_startWrite {t : Tag} {elementCount : UInt32} {dataLen : Nat}
    (hlen : t.writeLength elementCount = some dataLen) (msg : ExplicitMessage) (conn : TcpConnection)
    (sessionHandle : UInt32) (name : List UInt8) (timeoutMs now : UInt32) :
    (t.startWrite msg conn sessionHandle name elementCount timeoutMs now).1 =
      (msg.send conn sessionHandle TagService.write.code (some (appendSymbolic name)) (appendSymbolic name).length
        (some (putU16 elementCount.toUInt16 ++ putU16 t.dataType.toUInt16 ++ t.data.bytes.take dataLen)) (4 + dataLen)
        timeoutMs now).1 := by
  unfold startWrite
  rw [hlen]
  dsimp only
  split
  · rename_i msg' h
    rw [h]
  · rename_i st msg' hne h
    rw [h]

/-- What `startWrite()` places in `wdata`. -/
private theorem places_write (t : Tag) (elementCount : UInt32) {dataLen : Nat} (h : dataLen ≤ kMaxDataSize) :
    Places (t.writeStores elementCount dataLen) 0
      (putU16 elementCount.toUInt16 ++ putU16 t.dataType.toUInt16 ++ t.data.bytes.take dataLen) := by
  rw [← copy_peek (by rw [t.data.size]; exact h)]
  exact ((places_one 0 (putU16 elementCount.toUInt16)).append rfl (places_one _ _)).append rfl (places_one _ _)

section Calls

variable {t : Tag} {msg : ExplicitMessage} {conn : TcpConnection} {sessionHandle elementCount timeoutMs now : UInt32}
  {path count wdata tx : List UInt8}

/-- A request of which the path is the segment of a name. -/
private theorem named_keeps (msg : ExplicitMessage) (conn : TcpConnection) (sessionHandle : UInt32) (service : UInt8)
    {name d path' data' : List UInt8} (hname : name.length ≤ kMaxSymbolicName)
    (hpath : path'.take (appendSymbolic name).length = appendSymbolic name) (hdata : data'.take d.length = d)
    (hsmall : d.length ≤ 300) (htx : tx.length = ExplicitMessage.kTxSize) :
    Keeps (msg.sendIn conn sessionHandle service (some (peek path')) (UInt32.ofNat (appendSymbolic name).length)
        (some (peek data')) (UInt32.ofNat d.length) tx)
      (msg.send conn sessionHandle service (some (appendSymbolic name)) (appendSymbolic name).length (some d) d.length
        timeoutMs now).1
      fun tx' => RequestSizes (appendSymbolic name).length d.length tx' ∧ (peek tx' 43).toNat = name.length := by
  obtain ⟨heven, hsegment⟩ := length_appendSymbolic name
  obtain ⟨tx', hin, hgood⟩ := ExplicitMessage.sendIn_arrays path' data' hpath hdata (by omega) heven htx
  refine ⟨tx', hin, fun h => ?_⟩
  obtain ⟨hsum, hsizes, rest, hframe⟩ := hgood h
  refine ⟨⟨hsum, hsizes⟩, ?_⟩
  have hoff : 43 = 42 + 1 := rfl
  rw [hframe, hoff, ExplicitMessage.peek_request]
  exact peek_symbolic hname (d ++ rest)

/-- `read()` keeps to its arrays, and the sizes in its request are those of the name. -/
theorem read_keeps (name : Option (List UInt8)) (hpath : path.length = kPathSize) (hcount : count.length = 2)
    (htx : tx.length = ExplicitMessage.kTxSize) :
    Keeps (t.readIn msg conn sessionHandle name elementCount path count tx)
      (t.read msg conn sessionHandle name elementCount timeoutMs now).1 fun tx' =>
        ∃ n, name = some n ∧ RequestSizes (appendSymbolic n).length 2 tx' ∧ (peek tx' 43).toNat = n.length := by
  cases name with
  | none => exact keeps_refused (by decide) tx _
  | some n =>
    unfold readIn read
    dsimp only
    split
    · exact keeps_refused (by decide) tx _
    · rename_i hlong
      split
      · exact keeps_refused (by decide) tx _
      · have hsize : kPathSize = 128 := rfl
        have hsegment := (length_appendSymbolic n).2
        obtain ⟨path', hputs, htake⟩ := take_placed (a := path) (places_symbolic 0 n) (by omega)
        have htwo : (putU16 elementCount.toUInt16).length = 2 := length_putU16 _
        have hstored : put count 0 (putU16 elementCount.toUInt16) = some (putU16 elementCount.toUInt16) := by
          rw [put_eq (by omega), store, List.take_zero, List.nil_append, Nat.zero_add, length_putU16,
            ← hcount, List.drop_length, List.append_nil]
        rw [status_startRead, hputs, Option.bind_some, hstored, Option.bind_some]
        obtain ⟨tx', hin, hgood⟩ := named_keeps msg conn sessionHandle TagService.read.code
          (by omega : n.length ≤ kMaxSymbolicName) htake (List.take_length (l := putU16 elementCount.toUInt16))
          (by omega) htx
        refine ⟨tx', hin, fun h => ?_⟩
        obtain ⟨hsizes, hname⟩ := hgood h
        exact ⟨n, rfl, hsizes, hname⟩

/-- `write()` keeps to its arrays, and the sizes in its request are those of the name and of the value. -/
theorem write_keeps (name : Option (List UInt8)) (hpath : path.length = kPathSize)
    (hwdata : wdata.length = kWriteSize) (htx : tx.length = ExplicitMessage.kTxSize) :
    Keeps (t.writeIn msg conn sessionHandle name elementCount path wdata tx)
      (t.write msg conn sessionHandle name elementCount timeoutMs now).1 fun tx' =>
        ∃ n dataLen, name = some n ∧ t.writeLength elementCount = some dataLen ∧
          RequestSizes (appendSymbolic n).length (4 + dataLen) tx' ∧ (peek tx' 43).toNat = n.length := by
  cases name with
  | none => exact keeps_refused (by decide) tx _
  | some n =>
    unfold writeIn write
    dsimp only
    split
    · exact keeps_refused (by decide) tx _
    · rename_i hlong
      split
      · exact keeps_refused (by decide) tx _
      · split
        · exact keeps_refused (by decide) tx _
        · cases hlen : t.writeLength elementCount with
          | none =>
            unfold startWrite
            rw [hlen]
            exact keeps_refused (by decide) tx _
          | some dataLen =>
            have hsize : kPathSize = 128 := rfl
            have hmax : kMaxDataSize = 256 := rfl
            have hwsize : kWriteSize = 260 := rfl
            have hle := writeLength_le hlen
            have hsegment := (length_appendSymbolic n).2
            obtain ⟨d, hd⟩ : ∃ d, d = putU16 elementCount.toUInt16 ++ putU16 t.dataType.toUInt16 ++
              t.data.bytes.take dataLen := ⟨_, rfl⟩
            have hdlen : d.length = 4 + dataLen := by
              have := t.data.size
              rw [hd, List.length_append, List.length_append, length_putU16, length_putU16, List.length_take]
              omega
            have hplaces := places_write t elementCount hle
            rw [← hd] at hplaces
            -- the path and the request data are filled before the request is sent
            obtain ⟨path', hputs, htake⟩ := take_placed (a := path) (places_symbolic 0 n) (by omega)
            obtain ⟨wdata', hwputs, hwtake⟩ := take_placed (a := wdata) hplaces (by omega)
            rw [status_startWrite hlen, ← hd]
            dsimp only
            rw [hputs, Option.bind_some, hwputs, Option.bind_some, ← hdlen]
            obtain ⟨tx', hin, hgood⟩ := named_keeps msg conn sessionHandle TagService.write.code
              (by omega : n.length ≤ kMaxSymbolicName) htake hwtake (by omega) htx
            refine ⟨tx', hin, fun h => ?_⟩
            obtain ⟨hsizes, hname⟩ := hgood h
            rw [hdlen] at hsizes
            exact ⟨n, dataLen, rfl, rfl, hsizes, hname⟩

end Calls

end Tag

/-! ### All encoders -/

namespace Encoder

/-- A call of an encoder, with the arrays it fills. -/
inductive Call where
  | messageSend (m : ExplicitMessage) (conn : TcpConnection) (sessionHandle : UInt32) (service : UInt8)
      (path : Option Pointer) (pathLen : UInt32) (data : Option Pointer) (dataLen timeoutMs now : UInt32)
      (tx : Cells ExplicitMessage.kTxSize)
  | connectionSend (c : Connection) (sessionHandle : UInt32) (service : UInt8) (path : Option Pointer)
      (pathLen : UInt32) (data : Option Pointer) (dataLen timeoutMs now : UInt32) (tx : Cells Connection.kTxSize)
  | connectionOpen (c : Connection) (conn : TcpConnection) (sessionHandle : UInt32) (tagName : Option (List UInt8))
      (timeoutMs now random : UInt32) (name : Cells Connection.kTagNameSize) (data : Cells Connection.kDataSize)
      (tx : Cells ExplicitMessage.kTxSize)
  | connectionClose (c : Connection) (conn : TcpConnection) (sessionHandle timeoutMs now : UInt32)
      (data : Cells Connection.kDataSize) (tx : Cells ExplicitMessage.kTxSize)
  | tagRead (t : Tag) (msg : ExplicitMessage) (conn : TcpConnection) (sessionHandle : UInt32)
      (name : Option (List UInt8)) (elementCount timeoutMs now : UInt32) (path : Cells Tag.kPathSize)
      (count : Cells 2) (tx : Cells ExplicitMessage.kTxSize)
  | tagWrite (t : Tag) (msg : ExplicitMessage) (conn : TcpConnection) (sessionHandle : UInt32)
      (name : Option (List UInt8)) (elementCount timeoutMs now : UInt32) (path : Cells Tag.kPathSize)
      (wdata : Cells Tag.kWriteSize) (tx : Cells ExplicitMessage.kTxSize)

/-- The connection of the call is one that some calls have led to. -/
def Call.Reached : Call → Prop
  | .connectionSend c .. | .connectionOpen c .. | .connectionClose c .. =>
    ∃ c₀ cs, Connection.Initial c₀ ∧ Run Connection.step always c₀ cs c
  | _ => True

/-- No store leaves its array, and an accepted request is small enough and says the true sizes. -/
def Call.Safe : Call → Prop
  | .messageSend m conn sessionHandle service path pathLen data dataLen timeoutMs now tx =>
    Keeps (m.sendIn conn sessionHandle service path pathLen data dataLen tx)
      (m.send conn sessionHandle service (argument path pathLen) pathLen.toNat (argument data dataLen) dataLen.toNat
        timeoutMs now).1
      fun tx' => RequestSizes pathLen.toNat dataLen.toNat tx'
  | .connectionSend c sessionHandle service path pathLen data dataLen timeoutMs now tx =>
    Keeps (c.sendIn sessionHandle service path pathLen data dataLen tx)
      (c.send sessionHandle service (argument path pathLen) pathLen.toNat (argument data dataLen) dataLen.toNat
        timeoutMs now).1
      fun tx' => 2 + pathLen.toNat + dataLen.toNat ≤ Connection.kMaxDataSize ∧
        SizesTrue tx' 22 42 2 pathLen.toNat dataLen.toNat
  | .connectionOpen c conn sessionHandle tagName timeoutMs now random name data tx =>
    Keeps (c.openIn conn sessionHandle tagName random name data tx)
      (c.open conn sessionHandle tagName timeoutMs now random).1
      fun tx' => ∃ n, tagName = some n ∧ RequestSizes 4 (36 + (appendSymbolic n).length) tx' ∧
        2 * (peek tx' 81).toNat = (appendSymbolic n).length ∧ (peek tx' 83).toNat = n.length
  | .connectionClose c conn sessionHandle timeoutMs now data tx =>
    Keeps (c.closeIn conn sessionHandle data tx) (c.close conn sessionHandle timeoutMs now).1
      fun tx' => RequestSizes 4 (1 + (appendSymbolic c.tagName).length + 8) tx' ∧
        2 * (peek tx' 46).toNat = (appendSymbolic c.tagName).length ∧ (peek tx' 48).toNat = c.tagName.length
  | .tagRead t msg conn sessionHandle name elementCount timeoutMs now path count tx =>
    Keeps (t.readIn msg conn sessionHandle name elementCount path count tx)
      (t.read msg conn sessionHandle name elementCount timeoutMs now).1
      fun tx' => ∃ n, name = some n ∧ RequestSizes (appendSymbolic n).length 2 tx' ∧ (peek tx' 43).toNat = n.length
  | .tagWrite t msg conn sessionHandle name elementCount timeoutMs now path wdata tx =>
    Keeps (t.writeIn msg conn sessionHandle name elementCount path wdata tx)
      (t.write msg conn sessionHandle name elementCount timeoutMs now).1
      fun tx' => ∃ n dataLen, name = some n ∧ t.writeLength elementCount = some dataLen ∧
        RequestSizes (appendSymbolic n).length (4 + dataLen) tx' ∧ (peek tx' 43).toNat = n.length

/-- A `send()` that passes all other checks has lengths whose sum wraps to a small one. -/
def Call.Wraps : Call → Prop
  | .messageSend m conn _ _ path pathLen data dataLen _ _ _ =>
    ¬ m.InFlight ∧ conn.connected ∧ WellFormed path pathLen data dataLen ∧ Overflows pathLen dataLen
  | .connectionSend c _ _ path pathLen data dataLen _ _ _ =>
    c.state = .open ∧ WellFormed path pathLen data dataLen ∧ Overflows pathLen dataLen
  | _ => False

private theorem message_safe (m : ExplicitMessage) (conn : TcpConnection) (sessionHandle : UInt32) (service : UInt8)
    (path : Option Pointer) (pathLen : UInt32) (data : Option Pointer) (dataLen timeoutMs now : UInt32)
    (tx : Cells ExplicitMessage.kTxSize) :
    (Call.messageSend m conn sessionHandle service path pathLen data dataLen timeoutMs now tx).Safe ↔
      ¬ (Call.messageSend m conn sessionHandle service path pathLen data dataLen timeoutMs now tx).Wraps := by
  constructor
  · rintro ⟨tx', hin, -⟩ ⟨hfree, hconn, hargs, hover⟩
    rw [ExplicitMessage.sendIn_overflows tx.2 hfree hconn hargs hover] at hin
    cases hin
  · intro hno
    obtain ⟨st, m', hsend⟩ : ∃ st m', m.send conn sessionHandle service (argument path pathLen) pathLen.toNat
      (argument data dataLen) dataLen.toNat timeoutMs now = (st, m') := ⟨_, _, rfl⟩
    show Keeps _ (m.send _ _ _ _ _ _ _ _ _).1 _
    rw [hsend]
    by_cases hst : st = .pending
    · subst hst
      have hsent := ExplicitMessage.send_accepted hsend
      obtain ⟨hargs, hsum | hover⟩ := wellFormed_of_sendable hsent.args
      · obtain ⟨-, rest, hin, hsizes⟩ := ExplicitMessage.sendIn_accepted tx.2 hsend hsum
        exact ⟨_, hin, fun _ => ⟨hsum, hsizes⟩⟩
      · exact absurd ⟨hsent.free, hsent.connected, hargs, hover⟩ hno
    · exact ⟨tx, ExplicitMessage.sendIn_refused hsend hst, fun h => absurd h hst⟩

private theorem connection_safe (c : Connection) (sessionHandle : UInt32) (service : UInt8) (path : Option Pointer)
    (pathLen : UInt32) (data : Option Pointer) (dataLen timeoutMs now : UInt32) (tx : Cells Connection.kTxSize) :
    (Call.connectionSend c sessionHandle service path pathLen data dataLen timeoutMs now tx).Safe ↔
      ¬ (Call.connectionSend c sessionHandle service path pathLen data dataLen timeoutMs now tx).Wraps := by
  constructor
  · rintro ⟨tx', hin, -⟩ ⟨hopen, hargs, hover⟩
    rw [Connection.sendIn_overflows tx.2 hopen hargs hover] at hin
    cases hin
  · intro hno
    obtain ⟨st, c', hsend⟩ : ∃ st c', c.send sessionHandle service (argument path pathLen) pathLen.toNat
      (argument data dataLen) dataLen.toNat timeoutMs now = (st, c') := ⟨_, _, rfl⟩
    show Keeps _ (c.send _ _ _ _ _ _ _ _).1 _
    rw [hsend]
    rcases Connection.send_cases hsend with ⟨rfl, hsent⟩ | ⟨hst, -⟩
    · obtain ⟨hargs, hsum | hover⟩ := wellFormed_of_sendable hsent.args
      · obtain ⟨rest, hin, hsizes⟩ := Connection.sendIn_accepted tx.2 hsent hsum
        exact ⟨_, hin, fun _ => ⟨hsum, hsizes⟩⟩
      · exact absurd ⟨hsent.opened, hargs, hover⟩ hno
    · have hne : st ≠ .pending := by
        rcases hst with ⟨-, rfl⟩ | rfl <;> decide
      exact ⟨tx, Connection.sendIn_refused hsend hne, fun h => absurd h hne⟩

/-- Every call of an encoder is safe, except for a `send()` that passes all other checks with lengths whose sum wraps
around to a small number. -/
theorem encoders_safe {call : Call} (h : call.Reached) : call.Safe ↔ ¬ call.Wraps := by
  have hnever : ∀ {p : Prop}, p → (p ↔ ¬ False) := fun hp => ⟨fun _ => fun h => h, fun _ => hp⟩
  cases call with
  | messageSend m conn sessionHandle service path pathLen data dataLen timeoutMs now tx =>
    exact message_safe m conn sessionHandle service path pathLen data dataLen timeoutMs now tx
  | connectionSend c sessionHandle service path pathLen data dataLen timeoutMs now tx =>
    exact connection_safe c sessionHandle service path pathLen data dataLen timeoutMs now tx
  | connectionOpen c conn sessionHandle tagName timeoutMs now random name data tx =>
    exact hnever (Connection.open_keeps tagName name.2 data.2 tx.2)
  | connectionClose c conn sessionHandle timeoutMs now data tx =>
    obtain ⟨c₀, cs, hi, hrun⟩ := h
    exact hnever (Connection.close_keeps (Connection.named_of_run hi hrun) data.2 tx.2)
  | tagRead t msg conn sessionHandle name elementCount timeoutMs now path count tx =>
    exact hnever (Tag.read_keeps name path.2 count.2 tx.2)
  | tagWrite t msg conn sessionHandle name elementCount timeoutMs now path wdata tx =>
    exact hnever (Tag.write_keeps name path.2 wdata.2 tx.2)

/-- An array of zeros. -/
def zeros (n : Nat) : Cells n := ⟨List.replicate n 0, List.length_replicate⟩

/-- The response to a Forward Open. -/
def accepted : Reply :=
  { exchange := 1, service := 0xD4, data := [5, 0, 0, 0, 8, 0, 0, 0, 1, 0, 1, 0], fits := by decide }

/-- The transport is up, and brings these bytes. -/
def bringing (inbox : List UInt8) : TcpConnection := { fd := 3, state := .ok, sock := { inbox := inbox } }

/-- An object that has opened its connection under the longest name. -/
def openedLong : Connection :=
  after Connection.step {} [.open (bringing []) 7 (some (List.replicate 63 77)) 5000 0 5,
    .poll (bringing accepted.frame) { sends := [.accepted 1000], recvs := [.data 1000, .data 1000] }]

/-- It closes the connection, or sends the longest request over it. -/
theorem encoders_safe_forward_close :
    ((openedLong.close (bringing []) 7 1000 2).1 = .pending ∧
      (Call.connectionClose openedLong (bringing []) 7 1000 2 (zeros _) (zeros _)).Safe) ∧
    (openedLong.send 7 0x4D (argument (some fun _ => 0) 66) 66 (argument (some fun _ => 0) 188) 188 1000 2).1 =
        .pending ∧
      (Call.connectionSend openedLong 7 0x4D (some fun _ => 0) 66 (some fun _ => 0) 188 1000 2 (zeros _)).Safe := by
  have hreached : ∃ c₀ cs, Connection.Initial c₀ ∧ Run Connection.step always c₀ cs openedLong :=
    ⟨{}, _, rfl, run_after (by decide +kernel)⟩
  have hclose : (Call.connectionClose openedLong (bringing []) 7 1000 2 (zeros _) (zeros _)).Reached := hreached
  have hsend : (Call.connectionSend openedLong 7 0x4D (some fun _ => 0) 66 (some fun _ => 0) 188 1000 2
    (zeros _)).Reached := hreached
  refine ⟨⟨by decide +kernel, (encoders_safe hclose).2 id⟩, by decide +kernel, (encoders_safe hsend).2 ?_⟩
  rintro ⟨-, -, hwraps, -⟩
  exact absurd hwraps (by decide)

/-- Of 2^32 - 2 bytes of data the computed length is 0. -/
theorem length_wraps : ¬ ∀ call : Call, call.Reached → call.Safe := by
  intro h
  have hsafe :=
    h (.messageSend {} { fd := 3, state := .ok } 7 0x4C none 0 (some fun _ => 0) 0xFFFFFFFE 1000 0 (zeros _))
      trivial
  have hargs : WellFormed none 0 (some fun _ => 0) 0xFFFFFFFE :=
    ⟨by decide, fun hpos => absurd hpos (by decide), by simp⟩
  obtain ⟨tx', hin, -⟩ := hsafe
  rw [ExplicitMessage.sendIn_overflows (zeros _).2 (by decide) (by decide) hargs ⟨by decide, by decide⟩] at hin
  cases hin

end Encoder

end ControlLogix
