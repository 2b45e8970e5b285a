import ControlLogix.Client
import ControlLogix.Session
import ControlLogix.Tag
import Mathlib.Logic.Function.Basic

/-!
# The facade (`PlcClient`)

`PlcClient n` is the class with a pool of `n = kMaxTags` slots; a slot puts the entries of the parallel arrays
`tags_`, `inUse_`, `tagNames_`, `tagElemCount_` and `tagPrevStatus_` together.  The sketch's callbacks are not part of
the state: `tagCallback` and `stateCallback` tell whether one is registered, and the functions below tell whether it
is called.

`poll()` is split at the points where it calls back: `pollState` is the whole of it in every state but `Ready`,
`pollTag` is one turn of the loop over the slots in `Ready`, and `loopEnd` is what follows the loop.

A call of `poll()` reads the clock through `os.millis 0` in the facade, and through the following readings in the
object it advances.
-/

namespace ControlLogix

inductive PlcClient.State where
  | idle
  | ethernet
  | connecting
  | registering
  | ready
  | disconnecting
  | failed
  deriving DecidableEq, Repr

structure Slot where
  tag : Tag
  inUse : Bool := false
  name : List UInt8 := []
  elemCount : UInt32 := 0
  prevStatus : Status := .pending
  deriving DecidableEq, Repr

structure PlcClient (n : Nat) where
  eth : Client := {}
  tcp : TcpConnection := {}
  session : Session := {}
  msg : ExplicitMessage := {}
  state : PlcClient.State := .idle
  remoteIp : IPAddress := 0
  remotePort : UInt16 := 0
  wantConnect : Bool := false
  connectTimeoutMs : UInt32 := 0
  deadline : UInt32 := 0
  slots : Fin n → Slot
  tagCallback : Bool := false
  stateCallback : Bool := false

namespace PlcClient

variable {n : Nat}

def kMaxTagName : Nat := 64

/-- The constructor sets all members but the byte arrays, which hold anything. -/
structure Fresh (p : PlcClient n) : Prop where
  eth : p.eth = {}
  tcp : p.tcp = {}
  session : p.session = { tx := p.session.tx, rx := p.session.rx }
  msg : p.msg = { tx := p.msg.tx, rx := p.msg.rx }
  state : p.state = .idle
  wantConnect : p.wantConnect = false
  slots : ∀ i, p.slots i = { tag := { data := (p.slots i).tag.data }, name := (p.slots i).name }

def setSlot (p : PlcClient n) (i : Fin n) (s : Slot) : PlcClient n :=
  { p with slots := Function.update p.slots i s }

/-! ### Connecting and disconnecting -/

def begin (p : PlcClient n) (began configured : Bool) : Status × PlcClient n :=
  let (st, eth) := p.eth.begin began configured
  (st, { p with state := .ethernet, wantConnect := false, eth := eth })

/-- The call of `tcp_.connect()` and the check of its result. -/
def dial (p : PlcClient n) (os : Platform) : Status × PlcClient n :=
  match p.tcp.connect p.remoteIp p.remotePort p.connectTimeoutMs os.connect (os.millis 1) with
  | (.pending, tcp) => (.pending, { p with tcp := tcp })
  | (st, tcp) => (st, { p with tcp := tcp, state := .failed })

def connect (p : PlcClient n) (ip : IPAddress) (port : UInt16) (timeoutMs : UInt32) (os : Platform) :
    Status × PlcClient n :=
  let p := { p with remoteIp := ip, remotePort := port, connectTimeoutMs := timeoutMs, wantConnect := false }
  if p.eth.ready then
    { p with session := p.session.abort, tcp := p.tcp.close, state := .connecting,
             deadline := os.millis 0 + timeoutMs }.dial os
  else (.pending, { p with wantConnect := true, state := .ethernet })

def disconnect (p : PlcClient n) : Status × PlcClient n :=
  if p.state = .ready then (.pending, { p with state := .disconnecting, session := p.session.close.2 })
  else (.ok, { p with session := p.session.abort, tcp := p.tcp.close, state := .idle })

/-! ### The tag registry -/

def findFreeTag (p : PlcClient n) : Option (Fin n) := (List.finRange n).find? fun i => ¬ (p.slots i).inUse

def anyTagBusy (p : PlcClient n) : Bool :=
  (List.finRange n).any fun i => (p.slots i).inUse && (p.slots i).tag.status = .pending

/-- The slot of a handle, when it is the index of an allocated one. -/
def validHandle (p : PlcClient n) (handle : Int) : Option (Fin n) :=
  if h : 0 ≤ handle ∧ handle.toNat < n then
    if (p.slots ⟨handle.toNat, h.2⟩).inUse then some ⟨handle.toNat, h.2⟩ else none
  else none

/-- `createTag()`: a handle, or a negative status.  A null pointer is `none`. -/
def createTag (p : PlcClient n) (name : Option (List UInt8)) (elementCount : UInt32) : Int × PlcClient n :=
  match name with
  | none => (Status.invalidArg.toInt, p)
  | some name =>
    if name = [] ∨ name.length ≥ kMaxTagName then (Status.invalidArg.toInt, p)
    else
      match p.findFreeTag with
      | none => (Status.noMemory.toInt, p)
      | some h =>
        (h.val, p.setSlot h { p.slots h with name := name, elemCount := elementCount, prevStatus := .notReady,
                                             inUse := true })

def destroyTag (p : PlcClient n) (handle : Int) : Status × PlcClient n :=
  match p.validHandle handle with
  | none => (.invalidArg, p)
  | some i => (.ok, p.setSlot i { p.slots i with inUse := false })

/-! ### Tag operations -/

/-- The common part of `read()` and `write()`; `op` is the tag's own operation. -/
def startTag (p : PlcClient n) (handle : Int)
    (op : Tag → ExplicitMessage → TcpConnection → UInt32 → Option (List UInt8) → UInt32 →
      Status × Tag × ExplicitMessage) : Status × PlcClient n :=
  match p.validHandle handle with
  | none => (.invalidArg, p)
  | some i =>
    if p.state ≠ .ready then (.notReady, p)
    else if p.anyTagBusy then (.busy, p)
    else
      let s := p.slots i
      let (st, tag, msg) := op s.tag p.msg p.tcp p.session.handle (some s.name) s.elemCount
      (st, { p with msg := msg }.setSlot i { s with tag := tag })

def read (p : PlcClient n) (handle : Int) (timeoutMs now : UInt32) : Status × PlcClient n :=
  p.startTag handle fun tag msg conn session name elemCount => tag.read msg conn session name elemCount timeoutMs now

def write (p : PlcClient n) (handle : Int) (timeoutMs now : UInt32) : Status × PlcClient n :=
  p.startTag handle fun tag msg conn session name elemCount => tag.write msg conn session name elemCount timeoutMs now

def tagStatus (p : PlcClient n) (handle : Int) : Status :=
  match p.validHandle handle with
  | none => .invalidArg
  | some i => (p.slots i).tag.status

/-- `tag()`; a null pointer is `none`. -/
def tag (p : PlcClient n) (handle : Int) : Option Tag :=
  match p.validHandle handle with
  | none => none
  | some i => some (p.slots i).tag

def abortTag (p : PlcClient n) (handle : Int) : Status × PlcClient n :=
  match p.validHandle handle with
  | none => (.invalidArg, p)
  | some i =>
    let s := p.slots i
    let (tag, msg) := s.tag.abort p.msg
    (.ok, { p with msg := msg }.setSlot i { s with tag := tag, prevStatus := .notReady })

/-- The accessors a sketch calls through `tag(handle)`. -/
inductive Edit where
  | setDataType (type : UInt8)
  | setBool (off : Nat) (v : Bool)
  | setUint8 (off : Nat) (v : UInt8)
  | setUint16 (off : Nat) (v : UInt16)
  | setUint32 (off : Nat) (v : UInt32)
  | setUint64 (off : Nat) (v : UInt64)
  | setString (s : Option (List UInt8))
  deriving DecidableEq, Repr

def Edit.apply : Edit → Tag → Tag
  | .setDataType type, t => t.setDataType type
  | .setBool off v, t => t.setBool off v
  | .setUint8 off v, t => t.setUint8 off v
  | .setUint16 off v, t => t.setUint16 off v
  | .setUint32 off v, t => t.setUint32 off v
  | .setUint64 off v, t => t.setUint64 off v
  | .setString s, t => t.setString s

def editTag (p : PlcClient n) (handle : Int) (e : Edit) : PlcClient n :=
  match p.validHandle handle with
  | none => p
  | some i => p.setSlot i { p.slots i with tag := e.apply (p.slots i).tag }

/-! ### `poll()`

The third component of a result is the status a registered state callback is called with. -/

def pollEthernet (p : PlcClient n) (os : Platform) : Status × PlcClient n × Option Status :=
  let (st, eth) := p.eth.poll os.link
  let p := { p with eth := eth }
  if st = .ok then
    if p.wantConnect then
      let (cst, p) := { p with wantConnect := false, state := .connecting,
                               deadline := os.millis 0 + p.connectTimeoutMs }.dial os
      (cst, p, none)
    else (.ok, p, none)
  else if st = .error then (st, { p with state := .failed }, none)
  else (.pending, p, none)

def pollConnecting (p : PlcClient n) (os : Platform) : Status × PlcClient n × Option Status :=
  if expired (os.millis 0) p.deadline then (.timeout, { p with state := .failed }, none)
  else
    let (st, tcp) := p.tcp.poll os.poll (os.millis 1)
    let p := { p with tcp := tcp }
    if st = .ok then
      let (openSt, session) := p.session.open p.tcp (p.deadline - os.millis 2) (os.millis 3)
      if openSt ≠ .pending then (openSt, { p with session := session, state := .failed }, none)
      else (.pending, { p with session := session, state := .registering }, none)
    else if st = .timeout ∨ st = .error then (st, { p with state := .failed }, none)
    else (.pending, p, none)

def pollRegistering (p : PlcClient n) (os : Platform) : Status × PlcClient n × Option Status :=
  if expired (os.millis 0) p.deadline then (.timeout, { p with state := .failed }, none)
  else
    let (st, session, tcp) := p.session.poll p.tcp (os.millis 1) os
    let p := { p with session := session, tcp := tcp }
    if st = .ok then (.ok, { p with state := .ready }, if p.stateCallback then some .ok else none)
    else if st = .timeout ∨ st = .error then (st, { p with state := .failed }, none)
    else (.pending, p, none)

def pollDisconnecting (p : PlcClient n) (os : Platform) : Status × PlcClient n × Option Status :=
  let (st, session, tcp) := p.session.poll p.tcp (os.millis 0) os
  let p := { p with session := session, tcp := tcp }
  if st = .ok ∨ st = .closed then
    (.ok, { p with tcp := p.tcp.close, state := .idle }, if p.stateCallback then some .closed else none)
  else (.pending, p, none)

/-- `poll()` in the states where it runs to its end without touching a tag; `none` in `Ready`. -/
def pollState (p : PlcClient n) (os : Platform) : Option (Status × PlcClient n × Option Status) :=
  match p.state with
  | .ethernet => some (p.pollEthernet os)
  | .connecting => some (p.pollConnecting os)
  | .registering => some (p.pollRegistering os)
  | .ready => none
  | .disconnecting => some (p.pollDisconnecting os)
  | .failed => some (.error, p, none)
  | .idle => some (.notReady, p, none)

/-- `tags_[i].poll(msg_)` and the update of `tagPrevStatus_[i]` in the loop over the allocated slots. -/
def pollTag (p : PlcClient n) (i : Fin n) (os : Platform) : Status × PlcClient n :=
  let s := p.slots i
  let (st, tag, msg, tcp) := s.tag.poll p.msg p.tcp os
  (st, { p with msg := msg, tcp := tcp }.setSlot i { s with tag := tag, prevStatus := st })

/-- What follows the loop. -/
def loopEnd (p : PlcClient n) (disconnected : Bool) : Status × PlcClient n × Option Status :=
  if disconnected then
    (.closed, { p with session := p.session.abort, tcp := p.tcp.close, state := .idle },
      if p.stateCallback then some .closed else none)
  else (.ok, p, none)

def ready (p : PlcClient n) : Bool := p.state = .ready

/-! ### What the functions leave alone -/

@[simp] theorem setSlot_self (p : PlcClient n) (i : Fin n) (s : Slot) : (p.setSlot i s).slots i = s := by
  simp [setSlot]

theorem setSlot_of_ne (p : PlcClient n) {i j : Fin n} (s : Slot) (h : j ≠ i) :
    (p.setSlot i s).slots j = p.slots j := by
  simp [setSlot, h]

/-- A slot after `setSlot`, in one equation for a case split. -/
theorem setSlot_slots (p : PlcClient n) (i j : Fin n) (s : Slot) :
    (p.setSlot i s).slots j = if j = i then s else p.slots j := by
  by_cases h : j = i
  · rw [if_pos h, h, setSlot_self]
  · rw [if_neg h, setSlot_of_ne p s h]

/-- What holds of the new content of slot `i`, and of the other slots as they were, holds of every slot. -/
theorem setSlot_elim {P : Fin n → Slot → Prop} (p : PlcClient n) {i : Fin n} {s : Slot} (hs : P i s)
    (hp : ∀ j, j ≠ i → P j (p.slots j)) (j : Fin n) : P j ((p.setSlot i s).slots j) := by
  rw [setSlot_slots]
  by_cases hji : j = i
  · rw [if_pos hji, hji]
    exact hs
  · rw [if_neg hji]
    exact hp j hji

/-- `p` and `p'` agree on the tags, the shared message and the tag callback. -/
structure SameTags (p p' : PlcClient n) : Prop where
  slots : p'.slots = p.slots
  msg : p'.msg = p.msg
  tagCallback : p'.tagCallback = p.tagCallback

theorem begin_sameTags (p : PlcClient n) (began configured : Bool) : SameTags p (p.begin began configured).2 :=
  ⟨rfl, rfl, rfl⟩

theorem dial_sameTags (p : PlcClient n) (os : Platform) : SameTags p (p.dial os).2 := by
  unfold dial
  split <;> exact ⟨rfl, rfl, rfl⟩

theorem connect_sameTags (p : PlcClient n) (ip : IPAddress) (port : UInt16) (timeoutMs : UInt32) (os : Platform) :
    SameTags p (p.connect ip port timeoutMs os).2 := by
  unfold connect
  dsimp only
  split
  · obtain ⟨h1, h2, h3⟩ := dial_sameTags { p with
      remoteIp := ip, remotePort := port, connectTimeoutMs := timeoutMs, wantConnect := false,
      session := p.session.abort, tcp := p.tcp.close, state := .connecting, deadline := os.millis 0 + timeoutMs } os
    exact ⟨h1, h2, h3⟩
  · exact ⟨rfl, rfl, rfl⟩

theorem disconnect_sameTags (p : PlcClient n) : SameTags p p.disconnect.2 := by
  unfold disconnect
  split <;> exact ⟨rfl, rfl, rfl⟩

theorem loopEnd_sameTags (p : PlcClient n) (disconnected : Bool) : SameTags p (p.loopEnd disconnected).2.1 := by
  unfold loopEnd
  split <;> exact ⟨rfl, rfl, rfl⟩

theorem pollEthernet_sameTags (p : PlcClient n) (os : Platform) : SameTags p (p.pollEthernet os).2.1 := by
  unfold pollEthernet
  dsimp only
  split
  · split
    · obtain ⟨h1, h2, h3⟩ := dial_sameTags { p with
        eth := (p.eth.poll os.link).2, wantConnect := false, state := .connecting,
        deadline := os.millis 0 + p.connectTimeoutMs } os
      exact ⟨h1, h2, h3⟩
    · exact ⟨rfl, rfl, rfl⟩
  · split <;> exact ⟨rfl, rfl, rfl⟩

theorem pollConnecting_sameTags (p : PlcClient n) (os : Platform) : SameTags p (p.pollConnecting os).2.1 := by
  unfold pollConnecting
  dsimp only
  split
  · exact ⟨rfl, rfl, rfl⟩
  · split
    · split <;> exact ⟨rfl, rfl, rfl⟩
    · split <;> exact ⟨rfl, rfl, rfl⟩

theorem pollRegistering_sameTags (p : PlcClient n) (os : Platform) : SameTags p (p.pollRegistering os).2.1 := by
  unfold pollRegistering
  dsimp only
  split
  · exact ⟨rfl, rfl, rfl⟩
  · split
    · exact ⟨rfl, rfl, rfl⟩
    · split <;> exact ⟨rfl, rfl, rfl⟩

theorem pollDisconnecting_sameTags (p : PlcClient n) (os : Platform) : SameTags p (p.pollDisconnecting os).2.1 := by
  unfold pollDisconnecting
  dsimp only
  split <;> exact ⟨rfl, rfl, rfl⟩

theorem pollState_sameTags {p p' : PlcClient n} {os : Platform} {st : Status} {called : Option Status}
    (h : p.pollState os = some (st, p', called)) : SameTags p p' := by
  unfold pollState at h
  cases hs : p.state <;> rw [hs] at h <;> simp only [Option.some.injEq, reduceCtorEq] at h
  · cases h
    exact ⟨rfl, rfl, rfl⟩
  · have e := pollEthernet_sameTags p os
    rwa [h] at e
  · have e := pollConnecting_sameTags p os
    rwa [h] at e
  · have e := pollRegistering_sameTags p os
    rwa [h] at e
  · have e := pollDisconnecting_sameTags p os
    rwa [h] at e
  · cases h
    exact ⟨rfl, rfl, rfl⟩

theorem pollState_none {p : PlcClient n} {os : Platform} : p.pollState os = none ↔ p.state = .ready := by
  unfold pollState
  cases p.state <;> simp

/-! ### The slots -/

theorem validHandle_inUse {p : PlcClient n} {handle : Int} {i : Fin n} (h : p.validHandle handle = some i) :
    (p.slots i).inUse = true ∧ handle = i.val := by
  unfold validHandle at h
  split at h
  · rename_i hb
    split at h
    · rename_i hu
      obtain rfl := Option.some.inj h
      exact ⟨hu, (Int.toNat_of_nonneg hb.1).symm⟩
    · cases h
  · cases h

theorem validHandle_of_inUse {p : PlcClient n} {i : Fin n} (h : (p.slots i).inUse = true) :
    p.validHandle i.val = some i := by
  have hb : 0 ≤ (i.val : Int) ∧ (i.val : Int).toNat < n := ⟨by omega, by simp⟩
  have hi : (⟨(i.val : Int).toNat, hb.2⟩ : Fin n) = i := by simp
  unfold validHandle
  rw [dif_pos hb, hi, if_pos h]

theorem anyTagBusy_iff {p : PlcClient n} :
    p.anyTagBusy = true ↔ ∃ i, (p.slots i).inUse = true ∧ (p.slots i).tag.InFlight := by
  simp [anyTagBusy, ← Tag.status_pending]

theorem findFreeTag_some {p : PlcClient n} {i : Fin n} (h : p.findFreeTag = some i) : (p.slots i).inUse = false := by
  have e := List.find?_some h
  simpa using e

/-- A handle is no error number: it is the slot that was allocated. -/
theorem createTag_of_handle {p : PlcClient n} {name : Option (List UInt8)} {elementCount : UInt32} {i : Fin n}
    (h : (p.createTag name elementCount).1 = i.val) :
    ∃ bytes, name = some bytes ∧ bytes.length < kMaxTagName ∧ (p.createTag name elementCount).2 = p.setSlot i
      { p.slots i with name := bytes, elemCount := elementCount, prevStatus := .notReady, inUse := true } := by
  unfold createTag at h ⊢
  cases name with
  | none =>
    simp only [Status.toInt] at h
    omega
  | some bytes =>
    dsimp only at h ⊢
    split at h
    · simp only [Status.toInt] at h
      omega
    · rename_i hn
      rw [if_neg hn]
      cases hf : p.findFreeTag with
      | none =>
        rw [hf] at h
        simp only [Status.toInt] at h
        omega
      | some j =>
        rw [hf] at h
        have hij : j = i := Fin.ext (by dsimp only at h; omega)
        subst hij
        exact ⟨bytes, rfl, by omega, rfl⟩

/-! ### One turn of the loop -/

/-- `p'` is the client after the loop looked at slot `i`, whose `poll()` returned `st`. -/
inductive Turned (p : PlcClient n) (i : Fin n) (os : Platform) : Status → PlcClient n → Prop where
  | rest (h : ¬ (p.slots i).tag.InFlight) :
      Turned p i os (p.slots i).tag.status (p.setSlot i { p.slots i with prevStatus := (p.slots i).tag.status })
  | inFlight {mst st : Status} {tag : Tag} {msg : ExplicitMessage} {tcp : TcpConnection}
      (h : (p.slots i).tag.InFlight) (polled : p.msg.poll p.tcp os = (mst, msg, tcp))
      (advanced : Tag.Advanced (p.slots i).tag mst msg st tag) :
      Turned p i os st ({ p with msg := msg, tcp := tcp }.setSlot i { p.slots i with tag := tag, prevStatus := st })

theorem pollTag_cases (p : PlcClient n) (i : Fin n) (os : Platform) :
    Turned p i os (p.pollTag i os).1 (p.pollTag i os).2 := by
  obtain ⟨st, tag, msg, tcp, he⟩ : ∃ st tag msg tcp, (p.slots i).tag.poll p.msg p.tcp os = (st, tag, msg, tcp) :=
    ⟨_, _, _, _, rfl⟩
  by_cases h : (p.slots i).tag.InFlight
  · obtain ⟨mst, hm, hadv⟩ := Tag.poll_inFlight h he
    simp only [pollTag, he]
    exact .inFlight h hm hadv
  · rw [Tag.poll_rest h] at he
    cases he
    simp only [pollTag, Tag.poll_rest h]
    exact .rest h

theorem pollTag_tagCallback (p : PlcClient n) (i : Fin n) (os : Platform) :
    (p.pollTag i os).2.tagCallback = p.tagCallback := rfl

/-! ### Setters -/

theorem edit_state (e : Edit) (t : Tag) : (e.apply t).state = t.state := by
  have hset : ∀ off bs, (t.setBytes off bs).state = t.state := by
    intro off bs
    unfold Tag.setBytes
    split <;> rfl
  cases e with
  | setDataType type => rfl
  | setString s => cases s <;> rfl
  | setBool off v => exact hset _ _
  | setUint8 off v => exact hset _ _
  | setUint16 off v => exact hset _ _
  | setUint32 off v => exact hset _ _
  | setUint64 off v => exact hset _ _

theorem edit_dataType {e : Edit} (h : ∀ type, e ≠ .setDataType type) (t : Tag) :
    (e.apply t).dataType = t.dataType := by
  have hset : ∀ off bs, (t.setBytes off bs).dataType = t.dataType := by
    intro off bs
    unfold Tag.setBytes
    split <;> rfl
  cases e with
  | setDataType type => exact absurd rfl (h type)
  | setString s => cases s <;> rfl
  | setBool off v => exact hset _ _
  | setUint8 off v => exact hset _ _
  | setUint16 off v => exact hset _ _
  | setUint32 off v => exact hset _ _
  | setUint64 off v => exact hset _ _

theorem edit_inFlight (e : Edit) (t : Tag) : (e.apply t).InFlight ↔ t.InFlight := by
  rw [Tag.InFlight, Tag.InFlight, edit_state]

end PlcClient

end ControlLogix
