import ControlLogix.Cip
import ControlLogix.ExplicitMessage

/-!
# A Logix tag (`Tag`)

A typed data buffer and the Read Tag and Write Tag operations over a shared `ExplicitMessage`.  The buffer `data_` is
not initialised by the constructor, so a `Tag` starts with any bytes in it; `TagData` carries its size.  A
floating-point number is the number with its bits.

* `read_cases`, `write_cases`: an operation is started (`Started`), or nothing changes;
* `poll_rest`, `poll_inFlight`: what `poll()` does to a tag at rest and to one in flight (`Advanced`).
-/

namespace ControlLogix

open Bytes

def kMaxDataSize : Nat := 256

/-- The array `data_`. -/
structure TagData where
  bytes : List UInt8
  size : bytes.length = kMaxDataSize
  deriving DecidableEq, Repr

def TagData.put (d : TagData) (off : Nat) (bs : List UInt8) (h : off + bs.length ≤ kMaxDataSize) : TagData :=
  ⟨store d.bytes off bs, by rw [length_store (by rw [d.size]; exact h), d.size]⟩

def TagData.zero : TagData := ⟨List.replicate kMaxDataSize 0, by simp⟩

inductive Tag.State where
  | idle
  | reading
  | writing
  | done
  | failed
  deriving DecidableEq, Repr

structure Tag where
  state : Tag.State := .idle
  data : TagData
  dataLen : Nat := 0
  dataType : UInt8 := 0
  resultCode : UInt8 := 0
  deriving DecidableEq, Repr

namespace Tag

/-- A read or a write is going on. -/
def InFlight (t : Tag) : Prop := t.state = .reading ∨ t.state = .writing

instance (t : Tag) : Decidable t.InFlight := inferInstanceAs (Decidable (_ ∨ _))

def status (t : Tag) : Status :=
  match t.state with
  | .reading | .writing => .pending
  | .done => .ok
  | .failed => .error
  | .idle => .notReady

/-! ### The accessors -/

def InBounds (off size : Nat) : Prop := size ≤ kMaxDataSize ∧ off ≤ kMaxDataSize - size

instance (off size : Nat) : Decidable (InBounds off size) := inferInstanceAs (Decidable (_ ∧ _))

/-- `bs` stored at `off` when it fits, the common body of the setters. -/
def setBytes (t : Tag) (off : Nat) (bs : List UInt8) : Tag :=
  if h : InBounds off bs.length then { t with data := t.data.put off bs (by have := h.1; have := h.2; omega) } else t

def setBool (t : Tag) (off : Nat) (v : Bool) : Tag := t.setBytes off [if v then 1 else 0]

def setInt8 (t : Tag) (off : Nat) (v : Int8) : Tag := t.setBytes off [v.toUInt8]

def setInt16 (t : Tag) (off : Nat) (v : Int16) : Tag := t.setBytes off (putU16 v.toUInt16)

def setInt32 (t : Tag) (off : Nat) (v : Int32) : Tag := t.setBytes off (putU32 v.toUInt32)

def setInt64 (t : Tag) (off : Nat) (v : Int64) : Tag := t.setBytes off (putU64 v.toUInt64)

def setUint8 (t : Tag) (off : Nat) (v : UInt8) : Tag := t.setBytes off [v]

def setUint16 (t : Tag) (off : Nat) (v : UInt16) : Tag := t.setBytes off (putU16 v)

def setUint32 (t : Tag) (off : Nat) (v : UInt32) : Tag := t.setBytes off (putU32 v)

def setUint64 (t : Tag) (off : Nat) (v : UInt64) : Tag := t.setBytes off (putU64 v)

def setFloat32 (t : Tag) (off : Nat) (bits : UInt32) : Tag := t.setBytes off (putU32 bits)

def setFloat64 (t : Tag) (off : Nat) (bits : UInt64) : Tag := t.setBytes off (putU64 bits)

/-- What `decode` makes of the bytes at `off` when `size` bytes fit there, the common body of the getters. -/
def getBytes {α : Type} (t : Tag) (off size : Nat) (decode : List UInt8 → α) (otherwise : α) : α :=
  if InBounds off size then decode (t.data.bytes.drop off) else otherwise

def getBool (t : Tag) (off : Nat) : Bool := t.getBytes off 1 (fun p => peek p 0 != 0) false

def getInt8 (t : Tag) (off : Nat) : Int8 := t.getBytes off 1 (fun p => (peek p 0).toInt8) 0

def getInt16 (t : Tag) (off : Nat) : Int16 := t.getBytes off 2 (fun p => (getU16 p).toInt16) 0

def getInt32 (t : Tag) (off : Nat) : Int32 := t.getBytes off 4 (fun p => (getU32 p).toInt32) 0

def getInt64 (t : Tag) (off : Nat) : Int64 := t.getBytes off 8 (fun p => (getU64 p).toInt64) 0

def getUint8 (t : Tag) (off : Nat) : UInt8 := t.getBytes off 1 (fun p => peek p 0) 0

def getUint16 (t : Tag) (off : Nat) : UInt16 := t.getBytes off 2 getU16 0

def getUint32 (t : Tag) (off : Nat) : UInt32 := t.getBytes off 4 getU32 0

def getUint64 (t : Tag) (off : Nat) : UInt64 := t.getBytes off 8 getU64 0

/-- The bits of the number. -/
def getFloat32 (t : Tag) (off : Nat) : UInt32 := t.getBytes off 4 getU32 0

/-- The bits of the number. -/
def getFloat64 (t : Tag) (off : Nat) : UInt64 := t.getBytes off 8 getU64 0

/-- `getString()`: the number of characters, and the contents of the buffer of the caller; `none` is a null
pointer. -/
def getString (t : Tag) (buf : Option (List UInt8)) (bufLen : Nat) : Nat × Option (List UInt8) :=
  match buf with
  | none => (0, none)
  | some buf =>
    if t.dataLen < 4 ∨ bufLen = 0 then (0, some buf)
    else
      let len := (getU32 t.data.bytes).toNat
      let n := if len < t.dataLen - 4 then len else t.dataLen - 4
      let n := if n > bufLen - 1 then bufLen - 1 else n
      (n, some (store buf 0 ((t.data.bytes.drop 4).take n ++ [0])))

def setDataType (t : Tag) (type : UInt8) : Tag := { t with dataType := type }

/-- `setString()`; `none` is a null pointer. -/
def setString (t : Tag) (s : Option (List UInt8)) : Tag :=
  match s with
  | none => t
  | some s =>
    let len := min s.length (kMaxDataSize - 4)
    { t with
      data := t.data.put 0 (putU32 (UInt32.ofNat len) ++ s.take len) (by simp [kMaxDataSize, len]; omega)
      dataLen := 4 + len }

/-! ### Starting an operation -/

def startRead (t : Tag) (msg : ExplicitMessage) (conn : TcpConnection) (sessionHandle : UInt32) (name : List UInt8)
    (elementCount timeoutMs now : UInt32) : Status × Tag × ExplicitMessage :=
  let path := appendSymbolic name
  let count := putU16 elementCount.toUInt16
  match msg.send conn sessionHandle TagService.read.code (some path) path.length (some count) count.length
      timeoutMs now with
  | (.pending, msg) => (.pending, { t with dataLen := 0, resultCode := 0, state := .reading }, msg)
  | (st, msg) => (st, t, msg)

/-- The data length `startWrite()` derives from the data type; `none` is `return Status::InvalidArg`. -/
def writeLength (t : Tag) (elementCount : UInt32) : Option Nat :=
  if t.dataType = DataType.string.code then
    let strLen := (getU32 t.data.bytes).toNat
    if strLen > kMaxDataSize - 4 then none else some (4 + strLen)
  else
    let elemSize := dataTypeElementSize (DataType.ofCode t.dataType)
    if elemSize = 0 ∨ elementCount.toNat > kMaxDataSize / elemSize then none else some (elementCount.toNat * elemSize)

def startWrite (t : Tag) (msg : ExplicitMessage) (conn : TcpConnection) (sessionHandle : UInt32) (name : List UInt8)
    (elementCount timeoutMs now : UInt32) : Status × Tag × ExplicitMessage :=
  match t.writeLength elementCount with
  | none => (.invalidArg, t, msg)
  | some dataLen =>
    let path := appendSymbolic name
    let wdata := putU16 elementCount.toUInt16 ++ putU16 t.dataType.toUInt16 ++ t.data.bytes.take dataLen
    match msg.send conn sessionHandle TagService.write.code (some path) path.length (some wdata) (4 + dataLen)
        timeoutMs now with
    | (.pending, msg) => (.pending, { t with state := .writing }, msg)
    | (st, msg) => (st, t, msg)

def read (t : Tag) (msg : ExplicitMessage) (conn : TcpConnection) (sessionHandle : UInt32)
    (name : Option (List UInt8)) (elementCount timeoutMs now : UInt32) : Status × Tag × ExplicitMessage :=
  match name with
  | none => (.invalidArg, t, msg)
  | some name =>
    if name.length > kMaxSymbolicName then (.invalidArg, t, msg)
    else if t.state = .reading ∨ t.state = .writing then (.busy, t, msg)
    else t.startRead msg conn sessionHandle name elementCount timeoutMs now

def write (t : Tag) (msg : ExplicitMessage) (conn : TcpConnection) (sessionHandle : UInt32)
    (name : Option (List UInt8)) (elementCount timeoutMs now : UInt32) : Status × Tag × ExplicitMessage :=
  match name with
  | none => (.invalidArg, t, msg)
  | some name =>
    if name.length > kMaxSymbolicName then (.invalidArg, t, msg)
    else if t.dataType = 0 then (.notReady, t, msg)
    else if t.state = .reading ∨ t.state = .writing then (.busy, t, msg)
    else t.startWrite msg conn sessionHandle name elementCount timeoutMs now

/-! ### Advancing and dropping an operation -/

/-- The last part of `poll()`: the exchange succeeded and the result code is 0. -/
def accept (t : Tag) (msg : ExplicitMessage) : Tag :=
  if t.state = .reading ∧ 2 ≤ msg.dataLen then
    let n := min (msg.dataLen - 2) kMaxDataSize
    { t with
      dataType := (getU16 msg.data).toUInt8
      data := t.data.put 0 ((msg.data.drop 2).take n)
        (by rw [Nat.zero_add]; exact Nat.le_trans (List.length_take_le n _) (Nat.min_le_right _ _))
      dataLen := n
      state := .done }
  else { t with state := .done }

def poll (t : Tag) (msg : ExplicitMessage) (conn : TcpConnection) (os : Platform) :
    Status × Tag × ExplicitMessage × TcpConnection :=
  if t.state ≠ .reading ∧ t.state ≠ .writing then
    match t.state with
    | .done => (.ok, t, msg, conn)
    | .failed => (.error, t, msg, conn)
    | _ => (.notReady, t, msg, conn)
  else
    match msg.poll conn os with
    | (.pending, msg, conn) => (.pending, t, msg, conn)
    | (.ok, msg, conn) =>
      let t : Tag := { t with resultCode := msg.resultCode }
      if t.resultCode ≠ 0 then (.error, { t with state := .failed }, msg, conn)
      else (.ok, t.accept msg, msg, conn)
    | (st, msg, conn) => (st, { t with state := .failed }, msg, conn)

/-- Only the tag that uses the shared message aborts it. -/
def abort (t : Tag) (msg : ExplicitMessage) : Tag × ExplicitMessage :=
  ({ t with state := .idle, dataLen := 0 }, if t.state = .reading ∨ t.state = .writing then msg.abort else msg)

/-! ### What the operations do -/

theorem status_pending {t : Tag} : t.status = .pending ↔ t.InFlight := by
  unfold status InFlight
  cases t.state <;> simp

theorem status_notReady {t : Tag} : t.status = .notReady ↔ t.state = .idle := by
  unfold status
  cases t.state <;> simp

/-- `t'` and `msg'` are `t` and `msg` after an operation on the name `name` was started. -/
structure Started (t : Tag) (msg : ExplicitMessage) (conn : TcpConnection) (sessionHandle : UInt32)
    (name : List UInt8) (timeoutMs now : UInt32) (t' : Tag) (msg' : ExplicitMessage) : Prop where
  rest : ¬ t.InFlight
  inFlight : t'.InFlight
  kept : t'.data = t.data ∧ t'.dataType = t.dataType
  bounded : name.length ≤ kMaxSymbolicName
  sent : ∃ service data, data.length ≤ 4 + kMaxDataSize ∧ ExplicitMessage.Sent msg conn sessionHandle service
    (some (appendSymbolic name)) (appendSymbolic name).length (some data) data.length timeoutMs now msg'

section Start

variable {t t' : Tag} {msg msg' : ExplicitMessage} {conn : TcpConnection} {sessionHandle : UInt32}
  {name : List UInt8} {elementCount timeoutMs now : UInt32} {st : Status}

theorem read_cases (h : t.read msg conn sessionHandle (some name) elementCount timeoutMs now = (st, t', msg')) :
    (st = .pending ∧ Started t msg conn sessionHandle name timeoutMs now t' msg') ∨
      (st ≠ .pending ∧ t' = t ∧ msg' = msg) := by
  unfold read at h
  dsimp only at h
  split at h
  · simp only [Prod.mk.injEq] at h
    obtain ⟨rfl, rfl, rfl⟩ := h
    exact Or.inr ⟨nofun, rfl, rfl⟩
  · rename_i hn
    split at h
    · simp only [Prod.mk.injEq] at h
      obtain ⟨rfl, rfl, rfl⟩ := h
      exact Or.inr ⟨nofun, rfl, rfl⟩
    · rename_i hr
      unfold startRead at h
      dsimp only at h
      split at h
      · rename_i msg₁ hs
        have hs := ExplicitMessage.send_accepted hs
        simp only [Prod.mk.injEq] at h
        obtain ⟨rfl, rfl, rfl⟩ := h
        refine Or.inl ⟨rfl, ⟨hr, Or.inl rfl, ⟨rfl, rfl⟩, by omega, _, _, ?_, hs⟩⟩
        simp [kMaxDataSize]
      · rename_i st₁ msg₁ hp hs
        have hs := ExplicitMessage.send_refused hs (by simpa using hp)
        simp only [Prod.mk.injEq] at h
        obtain ⟨rfl, rfl, rfl⟩ := h
        exact Or.inr ⟨by simpa using hp, rfl, hs⟩

theorem writeLength_le {n : Nat} (h : t.writeLength elementCount = some n) : n ≤ kMaxDataSize := by
  unfold writeLength at h
  dsimp only at h
  split at h
  · split at h
    · cases h
    · simp only [Option.some.injEq] at h
      subst h
      simp only [kMaxDataSize] at *
      omega
  · split at h
    · cases h
    · rename_i hc
      simp only [Option.some.injEq] at h
      subst h
      have hc := not_or.1 hc
      have h1 : elementCount.toNat ≤ kMaxDataSize / dataTypeElementSize (DataType.ofCode t.dataType) := by omega
      exact Nat.le_trans (Nat.mul_le_mul_right _ h1) (Nat.div_mul_le_self _ _)

theorem write_cases (h : t.write msg conn sessionHandle (some name) elementCount timeoutMs now = (st, t', msg')) :
    (st = .pending ∧ t.dataType ≠ 0 ∧ Started t msg conn sessionHandle name timeoutMs now t' msg') ∨
      (st ≠ .pending ∧ t' = t ∧ msg' = msg) := by
  unfold write at h
  dsimp only at h
  split at h
  · simp only [Prod.mk.injEq] at h
    obtain ⟨rfl, rfl, rfl⟩ := h
    exact Or.inr ⟨nofun, rfl, rfl⟩
  · rename_i hn
    split at h
    · simp only [Prod.mk.injEq] at h
      obtain ⟨rfl, rfl, rfl⟩ := h
      exact Or.inr ⟨nofun, rfl, rfl⟩
    · rename_i hd
      split at h
      · simp only [Prod.mk.injEq] at h
        obtain ⟨rfl, rfl, rfl⟩ := h
        exact Or.inr ⟨nofun, rfl, rfl⟩
      · rename_i hr
        unfold startWrite at h
        split at h
        · simp only [Prod.mk.injEq] at h
          obtain ⟨rfl, rfl, rfl⟩ := h
          exact Or.inr ⟨nofun, rfl, rfl⟩
        · rename_i dataLen hl
          have hle := writeLength_le hl
          have hlen : (putU16 elementCount.toUInt16 ++ putU16 t.dataType.toUInt16 ++
              t.data.bytes.take dataLen).length = 4 + dataLen := by
            have := t.data.size
            simp
            omega
          dsimp only at h
          split at h
          · rename_i msg₁ hs
            have hs := ExplicitMessage.send_accepted hs
            simp only [Prod.mk.injEq] at h
            obtain ⟨rfl, rfl, rfl⟩ := h
            refine Or.inl ⟨rfl, hd, ⟨hr, Or.inr rfl, ⟨rfl, rfl⟩, by omega, _, _, ?_, hlen ▸ hs⟩⟩
            omega
          · rename_i st₁ msg₁ hp hs
            have hs := ExplicitMessage.send_refused hs (by simpa using hp)
            simp only [Prod.mk.injEq] at h
            obtain ⟨rfl, rfl, rfl⟩ := h
            exact Or.inr ⟨by simpa using hp, rfl, hs⟩

/-- A tag at rest whose name fits is refused as busy exactly when the shared message is in flight. -/
theorem read_busy_iff (hr : ¬ t.InFlight) (hn : name.length ≤ kMaxSymbolicName) :
    (t.read msg conn sessionHandle (some name) elementCount timeoutMs now).1 = .busy ↔ msg.InFlight := by
  have hread : t.read msg conn sessionHandle (some name) elementCount timeoutMs now =
      t.startRead msg conn sessionHandle name elementCount timeoutMs now := by
    unfold read
    dsimp only
    rw [if_neg (by omega)]
    exact if_neg hr
  rw [hread]
  unfold startRead
  dsimp only
  split
  · rename_i msg₁ hs
    have hs := (ExplicitMessage.send_accepted hs).free
    simpa using hs
  · rename_i st₁ msg₁ hp hs
    constructor
    · intro he
      simp only at he
      subst he
      rcases ExplicitMessage.send_cases hs with ⟨h', -⟩ | ⟨-, ⟨-, h'⟩ | ⟨h', -⟩ | h'⟩
      · cases h'
      · exact h'
      · cases h'
      · cases h'
    · intro hm
      have hb := (if_pos hm).symm.trans hs
      simp only [Prod.mk.injEq] at hb
      exact hb.1.symm

end Start

theorem poll_rest {t : Tag} (h : ¬ t.InFlight) (msg : ExplicitMessage) (conn : TcpConnection) (os : Platform) :
    t.poll msg conn os = (t.status, t, msg, conn) := by
  have hr : t.state ≠ .reading ∧ t.state ≠ .writing := not_or.1 h
  unfold poll status
  rw [if_pos hr]
  cases hs : t.state
  · rfl
  · exact absurd hs hr.1
  · exact absurd hs hr.2
  · rfl
  · rfl

/-- How a tag in flight stands once the shared message answered `mst` and became `msg'`. -/
inductive Advanced (t : Tag) (mst : Status) (msg' : ExplicitMessage) : Status → Tag → Prop where
  | pending (h : mst = .pending) : Advanced t mst msg' .pending t
  | broke (h : mst ≠ .pending ∧ mst ≠ .ok) : Advanced t mst msg' mst { t with state := .failed }
  | refused (h : mst = .ok) (hc : msg'.resultCode ≠ 0) :
      Advanced t mst msg' .error { t with resultCode := msg'.resultCode, state := .failed }
  | done (h : mst = .ok) (hc : msg'.resultCode = 0) :
      Advanced t mst msg' .ok ({ t with resultCode := msg'.resultCode }.accept msg')

theorem poll_inFlight {t t' : Tag} {msg msg' : ExplicitMessage} {conn conn' : TcpConnection} {os : Platform}
    {st : Status} (hin : t.InFlight) (h : t.poll msg conn os = (st, t', msg', conn')) :
    ∃ mst, msg.poll conn os = (mst, msg', conn') ∧ Advanced t mst msg' st t' := by
  have hr : ¬ (t.state ≠ .reading ∧ t.state ≠ .writing) := fun h' => hin.elim h'.1 h'.2
  unfold poll at h
  rw [if_neg hr] at h
  split at h
  · rename_i msg₁ conn₁ hm
    simp only [Prod.mk.injEq] at h
    obtain ⟨rfl, rfl, rfl, rfl⟩ := h
    exact ⟨_, hm, .pending rfl⟩
  · rename_i msg₁ conn₁ hm
    dsimp only at h
    split at h
    · rename_i hc
      simp only [Prod.mk.injEq] at h
      obtain ⟨rfl, rfl, rfl, rfl⟩ := h
      exact ⟨_, hm, .refused rfl hc⟩
    · rename_i hc
      simp only [Prod.mk.injEq] at h
      obtain ⟨rfl, rfl, rfl, rfl⟩ := h
      exact ⟨_, hm, .done rfl (by simpa using hc)⟩
  · rename_i mst msg₁ conn₁ hp ho hm
    simp only [Prod.mk.injEq] at h
    obtain ⟨rfl, rfl, rfl, rfl⟩ := h
    exact ⟨_, hm, .broke ⟨by simpa using hp, by simpa using ho⟩⟩

@[simp] theorem accept_state (t : Tag) (msg : ExplicitMessage) : (t.accept msg).state = .done := by
  unfold accept
  split <;> rfl

/-- The value a read takes from the response. -/
theorem accept_value {t : Tag} {m : ExplicitMessage} {data : List UInt8} (hr : t.state = .reading)
    (hdata : m.data = data) (hlen : m.dataLen = data.length) (h2 : 2 ≤ data.length) :
    (t.accept m).dataType = (getU16 data).toUInt8 ∧
      (t.accept m).dataLen = min (data.length - 2) kMaxDataSize ∧
      (t.accept m).data.bytes.take (t.accept m).dataLen = (data.drop 2).take (t.accept m).dataLen := by
  subst hdata
  unfold accept
  rw [if_pos ⟨hr, hlen ▸ h2⟩]
  have hmin : min (m.dataLen - 2) kMaxDataSize = min (m.data.length - 2) kMaxDataSize := by rw [hlen]
  refine ⟨rfl, hmin, ?_⟩
  have hput := take_store ((m.data.drop 2).take (min (m.dataLen - 2) kMaxDataSize)) (Nat.zero_le t.data.bytes.length)
  have hn : ((m.data.drop 2).take (min (m.dataLen - 2) kMaxDataSize)).length = min (m.dataLen - 2) kMaxDataSize := by
    rw [List.length_take, List.length_drop]
    omega
  rw [hn, Nat.zero_add, List.take_zero, List.nil_append] at hput
  exact hput

/-- A tag stays in flight exactly as long as `poll()` returns `Pending`. -/
theorem Advanced.inFlight_iff {t t' : Tag} {mst st : Status} {msg' : ExplicitMessage} (h : Advanced t mst msg' st t')
    (hin : t.InFlight) : t'.InFlight ↔ st = .pending := by
  cases h with
  | pending h => simp [hin]
  | broke h => simp [InFlight, h.1]
  | refused h hc => simp [InFlight]
  | done h hc => simp [InFlight]

@[simp] theorem abort_fst (t : Tag) (msg : ExplicitMessage) :
    (t.abort msg).1 = { t with state := .idle, dataLen := 0 } := rfl

theorem abort_rest {t : Tag} (h : ¬ t.InFlight) (msg : ExplicitMessage) : (t.abort msg).2 = msg :=
  if_neg h

theorem abort_inFlight {t : Tag} (h : t.InFlight) (msg : ExplicitMessage) : (t.abort msg).2 = msg.abort :=
  if_pos h

end Tag

end ControlLogix
