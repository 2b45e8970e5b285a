import ControlLogix.Operations

/-!
# What of an older value a read leaves visible

`startRead()` sets `dataLen_` to 0, and the getters look at the buffer only.  So two tags that made the same read
differ where their buffers differed before, unless the reply has overwritten the place.

* `sameView_iff`: two tags look the same when their buffers and lengths are the same;
* `Ends.leaves`: what a read leaves in the buffer, by induction on the calls of `poll()`;
* `string_fresh`: the length and the string are those of the last reply;
* `stale_iff`: the tags look the same if and only if they agreed where the reply has not written.
-/

namespace ControlLogix

open Bytes

namespace Tag

/-! ### What can be seen of a tag -/

/-- Whatever a sketch asks of the value, both tags give the same answer. -/
structure SameView (a b : Tag) : Prop where
  getBool : ∀ off, a.getBool off = b.getBool off
  getInt8 : ∀ off, a.getInt8 off = b.getInt8 off
  getInt16 : ∀ off, a.getInt16 off = b.getInt16 off
  getInt32 : ∀ off, a.getInt32 off = b.getInt32 off
  getInt64 : ∀ off, a.getInt64 off = b.getInt64 off
  getUint8 : ∀ off, a.getUint8 off = b.getUint8 off
  getUint16 : ∀ off, a.getUint16 off = b.getUint16 off
  getUint32 : ∀ off, a.getUint32 off = b.getUint32 off
  getUint64 : ∀ off, a.getUint64 off = b.getUint64 off
  getFloat32 : ∀ off, a.getFloat32 off = b.getFloat32 off
  getFloat64 : ∀ off, a.getFloat64 off = b.getFloat64 off
  getString : ∀ buf bufLen, a.getString buf bufLen = b.getString buf bufLen
  dataLength : a.dataLen = b.dataLen

variable {a b : Tag}

/-- The getters look at the buffer only. -/
theorem getBytes_congr {α : Type} (h : a.data.bytes = b.data.bytes) (off size : Nat) (decode : List UInt8 → α)
    (otherwise : α) : a.getBytes off size decode otherwise = b.getBytes off size decode otherwise := by
  rw [getBytes, getBytes, h]

theorem getUint8_eq {off : Nat} (h : off < kMaxDataSize) : some (a.getUint8 off) = a.data.bytes[off]? := by
  have hk : kMaxDataSize = 256 := rfl
  have hin : InBounds off 1 := ⟨by omega, by omega⟩
  have hlt : off < a.data.bytes.length := by
    rw [a.data.size]
    exact h
  rw [getUint8, getBytes, if_pos hin, peek, List.getD_eq_getElem?_getD, List.getElem?_drop, Nat.add_zero,
    List.getElem?_eq_getElem hlt, Option.getD_some]

/-- `getString()` looks at the bytes within the length only. -/
theorem getString_congr (hlen : a.dataLen = b.dataLen)
    (h : a.data.bytes.take a.dataLen = b.data.bytes.take a.dataLen) (buf : Option (List UInt8)) (bufLen : Nat) :
    a.getString buf bufLen = b.getString buf bufLen := by
  cases buf with
  | none => rfl
  | some buf =>
    unfold getString
    dsimp only
    rw [← hlen]
    by_cases hshort : a.dataLen < 4 ∨ bufLen = 0
    · rw [if_pos hshort, if_pos hshort]
    · have hprefix : getU32 a.data.bytes = getU32 b.data.bytes := by
        have htake := congrArg (List.take 4) h
        rw [List.take_take, List.take_take, Nat.min_eq_left (by omega)] at htake
        exact getU32_congr htake
      have hchars : ∀ n, n ≤ a.dataLen - 4 → (a.data.bytes.drop 4).take n = (b.data.bytes.drop 4).take n := by
        intro n hn
        exact take_drop_congr h (by omega)
      rw [if_neg hshort, if_neg hshort, hprefix, hchars]
      split
      · split <;> omega
      · split <;> omega

theorem sameView_iff : SameView a b ↔ a.data.bytes = b.data.bytes ∧ a.dataLen = b.dataLen := by
  constructor
  · -- `getUint8()` alone tells two buffers apart
    intro h
    refine ⟨List.ext_getElem? fun i => ?_, h.dataLength⟩
    by_cases hi : i < kMaxDataSize
    · rw [← getUint8_eq hi, ← getUint8_eq hi, h.getUint8]
    · have ha := a.data.size
      have hb := b.data.size
      rw [List.getElem?_eq_none (by omega), List.getElem?_eq_none (by omega)]
  · rintro ⟨hbytes, hlen⟩
    have hget : ∀ {α : Type} (size : Nat) (decode : List UInt8 → α) (otherwise : α) (off : Nat),
        a.getBytes off size decode otherwise = b.getBytes off size decode otherwise := by
      intro α size decode otherwise off
      exact getBytes_congr hbytes off size decode otherwise
    exact ⟨hget _ _ _, hget _ _ _, hget _ _ _, hget _ _ _, hget _ _ _, hget _ _ _, hget _ _ _, hget _ _ _, hget _ _ _,
      hget _ _ _, hget _ _ _, getString_congr hlen (by rw [hbytes]), hlen⟩

/-! ### A read and its end -/

/-- How an exchange ends. -/
inductive Ending where
  | replied (code : UInt8) (data : List UInt8)
  | broke (st : Status)
  | aborted
  deriving DecidableEq, Repr

/-- The bytes that a read with this ending stores. -/
def Ending.value : Ending → List UInt8
  | .replied code data => if code = 0 ∧ 2 ≤ data.length then (data.drop 2).take kMaxDataSize else []
  | .broke _ | .aborted => []

/-- An operation in flight ends, after any number of calls of `poll()` that return `Pending`, and leaves the tag
`t'`. -/
inductive Ends : Tag → ExplicitMessage → Ending → Tag → Prop where
  | pending {t t₁ t' : Tag} {msg msg₁ : ExplicitMessage} {conn conn₁ : TcpConnection} {os : Platform} {e : Ending}
      (h : t.poll msg conn os = (.pending, t₁, msg₁, conn₁)) (rest : Ends t₁ msg₁ e t') : Ends t msg e t'
  | replied {t t' : Tag} {msg msg' : ExplicitMessage} {conn conn' : TcpConnection} {os : Platform} {st : Status}
      {data : List UInt8} (h : t.poll msg conn os = (st, t', msg', conn'))
      (hm : msg.poll conn os = (.ok, msg', conn'))
      (hdata : msg'.data = data) (hlen : msg'.dataLen = data.length) : Ends t msg (.replied msg'.resultCode data) t'
  | broke {t t' : Tag} {msg msg' : ExplicitMessage} {conn conn' : TcpConnection} {os : Platform} {st : Status}
      (h : t.poll msg conn os = (st, t', msg', conn')) (hm : msg.poll conn os = (st, msg', conn'))
      (hst : st ≠ .pending ∧ st ≠ .ok) : Ends t msg (.broke st) t'
  | aborted (t : Tag) (msg : ExplicitMessage) : Ends t msg .aborted (t.abort msg).1

/-- A read of `elementCount` elements under the name is accepted, and ends. -/
def ReadExchange (name : List UInt8) (elementCount : UInt32) (t : Tag) (e : Ending) (t' : Tag) : Prop :=
  ∃ msg conn sessionHandle timeoutMs now t₁ msg₁,
    t.read msg conn sessionHandle (some name) elementCount timeoutMs now = (.pending, t₁, msg₁) ∧ Ends t₁ msg₁ e t'

/-- What a read that ends with `e` leaves of the buffer `before`. -/
structure Leaves (before : List UInt8) (e : Ending) (t' : Tag) : Prop where
  bytes : t'.data.bytes = store before 0 e.value
  length : t'.dataLen = e.value.length

/-- What a reply leaves when the result code is 0. -/
private theorem leaves_accept {t : Tag} {msg : ExplicitMessage} {before data : List UInt8} (hr : t.state = .reading)
    (h0 : t.dataLen = 0) (hbefore : before = t.data.bytes) (hdata : msg.data = data)
    (hlen : msg.dataLen = data.length) : Leaves before (.replied 0 data) (t.accept msg) := by
  subst hdata hbefore
  unfold accept
  by_cases h2 : 2 ≤ msg.dataLen
  · have hvalue : (Ending.replied 0 msg.data).value = (msg.data.drop 2).take
      (min (msg.dataLen - 2) kMaxDataSize) := by
      have hall : (msg.data.drop 2).take (msg.dataLen - 2) = msg.data.drop 2 := by
        rw [hlen, ← List.length_drop, List.take_length]
      rw [Ending.value, if_pos ⟨rfl, hlen ▸ h2⟩, Nat.min_comm, ← List.take_take, hall]
    rw [if_pos ⟨hr, h2⟩]
    refine ⟨?_, ?_⟩
    · rw [hvalue]
      rfl
    · rw [hvalue, List.length_take, List.length_drop, ← hlen]
      show min (msg.dataLen - 2) kMaxDataSize = _
      omega
  · have hvalue : (Ending.replied 0 msg.data).value = [] := by
      rw [Ending.value, if_neg (fun h => h2 (hlen ▸ h.2))]
    rw [if_neg (fun h => h2 h.2)]
    refine ⟨?_, ?_⟩
    · rw [hvalue, store_nil]
    · rw [hvalue]
      exact h0

theorem Ends.leaves {t t' : Tag} {msg : ExplicitMessage} {e : Ending} (h : Ends t msg e t') (hr : t.state = .reading)
    (h0 : t.dataLen = 0) : Leaves t.data.bytes e t' := by
  -- over the calls of `poll()`: one that returns `Pending` leaves the tag reading, with the buffer as it is
  induction h with
  | pending h rest ih =>
    obtain ⟨mst, -, hadv⟩ := poll_inFlight (Or.inl hr) h
    cases hadv with
    | pending => exact ih hr h0
    | broke hne => exact absurd rfl hne.1
  | replied h hm hdata hlen =>
    obtain ⟨mst, hpoll, hadv⟩ := poll_inFlight (Or.inl hr) h
    rw [hm] at hpoll
    simp only [Prod.mk.injEq] at hpoll
    obtain ⟨rfl, -, -⟩ := hpoll
    cases hadv with
    | pending hp => cases hp
    | broke hne => exact absurd rfl hne.2
    | refused hok hcode =>
      refine ⟨?_, ?_⟩
      · rw [Ending.value, if_neg (fun h => hcode h.1), store_nil]
      · rw [Ending.value, if_neg (fun h => hcode h.1)]
        exact h0
    | done hok hcode =>
      rw [hcode]
      exact leaves_accept hr h0 rfl hdata hlen
  | broke h hm hst =>
    obtain ⟨mst, hpoll, hadv⟩ := poll_inFlight (Or.inl hr) h
    rw [hm] at hpoll
    simp only [Prod.mk.injEq] at hpoll
    obtain ⟨rfl, -, -⟩ := hpoll
    cases hadv with
    | pending hp => exact absurd rfl hst.1
    | broke hne => exact ⟨(store_nil _ _).symm, h0⟩
    | refused hok hcode => exact ⟨(store_nil _ _).symm, h0⟩
    | done hok hcode => exact absurd rfl hst.2
  | aborted t msg => exact ⟨(store_nil _ _).symm, rfl⟩

/-! ### The same read on two tags -/

section Reads

variable {a' b' : Tag} {name : List UInt8} {elementCount : UInt32} {e : Ending}

theorem ReadExchange.leaves (h : ReadExchange name elementCount a e a') : Leaves a.data.bytes e a' := by
  obtain ⟨msg, conn, sessionHandle, timeoutMs, now, a₁, msg₁, hread, hends⟩ := h
  unfold read at hread
  dsimp only at hread
  split at hread
  · simp only [Prod.mk.injEq] at hread
    cases hread.1
  · split at hread
    · simp only [Prod.mk.injEq] at hread
      cases hread.1
    · unfold startRead at hread
      dsimp only at hread
      split at hread
      · simp only [Prod.mk.injEq, true_and] at hread
        obtain ⟨rfl, rfl⟩ := hread
        exact hends.leaves rfl rfl
      · rename_i hne heq
        simp only [Prod.mk.injEq] at hread
        exact absurd hread.1 (by simpa using hne)

/-- The part of the buffer that a read has written. -/
theorem Leaves.written {before : List UInt8} {t : Tag} (h : Leaves before e t) :
    t.data.bytes.take e.value.length = e.value := by
  rw [h.bytes, store, List.take_zero, List.nil_append, List.take_left]

/-- The length and the string are those of the last reply, whatever the buffers were. -/
theorem string_fresh (ha : ReadExchange name elementCount a e a') (hb : ReadExchange name elementCount b e b') :
    a'.dataLen = b'.dataLen ∧ ∀ buf bufLen, a'.getString buf bufLen = b'.getString buf bufLen := by
  have hlen : a'.dataLen = b'.dataLen := by rw [ha.leaves.length, hb.leaves.length]
  refine ⟨hlen, getString_congr hlen ?_⟩
  rw [ha.leaves.length, ha.leaves.written, hb.leaves.written]

/-- Two tags at rest on which the same read ends the same way look the same afterwards if and only if their buffers
agreed before at every place that the reply has not overwritten. -/
theorem stale_iff (ha : ReadExchange name elementCount a e a') (hb : ReadExchange name elementCount b e b') :
    SameView a' b' ↔ a.data.bytes.drop e.value.length = b.data.bytes.drop e.value.length := by
  have hstore : ∀ before : List UInt8, store before 0 e.value = e.value ++ before.drop e.value.length := by
    intro before
    rw [store, List.take_zero, List.nil_append, Nat.zero_add]
  rw [sameView_iff, ha.leaves.bytes, hb.leaves.bytes, hstore, hstore, List.append_cancel_left_eq]
  constructor
  · exact fun h => h.1
  · exact fun h => ⟨h, (string_fresh ha hb).1⟩

end Reads

/-- A tag that has read the DINT 1 before. -/
def usedTag : Tag :=
  { state := .done, data := TagData.zero.put 0 [1, 0, 0, 0] (by decide), dataLen := 4, dataType := 0xC4 }

/-- The reply to a read of the DINT 7. -/
def sevenReply : Reply := { exchange := 1, service := 0xCC, data := [0xC4, 0, 7, 0, 0, 0], fits := by decide }

/-- A read of `A` that is started. -/
def startedRead (t : Tag) : Status × Tag × ExplicitMessage := t.read {} { fd := 3, state := .ok } 7
    (some [65]) 1 1000 0

/-- The next call of `poll()`, with these bytes in the socket, at this time. -/
def polledRead (t : Tag) (inbox : List UInt8) (time : UInt32) : Status × Tag × ExplicitMessage × TcpConnection :=
  (startedRead t).2.1.poll (startedRead t).2.2 { fd := 3, state := .ok, sock := { inbox := inbox } }
    { millis := fun _ => time, sends := [.accepted 1000], recvs := [.data 1000, .data 1000] }

/-- The same call on the message alone. -/
def polledMessage (t : Tag) (inbox : List UInt8) (time : UInt32) : Status × ExplicitMessage × TcpConnection :=
  (startedRead t).2.2.poll { fd := 3, state := .ok, sock := { inbox := inbox } }
    { millis := fun _ => time, sends := [.accepted 1000], recvs := [.data 1000, .data 1000] }

theorem stale_iff_overwritten :
    SameView (polledRead { data := .zero } sevenReply.frame 1).2.1 (polledRead usedTag sevenReply.frame 1).2.1 := by
  have hreads : ∀ t : Tag, startedRead t = (.pending, (startedRead t).2.1, (startedRead t).2.2) →
      polledMessage t sevenReply.frame 1 = (.ok, (polledRead t sevenReply.frame 1).2.2.1,
        (polledRead t sevenReply.frame 1).2.2.2) →
      (polledRead t sevenReply.frame 1).2.2.1.data = sevenReply.data →
      (polledRead t sevenReply.frame 1).2.2.1.dataLen = sevenReply.data.length →
      (polledRead t sevenReply.frame 1).2.2.1.resultCode = 0 →
        ReadExchange [65] 1 t (.replied 0 sevenReply.data) (polledRead t sevenReply.frame 1).2.1 := by
    intro t hstarted hm hdata hlen hcode
    refine ⟨_, _, _, _, _, _, _, hstarted, ?_⟩
    rw [← hcode]
    exact .replied rfl hm hdata hlen
  refine (stale_iff (hreads _ ?_ ?_ ?_ ?_ ?_) (hreads _ ?_ ?_ ?_ ?_ ?_)).2 ?_ <;> decide +kernel

/-- After a read that timed out a tag still shows the value of the read before. -/
theorem stale_after_timeout :
    ¬ ∀ (a b a' b' : Tag) (name : List UInt8) (elementCount : UInt32) (e : Ending),
      ReadExchange name elementCount a e a' → ReadExchange name elementCount b e b' → SameView a' b' := by
  intro h
  have hbreaks : ∀ t : Tag, startedRead t = (.pending, (startedRead t).2.1, (startedRead t).2.2) →
      polledMessage t [] 2000 = (.timeout, (polledRead t [] 2000).2.2.1, (polledRead t [] 2000).2.2.2) →
      (polledRead t [] 2000).1 = .timeout → ReadExchange [65] 1 t (.broke .timeout) (polledRead t [] 2000).2.1 := by
    intro t hstarted hm hst
    have hpoll : polledRead t [] 2000 = (.timeout, (polledRead t [] 2000).2) := by rw [← hst]
    exact ⟨_, _, _, _, _, _, _, hstarted, .broke hpoll hm ⟨nofun, nofun⟩⟩
  have hsame := h { data := .zero } usedTag _ _ [65] 1 (.broke .timeout) (hbreaks _ (by decide +kernel)
    (by decide +kernel) (by decide +kernel)) (hbreaks _ (by decide +kernel) (by decide +kernel) (by decide +kernel))
  have hfirst := hsame.getUint8 0
  revert hfirst
  decide +kernel

end Tag

end ControlLogix
