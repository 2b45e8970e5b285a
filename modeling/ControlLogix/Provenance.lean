import ControlLogix.Asked
import ControlLogix.PlcClient

/-!
# Where the bytes of a write come from

A history of a tag is told twice: by a buffer whose cells know who stored them, and by the list of the stores with
their ranges.  The tag itself knows neither, and `startWrite()` derives the length of what it sends from the type.

* `kept_run`: the cells hold the bytes of the tag, and the list tells who stored them, by induction on the history;
* `allowed_iff`: which cells a setter or the most recent read has stored, in terms of the ranges;
* `accounted_iff`: a write sends such bytes only if and only if the stores of the setters cover what the most recent
  read has not reached.
-/

namespace ControlLogix

open Bytes
open PlcClient (Edit)

namespace Tag

/-! ### Cells -/

/-- Who stored a byte: no one since the construction, a setter, or the completed read with this number. -/
inductive Origin where
  | unassigned
  | setter
  | read (n : Nat)
  deriving DecidableEq, Repr

structure Cell where
  byte : UInt8
  origin : Origin
  deriving DecidableEq, Repr

/-- The cells with `bs` stored at `off` by `origin`. -/
def mark (cells : List Cell) (off : Nat) (bs : List UInt8) (origin : Origin) : List Cell :=
  cells.take off ++ bs.map (⟨·, origin⟩) ++ cells.drop (off + bs.length)

section Cells

variable {cells : List Cell} {off : Nat} {bs : List UInt8} {origin : Origin}

theorem map_byte_mark : (mark cells off bs origin).map Cell.byte = store (cells.map Cell.byte) off bs := by
  simp [mark, store, List.map_take, List.map_drop, Function.comp_def]

/-- The origins after a store: new ones within the range of the store, the old ones elsewhere. -/
theorem origin_mark (h : off + bs.length ≤ cells.length) (i : Nat) :
    ((mark cells off bs origin)[i]?).map Cell.origin =
      if off ≤ i ∧ i < off + bs.length then some origin else (cells[i]?).map Cell.origin := by
  have hlen : (cells.take off).length = off := by
    rw [List.length_take]
    omega
  have hnew : (bs.map (fun b => (⟨b, origin⟩ : Cell))).length = bs.length := List.length_map _
  unfold mark
  by_cases hbefore : i < off
  · rw [if_neg (by omega), List.append_assoc, List.getElem?_append_left (by omega), List.getElem?_take_of_lt hbefore]
  · by_cases hwithin : i < off + bs.length
    · have hi : i - off < bs.length := by omega
      rw [if_pos ⟨by omega, hwithin⟩, List.append_assoc, List.getElem?_append_right (by omega), hlen,
        List.getElem?_append_left (by omega), List.getElem?_map, List.getElem?_eq_getElem hi]
      rfl
    · have hi : off + bs.length + (i - (off + bs.length)) = i := by omega
      rw [if_neg (by omega), List.getElem?_append_right (by rw [List.length_append]; omega), List.length_append, hlen,
        hnew, List.getElem?_drop, hi]

end Cells

/-! ### Histories -/

/-- A store into the buffer, and the offsets it reached. -/
inductive Stored where
  | setter (off len : Nat)
  | read (len : Nat)
  deriving DecidableEq, Repr

/-- A tag with the cells of its buffer, the number of its completed reads, and the stores, the last one first. -/
structure History where
  tag : Tag
  cells : List Cell
  reads : Nat := 0
  log : List Stored := []

/-- A tag as it is constructed, with anything in its buffer. -/
def History.start (d : TagData) : History :=
  { tag := { data := d }, cells := d.bytes.map (⟨·, .unassigned⟩) }

inductive Event where
  | edit (e : Edit)
  | read (msg : ExplicitMessage) (conn : TcpConnection) (sessionHandle : UInt32) (name : Option (List UInt8))
      (elementCount timeoutMs now : UInt32)
  | write (msg : ExplicitMessage) (conn : TcpConnection) (sessionHandle : UInt32) (name : Option (List UInt8))
      (elementCount timeoutMs now : UInt32)
  | poll (msg : ExplicitMessage) (conn : TcpConnection) (os : Platform)
  | abort (msg : ExplicitMessage)

/-- `bs` at `off`, when they fit there. -/
def fitting (off : Nat) (bs : List UInt8) : Option (Nat × List UInt8) :=
  if InBounds off bs.length then some (off, bs) else none

/-- What a setter stores, and where. -/
def stores : Edit → Option (Nat × List UInt8)
  | .setDataType _ => none
  | .setBool off v => fitting off [if v then 1 else 0]
  | .setUint8 off v => fitting off [v]
  | .setUint16 off v => fitting off (putU16 v)
  | .setUint32 off v => fitting off (putU32 v)
  | .setUint64 off v => fitting off (putU64 v)
  | .setString none => none
  | .setString (some s) =>
    some (0, putU32 (UInt32.ofNat (min s.length (kMaxDataSize - 4))) ++ s.take (min s.length (kMaxDataSize - 4)))

/-- What a completed read stores: the value of the reply, cut to the size of the buffer. -/
def delivered (msg : ExplicitMessage) : List UInt8 :=
  if 2 ≤ msg.dataLen then (msg.data.drop 2).take (min (msg.dataLen - 2) kMaxDataSize) else []

def History.step (s : History) : Event → History
  | .edit e =>
    match stores e with
    | none => { s with tag := e.apply s.tag }
    | some (off, bs) =>
      { s with
        tag := e.apply s.tag
        cells := mark s.cells off bs .setter
        log := .setter off bs.length :: s.log }
  | .read msg conn sessionHandle name elementCount timeoutMs now =>
    { s with tag := (s.tag.read msg conn sessionHandle name elementCount timeoutMs now).2.1 }
  | .write msg conn sessionHandle name elementCount timeoutMs now =>
    { s with tag := (s.tag.write msg conn sessionHandle name elementCount timeoutMs now).2.1 }
  | .poll msg conn os =>
    match s.tag.poll msg conn os with
    | (.ok, tag, msg, _) =>
      if s.tag.state = .reading then
        { tag := tag
          cells := mark s.cells 0 (delivered msg) (.read (s.reads + 1))
          reads := s.reads + 1
          log := .read (delivered msg).length :: s.log }
      else { s with tag := tag }
    | (_, tag, _, _) => { s with tag := tag }
  | .abort msg => { s with tag := (s.tag.abort msg).1 }

def History.run (s : History) (es : List Event) : History := es.foldl History.step s

/-! ### The cells and the list tell the same -/

/-- The number of reads in the list. -/
def countReads : List Stored → Nat
  | [] => 0
  | .setter _ _ :: log => countReads log
  | .read _ :: log => countReads log + 1

/-- Who stored the byte at the offset, by the ranges. -/
def originAt : List Stored → Nat → Origin
  | [], _ => .unassigned
  | .setter off len :: log, i => if off ≤ i ∧ i < off + len then .setter else originAt log i
  | .read len :: log, i => if i < len then .read (countReads log + 1) else originAt log i

structure History.Kept (s : History) : Prop where
  bytes : s.cells.map Cell.byte = s.tag.data.bytes
  origins : ∀ i, i < kMaxDataSize → (s.cells[i]?).map Cell.origin = some (originAt s.log i)
  reads : s.reads = countReads s.log

theorem History.Kept.length {s : History} (h : s.Kept) : s.cells.length = kMaxDataSize := by
  rw [← s.tag.data.size, ← h.bytes, List.length_map]

theorem kept_start (d : TagData) : (History.start d).Kept := by
  refine ⟨?_, ?_, rfl⟩
  · simp [History.start, Function.comp_def]
  · intro i hi
    have hlt : i < d.bytes.length := by
      rw [d.size]
      exact hi
    rw [History.start, List.getElem?_map, List.getElem?_eq_getElem hlt]
    rfl

/-- A tag whose buffer did not change. -/
private theorem History.Kept.same {s : History} (h : s.Kept) {tag : Tag} (hdata : tag.data.bytes = s.tag.data.bytes) :
    ({ s with tag := tag } : History).Kept :=
  ⟨h.bytes.trans hdata.symm, h.origins, h.reads⟩

theorem fitting_some {off : Nat} {bs : List UInt8} {q : Nat × List UInt8} (h : fitting off bs = some q) :
    q = (off, bs) ∧ InBounds off bs.length := by
  unfold fitting at h
  split at h
  · rename_i hin
    exact ⟨(Option.some.inj h).symm, hin⟩
  · cases h

theorem setBytes_data (t : Tag) (off : Nat) (bs : List UInt8) :
    (t.setBytes off bs).data.bytes =
      match fitting off bs with
      | none => t.data.bytes
      | some (off, bs) => store t.data.bytes off bs := by
  unfold setBytes fitting
  by_cases h : InBounds off bs.length
  · rw [dif_pos h, if_pos h]
    rfl
  · rw [dif_neg h, if_neg h]

/-- A setter stores what `stores` says, within the buffer. -/
theorem apply_data (e : Edit) (t : Tag) :
    (e.apply t).data.bytes =
      match stores e with
      | none => t.data.bytes
      | some (off, bs) => store t.data.bytes off bs := by
  cases e with
  | setDataType type => rfl
  | setBool off v => exact setBytes_data _ _ _
  | setUint8 off v => exact setBytes_data _ _ _
  | setUint16 off v => exact setBytes_data _ _ _
  | setUint32 off v => exact setBytes_data _ _ _
  | setUint64 off v => exact setBytes_data _ _ _
  | setString s =>
    cases s with
    | none => rfl
    | some s => rfl

private theorem fitting_within {off : Nat} {bs : List UInt8} {q : Nat × List UInt8} (h : fitting off bs = some q) :
    q.1 + q.2.length ≤ kMaxDataSize := by
  obtain ⟨rfl, hsize, hoff⟩ := fitting_some h
  show off + bs.length ≤ kMaxDataSize
  omega

theorem stores_within {e : Edit} {q : Nat × List UInt8} (h : stores e = some q) :
    q.1 + q.2.length ≤ kMaxDataSize := by
  cases e with
  | setDataType type => cases h
  | setBool off v => exact fitting_within h
  | setUint8 off v => exact fitting_within h
  | setUint16 off v => exact fitting_within h
  | setUint32 off v => exact fitting_within h
  | setUint64 off v => exact fitting_within h
  | setString s =>
    cases s with
    | none => cases h
    | some s =>
      have hk : kMaxDataSize = 256 := rfl
      obtain rfl := Option.some.inj h
      simp only [List.length_append, length_putU32, List.length_take]
      omega

/-- A history with one more store. -/
private theorem History.Kept.marked {s : History} (h : s.Kept) {tag : Tag} {off reads : Nat} {bs : List UInt8}
    {origin : Origin} {entry : Stored} (hfits : off + bs.length ≤ kMaxDataSize)
    (hdata : tag.data.bytes = store s.tag.data.bytes off bs)
    (hat : ∀ i, originAt (entry :: s.log) i = if off ≤ i ∧ i < off + bs.length then origin else originAt s.log i)
    (hreads : reads = countReads (entry :: s.log)) :
    (⟨tag, mark s.cells off bs origin, reads, entry :: s.log⟩ : History).Kept := by
  refine ⟨?_, ?_, hreads⟩
  · show (mark s.cells off bs origin).map Cell.byte = tag.data.bytes
    rw [map_byte_mark, h.bytes, hdata]
  · intro i hi
    show ((mark s.cells off bs origin)[i]?).map Cell.origin = some (originAt (entry :: s.log) i)
    rw [origin_mark (by rw [h.length]; exact hfits), hat]
    split
    · rfl
    · exact h.origins i hi

theorem length_delivered (msg : ExplicitMessage) : (delivered msg).length ≤ kMaxDataSize := by
  unfold delivered
  split
  · rw [List.length_take]
    omega
  · exact Nat.zero_le _

/-- A completed read stores what it delivers, and nothing else that `poll()` does touches the buffer. -/
theorem poll_data {t t' : Tag} {msg msg' : ExplicitMessage} {conn conn' : TcpConnection} {os : Platform} {st : Status}
    (h : t.poll msg conn os = (st, t', msg', conn')) :
    t'.data.bytes = if st = .ok ∧ t.state = .reading then store t.data.bytes 0 (delivered msg') else
    t.data.bytes := by
  by_cases hin : t.InFlight
  · obtain ⟨mst, -, hadv⟩ := poll_inFlight hin h
    cases hadv with
    | pending hp => exact (if_neg (by rintro ⟨e, -⟩; cases e)).symm
    | broke hne => exact (if_neg (fun e => hne.2 e.1)).symm
    | refused hok hcode => exact (if_neg (by rintro ⟨e, -⟩; cases e)).symm
    | done hok hcode =>
      by_cases hr : t.state = .reading
      · rw [if_pos ⟨rfl, hr⟩]
        unfold accept delivered
        by_cases h2 : 2 ≤ msg'.dataLen
        · rw [if_pos ⟨hr, h2⟩, if_pos h2]
          rfl
        · rw [if_neg (fun e => h2 e.2), if_neg h2, store_nil]
      · rw [if_neg (fun e => hr e.2)]
        unfold accept
        rw [if_neg (fun e => hr e.1)]
  · rw [poll_rest hin] at h
    simp only [Prod.mk.injEq] at h
    obtain ⟨-, rfl, -, -⟩ := h
    exact (if_neg (fun e => hin (Or.inl e.2))).symm

theorem read_data {t : Tag} {msg : ExplicitMessage} {conn : TcpConnection} {sessionHandle : UInt32}
    {name : Option (List UInt8)} {elementCount timeoutMs now : UInt32} :
    (t.read msg conn sessionHandle name elementCount timeoutMs now).2.1.data = t.data := by
  cases name with
  | none => rfl
  | some name =>
    generalize hr : t.read msg conn sessionHandle (some name) elementCount timeoutMs now = r
    obtain ⟨st, t', msg'⟩ := r
    rcases read_cases hr with ⟨-, hs⟩ | ⟨-, rfl, -⟩
    · exact hs.kept.1
    · rfl

theorem write_data {t : Tag} {msg : ExplicitMessage} {conn : TcpConnection} {sessionHandle : UInt32}
    {name : Option (List UInt8)} {elementCount timeoutMs now : UInt32} :
    (t.write msg conn sessionHandle name elementCount timeoutMs now).2.1.data = t.data := by
  cases name with
  | none => rfl
  | some name =>
    generalize hr : t.write msg conn sessionHandle (some name) elementCount timeoutMs now = r
    obtain ⟨st, t', msg'⟩ := r
    rcases write_cases hr with ⟨-, -, hs⟩ | ⟨-, rfl, -⟩
    · exact hs.kept.1
    · rfl

theorem kept_step {s : History} (h : s.Kept) (e : Event) : (s.step e).Kept := by
  -- only setters and completed reads touch the buffer, and both are stores
  cases e with
  | edit e =>
    have hdata := apply_data e s.tag
    have hwithin := @stores_within e
    unfold History.step
    dsimp only
    cases hstores : stores e with
    | none =>
      rw [hstores] at hdata
      exact h.same hdata
    | some q =>
      obtain ⟨off, bs⟩ := q
      rw [hstores] at hdata
      refine h.marked (hwithin hstores) hdata (fun _ => rfl) ?_
      exact h.reads
  | read msg conn sessionHandle name elementCount timeoutMs now => exact h.same (congrArg TagData.bytes read_data)
  | write msg conn sessionHandle name elementCount timeoutMs now => exact h.same (congrArg TagData.bytes write_data)
  | poll msg conn os =>
    unfold History.step
    dsimp only
    generalize hp : s.tag.poll msg conn os = r
    obtain ⟨st, tag, msg', conn'⟩ := r
    have hdata := poll_data hp
    by_cases hok : st = .ok
    · subst hok
      by_cases hr : s.tag.state = .reading
      · rw [if_pos ⟨rfl, hr⟩] at hdata
        dsimp only
        rw [if_pos hr]
        refine h.marked ?_ hdata ?_ ?_
        · rw [Nat.zero_add]
          exact length_delivered msg'
        · intro i
          simp only [originAt, Nat.zero_le, true_and, Nat.zero_add, h.reads]
        · show s.reads + 1 = countReads s.log + 1
          rw [h.reads]
      · rw [if_neg (fun e => hr e.2)] at hdata
        dsimp only
        rw [if_neg hr]
        exact h.same hdata
    · rw [if_neg (fun e => hok e.1)] at hdata
      cases st <;> first | exact absurd rfl hok | exact h.same hdata
  | abort msg => exact h.same rfl

theorem kept_run {s : History} (h : s.Kept) (es : List Event) : (s.run es).Kept := by
  induction es generalizing s with
  | nil => exact h
  | cons e es ih => exact ih (kept_step h e)

/-! ### Who may have stored a byte -/

/-- How many bytes the most recent completed read delivered. -/
def lastRead : List Stored → Nat
  | [] => 0
  | .setter _ _ :: log => lastRead log
  | .read len :: _ => len

/-- A setter stored at the offset, and no completed read has reached it since. -/
def SetSince (log : List Stored) (i : Nat) : Prop :=
  ∃ later off len earlier, log = later ++ .setter off len :: earlier ∧ (off ≤ i ∧ i < off + len) ∧
    ∀ n, .read n ∈ later → n ≤ i

/-- A byte may be sent when a setter or the most recent of `reads` completed reads stored it. -/
def Origin.Allowed (reads : Nat) (o : Origin) : Prop := o = .setter ∨ o = .read reads

private theorem originAt_read {log : List Stored} {i n : Nat} (h : originAt log i = .read n) :
    n ≤ countReads log := by
  induction log with
  | nil => cases h
  | cons entry log ih =>
    cases entry with
    | setter off len =>
      rw [originAt] at h
      split at h
      · cases h
      · exact ih h
    | read len =>
      rw [originAt] at h
      rw [countReads]
      split at h
      · cases h
        exact Nat.le_refl _
      · exact Nat.le_succ_of_le (ih h)

theorem originAt_setter {log : List Stored} {i : Nat} : originAt log i = .setter ↔ SetSince log i := by
  induction log with
  | nil =>
    constructor
    · intro h
      cases h
    · rintro ⟨later, off, len, earlier, h, -⟩
      simp at h
  | cons entry log ih =>
    constructor
    · intro h
      cases entry with
      | setter off len =>
        rw [originAt] at h
        split at h
        · rename_i hin
          exact ⟨[], off, len, log, rfl, hin, by simp⟩
        · obtain ⟨later, off', len', earlier, rfl, hin, hlater⟩ := ih.1 h
          refine ⟨.setter off len :: later, off', len', earlier, rfl, hin, ?_⟩
          intro n hn
          simp only [List.mem_cons, reduceCtorEq, false_or] at hn
          exact hlater n hn
      | read len =>
        rw [originAt] at h
        split at h
        · cases h
        · -- the read has not reached the offset
          rename_i hpast
          obtain ⟨later, off', len', earlier, rfl, hin, hlater⟩ := ih.1 h
          refine ⟨.read len :: later, off', len', earlier, rfl, hin, ?_⟩
          intro n hn
          simp only [List.mem_cons, Stored.read.injEq] at hn
          rcases hn with rfl | hn
          · omega
          · exact hlater n hn
    · rintro ⟨later, off, len, earlier, hlog, hin, hlater⟩
      cases later with
      | nil =>
        simp only [List.nil_append, List.cons.injEq] at hlog
        obtain ⟨rfl, rfl⟩ := hlog
        rw [originAt, if_pos hin]
      | cons first later =>
        simp only [List.cons_append, List.cons.injEq] at hlog
        obtain ⟨rfl, rfl⟩ := hlog
        have hrest : originAt (later ++ .setter off len :: earlier) i = .setter :=
          ih.2 ⟨later, off, len, earlier, rfl, hin, fun n hn => hlater n (List.mem_cons_of_mem _ hn)⟩
        cases entry with
        | setter off' len' =>
          rw [originAt, hrest]
          simp
        | read len' =>
          have hshort := hlater len' List.mem_cons_self
          rw [originAt, if_neg (by omega), hrest]

/-- Below the bytes of the most recent read, it or a setter after it stored the byte; beyond them it did not. -/
theorem originAt_last {log : List Stored} {i : Nat} :
    (i < lastRead log → (originAt log i).Allowed (countReads log)) ∧
      (lastRead log ≤ i → originAt log i ≠ .read (countReads log)) := by
  induction log with
  | nil =>
    constructor
    · intro h
      cases h
    · intro h e
      cases e
  | cons entry log ih =>
    cases entry with
    | setter off len =>
      rw [originAt, lastRead, countReads]
      split
      · constructor
        · exact fun _ => Or.inl rfl
        · intro _ e
          cases e
      · exact ih
    | read len =>
      rw [originAt, lastRead, countReads]
      constructor
      · intro h
        rw [if_pos h]
        exact Or.inr rfl
      · -- an older read has a smaller number
        intro h e
        rw [if_neg (by omega)] at e
        have := originAt_read e
        omega

theorem allowed_iff {log : List Stored} {i : Nat} :
    (originAt log i).Allowed (countReads log) ↔ (lastRead log ≤ i → SetSince log i) := by
  obtain ⟨hbelow, hbeyond⟩ := @originAt_last log i
  constructor
  · rintro (hset | hread) hle
    · exact originAt_setter.1 hset
    · exact absurd hread (hbeyond hle)
  · intro h
    by_cases hlt : i < lastRead log
    · exact hbelow hlt
    · exact Or.inl (originAt_setter.2 (h (by omega)))

/-! ### What a write sends -/

/-- Every byte of the value in the request is that of a cell, stored by a setter or by the most recent completed
read. -/
def Accounted (s : History) (frame : List UInt8) : Prop :=
  ∃ request, decodeRequest frame = some request ∧
    request.value = (s.cells.take request.value.length).map Cell.byte ∧
    ∀ c ∈ s.cells.take request.value.length, c.origin.Allowed s.reads

/-- The setters have stored what the most recent completed read did not reach of the first `n` bytes. -/
def Supplied (log : List Stored) (n : Nat) : Prop := ∀ i < n, lastRead log ≤ i → SetSince log i

theorem accounted_take {s : History} (h : s.Kept) {n : Nat} (hn : n ≤ kMaxDataSize) :
    (∀ c ∈ s.cells.take n, c.origin.Allowed s.reads) ↔ Supplied s.log n := by
  have hlen := h.length
  constructor
  · intro hall i hi
    have hlt : i < s.cells.length := by omega
    have horigin := h.origins i (by omega)
    rw [List.getElem?_eq_getElem hlt, Option.map_some, Option.some.injEq] at horigin
    have hmem : s.cells[i] ∈ s.cells.take n := by
      rw [List.mem_take_iff_getElem]
      exact ⟨i, by omega, rfl⟩
    have hallowed := hall _ hmem
    rw [horigin, h.reads] at hallowed
    exact allowed_iff.1 hallowed
  · intro hsupplied c hc
    rw [List.mem_take_iff_getElem] at hc
    obtain ⟨i, hi, rfl⟩ := hc
    have hlt : i < s.cells.length := by omega
    have horigin := h.origins i (by omega)
    rw [List.getElem?_eq_getElem hlt, Option.map_some, Option.some.injEq] at horigin
    rw [horigin, h.reads]
    exact allowed_iff.2 (hsupplied i (by omega))

/-- After any history an accepted write sends bytes of setters and of the most recent completed read only if and only
if the setters have stored what that read did not reach of the value. -/
theorem accounted_iff {d : TagData} {es : List Event} {s : History} {t' : Tag} {msg msg' : ExplicitMessage}
    {conn : TcpConnection} {sessionHandle elementCount timeoutMs now : UInt32} {name : Option (List UInt8)}
    (hrun : (History.start d).run es = s)
    (hwrite : s.tag.write msg conn sessionHandle name elementCount timeoutMs now = (.pending, t', msg')) :
    Accounted s (msg'.tx.take msg'.txLen) ↔ Supplied s.log (s.tag.valueLength elementCount) := by
  have hkept : s.Kept := hrun ▸ kept_run (kept_start d) es
  cases name with
  | none =>
    simp only [write, Prod.mk.injEq] at hwrite
    cases hwrite.1
  | some name =>
    obtain ⟨hfits, hdecodes⟩ := write_decodes hwrite
    have hlen : (s.tag.data.bytes.take (s.tag.valueLength elementCount)).length = s.tag.valueLength elementCount := by
      rw [List.length_take, s.tag.data.size]
      exact Nat.min_eq_left hfits
    rw [← accounted_take hkept hfits]
    constructor
    · rintro ⟨request, hrequest, -, hall⟩
      rw [hdecodes] at hrequest
      obtain rfl := Option.some.inj hrequest
      rwa [hlen] at hall
    · intro hall
      refine ⟨_, hdecodes, ?_, ?_⟩
      · show s.tag.data.bytes.take _ = _
        rw [hlen, List.map_take, hkept.bytes]
      · show ∀ c ∈ s.cells.take (s.tag.data.bytes.take (s.tag.valueLength elementCount)).length, _
        rwa [hlen]

/-- A DINT that was set whole. -/
def dintEvents : List Event := [.edit (.setDataType 0xC4), .edit (.setUint32 0 7)]

/-- A DINT of which one byte was set. -/
def partialEvents : List Event := [.edit (.setDataType 0xC4), .edit (.setUint8 0 1)]

/-- The write of `A` as one element after the events. -/
def writeAfter (es : List Event) : Status × Tag × ExplicitMessage :=
  ((History.start .zero).run es).tag.write {} { fd := 3, state := .ok } 7 (some [65]) 1 1000 0

theorem accounted_iff_dint :
    Accounted ((History.start .zero).run dintEvents)
      ((writeAfter dintEvents).2.2.tx.take (writeAfter dintEvents).2.2.txLen) := by
  have hpending : (writeAfter dintEvents).1 = .pending := by decide +kernel
  refine (accounted_iff rfl (split_pending hpending)).2 ?_
  have hlog : ((History.start .zero).run dintEvents).log = [.setter 0 4] := rfl
  have hlen : ((History.start .zero).run dintEvents).tag.valueLength 1 = 4 := by decide +kernel
  rw [hlog, hlen]
  intro i hi _
  exact ⟨[], 0, 4, [], rfl, ⟨Nat.zero_le i, by omega⟩, by simp⟩

/-- Three of the bytes that are sent were never assigned. -/
theorem unassigned_sent :
    ¬ ∀ (d : TagData) (es : List Event) (t' : Tag) (msg msg' : ExplicitMessage) (conn : TcpConnection)
      (sessionHandle elementCount timeoutMs now : UInt32) (name : Option (List UInt8)),
      ((History.start d).run es).tag.write msg conn sessionHandle name elementCount timeoutMs
      now = (.pending, t', msg') → Accounted ((History.start d).run es) (msg'.tx.take msg'.txLen) := by
  intro h
  have hpending : (writeAfter partialEvents).1 = .pending := by decide +kernel
  have hwrite := split_pending hpending
  obtain ⟨request, hrequest, -, hall⟩ := h _ _ _ _ _ _ _ _ _ _ _ hwrite
  have hlen : request.value.length = 4 := by
    have hdecodes := (write_decodes hwrite).2
    have hvalue := congrArg TagRequest.value (Option.some.inj (hdecodes.symm.trans hrequest))
    rw [← hvalue]
    decide +kernel
  have hcell : (⟨0, .unassigned⟩ : Cell) ∈ ((History.start .zero).run partialEvents).cells.take 4 := by decide +kernel
  rw [hlen] at hall
  rcases hall _ hcell with hset | hread
  · cases hset
  · cases hread

end Tag

end ControlLogix
