import ControlLogix.Conversation
import ControlLogix.Operations
import ControlLogix.PlcClient
import ControlLogix.Server

/-!
# A tag store

Tags that share a message, connected to the synthetic server.  Operations are called one after the other, and each
accepted one is run to completion: moves split what passes in any way, and at the end nothing more is split.

* `Stored`: what is stored under each name, which only an accepted write changes (`record`);
* `Agrees`: a read ends with what is stored under its name, or with status 4 when there is nothing;
* `store_agrees`: the tags and the server agree with the map after any operations.
-/

namespace ControlLogix

open Bytes
open Tag (readData writeData Requested Outcome Holding)
open SyntheticServer (Ascii decodeAscii)

structure TagStore where
  tags : Nat → Tag
  msg : ExplicitMessage := {}
  link : Link
  server : SyntheticServer := {}

/-- What is stored under each name. -/
abbrev Stored := List UInt8 → Option TagEntry

namespace TagStore

/-- A call of `read()` or `write()`, and what happens until the operation has ended. -/
structure Call where
  tag : Nat
  sessionHandle : UInt32
  name : List UInt8
  elementCount : UInt32
  timeoutMs : UInt32
  now : UInt32
  moves : List Move
  millis : Nat → UInt32

/-- The name is ASCII, and no call of `poll()` comes after the deadline or finds the transport failed. -/
structure Call.Fair (c : Call) : Prop where
  ascii : Ascii c.name
  moves : ∀ m ∈ c.moves, m.InTime (c.now + c.timeoutMs)
  last : expired (c.millis 0) (c.now + c.timeoutMs) = false

inductive Op where
  | edit (i : Nat) (e : PlcClient.Edit)
  | read (c : Call)
  | write (c : Call)

def Op.Fair : Op → Prop
  | .edit _ _ => True
  | .read c | .write c => c.Fair

/-! ### Running operations -/

def tagRead (s : TagStore) (c : Call) : Status × Tag × ExplicitMessage :=
  (s.tags c.tag).read s.msg s.link.conn c.sessionHandle (some c.name) c.elementCount c.timeoutMs c.now

def tagWrite (s : TagStore) (c : Call) : Status × Tag × ExplicitMessage :=
  (s.tags c.tag).write s.msg s.link.conn c.sessionHandle (some c.name) c.elementCount c.timeoutMs c.now

/-- An operation that was refused is over, one that was started is run to completion. -/
def complete (s : TagStore) (c : Call) : Status × Tag × ExplicitMessage → Status × TagStore
  | (.pending, t, msg) =>
    match Link.converse Tag.machine.poll SyntheticServer.handle (t, msg) s.link s.server
      (c.moves ++ flush c.millis) with
    | (st, (t, msg), link, server) =>
      (st, { tags := Function.update s.tags c.tag t, msg := msg, link := link, server := server })
  | (st, t, msg) => (st, { s with tags := Function.update s.tags c.tag t, msg := msg })

def perform (s : TagStore) : Op → Status × TagStore
  | .edit i e => (.ok, { s with tags := Function.update s.tags i (e.apply (s.tags i)) })
  | .read c => s.complete c (s.tagRead c)
  | .write c => s.complete c (s.tagWrite c)

/-- The type of a tag and its value, as long as the type and the number of elements demand. -/
def value (s : TagStore) (c : Call) : TagEntry where
  typeCode := (s.tags c.tag).dataType
  value := (s.tags c.tag).data.bytes.take ((s.tags c.tag).valueLength c.elementCount)

/-- An accepted write stores its value under its name. -/
def record (s : TagStore) (stored : Stored) : Op → Stored
  | .write c =>
    if (s.tagWrite c).1 = .pending then Function.update stored c.name (some (s.value c)) else stored
  | .edit _ _ | .read _ => stored

/-- The store and the map after operations. -/
def play : TagStore → Stored → List Op → TagStore × Stored
  | s, stored, [] => (s, stored)
  | s, stored, op :: ops => play (s.perform op).2 (s.record stored op) ops

/-- No operation is going on, nothing is on the way, and the server has its own tags. -/
structure Initial (s : TagStore) : Prop where
  rest : ∀ i, ¬ (s.tags i).InFlight
  free : ¬ s.msg.InFlight
  quiet : s.link.Quiet
  server : s.server.tags = ({} : SyntheticServer).tags

/-- The tags of the server under ASCII names. -/
def initialStored : Stored := fun name => ({} : SyntheticServer).tags (some (decodeAscii name))

/-- What an accepted read and an accepted write come to. -/
structure Agrees (s : TagStore) (stored : Stored) : Prop where
  read : ∀ c : Call, c.Fair → (s.tagRead c).1 = .pending →
    match stored c.name with
    | some entry => (s.perform (.read c)).1 = .ok ∧
        Holding ((s.perform (.read c)).2.tags c.tag) entry.typeCode entry.value
    | none => (s.perform (.read c)).1 = .error ∧ ((s.perform (.read c)).2.tags c.tag).resultCode = 4
  write : ∀ c : Call, c.Fair → (s.tagWrite c).1 = .pending → (s.perform (.write c)).1 = .ok

/-! ### One exchange -/

/-- No operation is going on, nothing is on the way, and the server keeps what is stored. -/
structure Serving (s : TagStore) (stored : Stored) : Prop where
  rest : ∀ i, ¬ (s.tags i).InFlight
  free : ¬ s.msg.InFlight
  quiet : s.link.Quiet
  tags : ∀ name, Ascii name → s.server.tags (some (decodeAscii name)) = stored name
  small : s.server.Small

/-- The store `s'` after an operation that took `s` and its tag `t` through an exchange with the reply `r`. -/
structure Exchanged (s : TagStore) (c : Call) (t : Tag) (r : Reply) (server : SyntheticServer) (st : Status)
    (s' : TagStore) : Prop where
  outcome : Outcome t r st (s'.tags c.tag) s'.msg
  quiet : s'.link.Quiet
  server : s'.server = server
  others : ∀ i, i ≠ c.tag → s'.tags i = s.tags i

section Exchange

variable {s s' : TagStore} {stored : Stored} {c : Call} {t : Tag} {msg : ExplicitMessage} {st : Status}

private theorem complete_exchanged {service code replyService : UInt8} {data cipData : List UInt8}
    {server : SyntheticServer} (hs : Serving s stored) (hc : c.Fair)
    (hreq : Requested s.msg c.sessionHandle service c.name data c.timeoutMs c.now t msg) (hlong : 2 ≤ data.length)
    (hserver : s.server.unconnected c.sessionHandle service (appendSymbolic c.name) data =
      (server, [replyService, 0, code, 0] ++ cipData))
    (hsmall : cipData.length ≤ 252) (h : s.complete c (.pending, t, msg) = (st, s')) :
    ∃ r : Reply, r.status = code ∧ r.data = cipData ∧ Exchanged s c t r server st s' := by
  have hfits : 20 + cipData.length < 2 ^ 16 := by omega
  obtain ⟨r, hr, hcode, hdata, hstatus, hcontext⟩ : ∃ r : Reply,
    SyntheticServer.unconnectedReply s.msg.context ([replyService, 0, code, 0] ++ cipData) = r.frame ∧
    r.status = code ∧ r.data = cipData ∧ r.encapStatus = 0 ∧ r.context = s.msg.context :=
    ⟨_, SyntheticServer.unconnectedReply_frame _ _ _ hfits, rfl, rfl, rfl, UInt64.ofNat_toNat⟩
  have heven := (length_appendSymbolic c.name).1
  have hhandle : s.server.handle (ExplicitMessage.requestFrame c.sessionHandle s.msg.context service
      (appendSymbolic c.name) data) = (server, r.frame) := by
    rw [SyntheticServer.handle_requestFrame heven hreq.fits (by omega), hserver, hr]
  have hwhole := ExplicitMessage.whole_requestFrame c.sessionHandle s.msg.context service hreq.fits
  have hbody : Buffers.bodyLength r.frame ≤ Tag.machine.cap := by
    have hlen := r.bodyLength_frame []
    rw [List.append_nil] at hlen
    rw [hlen, hdata]
    change 20 + cipData.length ≤ 272
    omega
  obtain ⟨st₁, ⟨t₁, msg₁⟩, link₁, server₁, hcon⟩ : ∃ st s₁ link₁ server₁, Link.converse Tag.machine.poll
    SyntheticServer.handle (t, msg) s.link s.server (c.moves ++ flush c.millis) = (st, s₁, link₁, server₁) :=
    ⟨_, _, _, _, rfl⟩
  have hdeadline : Tag.machine.deadline (t, msg) = c.now + c.timeoutMs := hreq.deadline
  obtain ⟨hended, hquiet, rfl⟩ := Link.converse_completes hs.quiet hreq.started hwhole hhandle r.whole hbody
    (by rw [hdeadline]; exact hc.moves) (by rw [hdeadline]; exact hc.last) hcon
  have hout := Tag.ended_frame hended (by rw [hdata]; exact hsmall) hstatus (hcontext.trans hreq.sentContext.symm)
  rw [complete, hcon] at h
  simp only [Prod.mk.injEq] at h
  obtain ⟨rfl, rfl⟩ := h
  refine ⟨r, hcode, hdata, ?_, hquiet, rfl, fun i hi => Function.update_of_ne hi _ _⟩
  dsimp only
  rw [Function.update_self]
  exact hout

private theorem Exchanged.serving {r : Reply} {server : SyntheticServer} {stored' : Stored} (hs : Serving s stored)
    (h : Exchanged s c t r server st s')
    (htags : ∀ name, Ascii name → server.tags (some (decodeAscii name)) = stored' name)
    (hsmall : server.Small) : Serving s' stored' := by
  refine ⟨fun i => ?_, h.outcome.rest.2, h.quiet, ?_, ?_⟩
  · by_cases hi : i = c.tag
    · rw [hi]
      exact h.outcome.rest.1
    · rw [h.others i hi]
      exact hs.rest i
  · rw [h.server]
    exact htags
  · rw [h.server]
    exact hsmall

/-- An accepted read ends with what is stored. -/
theorem read_exchanged (hs : Serving s stored) (hc : c.Fair) (h : (s.tagRead c).1 = .pending) :
    Serving (s.perform (.read c)).2 stored ∧
      match stored c.name with
      | some entry => (s.perform (.read c)).1 = .ok ∧
          Holding ((s.perform (.read c)).2.tags c.tag) entry.typeCode entry.value
      | none => (s.perform (.read c)).1 = .error ∧ ((s.perform (.read c)).2.tags c.tag).resultCode = 4 := by
  obtain ⟨st₀, t, msg, hread⟩ : ∃ st t msg, s.tagRead c = (st, t, msg) := ⟨_, _, _, rfl⟩
  rw [hread] at h
  change st₀ = .pending at h
  subst h
  obtain ⟨ht, hreq⟩ := Tag.read_requested hread
  obtain ⟨st, s', hdone⟩ : ∃ st s', s.complete c (.pending, t, msg) = (st, s') := ⟨_, _, rfl⟩
  have hperform : s.perform (.read c) = (st, s') := by rw [perform, hread, hdone]
  rw [hperform]
  have hkey : s.server.tags (SyntheticServer.parseSymbolicPath (appendSymbolic c.name)) = stored c.name := by
    rw [SyntheticServer.parse_appendSymbolic hreq.named, hs.tags c.name hc.ascii]
  have hreading : t.state = .reading := by rw [ht]
  cases hentry : stored c.name with
  | none =>
    rw [hentry] at hkey
    have hserver : s.server.unconnected c.sessionHandle TagService.read.code (appendSymbolic c.name)
        (readData c.elementCount) = (s.server, [0xCC, 0, 0x04, 0] ++ []) := by
      rw [SyntheticServer.unconnected_read, SyntheticServer.readTag, hkey]
      rfl
    obtain ⟨r, hcode, -, hx⟩ := complete_exchanged hs hc hreq (Nat.le_refl _) hserver (Nat.zero_le _) hdone
    have hcode' : r.status ≠ 0 := by
      rw [hcode]
      decide
    obtain ⟨hst, hresult⟩ := hx.outcome.refused hcode'
    exact ⟨hx.serving hs hs.tags hs.small, hst, hresult.trans hcode⟩
  | some entry =>
    rw [hentry] at hkey
    have hsmall := hs.small _ entry hkey
    have hserver : s.server.unconnected c.sessionHandle TagService.read.code (appendSymbolic c.name)
        (readData c.elementCount) =
          (s.server, [0xCC, 0, 0, 0] ++ (putU16 entry.typeCode.toUInt16 ++ entry.value)) := by
      rw [SyntheticServer.unconnected_read, SyntheticServer.readTag, hkey]
      simp only [List.append_assoc]
    have hlen : (putU16 entry.typeCode.toUInt16 ++ entry.value).length ≤ 252 := by
      rw [List.length_append, length_putU16]
      omega
    obtain ⟨r, hcode, hdata, hx⟩ := complete_exchanged hs hc hreq (Nat.le_refl _) hserver hlen hdone
    exact ⟨hx.serving hs hs.tags hs.small, hx.outcome.accepted hcode,
      hx.outcome.value hcode hreading entry.typeCode entry.value hdata⟩

/-- An accepted write ends, and stores its value. -/
theorem write_exchanged (hs : Serving s stored) (hc : c.Fair) (h : (s.tagWrite c).1 = .pending) :
    Serving (s.perform (.write c)).2 (Function.update stored c.name (some (s.value c))) ∧
      (s.perform (.write c)).1 = .ok := by
  obtain ⟨st₀, t, msg, hwrite⟩ : ∃ st t msg, s.tagWrite c = (st, t, msg) := ⟨_, _, _, rfl⟩
  rw [hwrite] at h
  change st₀ = .pending at h
  subst h
  obtain ⟨-, n, hn, hreq⟩ := Tag.write_requested hwrite
  obtain ⟨st, s', hdone⟩ : ∃ st s', s.complete c (.pending, t, msg) = (st, s') := ⟨_, _, rfl⟩
  have hperform : s.perform (.write c) = (st, s') := by rw [perform, hwrite, hdone]
  have hvalue : s.value c = ⟨(s.tags c.tag).dataType, (s.tags c.tag).data.bytes.take n⟩ := by
    rw [value, ← Tag.writeLength_eq hn]
  rw [hperform, hvalue]
  generalize (s.tags c.tag).data.bytes.take n = bytes at hreq
  generalize (s.tags c.tag).dataType = dataType at hreq
  have hlong := Tag.length_writeData dataType c.elementCount bytes
  have htype : (getU16 ((writeData dataType c.elementCount bytes).drop 2)).toUInt8 = dataType := by
    have hdrop : (writeData dataType c.elementCount bytes).drop 2 = putU16 dataType.toUInt16 ++ bytes := rfl
    rw [hdrop, getU16_putU16]
    simp
  have hbytes : (writeData dataType c.elementCount bytes).drop 4 = bytes := rfl
  have hserver : s.server.unconnected c.sessionHandle TagService.write.code (appendSymbolic c.name)
      (writeData dataType c.elementCount bytes) =
        ({ s.server with tags := Function.update s.server.tags (some (decodeAscii c.name)) (some ⟨dataType, bytes⟩) },
          [0xCD, 0, 0, 0] ++ []) := by
    rw [SyntheticServer.unconnected_write, SyntheticServer.writeTag, if_pos (by omega),
      SyntheticServer.parse_appendSymbolic hreq.named, htype, hbytes]
    rfl
  obtain ⟨r, hcode, -, hx⟩ := complete_exchanged hs hc hreq (by omega) hserver (Nat.zero_le _) hdone
  have hfits := hreq.fits
  have hk : ExplicitMessage.kMaxCipData = 256 := rfl
  refine ⟨hx.serving hs (fun name hname => ?_) (hs.small.update rfl ?_), hx.outcome.accepted hcode⟩
  · -- different ASCII names are different keys
    by_cases hsame : name = c.name
    · subst hsame
      dsimp only
      rw [Function.update_self, Function.update_self]
    · have hkey : some (decodeAscii name) ≠ some (decodeAscii c.name) := by
        intro heq
        simp only [Option.some.injEq] at heq
        exact hsame (SyntheticServer.decodeAscii_inj hname hc.ascii heq)
      dsimp only
      rw [Function.update_of_ne hkey, Function.update_of_ne hsame]
      exact hs.tags name hname
  · dsimp only
    omega

end Exchange

/-! ### Runs -/

section Run

variable {s : TagStore} {stored : Stored}

/-- What leaves the tag at rest and the message alone keeps the store. -/
private theorem Serving.update (hs : Serving s stored) (i : Nat) {t : Tag} (ht : ¬ t.InFlight) :
    Serving { s with tags := Function.update s.tags i t } stored := by
  refine ⟨fun j => ?_, hs.free, hs.quiet, hs.tags, hs.small⟩
  dsimp only
  by_cases hj : j = i
  · rw [hj, Function.update_self]
    exact ht
  · rw [Function.update_of_ne hj]
    exact hs.rest j

private theorem complete_refused {c : Call} {st : Status} {t : Tag} {msg : ExplicitMessage} (hst : st ≠ .pending) :
    (s.complete c (st, t, msg)).2 = { s with tags := Function.update s.tags c.tag t, msg := msg } := by
  unfold complete
  cases st <;> first | exact absurd rfl hst | rfl

/-- Every operation keeps the tags and the server in agreement with the map. -/
theorem serving_perform {op : Op} (hs : Serving s stored) (hop : op.Fair) :
    Serving (s.perform op).2 (s.record stored op) := by
  cases op with
  | edit i e =>
    apply hs.update i
    rw [PlcClient.edit_inFlight]
    exact hs.rest i
  | read c =>
    by_cases hread : (s.tagRead c).1 = .pending
    · exact (read_exchanged hs hop hread).1
    · obtain ⟨st, t, msg, hcall⟩ : ∃ st t msg, s.tagRead c = (st, t, msg) := ⟨_, _, _, rfl⟩
      rcases Tag.read_cases hcall with ⟨rfl, -⟩ | ⟨hst, rfl, rfl⟩
      · rw [hcall] at hread
        exact absurd rfl hread
      · rw [perform, hcall, complete_refused hst]
        exact hs.update c.tag (hs.rest c.tag)
  | write c =>
    by_cases hwrite : (s.tagWrite c).1 = .pending
    · rw [record, if_pos hwrite]
      exact (write_exchanged hs hop hwrite).1
    · rw [record, if_neg hwrite]
      obtain ⟨st, t, msg, hcall⟩ : ∃ st t msg, s.tagWrite c = (st, t, msg) := ⟨_, _, _, rfl⟩
      rcases Tag.write_cases hcall with ⟨rfl, -⟩ | ⟨hst, rfl, rfl⟩
      · rw [hcall] at hwrite
        exact absurd rfl hwrite
      · rw [perform, hcall, complete_refused hst]
        exact hs.update c.tag (hs.rest c.tag)

theorem serving_play {ops : List Op} (hs : Serving s stored) (hops : ∀ op ∈ ops, op.Fair) :
    Serving (play s stored ops).1 (play s stored ops).2 := by
  induction ops generalizing s stored with
  | nil => exact hs
  | cons op ops ih =>
    rw [play]
    exact ih (serving_perform hs (hops op List.mem_cons_self)) fun o ho => hops o (List.mem_cons_of_mem _ ho)

theorem serving_initial (h : Initial s) : Serving s initialStored := by
  refine ⟨h.rest, h.free, h.quiet, fun name _ => ?_, SyntheticServer.small_initial h.server⟩
  rw [h.server]
  rfl

/-- After any operations a read ends with what was written last under its name, or with what the server had there from
the beginning, and fails with status 4 when there is neither; a write ends. -/
theorem store_agrees {ops : List Op} (h : Initial s) (hops : ∀ op ∈ ops, op.Fair) :
    Agrees (play s initialStored ops).1 (play s initialStored ops).2 := by
  have hs := serving_play (serving_initial h) hops
  exact ⟨fun c hc hread => (read_exchanged hs hc hread).2, fun c hc hwrite => (write_exchanged hs hc hwrite).2⟩

/-- The operation is a write under the name. -/
def Op.Writes (name : List UInt8) : Op → Prop
  | .write c => c.name = name
  | .edit _ _ | .read _ => False

/-- Operations on other names leave what is stored under a name. -/
theorem play_kept {name : List UInt8} {ops : List Op} (h : ∀ op ∈ ops, ¬ op.Writes name) :
    (play s stored ops).2 name = stored name := by
  induction ops generalizing s stored with
  | nil => rfl
  | cons op ops ih =>
    have hop := h op List.mem_cons_self
    rw [play, ih fun o ho => h o (List.mem_cons_of_mem _ ho)]
    cases op with
    | edit i e => rfl
    | read c => rfl
    | write c =>
      unfold record
      dsimp only
      split
      · have hne : name ≠ c.name := fun heq => hop heq.symm
        rw [Function.update_of_ne hne]
      · rfl

/-- A read ends with what the last accepted write stored under its name, whatever was done with other names since. -/
theorem read_after_write {w c : Call} {ops : List Op} {s' : TagStore} (h : Serving s stored) (hw : w.Fair)
    (hwrite : (s.tagWrite w).1 = .pending) (hops : ∀ op ∈ ops, op.Fair) (hothers : ∀ op ∈ ops, ¬ op.Writes w.name)
    (hc : c.Fair) (hname : c.name = w.name) (hs' : (play s stored (.write w :: ops)).1 = s')
    (hread : (s'.tagRead c).1 = .pending) :
    (s'.perform (.read c)).1 = .ok ∧
      Holding ((s'.perform (.read c)).2.tags c.tag) (s.value w).typeCode (s.value w).value := by
  have hserving : Serving s' (play s stored (.write w :: ops)).2 := by
    rw [← hs']
    apply serving_play h
    intro op hop
    rcases List.mem_cons.1 hop with rfl | hop
    · exact hw
    · exact hops op hop
  have hstored : (play s stored (.write w :: ops)).2 c.name = some (s.value w) := by
    rw [play, hname, play_kept hothers, record, if_pos hwrite, Function.update_self]
  have hout := (read_exchanged hserving hc hread).2
  rw [hstored] at hout
  exact hout

end Run

/-- Tags without a value, on a connection that is up. -/
def unused : TagStore where
  tags _ := { data := .zero }
  link := { conn := { fd := 3, state := .ok } }

theorem initial_unused : Initial unused := by
  have hrest : ¬ ({ data := .zero } : Tag).InFlight := by decide
  exact ⟨fun _ => hrest, by decide, ⟨by decide, rfl, rfl, rfl⟩, rfl⟩

/-- A call for tag `i` under the name of the letter `name`, of which the request goes out in two pieces. -/
def demoCall (i : Nat) (name : UInt8) : Call where
  tag := i
  sessionHandle := 7
  name := [name]
  elementCount := 1
  timeoutMs := 1000
  now := 0
  moves := [.poll { sends := [.accepted 30] }, .serve, .poll {}, .deliver 3, .poll { recvs := [.data 1] }]
  millis _ := 0

theorem fair_demoCall (i : Nat) {name : UInt8} (h : name < 0x80) : (demoCall i name).Fair := by
  refine ⟨fun b hb => ?_, ?_, ?_⟩
  · rw [List.mem_singleton.1 hb]
    exact h
  · change ∀ m ∈ (demoCall 0 0).moves, m.InTime ((demoCall 0 0).now + (demoCall 0 0).timeoutMs)
    decide
  · change expired 0 (0 + 1000) = false
    decide

/-- Tag 0 gets the DINT 7. -/
def demoOps : List Op :=
  [.edit 0 (.setDataType 0xC4), .edit 0 (.setUint32 0 7), .write (demoCall 0 65), .read (demoCall 1 66)]

/-- Tag 1 reads what tag 0 has written, after a read of another name that fails. -/
theorem store_agrees_demo :
    (((play unused initialStored demoOps).1.perform (.read (demoCall 1 65))).1 = .ok ∧
      Holding (((play unused initialStored demoOps).1.perform (.read (demoCall 1 65))).2.tags 1) 0xC4 [7, 0, 0, 0]) ∧
    ((play unused initialStored demoOps).1.perform (.read (demoCall 1 66))).1 = .error := by
  have hfair : ∀ op ∈ demoOps, op.Fair := by
    intro op hop
    simp only [demoOps, List.mem_cons, List.not_mem_nil, or_false] at hop
    rcases hop with rfl | rfl | rfl | rfl
    · trivial
    · trivial
    · exact fair_demoCall 0 (by decide)
    · exact fair_demoCall 1 (by decide)
  have hagrees := store_agrees initial_unused hfair
  have hpresent := hagrees.read (demoCall 1 65) (fair_demoCall 1 (by decide)) (by decide +kernel)
  have habsent := hagrees.read (demoCall 1 66) (fair_demoCall 1 (by decide)) (by decide +kernel)
  have hstored : (play unused initialStored demoOps).2 (demoCall 1 65).name = some ⟨0xC4, [7, 0, 0, 0]⟩ ∧
      (play unused initialStored demoOps).2 (demoCall 1 66).name = none := by decide +kernel
  rw [hstored.1] at hpresent
  rw [hstored.2] at habsent
  exact ⟨hpresent, habsent.1⟩

end TagStore

end ControlLogix
