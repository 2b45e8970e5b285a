import ControlLogix.Connected
import ControlLogix.Readiness
import ControlLogix.TagStore

/-!
# The facade as a tag store

A sketch that works with tags through the facade: it allocates and frees them, sets their values, and reads and writes
them by handle, each accepted operation being run to its end by calls of `poll()`.

* `Site.store`: the tag store that the tags of a client, their message and the server are;
* `store_perform`: what a sketch does with a handle is what the store does with the tag of the handle;
* `client_agrees`: so the client and the server agree with the map of the names after any work of the sketch.
-/

namespace ControlLogix

open Messaging (Course)
open PlcClient (Unmoved)
open SyntheticServer (Ascii)
open Tag (Holding)

variable {n : Nat}

namespace PlcClient

/-- `p'` is `p` but for the tags, the shared message and the TCP connection. -/
structure Worked (p p' : PlcClient n) : Prop where
  same : p' = { p with slots := p'.slots, msg := p'.msg, tcp := p'.tcp }
  slots : ∀ j, ∃ tag st, p'.slots j = { p.slots j with tag := tag, prevStatus := st }

theorem Worked.trans {p p' p'' : PlcClient n} (h : Worked p p') (h' : Worked p' p'') : Worked p p'' := by
  refine ⟨?_, fun j => ?_⟩
  · rw [h'.same, h.same]
  · obtain ⟨tag, st, hst⟩ := h.slots j
    obtain ⟨tag', st', hst'⟩ := h'.slots j
    refine ⟨tag', st', ?_⟩
    rw [hst', hst]

theorem Worked.of_unmoved {p p' : PlcClient n} (h : Unmoved p p') : Worked p p' := by
  refine ⟨?_, fun j => ?_⟩
  · rw [h.same]
  · obtain ⟨st, hst⟩ := h.slots j
    exact ⟨_, st, hst⟩

theorem worked_setSlot (p : PlcClient n) (i : Fin n) (tag : Tag) (msg : ExplicitMessage) (tcp : TcpConnection) :
    Worked p ({ p with msg := msg, tcp := tcp }.setSlot i { p.slots i with tag := tag }) := by
  refine ⟨rfl, fun j => ?_⟩
  rw [setSlot_slots]
  by_cases hj : j = i
  · rw [if_pos hj, hj]
    exact ⟨tag, _, rfl⟩
  · rw [if_neg hj]
    exact ⟨_, _, rfl⟩

/-- What a handle stands for stays. -/
theorem Worked.slot {p p' : PlcClient n} (h : Worked p p') (j : Fin n) :
    (p'.slots j).inUse = (p.slots j).inUse ∧ (p'.slots j).name = (p.slots j).name ∧
      (p'.slots j).elemCount = (p.slots j).elemCount := by
  obtain ⟨tag, st, hst⟩ := h.slots j
  rw [hst]
  exact ⟨rfl, rfl, rfl⟩

theorem Worked.validHandle {p p' : PlcClient n} (h : Worked p p') (handle : Int) :
    p'.validHandle handle = p.validHandle handle := by
  unfold PlcClient.validHandle
  split
  · rename_i hbound
    rw [(h.slot ⟨handle.toNat, hbound.2⟩).1]
  · rfl

/-- The tag of slot `i` has an operation going on, and the others are as they were in `p₀`. -/
structure Operating (i : Fin n) (p₀ : PlcClient n) (x : Tag × ExplicitMessage) (p : PlcClient n) : Prop where
  worked : Worked p₀ p
  tag : (p.slots i).tag = x.1
  msg : p.msg = x.2
  others : ∀ j, j ≠ i → (p.slots j).tag = (p₀.slots j).tag

theorem Operating.poll {i : Fin n} {p₀ p : PlcClient n} {x x' : Tag × ExplicitMessage} {os : Platform} {st : Status}
    {conn' : TcpConnection} (h : Operating i p₀ x p) (hready : p₀.state = .ready) (huse : (p₀.slots i).inUse = true)
    (hrest : ∀ j, j ≠ i → ¬ (p₀.slots j).tag.InFlight) (hp : Tag.machine.poll x p.tcp os = (st, x', conn'))
    (hst : st ≠ .closed) :
    Operating i p₀ x' (p.poll os).2 ∧ (p.poll os).2.tcp = conn' ∧ conn'.sockets = p.tcp.sockets := by
  obtain ⟨t, msg⟩ := x
  obtain ⟨t', msg'⟩ := x'
  have htag : (p.slots i).tag = t := h.tag
  have hmsg : p.msg = msg := h.msg
  have hpoll : (p.slots i).tag.poll p.msg p.tcp os = (st, t', msg', conn') := by
    rw [htag, hmsg]
    simp only [Tag.machine, Prod.mk.injEq] at hp
    obtain ⟨h1, ⟨h2, h3⟩, h4⟩ := hp
    rw [← h1, ← h2, ← h3, ← h4]
  have hready' : p.state = .ready := by
    rw [h.worked.same]
    exact hready
  have hrest' : ∀ j, j ≠ i → ¬ (p.slots j).tag.InFlight := by
    intro j hj
    rw [h.others j hj]
    exact hrest j hj
  obtain ⟨-, hunmoved⟩ := poll_alone hready' ((h.worked.slot i).1.trans huse) hrest' hpoll hst
  have hsame := hunmoved.same
  refine ⟨⟨(h.worked.trans (worked_setSlot p i t' msg' conn')).trans (.of_unmoved hunmoved), ?_, ?_, fun j hj => ?_⟩,
    ?_, ?_⟩
  · rw [hunmoved.tag i, setSlot_self]
  · rw [hsame]
    rfl
  · rw [hunmoved.tag j, setSlot_of_ne _ _ hj]
    exact h.others j hj
  · rw [hsame]
    rfl
  · exact Tag.poll_sockets hpoll

theorem follows_operating {i : Fin n} {p₀ : PlcClient n} (hready : p₀.state = .ready)
    (huse : (p₀.slots i).inUse = true) (hrest : ∀ j, j ≠ i → ¬ (p₀.slots j).tag.InFlight) :
    Site.Follows Tag.machine.poll id (fun _ => True) (Operating i p₀) := by
  constructor
  · intro x p conn h
    refine ⟨?_, h.tag, h.msg, h.others⟩
    exact ⟨by rw [h.worked.same], h.worked.slots⟩
  · intro x p os x' conn' h _ hp
    exact h.poll hready huse hrest hp nofun

end PlcClient

namespace Site

open PlcClient (Worked Operating)

/-! ### The store -/

/-- The tags of the slots, the message they share, and the server. -/
def store (s : Site n) : TagStore where
  tags k := if h : k < n then (s.plc.slots ⟨k, h⟩).tag else { data := .zero }
  msg := s.plc.msg
  link := s.link
  server := s.server

theorem store_tag (s : Site n) (i : Fin n) : s.store.tags i.val = (s.plc.slots i).tag := dif_pos i.isLt

/-- The call of the tag that a call with a handle makes. -/
def request (s : Site n) (i : Fin n) (o : Course) : TagStore.Call where
  tag := i.val
  sessionHandle := s.plc.session.handle
  name := (s.plc.slots i).name
  elementCount := (s.plc.slots i).elemCount
  timeoutMs := o.timeoutMs
  now := o.now
  moves := o.moves
  millis := o.millis

/-- Two sites that hold the same tags. -/
private theorem store_eq {s s' : Site n} (htag : ∀ j, (s'.plc.slots j).tag = (s.plc.slots j).tag)
    (hmsg : s'.plc.msg = s.plc.msg) (hlink : s'.link = s.link) (hserver : s'.server = s.server) :
    s'.store = s.store := by
  unfold store
  rw [hmsg, hlink, hserver]
  congr 1
  funext k
  by_cases hk : k < n
  · rw [dif_pos hk, dif_pos hk, htag]
  · rw [dif_neg hk, dif_neg hk]

/-- One tag and what it works with are exchanged. -/
private theorem store_update {s t : Site n} {i : Fin n}
    (hothers : ∀ j, j ≠ i → (t.plc.slots j).tag = (s.plc.slots j).tag) :
    t.store = { tags := Function.update s.store.tags i.val (t.plc.slots i).tag, msg := t.plc.msg, link := t.link,
                server := t.server } := by
  unfold store
  congr 1
  funext k
  by_cases hi : k = i.val
  · rw [hi, Function.update_self, dif_pos i.isLt]
  · rw [Function.update_of_ne hi]
    dsimp only
    by_cases hk : k < n
    · rw [dif_pos hk, dif_pos hk]
      exact hothers ⟨k, hk⟩ fun heq => hi (congrArg Fin.val heq)
    · rw [dif_neg hk, dif_neg hk]

/-! ### An operation from its start to its end -/

section Operation

variable {s : Site n} {i : Fin n}

/-- A tag that is done or has failed tells so. -/
private theorem status_of_poll {t t' : Tag} {msg msg' : ExplicitMessage} {conn conn' : TcpConnection} {os : Platform}
    {st : Status} (h : t.poll msg conn os = (st, t', msg', conn')) (hst : st = .ok ∨ st = .error) :
    t'.status = st := by
  by_cases hin : t.InFlight
  · obtain ⟨mst, -, hadvanced⟩ := Tag.poll_inFlight hin h
    cases hadvanced with
    | pending hm => rcases hst with hst | hst <;> cases hst
    | broke hm =>
      rcases hst with rfl | rfl
      · exact absurd rfl hm.2
      · rfl
    | refused hm hc => rfl
    | done hm hc =>
      unfold Tag.accept
      split <;> rfl
  · rw [Tag.poll_rest hin, Prod.mk.injEq, Prod.mk.injEq] at h
    rw [← h.2.1, h.1]

/-- The moves run the operation that has been started on the tag of slot `i` to its end. -/
private theorem operation_ends {t t' : Tag} {msg msg' : ExplicitMessage} {ms : List Move} {st : Status} {l' : Link}
    {v' : SyntheticServer} (hs : Standing s) (huse : (s.plc.slots i).inUse = true)
    (hc : Link.converse Tag.machine.poll SyntheticServer.handle (t, msg) s.link s.server
      ms = (st, (t', msg'), l', v'))
    (hst : st = .ok ∨ st = .error) (hrest : ¬ t'.InFlight) (hfree : ¬ msg'.InFlight) (hquiet : l'.Quiet) :
    ∃ s', ({ s with plc := { s.plc with msg := msg }.setSlot i { s.plc.slots i with tag := t } } : Site n).moves
    ms = s' ∧ Standing s' ∧ Worked s.plc s'.plc ∧ (s'.plc.slots i).tag.status = st ∧
      s'.store = { tags := Function.update s.store.tags i.val t', msg := msg', link := l', server := v' } := by
  generalize hs₁ : ({ s with plc := { s.plc with msg := msg }.setSlot i { s.plc.slots i with tag := t } } : Site n) =
    s₁
  have hothers : ∀ j, j ≠ i → ¬ (s.plc.slots j).tag.InFlight := fun j _ => hs.rest j
  have hstart : Operating i s.plc (t, msg) s₁.plc := by
    rw [← hs₁]
    refine ⟨PlcClient.worked_setSlot s.plc i t msg s.plc.tcp, ?_, rfl, fun j hj => ?_⟩
    · rw [PlcClient.setSlot_self]
    · rw [PlcClient.setSlot_of_ne _ _ hj]
  have hlink : s₁.link = s.link ∧ s₁.server = s.server := by
    rw [← hs₁]
    exact ⟨rfl, rfl⟩
  rw [← hlink.1, ← hlink.2, ← Move.map_id ms] at hc
  have hfollowed := moves_converse (PlcClient.follows_operating hs.ready huse hothers) hstart (fun _ _ => trivial) hc
  cases hfollowed with
  | goesOn holds link server => rcases hst with hst | hst <;> cases hst
  | @ended _ hne used rest os x split holds polled link server =>
    rw [id_eq] at polled
    have hclosed : st ≠ .closed := by rcases hst with rfl | rfl <;> decide
    obtain ⟨hlast, htcp, hsockets⟩ := holds.poll hs.ready huse hothers polled hclosed
    obtain ⟨s₂, hs₂⟩ : ∃ s₂, (s₁.moves used).move (.poll os) = s₂ := ⟨_, rfl⟩
    have hmove : s₂ = { s₁.moves used with plc := ((s₁.moves used).plc.poll os).2 } := by
      rw [← hs₂, move]
      exact attach_same (by rw [htcp, hsockets])
    have hplc : s₂.plc = ((s₁.moves used).plc.poll os).2 := by rw [hmove]
    have hlink₂ : s₂.link = l' := by
      rw [hmove, Site.link, htcp, link]
      rfl
    have hserver₂ : s₂.server = v' := by
      rw [hmove]
      exact server
    rw [← hplc] at hlast
    have hsame := hlast.worked.same
    have hstanding : Standing s₂ := by
      refine ⟨?_, ?_, ?_, by rw [hlink₂]; exact hquiet, fun j => ?_, by rw [hlast.msg]; exact hfree⟩
      · rw [hsame]
        exact hs.ready
      · rw [hsame]
        exact hs.registered
      · rw [hsame]
        exact hs.handle
      · by_cases hj : j = i
        · rw [hj, hlast.tag]
          exact hrest
        · rw [hlast.others j hj]
          exact hs.rest j
    obtain ⟨hstands, hunmoved, hlink₃, hserver₃⟩ := standing_moves hstanding rest
    have hstatus : t'.status = st := by
      obtain ⟨t₁, msg₁⟩ := x
      simp only [Tag.machine, Prod.mk.injEq] at polled
      obtain ⟨h1, ⟨h2, -⟩, -⟩ := polled
      rw [← h2, ← h1]
      exact status_of_poll rfl (by rw [h1]; exact hst)
    rw [split, moves_append, moves_cons, hs₂]
    refine ⟨_, rfl, hstands, hlast.worked.trans (.of_unmoved hunmoved), ?_, ?_⟩
    · rw [hunmoved.tag i, hlast.tag]
      exact hstatus
    · have hmsg : (s₂.moves rest).plc.msg = s₂.plc.msg := by rw [hunmoved.same]
      rw [store_eq hunmoved.tag hmsg hlink₃ hserver₃, store_update hlast.others, hlast.tag, hlast.msg, hlink₂,
        hserver₂]

end Operation

/-! ### The work of a sketch -/

inductive Job where
  | create (name : Option (List UInt8)) (elementCount : UInt32)
  | destroy (handle : Int)
  | edit (handle : Int) (e : PlcClient.Edit)
  | read (handle : Int) (o : Course)
  | write (handle : Int) (o : Course)

/-- Names are ASCII, and no call of `poll()` comes after the deadline or finds the transport failed. -/
def Job.Fair : Job → Prop
  | .create name _ => ∀ bs, name = some bs → Ascii bs
  | .read _ o | .write _ o => o.Fair
  | .destroy _ | .edit _ _ => True

/-- A call that was refused is over, one that was accepted is run to completion. -/
def complete (s : Site n) (o : Course) (op : Op) (st : Status) : Site n :=
  if st = .pending then (s.call op).moves (o.moves ++ flush o.millis) else s.call op

def perform (s : Site n) : Job → Site n
  | .create name elementCount => s.call (.createTag name elementCount)
  | .destroy handle => s.call (.destroyTag handle)
  | .edit handle e => s.call (.editTag handle e)
  | .read handle o => s.complete o (.read handle o.timeoutMs o.now) (s.plc.read handle o.timeoutMs o.now).1
  | .write handle o => s.complete o (.write handle o.timeoutMs o.now) (s.plc.write handle o.timeoutMs o.now).1

/-- What a job is to the store. -/
def storeOp (s : Site n) : Job → Option TagStore.Op
  | .create _ _ | .destroy _ => none
  | .edit handle e => (s.plc.validHandle handle).map fun i => .edit i.val e
  | .read handle o => (s.plc.validHandle handle).map fun i => .read (s.request i o)
  | .write handle o => (s.plc.validHandle handle).map fun i => .write (s.request i o)

/-- The store after a job. -/
def storeAfter (s : Site n) (job : Job) : TagStore :=
  match s.storeOp job with
  | none => s.store
  | some op => (s.store.perform op).2

/-- An accepted write stores the value of the tag under the name of the handle. -/
def record (s : Site n) (stored : Stored) (job : Job) : Stored :=
  match s.storeOp job with
  | none => stored
  | some op => s.store.record stored op

def run : Site n → Stored → List Job → Site n × Stored
  | s, stored, [] => (s, stored)
  | s, stored, job :: jobs => run (s.perform job) (s.record stored job) jobs

/-- The client is ready, the names of the tags are fit for a request, and the server keeps what is stored. -/
structure Held (s : Site n) (stored : Stored) : Prop where
  standing : Standing s
  named : ∀ i, (s.plc.slots i).inUse = true → Ascii (s.plc.slots i).name ∧
    (s.plc.slots i).name.length < PlcClient.kMaxTagName
  serving : TagStore.Serving s.store stored

section Work

variable {s : Site n} {stored : Stored} {i : Fin n} {handle : Int} {o : Course}

/-- A call that changes tags at most. -/
private theorem call_same {op : Op} {p : PlcClient n} (hcall : (s.plc.call op).2 = p) (htcp : p.tcp = s.plc.tcp) :
    s.call op = { s with plc := p } := by
  rw [call, hcall]
  exact attach_same (by rw [htcp])

/-- `read()` and `write()` on a valid handle call the tag. -/
private theorem startTag_standing (hs : Standing s) (hv : s.plc.validHandle handle = some i)
    (f : Tag → ExplicitMessage → TcpConnection → UInt32 → Option (List UInt8) → UInt32 →
      Status × Tag × ExplicitMessage)
    {r : Status × Tag × ExplicitMessage}
    (hr : f (s.plc.slots i).tag s.plc.msg s.plc.tcp s.plc.session.handle (some (s.plc.slots i).name)
      (s.plc.slots i).elemCount = r) :
    s.plc.startTag handle f = (r.1, { s.plc with msg := r.2.2 }.setSlot i { s.plc.slots i with tag := r.2.1 }) := by
  have hready : ¬ s.plc.state ≠ .ready := fun h => h hs.ready
  have hbusy : ¬ s.plc.anyTagBusy = true := by
    intro h
    obtain ⟨j, -, hj⟩ := PlcClient.anyTagBusy_iff.1 h
    exact hs.rest j hj
  obtain ⟨st, tag, msg⟩ := r
  rw [PlcClient.startTag, hv]
  dsimp only
  rw [if_neg hready, if_neg hbusy, hr]

private theorem startTag_invalid (hv : s.plc.validHandle handle = none)
    (f : Tag → ExplicitMessage → TcpConnection → UInt32 → Option (List UInt8) → UInt32 →
      Status × Tag × ExplicitMessage) :
    s.plc.startTag handle f = (.invalidArg, s.plc) := by
  rw [PlcClient.startTag, hv]

private theorem complete_not_pending {st : TagStore} {c : TagStore.Call} {r : Status × Tag × ExplicitMessage}
    (hr : r.1 ≠ .pending) :
    (st.complete c r).2 = { st with tags := Function.update st.tags c.tag r.2.1, msg := r.2.2 } := by
  obtain ⟨rst, tag, msg⟩ := r
  unfold TagStore.complete
  cases rst <;> first | exact absurd rfl hr | rfl

/-- A read or a write by handle is that of the tag of the handle, run to its end. -/
private theorem complete_store (stored' : Stored) (o : Course) (h : Held s stored)
    (hv : s.plc.validHandle handle = some i) {op : Op} {r : Status × Tag × ExplicitMessage}
    (hcall : (s.plc.call op).2 = { s.plc with msg := r.2.2 }.setSlot i { s.plc.slots i with tag := r.2.1 })
    (haccepted : r.1 = .pending → TagStore.Serving (s.store.complete (s.request i o) r).2 stored' ∧
      ((s.store.complete (s.request i o) r).1 = .ok ∨ (s.store.complete (s.request i o) r).1 = .error))
    (hrefused : r.1 ≠ .pending → r.2 = ((s.plc.slots i).tag, s.plc.msg) ∧ stored' = stored) :
    Held (s.complete o op r.1) stored' ∧ (s.complete o op r.1).store = (s.store.complete (s.request i o) r).2 ∧
      Worked s.plc (s.complete o op r.1).plc ∧
      (r.1 = .pending →
        ((s.complete o op r.1).plc.slots i).tag.status = (s.store.complete (s.request i o) r).1) := by
  obtain ⟨huse, -⟩ := PlcClient.validHandle_inUse hv
  obtain ⟨st, tag, msg⟩ := r
  have hsame := call_same hcall rfl
  by_cases hst : st = .pending
  · subst hst
    obtain ⟨hserving, hends⟩ := haccepted rfl
    obtain ⟨st', ⟨t', msg'⟩, l', v', hcon⟩ : ∃ st' x'
      l' v', Link.converse Tag.machine.poll SyntheticServer.handle (tag, msg)
      s.link s.server (o.moves ++ flush o.millis) = (st', x', l', v') := ⟨_, _, _, _, rfl⟩
    have hstore : s.store.complete (s.request i o) (.pending, tag, msg) =
        (st', { tags := Function.update s.store.tags i.val t', msg := msg', link := l', server := v' }) := by
      have hcon' : Link.converse Tag.machine.poll SyntheticServer.handle (tag, msg) s.store.link s.store.server
          ((s.request i o).moves ++ flush (s.request i o).millis) = (st', (t', msg'), l', v') := hcon
      rw [TagStore.complete, hcon']
      rfl
    rw [hstore] at hserving hends ⊢
    have hrest := hserving.rest i.val
    dsimp only at hrest hends
    rw [Function.update_self] at hrest
    obtain ⟨s', hmoves, hstanding, hworked, hstatus, hstore'⟩ := operation_ends h.standing huse hcon hends hrest
      hserving.free hserving.quiet
    have hcomplete : s.complete o op .pending = s' := by
      rw [complete, if_pos rfl, hsame]
      exact hmoves
    rw [hcomplete]
    refine ⟨⟨hstanding, fun j hj => ?_, ?_⟩, hstore', hworked, fun _ => hstatus⟩
    · obtain ⟨huse', hname, -⟩ := hworked.slot j
      rw [hname]
      exact h.named j (huse' ▸ hj)
    · rw [hstore']
      exact hserving
  · obtain ⟨hkept, rfl⟩ := hrefused hst
    rw [Prod.mk.injEq] at hkept
    obtain ⟨rfl, rfl⟩ := hkept
    have hcomplete : s.complete o op st = s := by
      rw [complete, if_neg hst, hsame]
      simp [PlcClient.setSlot]
    have hstore : (s.store.complete (s.request i o) (st, (s.plc.slots i).tag, s.plc.msg)).2 = s.store := by
      rw [complete_not_pending hst]
      change ({ s.store with
        tags := Function.update s.store.tags i.val (s.plc.slots i).tag, msg := s.plc.msg } : TagStore) = _
      rw [← store_tag, Function.update_eq_self]
      rfl
    rw [hcomplete, hstore]
    exact ⟨h, rfl, .of_unmoved (.refl _), fun hpending => absurd hpending hst⟩

private theorem fair_request (h : Held s stored) (hv : s.plc.validHandle handle = some i) (ho : o.Fair) :
    (s.request i o).Fair :=
  ⟨(h.named i (PlcClient.validHandle_inUse hv).1).1, ho.moves, ho.last⟩

theorem tagRead_request (s : Site n) (i : Fin n) (o : Course) : s.store.tagRead (s.request i o) =
    (s.plc.slots i).tag.read s.plc.msg s.plc.tcp s.plc.session.handle (some (s.plc.slots i).name)
    (s.plc.slots i).elemCount o.timeoutMs o.now := by
  rw [TagStore.tagRead, show (s.request i o).tag = i.val from rfl, store_tag]
  rfl

theorem tagWrite_request (s : Site n) (i : Fin n) (o : Course) : s.store.tagWrite (s.request i o) =
    (s.plc.slots i).tag.write s.plc.msg s.plc.tcp s.plc.session.handle (some (s.plc.slots i).name)
    (s.plc.slots i).elemCount o.timeoutMs o.now := by
  rw [TagStore.tagWrite, show (s.request i o).tag = i.val from rfl, store_tag]
  rfl

private theorem read_standing (hs : Standing s) (hv : s.plc.validHandle handle = some i) (o : Course) :
    s.plc.read handle o.timeoutMs o.now = ((s.store.tagRead (s.request i o)).1,
      { s.plc with msg := (s.store.tagRead (s.request i o)).2.2 }.setSlot i
        { s.plc.slots i with tag := (s.store.tagRead (s.request i o)).2.1 }) :=
  startTag_standing hs hv _ (tagRead_request s i o).symm

private theorem write_standing (hs : Standing s) (hv : s.plc.validHandle handle = some i) (o : Course) :
    s.plc.write handle o.timeoutMs o.now = ((s.store.tagWrite (s.request i o)).1,
      { s.plc with msg := (s.store.tagWrite (s.request i o)).2.2 }.setSlot i
        { s.plc.slots i with tag := (s.store.tagWrite (s.request i o)).2.1 }) :=
  startTag_standing hs hv _ (tagWrite_request s i o).symm

/-- A read on a valid handle. -/
private theorem read_served (h : Held s stored) (hv : s.plc.validHandle handle = some i) (ho : o.Fair) :
    Held (s.perform (.read handle o)) stored ∧ (s.perform (.read handle o)).store = s.storeAfter (.read handle o) ∧
      Worked s.plc (s.perform (.read handle o)).plc ∧
      ((s.plc.read handle o.timeoutMs o.now).1 = .pending →
        ((s.perform (.read handle o)).plc.slots i).tag.status = (s.store.perform (.read (s.request i o))).1) := by
  have hfair := fair_request h hv ho
  have hread := read_standing h.standing hv o
  have hstore : s.storeAfter (.read handle o) = (s.store.perform (.read (s.request i o))).2 := by
    rw [storeAfter, storeOp, hv]
    rfl
  have hcall : (s.plc.call (.read handle o.timeoutMs o.now)).2 = (s.plc.read handle o.timeoutMs o.now).2 := rfl
  rw [hread] at hcall
  have hdone := complete_store stored o h hv hcall
    (fun haccepted => by
      obtain ⟨hserving, hout⟩ := TagStore.read_exchanged h.serving hfair haccepted
      refine ⟨hserving, ?_⟩
      cases hentry : stored (s.request i o).name with
      | none =>
        rw [hentry] at hout
        exact Or.inr hout.1
      | some entry =>
        rw [hentry] at hout
        exact Or.inl hout.1)
    (fun hrefused => by
      rw [tagRead_request] at hrefused ⊢
      obtain ⟨st, t, msg, hcases⟩ : ∃ st t msg, (s.plc.slots i).tag.read s.plc.msg s.plc.tcp s.plc.session.handle
        (some (s.plc.slots i).name) (s.plc.slots i).elemCount o.timeoutMs o.now = (st, t, msg) := ⟨_, _, _, rfl⟩
      rw [hcases] at hrefused ⊢
      rcases Tag.read_cases hcases with ⟨rfl, -⟩ | ⟨-, rfl, rfl⟩
      · exact absurd rfl hrefused
      · exact ⟨rfl, rfl⟩)
  rw [perform, hread, hstore]
  exact hdone

/-- A write on a valid handle. -/
private theorem write_served (h : Held s stored) (hv : s.plc.validHandle handle = some i) (ho : o.Fair) :
    Held (s.perform (.write handle o)) (s.record stored (.write handle o)) ∧
      (s.perform (.write handle o)).store = s.storeAfter (.write handle o) ∧
      Worked s.plc (s.perform (.write handle o)).plc ∧
      ((s.plc.write handle o.timeoutMs o.now).1 = .pending →
        ((s.perform (.write handle o)).plc.slots i).tag.status = (s.store.perform (.write (s.request i o))).1) := by
  have hfair := fair_request h hv ho
  have hwrite := write_standing h.standing hv o
  have hstore : s.storeAfter (.write handle o) = (s.store.perform (.write (s.request i o))).2 := by
    rw [storeAfter, storeOp, hv]
    rfl
  have hrecord : s.record stored (.write handle o) = s.store.record stored (.write (s.request i o)) := by
    rw [record, storeOp, hv]
    rfl
  have hcall : (s.plc.call (.write handle o.timeoutMs o.now)).2 = (s.plc.write handle o.timeoutMs o.now).2 := rfl
  rw [hwrite] at hcall
  have hdone := complete_store (s.record stored (.write handle o)) o h hv hcall
    (fun haccepted => by
      obtain ⟨hserving, hout⟩ := TagStore.write_exchanged h.serving hfair haccepted
      rw [hrecord, TagStore.record, if_pos haccepted]
      exact ⟨hserving, Or.inl hout⟩)
    (fun hrefused => by
      rw [hrecord, TagStore.record, if_neg hrefused]
      rw [tagWrite_request] at hrefused ⊢
      obtain ⟨st, t, msg, hcases⟩ : ∃ st t msg, (s.plc.slots i).tag.write s.plc.msg s.plc.tcp s.plc.session.handle
        (some (s.plc.slots i).name) (s.plc.slots i).elemCount o.timeoutMs o.now = (st, t, msg) := ⟨_, _, _, rfl⟩
      rw [hcases] at hrefused ⊢
      rcases Tag.write_cases hcases with ⟨rfl, -⟩ | ⟨-, rfl, rfl⟩
      · exact absurd rfl hrefused
      · exact ⟨rfl, rfl⟩)
  rw [perform, hwrite, hstore]
  exact hdone

/-- A slot gets new content, and its tag stays at rest. -/
private theorem held_setSlot {sl : Slot} (h : Held s stored) (hrest : ¬ sl.tag.InFlight)
    (hnamed : sl.inUse = true → Ascii sl.name ∧ sl.name.length < PlcClient.kMaxTagName)
    (hserving : TagStore.Serving ({ s with plc := s.plc.setSlot i sl } : Site n).store stored) :
    Held { s with plc := s.plc.setSlot i sl } stored := by
  refine ⟨⟨h.standing.ready, h.standing.registered, h.standing.handle, h.standing.quiet, ?_, h.standing.free⟩, ?_,
    hserving⟩
  · exact PlcClient.setSlot_elim (P := fun _ (sl : Slot) => ¬ sl.tag.InFlight) s.plc hrest fun j _ =>
      h.standing.rest j
  · exact PlcClient.setSlot_elim (P := fun _ (sl : Slot) => sl.inUse = true →
      Ascii sl.name ∧ sl.name.length < PlcClient.kMaxTagName) s.plc hnamed fun j _ => h.named j

private theorem store_setSlot (s : Site n) (i : Fin n) (sl : Slot) :
    ({ s with plc := s.plc.setSlot i sl } : Site n).store =
      { s.store with tags := Function.update s.store.tags i.val sl.tag } := by
  have hothers : ∀ j, j ≠ i → ((s.plc.setSlot i sl).slots j).tag = (s.plc.slots j).tag := by
    intro j hj
    rw [PlcClient.setSlot_of_ne _ _ hj]
  rw [store_update (t := { s with plc := s.plc.setSlot i sl }) hothers]
  dsimp only
  rw [PlcClient.setSlot_self]
  rfl

/-- A slot changes that keeps its tag. -/
private theorem held_slot {sl : Slot} (h : Held s stored) (htag : sl.tag = (s.plc.slots i).tag)
    (hnamed : sl.inUse = true → Ascii sl.name ∧ sl.name.length < PlcClient.kMaxTagName) :
    Held { s with plc := s.plc.setSlot i sl } stored ∧
      ({ s with plc := s.plc.setSlot i sl } : Site n).store = s.store := by
  have hstore : ({ s with plc := s.plc.setSlot i sl } : Site n).store = s.store := by
    rw [store_setSlot, htag, ← store_tag, Function.update_eq_self]
  refine ⟨held_setSlot h ?_ hnamed ?_, hstore⟩
  · rw [htag]
    exact h.standing.rest i
  · rw [hstore]
    exact h.serving

private theorem create_served {name : Option (List UInt8)} {elementCount : UInt32} (h : Held s stored)
    (hname : ∀ bs, name = some bs → Ascii bs) :
    Held (s.call (.createTag name elementCount)) stored ∧
    (s.call (.createTag name elementCount)).store = s.store := by
  have hcases := call_cases s.plc (.createTag name elementCount)
  generalize hp : (s.plc.call (.createTag name elementCount)).2 = p at hcases
  generalize World.callEvents s.plc (.createTag name elementCount) = events at hcases
  cases hcases with
  | linked hop => exact absurd hop id
  | @created bs _ i free bounded =>
    rw [call_same hp rfl]
    exact held_slot h rfl fun _ => ⟨hname bs rfl, bounded.2⟩
  | started hop => rcases hop with hop | hop <;> cases hop
  | refused =>
    rw [call_same hp rfl]
    exact ⟨h, rfl⟩

private theorem destroy_served {handle : Int} (h : Held s stored) :
    Held (s.call (.destroyTag handle)) stored ∧ (s.call (.destroyTag handle)).store = s.store := by
  have hcases := call_cases s.plc (.destroyTag handle)
  generalize hp : (s.plc.call (.destroyTag handle)).2 = p at hcases
  generalize World.callEvents s.plc (.destroyTag handle) = events at hcases
  cases hcases with
  | linked hop => exact absurd hop id
  | @destroyed i inUse =>
    rw [call_same hp rfl]
    exact held_slot h rfl nofun
  | started hop => rcases hop with hop | hop <;> cases hop
  | refused =>
    rw [call_same hp rfl]
    exact ⟨h, rfl⟩

private theorem edit_served {handle : Int} {e : PlcClient.Edit} (h : Held s stored) :
    Held (s.call (.editTag handle e)) stored ∧ (s.call (.editTag handle e)).store = s.storeAfter
    (.edit handle e) := by
  cases hv : s.plc.validHandle handle with
  | none =>
    have hcall : (s.plc.call (.editTag handle e)).2 = s.plc := by
      change s.plc.editTag handle e = _
      rw [PlcClient.editTag, hv]
    rw [call_same hcall rfl, storeAfter, storeOp, hv]
    exact ⟨h, rfl⟩
  | some i =>
    have hcall : (s.plc.call (.editTag handle e)).2 =
        s.plc.setSlot i { s.plc.slots i with tag := e.apply (s.plc.slots i).tag } := by
      change s.plc.editTag handle e = _
      rw [PlcClient.editTag, hv]
    have hstore : ({ s with plc := s.plc.setSlot i { s.plc.slots i with tag := e.apply (s.plc.slots i).tag } } :
        Site n).store = (s.store.perform (.edit i.val e)).2 := by
      rw [store_setSlot, TagStore.perform, store_tag]
    rw [call_same hcall rfl, storeAfter, storeOp, hv]
    refine ⟨held_setSlot h ?_ (h.named i) ?_, hstore⟩
    · rw [PlcClient.edit_inFlight]
      exact h.standing.rest i
    · have hfair : (TagStore.Op.edit i.val e).Fair := trivial
      rw [hstore]
      exact TagStore.serving_perform h.serving hfair

/-- What a sketch does with a handle is what the store does with the tag of the handle. -/
theorem store_perform {job : Job} (h : Held s stored) (hjob : job.Fair) :
    Held (s.perform job) (s.record stored job) ∧ (s.perform job).store = s.storeAfter job := by
  cases job with
  | create name elementCount => exact create_served h hjob
  | destroy handle => exact destroy_served h
  | edit handle e =>
    have hrecord : s.record stored (.edit handle e) = stored := by
      rw [record, storeOp]
      cases s.plc.validHandle handle <;> rfl
    rw [hrecord]
    exact edit_served h
  | read handle o =>
    cases hv : s.plc.validHandle handle with
    | none =>
      have hread : s.plc.read handle o.timeoutMs o.now = (.invalidArg, s.plc) := startTag_invalid hv _
      have hcall : (s.plc.call (.read handle o.timeoutMs o.now)).2 = s.plc := by
        change (s.plc.read handle o.timeoutMs o.now).2 = _
        rw [hread]
      rw [perform, hread, complete, if_neg nofun, call_same hcall rfl, record, storeAfter, storeOp, hv]
      exact ⟨h, rfl⟩
    | some i =>
      have hrecord : s.record stored (.read handle o) = stored := by
        rw [record, storeOp, hv]
        rfl
      obtain ⟨hheld, hstore, -⟩ := read_served h hv hjob
      rw [hrecord]
      exact ⟨hheld, hstore⟩
  | write handle o =>
    cases hv : s.plc.validHandle handle with
    | none =>
      have hwrite : s.plc.write handle o.timeoutMs o.now = (.invalidArg, s.plc) := startTag_invalid hv _
      have hcall : (s.plc.call (.write handle o.timeoutMs o.now)).2 = s.plc := by
        change (s.plc.write handle o.timeoutMs o.now).2 = _
        rw [hwrite]
      rw [perform, hwrite, complete, if_neg nofun, call_same hcall rfl, record, storeAfter, storeOp, hv]
      exact ⟨h, rfl⟩
    | some i =>
      obtain ⟨hheld, hstore, -⟩ := write_served h hv hjob
      exact ⟨hheld, hstore⟩

theorem held_run {jobs : List Job} (h : Held s stored) (hjobs : ∀ job ∈ jobs, job.Fair) :
    Held (s.run stored jobs).1 (s.run stored jobs).2 := by
  induction jobs generalizing s stored with
  | nil => exact h
  | cons job jobs ih =>
    rw [run]
    exact ih (store_perform h (hjobs job List.mem_cons_self)).1 fun j hj => hjobs j (List.mem_cons_of_mem job hj)

/-- What operations by handle come to. -/
structure Agrees (s : Site n) (stored : Stored) : Prop where
  read : ∀ (handle : Int) (i : Fin n) (o : Course), s.plc.validHandle handle = some i → o.Fair →
    (s.plc.read handle o.timeoutMs o.now).1 = .pending ∧
      match stored (s.plc.slots i).name with
      | some entry => (s.perform (.read handle o)).plc.tagStatus handle = .ok ∧
          Holding ((s.perform (.read handle o)).plc.slots i).tag entry.typeCode entry.value
      | none => (s.perform (.read handle o)).plc.tagStatus handle = .error ∧
          ((s.perform (.read handle o)).plc.slots i).tag.resultCode = 4
  write : ∀ (handle : Int) (i : Fin n) (o : Course), s.plc.validHandle handle = some i → o.Fair →
    (s.plc.write handle o.timeoutMs o.now).1 = .pending → (s.perform (.write handle o)).plc.tagStatus handle = .ok

private theorem tagStatus_worked {p p' : PlcClient n} (hv : p.validHandle handle = some i) (hworked : Worked p p') :
    p'.tagStatus handle = (p'.slots i).tag.status := by
  rw [PlcClient.tagStatus, hworked.validHandle handle, hv]

/-- The operations of a client that holds what is stored. -/
theorem held_agrees (h : Held s stored) : Agrees s stored := by
  constructor
  · intro handle i o hv ho
    have hstart := read_standing h.standing hv o
    have haccepted : (s.store.tagRead (s.request i o)).1 = .pending := by
      obtain ⟨-, hlen⟩ := h.named i (PlcClient.validHandle_inUse hv).1
      have hstate : s.plc.tcp.state = .ok := h.standing.quiet.usable.2
      have hconnected : s.plc.tcp.connected := by simpa [TcpConnection.connected] using hstate
      rw [tagRead_request, Tag.read_iff (h.standing.rest i) h.standing.free hconnected]
      have hk : PlcClient.kMaxTagName = 64 := rfl
      have hk' : kMaxSymbolicName = 120 := rfl
      omega
    have hpending : (s.plc.read handle o.timeoutMs o.now).1 = .pending := by
      rw [hstart]
      exact haccepted
    obtain ⟨-, hstore, hworked, hstatus⟩ := read_served h hv ho
    have hout := (TagStore.read_exchanged h.serving (fair_request h hv ho) haccepted).2
    have hafter : s.storeAfter (.read handle o) = (s.store.perform (.read (s.request i o))).2 := by
      rw [storeAfter, storeOp, hv]
      rfl
    have htag : (s.store.perform (.read (s.request i o))).2.tags i.val =
        ((s.perform (.read handle o)).plc.slots i).tag := by
      rw [← hafter, ← hstore, store_tag]
    refine ⟨hpending, ?_⟩
    rw [tagStatus_worked hv hworked, hstatus hpending, ← htag]
    exact hout
  · intro handle i o hv ho hpending
    have hstart := write_standing h.standing hv o
    have haccepted : (s.store.tagWrite (s.request i o)).1 = .pending := by
      rw [hstart] at hpending
      exact hpending
    obtain ⟨-, -, hworked, hstatus⟩ := write_served h hv ho
    rw [tagStatus_worked hv hworked, hstatus hpending]
    exact (TagStore.write_exchanged h.serving (fair_request h hv ho) haccepted).2

/-- A client that is ready works with its tags by handle, and every accepted operation is run to its end, however the
transfers are split.  After any such work every valid handle can be read, and a read ends with what was written last
under the name of the handle by whatever handle, or with what the server had there from the beginning, and fails with
status 4 when there is neither; a write ends. -/
theorem client_agrees {jobs : List Job} (h : Standing s) (hserver : s.server.tags = ({} : SyntheticServer).tags)
    (hnamed : ∀ i, (s.plc.slots i).inUse = true →
      Ascii (s.plc.slots i).name ∧ (s.plc.slots i).name.length < PlcClient.kMaxTagName)
    (hjobs : ∀ job ∈ jobs, job.Fair) :
    Standing (s.run TagStore.initialStored jobs).1 ∧
      Agrees (s.run TagStore.initialStored jobs).1 (s.run TagStore.initialStored jobs).2 := by
  have hrest : ∀ k, ¬ (s.store.tags k).InFlight := by
    intro k
    unfold store
    dsimp only
    split
    · rename_i hk
      exact h.rest ⟨k, hk⟩
    · exact show ¬ ({ data := .zero } : Tag).InFlight by decide
  have hheld : Held s TagStore.initialStored :=
    ⟨h, hnamed, TagStore.serving_initial ⟨hrest, h.free, h.quiet, hserver⟩⟩
  have hrun := held_run hheld hjobs
  exact ⟨hrun.standing, held_agrees hrun⟩

/-- The DINT 7 is written by handle 0; handle 1 gets the same name and, once it is free, another. -/
def demoJobs : List Job :=
  [.create (some [65]) 1, .edit 0 (.setDataType 0xC4), .edit 0 (.setUint32 0 7), .write 0 Messaging.demoCourse,
   .create (some [66]) 1, .read 1 Messaging.demoCourse, .destroy 1, .create (some [65]) 1]

theorem client_agrees_demo :
    ((connected.run TagStore.initialStored demoJobs).1.perform (.read 1 Messaging.demoCourse)).plc.tagStatus 1 = .ok ∧
      Holding (((connected.run TagStore.initialStored demoJobs).1.perform
        (.read 1 Messaging.demoCourse)).plc.slots 1).tag 0xC4 [7, 0, 0, 0] := by
  have hfair : ∀ job ∈ demoJobs, job.Fair := by
    intro job hjob
    simp only [demoJobs, List.mem_cons, List.not_mem_nil, or_false] at hjob
    have hname : ∀ a : UInt8, a < 0x80 → ∀ bs, some [a] = some bs → Ascii bs := by
      rintro a ha _ ⟨⟩ b hb
      rw [List.mem_singleton.1 hb]
      exact ha
    rcases hjob with rfl | rfl | rfl | rfl | rfl | rfl | rfl | rfl
    · exact hname 65 (by decide)
    · trivial
    · trivial
    · exact Messaging.fair_demoCourse
    · exact hname 66 (by decide)
    · exact Messaging.fair_demoCourse
    · trivial
    · exact hname 65 (by decide)
  have hunused : ∀ i, (connected.plc.slots i).inUse = true →
      Ascii (connected.plc.slots i).name ∧ (connected.plc.slots i).name.length < PlcClient.kMaxTagName :=
    fun i h => absurd h (by decide +revert)
  have hagrees := (client_agrees standing_connected rfl hunused hfair).2
  have hvalid : (connected.run TagStore.initialStored demoJobs).1.plc.validHandle 1 = some 1 := by decide +kernel
  have hread := hagrees.read 1 1 Messaging.demoCourse hvalid Messaging.fair_demoCourse
  have hstored : (connected.run TagStore.initialStored demoJobs).2
      ((connected.run TagStore.initialStored demoJobs).1.plc.slots 1).name = some ⟨0xC4, [7, 0, 0, 0]⟩ := by
    decide +kernel
  rw [hstored] at hread
  exact hread.2

end Work

end Site

end ControlLogix
