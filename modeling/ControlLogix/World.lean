import ControlLogix.PlcClient
import ControlLogix.Transition

/-!
# Runs of a sketch

A `World` is a client together with the calls of `poll()` that are going on.  There can be several, because a tag
callback is called in the middle of the loop over the slots and may call any function of the client, `poll()`
included; `polls` is the stack of these calls, innermost first.  A state callback is called at the end of `poll()`, so
what it does is what the sketch does right after the call.

One action is one call of the sketch (`call`, and `poll` for `poll()` up to the loop), one turn of the loop (`iter`),
the end of the loop (`leave`), or the arrival of bytes at the socket (`deliver`).  The clock and the answers of the
socket layer are part of the action, so a run may have any clock and any network.

`log` is the history an observer of the client could write down.
-/

namespace ControlLogix

open Transition

/-- A call of `poll()` whose loop is about to look at slot `next`. -/
structure PollFrame where
  next : Nat := 0
  disconnected : Bool := false
  /-- The loop has called the tag callback, which has not returned. -/
  inCallback : Bool := false
  deriving DecidableEq, Repr

/-- What an observer sees: TCP connections and accepted requests are numbered from 1 in the order they are made. -/
inductive Event (n : Nat) where
  | created (i : Fin n)
  | started (i : Fin n) (sock : Nat) (deadline : UInt32)
  /-- The loop reached slot `i` while its operation was in flight, and `Tag::poll` returned `st`. -/
  | advanced (i : Fin n) (st : Status)
  | tagCallback (i : Fin n) (st : Status)
  | stateCallback (st : Status)
  /-- Bytes of request `serial`, whose frame is `frame`, from offset `off` on. -/
  | wrote (sock serial : Nat) (frame : List UInt8) (off : Nat) (bytes : List UInt8)
  /-- A RegisterSession exchange ended `Ok`; `handle` is read from the bytes received on the connection. -/
  | registered (sock : Nat) (handle : UInt32)
  deriving DecidableEq, Repr

structure World (n : Nat) where
  plc : PlcClient n
  polls : List PollFrame := []
  log : List (Event n) := []

/-- The functions a sketch calls, other than `poll()`. -/
inductive Op where
  | begin (began configured : Bool)
  | connect (ip : IPAddress) (port : UInt16) (timeoutMs : UInt32) (os : Platform)
  | disconnect
  | createTag (name : Option (List UInt8)) (elementCount : UInt32)
  | destroyTag (handle : Int)
  | read (handle : Int) (timeoutMs now : UInt32)
  | write (handle : Int) (timeoutMs now : UInt32)
  | abortTag (handle : Int)
  | editTag (handle : Int) (e : PlcClient.Edit)
  | setTagCallback (set : Bool)
  | setStateCallback (set : Bool)

inductive Act where
  | deliver (bs : List UInt8)
  | call (op : Op)
  | poll (os : Platform)
  | iter (os : Platform)
  | leave

variable {n : Nat}

/-- The result of a call, as a number, and the client after it. -/
def PlcClient.call (p : PlcClient n) : Op → Int × PlcClient n
  | .begin began configured => let (st, p) := p.begin began configured; (st.toInt, p)
  | .connect ip port timeoutMs os => let (st, p) := p.connect ip port timeoutMs os; (st.toInt, p)
  | .disconnect => let (st, p) := p.disconnect; (st.toInt, p)
  | .createTag name elementCount => p.createTag name elementCount
  | .destroyTag handle => let (st, p) := p.destroyTag handle; (st.toInt, p)
  | .read handle timeoutMs now => let (st, p) := p.read handle timeoutMs now; (st.toInt, p)
  | .write handle timeoutMs now => let (st, p) := p.write handle timeoutMs now; (st.toInt, p)
  | .abortTag handle => let (st, p) := p.abortTag handle; (st.toInt, p)
  | .editTag handle e => (0, p.editTag handle e)
  | .setTagCallback set => (0, { p with tagCallback := set })
  | .setStateCallback set => (0, { p with stateCallback := set })

/-- The handle a call is about. -/
def Op.handle : Op → Option Int
  | .destroyTag h | .read h _ _ | .write h _ _ | .abortTag h | .editTag h _ => some h
  | _ => none

namespace World

/-- The number of accepted reads and writes. -/
def starts (log : List (Event n)) : Nat :=
  log.countP fun e => match e with
    | .started .. => true
    | _ => false

/-- What a call adds to the history: an allocation or the start of an operation. -/
def callEvents (p : PlcClient n) (op : Op) : List (Event n) :=
  let (r, p') := p.call op
  match op with
  | .createTag .. => (p'.validHandle r).toList.map .created
  | .read handle timeoutMs now | .write handle timeoutMs now =>
    if r = Status.pending.toInt then
      (p.validHandle handle).toList.map fun i => .started i p.tcp.sockets (now + timeoutMs)
    else []
  | _ => []

def call (w : World n) (op : Op) : World n :=
  { w with plc := (w.plc.call op).2, log := w.log ++ callEvents w.plc op }

/-- `poll()` up to its return, or in `Ready` up to the loop. -/
def poll (w : World n) (os : Platform) : World n :=
  match w.plc.pollState os with
  | none => { w with polls := {} :: w.polls }
  | some (_, p, called) =>
    let registered : List (Event n) :=
      if w.plc.state = .registering ∧ p.state = .ready then
        [.registered p.tcp.sockets (decodeHeader p.tcp.sock.recvd).session]
      else []
    { w with plc := p, log := w.log ++ registered ++ called.toList.map .stateCallback }

/-- What one turn of the loop on an allocated slot adds to the history. -/
def iterEvents (p : PlcClient n) (i : Fin n) (st : Status) (p' : PlcClient n) (serial : Nat) : List (Event n) :=
  let out := p'.tcp.sock.sent.drop p.tcp.sock.sent.length
  (if out = [] then [] else [.wrote p.tcp.sockets serial p.msg.tx p.msg.txSent out]) ++
    (if (p.slots i).tag.InFlight then [.advanced i st] else [])

def iter (w : World n) (f : PollFrame) (fs : List PollFrame) (i : Fin n) (os : Platform) : World n :=
  if (w.plc.slots i).inUse then
    let prev := (w.plc.slots i).prevStatus
    let (st, p) := w.plc.pollTag i os
    let called := decide (prev = .pending ∧ st ≠ .pending) && p.tagCallback
    { plc := p
      polls := { next := f.next + 1, disconnected := f.disconnected || st = .closed, inCallback := called } :: fs
      log := w.log ++ iterEvents w.plc i st p (starts w.log) ++ if called then [.tagCallback i st] else [] }
  else { w with polls := { f with next := f.next + 1, inCallback := false } :: fs }

def leave (w : World n) (f : PollFrame) (fs : List PollFrame) : World n :=
  let (_, p, called) := w.plc.loopEnd f.disconnected
  { plc := p, polls := fs, log := w.log ++ called.toList.map .stateCallback }

/-- The sketch can call: no `poll()` is going on, or the innermost one is in the tag callback. -/
def Idle (w : World n) : Prop :=
  match w.polls with
  | [] => True
  | f :: _ => f.inCallback

instance (w : World n) : Decidable w.Idle := by
  unfold Idle
  split <;> infer_instance

def step (w : World n) : Act → Option (World n)
  | .deliver bs => some { w with plc := { w.plc with tcp := w.plc.tcp.deliver bs } }
  | .call op => if w.Idle then some (w.call op) else none
  | .poll os => if w.Idle then some (w.poll os) else none
  | .iter os =>
    match w.polls with
    | [] => none
    | f :: fs => if h : f.next < n then some (w.iter f fs ⟨f.next, h⟩ os) else none
  | .leave =>
    match w.polls with
    | [] => none
    | f :: fs => if f.next < n then none else some (w.leave f fs)

/-- A sketch that has just constructed its client. -/
structure Initial (w : World n) : Prop where
  fresh : w.plc.Fresh
  polls : w.polls = []
  log : w.log = []

/-- Reached by the calls of some sketch, on some clock and some network. -/
def Reachable (w : World n) : Prop := ∃ w₀ as, Initial w₀ ∧ Run step always w₀ as w

/-- What holds at the start and is preserved by every step holds in every reachable state. -/
theorem Reachable.invariant {I : World n → Prop} (h0 : ∀ w, Initial w → I w)
    (hstep : ∀ w a w', I w → step w a = some w' → I w') {w : World n} (h : Reachable w) : I w := by
  obtain ⟨w₀, as, hi, hr⟩ := h
  exact hr.invariant (fun w a w' hw _ hs => hstep w a w' hw hs) (h0 w₀ hi)

/-! ### The steps, one by one -/

theorem step_call {w w' : World n} {op : Op} (h : step w (.call op) = some w') : w.Idle ∧ w' = w.call op := by
  simp only [step] at h
  split at h
  · rename_i hi
    exact ⟨hi, (Option.some.inj h).symm⟩
  · cases h

theorem step_poll {w w' : World n} {os : Platform} (h : step w (.poll os) = some w') : w.Idle ∧ w' = w.poll os := by
  simp only [step] at h
  split at h
  · rename_i hi
    exact ⟨hi, (Option.some.inj h).symm⟩
  · cases h

theorem step_iter {w w' : World n} {os : Platform} (h : step w (.iter os) = some w') :
    ∃ f fs, ∃ hf : f.next < n, w.polls = f :: fs ∧ w' = w.iter f fs ⟨f.next, hf⟩ os := by
  simp only [step] at h
  split at h
  · cases h
  · rename_i f fs hp
    split at h
    · rename_i hf
      exact ⟨f, fs, hf, hp, (Option.some.inj h).symm⟩
    · cases h

theorem step_leave {w w' : World n} (h : step w .leave = some w') :
    ∃ f fs, w.polls = f :: fs ∧ n ≤ f.next ∧ w' = w.leave f fs := by
  simp only [step] at h
  split at h
  · cases h
  · rename_i f fs hp
    split at h
    · cases h
    · rename_i hf
      exact ⟨f, fs, hp, by omega, (Option.some.inj h).symm⟩

end World

/-! ### What a call can do -/

/-- The calls about the connection. -/
def Op.Link : Op → Prop
  | .begin .. | .connect .. | .disconnect | .setStateCallback _ => True
  | _ => False

/-- `p'` is the client after `op`, which added `events` to the history. -/
inductive Called (p : PlcClient n) : Op → PlcClient n → List (Event n) → Prop where
  | linked {op : Op} (hop : op.Link) : Called p op (p.call op).2 []
  | registered (set : Bool) : Called p (.setTagCallback set) { p with tagCallback := set } []
  | created {name : List UInt8} {elementCount : UInt32} {i : Fin n} (free : (p.slots i).inUse = false)
      (bounded : name ≠ [] ∧ name.length < PlcClient.kMaxTagName) :
      Called p (.createTag (some name) elementCount)
        (p.setSlot i { p.slots i with
          name := name, elemCount := elementCount, prevStatus := .notReady, inUse := true }) [.created i]
  | destroyed {i : Fin n} (inUse : (p.slots i).inUse = true) :
      Called p (.destroyTag i.val) (p.setSlot i { p.slots i with inUse := false }) []
  | started {op : Op} {i : Fin n} {timeoutMs now : UInt32} {tag : Tag} {msg : ExplicitMessage}
      (hop : op = .read i.val timeoutMs now ∨ op = .write i.val timeoutMs now) (inUse : (p.slots i).inUse = true)
      (ready : p.state = .ready) (free : p.anyTagBusy = false)
      (started : Tag.Started (p.slots i).tag p.msg p.tcp p.session.handle (p.slots i).name timeoutMs now tag msg) :
      Called p op ({ p with msg := msg }.setSlot i { p.slots i with tag := tag })
        [.started i p.tcp.sockets (now + timeoutMs)]
  | aborted {i : Fin n} (inUse : (p.slots i).inUse = true) :
      Called p (.abortTag i.val)
        ({ p with msg := ((p.slots i).tag.abort p.msg).2 }.setSlot i
          { p.slots i with tag := ((p.slots i).tag.abort p.msg).1, prevStatus := .notReady }) []
  | edited {i : Fin n} {e : PlcClient.Edit} (inUse : (p.slots i).inUse = true) :
      Called p (.editTag i.val e) (p.setSlot i { p.slots i with tag := e.apply (p.slots i).tag }) []
  | refused {op : Op} (hop : ¬ op.Link) : Called p op p []

theorem Op.Link.sameTags {op : Op} (h : op.Link) (p : PlcClient n) : PlcClient.SameTags p (p.call op).2 := by
  cases op with
  | begin began configured => exact p.begin_sameTags began configured
  | connect ip port timeoutMs os => exact p.connect_sameTags ip port timeoutMs os
  | disconnect => exact p.disconnect_sameTags
  | setStateCallback set => exact ⟨rfl, rfl, rfl⟩
  | _ => exact absurd h id

private theorem toInt_eq_pending (st : Status) : st.toInt = Status.pending.toInt ↔ st = .pending := by
  cases st <;> simp [Status.toInt]

private theorem startTag_cases {p : PlcClient n} {op : Op} {handle : Int} {timeoutMs now : UInt32}
    (f : Tag → ExplicitMessage → TcpConnection → UInt32 → Option (List UInt8) → UInt32 →
      Status × Tag × ExplicitMessage)
    (hop : op = .read handle timeoutMs now ∨ op = .write handle timeoutMs now)
    (hf : ∀ t msg conn session name elemCount st t' msg',
      f t msg conn session (some name) elemCount = (st, t', msg') →
      (st = .pending ∧ Tag.Started t msg conn session name timeoutMs now t' msg') ∨
        (st ≠ .pending ∧ t' = t ∧ msg' = msg)) :
    Called p op (p.startTag handle f).2
      (if (p.startTag handle f).1 = .pending then
        (p.validHandle handle).toList.map fun i => .started i p.tcp.sockets (now + timeoutMs) else []) := by
  have hnl : ¬ op.Link := by
    rcases hop with rfl | rfl <;> exact id
  unfold PlcClient.startTag
  cases hv : p.validHandle handle with
  | none => simpa using Called.refused hnl
  | some i =>
    obtain ⟨hu, rfl⟩ := PlcClient.validHandle_inUse hv
    dsimp only
    split
    · simpa using Called.refused hnl
    · rename_i hs
      split
      · simpa using Called.refused hnl
      · rename_i hb
        obtain ⟨st, tag, msg, he⟩ : ∃ st tag msg, f (p.slots i).tag p.msg p.tcp p.session.handle
            (some (p.slots i).name) (p.slots i).elemCount = (st, tag, msg) := ⟨_, _, _, rfl⟩
        rw [he]
        rcases hf _ _ _ _ _ _ _ _ _ he with ⟨rfl, hst⟩ | ⟨hne, rfl, rfl⟩
        · simpa using Called.started hop hu (by simpa using hs) (by simpa using hb) hst
        · have hsame : ({ p with msg := p.msg } : PlcClient n).setSlot i
              { p.slots i with tag := (p.slots i).tag } = p := by
            simp [PlcClient.setSlot]
          simp only [hne, ↓reduceIte, hsame]
          exact .refused hnl

theorem call_cases (p : PlcClient n) (op : Op) : Called p op (p.call op).2 (World.callEvents p op) := by
  cases op with
  | begin began configured => exact .linked trivial
  | connect ip port timeoutMs os => exact .linked trivial
  | disconnect => exact .linked trivial
  | setStateCallback set => exact .linked trivial
  | setTagCallback set => exact .registered set
  | createTag name elementCount =>
    simp only [World.callEvents, PlcClient.call, PlcClient.createTag]
    cases name with
    | none => exact .refused id
    | some name =>
      dsimp only
      split
      · exact .refused id
      · rename_i hn
        split
        · exact .refused id
        · rename_i i hi
          have hv : (p.setSlot i { p.slots i with name := name, elemCount := elementCount, prevStatus := .notReady,
                                                  inUse := true }).validHandle i.val = some i :=
            PlcClient.validHandle_of_inUse (by simp)
          rw [hv]
          exact .created (PlcClient.findFreeTag_some hi) ⟨fun e => hn (Or.inl e), by omega⟩
  | destroyTag handle =>
    simp only [World.callEvents, PlcClient.call, PlcClient.destroyTag]
    cases hv : p.validHandle handle with
    | none => exact .refused id
    | some i =>
      obtain ⟨hu, rfl⟩ := PlcClient.validHandle_inUse hv
      exact .destroyed hu
  | read handle timeoutMs now =>
    have h : Called p (.read handle timeoutMs now) _ _ := startTag_cases
      (fun tag msg conn session name elemCount => tag.read msg conn session name elemCount timeoutMs now) (Or.inl rfl)
      fun t msg conn session name elemCount st t' msg' => Tag.read_cases
    simpa only [World.callEvents, PlcClient.call, PlcClient.read, toInt_eq_pending] using h
  | write handle timeoutMs now =>
    have h : Called p (.write handle timeoutMs now) _ _ := startTag_cases
      (fun tag msg conn session name elemCount => tag.write msg conn session name elemCount timeoutMs now)
      (Or.inr rfl) fun t msg conn session name elemCount st t' msg' h => by
        rcases Tag.write_cases h with ⟨h1, -, h2⟩ | h'
        · exact Or.inl ⟨h1, h2⟩
        · exact Or.inr h'
    simpa only [World.callEvents, PlcClient.call, PlcClient.write, toInt_eq_pending] using h
  | abortTag handle =>
    simp only [World.callEvents, PlcClient.call, PlcClient.abortTag]
    cases hv : p.validHandle handle with
    | none => exact .refused id
    | some i =>
      obtain ⟨hu, rfl⟩ := PlcClient.validHandle_inUse hv
      exact .aborted hu
  | editTag handle e =>
    simp only [World.callEvents, PlcClient.call, PlcClient.editTag]
    cases hv : p.validHandle handle with
    | none => exact .refused id
    | some i =>
      obtain ⟨hu, rfl⟩ := PlcClient.validHandle_inUse hv
      exact .edited hu

/-! ### What a turn of the loop can do -/

/-- A turn calls the tag callback. -/
def World.calls (w : World n) (i : Fin n) (st : Status) : Bool :=
  decide ((w.plc.slots i).prevStatus = .pending ∧ st ≠ .pending) && w.plc.tagCallback

/-- What one turn of the loop makes of the world: it polls the tag of an allocated slot and passes over the others. -/
inductive World.Iterated (w : World n) (f : PollFrame) (fs : List PollFrame) (i : Fin n) (os : Platform) :
    World n → Prop where
  | turned (st : Status) (p : PlcClient n) (inUse : (w.plc.slots i).inUse = true)
      (turned : PlcClient.Turned w.plc i os st p) :
      Iterated w f fs i os
        { plc := p
          polls := { next := f.next + 1, disconnected := f.disconnected ||
            st = .closed, inCallback := w.calls i st } :: fs
          log := w.log ++ World.iterEvents w.plc i st p (World.starts w.log) ++
            if w.calls i st then [.tagCallback i st] else [] }
  | skipped (free : (w.plc.slots i).inUse = false) :
      Iterated w f fs i os { w with polls := { f with next := f.next + 1, inCallback := false } :: fs }

theorem World.iter_cases (w : World n) (f : PollFrame) (fs : List PollFrame) (i : Fin n) (os : Platform) :
    Iterated w f fs i os (w.iter f fs i os) := by
  unfold World.iter
  split
  · rename_i h
    exact .turned _ _ h (PlcClient.pollTag_cases w.plc i os)
  · rename_i h
    exact .skipped (by simpa using h)

theorem World.step_iterated {w w' : World n} {os : Platform} (h : step w (.iter os) = some w') :
    ∃ f fs, ∃ hf : f.next < n, w.polls = f :: fs ∧ Iterated w f fs ⟨f.next, hf⟩ os w' := by
  obtain ⟨f, fs, hf, hp, rfl⟩ := step_iter h
  exact ⟨f, fs, hf, hp, w.iter_cases f fs _ os⟩

/-- A turn on a slot at rest writes nothing. -/
theorem World.iterEvents_rest {p p' : PlcClient n} {i : Fin n} {os : Platform} {st : Status} {k : Nat}
    (hr : ¬ (p.slots i).tag.InFlight) (ht : PlcClient.Turned p i os st p') : World.iterEvents p i st p' k = [] := by
  cases ht with
  | rest => simp [World.iterEvents, hr, PlcClient.setSlot]
  | inFlight hin => exact absurd hin hr

/-! ### The sketches used as examples -/

/-- A client as the constructor leaves it when all memory is zero, with both callbacks registered. -/
def PlcClient.fresh (n : Nat) : PlcClient n where
  slots := fun _ => { tag := { data := TagData.zero } }
  tagCallback := true
  stateCallback := true

namespace World

def fresh (n : Nat) : World n where
  plc := PlcClient.fresh n

/-- A call of `poll()` in `Ready` whose callbacks call nothing. -/
def wholePoll (n : Nat) (os : Platform) : List Act := .poll os :: List.replicate n (.iter os) ++ [.leave]

theorem fresh_initial (n : Nat) : Initial (fresh n) :=
  ⟨⟨rfl, rfl, rfl, rfl, rfl, rfl, fun _ => rfl⟩, rfl, rfl⟩

/-- The world after the actions `as`, when they are possible. -/
def reached (n : Nat) (as : List Act) : World n := (exec step (fresh n) as).getD (fresh n)

theorem run_reached {n : Nat} {as : List Act} (h : (exec step (fresh n) as).isSome) :
    Run step always (fresh n) as (reached n as) :=
  run_after h

/-- The same for a run all of whose steps are allowed. -/
theorem run_reachedIf {n : Nat} (ok : World n → Act → Prop) [∀ w a, Decidable (ok w a)] {as : List Act}
    (h : (execIf step ok (fresh n) as).isSome) : Run step ok (fresh n) as (reached n as) :=
  run_afterIf ok h

theorem reachable_reached {n : Nat} {as : List Act} (h : (exec step (fresh n) as).isSome) :
    Reachable (reached n as) :=
  ⟨_, _, fresh_initial n, run_reached h⟩

end World

end ControlLogix
