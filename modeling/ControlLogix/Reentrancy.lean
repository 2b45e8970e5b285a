import ControlLogix.Endings
import ControlLogix.Queued

/-!
# Calls made from the tag callback

A tag callback runs in the middle of the loop of `poll()` and may call any function of the client.  The loop goes on
with the client as the callback leaves it; what it keeps from before is the index of the slot and the flag
`disconnected`.  `Op.Kept` says for each call what must be left of its effect when `poll()` returns.

* `carrying_step`: a connect that has been started is not touched by the rest of the loop, but for the flag;
* `kept_iff`: nothing a callback did is undone, except a connect that was started when the loop has noted a loss, or
  that leaves behind an operation the loop still comes to (`Spares`);
* `connect_undone`: a callback that reports `Closed` and connects again.
-/

namespace ControlLogix

open Transition
open TcpConnection (Transfer)

variable {n : Nat}

/-! ### An exchange without a usable connection -/

namespace ExplicitMessage

/-- An exchange that goes on still waits for bytes. -/
theorem poll_unread {m m' : ExplicitMessage} {conn conn' : TcpConnection} {os : Platform} (hin : m.InFlight)
    (hf : Buffers.Framed (16 + kMaxCipData) m.toBuffers) (hmore : m.rxLen < m.rxExpected)
    (h : m.poll conn os = (.pending, m', conn')) : m'.rxLen < m'.rxExpected := by
  rw [poll_inFlight hin] at h
  unfold advance at h
  split at h
  · cases h
  · split at h
    · rename_i b₁ conn₁ hwr
      have hf₁ := (Buffers.writePending_spec hwr).framed hf
      dsimp only at h
      split at h
      · rename_i b₂ conn₂ hrd
        obtain ⟨x, hg⟩ := Buffers.readResponse_spec hf₁ hrd
        simp only [Prod.mk.injEq, true_and] at h
        obtain ⟨rfl, -⟩ := h
        exact hg.pending rfl
      · split at h
        · cases h
        · rename_i st₂ m₂ hne hpr
          simp only [Prod.mk.injEq] at h
          obtain ⟨rfl, -⟩ := h
          unfold parseResponse at hpr
          split at hpr <;> cases hpr
      · rename_i st₂ b₂ conn₂ hnp hno hrd
        simp only [Prod.mk.injEq] at h
        exact absurd h.1 (by simpa using hnp)
    · rename_i b₁ conn₁ hwr
      have hw := Buffers.writePending_spec hwr
      simp only [Prod.mk.injEq, true_and] at h
      obtain ⟨rfl, -⟩ := h
      have hrx : b₁.rxLen = m.rxLen ∧ b₁.rxExpected = m.rxExpected := by
        rw [hw.frame]
        exact ⟨rfl, rfl⟩
      change b₁.rxLen < b₁.rxExpected
      rw [hrx.1, hrx.2]
      exact hmore
    · rename_i st₁ b₁ conn₁ hno hnp hwr
      simp only [Prod.mk.injEq] at h
      exact absurd h.1 (by simpa using hnp)

/-- Without a usable connection an exchange ends: with `Timeout` when it is late, and with `Closed` otherwise. -/
theorem poll_unusable {m m' : ExplicitMessage} {conn conn' : TcpConnection} {os : Platform} {st : Status}
    (hin : m.InFlight) (hmore : m.rxLen < m.rxExpected) (hu : ¬ conn.Usable) (h : m.poll conn os = (st, m', conn')) :
    conn' = conn ∧ st = if expired (os.millis 0) m.deadline then .timeout else .closed := by
  rw [poll_inFlight hin] at h
  unfold advance at h
  split at h
  · rename_i hexp
    simp only [Prod.mk.injEq] at h
    obtain ⟨rfl, -, rfl⟩ := h
    exact ⟨rfl, by rw [if_pos hexp]⟩
  · rename_i hexp
    rw [if_neg hexp]
    by_cases htx : m.txSent < m.txLen
    · rw [writePending_unusable htx hu] at h
      simp only [Prod.mk.injEq] at h
      exact ⟨h.2.2.symm, h.1.symm⟩
    · rw [writePending_through htx] at h
      dsimp only at h
      rw [readResponse_unusable hmore _ hu] at h
      simp only [Prod.mk.injEq] at h
      exact ⟨h.2.2.symm, h.1.symm⟩

end ExplicitMessage

/-! ### What holds in every reachable state -/

/-- From the first dial on, Ethernet is ready. -/
def PlcClient.Wired (p : PlcClient n) : Prop :=
  p.state = .connecting ∨ p.state = .registering ∨ p.state = .ready ∨ p.state = .disconnecting → p.eth.ready = true

private theorem wired_of_state {p : PlcClient n}
    (h : p.state ≠ .connecting ∧ p.state ≠ .registering ∧ p.state ≠ .ready ∧ p.state ≠ .disconnecting) : p.Wired := by
  rintro (e | e | e | e)
  · exact absurd e h.1
  · exact absurd e h.2.1
  · exact absurd e h.2.2.1
  · exact absurd e h.2.2.2

private theorem dial_eth (p : PlcClient n) (os : Platform) : (p.dial os).2.eth = p.eth := by
  unfold PlcClient.dial
  split <;> rfl

private theorem wired_link {p : PlcClient n} (h : p.Wired) {op : Op} (hop : op.Link) : (p.call op).2.Wired := by
  cases op with
  | begin began configured => exact wired_of_state ⟨nofun, nofun, nofun, nofun⟩
  | connect ip port timeoutMs os =>
    by_cases hr : p.eth.ready = true
    · intro _
      change (p.connect ip port timeoutMs os).2.eth.ready = true
      rw [connect_ready hr, dial_eth]
      exact hr
    · refine wired_of_state ?_
      change (p.connect ip port timeoutMs os).2.state ≠ _ ∧ (p.connect ip port timeoutMs os).2.state ≠ _ ∧
        (p.connect ip port timeoutMs os).2.state ≠ _ ∧ (p.connect ip port timeoutMs os).2.state ≠ _
      unfold PlcClient.connect
      dsimp only
      rw [if_neg hr]
      exact ⟨nofun, nofun, nofun, nofun⟩
  | disconnect =>
    change p.disconnect.2.Wired
    unfold PlcClient.disconnect
    split
    · rename_i hr
      exact fun _ => h (Or.inr (Or.inr (Or.inl hr)))
    · exact wired_of_state ⟨nofun, nofun, nofun, nofun⟩
  | setStateCallback set => exact h
  | _ => exact absurd hop id

private theorem called_eth {p p' : PlcClient n} {op : Op} {es : List (Event n)} (h : Called p op p' es)
    (hop : ¬ op.Link) : p'.eth = p.eth := by
  cases h with
  | linked hop' => exact absurd hop' hop
  | _ => rfl

private theorem wired_poll {p p' : PlcClient n} {os : Platform} {st : Status} {called : Option Status}
    (h : p.Wired) (hp : p.pollState os = some (st, p', called)) : p'.Wired := by
  have hcon : p.state = .connecting → (p.pollConnecting os).2.1.Wired := by
    intro hs
    have hr := h (Or.inl hs)
    unfold PlcClient.pollConnecting
    dsimp only
    split
    · exact fun _ => hr
    · split
      · split <;> exact fun _ => hr
      · split <;> exact fun _ => hr
  have hreg : p.state = .registering → (p.pollRegistering os).2.1.Wired := by
    intro hs
    have hr := h (Or.inr (Or.inl hs))
    unfold PlcClient.pollRegistering
    dsimp only
    split
    · exact fun _ => hr
    · split
      · exact fun _ => hr
      · split <;> exact fun _ => hr
  have hdis : p.state = .disconnecting → (p.pollDisconnecting os).2.1.Wired := by
    intro hs
    have hr := h (Or.inr (Or.inr (Or.inr hs)))
    unfold PlcClient.pollDisconnecting
    dsimp only
    split <;> exact fun _ => hr
  have heth : p.state = .ethernet → (p.pollEthernet os).2.1.Wired := by
    intro hs
    by_cases hup : (p.eth.poll os.link).1 = .ok
    · by_cases hw : p.wantConnect = true
      · intro _
        rw [pollEthernet_released hw hup, dial_eth]
        change (p.eth.poll os.link).2.ready = true
        rw [client_released hup]
      · refine wired_of_state ?_
        unfold PlcClient.pollEthernet
        dsimp only
        rw [if_pos hup, if_neg hw]
        exact ⟨by rw [hs]; nofun, by rw [hs]; nofun, by rw [hs]; nofun, by rw [hs]; nofun⟩
    · refine wired_of_state ?_
      unfold PlcClient.pollEthernet
      dsimp only
      rw [if_neg hup]
      split
      · exact ⟨nofun, nofun, nofun, nofun⟩
      · exact ⟨by rw [hs]; nofun, by rw [hs]; nofun, by rw [hs]; nofun, by rw [hs]; nofun⟩
  unfold PlcClient.pollState at hp
  cases hs : p.state <;> rw [hs] at hp <;> simp only [Option.some.injEq, reduceCtorEq] at hp
  · cases hp
    exact h
  · have e := heth hs
    rwa [hp] at e
  · have e := hcon hs
    rwa [hp] at e
  · have e := hreg hs
    rwa [hp] at e
  · have e := hdis hs
    rwa [hp] at e
  · cases hp
    exact h

namespace World

/-- What the loop relies on. -/
structure Live (w : World n) : Prop extends Consistent w where
  wired : w.plc.Wired
  unread : w.plc.msg.InFlight → w.plc.msg.rxLen < w.plc.msg.rxExpected

/-- Only an exchange that was going on goes on after a turn of the loop. -/
private theorem turned_unread {p p' : PlcClient n} {i : Fin n} {os : Platform} {st : Status} (hc : Coupled p)
    (hmore : p.msg.InFlight → p.msg.rxLen < p.msg.rxExpected) (ht : PlcClient.Turned p i os st p')
    (hin' : p'.msg.InFlight) : p'.msg.rxLen < p'.msg.rxExpected := by
  cases ht with
  | rest hr => exact hmore hin'
  | @inFlight mst st tag msg tcp hin polled advanced =>
    have hm := hc.used i hin
    obtain ⟨inp, hp⟩ := ExplicitMessage.poll_spec hm (hc.framed hm) polled
    change msg.InFlight at hin'
    have hpend : mst = .pending := by
      rcases hp.outcome with ⟨h, -⟩ | ⟨-, h⟩ | ⟨-, h⟩
      · exact h
      · rcases hin' with e | e <;> rw [h] at e <;> cases e
      · rcases hin' with e | e <;> rw [h] at e <;> cases e
    subst hpend
    exact ExplicitMessage.poll_unread hm (hc.framed hm) (hmore hm) polled

private theorem called_unread {p p' : PlcClient n} {op : Op} {es : List (Event n)}
    (hmore : p.msg.InFlight → p.msg.rxLen < p.msg.rxExpected) (h : Called p op p' es) (hin' : p'.msg.InFlight) :
    p'.msg.rxLen < p'.msg.rxExpected := by
  cases h with
  | linked hop =>
    have hs := (hop.sameTags p).msg
    rw [hs] at hin' ⊢
    exact hmore hin'
  | registered set => exact hmore hin'
  | created free bounded => exact hmore hin'
  | destroyed inUse => exact hmore hin'
  | @started op i timeoutMs now tag msg hop inUse ready free started =>
    obtain ⟨service, data, -, hs⟩ := started.sent
    change msg.rxLen < msg.rxExpected
    rw [hs.rxLen, hs.rxExpected]
    omega
  | @aborted i inUse =>
    by_cases hi : (p.slots i).tag.InFlight
    · rw [Tag.abort_inFlight hi] at hin'
      exact absurd hin' (ExplicitMessage.not_inFlight_abort p.msg)
    · rw [Tag.abort_rest hi] at hin' ⊢
      exact hmore hin'
  | edited inUse => exact hmore hin'
  | refused hop => exact hmore hin'

theorem live_step {w w' : World n} {a : Act} (h : Live w) (hs : step w a = some w') : Live w' := by
  refine ⟨consistent_step h.toConsistent hs, ?_, ?_⟩
  · cases a with
    | deliver bs =>
      obtain rfl := Option.some.inj hs
      exact h.wired
    | call op =>
      obtain ⟨-, rfl⟩ := step_call hs
      have hc := call_cases w.plc op
      rcases sameLink_called hc with ⟨hop, -, -⟩ | ⟨hop, hl⟩
      · exact wired_link h.wired hop
      · have heth : (w.call op).plc.eth = w.plc.eth := called_eth hc hop
        have hstate : (w.call op).plc.state = w.plc.state := hl.state
        unfold PlcClient.Wired
        rw [heth, hstate]
        exact h.wired
    | poll os =>
      obtain ⟨-, rfl⟩ := step_poll hs
      unfold World.poll
      split
      · exact h.wired
      · rename_i st p called hp
        exact wired_poll h.wired hp
    | iter os =>
      obtain ⟨f, fs, hf, -, hiter⟩ := step_iterated hs
      cases hiter with
      | turned st p hu ht =>
        cases ht <;> exact h.wired
      | skipped => exact h.wired
    | leave =>
      obtain ⟨f, fs, -, -, rfl⟩ := step_leave hs
      change (w.plc.loopEnd f.disconnected).2.1.Wired
      unfold PlcClient.loopEnd
      split
      · exact wired_of_state ⟨nofun, nofun, nofun, nofun⟩
      · exact h.wired
  · cases a with
    | deliver bs =>
      obtain rfl := Option.some.inj hs
      exact h.unread
    | call op =>
      obtain ⟨-, rfl⟩ := step_call hs
      exact called_unread h.unread (call_cases w.plc op)
    | poll os =>
      obtain ⟨-, rfl⟩ := step_poll hs
      rw [(w.poll_sameTags os).msg]
      exact h.unread
    | iter os =>
      obtain ⟨f, fs, hf, -, hiter⟩ := step_iterated hs
      cases hiter with
      | turned st p hu ht =>
        exact turned_unread h.coupled h.unread ht
      | skipped => exact h.unread
    | leave =>
      obtain ⟨f, fs, -, -, rfl⟩ := step_leave hs
      rw [(w.leave_sameTags f fs).msg]
      exact h.unread

theorem Reachable.live {w : World n} (h : Reachable w) : Live w := by
  refine h.invariant (fun w hi => ⟨?_, ?_, ?_⟩) fun _ _ _ => live_step
  · exact Reachable.consistent ⟨w, [], hi, .nil w⟩
  · exact wired_of_state (by rw [hi.fresh.state]; exact ⟨nofun, nofun, nofun, nofun⟩)
  · rw [hi.fresh.msg]
    rintro (e | e) <;> cases e

end World

/-! ### What a call is for, and what takes it back -/

def Op.isBegin : Op → Bool
  | .begin .. => true
  | _ => false

/-- The call `later`, made on `p`, takes back what the call `op` did that returned `r`. -/
def Op.takesBack (r : Int) (p : PlcClient n) (op later : Op) : Bool :=
  match op, later with
  | .connect .., .connect .. => true
  | .connect .., .disconnect => true
  | .disconnect, .connect .. => true
  | .read h _ _, .abortTag h' => h' = h
  | .write h _ _, .abortTag h' => h' = h
  | .createTag .., .destroyTag h' => h' = r
  | .destroyTag h, .createTag name elementCount => (p.createTag name elementCount).1 = h
  | .abortTag h, .read h' _ _ => h' = h
  | .abortTag h, .write h' _ _ => h' = h
  | _, _ => false

/-- The client is connecting to `ip`, `port` on its own socket, number `sockets`, with the session `session`. -/
structure Carrying (ip : IPAddress) (port : UInt16) (session : Session) (sockets : Nat) (p : PlcClient n) : Prop where
  state : p.state = .connecting
  fd : 0 ≤ p.tcp.fd
  pending : p.tcp.state = .pending
  sockets : p.tcp.sockets = sockets
  session : p.session = session
  remote : p.remoteIp = ip ∧ p.remotePort = port

/-- What is left in `p'` of the call `op`, which returned `r` and made the client `p`. -/
def Op.Kept (op : Op) (r : Int) (p p' : PlcClient n) : Prop :=
  match op with
  | .connect ip port _ _ =>
    if r = Status.pending.toInt then Carrying ip port p.session p.tcp.sockets p'
    else p'.tcp.fd < 0 ∧ p'.session.state = .closed
  | .disconnect => p'.state = .disconnecting ∨ p'.state = .idle
  | .read h _ _ => r = Status.pending.toInt → ∃ i : Fin n, h = i.val ∧ (p'.slots i).tag.state ≠ .idle
  | .write h _ _ => r = Status.pending.toInt → ∃ i : Fin n, h = i.val ∧ (p'.slots i).tag.state ≠ .idle
  | .createTag name elementCount => ∀ i : Fin n, r = i.val →
    (p'.slots i).inUse = true ∧ some (p'.slots i).name = name ∧ (p'.slots i).elemCount = elementCount
  | .destroyTag h => r = Status.ok.toInt → ∀ i : Fin n, h = i.val → (p'.slots i).inUse = false
  | .abortTag h => r = Status.ok.toInt → ∀ i : Fin n, h = i.val → (p'.slots i).tag.state = .idle
  | _ => True

/-- The call started to connect. -/
def Op.Dials (r : Int) : Op → Prop
  | .connect .. => r = Status.pending.toInt
  | _ => False

/-! ### What the loop and other calls leave of an effect on a tag -/

/-- What a call can make of slot `i`. -/
inductive SlotCalled (s : Slot) (i : Fin n) : Op → Slot → Prop where
  | same {op : Op} : SlotCalled s i op s
  | created {name : List UInt8} {elementCount : UInt32} (free : s.inUse = false) :
      SlotCalled s i (.createTag (some name) elementCount)
        { s with name := name, elemCount := elementCount, prevStatus := .notReady, inUse := true }
  | destroyed : SlotCalled s i (.destroyTag i.val) { s with inUse := false }
  | started {op : Op} {timeoutMs now : UInt32} {tag : Tag} (hop : op = .read i.val timeoutMs now ∨
    op = .write i.val timeoutMs now) (inFlight : tag.InFlight) : SlotCalled s i op { s with tag := tag }
  | aborted {tag : Tag} (idle : tag.state = .idle) :
      SlotCalled s i (.abortTag i.val) { s with tag := tag, prevStatus := .notReady }
  | edited {e : PlcClient.Edit} : SlotCalled s i (.editTag i.val e) { s with tag := e.apply s.tag }

theorem slot_called {p p' : PlcClient n} {op : Op} {es : List (Event n)} (h : Called p op p' es) (i : Fin n) :
    SlotCalled (p.slots i) i op (p'.slots i) := by
  have hset : ∀ (q : PlcClient n) (hq : q.slots = p.slots) (j : Fin n) (s : Slot), SlotCalled (p.slots j) j op s →
      SlotCalled (p.slots i) i op ((q.setSlot j s).slots i) := by
    intro q hq j s hs
    refine q.setSlot_elim (P := fun k s => SlotCalled (p.slots k) k op s) hs (fun k _ => ?_) i
    rw [hq]
    exact .same
  cases h with
  | linked hop =>
    rw [(hop.sameTags p).slots]
    exact .same
  | registered set => exact .same
  | created free bounded => exact hset p rfl _ _ (.created free)
  | destroyed inUse => exact hset p rfl _ _ .destroyed
  | started hop inUse ready free started => exact hset _ rfl _ _ (.started hop started.inFlight)
  | aborted inUse => exact hset _ rfl _ _ (.aborted rfl)
  | edited inUse => exact hset p rfl _ _ .edited
  | refused hop => exact .same

/-- A turn of the loop keeps the allocation of a slot, and ends an operation but does not forget it. -/
structure Lasting (s s' : Slot) : Prop where
  inUse : s'.inUse = s.inUse
  name : s'.name = s.name
  elemCount : s'.elemCount = s.elemCount
  idle : s'.tag.state = .idle ↔ s.tag.state = .idle

theorem slot_turned {p p' : PlcClient n} {i : Fin n} {os : Platform} {st : Status} (h : PlcClient.Turned p i os st p')
    (j : Fin n) : Lasting (p.slots j) (p'.slots j) := by
  have hsame : ∀ k : Fin n, Lasting (p.slots k) (p.slots k) := fun _ => ⟨rfl, rfl, rfl, Iff.rfl⟩
  cases h with
  | rest hr =>
    refine p.setSlot_elim (P := fun k s => Lasting (p.slots k) s) ?_ (fun k _ => hsame k) j
    exact ⟨rfl, rfl, rfl, Iff.rfl⟩
  | @inFlight mst st tag msg tcp hin polled advanced =>
    refine PlcClient.setSlot_elim (P := fun k s => Lasting (p.slots k) s) _ ?_ (fun k _ => hsame k) j
    have hbusy : (p.slots i).tag.state ≠ .idle := by
      rcases hin with e | e <;> rw [e] <;> decide
    have hlast : tag.state ≠ .idle := by
      cases advanced with
      | pending h => exact hbusy
      | broke h => nofun
      | refused h hc => nofun
      | done h hc =>
        unfold Tag.accept
        split <;> nofun
    exact ⟨rfl, rfl, rfl, fun e => absurd e hlast, fun e => absurd e hbusy⟩

/-- `createTag()` returns the slot it allocates. -/
private theorem createTag_created {p p' : PlcClient n} {name : Option (List UInt8)} {elementCount : UInt32}
    {i : Fin n} (hp : p' = (p.call (.createTag name elementCount)).2) (hfree : (p.slots i).inUse = false)
    (hused : (p'.slots i).inUse = true) : (p.createTag name elementCount).1 = i.val := by
  subst hp
  change ((p.createTag name elementCount).2.slots i).inUse = true at hused
  unfold PlcClient.createTag at hused ⊢
  cases name with
  | none =>
    rw [hfree] at hused
    cases hused
  | some name =>
    dsimp only at hused ⊢
    split at hused
    · rw [hfree] at hused
      cases hused
    · rename_i hn
      rw [if_neg hn]
      cases hh : p.findFreeTag with
      | none =>
        rw [hh] at hused
        rw [hfree] at hused
        cases hused
      | some h =>
        rw [hh] at hused
        dsimp only at hused
        rw [PlcClient.setSlot_slots] at hused
        split at hused
        · rename_i hih
          rw [hih]
        · rw [hfree] at hused
          cases hused

namespace World

/-- The body of one call of `poll()`, with any calls of its callbacks but `begin()` and `poll()`. -/
def Body (_ : World n) : Act → Prop
  | .deliver _ | .iter _ => True
  | .call op => op.isBegin = false
  | .poll _ | .leave => False

/-- The rest of `poll()` after the call `op` that returned `r`, with no call that takes `op` back. -/
def Rest (op : Op) (r : Int) (w : World n) : Act → Prop
  | .deliver _ | .iter _ => True
  | .call later => later.isBegin = false ∧ op.takesBack r w.plc later = false
  | .poll _ | .leave => False

/-- The loop does not come to an operation in flight that is still in time. -/
def Spares (w : World n) : Act → Prop
  | .iter os => ∀ i : Fin n, w.polls.head?.map PollFrame.next = some i.val → (w.plc.slots i).inUse = true →
    (w.plc.slots i).tag.InFlight → expired (os.millis 0) w.plc.msg.deadline = true
  | _ => True

instance (w : World n) : (a : Act) → Decidable (Body w a)
  | .deliver _ | .iter _ => .isTrue trivial
  | .call op => inferInstanceAs (Decidable (op.isBegin = false))
  | .poll _ | .leave => .isFalse id

instance (op : Op) (r : Int) (w : World n) : (a : Act) → Decidable (Rest op r w a)
  | .deliver _ | .iter _ => .isTrue trivial
  | .call later => inferInstanceAs (Decidable (later.isBegin = false ∧ op.takesBack r w.plc later = false))
  | .poll _ | .leave => .isFalse id

instance (w : World n) : (a : Act) → Decidable (Spares w a)
  | .iter os => inferInstanceAs (Decidable (∀ i : Fin n, w.polls.head?.map PollFrame.next = some i.val →
      (w.plc.slots i).inUse = true → (w.plc.slots i).tag.InFlight → expired (os.millis 0) w.plc.msg.deadline = true))
  | .deliver _ | .call _ | .poll _ | .leave => .isTrue trivial

/-! ### One step of the rest of the loop -/

/-- The state of the facade after a step of the rest of the loop that is not a call about the connection. -/
private theorem rest_link {w w' : World n} {a : Act} {op : Op} {r : Int} (h : Live w) (hok : Rest op r w a)
    (hs : step w a = some w') :
    (∃ later, a = .call later ∧ later.Link ∧ later.isBegin = false ∧ op.takesBack r w.plc later = false ∧
      w'.plc = (w.plc.call later).2) ∨
      (w'.plc.state = w.plc.state ∧ SameQueue w.plc w'.plc) := by
  cases a with
  | deliver bs =>
    obtain rfl := Option.some.inj hs
    exact Or.inr ⟨rfl, rfl, rfl, rfl, rfl, rfl, rfl, rfl, rfl, rfl⟩
  | call later =>
    obtain ⟨-, rfl⟩ := step_call hs
    have hc := call_cases w.plc later
    rcases sameLink_called hc with ⟨hop, -, -⟩ | ⟨hop, hl⟩
    · exact Or.inl ⟨later, rfl, hop, hok.1, hok.2, rfl⟩
    · exact Or.inr ⟨hl.state, called_sameQueue hc hop⟩
  | poll os => exact absurd hok id
  | iter os =>
    obtain ⟨f, fs, hf, -, hiter⟩ := step_iterated hs
    cases hiter with
    | turned st p hu ht =>
      exact Or.inr ⟨(turned_link h.coupled ht).1, turned_sameQueue h.coupled ht⟩
    | skipped => exact Or.inr ⟨rfl, rfl, rfl, rfl, rfl, rfl, rfl, rfl, rfl, rfl⟩
  | leave => exact absurd hok id

/-- What a step of the rest of the loop does to a slot. -/
private theorem rest_slot {w w' : World n} {a : Act} {op : Op} {r : Int} (hok : Rest op r w a)
    (hs : step w a = some w') (i : Fin n) :
    (∃ later, a = .call later ∧ op.takesBack r w.plc later = false ∧ w'.plc = (w.plc.call later).2 ∧
      SlotCalled (w.plc.slots i) i later (w'.plc.slots i)) ∨
      Lasting (w.plc.slots i) (w'.plc.slots i) := by
  cases a with
  | deliver bs =>
    obtain rfl := Option.some.inj hs
    exact Or.inr ⟨rfl, rfl, rfl, Iff.rfl⟩
  | call later =>
    obtain ⟨-, rfl⟩ := step_call hs
    exact Or.inl ⟨later, rfl, hok.2, rfl, slot_called (call_cases w.plc later) i⟩
  | poll os => exact absurd hok id
  | iter os =>
    obtain ⟨f, fs, hf, -, hiter⟩ := step_iterated hs
    cases hiter with
    | turned st p hu ht =>
      exact Or.inr (slot_turned ht i)
    | skipped => exact Or.inr ⟨rfl, rfl, rfl, Iff.rfl⟩
  | leave => exact absurd hok id

section Step

variable {w w' : World n} {a : Act} {op : Op} {r : Int} {p : PlcClient n}

/-- An operation that was started is in flight or has ended, whatever the loop and other calls did. -/
private theorem pending_step {h : Int} (habort : ∀ q : PlcClient n, op.takesBack r q (.abortTag h) = true)
    (hok : Rest op r w a) (hs : step w a = some w') {i : Fin n} (hi : h = i.val)
    (hk : (w.plc.slots i).tag.state ≠ .idle) : (w'.plc.slots i).tag.state ≠ .idle := by
  rcases rest_slot hok hs i with ⟨later, -, hback, -, hslot⟩ | ⟨-, -, -, hstate⟩
  · generalize w'.plc.slots i = s' at hslot
    cases hslot with
    | same => exact hk
    | created free => exact hk
    | destroyed => exact hk
    | @started _ timeoutMs now tag hop inFlight =>
      rcases inFlight with e | e <;> rw [e] <;> nofun
    | aborted idle =>
      rw [← hi, habort] at hback
      cases hback
    | edited =>
      rw [PlcClient.edit_state]
      exact hk
  · exact fun e => hk (hstate.1 e)

private theorem created_step {name : Option (List UInt8)} {elementCount : UInt32}
    (hok : Rest (.createTag name elementCount) r w a) (hs : step w a = some w') {i : Fin n} (hi : r = i.val)
    (hk : (w.plc.slots i).inUse = true ∧ some (w.plc.slots i).name = name ∧
      (w.plc.slots i).elemCount = elementCount) :
    (w'.plc.slots i).inUse = true ∧ some (w'.plc.slots i).name = name ∧
      (w'.plc.slots i).elemCount = elementCount := by
  rcases rest_slot hok hs i with ⟨later, -, hback, -, hslot⟩ | ⟨hused, hname, hcount, -⟩
  · generalize w'.plc.slots i = s' at hslot
    cases hslot with
    | created free =>
      rw [hk.1] at free
      cases free
    | destroyed =>
      simp [Op.takesBack, hi] at hback
    | same => exact hk
    | started hop inFlight => exact hk
    | aborted idle => exact hk
    | edited => exact hk
  · rw [hused, hname, hcount]
    exact hk

private theorem destroyed_step {h : Int} (hok : Rest (.destroyTag h) r w a) (hs : step w a = some w') {i : Fin n}
    (hi : h = i.val) (hk : (w.plc.slots i).inUse = false) : (w'.plc.slots i).inUse = false := by
  rcases rest_slot hok hs i with ⟨later, -, hback, hplc, hslot⟩ | ⟨hused, -⟩
  · by_contra hused
    -- only `createTag()` can have allocated the slot, and then it returned it
    cases later with
    | createTag name elementCount =>
      have hres := createTag_created hplc hk (by simpa using hused)
      simp [Op.takesBack, hres, hi] at hback
    | _ =>
      apply hused
      generalize w'.plc.slots i = s' at hslot
      cases hslot <;> first | exact hk | rfl
  · rw [hused]
    exact hk

private theorem idle_step {h : Int} (hok : Rest (.abortTag h) r w a) (hs : step w a = some w') {i : Fin n}
    (hi : h = i.val) (hk : (w.plc.slots i).tag.state = .idle) : (w'.plc.slots i).tag.state = .idle := by
  rcases rest_slot hok hs i with ⟨later, -, hback, -, hslot⟩ | ⟨-, -, -, hstate⟩
  · generalize w'.plc.slots i = s' at hslot
    cases hslot with
    | same => exact hk
    | created free => exact hk
    | destroyed => exact hk
    | started hop inFlight =>
      rcases hop with rfl | rfl
      · simp [Op.takesBack, hi] at hback
      · simp [Op.takesBack, hi] at hback
    | aborted idle => exact idle
    | edited =>
      rw [PlcClient.edit_state]
      exact hk
  · exact hstate.2 hk

/-- No step of the rest of the loop undoes a call, unless that is a connect under way. -/
theorem kept_step (h : Live w) (hd : ¬ op.Dials r) (hok : Rest op r w a) (hs : step w a = some w')
    (hk : op.Kept r p w.plc) : op.Kept r p w'.plc := by
  cases op with
  | connect ip port timeoutMs os =>
    have hr : r ≠ Status.pending.toInt := hd
    simp only [Op.Kept, if_neg hr] at hk ⊢
    rcases rest_link h hok hs with ⟨later, -, hlink, hbegin, hback, hplc⟩ | ⟨-, hsame⟩
    · rw [hplc]
      cases later with
      | begin => cases hbegin
      | connect => cases hback
      | disconnect => cases hback
      | setStateCallback set => exact hk
      | _ => exact absurd hlink id
    · rw [hsame.fd, hsame.session]
      exact hk
  | disconnect =>
    rcases rest_link h hok hs with ⟨later, -, hlink, hbegin, hback, hplc⟩ | ⟨hstate, -⟩
    · rw [hplc]
      cases later with
      | begin => cases hbegin
      | connect => cases hback
      | disconnect =>
        change w.plc.disconnect.2.state = .disconnecting ∨ w.plc.disconnect.2.state = .idle
        unfold PlcClient.disconnect
        split
        · exact Or.inl rfl
        · exact Or.inr rfl
      | setStateCallback set => exact hk
      | _ => exact absurd hlink id
    · simp only [Op.Kept] at hk ⊢
      rw [hstate]
      exact hk
  | read h' timeoutMs now =>
    intro hr
    obtain ⟨i, hi, hbusy⟩ := hk hr
    exact ⟨i, hi, pending_step (fun q => by simp [Op.takesBack]) hok hs hi hbusy⟩
  | write h' timeoutMs now =>
    intro hr
    obtain ⟨i, hi, hbusy⟩ := hk hr
    exact ⟨i, hi, pending_step (fun q => by simp [Op.takesBack]) hok hs hi hbusy⟩
  | createTag name elementCount => exact fun i hi => created_step hok hs hi (hk i hi)
  | destroyTag h' => exact fun hr i hi => destroyed_step hok hs hi (hk hr i hi)
  | abortTag h' => exact fun hr i hi => idle_step hok hs hi (hk hr i hi)
  | _ => trivial

/-- The end of the loop does not undo a call either. -/
theorem kept_leave {f : PollFrame} {fs : List PollFrame} (hd : ¬ op.Dials r) (hk : op.Kept r p w.plc) :
    op.Kept r p (w.leave f fs).plc := by
  have hslots := (w.leave_sameTags f fs).slots
  cases op with
  | connect ip port timeoutMs os =>
    have hr : r ≠ Status.pending.toInt := hd
    simp only [Op.Kept, if_neg hr] at hk ⊢
    change (w.plc.loopEnd f.disconnected).2.1.tcp.fd < 0 ∧ (w.plc.loopEnd f.disconnected).2.1.session.state = .closed
    unfold PlcClient.loopEnd
    split
    · exact ⟨(TcpConnection.close_dropped w.plc.tcp).fd, rfl⟩
    · exact hk
  | disconnect =>
    change (w.plc.loopEnd f.disconnected).2.1.state = .disconnecting ∨
      (w.plc.loopEnd f.disconnected).2.1.state = .idle
    unfold PlcClient.loopEnd
    split
    · exact Or.inr rfl
    · exact hk
  | read h timeoutMs now =>
    simp only [Op.Kept, hslots] at hk ⊢
    exact hk
  | write h timeoutMs now =>
    simp only [Op.Kept, hslots] at hk ⊢
    exact hk
  | createTag name elementCount =>
    simp only [Op.Kept, hslots] at hk ⊢
    exact hk
  | destroyTag h =>
    simp only [Op.Kept, hslots] at hk ⊢
    exact hk
  | abortTag h =>
    simp only [Op.Kept, hslots] at hk ⊢
    exact hk
  | _ => trivial

end Step

/-! ### The call itself -/

private theorem toInt_inj {st st' : Status} (h : st.toInt = st'.toInt) : st = st' := by
  revert h
  cases st <;> cases st' <;> simp [Status.toInt]

private theorem started_call {q : PlcClient n} {op : Op} {h : Int} (timeoutMs now : UInt32)
    (f : Tag → ExplicitMessage → TcpConnection → UInt32 → Option (List UInt8) → UInt32 →
      Status × Tag × ExplicitMessage)
    (hf : ∀ t msg conn session name elemCount st t' msg',
      f t msg conn session (some name) elemCount = (st, t', msg') →
      st = .pending → Tag.Started t msg conn session name timeoutMs now t' msg')
    (hcall : q.call op = ((q.startTag h f).1.toInt, (q.startTag h f).2))
    (hr : (q.call op).1 = Status.pending.toInt) :
    ∃ i : Fin n, h = i.val ∧ ((q.call op).2.slots i).tag.state ≠ .idle := by
  rw [hcall] at hr ⊢
  have hst := toInt_inj hr
  dsimp only
  unfold PlcClient.startTag at hst ⊢
  cases hv : q.validHandle h with
  | none =>
    rw [hv] at hst
    cases hst
  | some i =>
    obtain ⟨-, rfl⟩ := PlcClient.validHandle_inUse hv
    rw [hv] at hst
    dsimp only at hst ⊢
    split at hst
    · cases hst
    · rename_i hready
      split at hst
      · cases hst
      · rename_i hbusy
        rw [if_neg hready, if_neg hbusy]
        have hstarted := hf _ _ _ _ _ _ _ _ _ rfl hst
        refine ⟨i, rfl, ?_⟩
        rw [PlcClient.setSlot_self]
        rcases hstarted.inFlight with e | e <;> rw [e] <;> nofun

private theorem dial_refused {p : PlcClient n} {os : Platform} (h : (p.dial os).1 ≠ .pending) :
    (p.dial os).2.tcp.fd < 0 := by
  obtain ⟨st, t, ht⟩ : ∃ st t,
      p.tcp.connect p.remoteIp p.remotePort p.connectTimeoutMs os.connect (os.millis 1) = (st, t) := ⟨_, _, rfl⟩
  rw [dial_state, ht]
  unfold PlcClient.dial at h
  rw [ht] at h
  rcases TcpConnection.connect_cases ht with ⟨rfl, -⟩ | ⟨-, hd⟩
  · exact absurd rfl h
  · exact hd.fd

/-- A call has the effect it is made for. -/
theorem kept_call {q : PlcClient n} {op : Op} (hd : ¬ op.Dials (q.call op).1) :
    op.Kept (q.call op).1 (q.call op).2 (q.call op).2 := by
  cases op with
  | connect ip port timeoutMs os =>
    have hr : (q.call (.connect ip port timeoutMs os)).1 ≠ Status.pending.toInt := hd
    simp only [Op.Kept, if_neg hr]
    change (q.connect ip port timeoutMs os).1.toInt ≠ Status.pending.toInt at hr
    change (q.connect ip port timeoutMs os).2.tcp.fd < 0 ∧ (q.connect ip port timeoutMs os).2.session.state = .closed
    by_cases heth : q.eth.ready = true
    · rw [connect_ready heth] at hr ⊢
      refine ⟨dial_refused fun e => hr (congrArg Status.toInt e), ?_⟩
      rw [(dial_cases _ _).1]
      rfl
    · unfold PlcClient.connect at hr
      dsimp only at hr
      rw [if_neg heth] at hr
      exact absurd rfl hr
  | disconnect =>
    change q.disconnect.2.state = .disconnecting ∨ q.disconnect.2.state = .idle
    unfold PlcClient.disconnect
    split
    · exact Or.inl rfl
    · exact Or.inr rfl
  | read h timeoutMs now =>
    refine started_call timeoutMs now (fun tag msg conn session name elemCount =>
      tag.read msg conn session name elemCount timeoutMs now)
      (fun t msg conn session name elemCount st t' msg' he hst => ?_) rfl
    rcases Tag.read_cases he with ⟨-, hs⟩ | ⟨hne, -⟩
    · exact hs
    · exact absurd hst hne
  | write h timeoutMs now =>
    refine started_call timeoutMs now (fun tag msg conn session name elemCount =>
      tag.write msg conn session name elemCount timeoutMs now)
      (fun t msg conn session name elemCount st t' msg' he hst => ?_) rfl
    rcases Tag.write_cases he with ⟨-, -, hs⟩ | ⟨hne, -⟩
    · exact hs
    · exact absurd hst hne
  | createTag name elementCount =>
    intro i hi
    change (q.createTag name elementCount).1 = i.val at hi
    obtain ⟨bytes, rfl, -, hp⟩ := PlcClient.createTag_of_handle hi
    change ((q.createTag (some bytes) elementCount).2.slots i).inUse = true ∧
      some ((q.createTag (some bytes) elementCount).2.slots i).name = some bytes ∧
      ((q.createTag (some bytes) elementCount).2.slots i).elemCount = elementCount
    rw [hp, PlcClient.setSlot_self]
    exact ⟨rfl, rfl, rfl⟩
  | destroyTag h =>
    intro hr i hi
    change (q.destroyTag h).1.toInt = Status.ok.toInt at hr
    change ((q.destroyTag h).2.slots i).inUse = false
    unfold PlcClient.destroyTag at hr ⊢
    cases hv : q.validHandle h with
    | none =>
      rw [hv] at hr
      cases toInt_inj hr
    | some j =>
      obtain ⟨-, rfl⟩ := PlcClient.validHandle_inUse hv
      have hji : j = i := Fin.ext (by omega)
      subst hji
      dsimp only
      rw [PlcClient.setSlot_self]
  | abortTag h =>
    intro hr i hi
    change (q.abortTag h).1.toInt = Status.ok.toInt at hr
    change ((q.abortTag h).2.slots i).tag.state = .idle
    unfold PlcClient.abortTag at hr ⊢
    cases hv : q.validHandle h with
    | none =>
      rw [hv] at hr
      cases toInt_inj hr
    | some j =>
      obtain ⟨-, rfl⟩ := PlcClient.validHandle_inUse hv
      have hji : j = i := Fin.ext (by omega)
      subst hji
      dsimp only
      rw [PlcClient.setSlot_self]
      rfl
  | _ => trivial

/-! ### A connect under way -/

section Dial

variable {w w' w₂ : World n} {a : Act} {as : List Act} {f : PollFrame} {fs : List PollFrame} {ip : IPAddress}
  {port : UInt16} {timeoutMs : UInt32} {os : Platform} {r : Int} {session : Session} {sockets : Nat}

/-- No call but `begin()` changes what is known of Ethernet. -/
private theorem body_eth (hok : Body w a) (hs : step w a = some w') : w'.plc.eth = w.plc.eth := by
  cases a with
  | deliver bs =>
    obtain rfl := Option.some.inj hs
    rfl
  | call op =>
    obtain ⟨-, rfl⟩ := step_call hs
    have hc := call_cases w.plc op
    rcases sameLink_called hc with ⟨hop, -, -⟩ | ⟨hop, -⟩
    · cases op with
      | begin => cases hok
      | connect ip port timeoutMs os =>
        change (w.plc.connect ip port timeoutMs os).2.eth = w.plc.eth
        unfold PlcClient.connect
        dsimp only
        split
        · rw [dial_eth]
        · rfl
      | disconnect =>
        change w.plc.disconnect.2.eth = w.plc.eth
        unfold PlcClient.disconnect
        split <;> rfl
      | setStateCallback set => rfl
      | _ => exact absurd hop id
    · exact called_eth hc hop
  | poll os => exact absurd hok id
  | iter os =>
    obtain ⟨f, fs, hf, -, hiter⟩ := step_iterated hs
    cases hiter with
    | turned st p hu ht =>
      cases ht <;> rfl
    | skipped => rfl
  | leave => exact absurd hok id

/-- A `connect()` that returns `Pending` with Ethernet ready is under way. -/
private theorem carrying_call {p : PlcClient n} (heth : p.eth.ready = true)
    (hr : (p.call (.connect ip port timeoutMs os)).1 = Status.pending.toInt) :
    Carrying ip port (p.call (.connect ip port timeoutMs os)).2.session
      (p.call (.connect ip port timeoutMs os)).2.tcp.sockets (p.call (.connect ip port timeoutMs os)).2 := by
  change (p.connect ip port timeoutMs os).1.toInt = Status.pending.toInt at hr
  have hst := toInt_inj hr
  change Carrying ip port (p.connect ip port timeoutMs os).2.session (p.connect ip port timeoutMs os).2.tcp.sockets
    (p.connect ip port timeoutMs os).2
  rw [connect_ready heth] at hst ⊢
  obtain ⟨st, t, ht⟩ : ∃ st t, (p.hungUp ip port timeoutMs os).tcp.connect (p.hungUp ip port timeoutMs os).remoteIp
      (p.hungUp ip port timeoutMs os).remotePort (p.hungUp ip port timeoutMs os).connectTimeoutMs os.connect
      (os.millis 1) = (st, t) := ⟨_, _, rfl⟩
  rw [dial_state, ht]
  unfold PlcClient.dial at hst
  rw [ht] at hst
  rcases TcpConnection.connect_cases ht with ⟨rfl, hd⟩ | ⟨hne, -⟩
  · exact ⟨rfl, hd.fd, hd.state, rfl, rfl, rfl, rfl⟩
  · exfalso
    cases st <;> first | exact hne rfl | cases hst

/-- A turn of the loop on a connection that is not usable: it notes a loss exactly when it comes to an operation in
flight that is still in time. -/
private theorem turned_unusable {p p' : PlcClient n} {i : Fin n} {st : Status} (hc : Coupled p)
    (hmore : p.msg.InFlight → p.msg.rxLen < p.msg.rxExpected) (hu : ¬ p.tcp.Usable)
    (ht : PlcClient.Turned p i os st p') :
    p'.tcp = p.tcp ∧ (st = .closed ↔ (p.slots i).tag.InFlight ∧ expired (os.millis 0) p.msg.deadline = false) := by
  cases ht with
  | rest hr =>
    refine ⟨rfl, fun h => ?_, fun h => absurd h.1 hr⟩
    unfold Tag.status at h
    split at h <;> cases h
  | @inFlight mst st tag msg tcp hin polled advanced =>
    have hm := hc.used i hin
    obtain ⟨htcp, hst⟩ := ExplicitMessage.poll_unusable hm (hmore hm) hu polled
    refine ⟨htcp, ?_⟩
    by_cases hexp : expired (os.millis 0) p.msg.deadline = true
    · rw [if_pos hexp] at hst
      subst hst
      rw [hexp]
      refine ⟨fun h => ?_, fun h => nomatch h.2⟩
      cases advanced with
      | pending h' => cases h'
      | broke h' => cases h
      | refused h' => cases h'
      | done h' => cases h'
    · rw [if_neg hexp] at hst
      subst hst
      refine ⟨fun _ => ⟨hin, by simpa using hexp⟩, fun _ => ?_⟩
      cases advanced with
      | pending h' => cases h'
      | broke h' => rfl
      | refused h' => cases h'
      | done h' => cases h'

private theorem carrying_not_usable {p : PlcClient n} (h : Carrying ip port session sockets p) : ¬ p.tcp.Usable := by
  rintro ⟨-, hok⟩
  rw [h.pending] at hok
  cases hok

/-- One step of the rest of the loop leaves the connect alone; the loop notes a loss when it comes to an operation
that is in flight and in time. -/
theorem carrying_step (h : Live w) (hok : Rest (.connect ip port timeoutMs os) r w a) (hs : step w a = some w')
    (hc : Carrying ip port session sockets w.plc) (hf : w.polls = f :: fs) :
    ∃ f', w'.polls = f' :: fs ∧ Carrying ip port session sockets w'.plc ∧
      (f'.disconnected = false ↔ f.disconnected = false ∧ Spares w a) := by
  cases a with
  | deliver bs =>
    obtain rfl := Option.some.inj hs
    exact ⟨f, hf, ⟨hc.state, hc.fd, hc.pending, hc.sockets, hc.session, hc.remote⟩, fun h => ⟨h, trivial⟩,
      fun h => h.1⟩
  | call later =>
    have hplc : Carrying ip port session sockets w'.plc := by
      rcases rest_link h hok hs with ⟨later, ha, hlink, hbegin, hback, hplc⟩ | ⟨hstate, hq⟩
      · rw [hplc]
        cases later with
        | begin => cases hbegin
        | connect => cases hback
        | disconnect => cases hback
        | setStateCallback set => exact ⟨hc.state, hc.fd, hc.pending, hc.sockets, hc.session, hc.remote⟩
        | _ => exact absurd hlink id
      · have htcp : w'.plc.tcp = w.plc.tcp := by
          obtain ⟨-, rfl⟩ := step_call hs
          rcases sameLink_called (call_cases w.plc later) with ⟨hop, -, -⟩ | ⟨-, hl⟩
          · cases later with
            | begin => cases hok.1
            | connect => cases hok.2
            | disconnect => cases hok.2
            | setStateCallback set => rfl
            | _ => exact absurd hop id
          · exact hl.tcp
        refine ⟨hstate.trans hc.state, ?_, ?_, ?_, hq.session.trans hc.session, hq.remoteIp.trans hc.remote.1,
          hq.remotePort.trans hc.remote.2⟩
        · rw [htcp]
          exact hc.fd
        · rw [htcp]
          exact hc.pending
        · rw [htcp]
          exact hc.sockets
    obtain ⟨-, rfl⟩ := step_call hs
    exact ⟨f, hf, hplc, fun h => ⟨h, trivial⟩, fun h => h.1⟩
  | poll os => exact absurd hok id
  | iter os =>
    obtain ⟨f₁, fs₁, hlt, hp, hiter⟩ := step_iterated hs
    rw [hf] at hp
    obtain ⟨rfl, rfl⟩ := List.cons.inj hp
    have hnext : w.polls.head?.map PollFrame.next = some f.next := by
      rw [hf]
      rfl
    cases hiter with
    | turned st p hu ht =>
      obtain ⟨htcp, hclosed⟩ := turned_unusable h.coupled h.unread (carrying_not_usable hc) ht
      have hq := turned_sameQueue h.coupled ht
      refine ⟨_, rfl, ⟨(turned_link h.coupled ht).1.trans hc.state, ?_, ?_, ?_, hq.session.trans hc.session,
        hq.remoteIp.trans hc.remote.1, hq.remotePort.trans hc.remote.2⟩, ?_⟩
      · rw [htcp]
        exact hc.fd
      · rw [htcp]
        exact hc.pending
      · rw [htcp]
        exact hc.sockets
      · have hspares : Spares w (.iter os) ↔ st ≠ .closed := by
          rw [ne_eq, hclosed, not_and]
          constructor
          · intro hsp hin
            rw [hsp ⟨f.next, hlt⟩ hnext hu hin]
            nofun
          · intro hsp i hi _ hin
            rw [hnext] at hi
            obtain rfl : (⟨f.next, hlt⟩ : Fin n) = i := Fin.ext (Option.some.inj hi)
            simpa using hsp hin
        rw [hspares]
        simp
    | skipped hu =>
      refine ⟨_, rfl, hc, fun h => ⟨h, fun i hi hused => ?_⟩, fun h => h.1⟩
      rw [hnext] at hi
      obtain rfl : (⟨f.next, hlt⟩ : Fin n) = i := Fin.ext (Option.some.inj hi)
      rw [hu] at hused
      cases hused
  | leave => exact absurd hok id

/-- The same for the whole rest of the loop. -/
theorem carrying_run (h : Live w) (hrun : Run step (Rest (.connect ip port timeoutMs os) r) w as w₂)
    (hc : Carrying ip port session sockets w.plc) (hf : w.polls = f :: fs) :
    ∃ f₂, w₂.polls = f₂ :: fs ∧ Carrying ip port session sockets w₂.plc ∧
      (f₂.disconnected = false ↔ f.disconnected = false ∧
        Run step (fun w a => Rest (.connect ip port timeoutMs os) r w a ∧ Spares w a) w as w₂) := by
  induction hrun generalizing f with
  | nil w => exact ⟨f, hf, hc, fun h => ⟨h, .nil w⟩, fun h => h.1⟩
  | @cons w t u a as allowed taken rest ih =>
    obtain ⟨f₁, hf₁, hc₁, hiff₁⟩ := carrying_step h allowed taken hc hf
    obtain ⟨f₂, hf₂, hc₂, hiff₂⟩ := ih (live_step h taken) hc₁ hf₁
    refine ⟨f₂, hf₂, hc₂, ?_⟩
    rw [hiff₂, hiff₁]
    constructor
    · rintro ⟨⟨hd, hsp⟩, hrest⟩
      exact ⟨hd, .cons ⟨allowed, hsp⟩ taken hrest⟩
    · rintro ⟨hd, hall⟩
      cases hall with
      | cons allowed' taken' rest' =>
        rw [taken] at taken'
        obtain rfl := Option.some.inj taken'
        exact ⟨⟨hd, allowed'.2⟩, rest'⟩

end Dial

/-! ### Nothing else is undone -/

section Main

variable {w₀ w w₁ w₂ w₃ w₄ : World n} {as bs : List Act} {op : Op} {f : PollFrame} {fs : List PollFrame}
  {os : Platform}

/-- A call that a callback makes during a `poll()` in `Ready` is not undone by the rest of that `poll()`, except a
connect under way: that one is kept exactly when the loop had noted no loss before it and comes to no operation that
is in flight and in time after it. -/
theorem kept_iff (hr : Reachable w₀) (hready : w₀.plc.state = .ready) (hpoll : step w₀ (.poll os) = some w₁)
    (hbody : Run step Body w₁ as w) (hf : w.polls = f :: fs) (hcall : step w (.call op) = some w₂)
    (hrest : Run step (Rest op (w.plc.call op).1) w₂ bs w₃) (hleave : step w₃ .leave = some w₄) :
    op.Kept (w.plc.call op).1 w₂.plc w₄.plc ↔
      (op.Dials (w.plc.call op).1 → f.disconnected = false ∧
        Run step (fun v a => Rest op (w.plc.call op).1 v a ∧ Spares v a) w₂ bs w₃) := by
  have hlive₁ : Live w₁ := live_step hr.live hpoll
  have heth₁ : w₁.plc.eth.ready = true := by
    obtain ⟨-, rfl⟩ := step_poll hpoll
    unfold World.poll
    rw [PlcClient.pollState_none.2 hready]
    exact hr.live.wired (Or.inr (Or.inr (Or.inl hready)))
  obtain ⟨hlive, heth⟩ := hbody.invariant (I := fun w => Live w ∧ w.plc.eth.ready = true)
    (fun v a v' hv hok hs => ⟨live_step hv.1 hs, by rw [body_eth hok hs]; exact hv.2⟩) ⟨hlive₁, heth₁⟩
  have hlive₂ : Live w₂ := live_step hlive hcall
  obtain ⟨-, rfl⟩ := step_call hcall
  obtain ⟨f₃, fs₃, hf₃, -, rfl⟩ := step_leave hleave
  by_cases hd : op.Dials (w.plc.call op).1
  · cases op with
    | connect ip port timeoutMs os =>
      have hp : (w.plc.call (.connect ip port timeoutMs os)).1 = Status.pending.toInt := hd
      have hc := carrying_call heth hp
      obtain ⟨f', hf', hc', hiff⟩ := carrying_run hlive₂ hrest hc hf
      rw [hf₃] at hf'
      obtain ⟨rfl, rfl⟩ := List.cons.inj hf'
      simp only [Op.Kept]
      rw [if_pos hp]
      constructor
      · -- after a loss the client is idle
        intro hk _
        refine hiff.1 ?_
        by_contra hflag
        have hidle : (w₃.leave f₃ fs₃).plc.state = .idle := by
          unfold World.leave PlcClient.loopEnd
          rw [if_pos (by simpa using hflag)]
        rw [hk.state] at hidle
        cases hidle
      · intro h
        have hflag := hiff.2 (h hd)
        have hplc : (w₃.leave f₃ fs₃).plc = w₃.plc := by
          unfold World.leave PlcClient.loopEnd
          rw [if_neg (by rw [hflag]; nofun)]
        rw [hplc]
        exact hc'
    | _ => exact absurd hd id
  · refine ⟨fun _ h => absurd h hd, fun _ => ?_⟩
    have hk := hrest.invariant (I := fun v => Live v ∧ op.Kept (w.plc.call op).1 (w.call op).plc v.plc)
      (fun v a v' hv hok hs => ⟨live_step hv.1 hs, kept_step hv.1 hd hok hs hv.2⟩) ⟨hlive₂, kept_call hd⟩
    exact kept_leave hd hk.2


end Main

/-- A read has been seen `Pending` by one call of `poll()`. -/
def readSeen : World 2 :=
  reached 2 (bringUp 7 ++ [.call (.createTag (some [65]) 1), .call (.read 0 1000 10)] ++ wholePoll 2 (generous 20))

/-- The next `poll()`, up to the tag callback of slot 0. -/
def inCallback (os : Platform) : World 2 := after step (after step readSeen [.poll os]) [.iter os]

/-- The callback connects anew. -/
def reconnected (os : Platform) : World 2 := after step (inCallback os) [.call (.connect 1 44818 5000 {})]

/-- The loop comes to slot 1, which is free. -/
def loopDone (os : Platform) : World 2 := after step (reconnected os) [.iter os]

theorem reachable_readSeen : Reachable readSeen := reachable_reached (by decide +kernel)

/-- The run of a `poll()` whose callback connects anew, step by step. -/
private theorem reconnecting (os : Platform) (h₁ : (step readSeen (.poll os)).isSome)
    (h₂ : (execIf step Body (after step readSeen [.poll os]) [.iter os]).isSome)
    (h₃ : (step (inCallback os) (.call (.connect 1 44818 5000 {}))).isSome)
    (h₄ : (execIf step (Rest (.connect 1 44818 5000 {}) 0) (reconnected os) [.iter os]).isSome)
    (h₅ : (step (loopDone os) .leave).isSome) :
    step readSeen (.poll os) = some (after step readSeen [.poll os]) ∧
      Run step Body (after step readSeen [.poll os]) [.iter os] (inCallback os) ∧
      step (inCallback os) (.call (.connect 1 44818 5000 {})) = some (reconnected os) ∧
      Run step (Rest (.connect 1 44818 5000 {}) 0) (reconnected os) [.iter os] (loopDone os) ∧
      step (loopDone os) .leave = some (after step (loopDone os) [.leave]) :=
  ⟨step_after h₁, run_afterIf Body h₂, step_after h₃, run_afterIf _ h₄, step_after h₅⟩

/-- The callback reports `Timeout`, and its connect is kept. -/
theorem kept_iff_timeout :
    Op.Kept (.connect 1 44818 5000 {}) 0 (reconnected (generous 2000)).plc
      (after step (loopDone (generous 2000)) [.leave]).plc := by
  obtain ⟨hpoll, hbody, hcall, hrest, hleave⟩ := reconnecting (generous 2000) (by decide +kernel) (by decide +kernel)
    (by decide +kernel) (by decide +kernel) (by decide +kernel)
  have hf : (inCallback (generous 2000)).polls = [{ next := 1, inCallback := true }] := by decide +kernel
  have hspares : Run step (fun v a => Rest (.connect 1 44818 5000 {}) 0 v a ∧ Spares v a)
      (reconnected (generous 2000)) [.iter (generous 2000)] (loopDone (generous 2000)) :=
    run_afterIf _ (by decide +kernel)
  have hr : ((inCallback (generous 2000)).plc.call (.connect 1 44818 5000 {})).1 = 0 := by decide +kernel
  have hk := kept_iff reachable_readSeen (by decide +kernel) hpoll hbody hf hcall (by rw [hr]; exact hrest) hleave
  rw [hr] at hk
  exact hk.2 fun _ => ⟨rfl, hspares⟩

/-- The peer has closed the connection. -/
def peerClosed : Platform := { millis := fun _ => 30, recvs := [.eof] }

/-- The callback reports `Closed` and connects; when `poll()` returns, the connect is gone. -/
theorem connect_undone : ¬ ∀ (w₀ w w₁ w₂ w₃ w₄ : World 2) (as bs : List Act) (op : Op) (os : Platform), Reachable w₀ →
    w₀.plc.state = .ready → step w₀ (.poll os) = some w₁ → Run step Body w₁ as w → step w (.call op) = some w₂ →
    Run step (Rest op (w.plc.call op).1) w₂ bs w₃ → step w₃ .leave = some w₄ →
    op.Kept (w.plc.call op).1 w₂.plc w₄.plc := by
  intro h
  obtain ⟨hpoll, hbody, hcall, hrest, hleave⟩ := reconnecting peerClosed (by decide +kernel) (by decide +kernel)
    (by decide +kernel) (by decide +kernel) (by decide +kernel)
  have hr : ((inCallback peerClosed).plc.call (.connect 1 44818 5000 {})).1 = 0 := by decide +kernel
  have hk := h _ _ _ _ _ _ _ _ _ _ reachable_readSeen (by decide +kernel) hpoll hbody hcall
    (by rw [hr]; exact hrest) hleave
  rw [hr] at hk
  have hstate := (show Carrying _ _ _ _ _ from hk).state
  revert hstate
  decide +kernel

end World

end ControlLogix
