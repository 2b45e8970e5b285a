import ControlLogix.World

/-!
# Who owns the shared message

Nothing in the client records which slot the shared message works for.  The tags and the message stay in step all the
same (`Coupled`): at most one tag is in flight, and one is exactly when the message is.

* `coupled_step`: every action keeps tags and message in step;
* `Reachable.recorded`: the slot in flight is the one whose read or write was accepted last;
* `step_tag`: an action changes the tag of the slot it names, or of the slot in flight when the loop reaches it;
* `exclusive_of_reachable`: the resulting picture of every reachable state.
-/

namespace ControlLogix

open Transition
open Buffers (Framed)

variable {n : Nat}

/-! ### Tags and message in step -/

structure Coupled (p : PlcClient n) : Prop where
  single : ∀ i j, (p.slots i).tag.InFlight → (p.slots j).tag.InFlight → i = j
  owned : p.msg.InFlight → ∃ i, (p.slots i).tag.InFlight
  used : ∀ i, (p.slots i).tag.InFlight → p.msg.InFlight
  framed : p.msg.InFlight → Framed (16 + ExplicitMessage.kMaxCipData) p.msg.toBuffers
  named : ∀ i, (p.slots i).inUse = true → (p.slots i).name.length < PlcClient.kMaxTagName

theorem Coupled.iff {p : PlcClient n} (h : Coupled p) : (∃ i, (p.slots i).tag.InFlight) ↔ p.msg.InFlight := by
  constructor
  · rintro ⟨i, hi⟩
    exact h.used i hi
  · exact h.owned

theorem Coupled.of_sameTags {p p' : PlcClient n} (h : Coupled p) (hs : PlcClient.SameTags p p') : Coupled p' := by
  obtain ⟨h1, h2, h3, h4, h5⟩ := h
  rw [← hs.msg] at h2 h3 h4
  rw [← hs.slots] at h1 h2 h3 h5
  exact ⟨h1, h2, h3, h4, h5⟩

/-- Writing slot `i` keeps tags and message in step when its tag stays in flight or stays at rest. -/
theorem Coupled.setSlot {p : PlcClient n} (h : Coupled p) {i : Fin n} {s : Slot}
    (hin : s.tag.InFlight ↔ (p.slots i).tag.InFlight)
    (hn : s.inUse = true → s.name.length < PlcClient.kMaxTagName) : Coupled (p.setSlot i s) := by
  have hslot : ∀ j, ((p.setSlot i s).slots j).tag.InFlight ↔ (p.slots j).tag.InFlight := by
    exact p.setSlot_elim (P := fun j s => s.tag.InFlight ↔ (p.slots j).tag.InFlight) hin fun _ _ => Iff.rfl
  refine ⟨?_, ?_, ?_, h.framed, ?_⟩
  · intro j k hj hk
    exact h.single j k ((hslot j).1 hj) ((hslot k).1 hk)
  · intro hm
    obtain ⟨j, hj⟩ := h.owned hm
    exact ⟨j, (hslot j).2 hj⟩
  · intro j hj
    exact h.used j ((hslot j).1 hj)
  · exact PlcClient.setSlot_elim (P := fun _ s => s.inUse = true → s.name.length < _) _ hn fun j _ => h.named j

/-- Slot `i` and the message end together. -/
theorem Coupled.release {p : PlcClient n} (h : Coupled p) {i : Fin n} {s : Slot} {m : ExplicitMessage}
    {tcp : TcpConnection} (hi : (p.slots i).tag.InFlight) (hs : ¬ s.tag.InFlight) (hm : ¬ m.InFlight)
    (hn : s.inUse = true → s.name.length < PlcClient.kMaxTagName) :
    Coupled ({ p with msg := m, tcp := tcp }.setSlot i s) := by
  have hrest : ∀ j, ¬ (({ p with msg := m, tcp := tcp } : PlcClient n).setSlot i s |>.slots j).tag.InFlight := by
    exact PlcClient.setSlot_elim (P := fun _ s => ¬ s.tag.InFlight) _ hs fun j hji hj => hji (h.single j i hj hi)
  refine ⟨?_, fun h' => absurd h' hm, ?_, fun h' => absurd h' hm, ?_⟩
  · intro j k hj
    exact absurd hj (hrest j)
  · intro j hj
    exact absurd hj (hrest j)
  · exact PlcClient.setSlot_elim (P := fun _ s => s.inUse = true → s.name.length < _) _ hn fun j _ => h.named j

/-- Slot `i` is in flight with the message, and no other slot is. -/
theorem Coupled.hold {p : PlcClient n} (h : Coupled p) {i : Fin n} {s : Slot} {m : ExplicitMessage}
    {tcp : TcpConnection} (hi : ∀ j, (p.slots j).tag.InFlight → j = i) (hs : s.tag.InFlight) (hm : m.InFlight)
    (hf : Framed (16 + ExplicitMessage.kMaxCipData) m.toBuffers)
    (hn : s.inUse = true → s.name.length < PlcClient.kMaxTagName) :
    Coupled ({ p with msg := m, tcp := tcp }.setSlot i s) := by
  have honly : ∀ j, (({ p with msg := m, tcp := tcp } : PlcClient n).setSlot i s |>.slots j).tag.InFlight →
    j = i := by
    exact PlcClient.setSlot_elim (P := fun j s => s.tag.InFlight → j = i) _ (fun _ => rfl) fun j _ => hi j
  refine ⟨?_, fun _ => ⟨i, by simpa using hs⟩, fun _ _ => hm, fun _ => hf, ?_⟩
  · intro j k hj hk
    rw [honly j hj, honly k hk]
  · exact PlcClient.setSlot_elim (P := fun _ s => s.inUse = true → s.name.length < _) _ hn fun j _ => h.named j

theorem coupled_called {p p' : PlcClient n} {op : Op} {events : List (Event n)} (h : Coupled p)
    (hc : Called p op p' events) : Coupled p' := by
  cases hc with
  | linked hop => exact h.of_sameTags (hop.sameTags p)
  | registered set => exact ⟨h.single, h.owned, h.used, h.framed, h.named⟩
  | created free bounded => exact h.setSlot Iff.rfl fun _ => bounded.2
  | destroyed inUse => exact h.setSlot Iff.rfl nofun
  | @started op i timeoutMs now tag msg hop inUse ready free started =>
    obtain ⟨service, data, -, hs⟩ := started.sent
    -- the message was free, so no slot was in flight, allocated or not
    have hrest : ∀ j, ¬ (p.slots j).tag.InFlight := fun j hj => hs.free (h.used j hj)
    exact h.hold (fun j hj => absurd hj (hrest j)) started.inFlight (Or.inl hs.state) hs.framed fun _ =>
      h.named i inUse
  | @aborted i inUse =>
    by_cases hi : (p.slots i).tag.InFlight
    · rw [Tag.abort_inFlight hi]
      exact h.release hi (by simp [Tag.InFlight]) (by simp) fun _ => h.named i inUse
    · rw [Tag.abort_rest hi]
      exact h.setSlot (by simp [Tag.InFlight] at hi ⊢; exact hi) fun _ => h.named i inUse
  | @edited i e inUse => exact h.setSlot (PlcClient.edit_inFlight e _) fun _ => h.named i inUse
  | refused hop => exact h

theorem coupled_turned {p p' : PlcClient n} {i : Fin n} {os : Platform} {st : Status} (h : Coupled p)
    (ht : PlcClient.Turned p i os st p') : Coupled p' := by
  cases ht with
  | rest hr => exact h.setSlot Iff.rfl (h.named i)
  | @inFlight mst st tag msg tcp hin polled advanced =>
    have hm := h.used i hin
    obtain ⟨inp, hp⟩ := ExplicitMessage.poll_spec hm (h.framed hm) polled
    have hiff := advanced.inFlight_iff hin
    by_cases hst : st = .pending
    · have hmst : mst = .pending := by
        cases advanced with
        | pending h' => exact h'
        | broke h' => exact absurd hst h'.1
        | refused => cases hst
        | done => cases hst
      have hmsg : msg.InFlight := by
        rcases hp.outcome with ⟨-, h'⟩ | ⟨h', -⟩ | ⟨h', -⟩
        · exact h'
        · rw [hmst] at h'
          cases h'
        · rw [hmst] at h'
          simp at h'
      exact h.hold (fun j hj => h.single j i hj hin) (hiff.2 hst) hmsg (hp.framed (Or.inl hmst)) (h.named i)
    · have hmst : mst ≠ .pending := by
        cases advanced with
        | pending h' => exact absurd rfl hst
        | broke h' => exact hst
        | refused h' => simp [h']
        | done h' => simp [h']
      have hmsg : ¬ msg.InFlight := by
        rintro hmsg
        rcases hp.outcome with ⟨h', -⟩ | ⟨-, h'⟩ | ⟨-, h'⟩
        · exact hmst h'
        · rcases hmsg with e | e <;> rw [e] at h' <;> cases h'
        · rcases hmsg with e | e <;> rw [e] at h' <;> cases h'
      exact h.release hin (fun h' => hst (hiff.1 h')) hmsg (h.named i)

namespace World

theorem coupled_initial {w : World n} (h : Initial w) : Coupled w.plc := by
  have hslot : ∀ i, ¬ (w.plc.slots i).tag.InFlight := by
    intro i
    rw [h.fresh.slots i]
    simp [Tag.InFlight]
  have hmsg : ¬ w.plc.msg.InFlight := by
    rw [h.fresh.msg]
    simp [ExplicitMessage.InFlight]
  refine ⟨fun i j hi => absurd hi (hslot i), fun hm => absurd hm hmsg, fun i hi => absurd hi (hslot i),
    fun hm => absurd hm hmsg, fun i hi => ?_⟩
  rw [h.fresh.slots i] at hi
  cases hi

/-- The client after `poll()` up to the loop has the same tags and message. -/
theorem poll_sameTags (w : World n) (os : Platform) : PlcClient.SameTags w.plc (w.poll os).plc := by
  unfold World.poll
  split
  · exact ⟨rfl, rfl, rfl⟩
  · rename_i st p called hp
    exact PlcClient.pollState_sameTags hp

theorem leave_sameTags (w : World n) (f : PollFrame) (fs : List PollFrame) :
    PlcClient.SameTags w.plc (w.leave f fs).plc :=
  w.plc.loopEnd_sameTags f.disconnected

theorem coupled_step {w w' : World n} {a : Act} (h : Coupled w.plc) (hs : step w a = some w') : Coupled w'.plc := by
  cases a with
  | deliver bs =>
    obtain rfl := Option.some.inj hs
    exact ⟨h.single, h.owned, h.used, h.framed, h.named⟩
  | call op =>
    obtain ⟨-, rfl⟩ := step_call hs
    exact coupled_called h (call_cases w.plc op)
  | poll os =>
    obtain ⟨-, rfl⟩ := step_poll hs
    exact h.of_sameTags (w.poll_sameTags os)
  | iter os =>
    obtain ⟨f, fs, hf, -, hiter⟩ := step_iterated hs
    cases hiter with
    | turned st p hu ht =>
      exact coupled_turned h ht
    | skipped => exact h
  | leave =>
    obtain ⟨f, fs, -, -, rfl⟩ := step_leave hs
    exact h.of_sameTags (w.leave_sameTags f fs)

theorem Reachable.coupled {w : World n} (h : Reachable w) : Coupled w.plc :=
  h.invariant (I := fun w => Coupled w.plc) (fun _ => coupled_initial) fun _ _ _ => coupled_step

/-! ### The slot in flight and the last accepted operation -/

def noteStart (l : Option (Fin n × Nat × UInt32)) : Event n → Option (Fin n × Nat × UInt32)
  | .started i sock deadline => some (i, sock, deadline)
  | _ => l

/-- The slot, the TCP connection and the deadline of the last accepted read or write. -/
def lastStart (log : List (Event n)) : Option (Fin n × Nat × UInt32) := log.foldl noteStart none

theorem lastStart_append (log events : List (Event n)) :
    lastStart (log ++ events) = events.foldl noteStart (lastStart log) :=
  List.foldl_append

/-- A turn of the loop starts nothing. -/
theorem lastStart_iter (w : World n) (i : Fin n) (st : Status) (p : PlcClient n) (k : Nat) (b : Bool) :
    lastStart (w.log ++ iterEvents w.plc i st p k ++ if b then [.tagCallback i st] else []) = lastStart w.log := by
  rw [lastStart_append, lastStart_append]
  have h1 : ∀ l, (iterEvents w.plc i st p k).foldl noteStart l = l := by
    intro l
    unfold iterEvents
    dsimp only
    split <;> split <;> rfl
  rw [h1]
  split <;> rfl

theorem lastStart_poll (w : World n) (os : Platform) : lastStart (w.poll os).log = lastStart w.log := by
  unfold World.poll
  split
  · rfl
  · rename_i st p called hp
    dsimp only
    rw [lastStart_append, lastStart_append]
    cases called <;> split <;> rfl

theorem lastStart_leave (w : World n) (f : PollFrame) (fs : List PollFrame) :
    lastStart (w.leave f fs).log = lastStart w.log := by
  unfold World.leave
  dsimp only
  rw [lastStart_append]
  cases (w.plc.loopEnd f.disconnected).2.2 <;> rfl

/-- The operation in flight is the last accepted one, and the message has its deadline. -/
def Recorded (p : PlcClient n) (log : List (Event n)) : Prop :=
  ∀ i, (p.slots i).tag.InFlight → ∃ sock, lastStart log = some (i, sock, p.msg.deadline)

private theorem Recorded.of_sameTags {p p' : PlcClient n} {log log' : List (Event n)} (h : Recorded p log)
    (hs : PlcClient.SameTags p p') (hl : lastStart log' = lastStart log) : Recorded p' log' := by
  intro i hi
  rw [hs.slots] at hi
  rw [hs.msg, hl]
  exact h i hi

private theorem Recorded.setSlot {p : PlcClient n} {log : List (Event n)} (h : Recorded p log) {i : Fin n} {s : Slot}
    {m : ExplicitMessage} {tcp : TcpConnection} (hin : s.tag.InFlight → (p.slots i).tag.InFlight)
    (hm : (p.slots i).tag.InFlight → s.tag.InFlight → m.deadline = p.msg.deadline)
    (hne : ∀ j, j ≠ i → (p.slots j).tag.InFlight → m.deadline = p.msg.deadline) :
    Recorded ({ p with msg := m, tcp := tcp }.setSlot i s) log := by
  intro j hj
  rw [PlcClient.setSlot_slots] at hj
  change ∃ sock, lastStart log = some (j, sock, m.deadline)
  by_cases hji : j = i
  · rw [if_pos hji] at hj
    subst hji
    rw [hm (hin hj) hj]
    exact h j (hin hj)
  · rw [if_neg hji] at hj
    rw [hne j hji hj]
    exact h j hj

private theorem recorded_called {p p' : PlcClient n} {op : Op} {events log : List (Event n)} (hco : Coupled p)
    (h : Recorded p log) (hc : Called p op p' events) : Recorded p' (log ++ events) := by
  cases hc with
  | linked hop => exact h.of_sameTags (hop.sameTags p) (lastStart_append _ _)
  | registered set =>
    rw [List.append_nil]
    exact h
  | @created name elementCount i free bounded =>
    have e : lastStart (log ++ [.created i]) = lastStart log := lastStart_append _ _
    intro j hj
    rw [e]
    exact h.setSlot (s := { p.slots i with name := name, elemCount := elementCount, prevStatus := .notReady,
                                           inUse := true }) id (fun _ _ => rfl) (fun _ _ _ => rfl) j hj
  | destroyed inUse =>
    rw [List.append_nil]
    exact h.setSlot id (fun _ _ => rfl) fun _ _ _ => rfl
  | @started op i timeoutMs now tag msg hop inUse ready free started =>
    obtain ⟨service, data, -, hs⟩ := started.sent
    intro j hj
    have hji : j = i := by
      by_contra hji
      rw [PlcClient.setSlot_of_ne _ _ hji] at hj
      exact hs.free (hco.used j hj)
    have e : lastStart (log ++ [.started i p.tcp.sockets (now + timeoutMs)]) =
        some (i, p.tcp.sockets, now + timeoutMs) := lastStart_append _ _
    rw [e, hji]
    exact ⟨_, by rw [← hs.deadline]; rfl⟩
  | @aborted i inUse =>
    rw [List.append_nil]
    refine h.setSlot (fun hi => ?_) (fun _ hi => ?_) (fun j hji hj => ?_)
    · simp [Tag.InFlight] at hi
    · simp [Tag.InFlight] at hi
    · have hi : ¬ (p.slots i).tag.InFlight := fun hi => hji (hco.single j i hj hi)
      rw [Tag.abort_rest hi]
  | @edited i e inUse =>
    rw [List.append_nil]
    exact h.setSlot (PlcClient.edit_inFlight e _).1 (fun _ _ => rfl) fun _ _ _ => rfl
  | refused hop =>
    rw [List.append_nil]
    exact h

private theorem recorded_turned {p p' : PlcClient n} {i : Fin n} {os : Platform} {st : Status}
    {log : List (Event n)} (hco : Coupled p) (h : Recorded p log) (ht : PlcClient.Turned p i os st p') :
    Recorded p' log := by
  cases ht with
  | rest hr => exact h.setSlot id (fun _ _ => rfl) fun _ _ _ => rfl
  | @inFlight mst st tag msg tcp hin polled advanced =>
    have hm := hco.used i hin
    obtain ⟨inp, hp⟩ := ExplicitMessage.poll_spec hm (hco.framed hm) polled
    exact h.setSlot (fun _ => hin) (fun _ _ => hp.deadline) fun _ _ _ => hp.deadline

theorem recorded_step {w w' : World n} {a : Act} (hco : Coupled w.plc) (h : Recorded w.plc w.log)
    (hs : step w a = some w') : Recorded w'.plc w'.log := by
  cases a with
  | deliver bs =>
    obtain rfl := Option.some.inj hs
    exact h
  | call op =>
    obtain ⟨-, rfl⟩ := step_call hs
    exact recorded_called hco h (call_cases w.plc op)
  | poll os =>
    obtain ⟨-, rfl⟩ := step_poll hs
    exact h.of_sameTags (w.poll_sameTags os) (lastStart_poll w os)
  | iter os =>
    obtain ⟨f, fs, hf, -, hiter⟩ := step_iterated hs
    cases hiter with
    | turned st p hu ht =>
      have hr := recorded_turned hco h ht
      intro i hi
      rw [lastStart_iter]
      exact hr i hi
    | skipped => exact h
  | leave =>
    obtain ⟨f, fs, -, -, rfl⟩ := step_leave hs
    exact h.of_sameTags (w.leave_sameTags f fs) (lastStart_leave w f fs)

theorem Reachable.recorded {w : World n} (h : Reachable w) : Recorded w.plc w.log := by
  refine (h.invariant (I := fun w => Coupled w.plc ∧ Recorded w.plc w.log) (fun w hi => ?_) fun w a w' hw hs => ?_).2
  · refine ⟨coupled_initial hi, fun i hin => ?_⟩
    rw [hi.fresh.slots i] at hin
    simp [Tag.InFlight] at hin
  · exact ⟨coupled_step hw.1 hs, recorded_step hw.1 hw.2 hs⟩

/-! ### Which operations are in flight -/

theorem starts_append (log es : List (Event n)) : starts (log ++ es) = starts log + starts es := List.countP_append

theorem starts_pos {es : List (Event n)} {i : Fin n} {sock : Nat} {deadline : UInt32}
    (h : Event.started i sock deadline ∈ es) : 0 < starts es := by
  rw [starts, List.countP_pos_iff]
  exact ⟨_, h, rfl⟩

theorem lastStart_of_starts {log es : List (Event n)} (h : starts es = 0) :
    lastStart (log ++ es) = lastStart log := by
  rw [lastStart_append]
  generalize lastStart log = l
  induction es with
  | nil => rfl
  | cons e es ih =>
    rw [starts, List.countP_cons] at h
    cases e with
    | started i sock deadline => simp at h
    | _ => exact ih (by rw [starts]; omega)

/-- A call puts a slot in flight only by starting an operation on it. -/
theorem called_inFlight {p p' : PlcClient n} {op : Op} {events : List (Event n)} (h : Called p op p' events)
    {i : Fin n} (hi : (p'.slots i).tag.InFlight) :
    (p.slots i).tag.InFlight ∨ ∃ sock deadline, Event.started i sock deadline ∈ events := by
  have hset : ∀ {q : PlcClient n} {j : Fin n} {s : Slot}, q.slots = p.slots →
      ((q.setSlot j s).slots i).tag.InFlight → (p.slots i).tag.InFlight ∨ i = j ∧ s.tag.InFlight := by
    intro q j s hq hj
    rw [PlcClient.setSlot_slots, hq] at hj
    by_cases hij : i = j
    · rw [if_pos hij] at hj
      exact Or.inr ⟨hij, hj⟩
    · rw [if_neg hij] at hj
      exact Or.inl hj
  cases h with
  | linked hop =>
    rw [(hop.sameTags p).slots] at hi
    exact Or.inl hi
  | registered set => exact Or.inl hi
  | created free bounded =>
    rcases hset (by rfl) hi with h | ⟨rfl, h⟩
    · exact Or.inl h
    · exact Or.inl h
  | destroyed inUse =>
    rcases hset (by rfl) hi with h | ⟨rfl, h⟩
    · exact Or.inl h
    · exact Or.inl h
  | started hop inUse ready free started =>
    rcases hset (by rfl) hi with h | ⟨rfl, -⟩
    · exact Or.inl h
    · exact Or.inr ⟨_, _, List.mem_singleton_self _⟩
  | aborted inUse =>
    rcases hset (by rfl) hi with h | ⟨rfl, h⟩
    · exact Or.inl h
    · simp [Tag.InFlight] at h
  | @edited j e inUse =>
    rcases hset (by rfl) hi with h | ⟨rfl, h⟩
    · exact Or.inl h
    · exact Or.inl ((PlcClient.edit_inFlight e _).1 h)
  | refused hop => exact Or.inl hi

/-! ### Which tags an action changes -/

/-- A call changes the tag of the slot it names only. -/
private theorem called_tag {p p' : PlcClient n} {op : Op} {events : List (Event n)} (h : Called p op p' events)
    {j : Fin n} (hj : (p'.slots j).tag ≠ (p.slots j).tag) : op.handle = some j.val := by
  have hset : ∀ {q : PlcClient n} {i : Fin n} {s : Slot}, q.slots = p.slots →
      ((q.setSlot i s).slots j).tag ≠ (p.slots j).tag → j = i ∧ s.tag ≠ (p.slots i).tag := by
    intro q i s hq hne
    rw [PlcClient.setSlot_slots, hq] at hne
    by_cases hji : j = i
    · rw [if_pos hji, hji] at hne
      exact ⟨hji, hne⟩
    · rw [if_neg hji] at hne
      exact absurd rfl hne
  cases h with
  | linked hop => exact absurd (by rw [(hop.sameTags p).slots]) hj
  | registered set => exact absurd rfl hj
  | created free bounded => exact absurd rfl (hset rfl hj).2
  | destroyed inUse => exact absurd rfl (hset rfl hj).2
  | started hop =>
    obtain ⟨rfl, -⟩ := hset rfl hj
    rcases hop with rfl | rfl <;> rfl
  | aborted inUse =>
    obtain ⟨rfl, -⟩ := hset rfl hj
    rfl
  | edited inUse =>
    obtain ⟨rfl, -⟩ := hset rfl hj
    rfl
  | refused hop => exact absurd rfl hj

/-- A turn of the loop changes the tag of the slot it looks at, and only if that is in flight. -/
theorem turned_tag {p p' : PlcClient n} {i : Fin n} {os : Platform} {st : Status}
    (h : PlcClient.Turned p i os st p') {j : Fin n} (hj : (p'.slots j).tag ≠ (p.slots j).tag) :
    j = i ∧ (p.slots j).tag.InFlight := by
  cases h with
  | rest hr =>
    rw [PlcClient.setSlot_slots] at hj
    split at hj
    · rename_i hji
      exact absurd (by rw [hji]) hj
    · exact absurd rfl hj
  | inFlight hin polled advanced =>
    rw [PlcClient.setSlot_slots] at hj
    split at hj
    · rename_i hji
      exact ⟨hji, hji ▸ hin⟩
    · exact absurd rfl hj

theorem step_tag {w w' : World n} {a : Act} (h : step w a = some w') {j : Fin n}
    (hj : (w'.plc.slots j).tag ≠ (w.plc.slots j).tag) :
    (∃ op, a = .call op ∧ op.handle = some j.val) ∨ (∃ os, a = .iter os) ∧ (w.plc.slots j).tag.InFlight := by
  cases a with
  | deliver bs =>
    obtain rfl := Option.some.inj h
    exact absurd rfl hj
  | call op =>
    obtain ⟨-, rfl⟩ := step_call h
    exact Or.inl ⟨op, rfl, called_tag (call_cases w.plc op) hj⟩
  | poll os =>
    obtain ⟨-, rfl⟩ := step_poll h
    exact absurd (by rw [(w.poll_sameTags os).slots]) hj
  | iter os =>
    obtain ⟨f, fs, hf, -, hiter⟩ := step_iterated h
    cases hiter with
    | turned st p hu ht =>
      exact Or.inr ⟨⟨os, rfl⟩, (turned_tag ht hj).2⟩
    | skipped => exact absurd rfl hj
  | leave =>
    obtain ⟨f, fs, -, -, rfl⟩ := step_leave h
    exact absurd (by rw [(w.leave_sameTags f fs).slots]) hj

/-- The history only grows, and a slot newly in flight was started by one of the new events. -/
theorem step_extends {w w' : World n} {a : Act} (h : step w a = some w') : ∃ es, w'.log = w.log ++ es ∧
    ∀ i, (w'.plc.slots i).tag.InFlight → (w.plc.slots i).tag.InFlight ∨
      ∃ sock deadline, Event.started i sock deadline ∈ es := by
  cases a with
  | deliver bs =>
    obtain rfl := Option.some.inj h
    exact ⟨[], (List.append_nil _).symm, fun i hi => Or.inl hi⟩
  | call op =>
    obtain ⟨-, rfl⟩ := step_call h
    exact ⟨_, rfl, fun i => called_inFlight (call_cases w.plc op)⟩
  | poll os =>
    obtain ⟨-, rfl⟩ := step_poll h
    have hsame := (w.poll_sameTags os).slots
    unfold World.poll at hsame ⊢
    split
    · exact ⟨[], (List.append_nil _).symm, fun i hi => Or.inl hi⟩
    · rename_i st p called hp
      rw [hp] at hsame
      refine ⟨_, List.append_assoc _ _ _, fun i hi => Or.inl ?_⟩
      rwa [show p.slots = w.plc.slots from hsame] at hi
  | iter os =>
    obtain ⟨f, fs, hf, -, hiter⟩ := step_iterated h
    cases hiter with
    | turned st p hu ht =>
      refine ⟨_, List.append_assoc _ _ _, fun i hi => Or.inl ?_⟩
      by_contra hne
      have hchange : (p.slots i).tag ≠ (w.plc.slots i).tag := fun e => hne (e ▸ hi)
      exact hne (turned_tag ht hchange).2
    | skipped => exact ⟨[], (List.append_nil _).symm, fun i hi => Or.inl hi⟩
  | leave =>
    obtain ⟨f, fs, -, -, rfl⟩ := step_leave h
    have hsame := (w.leave_sameTags f fs).slots
    refine ⟨_, rfl, fun i hi => Or.inl ?_⟩
    rwa [hsame] at hi

/-! ### Every reachable state -/

/-- The shared message belongs to at most one slot. -/
structure Exclusive (w : World n) : Prop where
  single : ∀ i j, (w.plc.slots i).tag.InFlight → (w.plc.slots j).tag.InFlight → i = j
  message : (∃ i, (w.plc.slots i).tag.InFlight) ↔ w.plc.msg.InFlight
  /-- Aborting a tag at rest does not disturb the exchange. -/
  aborts : ∀ handle i, w.plc.validHandle handle = some i → ¬ (w.plc.slots i).tag.InFlight →
    (w.plc.abortTag handle).2.msg = w.plc.msg
  /-- A turn of the loop stores into the slot whose request was accepted last. -/
  payload : ∀ os w', step w (.iter os) = some w' → ∀ j, (w'.plc.slots j).tag ≠ (w.plc.slots j).tag →
    ∃ sock deadline, lastStart w.log = some (j, sock, deadline)
  /-- An action changes the tag of the slot it names, or of the slot in flight. -/
  frame : ∀ a w', step w a = some w' → ∀ j, (w'.plc.slots j).tag ≠ (w.plc.slots j).tag →
    (∃ op, a = .call op ∧ op.handle = some j.val) ∨ (∃ os, a = .iter os) ∧ (w.plc.slots j).tag.InFlight

theorem exclusive_of_reachable {w : World n} (h : Reachable w) : Exclusive w where
  single := h.coupled.single
  message := h.coupled.iff
  aborts := by
    intro handle i hv hi
    rw [PlcClient.abortTag, hv]
    exact Tag.abort_rest hi _
  payload := by
    intro os w' hs j hj
    rcases step_tag hs hj with ⟨op, ha, -⟩ | ⟨-, hin⟩
    · cases ha
    · obtain ⟨sock, hl⟩ := h.recorded j hin
      exact ⟨sock, _, hl⟩
  frame := fun a w' hs j hj => step_tag hs hj

/-- The reply to a RegisterSession request. -/
def registerReply (handle : UInt32) : List UInt8 :=
  encodeHeader { command := Command.registerSession.code, length := 4, session := handle, context := 1 } ++
    putU16 1 ++ putU16 0

/-- All the socket layer is asked for succeeds, at time `now`. -/
def generous (now : UInt32) : Platform :=
  { millis := fun _ => now, sends := [.accepted 1000], recvs := [.data 1000, .data 1000] }

/-- The request is refused by a peer that has reset the connection. -/
def resetAt (now : UInt32) : Platform := { millis := fun _ => now, sends := [.failed .econnreset] }

/-- The calls that bring a client up, ending in `Ready` with session `handle`. -/
def bringUp (handle : UInt32) : List Act :=
  [.call (.begin true true), .call (.connect 1 44818 5000 {}), .poll {}, .poll {}, .deliver (registerReply handle),
    .poll (generous 0)]

/-- A read is in flight, its tag is destroyed, and the slot is allocated again. -/
theorem exclusive_recreated : Exclusive (reached 8 (bringUp 7 ++ [.call (.createTag (some [65]) 1),
    .call (.read 0 1000 10), .call (.destroyTag 0), .call (.createTag (some [66]) 1)])) :=
  exclusive_of_reachable (reachable_reached (by decide +kernel))

end World

end ControlLogix
