import ControlLogix.Callbacks

/-!
# Deadlines of tag operations

The deadline of an operation is kept in the shared message and looked at by `ExplicitMessage::poll()`, which the
facade calls in the loop of `Ready` only.  So whether a `poll()` made after the deadline ends the operation depends on
the state the client is in when `poll()` is called.

* `overdue_iter`: the loop ends an overdue operation when it reaches its slot, with `Timeout`;
* `deadline_iff`: a complete call of `poll()` after the deadline ends the operation exactly when it finds the client
  in `Ready`;
* `pending_after_deadline`: an operation in flight at `disconnect()` stays `Pending` through its deadline.
-/

namespace ControlLogix

open Transition

variable {n : Nat}

namespace World

/-- Operation number `k`, on slot `i`, is in flight. -/
def Flying (w : World n) (i : Fin n) (k : Nat) : Prop := (w.plc.slots i).tag.InFlight ∧ starts w.log = k

/-- Operation number `k`, on the allocated slot `i`, is in flight: the status of the tag is `Pending` for it. -/
def Serving (w : World n) (i : Fin n) (k : Nat) : Prop := (w.plc.slots i).inUse = true ∧ Flying w i k

/-- An action of a call of `poll()` that began above the calls `ps`; the loop reads the clock at or after
`deadline`. -/
def During (ps : List PollFrame) (deadline : UInt32) (w : World n) (a : Act) : Prop :=
  ps.length < w.polls.length ∧ match a with
    | .iter os => expired (os.millis 0) deadline = true
    | _ => True

instance (ps : List PollFrame) (deadline : UInt32) (w : World n) : (a : Act) → Decidable (During ps deadline w a)
  | .iter _ => inferInstanceAs (Decidable (_ ∧ _))
  | .deliver _ | .call _ | .poll _ | .leave => inferInstanceAs (Decidable (_ ∧ True))

/-- `w'` is reached from `w` by one complete call of `poll()`, with all that its callbacks did, made at or after
`deadline`. -/
def PollCall (deadline : UInt32) (w w' : World n) : Prop :=
  ∃ os w₁ as, (∀ k, expired (os.millis k) deadline = true) ∧ step w (.poll os) = some w₁ ∧
    Run step (During w.polls deadline) w₁ as w' ∧ w'.polls.length = w.polls.length

/-! ### One turn of the loop -/

/-- The loop ends an overdue operation. -/
theorem overdue_iter {p p' : PlcClient n} {i : Fin n} {os : Platform} {st : Status} (hc : Coupled p)
    (hin : (p.slots i).tag.InFlight) (he : expired (os.millis 0) p.msg.deadline = true)
    (ht : PlcClient.Turned p i os st p') : st = .timeout ∧ (p'.slots i).tag.state = .failed := by
  cases ht with
  | rest hr => exact absurd hin hr
  | @inFlight mst st tag msg tcp _ polled advanced =>
    rw [ExplicitMessage.poll_expired (hc.used i hin) _ he] at polled
    simp only [Prod.mk.injEq] at polled
    obtain ⟨rfl, rfl, rfl⟩ := polled
    rw [PlcClient.setSlot_self]
    cases advanced with
    | pending h => cases h
    | broke h => exact ⟨rfl, rfl⟩
    | refused h => cases h
    | done h => cases h

/-! ### A whole call -/

/-- A call of `poll()` stays on the stack until it returns, and does not forget that it has noted a loss. -/
theorem frames_step {pre ps : List PollFrame} {f : PollFrame} {w w' : World n} {a : Act}
    (hp : w.polls = pre ++ f :: ps) (hs : step w a = some w') :
    (a = .leave ∧ pre = [] ∧ w'.polls = ps) ∨
      ∃ pre' f', w'.polls = pre' ++ f' :: ps ∧ (f.disconnected = true → f'.disconnected = true) := by
  cases a with
  | deliver bs =>
    obtain rfl := Option.some.inj hs
    exact Or.inr ⟨pre, f, hp, fun h => h⟩
  | call op =>
    obtain ⟨-, rfl⟩ := step_call hs
    exact Or.inr ⟨pre, f, hp, fun h => h⟩
  | poll os =>
    obtain ⟨-, rfl⟩ := step_poll hs
    right
    unfold World.poll
    split
    · exact ⟨{} :: pre, f, by rw [hp]; rfl, fun h => h⟩
    · exact ⟨pre, f, hp, fun h => h⟩
  | iter os =>
    obtain ⟨g, gs, hg, hpg, rfl⟩ := step_iter hs
    right
    -- the innermost frame is replaced, the others stay
    have hpolls : ∃ g', (w.iter g gs ⟨g.next, hg⟩ os).polls = g' :: gs ∧
        (g.disconnected = true → g'.disconnected = true) := by
      unfold World.iter
      dsimp only
      split
      · exact ⟨_, rfl, fun h => by simp [h]⟩
      · exact ⟨_, rfl, fun h => h⟩
    obtain ⟨g', hg', hflag⟩ := hpolls
    rw [hpg] at hp
    cases pre with
    | nil =>
      rw [List.nil_append, List.cons.injEq] at hp
      refine ⟨[], g', by rw [hg', hp.2]; rfl, ?_⟩
      rw [← hp.1]
      exact hflag
    | cons x pre =>
      rw [List.cons_append, List.cons.injEq] at hp
      exact ⟨g' :: pre, f, by rw [hg', hp.2]; rfl, fun h => h⟩
  | leave =>
    obtain ⟨g, gs, hpg, -, rfl⟩ := step_leave hs
    rw [hpg] at hp
    cases pre with
    | nil =>
      rw [List.nil_append, List.cons.injEq] at hp
      exact Or.inl ⟨rfl, rfl, hp.2⟩
    | cons x pre =>
      rw [List.cons_append, List.cons.injEq] at hp
      exact Or.inr ⟨pre, f, hp.2, fun h => h⟩

/-- The stack of calls above `ps` still has the call that began there. -/
private def Above (ps : List PollFrame) (w : World n) : Prop := ∃ pre f, w.polls = pre ++ f :: ps

private theorem above_step {ps : List PollFrame} {w w' : World n} {a : Act} (h : Above ps w)
    (hs : step w a = some w') : w'.polls = ps ∨ Above ps w' := by
  obtain ⟨pre, f, hp⟩ := h
  rcases frames_step hp hs with ⟨-, -, h'⟩ | ⟨pre', f', h', -⟩
  · exact Or.inl h'
  · exact Or.inr ⟨pre', f', h'⟩

/-- What a call of `poll()` made in `Ready` keeps as long as it goes on: if operation `k` is still in flight, no
callback has been made and the loop has not passed its slot. -/
private structure Pursued (ps : List PollFrame) (i : Fin n) (k : Nat) (deadline : UInt32) (w : World n) : Prop where
  coupled : Coupled w.plc
  watching : Watching w.plc w.log
  recorded : Recorded w.plc w.log
  count : k ≤ starts w.log
  start : starts w.log = k → ∃ sock, lastStart w.log = some (i, sock, deadline)
  polls : w.polls = ps ∨ Above ps w
  ahead : Flying w i k → (w.plc.slots i).inUse = true ∧ ∃ f, w.polls = f :: ps ∧ f.inCallback = false ∧ f.next ≤ i.val

/-- An operation that is over is not in flight again. -/
private theorem flying_of_step {ps : List PollFrame} {i : Fin n} {k : Nat} {deadline : UInt32} {w w' : World n}
    {a : Act} (h : Pursued ps i k deadline w) (hs : step w a = some w') (hf : Flying w' i k) : Flying w i k := by
  obtain ⟨es, hlog, hin⟩ := step_extends hs
  have hcount := h.count
  have hk := hf.2
  rw [hlog, starts_append] at hk
  have hes : starts es = 0 := by omega
  refine ⟨?_, by omega⟩
  rcases hin i hf.1 with hi | ⟨sock, d, hmem⟩
  · exact hi
  · have := starts_pos hmem
    omega

private theorem pursued_iter {ps : List PollFrame} {i : Fin n} {k : Nat} {deadline : UInt32} {w : World n}
    {f : PollFrame} {hf : f.next < n} {os : Platform} (h : Pursued ps i k deadline w) (hfly : Flying w i k)
    (hle : f.next ≤ i.val) (he : expired (os.millis 0) deadline = true)
    (hfly' : Flying (w.iter f ps ⟨f.next, hf⟩ os) i k) :
    ((w.iter f ps ⟨f.next, hf⟩ os).plc.slots i).inUse = true ∧ ∃ f', (w.iter f ps ⟨f.next, hf⟩ os).polls = f' :: ps ∧
      f'.inCallback = false ∧ f'.next ≤ i.val := by
  obtain ⟨hu, -⟩ := h.ahead hfly
  have hiter := w.iter_cases f ps ⟨f.next, hf⟩ os
  generalize w.iter f ps ⟨f.next, hf⟩ os = w' at hfly' hiter ⊢
  by_cases hi : (⟨f.next, hf⟩ : Fin n) = i
  · -- the loop is at the slot of the operation, which is overdue
    subst hi
    obtain ⟨sock, hl⟩ := h.recorded _ hfly.1
    obtain ⟨sock', hl'⟩ := h.start hfly.2
    have hd : w.plc.msg.deadline = deadline := by
      rw [hl] at hl'
      simp only [Option.some.injEq, Prod.mk.injEq] at hl'
      exact hl'.2.2
    cases hiter with
    | turned st p _ ht =>
      have hend := (overdue_iter h.coupled hfly.1 (by rw [hd]; exact he) ht).2
      have hin' : (p.slots ⟨f.next, hf⟩).tag.InFlight := hfly'.1
      rcases hin' with hin' | hin' <;> rw [hend] at hin' <;> cases hin'
    | skipped hfree =>
      rw [hu] at hfree
      cases hfree
  · have hlt : f.next < i.val := by
      have : f.next ≠ i.val := fun e => hi (Fin.ext e)
      omega
    have hrest : ¬ (w.plc.slots ⟨f.next, hf⟩).tag.InFlight := fun hin => hi (h.coupled.single _ _ hin hfly.1)
    cases hiter with
    | turned st p hus ht =>
      have hcalls : w.calls ⟨f.next, hf⟩ st = false := by
        by_contra hc
        exact hrest (calls_only_inFlight h.watching hus (by simpa using hc))
      refine ⟨?_, _, rfl, hcalls, hlt⟩
      cases ht with
      | rest => rw [PlcClient.setSlot_of_ne _ _ (Ne.symm hi), hu]
      | inFlight hin => exact absurd hin hrest
    | skipped => exact ⟨hu, _, rfl, rfl, hlt⟩

private theorem pursued_step {ps : List PollFrame} {i : Fin n} {k : Nat} {deadline : UInt32} {w w' : World n}
    {a : Act} (h : Pursued ps i k deadline w) (hok : During ps deadline w a) (hs : step w a = some w') :
    Pursued ps i k deadline w' := by
  have habove : Above ps w := by
    rcases h.polls with hp | hp
    · have := hok.1
      rw [hp] at this
      omega
    · exact hp
  obtain ⟨es, hlog, hin⟩ := step_extends hs
  refine ⟨coupled_step h.coupled hs, watching_step h.watching hs, recorded_step h.coupled h.recorded hs, ?_, ?_,
    above_step habove hs, fun hfly' => ?_⟩
  · rw [hlog, starts_append]
    exact Nat.le_trans h.count (Nat.le_add_right _ _)
  · intro hk
    have hcount := h.count
    rw [hlog, starts_append] at hk
    rw [hlog, lastStart_of_starts (by omega)]
    exact h.start (by omega)
  · have hfly := flying_of_step h hs hfly'
    obtain ⟨hu, f, hp, hcb, hle⟩ := h.ahead hfly
    have hidle : ¬ w.Idle := by
      unfold Idle
      rw [hp]
      simp [hcb]
    cases a with
    | deliver bs =>
      obtain rfl := Option.some.inj hs
      exact ⟨hu, f, hp, hcb, hle⟩
    | call op => exact absurd (step_call hs).1 hidle
    | poll os => exact absurd (step_poll hs).1 hidle
    | iter os =>
      obtain ⟨g, gs, hg, hpg, rfl⟩ := step_iter hs
      rw [hp, List.cons.injEq] at hpg
      obtain ⟨rfl, rfl⟩ := hpg
      exact pursued_iter h hfly hle hok.2 hfly'
    | leave =>
      obtain ⟨g, gs, hpg, hg, rfl⟩ := step_leave hs
      rw [hp, List.cons.injEq] at hpg
      obtain ⟨rfl, -⟩ := hpg
      have := i.isLt
      omega

/-- `poll()` called in another state leaves the slots and the operations alone. -/
theorem serving_poll {w : World n} {i : Fin n} {k : Nat} (h : Serving w i k) (os : Platform) :
    Serving (w.poll os) i k := by
  have hsame := (w.poll_sameTags os).slots
  have hstarts : starts (w.poll os).log = starts w.log := by
    unfold World.poll
    split
    · rfl
    · rename_i st p called hp
      dsimp only
      rw [starts_append, starts_append]
      cases called <;> split <;> rfl
  refine ⟨?_, ?_, ?_⟩
  · rw [hsame]
    exact h.1
  · rw [hsame]
    exact h.2.1
  · rw [hstarts]
    exact h.2.2

/-- Let operation `k` be in flight on the allocated slot `i`.  Every complete call of `poll()` made at or after its
deadline ends it if and only if the call finds the client in `Ready`. -/
theorem deadline_iff {w : World n} (h : Reachable w) (hidle : w.Idle) {i : Fin n} {k sock : Nat} {deadline : UInt32}
    (hs : Serving w i k) (hl : lastStart w.log = some (i, sock, deadline)) :
    (∀ w', PollCall deadline w w' → ¬ Serving w' i k) ↔ w.plc.state = .ready := by
  constructor
  · intro hall
    by_contra hr
    -- in any other state the call is over at once, and the operation is still there
    have hpoll : step w (.poll { millis := fun _ => deadline }) = some (w.poll { millis := fun _ => deadline }) := by
      simp [step, hidle]
    have hpolls : (w.poll { millis := fun _ => deadline }).polls = w.polls := by
      unfold World.poll
      split
      · rename_i hnone
        exact absurd (PlcClient.pollState_none.1 hnone) hr
      · rfl
    refine hall _ ⟨_, _, [], fun _ => ?_, hpoll, .nil _, by rw [hpolls]⟩ (serving_poll hs _)
    simp [expired]
  · rintro hr w' ⟨os, w₁, as, -, hstep, hrun, hlen⟩ hs'
    obtain ⟨-, rfl⟩ := step_poll hstep
    have henter : w.poll os = { w with polls := {} :: w.polls } := by
      unfold World.poll
      rw [PlcClient.pollState_none.2 hr]
    have h0 : Pursued w.polls i k deadline (w.poll os) := by
      rw [henter]
      refine ⟨h.coupled, h.watching, h.recorded, Nat.le_of_eq hs.2.2.symm, fun _ => ⟨sock, hl⟩,
        Or.inr ⟨[], {}, rfl⟩, fun _ => ⟨hs.1, {}, rfl, rfl, Nat.zero_le _⟩⟩
    have hend := hrun.invariant (fun _ _ _ hp hok hst => pursued_step hp hok hst) h0
    obtain ⟨-, f, hp, -⟩ := hend.ahead hs'.2
    rw [hp, List.length_cons] at hlen
    omega

/-- A read in flight in `Ready`, and the call of `poll()` that times it out. -/
theorem deadline_iff_ready :
    let w := reached 8 (bringUp 7 ++ [.call (.createTag (some [65]) 1), .call (.read 0 1000 10)])
    w.plc.state = .ready ∧ ∀ w', PollCall 1010 w w' → ¬ Serving w' 0 1 := by
  have hserving :
      Serving (reached 8 (bringUp 7 ++ [.call (.createTag (some [65]) 1), .call (.read 0 1000 10)])) 0 1 :=
    ⟨by decide +kernel, by decide +kernel, by decide +kernel⟩
  have hlast : lastStart (reached 8 (bringUp 7 ++ [.call (.createTag (some [65]) 1), .call (.read 0 1000 10)])).log =
      some (0, 1, 1010) := by decide +kernel
  exact ⟨by decide +kernel,
    (deadline_iff (reachable_reached (by decide +kernel)) (by decide +kernel) hserving hlast).2 (by decide +kernel)⟩

/-- A read in flight when the sketch calls `disconnect()`. -/
def disconnected : List Act :=
  bringUp 7 ++ [.call (.createTag (some [65]) 1), .call (.read 0 1000 10), .call .disconnect]

/-- The read stays `Pending` through a call of `poll()` made at its deadline. -/
theorem pending_after_deadline : ¬ ∀ (w : World 8) (i : Fin 8) (k sock : Nat) (deadline : UInt32), Reachable w →
    w.Idle → Serving w i k → lastStart w.log = some (i, sock, deadline) →
    ∀ w', PollCall deadline w w' → ¬ Serving w' i k := by
  intro h
  have hreach : Reachable (reached 8 disconnected) := reachable_reached (by decide +kernel)
  have hserving : Serving (reached 8 disconnected) 0 1 := ⟨by decide +kernel, by decide +kernel, by decide +kernel⟩
  have hlast : lastStart (reached 8 disconnected).log = some (0, 1, 1010) := by decide +kernel
  have hidle : (reached 8 disconnected).Idle := by decide +kernel
  have hpolls : ((reached 8 disconnected).poll (generous 1010)).polls = (reached 8 disconnected).polls := by
    decide +kernel
  have hcall : PollCall 1010 (reached 8 disconnected) ((reached 8 disconnected).poll (generous 1010)) := by
    refine ⟨generous 1010, _, [], fun _ => (by decide : expired 1010 1010 = true), ?_, .nil _, by rw [hpolls]⟩
    simp [step, hidle]
  exact h _ 0 1 1 1010 hreach hidle hserving hlast _ hcall (serving_poll hserving _)

end World

end ControlLogix
