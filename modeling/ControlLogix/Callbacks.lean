import ControlLogix.Ownership

/-!
# The tag callback

The loop calls the tag callback when it sees a slot's status change from `Pending` to something else, by comparing
with `tagPrevStatus_`, the status it saw the turn before.  `read()` and `write()` do not write that table, so for an
operation that is over at the loop's first turn on it there is nothing to compare with, and no callback.

* `watching_step`: for an allocated slot in flight `tagPrevStatus_` is `Pending` exactly when the loop has been there
  since the operation was started;
* `calls_only_inFlight`: a callback is always about an operation in flight, so none is made without a completion;
* `callbacks_iff`: the callbacks of a run are its completions exactly when the loop had been at each completed
  operation before.
-/

namespace ControlLogix

open Transition

variable {n : Nat}

/-! ### What the history tells about a slot -/

/-- For each slot, whether the loop's last turn on it, since the last start or allocation, left it `Pending`. -/
def note (s : Fin n → Bool) : Event n → Fin n → Bool
  | .created i => Function.update s i false
  | .started i _ _ => Function.update s i false
  | .advanced i st => Function.update s i (st = .pending)
  | _ => s

def seen (log : List (Event n)) : Fin n → Bool := log.foldl note fun _ => false

/-- The operations that left `Pending` inside `poll()`, with the completing status. -/
def completions (log : List (Event n)) : List (Fin n × Status) :=
  log.filterMap fun e => match e with
    | .advanced i st => if st = .pending then none else some (i, st)
    | _ => none

/-- The calls of the tag callback. -/
def callbacks (log : List (Event n)) : List (Fin n × Status) :=
  log.filterMap fun e => match e with
    | .tagCallback i st => some (i, st)
    | _ => none

/-- An operation that completes has been left `Pending` by an earlier turn of the loop. -/
def Timely (s : Fin n → Bool) : Event n → Prop
  | .advanced i st => st = .pending ∨ s i = true
  | _ => True

instance (s : Fin n → Bool) : (e : Event n) → Decidable (Timely s e)
  | .advanced i st => inferInstanceAs (Decidable (st = .pending ∨ s i = true))
  | .created _ | .started .. | .tagCallback .. | .stateCallback _ | .wrote .. | .registered .. => .isTrue trivial

def TimelyFrom (s : Fin n → Bool) : List (Event n) → Prop
  | [] => True
  | e :: es => Timely s e ∧ TimelyFrom (note s e) es

instance decidableTimelyFrom : (s : Fin n → Bool) → (es : List (Event n)) → Decidable (TimelyFrom s es)
  | _, [] => inferInstanceAs (Decidable True)
  | s, e :: es =>
    have := decidableTimelyFrom (note s e) es
    inferInstanceAs (Decidable (_ ∧ _))

/-- Every completed operation had been seen `Pending` before. -/
def AllTimely (log : List (Event n)) : Prop := TimelyFrom (fun _ => false) log

instance (log : List (Event n)) : Decidable (AllTimely log) := decidableTimelyFrom _ _

private theorem timelyFrom_append (s : Fin n → Bool) (l es : List (Event n)) :
    TimelyFrom s (l ++ es) ↔ TimelyFrom s l ∧ TimelyFrom (l.foldl note s) es := by
  induction l generalizing s with
  | nil => simp [TimelyFrom]
  | cons e l ih => simp [TimelyFrom, ih, and_assoc]

theorem seen_append (log es : List (Event n)) : seen (log ++ es) = es.foldl note (seen log) := List.foldl_append

theorem allTimely_append (log es : List (Event n)) :
    AllTimely (log ++ es) ↔ AllTimely log ∧ TimelyFrom (seen log) es :=
  timelyFrom_append _ log es

/-! ### The table of previous statuses -/

structure Watching (p : PlcClient n) (log : List (Event n)) : Prop where
  inFlight : ∀ i, (p.slots i).inUse = true → (p.slots i).prevStatus = .pending → (p.slots i).tag.InFlight
  seen : ∀ i, (p.slots i).inUse = true → (p.slots i).tag.InFlight →
    ((p.slots i).prevStatus = .pending ↔ seen log i = true)

/-- Slot `i` is rewritten and the history goes on; what has to be shown is about slot `i` only. -/
private theorem Watching.setSlot {p q : PlcClient n} {log log' : List (Event n)} (h : Watching p log)
    (hq : q.slots = p.slots) {i : Fin n} {s : Slot} (hl : ∀ j, j ≠ i →
      ControlLogix.seen log' j = ControlLogix.seen log j)
    (h1 : s.inUse = true → s.prevStatus = .pending → s.tag.InFlight)
    (h2 : s.inUse = true → s.tag.InFlight → (s.prevStatus = .pending ↔ ControlLogix.seen log' i = true)) :
    Watching (q.setSlot i s) log' := by
  constructor
  · intro j hu hp
    rw [PlcClient.setSlot_slots, hq] at hu hp ⊢
    by_cases hji : j = i
    · rw [if_pos hji] at hu hp ⊢
      exact h1 hu hp
    · rw [if_neg hji] at hu hp ⊢
      exact h.inFlight j hu hp
  · intro j hu hin
    rw [PlcClient.setSlot_slots, hq] at hu hin ⊢
    by_cases hji : j = i
    · rw [if_pos hji] at hu hin ⊢
      rw [hji]
      exact h2 hu hin
    · rw [if_neg hji] at hu hin ⊢
      rw [hl j hji]
      exact h.seen j hu hin

private theorem Watching.of_sameTags {p p' : PlcClient n} {log log' : List (Event n)} (h : Watching p log)
    (hs : PlcClient.SameTags p p') (hl : ControlLogix.seen log' = ControlLogix.seen log) : Watching p' log' := by
  obtain ⟨h1, h2⟩ := h
  rw [← hs.slots] at h1 h2
  rw [← hl] at h2
  exact ⟨h1, h2⟩

private theorem watching_called {p p' : PlcClient n} {op : Op} {events log : List (Event n)} (h : Watching p log)
    (hc : Called p op p' events) : Watching p' (log ++ events) := by
  cases hc with
  | linked hop => exact h.of_sameTags (hop.sameTags p) (seen_append _ _)
  | registered set =>
    rw [List.append_nil]
    exact ⟨h.inFlight, h.seen⟩
  | created free bounded =>
    refine h.setSlot (by rfl) (fun j hj => ?_) (fun _ hp => by cases hp) (fun _ _ => ?_)
    · simp [seen_append, note, hj]
    · simp [seen_append, note]
  | destroyed inUse =>
    rw [List.append_nil]
    exact h.setSlot (by rfl) (fun _ _ => rfl) nofun nofun
  | @started op i timeoutMs now tag msg hop inUse ready free started =>
    -- a slot at rest was not seen `Pending`
    have hp : (p.slots i).prevStatus ≠ .pending := fun hp => started.rest (h.inFlight i inUse hp)
    refine h.setSlot (by rfl) (fun j hj => ?_) ?_ ?_
    · simp [seen_append, note, hj]
    · exact fun _ hp' => absurd hp' hp
    · intro _ _
      simp [seen_append, note, hp]
  | aborted inUse =>
    rw [List.append_nil]
    refine h.setSlot (by rfl) (fun _ _ => rfl) ?_ ?_
    · intro _ hp
      cases hp
    · intro _ hin
      simp [Tag.InFlight] at hin
  | @edited i e inUse =>
    rw [List.append_nil]
    exact h.setSlot (by rfl) (fun _ _ => rfl) (fun hu hp => (PlcClient.edit_inFlight e _).2 (h.inFlight i hu hp))
      (fun hu hin => h.seen i hu ((PlcClient.edit_inFlight e _).1 hin))
  | refused hop =>
    rw [List.append_nil]
    exact h

namespace World

/-- A turn on a slot in flight. -/
theorem iterEvents_inFlight {p : PlcClient n} {i : Fin n} (hin : (p.slots i).tag.InFlight) (st : Status)
    (p' : PlcClient n) (k : Nat) : ∃ ws : List (Event n), iterEvents p i st p' k = ws ++ [.advanced i st] ∧
      ∀ e ∈ ws, ∃ sock serial frame off bytes, e = .wrote sock serial frame off bytes := by
  unfold iterEvents
  dsimp only
  rw [if_pos hin]
  refine ⟨_, rfl, ?_⟩
  intro e he
  split at he
  · cases he
  · rw [List.mem_singleton] at he
    exact ⟨_, _, _, _, _, he⟩

/-- Bytes on the wire are not noted. -/
private theorem foldl_note_wrote {ws : List (Event n)}
    (h : ∀ e ∈ ws, ∃ sock serial frame off bytes, e = .wrote sock serial frame off bytes) (s : Fin n → Bool) :
    ws.foldl note s = s := by
  induction ws generalizing s with
  | nil => rfl
  | cons e ws ih =>
    obtain ⟨sock, serial, frame, off, bytes, rfl⟩ := h e List.mem_cons_self
    exact ih (fun e' he' => h e' (List.mem_cons_of_mem _ he')) s

private theorem seen_iter_inFlight {p : PlcClient n} {i : Fin n} (hin : (p.slots i).tag.InFlight) (st : Status)
    (p' : PlcClient n) (k : Nat) (b : Bool) (log : List (Event n)) :
    seen (log ++ iterEvents p i st p' k ++ if b then [.tagCallback i st] else []) =
      Function.update (seen log) i (st = .pending) := by
  obtain ⟨ws, hws, hwrote⟩ := iterEvents_inFlight hin st p' k
  rw [seen_append, seen_append, hws, List.foldl_append, foldl_note_wrote hwrote]
  cases b <;> rfl

theorem calls_only_inFlight {w : World n} (h : Watching w.plc w.log) {i : Fin n}
    (hu : (w.plc.slots i).inUse = true) {st : Status} (hc : w.calls i st = true) : (w.plc.slots i).tag.InFlight := by
  simp only [calls, Bool.and_eq_true, decide_eq_true_eq] at hc
  exact h.inFlight i hu hc.1.1

theorem watching_step {w w' : World n} {a : Act} (h : Watching w.plc w.log) (hs : step w a = some w') :
    Watching w'.plc w'.log := by
  cases a with
  | deliver bs =>
    obtain rfl := Option.some.inj hs
    exact ⟨h.inFlight, h.seen⟩
  | call op =>
    obtain ⟨-, rfl⟩ := step_call hs
    exact watching_called h (call_cases w.plc op)
  | poll os =>
    obtain ⟨-, rfl⟩ := step_poll hs
    refine h.of_sameTags (w.poll_sameTags os) ?_
    unfold World.poll
    split
    · rfl
    · rename_i st p called hp
      dsimp only
      rw [seen_append, seen_append]
      cases called <;> split <;> rfl
  | iter os =>
    obtain ⟨f, fs, hf, -, hiter⟩ := step_iterated hs
    cases hiter with
    | turned st p hu ht =>
      dsimp only
      by_cases hin : (w.plc.slots ⟨f.next, hf⟩).tag.InFlight
      · have hseen := seen_iter_inFlight hin st p (starts w.log) (w.calls ⟨f.next, hf⟩ st) w.log
        cases ht with
        | rest hr => exact absurd hin hr
        | inFlight _ polled advanced =>
          have hiff := advanced.inFlight_iff hin
          refine h.setSlot (by rfl) (fun j hj => ?_) ?_ ?_
          · rw [hseen]
            simp [hj]
          · exact fun _ hp => hiff.2 hp
          · intro _ hin'
            rw [hseen]
            simp [hiff.1 hin']
      · rw [iterEvents_rest hin ht]
        have hcb : w.calls ⟨f.next, hf⟩ st = false := by
          by_contra hc
          exact hin (calls_only_inFlight h hu (by simpa using hc))
        cases ht with
        | rest hr =>
          refine h.setSlot (by rfl) (fun j hj => ?_) (fun _ hp => Tag.status_pending.1 hp)
            (fun _ hin' => absurd hin' hin)
          simp [hcb]
        | inFlight hin' => exact absurd hin' hin
    | skipped => exact h
  | leave =>
    obtain ⟨f, fs, -, -, rfl⟩ := step_leave hs
    refine h.of_sameTags (w.leave_sameTags f fs) ?_
    unfold World.leave
    dsimp only
    rw [seen_append]
    cases (w.plc.loopEnd f.disconnected).2.2 <;> rfl

theorem watching_initial {w : World n} (h : Initial w) : Watching w.plc w.log := by
  constructor
  · intro i hu
    rw [h.fresh.slots i] at hu
    cases hu
  · intro i hu
    rw [h.fresh.slots i] at hu
    cases hu

theorem Reachable.watching {w : World n} (h : Reachable w) : Watching w.plc w.log :=
  h.invariant (I := fun w => Watching w.plc w.log) (fun _ => watching_initial) fun _ _ _ => watching_step

/-! ### Counting completions and callbacks -/

/-- The number of operations started on a slot. -/
def startsOf (log : List (Event n)) (i : Fin n) : Nat :=
  log.countP fun e => match e with
    | .started j _ _ => j = i
    | _ => false

/-- The number of operations completed on a slot. -/
def completionsOf (log : List (Event n)) (i : Fin n) : Nat := (completions log).countP fun c => c.1 = i

/-- An event that is neither a completion nor a callback. -/
def Quiet : Event n → Prop
  | .advanced _ st => st = .pending
  | .tagCallback .. => False
  | _ => True

private theorem quiet_log {es : List (Event n)} (h : ∀ e ∈ es, Quiet e) (s : Fin n → Bool) :
    completions es = [] ∧ callbacks es = [] ∧ TimelyFrom s es := by
  induction es generalizing s with
  | nil => exact ⟨rfl, rfl, trivial⟩
  | cons e es ih =>
    obtain ⟨h1, h2, h3⟩ := ih (fun e' he' => h e' (List.mem_cons_of_mem _ he')) (note s e)
    have he := h e List.mem_cons_self
    cases e with
    | advanced i st =>
      have hst : st = .pending := he
      refine ⟨?_, h2, Or.inl hst, h3⟩
      rw [← h1]
      simp [completions, hst]
    | tagCallback i st => exact absurd he id
    | _ => exact ⟨h1, h2, trivial, h3⟩

theorem completions_append (log es : List (Event n)) : completions (log ++ es) = completions log ++ completions es :=
  List.filterMap_append

theorem callbacks_append (log es : List (Event n)) : callbacks (log ++ es) = callbacks log ++ callbacks es :=
  List.filterMap_append

theorem startsOf_append (log es : List (Event n)) (i : Fin n) :
    startsOf (log ++ es) i = startsOf log i + startsOf es i :=
  List.countP_append

theorem completionsOf_append (log es : List (Event n)) (i : Fin n) :
    completionsOf (log ++ es) i = completionsOf log i + completionsOf es i := by
  rw [completionsOf, completions_append]
  exact List.countP_append

/-- The history counted against the state of the client: every completion was started, no callback is spurious, and
the callbacks are the completions exactly when all of these are timely. -/
structure Tallied (p : PlcClient n) (log : List (Event n)) : Prop where
  started : ∀ i, completionsOf log i + (if (p.slots i).tag.InFlight then 1 else 0) ≤ startsOf log i
  sublist : (callbacks log).Sublist (completions log)
  iff : callbacks log = completions log ↔ AllTimely log

/-- The history grows by quiet events, and a slot is newly in flight only when one of them started it. -/
private theorem Tallied.quiet {p p' : PlcClient n} {log es : List (Event n)} (h : Tallied p log)
    (hq : ∀ e ∈ es, Quiet e) (hin : ∀ i, (p'.slots i).tag.InFlight → (p.slots i).tag.InFlight ∨
      ∃ sock deadline, Event.started i sock deadline ∈ es) : Tallied p' (log ++ es) := by
  obtain ⟨h1, h2, h3⟩ := quiet_log hq (seen log)
  refine ⟨fun i => ?_, ?_, ?_⟩
  · have hle := h.started i
    have h0 : completionsOf es i = 0 := by
      rw [completionsOf, h1]
      rfl
    rw [completionsOf_append, startsOf_append, h0]
    by_cases hi : (p'.slots i).tag.InFlight
    · rw [if_pos hi]
      rcases hin i hi with hi' | ⟨sock, deadline, hmem⟩
      · rw [if_pos hi'] at hle
        omega
      · have hpos : 0 < startsOf es i := by
          rw [startsOf, List.countP_pos_iff]
          exact ⟨_, hmem, by simp⟩
        omega
    · rw [if_neg hi]
      omega
  · rw [callbacks_append, completions_append, h1, h2, List.append_nil, List.append_nil]
    exact h.sublist
  · rw [callbacks_append, completions_append, allTimely_append, h1, h2, List.append_nil, List.append_nil, h.iff]
    exact ⟨fun hl => ⟨hl, h3⟩, fun hl => hl.1⟩

private theorem called_quiet {p p' : PlcClient n} {op : Op} {events : List (Event n)} (h : Called p op p' events) :
    ∀ e ∈ events, Quiet e := by
  cases h <;> simp [Quiet]

/-- An operation completes, with a callback exactly when it had been seen `Pending`. -/
private theorem Tallied.complete {p p' : PlcClient n} {log : List (Event n)} {i : Fin n} {st : Status} {b : Bool}
    (h : Tallied p log) (hin : (p.slots i).tag.InFlight) (hst : st ≠ .pending) (hi : ¬ (p'.slots i).tag.InFlight)
    (hp : ∀ j, j ≠ i → (p'.slots j).tag = (p.slots j).tag) (hb : b = true ↔ seen log i = true) :
    Tallied p' (log ++ [.advanced i st] ++ if b then [.tagCallback i st] else []) := by
  have hc : completions ([.advanced i st] : List (Event n)) = [(i, st)] := by simp [completions, hst]
  have hcallback : completions (if b then [Event.tagCallback i st] else []) = [] := by
    cases b <;> rfl
  have hcs : completions (log ++ [.advanced i st] ++ if b then [.tagCallback i st] else []) =
      completions log ++ [(i, st)] := by
    rw [completions_append, completions_append, hc, hcallback, List.append_nil]
  have hcbs : callbacks (log ++ [.advanced i st] ++ if b then [.tagCallback i st] else []) =
      callbacks log ++ if b then [(i, st)] else [] := by
    rw [callbacks_append, callbacks_append]
    cases b <;> simp [callbacks]
  have htimely : AllTimely (log ++ [.advanced i st] ++ if b then [.tagCallback i st] else []) ↔
      AllTimely log ∧ seen log i = true := by
    rw [allTimely_append, allTimely_append]
    cases b <;> simp [TimelyFrom, Timely, hst]
  refine ⟨fun j => ?_, ?_, ?_⟩
  · have hle := h.started j
    have hnew : startsOf log j ≤
        startsOf (log ++ [.advanced i st] ++ if b then [.tagCallback i st] else []) j := by
      rw [startsOf_append, startsOf_append]
      omega
    refine Nat.le_trans ?_ hnew
    rw [completionsOf, hcs, List.countP_append]
    rw [completionsOf] at hle
    by_cases hji : j = i
    · rw [hji, if_neg hi]
      rw [hji, if_pos hin] at hle
      simpa using hle
    · have hne : ¬ i = j := fun e => hji e.symm
      rw [hp j hji]
      simpa [hne] using hle
  · rw [hcs, hcbs]
    cases b
    · exact (List.append_nil _) ▸ h.sublist.trans (List.sublist_append_left _ _)
    · exact h.sublist.append (List.Sublist.refl _)
  · rw [hcs, hcbs, htimely]
    cases b with
    | true =>
      rw [if_pos rfl, List.append_left_inj, h.iff]
      simp [hb.1 rfl]
    | false =>
      -- one completion more than callbacks from here on
      have hs : ¬ seen log i = true := fun hs => Bool.false_ne_true (hb.2 hs)
      constructor
      · intro he
        have hl := congrArg List.length he
        have hlen := h.sublist.length_le
        simp at hl
        omega
      · intro ht
        exact absurd ht.2 hs

/-- One turn of the loop on a slot in flight. -/
private theorem tallied_turn {p p' : PlcClient n} {log : List (Event n)} {i : Fin n} {st : Status} {k : Nat}
    {b : Bool} (h : Tallied p log) (hin : (p.slots i).tag.InFlight)
    (hp : ∀ j, j ≠ i → (p'.slots j).tag = (p.slots j).tag)
    (hi : (p'.slots i).tag.InFlight ↔ st = .pending) (hb : b = true ↔ seen log i = true ∧ st ≠ .pending) :
    Tallied p' (log ++ iterEvents p i st p' k ++ if b then [.tagCallback i st] else []) := by
  obtain ⟨ws, hws, hwrote⟩ := iterEvents_inFlight hin st p' k
  have hquiet : ∀ e ∈ ws, Quiet e := by
    intro e he
    obtain ⟨sock, serial, frame, off, bytes, rfl⟩ := hwrote e he
    trivial
  rw [hws]
  by_cases hst : st = .pending
  · have hb : b = false := by
      rw [← Bool.not_eq_true, hb]
      exact fun hb' => hb'.2 hst
    rw [hb, List.append_assoc]
    refine h.quiet (fun e he => ?_) (fun j hj => Or.inl ?_)
    · rcases List.mem_append.1 he with he | he
      · rcases List.mem_append.1 he with he | he
        · exact hquiet e he
        · rw [List.mem_singleton.1 he]
          exact hst
      · cases he
    · by_cases hji : j = i
      · rw [hji]
        exact hin
      · rwa [← hp j hji]
  · have h' : Tallied p (log ++ ws) := h.quiet hquiet fun _ hj => Or.inl hj
    have hseen : seen (log ++ ws) = seen log := by rw [seen_append, foldl_note_wrote hwrote]
    rw [← List.append_assoc]
    refine h'.complete hin hst (fun hj => hst (hi.1 hj)) hp ?_
    rw [hb, hseen]
    exact ⟨fun h => h.1, fun h => ⟨h, hst⟩⟩

/-- The tag callback stays registered. -/
def KeepsCallback (_ : World n) : Act → Prop
  | .call (.setTagCallback set) => set = true
  | _ => True

instance (w : World n) : (a : Act) → Decidable (KeepsCallback w a)
  | .call (.setTagCallback set) => inferInstanceAs (Decidable (set = true))
  | .call (.begin ..) | .call (.connect ..) | .call .disconnect | .call (.createTag ..) | .call (.destroyTag _)
  | .call (.read ..) | .call (.write ..) | .call (.abortTag _) | .call (.editTag ..)
  | .call (.setStateCallback _) | .deliver _ | .poll _ | .iter _ | .leave => .isTrue trivial

theorem keepsCallback_step {w w' : World n} {a : Act} (h : w.plc.tagCallback = true) (hok : KeepsCallback w a)
    (hs : step w a = some w') : w'.plc.tagCallback = true := by
  cases a with
  | deliver bs =>
    obtain rfl := Option.some.inj hs
    exact h
  | call op =>
    obtain ⟨-, rfl⟩ := step_call hs
    have hc := call_cases w.plc op
    change (w.plc.call op).2.tagCallback = true
    generalize (w.plc.call op).2 = p' at hc
    generalize callEvents w.plc op = events at hc
    cases hc with
    | linked hop => rw [(hop.sameTags w.plc).tagCallback, h]
    | registered set => exact hok
    | _ => exact h
  | poll os =>
    obtain ⟨-, rfl⟩ := step_poll hs
    rw [(w.poll_sameTags os).tagCallback, h]
  | iter os =>
    obtain ⟨f, fs, hf, -, rfl⟩ := step_iter hs
    unfold World.iter
    dsimp only
    split
    · rw [← h]
      exact w.plc.pollTag_tagCallback _ os
    · exact h
  | leave =>
    obtain ⟨f, fs, -, -, rfl⟩ := step_leave hs
    rw [(w.leave_sameTags f fs).tagCallback, h]

theorem tallied_step {w w' : World n} {a : Act} (hcb : w.plc.tagCallback = true) (hw : Watching w.plc w.log)
    (h : Tallied w.plc w.log) (hs : step w a = some w') : Tallied w'.plc w'.log := by
  have hsame : ∀ {p' : PlcClient n}, PlcClient.SameTags w.plc p' → ∀ i, (p'.slots i).tag.InFlight →
      (w.plc.slots i).tag.InFlight ∨ ∃ sock deadline, Event.started i sock deadline ∈ ([] : List (Event n)) := by
    intro p' hp i hi
    rw [hp.slots] at hi
    exact Or.inl hi
  cases a with
  | deliver bs =>
    obtain rfl := Option.some.inj hs
    exact ⟨h.started, h.sublist, h.iff⟩
  | call op =>
    obtain ⟨-, rfl⟩ := step_call hs
    have hc := call_cases w.plc op
    exact h.quiet (called_quiet hc) fun i => called_inFlight hc
  | poll os =>
    obtain ⟨-, rfl⟩ := step_poll hs
    have hp := hsame (w.poll_sameTags os)
    unfold World.poll at hp ⊢
    split
    · exact ⟨h.started, h.sublist, h.iff⟩
    · rename_i st p called hps
      rw [hps] at hp
      dsimp only at hp ⊢
      rw [List.append_assoc]
      refine h.quiet (fun e he => ?_) (fun i hi => (hp i hi).imp id nofun)
      rcases List.mem_append.1 he with he | he
      · split at he
        · rw [List.mem_singleton] at he
          subst he
          trivial
        · cases he
      · obtain ⟨st', -, rfl⟩ := List.mem_map.1 he
        trivial
  | iter os =>
    obtain ⟨f, fs, hf, -, hiter⟩ := step_iterated hs
    cases hiter with
    | turned st p hu ht =>
      dsimp only
      by_cases hin : (w.plc.slots ⟨f.next, hf⟩).tag.InFlight
      · have hprev := hw.seen _ hu hin
        refine tallied_turn h hin (fun j hj => ?_) ?_ ?_
        · by_contra hne
          exact hj (turned_tag ht hne).1
        · cases ht with
          | rest hr => exact absurd hin hr
          | inFlight _ polled advanced =>
            rw [PlcClient.setSlot_self]
            exact advanced.inFlight_iff hin
        · simp [calls, hcb, hprev]
      · rw [iterEvents_rest hin ht]
        have hcalls : w.calls ⟨f.next, hf⟩ st = false := by
          by_contra hc
          exact hin (calls_only_inFlight hw hu (by simpa using hc))
        rw [hcalls, List.append_assoc]
        refine h.quiet (by simp) (fun i hi => Or.inl ?_)
        by_contra hne
        have hchange : (p.slots i).tag ≠ (w.plc.slots i).tag := fun e => hne (e ▸ hi)
        exact hne (turned_tag ht hchange).2
    | skipped => exact h
  | leave =>
    obtain ⟨f, fs, -, -, rfl⟩ := step_leave hs
    have hp := hsame (w.leave_sameTags f fs)
    refine h.quiet (fun e he => ?_) (fun i hi => (hp i hi).imp id nofun)
    obtain ⟨st', -, rfl⟩ := List.mem_map.1 he
    trivial

/-! ### Exactly one callback for each completion -/

/-- In a run with a tag callback registered, the callbacks are the completions, in order and with the completing
status, exactly when each completed operation had been left `Pending` by an earlier turn of the loop.  No callback is
spurious in any case, and a slot completes no more often than operations were started on it. -/
theorem callbacks_iff {w₀ w : World n} {as : List Act} (hi : Initial w₀) (hcb : w₀.plc.tagCallback = true)
    (hr : Run step KeepsCallback w₀ as w) :
    (callbacks w.log = completions w.log ↔ AllTimely w.log) ∧ (callbacks w.log).Sublist (completions w.log) ∧
      ∀ i, completionsOf w.log i ≤ startsOf w.log i := by
  have h0 : Tallied w₀.plc w₀.log := by
    rw [hi.log]
    refine ⟨fun i => ?_, List.Sublist.refl _, Iff.intro (fun _ => trivial) fun _ => rfl⟩
    rw [hi.fresh.slots i]
    simp [completionsOf, completions, Tag.InFlight]
  have hinv := hr.invariant (I := fun w => w.plc.tagCallback = true ∧ Watching w.plc w.log ∧ Tallied w.plc w.log)
    (fun v a v' hv hok hs =>
      ⟨keepsCallback_step hv.1 hok hs, watching_step hv.2.1 hs, tallied_step hv.1 hv.2.1 hv.2.2 hs⟩)
    ⟨hcb, watching_initial hi, h0⟩
  obtain ⟨-, -, h⟩ := hinv
  refine ⟨h.iff, h.sublist, fun i => ?_⟩
  have := h.started i
  omega

/-- A read that is seen `Pending` once and then times out. -/
theorem callbacks_iff_timeout :
    let w := reached 8 (bringUp 7 ++ [.call (.createTag (some [65]) 1), .call (.read 0 1000 10)] ++
      wholePoll 8 (generous 20) ++ wholePoll 8 (generous 2000))
    callbacks w.log = completions w.log ∧ completions w.log = [(0, .timeout)] :=
  ⟨(callbacks_iff (fresh_initial 8) rfl (run_reachedIf KeepsCallback (by decide +kernel))).1.2 (by decide +kernel),
    by decide +kernel⟩

/-- A read whose first turn of the loop finds the connection reset. -/
def resetAtOnce : List Act :=
  bringUp 7 ++ [.call (.createTag (some [65]) 1), .call (.read 0 1000 10)] ++ wholePoll 8 (resetAt 20)

/-- The read completes with `Closed`, and the tag callback is not called. -/
theorem no_callback_at_once : ¬ ∀ (w₀ w : World 8) (as : List Act), Initial w₀ → w₀.plc.tagCallback = true →
    Run step KeepsCallback w₀ as w → callbacks w.log = completions w.log := by
  intro h
  have e := h (fresh 8) (reached 8 resetAtOnce) resetAtOnce (fresh_initial 8) rfl
    (run_reachedIf KeepsCallback (by decide +kernel))
  revert e
  decide +kernel

end World

end ControlLogix
