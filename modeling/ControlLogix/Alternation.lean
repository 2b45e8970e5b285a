import ControlLogix.Stages

/-!
# The order of the state callbacks

The client is up from the `poll()` that registers the session to the end of the connection, the time it takes to close
the session included (`Up`).  Each state callback marks a change of it: `Ok` when the client comes up, `Closed` when
it goes down.  But `begin()`, `connect()` and a `disconnect()` during the closing exchange take an up client down and
report nothing, and a call of `poll()` whose callbacks have taken the client down reports a loss it noted before.

* `noted_poll`, `reported_step`: an action reports the change it makes, unless it is one of these (`Reports`);
* `alternates_of_reports`: without them the state callbacks alternate;
* `silent_disconnect`: a second `disconnect()` makes two connections in a row be reported `Ok`.
-/

/-! ### Alternating lists -/

/-- The list is `a, b, a, b, …`. -/
def Alternates {α : Type*} : α → α → List α → Prop
  | _, _, [] => True
  | a, b, x :: xs => x = a ∧ Alternates b a xs

instance Alternates.decidable {α : Type*} [DecidableEq α] : (a b : α) → (l : List α) → Decidable (Alternates a b l)
  | _, _, [] => .isTrue trivial
  | a, b, x :: xs =>
    have := Alternates.decidable b a xs
    inferInstanceAs (Decidable (x = a ∧ Alternates b a xs))

/-- One more entry is the one whose turn it is. -/
theorem Alternates.concat {α : Type*} {a b : α} {l : List α} (h : Alternates a b l) :
    Alternates a b (l ++ [if l.length % 2 = 0 then a else b]) := by
  induction l generalizing a b with
  | nil => exact ⟨rfl, trivial⟩
  | cons x xs ih =>
    refine ⟨h.1, ?_⟩
    have hturn : (if xs.length % 2 = 0 then b else a) = if (x :: xs).length % 2 = 0 then a else b := by
      rw [List.length_cons]
      by_cases hx : xs.length % 2 = 0
      · rw [if_pos hx, if_neg (by omega)]
      · rw [if_neg hx, if_pos (by omega)]
    rw [← hturn]
    exact ih h.2

namespace ControlLogix

open Transition

variable {n : Nat}

/-! ### What changes when -/

/-- The sketch has been told `Ok` for the connection, and a `Closed` is due. -/
def PlcClient.Up (p : PlcClient n) : Prop := p.state = .ready ∨ p.state = .disconnecting

instance PlcClient.decidableUp (p : PlcClient n) : Decidable p.Up := inferInstanceAs (Decidable (_ ∨ _))

theorem PlcClient.up_congr {p p' : PlcClient n} (h : p'.state = p.state) : p'.Up ↔ p.Up := by
  unfold PlcClient.Up
  rw [h]

/-- The client went from `p` to `p'` and the state callback was called with `called`. -/
inductive Noted (p p' : PlcClient n) : List Status → Prop where
  | same (h : p'.Up ↔ p.Up) : Noted p p' []
  | up (before : ¬ p.Up) (after : p'.Up) : Noted p p' [.ok]
  | down (before : p.Up) (after : ¬ p'.Up) : Noted p p' [.closed]

private theorem noted_ethernet {p : PlcClient n} (hs : p.state = .ethernet) (os : Platform) :
    Noted p (p.pollEthernet os).2.1 (p.pollEthernet os).2.2.toList := by
  have hdown : ¬ p.Up := by simp [PlcClient.Up, hs]
  have hkeep : ∀ p' : PlcClient n, ¬ p'.Up → Noted p p' [] := fun p' h =>
    .same ⟨fun h' => absurd h' h, fun h' => absurd h' hdown⟩
  unfold PlcClient.pollEthernet
  dsimp only
  split
  · split
    · obtain ⟨-, ⟨-, hst⟩ | ⟨-, hst⟩⟩ := dial_cases { p with
        eth := (p.eth.poll os.link).2, wantConnect := false, state := .connecting,
        deadline := os.millis 0 + p.connectTimeoutMs } os
      · exact hkeep _ (by simp [PlcClient.Up, hst])
      · exact hkeep _ (by simp [PlcClient.Up, hst])
    · exact hkeep _ hdown
  · split
    · exact hkeep _ (by simp [PlcClient.Up])
    · exact hkeep _ hdown

private theorem noted_connecting {p : PlcClient n} (hs : p.state = .connecting) (os : Platform) :
    Noted p (p.pollConnecting os).2.1 (p.pollConnecting os).2.2.toList := by
  have hdown : ¬ p.Up := by simp [PlcClient.Up, hs]
  have hkeep : ∀ p' : PlcClient n, ¬ p'.Up → Noted p p' [] := fun p' h =>
    .same ⟨fun h' => absurd h' h, fun h' => absurd h' hdown⟩
  unfold PlcClient.pollConnecting
  dsimp only
  split
  · exact hkeep _ (by simp [PlcClient.Up])
  · split
    · split
      · exact hkeep _ (by simp [PlcClient.Up])
      · exact hkeep _ (by simp [PlcClient.Up])
    · split
      · exact hkeep _ (by simp [PlcClient.Up])
      · exact hkeep _ (by simp [PlcClient.Up, hs])

private theorem noted_registering {p : PlcClient n} (hcb : p.stateCallback = true) (hs : p.state = .registering)
    (os : Platform) : Noted p (p.pollRegistering os).2.1 (p.pollRegistering os).2.2.toList := by
  have hdown : ¬ p.Up := by simp [PlcClient.Up, hs]
  have hkeep : ∀ p' : PlcClient n, ¬ p'.Up → Noted p p' [] := fun p' h =>
    .same ⟨fun h' => absurd h' h, fun h' => absurd h' hdown⟩
  unfold PlcClient.pollRegistering
  dsimp only
  split
  · exact hkeep _ (by simp [PlcClient.Up])
  · split
    · -- the session is registered
      exact .up hdown (Or.inl rfl)
    · split
      · exact hkeep _ (by simp [PlcClient.Up])
      · exact hkeep _ (by simp [PlcClient.Up, hs])

private theorem noted_disconnecting {p : PlcClient n} (hcb : p.stateCallback = true) (hs : p.state = .disconnecting)
    (os : Platform) : Noted p (p.pollDisconnecting os).2.1 (p.pollDisconnecting os).2.2.toList := by
  unfold PlcClient.pollDisconnecting
  dsimp only
  split
  · exact .down (Or.inr hs) (by simp [PlcClient.Up])
  · exact .same Iff.rfl

/-- `poll()` up to the loop reports the change it makes. -/
theorem noted_poll {p p' : PlcClient n} {os : Platform} {st : Status} {called : Option Status}
    (hcb : p.stateCallback = true) (h : p.pollState os = some (st, p', called)) : Noted p p' called.toList := by
  unfold PlcClient.pollState at h
  cases hs : p.state <;> rw [hs] at h <;> simp only [Option.some.injEq, reduceCtorEq] at h
  · cases h
    exact .same Iff.rfl
  · have hn := noted_ethernet hs os
    rwa [h] at hn
  · have hn := noted_connecting hs os
    rwa [h] at hn
  · have hn := noted_registering hcb hs os
    rwa [h] at hn
  · have hn := noted_disconnecting hcb hs os
    rwa [h] at hn
  · cases h
    exact .same Iff.rfl

/-- The end of the loop reports a loss if it has noted one. -/
theorem noted_leave {p : PlcClient n} {disconnected : Bool} (hcb : p.stateCallback = true)
    (h : disconnected = true → p.Up) : Noted p (p.loopEnd disconnected).2.1 (p.loopEnd disconnected).2.2.toList := by
  unfold PlcClient.loopEnd
  split
  · rename_i hd
    exact .down (h hd) (by simp [PlcClient.Up])
  · exact .same Iff.rfl

namespace World

/-! ### The steps that report what they do -/

/-- The calls that do not take the client down unreported, on a client whose state callback stays registered. -/
def CallReports (p : PlcClient n) : Op → Prop
  | .begin .. => ¬ p.Up
  | .connect .. => ¬ p.Up
  | .disconnect => p.state ≠ .disconnecting
  | .setStateCallback set => set = true
  | _ => True

instance (p : PlcClient n) : (op : Op) → Decidable (CallReports p op)
  | .begin .. => inferInstanceAs (Decidable (¬ p.Up))
  | .connect .. => inferInstanceAs (Decidable (¬ p.Up))
  | .disconnect => inferInstanceAs (Decidable (p.state ≠ .disconnecting))
  | .setStateCallback set => inferInstanceAs (Decidable (set = true))
  | .createTag .. => .isTrue trivial
  | .destroyTag .. => .isTrue trivial
  | .read .. => .isTrue trivial
  | .write .. => .isTrue trivial
  | .abortTag .. => .isTrue trivial
  | .editTag .. => .isTrue trivial
  | .setTagCallback .. => .isTrue trivial

/-- A loop that has noted the loss of the connection ends on a client that is still up. -/
def Reports (w : World n) : Act → Prop
  | .call op => CallReports w.plc op
  | .leave => ∀ f ∈ w.polls.head?, f.disconnected = true → w.plc.Up
  | _ => True

instance (w : World n) : (a : Act) → Decidable (Reports w a)
  | .call op => inferInstanceAs (Decidable (CallReports w.plc op))
  | .leave => inferInstanceAs (Decidable (∀ f ∈ w.polls.head?, f.disconnected = true → w.plc.Up))
  | .deliver _ => .isTrue trivial
  | .poll _ => .isTrue trivial
  | .iter _ => .isTrue trivial

/-- The statuses the state callback was called with, in order. -/
def stateCallbacks (log : List (Event n)) : List Status :=
  log.filterMap fun e => match e with
    | .stateCallback st => some st
    | _ => none

theorem stateCallbacks_append (log es : List (Event n)) :
    stateCallbacks (log ++ es) = stateCallbacks log ++ stateCallbacks es :=
  List.filterMap_append

theorem stateCallbacks_map (sts : List Status) : stateCallbacks (n := n) (sts.map .stateCallback) = sts := by
  induction sts with
  | nil => rfl
  | cons st sts ih => exact congrArg (st :: ·) ih

/-- A turn of the loop calls no state callback. -/
theorem stateCallbacks_turn {p p' : PlcClient n} {i : Fin n} {st : Status} {serial : Nat} {called : Bool} :
    stateCallbacks (iterEvents p i st p' serial ++ if called then [.tagCallback i st] else []) = [] := by
  rw [stateCallbacks_append]
  unfold iterEvents
  dsimp only
  split <;> split <;> split <;> rfl

/-- No call but `poll()` calls the state callback. -/
theorem stateCallbacks_called {p p' : PlcClient n} {op : Op} {es : List (Event n)} (h : Called p op p' es) :
    stateCallbacks es = [] := by
  cases h <;> rfl

/-- Only `setStateCallback()` registers or removes the state callback. -/
theorem called_stateCallback {p p' : PlcClient n} {op : Op} {es : List (Event n)} (h : Called p op p' es)
    (hop : ¬ op.Link) : p'.stateCallback = p.stateCallback := by
  cases h with
  | linked hop' => exact absurd hop' hop
  | _ => rfl

/-! ### One step -/

/-- The state callbacks a step adds report the change it makes. -/
structure Reported (w w' : World n) : Prop where
  callback : w'.plc.stateCallback = true
  noted : ∃ es, w'.log = w.log ++ es ∧ Noted w.plc w'.plc (stateCallbacks es)

/-- A step that adds no state callback and leaves an up client up and another one down. -/
private theorem Reported.quiet {w w' : World n} (es : List (Event n)) (hcb : w'.plc.stateCallback = true)
    (hl : w'.log = w.log ++ es) (hes : stateCallbacks es = []) (h : w'.plc.Up ↔ w.plc.Up) : Reported w w' :=
  ⟨hcb, es, hl, by rw [hes]; exact .same h⟩

private theorem reported_called {w : World n} {op : Op} (hcb : w.plc.stateCallback = true)
    (hok : CallReports w.plc op) (hop : op.Link) :
    (w.plc.call op).2.stateCallback = true ∧ ((w.plc.call op).2.Up ↔ w.plc.Up) := by
  cases op with
  | begin began configured =>
    refine ⟨hcb, fun h => ?_, fun h => absurd h hok⟩
    rcases h with h | h <;> cases h
  | connect ip port timeoutMs os =>
    have hcb' : (w.plc.connect ip port timeoutMs os).2.stateCallback = w.plc.stateCallback := by
      unfold PlcClient.connect PlcClient.dial
      dsimp only
      split
      · split <;> rfl
      · rfl
    have hst := connect_state w.plc ip port timeoutMs os
    refine ⟨hcb'.trans hcb, fun h => ?_, fun h => absurd h hok⟩
    change (w.plc.connect ip port timeoutMs os).2.Up at h
    rcases hst with e | e | e <;> simp [PlcClient.Up, e] at h
  | disconnect =>
    change w.plc.disconnect.2.stateCallback = true ∧ (w.plc.disconnect.2.Up ↔ w.plc.Up)
    unfold PlcClient.disconnect
    split
    · rename_i hr
      exact ⟨hcb, fun _ => Or.inl hr, fun _ => Or.inr rfl⟩
    · rename_i hr
      have hdown : ¬ w.plc.Up := fun h => h.elim hr hok
      refine ⟨hcb, fun h => ?_, fun h => absurd h hdown⟩
      rcases h with h | h <;> cases h
  | setStateCallback set => exact ⟨hok, Iff.rfl⟩
  | _ => exact absurd hop id

private theorem poll_stateCallback (w : World n) (os : Platform) :
    (w.poll os).plc.stateCallback = w.plc.stateCallback := by
  unfold World.poll PlcClient.pollState
  cases w.plc.state with
  | ethernet =>
    dsimp only
    unfold PlcClient.pollEthernet PlcClient.dial
    dsimp only
    split
    · split
      · split <;> rfl
      · rfl
    · split <;> rfl
  | connecting =>
    dsimp only
    unfold PlcClient.pollConnecting
    dsimp only
    split
    · rfl
    · split
      · split <;> rfl
      · split <;> rfl
  | registering =>
    dsimp only
    unfold PlcClient.pollRegistering
    dsimp only
    split
    · rfl
    · split
      · rfl
      · split <;> rfl
  | disconnecting =>
    dsimp only
    unfold PlcClient.pollDisconnecting
    dsimp only
    split <;> rfl
  | _ => rfl

private theorem reported_poll {w : World n} (hcb : w.plc.stateCallback = true) (os : Platform) :
    Reported w (w.poll os) := by
  have hcb' := (w.poll_stateCallback os).trans hcb
  unfold World.poll at hcb' ⊢
  split
  · exact .quiet [] hcb (List.append_nil _).symm rfl Iff.rfl
  · rename_i st p called hp
    rw [hp] at hcb'
    refine ⟨hcb', _, List.append_assoc _ _ _, ?_⟩
    have hreg : stateCallbacks (if w.plc.state = .registering ∧ p.state = .ready then
        [.registered p.tcp.sockets (decodeHeader p.tcp.sock.recvd).session] else [] : List (Event n)) = [] := by
      split <;> rfl
    rw [stateCallbacks_append, hreg, List.nil_append, stateCallbacks_map]
    exact noted_poll hcb hp

private theorem reported_leave {w : World n} {f : PollFrame} {fs : List PollFrame} (hcb : w.plc.stateCallback = true)
    (hok : f.disconnected = true → w.plc.Up) : Reported w (w.leave f fs) := by
  have hcb' : (w.plc.loopEnd f.disconnected).2.1.stateCallback = true := by
    unfold PlcClient.loopEnd
    split <;> exact hcb
  refine ⟨hcb', _, rfl, ?_⟩
  rw [stateCallbacks_map]
  exact noted_leave hcb hok

/-- An allowed step reports the change it makes. -/
theorem reported_step {w w' : World n} {a : Act} (hcb : w.plc.stateCallback = true) (hok : Reports w a)
    (hs : step w a = some w') : Reported w w' := by
  cases a with
  | deliver bs =>
    obtain rfl := Option.some.inj hs
    exact .quiet [] hcb (List.append_nil _).symm rfl Iff.rfl
  | call op =>
    obtain ⟨-, rfl⟩ := step_call hs
    have hc := call_cases w.plc op
    have hes := stateCallbacks_called hc
    rcases sameLink_called hc with ⟨hop, -, -⟩ | ⟨hop, hl⟩
    · obtain ⟨hcb', hup⟩ := reported_called hcb hok hop
      exact .quiet _ hcb' rfl hes hup
    · exact .quiet _ ((called_stateCallback hc hop).trans hcb) rfl hes (PlcClient.up_congr hl.state)
  | poll os =>
    obtain ⟨-, rfl⟩ := step_poll hs
    exact reported_poll hcb os
  | iter os =>
    obtain ⟨f, fs, hf, -, hiter⟩ := step_iterated hs
    cases hiter with
    | turned st p hu ht =>
      refine .quiet _ ?_ (List.append_assoc _ _ _) ?_ ?_
      · cases ht <;> exact hcb
      · exact stateCallbacks_turn
      · cases ht <;> exact Iff.rfl
    | skipped => exact .quiet [] hcb (List.append_nil _).symm rfl Iff.rfl
  | leave =>
    obtain ⟨f, fs, hp, -, rfl⟩ := step_leave hs
    refine reported_leave hcb (hok f ?_)
    rw [hp]
    rfl

/-! ### A run -/

/-- The state callbacks alternate, and the client is up when `Ok` was the last. -/
structure Told (w : World n) : Prop where
  callback : w.plc.stateCallback = true
  alternates : Alternates .ok .closed (stateCallbacks w.log)
  up : w.plc.Up ↔ (stateCallbacks w.log).length % 2 = 1

theorem told_step {w w' : World n} {a : Act} (h : Told w) (hok : Reports w a) (hs : step w a = some w') :
    Told w' := by
  obtain ⟨hcb, es, hl, hn⟩ := reported_step h.callback hok hs
  have hlog : stateCallbacks w'.log = stateCallbacks w.log ++ stateCallbacks es := by rw [hl, stateCallbacks_append]
  have hturn := h.alternates.concat
  generalize stateCallbacks es = called at hn hlog
  cases hn with
  | same hup =>
    rw [List.append_nil] at hlog
    exact ⟨hcb, by rw [hlog]; exact h.alternates, by rw [hlog]; exact hup.trans h.up⟩
  | up before after =>
    -- the client was down, so it is the turn of an `Ok`
    have heven : (stateCallbacks w.log).length % 2 = 0 := by
      have := mt h.up.2 before
      omega
    rw [if_pos heven] at hturn
    refine ⟨hcb, by rw [hlog]; exact hturn, ?_⟩
    rw [hlog, List.length_append, List.length_singleton]
    exact ⟨fun _ => by omega, fun _ => after⟩
  | down before after =>
    have hodd := h.up.1 before
    rw [if_neg (by omega)] at hturn
    refine ⟨hcb, by rw [hlog]; exact hturn, ?_⟩
    rw [hlog, List.length_append, List.length_singleton]
    exact ⟨fun h' => absurd h' after, fun h' => by omega⟩

theorem told_initial {w : World n} (h : Initial w) (hcb : w.plc.stateCallback = true) : Told w := by
  have hnil : stateCallbacks w.log = [] := by
    rw [h.log]
    rfl
  have hdown : ¬ w.plc.Up := by simp [PlcClient.Up, h.fresh.state]
  refine ⟨hcb, by rw [hnil]; trivial, ?_⟩
  rw [hnil]
  exact ⟨fun h' => absurd h' hdown, nofun⟩

/-- In every run with a state callback registered and no step that takes the client down unreported, the state
callbacks are `Ok`, `Closed`, `Ok`, …, and the client is up exactly when the last one was `Ok`. -/
theorem alternates_of_reports {w₀ w : World n} {as : List Act} (hi : Initial w₀) (hcb : w₀.plc.stateCallback = true)
    (hr : Run step Reports w₀ as w) :
    Alternates .ok .closed (stateCallbacks w.log) ∧ (w.plc.Up ↔ (stateCallbacks w.log).length % 2 = 1) := by
  have h := hr.invariant (I := Told) (fun _ _ _ => told_step) (told_initial hi hcb)
  exact ⟨h.alternates, h.up⟩

/-- A client that is disconnected, connects again and loses the connection in the middle of a read. -/
theorem alternates_of_reports_lost :
    let w := reached 2 (bringUp 7 ++ [.call .disconnect, .deliver (encodeHeader { command := 0x66, session := 7 }),
      .poll (generous 20), .call (.connect 1 44818 5000 {}), .poll {}, .deliver (registerReply 9),
      .poll (generous 30), .call (.createTag (some [65]) 1), .call (.read 0 1000 40)] ++ wholePoll 2 (resetAt 50))
    stateCallbacks w.log = [.ok, .closed, .ok, .closed] ∧ Alternates .ok .closed (stateCallbacks w.log) :=
  ⟨by decide +kernel,
    (alternates_of_reports (fresh_initial 2) rfl (run_reachedIf Reports (by decide +kernel))).1⟩

/-- A second `disconnect()` ends the connection before the session is closed. -/
def disconnectTwice : List Act :=
  bringUp 7 ++ [.call .disconnect, .call .disconnect, .call (.connect 1 44818 5000 {}), .poll {},
    .deliver (registerReply 9), .poll (generous 30)]

/-- The state callback stays registered. -/
def StaysTold (_ : World n) : Act → Prop
  | .call (.setStateCallback set) => set = true
  | _ => True

instance (w : World n) : (a : Act) → Decidable (StaysTold w a)
  | .call (.setStateCallback set) => inferInstanceAs (Decidable (set = true))
  | .call (.begin ..) | .call (.connect ..) | .call .disconnect | .call (.createTag ..) | .call (.destroyTag _)
  | .call (.read ..) | .call (.write ..) | .call (.abortTag _) | .call (.editTag ..)
  | .call (.setTagCallback _) | .deliver _ | .poll _ | .iter _ | .leave => .isTrue trivial

/-- No `Closed` is reported for the first connection. -/
theorem silent_disconnect : ¬ ∀ (w₀ w : World 2) (as : List Act), Initial w₀ → w₀.plc.stateCallback = true →
    Run step StaysTold w₀ as w → Alternates .ok .closed (stateCallbacks w.log) := by
  intro h
  have e := h (fresh 2) (reached 2 disconnectTwice) disconnectTwice (fresh_initial 2) rfl
    (run_reachedIf StaysTold (by decide +kernel))
  revert e
  decide +kernel

end World

end ControlLogix
