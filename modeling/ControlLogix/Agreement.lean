import ControlLogix.Endings
import ControlLogix.Recycling
import ControlLogix.Reentrancy
import ControlLogix.Requests

/-!
# Two ways of learning a result

The tag callback is called with the status that `Tag::poll()` returns, which is the status of the message's `poll()`
when the exchange breaks down.  `tagStatus()` computes a status from the state of the tag, which is `Failed` in all
these cases.

* `ExplicitMessage.poll_status`: the status of the message's `poll()`, from its inputs;
* `turned_status`: the status a turn of the loop ends an operation with;
* `settled_run`: a tag that is over keeps its status until a call takes it up again;
* `agreement_iff`: callback and `tagStatus()` agree exactly when the operation does not run out of time and does not
  lose the connection.
-/

namespace ControlLogix

open Transition
open Buffers (Framed)

variable {n : Nat}

/-! ### How an operation ends -/

/-- How the exchange goes on in one `poll()` that finds its deadline in the future. -/
def ExplicitMessage.ending (m : ExplicitMessage) (conn : TcpConnection) (os : Platform) : Ending :=
  m.toBuffers.ending (16 + kMaxCipData) conn os

/-- What `ExplicitMessage::poll()` returns for an exchange. -/
theorem ExplicitMessage.poll_status {m : ExplicitMessage} (hin : m.InFlight)
    (hf : Framed (16 + kMaxCipData) m.toBuffers)
    (hfit : m.txLen ≤ m.tx.length) (conn : TcpConnection) (os : Platform) :
    (expired (os.millis 0) m.deadline = true ∧ (m.poll conn os).1 = .timeout) ∨
      (expired (os.millis 0) m.deadline = false ∧ m.ending conn os ≠ .complete ∧
        (m.poll conn os).1 = (m.ending conn os).status) ∨
      (expired (os.millis 0) m.deadline = false ∧ m.ending conn os = .complete ∧
        ((m.poll conn os).1 = .ok ∨ (m.poll conn os).1 = .error)) := by
  rw [poll_inFlight hin]
  unfold advance
  cases hnow : expired (os.millis 0) m.deadline with
  | true => exact Or.inl ⟨rfl, rfl⟩
  | false =>
    right
    rw [if_neg Bool.false_ne_true]
    have he : m.ending conn os = m.toBuffers.ending (16 + kMaxCipData) conn os := rfl
    rcases Buffers.loops_status conn os hf hfit with
      ⟨hne, b₁, conn₁, hw⟩ | ⟨b₁, conn₁, b₂, conn₂, hw, hr⟩
    · -- the request could not be written to its end
      refine Or.inl ⟨rfl, hne, ?_⟩
      rw [hw, he]
      cases hend : m.toBuffers.ending (16 + kMaxCipData) conn os with
      | complete => exact absurd hend hne
      | blocked => rfl
      | closed => rfl
      | fault => rfl
    · rw [hw, he]
      dsimp only
      rw [hr]
      cases m.toBuffers.ending (16 + kMaxCipData) conn os with
      | complete =>
        refine Or.inr ⟨rfl, rfl, ?_⟩
        -- the whole response is there, and is parsed
        simp only [Ending.status]
        unfold parseResponse
        dsimp only
        split
        · rename_i st m' hparse
          exact Or.inl rfl
        · rename_i st m' hno hparse
          split at hparse
          · exact Or.inr (Prod.mk.inj hparse).1.symm
          · exact absurd (Prod.mk.inj hparse).1.symm hno
      | blocked => exact Or.inl ⟨rfl, nofun, rfl⟩
      | closed => exact Or.inl ⟨rfl, nofun, rfl⟩
      | fault => exact Or.inl ⟨rfl, nofun, rfl⟩

/-- The operation in flight neither runs out of time in this turn of the loop, nor finds that its connection is
lost. -/
def PlcClient.Survives (p : PlcClient n) (os : Platform) : Prop :=
  expired (os.millis 0) p.msg.deadline = false ∧ p.msg.ending p.tcp os ≠ .closed

instance (p : PlcClient n) (os : Platform) : Decidable (p.Survives os) := inferInstanceAs (Decidable (_ ∧ _))

/-- A turn that ends an operation: the tag is over, and its own status is the one the turn returned exactly when the
operation survives. -/
theorem turned_status {p p' : PlcClient n} {i : Fin n} {os : Platform} {st : Status} (hc : Coupled p)
    (hl : p.msg.InFlight → p.msg.Loaded) (hu : (p.slots i).inUse = true) (hin : (p.slots i).tag.InFlight)
    (ht : PlcClient.Turned p i os st p') (hst : st ≠ .pending) :
    (p'.slots i).inUse = true ∧ (p'.slots i).tag.status ≠ .pending ∧
      ((p'.slots i).tag.status = st ↔ p.Survives os) := by
  cases ht with
  | rest hr => exact absurd hin hr
  | @inFlight mst st tag msg tcp _ polled advanced =>
    have hm := hc.used i hin
    have hstatus := ExplicitMessage.poll_status hm (hc.framed hm) (Nat.le_of_eq (hl hm).len) p.tcp os
    rw [polled] at hstatus
    dsimp only at hstatus
    rw [PlcClient.setSlot_self]
    -- only a deadline and a lost connection have a status of their own in the message
    have hsurvives : p.Survives os ↔ mst ≠ .timeout ∧ mst ≠ .closed := by
      unfold PlcClient.Survives
      rcases hstatus with ⟨he, rfl⟩ | ⟨he, hne, rfl⟩ | ⟨he, hend, rfl | rfl⟩
      · simp [he]
      · rw [and_iff_right he]
        cases p.msg.ending p.tcp os <;> simp [Ending.status]
      · simp [he, hend]
      · simp [he, hend]
    rw [hsurvives]
    cases advanced with
    | pending h => exact absurd rfl hst
    | broke h =>
      have hfail : Tag.status { (p.slots i).tag with state := .failed } = .error := rfl
      refine ⟨hu, by rw [hfail]; nofun, ?_⟩
      show Status.error = st ↔ _
      rcases hstatus with ⟨-, rfl⟩ | ⟨-, -, hmst⟩ | ⟨-, -, rfl | rfl⟩
      · simp
      · rw [hmst] at h ⊢
        generalize p.msg.ending p.tcp os = e at h
        cases e with
        | complete => exact absurd rfl h.2
        | blocked => exact absurd rfl h.1
        | closed => simp [Ending.status]
        | fault => simp [Ending.status]
      · exact absurd rfl h.2
      · simp
    | refused h hcode =>
      subst h
      exact ⟨hu, nofun, fun _ => ⟨nofun, nofun⟩, fun _ => rfl⟩
    | done h hcode =>
      subst h
      -- `Done` is `Ok`, whether the response carried a value or not
      have hdone : ∀ t : Tag, (t.accept msg).status = .ok := by
        intro t
        unfold Tag.accept
        split <;> rfl
      refine ⟨hu, ?_, fun _ => ⟨nofun, nofun⟩, fun _ => hdone _⟩
      show Tag.status (Tag.accept _ msg) ≠ .pending
      rw [hdone]
      nofun

namespace World

/-! ### A result lasts -/

/-- The action is not a call of `read()`, `write()`, `abortTag()` or `destroyTag()` for slot `i`. -/
def Unattended (i : Fin n) (_ : World n) : Act → Prop
  | .call (.read handle _ _) | .call (.write handle _ _) | .call (.abortTag handle) | .call (.destroyTag handle) =>
    handle ≠ i.val
  | _ => True

/-- The tag of the allocated slot `i` is over, with this status. -/
def Rests (i : Fin n) (st : Status) (w : World n) : Prop :=
  (w.plc.slots i).inUse = true ∧ st ≠ .pending ∧ (w.plc.slots i).tag.status = st

private theorem rests_called {i : Fin n} {st : Status} {w : World n} {op : Op} (h : Rests i st w)
    (hok : Unattended i w (.call op)) : Rests i st (w.call op) := by
  obtain ⟨hu, hst, ht⟩ := h
  have hc := slot_called (call_cases w.plc op) i
  refine ⟨?_, hst, ?_⟩
  · show ((w.plc.call op).2.slots i).inUse = true
    generalize (w.plc.call op).2.slots i = s at hc
    cases hc with
    | same => exact hu
    | created free => rfl
    | destroyed => exact absurd rfl hok
    | started hop inFlight => exact hu
    | aborted idle => exact hu
    | edited => exact hu
  · show ((w.plc.call op).2.slots i).tag.status = st
    generalize (w.plc.call op).2.slots i = s at hc
    cases hc with
    | same => exact ht
    | created free =>
      rw [hu] at free
      cases free
    | destroyed => exact absurd rfl hok
    | started hop inFlight => rcases hop with rfl | rfl <;> exact absurd rfl hok
    | aborted idle => exact absurd rfl hok
    | @edited e =>
      rw [← ht]
      unfold Tag.status
      rw [PlcClient.edit_state]

private theorem rests_step {i : Fin n} {st : Status} {w w' : World n} {a : Act} (h : Rests i st w)
    (hok : Unattended i w a) (hs : step w a = some w') : Rests i st w' := by
  have hrest : ¬ (w.plc.slots i).tag.InFlight := fun hin => h.2.1 (h.2.2.symm.trans (Tag.status_pending.2 hin))
  cases a with
  | deliver bs =>
    obtain rfl := Option.some.inj hs
    exact h
  | call op =>
    obtain ⟨-, rfl⟩ := step_call hs
    exact rests_called h hok
  | poll os =>
    obtain ⟨-, rfl⟩ := step_poll hs
    unfold Rests
    rw [(w.poll_sameTags os).slots]
    exact h
  | iter os =>
    obtain ⟨f, fs, hf, -, hiter⟩ := step_iterated hs
    cases hiter with
    | turned st' p hu ht =>
      obtain ⟨hin, hst, htag⟩ := h
      have hsame : (p.slots i).tag = (w.plc.slots i).tag := by
        by_contra hne
        exact hrest (turned_tag ht hne).2
      refine ⟨(slot_turned ht i).inUse.trans hin, hst, ?_⟩
      show (p.slots i).tag.status = st
      rw [hsame, htag]
    | skipped => exact h
  | leave =>
    obtain ⟨f, fs, -, -, rfl⟩ := step_leave hs
    unfold Rests
    rw [(w.leave_sameTags f fs).slots]
    exact h

/-- Any number of further calls of `poll()`, and of other calls, leave the result of an operation as it is. -/
theorem settled_run {i : Fin n} {st : Status} {w v : World n} {as : List Act} (h : Rests i st w)
    (hr : Run step (Unattended i) w as v) : v.plc.tagStatus i.val = st := by
  have hend := hr.invariant (I := Rests i st) (fun _ _ _ hv hok hs => rests_step hv hok hs) h
  rw [PlcClient.tagStatus, PlcClient.validHandle_of_inUse hend.1]
  exact hend.2.2

/-! ### The callback and `tagStatus()` -/

/-- The step from `w` to `w'` calls the tag callback for slot `i` with the status `st`. -/
def CallsBack (w w' : World n) (i : Fin n) (st : Status) : Prop :=
  ∃ es, w'.log = w.log ++ es ∧ Event.tagCallback i st ∈ es

private theorem callsBack_iter {w w' : World n} {os : Platform} {i : Fin n} {st : Status}
    (hs : step w (.iter os) = some w') (hcb : CallsBack w w' i st) :
    (w.plc.slots i).inUse = true ∧ w.calls i st = true ∧ PlcClient.Turned w.plc i os st w'.plc := by
  obtain ⟨es, hlog, hmem⟩ := hcb
  obtain ⟨f, fs, hf, -, hiter⟩ := step_iterated hs
  cases hiter with
  | turned st' p hu ht =>
    have hes : es = iterEvents w.plc ⟨f.next, hf⟩ st' p (starts w.log) ++
        if w.calls ⟨f.next, hf⟩ st' then [.tagCallback ⟨f.next, hf⟩ st'] else [] := by
      rw [List.append_assoc] at hlog
      exact (List.append_cancel_left hlog).symm
    rw [hes] at hmem
    obtain ⟨hc, rfl, rfl⟩ := tagCallback_turn hmem
    exact ⟨hu, hc, ht⟩
  | skipped =>
    have hnil : es = [] := by simpa using hlog
    rw [hnil] at hmem
    cases hmem

/-- An operation completes, and the tag callback is called for it.  From that moment `tagStatus()` returns the status
the callback was called with, until the next call of `read()`, `write()`, `abortTag()` or `destroyTag()`, if and only
if the operation neither ran out of time nor lost its connection. -/
theorem agreement_iff {w w' : World n} (h : Reachable w) {os : Platform} (hs : step w (.iter os) = some w')
    {i : Fin n} {st : Status} (hcb : CallsBack w w' i st) :
    (∀ as v, Run step (Unattended i) w' as v → v.plc.tagStatus i.val = st) ↔ w.plc.Survives os := by
  obtain ⟨hu, hcalls, ht⟩ := callsBack_iter hs hcb
  have hst : st ≠ .pending := by
    simp only [calls, Bool.and_eq_true, decide_eq_true_eq] at hcalls
    exact hcalls.1.2
  have hin := calls_only_inFlight h.watching hu hcalls
  obtain ⟨hused, hover, hiff⟩ := turned_status h.coupled h.loaded hu hin ht hst
  rw [← hiff]
  constructor
  · intro hall
    have hnow := hall [] w' (.nil w')
    rw [PlcClient.tagStatus, PlcClient.validHandle_of_inUse hused] at hnow
    exact hnow
  · intro hsame as v hrun
    exact (settled_run ⟨hused, hover, rfl⟩ hrun).trans hsame

/-- A read has been seen `Pending`, and the next call of `poll()` is in its loop. -/
def turning (os : Platform) : World 2 :=
  reached 2 (bringUp 7 ++ [.call (.createTag (some [65]) 1), .call (.read 0 1000 10)] ++ wholePoll 2 (generous 20) ++
    [.poll os])

/-- The loop has ended the read. -/
def turned (os : Platform) : World 2 := after step (turning os) [.iter os]

/-- The events of a turn are found behind those before it. -/
private theorem callsBack_of_log {w w' : World n} {i : Fin n} {st : Status} (h : w'.log.take w.log.length = w.log)
    (hmem : Event.tagCallback i st ∈ w'.log.drop w.log.length) : CallsBack w w' i st := by
  refine ⟨w'.log.drop w.log.length, ?_, hmem⟩
  conv => lhs; rw [← List.take_append_drop w.log.length w'.log, h]

/-- The socket layer fails at the read's response: the callback is called with `Error`, and so says `tagStatus()`. -/
theorem agreement_iff_fault : (turned { recvs := [.failed .econnreset] }).plc.tagStatus 0 = .error :=
  (agreement_iff (reachable_reached (by decide +kernel)) (step_after (by decide +kernel))
    (callsBack_of_log (by decide +kernel) (by decide +kernel) :
      CallsBack (turning { recvs := [.failed .econnreset] }) (turned { recvs := [.failed .econnreset] }) 0 .error)).2
    (by decide +kernel) [] _ (.nil _)

/-- The read runs out of time: the callback is called with `Timeout`, and `tagStatus()` says `Error`. -/
theorem timeout_differs : ¬ ∀ (w w' : World 2) (os : Platform) (i : Fin 2) (st : Status), Reachable w →
    step w (.iter os) = some w' → CallsBack w w' i st →
    ∀ as v, Run step (Unattended i) w' as v → v.plc.tagStatus i.val = st := by
  intro h
  have hstatus := h (turning (generous 2000)) (turned (generous 2000)) (generous 2000) 0 .timeout
    (reachable_reached (by decide +kernel)) (step_after (by decide +kernel))
    (callsBack_of_log (by decide +kernel) (by decide +kernel)) [] _ (.nil _)
  revert hstatus
  decide +kernel

end World

end ControlLogix
