import ControlLogix.World

/-!
# A whole call of `poll()`

`World` takes `poll()` apart, because a callback can call the client in the middle of it.  Here it is one function,
for a sketch whose callbacks call nothing.

* `run_wholePoll`: the function is what the steps of `poll()` come to;
* `poll_alone`: the loop advances the tag that is in flight and leaves the others where they are.
-/

namespace ControlLogix

open Transition

variable {n : Nat}

namespace PlcClient

/-- The loop over the slots: the client and `disconnected` after it. -/
def pollSlots (os : Platform) : PlcClient n → List (Fin n) → PlcClient n × Bool
  | p, [] => (p, false)
  | p, i :: is =>
    if (p.slots i).inUse then
      let (st, p) := p.pollTag i os
      let (p, disconnected) := pollSlots os p is
      (p, st = .closed || disconnected)
    else pollSlots os p is

def poll (p : PlcClient n) (os : Platform) : Status × PlcClient n :=
  match p.pollState os with
  | some (st, p, _) => (st, p)
  | none =>
    let (p, disconnected) := p.pollSlots os (List.finRange n)
    let (st, p, _) := p.loopEnd disconnected
    (st, p)

end PlcClient

/-! ### The steps of `poll()` -/

namespace World

private theorem drop_finRange {k : Nat} (h : k < n) :
    (List.finRange n).drop k = ⟨k, h⟩ :: (List.finRange n).drop (k + 1) := by
  rw [List.drop_eq_getElem_cons (by rwa [List.length_finRange])]
  simp

/-- The turns of the loop that are left. -/
private theorem run_iters (os : Platform) (k : Nat) {w : World n} {f : PollFrame} {fs : List PollFrame}
    (hp : w.polls = f :: fs) (hk : f.next + k = n) :
    ∃ (w' : World n) (f' : PollFrame), Run step always w (List.replicate k (.iter os)) w' ∧ w'.polls = f' :: fs ∧
      f'.next = n ∧ w'.plc = (w.plc.pollSlots os ((List.finRange n).drop f.next)).1 ∧
      f'.disconnected = (f.disconnected || (w.plc.pollSlots os ((List.finRange n).drop f.next)).2) := by
  induction k generalizing w f with
  | zero =>
    have hdone : (List.finRange n).drop f.next = [] := by
      rw [List.drop_eq_nil_iff, List.length_finRange]
      omega
    refine ⟨w, f, .nil w, hp, by omega, ?_, ?_⟩
    · rw [hdone]
      rfl
    · rw [hdone]
      exact (Bool.or_false _).symm
  | succ k ih =>
    have hlt : f.next < n := by omega
    have hstep : step w (.iter os) = some (w.iter f fs ⟨f.next, hlt⟩ os) := by
      simp only [step, hp]
      rw [dif_pos hlt]
    rw [drop_finRange hlt, PlcClient.pollSlots]
    by_cases huse : (w.plc.slots ⟨f.next, hlt⟩).inUse = true
    · obtain ⟨st, p, hturn⟩ : ∃ st p, w.plc.pollTag ⟨f.next, hlt⟩ os = (st, p) := ⟨_, _, rfl⟩
      have hiter : ∃ (w₁ : World n) (f₁ : PollFrame), w.iter f fs ⟨f.next, hlt⟩ os = w₁ ∧ w₁.plc = p ∧
          w₁.polls = f₁ :: fs ∧ f₁.next = f.next + 1 ∧ f₁.disconnected = (f.disconnected || st = .closed) := by
        rw [iter, if_pos huse, hturn]
        exact ⟨_, _, rfl, rfl, rfl, rfl, rfl⟩
      obtain ⟨w₁, f₁, hw₁, hplc, hpolls, hnext, hclosed⟩ := hiter
      obtain ⟨w', f', hrun, hp', hn', hplc', hdisconnected⟩ := ih hpolls (by omega)
      rw [hw₁] at hstep
      rw [hplc, hnext] at hplc' hdisconnected
      rw [if_pos huse, hturn]
      refine ⟨w', f', .cons trivial hstep hrun, hp', hn', hplc', ?_⟩
      rw [hdisconnected, hclosed, Bool.or_assoc]
    · obtain ⟨w', f', hrun, hp', hn', hplc', hdisconnected⟩ := @ih (w.iter f fs ⟨f.next, hlt⟩ os)
        { f with next := f.next + 1, inCallback := false } (by rw [iter, if_neg huse]) (by dsimp only; omega)
      have hsame : (w.iter f fs ⟨f.next, hlt⟩ os).plc = w.plc := by rw [iter, if_neg huse]
      rw [hsame] at hplc' hdisconnected
      rw [if_neg huse]
      exact ⟨w', f', .cons trivial hstep hrun, hp', hn', hplc', hdisconnected⟩

/-- A call of `poll()` in `Ready` whose callbacks call nothing. -/
theorem run_wholePoll {w : World n} (hidle : w.Idle) (hready : w.plc.state = .ready) (os : Platform) :
    ∃ w', Run step always w (wholePoll n os) w' ∧ w'.plc = (w.plc.poll os).2 ∧ w'.polls = w.polls := by
  have hnone : w.plc.pollState os = none := PlcClient.pollState_none.2 hready
  have hfirst : step w (.poll os) = some { w with polls := {} :: w.polls } := by
    rw [step, if_pos hidle, poll, hnone]
  obtain ⟨w₁, f₁, hrun, hpolls, hnext, hplc, hdisconnected⟩ := @run_iters n os n { w with polls := {} :: w.polls } {}
    w.polls rfl (Nat.zero_add n)
  have hlast : step w₁ .leave = some (w₁.leave f₁ w.polls) := by
    simp only [step, hpolls]
    rw [if_neg (by omega)]
  refine ⟨w₁.leave f₁ w.polls, ?_, ?_, rfl⟩
  · rw [wholePoll, List.cons_append]
    exact .cons trivial hfirst (hrun.snoc trivial hlast)
  · have hall : (List.finRange n).drop (({} : PollFrame)).next = List.finRange n := rfl
    rw [hall] at hplc hdisconnected
    dsimp only at hplc hdisconnected
    rw [Bool.false_or] at hdisconnected
    rw [leave, PlcClient.poll, hnone, hplc, hdisconnected]

/-- In the other states `poll()` is one step. -/
theorem step_wholePoll {w : World n} (hidle : w.Idle) (hready : w.plc.state ≠ .ready) (os : Platform) :
    ∃ w', step w (.poll os) = some w' ∧ w'.plc = (w.plc.poll os).2 ∧ w'.polls = w.polls := by
  cases hp : w.plc.pollState os with
  | none => exact absurd (PlcClient.pollState_none.1 hp) hready
  | some r =>
    refine ⟨w.poll os, by rw [step, if_pos hidle], ?_, ?_⟩
    · rw [poll, PlcClient.poll, hp]
    · rw [poll, hp]

end World

/-! ### One tag in flight -/

namespace PlcClient

/-- `p'` is `p` but for the statuses that the loop remembers. -/
structure Unmoved (p p' : PlcClient n) : Prop where
  same : p' = { p with slots := p'.slots }
  slots : ∀ j, ∃ st, p'.slots j = { p.slots j with prevStatus := st }

theorem Unmoved.refl (p : PlcClient n) : Unmoved p p := ⟨rfl, fun _ => ⟨_, rfl⟩⟩

theorem Unmoved.trans {p p' p'' : PlcClient n} (h : Unmoved p p') (h' : Unmoved p' p'') : Unmoved p p'' := by
  refine ⟨?_, fun j => ?_⟩
  · rw [h'.same, h.same]
  · obtain ⟨st, hst⟩ := h.slots j
    obtain ⟨st', hst'⟩ := h'.slots j
    refine ⟨st', ?_⟩
    rw [hst', hst]

theorem Unmoved.tag {p p' : PlcClient n} (h : Unmoved p p') (j : Fin n) : (p'.slots j).tag = (p.slots j).tag := by
  obtain ⟨st, hst⟩ := h.slots j
  rw [hst]

theorem Unmoved.inUse {p p' : PlcClient n} (h : Unmoved p p') (j : Fin n) :
    (p'.slots j).inUse = (p.slots j).inUse := by
  obtain ⟨st, hst⟩ := h.slots j
  rw [hst]

/-- A turn on a tag at rest. -/
private theorem pollTag_rest {p : PlcClient n} {i : Fin n} (hrest : ¬ (p.slots i).tag.InFlight) (os : Platform) :
    (p.pollTag i os).1 ≠ .closed ∧ Unmoved p (p.pollTag i os).2 := by
  rw [pollTag, Tag.poll_rest hrest]
  refine ⟨?_, rfl, fun j => ?_⟩
  · show (p.slots i).tag.status ≠ .closed
    rw [Tag.status]
    cases (p.slots i).tag.state <;> decide
  · rw [setSlot_slots]
    by_cases hj : j = i
    · rw [if_pos hj, hj]
      exact ⟨_, rfl⟩
    · rw [if_neg hj]
      exact ⟨_, rfl⟩

/-- Turns on tags at rest. -/
theorem pollSlots_rest {p : PlcClient n} {is : List (Fin n)} (hrest : ∀ i ∈ is, ¬ (p.slots i).tag.InFlight)
    (os : Platform) : (p.pollSlots os is).2 = false ∧ Unmoved p (p.pollSlots os is).1 := by
  induction is generalizing p with
  | nil => exact ⟨rfl, .refl p⟩
  | cons i is ih =>
    have htail : ∀ j ∈ is, ¬ (p.slots j).tag.InFlight := fun j hj => hrest j (List.mem_cons_of_mem i hj)
    rw [pollSlots]
    split
    · obtain ⟨hclosed, hunmoved⟩ := pollTag_rest (hrest i List.mem_cons_self) os
      obtain ⟨hfalse, hunmoved'⟩ := @ih (p.pollTag i os).2 fun j hj => by
        rw [hunmoved.tag j]
        exact htail j hj
      refine ⟨?_, hunmoved.trans hunmoved'⟩
      simp [hclosed, hfalse]
    · exact ih htail

theorem pollSlots_append (os : Platform) (p : PlcClient n) (is js : List (Fin n)) :
    p.pollSlots os (is ++ js) =
      (((p.pollSlots os is).1.pollSlots os js).1,
        (p.pollSlots os is).2 || ((p.pollSlots os is).1.pollSlots os js).2) := by
  induction is generalizing p with
  | nil => simp [pollSlots]
  | cons i is ih =>
    rw [List.cons_append, pollSlots, pollSlots]
    split
    · dsimp only
      rw [ih, Bool.or_assoc]
    · exact ih p

/-- With no tag in flight `poll()` does nothing in `Ready`. -/
theorem poll_rest {p : PlcClient n} (hready : p.state = .ready) (hrest : ∀ i, ¬ (p.slots i).tag.InFlight)
    (os : Platform) : (p.poll os).1 = .ok ∧ Unmoved p (p.poll os).2 := by
  obtain ⟨hfalse, hunmoved⟩ := pollSlots_rest (fun i (_ : i ∈ List.finRange n) => hrest i) os
  rw [poll, pollState_none.2 hready]
  dsimp only
  rw [hfalse]
  exact ⟨rfl, hunmoved⟩

/-- A turn on the tag in flight, after turns on others. -/
private theorem pollTag_unmoved {p p' : PlcClient n} {i : Fin n} {os : Platform} {st : Status} {tag : Tag}
    {msg : ExplicitMessage} {tcp : TcpConnection} (h : Unmoved p p')
    (hpoll : (p.slots i).tag.poll p.msg p.tcp os = (st, tag, msg, tcp)) :
    (p'.pollTag i os).1 = st ∧
      Unmoved ({ p with msg := msg, tcp := tcp }.setSlot i { p.slots i with tag := tag }) (p'.pollTag i os).2 := by
  have hmsg : p'.msg = p.msg := by rw [h.same]
  have htcp : p'.tcp = p.tcp := by rw [h.same]
  have hturn : p'.pollTag i os =
      (st, { p' with msg := msg, tcp := tcp }.setSlot i { p'.slots i with tag := tag, prevStatus := st }) := by
    rw [pollTag, hmsg, htcp, h.tag i, hpoll]
  rw [hturn]
  refine ⟨rfl, ?_, fun j => ?_⟩
  · rw [h.same]
    rfl
  · rw [setSlot_slots, setSlot_slots]
    by_cases hj : j = i
    · obtain ⟨st', hst'⟩ := h.slots i
      rw [if_pos hj, if_pos hj, hst']
      exact ⟨_, rfl⟩
    · rw [if_neg hj, if_neg hj]
      exact h.slots j

/-- `poll()` advances the only tag in flight; unless that finds the connection lost, the client stays ready. -/
theorem poll_alone {p : PlcClient n} {i : Fin n} {os : Platform} {st : Status} {tag : Tag} {msg : ExplicitMessage}
    {tcp : TcpConnection} (hready : p.state = .ready) (huse : (p.slots i).inUse = true)
    (hrest : ∀ j, j ≠ i → ¬ (p.slots j).tag.InFlight)
    (hpoll : (p.slots i).tag.poll p.msg p.tcp os = (st, tag, msg, tcp)) (hclosed : st ≠ .closed) :
    (p.poll os).1 = .ok ∧
      Unmoved ({ p with msg := msg, tcp := tcp }.setSlot i { p.slots i with tag := tag }) (p.poll os).2 := by
  -- the slots before, and those behind
  obtain ⟨is, js, hall⟩ := List.append_of_mem (List.mem_finRange i)
  have hnodup := List.nodup_finRange n
  rw [hall, List.nodup_append] at hnodup
  obtain ⟨-, hjs, hdisjoint⟩ := hnodup
  have hbefore : ∀ j ∈ is, ¬ (p.slots j).tag.InFlight := by
    intro j hj
    exact hrest j (hdisjoint j hj i List.mem_cons_self)
  obtain ⟨hfalse, hunmoved⟩ := pollSlots_rest hbefore os
  obtain ⟨hst, hturned⟩ := pollTag_unmoved hunmoved hpoll
  have hbehind : ∀ j ∈ js, ¬ (((p.pollSlots os is).1.pollTag i os).2.slots j |>.tag).InFlight := by
    intro j hj
    have hne : j ≠ i := by
      rintro rfl
      exact (List.nodup_cons.1 hjs).1 hj
    rw [hturned.tag j, setSlot_of_ne _ _ hne]
    exact hrest j hne
  obtain ⟨hfalse', hunmoved'⟩ := pollSlots_rest hbehind os
  have hloop : p.pollSlots os (List.finRange n) =
      ((((p.pollSlots os is).1.pollTag i os).2.pollSlots os js).1, false) := by
    rw [hall, pollSlots_append, hfalse, pollSlots, if_pos (by rw [hunmoved.inUse i]; exact huse)]
    dsimp only
    rw [hfalse', hst]
    simp [hclosed]
  rw [poll, pollState_none.2 hready]
  dsimp only
  rw [hloop]
  exact ⟨rfl, hturned.trans hunmoved'⟩

end PlcClient

end ControlLogix
