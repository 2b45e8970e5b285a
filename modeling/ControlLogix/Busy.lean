import ControlLogix.Ownership

/-!
# When `read()` answers `Busy`

`anyTagBusy()` looks at allocated slots only, `ExplicitMessage::send()` at the message itself, and the message is
advanced through allocated slots only.  So the two notions of busy agree until a slot in flight is freed: from then on
the message is in flight with no handle that could advance, abort or await it.

* `not_busy_iff`: in `Ready` with nothing pending, `read()` is not refused as busy exactly when no freed slot is in
  flight; a run that frees no slot in flight never comes to such a state;
* `busy_wedged`: freeing a slot in flight leaves a pool that refuses every other handle for good.
-/

namespace ControlLogix

open Transition

variable {n : Nat}

/-- A slot that is not allocated is in flight. -/
def Orphaned (p : PlcClient n) : Prop := ∃ j, (p.slots j).inUse = false ∧ (p.slots j).tag.InFlight

/-- No allocated tag has status `Pending`. -/
def NonePending (p : PlcClient n) : Prop := ∀ i, (p.slots i).inUse = true → (p.slots i).tag.status ≠ .pending

/-- The action does not free a slot in flight. -/
def SparesInFlight (w : World n) : Act → Prop
  | .call (.destroyTag handle) => ∀ i, w.plc.validHandle handle = some i → ¬ (w.plc.slots i).tag.InFlight
  | _ => True

instance (w : World n) : (a : Act) → Decidable (SparesInFlight w a)
  | .call (.destroyTag handle) =>
    inferInstanceAs (Decidable (∀ i, w.plc.validHandle handle = some i → ¬ (w.plc.slots i).tag.InFlight))
  | .call (.begin ..) | .call (.connect ..) | .call .disconnect | .call (.createTag ..) | .call (.read ..)
  | .call (.write ..) | .call (.abortTag _) | .call (.editTag ..) | .call (.setTagCallback _)
  | .call (.setStateCallback _) | .deliver _ | .poll _ | .iter _ | .leave => .isTrue trivial

namespace World

/-! ### The two notions of busy -/

theorem NonePending.anyTagBusy {p : PlcClient n} (h : NonePending p) : p.anyTagBusy = false := by
  by_contra hb
  have hb : p.anyTagBusy = true := by simpa using hb
  obtain ⟨i, hu, hi⟩ := PlcClient.anyTagBusy_iff.1 hb
  exact h i hu (Tag.status_pending.2 hi)

/-- With nothing pending, the message is in flight exactly when a freed slot is. -/
theorem orphaned_iff {p : PlcClient n} (hc : Coupled p) (h : NonePending p) : Orphaned p ↔ p.msg.InFlight := by
  constructor
  · rintro ⟨j, -, hj⟩
    exact hc.used j hj
  · intro hm
    obtain ⟨j, hj⟩ := hc.owned hm
    refine ⟨j, ?_, hj⟩
    by_contra hu
    exact h j (by simpa using hu) (Tag.status_pending.2 hj)

theorem read_busy_iff_orphaned {p : PlcClient n} (hc : Coupled p) (hr : p.state = .ready) (h : NonePending p)
    {handle : Int} {i : Fin n} (hv : p.validHandle handle = some i) (timeoutMs now : UInt32) :
    (p.read handle timeoutMs now).1 = .busy ↔ Orphaned p := by
  obtain ⟨hu, -⟩ := PlcClient.validHandle_inUse hv
  have hrest : ¬ (p.slots i).tag.InFlight := fun hi => h i hu (Tag.status_pending.2 hi)
  have hname : (p.slots i).name.length ≤ kMaxSymbolicName := by
    have := hc.named i hu
    simp only [PlcClient.kMaxTagName, kMaxSymbolicName] at *
    omega
  have hread : (p.read handle timeoutMs now).1 = ((p.slots i).tag.read p.msg p.tcp p.session.handle
      (some (p.slots i).name) (p.slots i).elemCount timeoutMs now).1 := by
    simp [PlcClient.read, PlcClient.startTag, hv, hr, NonePending.anyTagBusy h]
  rw [hread, Tag.read_busy_iff hrest hname, orphaned_iff hc h]

/-! ### Runs that free no slot in flight -/

private theorem orphaned_setSlot {p q : PlcClient n} (hq : q.slots = p.slots) {i : Fin n} {s : Slot}
    (h : Orphaned (q.setSlot i s)) : Orphaned p ∨ s.inUse = false ∧ s.tag.InFlight := by
  obtain ⟨j, hu, hj⟩ := h
  rw [PlcClient.setSlot_slots, hq] at hu hj
  by_cases hji : j = i
  · rw [if_pos hji] at hu hj
    exact Or.inr ⟨hu, hj⟩
  · rw [if_neg hji] at hu hj
    exact Or.inl ⟨j, hu, hj⟩

private theorem Orphaned.of_sameTags {p p' : PlcClient n} (hs : PlcClient.SameTags p p') (h : Orphaned p') :
    Orphaned p := by
  obtain ⟨j, hu, hj⟩ := h
  rw [hs.slots] at hu hj
  exact ⟨j, hu, hj⟩

theorem orphaned_step {w w' : World n} {a : Act} (h : ¬ Orphaned w.plc) (hok : SparesInFlight w a)
    (hs : step w a = some w') : ¬ Orphaned w'.plc := by
  intro ho
  cases a with
  | deliver bs =>
    obtain rfl := Option.some.inj hs
    exact h ho
  | call op =>
    obtain ⟨-, rfl⟩ := step_call hs
    have hc := call_cases w.plc op
    change Orphaned (w.plc.call op).2 at ho
    generalize (w.plc.call op).2 = p' at hc ho
    generalize callEvents w.plc op = events at hc
    cases hc with
    | linked hop => exact h (Orphaned.of_sameTags (hop.sameTags w.plc) ho)
    | registered set => exact h ho
    | created free bounded =>
      rcases orphaned_setSlot rfl ho with h' | ⟨h', -⟩
      · exact h h'
      · cases h'
    | @destroyed i inUse =>
      rcases orphaned_setSlot rfl ho with h' | ⟨-, h'⟩
      · exact h h'
      · exact hok i (PlcClient.validHandle_of_inUse inUse) h'
    | @started op i timeoutMs now tag msg hop inUse =>
      rcases orphaned_setSlot rfl ho with h' | ⟨h', -⟩
      · exact h h'
      · rw [inUse] at h'
        cases h'
    | aborted inUse =>
      rcases orphaned_setSlot rfl ho with h' | ⟨h', -⟩
      · exact h h'
      · rw [inUse] at h'
        cases h'
    | edited inUse =>
      rcases orphaned_setSlot rfl ho with h' | ⟨h', -⟩
      · exact h h'
      · rw [inUse] at h'
        cases h'
    | refused hop => exact h ho
  | poll os =>
    obtain ⟨-, rfl⟩ := step_poll hs
    exact h (Orphaned.of_sameTags (w.poll_sameTags os) ho)
  | iter os =>
    obtain ⟨f, fs, hf, -, hiter⟩ := step_iterated hs
    cases hiter with
    | turned st p hu ht =>
      cases ht with
      | rest hr =>
        rcases orphaned_setSlot rfl ho with h' | ⟨h', -⟩
        · exact h h'
        · rw [hu] at h'
          cases h'
      | inFlight hin polled advanced =>
        rcases orphaned_setSlot rfl ho with h' | ⟨h', -⟩
        · exact h h'
        · rw [hu] at h'
          cases h'
    | skipped => exact h ho
  | leave =>
    obtain ⟨f, fs, -, -, rfl⟩ := step_leave hs
    exact h (Orphaned.of_sameTags (w.leave_sameTags f fs) ho)

theorem orphaned_initial {w : World n} (h : Initial w) : ¬ Orphaned w.plc := by
  rintro ⟨j, -, hj⟩
  rw [h.fresh.slots j] at hj
  simp [Tag.InFlight] at hj

/-! ### The pool is wedged by freeing a slot in flight, and by nothing else -/

/-- In a reachable `Ready` state with nothing pending, `read()` of a valid handle is not refused as busy if and only
if no freed slot is in flight; and a run that frees no slot in flight only goes through such states. -/
theorem not_busy_iff :
    (∀ w : World n, Reachable w → w.plc.state = .ready → NonePending w.plc → ∀ handle i timeoutMs now,
      w.plc.validHandle handle = some i →
      ((w.plc.read handle timeoutMs now).1 ≠ .busy ↔ ¬ Orphaned w.plc)) ∧
    (∀ (w₀ w : World n) (as : List Act), Initial w₀ → Run step SparesInFlight w₀ as w → w.plc.state = .ready →
      NonePending w.plc → ∀ handle i timeoutMs now, w.plc.validHandle handle = some i →
      (w.plc.read handle timeoutMs now).1 ≠ .busy) := by
  have hiff : ∀ w : World n, Reachable w → w.plc.state = .ready → NonePending w.plc → ∀ handle i timeoutMs now,
      w.plc.validHandle handle = some i → ((w.plc.read handle timeoutMs now).1 ≠ .busy ↔ ¬ Orphaned w.plc) := by
    intro w hw hr hn handle i timeoutMs now hv
    exact not_congr (read_busy_iff_orphaned hw.coupled hr hn hv timeoutMs now)
  refine ⟨hiff, ?_⟩
  intro w₀ w as hi hrun hr hn handle i timeoutMs now hv
  have ho : ¬ Orphaned w.plc :=
    hrun.invariant (I := fun w => ¬ Orphaned w.plc) (fun _ _ _ h hok hs => orphaned_step h hok hs)
      (orphaned_initial hi)
  exact (hiff w ⟨w₀, as, hi, hrun.free⟩ hr hn handle i timeoutMs now hv).2 ho

/-- Two tags; the first is freed while its read is in flight. -/
def freedInFlight : List Act :=
  bringUp 7 ++ [.call (.createTag (some [65]) 1), .call (.createTag (some [66]) 1), .call (.read 0 1000 10),
    .call (.destroyTag 0)]

theorem not_busy_iff_freed : (((reached 8 freedInFlight).plc.read 1 1000 20).1 ≠ .busy ↔
      ¬ Orphaned (reached 8 freedInFlight).plc) ∧
    ((reached 8 (bringUp 7 ++ [.call (.createTag (some [65]) 1)])).plc.read 0 1000 20).1 ≠ .busy := by
  refine ⟨not_busy_iff.1 _ (reachable_reached (by decide +kernel)) (by decide +kernel)
    (by unfold NonePending; decide +kernel) 1 1 1000 20 (by decide +kernel), ?_⟩
  exact not_busy_iff.2 _ _ _ (fresh_initial 8) (run_reachedIf SparesInFlight (by decide +kernel))
    (by decide +kernel) (by unfold NonePending; decide +kernel)
    0 0 1000 20 (by decide +kernel)

/-- With its first tag freed in flight, a pool with nothing pending refuses to read the second. -/
theorem busy_wedged : ¬ ∀ w : World 8, Reachable w → w.plc.state = .ready → NonePending w.plc →
    ∀ handle i timeoutMs now, w.plc.validHandle handle = some i → (w.plc.read handle timeoutMs now).1 ≠ .busy := by
  intro h
  refine h (reached 8 freedInFlight) (reachable_reached (by decide +kernel)) (by decide +kernel) ?_ 1 1 1000 20
    (by decide +kernel) (by decide +kernel)
  unfold NonePending
  decide +kernel

end World

end ControlLogix
