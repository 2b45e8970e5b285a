import ControlLogix.Pool
import ControlLogix.Asked
import ControlLogix.Ownership

/-!
# The tag registry

What the registry is for: a pool of `kMaxTags` places, where `createTag()` puts a name and an element count and
`destroyTag()` removes them.  Nothing else that happens to a client concerns it.

* `World.registry_kept`: after every run the slots are those of the pool after the same calls, and every answer of the
  client about handles is the answer of the pool.
-/

namespace ControlLogix

open Transition
open Pool (Places)

variable {n : Nat}

/-- What the sketch asked for. -/
structure NamedTag where
  name : List UInt8
  elemCount : UInt32
  deriving DecidableEq, Repr

/-! ### The pool -/

namespace Registry

def create (r : Places n NamedTag) (name : Option (List UInt8)) (elementCount : UInt32) :
    Int × Places n NamedTag :=
  match name with
  | none => (Status.invalidArg.toInt, r)
  | some name =>
    if name = [] ∨ PlcClient.kMaxTagName ≤ name.length then (Status.invalidArg.toInt, r)
    else
      match Pool.lowest r with
      | none => (Status.noMemory.toInt, r)
      | some i => (i.val, Pool.put r i ⟨name, elementCount⟩)

/-- The place with this number, when it is taken. -/
def place (r : Places n NamedTag) (handle : Int) : Option (Fin n) :=
  (List.finRange n).find? fun i => (i.val : Int) = handle ∧ (r i).isSome

def destroy (r : Places n NamedTag) (handle : Int) : Status × Places n NamedTag :=
  match place r handle with
  | none => (.invalidArg, r)
  | some i => (.ok, Pool.remove r i)

/-- What an action of a run is to the pool. -/
def act (r : Places n NamedTag) : Act → Places n NamedTag
  | .call (.createTag name elementCount) => (create r name elementCount).2
  | .call (.destroyTag handle) => (destroy r handle).2
  | _ => r

/-- How many tags an action adds: one, none, or one less. -/
def gain (r : Places n NamedTag) : Act → Int
  | .call (.createTag name elementCount) => if 0 ≤ (create r name elementCount).1 then 1 else 0
  | .call (.destroyTag handle) => if (destroy r handle).1 = .ok then -1 else 0
  | _ => 0

/-- The tags created and not destroyed by a list of actions. -/
def balance : Places n NamedTag → List Act → Int
  | _, [] => 0
  | r, a :: as => gain r a + balance (act r a) as

theorem place_eq_some {r : Places n NamedTag} {handle : Int} {i : Fin n} :
    place r handle = some i ↔ handle = i.val ∧ (r i).isSome := by
  unfold place
  constructor
  · intro h
    have hi := List.find?_some h
    simp only [decide_eq_true_eq] at hi
    exact ⟨hi.1.symm, hi.2⟩
  · rintro ⟨rfl, hi⟩
    cases h : (List.finRange n).find? fun j => decide ((j.val : Int) = i.val ∧ (r j).isSome = true) with
    | none =>
      have hnone := List.find?_eq_none.1 h i (List.mem_finRange i)
      simp [hi] at hnone
    | some j =>
      have hj := List.find?_some h
      simp only [decide_eq_true_eq, Int.natCast_inj] at hj
      rw [Fin.ext hj.1]

/-- An action changes the number of tags by what it gains. -/
theorem count_act (r : Places n NamedTag) (a : Act) : (Pool.count (act r a) : Int) = Pool.count r + gain r a := by
  have hsame : ∀ r : Places n NamedTag, (Pool.count r : Int) = Pool.count r + 0 := fun r => by omega
  cases a with
  | call op =>
    cases op with
    | createTag name elementCount =>
      have hinvalid : ¬ 0 ≤ Status.invalidArg.toInt := by decide
      have hfull : ¬ 0 ≤ Status.noMemory.toInt := by decide
      unfold act gain create
      cases name with
      | none =>
        dsimp only
        rw [if_neg hinvalid]
        exact hsame r
      | some name =>
        dsimp only
        split
        · exact hsame r
        · split
          · rw [if_neg hfull]
            exact hsame r
          · rename_i i hi
            rw [if_pos (Int.natCast_nonneg _), Pool.count_put (Pool.lowest_eq_some.1 hi).1]
            omega
    | destroyTag handle =>
      unfold act gain destroy
      dsimp only
      cases hplace : place r handle with
      | none =>
        dsimp only
        rw [if_neg (by decide)]
        exact hsame r
      | some i =>
        have hcount := Pool.count_remove (place_eq_some.1 hplace).2
        dsimp only
        rw [if_pos rfl]
        omega
    | _ => exact hsame r
  | _ => exact hsame r

theorem count_balance (r : Places n NamedTag) (as : List Act) :
    (Pool.count (as.foldl act r) : Int) = Pool.count r + balance r as := by
  induction as generalizing r with
  | nil => simp [balance]
  | cons a as ih =>
    rw [List.foldl_cons, ih, count_act, balance]
    omega

end Registry

/-! ### The slots -/

namespace PlcClient

/-- What the slots hold. -/
def registry (p : PlcClient n) : Places n NamedTag :=
  fun i => if (p.slots i).inUse then some ⟨(p.slots i).name, (p.slots i).elemCount⟩ else none

def tagCount (p : PlcClient n) : Nat := (List.finRange n).countP fun i => (p.slots i).inUse

theorem registry_isSome (p : PlcClient n) (i : Fin n) : (p.registry i).isSome = (p.slots i).inUse := by
  unfold registry
  cases (p.slots i).inUse <;> rfl

theorem tagCount_eq (p : PlcClient n) : p.tagCount = Pool.count p.registry := by
  unfold tagCount Pool.count
  simp only [registry_isSome]

theorem findFreeTag_eq (p : PlcClient n) : p.findFreeTag = Pool.lowest p.registry := by
  unfold findFreeTag Pool.lowest
  congr 1
  funext i
  have hi := p.registry_isSome i
  cases hu : (p.slots i).inUse <;> rw [hu] at hi <;> simp [← Option.not_isSome, hi]

theorem validHandle_eq (p : PlcClient n) (handle : Int) :
    p.validHandle handle = Registry.place p.registry handle := by
  cases hv : p.validHandle handle with
  | some i =>
    obtain ⟨hu, rfl⟩ := validHandle_inUse hv
    exact (Registry.place_eq_some.2 ⟨rfl, by rw [registry_isSome, hu]⟩).symm
  | none =>
    cases hp : Registry.place p.registry handle with
    | none => rfl
    | some i =>
      obtain ⟨rfl, hi⟩ := Registry.place_eq_some.1 hp
      rw [registry_isSome] at hi
      rw [validHandle_of_inUse hi] at hv
      cases hv

/-- A slot that gets another content is a place of the pool that gets another content. -/
theorem registry_setSlot (p : PlcClient n) (i : Fin n) (s : Slot) :
    (p.setSlot i s).registry =
      Function.update p.registry i (if s.inUse then some ⟨s.name, s.elemCount⟩ else none) := by
  funext j
  unfold registry
  rw [setSlot_slots, Function.update_apply]
  by_cases hji : j = i
  · rw [if_pos hji, if_pos hji]
  · rw [if_neg hji, if_neg hji]

theorem createTag_registry (p : PlcClient n) (name : Option (List UInt8)) (elementCount : UInt32) :
    (p.createTag name elementCount).1 = (Registry.create p.registry name elementCount).1 ∧
      (p.createTag name elementCount).2.registry = (Registry.create p.registry name elementCount).2 := by
  unfold createTag Registry.create
  rw [findFreeTag_eq]
  cases name with
  | none => exact ⟨rfl, rfl⟩
  | some name =>
    dsimp only
    split
    · exact ⟨rfl, rfl⟩
    · cases Pool.lowest p.registry with
      | none => exact ⟨rfl, rfl⟩
      | some i => exact ⟨rfl, p.registry_setSlot i _⟩

theorem destroyTag_registry (p : PlcClient n) (handle : Int) :
    (p.destroyTag handle).1 = (Registry.destroy p.registry handle).1 ∧
      (p.destroyTag handle).2.registry = (Registry.destroy p.registry handle).2 := by
  unfold destroyTag Registry.destroy
  rw [validHandle_eq]
  cases Registry.place p.registry handle with
  | none => exact ⟨rfl, rfl⟩
  | some i => exact ⟨rfl, p.registry_setSlot i _⟩

/-- A slot with another tag or another status is the same place of the pool. -/
theorem registry_of_slots {p p' : PlcClient n} (h : ∀ i, (p'.slots i).inUse = (p.slots i).inUse ∧
    (p'.slots i).name = (p.slots i).name ∧ (p'.slots i).elemCount = (p.slots i).elemCount) :
    p'.registry = p.registry := by
  funext i
  obtain ⟨hu, hn, he⟩ := h i
  unfold registry
  rw [hu, hn, he]

theorem registry_sameTags {p p' : PlcClient n} (h : SameTags p p') : p'.registry = p.registry := by
  unfold registry
  rw [h.slots]

/-- What a turn of the loop and the operations on a tag keep of a slot. -/
theorem registry_setTag (p : PlcClient n) {i : Fin n} {s : Slot} (hu : s.inUse = (p.slots i).inUse)
    (hn : s.name = (p.slots i).name) (he : s.elemCount = (p.slots i).elemCount) :
    (p.setSlot i s).registry = p.registry := by
  refine registry_of_slots fun j => ?_
  rw [setSlot_slots]
  split
  · rename_i hji
    rw [hji]
    exact ⟨hu, hn, he⟩
  · exact ⟨rfl, rfl, rfl⟩

/-- An operation that is started is started on the slot of its handle, for the name and the count kept there. -/
theorem startTag_pending {p p' : PlcClient n} {handle : Int}
    {op : Tag → ExplicitMessage → TcpConnection → UInt32 → Option (List UInt8) → UInt32 →
      Status × Tag × ExplicitMessage}
    (h : p.startTag handle op = (.pending, p')) :
    ∃ i tag, Registry.place p.registry handle = some i ∧
      p.registry i = some ⟨(p.slots i).name, (p.slots i).elemCount⟩ ∧
      op (p.slots i).tag p.msg p.tcp p.session.handle (some (p.slots i).name) (p.slots i).elemCount =
        (.pending, tag, p'.msg) := by
  unfold startTag at h
  rw [validHandle_eq] at h
  cases hplace : Registry.place p.registry handle with
  | none =>
    rw [hplace] at h
    cases h
  | some i =>
    rw [hplace] at h
    dsimp only at h
    have hu := (Registry.place_eq_some.1 hplace).2
    rw [registry_isSome] at hu
    split at h
    · cases h
    · split at h
      · cases h
      · generalize hr : op (p.slots i).tag p.msg p.tcp p.session.handle (some (p.slots i).name)
          (p.slots i).elemCount = r at h
        obtain ⟨st, tag, msg⟩ := r
        simp only [Prod.mk.injEq] at h
        obtain ⟨rfl, rfl⟩ := h
        refine ⟨i, tag, rfl, ?_, hr⟩
        unfold registry
        rw [if_pos hu]

end PlcClient

namespace World

/-- The other calls leave the registry alone. -/
theorem registry_called {p p' : PlcClient n} {op : Op} {events : List (Event n)} (hc : Called p op p' events)
    (hcreate : ∀ name elementCount, op ≠ .createTag name elementCount)
    (hdestroy : ∀ handle, op ≠ .destroyTag handle) :
    p'.registry = p.registry := by
  cases hc with
  | linked hop => exact PlcClient.registry_sameTags (hop.sameTags p)
  | registered set => rfl
  | created => exact absurd rfl (hcreate _ _)
  | destroyed => exact absurd rfl (hdestroy _)
  | started => exact PlcClient.registry_setTag _ rfl rfl rfl
  | aborted => exact PlcClient.registry_setTag _ rfl rfl rfl
  | edited => exact PlcClient.registry_setTag _ rfl rfl rfl
  | refused => rfl

/-- A call does to the registry what it does to the pool. -/
theorem registry_call (p : PlcClient n) (op : Op) : (p.call op).2.registry = Registry.act p.registry (.call op) := by
  cases op with
  | createTag name elementCount => exact (p.createTag_registry name elementCount).2
  | destroyTag handle => exact (p.destroyTag_registry handle).2
  | _ => exact registry_called (call_cases p _) nofun nofun

theorem registry_step {w w' : World n} {a : Act} (hs : step w a = some w') :
    w'.plc.registry = Registry.act w.plc.registry a := by
  cases a with
  | deliver bs =>
    obtain rfl := Option.some.inj hs
    rfl
  | call op =>
    obtain ⟨-, rfl⟩ := step_call hs
    exact registry_call w.plc op
  | poll os =>
    obtain ⟨-, rfl⟩ := step_poll hs
    exact PlcClient.registry_sameTags (w.poll_sameTags os)
  | iter os =>
    obtain ⟨f, fs, hf, -, hiter⟩ := step_iterated hs
    cases hiter with
    | turned st p inUse turned =>
      show p.registry = w.plc.registry
      cases turned with
      | rest => exact w.plc.registry_setTag rfl rfl rfl
      | inFlight => exact PlcClient.registry_setTag _ rfl rfl rfl
    | skipped => rfl
  | leave =>
    obtain ⟨f, fs, -, -, rfl⟩ := step_leave hs
    exact PlcClient.registry_sameTags (w.leave_sameTags f fs)

theorem registry_run {w₀ w : World n} {as : List Act} (h : Run step always w₀ as w) :
    w.plc.registry = as.foldl Registry.act w₀.plc.registry := by
  induction h with
  | nil s => rfl
  | cons allowed taken rest ih => rw [ih, registry_step taken, List.foldl_cons]

/-- After every run, callbacks and reconnections included, the slots hold what the pool holds after the same calls of
`createTag()` and `destroyTag()`.  The client answers about handles as the pool does, its tags are those created and
not destroyed, and a read or a write asks for what the sketch gave for its handle. -/
theorem registry_kept {w₀ w : World n} {as : List Act} (h0 : Initial w₀) (h : Run step always w₀ as w) :
    w.plc.registry = as.foldl Registry.act Pool.empty ∧
      (w.plc.tagCount : Int) = Registry.balance (Pool.empty : Places n NamedTag) as ∧ w.plc.tagCount ≤ n ∧
      (∀ name elementCount, (w.plc.createTag name elementCount).1 =
        (Registry.create w.plc.registry name elementCount).1) ∧
      (∀ handle, (w.plc.destroyTag handle).1 = (Registry.destroy w.plc.registry handle).1) ∧
      (∀ handle, w.plc.tagStatus handle = .invalidArg ↔ Registry.place w.plc.registry handle = none) ∧
      (∀ handle timeoutMs now p, w.plc.read handle timeoutMs now = (.pending, p) →
        ∃ i request, Registry.place w.plc.registry handle = some i ∧ w.plc.registry i = some request ∧
          decodeRequest (p.msg.tx.take p.msg.txLen) =
            some ⟨TagService.read.code, request.name, request.elemCount.toNat % 65536, none, []⟩) ∧
      ∀ handle timeoutMs now p, w.plc.write handle timeoutMs now = (.pending, p) →
        ∃ i request, Registry.place w.plc.registry handle = some i ∧ w.plc.registry i = some request ∧
          decodeRequest (p.msg.tx.take p.msg.txLen) =
            some ⟨TagService.write.code, request.name, request.elemCount.toNat % 65536,
              some (w.plc.slots i).tag.dataType.toNat,
              (w.plc.slots i).tag.data.bytes.take ((w.plc.slots i).tag.valueLength request.elemCount)⟩ := by
  have hempty : w₀.plc.registry = Pool.empty := by
    funext i
    have hslot := h0.fresh.slots i
    unfold PlcClient.registry
    rw [hslot]
    rfl
  have hrun := registry_run h
  rw [hempty] at hrun
  refine ⟨hrun, ?_, ?_, fun name elementCount => (w.plc.createTag_registry name elementCount).1,
    fun handle => (w.plc.destroyTag_registry handle).1, fun handle => ?_, fun handle timeoutMs now p hread => ?_,
    fun handle timeoutMs now p hwrite => ?_⟩
  · have hcount := Registry.count_balance (Pool.empty : Places n NamedTag) as
    rw [← hrun, Pool.count_empty] at hcount
    rw [PlcClient.tagCount_eq, hcount]
    omega
  · rw [PlcClient.tagCount_eq]
    exact Pool.count_le _
  · rw [← PlcClient.validHandle_eq]
    unfold PlcClient.tagStatus
    cases w.plc.validHandle handle with
    | none => simp
    | some i =>
      simp only [reduceCtorEq, iff_false]
      unfold Tag.status
      cases (w.plc.slots i).tag.state <;> nofun
  · obtain ⟨i, tag, hplace, hslot, hstart⟩ := PlcClient.startTag_pending hread
    exact ⟨i, _, hplace, hslot, Tag.read_decodes hstart⟩
  · obtain ⟨i, tag, hplace, hslot, hstart⟩ := PlcClient.startTag_pending hwrite
    exact ⟨i, _, hplace, hslot, (Tag.write_decodes hstart).2⟩

/-- The pool is full, and the connection is lost while slot 0 is read: the callback destroys the tag and gives its
slot away. -/
def replaced : List Act :=
  bringUp 7 ++ [.call (.createTag (some [65]) 1), .call (.createTag (some [66]) 2), .call (.createTag (some [67]) 3),
    .call (.read 0 1000 10)] ++ wholePoll 2 { millis := fun _ => 20 } ++
    [.poll (resetAt 30), .iter (resetAt 30), .call (.destroyTag 0), .call (.destroyTag 0),
      .call (.createTag (some [68]) 4), .iter (resetAt 30), .leave, .call (.destroyTag 1)]

theorem registry_kept_replaced :
    (∀ i, (reached 2 replaced).plc.registry i = if i = 0 then some ⟨[68], 4⟩ else none) ∧
      (reached 2 replaced).plc.tagCount = 1 := by
  have hrun : Run step always (fresh 2) replaced (reached 2 replaced) := run_reached (by decide +kernel)
  obtain ⟨hregistry, hcount, -⟩ := registry_kept (fresh_initial 2) hrun
  constructor
  · rw [hregistry]
    decide +kernel
  · have hbalance : Registry.balance (Pool.empty : Places 2 NamedTag) replaced = 1 := by decide +kernel
    rw [hbalance] at hcount
    omega

end World

end ControlLogix
