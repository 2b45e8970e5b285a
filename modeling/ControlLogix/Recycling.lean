import ControlLogix.Callbacks

/-!
# Recycled handles

`destroyTag()` clears `inUse_` only and `createTag()` writes the name, the element count and the previous status, so
the `Tag` in the slot, with its state, data, type and result code, goes from the destroyed tag to the new one.

* `quiet_of_rest`: a tag at rest stays at rest until it is read or written, and no callback is made for it;
* `untyped_kept`: a tag without a type stays without one until it is read or its type is set;
* `own_request`: a tag that was at rest when it was created has the message carry requests for its own name only.
-/

namespace ControlLogix

open Transition

variable {n : Nat}

/-- The message carries a request for `name`, under its own sender context. -/
def RequestFor (name : List UInt8) (m : ExplicitMessage) : Prop :=
  ∃ session service data, m.tx = ExplicitMessage.requestFrame session m.sentContext service (appendSymbolic name) data

namespace World

/-- The action is not a `read()` or `write()` of slot `i`. -/
def Unused (i : Fin n) (_ : World n) : Act → Prop
  | .call (.read handle _ _) | .call (.write handle _ _) => handle ≠ i.val
  | _ => True

/-- The action does not read slot `i`, set its type or free it. -/
def Untyped (i : Fin n) (_ : World n) : Act → Prop
  | .call (.read handle _ _) | .call (.editTag handle (.setDataType _)) | .call (.destroyTag handle) => handle ≠ i.val
  | _ => True

/-- The action does not free slot `i`. -/
def Kept (i : Fin n) (_ : World n) : Act → Prop
  | .call (.destroyTag handle) => handle ≠ i.val
  | _ => True

/-! ### A tag at rest -/

/-- A turn calls the tag callback for its own slot, with the status of the tag. -/
theorem tagCallback_turn {p p' : PlcClient n} {i j : Fin n} {st st' : Status} {serial : Nat} {called : Bool}
    (h : Event.tagCallback j st' ∈ iterEvents p i st p' serial ++ if called then [.tagCallback i st] else []) :
    called = true ∧ j = i ∧ st' = st := by
  rcases List.mem_append.1 h with h | h
  · exfalso
    unfold iterEvents at h
    dsimp only at h
    split at h <;> split at h <;> simp at h
  · split at h
    · rename_i hc
      rw [List.mem_singleton, Event.tagCallback.injEq] at h
      exact ⟨hc, h.1, h.2⟩
    · cases h

/-- Callbacks are about operations in flight. -/
theorem step_callback {w w' : World n} {a : Act} (hw : Watching w.plc w.log) (h : step w a = some w') :
    ∃ es, w'.log = w.log ++ es ∧ ∀ i st, Event.tagCallback i st ∈ es → (w.plc.slots i).tag.InFlight := by
  cases a with
  | deliver bs =>
    obtain rfl := Option.some.inj h
    exact ⟨[], (List.append_nil _).symm, nofun⟩
  | call op =>
    obtain ⟨-, rfl⟩ := step_call h
    refine ⟨_, rfl, fun i st hmem => ?_⟩
    have hc := call_cases w.plc op
    generalize (w.plc.call op).2 = p' at hc
    generalize callEvents w.plc op = events at hc hmem
    cases hc <;> simp at hmem
  | poll os =>
    obtain ⟨-, rfl⟩ := step_poll h
    unfold World.poll
    split
    · exact ⟨[], (List.append_nil _).symm, nofun⟩
    · rename_i st p called hp
      refine ⟨_, List.append_assoc _ _ _, fun i st' hmem => ?_⟩
      rcases List.mem_append.1 hmem with hmem | hmem
      · split at hmem <;> simp at hmem
      · simp at hmem
  | iter os =>
    obtain ⟨f, fs, hf, -, hiter⟩ := step_iterated h
    cases hiter with
    | turned st p hu ht =>
      refine ⟨_, List.append_assoc _ _ _, fun i st' hmem => ?_⟩
      obtain ⟨hc, rfl, -⟩ := tagCallback_turn hmem
      exact calls_only_inFlight hw hu hc
    | skipped => exact ⟨[], (List.append_nil _).symm, nofun⟩
  | leave =>
    obtain ⟨f, fs, -, -, rfl⟩ := step_leave h
    refine ⟨_, rfl, fun i st hmem => ?_⟩
    simp at hmem

/-- Only the slot that is read or written is put in flight. -/
theorem step_inFlight {w w' : World n} {a : Act} {i : Fin n} (hok : Unused i w a) (h : step w a = some w')
    (hin : (w'.plc.slots i).tag.InFlight) : (w.plc.slots i).tag.InFlight := by
  by_cases htag : (w'.plc.slots i).tag = (w.plc.slots i).tag
  · rwa [htag] at hin
  · rcases step_tag h htag with ⟨op, rfl, -⟩ | ⟨-, hold⟩
    · obtain ⟨-, rfl⟩ := step_call h
      have hc := call_cases w.plc op
      rcases called_inFlight hc hin with hold | ⟨sock, deadline, hstart⟩
      · exact hold
      · generalize (w.plc.call op).2 = p' at hc
        generalize callEvents w.plc op = events at hc hstart
        cases hc with
        | @started op j timeoutMs now tag msg hop inUse ready free started =>
          obtain ⟨rfl, -⟩ := Event.started.inj (List.mem_singleton.1 hstart)
          rcases hop with rfl | rfl
          · exact absurd rfl hok
          · exact absurd rfl hok
        | created => cases List.mem_singleton.1 hstart
        | _ => cases hstart
    · exact hold

/-- A tag at rest stays at rest until it is read or written, and no callback is made for it. -/
theorem quiet_of_rest {w : World n} (hw : Watching w.plc w.log) {i : Fin n} (hr : ¬ (w.plc.slots i).tag.InFlight)
    {as : List Act} {w' : World n} (hrun : Run step (Unused i) w as w') :
    ¬ (w'.plc.slots i).tag.InFlight ∧ ∃ es, w'.log = w.log ++ es ∧ ∀ st, .tagCallback i st ∉ es := by
  refine (hrun.invariant (I := fun v => Watching v.plc v.log ∧ ¬ (v.plc.slots i).tag.InFlight ∧
    ∃ es, v.log = w.log ++ es ∧ ∀ st, .tagCallback i st ∉ es) (fun v a v' hv hok hs => ?_)
    ⟨hw, hr, [], (List.append_nil _).symm, fun _ h => absurd h List.not_mem_nil⟩).2
  obtain ⟨hv, hrest, es, hes, hno⟩ := hv
  obtain ⟨es', hes', hcb⟩ := step_callback hv hs
  refine ⟨watching_step hv hs, fun hin => hrest (step_inFlight hok hs hin), es ++ es', ?_, fun st hmem => ?_⟩
  · rw [hes', hes, List.append_assoc]
  · rcases List.mem_append.1 hmem with hmem | hmem
    · exact hno st hmem
    · exact hrest (hcb i st hmem)

/-! ### Whose request the message carries -/

/-- Slot `i` holds the tag `name`, and the message carries a request for it when the slot is in flight. -/
private structure Owns (i : Fin n) (name : List UInt8) (p : PlcClient n) : Prop where
  inUse : (p.slots i).inUse = true
  named : (p.slots i).name = name
  request : (p.slots i).tag.InFlight → RequestFor name p.msg

private theorem Owns.of_sameTags {i : Fin n} {name : List UInt8} {p p' : PlcClient n} (h : Owns i name p)
    (hs : PlcClient.SameTags p p') : Owns i name p' := by
  obtain ⟨h1, h2, h3⟩ := h
  rw [← hs.slots] at h1 h2 h3
  rw [← hs.msg] at h3
  exact ⟨h1, h2, h3⟩

/-- Another slot is rewritten, and the message stays as it is while slot `i` is in flight. -/
private theorem Owns.setSlot {i : Fin n} {name : List UInt8} {p : PlcClient n} (h : Owns i name p) {j : Fin n}
    {s : Slot} {m : ExplicitMessage} {tcp : TcpConnection} (hij : i ≠ j)
    (hm : (p.slots i).tag.InFlight → m = p.msg) : Owns i name ({ p with msg := m, tcp := tcp }.setSlot j s) := by
  refine ⟨?_, ?_, fun hin => ?_⟩
  · rw [PlcClient.setSlot_of_ne _ _ hij]
    exact h.inUse
  · rw [PlcClient.setSlot_of_ne _ _ hij]
    exact h.named
  · rw [PlcClient.setSlot_of_ne _ _ hij] at hin
    change RequestFor name m
    rw [hm hin]
    exact h.request hin

/-- Slot `i` is rewritten, keeping its name. -/
private theorem Owns.rewrite {i : Fin n} {name : List UInt8} {p : PlcClient n} (h : Owns i name p) {s : Slot}
    {m : ExplicitMessage} {tcp : TcpConnection} (hs : s.inUse = (p.slots i).inUse ∧ s.name = (p.slots i).name)
    (hm : s.tag.InFlight → RequestFor name m) : Owns i name ({ p with msg := m, tcp := tcp }.setSlot i s) := by
  refine ⟨?_, ?_, fun hin => ?_⟩
  · rw [PlcClient.setSlot_self, hs.1]
    exact h.inUse
  · rw [PlcClient.setSlot_self, hs.2]
    exact h.named
  · rw [PlcClient.setSlot_self] at hin
    exact hm hin

/-- A started operation puts a request for the name of its tag into the message. -/
theorem Started.requestFor {t t' : Tag} {msg msg' : ExplicitMessage} {conn : TcpConnection} {session : UInt32}
    {name : List UInt8} {timeoutMs now : UInt32} (h : Tag.Started t msg conn session name timeoutMs now t' msg') :
    RequestFor name msg' := by
  obtain ⟨service, data, -, hs⟩ := h.sent
  refine ⟨session, service, data, ?_⟩
  rw [hs.tx, hs.sentContext]
  simp

private theorem owns_called {i : Fin n} {name : List UInt8} {p p' : PlcClient n} {op : Op} {events : List (Event n)}
    (hco : Coupled p) (h : Owns i name p) (hc : Called p op p' events) (hok : op ≠ .destroyTag i.val) :
    Owns i name p' := by
  cases hc with
  | linked hop => exact h.of_sameTags (hop.sameTags p)
  | registered set => exact ⟨h.inUse, h.named, h.request⟩
  | @created name' elementCount j free bounded =>
    refine h.setSlot (fun e => ?_) fun _ => rfl
    rw [← e, h.inUse] at free
    cases free
  | @destroyed j inUse =>
    refine h.setSlot (fun e => ?_) fun _ => rfl
    exact hok (by rw [e])
  | @started op j timeoutMs now tag msg hop inUse ready free started =>
    by_cases hij : i = j
    · subst hij
      refine h.rewrite ⟨rfl, rfl⟩ fun _ => ?_
      rw [← h.named]
      exact Started.requestFor started
    · refine h.setSlot hij fun hin => ?_
      obtain ⟨service, data, -, hs⟩ := started.sent
      exact absurd (hco.used i hin) hs.free
  | @aborted j inUse =>
    by_cases hij : i = j
    · subst hij
      refine h.rewrite ⟨rfl, rfl⟩ fun hin => ?_
      simp [Tag.InFlight] at hin
    · refine h.setSlot hij fun hin => Tag.abort_rest (fun hj => hij ?_) _
      exact hco.single i j hin hj
  | @edited j e inUse =>
    by_cases hij : i = j
    · subst hij
      exact h.rewrite ⟨rfl, rfl⟩ fun hin => h.request ((PlcClient.edit_inFlight e _).1 hin)
    · exact h.setSlot hij fun _ => rfl
  | refused hop => exact h

private theorem owns_turned {i j : Fin n} {name : List UInt8} {p p' : PlcClient n} {os : Platform} {st : Status}
    (hco : Coupled p) (h : Owns i name p) (ht : PlcClient.Turned p j os st p') : Owns i name p' := by
  cases ht with
  | rest hr =>
    by_cases hij : i = j
    · subst hij
      exact h.rewrite ⟨rfl, rfl⟩ h.request
    · exact h.setSlot hij fun _ => rfl
  | @inFlight mst st tag msg tcp hin polled advanced =>
    by_cases hij : i = j
    · subst hij
      have hm := hco.used i hin
      obtain ⟨inp, hp⟩ := ExplicitMessage.poll_spec hm (hco.framed hm) polled
      refine h.rewrite ⟨rfl, rfl⟩ fun _ => ?_
      obtain ⟨session, service, data, hreq⟩ := h.request hin
      refine ⟨session, service, data, ?_⟩
      rw [hp.moved.tx.1, hp.contexts.2]
      exact hreq
    · exact h.setSlot hij fun hi => absurd (hco.single i j hi hin) hij

private theorem owns_step {i : Fin n} {name : List UInt8} {w w' : World n} {a : Act} (hco : Coupled w.plc)
    (h : Owns i name w.plc) (hok : Kept i w a) (hs : step w a = some w') : Owns i name w'.plc := by
  cases a with
  | deliver bs =>
    obtain rfl := Option.some.inj hs
    exact ⟨h.inUse, h.named, h.request⟩
  | call op =>
    obtain ⟨-, rfl⟩ := step_call hs
    refine owns_called hco h (call_cases w.plc op) ?_
    rintro rfl
    exact hok rfl
  | poll os =>
    obtain ⟨-, rfl⟩ := step_poll hs
    exact h.of_sameTags (w.poll_sameTags os)
  | iter os =>
    obtain ⟨f, fs, hf, -, hiter⟩ := step_iterated hs
    cases hiter with
    | turned st p hu ht =>
      exact owns_turned hco h ht
    | skipped => exact h
  | leave =>
    obtain ⟨f, fs, -, -, rfl⟩ := step_leave hs
    exact h.of_sameTags (w.leave_sameTags f fs)

end World

/-- An accepted response echoes the context it was matched with. -/
theorem ExplicitMessage.parse_context {rx : List UInt8} {rxLen : Nat} {ctx : UInt64} {r : ExplicitMessage.Response}
    (h : ExplicitMessage.parse rx rxLen ctx = some r) : (decodeHeader rx).context = ctx := by
  unfold ExplicitMessage.parse at h
  dsimp only at h
  split at h
  · cases h
  · split at h
    · cases h
    · rename_i hctx
      exact Classical.not_not.1 hctx

namespace World

/-- Only a message that ends `Ok` completes a tag. -/
theorem advanced_done {t t' : Tag} {mst st : Status} {msg : ExplicitMessage} (h : Tag.Advanced t mst msg st t')
    (hin : t.InFlight) (hd : t'.state = .done) : mst = .ok := by
  cases h with
  | pending h => rcases hin with e | e <;> rw [e] at hd <;> cases hd
  | broke h => cases hd
  | refused h => exact h
  | done h => exact h

/-- A result is delivered from a reply that echoes the context of the request in the message. -/
theorem turned_done {p p' : PlcClient n} {i : Fin n} {os : Platform} {st : Status} (hco : Coupled p)
    (hin : (p.slots i).tag.InFlight) (ht : PlcClient.Turned p i os st p') (hd : (p'.slots i).tag.state = .done) :
    (decodeHeader p'.msg.rx).context = p.msg.sentContext := by
  cases ht with
  | rest hr => exact absurd hin hr
  | @inFlight mst st tag msg tcp _ polled advanced =>
    have hm := hco.used i hin
    obtain ⟨inp, hp⟩ := ExplicitMessage.poll_spec hm (hco.framed hm) polled
    rw [PlcClient.setSlot_self] at hd
    obtain ⟨-, -, r, hparse, -⟩ := hp.parsed (advanced_done advanced hin hd)
    rw [← hp.contexts.2]
    exact ExplicitMessage.parse_context hparse

/-! ### A tag without a type -/

/-- `write()` of a tag without a type is refused. -/
theorem write_untyped {p : PlcClient n} {i : Fin n} (hu : (p.slots i).inUse = true)
    (hname : (p.slots i).name.length ≤ kMaxSymbolicName) (htype : (p.slots i).tag.dataType = 0)
    (timeoutMs now : UInt32) : p.write i.val timeoutMs now = (.notReady, p) ∨
      p.anyTagBusy = true ∧ p.write i.val timeoutMs now = (.busy, p) := by
  have hlong : ¬ (p.slots i).name.length > kMaxSymbolicName := by omega
  rw [PlcClient.write, PlcClient.startTag, PlcClient.validHandle_of_inUse hu]
  dsimp only
  split
  · exact Or.inl rfl
  · split
    · rename_i hbusy
      exact Or.inr ⟨hbusy, rfl⟩
    · left
      simp [Tag.write, hlong, htype, PlcClient.setSlot]

/-- Slot `i` holds the tag `name`, which is at rest and has no type. -/
private structure Typeless (i : Fin n) (name : List UInt8) (p : PlcClient n) : Prop where
  owns : Owns i name p
  rest : ¬ (p.slots i).tag.InFlight
  dataType : (p.slots i).tag.dataType = 0

/-- A call that does not give the tag a type. -/
private theorem typeless_call {w : World n} {i : Fin n} {name : List UInt8} (h : Typeless i name w.plc)
    (hlong : name.length ≤ kMaxSymbolicName) {op : Op} (hok : Untyped i w (.call op)) (hop : op.handle = some i.val) :
    ¬ ((w.plc.call op).2.slots i).tag.InFlight ∧ ((w.plc.call op).2.slots i).tag.dataType = 0 := by
  have hv := PlcClient.validHandle_of_inUse h.owns.inUse
  cases op with
  | read handle timeoutMs now => exact absurd (Option.some.inj hop) hok
  | destroyTag handle => exact absurd (Option.some.inj hop) hok
  | write handle timeoutMs now =>
    obtain rfl := Option.some.inj hop
    have hsame : (w.plc.write i.val timeoutMs now).2 = w.plc := by
      rcases write_untyped h.owns.inUse (h.owns.named ▸ hlong) h.dataType timeoutMs now with hw | ⟨-, hw⟩ <;> rw [hw]
    change ¬ ((w.plc.write i.val timeoutMs now).2.slots i).tag.InFlight ∧
      ((w.plc.write i.val timeoutMs now).2.slots i).tag.dataType = 0
    rw [hsame]
    exact ⟨h.rest, h.dataType⟩
  | abortTag handle =>
    obtain rfl := Option.some.inj hop
    simp only [PlcClient.call, PlcClient.abortTag, hv, PlcClient.setSlot_self, Tag.abort_fst]
    exact ⟨by simp [Tag.InFlight], h.dataType⟩
  | editTag handle e =>
    obtain rfl := Option.some.inj hop
    have hne : ∀ type, e ≠ .setDataType type := by
      rintro type rfl
      exact hok rfl
    simp only [PlcClient.call, PlcClient.editTag, hv, PlcClient.setSlot_self]
    exact ⟨fun hin => h.rest ((PlcClient.edit_inFlight e _).1 hin), (PlcClient.edit_dataType hne _).trans h.dataType⟩
  | _ => cases hop

private theorem typeless_step {w w' : World n} {a : Act} {i : Fin n} {name : List UInt8} (hco : Coupled w.plc)
    (h : Typeless i name w.plc) (hlong : name.length ≤ kMaxSymbolicName) (hok : Untyped i w a)
    (hs : step w a = some w') : Typeless i name w'.plc := by
  have hkept : Kept i w a := by
    cases a with
    | call op =>
      cases op with
      | destroyTag handle => exact hok
      | _ => trivial
    | _ => trivial
  have howns := owns_step hco h.owns hkept hs
  by_cases hne : (w'.plc.slots i).tag = (w.plc.slots i).tag
  · refine ⟨howns, ?_, ?_⟩ <;> rw [hne]
    · exact h.rest
    · exact h.dataType
  · rcases step_tag hs hne with ⟨op, rfl, hop⟩ | ⟨-, hin⟩
    · obtain ⟨-, rfl⟩ := step_call hs
      obtain ⟨hrest, htype⟩ := typeless_call h hlong hok hop
      exact ⟨howns, hrest, htype⟩
    · exact absurd hin h.rest

/-- A tag without a type stays so until it is read or its type is set. -/
theorem untyped_kept {w : World n} (hco : Coupled w.plc) {i : Fin n} (hu : (w.plc.slots i).inUse = true)
    (hr : ¬ (w.plc.slots i).tag.InFlight) (htype : (w.plc.slots i).tag.dataType = 0)
    (hlong : (w.plc.slots i).name.length ≤ kMaxSymbolicName) {as : List Act} {w' : World n}
    (hrun : Run step (Untyped i) w as w') : (w'.plc.slots i).tag.dataType = 0 ∧ (w'.plc.slots i).inUse = true ∧
      (w'.plc.slots i).name = (w.plc.slots i).name := by
  obtain ⟨-, howns, -, hzero⟩ := hrun.invariant (I := fun v => Coupled v.plc ∧ Typeless i (w.plc.slots i).name v.plc)
    (fun v a v' hv hok hs => ⟨coupled_step hv.1 hs, typeless_step hv.1 hv.2 hlong hok hs⟩)
    ⟨hco, ⟨hu, rfl, fun hin => absurd hin hr⟩, hr, htype⟩
  exact ⟨hzero, howns.inUse, howns.named⟩

/-- A tag at rest when it was created has the message carry requests for its own name. -/
theorem own_request {w : World n} (hco : Coupled w.plc) {i : Fin n} {name : List UInt8}
    (hu : (w.plc.slots i).inUse = true) (hn : (w.plc.slots i).name = name) (hr : ¬ (w.plc.slots i).tag.InFlight)
    {as : List Act} {w' w'' : World n} {os : Platform} (hrun : Run step (Kept i) w as w')
    (hs : step w' (.iter os) = some w'') (hne : (w''.plc.slots i).tag ≠ (w'.plc.slots i).tag) :
    RequestFor name w'.plc.msg ∧
      ((w''.plc.slots i).tag.state = .done → (decodeHeader w''.plc.msg.rx).context = w'.plc.msg.sentContext) := by
  have h0 : Coupled w.plc ∧ Owns i name w.plc := ⟨hco, hu, hn, fun hin => absurd hin hr⟩
  obtain ⟨hco', howns⟩ := hrun.invariant (I := fun v => Coupled v.plc ∧ Owns i name v.plc)
    (fun v a v' hv hok hst => ⟨coupled_step hv.1 hst, owns_step hv.1 hv.2 hok hst⟩) h0
  obtain ⟨f, fs, hf, -, hiter⟩ := step_iterated hs
  cases hiter with
  | turned st p hus ht =>
    obtain ⟨rfl, hin⟩ := turned_tag ht hne
    exact ⟨howns.request hin, turned_done hco' hin ht⟩
  | skipped => exact absurd rfl hne

end World

end ControlLogix
