import ControlLogix.Requests

/-!
# Requests and TCP connections

A request is built for the session of one TCP connection, while the shared message that holds it outlives connections.
The loop of `poll()` hands the message whatever connection there is.

* `OwnConnection`: every byte of a request is written on the connection its session was registered on, after the first
  byte of the request;
* `own_connection`: a run keeps to that as long as no turn of the loop advances an operation started on another
  connection (`Home`);
* `crossed`: a request left unsent at `connect()` is written to the new connection with the old session handle.
-/

namespace ControlLogix

open Transition

variable {n : Nat}

namespace World

/-! ### What is asked of the history -/

/-- The frame of every request byte names the session registered on the connection the byte was written to, and the
first byte of the frame was written to that connection, too. -/
def OwnConnection (log : List (Event n)) : Prop :=
  ∀ sock serial frame off bytes, Event.wrote sock serial frame off bytes ∈ log →
    Event.registered sock (decodeHeader frame).session ∈ log ∧
      ∃ first, first ≠ [] ∧ Event.wrote sock serial frame 0 first ∈ log

/-- The TCP connection the last accepted operation was started on. -/
def startSock (log : List (Event n)) : Option Nat := (lastStart log).map fun s => s.2.1

/-- The slot whose operation the next turn of the loop advances. -/
def advancing (w : World n) : Option (Fin n) :=
  match w.polls with
  | [] => none
  | f :: _ =>
    if h : f.next < n then
      if (w.plc.slots ⟨f.next, h⟩).inUse = true ∧ (w.plc.slots ⟨f.next, h⟩).tag.InFlight then some ⟨f.next, h⟩
      else none
    else none

/-- The turn does not advance an operation of another connection that has bytes to write, nor one that would read the
reply to RegisterSession. -/
def Home (w : World n) : Act → Prop
  | .iter os => w.advancing ≠ none → w.plc.tcp.Usable → expired (os.millis 0) w.plc.msg.deadline = false →
      w.plc.msg.txSent < w.plc.msg.txLen ∨ w.plc.state = .registering → startSock w.log = some w.plc.tcp.sockets
  | _ => True

instance (w : World n) : (a : Act) → Decidable (Home w a)
  | .iter _ => inferInstanceAs (Decidable (_ → _ → _ → _ → _))
  | .deliver _ | .call _ | .poll _ | .leave => .isTrue trivial

/-! ### Parts of the history without a start -/

private theorem starts_zero {es : List (Event n)} (h : ∀ e ∈ es, ∀ i sock deadline, e ≠ .started i sock deadline) :
    starts es = 0 := by
  refine List.countP_eq_zero.2 fun e he => ?_
  have hne := h e he
  cases e with
  | started i sock deadline => exact absurd rfl (hne i sock deadline)
  | _ => simp

/-- `es` starts nothing, so that the operations are numbered and recorded as before. -/
structure Unstarted (log es : List (Event n)) : Prop where
  sock : startSock (log ++ es) = startSock log
  serial : starts (log ++ es) = starts log

theorem unstarted (log : List (Event n)) {es : List (Event n)}
    (h : ∀ e ∈ es, ∀ i sock deadline, e ≠ .started i sock deadline) : Unstarted log es := by
  have h0 := starts_zero h
  refine ⟨?_, ?_⟩
  · rw [startSock, lastStart_of_starts h0]
    rfl
  · rw [starts_append, h0, Nat.add_zero]

/-- The events of a step that concerns the connection. -/
theorem mem_link {p p' : PlcClient n} {es : List (Event n)} (hes : ∀ e ∈ es, ∃ st, e = .stateCallback st)
    {e : Event n} (he : e ∈ registration p p' ++ es) :
    (∃ sock handle, e = .registered sock handle) ∨ ∃ st, e = .stateCallback st := by
  rcases List.mem_append.1 he with he | he
  · unfold registration at he
    split at he
    · exact Or.inl ⟨_, _, List.mem_singleton.1 he⟩
    · cases he
  · exact Or.inr (hes e he)

theorem unstarted_link {p p' : PlcClient n} {es : List (Event n)} (log : List (Event n))
    (hes : ∀ e ∈ es, ∃ st, e = .stateCallback st) : Unstarted log (registration p p' ++ es) := by
  refine unstarted log fun e he i sock deadline hstart => ?_
  rcases mem_link hes he with ⟨_, _, rfl⟩ | ⟨_, rfl⟩ <;> cases hstart

/-- A connection at or before the present one stays so. -/
theorem behind_link {p p' : PlcClient n} {o : Option Nat} (hr : Relinked p p')
    (h : ∀ k, o = some k → k ≤ p.tcp.sockets) (k : Nat) (hk : o = some k) : k ≤ p'.tcp.sockets := by
  have hle := h k hk
  cases hr.rejoined with
  | dialled sockets => omega
  | same inp sockets => omega

/-- Before the session of a connection is registered, earlier connections stay so. -/
theorem early_link {p p' : PlcClient n} {o : Option Nat} (hr : Relinked p p')
    (hbehind : ∀ k, o = some k → k ≤ p.tcp.sockets)
    (h : p.Joining → ∀ k, o = some k → k < p.tcp.sockets) (hj : p'.Joining) (k : Nat) (hk : o = some k) :
    k < p'.tcp.sockets := by
  cases hr.rejoined with
  | dialled sockets =>
    have hle := hbehind k hk
    omega
  | same inp sockets recvd inbox joining =>
    have hlt := h (joining hj) k hk
    omega

/-! ### The invariant -/

structure Homed (p : PlcClient n) (log : List (Event n)) : Prop where
  behind : ∀ k, startSock log = some k → k ≤ p.tcp.sockets
  early : p.state = .connecting ∨ p.state = .registering → ∀ k, startSock log = some k → k < p.tcp.sockets
  heard : p.state = .registering → p.session.Exchanging → p.tcp.sock.recvd = p.session.rx.take p.session.rxLen
  ready : p.state = .ready → Event.registered p.tcp.sockets p.session.handle ∈ log
  built : p.msg.InFlight → ∃ k, startSock log = some k ∧ Event.registered k (decodeHeader p.msg.tx).session ∈ log ∧
    (p.msg.txSent ≠ 0 → ∃ first, first ≠ [] ∧ Event.wrote k (starts log) p.msg.tx 0 first ∈ log)
  own : OwnConnection log

/-- A history that grows by something else than request bytes. -/
private theorem OwnConnection.grow {log es : List (Event n)} (h : OwnConnection log)
    (hes : ∀ e ∈ es, ∀ sock serial frame off bytes, e ≠ .wrote sock serial frame off bytes) :
    OwnConnection (log ++ es) := by
  intro sock serial frame off bytes hmem
  rcases List.mem_append.1 hmem with hold | hnew
  · obtain ⟨hreg, first, hne, hfirst⟩ := h sock serial frame off bytes hold
    exact ⟨List.mem_append_left _ hreg, first, hne, List.mem_append_left _ hfirst⟩
  · exact absurd rfl (hes _ hnew sock serial frame off bytes)

/-- What a message in flight was built for stays in the history. -/
private theorem built_grow {p : PlcClient n} {log es : List (Event n)} (h : Homed p log) (hes : Unstarted log es)
    (hin : p.msg.InFlight) : ∃ k, startSock (log ++ es) = some k ∧
      Event.registered k (decodeHeader p.msg.tx).session ∈ log ++ es ∧
      (p.msg.txSent ≠ 0 → ∃ first, first ≠ [] ∧ Event.wrote k (starts (log ++ es)) p.msg.tx 0 first ∈ log ++ es) := by
  obtain ⟨k, hk, hreg, hfirst⟩ := h.built hin
  refine ⟨k, hes.sock.trans hk, List.mem_append_left _ hreg, fun hsent => ?_⟩
  obtain ⟨first, hne, hw⟩ := hfirst hsent
  rw [hes.serial]
  exact ⟨first, hne, List.mem_append_left _ hw⟩

/-- A step that neither concerns the connection nor starts or advances an operation. -/
private theorem Homed.calm {p p' : PlcClient n} {log es : List (Event n)} (h : Homed p log) (hl : SameLink p p')
    (hm : p'.msg.InFlight → p'.msg = p.msg)
    (hes : ∀ e ∈ es, (∃ i, e = .created i) ∨ ∃ i st, e = .tagCallback i st) : Homed p' (log ++ es) := by
  have hun : Unstarted log es := by
    refine unstarted log fun e he i sock deadline hs => ?_
    rcases hes e he with ⟨_, rfl⟩ | ⟨_, _, rfl⟩ <;> cases hs
  refine ⟨?_, ?_, ?_, ?_, fun hin => ?_, ?_⟩
  · rw [hun.sock, hl.tcp]
    exact h.behind
  · rw [hun.sock, hl.tcp, hl.state]
    exact h.early
  · rw [hl.state, hl.session, hl.tcp]
    exact h.heard
  · rw [hl.state, hl.session, hl.tcp]
    exact fun hr => List.mem_append_left _ (h.ready hr)
  · have e := hm hin
    rw [e] at hin ⊢
    exact built_grow h hun hin
  · refine h.own.grow fun e he sock serial frame off bytes hw => ?_
    rcases hes e he with ⟨_, rfl⟩ | ⟨_, _, rfl⟩ <;> cases hw

private theorem homed_called {p p' : PlcClient n} {op : Op} {log es : List (Event n)} (h : Homed p log)
    (hop : ¬ op.Link) (hc : Called p op p' es) : Homed p' (log ++ es) := by
  have hnil : ∀ e ∈ ([] : List (Event n)), (∃ i, e = .created i) ∨ ∃ i st, e = .tagCallback i st :=
    fun e he => absurd he List.not_mem_nil
  rcases sameLink_called hc with ⟨hop', -⟩ | ⟨-, hl⟩
  · exact absurd hop' hop
  · cases hc with
    | linked hop' => exact absurd hop' hop
    | registered set => exact h.calm hl (fun _ => rfl) hnil
    | @created name elementCount i free bounded =>
      exact h.calm hl (fun _ => rfl) fun e he => Or.inl ⟨i, List.mem_singleton.1 he⟩
    | destroyed inUse => exact h.calm hl (fun _ => rfl) hnil
    | @started op i timeoutMs now tag msg hop' inUse ready free started =>
      obtain ⟨-, hzero, hsession⟩ := started_loaded started
      have hsock : startSock (log ++ [.started i p.tcp.sockets (now + timeoutMs)]) = some p.tcp.sockets := by
        rw [startSock, lastStart_append]
        rfl
      refine ⟨?_, ?_, ?_, fun _ => List.mem_append_left _ (h.ready ready), fun _ =>
        ⟨p.tcp.sockets, hsock, ?_, ?_⟩, ?_⟩
      · intro k hk
        rw [hsock, Option.some.injEq] at hk
        exact Nat.le_of_eq hk.symm
      · intro hearly
        change p.state = .connecting ∨ p.state = .registering at hearly
        rw [ready] at hearly
        rcases hearly with e | e <;> cases e
      · exact h.heard
      · -- the frame names the session of the connection at hand
        have hreg := h.ready ready
        rw [← hsession] at hreg
        exact List.mem_append_left _ hreg
      · intro hne
        exact absurd hzero hne
      · refine h.own.grow fun e he sock serial frame off bytes hw => ?_
        rw [List.mem_singleton.1 he] at hw
        cases hw
    | @aborted i inUse =>
      refine h.calm hl (fun hin => ?_) hnil
      by_cases hi : (p.slots i).tag.InFlight
      · change ((p.slots i).tag.abort p.msg).2.InFlight at hin
        rw [Tag.abort_inFlight hi] at hin
        exact absurd hin (ExplicitMessage.not_inFlight_abort _)
      · exact Tag.abort_rest hi _
    | edited inUse => exact h.calm hl (fun _ => rfl) hnil
    | refused hop' => exact h.calm hl (fun _ => rfl) hnil

/-- Registering the session reads the handle off the first bytes of the connection. -/
private theorem heard_handle {s s' : Session} {conn conn' : TcpConnection} {st : Status} {inp : List UInt8}
    (hh : conn.sock.recvd = s.rx.take s.rxLen) (hp : Session.Polled s conn st s' conn' inp) :
    conn'.sock.recvd = s'.rx.take s'.rxLen := by
  rw [hp.moved.transfer.recvd, hh, hp.moved.bytes]

private theorem registered_handle {s s' : Session} {conn conn' : TcpConnection} {inp : List UInt8}
    (hh : conn.sock.recvd = s.rx.take s.rxLen) (hs : s.state = .registering)
    (hp : Session.Polled s conn .ok s' conn' inp) : (decodeHeader conn'.sock.recvd).session = s'.handle := by
  rw [heard_handle hh hp]
  cases hp.outcome with
  | stays state handle status framed => exact absurd rfl status
  | fails state status => exact absurd rfl status.1
  | registers before state status handle whole written =>
    rw [handle]
    congr 1
    apply decodeHeader_congr
    rw [List.take_take, Nat.min_eq_left whole]
  | unregisters before state status handle =>
    rw [hs] at before
    cases before

/-- A step that concerns the connection, but for what it hears on the connection. -/
private theorem homed_link {p p' : PlcClient n} {log es : List (Event n)} (h : Homed p log) (hr : Relinked p p')
    (hs : PlcClient.SameTags p p') (hes : ∀ e ∈ es, ∃ st, e = .stateCallback st)
    (hheard : p'.state = .registering → p'.session.Exchanging →
      p'.tcp.sock.recvd = p'.session.rx.take p'.session.rxLen)
    (hready : p'.state = .ready → Event.registered p'.tcp.sockets p'.session.handle ∈ log ++ registration p p') :
    Homed p' (log ++ registration p p' ++ es) := by
  have hun : Unstarted log (registration p p' ++ es) := unstarted_link log hes
  refine ⟨?_, ?_, hheard, fun hr => List.mem_append_left _ (hready hr), ?_, ?_⟩
  · rw [List.append_assoc, hun.sock]
    exact behind_link hr h.behind
  · rw [List.append_assoc, hun.sock]
    exact early_link hr h.behind h.early
  · rw [List.append_assoc, hs.msg]
    exact built_grow h hun
  · rw [List.append_assoc]
    refine h.own.grow fun e he sock serial frame off bytes hw => ?_
    rcases mem_link hes he with ⟨_, _, rfl⟩ | ⟨_, rfl⟩ <;> cases hw

private theorem homed_relinked {p p' : PlcClient n} {log es : List (Event n)} (hst : Staged p) (h : Homed p log)
    (hr : Relinked p p') (hs : PlcClient.SameTags p p') (hes : ∀ e ∈ es, ∃ st, e = .stateCallback st) :
    Homed p' (log ++ registration p p' ++ es) := by
  have hlink := homed_link h hr hs hes
  cases hr with
  | kept tcp session state =>
    refine hlink ?_ ?_
    · rw [tcp, session]
      rcases state with e | e | e <;> rw [e]
      · exact h.heard
      · nofun
      · nofun
    · rw [tcp, session]
      rcases state with e | e | e <;> rw [e]
      · exact fun hready => List.mem_append_left _ (h.ready hready)
      · nofun
      · nofun
  | dialled tcp session state => refine hlink ?_ ?_ <;> rw [state] <;> nofun
  | dropped tcp session state => refine hlink ?_ ?_ <;> rcases state with e | e <;> rw [e] <;> nofun
  | waited before tcp pending session state => refine hlink ?_ ?_ <;> rw [state] <;> nofun
  | refused before tcp session state => refine hlink ?_ ?_ <;> rw [state] <;> nofun
  | opened before tcp session state =>
    refine hlink ?_ ?_
    · -- nothing has been read on a connection that was still being made
      intro _ _
      rw [tcp.sock, (hst.connecting before).2.2.2, session]
      rfl
    · rw [state]
      nofun
  | registers before exchanging polled state =>
    refine hlink (fun _ _ => heard_handle (h.heard before exchanging) polled) fun hready => ?_
    rcases state with ⟨rfl, -⟩ | ⟨-, e | e⟩
    · have hsession := hst.session_registering before exchanging
      have hhandle := registered_handle (h.heard before exchanging) hsession polled
      rw [registration, if_pos ⟨before, hready⟩, hhandle]
      exact List.mem_append_right _ (List.mem_singleton.2 rfl)
    · rw [e] at hready
      cases hready
    · rw [e] at hready
      cases hready
  | closing before tcp session state => refine hlink ?_ ?_ <;> rw [state] <;> nofun
  | unregisters before exchanging polled state =>
    rcases state with ⟨e, -⟩ | ⟨e, -⟩ <;> refine hlink ?_ ?_ <;> rw [e] <;> nofun

theorem advancing_inFlight {w : World n} {f : PollFrame} {fs : List PollFrame} {i : Fin n} (hp : w.polls = f :: fs)
    (hf : f.next = i.val) (hu : (w.plc.slots i).inUse = true) (hin : (w.plc.slots i).tag.InFlight) :
    w.advancing = some i := by
  have hlt : f.next < n := by
    rw [hf]
    exact i.isLt
  have hi : (⟨f.next, hlt⟩ : Fin n) = i := Fin.ext hf
  unfold advancing
  rw [hp]
  dsimp only
  rw [dif_pos hlt, hi, if_pos ⟨hu, hin⟩]

private theorem homed_turned {p p' : PlcClient n} {log es : List (Event n)} {i : Fin n} {os : Platform} {st : Status}
    {out inp : List UInt8} (hin : (p.slots i).tag.InFlight) (hm : p.msg.InFlight) (h : Homed p log)
    (hstate : p'.state = p.state) (hsession : p'.session = p.session) (hmv : Moves p p' os out inp)
    (hhome : p.tcp.Usable → expired (os.millis 0) p.msg.deadline = false →
      p.msg.txSent < p.msg.txLen ∨ p.state = .registering → startSock log = some p.tcp.sockets)
    (hes : ∀ e ∈ es, ∃ st, e = .tagCallback i st) : Homed p' (log ++ iterEvents p i st p' (starts log) ++ es) := by
  obtain ⟨k, hk, hreg, hfirst⟩ := h.built hm
  -- bytes go out on the connection the operation was started on
  have hwrites : out ≠ [] → k = p.tcp.sockets := by
    intro hout
    obtain ⟨hu, hd⟩ := hmv.live (Or.inl hout)
    have hpos : 0 < out.length := List.length_pos_iff.2 hout
    have hunsent : p.msg.txSent < p.msg.txLen := by
      have h1 := hmv.cursor
      have h2 := hmv.bound
      omega
    have hsock := hhome hu hd (Or.inl hunsent)
    rw [hk, Option.some.injEq] at hsock
    exact hsock
  have hevents := iterEvents_moves hin hmv st (starts log)
  rw [hevents]
  have hkind : ∀ e ∈ (if out = [] then [] else [Event.wrote p.tcp.sockets (starts log) p.msg.tx p.msg.txSent out]) ++
      [.advanced i st] ++ es,
      (out ≠ [] ∧ e = .wrote p.tcp.sockets (starts log) p.msg.tx p.msg.txSent out) ∨ e = .advanced i st ∨
        ∃ st, e = .tagCallback i st := by
    intro e he
    rcases List.mem_append.1 he with he | he
    · rcases List.mem_append.1 he with he | he
      · by_cases hout : out = []
        · rw [if_pos hout] at he
          cases he
        · rw [if_neg hout] at he
          exact Or.inl ⟨hout, List.mem_singleton.1 he⟩
      · exact Or.inr (Or.inl (List.mem_singleton.1 he))
    · exact Or.inr (Or.inr (hes e he))
  have hwrote : out ≠ [] → Event.wrote p.tcp.sockets (starts log) p.msg.tx p.msg.txSent out ∈
      log ++ ((if out = [] then [] else [Event.wrote p.tcp.sockets (starts log) p.msg.tx p.msg.txSent out]) ++
        [.advanced i st] ++ es) := by
    intro hout
    rw [if_neg hout]
    simp
  rw [List.append_assoc]
  generalize (if out = [] then [] else [Event.wrote p.tcp.sockets (starts log) p.msg.tx p.msg.txSent out]) ++
    [.advanced i st] ++ es = new at *
  have hun : Unstarted log new := by
    refine unstarted log fun e he j sock deadline hstart => ?_
    rcases hkind e he with ⟨-, rfl⟩ | rfl | ⟨_, rfl⟩ <;> cases hstart
  have hbegun : out ≠ [] ∨ p.msg.txSent ≠ 0 →
      ∃ first, first ≠ [] ∧ Event.wrote k (starts log) p.msg.tx 0 first ∈ log ++ new := by
    intro hsome
    by_cases hzero : p.msg.txSent = 0
    · have hout : out ≠ [] := hsome.resolve_right fun hne => hne hzero
      have hw := hwrote hout
      rw [hzero, ← hwrites hout] at hw
      exact ⟨out, hout, hw⟩
    · obtain ⟨first, hne, hw⟩ := hfirst hzero
      exact ⟨first, hne, List.mem_append_left _ hw⟩
  refine ⟨?_, ?_, ?_, ?_, fun _ => ⟨k, hun.sock.trans hk, ?_, fun hsent => ?_⟩, ?_⟩
  · rw [hun.sock, hmv.sockets]
    exact h.behind
  · rw [hun.sock, hmv.sockets, hstate]
    exact h.early
  · rw [hstate, hsession]
    intro hr hx
    have hinp : inp = [] := by
      by_contra hne
      obtain ⟨hu, hd⟩ := hmv.live (Or.inr hne)
      have hlt := h.early (Or.inr hr) _ (hhome hu hd (Or.inr hr))
      omega
    rw [hmv.recvd, hinp, List.append_nil]
    exact h.heard hr hx
  · rw [hstate, hsession, hmv.sockets]
    exact fun hr => List.mem_append_left _ (h.ready hr)
  · rw [hmv.tx.1]
    exact List.mem_append_left _ hreg
  · rw [hmv.tx.1, hun.serial]
    refine hbegun ?_
    by_contra hnone
    simp only [ne_eq, not_or, Decidable.not_not] at hnone
    have hcursor := hmv.cursor
    rw [hnone.1, hnone.2] at hcursor
    exact hsent hcursor
  · intro sock serial frame off bytes hmem
    rcases List.mem_append.1 hmem with hold | hnew
    · obtain ⟨hr, first, hne, hw⟩ := h.own sock serial frame off bytes hold
      exact ⟨List.mem_append_left _ hr, first, hne, List.mem_append_left _ hw⟩
    · rcases hkind _ hnew with ⟨hout, e⟩ | e | ⟨_, e⟩
      · cases e
        rw [← hwrites hout]
        exact ⟨List.mem_append_left _ hreg, hbegun (Or.inl hout)⟩
      · cases e
      · cases e

/-! ### Every run -/

theorem homed_initial {w : World n} (h : Initial w) : Homed w.plc w.log := by
  have hlog := h.log
  have hstate := h.fresh.state
  refine ⟨?_, ?_, ?_, ?_, ?_, ?_⟩
  · rw [hlog]
    nofun
  · rw [hstate]
    rintro (e | e) <;> cases e
  · rw [hstate]
    nofun
  · rw [hstate]
    nofun
  · rw [h.fresh.msg]
    rintro (e | e) <;> cases e
  · rw [hlog]
    intro sock serial frame off bytes hmem
    cases hmem

/-- What a run that keeps to `Home` preserves. -/
private structure Sound (w : World n) : Prop where
  coupled : Coupled w.plc
  staged : Staged w.plc
  loaded : w.plc.msg.InFlight → w.plc.msg.Loaded
  homed : Homed w.plc w.log

private theorem sound_step {w w' : World n} {a : Act} (h : Sound w) (hok : Home w a) (hs : step w a = some w') :
    Sound w' := by
  refine ⟨coupled_step h.coupled hs, staged_step h.coupled h.staged hs,
    loaded_step h.coupled h.staged h.loaded hs, ?_⟩
  obtain ⟨hc, hst, hl, hh⟩ := h
  cases step_cases hst hs with
  | delivered plc log =>
    rw [plc, log]
    exact ⟨hh.behind, hh.early, hh.heard, hh.ready, hh.built, hh.own⟩
  | called hop called log =>
    rw [log]
    exact homed_called hh hop called
  | relinked link closing same callbacks log =>
    rw [log]
    exact homed_relinked hst hh link same callbacks
  | @turned os f fs i st es polls slot inUse turned callbacks log =>
    rw [log]
    by_cases hin : (w.plc.slots i).tag.InFlight
    · have hm := hc.used i hin
      obtain ⟨out, inp, hmv⟩ := turned_moves hc (hl hm) hin turned
      obtain ⟨hstate, hsession, -⟩ := turned_link hc turned
      refine homed_turned hin hm hh hstate hsession hmv (hok ?_) callbacks
      rw [advancing_inFlight polls slot inUse hin]
      nofun
    · rw [iterEvents_rest hin turned, List.append_nil]
      have hr := turned_rest hin turned
      exact hh.calm hr.toSameLink (fun _ => hr.msg) fun e he => Or.inr ⟨i, callbacks e he⟩
  | skipped plc log =>
    rw [plc, log]
    exact hh

/-- In a run no turn of which advances a foreign operation, requests stay on their own connections. -/
theorem own_connection {w₀ w : World n} {as : List Act} (h0 : Initial w₀) (h : Run step Home w₀ as w) :
    OwnConnection w.log := by
  have hsound : Sound w₀ := by
    refine ⟨coupled_initial h0, staged_initial h0, ?_, homed_initial h0⟩
    rw [h0.fresh.msg]
    rintro (e | e) <;> cases e
  exact (h.invariant (fun _ _ _ => sound_step) hsound).homed.own

/-- The sketch connects again, and the server registers the new session. -/
def reconnect (handle : UInt32) : List Act :=
  [.call (.connect 1 44818 5000 {}), .poll {}, .deliver (registerReply handle), .poll (generous 0)]

/-- A read is sent on the first connection and given up by the sketch; another one is sent on the second. -/
theorem own_connection_reconnected : OwnConnection (reached 2 (bringUp 7 ++ [.call (.createTag (some [65]) 1),
    .call (.read 0 1000 10)] ++ wholePoll 2 (generous 20) ++ [.call (.abortTag 0)] ++ reconnect 9 ++
    [.call (.read 0 1000 30)] ++ wholePoll 2 (generous 40))).log :=
  own_connection (fresh_initial 2) (run_reachedIf Home (by decide +kernel))

/-- A read that is still unsent when the sketch connects again. -/
def leftover : List Act :=
  bringUp 7 ++ [.call (.createTag (some [65]) 1), .call (.read 0 1000 10)] ++ reconnect 9 ++ wholePoll 2 (generous 20)

/-- Its frame names the session of the first connection, and all of it is written to the second. -/
theorem crossed : ¬ ∀ w : World 2, Reachable w → OwnConnection w.log := by
  intro h
  have hreach : Reachable (reached 2 leftover) := reachable_reached (by decide +kernel)
  have hwrote : Event.wrote 2 1 (reached 2 leftover).plc.msg.tx 0 (reached 2 leftover).plc.msg.tx ∈
      (reached 2 leftover).log := by
    decide +kernel
  have hreg : Event.registered 2 (decodeHeader (reached 2 leftover).plc.msg.tx).session ∉
    (reached 2 leftover).log := by
    decide +kernel
  exact hreg (h _ hreach _ _ _ _ _ hwrote).1

end World

end ControlLogix
