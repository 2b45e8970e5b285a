import ControlLogix.Stages

/-!
# The request in flight

The shared message keeps the frame of the request it was started for, and a turn of the loop hands the socket the next
part of it.

* `length_requestFrame`, `decode_requestFrame`: a request frame is as long as its header says;
* `Reachable.loaded`: a message in flight holds a whole request frame;
* `turned_moves`: what a turn of the loop moves through the socket (`Moves`), and what it writes into the history.
-/

namespace ControlLogix

open Transition
open Buffers (Framed Moved)
open ExplicitMessage (requestFrame cipLength kMaxCipData)

variable {n : Nat}

/-! ### Request frames -/

/-- A frame `send()` builds for arguments it accepts. -/
def IsRequest (frame : List UInt8) : Prop :=
  ∃ session context service path data, 2 + path.length + data.length ≤ kMaxCipData ∧
    frame = requestFrame session context service path data

theorem cipLength_small {pathLen dataLen : Nat} (h : 2 + pathLen + dataLen ≤ kMaxCipData) :
    cipLength pathLen dataLen = 2 + pathLen + dataLen := by
  have hk : kMaxCipData = 256 := rfl
  rw [cipLength, Nat.mod_eq_of_lt]
  omega

theorem length_requestFrame (session : UInt32) (context : UInt64) (service : UInt8) (path data : List UInt8) :
    (requestFrame session context service path data).length = 24 + 16 + (2 + path.length + data.length) := by
  simp only [requestFrame, List.length_append, length_encodeHeader, length_putU32, length_putU16, List.length_cons,
    List.length_nil, kEncapsulationHeaderSize]
  omega

theorem decode_requestFrame (session : UInt32) (context : UInt64) (service : UInt8) (path data : List UInt8) :
    decodeHeader (requestFrame session context service path data) =
      ExplicitMessage.requestHeader session context (cipLength path.length data.length) := by
  simp only [requestFrame, List.append_assoc]
  exact decodeHeader_encodeHeader _ _

/-- The message holds a whole request frame, written up to `txSent`. -/
structure ExplicitMessage.Loaded (m : ExplicitMessage) : Prop where
  request : IsRequest m.tx
  len : m.txLen = m.tx.length
  sent : m.txSent ≤ m.txLen

/-- The frame of an operation just started, and the session it was built for. -/
theorem started_loaded {t t' : Tag} {msg msg' : ExplicitMessage} {conn : TcpConnection} {sessionHandle : UInt32}
    {name : List UInt8} {timeoutMs now : UInt32}
    (h : Tag.Started t msg conn sessionHandle name timeoutMs now t' msg') :
    msg'.Loaded ∧ msg'.txSent = 0 ∧ (decodeHeader msg'.tx).session = sessionHandle := by
  obtain ⟨service, data, hdata, hs⟩ := h.sent
  have hname := h.bounded
  have hcip := hs.args.1
  obtain ⟨-, hpath⟩ := length_appendSymbolic name
  have hk : kMaxDataSize = 256 := rfl
  -- the sum of the lengths is far from wrapping around
  have hsmall : 2 + (appendSymbolic name).length + data.length ≤ kMaxCipData := by
    rw [cipLength, Nat.mod_eq_of_lt (by omega)] at hcip
    exact hcip
  have htx := hs.tx
  simp only [Option.getD_some, List.take_length] at htx
  refine ⟨⟨⟨_, _, _, _, _, hsmall, htx⟩, ?_, ?_⟩, hs.txSent, ?_⟩
  · rw [hs.txLen, htx, length_requestFrame, cipLength_small hsmall]
    rfl
  · rw [hs.txSent]
    exact Nat.zero_le _
  · rw [htx, decode_requestFrame]
    rfl

/-! ### One turn of the loop -/

/-- What a turn of the loop moves through the socket: `out` is the next part of the request and `inp` is what was
read. -/
structure Moves (p p' : PlcClient n) (os : Platform) (out inp : List UInt8) : Prop where
  sent : p'.tcp.sock.sent = p.tcp.sock.sent ++ out
  recvd : p'.tcp.sock.recvd = p.tcp.sock.recvd ++ inp
  sockets : p'.tcp.sockets = p.tcp.sockets
  tx : p'.msg.tx = p.msg.tx ∧ p'.msg.txLen = p.msg.txLen
  part : out = (p.msg.tx.drop p.msg.txSent).take (p'.msg.txSent - p.msg.txSent)
  cursor : p'.msg.txSent = p.msg.txSent + out.length
  bound : p'.msg.txSent ≤ p.msg.txLen
  live : out ≠ [] ∨ inp ≠ [] → p.tcp.Usable ∧ expired (os.millis 0) p.msg.deadline = false

theorem turned_moves {p p' : PlcClient n} {i : Fin n} {os : Platform} {st : Status} (hc : Coupled p)
    (hl : p.msg.Loaded) (hin : (p.slots i).tag.InFlight) (ht : PlcClient.Turned p i os st p') :
    ∃ out inp, Moves p p' os out inp := by
  cases ht with
  | rest h => exact absurd hin h
  | @inFlight mst st tag msg tcp _ polled advanced =>
    have hm := hc.used i hin
    obtain ⟨inp, hp⟩ := ExplicitMessage.poll_spec hm (hc.framed hm) polled
    have hmv := hp.moved
    have hmono := hmv.mono
    have hlen := hl.len
    have hbound : msg.txSent ≤ p.msg.txLen := by
      have h1 := hmv.bound
      have h2 := hl.sent
      omega
    refine ⟨_, inp, hmv.transfer.sent, hmv.transfer.recvd, hmv.transfer.sockets, hmv.tx, rfl, ?_, hbound, ?_⟩
    · change msg.txSent = _
      rw [List.length_take, List.length_drop]
      omega
    · intro hmoved
      constructor
      · by_contra hu
        obtain ⟨-, ho, hi⟩ := hmv.transfer.unusable hu
        rcases hmoved with h | h
        · exact h ho
        · exact h hi
      · by_contra he
        -- an overdue exchange is dropped before it moves anything
        rw [ExplicitMessage.poll_expired hm _ (by simpa using he)] at polled
        simp only [Prod.mk.injEq] at polled
        obtain ⟨-, rfl, rfl⟩ := polled
        have hrecvd := hmv.transfer.recvd
        rcases hmoved with h | h
        · simp at h
        · simp [h] at hrecvd

/-- A turn on a slot at rest. -/
structure Rested (p p' : PlcClient n) : Prop extends SameLink p p' where
  msg : p'.msg = p.msg

theorem turned_rest {p p' : PlcClient n} {i : Fin n} {os : Platform} {st : Status} (hr : ¬ (p.slots i).tag.InFlight)
    (ht : PlcClient.Turned p i os st p') : Rested p p' := by
  cases ht with
  | rest => exact ⟨⟨rfl, rfl, rfl⟩, rfl⟩
  | inFlight h => exact absurd h hr

/-- The part of the history a turn on a slot in flight adds. -/
theorem iterEvents_moves {p p' : PlcClient n} {i : Fin n} {os : Platform} {out inp : List UInt8}
    (hin : (p.slots i).tag.InFlight) (hm : Moves p p' os out inp) (st : Status) (k : Nat) :
    World.iterEvents p i st p' k =
      (if out = [] then [] else [.wrote p.tcp.sockets k p.msg.tx p.msg.txSent out]) ++ [.advanced i st] := by
  unfold World.iterEvents
  rw [hm.sent, List.drop_left]
  dsimp only
  rw [if_pos hin]

/-! ### Every reachable state -/

namespace World

private theorem loaded_called {p p' : PlcClient n} {op : Op} {es : List (Event n)} (h : p.msg.InFlight → p.msg.Loaded)
    (hc : Called p op p' es) : p'.msg.InFlight → p'.msg.Loaded := by
  cases hc with
  | linked hop =>
    rw [(hop.sameTags p).msg]
    exact h
  | registered set => exact h
  | created free bounded => exact h
  | destroyed inUse => exact h
  | started hop inUse ready free started => exact fun _ => (started_loaded started).1
  | @aborted i inUse =>
    intro hin
    by_cases hi : (p.slots i).tag.InFlight
    · have e := Tag.abort_inFlight hi p.msg
      change ((p.slots i).tag.abort p.msg).2.InFlight at hin
      rw [e] at hin
      exact absurd hin (ExplicitMessage.not_inFlight_abort _)
    · have e := Tag.abort_rest hi p.msg
      change ((p.slots i).tag.abort p.msg).2.InFlight at hin
      change ((p.slots i).tag.abort p.msg).2.Loaded
      rw [e] at hin ⊢
      exact h hin
  | edited inUse => exact h
  | refused hop => exact h

theorem loaded_step {w w' : World n} {a : Act} (hc : Coupled w.plc) (hst : Staged w.plc)
    (h : w.plc.msg.InFlight → w.plc.msg.Loaded) (hs : step w a = some w') :
    w'.plc.msg.InFlight → w'.plc.msg.Loaded := by
  cases step_cases hst hs with
  | delivered plc log =>
    rw [plc]
    exact h
  | called hop called log => exact loaded_called h called
  | relinked link closing same callbacks log =>
    rw [same.msg]
    exact h
  | @turned os f fs i st es polls slot inUse turned callbacks log =>
    by_cases hin : (w.plc.slots i).tag.InFlight
    · intro _
      have hl := h (hc.used i hin)
      obtain ⟨out, inp, hm⟩ := turned_moves hc hl hin turned
      refine ⟨?_, ?_, ?_⟩
      · rw [hm.tx.1]
        exact hl.request
      · rw [hm.tx.1, hm.tx.2]
        exact hl.len
      · rw [hm.tx.2]
        exact hm.bound
    · rw [(turned_rest hin turned).msg]
      exact h
  | skipped plc log =>
    rw [plc]
    exact h

theorem Reachable.loaded {w : World n} (h : Reachable w) : w.plc.msg.InFlight → w.plc.msg.Loaded := by
  have hall : Coupled w.plc ∧ Staged w.plc ∧ (w.plc.msg.InFlight → w.plc.msg.Loaded) := by
    refine h.invariant (I := fun w => Coupled w.plc ∧ Staged w.plc ∧ (w.plc.msg.InFlight → w.plc.msg.Loaded))
      (fun w hi => ⟨coupled_initial hi, staged_initial hi, fun hin => ?_⟩) fun w a w' hw hs => ?_
    · rw [hi.fresh.msg] at hin
      rcases hin with hin | hin <;> cases hin
    · exact ⟨coupled_step hw.1 hs, staged_step hw.1 hw.2.1 hs, loaded_step hw.1 hw.2.1 hw.2.2 hs⟩
  exact hall.2.2

end World

end ControlLogix
