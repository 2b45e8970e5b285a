import ControlLogix.Absorbing
import ControlLogix.Handles

/-!
# The descriptors of a `TcpConnection`

Every descriptor a `TcpConnection` takes from the socket layer is a handle of its `calls`.  A connection owns its
descriptors: what it holds is the descriptor in `fd_`, and only what it holds is used or closed.

* `TcpConnection.sockets_kept`: so it is in every run, whatever the socket layer answers, and after the destructor
  nothing is held.
-/

namespace ControlLogix

open Transition
open Handles (Lawful)

/-- What a call does to its descriptor. -/
def SocketCall.event : SocketCall → Handles.Event Int
  | .socket fd => .acquire fd
  | .use fd => .use fd
  | .close fd => .release fd

namespace TcpConnection

/-- `~TcpConnection()`. -/
def destroy (t : TcpConnection) : TcpConnection := t.close

/-- The calls of the socket layer so far, newest first. -/
def events (t : TcpConnection) : List (Handles.Event Int) := t.calls.map SocketCall.event

/-- The descriptors obtained from `lwip_socket` and not yet passed to `lwip_close`. -/
def held (t : TcpConnection) : List Int := Handles.held t.events

/-- The descriptors the connection has to know of. -/
def own (t : TcpConnection) : List Int := if 0 ≤ t.fd then [t.fd] else []

/-- Between two closes of a descriptor it is obtained again. -/
def ClosedOnce (t : TcpConnection) : Prop :=
  ∀ fd later between earlier, t.calls = later ++ .close fd :: between ++ .close fd :: earlier → .socket fd ∈ between

/-- Between the close of a descriptor and a use of it, it is obtained again. -/
def UnusedAfterClose (t : TcpConnection) : Prop :=
  ∀ fd later between earlier, t.calls = later ++ .use fd :: between ++ .close fd :: earlier → .socket fd ∈ between

/-- Only what is held is used or closed, and exactly the descriptor in `fd_` is held. -/
structure Owning (t : TcpConnection) : Prop where
  lawful : Lawful t.events
  held : t.held = t.own

private theorem socket_of_acquire {calls : List SocketCall} {fd : Int}
    (h : .acquire fd ∈ calls.map SocketCall.event) : .socket fd ∈ calls := by
  obtain ⟨c, hc, e⟩ := List.mem_map.1 h
  cases c with
  | socket s =>
    obtain rfl : s = fd := by simpa [SocketCall.event] using e
    exact hc
  | use s => simp [SocketCall.event] at e
  | close s => simp [SocketCall.event] at e

private theorem socket_between {t : TcpConnection} (h : Owning t) {c : SocketCall} {fd : Int}
    (hc : c = .use fd ∨ c = .close fd) {later between earlier : List SocketCall}
    (e : t.calls = later ++ c :: between ++ .close fd :: earlier) : .socket fd ∈ between := by
  have hl := h.lawful
  rw [events, e] at hl
  simp only [List.map_append, List.map_cons] at hl
  refine socket_of_acquire (Lawful.acquired_since (e := c.event) ?_ hl)
  rcases hc with rfl | rfl
  · exact Or.inl rfl
  · exact Or.inr rfl

theorem Owning.closedOnce {t : TcpConnection} (h : Owning t) : ClosedOnce t :=
  fun _ _ _ _ e => socket_between h (Or.inr rfl) e

theorem Owning.unusedAfterClose {t : TcpConnection} (h : Owning t) : UnusedAfterClose t :=
  fun _ _ _ _ e => socket_between h (Or.inl rfl) e

/-! ### What a call does to the descriptors -/

/-- A connection with other contents but the same descriptor and calls. -/
private theorem Owning.of_eq {t t' : TcpConnection} (h : Owning t) (hfd : t'.fd = t.fd)
    (hcalls : t'.calls = t.calls) :
    Owning t' := by
  obtain ⟨hl, hh⟩ := h
  simp only [TcpConnection.held, own, events] at hh hl ⊢
  constructor
  · rw [events, hcalls]
    exact hl
  · rw [TcpConnection.held, own, events, hcalls, hfd]
    exact hh

private theorem Owning.close {t : TcpConnection} (h : Owning t) : Owning t.close ∧ t.close.held = [] := by
  obtain ⟨hl, hh⟩ := h
  by_cases hfd : 0 ≤ t.fd
  · have hheld : t.held = [t.fd] := by rw [hh, own, if_pos hfd]
    have hcalls : t.close.calls = .close t.fd :: t.calls := by rw [TcpConnection.close, if_pos hfd]
    have hown : t.close.own = [] := if_neg (by have := (close_dropped t).fd; omega)
    have hnone : t.close.held = [] := by
      show Handles.held (t.close.calls.map SocketCall.event) = []
      rw [hcalls]
      show t.held.erase t.fd = []
      rw [hheld]
      simp
    refine ⟨⟨?_, hnone.trans hown.symm⟩, hnone⟩
    rw [events, hcalls]
    show t.fd ∈ t.held ∧ Lawful t.events
    exact ⟨by simp [hheld], hl⟩
  · have hcalls : t.close.calls = t.calls := by rw [TcpConnection.close, if_neg hfd]
    have hfd' : t.close.fd = t.fd := by rw [TcpConnection.close, if_neg hfd]
    have hkept := Owning.of_eq ⟨hl, hh⟩ hfd' hcalls
    refine ⟨hkept, ?_⟩
    rw [hkept.held, own, if_neg (by omega)]

/-- The descriptor is used. -/
private theorem Owning.use {t t' : TcpConnection} (h : Owning t) (hfd : 0 ≤ t.fd) (hsame : t'.fd = t.fd)
    (hcalls : t'.calls = .use t.fd :: t.calls) : Owning t' := by
  obtain ⟨hl, hh⟩ := h
  constructor
  · rw [events, hcalls]
    refine ⟨?_, hl⟩
    show t.fd ∈ t.held
    rw [hh, own, if_pos hfd]
    exact List.mem_singleton.2 rfl
  · rw [own, hsame, TcpConnection.held, events, hcalls]
    exact hh

/-- The history of a connection that has taken the descriptor `s`, and not stored it in `fd_` yet. -/
private structure Taken (s : Int) (calls : List SocketCall) : Prop where
  lawful : Lawful (calls.map SocketCall.event)
  held : Handles.held (calls.map SocketCall.event) = [s]

private theorem taken_socket {t : TcpConnection} (h : Owning t) (hfd : t.fd < 0) (s : Int) :
    Taken s (.socket s :: t.calls) := by
  have hnone : t.held = [] := by rw [h.held, own, if_neg (by omega)]
  refine ⟨⟨?_, h.lawful⟩, ?_⟩
  · show s ∉ t.held
    rw [hnone]
    exact List.not_mem_nil
  · show s :: t.held = [s]
    rw [hnone]

private theorem Taken.use {s : Int} {calls : List SocketCall} (h : Taken s calls) :
    Taken s (.use s :: calls) := by
  refine ⟨⟨?_, h.lawful⟩, h.held⟩
  rw [h.held]
  exact List.mem_singleton.2 rfl

/-- The descriptor is given back. -/
private theorem Taken.back {t : TcpConnection} {s : Int} {calls : List SocketCall} (h : Taken s calls)
    (hfd : t.fd < 0) :
    Owning { t with calls := .close s :: calls } := by
  constructor
  · refine ⟨?_, h.lawful⟩
    rw [h.held]
    exact List.mem_singleton.2 rfl
  · show (Handles.held (calls.map SocketCall.event)).erase s = if 0 ≤ t.fd then [t.fd] else []
    rw [h.held, if_neg (by omega)]
    simp

private theorem Owning.connect {t : TcpConnection} (h : Owning t) (ip : IPAddress) (port : UInt16)
    (timeoutMs : UInt32) (os : ConnectAnswers) (now : UInt32) : Owning (t.connect ip port timeoutMs os now).2 := by
  -- `connect()` first closes the descriptor it has
  have hfirst : Owning (if 0 ≤ t.fd then t.close else t) ∧ (if 0 ≤ t.fd then t.close else t).fd < 0 := by
    split
    · exact ⟨h.close.1, (close_dropped t).fd⟩
    · exact ⟨h, by omega⟩
  unfold TcpConnection.connect
  dsimp only
  generalize (if 0 ≤ t.fd then t.close else t) = t₁ at hfirst ⊢
  obtain ⟨hown, hfd⟩ := hfirst
  have htaken := taken_socket hown hfd os.socket
  split
  · exact hown
  · split
    · exact hown
    · rename_i hsock
      split
      · exact htaken.use.back hfd
      · split
        · exact htaken.use.use.back hfd
        · split
          · exact htaken.use.use.use.back hfd
          · refine ⟨htaken.use.use.use.lawful, ?_⟩
            show Handles.held _ = if 0 ≤ os.socket then [os.socket] else []
            rw [if_pos (by omega)]
            exact htaken.use.use.use.held

private theorem Owning.poll {t : TcpConnection} (h : Owning t) (os : PollAnswers) (now : UInt32) :
    Owning (t.poll os now).2 := by
  unfold TcpConnection.poll
  split
  · exact h
  · rename_i hfd
    split
    · exact h
    · have hused : Owning { t with calls := .use t.fd :: t.calls } := h.use (by omega) rfl rfl
      have hclosed := hused.close.1
      dsimp only
      split
      · exact hclosed
      · split
        · split
          · exact hclosed
          · exact hused
        · have hasked : Owning { t with calls := .use t.fd :: .use t.fd :: t.calls } :=
            hused.use (show 0 ≤ t.fd by omega) rfl rfl
          have hfailed := hasked.close.1
          split
          · exact hfailed
          · split
            · exact hasked.of_eq rfl rfl
            · exact hfailed

private theorem Owning.read {t : TcpConnection} (h : Owning t) (length : Nat) (a : RecvAnswer) :
    Owning (t.read length a).2 := by
  unfold TcpConnection.read
  split
  · exact h
  · rename_i hu
    have hused : Owning { t with calls := .use t.fd :: t.calls } := h.use (by omega) rfl rfl
    split
    · exact h
    · dsimp only
      split
      · exact hused.of_eq rfl rfl
      · exact hused.of_eq rfl rfl
      · split <;> exact hused.of_eq rfl rfl

private theorem Owning.write {t : TcpConnection} (h : Owning t) (bs : List UInt8) (a : SendAnswer) :
    Owning (t.write bs a).2 := by
  unfold TcpConnection.write
  split
  · exact h
  · rename_i hu
    have hused : Owning { t with calls := .use t.fd :: t.calls } := h.use (by omega) rfl rfl
    split
    · exact h
    · dsimp only
      split
      · exact hused.of_eq rfl rfl
      · split
        · exact hused.of_eq rfl rfl
        · split <;> exact hused.of_eq rfl rfl

theorem Owning.call {t : TcpConnection} (h : Owning t) (c : Call) : Owning (t.call c).2 := by
  cases c with
  | connect ip port timeoutMs os now => exact h.connect ip port timeoutMs os now
  | poll os now => exact h.poll os now
  | read length a => exact h.read length a
  | write bs a => exact h.write bs a
  | close => exact h.close.1
  | deliver bs => exact h.of_eq rfl rfl

theorem owning_of_run {t : TcpConnection} {cs : List Call} (h : Run step always {} cs t) : Owning t := by
  refine h.invariant ?_ ⟨trivial, rfl⟩
  intro s c s' hs _ hstep
  obtain rfl := Option.some.inj hstep
  exact hs.call c

/-- In every run, whatever the socket layer answers, the descriptors obtained and not yet closed are `fd_` alone, or
none when it is negative; none is closed twice or used after its close, and the destructor leaves none open. -/
theorem sockets_kept {t : TcpConnection} {cs : List Call} (h : Run step always {} cs t) :
    (t.held = if 0 ≤ t.fd then [t.fd] else []) ∧ t.ClosedOnce ∧ t.UnusedAfterClose ∧
      t.destroy.held = [] ∧ t.destroy.ClosedOnce ∧ t.destroy.UnusedAfterClose := by
  have hown := owning_of_run h
  obtain ⟨hend, hnone⟩ := hown.close
  exact ⟨hown.held, hown.closedOnce, hown.unusedAfterClose, hnone, hend.closedOnce, hend.unusedAfterClose⟩

/-- A connection that is made, marked by the end of the stream and made again on the same descriptor number, a failed
`connect()` in between. -/
def reusedCalls : List Call :=
  [.connect 0x0101A8C0 44818 5000 { socket := 3, connect := -1 } 0, .poll {} 10, .read 4 .eof,
    .connect 0x0101A8C0 44818 5000 { socket := 3, setFlags := -1 } 20,
    .connect 0x0101A8C0 44818 5000 { socket := 3, connect := -1 } 30]

theorem sockets_kept_reused :
    (exec step {} reusedCalls).isSome ∧ ((after step {} reusedCalls).held =
      if 0 ≤ (after step {} reusedCalls).fd then [(after step {} reusedCalls).fd] else []) ∧
      (after step {} reusedCalls).destroy.held = [] := by
  have hsome : (exec step {} reusedCalls).isSome := by decide +kernel
  have h := sockets_kept (run_after hsome)
  exact ⟨hsome, h.1, h.2.2.2.1⟩

end TcpConnection

end ControlLogix
