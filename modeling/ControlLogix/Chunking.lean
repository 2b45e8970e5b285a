import ControlLogix.Connection
import ControlLogix.Requests

/-!
# Chunking is invisible

A `Machine` is what `Session`, `ExplicitMessage` and `Connection` have in common while an exchange is going on:
`poll()` runs the two loops over some buffers and, once they are through, makes something of the frame.  A machine is
driven by turns, in each of which bytes arrive or `poll()` is called, until `poll()` returns something else than
`Pending`.

* `Machine.drive_cases`: an exchange that is driven is under way, or has read its frame and been concluded;
* `Machine.unsplit`: so it ends as if nothing were split (`Unsplit`);
* `chunking_invisible`: this holds of every request the three classes accept.
-/

namespace ControlLogix

open Bytes
open Buffers (Framed Exchanged Turnout Underway taken verdict received atOnce)

inductive Turn where
  | deliver (bs : List UInt8)
  | poll (os : Platform)

/-- The bytes that arrive in the course of the turns. -/
def delivered : List Turn → List UInt8
  | [] => []
  | .deliver bs :: ts => bs ++ delivered ts
  | .poll _ :: ts => delivered ts

/-- A call of `poll()` comes before the deadline, and the socket layer splits the transfers in some way. -/
def Turn.InTime (deadline : UInt32) : Turn → Prop
  | .deliver _ => True
  | .poll os => os.Up ∧ expired (os.millis 0) deadline = false

instance decidableInTime (deadline : UInt32) : (t : Turn) → Decidable (t.InTime deadline)
  | .deliver _ => .isTrue trivial
  | .poll _ => inferInstanceAs (Decidable (_ ∧ _))

/-- The turns up to the first `poll()` that does not return `Pending`. -/
def drive {σ : Type} (poll : σ → TcpConnection → Platform → Status × σ × TcpConnection) :
    σ → TcpConnection → List Turn → Status × σ × TcpConnection
  | s, conn, [] => (.pending, s, conn)
  | s, conn, .deliver bs :: ts => drive poll s (conn.deliver bs) ts
  | s, conn, .poll os :: ts =>
    match poll s conn os with
    | (.pending, s, conn) => drive poll s conn ts
    | r => r

theorem drive_pending {σ : Type} {poll : σ → TcpConnection → Platform → Status × σ × TcpConnection} {s s₁ : σ}
    {conn conn₁ : TcpConnection} {os : Platform} (h : poll s conn os = (.pending, s₁, conn₁)) (ts : List Turn) :
    drive poll s conn (.poll os :: ts) = drive poll s₁ conn₁ ts := by
  rw [drive, h]

theorem drive_ended {σ : Type} {poll : σ → TcpConnection → Platform → Status × σ × TcpConnection} {s s₁ : σ}
    {conn conn₁ : TcpConnection} {os : Platform} {st : Status} (h : poll s conn os = (st, s₁, conn₁))
    (hst : st ≠ .pending) (ts : List Turn) : drive poll s conn (.poll os :: ts) = (st, s₁, conn₁) := by
  rw [drive, h]
  cases st with
  | pending => exact absurd rfl hst
  | _ => rfl

/-- `put s b` is `s` in the middle of its exchange with the buffers `b`, and `conclude` what `poll()` makes of it when
the loops return the status. -/
structure Machine (σ : Type) where
  poll : σ → TcpConnection → Platform → Status × σ × TcpConnection
  buffers : σ → Buffers
  deadline : σ → UInt32
  cap : Nat
  Going : σ → Prop
  put : σ → Buffers → σ
  conclude : σ → Status → Status × σ
  buffers_put : ∀ s b, buffers (put s b) = b
  concluded : ∀ s st, st ≠ .pending → (conclude s st).1 ≠ .pending ∧ buffers (conclude s st).2 = buffers s
  poll_pending : ∀ {s conn os b conn'}, Going s → conn.Usable → os.Up → expired (os.millis 0) (deadline s) = false →
    (buffers s).txLen ≤ (buffers s).tx.length → (buffers s).exchange cap conn os = (.pending, b, conn') →
    ∃ s', poll s conn os = (.pending, s', conn') ∧ Going s' ∧ buffers s' = b ∧ deadline s' = deadline s ∧
    put s' = put s
  poll_ended : ∀ {s conn os st b conn'}, Going s → conn.Usable → os.Up → expired (os.millis 0) (deadline s) = false →
    (buffers s).txLen ≤ (buffers s).tx.length → (buffers s).exchange cap conn os = (st, b, conn') → st ≠ .pending →
    poll s conn os = ((conclude (put s b) st).1, (conclude (put s b) st).2, conn')

namespace Machine

variable {σ : Type} (M : Machine σ)

/-- The receive cursor is within the frame and within the buffer. -/
structure Within (s s' : σ) : Prop where
  cursor : (M.buffers s').rxLen ≤ (M.buffers s').rxExpected
  expected : (M.buffers s').rxExpected ≤ kEncapsulationHeaderSize + M.cap
  /-- The size of `rx_` is that of a header and the largest body, and stays so. -/
  array : (M.buffers s).rx.length = kEncapsulationHeaderSize + M.cap →
    (M.buffers s').rx.length = kEncapsulationHeaderSize + M.cap

/-- The bytes an exchange reads from a stream: a header and the body it announces, unless that is too large. -/
def frameLength (stream : List UInt8) : Nat :=
  if M.cap < (decodeHeader stream).length.toNat then kEncapsulationHeaderSize
  else kEncapsulationHeaderSize + (decodeHeader stream).length.toNat

/-- The exchange of `request` ended in `st`, `s'` and `conn'`, as it does when nothing is split. -/
structure Finished (s : σ) (conn : TcpConnection) (request : List UInt8) (ts : List Turn) (st : Status) (s' : σ)
    (conn' : TcpConnection) : Prop where
  same : ∀ millis, expired (millis 0) (M.deadline s) = false →
    ∃ whole, M.poll s (conn.deliver (delivered ts)) (atOnce millis) = (st, s', whole) ∧
      whole.sock.sent = conn'.sock.sent ∧ whole.sock.recvd = conn'.sock.recvd
  written : conn'.sock.sent = conn.sock.sent ++ request
  arrived : M.frameLength (conn.sock.inbox ++ delivered ts) ≤ (conn.sock.inbox ++ delivered ts).length
  consumed : conn'.sock.recvd = conn.sock.recvd ++
    (conn.sock.inbox ++ delivered ts).take (M.frameLength (conn.sock.inbox ++ delivered ts))

/-- Chunking is invisible in the exchange of `request` that begins at `s`. -/
def Unsplit (s : σ) (request : List UInt8) : Prop :=
  ∀ conn ts st s' conn', conn.Usable → (∀ t ∈ ts, t.InTime (M.deadline s)) →
    drive M.poll s conn ts = (st, s', conn') →
      M.Within s s' ∧ (st ≠ .pending → M.Finished s conn request ts st s' conn')

/-! ### Driving an exchange -/

/-- The exchange that began at `s₀` with the socket `conn₀` has come to `s` and `conn`. -/
structure Midway (s₀ : σ) (conn₀ : TcpConnection) (arrived : List UInt8) (s : σ) (conn : TcpConnection) : Prop where
  going : M.Going s
  underway : Underway M.cap (M.buffers s₀) conn₀ arrived (M.buffers s) conn
  framed : Framed M.cap (M.buffers s)
  unread : (M.buffers s).rxLen < (M.buffers s).rxExpected
  deadline : M.deadline s = M.deadline s₀
  put : M.put s = M.put s₀

variable {M} {s₀ s s' : σ} {conn₀ conn conn' : TcpConnection} {arrived : List UInt8} {st : Status}

theorem Midway.deliver (h : M.Midway s₀ conn₀ arrived s conn) (bs : List UInt8) :
    M.Midway s₀ conn₀ (arrived ++ bs) s (conn.deliver bs) :=
  ⟨h.going, h.underway.deliver bs, h.framed, h.unread, h.deadline, h.put⟩

/-- One `poll()` takes the exchange on, or concludes it. -/
theorem Midway.poll {os : Platform} (h : M.Midway s₀ conn₀ arrived s conn)
    (hfit : (M.buffers s₀).txLen ≤ (M.buffers s₀).tx.length) (ht : Turn.InTime (M.deadline s₀) (.poll os))
    (hp : M.poll s conn os = (st, s', conn')) :
    (st = .pending ∧ M.Midway s₀ conn₀ arrived s' conn' ∧ (M.buffers s).txSent ≤ (M.buffers s').txSent) ∨
      (st ≠ .pending ∧ taken M.cap arrived ≤ arrived.length ∧
        Underway M.cap (M.buffers s₀) conn₀ arrived (M.buffers s') conn' ∧
        M.buffers s' = received M.cap (M.buffers s₀) arrived ∧
        (st, s') = M.conclude (M.put s₀ (received M.cap (M.buffers s₀) arrived)) (verdict M.cap arrived)) := by
  obtain ⟨hup, hnow⟩ := ht
  rw [← h.deadline] at hnow
  have hfits : (M.buffers s).txLen ≤ (M.buffers s).tx.length := by
    rw [h.underway.tx.1, h.underway.tx.2]
    exact hfit
  obtain ⟨st₁, b, conn₁, hx⟩ : ∃ st b conn₁, (M.buffers s).exchange M.cap conn os = (st, b, conn₁) := ⟨_, _, _, rfl⟩
  obtain ⟨inp, hex⟩ := Buffers.exchange_up h.framed hfits h.unread h.underway.usable hup hx
  have hunder := h.underway.exchange hex
  by_cases hst : st₁ = .pending
  · subst hst
    obtain ⟨s₁, hpoll, hgoing, hb, hd, hput⟩ := M.poll_pending h.going h.underway.usable hup hnow hfits hx
    rw [hp, Prod.mk.injEq, Prod.mk.injEq] at hpoll
    obtain ⟨rfl, rfl, rfl⟩ := hpoll
    subst hb
    refine Or.inl ⟨rfl, ⟨hgoing, hunder, hex.framed nofun, ?_, hd.trans h.deadline, hput.trans h.put⟩, hex.moved.mono⟩
    generalize hpending : Status.pending = st at hex
    cases hex.turnout with
    | sending _ unread => exact unread
    | receiving _ unread => exact unread
    | whole => cases hpending
    | large => cases hpending
  · obtain ⟨hverdict, hreceived, htaken⟩ := hunder.ended hex.framed hex.turnout hst
    have hpoll := M.poll_ended h.going h.underway.usable hup hnow hfits hx hst
    rw [h.put] at hpoll
    rw [hp, Prod.mk.injEq, Prod.mk.injEq] at hpoll
    obtain ⟨hst', hs', rfl⟩ := hpoll
    obtain ⟨hne, hbuf⟩ := M.concluded (M.put s₀ b) st₁ hst
    rw [M.buffers_put, ← hs'] at hbuf
    rw [hbuf]
    refine Or.inr ⟨?_, htaken, hunder, hreceived, ?_⟩
    · rw [hst']
      exact hne
    · rw [← hreceived, ← hverdict, hst', hs']

/-- The turns take the exchange on, or up to the `poll()` that concludes it, when only a part of the bytes has
arrived. -/
theorem drive_cases {ts : List Turn} (h : M.Midway s₀ conn₀ arrived s conn)
    (hfit : (M.buffers s₀).txLen ≤ (M.buffers s₀).tx.length) (hts : ∀ t ∈ ts, t.InTime (M.deadline s₀))
    (hd : drive M.poll s conn ts = (st, s', conn')) :
    (st = .pending ∧ M.Midway s₀ conn₀ (arrived ++ delivered ts) s' conn') ∨
      ∃ some more, some ++ more = arrived ++ delivered ts ∧ st ≠ .pending ∧ taken M.cap some ≤ some.length ∧
        Underway M.cap (M.buffers s₀) conn₀ some (M.buffers s') conn' ∧
        M.buffers s' = received M.cap (M.buffers s₀) some ∧
        (st, s') = M.conclude (M.put s₀ (received M.cap (M.buffers s₀) some)) (verdict M.cap some) := by
  induction ts generalizing s conn arrived with
  | nil =>
    simp only [drive, Prod.mk.injEq] at hd
    obtain ⟨rfl, rfl, rfl⟩ := hd
    rw [delivered, List.append_nil]
    exact Or.inl ⟨rfl, h⟩
  | cons t ts ih =>
    have hrest : ∀ t ∈ ts, t.InTime (M.deadline s₀) := fun u hu => hts u (List.mem_cons_of_mem _ hu)
    cases t with
    | deliver bs =>
      rw [drive] at hd
      rw [delivered, ← List.append_assoc]
      exact ih (h.deliver bs) hrest hd
    | poll os =>
      have ht := hts _ List.mem_cons_self
      obtain ⟨st₁, s₁, conn₁, hp⟩ : ∃ st s₁ conn₁, M.poll s conn os = (st, s₁, conn₁) := ⟨_, _, _, rfl⟩
      rcases h.poll hfit ht hp with ⟨rfl, hmid, -⟩ | ⟨hne, hend⟩
      · rw [drive_pending hp] at hd
        exact ih hmid hrest hd
      · rw [drive_ended hp hne, Prod.mk.injEq, Prod.mk.injEq] at hd
        obtain ⟨rfl, rfl, rfl⟩ := hd
        exact Or.inr ⟨arrived, delivered ts, rfl, hne, hend⟩

/-- Turns one after the other. -/
theorem drive_append {σ : Type} (poll : σ → TcpConnection → Platform → Status × σ × TcpConnection) (s : σ)
    (conn : TcpConnection) (ts us : List Turn) :
    drive poll s conn (ts ++ us) =
      if (drive poll s conn ts).1 = .pending then drive poll (drive poll s conn ts).2.1 (drive poll s conn ts).2.2 us
      else drive poll s conn ts := by
  induction ts generalizing s conn with
  | nil =>
    rw [List.nil_append, drive]
    exact (if_pos rfl).symm
  | cons t ts ih =>
    cases t with
    | deliver bs =>
      rw [List.cons_append, drive, drive]
      exact ih s (conn.deliver bs)
    | poll os =>
      rw [List.cons_append]
      obtain ⟨st, s₁, conn₁, hp⟩ : ∃ st s₁ conn₁, poll s conn os = (st, s₁, conn₁) := ⟨_, _, _, rfl⟩
      by_cases hst : st = .pending
      · subst hst
        rw [drive_pending hp, drive_pending hp]
        exact ih s₁ conn₁
      · rw [drive_ended hp hst, drive_ended hp hst]
        exact (if_neg hst).symm

/-- In time, a machine is driven as its buffers are. -/
theorem drive_exchange {ts : List Turn} {b : Buffers} (h : M.Midway s₀ conn₀ arrived s conn)
    (hfit : (M.buffers s₀).txLen ≤ (M.buffers s₀).tx.length) (hts : ∀ t ∈ ts, t.InTime (M.deadline s₀))
    (hd : drive (Buffers.exchange M.cap) (M.buffers s) conn ts = (st, b, conn')) :
    (st = .pending ∧ ∃ s', drive M.poll s conn ts = (.pending, s', conn') ∧ M.buffers s' = b ∧
      M.Midway s₀ conn₀ (arrived ++ delivered ts) s' conn') ∨
      (st ≠ .pending ∧ drive M.poll s conn ts =
        ((M.conclude (M.put s₀ b) st).1, (M.conclude (M.put s₀ b) st).2, conn')) := by
  induction ts generalizing s conn arrived with
  | nil =>
    simp only [drive, Prod.mk.injEq] at hd
    obtain ⟨rfl, rfl, rfl⟩ := hd
    rw [delivered, List.append_nil]
    exact Or.inl ⟨rfl, s, rfl, rfl, h⟩
  | cons t ts ih =>
    have hrest : ∀ t ∈ ts, t.InTime (M.deadline s₀) := fun u hu => hts u (List.mem_cons_of_mem _ hu)
    cases t with
    | deliver bs =>
      rw [drive] at hd ⊢
      rw [delivered, ← List.append_assoc]
      exact ih (h.deliver bs) hrest hd
    | poll os =>
      have ht := hts _ List.mem_cons_self
      obtain ⟨st₁, b₁, conn₁, hx⟩ : ∃ st b conn₁, (M.buffers s).exchange M.cap conn os = (st, b, conn₁) :=
        ⟨_, _, _, rfl⟩
      obtain ⟨st₂, s₂, conn₂, hp⟩ : ∃ st s₁ conn₁, M.poll s conn os = (st, s₁, conn₁) := ⟨_, _, _, rfl⟩
      have hpolled := h.poll hfit ht hp
      obtain ⟨hup, hnow⟩ := ht
      rw [← h.deadline] at hnow
      have hfits : (M.buffers s).txLen ≤ (M.buffers s).tx.length := by
        rw [h.underway.tx.1, h.underway.tx.2]
        exact hfit
      by_cases hst : st₁ = .pending
      · subst hst
        obtain ⟨s₁, hpoll, -, hb, -, -⟩ := M.poll_pending h.going h.underway.usable hup hnow hfits hx
        rw [hp, Prod.mk.injEq, Prod.mk.injEq] at hpoll
        obtain ⟨rfl, rfl, rfl⟩ := hpoll
        subst hb
        rcases hpolled with ⟨-, hmid, -⟩ | ⟨hne, -⟩
        · rw [drive_pending hx] at hd
          rw [drive_pending hp]
          exact ih hmid hrest hd
        · exact absurd rfl hne
      · have hpoll := M.poll_ended h.going h.underway.usable hup hnow hfits hx hst
        rw [h.put, hp, Prod.mk.injEq, Prod.mk.injEq] at hpoll
        obtain ⟨hst₂, hs₂, rfl⟩ := hpoll
        have hne := (M.concluded (M.put s₀ b₁) st₁ hst).1
        rw [drive_ended hx hst, Prod.mk.injEq, Prod.mk.injEq] at hd
        obtain ⟨rfl, rfl, rfl⟩ := hd
        rw [← hst₂] at hne
        rw [drive_ended hp hne, ← hst₂, ← hs₂]
        exact Or.inr ⟨hst, rfl⟩

/-! ### What a driven exchange comes to -/

theorem frameLength_eq (M : Machine σ) (stream : List UInt8) : M.frameLength stream = taken M.cap stream := rfl

private theorem within_of_underway {b : Buffers} (hb : M.buffers s' = b) (hcursor : b.rxLen ≤ b.rxExpected)
    (hexpected : b.rxExpected ≤ 24 + M.cap) (h : Underway M.cap (M.buffers s) conn₀ arrived b conn) :
    M.Within s s' := by
  subst hb
  refine ⟨hcursor, hexpected, fun hsize => ?_⟩
  have hk : kEncapsulationHeaderSize = 24 := rfl
  have hlen : (arrived.take (M.buffers s').rxLen).length ≤ 24 + M.cap := by
    rw [List.length_take]
    omega
  rw [h.rx, length_store (by omega)]
  exact hsize

/-- A machine whose request has just been started, with a frame that goes through the socket at once. -/
structure Started (M : Machine σ) (s : σ) (request : List UInt8) : Prop where
  going : M.Going s
  loaded : (M.buffers s).Loaded
  request : request = (M.buffers s).tx.take (M.buffers s).txLen
  short : (M.buffers s).txLen ≤ 900
  cap : M.cap ≤ 900

theorem Started.midway {request : List UInt8} (h : M.Started s request) (hu : conn.Usable) :
    M.Midway s conn conn.sock.inbox s conn := by
  refine ⟨h.going, h.loaded.underway M.cap hu, h.loaded.framed M.cap, ?_, rfl, rfl⟩
  rw [h.loaded.rxLen, h.loaded.rxExpected]
  omega

/-- The first `poll()` writes the request when the socket layer takes all of it. -/
theorem Started.poll_sent {request : List UInt8} {os : Platform} (h : M.Started s request) (hu : conn.Usable)
    (ht : Turn.InTime (M.deadline s) (.poll os)) (hs : sending (M.buffers s).txLen os.sends = .complete) :
    (M.poll s conn os).2.2.sock.sent = conn.sock.sent ++ request := by
  obtain ⟨hup, hnow⟩ := ht
  have hmid := h.midway hu
  have hfit := h.loaded.fits
  obtain ⟨st, b, conn₁, hx⟩ : ∃ st b conn₁, (M.buffers s).exchange M.cap conn os = (st, b, conn₁) := ⟨_, _, _, rfl⟩
  obtain ⟨inp, hex⟩ := Buffers.exchange_up hmid.framed hfit hmid.unread hu hup hx
  have hunder := hmid.underway.exchange hex
  have hout : (M.poll s conn os).2.2 = conn₁ := by
    by_cases hst : st = .pending
    · subst hst
      obtain ⟨s', hp, -⟩ := M.poll_pending h.going hu hup hnow hfit hx
      rw [hp]
    · rw [M.poll_ended h.going hu hup hnow hfit hx hst]
  have hleft : (M.buffers s).txLen - (M.buffers s).txSent = (M.buffers s).txLen := by
    rw [h.loaded.sent, Nat.sub_zero]
  rw [← hleft] at hs
  have hsent := Buffers.exchange_sent hmid.framed hfit hu hup hs hx
  have hle := hunder.sent
  have hlen : b.txLen = (M.buffers s).txLen := hunder.tx.2
  have hall : b.txSent = (M.buffers s).txLen := by omega
  rw [hout, hunder.written, hall, h.request]

/-- With nothing split, one call of `poll()` writes the rest of the request. -/
theorem Midway.atOnce_sent {request : List UInt8} {millis : Nat → UInt32} (h : M.Midway s₀ conn₀ arrived s conn)
    (hs : M.Started s₀ request) (hnow : expired (millis 0) (M.deadline s₀) = false)
    (hp : M.poll s conn (atOnce millis) = (.pending, s', conn')) : (M.buffers s').txLen ≤ (M.buffers s').txSent := by
  have hlen : (M.buffers s).txLen = (M.buffers s₀).txLen := h.underway.tx.2
  have htx : (M.buffers s).tx = (M.buffers s₀).tx := h.underway.tx.1
  have hfit : (M.buffers s).txLen ≤ (M.buffers s).tx.length := by
    rw [hlen, htx]
    exact hs.loaded.fits
  have hshort := hs.short
  have hup := Buffers.atOnce_up millis
  rw [← h.deadline] at hnow
  obtain ⟨st, b, conn₁, hx⟩ : ∃ st b conn₁, (M.buffers s).exchange M.cap conn (atOnce millis) = (st, b, conn₁) :=
    ⟨_, _, _, rfl⟩
  by_cases hst : st = .pending
  · subst hst
    obtain ⟨s₁, hpoll, -, hb, -⟩ := M.poll_pending h.going h.underway.usable hup hnow hfit hx
    rw [hp, Prod.mk.injEq, Prod.mk.injEq] at hpoll
    obtain ⟨-, rfl, -⟩ := hpoll
    obtain ⟨inp, hex⟩ := Buffers.exchange_up h.framed hfit h.unread h.underway.usable hup hx
    have hsent := Buffers.exchange_sent h.framed hfit h.underway.usable hup
      (Buffers.sending_atOnce (by omega) millis) hx
    have hkept : b.txLen = (M.buffers s).txLen := (h.underway.exchange hex).tx.2.trans hlen.symm
    rw [hb]
    omega
  · have hpoll := M.poll_ended h.going h.underway.usable hup hnow hfit hx hst
    rw [hp, Prod.mk.injEq] at hpoll
    exact absurd hpoll.1.symm (M.concluded _ _ hst).1

/-- With nothing split, one call of `poll()` reads the rest of a frame that has arrived. -/
theorem Midway.atOnce_ends {request : List UInt8} {millis : Nat → UInt32} (h : M.Midway s₀ conn₀ arrived s conn)
    (hs : M.Started s₀ request) (hnow : expired (millis 0) (M.deadline s₀) = false)
    (harrived : taken M.cap arrived ≤ arrived.length) (hp : M.poll s conn (atOnce millis) = (st, s', conn')) :
    st ≠ .pending := by
  have hlen : (M.buffers s).txLen = (M.buffers s₀).txLen := h.underway.tx.2
  have htx : (M.buffers s).tx = (M.buffers s₀).tx := h.underway.tx.1
  have hfit : (M.buffers s).txLen ≤ (M.buffers s).tx.length := by
    rw [hlen, htx]
    exact hs.loaded.fits
  have hshort := hs.short
  have hends := h.underway.atOnce h.framed hs.cap hfit (by omega) harrived millis
  rw [← h.deadline] at hnow
  obtain ⟨st₁, b, conn₁, hx⟩ : ∃ st b conn₁, (M.buffers s).exchange M.cap conn (atOnce millis) = (st, b, conn₁) :=
    ⟨_, _, _, rfl⟩
  rw [hx] at hends
  have hpoll := M.poll_ended h.going h.underway.usable (Buffers.atOnce_up millis) hnow hfit hx hends
  rw [hp, Prod.mk.injEq] at hpoll
  rw [hpoll.1]
  exact (M.concluded _ _ hends).1

/-- What an exchange has moved when it has come to its end. -/
private theorem moved_of_received {b : Buffers}
    (h : Underway M.cap (M.buffers s) conn arrived b conn') (hb : b = received M.cap (M.buffers s) arrived) :
    conn'.sock.sent = conn.sock.sent ++ (M.buffers s).tx.take (M.buffers s).txLen ∧
      conn'.sock.recvd = conn.sock.recvd ++ arrived.take (taken M.cap arrived) := by
  subst hb
  exact ⟨h.written, h.read⟩

theorem unsplit {request : List UInt8} (h : M.Started s request) : M.Unsplit s request := by
  intro conn ts st s' conn' hu hts hd
  have hfit := h.loaded.fits
  rcases drive_cases (h.midway hu) hfit hts hd with ⟨rfl, hmid⟩ | ⟨some, more, harrived, hne, htaken, hunder,
    hb, hcon⟩
  · refine ⟨within_of_underway rfl (Nat.le_of_lt hmid.unread) ?_ hmid.underway, fun hne => absurd rfl hne⟩
    by_cases h24 : (M.buffers s').rxLen < 24
    · have := hmid.framed.head h24
      omega
    · have := hmid.framed.body (by omega)
      omega
  · have hmoved := moved_of_received hunder hb
    obtain ⟨hreceived, hverdict, hmore⟩ := Buffers.received_append htaken (M.buffers s) more
    rw [harrived] at hreceived hverdict hmore
    have hlen := congrArg List.length harrived
    rw [List.length_append] at hlen
    refine ⟨within_of_underway hb ?_ ?_ (hb ▸ hunder), fun _ => ⟨fun millis hnow => ?_, ?_, ?_, ?_⟩⟩
    · exact Nat.le_refl _
    · exact Buffers.taken_le M.cap some
    · -- the unsplit exchange finds the whole stream at the socket
      obtain ⟨st₁, s₁, whole, hp⟩ : ∃ st s₁ whole,
        M.poll s (conn.deliver (delivered ts)) (atOnce millis) = (st, s₁, whole) := ⟨_, _, _, rfl⟩
      have hu' : (conn.deliver (delivered ts)).Usable := hu
      have hlast : Turn.InTime (M.deadline s) (.poll (atOnce millis)) := ⟨Buffers.atOnce_up millis, hnow⟩
      have hends := (h.midway hu').atOnce_ends h hnow (by
        change taken M.cap (conn.sock.inbox ++ delivered ts) ≤ (conn.sock.inbox ++ delivered ts).length
        omega) hp
      rcases (h.midway hu').poll hfit hlast hp with ⟨rfl, -⟩ | ⟨-, -, hunder₁, hb₁, hcon₁⟩
      · exact absurd rfl hends
      · have hmoved₁ := moved_of_received hunder₁ hb₁
        have harr : (conn.deliver (delivered ts)).sock.inbox = conn.sock.inbox ++ delivered ts := rfl
        rw [harr, hreceived, hverdict, ← hcon, Prod.mk.injEq] at hcon₁
        obtain ⟨rfl, rfl⟩ := hcon₁
        refine ⟨whole, hp, hmoved₁.1.trans hmoved.1.symm, ?_⟩
        rw [hmoved₁.2, hmoved.2, harr, hmore, ← harrived, List.take_append_of_le_length htaken]
        rfl
    · rw [h.request]
      exact hmoved.1
    · rw [frameLength_eq]
      omega
    · rw [hmoved.2, frameLength_eq, hmore, ← harrived, List.take_append_of_le_length htaken]

/-- An exchange whose frame arrives in the course of the turns has ended when `poll()` is called once more with
nothing split. -/
theorem Started.completes {request : List UInt8} {ts : List Turn} {millis : Nat → UInt32} (h : M.Started s request)
    (hu : conn.Usable) (hts : ∀ t ∈ ts, t.InTime (M.deadline s)) (hnow : expired (millis 0) (M.deadline s) = false)
    (harrived : taken M.cap (conn.sock.inbox ++ delivered ts) ≤ (conn.sock.inbox ++ delivered ts).length)
    (hd : drive M.poll s conn (ts ++ [.poll (atOnce millis)]) = (st, s', conn')) :
    st ≠ .pending ∧
      (st, s') = M.conclude (M.put s (received M.cap (M.buffers s) (conn.sock.inbox ++ delivered ts)))
        (verdict M.cap (conn.sock.inbox ++ delivered ts)) := by
  have hfit := h.loaded.fits
  have hlast : Turn.InTime (M.deadline s) (.poll (atOnce millis)) := ⟨Buffers.atOnce_up millis, hnow⟩
  obtain ⟨st₁, s₁, conn₁, hdriven⟩ : ∃ st₁ s₁ conn₁, drive M.poll s conn ts = (st₁, s₁, conn₁) := ⟨_, _, _, rfl⟩
  rw [drive_append, hdriven] at hd
  rcases drive_cases (h.midway hu) hfit hts hdriven with ⟨rfl, hmid⟩ | ⟨some, more, hsplit, hne, htaken, -, -, hcon⟩
  · -- the last call finds the rest of the frame
    obtain ⟨st₂, s₂, conn₂, hp⟩ : ∃ st₂ s₂ conn₂, M.poll s₁ conn₁ (atOnce millis) = (st₂, s₂, conn₂) := ⟨_, _, _, rfl⟩
    have hne := hmid.atOnce_ends h hnow harrived hp
    change drive M.poll s₁ conn₁ [.poll (atOnce millis)] = (st, s', conn') at hd
    rw [drive_ended hp hne, Prod.mk.injEq, Prod.mk.injEq] at hd
    obtain ⟨rfl, rfl, rfl⟩ := hd
    rcases hmid.poll hfit hlast hp with ⟨rfl, -⟩ | ⟨-, -, -, -, hcon⟩
    · exact absurd rfl hne
    · exact ⟨hne, hcon⟩
  · obtain ⟨hreceived, hverdict, -⟩ := Buffers.received_append htaken (M.buffers s) more
    rw [hsplit] at hreceived hverdict
    rw [if_neg hne, Prod.mk.injEq, Prod.mk.injEq] at hd
    obtain ⟨rfl, rfl, rfl⟩ := hd
    refine ⟨hne, ?_⟩
    rw [hreceived, hverdict]
    exact hcon

end Machine

/-! ### `Session` -/

namespace Session

/-- What the last part of `poll()` makes of the frame. -/
def finish (s : Session) : Status × Session :=
  if s.state = .registering then s.finishRegister else s.finishUnregister

private theorem poll_exchanging {s : Session} (h : s.Exchanging) (conn : TcpConnection) (now : UInt32)
    (os : Platform) :
    ∃ f, s.poll conn now os = pollExchange f s conn now os ∧
      ∀ b, f { s with toBuffers := b } = finish { s with toBuffers := b } := by
  rcases h with h | h
  · refine ⟨finishRegister, ?_, fun b => ?_⟩
    · rw [poll, h]
      rfl
    · exact (if_pos h).symm
  · refine ⟨finishUnregister, ?_, fun b => ?_⟩
    · rw [poll, h]
      rfl
    · have hne : s.state ≠ .registering := by
        rw [h]
        decide
      exact (if_neg hne).symm

private theorem finish_concluded (s : Session) : s.finish.1 ≠ .pending ∧ s.finish.2.toBuffers = s.toBuffers := by
  unfold finish
  split
  · simp only [finishRegister]
    split
    · exact ⟨by simp, rfl⟩
    · split
      · exact ⟨by simp, rfl⟩
      · exact ⟨by simp, rfl⟩
  · exact ⟨by simp [finishUnregister], rfl⟩

/-- `Session` while it registers or unregisters. -/
def machine : Machine Session where
  poll s conn os := s.poll conn (os.millis 0) os
  buffers := Session.toBuffers
  deadline := Session.deadline
  cap := kMaxBodySize
  Going := Exchanging
  put s b := { s with toBuffers := b }
  conclude s st := if st = .ok then s.finish else (st, { s with state := .failed })
  buffers_put _ _ := rfl
  concluded s st hst := by
    split
    · exact finish_concluded s
    · exact ⟨hst, rfl⟩
  poll_pending := by
    intro s conn os b conn' hgoing hu hup hnow hfit hx
    obtain ⟨f, hpoll, -⟩ := poll_exchanging hgoing conn (os.millis 0) os
    refine ⟨{ s with toBuffers := b }, ?_, hgoing, rfl, rfl, rfl⟩
    rw [hpoll, pollExchange, if_neg (by simp [hnow])]
    rcases Buffers.exchange_split hfit hu hup hx with ⟨-, hw⟩ | ⟨b₁, conn₁, hw, hr⟩
    · rw [hw]
    · rw [hw]
      dsimp only
      rw [hr]
  poll_ended := by
    intro s conn os st b conn' hgoing hu hup hnow hfit hx hst
    obtain ⟨f, hpoll, hf⟩ := poll_exchanging hgoing conn (os.millis 0) os
    rw [hpoll, pollExchange, if_neg (by simp [hnow])]
    rcases Buffers.exchange_split hfit hu hup hx with ⟨h, -⟩ | ⟨b₁, conn₁, hw, hr⟩
    · exact absurd h hst
    · rw [hw]
      dsimp only
      rw [hr]
      cases st with
      | pending => exact absurd rfl hst
      | ok =>
        dsimp only
        rw [if_pos rfl, hf]
      | _ => rfl

theorem open_started {s s' : Session} {conn : TcpConnection} {timeoutMs now : UInt32}
    (h : s.open conn timeoutMs now = (.pending, s')) : machine.Started s' (registerFrame s.context) := by
  rcases open_cases h with ⟨-, -, rfl⟩ | ⟨hne, -⟩
  · refine ⟨Or.inl rfl, ⟨?_, rfl, rfl, rfl⟩, rfl, ?_, ?_⟩
    · exact Nat.le_refl _
    · show 28 ≤ 900
      omega
    · show 512 ≤ 900
      omega
  · exact absurd rfl hne

theorem close_started {s s' : Session} (h : s.close = (.pending, s')) :
    machine.Started s' (unregisterFrame s.handle s.context) := by
  have hstate : s.state = .registered := by
    by_contra hne
    rw [close, if_neg hne] at h
    split at h <;> cases h
  rw [close_registered hstate, startUnregister, Prod.mk.injEq] at h
  obtain ⟨-, rfl⟩ := h
  refine ⟨Or.inr rfl, ⟨?_, rfl, rfl, rfl⟩, rfl, ?_, ?_⟩
  · exact Nat.le_refl _
  · show 24 ≤ 900
    omega
  · show 512 ≤ 900
    omega

end Session

/-! ### `ExplicitMessage` -/

namespace ExplicitMessage

/-- What the last part of `poll()` makes of the frame. -/
def conclude (m : ExplicitMessage) (st : Status) : Status × ExplicitMessage :=
  if st = .ok then
    match m.parseResponse with
    | (.ok, m) => (.ok, { m with state := .done })
    | (st, m) => (st, { m with state := .failed })
  else (st, { m with state := .failed })

theorem conclude_parsed {m : ExplicitMessage} {r : Response} (h : parse m.rx m.rxLen m.sentContext = some r) :
    m.conclude .ok = (.ok, { m.respond r with state := .done }) := by
  rw [conclude, if_pos rfl, parseResponse, h]

theorem conclude_unparsed {m : ExplicitMessage} (h : parse m.rx m.rxLen m.sentContext = none) :
    m.conclude .ok = (.error, { m with state := .failed }) := by
  rw [conclude, if_pos rfl, parseResponse, h]

theorem concluded (m : ExplicitMessage) {st : Status} (hst : st ≠ .pending) :
    (m.conclude st).1 ≠ .pending ∧ (m.conclude st).2.toBuffers = m.toBuffers := by
  by_cases hok : st = .ok
  · subst hok
    cases hparse : parse m.rx m.rxLen m.sentContext with
    | none =>
      rw [conclude_unparsed hparse]
      exact ⟨nofun, rfl⟩
    | some r =>
      rw [conclude_parsed hparse]
      exact ⟨nofun, rfl⟩
  · rw [conclude, if_neg hok]
    exact ⟨hst, rfl⟩

/-- `ExplicitMessage` while it sends or receives. -/
def machine : Machine ExplicitMessage where
  poll := poll
  buffers := ExplicitMessage.toBuffers
  deadline := ExplicitMessage.deadline
  cap := 16 + kMaxCipData
  Going := InFlight
  put m b := { m with toBuffers := b, state := .receiving }
  conclude := conclude
  buffers_put _ _ := rfl
  concluded m _ hst := concluded m hst
  poll_pending := by
    intro m conn os b conn' hin hu hup hnow hfit hx
    rw [poll_inFlight hin, advance, if_neg (by simp [hnow])]
    rcases Buffers.exchange_split hfit hu hup hx with ⟨-, hw⟩ | ⟨b₁, conn₁, hw, hr⟩
    · refine ⟨{ m with toBuffers := b }, ?_, hin, rfl, rfl, rfl⟩
      rw [hw]
    · refine ⟨{ m with toBuffers := b, state := .receiving }, ?_, Or.inr rfl, rfl, rfl, rfl⟩
      rw [hw]
      dsimp only
      rw [hr]
  poll_ended := by
    intro m conn os st b conn' hin hu hup hnow hfit hx hst
    rw [poll_inFlight hin, advance, if_neg (by simp [hnow])]
    rcases Buffers.exchange_split hfit hu hup hx with ⟨h, -⟩ | ⟨b₁, conn₁, hw, hr⟩
    · exact absurd h hst
    · rw [hw]
      dsimp only
      rw [hr]
      cases st with
      | pending => exact absurd rfl hst
      | ok =>
        dsimp only
        unfold conclude
        rw [if_pos rfl]
        generalize parseResponse _ = parsed
        obtain ⟨st, m⟩ := parsed
        cases st <;> rfl
      | _ => rfl

/-- The caller's buffers hold as many bytes as it says, which are fewer than there are addresses. -/
structure Backed (path : Option (List UInt8)) (pathLen : Nat) (data : Option (List UInt8)) (dataLen : Nat) :
    Prop where
  path : ∀ p, path = some p → pathLen ≤ p.length
  data : ∀ d, data = some d → dataLen ≤ d.length
  total : 2 + pathLen + dataLen < 2 ^ 32

instance decidableBacked (path : Option (List UInt8)) (pathLen : Nat) (data : Option (List UInt8)) (dataLen : Nat) :
    Decidable (Backed path pathLen data dataLen) :=
  decidable_of_iff ((∀ p ∈ path, pathLen ≤ p.length) ∧ (∀ d ∈ data, dataLen ≤ d.length) ∧
    2 + pathLen + dataLen < 2 ^ 32) ⟨fun h => ⟨fun p hp => h.1 p hp, fun d hd => h.2.1 d hd, h.2.2⟩,
      fun h => ⟨fun p hp => h.path p hp, fun d hd => h.data d hd, h.total⟩⟩

/-- An argument that is null has length 0. -/
private theorem length_argument {p : Option (List UInt8)} {n : Nat} (hnull : n > 0 → p ≠ none)
    (hlen : ∀ bs, p = some bs → n ≤ bs.length) : ((p.getD []).take n).length = n := by
  rw [List.length_take]
  cases p with
  | none =>
    have hzero : ¬ n > 0 := fun hpos => hnull hpos rfl
    omega
  | some bs => exact Nat.min_eq_left (hlen bs rfl)

/-- The lengths of the parts of an accepted request. -/
theorem Backed.lengths {path data : Option (List UInt8)} {pathLen dataLen : Nat}
    (h : Backed path pathLen data dataLen) (hs : Sendable path pathLen data dataLen) :
    ((path.getD []).take pathLen).length = pathLen ∧ ((data.getD []).take dataLen).length = dataLen ∧
      cipLength pathLen dataLen = 2 + pathLen + dataLen ∧ 2 + pathLen + dataLen ≤ kMaxCipData := by
  have hcip : cipLength pathLen dataLen = 2 + pathLen + dataLen := Nat.mod_eq_of_lt h.total
  refine ⟨length_argument hs.2.2.1 h.path, length_argument hs.2.2.2 h.data, hcip, ?_⟩
  rw [← hcip]
  exact hs.1

theorem send_started {m m' : ExplicitMessage} {conn : TcpConnection} {sessionHandle : UInt32} {service : UInt8}
    {path data : Option (List UInt8)} {pathLen dataLen : Nat} {timeoutMs now : UInt32}
    (hback : Backed path pathLen data dataLen)
    (h : m.send conn sessionHandle service path pathLen data dataLen timeoutMs now = (.pending, m')) :
    machine.Started m' (requestFrame sessionHandle m.context service ((path.getD []).take pathLen)
      ((data.getD []).take dataLen)) := by
  have hs := send_accepted h
  obtain ⟨hpath, hdata, hcip, hsmall⟩ := hback.lengths hs.args
  have hk : kMaxCipData = 256 := rfl
  have hlen : m'.tx.length = m'.txLen := by
    rw [hs.tx, hs.txLen, length_requestFrame, hpath, hdata, hcip]
    rfl
  refine ⟨Or.inl hs.state, ⟨Nat.le_of_eq hlen.symm, hs.txSent, hs.rxLen, hs.rxExpected⟩, ?_, ?_, ?_⟩
  · change _ = m'.tx.take m'.txLen
    rw [← hlen, List.take_length, hs.tx]
  · change m'.txLen ≤ 900
    rw [hs.txLen, hcip, kEncapsulationHeaderSize]
    omega
  · show 16 + 256 ≤ 900
    omega

end ExplicitMessage

/-! ### `Connection` -/

namespace Connection

/-- What `pollOpening()` and `pollClosing()` make of a response. -/
def finish (c : Connection) : Status × Connection := if c.state = .opening then c.finishOpen else c.finishClose

private theorem poll_forward {c : Connection} (h : c.state = .opening ∨ c.state = .closing) (conn : TcpConnection)
    (os : Platform) :
    ∃ f, c.poll conn os = pollForward f c conn os ∧ ∀ fwd,
    f { c with fwd := fwd } = finish { c with fwd := fwd } := by
  rcases h with h | h
  · refine ⟨finishOpen, ?_, fun fwd => ?_⟩
    · rw [poll, h]
      rfl
    · exact (if_pos h).symm
  · refine ⟨finishClose, ?_, fun fwd => ?_⟩
    · rw [poll, h]
      rfl
    · have hne : c.state ≠ .opening := by
        rw [h]
        decide
      exact (if_neg hne).symm

private theorem finish_concluded (c : Connection) : c.finish.1 ≠ .pending ∧ c.finish.2.fwd = c.fwd := by
  unfold finish
  split
  · rcases c.finishOpen_cases with ⟨-, h⟩ | ⟨-, h⟩
    · rw [h]
      exact ⟨by simp, rfl⟩
    · rw [h]
      exact ⟨by simp, rfl⟩
  · exact ⟨by simp [finishClose], rfl⟩

/-- What the last part of `poll()` makes of the frame of a Forward Open or a Forward Close. -/
def concludeForward (c : Connection) (st : Status) : Status × Connection :=
  match c.fwd.conclude st with
  | (.ok, fwd) => finish { c with fwd := fwd }
  | (st, fwd) => (st, { c with fwd := fwd, state := .failed })

/-- `Connection` while it opens or closes. -/
def forwarding : Machine Connection where
  poll := poll
  buffers c := c.fwd.toBuffers
  deadline c := c.fwd.deadline
  cap := 16 + ExplicitMessage.kMaxCipData
  Going c := (c.state = .opening ∨ c.state = .closing) ∧ c.fwd.InFlight
  put c b := { c with fwd := ExplicitMessage.machine.put c.fwd b }
  conclude := concludeForward
  buffers_put _ _ := rfl
  concluded c st hst := by
    obtain ⟨hne, hbuf⟩ := ExplicitMessage.concluded c.fwd hst
    unfold concludeForward
    split
    · rename_i fwd heq
      rw [heq] at hbuf
      obtain ⟨h1, h2⟩ := finish_concluded { c with fwd := fwd }
      refine ⟨h1, ?_⟩
      rw [h2]
      exact hbuf
    · rename_i heq
      rw [heq] at hne hbuf
      exact ⟨hne, hbuf⟩
  poll_pending := by
    intro c conn os b conn' hgoing hu hup hnow hfit hx
    obtain ⟨f, hpoll, -⟩ := poll_forward hgoing.1 conn os
    obtain ⟨m, hm, hin, hb, hd, hput⟩ := ExplicitMessage.machine.poll_pending hgoing.2 hu hup hnow hfit hx
    refine ⟨{ c with fwd := m }, ?_, ⟨hgoing.1, hin⟩, hb, hd, ?_⟩
    · have hm' : c.fwd.poll conn os = (.pending, m, conn') := hm
      rw [hpoll, pollForward, hm']
    · funext b
      rw [hput]
  poll_ended := by
    intro c conn os st b conn' hgoing hu hup hnow hfit hx hst
    obtain ⟨f, hpoll, hf⟩ := poll_forward hgoing.1 conn os
    have hm := ExplicitMessage.machine.poll_ended hgoing.2 hu hup hnow hfit hx hst
    have hne := (ExplicitMessage.machine.concluded (ExplicitMessage.machine.put c.fwd b) st hst).1
    change c.fwd.poll conn os = (((ExplicitMessage.machine.put c.fwd b).conclude st).1,
      ((ExplicitMessage.machine.put c.fwd b).conclude st).2, conn') at hm
    change ((ExplicitMessage.machine.put c.fwd b).conclude st).1 ≠ .pending at hne
    rw [hpoll, pollForward, hm, concludeForward]
    generalize (ExplicitMessage.machine.put c.fwd b).conclude st = r at hne
    obtain ⟨st', m⟩ := r
    cases st' <;> first | exact absurd rfl hne | rfl | skip
    dsimp only
    rw [hf]

/-- What the last part of `poll()` makes of the frame of a connected response. -/
def conclude (c : Connection) (st : Status) : Status × Connection :=
  if st = .ok then
    match c.parseConnectedResponse with
    | (st, c) => (st, { c with state := if st = .ok then .open else .failed })
  else (st, { c with state := .failed })

theorem conclude_parsed {c : Connection} {r : ExplicitMessage.Response}
    (h : parse c.rx c.rxLen c.sentContext c.toConnId c.sentSequence = some r) :
    c.conclude .ok = (.ok, { c.respond r with state := .open }) := by
  rw [conclude, if_pos rfl, parseConnectedResponse, h]
  rfl

theorem conclude_unparsed {c : Connection}
    (h : parse c.rx c.rxLen c.sentContext c.toConnId c.sentSequence = none) :
    c.conclude .ok = (.error, { c with state := .failed }) := by
  rw [conclude, if_pos rfl, parseConnectedResponse, h]
  rfl

/-- `Connection` while it sends a connected request. -/
def sending : Machine Connection where
  poll := poll
  buffers := Connection.toBuffers
  deadline := Connection.deadline
  cap := 22 + kMaxDataSize
  Going c := c.state = .sending
  put c b := { c with toBuffers := b }
  conclude := conclude
  buffers_put _ _ := rfl
  concluded c st hst := by
    by_cases hok : st = .ok
    · subst hok
      cases hparse : parse c.rx c.rxLen c.sentContext c.toConnId c.sentSequence with
      | none =>
        rw [conclude_unparsed hparse]
        exact ⟨nofun, rfl⟩
      | some r =>
        rw [conclude_parsed hparse]
        exact ⟨nofun, rfl⟩
    · rw [conclude, if_neg hok]
      exact ⟨hst, rfl⟩
  poll_pending := by
    intro c conn os b conn' hgoing hu hup hnow hfit hx
    have hpoll : c.poll conn os = c.pollSending conn os := by rw [poll, hgoing]
    refine ⟨{ c with toBuffers := b }, ?_, hgoing, rfl, rfl, rfl⟩
    rw [hpoll, pollSending, if_neg (by simp [hnow])]
    rcases Buffers.exchange_split hfit hu hup hx with ⟨-, hw⟩ | ⟨b₁, conn₁, hw, hr⟩
    · rw [hw]
    · rw [hw]
      dsimp only
      rw [hr]
  poll_ended := by
    intro c conn os st b conn' hgoing hu hup hnow hfit hx hst
    have hpoll : c.poll conn os = c.pollSending conn os := by rw [poll, hgoing]
    rw [hpoll, pollSending, if_neg (by simp [hnow])]
    rcases Buffers.exchange_split hfit hu hup hx with ⟨h, -⟩ | ⟨b₁, conn₁, hw, hr⟩
    · exact absurd h hst
    · rw [hw]
      dsimp only
      rw [hr]
      cases st with
      | pending => exact absurd rfl hst
      | ok =>
        rw [conclude, if_pos rfl]
      | _ => rfl

theorem forwarded_started {c c' : Connection} {conn : TcpConnection} {sessionHandle : UInt32} {service : UInt8}
    {data : List UInt8} {timeoutMs now : UInt32} {next : State} (hnext : next = .opening ∨ next = .closing)
    (hdata : data.length ≤ 200) (h : Forwarded c conn sessionHandle service data timeoutMs now next c') :
    forwarding.Started c' (ExplicitMessage.requestFrame sessionHandle c.fwd.context service managerPath data) := by
  have hm : managerPath.length = 4 := rfl
  have hback : ExplicitMessage.Backed (some managerPath) managerPath.length (some data) data.length := by
    refine ⟨?_, ?_, by omega⟩
    · rintro p hp
      cases hp
      exact Nat.le_refl _
    · rintro d hd
      cases hd
      exact Nat.le_refl _
  have hs := ExplicitMessage.send_started hback h.sent
  simp only [Option.getD_some, List.take_length] at hs
  refine ⟨⟨?_, hs.going⟩, hs.loaded, hs.request, hs.short, hs.cap⟩
  rw [h.rest]
  exact hnext

theorem open_started {c c' : Connection} {conn : TcpConnection} {sessionHandle timeoutMs now random : UInt32}
    {name : List UInt8} (h : c.open conn sessionHandle (some name) timeoutMs now random = (.pending, c')) :
    forwarding.Started c' (ExplicitMessage.requestFrame sessionHandle c.fwd.context 0x54 managerPath
      (openData (chooseConnId random) name)) := by
  rcases open_cases h with ⟨_, hname, -, -, hf⟩ | ⟨hst, -⟩
  · cases hname
    rcases forward_cases hf with ⟨-, hfwd⟩ | ⟨hne, -⟩
    · have hlen := length_openData (chooseConnId random) name
      have hstarted := forwarded_started (Or.inl rfl) (by omega) hfwd
      exact hstarted
    · exact absurd rfl hne
  · rcases hst with hst | ⟨hst, -⟩ <;> cases hst

theorem close_started {c c' : Connection} {conn : TcpConnection} {sessionHandle timeoutMs now : UInt32}
    (h : c.close conn sessionHandle timeoutMs now = (.pending, c')) :
    forwarding.Started c' (ExplicitMessage.requestFrame sessionHandle c.fwd.context 0x4E managerPath
      (closeData c.tagName)) := by
  rcases close_cases h with ⟨-, hf⟩ | ⟨-, hst, -⟩
  · rcases forward_cases hf with ⟨-, hfwd⟩ | ⟨hne, -⟩
    · have hlen := length_closeData c.tagName
      exact forwarded_started (Or.inr rfl) (by omega) hfwd
    · exact absurd rfl hne
  · cases hst

theorem length_connectedFrame (sessionHandle : UInt32) (context : UInt64) (otConnId : UInt32) (sequence : UInt16)
    (service : UInt8) (path data : List UInt8) :
    (connectedFrame sessionHandle context otConnId sequence service path data).length =
      24 + 22 + (2 + path.length + data.length) := by
  simp only [connectedFrame, List.length_append, length_encodeHeader, length_putU32, length_putU16, List.length_cons,
    List.length_nil, kEncapsulationHeaderSize]
  omega

theorem send_started {c c' : Connection} {sessionHandle : UInt32} {service : UInt8} {path data : Option (List UInt8)}
    {pathLen dataLen : Nat} {timeoutMs now : UInt32} (hback : ExplicitMessage.Backed path pathLen data dataLen)
    (h : c.send sessionHandle service path pathLen data dataLen timeoutMs now = (.pending, c')) :
    sending.Started c' (connectedFrame sessionHandle c.context c.otConnId c.sequence service
      ((path.getD []).take pathLen) ((data.getD []).take dataLen)) := by
  rcases send_cases h with ⟨-, hs⟩ | ⟨hst, -⟩
  · obtain ⟨hpath, hdata, hcip, hsmall⟩ := hback.lengths hs.args
    have hk : ExplicitMessage.kMaxCipData = 256 := rfl
    have hlen : c'.tx.length = c'.txLen := by
      rw [hs.made]
      dsimp only
      rw [length_connectedFrame, hpath, hdata, hcip]
      rfl
    have htx : c'.tx = connectedFrame sessionHandle c.context c.otConnId c.sequence service
        ((path.getD []).take pathLen) ((data.getD []).take dataLen) := by
      rw [hs.made]
    have hfields : c'.txSent = 0 ∧ c'.rxLen = 0 ∧ c'.rxExpected = 24 ∧ c'.state = .sending := by
      rw [hs.made]
      exact ⟨rfl, rfl, rfl, rfl⟩
    refine ⟨hfields.2.2.2, ⟨Nat.le_of_eq hlen.symm, hfields.1, hfields.2.1, hfields.2.2.1⟩, ?_, ?_, ?_⟩
    · change _ = c'.tx.take c'.txLen
      rw [← hlen, List.take_length, htx]
    · change c'.txLen ≤ 900
      rw [← hlen, htx, length_connectedFrame, hpath, hdata]
      omega
    · show 22 + 256 ≤ 900
      omega
  · rcases hst with ⟨-, hst⟩ | hst <;> cases hst

end Connection

/-! ### The three classes -/

/-- A call that started an exchange, by returning `Pending`: the machine that runs it, its state, and the encoded
request. -/
inductive Accepted : {σ : Type} → Machine σ → σ → List UInt8 → Prop where
  | registers {s s' : Session} {conn : TcpConnection} {timeoutMs now : UInt32}
      (call : s.open conn timeoutMs now = (.pending, s')) :
      Accepted Session.machine s' (Session.registerFrame s.context)
  | unregisters {s s' : Session} (call : s.close = (.pending, s')) :
      Accepted Session.machine s' (Session.unregisterFrame s.handle s.context)
  | sends {m m' : ExplicitMessage} {conn : TcpConnection} {sessionHandle : UInt32} {service : UInt8}
      {path data : Option (List UInt8)} {pathLen dataLen : Nat} {timeoutMs now : UInt32}
      (backed : ExplicitMessage.Backed path pathLen data dataLen)
      (call : m.send conn sessionHandle service path pathLen data dataLen timeoutMs now = (.pending, m')) :
      Accepted ExplicitMessage.machine m' (ExplicitMessage.requestFrame sessionHandle m.context service
        ((path.getD []).take pathLen) ((data.getD []).take dataLen))
  | opens {c c' : Connection} {conn : TcpConnection} {sessionHandle timeoutMs now random : UInt32} {name : List UInt8}
      (call : c.open conn sessionHandle (some name) timeoutMs now random = (.pending, c')) :
      Accepted Connection.forwarding c' (ExplicitMessage.requestFrame sessionHandle c.fwd.context 0x54
        Connection.managerPath (Connection.openData (Connection.chooseConnId random) name))
  | connectedSends {c c' : Connection} {sessionHandle : UInt32} {service : UInt8} {path data : Option (List UInt8)}
      {pathLen dataLen : Nat} {timeoutMs now : UInt32} (backed : ExplicitMessage.Backed path pathLen data dataLen)
      (call : c.send sessionHandle service path pathLen data dataLen timeoutMs now = (.pending, c')) :
      Accepted Connection.sending c' (Connection.connectedFrame sessionHandle c.context c.otConnId c.sequence service
        ((path.getD []).take pathLen) ((data.getD []).take dataLen))
  | closes {c c' : Connection} {conn : TcpConnection} {sessionHandle timeoutMs now : UInt32}
      (call : c.close conn sessionHandle timeoutMs now = (.pending, c')) :
      Accepted Connection.forwarding c' (ExplicitMessage.requestFrame sessionHandle c.fwd.context 0x4E
        Connection.managerPath (Connection.closeData c.tagName))

/-- Chunking is invisible in every exchange of the three classes. -/
theorem chunking_invisible {σ : Type} {M : Machine σ} {s : σ} {request : List UInt8} (h : Accepted M s request) :
    M.Unsplit s request := by
  cases h with
  | registers call => exact Machine.unsplit (Session.open_started call)
  | unregisters call => exact Machine.unsplit (Session.close_started call)
  | sends backed call => exact Machine.unsplit (ExplicitMessage.send_started backed call)
  | opens call => exact Machine.unsplit (Connection.open_started call)
  | connectedSends backed call => exact Machine.unsplit (Connection.send_started backed call)
  | closes call => exact Machine.unsplit (Connection.close_started call)

/-- A call of `poll()` in which the socket takes three bytes and hands out one. -/
def sip : Turn := .poll { sends := [.accepted 3], recvs := [.data 0] }

/-- A session that has just sent RegisterSession, on the connection that is open on descriptor 3. -/
def registeringSession : Session := (Session.open {} { fd := 3, state := .ok } 5000 0).2

/-- The response of a server that registers session 7 comes in three parts. -/
def registration : List Turn :=
  [.deliver [0x65, 0, 4], .deliver [0, 7, 0, 0, 0, 0, 0, 0, 0, 1, 0, 0, 0, 0, 0, 0, 0, 0, 0], sip,
    .deliver [0, 0, 1, 0, 0, 0]] ++ List.replicate 40 sip

/-- `RegisterSession` three bytes out and one byte in at a time. -/
theorem chunking_invisible_sips : ∃ s conn, s.handle = 7 ∧
    Session.machine.Finished registeringSession { fd := 3, state := .ok } (Session.registerFrame 1) registration .ok s
      conn := by
  obtain ⟨st, s, conn, hd⟩ : ∃ st s conn,
    drive Session.machine.poll registeringSession { fd := 3, state := .ok } registration = (st, s, conn) :=
    ⟨_, _, _, rfl⟩
  have hcall : Session.open {} { fd := 3, state := .ok } 5000 0 = (.pending, registeringSession) := rfl
  have hturns : ∀ t ∈ registration, t.InTime (Session.machine.deadline registeringSession) := by decide +kernel
  have hend : (drive Session.machine.poll registeringSession { fd := 3, state := .ok } registration).1 = .ok ∧
      (drive Session.machine.poll registeringSession { fd := 3, state := .ok } registration).2.1.handle = 7 := by
    decide +kernel
  rw [hd] at hend
  obtain ⟨rfl, hhandle⟩ := hend
  exact ⟨s, conn, hhandle, (chunking_invisible (.registers hcall) _ _ _ _ _ (by decide) hturns hd).2 nofun⟩

end ControlLogix
