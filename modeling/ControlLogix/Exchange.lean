import ControlLogix.Uplink

/-!
# One exchange, whatever the chunks

`Session`, `ExplicitMessage` and `Connection` all run `writePending()` and, when that is through, `readResponse()` in
one `poll()`; `exchange` is the two together.  On a connection that stays up they end with the whole frame read, or
with the header of a frame that is too large, and either way the buffers are a function of the bytes that came
(`received`).

* `readResponse_up`: the receive loop only appends to the receive buffer, and stops short of nothing else;
* `exchange_up`: what one `poll()` does to an exchange (`Exchanged`);
* `Underway`: an exchange some way on, preserved by `exchange` (`Underway.exchange`).
-/

namespace ControlLogix

open Bytes
open TcpConnection (Transfer)
open Buffers (Framed Wrote Got Moved stored bodyLength)

attribute [ext] Buffers

namespace Buffers

/-! ### The receive loop on a connection that stays up -/

/-- What the receive loop did on a connection that stays up, having read `x`. -/
structure Received (cap : Nat) (b : Buffers) (conn : TcpConnection) (st : Status) (b' : Buffers)
    (conn' : TcpConnection) (x : List UInt8) : Prop where
  got : Got cap b conn st b' conn' x
  rx : b'.rx = store b.rx b.rxLen x
  usable : conn'.Usable
  ended : st = .pending ∨ st = .ok ∨
    st = .error ∧ b'.rxLen = 24 ∧ b'.rxExpected = 24 ∧ cap < bodyLength b'.rx

private theorem usable_of_transfer {conn conn' : TcpConnection} {out inp : List UInt8} (hu : conn.Usable)
    (ht : Transfer conn conn' out inp) (hs : conn'.state = conn.state) : conn'.Usable :=
  ⟨by rw [ht.fd]; exact hu.1, hs.trans hu.2⟩

/-- A read that would block leaves everything as it is. -/
private theorem received_blocked {cap : Nat} {b : Buffers} {conn conn' : TcpConnection} {a : RecvAnswer}
    (hf : Framed cap b) (hu : conn.Usable) (hlt : b.rxLen < b.rxExpected)
    (h : conn.read (b.rxExpected - b.rxLen) a = (.ok [], conn')) : Received cap b conn .pending b conn' [] := by
  obtain ⟨ht, -, -, hs⟩ := TcpConnection.read_ok h
  refine ⟨⟨⟨rfl, rfl, rfl⟩, ht, by simp, rfl, hf.fits, hf.within, fun _ => hf, nofun, fun _ => hlt,
    Or.inr (Or.inl rfl), nofun, fun _ => hs⟩, (store_nil _ _).symm, usable_of_transfer hu ht hs, Or.inl rfl⟩

private theorem received_done {cap : Nat} {b : Buffers} {conn : TcpConnection} (hf : Framed cap b) (hu : conn.Usable)
    (hge : ¬ b.rxLen < b.rxExpected) : Received cap b conn .ok b conn [] := by
  have hle := hf.le
  refine ⟨⟨⟨rfl, rfl, rfl⟩, Transfer.refl conn, by simp, rfl, hf.fits, hf.within, fun _ => hf,
    fun _ => by omega, nofun, Or.inl rfl, nofun, fun _ => rfl⟩, (store_nil _ _).symm, hu, Or.inr (Or.inl rfl)⟩

/-- A read of some bytes, followed by the rest of the loop. -/
private theorem Received.after {cap : Nat} {b b₁ b' : Buffers} {conn conn₁ conn' : TcpConnection} {st : Status}
    {bs y : List UInt8} (h : Received cap b₁ conn₁ st b' conn' y) (hf : Framed cap b)
    (ht : Transfer conn conn₁ [] bs) (hs : conn₁.state = conn.state) (htx : b₁.tx = b.tx ∧ b₁.txLen = b.txLen ∧
      b₁.txSent = b.txSent) (hrx : b₁.rx = (stored b bs).rx) (hlen : b₁.rxLen = (stored b bs).rxLen) :
    Received cap b conn st b' conn' (bs ++ y) := by
  have hbytes : b₁.rx.take b₁.rxLen = b.rx.take b.rxLen ++ bs := by
    rw [hrx, hlen]
    exact stored_bytes hf bs
  refine ⟨⟨⟨h.got.tx.1.trans htx.1, h.got.tx.2.1.trans htx.2.1, h.got.tx.2.2.trans htx.2.2⟩,
    ht.trans h.got.transfer, ?_, ?_, h.got.fits, h.got.within, h.got.live, h.got.ok, h.got.pending, h.got.status,
    h.got.closed, fun e => (h.got.alive e).trans hs⟩, ?_, h.usable, h.ended⟩
  · rw [h.got.bytes, hbytes, List.append_assoc]
  · rw [h.got.len, hlen, List.length_append]
    change b.rxLen + bs.length + y.length = b.rxLen + (bs.length + y.length)
    omega
  · rw [h.rx, hrx, hlen]
    exact store_store bs y hf.fits

theorem readResponse_up {cap : Nat} {b b' : Buffers} {conn conn' : TcpConnection} {as : List RecvAnswer} {st : Status}
    (hf : Framed cap b) (hu : conn.Usable) (hup : ∀ a ∈ as, a.Up)
    (h : b.readResponse cap conn as = (st, b', conn')) : ∃ x, Received cap b conn st b' conn' x := by
  induction as generalizing b conn with
  | nil =>
    unfold readResponse at h
    split at h
    · rename_i hlt
      have hleft : b.rxExpected - b.rxLen ≠ 0 := by omega
      obtain ⟨t, ht⟩ := TcpConnection.read_failed hu hleft .ewouldblock
      rw [if_pos (Or.inl rfl)] at ht
      rw [ht] at h
      simp only [Prod.mk.injEq] at h
      obtain ⟨rfl, rfl, rfl⟩ := h
      exact ⟨[], received_blocked hf hu hlt ht⟩
    · rename_i hge
      simp only [Prod.mk.injEq] at h
      obtain ⟨rfl, rfl, rfl⟩ := h
      exact ⟨[], received_done hf hu hge⟩
  | cons a as ih =>
    have hrest : ∀ a ∈ as, a.Up := fun c hc => hup c (List.mem_cons_of_mem _ hc)
    have ha : a.Up := hup a List.mem_cons_self
    unfold readResponse at h
    split at h
    · rename_i hlt
      have hleft : b.rxExpected - b.rxLen ≠ 0 := by omega
      cases a with
      | data k =>
        obtain ⟨t, ht⟩ := TcpConnection.read_data hu hleft k
        obtain ⟨htr, hle, -, hs⟩ := TcpConnection.read_ok ht
        rw [ht] at h
        generalize conn.sock.inbox.take (min (k + 1) (b.rxExpected - b.rxLen)) = bs at ht h htr hle
        cases bs with
        | nil =>
          simp only [Prod.mk.injEq] at h
          obtain ⟨rfl, rfl, rfl⟩ := h
          exact ⟨[], received_blocked hf hu hlt ht⟩
        | cons c cs =>
          have hu₁ := usable_of_transfer hu htr hs
          dsimp only at h
          split at h
          · rename_i h24
            split at h
            · -- the frame is too large
              rename_i hlarge
              simp only [Prod.mk.injEq] at h
              obtain ⟨rfl, rfl, rfl⟩ := h
              have hexp : b.rxExpected = 24 := by
                have hpos : (stored b (c :: cs)).rxLen = b.rxLen + (c :: cs).length := rfl
                refine hf.head ?_
                rw [hpos] at h24
                simp only [List.length_cons, kEncapsulationHeaderSize] at h24
                omega
              exact ⟨c :: cs, ⟨⟨rfl, rfl, rfl⟩, htr, stored_bytes hf _, rfl, stored_fits hf _,
                fun _ => by rw [show (stored b (c :: cs)).rxLen = 24 from h24]; omega,
                by simp, by simp, by simp, by simp, by simp, by simp⟩,
                rfl, hu₁, Or.inr (Or.inr ⟨rfl, h24, hexp, hlarge⟩)⟩
            · rename_i hcap
              -- the header is complete: the loop goes on with the length it announces
              obtain ⟨y, hy⟩ := ih (stored_header hf (c :: cs) h24 (Nat.le_of_not_lt hcap)) hu₁ hrest h
              exact ⟨_, hy.after hf htr hs ⟨rfl, rfl, rfl⟩ rfl rfl⟩
          · rename_i h24
            obtain ⟨y, hy⟩ := ih (stored_framed hf (List.cons_ne_nil c cs) hle hlt h24) hu₁ hrest h
            exact ⟨_, hy.after hf htr hs ⟨rfl, rfl, rfl⟩ rfl rfl⟩
      | eof => exact absurd ha id
      | failed e =>
        have he : e = .ewouldblock ∨ e = .eagain := ha
        obtain ⟨t, ht⟩ := TcpConnection.read_failed hu hleft e
        rw [if_pos he] at ht
        rw [ht] at h
        simp only [Prod.mk.injEq] at h
        obtain ⟨rfl, rfl, rfl⟩ := h
        exact ⟨[], received_blocked hf hu hlt ht⟩
    · rename_i hge
      simp only [Prod.mk.injEq] at h
      obtain ⟨rfl, rfl, rfl⟩ := h
      exact ⟨[], received_done hf hu hge⟩

/-! ### Both loops -/

/-- The two loops of one `poll()`. -/
def exchange (cap : Nat) (b : Buffers) (conn : TcpConnection) (os : Platform) : Status × Buffers × TcpConnection :=
  match b.writePending conn os.sends with
  | (.ok, b, conn) => b.readResponse cap conn os.recvs
  | r => r

/-- How an exchange stands after `exchange` returned `st`. -/
inductive Turnout (cap : Nat) (b : Buffers) : Status → Prop where
  /-- The request is not out yet. -/
  | sending (h : b.txSent < b.txLen) (unread : b.rxLen < b.rxExpected) : Turnout cap b .pending
  | receiving (sent : b.txLen ≤ b.txSent) (h : b.rxLen < b.rxExpected) : Turnout cap b .pending
  | whole (sent : b.txLen ≤ b.txSent) (h : b.rxLen = b.rxExpected) : Turnout cap b .ok
  | large (sent : b.txLen ≤ b.txSent) (h : b.rxLen = 24 ∧ b.rxExpected = 24) (large : cap < bodyLength b.rx) :
      Turnout cap b .error

/-- What the two loops did on a connection that stays up, having read `inp`. -/
structure Exchanged (cap : Nat) (b : Buffers) (conn : TcpConnection) (st : Status) (b' : Buffers)
    (conn' : TcpConnection) (inp : List UInt8) : Prop where
  moved : Moved b conn b' conn' inp
  rx : b'.rx = store b.rx b.rxLen inp
  usable : conn'.Usable
  framed : st ≠ .error → Framed cap b'
  turnout : Turnout cap b' st

/-- On a connection that stays up `writePending()` waits or is through. -/
theorem exchange_split {cap : Nat} {b b' : Buffers} {conn conn' : TcpConnection} {os : Platform} {st : Status}
    (hfit : b.txLen ≤ b.tx.length) (hu : conn.Usable) (hup : os.Up)
    (h : b.exchange cap conn os = (st, b', conn')) :
    (st = .pending ∧ b.writePending conn os.sends = (.pending, b', conn')) ∨
      ∃ b₁ conn₁, b.writePending conn os.sends = (.ok, b₁, conn₁) ∧
        b₁.readResponse cap conn₁ os.recvs = (st, b', conn') := by
  obtain ⟨st₁, b₁, conn₁, hw⟩ : ∃ st b₁ conn₁, b.writePending conn os.sends = (st, b₁, conn₁) := ⟨_, _, _, rfl⟩
  have hstatus := writePending_status os.sends hfit hu
  unfold exchange at h
  rw [hw] at h hstatus
  rcases sending_up hup.sends (b.txLen - b.txSent) with hs | hs
  · rw [hs] at hstatus
    change st₁ = .pending at hstatus
    subst hstatus
    simp only [Prod.mk.injEq] at h
    obtain ⟨rfl, rfl, rfl⟩ := h
    exact Or.inl ⟨rfl, hw⟩
  · rw [hs] at hstatus
    change st₁ = .ok at hstatus
    subst hstatus
    exact Or.inr ⟨b₁, conn₁, hw, h⟩

theorem exchange_up {cap : Nat} {b b' : Buffers} {conn conn' : TcpConnection} {os : Platform} {st : Status}
    (hf : Framed cap b) (hfit : b.txLen ≤ b.tx.length) (hmore : b.rxLen < b.rxExpected) (hu : conn.Usable)
    (hup : os.Up) (h : b.exchange cap conn os = (st, b', conn')) : ∃ inp, Exchanged cap b conn st b' conn' inp := by
  have hkept : ∀ {st₁ b₁ conn₁}, b.writePending conn os.sends = (st₁, b₁, conn₁) →
      b₁.rx = b.rx ∧ b₁.rxLen = b.rxLen ∧ b₁.rxExpected = b.rxExpected ∧ b₁.txLen = b.txLen := by
    intro st₁ b₁ conn₁ hw
    rw [(writePending_spec hw).frame]
    exact ⟨rfl, rfl, rfl, rfl⟩
  rcases exchange_split hfit hu hup h with ⟨rfl, hw⟩ | ⟨b₁, conn₁, hw, hr⟩
  · have hspec := writePending_spec hw
    have hrx := hkept hw
    refine ⟨[], hspec.moved hf, ?_, usable_of_transfer hu hspec.transfer (hspec.alive (Or.inr rfl)),
      fun _ => hspec.framed hf, .sending ?_ ?_⟩
    · rw [store_nil]
      exact hrx.1
    · rw [hrx.2.2.2]
      exact hspec.unsent nofun
    · rw [hrx.2.1, hrx.2.2.1]
      exact hmore
  · have hspec := writePending_spec hw
    have hrx := hkept hw
    have hu₁ := usable_of_transfer hu hspec.transfer (hspec.alive (Or.inl rfl))
    obtain ⟨x, hr⟩ := readResponse_up (hspec.framed hf) hu₁ hup.recvs hr
    have hmoved := hspec.moved_got hr.got
    have hsent : b'.txLen ≤ b'.txSent := by
      rw [hr.got.tx.2.1, hr.got.tx.2.2, hrx.2.2.2]
      exact hspec.ok rfl
    refine ⟨x, hmoved, ?_, hr.usable, fun hne => ?_, ?_⟩
    · rw [hr.rx, hrx.1, hrx.2.1]
    · rcases hr.ended with e | e | ⟨e, -⟩
      · exact hr.got.live (Or.inr e)
      · exact hr.got.live (Or.inl e)
      · exact absurd e hne
    · rcases hr.ended with e | e | ⟨e, h1, h2, h3⟩
      · subst e
        exact .receiving hsent (hr.got.pending rfl)
      · subst e
        exact .whole hsent (hr.got.ok rfl)
      · subst e
        exact .large hsent ⟨h1, h2⟩ h3

/-- The status of the two loops, from their inputs. -/
theorem exchange_status {cap : Nat} {b : Buffers} {conn : TcpConnection} {os : Platform} (hf : Framed cap b)
    (hfit : b.txLen ≤ b.tx.length) (hu : conn.Usable) (hs : sending (b.txLen - b.txSent) os.sends = .complete) :
    (b.exchange cap conn os).1 = (receiving cap (stream b conn) b.rxLen os.recvs).status := by
  obtain ⟨st₁, b₁, conn₁, hw⟩ : ∃ st b₁ conn₁, b.writePending conn os.sends = (st, b₁, conn₁) := ⟨_, _, _, rfl⟩
  have hspec := writePending_spec hw
  have hstatus := writePending_status os.sends hfit hu
  rw [hw, hs] at hstatus
  change st₁ = .ok at hstatus
  subst hstatus
  have hu₁ := usable_of_transfer hu hspec.transfer (hspec.alive (Or.inl rfl))
  have hread := readResponse_status os.recvs (hspec.framed hf) hu₁
  have hframe := hspec.frame
  have hstream : stream b₁ conn₁ = stream b conn := by
    have hinbox := hspec.transfer.inbox
    rw [List.nil_append] at hinbox
    rw [stream, stream, hinbox, hframe]
  have hlen : b₁.rxLen = b.rxLen := by
    rw [hframe]
  unfold exchange
  rw [hw]
  dsimp only
  rw [hread, hstream, hlen]

/-- The request is out when the socket layer takes all of it. -/
theorem exchange_sent {cap : Nat} {b b' : Buffers} {conn conn' : TcpConnection} {os : Platform} {st : Status}
    (hf : Framed cap b) (hfit : b.txLen ≤ b.tx.length) (hu : conn.Usable) (hup : os.Up)
    (hs : sending (b.txLen - b.txSent) os.sends = .complete) (h : b.exchange cap conn os = (st, b', conn')) :
    b.txLen ≤ b'.txSent := by
  have hstatus := writePending_status os.sends hfit hu
  rw [hs] at hstatus
  rcases exchange_split hfit hu hup h with ⟨-, hw⟩ | ⟨b₁, conn₁, hw, hr⟩
  · rw [hw] at hstatus
    cases hstatus
  · have hspec := writePending_spec hw
    obtain ⟨x, hgot⟩ := readResponse_spec (hspec.framed hf) hr
    rw [hgot.tx.2.2]
    exact hspec.ok rfl

/-! ### An exchange some way on -/

/-- The buffers of a request that has just been started. -/
structure Loaded (b : Buffers) : Prop where
  fits : b.txLen ≤ b.tx.length
  sent : b.txSent = 0
  rxLen : b.rxLen = 0
  rxExpected : b.rxExpected = 24

theorem Loaded.framed {b : Buffers} (h : b.Loaded) (cap : Nat) : Framed cap b := by
  have h1 := h.rxLen
  have h2 := h.rxExpected
  refine ⟨by omega, by omega, fun _ => h2, fun h24 => by omega⟩

/-- The exchange that started with the buffers `b₀` on the connection `conn₀` has come to `b` and `conn`; `arrived` is
all that was at the socket then or has come since. -/
structure Underway (cap : Nat) (b₀ : Buffers) (conn₀ : TcpConnection) (arrived : List UInt8) (b : Buffers)
    (conn : TcpConnection) : Prop where
  tx : b.tx = b₀.tx ∧ b.txLen = b₀.txLen
  sent : b.txSent ≤ b.txLen
  written : conn.sock.sent = conn₀.sock.sent ++ b₀.tx.take b.txSent
  rx : b.rx = store b₀.rx 0 (arrived.take b.rxLen)
  within : b.rxLen ≤ arrived.length
  read : conn.sock.recvd = conn₀.sock.recvd ++ arrived.take b.rxLen
  inbox : conn.sock.inbox = arrived.drop b.rxLen
  usable : conn.Usable

theorem Loaded.underway {b : Buffers} (h : b.Loaded) (cap : Nat) {conn : TcpConnection} (hu : conn.Usable) :
    Underway cap b conn conn.sock.inbox b conn := by
  have h1 := h.sent
  have h2 := h.rxLen
  refine ⟨⟨rfl, rfl⟩, by omega, ?_, ?_, by omega, ?_, ?_, hu⟩
  · rw [h1, List.take_zero, List.append_nil]
  · rw [h2, List.take_zero, store_nil]
  · rw [h2, List.take_zero, List.append_nil]
  · rw [h2, List.drop_zero]

section Underway

variable {cap : Nat} {b₀ b b' : Buffers} {conn₀ conn conn' : TcpConnection} {arrived inp : List UInt8} {st : Status}

/-- More bytes come to the socket. -/
theorem Underway.deliver (h : Underway cap b₀ conn₀ arrived b conn) (bs : List UInt8) :
    Underway cap b₀ conn₀ (arrived ++ bs) b (conn.deliver bs) := by
  have hlen := h.within
  have htake : (arrived ++ bs).take b.rxLen = arrived.take b.rxLen := List.take_append_of_le_length hlen
  refine ⟨h.tx, h.sent, h.written, ?_, ?_, ?_, ?_, h.usable⟩
  · rw [htake]
    exact h.rx
  · rw [List.length_append]
    omega
  · rw [htake]
    exact h.read
  · change conn.sock.inbox ++ bs = (arrived ++ bs).drop b.rxLen
    rw [h.inbox, List.drop_append_of_le_length hlen]

/-- One `poll()` takes the exchange on. -/
theorem Underway.exchange (h : Underway cap b₀ conn₀ arrived b conn)
    (hx : Exchanged cap b conn st b' conn' inp) : Underway cap b₀ conn₀ arrived b' conn' := by
  have hm := hx.moved
  have hsplit : arrived.drop b.rxLen = inp ++ conn'.sock.inbox := by
    rw [← h.inbox]
    exact hm.transfer.inbox
  have hbound := hm.bound
  have hmono := hm.mono
  have hsent := h.sent
  have hlen : b'.rxLen = b.rxLen + inp.length := hm.len
  have hle : b.rxLen + inp.length ≤ arrived.length := by
    have hl := congrArg List.length hsplit
    rw [List.length_drop, List.length_append] at hl
    have := h.within
    omega
  have htake : arrived.take (b.rxLen + inp.length) = arrived.take b.rxLen ++ inp := by
    rw [List.take_add, hsplit, List.take_left]
  refine ⟨⟨hm.tx.1.trans h.tx.1, hm.tx.2.trans h.tx.2⟩, ?_, ?_, ?_, ?_, ?_, ?_, hx.usable⟩
  · rw [hm.tx.2]
    omega
  · rw [hm.transfer.sent, h.written, h.tx.1, List.append_assoc]
    congr 1
    have hsum : b'.txSent = b.txSent + (b'.txSent - b.txSent) := by omega
    conv => rhs; rw [hsum, List.take_add]
  · have hfirst : (arrived.take b.rxLen).length = b.rxLen := by
      rw [List.length_take]
      have := h.within
      omega
    have hstore := store_store (arrived.take b.rxLen) inp (Nat.zero_le b₀.rx.length)
    rw [Nat.zero_add, hfirst] at hstore
    rw [hx.rx, h.rx, hlen, htake]
    exact hstore
  · rw [hlen]
    exact hle
  · rw [hm.transfer.recvd, h.read, hlen, htake, List.append_assoc]
  · rw [hlen, ← List.drop_drop, hsplit, List.drop_left]

end Underway

/-! ### The end of an exchange -/

/-- The bytes an exchange reads: the frame at the beginning of `arrived`, or its header when the frame is too
large. -/
def taken (cap : Nat) (arrived : List UInt8) : Nat := if cap < bodyLength arrived then 24 else 24 + bodyLength arrived

/-- The status the exchange ends with. -/
def verdict (cap : Nat) (arrived : List UInt8) : Status := if cap < bodyLength arrived then .error else .ok

/-- The buffers `b` of a request once the frame at the beginning of `arrived` has been read. -/
def received (cap : Nat) (b : Buffers) (arrived : List UInt8) : Buffers :=
  { b with txSent := b.txLen, rx := store b.rx 0 (arrived.take (taken cap arrived)), rxLen := taken cap arrived,
           rxExpected := taken cap arrived }

theorem taken_ge (cap : Nat) (arrived : List UInt8) : 24 ≤ taken cap arrived := by
  unfold taken
  split <;> omega

theorem taken_le (cap : Nat) (arrived : List UInt8) : taken cap arrived ≤ 24 + cap := by
  unfold taken
  split <;> omega

theorem taken_congr {cap : Nat} {as bs : List UInt8} (h : as.take 24 = bs.take 24) : taken cap as = taken cap bs := by
  rw [taken, taken, bodyLength_congr h]

theorem verdict_congr {cap : Nat} {as bs : List UInt8} (h : as.take 24 = bs.take 24) :
    verdict cap as = verdict cap bs := by
  rw [verdict, verdict, bodyLength_congr h]

/-- What comes after the frame does not matter. -/
theorem received_append {cap : Nat} {arrived : List UInt8} (h : taken cap arrived ≤ arrived.length) (b : Buffers)
    (more : List UInt8) :
    received cap b (arrived ++ more) = received cap b arrived ∧ verdict cap (arrived ++ more) = verdict cap arrived ∧
      taken cap (arrived ++ more) = taken cap arrived := by
  have hge := taken_ge cap arrived
  have hhead : (arrived ++ more).take 24 = arrived.take 24 := List.take_append_of_le_length (by omega)
  have htaken : taken cap (arrived ++ more) = taken cap arrived := taken_congr hhead
  refine ⟨?_, verdict_congr hhead, htaken⟩
  unfold received
  rw [htaken, List.take_append_of_le_length h]

section Ends

variable {cap : Nat} {b₀ b b' : Buffers} {conn₀ conn conn' : TcpConnection} {arrived : List UInt8} {st : Status}

/-- What has been read is the beginning of `arrived`. -/
private theorem Underway.bytes (h : Underway cap b₀ conn₀ arrived b conn) :
    b.rx.take b.rxLen = arrived.take b.rxLen := by
  have hlen : (arrived.take b.rxLen).length = b.rxLen := by
    have := h.within
    rw [List.length_take]
    omega
  have hstore := take_store (arrived.take b.rxLen) (Nat.zero_le b₀.rx.length)
  rw [Nat.zero_add, hlen, List.take_zero, List.nil_append] at hstore
  rw [h.rx]
  exact hstore

/-- The header that has been read is the one at the beginning of `arrived`. -/
private theorem Underway.bodyLength (h : Underway cap b₀ conn₀ arrived b conn) (h24 : 24 ≤ b.rxLen) :
    Buffers.bodyLength b.rx = Buffers.bodyLength arrived := by
  apply bodyLength_congr
  have hcut := congrArg (List.take 24) h.bytes
  rwa [List.take_take, List.take_take, Nat.min_eq_left h24] at hcut

/-- An exchange that ends has read the frame at the beginning of what arrived, or the header of one that is too
large. -/
theorem Underway.ended (h : Underway cap b₀ conn₀ arrived b conn) (hf : st ≠ .error → Framed cap b)
    (hend : Turnout cap b st) (hst : st ≠ .pending) :
    st = verdict cap arrived ∧ b = received cap b₀ arrived ∧ taken cap arrived ≤ arrived.length := by
  have hsent := h.sent
  have hwithin := h.within
  -- the buffers are fixed by the length of what was read
  have hfields : ∀ k, b.rxLen = k → b.rxExpected = k → b.txLen ≤ b.txSent → k = taken cap arrived →
      b = received cap b₀ arrived := by
    intro k h1 h2 h3 h4
    have htx : b.txSent = b₀.txLen := by
      rw [← h.tx.2]
      omega
    have hrx := h.rx
    rw [h1, h4] at hrx
    exact Buffers.ext h.tx.1 h.tx.2 htx hrx (h1.trans h4) (h2.trans h4)
  cases hend with
  | sending => exact absurd rfl hst
  | receiving => exact absurd rfl hst
  | whole sent hfull =>
    have hframed := hf nofun
    have h24 : 24 ≤ b.rxLen := by
      by_contra hlt
      have := hframed.head (by omega)
      omega
    obtain ⟨hexp, hcap⟩ := hframed.body h24
    rw [h.bodyLength h24] at hexp hcap
    have hsmall : ¬ cap < Buffers.bodyLength arrived := by omega
    have htaken : b.rxExpected = taken cap arrived := by
      rw [taken, if_neg hsmall]
      exact hexp
    refine ⟨?_, hfields b.rxExpected hfull rfl sent htaken, by omega⟩
    rw [verdict, if_neg hsmall]
  | large sent hfull hlarge =>
    rw [h.bodyLength (by omega)] at hlarge
    have htaken : 24 = taken cap arrived := by
      rw [taken, if_pos hlarge]
    refine ⟨?_, hfields 24 hfull.1 hfull.2 sent htaken, by omega⟩
    rw [verdict, if_pos hlarge]

/-- What the socket layer answers when nothing is split. -/
def atOnce (millis : Nat → UInt32) : Platform where
  millis := millis
  sends := [.accepted 1000]
  recvs := [.data 1000, .data 1000]

theorem atOnce_up (millis : Nat → UInt32) : (atOnce millis).Up := by
  constructor
  · intro a ha
    rw [List.mem_singleton.1 ha]
    trivial
  · intro a ha
    rcases List.mem_cons.1 ha with rfl | ha
    · trivial
    · rw [List.mem_singleton.1 ha]
      trivial

theorem sending_atOnce {left : Nat} (h : left ≤ 900) (millis : Nat → UInt32) :
    sending left (Buffers.atOnce millis).sends = .complete := by
  unfold Buffers.atOnce sending
  split
  · rfl
  · unfold sending
    rw [if_neg (by omega), if_pos (by omega)]

/-- With nothing split, what has arrived of a frame is read in two calls of `read()` at most. -/
private theorem receiving_atOnce {pos : Nat} (hcap : cap ≤ 900) (harrived : taken cap arrived ≤ arrived.length)
    (hsmall : 24 ≤ pos → Buffers.bodyLength arrived ≤ cap) (millis : Nat → UInt32) :
    receiving cap arrived pos (Buffers.atOnce millis).recvs ≠ .blocked := by
  have hge := taken_ge cap arrived
  -- the body, when its length is known to fit
  have hbody : ∀ (pos : Nat) (as : List RecvAnswer), 24 ≤ pos → Buffers.bodyLength arrived ≤ cap →
      receiving cap arrived pos (.data 1000 :: as) ≠ .blocked := by
    intro pos as h24 hfits
    have hneed : needed arrived pos = 24 + Buffers.bodyLength arrived := if_neg (by omega)
    rw [taken, if_neg (by omega)] at harrived
    unfold receiving
    dsimp only
    rw [hneed]
    split
    · decide
    · rename_i hmore
      have hgot : min (min (1000 + 1) (24 + Buffers.bodyLength arrived - pos)) (arrived.length - pos) =
          24 + Buffers.bodyLength arrived - pos := by omega
      rw [hgot, if_neg (by omega), if_neg (by omega)]
      have hend : needed arrived (pos + (24 + Buffers.bodyLength arrived - pos)) ≤
          pos + (24 + Buffers.bodyLength arrived - pos) := by
        rw [needed, if_neg (by omega)]
        omega
      cases as with
      | nil =>
        unfold receiving
        rw [if_pos hend]
        decide
      | cons a as =>
        unfold receiving
        cases a <;> (dsimp only; rw [if_pos hend]; decide)
  by_cases h24 : 24 ≤ pos
  · exact hbody pos _ h24 (hsmall h24)
  · have hneed : needed arrived pos = 24 := if_pos (by omega)
    have hgot : min (min (1000 + 1) (24 - pos)) (arrived.length - pos) = 24 - pos := by omega
    have hpos : pos + (24 - pos) = 24 := by omega
    unfold Buffers.atOnce receiving
    dsimp only
    rw [hneed, hgot, if_neg (by omega), if_neg (by omega), hpos]
    split
    · decide
    · rename_i hfits
      exact hbody 24 _ (Nat.le_refl _) (Nat.le_of_not_lt fun hlarge => hfits ⟨rfl, hlarge⟩)

/-- An exchange whose frame has arrived ends in one `poll()` when nothing is split. -/
theorem Underway.atOnce (h : Underway cap b₀ conn₀ arrived b conn) (hf : Framed cap b) (hcap : cap ≤ 900)
    (hfit : b.txLen ≤ b.tx.length) (hlen : b.txLen ≤ 900) (harrived : taken cap arrived ≤ arrived.length)
    (millis : Nat → UInt32) : (b.exchange cap conn (Buffers.atOnce millis)).1 ≠ .pending := by
  have hstream : stream b conn = arrived := by
    rw [stream, h.bytes, h.inbox, List.take_append_drop]
  have hsend : sending (b.txLen - b.txSent) (Buffers.atOnce millis).sends = .complete :=
    sending_atOnce (by omega) millis
  have hfits : 24 ≤ b.rxLen → Buffers.bodyLength arrived ≤ cap := by
    intro h24
    rw [← h.bodyLength h24]
    have hbody := hf.body h24
    omega
  have hends := receiving_atOnce hcap harrived hfits millis
  rw [exchange_status hf hfit h.usable hsend, hstream]
  intro hpending
  apply hends
  revert hpending
  cases receiving cap arrived b.rxLen (Buffers.atOnce millis).recvs <;> simp [Ending.status]

end Ends

end Buffers

end ControlLogix
