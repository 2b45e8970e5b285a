import ControlLogix.Encapsulation
import ControlLogix.TcpConnection

/-!
# Transmit and receive cursors

`Session`, `ExplicitMessage` and `Connection` each hold a transmit buffer with `txLen_` and `txSent_`, a receive
buffer with `rxLen_` and `rxExpected_`, and the same two loops over them: `writePending()` and `readResponse()`, which
differ in the cap on the body length only.  A loop turn takes one answer of the socket layer; when the list of
answers is used up the next call of the socket layer would block.

* `writePending_spec`: what was handed to the socket is the part of the frame between the old and the new cursor;
* `readResponse_spec`: what was taken from the socket is what the receive buffer gained, and the cursor stays
  within the frame announced by the header.
-/

namespace ControlLogix

open Bytes
open TcpConnection (Transfer)

structure Buffers where
  tx : List UInt8 := []
  txLen : Nat := 0
  txSent : Nat := 0
  rx : List UInt8 := []
  rxLen : Nat := 0
  rxExpected : Nat := 0
  deriving DecidableEq, Repr

namespace Buffers

def writePending (b : Buffers) (conn : TcpConnection) : List SendAnswer → Status × Buffers × TcpConnection
  | [] =>
    if b.txSent < b.txLen then
      match conn.write ((b.tx.drop b.txSent).take (b.txLen - b.txSent)) (.failed .ewouldblock) with
      | (.ok _, conn) => (.pending, b, conn)
      | (.error st, conn) => (st, b, conn)
    else (.ok, b, conn)
  | a :: as =>
    if b.txSent < b.txLen then
      match conn.write ((b.tx.drop b.txSent).take (b.txLen - b.txSent)) a with
      | (.ok 0, conn) => (.pending, b, conn)
      | (.ok (n + 1), conn) => writePending { b with txSent := b.txSent + (n + 1) } conn as
      | (.error st, conn) => (st, b, conn)
    else (.ok, b, conn)

/-- The buffers after one `read()` that returned `bs`. -/
def stored (b : Buffers) (bs : List UInt8) : Buffers :=
  { b with rx := store b.rx b.rxLen bs, rxLen := b.rxLen + bs.length }

def readResponse (cap : Nat) (b : Buffers) (conn : TcpConnection) :
    List RecvAnswer → Status × Buffers × TcpConnection
  | [] =>
    if b.rxLen < b.rxExpected then
      match conn.read (b.rxExpected - b.rxLen) (.failed .ewouldblock) with
      | (.ok _, conn) => (.pending, b, conn)
      | (.error st, conn) => (st, b, conn)
    else (.ok, b, conn)
  | a :: as =>
    if b.rxLen < b.rxExpected then
      match conn.read (b.rxExpected - b.rxLen) a with
      | (.ok [], conn) => (.pending, b, conn)
      | (.ok (c :: cs), conn) =>
        let b := b.stored (c :: cs)
        if b.rxLen = kEncapsulationHeaderSize then
          let h := decodeHeader b.rx
          if h.length.toNat > cap then (.error, b, conn)
          else readResponse cap { b with rxExpected := kEncapsulationHeaderSize + h.length.toNat } conn as
        else readResponse cap b conn as
      | (.error st, conn) => (st, b, conn)
    else (.ok, b, conn)

/-! ### Writing -/

/-- What `writePending()` did when it returned `st`. -/
structure Wrote (b : Buffers) (conn : TcpConnection) (st : Status) (b' : Buffers) (conn' : TcpConnection) :
    Prop where
  frame : b' = { b with txSent := b'.txSent }
  mono : b.txSent ≤ b'.txSent
  bound : b'.txSent ≤ max b.txSent b.txLen
  transfer : Transfer conn conn' ((b.tx.drop b.txSent).take (b'.txSent - b.txSent)) []
  ok : st = .ok → b.txLen ≤ b'.txSent
  unsent : st ≠ .ok → b'.txSent < b.txLen
  status : st = .ok ∨ st = .pending ∨ st = .closed ∨ st = .error ∨ st = .invalidArg
  closed : st = .closed → ¬ conn'.Usable
  alive : st = .ok ∨ st = .pending → conn'.state = conn.state

private theorem wrote_stop {b : Buffers} {conn conn' : TcpConnection} {st : Status} {a : SendAnswer}
    (hlt : b.txSent < b.txLen)
    (h : conn.write ((b.tx.drop b.txSent).take (b.txLen - b.txSent)) a = (.error st, conn')) :
    Wrote b conn st b conn' := by
  obtain ⟨ht, hst⟩ := TcpConnection.write_error h
  have hne : st ≠ .ok ∧ st ≠ .pending := by
    rcases hst with ⟨rfl, -⟩ | ⟨rfl, -⟩ | rfl <;> simp
  refine ⟨rfl, Nat.le_refl _, Nat.le_max_left _ _, by simpa using ht, fun e => absurd e hne.1, fun _ => hlt, ?_,
    ?_, ?_⟩
  · rcases hst with ⟨rfl, -⟩ | ⟨rfl, -⟩ | rfl <;> simp
  · rintro rfl
    rcases hst with ⟨-, hu⟩ | ⟨h', -⟩ | h'
    · exact hu
    · cases h'
    · cases h'
  · rintro (e | e)
    · exact absurd e hne.1
    · exact absurd e hne.2

private theorem wrote_pending {b : Buffers} {conn conn' : TcpConnection} {a : SendAnswer} {n : Nat}
    (hlt : b.txSent < b.txLen)
    (h : conn.write ((b.tx.drop b.txSent).take (b.txLen - b.txSent)) a = (.ok n, conn')) (hn : n = 0) :
    Wrote b conn .pending b conn' := by
  subst hn
  obtain ⟨ht, -, -, hs⟩ := TcpConnection.write_ok h
  exact ⟨rfl, Nat.le_refl _, Nat.le_max_left _ _, by simpa using ht, nofun, fun _ => hlt, Or.inr (Or.inl rfl),
    nofun, fun _ => hs⟩

private theorem wrote_done {b : Buffers} {conn : TcpConnection} (hge : ¬ b.txSent < b.txLen) :
    Wrote b conn .ok b conn :=
  ⟨rfl, Nat.le_refl _, Nat.le_max_left _ _, by simpa using Transfer.refl conn, fun _ => Nat.le_of_not_lt hge,
    fun e => absurd rfl e, Or.inl rfl, nofun, fun _ => rfl⟩

theorem writePending_spec {b b' : Buffers} {conn conn' : TcpConnection} {as : List SendAnswer} {st : Status}
    (h : b.writePending conn as = (st, b', conn')) : Wrote b conn st b' conn' := by
  induction as generalizing b conn with
  | nil =>
    unfold writePending at h
    split at h
    · rename_i hlt
      split at h
      · rename_i n conn₁ hw
        simp only [Prod.mk.injEq] at h
        obtain ⟨rfl, rfl, rfl⟩ := h
        refine wrote_pending hlt hw ?_
        unfold TcpConnection.write at hw
        split at hw
        · cases hw
        · split at hw
          · cases hw
          · simp [Socket.send] at hw
            exact hw.1.symm
      · rename_i st₁ conn₁ hw
        simp only [Prod.mk.injEq] at h
        obtain ⟨rfl, rfl, rfl⟩ := h
        exact wrote_stop hlt hw
    · rename_i hge
      simp only [Prod.mk.injEq] at h
      obtain ⟨rfl, rfl, rfl⟩ := h
      exact wrote_done hge
  | cons a as ih =>
    unfold writePending at h
    split at h
    · rename_i hlt
      split at h
      · rename_i conn₁ hw
        simp only [Prod.mk.injEq] at h
        obtain ⟨rfl, rfl, rfl⟩ := h
        exact wrote_pending hlt hw rfl
      · rename_i n conn₁ hw
        obtain ⟨ht, hn, -, hs⟩ := TcpConnection.write_ok hw
        have hn' : n + 1 ≤ b.txLen - b.txSent := by
          simp at hn
          omega
        obtain ⟨hf, hm, hb, ht', ho, hus, hst, hc, hal⟩ := ih h
        simp only at hf hm hb ht' ho hus hal
        refine ⟨hf, by omega, by omega, ?_, ho, hus, hst, hc, fun e => (hal e).trans hs⟩
        have e := ht.trans ht'
        rw [List.take_take, Nat.min_eq_left hn', ← List.drop_drop, ← List.take_add, List.append_nil] at e
        rwa [show n + 1 + (b'.txSent - (b.txSent + (n + 1))) = b'.txSent - b.txSent by omega] at e
      · rename_i st₁ conn₁ hw
        simp only [Prod.mk.injEq] at h
        obtain ⟨rfl, rfl, rfl⟩ := h
        exact wrote_stop hlt hw
    · rename_i hge
      simp only [Prod.mk.injEq] at h
      obtain ⟨rfl, rfl, rfl⟩ := h
      exact wrote_done hge

/-! ### Reading -/

/-- The number of bytes the header in `rx` announces after itself. -/
def bodyLength (rx : List UInt8) : Nat := (decodeHeader rx).length.toNat

/-- The receive cursor between two turns of `readResponse()` that goes on. -/
structure Framed (cap : Nat) (b : Buffers) : Prop where
  fits : b.rxLen ≤ b.rx.length
  le : b.rxLen ≤ b.rxExpected
  head : b.rxLen < 24 → b.rxExpected = 24
  body : 24 ≤ b.rxLen → b.rxExpected = 24 + bodyLength b.rx ∧ bodyLength b.rx ≤ cap

/-- What `readResponse()` did when it returned `st` and took `x` from the socket. -/
structure Got (cap : Nat) (b : Buffers) (conn : TcpConnection) (st : Status) (b' : Buffers)
    (conn' : TcpConnection) (x : List UInt8) : Prop where
  tx : b'.tx = b.tx ∧ b'.txLen = b.txLen ∧ b'.txSent = b.txSent
  transfer : Transfer conn conn' [] x
  bytes : b'.rx.take b'.rxLen = b.rx.take b.rxLen ++ x
  len : b'.rxLen = b.rxLen + x.length
  fits : b'.rxLen ≤ b'.rx.length
  within : 24 ≤ b'.rxLen → b'.rxLen ≤ 24 + bodyLength b'.rx
  live : st = .ok ∨ st = .pending → Framed cap b'
  ok : st = .ok → b'.rxLen = b'.rxExpected
  pending : st = .pending → b'.rxLen < b'.rxExpected
  status : st = .ok ∨ st = .pending ∨ st = .closed ∨ st = .error
  closed : st = .closed → ¬ conn'.Usable
  alive : st = .ok ∨ st = .pending → conn'.state = conn.state

theorem bodyLength_congr {p q : List UInt8} (h : p.take 24 = q.take 24) : bodyLength p = bodyLength q := by
  rw [bodyLength, bodyLength, decodeHeader_congr h]

theorem Framed.within {cap : Nat} {b : Buffers} (h : Framed cap b) :
    24 ≤ b.rxLen → b.rxLen ≤ 24 + bodyLength b.rx := by
  intro hl
  rw [← (h.body hl).1]
  exact h.le

theorem stored_bytes {cap : Nat} {b : Buffers} (h : Framed cap b) (bs : List UInt8) :
    (stored b bs).rx.take (stored b bs).rxLen = b.rx.take b.rxLen ++ bs :=
  take_store bs h.fits

theorem stored_fits {cap : Nat} {b : Buffers} (h : Framed cap b) (bs : List UInt8) :
    (stored b bs).rxLen ≤ (stored b bs).rx.length :=
  length_store_ge bs h.fits

/-- A read that ends anywhere but at the end of the header leaves the cursor framed. -/
theorem stored_framed {cap : Nat} {b : Buffers} (h : Framed cap b) {bs : List UInt8} (hne : bs ≠ [])
    (hl : bs.length ≤ b.rxExpected - b.rxLen) (hlt : b.rxLen < b.rxExpected) (h24 : (stored b bs).rxLen ≠ 24) :
    Framed cap (stored b bs) := by
  have hpos : 0 < bs.length := List.length_pos_iff.2 hne
  refine ⟨stored_fits h bs, ?_, ?_, ?_⟩
  · simp only [stored]
    omega
  · intro hlt24
    simp only [stored] at hlt24 ⊢
    exact h.head (by omega)
  · intro hge
    simp only [stored] at hge h24 ⊢
    have hb : 24 ≤ b.rxLen := by
      by_cases hb : b.rxLen < 24
      · have := h.head hb
        omega
      · omega
    rw [bodyLength_congr (take_store_of_le bs hb h.fits)]
    exact h.body hb

/-- A read that completes the header leaves the cursor framed once the expected length is set. -/
theorem stored_header {cap : Nat} {b : Buffers} (h : Framed cap b) (bs : List UInt8)
    (h24 : (stored b bs).rxLen = 24) (hcap : bodyLength (stored b bs).rx ≤ cap) :
    Framed cap { stored b bs with rxExpected := 24 + bodyLength (stored b bs).rx } := by
  refine ⟨stored_fits h bs, ?_, ?_, ?_⟩
  · simp only
    omega
  · intro hlt
    simp only at hlt
    omega
  · exact fun _ => ⟨rfl, hcap⟩

private theorem Got.trans {cap : Nat} {b b₁ b' : Buffers} {conn conn₁ conn' : TcpConnection} {st : Status}
    {x y : List UInt8} (h : Got cap b₁ conn₁ st b' conn' y)
    (htx : b₁.tx = b.tx ∧ b₁.txLen = b.txLen ∧ b₁.txSent = b.txSent) (ht : Transfer conn conn₁ [] x)
    (hb : b₁.rx.take b₁.rxLen = b.rx.take b.rxLen ++ x) (hl : b₁.rxLen = b.rxLen + x.length)
    (hs : conn₁.state = conn.state) : Got cap b conn st b' conn' (x ++ y) where
  tx := ⟨h.tx.1.trans htx.1, h.tx.2.1.trans htx.2.1, h.tx.2.2.trans htx.2.2⟩
  transfer := ht.trans h.transfer
  bytes := by rw [h.bytes, hb, List.append_assoc]
  len := by
    rw [h.len, hl, List.length_append]
    omega
  fits := h.fits
  within := h.within
  live := h.live
  ok := h.ok
  pending := h.pending
  status := h.status
  closed := h.closed
  alive := fun e => (h.alive e).trans hs

private theorem got_stop {cap : Nat} {b : Buffers} {conn conn' : TcpConnection} {st : Status} {a : RecvAnswer}
    (hf : Framed cap b) (hlt : b.rxLen < b.rxExpected)
    (h : conn.read (b.rxExpected - b.rxLen) a = (.error st, conn')) : Got cap b conn st b conn' [] := by
  obtain ⟨ht, hst⟩ := TcpConnection.read_error h
  have hst' : st = .closed ∧ ¬ conn'.Usable ∨ st = .error := by
    rcases hst with hst | ⟨-, h0⟩ | hst
    · exact Or.inl hst
    · omega
    · exact Or.inr hst
  have hne : st ≠ .ok ∧ st ≠ .pending := by
    rcases hst' with ⟨rfl, -⟩ | rfl <;> simp
  refine ⟨⟨rfl, rfl, rfl⟩, ht, by simp, rfl, hf.fits, hf.within, fun _ => hf, fun e => absurd e hne.1, fun _ => hlt,
    ?_, ?_, ?_⟩
  · rcases hst' with ⟨rfl, -⟩ | rfl <;> simp
  · rintro rfl
    rcases hst' with ⟨-, hu⟩ | h'
    · exact hu
    · cases h'
  · rintro (e | e)
    · exact absurd e hne.1
    · exact absurd e hne.2

private theorem got_pending {cap : Nat} {b : Buffers} {conn conn' : TcpConnection} {a : RecvAnswer}
    (hf : Framed cap b) (hlt : b.rxLen < b.rxExpected)
    (h : conn.read (b.rxExpected - b.rxLen) a = (.ok [], conn')) : Got cap b conn .pending b conn' [] := by
  obtain ⟨ht, -, -, hs⟩ := TcpConnection.read_ok h
  exact ⟨⟨rfl, rfl, rfl⟩, ht, by simp, rfl, hf.fits, hf.within, fun _ => hf, nofun, fun _ => hlt, Or.inr (Or.inl rfl),
    nofun, fun _ => hs⟩

private theorem got_done {cap : Nat} {b : Buffers} {conn : TcpConnection} (hf : Framed cap b)
    (hge : ¬ b.rxLen < b.rxExpected) : Got cap b conn .ok b conn [] := by
  refine ⟨⟨rfl, rfl, rfl⟩, Transfer.refl conn, by simp, rfl, hf.fits, hf.within, fun _ => hf, fun _ => ?_, nofun,
    Or.inl rfl, nofun, fun _ => rfl⟩
  have := hf.le
  omega

private theorem got_oversized {cap : Nat} {b : Buffers} {conn conn' : TcpConnection} {bs : List UInt8}
    (hf : Framed cap b) (ht : Transfer conn conn' [] bs) (h24 : (stored b bs).rxLen = 24) :
    Got cap b conn .error (stored b bs) conn' bs :=
  ⟨⟨rfl, rfl, rfl⟩, ht, stored_bytes hf bs, rfl, stored_fits hf bs, fun _ => by omega, by simp, nofun, nofun,
    by simp, nofun, by simp⟩

theorem readResponse_spec {cap : Nat} {b b' : Buffers} {conn conn' : TcpConnection} {as : List RecvAnswer}
    {st : Status} (hf : Framed cap b) (h : b.readResponse cap conn as = (st, b', conn')) :
    ∃ x, Got cap b conn st b' conn' x := by
  induction as generalizing b conn with
  | nil =>
    unfold readResponse at h
    split at h
    · rename_i hlt
      split at h
      · rename_i bs conn₁ hr
        simp only [Prod.mk.injEq] at h
        obtain ⟨rfl, rfl, rfl⟩ := h
        have hbs : bs = [] := by
          unfold TcpConnection.read at hr
          split at hr
          · cases hr
          · split at hr
            · cases hr
            · simp [Socket.recv] at hr
              exact hr.1
        subst hbs
        exact ⟨[], got_pending hf hlt hr⟩
      · rename_i st₁ conn₁ hr
        simp only [Prod.mk.injEq] at h
        obtain ⟨rfl, rfl, rfl⟩ := h
        exact ⟨[], got_stop hf hlt hr⟩
    · rename_i hge
      simp only [Prod.mk.injEq] at h
      obtain ⟨rfl, rfl, rfl⟩ := h
      exact ⟨[], got_done hf hge⟩
  | cons a as ih =>
    unfold readResponse at h
    split at h
    · rename_i hlt
      split at h
      · rename_i conn₁ hr
        simp only [Prod.mk.injEq] at h
        obtain ⟨rfl, rfl, rfl⟩ := h
        exact ⟨[], got_pending hf hlt hr⟩
      · rename_i c cs conn₁ hr
        obtain ⟨ht, hl, -, hs⟩ := TcpConnection.read_ok hr
        dsimp only at h
        split at h
        · rename_i h24
          split at h
          · simp only [Prod.mk.injEq] at h
            obtain ⟨rfl, rfl, rfl⟩ := h
            exact ⟨c :: cs, got_oversized hf ht h24⟩
          · rename_i hcap
            -- the header is complete: the loop goes on with the length it announces
            have hf₁ := stored_header hf (c :: cs) h24 (Nat.le_of_not_lt hcap)
            obtain ⟨y, hy⟩ := ih hf₁ h
            exact ⟨(c :: cs) ++ y, hy.trans ⟨rfl, rfl, rfl⟩ ht (stored_bytes hf _) rfl hs⟩
        · rename_i h24
          have hf₁ := stored_framed hf (List.cons_ne_nil c cs) hl hlt h24
          obtain ⟨y, hy⟩ := ih hf₁ h
          exact ⟨(c :: cs) ++ y, hy.trans ⟨rfl, rfl, rfl⟩ ht (stored_bytes hf _) rfl hs⟩
      · rename_i st₁ conn₁ hr
        simp only [Prod.mk.injEq] at h
        obtain ⟨rfl, rfl, rfl⟩ := h
        exact ⟨[], got_stop hf hlt hr⟩
    · rename_i hge
      simp only [Prod.mk.injEq] at h
      obtain ⟨rfl, rfl, rfl⟩ := h
      exact ⟨[], got_done hf hge⟩

/-! ### One call of `poll()` -/

/-- What the two loops of one `poll()` did together, having read `inp` from the socket. -/
structure Moved (b : Buffers) (conn : TcpConnection) (b' : Buffers) (conn' : TcpConnection) (inp : List UInt8) :
    Prop where
  tx : b'.tx = b.tx ∧ b'.txLen = b.txLen
  mono : b.txSent ≤ b'.txSent
  bound : b'.txSent ≤ max b.txSent b.txLen
  transfer : Transfer conn conn' ((b.tx.drop b.txSent).take (b'.txSent - b.txSent)) inp
  sentFirst : inp ≠ [] → b.txLen ≤ b'.txSent
  bytes : b'.rx.take b'.rxLen = b.rx.take b.rxLen ++ inp
  len : b'.rxLen = b.rxLen + inp.length
  fits : b'.rxLen ≤ b'.rx.length
  within : 24 ≤ b'.rxLen → b'.rxLen ≤ 24 + bodyLength b'.rx

theorem Framed.moved_refl {cap : Nat} {b : Buffers} (hf : Framed cap b) (conn : TcpConnection) :
    Moved b conn b conn [] :=
  ⟨⟨rfl, rfl⟩, Nat.le_refl _, Nat.le_max_left _ _, by simpa using Transfer.refl conn, fun h => absurd rfl h,
    by simp, rfl, hf.fits, hf.within⟩

theorem Wrote.framed {cap : Nat} {b b' : Buffers} {conn conn' : TcpConnection} {st : Status}
    (hw : Wrote b conn st b' conn') (hf : Framed cap b) : Framed cap b' := by
  rw [hw.frame]
  exact ⟨hf.fits, hf.le, hf.head, hf.body⟩

theorem Wrote.moved {cap : Nat} {b b' : Buffers} {conn conn' : TcpConnection} {st : Status}
    (hw : Wrote b conn st b' conn') (hf : Framed cap b) : Moved b conn b' conn' [] := by
  have e : b'.tx = b.tx ∧ b'.txLen = b.txLen ∧ b'.rx = b.rx ∧ b'.rxLen = b.rxLen := by
    rw [hw.frame]
    simp
  have hf' := hw.framed hf
  refine ⟨⟨e.1, e.2.1⟩, hw.mono, hw.bound, hw.transfer, fun h => absurd rfl h, ?_, ?_, hf'.fits, hf'.within⟩
  · rw [e.2.2.1, e.2.2.2, List.append_nil]
  · rw [e.2.2.2]
    rfl

theorem Wrote.moved_got {cap : Nat} {b b₁ b₂ : Buffers} {conn conn₁ conn₂ : TcpConnection} {st : Status}
    {x : List UInt8} (hw : Wrote b conn .ok b₁ conn₁) (hg : Got cap b₁ conn₁ st b₂ conn₂ x) :
    Moved b conn b₂ conn₂ x := by
  have e₁ : b₁.tx = b.tx ∧ b₁.txLen = b.txLen ∧ b₁.rx = b.rx ∧ b₁.rxLen = b.rxLen := by
    rw [hw.frame]
    simp
  have e₂ : b₂.txSent = b₁.txSent := hg.tx.2.2
  refine ⟨⟨hg.tx.1.trans e₁.1, hg.tx.2.1.trans e₁.2.1⟩, ?_, ?_, ?_, fun _ => ?_, ?_, ?_, hg.fits, hg.within⟩
  · rw [e₂]
    exact hw.mono
  · rw [e₂]
    exact hw.bound
  · have ht := hw.transfer.trans hg.transfer
    rw [e₂]
    rwa [List.append_nil, List.nil_append] at ht
  · rw [e₂]
    exact hw.ok rfl
  · rw [hg.bytes, e₁.2.2.1, e₁.2.2.2]
  · rw [hg.len, e₁.2.2.2]

end Buffers

end ControlLogix
