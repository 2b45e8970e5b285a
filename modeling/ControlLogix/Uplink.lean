import ControlLogix.Endings

/-!
# An exchange on a connection that stays up

On a connection that stays up the socket layer takes and hands out bytes, or says that it would block.

* `sending_up`, `receiving_up`: the two loops block or are through;
* `poll_up`: a call of `poll()` in time waits, or has read a whole frame and parsed it (`Ended`);
* `poll_progress`: a call of `poll()` to which the socket layer hands out bytes reads some of them.
-/

namespace ControlLogix

open Buffers (Framed Wrote Got stored bodyLength)
open ExplicitMessage (kMaxCipData parse)

def Transient (e : Errno) : Prop := e = .ewouldblock ∨ e = .eagain

def SendAnswer.Up : SendAnswer → Prop
  | .accepted _ => True
  | .failed e => Transient e

def RecvAnswer.Up : RecvAnswer → Prop
  | .data _ => True
  | .eof => False
  | .failed e => Transient e

/-- The answers of the socket layer on a connection that stays up. -/
structure Platform.Up (os : Platform) : Prop where
  sends : ∀ a ∈ os.sends, a.Up
  recvs : ∀ a ∈ os.recvs, a.Up

instance (e : Errno) : Decidable (Transient e) := inferInstanceAs (Decidable (_ ∨ _))

instance : (a : SendAnswer) → Decidable a.Up
  | .accepted _ => .isTrue trivial
  | .failed e => inferInstanceAs (Decidable (Transient e))

instance : (a : RecvAnswer) → Decidable a.Up
  | .data _ => .isTrue trivial
  | .eof => .isFalse id
  | .failed e => inferInstanceAs (Decidable (Transient e))

instance (os : Platform) : Decidable os.Up :=
  decidable_of_iff ((∀ a ∈ os.sends, a.Up) ∧ ∀ a ∈ os.recvs, a.Up) ⟨fun h => ⟨h.1, h.2⟩, fun h => ⟨h.1, h.2⟩⟩

/-! ### The loops -/

theorem sending_up {as : List SendAnswer} (h : ∀ a ∈ as, a.Up) (left : Nat) :
    sending left as = .blocked ∨ sending left as = .complete := by
  induction as generalizing left with
  | nil =>
    unfold sending
    split <;> simp
  | cons a as ih =>
    have hrest : ∀ a ∈ as, a.Up := fun b hb => h b (List.mem_cons_of_mem _ hb)
    have ha : a.Up := h a List.mem_cons_self
    cases a with
    | accepted k =>
      unfold sending
      split
      · exact Or.inr rfl
      · split
        · exact Or.inl rfl
        · exact ih hrest _
    | failed e =>
      have he : e = .ewouldblock ∨ e = .eagain := ha
      unfold sending
      rw [if_pos he]
      split <;> simp

theorem receiving_up {cap : Nat} {as : List RecvAnswer} (h : ∀ a ∈ as, a.Up) {stream : List UInt8}
    (hcap : 24 ≤ stream.length → bodyLength stream ≤ cap) (pos : Nat) :
    receiving cap stream pos as = .blocked ∨ receiving cap stream pos as = .complete := by
  induction as generalizing pos with
  | nil =>
    unfold receiving
    split <;> simp
  | cons a as ih =>
    have hrest : ∀ a ∈ as, a.Up := fun b hb => h b (List.mem_cons_of_mem _ hb)
    have ha : a.Up := h a List.mem_cons_self
    cases a with
    | data k =>
      unfold receiving
      split
      · exact Or.inr rfl
      · dsimp only
        generalize hgot : min (min (k + 1) (needed stream pos - pos)) (stream.length - pos) = got
        split
        · exact Or.inl rfl
        · -- the header is only complete when it is in the stream
          have hfault : ¬ (pos + got = 24 ∧ cap < bodyLength stream) := by
            rintro ⟨h24, hlarge⟩
            have hle := hcap (by omega)
            omega
          rw [if_neg hfault]
          exact ih hrest _
    | eof => exact absurd ha id
    | failed e =>
      have he : e = .ewouldblock ∨ e = .eagain := ha
      unfold receiving
      rw [if_pos he]
      split <;> simp

/-- Bytes that wait at the socket are read when the socket layer hands them out. -/
theorem readResponse_progress {cap : Nat} {b b' : Buffers} {conn conn' : TcpConnection} {k : Nat}
    {as : List RecvAnswer} {st : Status} (hf : Framed cap b) (hu : conn.Usable) (hlt : b.rxLen < b.rxExpected)
    (hinbox : conn.sock.inbox ≠ []) (h : b.readResponse cap conn (.data k :: as) = (st, b', conn')) :
    b.rxLen < b'.rxLen := by
  have hleft : b.rxExpected - b.rxLen ≠ 0 := by omega
  obtain ⟨t', ht⟩ := TcpConnection.read_data hu hleft k
  have hne : conn.sock.inbox.take (min (k + 1) (b.rxExpected - b.rxLen)) ≠ [] := by
    obtain ⟨c, cs, hc⟩ := List.exists_cons_of_ne_nil hinbox
    obtain ⟨l, hl⟩ : ∃ l, min (k + 1) (b.rxExpected - b.rxLen) = l + 1 :=
      ⟨min (k + 1) (b.rxExpected - b.rxLen) - 1, by omega⟩
    rw [hc, hl]
    exact List.cons_ne_nil _ _
  obtain ⟨-, hle, -, -⟩ := TcpConnection.read_ok ht
  unfold Buffers.readResponse at h
  rw [if_pos hlt, ht] at h
  obtain ⟨c, cs, hcs⟩ := List.exists_cons_of_ne_nil hne
  rw [hcs] at h hle
  have hlen : (stored b (c :: cs)).rxLen = b.rxLen + (cs.length + 1) := rfl
  dsimp only at h
  split at h
  · rename_i h24
    split at h
    · simp only [Prod.mk.injEq] at h
      obtain ⟨-, rfl, -⟩ := h
      omega
    · rename_i hcap
      obtain ⟨x, hx⟩ := Buffers.readResponse_spec (Buffers.stored_header hf _ h24 (Nat.le_of_not_lt hcap)) h
      have hmore := hx.len
      simp only at hmore
      omega
  · rename_i h24
    obtain ⟨x, hx⟩ := Buffers.readResponse_spec (Buffers.stored_framed hf (List.cons_ne_nil c cs) hle hlt h24) h
    have hmore := hx.len
    omega

/-! ### One call of `poll()` -/

namespace ExplicitMessage

/-- The message has read a whole frame, and the exchange ended as parsing it says. -/
structure Ended (st : Status) (m : ExplicitMessage) : Prop where
  sent : m.txLen ≤ m.txSent
  whole : m.rxLen = 24 + bodyLength m.rx
  outcome : (st = .error ∧ parse m.rx m.rxLen m.sentContext = none) ∨
    (st = .ok ∧ ∃ res, parse m.rx m.rxLen m.sentContext = some res ∧ m = m.respond res)

variable {m m' : ExplicitMessage} {conn conn' : TcpConnection} {os : Platform} {st : Status}

theorem poll_up (hin : m.InFlight) (hf : Framed (16 + kMaxCipData) m.toBuffers) (hfit : m.txLen ≤ m.tx.length)
    (hu : conn.Usable) (hup : os.Up)
    (hcap : 24 ≤ (stream m.toBuffers conn).length → bodyLength (stream m.toBuffers conn) ≤ 16 + kMaxCipData)
    (hnow : expired (os.millis 0) m.deadline = false) (hunread : m.rxLen < m.rxExpected)
    (hp : m.poll conn os = (st, m', conn')) :
    conn'.Usable ∧ ((st = .pending ∧ m'.rxLen < m'.rxExpected) ∨ Ended st m') := by
  rw [poll_inFlight hin, advance, if_neg (by simp [hnow])] at hp
  obtain ⟨st₁, b₁, conn₁, hw⟩ : ∃ st b conn₁, m.toBuffers.writePending conn os.sends = (st, b, conn₁) :=
    ⟨_, _, _, rfl⟩
  have hspec := Buffers.writePending_spec hw
  have hsending := writePending_status os.sends hfit hu
  rw [hw] at hp hsending
  simp only at hsending
  have hframe := hspec.frame
  rcases sending_up hup.sends (m.txLen - m.txSent) with hs | hs
  · -- the request is not out yet
    rw [hs] at hsending
    subst hsending
    simp only [Ending.status, Prod.mk.injEq] at hp
    obtain ⟨rfl, rfl, rfl⟩ := hp
    refine ⟨⟨hspec.transfer.fd ▸ hu.1, (hspec.alive (Or.inr rfl)).trans hu.2⟩, Or.inl ⟨rfl, ?_⟩⟩
    change b₁.rxLen < b₁.rxExpected
    rw [hframe]
    exact hunread
  · rw [hs] at hsending
    subst hsending
    have hu₁ : conn₁.Usable := ⟨hspec.transfer.fd ▸ hu.1, (hspec.alive (Or.inl rfl)).trans hu.2⟩
    have hf₁ : Framed (16 + kMaxCipData) b₁ := hspec.framed hf
    have hstream : stream b₁ conn₁ = stream m.toBuffers conn := by
      have hinbox := hspec.transfer.inbox
      rw [List.nil_append] at hinbox
      rw [stream, stream, hinbox, hframe]
    obtain ⟨st₂, b₂, conn₂, hr⟩ : ∃ st b conn₂,
      b₁.readResponse (16 + kMaxCipData) conn₁ os.recvs = (st, b, conn₂) := ⟨_, _, _, rfl⟩
    have hreceiving := readResponse_status os.recvs hf₁ hu₁
    obtain ⟨x, hgot⟩ := Buffers.readResponse_spec hf₁ hr
    simp only [Ending.status] at hp
    rw [hr] at hp hreceiving
    simp only at hreceiving
    rcases receiving_up hup.recvs (hstream ▸ hcap) b₁.rxLen with he | he
    · -- the response is not there yet
      rw [he] at hreceiving
      subst hreceiving
      simp only [Ending.status, Prod.mk.injEq] at hp
      obtain ⟨rfl, rfl, rfl⟩ := hp
      exact ⟨⟨hgot.transfer.fd ▸ hu₁.1, (hgot.alive (Or.inr rfl)).trans hu₁.2⟩, Or.inl ⟨rfl, hgot.pending rfl⟩⟩
    · rw [he] at hreceiving
      subst hreceiving
      have hu₂ : conn₂.Usable := ⟨hgot.transfer.fd ▸ hu₁.1, (hgot.alive (Or.inl rfl)).trans hu₁.2⟩
      have hf₂ := hgot.live (Or.inl rfl)
      have hfull := hgot.ok rfl
      have h24 : 24 ≤ b₂.rxLen := by
        by_contra hlt
        have h1 := hf₂.head (by omega)
        omega
      have hwhole : b₂.rxLen = 24 + bodyLength b₂.rx := by
        rw [← (hf₂.body h24).1]
        exact hfull
      have hsent : b₂.txLen ≤ b₂.txSent := by
        rw [hgot.tx.2.1, hgot.tx.2.2, hframe]
        exact hspec.ok rfl
      simp only [Ending.status, parseResponse] at hp
      refine ⟨?_, Or.inr ?_⟩
      · split at hp
        · simp only [Prod.mk.injEq] at hp
          obtain ⟨-, -, rfl⟩ := hp
          exact hu₂
        · simp only [Prod.mk.injEq] at hp
          obtain ⟨-, -, rfl⟩ := hp
          exact hu₂
      · cases hparse : parse b₂.rx b₂.rxLen m.sentContext with
        | none =>
          simp only [hparse, Prod.mk.injEq] at hp
          obtain ⟨rfl, rfl, -⟩ := hp
          exact ⟨hsent, hwhole, Or.inl ⟨rfl, hparse⟩⟩
        | some res =>
          simp only [hparse, Prod.mk.injEq] at hp
          obtain ⟨rfl, rfl, -⟩ := hp
          exact ⟨hsent, hwhole, Or.inr ⟨rfl, res, hparse, rfl⟩⟩

private theorem parseResponse_rxLen (h : m.parseResponse = (st, m')) : m'.rxLen = m.rxLen := by
  unfold parseResponse at h
  split at h
  · simp only [Prod.mk.injEq] at h
    rw [← h.2]
  · simp only [Prod.mk.injEq] at h
    rw [← h.2]
    rfl

theorem poll_progress (hin : m.InFlight) (hf : Framed (16 + kMaxCipData) m.toBuffers) (hsent : m.txLen ≤ m.txSent)
    (hu : conn.Usable) (hnow : expired (os.millis 0) m.deadline = false) (hunread : m.rxLen < m.rxExpected)
    (hinbox : conn.sock.inbox ≠ []) {k : Nat} {as : List RecvAnswer} (hrecvs : os.recvs = .data k :: as)
    (hp : m.poll conn os = (st, m', conn')) : m.rxLen < m'.rxLen := by
  rw [poll_inFlight hin, advance, if_neg (by simp [hnow]), writePending_through (Nat.not_lt.2 hsent), hrecvs] at hp
  obtain ⟨st₂, b₂, conn₂, hr⟩ : ∃ st b conn₂,
    m.toBuffers.readResponse (16 + kMaxCipData) conn (.data k :: as) = (st, b, conn₂) := ⟨_, _, _, rfl⟩
  have hmore : m.rxLen < b₂.rxLen := readResponse_progress hf hu hunread hinbox hr
  dsimp only at hp
  rw [hr] at hp
  have hkept : m'.rxLen = b₂.rxLen := by
    split at hp
    · rename_i heq
      simp only [Prod.mk.injEq] at hp heq
      rw [← hp.2.1, ← heq.2.1]
    · rename_i heq
      simp only [Prod.mk.injEq] at heq
      split at hp
      · rename_i hparse
        simp only [Prod.mk.injEq] at hp
        rw [← hp.2.1, heq.2.1]
        exact parseResponse_rxLen hparse
      · rename_i hparse
        simp only [Prod.mk.injEq] at hp
        rw [← hp.2.1, heq.2.1]
        exact parseResponse_rxLen hparse
    · rename_i heq
      simp only [Prod.mk.injEq] at hp heq
      rw [← hp.2.1, ← heq.2.1]
  rw [hkept]
  exact hmore

end ExplicitMessage

end ControlLogix
