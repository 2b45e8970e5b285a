import ControlLogix.Conversation

/-!
# Calls of `poll()` that meet no fault

The socket layer may fail at any call.  A `poll()` that returns `Ok` or `Pending` has met no failure, so it is a
`poll()` in time over a socket layer that only splits the transfers.

* `Session.poll_faultless`, `ExplicitMessage.poll_faultless`: the answers that were used are such answers;
* `Link.Phase.poll`: so a `poll()` takes an exchange on, ends it with the answer of the peer, or fails.
-/

namespace ControlLogix

open Buffers (bodyLength)

namespace TcpConnection

theorem write_fault {t t' : TcpConnection} {bs : List UInt8} {a : SendAnswer} {r : Except Status Nat} (ha : ¬ a.Up)
    (h : t.write bs a = (r, t')) : ∃ st, r = .error st ∧ st ≠ .ok ∧ st ≠ .pending := by
  unfold write at h
  split at h
  · exact ⟨_, (Prod.mk.inj h).1.symm, by decide⟩
  · split at h
    · exact ⟨_, (Prod.mk.inj h).1.symm, by decide⟩
    · cases a with
      | accepted k => exact absurd trivial ha
      | failed e =>
        have he : ¬ (e = .ewouldblock ∨ e = .eagain) := ha
        simp only [Socket.send, if_neg he] at h
        split at h
        · exact ⟨_, (Prod.mk.inj h).1.symm, by decide⟩
        · exact ⟨_, (Prod.mk.inj h).1.symm, by decide⟩

theorem read_fault {t t' : TcpConnection} {n : Nat} {a : RecvAnswer} {r : Except Status (List UInt8)} (ha : ¬ a.Up)
    (h : t.read n a = (r, t')) : ∃ st, r = .error st ∧ st ≠ .ok ∧ st ≠ .pending := by
  unfold read at h
  split at h
  · exact ⟨_, (Prod.mk.inj h).1.symm, by decide⟩
  · split at h
    · exact ⟨_, (Prod.mk.inj h).1.symm, by decide⟩
    · cases a with
      | data k => exact absurd trivial ha
      | eof =>
        simp only [Socket.recv] at h
        exact ⟨_, (Prod.mk.inj h).1.symm, by decide⟩
      | failed e =>
        have he : ¬ (e = .ewouldblock ∨ e = .eagain) := ha
        simp only [Socket.recv, if_neg he] at h
        exact ⟨_, (Prod.mk.inj h).1.symm, by decide⟩

end TcpConnection

namespace Buffers

theorem writePending_faultless {b b' : Buffers} {conn conn' : TcpConnection} {as : List SendAnswer} {st : Status}
    (hst : st = .ok ∨ st = .pending) (h : b.writePending conn as = (st, b', conn')) :
    ∃ bs, (∀ a ∈ bs, a.Up) ∧ b.writePending conn bs = (st, b', conn') := by
  induction as generalizing b conn with
  | nil => exact ⟨[], by simp, h⟩
  | cons a as ih =>
    by_cases hlt : b.txSent < b.txLen
    · have hfirst := h
      unfold writePending at hfirst
      rw [if_pos hlt] at hfirst
      by_cases ha : a.Up
      · split at hfirst
        · rename_i conn₁ hw
          refine ⟨[a], by simpa using ha, ?_⟩
          unfold writePending
          rw [if_pos hlt, hw]
          exact hfirst
        · rename_i n conn₁ hw
          obtain ⟨bs, hup, hbs⟩ := ih hfirst
          refine ⟨a :: bs, by simpa using ⟨ha, hup⟩, ?_⟩
          unfold writePending
          rw [if_pos hlt, hw]
          exact hbs
        · rename_i st₁ conn₁ hw
          refine ⟨[a], by simpa using ha, ?_⟩
          unfold writePending
          rw [if_pos hlt, hw]
          exact hfirst
      · obtain ⟨r, conn₁, hw⟩ : ∃ r conn₁, conn.write ((b.tx.drop b.txSent).take (b.txLen - b.txSent))
          a = (r, conn₁) :=
          ⟨_, _, rfl⟩
        obtain ⟨st₁, rfl, hne⟩ := TcpConnection.write_fault ha hw
        rw [hw] at hfirst
        obtain rfl := (Prod.mk.inj hfirst).1
        exact absurd hst (not_or.2 hne)
    · refine ⟨[], by simp, ?_⟩
      unfold writePending at h ⊢
      rw [if_neg hlt] at h ⊢
      exact h

/-- No empty write is made. -/
private theorem writePending_writes {b b' : Buffers} {conn conn' : TcpConnection} {as : List SendAnswer} {st : Status}
    (hfit : b.txLen ≤ b.tx.length) (h : b.writePending conn as = (st, b', conn')) : st ≠ .invalidArg := by
  have hwrite {t t' : TcpConnection} {b : Buffers} {a : SendAnswer} {st : Status} (hfit : b.txLen ≤ b.tx.length)
      (hlt : b.txSent < b.txLen) (hw : t.write ((b.tx.drop b.txSent).take (b.txLen - b.txSent)) a = (.error st, t')) :
      st ≠ .invalidArg := by
    rintro rfl
    obtain ⟨-, ⟨hst, -⟩ | ⟨-, hnil⟩ | hst⟩ := TcpConnection.write_error hw
    · cases hst
    · have hlen := congrArg List.length hnil
      rw [List.length_take, List.length_drop, List.length_nil] at hlen
      omega
    · cases hst
  induction as generalizing b conn with
  | nil =>
    unfold writePending at h
    split at h
    · rename_i hlt
      split at h
      · rw [← (Prod.mk.inj h).1]
        decide
      · rename_i st₁ conn₁ hw
        rw [← (Prod.mk.inj h).1]
        exact hwrite hfit hlt hw
    · rw [← (Prod.mk.inj h).1]
      decide
  | cons a as ih =>
    unfold writePending at h
    split at h
    · rename_i hlt
      split at h
      · rw [← (Prod.mk.inj h).1]
        decide
      · refine ih ?_ h
        exact hfit
      · rename_i st₁ conn₁ hw
        rw [← (Prod.mk.inj h).1]
        exact hwrite hfit hlt hw
    · rw [← (Prod.mk.inj h).1]
      decide

theorem writePending_failed {b b' : Buffers} {conn conn' : TcpConnection} {as : List SendAnswer} {st : Status}
    (hfit : b.txLen ≤ b.tx.length) (h : b.writePending conn as = (st, b', conn')) (hst : st ≠ .ok ∧ st ≠ .pending) :
    st = .error ∨ ¬ conn'.Usable := by
  have hw := writePending_spec h
  rcases hw.status with hok | hpending | hclosed | herror | hinvalid
  · exact absurd hok hst.1
  · exact absurd hpending hst.2
  · exact Or.inr (hw.closed hclosed)
  · exact Or.inl herror
  · exact absurd hinvalid (writePending_writes hfit h)

theorem readResponse_faultless {cap : Nat} {b b' : Buffers} {conn conn' : TcpConnection} {as : List RecvAnswer}
    {st : Status} (hst : st = .ok ∨ st = .pending) (h : b.readResponse cap conn as = (st, b', conn')) :
    ∃ bs, (∀ a ∈ bs, a.Up) ∧ b.readResponse cap conn bs = (st, b', conn') := by
  induction as generalizing b conn with
  | nil => exact ⟨[], by simp, h⟩
  | cons a as ih =>
    by_cases hlt : b.rxLen < b.rxExpected
    · have hfirst := h
      unfold readResponse at hfirst
      rw [if_pos hlt] at hfirst
      by_cases ha : a.Up
      · split at hfirst
        · rename_i conn₁ hr
          refine ⟨[a], by simpa using ha, ?_⟩
          unfold readResponse
          rw [if_pos hlt, hr]
          exact hfirst
        · rename_i c cs conn₁ hr
          dsimp only at hfirst
          split at hfirst
          · rename_i h24
            split at hfirst
            · obtain rfl := (Prod.mk.inj hfirst).1
              exact absurd hst (by decide)
            · rename_i hcap
              obtain ⟨bs, hup, hbs⟩ := ih hfirst
              refine ⟨a :: bs, by simpa using ⟨ha, hup⟩, ?_⟩
              unfold readResponse
              rw [if_pos hlt, hr]
              dsimp only
              rw [if_pos h24, if_neg hcap]
              exact hbs
          · rename_i h24
            obtain ⟨bs, hup, hbs⟩ := ih hfirst
            refine ⟨a :: bs, by simpa using ⟨ha, hup⟩, ?_⟩
            unfold readResponse
            rw [if_pos hlt, hr]
            dsimp only
            rw [if_neg h24]
            exact hbs
        · rename_i st₁ conn₁ hr
          refine ⟨[a], by simpa using ha, ?_⟩
          unfold readResponse
          rw [if_pos hlt, hr]
          exact hfirst
      · obtain ⟨r, conn₁, hr⟩ : ∃ r conn₁, conn.read (b.rxExpected - b.rxLen) a = (r, conn₁) := ⟨_, _, rfl⟩
        obtain ⟨st₁, rfl, hne⟩ := TcpConnection.read_fault ha hr
        rw [hr] at hfirst
        obtain rfl := (Prod.mk.inj hfirst).1
        exact absurd hst (not_or.2 hne)
    · refine ⟨[], by simp, ?_⟩
      unfold readResponse at h ⊢
      rw [if_neg hlt] at h ⊢
      exact h

end Buffers

/-! ### The calls of `poll()` -/

namespace Session

variable {s s' : Session} {conn conn' : TcpConnection} {os : Platform} {st : Status}

private theorem pollExchange_faultless {finish : Session → Status × Session} {now : UInt32}
    (hst : st = .ok ∨ st = .pending)
    (h : pollExchange finish s conn now os = (st, s', conn')) : expired now s.deadline = false ∧
      ∃ os' : Platform, os'.Up ∧ os'.millis = os.millis ∧ pollExchange finish s conn now os' = (st, s', conn') := by
  unfold pollExchange at h
  split at h
  · obtain rfl := (Prod.mk.inj h).1
    exact absurd hst (by decide)
  · rename_i hnow
    refine ⟨by simpa using hnow, ?_⟩
    split at h
    · rename_i b₁ conn₁ hw
      obtain ⟨sends, hsends, hw'⟩ := Buffers.writePending_faultless (Or.inl rfl) hw
      split at h
      · rename_i b₂ conn₂ hr
        obtain ⟨recvs, hrecvs, hr'⟩ := Buffers.readResponse_faultless (Or.inr rfl) hr
        refine ⟨{ os with sends := sends, recvs := recvs }, ⟨hsends, hrecvs⟩, rfl, ?_⟩
        rw [pollExchange, if_neg hnow, hw']
        dsimp only
        rw [hr']
        exact h
      · rename_i b₂ conn₂ hr
        obtain ⟨recvs, hrecvs, hr'⟩ := Buffers.readResponse_faultless (Or.inl rfl) hr
        refine ⟨{ os with sends := sends, recvs := recvs }, ⟨hsends, hrecvs⟩, rfl, ?_⟩
        rw [pollExchange, if_neg hnow, hw']
        dsimp only
        rw [hr']
        exact h
      · rename_i st₂ b₂ conn₂ hnp hno hr
        obtain rfl := (Prod.mk.inj h).1
        exact absurd hst (not_or.2 ⟨hno, hnp⟩)
    · rename_i st₁ b₁ conn₁ hno hw
      obtain rfl := (Prod.mk.inj h).1
      obtain ⟨sends, hsends, hw'⟩ := Buffers.writePending_faultless hst hw
      refine ⟨{ os with sends := sends, recvs := [] }, ⟨hsends, by simp⟩, rfl, ?_⟩
      rw [pollExchange, if_neg hnow, hw', ← h]
      rcases hst with rfl | rfl
      · exact absurd rfl hno
      · rfl

/-- A session that fails is given up, or returns `Error`, or its connection cannot be used any more. -/
theorem poll_faulty (hx : s.Exchanging) (hfit : s.txLen ≤ s.tx.length) {now : UInt32}
    (h : s.poll conn now os = (st, s', conn'))
    (hst : st ≠ .ok ∧ st ≠ .pending) : s'.state = .failed ∨ st = .error ∨ ¬ conn'.Usable := by
  have hexchange {finish : Session → Status × Session} (hfinish : ∀ x, (finish x).1 = .ok ∨ (finish x).1 = .error)
      (h : pollExchange finish s conn now os = (st, s', conn')) :
      s'.state = .failed ∨ st = .error ∨ ¬ conn'.Usable := by
    unfold pollExchange at h
    split at h
    · rw [← (Prod.mk.inj (Prod.mk.inj h).2).1]
      exact Or.inl rfl
    · split at h
      · rename_i b₁ conn₁ hw
        split at h
        · exact absurd (Prod.mk.inj h).1.symm hst.2
        · rename_i b₂ conn₂ hr
          have hstatus := hfinish { s with toBuffers := b₂ }
          rw [show (finish { s with toBuffers := b₂ }).1 = st from (Prod.mk.inj h).1] at hstatus
          exact Or.inr (Or.inl (hstatus.resolve_left hst.1))
        · rw [← (Prod.mk.inj (Prod.mk.inj h).2).1]
          exact Or.inl rfl
      · rename_i st₁ b₁ conn₁ hno hw
        simp only [Prod.mk.injEq] at h
        obtain ⟨rfl, rfl, rfl⟩ := h
        exact Or.inr (Buffers.writePending_failed hfit hw hst)
  have hregister (x : Session) : (finishRegister x).1 = .ok ∨ (finishRegister x).1 = .error := by
    unfold finishRegister
    dsimp only
    split
    · exact Or.inr rfl
    · split
      · exact Or.inr rfl
      · exact Or.inl rfl
  unfold poll at h
  rcases hx with hx | hx
  · rw [hx] at h
    exact hexchange hregister h
  · rw [hx] at h
    exact hexchange (fun _ => Or.inl rfl) h

theorem poll_faultless (hx : s.Exchanging) (hst : st = .ok ∨ st = .pending)
    (h : s.poll conn (os.millis 0) os = (st, s', conn')) : ∃ os' : Platform,
      Turn.InTime s.deadline (.poll os') ∧ machine.poll s conn os' = (st, s', conn') := by
  have hmachine (os' : Platform) : machine.poll s conn os' = s.poll conn (os'.millis 0) os' := rfl
  unfold poll at h
  rcases hx with hx | hx
  · rw [hx] at h
    obtain ⟨hnow, os', hup, hmillis, hpoll⟩ := pollExchange_faultless hst h
    rw [← hmillis] at hnow hpoll
    refine ⟨os', ⟨hup, hnow⟩, ?_⟩
    rw [hmachine, poll, hx]
    exact hpoll
  · rw [hx] at h
    obtain ⟨hnow, os', hup, hmillis, hpoll⟩ := pollExchange_faultless hst h
    rw [← hmillis] at hnow hpoll
    refine ⟨os', ⟨hup, hnow⟩, ?_⟩
    rw [hmachine, poll, hx]
    exact hpoll

end Session

namespace ExplicitMessage

variable {m m' : ExplicitMessage} {conn conn' : TcpConnection} {os : Platform} {st : Status}

theorem poll_faultless (hin : m.InFlight) (hst : st = .ok ∨ st = .pending) (h : m.poll conn os = (st, m', conn')) :
    ∃ os' : Platform, Turn.InTime m.deadline (.poll os') ∧ machine.poll m conn os' = (st, m', conn') := by
  have hmachine (os' : Platform) : machine.poll m conn os' = m.advance conn os' := poll_inFlight hin conn os'
  rw [poll_inFlight hin] at h
  unfold advance at h
  split at h
  · obtain rfl := (Prod.mk.inj h).1
    exact absurd hst (by decide)
  · rename_i hnow
    have hnow' : expired (os.millis 0) m.deadline = false := by simpa using hnow
    split at h
    · rename_i b₁ conn₁ hw
      obtain ⟨sends, hsends, hw'⟩ := Buffers.writePending_faultless (Or.inl rfl) hw
      dsimp only at h
      split at h
      · rename_i b₂ conn₂ hr
        obtain ⟨recvs, hrecvs, hr'⟩ := Buffers.readResponse_faultless (Or.inr rfl) hr
        refine ⟨{ os with sends := sends, recvs := recvs }, ⟨⟨hsends, hrecvs⟩, hnow'⟩, ?_⟩
        rw [hmachine, advance, if_neg hnow, hw']
        dsimp only
        rw [hr']
        exact h
      · rename_i b₂ conn₂ hr
        obtain ⟨recvs, hrecvs, hr'⟩ := Buffers.readResponse_faultless (Or.inl rfl) hr
        refine ⟨{ os with sends := sends, recvs := recvs }, ⟨⟨hsends, hrecvs⟩, hnow'⟩, ?_⟩
        rw [hmachine, advance, if_neg hnow, hw']
        dsimp only
        rw [hr']
        exact h
      · rename_i st₂ b₂ conn₂ hnp hno hr
        obtain rfl := (Prod.mk.inj h).1
        exact absurd hst (not_or.2 ⟨hno, hnp⟩)
    · rename_i b₁ conn₁ hw
      obtain ⟨sends, hsends, hw'⟩ := Buffers.writePending_faultless (Or.inr rfl) hw
      refine ⟨{ os with sends := sends, recvs := [] }, ⟨⟨hsends, by simp⟩, hnow'⟩, ?_⟩
      rw [hmachine, advance, if_neg hnow, hw']
      exact h
    · rename_i st₁ b₁ conn₁ hno hnp hw
      obtain rfl := (Prod.mk.inj h).1
      exact absurd hst (not_or.2 ⟨hno, hnp⟩)

end ExplicitMessage

/-! ### An exchange over a network with faults -/

/-- What a call of `poll()` used that did not fail is free of faults, and in time. -/
def Machine.Faultless {σ : Type} (M : Machine σ) : Prop :=
  ∀ {s s' : σ} {conn conn' : TcpConnection} {os : Platform} {st : Status}, M.Going s → st = .ok ∨ st = .pending →
    M.poll s conn os = (st, s', conn') →
      ∃ os', Turn.InTime (M.deadline s) (.poll os') ∧ M.poll s conn os' = (st, s', conn')

theorem Session.faultless : Session.machine.Faultless := fun hgoing hst h => Session.poll_faultless hgoing hst h

theorem ExplicitMessage.faultless : ExplicitMessage.machine.Faultless := fun hgoing hst h =>
  ExplicitMessage.poll_faultless hgoing hst h

namespace Link

variable {σ Θ : Type} {M : Machine σ} {handle : Θ → List UInt8 → Θ × List UInt8} {s₀ s s' : σ}
  {conn₀ conn' : TcpConnection} {req reply : List UInt8} {v₀ v₁ v : Θ} {l : Link} {st : Status} {os : Platform}

theorem Phase.poll (hM : M.Faultless) (hs : M.Started s₀ req) (h : Phase M s₀ conn₀ reply v₀ v₁ s l v)
    (hp : M.poll s l.conn os = (st, s', conn')) :
    (st = .pending ∧ Phase M s₀ conn₀ reply v₀ v₁ s' { l with conn := conn' } v) ∨
      (Ended M s₀ reply st s' ∧ Quiet { l with conn := conn' } ∧ v = v₁) ∨ (st ≠ .ok ∧ st ≠ .pending) := by
  by_cases hst : st = .ok ∨ st = .pending
  · cases h with
    | asking asking same =>
      obtain ⟨os', ht, hp'⟩ := hM asking.mid.going hst hp
      rw [asking.mid.deadline] at ht
      obtain ⟨hpending, hasking⟩ := asking.poll hs ht hp'
      exact Or.inl ⟨hpending, .asking hasking same⟩
    | answered answered done =>
      obtain ⟨arrived, -, hmid⟩ := answered.arriving
      obtain ⟨os', ht, hp'⟩ := hM hmid.going hst hp
      rw [hmid.deadline] at ht
      rcases answered.poll hs ht hp' with ⟨hpending, hanswered⟩ | ⟨hended, hquiet⟩
      · exact Or.inl ⟨hpending, .answered hanswered done⟩
      · exact Or.inr (Or.inl ⟨hended, hquiet, done⟩)
  · exact Or.inr (Or.inr (not_or.1 hst))

theorem Phase.deliver (h : Phase M s₀ conn₀ reply v₀ v₁ s l v) (k : Nat) :
    Phase M s₀ conn₀ reply v₀ v₁ s (l.deliver k) v := by
  cases h with
  | asking asking same => exact .asking (asking.deliver k) same
  | answered answered done => exact .answered (answered.deliver k) done

theorem Phase.serve (hs : M.Started s₀ req) (hreq : WholeFrame req) (hhandle : handle v₀ req = (v₁, reply))
    (hreply : WholeFrame reply) (hfits : bodyLength reply ≤ M.cap) (h : Phase M s₀ conn₀ reply v₀ v₁ s l v)
    {f : List UInt8}
    (hf : l.request = some f) : Phase M s₀ conn₀ reply v₀ v₁ s (l.answer f (handle v f).2) (handle v f).1 := by
  cases h with
  | asking asking same =>
    obtain ⟨rfl, -⟩ := asking.request hs hreq hf
    rw [same, hhandle]
    exact .answered (asking.answer hs hreq hf hreply hfits) rfl
  | answered answered done =>
    rw [answered.request] at hf
    cases hf

end Link

end ControlLogix
