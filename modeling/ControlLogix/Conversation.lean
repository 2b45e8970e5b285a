import ControlLogix.Link

/-!
# An exchange with a peer

A machine is driven against a peer by moves: `poll()` is called, the peer takes a request, or bytes of the peer
arrive. Any peer will do that answers the request of the exchange with one whole frame that fits.

* `converse_cases`: the moves take the exchange on, or end it with the answer of the peer;
* `flush`: moves in which nothing is split, after which every exchange has ended;
* `converse_completes`: however the moves split what passes, the exchange ends with the answer of the peer.
-/

namespace ControlLogix

open Buffers (Underway taken received bodyLength atOnce)

inductive Move where
  | poll (os : Platform)
  /-- The peer takes the next request, if one has come. -/
  | serve
  | deliver (k : Nat)

def Move.InTime (deadline : UInt32) : Move → Prop
  | .poll os => (Turn.poll os).InTime deadline
  | .serve | .deliver _ => True

instance decidableMoveInTime (deadline : UInt32) : (m : Move) → Decidable (m.InTime deadline)
  | .poll os => decidableInTime deadline (.poll os)
  | .serve | .deliver _ => .isTrue trivial

/-- Moves in which nothing is split. -/
def flush (millis : Nat → UInt32) : List Move := [.poll (atOnce millis), .serve, .deliver 1000, .poll (atOnce millis)]

namespace Link

section Converse

variable {σ Θ : Type} (poll : σ → TcpConnection → Platform → Status × σ × TcpConnection)
  (handle : Θ → List UInt8 → Θ × List UInt8)

/-- The moves up to the first `poll()` that does not return `Pending`.  `handle` is what the peer makes of a request;
it gives an empty reply when it does not answer. -/
def converse : σ → Link → Θ → List Move → Status × σ × Link × Θ
  | s, l, v, [] => (.pending, s, l, v)
  | s, l, v, .poll os :: ms =>
    match poll s l.conn os with
    | (.pending, s, conn) => converse s { l with conn := conn } v ms
    | (st, s, conn) => (st, s, { l with conn := conn }, v)
  | s, l, v, .serve :: ms =>
    match l.request with
    | none => converse s l v ms
    | some f => converse s (l.answer f (handle v f).2) (handle v f).1 ms
  | s, l, v, .deliver k :: ms => converse s (l.deliver k) v ms

theorem converse_pending {s s₁ : σ} {l : Link} {conn₁ : TcpConnection} {os : Platform}
    (h : poll s l.conn os = (.pending, s₁, conn₁)) (v : Θ) (ms : List Move) :
    converse poll handle s l v (.poll os :: ms) = converse poll handle s₁ { l with conn := conn₁ } v ms := by
  rw [converse, h]

theorem converse_ended {s s₁ : σ} {l : Link} {conn₁ : TcpConnection} {os : Platform} {st : Status}
    (h : poll s l.conn os = (st, s₁, conn₁)) (hst : st ≠ .pending) (v : Θ) (ms : List Move) :
    converse poll handle s l v (.poll os :: ms) = (st, s₁, { l with conn := conn₁ }, v) := by
  rw [converse, h]
  cases st with
  | pending => exact absurd rfl hst
  | _ => rfl

theorem converse_append (s : σ) (l : Link) (v : Θ) (ms ns : List Move) :
    converse poll handle s l v (ms ++ ns) =
      if (converse poll handle s l v ms).1 = .pending then
        converse poll handle (converse poll handle s l v ms).2.1 (converse poll handle s l v ms).2.2.1
          (converse poll handle s l v ms).2.2.2 ns
      else converse poll handle s l v ms := by
  induction ms generalizing s l v with
  | nil => exact (if_pos rfl).symm
  | cons m ms ih =>
    cases m with
    | poll os =>
      rw [List.cons_append]
      obtain ⟨st, s₁, conn₁, hp⟩ : ∃ st s₁ conn₁, poll s l.conn os = (st, s₁, conn₁) := ⟨_, _, _, rfl⟩
      by_cases hst : st = .pending
      · subst hst
        rw [converse_pending poll handle hp, converse_pending poll handle hp]
        exact ih s₁ { l with conn := conn₁ } v
      · rw [converse_ended poll handle hp hst, converse_ended poll handle hp hst]
        exact (if_neg hst).symm
    | serve =>
      rw [List.cons_append, converse, converse]
      cases l.request with
      | none => exact ih s l v
      | some f => exact ih s _ _
    | deliver k =>
      rw [List.cons_append, converse, converse]
      exact ih s (l.deliver k) v

end Converse

/-! ### The phases of an exchange -/

/-- The peer turns from `v₀` to `v₁` when it takes the request of the exchange. -/
inductive Phase {σ Θ : Type} (M : Machine σ) (s₀ : σ) (conn₀ : TcpConnection) (reply : List UInt8) (v₀ v₁ : Θ) (s : σ)
    (l : Link) (v : Θ) : Prop where
  | asking (asking : Asking M s₀ conn₀ s l) (same : v = v₀)
  | answered (answered : Answered M s₀ conn₀ reply s l) (done : v = v₁)

section Phase

variable {σ Θ : Type} {M : Machine σ} {handle : Θ → List UInt8 → Θ × List UInt8} {s₀ s s' : σ} {conn₀ : TcpConnection}
  {req reply : List UInt8} {v₀ v₁ v v' : Θ} {l l' : Link} {st : Status} {ms : List Move} {millis : Nat → UInt32}

theorem converse_cases (hs : M.Started s₀ req) (hreq : WholeFrame req) (hhandle : handle v₀ req = (v₁, reply))
    (hreply : WholeFrame reply) (hfits : bodyLength reply ≤ M.cap) (h : Phase M s₀ conn₀ reply v₀ v₁ s l v)
    (hms : ∀ m ∈ ms, m.InTime (M.deadline s₀)) (hc : converse M.poll handle s l v ms = (st, s', l', v')) :
    (st = .pending ∧ Phase M s₀ conn₀ reply v₀ v₁ s' l' v') ∨ (Ended M s₀ reply st s' ∧ l'.Quiet ∧ v' = v₁) := by
  induction ms generalizing s l v with
  | nil =>
    simp only [converse, Prod.mk.injEq] at hc
    obtain ⟨rfl, rfl, rfl, rfl⟩ := hc
    exact Or.inl ⟨rfl, h⟩
  | cons m ms ih =>
    have hrest : ∀ m ∈ ms, m.InTime (M.deadline s₀) := fun n hn => hms n (List.mem_cons_of_mem _ hn)
    have hm := hms m List.mem_cons_self
    cases m with
    | poll os =>
      obtain ⟨st₁, s₁, conn₁, hp⟩ : ∃ st s₁ conn₁, M.poll s l.conn os = (st, s₁, conn₁) := ⟨_, _, _, rfl⟩
      cases h with
      | asking asking same =>
        obtain ⟨rfl, hasking⟩ := asking.poll hs hm hp
        rw [converse_pending _ _ hp] at hc
        exact ih (.asking hasking same) hrest hc
      | answered answered done =>
        rcases answered.poll hs hm hp with ⟨rfl, hanswered⟩ | ⟨hended, hquiet⟩
        · rw [converse_pending _ _ hp] at hc
          exact ih (.answered hanswered done) hrest hc
        · rw [converse_ended _ _ hp hended.status] at hc
          simp only [Prod.mk.injEq] at hc
          obtain ⟨rfl, rfl, rfl, rfl⟩ := hc
          exact Or.inr ⟨hended, hquiet, done⟩
    | serve =>
      rw [converse] at hc
      cases h with
      | asking asking same =>
        cases hf : l.request with
        | none =>
          rw [hf] at hc
          exact ih (.asking asking same) hrest hc
        | some f =>
          have hanswered := asking.answer hs hreq hf hreply hfits
          obtain ⟨rfl, -⟩ := asking.request hs hreq hf
          rw [hf] at hc
          dsimp only at hc
          rw [same, hhandle] at hc
          exact ih (.answered hanswered rfl) hrest hc
      | answered answered done =>
        rw [answered.request] at hc
        exact ih (.answered answered done) hrest hc
    | deliver k =>
      rw [converse] at hc
      cases h with
      | asking asking same => exact ih (.asking (asking.deliver k) same) hrest hc
      | answered answered done => exact ih (.answered (answered.deliver k) done) hrest hc

/-! ### The end of an exchange -/

/-- The peer finds the request when all of it has been sent. -/
theorem Asking.request_sent (h : Asking M s₀ conn₀ s l) (hs : M.Started s₀ req) (hreq : WholeFrame req)
    (hsent : (M.buffers s).txLen ≤ (M.buffers s).txSent) : l.request = some req := by
  have hlen : (M.buffers s).txLen = (M.buffers s₀).txLen := h.mid.underway.tx.2
  have hle := h.mid.underway.sent
  have hall : (M.buffers s).txSent = (M.buffers s₀).txLen := by omega
  have hun : l.unhandled = req := by
    rw [unhandled, h.handled, h.mid.underway.written, List.drop_left, hall, ← hs.request]
  unfold WholeFrame at hreq
  rw [Link.request, hun, if_pos ⟨by omega, by omega⟩, ← hreq, List.take_length]

/-- Once the whole answer has arrived, one call of `poll()` in which nothing is split ends the exchange. -/
private theorem Answered.ends {conn' : TcpConnection} (h : Answered M s₀ conn₀ reply s l) (hs : M.Started s₀ req)
    (hwire : l.wire = []) (hnow : expired (millis 0) (M.deadline s₀) = false)
    (hp : M.poll s l.conn (atOnce millis) = (st, s', conn')) : st ≠ .pending := by
  obtain ⟨arrived, hsplit, hmid⟩ := h.arriving
  rw [hwire, List.append_nil] at hsplit
  subst hsplit
  apply hmid.atOnce_ends hs hnow _ hp
  have hwhole := h.whole
  have hfits := h.fits
  unfold WholeFrame at hwhole
  rw [taken, if_neg (by omega)]
  omega

/-- A frame arrives at once when nothing is split. -/
private theorem Answered.arrived (h : Answered M s₀ conn₀ reply s l) (hs : M.Started s₀ req) :
    (l.deliver 1000).wire = [] := by
  obtain ⟨arrived, hsplit, hmid⟩ := h.arriving
  have hwhole := h.whole
  have hfits := h.fits
  have hcap := hs.cap
  have hlen := congrArg List.length hsplit
  unfold WholeFrame at hwhole
  rw [List.length_append] at hlen
  change l.wire.drop 1000 = []
  rw [List.drop_eq_nil_iff]
  omega

/-- After the moves in which nothing is split the exchange has ended. -/
theorem flush_ends (hs : M.Started s₀ req) (hreq : WholeFrame req) (hhandle : handle v₀ req = (v₁, reply))
    (hreply : WholeFrame reply) (hfits : bodyLength reply ≤ M.cap) (h : Phase M s₀ conn₀ reply v₀ v₁ s l v)
    (hnow : expired (millis 0) (M.deadline s₀) = false)
    (hc : converse M.poll handle s l v (flush millis) = (st, s', l', v')) : st ≠ .pending := by
  have hm : Turn.InTime (M.deadline s₀) (.poll (atOnce millis)) := ⟨Buffers.atOnce_up millis, hnow⟩
  -- what the last two moves do
  have hlast : ∀ {s : σ} {l : Link} {v : Θ}, Answered M s₀ conn₀ reply s l →
      (converse M.poll handle s l v [.deliver 1000, .poll (atOnce millis)]).1 ≠ .pending := by
    intro s l v hanswered
    obtain ⟨st₂, s₂, conn₂, hp₂⟩ : ∃ st s₂ conn₂, M.poll s (l.deliver 1000).conn (atOnce millis) = (st, s₂, conn₂) :=
      ⟨_, _, _, rfl⟩
    have hne := (hanswered.deliver 1000).ends hs (hanswered.arrived hs) hnow hp₂
    rw [converse, converse_ended _ _ hp₂ hne]
    exact hne
  obtain ⟨st₁, s₁, conn₁, hp⟩ : ∃ st s₁ conn₁, M.poll s l.conn (atOnce millis) = (st, s₁, conn₁) := ⟨_, _, _, rfl⟩
  cases h with
  | asking asking same =>
    obtain ⟨rfl, hasking⟩ := asking.poll hs hm hp
    have hsent := asking.mid.atOnce_sent hs hnow hp
    have hrequest := hasking.request_sent hs hreq hsent
    have hend := hlast (v := v₁) (hasking.answer hs hreq hrequest hreply hfits)
    rw [flush, converse_pending _ _ hp, converse, hrequest] at hc
    dsimp only at hc
    rw [same, hhandle] at hc
    rw [hc] at hend
    exact hend
  | answered answered done =>
    rcases answered.poll hs hm hp with ⟨rfl, hanswered⟩ | ⟨hended, -⟩
    · have hend := hlast (v := v) hanswered
      rw [flush, converse_pending _ _ hp, converse, hanswered.request] at hc
      dsimp only at hc
      rw [hc] at hend
      exact hend
    · rw [flush, converse_ended _ _ hp hended.status, Prod.mk.injEq] at hc
      rw [← hc.1]
      exact hended.status

/-- An exchange that begins on a quiet link ends with the answer of the peer, however the moves split what passes, and
leaves the link quiet. -/
theorem converse_completes (hl : l.Quiet) (hs : M.Started s₀ req) (hreq : WholeFrame req)
    (hhandle : handle v₀ req = (v₁, reply)) (hreply : WholeFrame reply) (hfits : bodyLength reply ≤ M.cap)
    (hms : ∀ m ∈ ms, m.InTime (M.deadline s₀)) (hnow : expired (millis 0) (M.deadline s₀) = false)
    (hc : converse M.poll handle s₀ l v₀ (ms ++ flush millis) = (st, s', l', v')) :
    Ended M s₀ reply st s' ∧ l'.Quiet ∧ v' = v₁ := by
  have hstart : Phase M s₀ l.conn reply v₀ v₁ s₀ l v₀ := .asking (hl.start hs) rfl
  obtain ⟨st₁, s₁, l₁, u₁, hfirst⟩ : ∃ st s₁ l₁ u₁, converse M.poll handle s₀ l v₀ ms = (st, s₁, l₁, u₁) :=
    ⟨_, _, _, _, rfl⟩
  rw [converse_append, hfirst] at hc
  rcases converse_cases hs hreq hhandle hreply hfits hstart hms hfirst with ⟨rfl, hphase⟩ | ⟨hended, hquiet, hdone⟩
  · have hflush : ∀ m ∈ flush millis, m.InTime (M.deadline s₀) := by
      intro m hm
      simp only [flush, List.mem_cons, List.not_mem_nil, or_false] at hm
      rcases hm with rfl | rfl | rfl | rfl
      · exact ⟨Buffers.atOnce_up millis, hnow⟩
      · trivial
      · trivial
      · exact ⟨Buffers.atOnce_up millis, hnow⟩
    rcases converse_cases hs hreq hhandle hreply hfits hphase hflush hc with ⟨hpending, -⟩ | hend
    · exact absurd hpending (flush_ends hs hreq hhandle hreply hfits hphase hnow hc)
    · exact hend
  · rw [if_neg hended.status] at hc
    simp only [Prod.mk.injEq] at hc
    obtain ⟨rfl, rfl, rfl, rfl⟩ := hc
    exact ⟨hended, hquiet, hdone⟩

end Phase

end Link

end ControlLogix
