import ControlLogix.Absorbing

/-!
# Timeouts on a clock that wraps

Every deadline is a reading of a 32-bit clock plus a timeout, and `expired` looks at the sign of a difference, so a
deadline more than `2 ^ 31` milliseconds ahead has passed already.

* `honoured_iff`: an exchange honours its timeout if and only if that is at most `2 ^ 31`;
* `World.connect_honoured`: so does `connect()`, which hands what is left of the timeout to the session;
* `deadlines_honoured`: this is so for `Session::open`, `ExplicitMessage::send`, `Connection::send` and
  `PlcClient::connect`;
* `fires_at_once`: a session that is opened with the largest timeout times out in its first `poll()`.
-/

namespace ControlLogix

open Transition

/-! ### A clock that wraps -/

private theorem ofNat_wrap (x : Nat) : UInt32.ofNat (x + 2 ^ 32) = UInt32.ofNat x := by
  apply UInt32.toNat_inj.1
  simp

/-- The difference of two readings, `x` and `y` milliseconds after `start`. -/
private theorem toNat_lapse {x y : Nat} (start : UInt32) (h : y ≤ x + 2 ^ 32) :
    (start + UInt32.ofNat x - (start + UInt32.ofNat y)).toNat = (x + 2 ^ 32 - y) % 2 ^ 32 := by
  have e : UInt32.ofNat x = UInt32.ofNat y + UInt32.ofNat (x + 2 ^ 32 - y) := by
    rw [← UInt32.ofNat_add, Nat.add_sub_cancel' h, ofNat_wrap]
  have hd : start + UInt32.ofNat x - (start + UInt32.ofNat y) = UInt32.ofNat (x + 2 ^ 32 - y) := by
    rw [e]
    grind
  rw [hd, UInt32.toNat_ofNat']

theorem expired_late {x y : Nat} (start : UInt32) (h : y ≤ x) (h' : x < y + 2 ^ 31) :
    expired (start + UInt32.ofNat x) (start + UInt32.ofNat y) = true := by
  rw [expired, decide_eq_true_eq, toNat_lapse start (by omega)]
  omega

/-- Before the deadline the sign is right for `2 ^ 31` milliseconds. -/
theorem expired_early {x y : Nat} (start : UInt32) (h : x < y) (h' : y < x + 2 ^ 32) :
    expired (start + UInt32.ofNat x) (start + UInt32.ofNat y) = true ↔ x + 2 ^ 31 < y := by
  rw [expired, decide_eq_true_eq, toNat_lapse start (by omega)]
  omega

/-! ### Nothing but a deadline times out -/

private theorem writePending_status_ne (b : Buffers) (conn : TcpConnection) (as : List SendAnswer) :
    (b.writePending conn as).1 ≠ .timeout := by
  obtain ⟨st, b', conn', hw⟩ : ∃ st b' conn', b.writePending conn as = (st, b', conn') := ⟨_, _, _, rfl⟩
  have hst := (Buffers.writePending_spec hw).status
  rw [hw]
  show st ≠ .timeout
  rcases hst with rfl | rfl | rfl | rfl | rfl <;> decide

private theorem read_status_ne {t t' : TcpConnection} {length : Nat} {a : RecvAnswer} {st : Status}
    (h : t.read length a = (.error st, t')) : st ≠ .timeout := by
  obtain ⟨-, ⟨rfl, -⟩ | ⟨rfl, -⟩ | rfl⟩ := TcpConnection.read_error h
  · decide
  · decide
  · decide

private theorem readResponse_status_ne (cap : Nat) (b : Buffers) (conn : TcpConnection) (as : List RecvAnswer) :
    (b.readResponse cap conn as).1 ≠ .timeout := by
  induction as generalizing b conn with
  | nil =>
    unfold Buffers.readResponse
    split
    · split
      · simp
      · rename_i st conn' hr
        exact read_status_ne hr
    · simp
  | cons a as ih =>
    unfold Buffers.readResponse
    split
    · split
      · simp
      · dsimp only
        split
        · split
          · simp
          · exact ih _ _
        · exact ih _ _
      · rename_i st conn' hr
        exact read_status_ne hr
    · simp

/-- The deadline is checked first, and nothing after it times out. -/
private theorem checked_first {α : Type} {late : Prop} [Decidable late] {x y : Status × α} (hx : x.1 = .timeout)
    (hy : y.1 ≠ .timeout) : (if late then x else y).1 = .timeout ↔ late := by
  by_cases h : late
  · rw [if_pos h]
    exact ⟨fun _ => h, fun _ => hx⟩
  · rw [if_neg h]
    exact ⟨fun hout => absurd hout hy, fun hlate => absurd hlate h⟩

namespace Session

private theorem pollExchange_timeout {finish : Session → Status × Session} (hfinish : ∀ s, (finish s).1 ≠ .timeout)
    (s : Session) (conn : TcpConnection) (now : UInt32) (os : Platform) :
    (pollExchange finish s conn now os).1 = .timeout ↔ expired now s.deadline = true := by
  unfold pollExchange
  apply checked_first rfl
  have hw := writePending_status_ne s.toBuffers conn os.sends
  split
  · rename_i b₁ conn₁ hwrote
    have hr := readResponse_status_ne kMaxBodySize b₁ conn₁ os.recvs
    split
    · simp
    · exact hfinish _
    · rename_i st b₂ conn₂ hnp hno hread
      rw [hread] at hr
      exact hr
  · rename_i st b₁ conn₁ hno hwrote
    rw [hwrote] at hw
    exact hw

/-- `poll()` of a session returns `Timeout` exactly when the deadline of an exchange has passed. -/
theorem poll_timeout (s : Session) (conn : TcpConnection) (now : UInt32) (os : Platform) :
    (s.poll conn now os).1 = .timeout ↔ s.Exchanging ∧ expired now s.deadline = true := by
  by_cases hx : s.Exchanging
  · rw [and_iff_right hx]
    rcases hx with hs | hs
    · have hpoll : s.poll conn now os = pollExchange finishRegister s conn now os := by
        rw [poll, hs]
        rfl
      rw [hpoll]
      refine pollExchange_timeout ?_ s conn now os
      intro s'
      unfold finishRegister
      dsimp only
      split
      · simp
      · split <;> simp
    · have hpoll : s.poll conn now os = pollExchange finishUnregister s conn now os := by
        rw [poll, hs]
        rfl
      rw [hpoll]
      exact pollExchange_timeout (fun s' => by simp [finishUnregister]) s conn now os
  · refine ⟨fun h => absurd h ?_, fun h => absurd h.1 hx⟩
    unfold poll
    cases hs : s.state
    · simp
    · exact absurd (Or.inl hs) hx
    · simp
    · exact absurd (Or.inr hs) hx
    · simp
    · simp

private theorem pollExchange_deadline {finish : Session → Status × Session}
    (hfinish : ∀ s, (finish s).2.deadline = s.deadline) (s : Session) (conn : TcpConnection) (now : UInt32)
    (os : Platform) : (pollExchange finish s conn now os).2.1.deadline = s.deadline := by
  unfold pollExchange
  split
  · rfl
  · split
    · split
      · rfl
      · exact hfinish _
      · rfl
    · rfl

theorem poll_deadline (s : Session) (conn : TcpConnection) (now : UInt32) (os : Platform) :
    (s.poll conn now os).2.1.deadline = s.deadline := by
  by_cases hx : s.Exchanging
  · rcases hx with hs | hs
    · have hpoll : s.poll conn now os = pollExchange finishRegister s conn now os := by
        rw [poll, hs]
        rfl
      rw [hpoll]
      refine pollExchange_deadline ?_ s conn now os
      intro s'
      unfold finishRegister
      dsimp only
      split
      · rfl
      · split <;> rfl
    · have hpoll : s.poll conn now os = pollExchange finishUnregister s conn now os := by
        rw [poll, hs]
        rfl
      rw [hpoll]
      exact pollExchange_deadline (fun s' => rfl) s conn now os
  · rw [poll_settled hx]

end Session

namespace ExplicitMessage

theorem poll_timeout (m : ExplicitMessage) (conn : TcpConnection) (os : Platform) :
    (m.poll conn os).1 = .timeout ↔ m.InFlight ∧ expired (os.millis 0) m.deadline = true := by
  by_cases hin : m.InFlight
  · rw [and_iff_right hin, poll_inFlight hin]
    unfold advance
    apply checked_first rfl
    have hw := writePending_status_ne m.toBuffers conn os.sends
    split
    · rename_i b₁ conn₁ hwrote
      have hr := readResponse_status_ne (16 + kMaxCipData) b₁ conn₁ os.recvs
      dsimp only
      split
      · simp
      · split
        · simp
        · rename_i st m' hne hparse
          unfold parseResponse at hparse
          split at hparse
          · rw [← (Prod.mk.inj hparse).1]
            simp
          · exact absurd (Prod.mk.inj hparse).1.symm hne
      · rename_i st b₂ conn₂ hnp hno hread
        rw [hread] at hr
        exact hr
    · simp
    · rename_i st b₁ conn₁ hno hnp hwrote
      rw [hwrote] at hw
      exact hw
  · rw [poll_rest hin]
    refine ⟨fun h => absurd h ?_, fun h => absurd h.1 hin⟩
    dsimp only
    split
    · simp
    · split <;> simp

theorem poll_deadline (m : ExplicitMessage) (conn : TcpConnection) (os : Platform) :
    (m.poll conn os).2.1.deadline = m.deadline := by
  by_cases hin : m.InFlight
  · rw [poll_inFlight hin]
    unfold advance
    split
    · rfl
    · split
      · dsimp only
        split
        · rfl
        · unfold parseResponse
          split
          · rename_i m' hparse
            split at hparse
            · exact absurd (Prod.mk.inj hparse).1 (by decide)
            · rw [← (Prod.mk.inj hparse).2]
              rfl
          · rename_i st m' hne hparse
            split at hparse
            · rw [← (Prod.mk.inj hparse).2]
            · exact absurd (Prod.mk.inj hparse).1.symm hne
        · rfl
      · rfl
      · rfl
  · rw [poll_rest hin]

end ExplicitMessage

namespace Connection

/-- A connected exchange, and what it leads to. -/
def Sends (c : Connection) : Prop := c.state = .sending ∨ c.state = .open ∨ c.state = .failed

theorem poll_timeout {c : Connection} (h : c.Sends) (conn : TcpConnection) (os : Platform) :
    (c.poll conn os).1 = .timeout ↔ c.state = .sending ∧ expired (os.millis 0) c.deadline = true := by
  rcases h with hs | hs | hs
  · have hpoll : c.poll conn os = c.pollSending conn os := by rw [poll, hs]
    rw [and_iff_right hs, hpoll]
    unfold pollSending
    apply checked_first rfl
    have hw := writePending_status_ne c.toBuffers conn os.sends
    split
    · rename_i b₁ conn₁ hwrote
      have hr := readResponse_status_ne (22 + kMaxDataSize) b₁ conn₁ os.recvs
      split
      · simp
      · unfold parseConnectedResponse
        dsimp only
        split <;> simp
      · rename_i st b₂ conn₂ hnp hno hread
        rw [hread] at hr
        exact hr
    · simp
    · rename_i st b₁ conn₁ hno hnp hwrote
      rw [hwrote] at hw
      exact hw
  · rw [poll, hs]
    simp
  · rw [poll, hs]
    simp

theorem poll_sends {c : Connection} (h : c.Sends) (conn : TcpConnection) (os : Platform) :
    (c.poll conn os).2.1.Sends ∧ (c.poll conn os).2.1.deadline = c.deadline := by
  by_cases hs : c.state = .sending
  · have hpoll : c.poll conn os = c.pollSending conn os := by rw [poll, hs]
    rw [hpoll]
    unfold pollSending
    split
    · exact ⟨Or.inr (Or.inr rfl), rfl⟩
    · split
      · split
        · exact ⟨Or.inl hs, rfl⟩
        · unfold parseConnectedResponse
          dsimp only
          split
          · exact ⟨Or.inr (Or.inr rfl), rfl⟩
          · exact ⟨Or.inr (Or.inl rfl), rfl⟩
        · exact ⟨Or.inr (Or.inr rfl), rfl⟩
      · exact ⟨Or.inl hs, rfl⟩
      · exact ⟨Or.inr (Or.inr rfl), rfl⟩
  · have hrest : ¬ c.InFlight := by
      rcases h with e | e | e
      · exact absurd e hs
      · simp [InFlight, e]
      · simp [InFlight, e]
    rw [poll_rest hrest]
    exact ⟨h, rfl⟩

end Connection

/-! ### An exchange honours its timeout -/

/-- The object after some calls of `poll()`, on whatever clock and network. -/
def polled {σ : Type} (poll : σ → TcpConnection → Platform → Status × σ × TcpConnection) :
    σ → List (TcpConnection × Platform) → σ
  | s, [] => s
  | s, (conn, os) :: visits => polled poll (poll s conn os).2.1 visits

/-- No `poll()` of the exchange that began at `start` returns `Timeout` before `timeoutMs` milliseconds have gone, and
a `poll()` that finds it going on after that does, for `2 ^ 31` milliseconds. -/
def Honoured {σ : Type} (poll : σ → TcpConnection → Platform → Status × σ × TcpConnection) (Going : σ → Prop)
    (start timeoutMs : UInt32) (s : σ) : Prop :=
  ∀ (visits : List (TcpConnection × Platform)) (conn : TcpConnection) (os : Platform) (e : Nat),
    os.millis 0 = start + UInt32.ofNat e →
      (e < timeoutMs.toNat → (poll (polled poll s visits) conn os).1 ≠ .timeout) ∧
      (Going (polled poll s visits) → timeoutMs.toNat ≤ e → e < timeoutMs.toNat + 2 ^ 31 →
        (poll (polled poll s visits) conn os).1 = .timeout)

/-- An object all of whose timeouts come from the one deadline of the exchange, as `I` says, honours the timeout if
and only if the deadline is at most `2 ^ 31` milliseconds ahead. -/
theorem honoured_iff {σ : Type} {poll : σ → TcpConnection → Platform → Status × σ × TcpConnection} {Going : σ → Prop}
    {start timeoutMs : UInt32} (I : σ → Prop) (hkept : ∀ s conn os, I s → I (poll s conn os).2.1)
    (htimeout : ∀ s conn os, I s →
      ((poll s conn os).1 = .timeout ↔ Going s ∧ expired (os.millis 0) (start + timeoutMs) = true))
    {s : σ} (hs : I s) (hgoing : Going s) : Honoured poll Going start timeoutMs s ↔ timeoutMs.toNat ≤ 2 ^ 31 := by
  have hdeadline : start + timeoutMs = start + UInt32.ofNat timeoutMs.toNat := by rw [UInt32.ofNat_toNat]
  have hlt := timeoutMs.toNat_lt
  have hall : ∀ visits s, I s → I (polled poll s visits) := by
    intro visits
    induction visits with
    | nil => exact fun s hs => hs
    | cons v visits ih =>
      intro s hs
      exact ih _ (hkept s v.1 v.2 hs)
  constructor
  · -- the first `poll()`, with no time gone
    intro h
    by_contra hlong
    have hclock : start = start + UInt32.ofNat 0 := by simp
    refine (h [] {} { millis := fun _ => start } 0 hclock).1 (by omega) ?_
    rw [htimeout _ _ _ (hall [] s hs)]
    refine ⟨hgoing, ?_⟩
    show expired start (start + timeoutMs) = true
    rw [hdeadline, hclock]
    have hearly := (expired_early (start + UInt32.ofNat 0) (x := 0) (y := timeoutMs.toNat) (by omega) (by omega)).2
      (by omega)
    simpa using hearly
  · intro hshort visits conn os e hclock
    rw [ne_eq, htimeout _ _ _ (hall visits s hs), hclock, hdeadline]
    constructor
    · rintro hbefore ⟨-, hlate⟩
      rw [expired_early start hbefore (by omega)] at hlate
      omega
    · intro hgo hle hwithin
      exact ⟨hgo, expired_late start hle hwithin⟩

/-! ### The facade on a clock -/

variable {n : Nat}

/-- Reading number `k` of the clock in a call that is made `e` milliseconds after the start, as `lapse` tells the
times between the readings. -/
def reading (e : Nat) (lapse : Nat → Nat) : Nat → Nat
  | 0 => e + lapse 0
  | k + 1 => reading e lapse k + lapse (k + 1)

theorem le_reading (e : Nat) (lapse : Nat → Nat) (k : Nat) : e ≤ reading e lapse k := by
  induction k with
  | zero => exact Nat.le_add_right _ _
  | succ k ih => exact Nat.le_trans ih (Nat.le_add_right _ _)

def Platform.timed (os : Platform) (start : UInt32) (e : Nat) (lapse : Nat → Nat) : Platform :=
  { os with millis := fun k => start + UInt32.ofNat (reading e lapse k) }

def Act.timed (start : UInt32) (e : Nat) (lapse : Nat → Nat) : Act → Act
  | .poll os => .poll (os.timed start e lapse)
  | .iter os => .iter (os.timed start e lapse)
  | a => a

/-- A sketch, and the milliseconds that have gone since the start. -/
structure Timed (n : Nat) where
  world : World n
  elapsed : Nat

/-- A call of `poll()` reads the clock at most four times. -/
def Timed.step (start : UInt32) (d : Timed n) (a : Act × (Nat → Nat)) : Option (Timed n) :=
  match World.step d.world (a.1.timed start d.elapsed a.2) with
  | none => none
  | some w => some ⟨w, reading d.elapsed a.2 3⟩

/-- The sketch calls none of the functions that start or end a connection. -/
def Undisturbed : Timed n → Act × (Nat → Nat) → Prop
  | _, (.call (.begin ..), _) | _, (.call (.connect ..), _) | _, (.call .disconnect, _) => False
  | _, _ => True

/-- The client starts to connect, in `connect()` or in the `poll()` that finds Ethernet ready: the deadline is counted
from `start`, and the deadline of the TCP connection is set `e` milliseconds later. -/
inductive World.Dials (w : World n) (start timeoutMs : UInt32) (e : Nat) (w' : World n) : Prop where
  | connect {ip : IPAddress} {port : UInt16} {os : Platform}
      (taken : World.step w (.call (.connect ip port timeoutMs os)) = some w') (state : w'.plc.state = .connecting)
      (first : os.millis 0 = start) (second : os.millis 1 = start + UInt32.ofNat e)
  | queued {os : Platform} (taken : World.step w (.poll os) = some w') (before : w.plc.state = .ethernet)
      (timeout : w.plc.connectTimeoutMs = timeoutMs) (state : w'.plc.state = .connecting)
      (first : os.millis 0 = start) (second : os.millis 1 = start + UInt32.ofNat e)

/-- The timeout of `connect()` is honoured, and the session's deadline does not come before that of the client. -/
def World.ConnectHonoured (w : World n) (start timeoutMs : UInt32) (e : Nat) : Prop :=
  ∀ as d, Run (Timed.step start) Undisturbed ⟨w, e⟩ as d →
    (∀ (os : Platform) lapse st p called,
      d.world.plc.pollState (os.timed start d.elapsed lapse) = some (st, p, called) →
      (reading d.elapsed lapse 1 < timeoutMs.toNat → st ≠ .timeout) ∧
      (d.world.plc.state = .connecting ∨ d.world.plc.state = .registering →
        timeoutMs.toNat ≤ reading d.elapsed lapse 0 → reading d.elapsed lapse 0 < timeoutMs.toNat + 2 ^ 31 →
        st = .timeout)) ∧
    (d.world.plc.state = .registering → ∀ x, d.elapsed ≤ x → x < timeoutMs.toNat →
      expired (start + UInt32.ofNat x) d.world.plc.session.deadline = false)

/-- The client is connecting, or has got further, with deadlines counted from `start`. -/
structure Ticking (start timeoutMs : UInt32) (e : Nat) (p : PlcClient n) : Prop where
  live : p.state = .connecting ∨ p.state = .registering ∨ p.state = .ready ∨ p.state = .idle ∨ p.state = .failed
  deadline : p.state = .connecting ∨ p.state = .registering → p.deadline = start + timeoutMs
  connecting : p.state = .connecting → 0 ≤ p.tcp.fd ∧ p.tcp.state = .pending ∧
    ∃ d, d ≤ e ∧ p.tcp.deadline = start + UInt32.ofNat (timeoutMs.toNat + d)
  registering : p.state = .registering →
    ∃ d, d ≤ e ∧ p.session.deadline = start + UInt32.ofNat (timeoutMs.toNat + d)

/-! ### The start -/

private theorem ticking_dial {p : PlcClient n} {os : Platform} {start timeoutMs : UInt32} {e : Nat}
    (hstate : (p.dial os).2.state = .connecting) (hdeadline : p.deadline = start + timeoutMs)
    (htimeout : p.connectTimeoutMs = timeoutMs) (hsecond : os.millis 1 = start + UInt32.ofNat e) :
    Ticking start timeoutMs e (p.dial os).2 ∧
      (p.dial os).2.tcp.deadline = start + UInt32.ofNat (timeoutMs.toNat + e) := by
  unfold PlcClient.dial at hstate ⊢
  split
  · rename_i tcp htcp
    have hd : tcp.deadline = start + UInt32.ofNat (timeoutMs.toNat + e) := by
      rw [TcpConnection.connect_deadline htcp, hsecond, htimeout, UInt32.ofNat_add, UInt32.ofNat_toNat]
      grind
    rw [htcp] at hstate
    rcases TcpConnection.connect_cases htcp with ⟨-, hdialled⟩ | ⟨hne, -⟩
    · refine ⟨⟨Or.inl hstate, fun _ => hdeadline, fun _ => ⟨hdialled.fd, hdialled.state, e, Nat.le_refl e, hd⟩, ?_⟩,
        hd⟩
      intro h
      exact absurd (hstate.symm.trans h) (by decide)
    · exact absurd rfl hne
  · rename_i st tcp hne htcp
    rw [htcp] at hstate
    cases st with
    | pending => exact absurd rfl hne
    | _ => exact absurd hstate (by simp)

theorem ticking_dials {w w' : World n} {start timeoutMs : UInt32} {e : Nat} (h : w.Dials start timeoutMs e w') :
    Ticking start timeoutMs e w'.plc ∧ w'.plc.tcp.deadline = start + UInt32.ofNat (timeoutMs.toNat + e) := by
  cases h with
  | @connect ip port os taken state first second =>
    obtain ⟨-, rfl⟩ := World.step_call taken
    change (w.plc.connect ip port timeoutMs os).2.state = .connecting at state
    change Ticking start timeoutMs e (w.plc.connect ip port timeoutMs os).2 ∧
      (w.plc.connect ip port timeoutMs os).2.tcp.deadline = start + UInt32.ofNat (timeoutMs.toNat + e)
    unfold PlcClient.connect at state ⊢
    dsimp only at state ⊢
    split
    · rename_i hready
      rw [if_pos hready] at state
      refine ticking_dial state ?_ rfl second
      rw [first]
    · rename_i hready
      rw [if_neg hready] at state
      cases state
  | @queued os taken before timeout state first second =>
    obtain ⟨-, rfl⟩ := World.step_poll taken
    have hpoll : w.plc.pollState os = some (w.plc.pollEthernet os) := by rw [PlcClient.pollState, before]
    have hplc : (w.poll os).plc = (w.plc.pollEthernet os).2.1 := by
      unfold World.poll
      rw [hpoll]
    rw [hplc] at state ⊢
    unfold PlcClient.pollEthernet at state ⊢
    dsimp only at state ⊢
    split
    · rename_i hup
      rw [if_pos hup] at state
      split
      · rename_i hwant
        rw [if_pos hwant] at state
        refine ticking_dial state ?_ timeout second
        rw [first, timeout]
      · rename_i hwant
        rw [if_neg hwant] at state
        exact absurd (before.symm.trans state) (by decide)
    · rename_i hup
      rw [if_neg hup] at state
      split
      · rename_i herr
        rw [if_pos herr] at state
        cases state
      · rename_i herr
        rw [if_neg herr] at state
        exact absurd (before.symm.trans state) (by decide)

/-! ### The clock goes on -/

section Ticking

variable {start timeoutMs : UInt32} {e e' : Nat} {p p' : PlcClient n}

theorem Ticking.mono (h : Ticking start timeoutMs e p) (hle : e ≤ e') : Ticking start timeoutMs e' p := by
  refine ⟨h.live, h.deadline, fun hs => ?_, fun hs => ?_⟩
  · obtain ⟨hfd, hst, d, hd, hdl⟩ := h.connecting hs
    exact ⟨hfd, hst, d, Nat.le_trans hd hle, hdl⟩
  · obtain ⟨d, hd, hdl⟩ := h.registering hs
    exact ⟨d, Nat.le_trans hd hle, hdl⟩

private theorem ticking_of_over (h : p.state = .ready ∨ p.state = .idle ∨ p.state = .failed) :
    Ticking start timeoutMs e p := by
  refine ⟨Or.inr (Or.inr h), fun hs => ?_, fun hs => ?_, fun hs => ?_⟩
  · rcases h with h | h | h <;> rcases hs with hs | hs <;> exact absurd (h.symm.trans hs) (by decide)
  · rcases h with h | h | h <;> exact absurd (h.symm.trans hs) (by decide)
  · rcases h with h | h | h <;> exact absurd (h.symm.trans hs) (by decide)

private theorem ticking_of_same (h : Ticking start timeoutMs e p) (hs : SameLink p p')
    (hd : p'.deadline = p.deadline) : Ticking start timeoutMs e p' := by
  obtain ⟨hst, hx, htcp⟩ := hs
  refine ⟨?_, ?_, ?_, ?_⟩
  · rw [hst]
    exact h.live
  · rw [hst, hd]
    exact h.deadline
  · rw [hst, htcp]
    exact h.connecting
  · rw [hst, hx]
    exact h.registering

/-- `tcp_.poll()` while the connection is being made. -/
private theorem tcp_poll_cases {t : TcpConnection} (hfd : 0 ≤ t.fd) (hs : t.state = .pending) (os : PollAnswers)
    (now : UInt32) :
    ((t.poll os now).1 = .pending ∧ (t.poll os now).2.fd = t.fd ∧ (t.poll os now).2.state = .pending ∧
      (t.poll os now).2.deadline = t.deadline) ∨
    (t.poll os now).1 = .ok ∨ (t.poll os now).1 = .error ∨
    ((t.poll os now).1 = .timeout ∧ expired now t.deadline = true) := by
  unfold TcpConnection.poll
  rw [if_neg (by omega), if_neg (by simp [hs])]
  dsimp only
  split
  · exact Or.inr (Or.inr (Or.inl rfl))
  · split
    · split
      · rename_i hlate
        exact Or.inr (Or.inr (Or.inr ⟨rfl, hlate⟩))
      · exact Or.inl ⟨rfl, rfl, hs, rfl⟩
    · split
      · exact Or.inr (Or.inr (Or.inl rfl))
      · split
        · exact Or.inr (Or.inl rfl)
        · exact Or.inr (Or.inr (Or.inl rfl))

/-- What is left of the timeout when the session is opened, on a later reading than that it is computed with. -/
private theorem handed_over (start timeoutMs : UInt32) (x d : Nat) :
    start + UInt32.ofNat (x + d) + (start + timeoutMs - (start + UInt32.ofNat x)) =
      start + UInt32.ofNat (timeoutMs.toNat + d) := by
  rw [UInt32.ofNat_add, UInt32.ofNat_add, UInt32.ofNat_toNat]
  grind

private theorem ticking_connecting (h : Ticking start timeoutMs e p) (hs : p.state = .connecting) (os : Platform)
    (lapse : Nat → Nat) :
    Ticking start timeoutMs (reading e lapse 3) (p.pollConnecting (os.timed start e lapse)).2.1 := by
  obtain ⟨hfd, hpending, d, hd, htcp⟩ := h.connecting hs
  have hdeadline := h.deadline (Or.inl hs)
  have hle := le_reading e lapse 3
  unfold PlcClient.pollConnecting
  split
  · exact ticking_of_over (Or.inr (Or.inr rfl))
  · have hcases := tcp_poll_cases hfd hpending (os.timed start e lapse).poll ((os.timed start e lapse).millis 1)
    obtain ⟨st, tcp, hpoll⟩ : ∃ st tcp, p.tcp.poll (os.timed start e lapse).poll ((os.timed start e lapse).millis 1) =
      (st, tcp) := ⟨_, _, rfl⟩
    rw [hpoll] at hcases ⊢
    dsimp only at hcases ⊢
    split
    · obtain ⟨st', session, hopen⟩ : ∃ st' session, p.session.open tcp
          (p.deadline - (os.timed start e lapse).millis 2) ((os.timed start e lapse).millis 3) = (st', session) :=
        ⟨_, _, rfl⟩
      rw [hopen]
      dsimp only
      split
      · exact ticking_of_over (Or.inr (Or.inr rfl))
      · rename_i hst'
        refine ⟨Or.inr (Or.inl rfl), fun _ => hdeadline, fun hs' => absurd hs' (by simp), fun _ => ?_⟩
        -- the session gets what is left of the timeout, and counts it from the reading after
        rcases Session.open_cases hopen with ⟨-, -, rfl⟩ | ⟨hne, -⟩
        · refine ⟨lapse 3, Nat.le_add_left _ _, ?_⟩
          show start + UInt32.ofNat (reading e lapse 2 + lapse 3) +
            (p.deadline - (start + UInt32.ofNat (reading e lapse 2))) = _
          rw [hdeadline, handed_over]
        · exact absurd hne hst'
    · split
      · exact ticking_of_over (Or.inr (Or.inr rfl))
      · rename_i hok hbad
        rcases hcases with ⟨-, hfd', hst', hdl'⟩ | hst | hst | ⟨hst, -⟩
        · refine ⟨Or.inl hs, fun _ => hdeadline, fun _ => ⟨?_, hst', d, by omega, hdl'.trans htcp⟩, ?_⟩
          · rw [hfd']
            exact hfd
          · intro hs'
            exact absurd (hs.symm.trans hs') (by decide)
        · exact absurd hst hok
        · exact absurd (Or.inr hst) hbad
        · exact absurd (Or.inl hst) hbad

private theorem ticking_registering (h : Ticking start timeoutMs e p) (hs : p.state = .registering) (os : Platform)
    (hle : e ≤ e') : Ticking start timeoutMs e' (p.pollRegistering os).2.1 := by
  obtain ⟨d, hd, hdl⟩ := h.registering hs
  have hdeadline := h.deadline (Or.inr hs)
  have hkeep := p.session.poll_deadline p.tcp (os.millis 1) os
  unfold PlcClient.pollRegistering
  split
  · exact ticking_of_over (Or.inr (Or.inr rfl))
  · dsimp only
    split
    · exact ticking_of_over (Or.inl rfl)
    · split
      · exact ticking_of_over (Or.inr (Or.inr rfl))
      · refine ⟨Or.inr (Or.inl hs), fun _ => hdeadline, ?_, fun _ => ⟨d, by omega, hkeep.trans hdl⟩⟩
        intro hs'
        exact absurd (hs.symm.trans hs') (by decide)

private theorem called_deadline {op : Op} {es : List (Event n)} (h : Called p op p' es) (hop : ¬ op.Link) :
    p'.deadline = p.deadline := by
  cases h with
  | linked hop' => exact absurd hop' hop
  | _ => rfl

private theorem turned_deadline {i : Fin n} {os : Platform} {st : Status} (h : PlcClient.Turned p i os st p') :
    p'.deadline = p.deadline := by
  cases h with
  | rest => rfl
  | inFlight => rfl

/-- A turn of the loop does not touch a socket that is not up. -/
private theorem ticking_turned {i : Fin n} {os : Platform} {st : Status} (hc : Coupled p)
    (h : Ticking start timeoutMs e p) (ht : PlcClient.Turned p i os st p') : Ticking start timeoutMs e p' := by
  obtain ⟨hs, hx, out, inp, htr⟩ := turned_link hc ht
  have hd := turned_deadline ht
  refine ⟨?_, ?_, fun hcon => ?_, ?_⟩
  · rw [hs]
    exact h.live
  · rw [hs, hd]
    exact h.deadline
  · rw [hs] at hcon
    have hold := h.connecting hcon
    have hu : ¬ p.tcp.Usable := fun hu => absurd (hold.2.1.symm.trans hu.2) (by decide)
    rw [(htr.unusable hu).1]
    exact hold
  · rw [hs, hx]
    exact h.registering

end Ticking

private theorem timed_le {start : UInt32} {d d' : Timed n} {a : Act × (Nat → Nat)}
    (hs : Timed.step start d a = some d') : d.elapsed ≤ d'.elapsed := by
  unfold Timed.step at hs
  split at hs
  · cases hs
  · obtain rfl := Option.some.inj hs
    exact le_reading _ _ _

private theorem ticking_step {start timeoutMs : UInt32} {d d' : Timed n} {a : Act × (Nat → Nat)}
    (hc : Coupled d.world.plc) (h : Ticking start timeoutMs d.elapsed d.world.plc) (hok : Undisturbed d a)
    (hs : Timed.step start d a = some d') :
    Coupled d'.world.plc ∧ Ticking start timeoutMs d'.elapsed d'.world.plc := by
  obtain ⟨act, lapse⟩ := a
  unfold Timed.step at hs
  split at hs
  · cases hs
  · rename_i w hw
    obtain rfl := Option.some.inj hs
    refine ⟨World.coupled_step hc hw, ?_⟩
    have hle := le_reading d.elapsed lapse 3
    have hlater := h.mono hle
    cases act with
    | deliver bs =>
      obtain rfl := Option.some.inj hw
      exact ⟨hlater.live, hlater.deadline, hlater.connecting, hlater.registering⟩
    | call op =>
      obtain ⟨-, rfl⟩ := World.step_call hw
      rcases sameLink_called (call_cases d.world.plc op) with ⟨hop, -, -⟩ | ⟨hop, hsame⟩
      · cases op with
        | setStateCallback set => exact ⟨hlater.live, hlater.deadline, hlater.connecting, hlater.registering⟩
        | begin began configured => exact absurd hok id
        | connect ip port timeoutMs os => exact absurd hok id
        | disconnect => exact absurd hok id
        | _ => exact absurd hop id
      · exact ticking_of_same hlater hsame (called_deadline (call_cases d.world.plc op) hop)
    | poll os =>
      obtain ⟨-, rfl⟩ := World.step_poll hw
      unfold World.poll
      rcases h.live with hs | hs | hs | hs | hs
      · have hpoll : d.world.plc.pollState (os.timed start d.elapsed lapse) =
            some (d.world.plc.pollConnecting (os.timed start d.elapsed lapse)) := by rw [PlcClient.pollState, hs]
        rw [hpoll]
        exact ticking_connecting h hs os lapse
      · have hpoll : d.world.plc.pollState (os.timed start d.elapsed lapse) =
            some (d.world.plc.pollRegistering (os.timed start d.elapsed lapse)) := by rw [PlcClient.pollState, hs]
        rw [hpoll]
        exact ticking_registering h hs _ hle
      · rw [PlcClient.pollState_none.2 hs]
        exact hlater
      · have hpoll : d.world.plc.pollState (os.timed start d.elapsed lapse) = some (.notReady, d.world.plc,
          none) := by
          rw [PlcClient.pollState, hs]
        rw [hpoll]
        exact hlater
      · have hpoll : d.world.plc.pollState (os.timed start d.elapsed lapse) = some (.error, d.world.plc, none) := by
          rw [PlcClient.pollState, hs]
        rw [hpoll]
        exact hlater
    | iter os =>
      obtain ⟨f, fs, hf, -, hiter⟩ := World.step_iterated hw
      cases hiter with
      | turned st p hu ht => exact ticking_turned hc hlater ht
      | skipped => exact hlater
    | leave =>
      obtain ⟨f, fs, -, -, rfl⟩ := World.step_leave hw
      show Ticking start timeoutMs _ (d.world.plc.loopEnd f.disconnected).2.1
      unfold PlcClient.loopEnd
      split
      · exact ticking_of_over (Or.inr (Or.inl rfl))
      · exact hlater

/-! ### `connect()` honours its timeout -/

section Connect

variable {start timeoutMs : UInt32} {e : Nat} {p p' : PlcClient n} {st : Status} {called : Option Status}

/-- A `Timeout` of the client comes from its own deadline, at the first reading, or from the one of the TCP connection
or the session, at the second. -/
private theorem timeout_cases (h : Ticking start timeoutMs e p) {os : Platform} {lapse : Nat → Nat}
    (hp : p.pollState (os.timed start e lapse) = some (.timeout, p', called)) :
    expired (start + UInt32.ofNat (reading e lapse 0)) (start + timeoutMs) = true ∨
      ∃ d, d ≤ e ∧ expired (start + UInt32.ofNat (reading e lapse 1))
        (start + UInt32.ofNat (timeoutMs.toNat + d)) = true := by
  unfold PlcClient.pollState at hp
  rcases h.live with hs | hs | hs | hs | hs
  · obtain ⟨hfd, hpending, d, hd, htcp⟩ := h.connecting hs
    have hcases := tcp_poll_cases hfd hpending (os.timed start e lapse).poll ((os.timed start e lapse).millis 1)
    rw [hs, Option.some.injEq] at hp
    unfold PlcClient.pollConnecting at hp
    split at hp
    · rename_i hlate
      rw [h.deadline (Or.inl hs)] at hlate
      exact Or.inl hlate
    · right
      obtain ⟨tst, tcp, hpoll⟩ : ∃ tst tcp,
        p.tcp.poll (os.timed start e lapse).poll ((os.timed start e lapse).millis 1) = (tst, tcp) := ⟨_, _, rfl⟩
      rw [hpoll] at hcases hp
      dsimp only at hcases hp
      split at hp
      · -- the session refuses with another status
        exfalso
        obtain ⟨ost, session, hopen⟩ : ∃ ost session, p.session.open tcp
          (p.deadline - (os.timed start e lapse).millis 2) ((os.timed start e lapse).millis 3) = (ost, session) :=
          ⟨_, _, rfl⟩
        rw [hopen] at hp
        dsimp only at hp
        have hne : ost ≠ .timeout := by
          unfold Session.open at hopen
          split at hopen
          · rw [← (Prod.mk.inj hopen).1]
            decide
          · split at hopen
            · rw [← (Prod.mk.inj hopen).1]
              decide
            · rw [← (Prod.mk.inj hopen).1]
              exact nofun
        split at hp
        · exact hne (Prod.mk.inj hp).1
        · exact absurd (Prod.mk.inj hp).1 (by decide)
      · split at hp
        · have htst : tst = .timeout := (Prod.mk.inj hp).1
          rcases hcases with ⟨hst, -⟩ | hst | hst | ⟨-, hlate⟩
          · exact absurd (hst.symm.trans htst) (by decide)
          · exact absurd (hst.symm.trans htst) (by decide)
          · exact absurd (hst.symm.trans htst) (by decide)
          · rw [htcp] at hlate
            exact ⟨d, hd, hlate⟩
        · exact absurd (Prod.mk.inj hp).1 (by decide)
  · -- behind the deadline of the client there is the one of the session
    obtain ⟨d, hd, hdl⟩ := h.registering hs
    rw [hs, Option.some.injEq] at hp
    unfold PlcClient.pollRegistering at hp
    split at hp
    · rename_i hlate
      rw [h.deadline (Or.inr hs)] at hlate
      exact Or.inl hlate
    · right
      have htimeout := p.session.poll_timeout p.tcp ((os.timed start e lapse).millis 1) (os.timed start e lapse)
      dsimp only at hp
      split at hp
      · exact absurd (Prod.mk.inj hp).1 (by decide)
      · split at hp
        · have hlate := (htimeout.1 (Prod.mk.inj hp).1).2
          rw [hdl] at hlate
          exact ⟨d, hd, hlate⟩
        · exact absurd (Prod.mk.inj hp).1 (by decide)
  · rw [hs] at hp
    cases hp
  · rw [hs, Option.some.injEq] at hp
    exact absurd (Prod.mk.inj hp).1 (by decide)
  · rw [hs, Option.some.injEq] at hp
    exact absurd (Prod.mk.inj hp).1 (by decide)

/-- The deadline of the client is looked at first. -/
private theorem timeout_of_expired {os : Platform} (hs : p.state = .connecting ∨ p.state = .registering)
    (hlate : expired (os.millis 0) p.deadline = true) (hp : p.pollState os = some (st, p', called)) :
    st = .timeout := by
  unfold PlcClient.pollState at hp
  rcases hs with hs | hs
  · rw [hs, Option.some.injEq, PlcClient.pollConnecting, if_pos hlate] at hp
    exact (Prod.mk.inj hp).1.symm
  · rw [hs, Option.some.injEq, PlcClient.pollRegistering, if_pos hlate] at hp
    exact (Prod.mk.inj hp).1.symm

/-- A timeout that is too long fires in a `poll()` right after the call, of the client or of its TCP connection. -/
private theorem fires_early (h : Ticking start timeoutMs e p) (hs : p.state = .connecting)
    (htcp : p.tcp.deadline = start + UInt32.ofNat (timeoutMs.toNat + e)) (hlong : 2 ^ 31 < timeoutMs.toNat)
    (he : e < timeoutMs.toNat) :
    ∃ p' called, p.pollState ({ poll := { select := 0 } : Platform }.timed start e fun _ => 0) =
      some (.timeout, p', called) := by
  have hlt := timeoutMs.toNat_lt
  obtain ⟨hfd, hpending, -⟩ := h.connecting hs
  have hdeadline : p.deadline = start + UInt32.ofNat timeoutMs.toNat := by
    rw [h.deadline (Or.inl hs), UInt32.ofNat_toNat]
  rw [PlcClient.pollState, hs]
  dsimp only
  unfold PlcClient.pollConnecting
  split
  · exact ⟨_, _, rfl⟩
  · have hlate : expired (start + UInt32.ofNat e) p.tcp.deadline = true := by
      rw [htcp, expired_early start (by omega) (by omega)]
      omega
    have hpoll : (p.tcp.poll { select := 0 } (start + UInt32.ofNat e)).1 = .timeout := by
      unfold TcpConnection.poll
      rw [if_neg (by omega), if_neg (by simp [hpending])]
      dsimp only
      rw [if_neg (by decide), if_pos rfl, if_pos hlate]
    obtain ⟨tst, tcp, htst⟩ : ∃ tst tcp, p.tcp.poll { select := 0 } (start + UInt32.ofNat e) = (tst, tcp) :=
      ⟨_, _, rfl⟩
    have hread : p.tcp.poll ({ poll := { select := 0 } : Platform }.timed start e fun _ => 0).poll
        (({ poll := { select := 0 } : Platform }.timed start e fun _ => 0).millis 1) = (tst, tcp) := htst
    rw [htst] at hpoll
    obtain rfl : tst = .timeout := hpoll
    rw [hread]
    exact ⟨_, _, rfl⟩

end Connect

namespace World

/-- A client that starts to connect honours the timeout if and only if that is at most `2 ^ 31`, or has passed before
the call that starts has returned. -/
theorem connect_honoured {w w' : World n} {start timeoutMs : UInt32} {e : Nat} (h : Reachable w)
    (hd : w.Dials start timeoutMs e w') :
    w'.ConnectHonoured start timeoutMs e ↔ timeoutMs.toNat ≤ 2 ^ 31 ∨ timeoutMs.toNat ≤ e := by
  have hlt := timeoutMs.toNat_lt
  obtain ⟨htick, htcp⟩ := ticking_dials hd
  have hcoupled : Coupled w'.plc := by
    cases hd with
    | connect taken => exact coupled_step h.coupled taken
    | queued taken => exact coupled_step h.coupled taken
  constructor
  · -- right after the call a deadline that is too far ahead looks passed
    intro hall
    by_contra hlong
    obtain ⟨hlong, hslow⟩ := not_or.1 hlong
    have hs : w'.plc.state = .connecting := by
      cases hd with
      | connect taken state => exact state
      | queued taken before timeout state => exact state
    obtain ⟨p', called, hp⟩ := fires_early htick hs htcp (by omega) (by omega)
    exact ((hall [] ⟨w', e⟩ (.nil _)).1 _ _ _ _ _ hp).1 (by simp only [reading]; omega) rfl
  · intro hshort as d hrun
    obtain ⟨-, hnow, hle⟩ := hrun.invariant
      (I := fun d => Coupled d.world.plc ∧ Ticking start timeoutMs d.elapsed d.world.plc ∧ e ≤ d.elapsed)
      (by
        intro d a d' ⟨hc, ht, hle⟩ hok hs
        obtain ⟨hc', ht'⟩ := ticking_step hc ht hok hs
        exact ⟨hc', ht', Nat.le_trans hle (timed_le hs)⟩)
      ⟨hcoupled, htick, Nat.le_refl e⟩
    have hself : UInt32.ofNat timeoutMs.toNat = timeoutMs := UInt32.ofNat_toNat
    refine ⟨fun os lapse st p called hp => ⟨?_, ?_⟩, ?_⟩
    · rintro hearly rfl
      have h0 := le_reading d.elapsed lapse 0
      have h1 : reading d.elapsed lapse 1 = reading d.elapsed lapse 0 + lapse 1 := rfl
      rcases timeout_cases hnow hp with hlate | ⟨k, hk, hlate⟩
      · rw [← hself, expired_early start (by omega) (by omega)] at hlate
        omega
      · rw [expired_early start (by omega) (by omega)] at hlate
        omega
    · intro hs hge hlt'
      refine timeout_of_expired hs ?_ hp
      rw [hnow.deadline hs, ← hself]
      exact expired_late start hge hlt'
    · intro hs x hx hxt
      obtain ⟨k, hk, hdl⟩ := hnow.registering hs
      rw [← Bool.not_eq_true, hdl, expired_early start (by omega) (by omega)]
      omega

end World

/-! ### The four calls -/

section Calls

variable {start timeoutMs : UInt32} {conn : TcpConnection}

theorem Session.open_honoured {s s' : Session} (h : s.open conn timeoutMs start = (.pending, s')) :
    Honoured Session.pollOnce Session.Exchanging start timeoutMs s' ↔ timeoutMs.toNat ≤ 2 ^ 31 := by
  rcases Session.open_cases h with ⟨-, -, rfl⟩ | ⟨hne, -⟩
  · refine honoured_iff (fun s => s.deadline = start + timeoutMs) ?_ ?_ rfl (Or.inl rfl)
    · intro s conn os hs
      exact (s.poll_deadline conn (os.millis 0) os).trans hs
    · intro s conn os hs
      rw [← hs]
      exact s.poll_timeout conn (os.millis 0) os
  · exact absurd rfl hne

theorem ExplicitMessage.send_honoured {m m' : ExplicitMessage} {sessionHandle : UInt32} {service : UInt8}
    {path data : Option (List UInt8)} {pathLen dataLen : Nat}
    (h : m.send conn sessionHandle service path pathLen data dataLen timeoutMs start = (.pending, m')) :
    Honoured ExplicitMessage.poll ExplicitMessage.InFlight start timeoutMs m' ↔ timeoutMs.toNat ≤ 2 ^ 31 := by
  have hsent := ExplicitMessage.send_accepted h
  refine honoured_iff (fun m => m.deadline = start + timeoutMs) ?_ ?_ hsent.deadline (Or.inl hsent.state)
  · intro m conn os hm
    exact (m.poll_deadline conn os).trans hm
  · intro m conn os hm
    rw [← hm]
    exact m.poll_timeout conn os

theorem Connection.send_honoured {c c' : Connection} {sessionHandle : UInt32} {service : UInt8}
    {path data : Option (List UInt8)} {pathLen dataLen : Nat}
    (h : c.send sessionHandle service path pathLen data dataLen timeoutMs start = (.pending, c')) :
    Honoured Connection.poll (fun c => c.state = .sending) start timeoutMs c' ↔ timeoutMs.toNat ≤ 2 ^ 31 := by
  rcases Connection.send_cases h with ⟨-, hsent⟩ | ⟨⟨-, e⟩ | e, -⟩
  · have hmade := hsent.made
    refine honoured_iff (fun c => c.Sends ∧ c.deadline = start + timeoutMs) ?_ ?_ ?_ ?_
    · intro c conn os ⟨hs, hd⟩
      obtain ⟨hs', hd'⟩ := Connection.poll_sends hs conn os
      exact ⟨hs', hd'.trans hd⟩
    · intro c conn os ⟨hs, hd⟩
      rw [← hd]
      exact Connection.poll_timeout hs conn os
    · rw [hmade]
      exact ⟨Or.inl rfl, rfl⟩
    · rw [hmade]
  · cases e
  · cases e

/-- Each of the four calls honours its timeout if and only if that is at most `2 ^ 31` milliseconds; for `connect()`
it may also have passed before the call has returned. -/
theorem deadlines_honoured (start timeoutMs : UInt32) :
    (∀ s conn s', Session.open s conn timeoutMs start = (.pending, s') →
      (Honoured Session.pollOnce Session.Exchanging start timeoutMs s' ↔ timeoutMs.toNat ≤ 2 ^ 31)) ∧
    (∀ m conn sessionHandle service path pathLen data dataLen m',
      ExplicitMessage.send m conn sessionHandle service path pathLen data dataLen timeoutMs start = (.pending, m') →
      (Honoured ExplicitMessage.poll ExplicitMessage.InFlight start timeoutMs m' ↔ timeoutMs.toNat ≤ 2 ^ 31)) ∧
    (∀ c sessionHandle service path pathLen data dataLen c',
      Connection.send c sessionHandle service path pathLen data dataLen timeoutMs start = (.pending, c') →
      (Honoured Connection.poll (fun c => c.state = .sending) start timeoutMs c' ↔ timeoutMs.toNat ≤ 2 ^ 31)) ∧
    ∀ (n : Nat) (w w' : World n) (e : Nat), World.Reachable w → w.Dials start timeoutMs e w' →
      (w'.ConnectHonoured start timeoutMs e ↔ timeoutMs.toNat ≤ 2 ^ 31 ∨ timeoutMs.toNat ≤ e) := by
  refine ⟨?_, ?_, ?_, ?_⟩
  · intro s conn s' h
    exact Session.open_honoured h
  · intro m conn sessionHandle service path pathLen data dataLen m' h
    exact ExplicitMessage.send_honoured h
  · intro c sessionHandle service path pathLen data dataLen c' h
    exact Connection.send_honoured h
  · intro n w w' e h hd
    exact World.connect_honoured h hd

end Calls

/-- A client whose `connect()` waits for Ethernet, before the `poll()` that starts it. -/
def waiting : World 1 := World.reached 1 [.call (.begin true true), .call (.connect 1 44818 5000 {})]

/-- A socket that is up. -/
def upSocket : TcpConnection := { fd := 3, state := .ok }

theorem deadlines_honoured_short :
    Honoured Session.pollOnce Session.Exchanging 0 5000 (Session.open {} upSocket 5000 0).2 ∧
    Honoured ExplicitMessage.poll ExplicitMessage.InFlight 0 5000
      (ExplicitMessage.send {} upSocket 7 1 none 0 none 0 5000 0).2 ∧
    Honoured Connection.poll (fun c => c.state = .sending) 0 5000
      (Connection.send { state := .open } 7 1 none 0 none 0 5000 0).2 ∧
    (waiting.poll {}).ConnectHonoured 0 5000 0 := by
  have hstep : World.step waiting (.poll {}) = some (waiting.poll {}) := by
    rw [World.step]
    exact if_pos (by decide +kernel)
  have hdials : waiting.Dials 0 5000 0 (waiting.poll {}) :=
    .queued hstep (by decide +kernel) (by decide +kernel) (by decide +kernel) rfl (by decide)
  obtain ⟨hopen, hsend, hconnected, hconnect⟩ := deadlines_honoured 0 5000
  refine ⟨?_, ?_, ?_, ?_⟩
  · exact (hopen {} upSocket _ (by decide +kernel)).2 (by decide)
  · exact (hsend {} upSocket 7 1 none 0 none 0 _ (by decide +kernel)).2 (by decide)
  · exact (hconnected { state := .open } 7 1 none 0 none 0 _ (by decide +kernel)).2 (by decide)
  · exact (hconnect 1 waiting _ 0 (World.reachable_reached (by decide +kernel)) hdials).2 (Or.inl (by decide))

/-- With the largest timeout the first `poll()`, made in the same millisecond, returns `Timeout`. -/
theorem fires_at_once : ¬ ∀ (s s' : Session) (conn : TcpConnection) (start timeoutMs : UInt32),
    s.open conn timeoutMs start = (.pending, s') →
      Honoured Session.pollOnce Session.Exchanging start timeoutMs s' := by
  intro hall
  have hhonoured := hall {} (Session.open {} upSocket 0xFFFFFFFF 0).2 upSocket 0 0xFFFFFFFF (by decide +kernel)
  have hlate : ((Session.open {} upSocket 0xFFFFFFFF 0).2.pollOnce upSocket {}).1 = .timeout := by decide +kernel
  exact (hhonoured [] upSocket {} 0 (by decide)).1 (by decide) hlate

end ControlLogix
