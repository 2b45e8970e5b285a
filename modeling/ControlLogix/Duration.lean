import ControlLogix.Probing

/-!
# How long an inventory takes

Every wait of the sketch ends with a deadline, so an address takes a bounded time and a network takes a bounded time
for each of its addresses.  The bound is kept as a budget: the latest end of the wait going on (`Clocked`), the waits
that can follow it on the same device (`remaining`), and a full `span` for every address that is still ahead.

* `LanInventory.scan_ends`: the sketch is done when that time has gone.
-/

namespace ControlLogix

open Transition

namespace LanInventory

/-! ### The sketch on a clock -/

/-- A sketch, and the milliseconds that have gone since the start. -/
structure Timed where
  sketch : LanInventory
  elapsed : Nat

/-- A call of `loop()` reads the clock at most twice. -/
def Timed.step (lan : Lan) (start : UInt32) (d : Timed) : Act × (Nat → Nat) → Option Timed
  | (.deliver bs, _) => some ⟨LanInventory.step lan d.sketch (.deliver bs), d.elapsed⟩
  | (.loop os, lapse) =>
    some ⟨LanInventory.step lan d.sketch (.loop (os.timed start d.elapsed lapse)), reading d.elapsed lapse 1⟩

/-- A call of `loop()` ends at most `gap` milliseconds after the last one, and from `up` on the link is up. -/
def Paced (gap up : Nat) : Timed → Act × (Nat → Nat) → Prop
  | _, (.deliver _, _) => True
  | d, (.loop os, lapse) => reading d.elapsed lapse 1 ≤ d.elapsed + gap ∧ (up ≤ d.elapsed → os.link = true)

/-- What an address takes at most: the connection, the session and nine queries, and the end of the session. -/
def span (gap : Nat) : Nat := 11100 + 34 * gap

/-- What can follow the wait that is going on, on the same device. -/
def remaining (gap : Nat) (s : LanInventory) : Nat :=
  match s.phase with
  | .waitEthernet => gap
  | .scan | .done => 0
  | .connect => 11000 + 32 * gap
  | .register => 10000 + 30 * gap
  | .query => (9 - s.queryIndex) * (1000 + 3 * gap) + (if s.stepStarted then 0 else 1000 + 2 * gap)
  | .close => gap

/-- The addresses that are still ahead. -/
def ahead (lan : Lan) (s : LanInventory) : Nat :=
  match s.phase with
  | .waitEthernet => lan.limit - lan.first
  | .done => 0
  | _ => lan.limit - s.currentIp.host

variable {lan : Lan} {start : UInt32} {gap up t t' last : Nat} {s s' : LanInventory} {os : Platform}

/-- At the time `t` the wait that is going on is over by `last`: a call at `last - gap` or later ends it. -/
inductive Clocked (start : UInt32) (gap up : Nat) (s : LanInventory) (t : Nat) : Nat → Prop where
  | waiting (phase : s.phase = .waitEthernet) : Clocked start gap up s t (max t (up + gap))
  | scanning (phase : s.phase = .scan) : Clocked start gap up s t t
  | connecting (phase : s.phase = .connect) (due : Nat)
    (deadline : 0 ≤ s.tcp.fd → s.tcp.deadline = start + UInt32.ofNat due) (now : t ≤ due + gap) :
    Clocked start gap up s t (due + gap)
  | registering (phase : s.phase = .register) (due : Nat) (deadline : s.session.deadline = start + UInt32.ofNat due)
    (now : t ≤ due + gap) (soon : due ≤ t + 1000) : Clocked start gap up s t (due + gap)
  | idle (phase : s.phase = .query) (idle : s.stepStarted = false) (due : Nat)
    (deadline : s.session.deadline = start + UInt32.ofNat due) (soon : due ≤ t + 1000)
    (room : t + remaining gap s ≤ due + span gap) : Clocked start gap up s t t
  | asking (phase : s.phase = .query) (started : s.stepStarted = true) (due : Nat)
    (deadline : s.session.deadline = start + UInt32.ofNat due) (soon : due ≤ t + 1000) (answer : Nat)
    (pending : s.msg.deadline = start + UInt32.ofNat answer) (now : t ≤ answer + gap)
    (room : answer + gap + remaining gap s ≤ due + span gap) : Clocked start gap up s t (answer + gap)
  | closing (phase : s.phase = .close) (due : Nat) (deadline : s.session.deadline = start + UInt32.ofNat due)
    (room : max t (due + gap) + gap ≤ due + span gap) : Clocked start gap up s t (max t (due + gap))

theorem Clocked.le (h : Clocked start gap up s t last) : t ≤ last := by
  cases h with
  | waiting => exact Nat.le_max_left _ _
  | scanning => exact Nat.le_refl _
  | connecting _ _ _ now => exact now
  | registering _ _ _ now => exact now
  | idle => exact Nat.le_refl _
  | asking _ _ _ _ _ _ _ now => exact now
  | closing => exact Nat.le_max_left _ _

namespace Clocked

theorem waiting_last (h : Clocked start gap up s t last) (hp : s.phase = .waitEthernet) :
    last = max t (up + gap) := by
  cases h with
  | waiting => rfl
  | _ => simp_all

theorem scanning_last (h : Clocked start gap up s t last) (hp : s.phase = .scan) : last = t := by
  cases h with
  | scanning => rfl
  | _ => simp_all

theorem connecting_due (h : Clocked start gap up s t last) (hp : s.phase = .connect) : ∃ due, last = due + gap ∧
    (0 ≤ s.tcp.fd → s.tcp.deadline = start + UInt32.ofNat due) ∧ t ≤ due + gap := by
  cases h with
  | connecting _ due deadline now => exact ⟨due, rfl, deadline, now⟩
  | _ => simp_all

theorem registering_due (h : Clocked start gap up s t last) (hp : s.phase = .register) : ∃ due, last = due + gap ∧
    s.session.deadline = start + UInt32.ofNat due ∧ t ≤ due + gap ∧ due ≤ t + 1000 := by
  cases h with
  | registering _ due deadline now soon => exact ⟨due, rfl, deadline, now, soon⟩
  | _ => simp_all

theorem querying_due (h : Clocked start gap up s t last) (hp : s.phase = .query) : ∃ due,
    s.session.deadline = start + UInt32.ofNat due ∧ due ≤ t + 1000 ∧ last + remaining gap s ≤ due + span gap := by
  cases h with
  | idle _ _ due deadline soon room => exact ⟨due, deadline, soon, room⟩
  | asking _ _ due deadline soon _ _ _ room => exact ⟨due, deadline, soon, room⟩
  | _ => simp_all

theorem asking_due (h : Clocked start gap up s t last) (hp : s.phase = .query) (hs : s.stepStarted = true) : ∃ answer,
    last = answer + gap ∧ s.msg.deadline = start + UInt32.ofNat answer ∧ t ≤ answer + gap := by
  cases h with
  | asking _ _ _ _ _ answer pending now => exact ⟨answer, rfl, pending, now⟩
  | _ => simp_all

theorem idle_last (h : Clocked start gap up s t last) (hp : s.phase = .query) (hs : s.stepStarted = false) :
    last = t := by
  cases h with
  | idle => rfl
  | _ => simp_all

theorem closing_due (h : Clocked start gap up s t last) (hp : s.phase = .close) : ∃ due, last = max t (due + gap) ∧
    s.session.deadline = start + UInt32.ofNat due ∧ last + gap ≤ due + span gap := by
  cases h with
  | closing _ due deadline room => exact ⟨due, rfl, deadline, room⟩
  | _ => simp_all

end Clocked

/-! ### Deadlines -/

private theorem deadline_add (x k : Nat) :
    start + UInt32.ofNat x + UInt32.ofNat k = start + UInt32.ofNat (x + k) := by
  rw [UInt32.ofNat_add]
  grind

private theorem connect_pending {c c' : TcpConnection} {ip : IPAddress} {port : UInt16} {timeoutMs now : UInt32}
    {a : ConnectAnswers} {st : Status} (h : c.connect ip port timeoutMs a now = (st, c')) (hfd : 0 ≤ c'.fd) :
    c'.deadline = now + timeoutMs := by
  rcases TcpConnection.connect_cases h with ⟨rfl, -⟩ | ⟨-, hdropped⟩
  · exact TcpConnection.connect_deadline h
  · have hdown := hdropped.fd
    omega

/-- A connection that is still being made is in time. -/
private theorem poll_pending {c c' : TcpConnection} {a : PollAnswers} {now : UInt32} {st : Status}
    (h : c.poll a now = (st, c')) (hst : st ≠ .ok ∧ ¬ Fails st) :
    0 ≤ c.fd ∧ expired now c.deadline ≠ true ∧ c'.fd = c.fd ∧ c'.deadline = c.deadline := by
  unfold TcpConnection.poll at h
  split at h
  · rw [← (Prod.mk.inj h).1] at hst
    exact absurd hst (by decide)
  · rename_i hfd
    split at h
    · rw [← (Prod.mk.inj h).1] at hst
      exact absurd hst (by decide)
    · dsimp only at h
      split at h
      · rw [← (Prod.mk.inj h).1] at hst
        exact absurd hst (by decide)
      · split at h
        · split at h
          · rw [← (Prod.mk.inj h).1] at hst
            exact absurd hst (by decide)
          · rename_i hearly
            rw [← (Prod.mk.inj h).2]
            exact ⟨by omega, hearly, rfl, rfl⟩
        · split at h
          · rw [← (Prod.mk.inj h).1] at hst
            exact absurd hst (by decide)
          · split at h
            · rw [← (Prod.mk.inj h).1] at hst
              exact absurd hst (by decide)
            · rw [← (Prod.mk.inj h).1] at hst
              exact absurd hst (by decide)

/-- A session that a call of `poll()` leaves in an exchange is in time. -/
private theorem session_pending {x x' : Session} {conn conn' : TcpConnection} {now : UInt32} {st : Status}
    (hx : x.Exchanging ∨ x.state = .failed) (h : x.poll conn now os = (st, x', conn'))
    (hst : st ≠ .timeout ∧ st ≠ .error) :
    expired now x.deadline ≠ true := by
  intro hlate
  rcases hx with hx | hx
  · have htimeout := (x.poll_timeout conn now os).2 ⟨hx, hlate⟩
    rw [h] at htimeout
    exact hst.1 htimeout
  · rw [poll_failed hx] at h
    exact hst.2 (Prod.mk.inj h).1.symm

private theorem pollQuery_deadline (s : LanInventory) (os : Platform) :
    (s.pollQuery os).2.msg.deadline = s.msg.deadline := by
  unfold pollQuery
  split
  · obtain ⟨st, tag, msg, tcp, hp⟩ : ∃ st tag msg tcp, s.tag.poll s.msg s.tcp os = (st, tag, msg, tcp) :=
      ⟨_, _, _, _, rfl⟩
    rw [hp]
    show msg.deadline = s.msg.deadline
    by_cases hin : s.tag.InFlight
    · obtain ⟨mst, hm, -⟩ := Tag.poll_inFlight hin hp
      have hkept := s.msg.poll_deadline s.tcp os
      rw [hm] at hkept
      exact hkept
    · rw [Tag.poll_rest hin] at hp
      simp only [Prod.mk.injEq] at hp
      rw [← hp.2.2.1]
  · exact s.msg.poll_deadline s.tcp os

/-! ### A call of `loop()` keeps to the budget -/

/-- A call of `loop()` in the milliseconds from `t` to `t'`. -/
structure Call (start : UInt32) (gap up t t' : Nat) (os : Platform) : Prop where
  readings : ∃ x, t ≤ x ∧ x ≤ t' ∧ os.millis 0 = start + UInt32.ofNat x ∧ os.millis 1 = start + UInt32.ofNat t'
  within : t' ≤ t + gap
  link : up ≤ t → os.link = true

/-- A deadline that is not long past and has not expired is ahead. -/
private theorem Call.early (h : Call start gap up t t' os) {due : Nat}
    (hearly : expired (os.millis 0) (start + UInt32.ofNat due) ≠ true) (hnear : t + gap < due + 2 ^ 31) :
    t < due := by
  obtain ⟨x, hx, hx', hread, -⟩ := h.readings
  have hwithin := h.within
  by_contra hlate
  apply hearly
  rw [hread]
  exact expired_late start (by omega) (by omega)

/-- What the phases after `WaitEthernet` have ahead. -/
private theorem ahead_of (lan : Lan) {p : Phase} (hp : s.phase = p) (h₁ : p ≠ .waitEthernet) (h₂ : p ≠ .done) :
    ahead lan s = lan.limit - s.currentIp.host := by
  rw [ahead, hp]
  cases p with
  | waitEthernet => exact absurd rfl h₁
  | done => exact absurd rfl h₂
  | _ => rfl

/-- At the time `t` the scan is over by `bound`. -/
def Budgeted (lan : Lan) (start : UInt32) (gap up : Nat) (s : LanInventory) (t bound : Nat) : Prop :=
  ∃ last, Clocked start gap up s t last ∧ last + remaining gap s + ahead lan s * span gap ≤ bound

/-- The device is left. -/
private theorem budgeted_scan {bound : Nat} (hc : Clocked start gap up s t last) (h : Call start gap up t t' os)
    (hp : s'.phase = .scan) (hahead : ahead lan s' = ahead lan s) (hrem : gap ≤ remaining gap s)
    (hbound : last + remaining gap s + ahead lan s * span gap ≤ bound) : Budgeted lan start gap up s' t' bound := by
  have hle := hc.le
  have hwithin := h.within
  have hrem' : remaining gap s' = 0 := by rw [remaining, hp]
  refine ⟨t', .scanning hp, ?_⟩
  rw [hrem', hahead]
  omega

/-- The next address. -/
private theorem ahead_next (hscanned : Scanned lan s) (hp : s.phase = .scan) {ip : IPAddress}
    (hnext : nextHost s.currentIp = (true, ip)) : lan.limit - s.currentIp.host = lan.limit - ip.host + 1 := by
  have hinside := (hscanned.scanning (by rw [hp]; trivial)).2.2.2.1
  have hhost : ip.host = s.currentIp.host + 1 := by
    rcases nextHost_host s.currentIp with ⟨-, hsucc⟩ | ⟨hfalse, -⟩
    · rw [hnext] at hsucc
      exact hsucc
    · rw [hnext] at hfalse
      cases hfalse
  omega

private theorem remaining_query (gap : Nat) {i : Nat} (hp : s.phase = .query) (hi : s.queryIndex = i) :
    remaining gap s = (9 - i) * (1000 + 3 * gap) + (if s.stepStarted then 0 else 1000 + 2 * gap) := by
  rw [remaining, hp, hi]

private theorem budgeted_answered {bound : Nat} {s₁ : LanInventory} (hs : Sound s) (hp : s.phase = .query)
    (hstarted : s.stepStarted = true) (hc : Clocked start gap up s t last) (h : Call start gap up t t' os)
    (hq : Queried s s₁) (hbound : last + remaining gap s + ahead lan s * span gap ≤ bound) :
    Budgeted lan start gap up s₁.finishQuery t' bound := by
  have hle := hc.le
  have hwithin := h.within
  obtain ⟨hsession, hindex, -⟩ := hs.querying hp
  have hcount : kIdentityAttrCount = 8 := rfl
  have hahead := ahead_of lan hp nofun nofun
  have hrem := remaining_query gap hp rfl
  rw [hstarted, if_pos rfl] at hrem
  obtain ⟨due, hdeadline, hsoon, hroom⟩ := hc.querying_due hp
  have htime : t ≤ t' := by
    obtain ⟨x, hx, hx', -⟩ := h.readings
    omega
  have hip : s₁.finishQuery.currentIp = s.currentIp := by
    rcases s₁.finishQuery_cases with ⟨-, heq⟩ | ⟨-, heq⟩
    · rw [heq]
      exact hq.currentIp
    · rw [heq]
      exact hq.currentIp
  rcases s₁.finishQuery_cases with ⟨hlt, heq⟩ | ⟨hlast, heq⟩
  · rw [hq.queryIndex] at hlt
    have hp' : s₁.finishQuery.phase = .query := by
      rw [heq]
      exact hq.phase.trans hp
    have hidle : s₁.finishQuery.stepStarted = false := by rw [heq]
    have hnext : s₁.finishQuery.queryIndex = s.queryIndex + 1 := by
      rw [heq]
      exact congrArg (· + 1) hq.queryIndex
    have hkept : s₁.finishQuery.session = s.session := by
      rw [heq]
      exact hq.session
    have hrem' := remaining_query gap hp' hnext
    have hsplit : 9 - s.queryIndex = 9 - (s.queryIndex + 1) + 1 := by omega
    rw [hidle, if_neg (by decide)] at hrem'
    rw [hsplit, Nat.succ_mul] at hrem
    refine ⟨t', .idle hp' hidle due ?_ (by omega) (by omega), ?_⟩
    · rw [hkept, hdeadline]
    · rw [hahead] at hbound
      rw [ahead_of lan hp' nofun nofun, hip]
      omega
  · rw [hq.queryIndex] at hlast
    have hmode : s.queryIndex = 8 := by omega
    have hp' : s₁.finishQuery.phase = .close := by rw [heq]
    have hkept : s₁.finishQuery.session.deadline = s.session.deadline := by
      rw [heq]
      show s₁.session.close.2.deadline = s.session.deadline
      rw [hq.session, Session.close_registered hsession]
      rfl
    have hrem' : remaining gap s₁.finishQuery = gap := by rw [remaining, hp']
    rw [hmode] at hrem
    refine ⟨max t' (due + gap), .closing hp' due ?_ (by omega), ?_⟩
    · rw [hkept, hdeadline]
    · rw [hahead] at hbound
      rw [ahead_of lan hp' nofun nofun, hip]
      omega

private theorem Clocked.deliver (lan : Lan) (h : Clocked start gap up s t last) (bs : List UInt8) :
    Clocked start gap up (step lan s (.deliver bs)) t last := by
  have hsame (s' : LanInventory) (hs' : s' = step lan s (.deliver bs)) : s'.phase = s.phase ∧ s'.session = s.session ∧
      s'.stepStarted = s.stepStarted ∧ s'.msg = s.msg ∧ s'.tcp.fd = s.tcp.fd ∧ s'.tcp.deadline = s.tcp.deadline ∧
      remaining gap s' = remaining gap s := by
    rw [hs']
    exact ⟨rfl, rfl, rfl, rfl, rfl, rfl, rfl⟩
  generalize step lan s (.deliver bs) = s' at hsame ⊢
  obtain ⟨hphase, hsession, hstarted, hmsg, hfd, hdeadline, hrem⟩ := hsame s' rfl
  cases h with
  | waiting phase => exact .waiting (hphase.trans phase)
  | scanning phase => exact .scanning (hphase.trans phase)
  | connecting phase due deadline now =>
    exact .connecting (hphase.trans phase) due (by rw [hfd, hdeadline]; exact deadline) now
  | registering phase due deadline now soon =>
    exact .registering (hphase.trans phase) due (by rw [hsession, deadline]) now soon
  | idle phase idle due deadline soon room =>
    exact .idle (hphase.trans phase) (hstarted.trans idle) due (by rw [hsession, deadline]) soon
      (by rw [hrem]; exact room)
  | asking phase started due deadline soon answer pending now room =>
    exact .asking (hphase.trans phase) (hstarted.trans started) due (by rw [hsession, deadline]) soon answer
      (by rw [hmsg, pending]) now (by rw [hrem]; exact room)
  | closing phase due deadline room => exact .closing (hphase.trans phase) due (by rw [hsession, deadline]) room

/-- In every call of `loop()` the scan is over or within the budget. -/
theorem budgeted_loop {bound : Nat} (hspan : span gap < 2 ^ 31) (hs : Sound s) (hscanned : Scanned lan s)
    (hb : Budgeted lan start gap up s t bound) (h : Call start gap up t t' os) (hl : Looped lan os s s') :
    s'.phase = .done ∨ Budgeted lan start gap up s' t' bound := by
  obtain ⟨last, hc, hbound⟩ := hb
  have hle := hc.le
  have hwithin := h.within
  have hspan' : span gap = 11100 + 34 * gap := rfl
  obtain ⟨x, hx, hx', hread₀, hread₁⟩ := h.readings
  cases hl with
  | rests phase => exact Or.inl phase
  | waits phase failed down =>
    have hlast := hc.waiting_last phase
    have hearly : ¬ up ≤ t := fun hup => by
      have hlink := h.link hup
      rw [down (hs.started phase)] at hlink
      cases hlink
    exact Or.inr ⟨_, .waiting phase, by omega⟩
  | fails => exact Or.inl rfl
  | starts phase =>
    have hahead : ahead lan s = lan.limit - lan.first := by rw [ahead, phase]
    have hrem : remaining gap s = gap := by rw [remaining, phase]
    refine Or.inr ⟨t', .scanning rfl, ?_⟩
    show t' + 0 + (lan.limit - (networkOf lan.localIP lan.subnetMask).host) * span gap ≤ bound
    rw [host_networkOf, ← hahead]
    omega
  | ends => exact Or.inl rfl
  | skips phase ip next more =>
    have hlast := hc.scanning_last phase
    have hahead := ahead_of lan phase nofun nofun
    rw [ahead_next hscanned phase next] at hahead
    rw [hahead, Nat.succ_mul] at hbound
    refine Or.inr ⟨t', .scanning phase, ?_⟩
    rw [ahead_of lan (s := { s with currentIp := ip }) phase nofun nofun, remaining, phase]
    show t' + 0 + (lan.limit - ip.host) * span gap ≤ bound
    omega
  | dials phase ip next more =>
    have hlast := hc.scanning_last phase
    have hahead := ahead_of lan phase nofun nofun
    rw [ahead_next hscanned phase next] at hahead
    rw [hahead, Nat.succ_mul] at hbound
    refine Or.inr ⟨x + 100 + gap, .connecting rfl (x + 100) (fun hfd => ?_) (by omega), ?_⟩
    · rw [connect_pending (Prod.mk.eta).symm hfd, hread₀, ← deadline_add]
      rfl
    · show x + 100 + gap + (11000 + 32 * gap) + (lan.limit - ip.host) * span gap ≤ bound
      omega
  | connecting phase st tcp polled going =>
    obtain ⟨due, rfl, hdeadline, hnow⟩ := hc.connecting_due phase
    obtain ⟨hfd, hearly, hfd', hkept⟩ := poll_pending polled going
    rw [hdeadline hfd] at hearly hkept
    have hahead := h.early hearly (by omega)
    refine Or.inr ⟨due + gap, .connecting (s := { s with tcp := tcp }) phase due (fun _ => hkept) (by omega), hbound⟩
  | refused phase =>
    have hrem : remaining gap s = 11000 + 32 * gap := by rw [remaining, phase]
    have hahead := ahead_of lan phase nofun nofun
    exact Or.inr (budgeted_scan hc h rfl hahead.symm (by omega) hbound)
  | connected phase tcp polled =>
    have hrem : remaining gap s = 11000 + 32 * gap := by rw [remaining, phase]
    have hahead := ahead_of lan phase nofun nofun
    rw [open_registering (hs.connecting phase) (tcp_poll_ok polled)]
    refine Or.inr ⟨t' + 1000 + gap, .registering rfl (t' + 1000) ?_ (by omega) (by omega), ?_⟩
    · show os.millis 1 + SESSION_TIMEOUT_MS = start + UInt32.ofNat (t' + 1000)
      rw [hread₁, ← deadline_add]
      rfl
    · show t' + 1000 + gap + (10000 + 30 * gap) + (lan.limit - s.currentIp.host) * span gap ≤ bound
      rw [← hahead]
      omega
  | registering phase st session tcp polled going =>
    obtain ⟨due, rfl, hdeadline, hnow, hsoon⟩ := hc.registering_due phase
    have hearly :=
      session_pending ((hs.registering phase).imp_left fun hr => Or.inl hr.1) polled ⟨going.2.1, going.2.2⟩
    have hkept := s.session.poll_deadline s.tcp (os.millis 0) os
    rw [polled, hdeadline] at hkept
    rw [hdeadline] at hearly
    have hahead := h.early hearly (by omega)
    exact Or.inr ⟨due + gap, .registering (s := { s with session := session, tcp := tcp }) phase due hkept (by omega)
      (by omega), hbound⟩
  | rejected phase st session tcp polled =>
    have hrem : remaining gap s = 10000 + 30 * gap := by rw [remaining, phase]
    have hahead := ahead_of lan phase nofun nofun
    exact Or.inr (budgeted_scan hc h rfl hahead.symm (by omega) hbound)
  | registered phase session tcp polled =>
    obtain ⟨due, rfl, hdeadline, hnow, hsoon⟩ := hc.registering_due phase
    have hrem : remaining gap s = 10000 + 30 * gap := by rw [remaining, phase]
    have hahead := ahead_of lan phase nofun nofun
    have hkept := s.session.poll_deadline s.tcp (os.millis 0) os
    rw [polled, hdeadline] at hkept
    refine Or.inr ⟨t', .idle rfl rfl due hkept (by omega) ?_, ?_⟩
    · show t' + ((9 - 0) * (1000 + 3 * gap) + (1000 + 2 * gap)) ≤ due + span gap
      omega
    · show t' + ((9 - 0) * (1000 + 3 * gap) + (1000 + 2 * gap)) + (lan.limit - s.currentIp.host) * span gap ≤ bound
      rw [← hahead]
      omega
  | asks phase idle =>
    have hlast := hc.idle_last phase idle
    obtain ⟨due, hdeadline, hsoon, hroom⟩ := hc.querying_due phase
    obtain ⟨hsession, hindex, hu⟩ := hs.querying phase
    obtain ⟨-, hstarted, hanswer⟩ := startQuery_cases hs phase hsession idle hindex (hu idle) (os.millis 0)
    have hq := (s.startQuery_queried (os.millis 0)).1
    have hp' : (s.startQuery (os.millis 0)).phase = .query := hq.phase.trans phase
    have hrem := remaining_query gap phase rfl
    have hrem' := remaining_query gap hp' hq.queryIndex
    have hahead := ahead_of lan phase nofun nofun
    have hahead' := ahead_of lan hp' nofun nofun
    rw [idle, if_neg (by decide)] at hrem
    rw [hstarted, if_pos rfl] at hrem'
    rw [hq.currentIp, ← hahead] at hahead'
    rw [hread₀] at hanswer
    have hpending : (s.startQuery (os.millis 0)).msg.deadline = start + UInt32.ofNat (x + 1000) := by
      rw [← deadline_add, hread₀]
      exact hanswer
    refine Or.inr ⟨x + 1000 + gap, .asking hp' hstarted due ?_ (by omega) (x + 1000) hpending (by omega) (by omega),
      ?_⟩
    · rw [hq.session, hdeadline]
    · rw [hahead']
      omega
  | asking phase started st s₁ polled going =>
    obtain ⟨answer, rfl, hpending, hnow⟩ := hc.asking_due phase started
    obtain ⟨due, hdeadline, hsoon, hroom⟩ := hc.querying_due phase
    obtain ⟨hq, hstarted⟩ := pollQuery_queried polled
    have hkept := pollQuery_deadline s os
    rw [polled] at hkept
    have hearly : expired (os.millis 0) s.msg.deadline ≠ true := fun hlate =>
      going.2 ((asked_polled hs phase started polled).late hlate)
    rw [hpending] at hearly hkept
    have hahead := h.early hearly (by omega)
    have hp' : s'.phase = .query := hq.phase.trans phase
    have hrem := remaining_query gap phase rfl
    have hrem' := remaining_query gap hp' hq.queryIndex
    rw [hstarted, ← hrem] at hrem'
    refine Or.inr ⟨answer + gap, .asking hp' (hstarted.trans started) due ?_ (by omega) answer hkept (by omega)
      (by omega), ?_⟩
    · rw [show s'.session = s.session from hq.session, hdeadline]
    · rw [hrem', ahead_of lan hp' nofun nofun, show s'.currentIp = s.currentIp from hq.currentIp,
        ← ahead_of lan phase nofun nofun]
      exact hbound
  | drops phase started st s₁ polled failed identity =>
    have hq := (pollQuery_queried polled).1
    have hcount : kIdentityAttrCount = 8 := rfl
    have hrem := remaining_query gap phase rfl
    have hsplit : 9 - s.queryIndex = 9 - (s.queryIndex + 1) + 1 := by omega
    rw [started, if_pos rfl, hsplit, Nat.succ_mul] at hrem
    refine Or.inr (budgeted_scan hc h rfl ?_ (by omega) hbound)
    show lan.limit - s₁.currentIp.host = ahead lan s
    rw [hq.currentIp, ahead_of lan phase nofun nofun]
  | answered phase started st s₁ polled =>
    have hq := (pollQuery_queried polled).1
    exact Or.inr (budgeted_answered hs phase started hc h hq hbound)
  | closing phase st session tcp polled going =>
    obtain ⟨due, rfl, hdeadline, hroom⟩ := hc.closing_due phase
    have hearly := session_pending ((hs.closing phase).imp_left Or.inr) polled
      ⟨fun hst => going.2 (Or.inl hst), fun hst => going.2 (Or.inr (Or.inl hst))⟩
    have hkept := s.session.poll_deadline s.tcp (os.millis 0) os
    rw [polled, hdeadline] at hkept
    rw [hdeadline] at hearly
    have hahead := h.early hearly (by omega)
    have hsame : max t' (due + gap) = max t (due + gap) := by omega
    refine Or.inr ⟨max t' (due + gap), .closing (s := { s with session := session, tcp := tcp }) phase due hkept
      (by omega), ?_⟩
    rw [hsame]
    exact hbound
  | closed phase =>
    have hrem : remaining gap s = gap := by rw [remaining, phase]
    have hahead := ahead_of lan phase nofun nofun
    exact Or.inr (budgeted_scan hc h rfl hahead.symm (by omega) hbound)

/-! ### Runs -/

/-- What holds along every run that is paced. -/
private structure Held (lan : Lan) (start : UInt32) (gap up bound : Nat) (d : Timed) : Prop where
  sound : Sound d.sketch
  scanned : Scanned lan d.sketch
  budget : d.sketch.phase = .done ∨ Budgeted lan start gap up d.sketch d.elapsed bound

private theorem held_step {bound : Nat} {d d' : Timed} {a : Act × (Nat → Nat)} (hspan : span gap < 2 ^ 31)
    (h : Held lan start gap up bound d) (hok : Paced gap up d a) (hs : d.step lan start a = some d') :
    Held lan start gap up bound d' := by
  obtain ⟨act, lapse⟩ := a
  cases act with
  | deliver bs =>
    obtain rfl := Option.some.inj hs
    refine ⟨sound_step lan h.sound (.deliver bs), scanned_step h.scanned (.deliver bs), h.budget.imp_right ?_⟩
    rintro ⟨last, hc, hbound⟩
    exact ⟨last, hc.deliver lan bs, hbound⟩
  | loop os =>
    obtain rfl := Option.some.inj hs
    refine ⟨sound_step lan h.sound (.loop _), scanned_step h.scanned (.loop _), ?_⟩
    have hcall : Call start gap up d.elapsed (reading d.elapsed lapse 1) (os.timed start d.elapsed lapse) :=
      ⟨⟨reading d.elapsed lapse 0, le_reading _ _ 0, Nat.le_add_right _ _, rfl, rfl⟩, hok.1, hok.2⟩
    have hl := loop_cases lan (os.timed start d.elapsed lapse) d.sketch
    rcases h.budget with hdone | hb
    · left
      show (d.sketch.loop lan (os.timed start d.elapsed lapse)).phase = .done
      rw [loop, hdone]
      exact hdone
    · exact budgeted_loop hspan h.sound h.scanned hb hcall hl

private theorem held_setup (began configured : Bool) :
    Held lan start gap up (up + 2 * gap + (lan.limit - lan.first) * span gap) ⟨setup {} began configured, 0⟩ := by
  refine ⟨sound_setup began configured, scanned_setup lan began configured, ?_⟩
  have hphase : (setup {} began configured).phase = .waitEthernet ∨ (setup {} began configured).phase = .done := by
    revert began configured
    decide
  rcases hphase with hp | hp
  · refine Or.inr ⟨max 0 (up + gap), .waiting hp, ?_⟩
    rw [remaining, ahead, hp]
    dsimp only
    omega
  · exact Or.inl hp

/-- The sketch with nothing answering, after `k` calls a second apart. -/
private theorem silent_run (lan : Lan) (s : LanInventory) (start : UInt32) (e k : Nat) : ∃ as d,
    Run (Timed.step lan start) (Paced 1000 0) ⟨s, e⟩ as d ∧ d.elapsed = e + k * 1000 := by
  induction k generalizing s e with
  | zero => exact ⟨[], ⟨s, e⟩, .nil _, by simp⟩
  | succ k ih =>
    let lapse : Nat → Nat := fun i => if i = 0 then 1000 else 0
    have hread : reading e lapse 1 = e + 1000 := rfl
    obtain ⟨as, d, hrun, hd⟩ := ih (step lan s (.loop (({ poll := { select := 0 } } : Platform).timed start e lapse)))
      (e + 1000)
    refine ⟨(.loop { poll := { select := 0 } }, lapse) :: as, d,
      .cons ⟨by rw [hread], fun _ => rfl⟩ ?_ hrun, by omega⟩
    rw [Timed.step, hread]

end LanInventory

end ControlLogix
