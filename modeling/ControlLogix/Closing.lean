import ControlLogix.Chunking
import ControlLogix.Replies

/-!
# Closing a session

`open()` sets the deadline of the session and `close()` does not, so the UnregisterSession exchange runs against the
deadline of the RegisterSession exchange.

* `Registered.deadline`: a registered session still has the deadline `open()` gave it;
* `closes_iff`: on a network that serves the exchange, `close()` works if and only if no call of `poll()` comes after
  that deadline, and the reply is not larger than the session takes;
* `not_closed_late`: a session that is closed after the timeout of its `open()` sends nothing.
-/

namespace ControlLogix

open Buffers (Framed Underway taken verdict received bodyLength)

namespace Session

/-- `open()` at the clock reading `opened` and calls of `poll()` have brought the session to `Registered`. -/
def Registered (opened timeoutMs : UInt32) (s : Session) : Prop :=
  ∃ s₀ s₁ conn₀ conn₁ ts, Session.open s₀ conn₀ timeoutMs opened = (.pending, s₁) ∧
    drive machine.poll s₁ conn₀ ts = (.ok, s, conn₁)

/-- The socket layer takes the whole frame in a `poll()` right after `close()`, and the turns go on until the loops
have sent the frame and read a reply. -/
structure Served (b : Buffers) (conn : TcpConnection) (turns : List Turn) : Prop where
  first : ∃ os ts, turns = .poll os :: ts ∧ sending b.txLen os.sends = .complete
  up : ∀ os, .poll os ∈ turns → os.Up
  through : (drive (Buffers.exchange kMaxBodySize) b conn turns).1 ≠ .pending
  last : ∀ ts t, turns = ts ++ [t] → (drive (Buffers.exchange kMaxBodySize) b conn ts).1 = .pending

/-- `close()` and the turns after it send UnregisterSession at once and end with the session closed. -/
structure Graceful (s : Session) (conn : TcpConnection) (turns : List Turn) : Prop where
  pending : s.close.1 = .pending
  written : ∀ os ts, turns = .poll os :: ts →
    (machine.poll s.close.2 conn os).2.2.sock.sent = conn.sock.sent ++ unregisterFrame s.handle s.context
  closed : ∃ s' conn', drive machine.poll s.close.2 conn turns = (.ok, s', conn') ∧ s'.state = .closed ∧
    conn'.sock.sent = conn.sock.sent ++ unregisterFrame s.handle s.context

/-! ### From `open()` to `close()` -/

/-- Registering, until `poll()` returns something else than `Pending`. -/
private theorem drive_registering {s s' : Session} {conn conn' : TcpConnection} {ts : List Turn}
    (hstate : s.state = .registering) (hf : Framed kMaxBodySize s.toBuffers)
    (h : drive machine.poll s conn ts = (.ok, s', conn')) : s'.state = .registered ∧ s'.deadline = s.deadline := by
  induction ts generalizing s conn with
  | nil =>
    rw [drive, Prod.mk.injEq] at h
    cases h.1
  | cons t ts ih =>
    cases t with
    | deliver bs => exact ih hstate hf h
    | poll os =>
      obtain ⟨st, s₁, conn₁, hp⟩ : ∃ st s₁ conn₁, s.poll conn (os.millis 0) os = (st, s₁, conn₁) := ⟨_, _, _, rfl⟩
      obtain ⟨inp, hpolled⟩ := poll_exchange (Or.inl hstate) hf hp
      have hp' : machine.poll s conn os = (st, s₁, conn₁) := hp
      by_cases hst : st = .pending
      · subst hst
        rw [drive_pending hp'] at h
        cases hpolled.outcome with
        | stays state handle status framed =>
          obtain ⟨h1, h2⟩ := ih (state.trans hstate) framed h
          exact ⟨h1, h2.trans hpolled.deadline⟩
        | fails state status => exact absurd rfl status.2
        | registers before state status => cases status
        | unregisters before state status => cases status
      · rw [drive_ended hp' hst, Prod.mk.injEq, Prod.mk.injEq] at h
        obtain ⟨rfl, rfl, rfl⟩ := h
        cases hpolled.outcome with
        | stays state handle status framed => exact absurd rfl status
        | fails state status => exact absurd rfl status.1
        | registers before state status => exact ⟨state, hpolled.deadline⟩
        | unregisters before state status =>
          rw [hstate] at before
          cases before

section Close

variable {opened timeoutMs : UInt32} {s : Session} {conn : TcpConnection} {turns : List Turn}

theorem Registered.deadline (h : Registered opened timeoutMs s) :
    s.state = .registered ∧ s.deadline = opened + timeoutMs := by
  obtain ⟨s₀, s₁, conn₀, conn₁, ts, hopen, hd⟩ := h
  rcases open_cases hopen with ⟨-, -, rfl⟩ | ⟨hne, -⟩
  · have hf := startRegister_framed { s₀ with deadline := opened + timeoutMs }
    exact drive_registering rfl hf hd
  · exact absurd rfl hne

private theorem Registered.close (h : Registered opened timeoutMs s) :
    s.close = (.pending, s.startUnregister.2) := close_registered h.deadline.1

/-- The turns before the last leave the exchange pending, and so does every part of them. -/
private theorem Served.pending {b : Buffers} (h : Served b conn turns) {ts us : List Turn} (hsplit : turns = ts ++ us)
    (hus : us ≠ []) : (drive (Buffers.exchange kMaxBodySize) b conn ts).1 = .pending := by
  obtain ⟨vs, v, rfl⟩ : ∃ vs v, us = vs ++ [v] :=
    ⟨us.dropLast, us.getLast hus, (List.dropLast_append_getLast hus).symm⟩
  have hlast := h.last (ts ++ vs) v (by rw [hsplit, List.append_assoc])
  by_contra hne
  rw [Machine.drive_append, if_neg hne] at hlast
  exact hne hlast

/-- The first call of `poll()` that comes too late, if there is one. -/
private theorem first_late {deadline : UInt32} (hup : ∀ os, .poll os ∈ turns → os.Up)
    (h : ¬ ∀ os, .poll os ∈ turns → expired (os.millis 0) deadline = false) :
    ∃ ts os us, turns = ts ++ .poll os :: us ∧ (∀ t ∈ ts, t.InTime deadline) ∧
      expired (os.millis 0) deadline = true := by
  obtain ⟨os, hmem, hlate⟩ : ∃ os, .poll os ∈ turns ∧ expired (os.millis 0) deadline = true := by
    simp only [not_forall] at h
    obtain ⟨os, hmem, hlate⟩ := h
    exact ⟨os, hmem, by simpa using hlate⟩
  have hsome : (turns.find? fun t => decide ¬ t.InTime deadline).isSome := by
    rw [List.find?_isSome]
    refine ⟨_, hmem, ?_⟩
    rw [decide_eq_true_iff]
    rintro ⟨-, hnow⟩
    rw [hlate] at hnow
    cases hnow
  obtain ⟨t, ht⟩ := Option.isSome_iff_exists.1 hsome
  obtain ⟨hlate, ts, us, hsplit, hbefore⟩ := List.find?_eq_some_iff_append.1 ht
  rw [decide_eq_true_iff] at hlate
  have hts : ∀ t ∈ ts, t.InTime deadline := by
    intro u hu
    simpa using hbefore u hu
  cases t with
  | deliver bs => exact absurd trivial hlate
  | poll os' =>
    refine ⟨ts, os', us, hsplit, hts, ?_⟩
    have hmem' : Turn.poll os' ∈ turns := by
      rw [hsplit]
      exact List.mem_append_right _ List.mem_cons_self
    by_contra hnow
    exact hlate ⟨hup os' hmem', by simpa using hnow⟩

/-- A call that comes too late ends the exchange. -/
private theorem poll_late {s : Session} (h : s.Exchanging) (conn : TcpConnection) {os : Platform}
    (hlate : expired (os.millis 0) s.deadline = true) :
    machine.poll s conn os = (.timeout, { s with state := .failed }, conn) := by
  change s.poll conn (os.millis 0) os = _
  unfold poll
  rcases h with h | h
  · rw [h]
    exact if_pos hlate
  · rw [h]
    exact if_pos hlate

/-- An exchange whose first late call is after `ts` ends with a timeout. -/
private theorem drive_late (hr : Registered opened timeoutMs s) (hu : conn.Usable)
    (hn : Served s.close.2.toBuffers conn turns)
    {ts us : List Turn} {os : Platform} (hsplit : turns = ts ++ .poll os :: us)
    (hts : ∀ t ∈ ts, t.InTime (opened + timeoutMs)) (hlate : expired (os.millis 0) (opened + timeoutMs) = true) :
    (drive machine.poll s.close.2 conn turns).1 = .timeout := by
  have hclose := hr.close
  have hstart := close_started hclose
  have hdeadline : machine.deadline s.startUnregister.2 = opened + timeoutMs := hr.deadline.2
  have hpending := hn.pending hsplit (List.cons_ne_nil _ _)
  rw [hclose] at hpending ⊢
  change (drive (Buffers.exchange kMaxBodySize) s.startUnregister.2.toBuffers conn ts).1 = .pending at hpending
  obtain ⟨st, b, conn₁, hd⟩ : ∃ st b conn', drive (Buffers.exchange kMaxBodySize)
    s.startUnregister.2.toBuffers conn ts = (st, b, conn') := ⟨_, _, _, rfl⟩
  rw [hd] at hpending
  rw [← hdeadline] at hts
  rcases Machine.drive_exchange (hstart.midway hu) hstart.loaded.fits hts hd with ⟨-, s₁, hd₁, -, hmid⟩ | ⟨hne, -⟩
  · have hlate₁ : expired (os.millis 0) s₁.deadline = true := by
      have hsame : s₁.deadline = opened + timeoutMs := hmid.deadline.trans hdeadline
      rw [hsame]
      exact hlate
    rw [hsplit, Machine.drive_append, hd₁, if_pos rfl, drive, poll_late hmid.going conn₁ hlate₁]
  · exact absurd hpending hne

/-- Any response to UnregisterSession will do. -/
private theorem conclude_unregistering {s : Session} (h : s.state = .unregistering) (st : Status) :
    (machine.conclude s st).1 = st ∧ (st = .ok → (machine.conclude s st).2.state = .closed) := by
  have hne : s.state ≠ .registering := by
    rw [h]
    nofun
  unfold machine
  dsimp only
  split
  · rename_i hok
    rw [finish, if_neg hne]
    exact ⟨hok.symm, fun _ => rfl⟩
  · rename_i hok
    exact ⟨rfl, fun h => absurd h hok⟩

/-- The exchange ends when no call comes too late. -/
private theorem closed_in_time (hr : Registered opened timeoutMs s) (hu : conn.Usable)
    (hn : Served s.close.2.toBuffers conn turns)
    (hts : ∀ os, .poll os ∈ turns → expired (os.millis 0) (opened + timeoutMs) = false) :
    (∀ os ts, turns = .poll os :: ts →
      (machine.poll s.close.2 conn os).2.2.sock.sent = conn.sock.sent ++ unregisterFrame s.handle s.context) ∧
      ∃ s' conn',
      drive machine.poll s.close.2 conn turns = (verdict kMaxBodySize (conn.sock.inbox ++ delivered turns),
          s', conn') ∧
        (verdict kMaxBodySize (conn.sock.inbox ++ delivered turns) = .ok → s'.state = .closed) ∧
        conn'.sock.sent = conn.sock.sent ++ unregisterFrame s.handle s.context := by
  have hclose := hr.close
  have hstart := close_started hclose
  have hdeadline : machine.deadline s.startUnregister.2 = opened + timeoutMs := hr.deadline.2
  have hin : ∀ t ∈ turns, t.InTime (machine.deadline s.startUnregister.2) := by
    intro t ht
    cases t with
    | deliver bs => trivial
    | poll os =>
      refine ⟨hn.up os ht, ?_⟩
      rw [hdeadline]
      exact hts os ht
  rw [hclose] at hn ⊢
  have hfit := hstart.loaded.fits
  constructor
  · rintro os ts hfirst
    obtain ⟨os', ts', hfirst', hsend⟩ := hn.first
    rw [hfirst] at hfirst'
    cases hfirst'
    refine hstart.poll_sent hu (hin _ ?_) hsend
    rw [hfirst]
    exact List.mem_cons_self
  · obtain ⟨st, b, conn', hd⟩ : ∃ st b conn', drive (Buffers.exchange kMaxBodySize)
      s.startUnregister.2.toBuffers conn turns = (st, b, conn') := ⟨_, _, _, rfl⟩
    have hthrough := hn.through
    rw [hd] at hthrough
    rcases Machine.drive_exchange (hstart.midway hu) hfit hin hd with ⟨hst, -⟩ | ⟨hst, hmachine⟩
    · exact absurd hst hthrough
    · have hne := (machine.concluded (machine.put s.startUnregister.2 b) st hst).1
      have hwritten := ((Machine.unsplit hstart conn turns _ _ _ hu hin hmachine).2 hne).written
      rcases Machine.drive_cases (hstart.midway hu) hfit hin hmachine with ⟨hst', -⟩ | ⟨some, more, harrived, -,
        htaken, -, -, hcon⟩
      · exact absurd hst' hne
      · obtain ⟨-, hverdict, -⟩ := Buffers.received_append htaken s.startUnregister.2.toBuffers more
        rw [harrived] at hverdict
        have hverdict' : verdict machine.cap some = verdict kMaxBodySize (conn.sock.inbox ++ delivered turns) :=
          hverdict.symm
        rw [hverdict', Prod.mk.injEq] at hcon
        have hstate : (machine.put s.startUnregister.2
          (received machine.cap (machine.buffers s.startUnregister.2) some)).state = .unregistering := rfl
        obtain ⟨hst', hclosed⟩ := conclude_unregistering hstate
          (verdict kMaxBodySize (conn.sock.inbox ++ delivered turns))
        refine ⟨(machine.conclude (machine.put s.startUnregister.2 b) st).2, conn', ?_, ?_, hwritten⟩
        · change drive machine.poll s.startUnregister.2 conn turns = _
          rw [hmachine, hcon.1, hst']
        · intro hok
          rw [hcon.2]
          exact hclosed hok

/-- On a network that serves the exchange, `close()` works if and only if the reply is not too large and no call of
`poll()` comes after the deadline that `open()` set. -/
theorem closes_iff (hr : Registered opened timeoutMs s) (hu : conn.Usable)
    (hn : Served s.close.2.toBuffers conn turns) :
    Graceful s conn turns ↔ bodyLength (conn.sock.inbox ++ delivered turns) ≤ kMaxBodySize ∧
      ∀ os, .poll os ∈ turns → expired (os.millis 0) (opened + timeoutMs) = false := by
  constructor
  · intro hg
    have hts : ∀ os, .poll os ∈ turns → expired (os.millis 0) (opened + timeoutMs) = false := by
      by_contra hlate
      obtain ⟨ts, os, us, hsplit, hbefore, hnow⟩ := first_late hn.up hlate
      obtain ⟨s', conn', hd, -, -⟩ := hg.closed
      have htimeout := drive_late hr hu hn hsplit hbefore hnow
      rw [hd] at htimeout
      cases htimeout
    obtain ⟨-, s', conn', hd, -, -⟩ := closed_in_time hr hu hn hts
    obtain ⟨s'', conn'', hd', -, -⟩ := hg.closed
    rw [hd, Prod.mk.injEq] at hd'
    refine ⟨?_, hts⟩
    by_contra hlarge
    rw [verdict, if_pos (Nat.lt_of_not_le hlarge)] at hd'
    cases hd'.1
  · rintro ⟨hsmall, hts⟩
    obtain ⟨hfirst, s', conn', hd, hclosed, hwritten⟩ := closed_in_time hr hu hn hts
    have hok : verdict kMaxBodySize (conn.sock.inbox ++ delivered turns) = .ok := by
      rw [verdict, if_neg (Nat.not_lt.2 hsmall)]
    rw [hok] at hd
    exact ⟨by rw [hr.close], hfirst, s', conn', hd, hclosed hok, hwritten⟩

end Close

/-! ### A session at two ages -/

/-- The session that `registeringSession` becomes, and its connection. -/
def aged : Session × TcpConnection := (drive machine.poll registeringSession { fd := 3, state := .ok } registration).2

private theorem registered_aged : Registered 0 5000 aged.1 := by
  have hok : (drive machine.poll registeringSession { fd := 3, state := .ok } registration).1 = .ok := by
    decide +kernel
  exact ⟨{}, registeringSession, { fd := 3, state := .ok }, aged.2, registration, rfl, Prod.ext hok rfl⟩

/-- The connection when a message has read the vendor of the device over it. -/
def used : TcpConnection :=
  let msg :=
    (({} : ExplicitMessage).send aged.2 aged.1.handle 0x0E (some [0x20, 1, 0x24, 1, 0x30, 1]) 6 none 0 1000 500).2
  let vendor : Reply := { exchange := 1, service := 0x8E, data := [1, 0], fits := by simp }
  (drive ExplicitMessage.machine.poll msg aged.2
    [.poll { millis := fun _ => 500, sends := [.accepted 99] }, .deliver vendor.frame,
      .poll { millis := fun _ => 600, recvs := [.data 99, .data 99] }]).2.2

/-- `poll()` at the clock reading `now`, the reply to UnregisterSession, and `poll()` again. -/
def farewell (now : UInt32) : List Turn :=
  [.poll { millis := fun _ => now, sends := [.accepted 24] },
    .deliver [0x66, 0, 0, 0, 7, 0, 0, 0, 0, 0, 0, 0, 1, 0, 0, 0, 0, 0, 0, 0, 0, 0, 0, 0],
    .poll { millis := fun _ => now, recvs := [.data 99] }]

private theorem served_farewell {now : UInt32} {b : Buffers} {conn : TcpConnection} (hlen : b.txLen = 24)
    (hthrough : (drive (Buffers.exchange kMaxBodySize) b conn (farewell now)).1 ≠ .pending)
    (hlast : (drive (Buffers.exchange kMaxBodySize) b conn (farewell now).dropLast).1 = .pending) :
    Served b conn (farewell now) := by
  refine ⟨⟨_, _, rfl, ?_⟩, ?_, hthrough, ?_⟩
  · rw [hlen]
    rfl
  · intro os hmem
    simp only [farewell, List.mem_cons, Turn.poll.injEq, reduceCtorEq, List.not_mem_nil, or_false, false_or] at hmem
    rcases hmem with rfl | rfl
    · exact ⟨by simp [SendAnswer.Up], by simp⟩
    · exact ⟨by simp, by simp [RecvAnswer.Up]⟩
  · intro ts t hsplit
    have hts : ts = (farewell now).dropLast := by rw [hsplit, List.dropLast_concat]
    rw [hts]
    exact hlast

/-- One second after `open()` the session closes, on a connection that has been used meanwhile. -/
theorem closes_iff_young : Graceful aged.1 used (farewell 1000) ↔
    bodyLength (used.sock.inbox ++ delivered (farewell 1000)) ≤ kMaxBodySize ∧
      ∀ os, .poll os ∈ farewell 1000 → expired (os.millis 0) (0 + 5000) = false :=
  closes_iff registered_aged (by decide +kernel)
    (served_farewell (by decide +kernel) (by decide +kernel) (by decide +kernel))

/-- Six seconds after `open()` it does not. -/
theorem not_closed_late : ¬ ∀ opened timeoutMs s conn turns, Registered opened timeoutMs s → conn.Usable →
    Served s.close.2.toBuffers conn turns → bodyLength (conn.sock.inbox ++ delivered turns) ≤ kMaxBodySize →
      Graceful s conn turns := by
  intro h
  have hserved : Served aged.1.close.2.toBuffers used (farewell 6000) :=
    served_farewell (by decide +kernel) (by decide +kernel) (by decide +kernel)
  obtain ⟨s', conn', hd, -⟩ :=
    (h 0 5000 aged.1 used (farewell 6000) registered_aged (by decide +kernel) hserved (by decide +kernel)).closed
  have htimeout : (drive machine.poll aged.1.close.2 used (farewell 6000)).1 = .timeout := by decide +kernel
  rw [hd] at htimeout
  cases htimeout

end Session

end ControlLogix
