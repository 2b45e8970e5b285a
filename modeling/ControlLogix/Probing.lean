import ControlLogix.Endings
import ControlLogix.Losses
import ControlLogix.Operations
import ControlLogix.Scan
import ControlLogix.Timeouts

/-!
# What `LanInventory` does to a device

In each phase of the sketch its members are in the states that the phase needs (`Sound`): a session that is registered
on a connection that can be used before the first query, one exchange at a time, and nothing of a device once the scan
goes on to the next address.

* `LanInventory.inventory_sockets`: between two devices no descriptor is open and nothing is in flight, in every run.
-/

namespace ControlLogix

open Buffers (Framed Wrote Got)
open TcpConnection (Made)

/-! ### A session on its connection -/

namespace Session

/-- The connection can be used, or the request is not out and will not go out. -/
def Linked (s : Session) (conn : TcpConnection) : Prop := conn.Usable ∨ s.txSent < s.txLen

private theorem linked_exchange {finish : Session → Status × Session} {s s' : Session} {conn conn' : TcpConnection}
    {now : UInt32} {os : Platform} {st : Status} (hf : Framed kMaxBodySize s.toBuffers) (hl : Linked s conn)
    (h : pollExchange finish s conn now os = (st, s', conn')) :
    (st = .ok → conn'.Usable) ∧ (s'.Exchanging → Linked s' conn') := by
  have hfailed (s : Session) : ¬ ({ s with state := .failed } : Session).Exchanging := by
    rintro (e | e) <;> cases e
  unfold pollExchange at h
  split at h
  · simp only [Prod.mk.injEq] at h
    obtain ⟨rfl, rfl, rfl⟩ := h
    exact ⟨nofun, fun hx => absurd hx (hfailed s)⟩
  · split at h
    · rename_i b₁ conn₁ hwr
      have hw := Buffers.writePending_spec hwr
      have hu : conn.Usable := by
        rcases hl with hu | hlt
        · exact hu
        · by_contra hu
          rw [writePending_unusable hlt hu] at hwr
          cases hwr
      have hu₁ : conn₁.Usable := ⟨hw.transfer.fd ▸ hu.1, (hw.alive (Or.inl rfl)).trans hu.2⟩
      split at h
      · rename_i b₂ conn₂ hrd
        obtain ⟨x, hg⟩ := Buffers.readResponse_spec (hw.framed hf) hrd
        simp only [Prod.mk.injEq] at h
        obtain ⟨rfl, rfl, rfl⟩ := h
        exact ⟨nofun, fun _ => Or.inl ⟨hg.transfer.fd ▸ hu₁.1, (hg.alive (Or.inr rfl)).trans hu₁.2⟩⟩
      · rename_i b₂ conn₂ hrd
        obtain ⟨x, hg⟩ := Buffers.readResponse_spec (hw.framed hf) hrd
        have hu₂ : conn₂.Usable := ⟨hg.transfer.fd ▸ hu₁.1, (hg.alive (Or.inl rfl)).trans hu₁.2⟩
        simp only [Prod.mk.injEq] at h
        obtain ⟨-, -, rfl⟩ := h
        exact ⟨fun _ => hu₂, fun _ => Or.inl hu₂⟩
      · rename_i st₂ b₂ conn₂ hnp hno hrd
        simp only [Prod.mk.injEq] at h
        obtain ⟨rfl, rfl, rfl⟩ := h
        exact ⟨fun e => absurd e hno, fun hx => absurd hx (hfailed { s with toBuffers := b₂ })⟩
    · rename_i st₁ b₁ conn₁ hno hwr
      have hw := Buffers.writePending_spec hwr
      simp only [Prod.mk.injEq] at h
      obtain ⟨rfl, rfl, rfl⟩ := h
      exact ⟨fun e => absurd e hno, fun _ => Or.inr (by rw [hw.frame]; exact hw.unsent hno)⟩

theorem poll_linked {s s' : Session} {conn conn' : TcpConnection} {now : UInt32} {os : Platform} {st : Status}
    (hx : s.Exchanging) (hf : Framed kMaxBodySize s.toBuffers) (hl : Linked s conn)
    (h : s.poll conn now os = (st, s', conn')) : (st = .ok → conn'.Usable) ∧ (s'.Exchanging → Linked s' conn') := by
  unfold poll at h
  rcases hx with hx | hx <;> rw [hx] at h <;> exact linked_exchange hf hl h

end Session

/-! ### What the members of the sketch are doing -/

namespace LanInventory

/-- No session is open or about to be. -/
def Sessionless (x : Session) : Prop := x.state ≠ .registering ∧ x.state ≠ .registered

/-- Which exchange is going on in which phase. -/
inductive Stage (s : LanInventory) : Prop where
  | between (phase : s.phase = .waitEthernet ∨ s.phase = .scan ∨ s.phase = .done) (fd : s.tcp.fd < 0)
    (session : Sessionless s.session)
  | connecting (phase : s.phase = .connect) (session : Sessionless s.session)
  | registering (phase : s.phase = .register) (session : s.session.state = .registering)
    (linked : s.session.Linked s.tcp)
  | rejected (phase : s.phase = .register) (session : s.session.state = .failed)
  | querying (phase : s.phase = .query) (session : s.session.state = .registered) (idle : s.stepStarted = false)
    (index : s.queryIndex ≤ kIdentityAttrCount) (tcp : s.tcp.Usable)
  | identity (phase : s.phase = .query) (session : s.session.state = .registered) (started : s.stepStarted = true)
    (index : s.queryIndex < kIdentityAttrCount) (msg : s.msg.InFlight ∧ s.tcp.Usable ∨ s.msg.state = .failed)
  | mode (phase : s.phase = .query) (session : s.session.state = .registered) (started : s.stepStarted = true)
    (index : s.queryIndex = kIdentityAttrCount)
    (tag : s.tag.InFlight ∧ s.msg.InFlight ∧ s.tcp.Usable ∨ s.tag.state = .failed ∧ ¬ s.msg.InFlight)
  | closing (phase : s.phase = .close) (session : s.session.state = .unregistering ∨ s.session.state = .failed)

/-- The members of the sketch fit its phase. -/
structure Sound (s : LanInventory) : Prop where
  stage : Stage s
  started : s.phase = .waitEthernet → s.eth.started = true
  owning : s.tcp.Owning
  framed : s.msg.InFlight → Framed (16 + ExplicitMessage.kMaxCipData) s.msg.toBuffers
  sized : s.msg.txLen ≤ 296
  exchanging : s.session.Exchanging → Framed Session.kMaxBodySize s.session.toBuffers ∧ s.session.Loaded
  free : ¬ (s.phase = .query ∧ s.stepStarted = true) → ¬ s.msg.InFlight
  rest : ¬ (s.phase = .query ∧ s.stepStarted = true ∧ s.queryIndex = kIdentityAttrCount) → ¬ s.tag.InFlight

/-! ### A query -/

/-- How a message stands after `poll()`. -/
inductive Stands (st : Status) (msg : ExplicitMessage) (conn : TcpConnection) : Prop where
  | going (status : st = .pending) (inFlight : msg.InFlight) (usable : conn.Usable)
  | answered (status : st = .ok) (done : ¬ msg.InFlight) (usable : conn.Usable)
  | failed (status : st ≠ .pending ∧ st ≠ .ok) (state : msg.state = .failed)

private theorem not_inFlight_failed {msg : ExplicitMessage} (h : msg.state = .failed) : ¬ msg.InFlight := by
  rintro (e | e) <;> rw [h] at e <;> cases e

theorem msg_polled {msg msg' : ExplicitMessage} {conn conn' : TcpConnection} {os : Platform} {st : Status}
    (hf : msg.InFlight → Framed (16 + ExplicitMessage.kMaxCipData) msg.toBuffers)
    (hmsg : msg.InFlight ∧ conn.Usable ∨ msg.state = .failed) (hp : msg.poll conn os = (st, msg', conn')) :
    Stands st msg' conn' ∧ (msg'.InFlight → Framed (16 + ExplicitMessage.kMaxCipData) msg'.toBuffers) ∧
      msg'.txLen = msg.txLen ∧ (expired (os.millis 0) msg.deadline = true → Fails st) := by
  rcases hmsg with ⟨hin, hu⟩ | hfailed
  · obtain ⟨inp, hpolled⟩ := ExplicitMessage.poll_spec hin (hf hin) hp
    have hlate : expired (os.millis 0) msg.deadline = true → Fails st := by
      intro he
      rw [ExplicitMessage.poll_expired hin conn he, Prod.mk.injEq] at hp
      rw [← hp.1]
      exact Or.inl rfl
    have husable (hst : st ≠ .closed) : conn'.Usable :=
      ⟨hpolled.moved.transfer.fd ▸ hu.1, (ExplicitMessage.poll_alive hin hp hst).trans hu.2⟩
    rcases hpolled.outcome with ⟨rfl, hin'⟩ | ⟨rfl, hdone⟩ | ⟨hst, hfailed⟩
    · exact ⟨.going rfl hin' (husable nofun), fun _ => hpolled.framed (Or.inl rfl), hpolled.moved.tx.2, hlate⟩
    · have hnot : ¬ msg'.InFlight := by
        rintro (e | e) <;> rw [hdone] at e <;> cases e
      exact ⟨.answered rfl hnot (husable nofun), fun h => absurd h hnot, hpolled.moved.tx.2, hlate⟩
    · have hne : st ≠ .pending ∧ st ≠ .ok := by
        rcases hst with rfl | rfl | rfl | rfl <;> decide
      exact ⟨.failed hne hfailed, fun h => absurd h (not_inFlight_failed hfailed), hpolled.moved.tx.2, hlate⟩
  · rw [ExplicitMessage.poll_rest (not_inFlight_failed hfailed), if_neg (by rw [hfailed]; decide),
      if_pos hfailed] at hp
    simp only [Prod.mk.injEq] at hp
    obtain ⟨rfl, rfl, rfl⟩ := hp
    exact ⟨.failed (by decide) hfailed, hf, rfl, fun _ => Or.inr (Or.inl rfl)⟩

/-- What `pollQuery` leaves to the rest of `loop()`. -/
structure Asked (s : LanInventory) (os : Platform) (st : Status) (s₁ : LanInventory) : Prop where
  pending : st ≠ .ok ∧ ¬ Fails st → Stage s₁
  ended : st = .ok ∨ Fails st → ¬ s₁.msg.InFlight ∧ ¬ s₁.tag.InFlight
  answered : st = .ok → s.queryIndex < kIdentityAttrCount → s₁.tcp.Usable
  framed : s₁.msg.InFlight → Framed (16 + ExplicitMessage.kMaxCipData) s₁.msg.toBuffers
  sized : s₁.msg.txLen = s.msg.txLen
  made : ∃ k, Made k s.tcp s₁.tcp
  rest : s.queryIndex < kIdentityAttrCount → s₁.tag = s.tag
  late : expired (os.millis 0) s.msg.deadline = true → Fails st

variable {lan : Lan} {s s' s₁ : LanInventory} {os : Platform} {st : Status}

private theorem made_msg (h : Sound s) (os : Platform) : ∃ k, Made k s.tcp (s.msg.poll s.tcp os).2.2 :=
  ⟨592, ExplicitMessage.made_poll h.framed h.sized s.tcp os⟩

private theorem asked_identity (h : Sound s) (hp : s.phase = .query) (hsession : s.session.state = .registered)
    (hstarted : s.stepStarted = true) (hindex : s.queryIndex < kIdentityAttrCount)
    (hmsg : s.msg.InFlight ∧ s.tcp.Usable ∨ s.msg.state = .failed) (hpoll : s.pollQuery os = (st, s₁)) :
    Asked s os st s₁ := by
  have hmade := made_msg h os
  obtain ⟨mst, msg, tcp, hm⟩ : ∃ mst msg tcp, s.msg.poll s.tcp os = (mst, msg, tcp) := ⟨_, _, _, rfl⟩
  rw [hm] at hmade
  rw [pollQuery, if_neg (by omega), hm] at hpoll
  simp only [Prod.mk.injEq] at hpoll
  obtain ⟨rfl, rfl⟩ := hpoll
  obtain ⟨hstands, hframed, hlen, hlate⟩ := msg_polled h.framed hmsg hm
  have hrest : ¬ s.tag.InFlight := h.rest fun hmode => by omega
  refine ⟨fun hst => ?_, fun hst => ⟨?_, hrest⟩, fun hst _ => ?_, hframed, hlen, hmade, fun _ => rfl, hlate⟩
  · cases hstands with
    | going _ inFlight usable => exact .identity hp hsession hstarted hindex (Or.inl ⟨inFlight, usable⟩)
    | answered status => exact absurd status hst.1
    | failed _ state => exact .identity hp hsession hstarted hindex (Or.inr state)
  · cases hstands with
    | going status => rw [status] at hst; exact absurd hst (by decide)
    | answered _ done => exact done
    | failed _ state => exact not_inFlight_failed state
  · cases hstands with
    | going _ _ usable => exact usable
    | answered _ _ usable => exact usable
    | failed status => exact absurd hst status.2

private theorem asked_mode (h : Sound s) (hp : s.phase = .query) (hsession : s.session.state = .registered)
    (hstarted : s.stepStarted = true) (hindex : s.queryIndex = kIdentityAttrCount)
    (htag : s.tag.InFlight ∧ s.msg.InFlight ∧ s.tcp.Usable ∨ s.tag.state = .failed ∧ ¬ s.msg.InFlight)
    (hpoll : s.pollQuery os = (st, s₁)) : Asked s os st s₁ := by
  obtain ⟨tst, tag, msg, tcp, ht⟩ : ∃ tst tag msg tcp, s.tag.poll s.msg s.tcp os = (tst, tag, msg, tcp) :=
    ⟨_, _, _, _, rfl⟩
  rw [pollQuery, if_pos (by omega), ht] at hpoll
  simp only [Prod.mk.injEq] at hpoll
  obtain ⟨rfl, rfl⟩ := hpoll
  have hrest (t : Tag) (hs : t.state = .failed ∨ t.state = .done) : ¬ t.InFlight := by
    rintro (e | e) <;> rcases hs with hs | hs <;> rw [hs] at e <;> cases e
  rcases htag with ⟨hin, hmsg, hu⟩ | ⟨hfailed, hfree⟩
  · obtain ⟨mst, hm, hadvanced⟩ := Tag.poll_inFlight hin ht
    have hmade := made_msg h os
    rw [hm] at hmade
    obtain ⟨hstands, hframed, hlen, hlate⟩ := msg_polled h.framed (Or.inl ⟨hmsg, hu⟩) hm
    have hnot (hne : mst ≠ .pending) : ¬ msg.InFlight := by
      cases hstands with
      | going status => exact absurd status hne
      | answered _ done => exact done
      | failed _ state => exact not_inFlight_failed state
    refine ⟨fun hst => ?_, fun hst => ?_, fun _ hlt => by omega, hframed, hlen, hmade, fun hlt => by omega,
      fun he => ?_⟩
    · cases hadvanced with
      | pending hmst =>
        cases hstands with
        | going _ inFlight usable => exact .mode hp hsession hstarted hindex (Or.inl ⟨hin, inFlight, usable⟩)
        | answered status => rw [hmst] at status; cases status
        | failed status => exact absurd hmst status.1
      | broke hmst => exact .mode hp hsession hstarted hindex (Or.inr ⟨rfl, hnot hmst.1⟩)
      | refused => exact absurd hst (by decide)
      | done => exact absurd hst (by decide)
    · cases hadvanced with
      | pending => exact absurd hst (by decide)
      | broke hmst => exact ⟨hnot hmst.1, hrest _ (Or.inl rfl)⟩
      | refused hmst => exact ⟨hnot (by rw [hmst]; decide), hrest _ (Or.inl rfl)⟩
      | done hmst =>
        refine ⟨hnot (by rw [hmst]; decide), hrest _ (Or.inr ?_)⟩
        unfold Tag.accept
        split <;> rfl
    · have hfails := hlate he
      cases hadvanced with
      | pending hmst => rw [hmst] at hfails; exact absurd hfails (by decide)
      | broke => exact hfails
      | refused hmst => rw [hmst] at hfails; exact absurd hfails (by decide)
      | done hmst => rw [hmst] at hfails; exact absurd hfails (by decide)
  · have hstate := hrest s.tag (Or.inl hfailed)
    have hstatus : s.tag.status = .error := by rw [Tag.status, hfailed]
    rw [Tag.poll_rest hstate, hstatus, Prod.mk.injEq, Prod.mk.injEq, Prod.mk.injEq] at ht
    obtain ⟨rfl, rfl, rfl, rfl⟩ := ht
    exact ⟨fun hst => absurd hst (by decide), fun _ => ⟨hfree, hstate⟩, nofun, h.framed, rfl, ⟨0, .refl 0 _⟩,
      fun _ => rfl, fun _ => by decide⟩

theorem asked_polled (h : Sound s) (hp : s.phase = .query) (hstarted : s.stepStarted = true)
    (hpoll : s.pollQuery os = (st, s₁)) : Asked s os st s₁ := by
  have hother {p : Phase} (hs : s.phase = p) (hne : Phase.query ≠ p) : Asked s os st s₁ := by
    rw [hp] at hs
    exact absurd hs hne
  cases h.stage with
  | between phase => rcases phase with hs | hs | hs <;> exact hother hs nofun
  | connecting phase => exact hother phase nofun
  | registering phase => exact hother phase nofun
  | rejected phase => exact hother phase nofun
  | querying _ _ idle => rw [hstarted] at idle; cases idle
  | identity _ session _ index msg => exact asked_identity h hp session hstarted index msg hpoll
  | mode _ session _ index tag => exact asked_mode h hp session hstarted index tag hpoll
  | closing phase => exact hother phase nofun

/-- A query that is started is accepted, and has its time from then on. -/
theorem startQuery_cases (h : Sound s) (hp : s.phase = .query) (hsession : s.session.state = .registered)
    (hidle : s.stepStarted = false) (hindex : s.queryIndex ≤ kIdentityAttrCount) (hu : s.tcp.Usable) (now : UInt32) :
    Sound (s.startQuery now) ∧ (s.startQuery now).stepStarted = true ∧
      (s.startQuery now).msg.deadline = now + MESSAGE_TIMEOUT_MS := by
  have hfree : ¬ s.msg.InFlight := h.free (by simp [hidle])
  have hrest : ¬ s.tag.InFlight := h.rest (by simp [hidle])
  have hconn : s.tcp.connected := by
    have hstate : s.tcp.state = .ok := hu.2
    simpa [TcpConnection.connected] using hstate
  have hsent {service : UInt8} {path data : Option (List UInt8)} {pathLen dataLen : Nat} {msg : ExplicitMessage}
      (hs : ExplicitMessage.Sent s.msg s.tcp s.session.handle service path pathLen data dataLen MESSAGE_TIMEOUT_MS now
        msg) :
      msg.InFlight ∧ (msg.InFlight → Framed (16 + ExplicitMessage.kMaxCipData) msg.toBuffers) ∧ msg.txLen ≤ 296 := by
    have hfits : ExplicitMessage.cipLength pathLen dataLen ≤ 256 := hs.args.1
    refine ⟨Or.inl hs.state, fun _ => hs.framed, ?_⟩
    rw [hs.txLen, kEncapsulationHeaderSize]
    omega
  by_cases hlast : s.queryIndex < kIdentityAttrCount
  · obtain ⟨st, msg, hsend⟩ : ∃ st msg, s.msg.send s.tcp s.session.handle Service.getAttributeSingle.code
      (some (appendClass 1 ++ appendInstance 1)) (appendClass 1 ++ appendInstance 1).length
      (some (appendAttribute (kIdentityAttrs.getD s.queryIndex 0)))
      (appendAttribute (kIdentityAttrs.getD s.queryIndex 0)).length MESSAGE_TIMEOUT_MS now = (st, msg) := ⟨_, _, rfl⟩
    have hfits : ExplicitMessage.cipLength 4 2 ≤ ExplicitMessage.kMaxCipData := by decide
    have hpending : st = .pending :=
      (congrArg Prod.fst hsend).symm.trans ((ExplicitMessage.send_iff hfree hconn).2 ⟨hfits, rfl, by simp, by simp⟩)
    subst hpending
    have hs := ExplicitMessage.send_accepted hsend
    obtain ⟨hin, hframed, hlen⟩ := hsent hs
    have hstart : s.startQuery now = { s with msg := msg, stepStarted := true } := by
      rw [startQuery, if_pos hlast]
      dsimp only
      rw [hsend]
      rfl
    rw [hstart]
    exact ⟨⟨.identity hp hsession rfl hlast (Or.inl ⟨hin, hu⟩), h.started, h.owning, hframed, hlen, h.exchanging,
      fun hnot => absurd ⟨hp, rfl⟩ hnot, fun _ => hrest⟩, rfl, hs.deadline⟩
  · have hmode : s.queryIndex = kIdentityAttrCount := by omega
    obtain ⟨st, tag, msg, hread⟩ : ∃ st tag msg, s.tag.read s.msg s.tcp s.session.handle (some modeTag) 1
      MESSAGE_TIMEOUT_MS now = (st, tag, msg) := ⟨_, _, _, rfl⟩
    have hpending : st = .pending :=
      (congrArg Prod.fst hread).symm.trans ((Tag.read_iff hrest hfree hconn).2 (by decide))
    subst hpending
    rcases Tag.read_cases hread with ⟨-, hstarted⟩ | ⟨hne, -⟩
    · obtain ⟨service, data, -, hs⟩ := hstarted.sent
      obtain ⟨hin, hframed, hlen⟩ := hsent hs
      have hstart : s.startQuery now = { s with tag := tag, msg := msg, stepStarted := true } := by
        rw [startQuery, if_neg hlast, hread]
        rfl
      rw [hstart]
      exact ⟨⟨.mode hp hsession rfl hmode (Or.inl ⟨hstarted.inFlight, hin, hu⟩), h.started, h.owning, hframed, hlen,
        h.exchanging, fun hnot => absurd ⟨hp, rfl⟩ hnot, fun hnot => absurd ⟨hp, rfl, hmode⟩ hnot⟩, rfl, hs.deadline⟩
    · exact absurd rfl hne

/-! ### What every step keeps -/

/-- A session in an exchange, after `poll()`. -/
private theorem session_polled {x x' : Session} {conn conn' : TcpConnection} {now : UInt32}
    (hx : x.Exchanging → Framed Session.kMaxBodySize x.toBuffers ∧ x.Loaded)
    (hp : x.poll conn now os = (st, x', conn')) :
    (x'.Exchanging → Framed Session.kMaxBodySize x'.toBuffers ∧ x'.Loaded) ∧ ∃ k, Made k conn conn' := by
  have hmade := Session.made_poll hx conn now os
  rw [hp] at hmade
  refine ⟨fun hx' => ?_, 564, hmade⟩
  by_cases hin : x.Exchanging
  · obtain ⟨inp, hpolled⟩ := Session.poll_exchange hin (hx hin).1 hp
    exact polled_exchanging (hx hin).2 hpolled hx'
  · have hsame := Session.poll_settled hin conn now os
    rw [hp, Prod.mk.injEq] at hsame
    obtain ⟨rfl, -⟩ := hsame
    exact absurd hx' hin

private theorem exchanging_abort (x : Session) : ¬ x.abort.Exchanging := by
  rintro (e | e) <;> cases e

/-- A registration, after `poll()`. -/
theorem registering_polled {x x' : Session} {conn conn' : TcpConnection} {now : UInt32}
    (hs : x.state = .registering) (hx : x.Exchanging → Framed Session.kMaxBodySize x.toBuffers ∧ x.Loaded)
    (hl : x.Linked conn) (hp : x.poll conn now os = (st, x', conn')) :
    (x'.state = .registering ∧ st ≠ .ok ∧ x'.Linked conn') ∨ (x'.state = .failed ∧ st ≠ .ok ∧ st ≠ .pending) ∨
      (x'.state = .registered ∧ st = .ok ∧ conn'.Usable) := by
  have hin : x.Exchanging := Or.inl hs
  obtain ⟨inp, hpolled⟩ := Session.poll_exchange hin (hx hin).1 hp
  obtain ⟨husable, hlinked⟩ := Session.poll_linked hin (hx hin).1 hl hp
  cases hpolled.outcome with
  | stays state handle status =>
    rw [hs] at state
    exact Or.inl ⟨state, status, hlinked (Or.inl state)⟩
  | fails state status => exact Or.inr (Or.inl ⟨state, status⟩)
  | registers before state status => exact Or.inr (Or.inr ⟨state, status, husable status⟩)
  | unregisters before => rw [hs] at before; cases before

/-- The end of a session, after `poll()`. -/
theorem closing_polled {x x' : Session} {conn conn' : TcpConnection} {now : UInt32}
    (hs : x.state = .unregistering ∨ x.state = .failed)
    (hx : x.Exchanging → Framed Session.kMaxBodySize x.toBuffers ∧ x.Loaded)
    (hp : x.poll conn now os = (st, x', conn')) :
    (x'.state = .unregistering ∨ x'.state = .failed) ∨ (x'.state = .closed ∧ st = .ok) := by
  rcases hs with hs | hs
  · have hin : x.Exchanging := Or.inr hs
    obtain ⟨inp, hpolled⟩ := Session.poll_exchange hin (hx hin).1 hp
    cases hpolled.outcome with
    | stays state => rw [hs] at state; exact Or.inl (Or.inl state)
    | fails state => exact Or.inl (Or.inr state)
    | registers before => rw [hs] at before; cases before
    | unregisters before state status => exact Or.inr ⟨state, status⟩
  · rw [poll_failed hs] at hp
    obtain rfl := (Prod.mk.inj (Prod.mk.inj hp).2).1
    exact Or.inl (Or.inr hs)

theorem open_registering {x : Session} {conn : TcpConnection} (hs : Sessionless x) (hu : conn.Usable)
    (timeoutMs now : UInt32) : x.open conn timeoutMs now = { x with deadline := now + timeoutMs }.startRegister := by
  have hstate : conn.state = .ok := hu.2
  unfold Session.open
  rw [if_neg (not_or.2 hs), if_neg (by simp [TcpConnection.connected, hstate])]

theorem tcp_poll_ok {t t' : TcpConnection} {a : PollAnswers} {now : UInt32} (h : t.poll a now = (.ok, t')) :
    t'.Usable := by
  unfold TcpConnection.poll at h
  split at h
  · cases h
  · rename_i hfd
    split at h
    · rename_i hs
      obtain rfl := (Prod.mk.inj h).2
      exact ⟨by omega, hs⟩
    · dsimp only at h
      split at h
      · cases h
      · split at h
        · split at h <;> cases h
        · split at h
          · cases h
          · split at h
            · obtain rfl := (Prod.mk.inj h).2
              exact ⟨show 0 ≤ t.fd by omega, rfl⟩
            · cases h

private theorem owning_made {t t' : TcpConnection} {k : Nat} (h : t.Owning) (hm : Made k t t') : t'.Owning :=
  hm.invariant (fun _ c ht => ht.call c) h

private theorem sessionless_abort (x : Session) : Sessionless x.abort := ⟨nofun, nofun⟩

namespace Sound

theorem at_rest (h : Sound s) (hp : s.phase = .waitEthernet ∨ s.phase = .scan ∨ s.phase = .done) :
    s.tcp.fd < 0 ∧ Sessionless s.session := by
  cases h.stage with
  | between _ fd session => exact ⟨fd, session⟩
  | connecting phase => simp [phase] at hp
  | registering phase => simp [phase] at hp
  | rejected phase => simp [phase] at hp
  | querying phase => simp [phase] at hp
  | identity phase => simp [phase] at hp
  | mode phase => simp [phase] at hp
  | closing phase => simp [phase] at hp

theorem connecting (h : Sound s) (hp : s.phase = .connect) : Sessionless s.session := by
  cases h.stage with
  | between phase => simp [hp] at phase
  | connecting _ session => exact session
  | registering phase => rw [hp] at phase; cases phase
  | rejected phase => rw [hp] at phase; cases phase
  | querying phase => rw [hp] at phase; cases phase
  | identity phase => rw [hp] at phase; cases phase
  | mode phase => rw [hp] at phase; cases phase
  | closing phase => rw [hp] at phase; cases phase

theorem registering (h : Sound s) (hp : s.phase = .register) :
    (s.session.state = .registering ∧ s.session.Linked s.tcp) ∨ s.session.state = .failed := by
  cases h.stage with
  | between phase => simp [hp] at phase
  | connecting phase => rw [hp] at phase; cases phase
  | registering _ session linked => exact Or.inl ⟨session, linked⟩
  | rejected _ session => exact Or.inr session
  | querying phase => rw [hp] at phase; cases phase
  | identity phase => rw [hp] at phase; cases phase
  | mode phase => rw [hp] at phase; cases phase
  | closing phase => rw [hp] at phase; cases phase

theorem querying (h : Sound s) (hp : s.phase = .query) : s.session.state = .registered ∧
    s.queryIndex ≤ kIdentityAttrCount ∧ (s.stepStarted = false → s.tcp.Usable) := by
  cases h.stage with
  | between phase => simp [hp] at phase
  | connecting phase => rw [hp] at phase; cases phase
  | registering phase => rw [hp] at phase; cases phase
  | rejected phase => rw [hp] at phase; cases phase
  | querying _ session _ index tcp => exact ⟨session, index, fun _ => tcp⟩
  | identity _ session started index => exact ⟨session, by omega, by simp [started]⟩
  | mode _ session started index => exact ⟨session, by omega, by simp [started]⟩
  | closing phase => rw [hp] at phase; cases phase

theorem closing (h : Sound s) (hp : s.phase = .close) :
    s.session.state = .unregistering ∨ s.session.state = .failed := by
  cases h.stage with
  | between phase => simp [hp] at phase
  | connecting phase => rw [hp] at phase; cases phase
  | registering phase => rw [hp] at phase; cases phase
  | rejected phase => rw [hp] at phase; cases phase
  | querying phase => rw [hp] at phase; cases phase
  | identity phase => rw [hp] at phase; cases phase
  | mode phase => rw [hp] at phase; cases phase
  | closing _ session => exact session

/-- A step outside the queries. -/
private theorem moved (h : Sound s) (hstage : Stage s') (hp : s.phase ≠ .query) (hp' : s'.phase ≠ .waitEthernet)
    (hmade : ∃ k, Made k s.tcp s'.tcp) (hmsg : s'.msg = s.msg) (htag : s'.tag = s.tag)
    (hx : s'.session.Exchanging → Framed Session.kMaxBodySize s'.session.toBuffers ∧ s'.session.Loaded) :
    Sound s' := by
  obtain ⟨k, hmade⟩ := hmade
  have hfree : ¬ s.msg.InFlight := h.free fun hq => hp hq.1
  have hrest : ¬ s.tag.InFlight := h.rest fun hq => hp hq.1
  refine ⟨hstage, fun hw => absurd hw hp', owning_made h.owning hmade, ?_, ?_, hx, ?_, ?_⟩
  · rw [hmsg]
    exact h.framed
  · rw [hmsg]
    exact h.sized
  · rw [hmsg]
    exact fun _ => hfree
  · rw [htag]
    exact fun _ => hrest

end Sound

/-- The device is left. -/
private theorem sound_dropped {tcp : TcpConnection} {session : Session} (h : Sound s) (hp : s.phase ≠ .query)
    (n : Nat) (hmade : ∃ k, Made k s.tcp tcp) (hsession : Sessionless session)
    (hx : session.Exchanging → Framed Session.kMaxBodySize session.toBuffers ∧ session.Loaded) :
    Sound { s with session := session, tcp := tcp.close, found := n, phase := .scan } := by
  obtain ⟨k, hmade⟩ := hmade
  exact h.moved (.between (Or.inr (Or.inl rfl)) (TcpConnection.close_dropped tcp).fd hsession) hp nofun
    ⟨k + 1, hmade.trans tcp.made_close⟩ rfl rfl hx

private theorem sound_answered {s₁ : LanInventory} (h : Sound s) (hp : s.phase = .query) (ha : Asked s os st s₁)
    (hq : Queried s s₁) (hended : st = .ok ∨ Fails st ∧ kIdentityAttrCount ≤ s.queryIndex) :
    Sound s₁.finishQuery := by
  obtain ⟨hsession, hindex, -⟩ := h.querying hp
  obtain ⟨hfree, hrest⟩ := ha.ended (hended.imp_right And.left)
  obtain ⟨k, hmade⟩ := ha.made
  have howning := owning_made h.owning hmade
  have hsized : s₁.msg.txLen ≤ 296 := by
    rw [ha.sized]
    exact h.sized
  rcases s₁.finishQuery_cases with ⟨hlt, heq⟩ | ⟨-, heq⟩
  · rw [heq]
    rw [hq.queryIndex] at hlt
    have hok : st = .ok := hended.resolve_right fun hf => by omega
    refine ⟨.querying (hq.phase.trans hp) ?_ rfl ?_ (ha.answered hok hlt), fun hw => ?_, howning, ha.framed,
      hsized, ?_, fun _ => hfree, fun _ => hrest⟩
    · rw [← hsession, ← hq.session]
    · show s₁.queryIndex + 1 ≤ kIdentityAttrCount
      rw [hq.queryIndex]
      exact hlt
    · have hw₁ : s₁.phase = .waitEthernet := hw
      rw [hq.phase, hp] at hw₁
      cases hw₁
    · show s₁.session.Exchanging → _
      rw [hq.session]
      exact h.exchanging
  · have hclose : s₁.session.close.2 = s₁.session.startUnregister.2 := by
      rw [Session.close_registered]
      rw [hq.session]
      exact hsession
    rw [heq, hclose]
    exact ⟨.closing rfl (Or.inl rfl), nofun, howning, ha.framed, hsized,
      fun _ => ⟨Session.startUnregister_framed _, Session.startUnregister_loaded _⟩, fun _ => hfree, fun _ => hrest⟩

theorem sound_loop {lan : Lan} (h : Sound s) (hl : Looped lan os s s') : Sound s' := by
  cases hl with
  | rests => exact h
  | waits => exact h
  | fails phase =>
    obtain ⟨hfd, hsession⟩ := h.at_rest (Or.inl phase)
    exact h.moved (.between (Or.inr (Or.inr rfl)) hfd hsession) (by simp [phase]) nofun ⟨0, .refl 0 _⟩ rfl rfl
      h.exchanging
  | starts phase =>
    obtain ⟨hfd, hsession⟩ := h.at_rest (Or.inl phase)
    exact h.moved (.between (Or.inr (Or.inl rfl)) hfd hsession) (by simp [phase]) nofun ⟨0, .refl 0 _⟩ rfl rfl
      h.exchanging
  | ends phase =>
    obtain ⟨hfd, hsession⟩ := h.at_rest (Or.inr (Or.inl phase))
    exact h.moved (.between (Or.inr (Or.inr rfl)) hfd hsession) (by simp [phase]) nofun ⟨0, .refl 0 _⟩ rfl rfl
      h.exchanging
  | skips phase =>
    obtain ⟨hfd, hsession⟩ := h.at_rest (Or.inr (Or.inl phase))
    exact h.moved (.between (Or.inr (Or.inl phase)) hfd hsession) (by simp [phase]) (by simp [phase])
      ⟨0, .refl 0 _⟩ rfl rfl h.exchanging
  | dials phase =>
    obtain ⟨hfd, hsession⟩ := h.at_rest (Or.inr (Or.inl phase))
    exact h.moved (.connecting rfl hsession) (by simp [phase]) nofun ⟨_, TcpConnection.made_connect ..⟩ rfl rfl
      h.exchanging
  | connecting phase st tcp polled =>
    have hmade := s.tcp.made_poll os.poll (os.millis 0)
    rw [polled] at hmade
    exact h.moved (.connecting phase (h.connecting phase)) (by simp [phase]) (by simp [phase]) ⟨_, hmade⟩ rfl rfl
      h.exchanging
  | refused phase st tcp polled =>
    have hmade := s.tcp.made_poll os.poll (os.millis 0)
    rw [polled] at hmade
    have hsession := h.connecting phase
    have hfd := (TcpConnection.close_dropped tcp).fd
    exact h.moved (.between (Or.inr (Or.inl rfl)) hfd hsession) (by simp [phase]) nofun
      ⟨_, hmade.trans tcp.made_close⟩ rfl rfl h.exchanging
  | connected phase tcp polled =>
    have hmade := s.tcp.made_poll os.poll (os.millis 0)
    rw [polled] at hmade
    have hu := tcp_poll_ok polled
    rw [open_registering (h.connecting phase) hu]
    exact h.moved (.registering rfl rfl (Or.inl hu)) (by simp [phase]) nofun ⟨_, hmade⟩ rfl rfl
      fun _ => ⟨Session.startRegister_framed _, Session.startRegister_loaded _⟩
  | registering phase st session tcp polled going =>
    obtain ⟨hx, hmade⟩ := session_polled h.exchanging polled
    have hstage : Stage { s with session := session, tcp := tcp } := by
      rcases h.registering phase with ⟨hs, hlinked⟩ | hs
      · rcases registering_polled hs h.exchanging hlinked polled with ⟨hs', -, hl'⟩ | ⟨hs', -⟩ | ⟨-, hok, -⟩
        · exact .registering phase hs' hl'
        · exact .rejected phase hs'
        · exact absurd hok going.1
      · rw [poll_failed hs] at polled
        obtain rfl := (Prod.mk.inj (Prod.mk.inj polled).2).1
        exact .rejected phase hs
    exact h.moved hstage (by simp [phase]) (by simp [phase]) hmade rfl rfl hx
  | rejected phase st session tcp polled =>
    obtain ⟨-, hmade⟩ := session_polled h.exchanging polled
    exact sound_dropped h (by simp [phase]) s.found hmade (sessionless_abort session)
      fun hx => absurd hx (exchanging_abort session)
  | registered phase session tcp polled =>
    obtain ⟨hx, hmade⟩ := session_polled h.exchanging polled
    have hopened : session.state = .registered ∧ tcp.Usable := by
      rcases h.registering phase with ⟨hs, hlinked⟩ | hs
      · rcases registering_polled hs h.exchanging hlinked polled with ⟨-, hno, -⟩ | ⟨-, hno, -⟩ | ⟨hs', -, hu⟩
        · exact absurd rfl hno
        · exact absurd rfl hno
        · exact ⟨hs', hu⟩
      · rw [poll_failed hs] at polled
        cases polled
    exact h.moved (.querying rfl hopened.1 rfl (Nat.zero_le _) hopened.2) (by simp [phase]) nofun hmade rfl rfl hx
  | asks phase idle =>
    obtain ⟨hsession, hindex, hu⟩ := h.querying phase
    exact (startQuery_cases h phase hsession idle hindex (hu idle) (os.millis 0)).1
  | asking phase started st s₁ polled going =>
    obtain ⟨hq, hstarted⟩ := pollQuery_queried polled
    have ha := asked_polled h phase started polled
    obtain ⟨k, hmade⟩ := ha.made
    have hphase : s'.phase = .query := hq.phase.trans phase
    have hsized : s'.msg.txLen ≤ 296 := by
      rw [ha.sized]
      exact h.sized
    refine ⟨ha.pending going, fun hw => ?_, owning_made h.owning hmade, ha.framed, hsized, ?_, fun hnot => ?_,
      fun hnot => ?_⟩
    · rw [hphase] at hw
      cases hw
    · rw [show s'.session = s.session from hq.session]
      exact h.exchanging
    · exact absurd ⟨hphase, hstarted.trans started⟩ hnot
    · have hlt : s.queryIndex < kIdentityAttrCount := by
        have hle := (h.querying phase).2.1
        have hne : s.queryIndex ≠ kIdentityAttrCount := fun e =>
          hnot ⟨hphase, hstarted.trans started, hq.queryIndex.trans e⟩
        omega
      rw [ha.rest hlt]
      exact h.rest fun hmode => by omega
  | drops phase started st s₁ polled failed identity =>
    have hq := (pollQuery_queried polled).1
    have ha := asked_polled h phase started polled
    obtain ⟨hfree, hrest⟩ := ha.ended (Or.inr failed)
    obtain ⟨k, hmade⟩ := ha.made
    have howning := owning_made (owning_made h.owning hmade) s₁.tcp.made_close
    have hsized : s₁.msg.txLen ≤ 296 := by
      rw [ha.sized]
      exact h.sized
    exact ⟨.between (Or.inr (Or.inl rfl)) (TcpConnection.close_dropped s₁.tcp).fd (sessionless_abort _),
      nofun, howning, ha.framed, hsized, fun hx => absurd hx (exchanging_abort _), fun _ => hfree, fun _ => hrest⟩
  | answered phase started st s₁ polled ended =>
    have hq := (pollQuery_queried polled).1
    exact sound_answered h phase (asked_polled h phase started polled) hq ended
  | closing phase st session tcp polled going =>
    obtain ⟨hx, hmade⟩ := session_polled h.exchanging polled
    rcases closing_polled (h.closing phase) h.exchanging polled with hs' | ⟨-, hok⟩
    · exact h.moved (.closing phase hs') (by simp [phase]) (by simp [phase]) hmade rfl rfl hx
    · exact absurd hok going.1
  | closed phase st session session' tcp polled ended rest =>
    obtain ⟨hx, hmade⟩ := session_polled h.exchanging polled
    rcases rest with ⟨rfl, -⟩ | rfl
    · refine sound_dropped h (by simp [phase]) (s.found + 1) hmade ?_ hx
      rcases closing_polled (h.closing phase) h.exchanging polled with (hs' | hs') | ⟨hs', -⟩ <;>
        exact ⟨by simp [hs'], by simp [hs']⟩
    · exact sound_dropped h (by simp [phase]) (s.found + 1) hmade (sessionless_abort session)
        fun hx => absurd hx (exchanging_abort session)

theorem sound_step (lan : Lan) (h : Sound s) (a : Act) : Sound (step lan s a) := by
  cases a with
  | deliver bs =>
    have hstage : Stage (step lan s (.deliver bs)) := by
      cases h.stage with
      | between phase fd session => exact .between phase fd session
      | connecting phase session => exact .connecting phase session
      | registering phase session linked => exact .registering phase session linked
      | rejected phase session => exact .rejected phase session
      | querying phase session idle index tcp => exact .querying phase session idle index tcp
      | identity phase session started index msg => exact .identity phase session started index msg
      | mode phase session started index tag => exact .mode phase session started index tag
      | closing phase session => exact .closing phase session
    exact ⟨hstage, h.started, owning_made h.owning (s.tcp.made_deliver bs), h.framed, h.sized, h.exchanging,
      h.free, h.rest⟩
  | loop os => exact sound_loop h (loop_cases lan os s)

theorem sound_setup (began configured : Bool) : Sound (setup {} began configured) := by
  have hphase : (setup {} began configured).phase = .waitEthernet ∧ (setup {} began configured).eth.started = true ∨
      (setup {} began configured).phase = .done := by
    revert began configured
    decide
  have hmsg : ¬ ({} : ExplicitMessage).InFlight := by decide
  have htag : ¬ ({ data := .zero } : Tag).InFlight := by decide
  have hsession : ¬ ({} : Session).Exchanging := by decide
  refine ⟨.between ?_ (show (-1 : Int) < 0 by decide) ⟨nofun, nofun⟩, fun hw => ?_, ⟨trivial, rfl⟩,
    fun hin => absurd hin hmsg, Nat.zero_le _, fun hx => absurd hx hsession, fun _ => hmsg, fun _ => htag⟩
  · rcases hphase with ⟨hp, -⟩ | hp
    · exact Or.inl hp
    · exact Or.inr (Or.inr hp)
  · rcases hphase with ⟨-, hstarted⟩ | hdone
    · exact hstarted
    · rw [hdone] at hw
      cases hw

/-- Whatever the network, the devices and the clock do, the sketch holds at most one descriptor, it closes each once
and does not use it after that.  While it waits for Ethernet, between two devices and when it is done it holds none,
no message and no tag is in flight, and no session is open or being opened. -/
theorem inventory_sockets (lan : Lan) (began configured : Bool) (as : List Act) :
    (reached lan began configured as).tcp.held.length ≤ 1 ∧
      (reached lan began configured as).tcp.ClosedOnce ∧ (reached lan began configured as).tcp.UnusedAfterClose ∧
      ((reached lan began configured as).phase = .waitEthernet ∨ (reached lan began configured as).phase = .scan ∨
          (reached lan began configured as).phase = .done →
        (reached lan began configured as).tcp.held = [] ∧ ¬ (reached lan began configured as).msg.InFlight ∧
          ¬ (reached lan began configured as).tag.InFlight ∧
          Sessionless (reached lan began configured as).session) := by
  have h : Sound (reached lan began configured as) :=
    reached_invariant sound_setup (fun _ a h => sound_step lan h a) began configured as
  generalize reached lan began configured as = s at h ⊢
  have hheld := h.owning.held
  refine ⟨?_, h.owning.closedOnce, h.owning.unusedAfterClose, fun hp => ?_⟩
  · rw [hheld, TcpConnection.own]
    split <;> simp
  · obtain ⟨hfd, hsession⟩ := h.at_rest hp
    have hquery : s.phase ≠ .query := by
      rcases hp with hp | hp | hp <;> simp [hp]
    refine ⟨?_, h.free fun hq => hquery hq.1, h.rest fun hq => hquery hq.1, hsession⟩
    rw [hheld, TcpConnection.own, if_neg (by omega)]

theorem inventory_sockets_refused :
    (reached smallLan true true refusals).tcp.held = [] ∧
      (reached smallLan true true refusals).tcp.calls.count (.close 0) = 4 := by
  have hdone : (reached smallLan true true refusals).phase = .done := by decide +kernel
  refine ⟨((inventory_sockets smallLan true true refusals).2.2.2 (Or.inr (Or.inr hdone))).1, ?_⟩
  decide +kernel

end LanInventory

end ControlLogix
