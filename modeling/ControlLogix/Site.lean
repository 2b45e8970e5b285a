import ControlLogix.Conversation
import ControlLogix.Polling
import ControlLogix.Server

/-!
# The facade and the synthetic server

A `Site` is a client, the bytes that are on the way between it and the server, and the server.  A sketch without
callbacks calls the client, and moves go on around it: whole calls of `poll()`, requests that the server takes, and
bytes that arrive.

* `sound_play`: the client of a site is that of a reachable world;
* `moves_converse`: while `poll()` does nothing but advance one machine, the site runs the exchange of the machine.
-/

namespace ControlLogix

open Transition

variable {n : Nat}

/-! ### The connection stays the same -/

private theorem read_sockets (t : TcpConnection) (length : Nat) (a : RecvAnswer) :
    (t.read length a).2.sockets = t.sockets := by
  obtain ⟨r, t', hread⟩ : ∃ r t', t.read length a = (r, t') := ⟨_, _, rfl⟩
  rw [hread]
  cases r with
  | ok bs => exact (TcpConnection.read_ok hread).1.sockets
  | error st => exact (TcpConnection.read_error hread).1.sockets

theorem Buffers.readResponse_sockets (cap : Nat) (b : Buffers) (conn : TcpConnection) (as : List RecvAnswer) :
    (b.readResponse cap conn as).2.2.sockets = conn.sockets := by
  induction as generalizing b conn with
  | nil =>
    unfold Buffers.readResponse
    split
    · have hread := read_sockets conn (b.rxExpected - b.rxLen) (.failed .ewouldblock)
      split <;> rename_i heq <;> rw [heq] at hread <;> exact hread
    · rfl
  | cons a as ih =>
    unfold Buffers.readResponse
    split
    · have hread := read_sockets conn (b.rxExpected - b.rxLen) a
      split
      · rename_i heq
        rw [heq] at hread
        exact hread
      · rename_i c cs conn' heq
        rw [heq] at hread
        dsimp only
        split
        · split
          · exact hread
          · exact (ih _ conn').trans hread
        · exact (ih _ conn').trans hread
      · rename_i heq
        rw [heq] at hread
        exact hread
    · rfl

theorem Session.poll_sockets {s s' : Session} {conn conn' : TcpConnection}
    {now : UInt32} {os : Platform} {st : Status} (h : s.poll conn now os = (st, s', conn')) :
    conn'.sockets = conn.sockets := by
  have hexchange : ∀ finish, (Session.pollExchange finish s conn now os).2.2.sockets = conn.sockets := by
    intro finish
    unfold Session.pollExchange
    split
    · rfl
    · obtain ⟨st, b, conn₁, hw⟩ : ∃ st b conn₁, s.toBuffers.writePending conn os.sends = (st, b, conn₁) :=
        ⟨_, _, _, rfl⟩
      have hwrite := (Buffers.writePending_spec hw).transfer.sockets
      have hread := Buffers.readResponse_sockets Session.kMaxBodySize b conn₁ os.recvs
      rw [hw]
      cases st with
      | ok =>
        dsimp only
        split <;> rename_i heq <;> rw [heq] at hread <;> exact hread.trans hwrite
      | _ => exact hwrite
  have hkept : (s.poll conn now os).2.2.sockets = conn.sockets := by
    unfold Session.poll
    split <;> first | exact hexchange _ | rfl
  rwa [h] at hkept

private theorem advance_sockets (m : ExplicitMessage) (conn : TcpConnection) (os : Platform) :
    (m.advance conn os).2.2.sockets = conn.sockets := by
  unfold ExplicitMessage.advance
  split
  · rfl
  · obtain ⟨st, b, conn₁, hw⟩ : ∃ st b conn₁, m.toBuffers.writePending conn os.sends = (st, b, conn₁) :=
      ⟨_, _, _, rfl⟩
    have hwrite := (Buffers.writePending_spec hw).transfer.sockets
    have hread := Buffers.readResponse_sockets (16 + ExplicitMessage.kMaxCipData) b conn₁ os.recvs
    rw [hw]
    cases st with
    | ok =>
      dsimp only
      split <;> rename_i heq <;> rw [heq] at hread
      · exact hread.trans hwrite
      · split <;> exact hread.trans hwrite
      · exact hread.trans hwrite
    | _ => exact hwrite

theorem ExplicitMessage.poll_sockets {m m' : ExplicitMessage} {conn conn' : TcpConnection}
    {os : Platform} {st : Status} (h : m.poll conn os = (st, m', conn')) : conn'.sockets = conn.sockets := by
  by_cases hin : m.InFlight
  · rw [ExplicitMessage.poll_inFlight hin] at h
    have hkept := advance_sockets m conn os
    rwa [h] at hkept
  · rw [ExplicitMessage.poll_rest hin, Prod.mk.injEq, Prod.mk.injEq] at h
    rw [h.2.2]

theorem Tag.poll_sockets {t t' : Tag} {m m' : ExplicitMessage} {conn conn' : TcpConnection}
    {os : Platform} {st : Status} (h : t.poll m conn os = (st, t', m', conn')) : conn'.sockets = conn.sockets := by
  by_cases hin : t.InFlight
  · obtain ⟨_, hm, -⟩ := Tag.poll_inFlight hin h
    exact ExplicitMessage.poll_sockets hm
  · rw [Tag.poll_rest hin, Prod.mk.injEq, Prod.mk.injEq, Prod.mk.injEq] at h
    rw [h.2.2.2]

/-! ### Sites -/

structure Site (n : Nat) where
  plc : PlcClient n
  /-- How many of the bytes sent over the TCP connection the server has taken. -/
  handled : Nat := 0
  /-- The bytes of the server that have not arrived. -/
  wire : List UInt8 := []
  server : SyntheticServer := {}

namespace Site

def link (s : Site n) : Link where
  conn := s.plc.tcp
  handled := s.handled
  wire := s.wire

def withLink (s : Site n) (l : Link) : Site n :=
  { s with plc := { s.plc with tcp := l.conn }, handled := l.handled, wire := l.wire }

/-- The client after a call.  Nothing is on the way on a TCP connection that the call has made. -/
def attach (s : Site n) (p : PlcClient n) : Site n :=
  if p.tcp.sockets = s.plc.tcp.sockets then { s with plc := p } else { s with plc := p, handled := 0, wire := [] }

def call (s : Site n) (op : Op) : Site n := s.attach (s.plc.call op).2

def move (s : Site n) : Move → Site n
  | .poll os => s.attach (s.plc.poll os).2
  | .serve =>
    match s.link.request with
    | none => s
    | some f => { s.withLink (s.link.answer f (s.server.handle f).2) with server := (s.server.handle f).1 }
  | .deliver k => s.withLink (s.link.deliver k)

def moves (s : Site n) (ms : List Move) : Site n := ms.foldl move s

theorem moves_cons (s : Site n) (m : Move) (ms : List Move) : s.moves (m :: ms) = (s.move m).moves ms := rfl

theorem moves_append (s : Site n) (ms ns : List Move) : s.moves (ms ++ ns) = (s.moves ms).moves ns :=
  List.foldl_append

/-- What the sketch and everything around it do. -/
inductive Input (n : Nat) where
  | call (op : Op)
  | move (m : Move)

def play (s : Site n) : List (Input n) → Site n
  | [] => s
  | .call op :: es => (s.call op).play es
  | .move m :: es => (s.move m).play es

theorem attach_plc (s : Site n) (p : PlcClient n) : (s.attach p).plc = p := by
  unfold attach
  split <;> rfl

theorem attach_same {s : Site n} {p : PlcClient n} (h : p.tcp.sockets = s.plc.tcp.sockets) :
    s.attach p = { s with plc := p } := if_pos h

/-! ### The world of the client -/

/-- The client is that of a world that some sketch reaches, between two calls. -/
def Sound (s : Site n) : Prop := ∃ w : World n, w.Reachable ∧ w.plc = s.plc ∧ w.polls = []

theorem Sound.step {s : Site n} (h : s.Sound) {p : PlcClient n}
    (hstep : ∀ w : World n, w.polls = [] → w.plc = s.plc →
      ∃ as w', Run World.step always w as w' ∧ w'.plc = p ∧ w'.polls = w.polls) :
    ∃ w : World n, w.Reachable ∧ w.plc = p ∧ w.polls = [] := by
  obtain ⟨w, ⟨w₀, as, hinitial, hrun⟩, hplc, hpolls⟩ := h
  obtain ⟨bs, w', hrun', hplc', hpolls'⟩ := hstep w hpolls hplc
  exact ⟨w', ⟨w₀, as ++ bs, hinitial, hrun.trans hrun'⟩, hplc', hpolls'.trans hpolls⟩

private theorem idle_of_polls {w : World n} (h : w.polls = []) : w.Idle := by
  unfold World.Idle
  rw [h]
  trivial

theorem sound_call {s : Site n} (h : s.Sound) (op : Op) : (s.call op).Sound := by
  unfold Sound
  rw [call, attach_plc]
  refine h.step fun w hpolls hplc => ⟨[.call op], w.call op, ?_, ?_, rfl⟩
  · refine .cons trivial ?_ (.nil _)
    rw [World.step, if_pos (idle_of_polls hpolls)]
  · rw [World.call, hplc]

theorem sound_deliver {s : Site n} (h : s.Sound) (bs : List UInt8) {p : PlcClient n}
    (hp : p = { s.plc with tcp := s.plc.tcp.deliver bs }) : ∃ w :
    World n, w.Reachable ∧ w.plc = p ∧ w.polls = [] := by
  refine h.step fun w hpolls hplc => ⟨[.deliver bs], _, .cons trivial rfl (.nil _), ?_, rfl⟩
  rw [hp, ← hplc]

theorem sound_move {s : Site n} (h : s.Sound) (m : Move) : (s.move m).Sound := by
  cases m with
  | poll os =>
    unfold Sound
    rw [move, attach_plc]
    refine h.step fun w hpolls hplc => ?_
    have hidle := idle_of_polls hpolls
    rw [← hplc]
    by_cases hready : w.plc.state = .ready
    · obtain ⟨w', hrun, hw'⟩ := World.run_wholePoll hidle hready os
      exact ⟨_, w', hrun, hw'⟩
    · obtain ⟨w', hstep, hw'⟩ := World.step_wholePoll hidle hready os
      exact ⟨_, w', .cons trivial hstep (.nil w'), hw'⟩
  | serve =>
    rw [move]
    split
    · exact h
    · exact h
  | deliver k => exact sound_deliver h (s.wire.take k) rfl

/-- Whatever is proved of the reachable worlds holds of the client of a site. -/
theorem sound_play {s : Site n} (h : s.Sound) (es : List (Input n)) : (s.play es).Sound := by
  induction es generalizing s with
  | nil => exact h
  | cons e es ih =>
    cases e with
    | call op => exact ih (sound_call h op)
    | move m => exact ih (sound_move h m)

/-! ### Running the exchange of a machine -/

end Site

def Move.map (g : Platform → Platform) : Move → Move
  | .poll os => .poll (g os)
  | .serve => .serve
  | .deliver k => .deliver k

theorem Move.map_id (ms : List Move) : ms.map (Move.map id) = ms := by
  have hmap : ∀ m : Move, m.map id = m := by
    intro m
    cases m <;> rfl
  rw [funext hmap]
  exact List.map_id _

namespace Site

/-- While `R` holds, a call of `poll()` on a platform that is `fine` is a call of `poll` on the platform that `g`
makes of it. -/
structure Follows {σ : Type} (poll : σ → TcpConnection → Platform → Status × σ × TcpConnection)
    (g : Platform → Platform) (fine : Platform → Prop) (R : σ → PlcClient n → Prop) : Prop where
  conn : ∀ {x p} (conn : TcpConnection), R x p → R x { p with tcp := conn }
  pending : ∀ {x p os x' conn'}, R x p → fine os → poll x p.tcp (g os) = (.pending, x', conn') →
    R x' (p.poll os).2 ∧ (p.poll os).2.tcp = conn' ∧ conn'.sockets = p.tcp.sockets

section Follows

variable {σ : Type} {poll : σ → TcpConnection → Platform → Status × σ × TcpConnection} {g : Platform → Platform}
  {fine : Platform → Prop} {R : σ → PlcClient n → Prop}

/-- How the exchange of the machine stands after the moves. -/
inductive Followed (poll : σ → TcpConnection → Platform → Status × σ × TcpConnection) (g : Platform → Platform)
    (R : σ → PlcClient n → Prop) (s : Site n) (ms : List Move) (x' : σ) (l' : Link) (v' : SyntheticServer) :
    Status → Prop where
  | goesOn (holds : R x' (s.moves ms).plc) (link : (s.moves ms).link = l') (server : (s.moves ms).server = v') :
      Followed poll g R s ms x' l' v' .pending
  | ended {st : Status} (status : st ≠ .pending) {used rest : List Move} {os : Platform} {x : σ}
      (split : ms = used ++ .poll os :: rest) (holds : R x (s.moves used).plc)
      (polled : poll x (s.moves used).plc.tcp (g os) = (st, x', l'.conn))
      (link : l' = { (s.moves used).link with conn := l'.conn }) (server : (s.moves used).server = v') :
      Followed poll g R s ms x' l' v' st

theorem Followed.cons {s s₁ : Site n} {m : Move} {ms : List Move} {x' : σ} {l' : Link} {v' : SyntheticServer}
    {st : Status} (hm : s.move m = s₁) (h : Followed poll g R s₁ ms x' l' v' st) :
    Followed poll g R s (m :: ms) x' l' v' st := by
  subst hm
  cases h with
  | goesOn holds link server => exact .goesOn holds link server
  | @ended st status used rest os x split holds polled link server =>
    have hsplit : m :: ms = (m :: used) ++ .poll os :: rest := by rw [split, List.cons_append]
    exact .ended status hsplit holds polled link server

theorem moves_converse (hf : Follows poll g fine R) {x x' : σ} {s : Site n} {ms : List Move} {st : Status} {l' : Link}
    {v' : SyntheticServer} (h : R x s.plc) (hms : ∀ os, Move.poll os ∈ ms → fine os)
    (hc : Link.converse poll SyntheticServer.handle x s.link s.server (ms.map (Move.map g)) = (st, x', l', v')) :
    Followed poll g R s ms x' l' v' st := by
  induction ms generalizing x s with
  | nil =>
    rw [List.map_nil, Link.converse] at hc
    simp only [Prod.mk.injEq] at hc
    obtain ⟨rfl, rfl, rfl, rfl⟩ := hc
    exact .goesOn h rfl rfl
  | cons m ms ih =>
    have htail : ∀ os, Move.poll os ∈ ms → fine os := fun os hos => hms os (List.mem_cons_of_mem m hos)
    rw [List.map_cons] at hc
    cases m with
    | poll os =>
      rw [Move.map] at hc
      obtain ⟨st₁, x₁, conn₁, hp⟩ : ∃ st x₁ conn₁, poll x s.link.conn (g os) = (st, x₁, conn₁) := ⟨_, _, _, rfl⟩
      by_cases hst : st₁ = .pending
      · subst hst
        obtain ⟨hr, htcp, hsockets⟩ := hf.pending h (hms os List.mem_cons_self) hp
        have hmove : s.move (.poll os) = { s with plc := (s.plc.poll os).2 } :=
          attach_same (by rw [htcp, hsockets])
        rw [Link.converse_pending _ _ hp] at hc
        refine Followed.cons hmove (@ih x₁ { s with plc := (s.plc.poll os).2 } hr htail ?_)
        rw [← hc]
        change Link.converse poll _ x₁ { conn := (s.plc.poll os).2.tcp, handled := s.handled, wire := s.wire } _ _ = _
        rw [htcp]
        rfl
      · rw [Link.converse_ended _ _ hp hst, Prod.mk.injEq, Prod.mk.injEq, Prod.mk.injEq] at hc
        obtain ⟨rfl, rfl, rfl, rfl⟩ := hc
        have hsplit : Move.poll os :: ms = [] ++ .poll os :: ms := rfl
        exact .ended hst hsplit h hp rfl rfl
    | serve =>
      rw [Move.map, Link.converse] at hc
      cases hreq : s.link.request with
      | none =>
        rw [hreq] at hc
        exact Followed.cons (by rw [move, hreq]) (ih h htail hc)
      | some f =>
        rw [hreq] at hc
        have hmove : s.move .serve =
            { s.withLink (s.link.answer f (s.server.handle f).2) with server := (s.server.handle f).1 } := by
          rw [move, hreq]
        exact Followed.cons hmove (ih (hf.conn (s.link.answer f (s.server.handle f).2).conn h) htail hc)
    | deliver k =>
      rw [Move.map, Link.converse] at hc
      have hmove : s.move (.deliver k) = s.withLink (s.link.deliver k) := rfl
      exact Followed.cons hmove (ih (hf.conn (s.link.deliver k).conn h) htail hc)

end Follows

/-! ### Nothing on the way -/

/-- Moves of the server and of the network do nothing when nothing is on the way. -/
theorem move_quiet {s : Site n} (h : s.link.Quiet) {m : Move} (hm : ∀ os, m ≠ .poll os) : s.move m = s := by
  cases m with
  | poll os => exact absurd rfl (hm os)
  | serve => rw [move, h.request]
  | deliver k =>
    obtain ⟨plc, handled, wire, server⟩ := s
    have hwire : wire = [] := h.wire
    subst hwire
    rw [move]
    simp [withLink, Site.link, Link.deliver, TcpConnection.deliver]

end Site

end ControlLogix
