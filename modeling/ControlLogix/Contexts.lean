import ControlLogix.Connection
import ControlLogix.Replies
import ControlLogix.Requests
import ControlLogix.Transition
import Mathlib.Data.List.Pairwise
import Mathlib.Logic.Function.Basic

/-!
# Sender contexts

A `Shared` is a TCP connection with any number of `ExplicitMessage` and `Connection` objects that use it, one exchange
at a time.  Every `ExplicitMessage`, alone or in a `Connection`, counts its own contexts from 1.

* `Unique`: the SendRRData requests written have different contexts, so that the reply to one is not taken for the
  reply to another;
* `unique_iff`: that is so exactly when no two of them have the same number among the requests of their objects;
* `not_unique`: the first requests of two objects have the same context.
-/

namespace ControlLogix

open Transition
open Buffers (Framed)
open ExplicitMessage (parse)

/-- The objects that use the connection. -/
inductive Party where
  | message (i : Nat)
  | connection (j : Nat)
  deriving DecidableEq, Repr

/-- A request of which bytes have been written: the object it belongs to, how many requests of that object were
accepted before, and its frame. -/
structure Written where
  party : Party
  serial : Nat
  frame : List UInt8
  deriving DecidableEq, Repr

def Written.context (w : Written) : UInt64 := (decodeHeader w.frame).context

structure Shared where
  conn : TcpConnection
  messages : Nat → ExplicitMessage
  connections : Nat → Connection
  /-- The number of accepted requests of an object. -/
  sends : Party → Nat := fun _ => 0
  /-- The object whose exchange was started last. -/
  active : Option Party := none
  written : List Written := []

namespace Shared

/-- The `ExplicitMessage` of an object. -/
def msg (d : Shared) : Party → ExplicitMessage
  | .message i => d.messages i
  | .connection j => (d.connections j).fwd

def Going (d : Shared) : Party → Prop
  | .message i => (d.messages i).InFlight
  | .connection j => (d.connections j).InFlight

instance decidableGoing (d : Shared) : (p : Party) → Decidable (d.Going p)
  | .message i => inferInstanceAs (Decidable (d.messages i).InFlight)
  | .connection j => inferInstanceAs (Decidable (d.connections j).InFlight)

/-- No exchange is going on. -/
def Free (d : Shared) : Prop := ∀ p ∈ d.active, ¬ d.Going p

instance decidableFree (d : Shared) : Decidable d.Free := inferInstanceAs (Decidable (∀ p ∈ d.active, ¬ d.Going p))

inductive Act where
  | send (i : Nat) (sessionHandle : UInt32) (service : UInt8) (path : Option (List UInt8)) (pathLen : Nat)
      (data : Option (List UInt8)) (dataLen : Nat) (timeoutMs now : UInt32)
  | abort (i : Nat)
  | poll (i : Nat) (os : Platform)
  | open (j : Nat) (sessionHandle : UInt32) (tagName : Option (List UInt8)) (timeoutMs now random : UInt32)
  | close (j : Nat) (sessionHandle timeoutMs now : UInt32)
  | sendConnected (j : Nat) (sessionHandle : UInt32) (service : UInt8) (path : Option (List UInt8)) (pathLen : Nat)
      (data : Option (List UInt8)) (dataLen : Nat) (timeoutMs now : UInt32)
  | pollConnection (j : Nat) (os : Platform)

/-- A call that starts a request of `p` has returned `st`. -/
def begin (d : Shared) (p : Party) (st : Status) : Shared :=
  if st = .pending then { d with sends := Function.update d.sends p (d.sends p + 1), active := some p } else d

/-- A call of `poll()` on `p` has led from `d` to `d'`, and perhaps written the first bytes of a request. -/
def note (d d' : Shared) (p : Party) : Shared :=
  if (d.msg p).txSent = 0 ∧ 0 < (d'.msg p).txSent then
    { d' with written := d'.written ++ [⟨p, d.sends p - 1, (d.msg p).tx⟩] }
  else d'

/-- An exchange is started only when none is going on. -/
def step (d : Shared) : Act → Option Shared
  | .send i sessionHandle service path pathLen data dataLen timeoutMs now =>
    if d.Free then
      let (st, m) := (d.messages i).send d.conn sessionHandle service path pathLen data dataLen timeoutMs now
      some (begin { d with messages := Function.update d.messages i m } (.message i) st)
    else none
  | .abort i => some { d with messages := Function.update d.messages i (d.messages i).abort }
  | .poll i os =>
    let (_, m, conn) := (d.messages i).poll d.conn os
    some (note d { d with messages := Function.update d.messages i m, conn := conn } (.message i))
  | .open j sessionHandle tagName timeoutMs now random =>
    if d.Free then
      let (st, c) := (d.connections j).open d.conn sessionHandle tagName timeoutMs now random
      some (begin { d with connections := Function.update d.connections j c } (.connection j) st)
    else none
  | .close j sessionHandle timeoutMs now =>
    if d.Free then
      let (st, c) := (d.connections j).close d.conn sessionHandle timeoutMs now
      some (begin { d with connections := Function.update d.connections j c } (.connection j) st)
    else none
  | .sendConnected j sessionHandle service path pathLen data dataLen timeoutMs now =>
    if d.Free then
      let (st, c) := (d.connections j).send sessionHandle service path pathLen data dataLen timeoutMs now
      some { d with connections := Function.update d.connections j c
                    active := if st = .pending then some (.connection j) else d.active }
    else none
  | .pollConnection j os =>
    let (_, c, conn) := (d.connections j).poll d.conn os
    some (note d { d with connections := Function.update d.connections j c, conn := conn } (.connection j))

/-- Objects as their constructors leave them. -/
structure Initial (d : Shared) : Prop where
  messages : ∀ i, d.messages i = { tx := (d.messages i).tx, rx := (d.messages i).rx }
  connections : ∀ j, (d.connections j).fwd = { tx := (d.connections j).fwd.tx, rx := (d.connections j).fwd.rx }
  sends : ∀ p, d.sends p = 0
  written : d.written = []

/-- The requests written have different contexts, and an exchange whose request has been written does not accept the
whole reply to another request. -/
structure Unique (d : Shared) : Prop where
  distinct : d.written.Pairwise fun v w => v.context ≠ w.context
  late : ∀ p, (d.msg p).InFlight → 0 < (d.msg p).txSent → ∀ w ∈ d.written,
    ¬ (w.party = p ∧ w.serial + 1 = d.sends p) → ∀ r : Reply, r.context = w.context → ∀ rest,
      parse (r.frame ++ rest) r.frame.length (d.msg p).sentContext = none

/-! ### What a step does to the messages -/

/-- `m'` is `m` after an accepted call of `send()`. -/
def Sends (m : ExplicitMessage) (conn : TcpConnection) (m' : ExplicitMessage) : Prop :=
  ∃ sessionHandle service path pathLen data dataLen timeoutMs now,
    ExplicitMessage.Sent m conn sessionHandle service path pathLen data dataLen timeoutMs now m'

/-- What a step does to the message of the object `p`, when it leaves the others as they are. -/
inductive Changed (d d' : Shared) (p : Party) : Prop where
  | kept (msg : d'.msg p = d.msg p) (sends : d'.sends = d.sends) (written : d'.written = d.written)
  | dropped (msg : d'.msg p = (d.msg p).abort) (sends : d'.sends = d.sends) (written : d'.written = d.written)
  | started (sent : Sends (d.msg p) d.conn (d'.msg p)) (sends : d'.sends = Function.update d.sends p (d.sends p + 1))
      (written : d'.written = d.written)
  | polled {os : Platform} {st : Status} {conn : TcpConnection}
      (polled : (d.msg p).poll d.conn os = (st, d'.msg p, conn)) (sends : d'.sends = d.sends)
      (written : d'.written = if (d.msg p).txSent = 0 ∧ 0 < (d'.msg p).txSent then
        d.written ++ [⟨p, d.sends p - 1, (d.msg p).tx⟩] else d.written)

variable {d d' : Shared}

private theorem msg_message (d d' : Shared) {i : Nat} {m : ExplicitMessage}
    (hm : d'.messages = Function.update d.messages i m)
    (hc : d'.connections = d.connections) :
    d'.msg (.message i) = m ∧ ∀ q, q ≠ .message i → d'.msg q = d.msg q := by
  constructor
  · rw [msg, hm, Function.update_self]
  · intro q hq
    cases q with
    | message k =>
      have hk : k ≠ i := fun h => hq (by rw [h])
      rw [msg, hm, Function.update_of_ne hk, msg]
    | connection j => rw [msg, hc, msg]

private theorem msg_connection (d d' : Shared) {j : Nat} {c : Connection}
    (hc : d'.connections = Function.update d.connections j c)
    (hm : d'.messages = d.messages) :
    d'.msg (.connection j) = c.fwd ∧ ∀ q, q ≠ .connection j → d'.msg q = d.msg q := by
  constructor
  · rw [msg, hc, Function.update_self]
  · intro q hq
    cases q with
    | message i => rw [msg, hm, msg]
    | connection k =>
      have hk : k ≠ j := fun h => hq (by rw [h])
      rw [msg, hc, Function.update_of_ne hk, msg]

private theorem begin_fields (d : Shared) (p : Party) (st : Status) :
    (d.begin p st).messages = d.messages ∧ (d.begin p st).connections = d.connections ∧
      (d.begin p st).written = d.written ∧
      (d.begin p st).sends = if st = .pending then Function.update d.sends p (d.sends p + 1) else d.sends := by
  unfold begin
  split
  · exact ⟨rfl, rfl, rfl, rfl⟩
  · exact ⟨rfl, rfl, rfl, rfl⟩

private theorem note_fields (d d' : Shared) (p : Party) :
    (note d d' p).messages = d'.messages ∧ (note d d' p).connections = d'.connections ∧
      (note d d' p).sends = d'.sends ∧
      (note d d' p).written = if (d.msg p).txSent = 0 ∧ 0 < (d'.msg p).txSent then
        d'.written ++ [⟨p, d.sends p - 1, (d.msg p).tx⟩] else d'.written := by
  unfold note
  split
  · exact ⟨rfl, rfl, rfl, rfl⟩
  · exact ⟨rfl, rfl, rfl, rfl⟩

/-- A call that starts a request of `p`, or is refused. -/
private theorem changed_begin {d₁ : Shared} {p : Party} {st : Status} (hmsg : d₁.msg p = (d₁.begin p st).msg p)
    (hothers : ∀ q, q ≠ p → d₁.msg q = d.msg q) (hwritten : d₁.written = d.written) (hsends : d₁.sends = d.sends)
    (hcall : (st = .pending ∧ Sends (d.msg p) d.conn (d₁.msg p)) ∨ (st ≠ .pending ∧ d₁.msg p = d.msg p)) :
    (∀ q, q ≠ p → (d₁.begin p st).msg q = d.msg q) ∧ Changed d (d₁.begin p st) p := by
  obtain ⟨hm, hc, hw, hs⟩ := begin_fields d₁ p st
  have hsame : ∀ q, (d₁.begin p st).msg q = d₁.msg q := by
    intro q
    cases q with
    | message i => rw [msg, hm, msg]
    | connection j => rw [msg, hc, msg]
  refine ⟨fun q hq => (hsame q).trans (hothers q hq), ?_⟩
  rcases hcall with ⟨rfl, hsent⟩ | ⟨hne, hkept⟩
  · rw [if_pos rfl] at hs
    rw [hmsg] at hsent
    refine .started hsent ?_ (hw.trans hwritten)
    rw [hs, hsends]
  · rw [if_neg hne] at hs
    exact .kept ((hsame p).trans hkept) (hs.trans hsends) (hw.trans hwritten)

/-- A call of `poll()` that polls the message of `p`, or leaves it alone. -/
private theorem changed_note {d₁ : Shared} {p : Party} (os : Platform)
    (hothers : ∀ q, q ≠ p → d₁.msg q = d.msg q) (hwritten : d₁.written = d.written) (hsends : d₁.sends = d.sends)
    (hcall : (∃ st conn, (d.msg p).poll d.conn os = (st, d₁.msg p, conn)) ∨ d₁.msg p = d.msg p) :
    (∀ q, q ≠ p → (note d d₁ p).msg q = d.msg q) ∧ Changed d (note d d₁ p) p := by
  obtain ⟨hm, hc, hs, hw⟩ := note_fields d d₁ p
  have hsame : ∀ q, (note d d₁ p).msg q = d₁.msg q := by
    intro q
    cases q with
    | message i => rw [msg, hm, msg]
    | connection j => rw [msg, hc, msg]
  refine ⟨fun q hq => (hsame q).trans (hothers q hq), ?_⟩
  rcases hcall with ⟨st, conn, hp⟩ | hkept
  · have hpolled : (d.msg p).poll d.conn os = (st, (note d d₁ p).msg p, conn) := by
      rw [hsame]
      exact hp
    refine .polled hpolled (hs.trans hsends) ?_
    rw [hsame, hw, hwritten]
  · refine .kept ((hsame p).trans hkept) (hs.trans hsends) ?_
    rw [hw, hkept, if_neg (by omega)]
    exact hwritten

private theorem forward_sent {c c₁ c' : Connection} {conn : TcpConnection} {sessionHandle timeoutMs now : UInt32}
    {service : UInt8} {data : List UInt8} {next : Connection.State} {st : Status} (hfwd : c₁.fwd = c.fwd)
    (h : c₁.forward conn sessionHandle service data timeoutMs now next = (st, c')) :
    (st = .pending ∧ Sends c.fwd conn c'.fwd) ∨ (st ≠ .pending ∧ c'.fwd = c.fwd) := by
  rcases Connection.forward_cases h with ⟨rfl, hf⟩ | ⟨hne, rfl, -⟩
  · have hsent := ExplicitMessage.send_accepted hf.sent
    rw [hfwd] at hsent
    exact Or.inl ⟨rfl, _, _, _, _, _, _, _, _, hsent⟩
  · exact Or.inr ⟨hne, hfwd⟩

/-- A call that makes `c` of a connection, and starts its request or is refused. -/
private theorem changed_forward {j : Nat} {c : Connection} {st : Status}
    (hcall : (st = .pending ∧ Sends (d.connections j).fwd d.conn c.fwd) ∨
      (st ≠ .pending ∧ c.fwd = (d.connections j).fwd)) :
    (∀ q, q ≠ .connection j →
      ({ d with connections := Function.update d.connections j c }.begin (.connection j) st).msg q = d.msg q) ∧
      Changed d ({ d with connections := Function.update d.connections j c }.begin (.connection j) st)
      (.connection j) := by
  obtain ⟨hself, hothers⟩ := msg_connection d { d with connections := Function.update d.connections j c } rfl rfl
  refine changed_begin ?_ hothers rfl rfl ?_
  · unfold begin
    split <;> rfl
  · rw [hself]
    exact hcall

/-- Every step changes the message of one object. -/
theorem step_changed {a : Act} (hs : step d a = some d') :
    ∃ p, (∀ q, q ≠ p → d'.msg q = d.msg q) ∧ Changed d d' p := by
  cases a with
  | send i sessionHandle service path pathLen data dataLen timeoutMs now =>
    obtain ⟨st, m, hsend⟩ : ∃ st m, (d.messages i).send d.conn sessionHandle service path pathLen data dataLen
      timeoutMs now = (st, m) := ⟨_, _, rfl⟩
    simp only [step, hsend] at hs
    split at hs
    · simp only [Option.some.injEq] at hs
      subst hs
      obtain ⟨hself, hothers⟩ := msg_message d
        { d with messages := Function.update d.messages i m } rfl rfl
      refine ⟨.message i, changed_begin ?_ hothers rfl rfl ?_⟩
      · unfold begin
        split <;> rfl
      · rw [hself]
        rcases ExplicitMessage.send_cases hsend with ⟨rfl, hsent⟩ | ⟨rfl, hst⟩
        · exact Or.inl ⟨rfl, _, _, _, _, _, _, _, _, hsent⟩
        · refine Or.inr ⟨?_, rfl⟩
          rcases hst with ⟨rfl, -⟩ | ⟨rfl, -⟩ | rfl <;> nofun
    · cases hs
  | abort i =>
    simp only [step, Option.some.injEq] at hs
    subst hs
    obtain ⟨hself, hothers⟩ := msg_message d
      { d with messages := Function.update d.messages i (d.messages i).abort } rfl rfl
    exact ⟨.message i, hothers, .dropped hself rfl rfl⟩
  | poll i os =>
    obtain ⟨st, m, conn, hp⟩ : ∃ st m conn, (d.messages i).poll d.conn os = (st, m, conn) := ⟨_, _, _, rfl⟩
    simp only [step, hp, Option.some.injEq] at hs
    subst hs
    obtain ⟨hself, hothers⟩ := msg_message d
      { d with messages := Function.update d.messages i m, conn := conn } rfl rfl
    refine ⟨.message i, changed_note os hothers rfl rfl (Or.inl ⟨st, conn, ?_⟩)⟩
    rw [hself]
    exact hp
  | «open» j sessionHandle tagName timeoutMs now random =>
    obtain ⟨st, c, hopen⟩ : ∃ st c, (d.connections j).open d.conn sessionHandle tagName timeoutMs now random =
      (st, c) :=
      ⟨_, _, rfl⟩
    simp only [step, hopen] at hs
    split at hs
    · simp only [Option.some.injEq] at hs
      subst hs
      refine ⟨.connection j, changed_forward ?_⟩
      rcases Connection.open_cases hopen with ⟨name, -, -, -, hf⟩ | ⟨hst, rfl⟩
      · have hfwd : ((d.connections j).prepared random name).fwd = (d.connections j).fwd := rfl
        exact forward_sent hfwd hf
      · refine Or.inr ⟨?_, rfl⟩
        rcases hst with rfl | ⟨rfl, -⟩ <;> nofun
    · cases hs
  | close j sessionHandle timeoutMs now =>
    obtain ⟨st, c, hclose⟩ : ∃ st c, (d.connections j).close d.conn sessionHandle timeoutMs now = (st, c) :=
      ⟨_, _, rfl⟩
    simp only [step, hclose] at hs
    split at hs
    · simp only [Option.some.injEq] at hs
      subst hs
      refine ⟨.connection j, changed_forward ?_⟩
      rcases Connection.close_cases hclose with ⟨-, hf⟩ | ⟨-, rfl, rfl⟩
      · exact forward_sent rfl hf
      · exact Or.inr ⟨nofun, rfl⟩
    · cases hs
  | sendConnected j sessionHandle service path pathLen data dataLen timeoutMs now =>
    obtain ⟨st, c, hsend⟩ : ∃ st c, (d.connections j).send sessionHandle service path pathLen data dataLen
      timeoutMs now = (st, c) := ⟨_, _, rfl⟩
    simp only [step, hsend] at hs
    split at hs
    · simp only [Option.some.injEq] at hs
      subst hs
      obtain ⟨hself, hothers⟩ := msg_connection d
        { d with connections := Function.update d.connections j c,
                 active := if st = .pending then some (.connection j) else d.active } rfl rfl
      refine ⟨.connection j, hothers, .kept ?_ rfl rfl⟩
      rw [hself]
      rcases Connection.send_cases hsend with ⟨-, hsent⟩ | ⟨-, rfl⟩
      · rw [hsent.made]
        rfl
      · rfl
    · cases hs
  | pollConnection j os =>
    obtain ⟨st, c, conn, hp⟩ : ∃ st c conn, (d.connections j).poll d.conn os = (st, c, conn) := ⟨_, _, _, rfl⟩
    simp only [step, hp, Option.some.injEq] at hs
    subst hs
    obtain ⟨hself, hothers⟩ := msg_connection d
      { d with connections := Function.update d.connections j c, conn := conn } rfl rfl
    refine ⟨.connection j, changed_note os hothers rfl rfl ?_⟩
    rw [hself]
    have hfwd := (d.connections j).poll_fwd d.conn os
    rw [hp] at hfwd
    rcases hfwd with ⟨st', hpolled⟩ | hkept
    · exact Or.inl ⟨st', conn, hpolled⟩
    · exact Or.inr hkept

/-! ### Numbers and contexts -/

/-- Contexts follow the numbers of the requests. -/
structure Numbered (d : Shared) : Prop where
  next : ∀ p, (d.msg p).context = UInt64.ofNat (d.sends p + 1)
  current : ∀ p, (d.msg p).InFlight → 0 < d.sends p ∧ (d.msg p).sentContext = UInt64.ofNat (d.sends p) ∧
    (decodeHeader (d.msg p).tx).context = UInt64.ofNat (d.sends p)
  framed : ∀ p, (d.msg p).InFlight → Framed (16 + ExplicitMessage.kMaxCipData) (d.msg p).toBuffers
  contexts : ∀ w ∈ d.written, w.context = UInt64.ofNat (w.serial + 1)
  logged : ∀ p, (d.msg p).InFlight → 0 < (d.msg p).txSent →
    ∃ w ∈ d.written, w.party = p ∧ w.serial + 1 = d.sends p

theorem numbered_initial (h : Initial d) : Numbered d := by
  have hmsg : ∀ p, d.msg p = { tx := (d.msg p).tx, rx := (d.msg p).rx } := by
    intro p
    cases p with
    | message i => exact h.messages i
    | connection j => exact h.connections j
  have hrest : ∀ p, ¬ (d.msg p).InFlight := by
    intro p
    rw [hmsg p]
    simp [ExplicitMessage.InFlight]
  refine ⟨fun p => ?_, fun p hin => absurd hin (hrest p), fun p hin => absurd hin (hrest p), ?_,
    fun p hin => absurd hin (hrest p)⟩
  · rw [hmsg p, h.sends p]
    rfl
  · rw [h.written]
    intro w hw
    cases hw

/-- What `Numbered` says of one object. -/
structure Accounted (d : Shared) (p : Party) : Prop where
  next : (d.msg p).context = UInt64.ofNat (d.sends p + 1)
  current : (d.msg p).InFlight → 0 < d.sends p ∧ (d.msg p).sentContext = UInt64.ofNat (d.sends p) ∧
    (decodeHeader (d.msg p).tx).context = UInt64.ofNat (d.sends p)
  framed : (d.msg p).InFlight → Framed (16 + ExplicitMessage.kMaxCipData) (d.msg p).toBuffers
  logged : (d.msg p).InFlight → 0 < (d.msg p).txSent → ∃ w ∈ d.written, w.party = p ∧ w.serial + 1 = d.sends p

private theorem Numbered.accounted (h : Numbered d) (p : Party) : Accounted d p :=
  ⟨h.next p, h.current p, h.framed p, h.logged p⟩

private theorem Changed.sends_of_ne {p q : Party} (h : Changed d d' p) (hq : q ≠ p) : d'.sends q = d.sends q := by
  cases h with
  | kept msg sends written => rw [sends]
  | dropped msg sends written => rw [sends]
  | started sent sends written => rw [sends, Function.update_of_ne hq]
  | polled polled sends written => rw [sends]

private theorem Changed.written_mono {p : Party} (h : Changed d d' p) {w : Written} (hw : w ∈ d.written) :
    w ∈ d'.written := by
  cases h with
  | kept msg sends written => rwa [written]
  | dropped msg sends written => rwa [written]
  | started sent sends written => rwa [written]
  | polled polled sends written =>
    rw [written]
    split
    · exact List.mem_append_left _ hw
    · exact hw

/-- What is said of an object stays true while the others are used. -/
private theorem Accounted.of_same {q : Party} (h : Accounted d q) (hmsg : d'.msg q = d.msg q)
    (hsends : d'.sends q = d.sends q) (hmore : ∀ w ∈ d.written, w ∈ d'.written) : Accounted d' q := by
  refine ⟨?_, fun hin => ?_, fun hin => ?_, fun hin hpos => ?_⟩
  · rw [hmsg, hsends]
    exact h.next
  · rw [hmsg] at hin ⊢
    rw [hsends]
    exact h.current hin
  · rw [hmsg] at hin ⊢
    exact h.framed hin
  · rw [hmsg] at hin hpos
    obtain ⟨w, hw, hparty, hserial⟩ := h.logged hin hpos
    refine ⟨w, hmore w hw, hparty, ?_⟩
    rw [hsends]
    exact hserial

/-- The first bytes of a request are written under its number. -/
private theorem accounted_polled {p : Party} {os : Platform} {st : Status} {conn : TcpConnection} (h : Numbered d)
    (hin : (d.msg p).InFlight) (polled : (d.msg p).poll d.conn os = (st, d'.msg p, conn))
    (hsends : d'.sends = d.sends) (hwritten : d'.written = if (d.msg p).txSent = 0 ∧ 0 < (d'.msg p).txSent then
      d.written ++ [⟨p, d.sends p - 1, (d.msg p).tx⟩] else d.written) :
    Accounted d' p ∧ ∀ w ∈ d'.written, w.context = UInt64.ofNat (w.serial + 1) := by
  obtain ⟨hpos, hsentContext, hframe⟩ := h.current p hin
  obtain ⟨inp, hp⟩ := ExplicitMessage.poll_spec hin (h.framed p hin) polled
  refine ⟨⟨?_, fun _ => ?_, fun hin' => ?_, fun _ hsent => ?_⟩, fun w hw => ?_⟩
  · rw [hp.contexts.1, hsends]
    exact h.next p
  · rw [hp.contexts.2, hp.moved.tx.1, hsends]
    exact ⟨hpos, hsentContext, hframe⟩
  · rcases hp.outcome with ⟨hst, -⟩ | ⟨hst, -⟩ | ⟨-, hfailed⟩
    · exact hp.framed (Or.inl hst)
    · exact hp.framed (Or.inr hst)
    · rcases hin' with h | h <;> rw [hfailed] at h <;> cases h
  · rw [hwritten, hsends]
    by_cases hfirst : (d.msg p).txSent = 0
    · rw [if_pos ⟨hfirst, hsent⟩]
      exact ⟨_, List.mem_append_right _ List.mem_cons_self, rfl, Nat.sub_add_cancel hpos⟩
    · rw [if_neg fun h => hfirst h.1]
      exact h.logged p hin (Nat.pos_of_ne_zero hfirst)
  · rw [hwritten] at hw
    split at hw
    · rcases List.mem_append.1 hw with hw | hw
      · exact h.contexts w hw
      · rw [List.mem_singleton.1 hw, Written.context, Nat.sub_add_cancel hpos]
        exact hframe
    · exact h.contexts w hw

private theorem accounted_changed {p : Party} (h : Numbered d) (hc : Changed d d' p) :
    Accounted d' p ∧ ∀ w ∈ d'.written, w.context = UInt64.ofNat (w.serial + 1) := by
  cases hc with
  | kept msg sends written =>
    rw [written]
    exact ⟨(h.accounted p).of_same msg (by rw [sends]) fun w hw => written ▸ hw, h.contexts⟩
  | dropped msg sends written =>
    rw [written]
    have hrest : ¬ (d'.msg p).InFlight := by
      rw [msg]
      exact ExplicitMessage.not_inFlight_abort (d.msg p)
    refine ⟨⟨?_, fun hin => absurd hin hrest, fun hin => absurd hin hrest, fun hin => absurd hin hrest⟩, h.contexts⟩
    rw [msg, sends]
    exact h.next p
  | started sent sends written =>
    obtain ⟨sessionHandle, service, path, pathLen, data, dataLen, timeoutMs, now, hsent⟩ := sent
    have hnext := h.next p
    have hself : d'.sends p = d.sends p + 1 := by rw [sends, Function.update_self]
    rw [written]
    refine ⟨⟨?_, fun _ => ⟨?_, ?_, ?_⟩, fun _ => hsent.framed, fun _ hpos => ?_⟩, h.contexts⟩
    · rw [hsent.context, hnext, hself, UInt64.ofNat_add (d.sends p + 1) 1]
      rfl
    · omega
    · rw [hsent.sentContext, hnext, hself]
    · rw [hsent.tx, decode_requestFrame, hself]
      exact hnext
    · rw [hsent.txSent] at hpos
      omega
  | polled polled sends written =>
    by_cases hin : (d.msg p).InFlight
    · exact accounted_polled h hin polled sends written
    · rw [ExplicitMessage.poll_rest hin, Prod.mk.injEq, Prod.mk.injEq] at polled
      have hsame := polled.2.1
      rw [← hsame, if_neg (by omega)] at written
      rw [written]
      exact ⟨(h.accounted p).of_same hsame.symm (by rw [sends]) fun w hw => written ▸ hw, h.contexts⟩

theorem numbered_step {a : Act} (h : Numbered d) (hs : step d a = some d') : Numbered d' := by
  obtain ⟨p, hothers, hchanged⟩ := step_changed hs
  obtain ⟨hown, hcontexts⟩ := accounted_changed h hchanged
  have hall : ∀ q, Accounted d' q := by
    intro q
    by_cases hq : q = p
    · rw [hq]
      exact hown
    · exact (h.accounted q).of_same (hothers q hq) (hchanged.sends_of_ne hq) fun _ => hchanged.written_mono
  exact ⟨fun q => (hall q).next, fun q => (hall q).current, fun q => (hall q).framed, hcontexts,
    fun q => (hall q).logged⟩

/-- The requests written have different contexts, and late replies are refused, exactly when no two of them have the
same number among the requests of their objects. -/
theorem unique_iff {d₀ d : Shared} {as : List Act} (h0 : Initial d₀) (h : Run step always d₀ as d) :
    Unique d ↔ d.written.Pairwise fun v w => v.serial % 2 ^ 64 ≠ w.serial % 2 ^ 64 := by
  have hn := h.invariant (fun _ _ _ hn _ hs => numbered_step hn hs) (numbered_initial h0)
  have hcontext : ∀ v ∈ d.written, ∀ w ∈ d.written, v.context = w.context ↔
    v.serial % 2 ^ 64 = w.serial % 2 ^ 64 := by
    intro v hv w hw
    rw [hn.contexts v hv, hn.contexts w hw, ← UInt64.toNat_inj, UInt64.toNat_ofNat', UInt64.toNat_ofNat']
    omega
  have hpairs : (d.written.Pairwise fun v w => v.context ≠ w.context) ↔
      d.written.Pairwise fun v w => v.serial % 2 ^ 64 ≠ w.serial % 2 ^ 64 :=
    List.Pairwise.iff_of_mem fun {v w} hv hw => not_congr (hcontext v hv w hw)
  constructor
  · intro hu
    exact hpairs.1 hu.distinct
  · intro hs
    have hdistinct := hpairs.2 hs
    refine ⟨hdistinct, fun p hin hsent w hw hother r hr rest => ?_⟩
    -- the request of `p` is another one than `w`
    obtain ⟨v, hv, hparty, hserial⟩ := hn.logged p hin hsent
    have hne : v ≠ w := by
      rintro rfl
      exact hother ⟨hparty, hserial⟩
    have hsymm : Std.Symm fun v w : Written => v.context ≠ w.context := ⟨fun _ _ h => h.symm⟩
    have hapart : v.context ≠ w.context := hdistinct.forall hv hw hne
    have hown : v.context = (d.msg p).sentContext := by
      rw [hn.contexts v hv, hserial]
      exact (hn.current p hin).2.1.symm
    rw [Reply.length_frame, Reply.parse_frame, if_neg]
    rintro ⟨-, hsame⟩
    exact hapart (hown.trans (hsame.symm.trans hr))

/-- Objects of which none has been used, on the connection that is open on descriptor 3. -/
def unused : Shared := { conn := { fd := 3, state := .ok }, messages := fun _ => {}, connections := fun _ => {} }

theorem initial_unused : Initial unused := ⟨fun _ => rfl, fun _ => rfl, fun _ => rfl, rfl⟩

/-- A Read Tag of the tag `A` through message `i`, of which the socket takes everything, and which is then given
up. -/
def readOnce (i : Nat) : List Act :=
  [.send i 7 0x4C (some [0xA0, 1, 65, 0]) 4 (some [1, 0]) 2 1000 0, .poll i { sends := [.accepted 1000] }, .abort i]

/-- A message used twice. -/
theorem unique_iff_alone : Unique (after step unused (readOnce 0 ++ readOnce 0)) :=
  (unique_iff initial_unused (run_after (by decide +kernel))).2 (by decide +kernel)

/-- The first requests of two messages have the same context. -/
theorem not_unique : ¬ ∀ d₀ d as, Initial d₀ → Run step always d₀ as d → Unique d := by
  intro h
  have hunique := h _ _ (readOnce 0 ++ readOnce 1) initial_unused (run_after (by decide +kernel))
  have hsame : ¬ (after step unused (readOnce 0 ++ readOnce 1)).written.Pairwise fun v w =>
    v.context ≠ w.context := by
    decide +kernel
  exact hsame hunique.distinct

end Shared

end ControlLogix
