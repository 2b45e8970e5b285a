import ControlLogix.Ownership

/-!
# Refused calls

A call that starts something returns `Pending`, or refuses and returns another status.  `ExplicitMessage::send()`
assigns `conn_` before it looks at its arguments, so a refused call can leave another pointer behind.  Here the
objects are taken with their `conn_`.

* `Binds`: what a call makes of the pointer of a message, one lemma for each function;
* `Alike.call`: benches that differ in the pointers of messages at rest return the same from every call, and stay so;
* `Wired.Paired.step`: the same of two clients that differ in the pointer of `msg_`;
* `refused_unseen`: whatever is done after a refused call, nobody can tell that it was made.
-/

namespace ControlLogix

open Transition

/-! ### The pointer of a message -/

section Pointer

variable {κ : Type}

/-- `conn_` after `send()` over the connection `c`. -/
def ExplicitMessage.bind (m : ExplicitMessage) (conn : Option κ) (c : κ) (tcp : TcpConnection) : Option κ :=
  if m.state = .sending ∨ m.state = .receiving then conn
  else if ¬ tcp.connected then conn
  else some c

/-- `conn_` of the message after `Tag::read()`. -/
def Tag.bindRead (t : Tag) (msg : ExplicitMessage) (conn : Option κ) (c : κ) (tcp : TcpConnection)
    (name : Option (List UInt8)) : Option κ :=
  match name with
  | none => conn
  | some name =>
    if name.length > kMaxSymbolicName then conn
    else if t.state = .reading ∨ t.state = .writing then conn
    else msg.bind conn c tcp

/-- `conn_` of the message after `Tag::write()`. -/
def Tag.bindWrite (t : Tag) (msg : ExplicitMessage) (conn : Option κ) (c : κ) (tcp : TcpConnection)
    (name : Option (List UInt8)) (elementCount : UInt32) : Option κ :=
  match name with
  | none => conn
  | some name =>
    if name.length > kMaxSymbolicName then conn
    else if t.dataType = 0 then conn
    else if t.state = .reading ∨ t.state = .writing then conn
    else
      match t.writeLength elementCount with
      | none => conn
      | some _ => msg.bind conn c tcp

/-- `conn_` of the message after `Tag::abort()`. -/
def Tag.bindAbort (t : Tag) (conn : Option κ) : Option κ :=
  if t.state = .reading ∨ t.state = .writing then none else conn

variable {m m' : ExplicitMessage} {t t' : Tag} {c : κ} {tcp : TcpConnection} {sessionHandle timeoutMs now : UInt32}
  {st : Status}

/-- What a call makes of a message and of its pointer: it leaves both as they are, or hands them to `send()`. -/
inductive Binds (m : ExplicitMessage) (c : κ) (tcp : TcpConnection) (m' : ExplicitMessage)
    (bind : Option κ → Option κ) : Prop where
  | kept (same : m' = m) (keeps : ∀ conn, bind conn = conn)
  | handed {sessionHandle timeoutMs now : UInt32} {service : UInt8} {path data : Option (List UInt8)}
      {pathLen dataLen : Nat} {st : Status}
      (sent : m.send tcp sessionHandle service path pathLen data dataLen timeoutMs now = (st, m'))
      (binds : ∀ conn, bind conn = m.bind conn c tcp)

/-- A message in flight keeps its pointer. -/
theorem Binds.busy {bind : Option κ → Option κ} (h : Binds m c tcp m' bind) (hin : m.InFlight) (conn : Option κ) :
    bind conn = conn := by
  cases h with
  | kept same keeps => exact keeps conn
  | handed sent binds =>
    rw [binds]
    exact if_pos hin

/-- A message that is in flight after the call points to the same connection, whatever the pointer was at rest. -/
theorem Binds.inFlight {bind : Option κ → Option κ} (h : Binds m c tcp m' bind) (hin : m'.InFlight)
    {conn conn' : Option κ} (hconn : m.InFlight → conn = conn') : bind conn = bind conn' := by
  cases h with
  | kept same keeps =>
    rw [keeps, keeps]
    exact hconn (same ▸ hin)
  | handed sent binds =>
    rw [binds, binds]
    unfold ExplicitMessage.bind
    split
    · rename_i hbusy
      exact hconn hbusy
    · rename_i hfree
      split
      · rename_i hdown
        -- refused, so the message was in flight before
        rcases ExplicitMessage.send_cases sent with ⟨-, hsent⟩ | ⟨rfl, -⟩
        · exact absurd hsent.connected hdown
        · exact absurd hin hfree
      · rfl

theorem Tag.read_binds {name : Option (List UInt8)} {elementCount : UInt32}
    (h : t.read m tcp sessionHandle name elementCount timeoutMs now = (st, t', m')) :
    Binds m c tcp m' fun conn => t.bindRead m conn c tcp name := by
  unfold Tag.bindRead
  cases name with
  | none =>
    simp only [Tag.read, Prod.mk.injEq] at h
    exact .kept h.2.2.symm fun _ => rfl
  | some name =>
    unfold Tag.read at h
    dsimp only at h ⊢
    -- refused by the tag itself, then handed to the message
    split at h
    · rename_i hlong
      simp only [Prod.mk.injEq] at h
      exact .kept h.2.2.symm fun _ => if_pos hlong
    · rename_i hlong
      simp only [if_neg hlong]
      split at h
      · rename_i hbusy
        simp only [Prod.mk.injEq] at h
        exact .kept h.2.2.symm fun _ => if_pos hbusy
      · rename_i hrest
        simp only [if_neg hrest]
        unfold Tag.startRead at h
        dsimp only at h
        split at h
        · rename_i msg hsend
          simp only [Prod.mk.injEq] at h
          exact .handed (h.2.2 ▸ hsend) fun _ => rfl
        · rename_i st₁ msg hne hsend
          simp only [Prod.mk.injEq] at h
          exact .handed (h.2.2 ▸ hsend) fun _ => rfl

theorem Tag.write_binds {name : Option (List UInt8)} {elementCount : UInt32}
    (h : t.write m tcp sessionHandle name elementCount timeoutMs now = (st, t', m')) :
    Binds m c tcp m' fun conn => t.bindWrite m conn c tcp name elementCount := by
  unfold Tag.bindWrite
  cases name with
  | none =>
    simp only [Tag.write, Prod.mk.injEq] at h
    exact .kept h.2.2.symm fun _ => rfl
  | some name =>
    unfold Tag.write at h
    dsimp only at h ⊢
    -- refused by the tag itself, then handed to the message
    split at h
    · rename_i hlong
      simp only [Prod.mk.injEq] at h
      exact .kept h.2.2.symm fun _ => if_pos hlong
    · rename_i hlong
      simp only [if_neg hlong]
      split at h
      · rename_i hunknown
        simp only [Prod.mk.injEq] at h
        exact .kept h.2.2.symm fun _ => if_pos hunknown
      · rename_i hknown
        simp only [if_neg hknown]
        split at h
        · rename_i hbusy
          simp only [Prod.mk.injEq] at h
          exact .kept h.2.2.symm fun _ => if_pos hbusy
        · rename_i hrest
          simp only [if_neg hrest]
          unfold Tag.startWrite at h
          cases hlen : t.writeLength elementCount with
          | none =>
            rw [hlen] at h
            simp only [Prod.mk.injEq] at h
            exact .kept h.2.2.symm fun _ => rfl
          | some dataLen =>
            rw [hlen] at h
            dsimp only at h ⊢
            split at h
            · rename_i msg hsend
              simp only [Prod.mk.injEq] at h
              exact .handed (h.2.2 ▸ hsend) fun _ => rfl
            · rename_i st₁ msg hne hsend
              simp only [Prod.mk.injEq] at h
              exact .handed (h.2.2 ▸ hsend) fun _ => rfl

theorem Tag.bindAbort_inFlight (hin : (t.abort m).2.InFlight) {conn conn' : Option κ}
    (hconn : m.InFlight → conn = conn') : t.bindAbort conn = t.bindAbort conn' := by
  unfold Tag.bindAbort
  split
  · rfl
  · rename_i hrest
    rw [Tag.abort_rest hrest] at hin
    exact hconn hin

theorem Tag.read_refused {name : Option (List UInt8)} {elementCount : UInt32}
    (h : t.read m tcp sessionHandle name elementCount timeoutMs now = (st, t', m')) (hst : st ≠ .pending) :
    t' = t ∧ m' = m := by
  cases name with
  | none =>
    simp only [Tag.read, Prod.mk.injEq] at h
    exact ⟨h.2.1.symm, h.2.2.symm⟩
  | some name =>
    rcases Tag.read_cases h with ⟨e, -⟩ | ⟨-, hsame⟩
    · exact absurd e hst
    · exact hsame

theorem Tag.write_refused {name : Option (List UInt8)} {elementCount : UInt32}
    (h : t.write m tcp sessionHandle name elementCount timeoutMs now = (st, t', m')) (hst : st ≠ .pending) :
    t' = t ∧ m' = m := by
  cases name with
  | none =>
    simp only [Tag.write, Prod.mk.injEq] at h
    exact ⟨h.2.1.symm, h.2.2.symm⟩
  | some name =>
    rcases Tag.write_cases h with ⟨e, -⟩ | ⟨-, hsame⟩
    · exact absurd e hst
    · exact hsame

end Pointer

/-! ### Objects that share connections -/

/-- An object and its `conn_`. -/
structure Attached (α κ : Type) where
  object : α
  conn : Option κ := none

/-- Any number of connections, sessions, messages and tags. -/
structure Bench (κ σ μ τ : Type) where
  conns : κ → TcpConnection
  sessions : σ → Attached Session κ
  messages : μ → Attached ExplicitMessage κ
  tags : τ → Tag

namespace Bench

/-- A call of one of the functions, or a change of a connection: `connect()`, `poll()`, `close()`, the arrival of
bytes. -/
inductive Call (κ σ μ τ : Type) where
  | transport (c : κ) (f : TcpConnection → Status × TcpConnection)
  | openSession (s : σ) (c : κ) (timeoutMs now : UInt32)
  | pollSession (s : σ) (now : UInt32) (os : Platform)
  | closeSession (s : σ)
  | abortSession (s : σ)
  | send (m : μ) (c : κ) (sessionHandle : UInt32) (service : UInt8) (path : Option (List UInt8)) (pathLen : Nat)
      (data : Option (List UInt8)) (dataLen : Nat) (timeoutMs now : UInt32)
  | pollMessage (m : μ) (os : Platform)
  | abortMessage (m : μ)
  | readTag (t : τ) (m : μ) (c : κ) (sessionHandle : UInt32) (name : Option (List UInt8))
      (elementCount timeoutMs now : UInt32)
  | writeTag (t : τ) (m : μ) (c : κ) (sessionHandle : UInt32) (name : Option (List UInt8))
      (elementCount timeoutMs now : UInt32)
  | pollTag (t : τ) (m : μ) (os : Platform)
  | abortTag (t : τ) (m : μ)
  | editTag (t : τ) (e : PlcClient.Edit)

/-- The calls that can be refused. -/
def Call.Starts {κ σ μ τ : Type} : Call κ σ μ τ → Prop
  | .openSession .. | .send .. | .readTag .. | .writeTag .. => True
  | _ => False

variable {κ σ μ τ : Type}

/-- The benches differ in the pointers of messages at rest only. -/
structure Alike (b b' : Bench κ σ μ τ) : Prop where
  conns : b.conns = b'.conns
  sessions : b.sessions = b'.sessions
  tags : b.tags = b'.tags
  objects : ∀ m, (b.messages m).object = (b'.messages m).object
  pointers : ∀ m, (b.messages m).object.InFlight → (b.messages m).conn = (b'.messages m).conn

section Update

variable [DecidableEq μ]

/-- The messages of two benches, one of which is replaced in both. -/
private theorem alike_update {f g : μ → Attached ExplicitMessage κ} (hobjects : ∀ m, (f m).object = (g m).object)
    (hpointers : ∀ m, (f m).object.InFlight → (f m).conn = (g m).conn) (m : μ) {msg : ExplicitMessage}
    {conn conn' : Option κ} (hconn : msg.InFlight → conn = conn') :
    (∀ k, (Function.update f m ⟨msg, conn⟩ k).object = (Function.update g m ⟨msg, conn'⟩ k).object) ∧
      ∀ k, (Function.update f m ⟨msg, conn⟩ k).object.InFlight →
        (Function.update f m ⟨msg, conn⟩ k).conn = (Function.update g m ⟨msg, conn'⟩ k).conn := by
  constructor
  · intro k
    by_cases hk : k = m
    · rw [hk, Function.update_self, Function.update_self]
    · rw [Function.update_of_ne hk, Function.update_of_ne hk]
      exact hobjects k
  · intro k
    by_cases hk : k = m
    · rw [hk, Function.update_self, Function.update_self]
      exact hconn
    · rw [Function.update_of_ne hk, Function.update_of_ne hk]
      exact hpointers k

private theorem alike_rebound (b : Bench κ σ μ τ) (m : μ) {conn : Option κ}
    (h : (b.messages m).object.InFlight → conn = (b.messages m).conn) :
    Alike { b with messages := Function.update b.messages m ⟨(b.messages m).object, conn⟩ } b := by
  obtain ⟨hobjects, hpointers⟩ := alike_update (fun _ => rfl) (fun _ _ => rfl) m h
  have hsame : Function.update b.messages m ⟨(b.messages m).object, (b.messages m).conn⟩ = b.messages :=
    Function.update_eq_self m b.messages
  rw [hsame] at hobjects hpointers
  exact ⟨rfl, rfl, rfl, hobjects, hpointers⟩

end Update

variable [DecidableEq κ] [DecidableEq σ] [DecidableEq μ] [DecidableEq τ]

/-- `f` with `*conn_`, when the object has an exchange going on.  A null pointer is `none`, and an object at rest does
not look at `conn_`. -/
def through {ρ : Type} (conns : κ → TcpConnection) (conn : Option κ) (inFlight : Bool)
    (f : TcpConnection → ρ × TcpConnection) : Option (ρ × (κ → TcpConnection)) :=
  if inFlight then
    conn.map fun c => ((f (conns c)).1, Function.update conns c (f (conns c)).2)
  else some ((f {}).1, conns)

/-- The result of a call, and the objects after it.  A function without a result returns `Ok`. -/
def call (b : Bench κ σ μ τ) : Call κ σ μ τ → Option (Status × Bench κ σ μ τ)
  | .transport c f =>
    let (st, conn) := f (b.conns c)
    some (st, { b with conns := Function.update b.conns c conn })
  | .openSession s c timeoutMs now =>
    let (st, session) := (b.sessions s).object.open (b.conns c) timeoutMs now
    let conn := if st = .pending then some c else (b.sessions s).conn
    some (st, { b with sessions := Function.update b.sessions s ⟨session, conn⟩ })
  | .pollSession s now os =>
    let a := b.sessions s
    (through b.conns a.conn (decide a.object.Exchanging) fun conn =>
      let (st, session, conn) := a.object.poll conn now os
      ((st, session), conn)).map fun ((st, session), conns) =>
        (st, { b with conns := conns, sessions := Function.update b.sessions s ⟨session, a.conn⟩ })
  | .closeSession s =>
    let (st, session) := (b.sessions s).object.close
    -- `close()` of a session without an exchange or a handle is `abort()`
    let conn := if st = .ok then none else (b.sessions s).conn
    some (st, { b with sessions := Function.update b.sessions s ⟨session, conn⟩ })
  | .abortSession s =>
    some (.ok, { b with sessions := Function.update b.sessions s ⟨(b.sessions s).object.abort, none⟩ })
  | .send m c sessionHandle service path pathLen data dataLen timeoutMs now =>
    let a := b.messages m
    let (st, msg) := a.object.send (b.conns c) sessionHandle service path pathLen data dataLen timeoutMs now
    some (st, { b with messages := Function.update b.messages m ⟨msg, a.object.bind a.conn c (b.conns c)⟩ })
  | .pollMessage m os =>
    let a := b.messages m
    (through b.conns a.conn (decide a.object.InFlight) fun conn =>
      let (st, msg, conn) := a.object.poll conn os
      ((st, msg), conn)).map fun ((st, msg), conns) =>
        (st, { b with conns := conns, messages := Function.update b.messages m ⟨msg, a.conn⟩ })
  | .abortMessage m =>
    some (.ok, { b with messages := Function.update b.messages m ⟨(b.messages m).object.abort, none⟩ })
  | .readTag t m c sessionHandle name elementCount timeoutMs now =>
    let a := b.messages m
    let (st, tag, msg) := (b.tags t).read a.object (b.conns c) sessionHandle name elementCount timeoutMs now
    let conn := (b.tags t).bindRead a.object a.conn c (b.conns c) name
    some (st, { b with tags := Function.update b.tags t tag, messages := Function.update b.messages m ⟨msg, conn⟩ })
  | .writeTag t m c sessionHandle name elementCount timeoutMs now =>
    let a := b.messages m
    let (st, tag, msg) := (b.tags t).write a.object (b.conns c) sessionHandle name elementCount timeoutMs now
    let conn := (b.tags t).bindWrite a.object a.conn c (b.conns c) name elementCount
    some (st, { b with tags := Function.update b.tags t tag, messages := Function.update b.messages m ⟨msg, conn⟩ })
  | .pollTag t m os =>
    let a := b.messages m
    (through b.conns a.conn (decide ((b.tags t).InFlight ∧ a.object.InFlight)) fun conn =>
      let (st, tag, msg, conn) := (b.tags t).poll a.object conn os
      ((st, tag, msg), conn)).map fun ((st, tag, msg), conns) =>
        (st, { b with conns := conns, tags := Function.update b.tags t tag,
                      messages := Function.update b.messages m ⟨msg, a.conn⟩ })
  | .abortTag t m =>
    let a := b.messages m
    let (tag, msg) := (b.tags t).abort a.object
    some (.ok, { b with tags := Function.update b.tags t tag,
                        messages := Function.update b.messages m ⟨msg, (b.tags t).bindAbort a.conn⟩ })
  | .editTag t e => some (.ok, { b with tags := Function.update b.tags t (e.apply (b.tags t)) })

def step (b : Bench κ σ μ τ) (a : Call κ σ μ τ) : Option (Bench κ σ μ τ) := (b.call a).map Prod.snd

/-- What can be seen: everything but the pointers, and what each call would return. -/
structure Sight (κ σ μ τ : Type) where
  conns : κ → TcpConnection
  sessions : σ → Session
  messages : μ → ExplicitMessage
  tags : τ → Tag
  results : Call κ σ μ τ → Option Status

def sight (b : Bench κ σ μ τ) : Sight κ σ μ τ where
  conns := b.conns
  sessions := fun s => (b.sessions s).object
  messages := fun m => (b.messages m).object
  tags := b.tags
  results := fun a => (b.call a).map Prod.fst

/-- A message that is polled: it comes to rest, or it was in flight and keeps its pointer. -/
private theorem polled_inFlight {m : ExplicitMessage} {conn : TcpConnection} {os : Platform}
    (hin : (m.poll conn os).2.1.InFlight) : m.InFlight := by
  by_contra hrest
  rw [ExplicitMessage.poll_rest hrest] at hin
  exact hrest hin

private theorem pollTag_inFlight {t : Tag} {m : ExplicitMessage} {conn : TcpConnection} {os : Platform}
    (hin : (t.poll m conn os).2.2.1.InFlight) : m.InFlight := by
  by_cases ht : t.InFlight
  · obtain ⟨st, t', m', conn', hpoll⟩ : ∃ st t' m' conn', t.poll m conn os = (st, t', m', conn') := ⟨_, _, _, _, rfl⟩
    obtain ⟨mst, hmsg, -⟩ := Tag.poll_inFlight ht hpoll
    rw [hpoll] at hin
    have hmoved : (m.poll conn os).2.1 = m' := by rw [hmsg]
    exact polled_inFlight (hmoved ▸ hin)
  · rw [Tag.poll_rest ht] at hin
    exact hin

/-- An exchange over the pointers of two messages, which agree while it is going on. -/
private theorem through_congr {ρ : Type} {conns : κ → TcpConnection} {conn conn' : Option κ} {inFlight : Bool}
    (h : inFlight = true → conn = conn') (f : TcpConnection → ρ × TcpConnection) :
    through conns conn inFlight f = through conns conn' inFlight f := by
  unfold through
  split
  · rename_i hin
    rw [h hin]
  · rfl

private theorem through_some {ρ : Type} {conns conns' : κ → TcpConnection} {conn : Option κ} {inFlight : Bool}
    {f : TcpConnection → ρ × TcpConnection} {r : ρ} (h : through conns conn inFlight f = some (r, conns')) :
    ∃ tcp, r = (f tcp).1 := by
  unfold through at h
  split at h
  · rw [Option.map_eq_some_iff] at h
    obtain ⟨c, -, hc⟩ := h
    exact ⟨conns c, (congrArg Prod.fst hc).symm⟩
  · exact ⟨{}, (congrArg Prod.fst (Option.some.inj h)).symm⟩

/-- Every call returns the same on both benches, and leaves them alike. -/
theorem Alike.call {b b' : Bench κ σ μ τ} (h : Alike b b') (a : Call κ σ μ τ) :
    Option.Rel (fun x y => x.1 = y.1 ∧ Alike x.2 y.2) (b.call a) (b'.call a) := by
  obtain ⟨conns, sessions, messages, tags⟩ := b
  obtain ⟨conns', sessions', messages', tags'⟩ := b'
  obtain ⟨hconns, hsessions, htags, hobjects, hpointers⟩ := h
  dsimp only at hconns hsessions htags hobjects hpointers
  -- only the pointers of the messages are left to differ
  subst hconns hsessions htags
  cases a with
  | transport c f => exact .some ⟨rfl, rfl, rfl, rfl, hobjects, hpointers⟩
  | openSession s c timeoutMs now => exact .some ⟨rfl, rfl, rfl, rfl, hobjects, hpointers⟩
  | pollSession s now os =>
    simp only [Bench.call]
    generalize through conns (sessions s).conn (decide (sessions s).object.Exchanging) _ = r
    cases r with
    | none => exact .none
    | some r => exact .some ⟨rfl, rfl, rfl, rfl, hobjects, hpointers⟩
  | closeSession s => exact .some ⟨rfl, rfl, rfl, rfl, hobjects, hpointers⟩
  | abortSession s => exact .some ⟨rfl, rfl, rfl, rfl, hobjects, hpointers⟩
  | editTag t e => exact .some ⟨rfl, rfl, rfl, rfl, hobjects, hpointers⟩
  | send m c sessionHandle service path pathLen data dataLen timeoutMs now =>
    obtain ⟨st, msg, hsend⟩ : ∃ st msg, (messages m).object.send (conns c) sessionHandle service path pathLen
      data dataLen timeoutMs now = (st, msg) := ⟨_, _, rfl⟩
    simp only [Bench.call, ← hobjects m, hsend]
    obtain ⟨hobjects', hpointers'⟩ := alike_update hobjects hpointers m
      (fun hin => (Binds.handed (c := c) hsend fun _ => rfl).inFlight hin (hpointers m))
    exact .some ⟨rfl, rfl, rfl, rfl, hobjects', hpointers'⟩
  | pollMessage m os =>
    simp only [Bench.call, ← hobjects m]
    rw [← through_congr (fun hin => hpointers m (of_decide_eq_true hin))]
    generalize hr : through conns (messages m).conn (decide (messages m).object.InFlight) _ = r
    cases r with
    | none => exact .none
    | some r =>
      -- a message that is in flight afterwards was in flight before
      obtain ⟨tcp, hmsg⟩ := through_some hr
      have hconn : r.1.2.InFlight → (messages m).conn = (messages' m).conn := by
        intro hin
        rw [hmsg] at hin
        exact hpointers m (polled_inFlight hin)
      obtain ⟨hobjects', hpointers'⟩ := alike_update hobjects hpointers m hconn
      exact .some ⟨rfl, rfl, rfl, rfl, hobjects', hpointers'⟩
  | abortMessage m =>
    have hconn : (messages m).object.abort.InFlight → (none : Option κ) = none := fun _ => rfl
    obtain ⟨hobjects', hpointers'⟩ := alike_update hobjects hpointers m hconn
    simp only [Bench.call, ← hobjects m]
    exact .some ⟨rfl, rfl, rfl, rfl, hobjects', hpointers'⟩
  | readTag t m c sessionHandle name elementCount timeoutMs now =>
    obtain ⟨st, tag, msg, hread⟩ : ∃ st tag msg, (tags t).read (messages m).object (conns c) sessionHandle name
      elementCount timeoutMs now = (st, tag, msg) := ⟨_, _, _, rfl⟩
    simp only [Bench.call, ← hobjects m, hread]
    obtain ⟨hobjects', hpointers'⟩ := alike_update hobjects hpointers m
      (fun hin => (Tag.read_binds hread).inFlight hin (hpointers m))
    exact .some ⟨rfl, rfl, rfl, rfl, hobjects', hpointers'⟩
  | writeTag t m c sessionHandle name elementCount timeoutMs now =>
    obtain ⟨st, tag, msg, hwrite⟩ : ∃ st tag msg, (tags t).write (messages m).object (conns c) sessionHandle name
      elementCount timeoutMs now = (st, tag, msg) := ⟨_, _, _, rfl⟩
    simp only [Bench.call, ← hobjects m, hwrite]
    obtain ⟨hobjects', hpointers'⟩ := alike_update hobjects hpointers m
      (fun hin => (Tag.write_binds hwrite).inFlight hin (hpointers m))
    exact .some ⟨rfl, rfl, rfl, rfl, hobjects', hpointers'⟩
  | pollTag t m os =>
    simp only [Bench.call, ← hobjects m]
    rw [← through_congr (fun hin => hpointers m (of_decide_eq_true hin).2)]
    generalize hr : through conns (messages m).conn (decide ((tags t).InFlight ∧ (messages m).object.InFlight)) _ = r
    cases r with
    | none => exact .none
    | some r =>
      obtain ⟨tcp, hmsg⟩ := through_some hr
      have hconn : r.1.2.2.InFlight → (messages m).conn = (messages' m).conn := by
        intro hin
        rw [hmsg] at hin
        exact hpointers m (pollTag_inFlight hin)
      obtain ⟨hobjects', hpointers'⟩ := alike_update hobjects hpointers m hconn
      exact .some ⟨rfl, rfl, rfl, rfl, hobjects', hpointers'⟩
  | abortTag t m =>
    simp only [Bench.call, ← hobjects m]
    obtain ⟨hobjects', hpointers'⟩ := alike_update hobjects hpointers m
      (fun hin => Tag.bindAbort_inFlight (t := tags t) hin (hpointers m))
    exact .some ⟨rfl, rfl, rfl, rfl, hobjects', hpointers'⟩

theorem Alike.sight {b b' : Bench κ σ μ τ} (h : Alike b b') : b.sight = b'.sight := by
  have hresults : (fun a => (b.call a).map Prod.fst) = fun a => (b'.call a).map Prod.fst := by
    funext a
    have hrel := h.call a
    generalize b.call a = x at hrel ⊢
    generalize b'.call a = y at hrel ⊢
    cases hrel with
    | none => rfl
    | some hxy => exact congrArg some hxy.1
  unfold Bench.sight
  rw [hresults, h.conns, h.sessions, h.tags, funext h.objects]

theorem Alike.step {b b' : Bench κ σ μ τ} (h : Alike b b') (a : Call κ σ μ τ) :
    Option.Rel Alike (b.step a) (b'.step a) := by
  have hrel := h.call a
  unfold Bench.step
  generalize b.call a = x at hrel ⊢
  generalize b'.call a = y at hrel ⊢
  cases hrel with
  | none => exact .none
  | some hxy => exact .some hxy.2

theorem Alike.indistinguishable {b b' : Bench κ σ μ τ} (h : Alike b b') :
    Indistinguishable Bench.step Bench.sight b b' :=
  indistinguishable_of (fun _ _ h => h.sight) (fun _ _ a h => h.step a) h

/-- A refused call leaves everything but the pointer of a message at rest. -/
theorem call_refused {b b' : Bench κ σ μ τ} {a : Call κ σ μ τ} {st : Status} (ha : a.Starts)
    (h : b.call a = some (st, b')) (hst : st ≠ .pending) : Alike b' b := by
  cases a with
  | openSession s c timeoutMs now =>
    obtain ⟨st₁, session, hopen⟩ : ∃ st₁ session, (b.sessions s).object.open (b.conns c) timeoutMs
      now = (st₁, session) :=
      ⟨_, _, rfl⟩
    simp only [Bench.call, hopen, Option.some.injEq, Prod.mk.injEq] at h
    obtain ⟨rfl, rfl⟩ := h
    rcases Session.open_cases hopen with ⟨e, -⟩ | ⟨-, rfl⟩
    · exact absurd e hst
    · rw [if_neg hst]
      refine ⟨rfl, ?_, rfl, fun _ => rfl, fun _ _ => rfl⟩
      exact Function.update_eq_self s b.sessions
  | send m c sessionHandle service path pathLen data dataLen timeoutMs now =>
    obtain ⟨st₁, msg, hsend⟩ : ∃ st₁ msg, (b.messages m).object.send (b.conns c) sessionHandle service path
      pathLen data dataLen timeoutMs now = (st₁, msg) := ⟨_, _, rfl⟩
    simp only [Bench.call, hsend, Option.some.injEq, Prod.mk.injEq] at h
    obtain ⟨rfl, rfl⟩ := h
    -- the message is the same, and its pointer matters only in flight
    obtain rfl := ExplicitMessage.send_refused hsend hst
    exact alike_rebound b m fun hin => if_pos hin
  | readTag t m c sessionHandle name elementCount timeoutMs now =>
    obtain ⟨st₁, tag, msg, hread⟩ : ∃ st₁ tag msg, (b.tags t).read (b.messages m).object (b.conns c)
      sessionHandle name elementCount timeoutMs now = (st₁, tag, msg) := ⟨_, _, _, rfl⟩
    simp only [Bench.call, hread, Option.some.injEq, Prod.mk.injEq] at h
    obtain ⟨rfl, rfl⟩ := h
    have hbinds := Tag.read_binds (c := c) hread
    obtain ⟨rfl, rfl⟩ := Tag.read_refused hread hst
    rw [Function.update_eq_self]
    exact alike_rebound b m fun hin => hbinds.busy hin _
  | writeTag t m c sessionHandle name elementCount timeoutMs now =>
    obtain ⟨st₁, tag, msg, hwrite⟩ : ∃ st₁ tag msg, (b.tags t).write (b.messages m).object (b.conns c)
      sessionHandle name elementCount timeoutMs now = (st₁, tag, msg) := ⟨_, _, _, rfl⟩
    simp only [Bench.call, hwrite, Option.some.injEq, Prod.mk.injEq] at h
    obtain ⟨rfl, rfl⟩ := h
    have hbinds := Tag.write_binds (c := c) hwrite
    obtain ⟨rfl, rfl⟩ := Tag.write_refused hwrite hst
    rw [Function.update_eq_self]
    exact alike_rebound b m fun hin => hbinds.busy hin _
  | _ => exact absurd ha id

end Bench

/-! ### The client -/

variable {n : Nat}

/-- The calls of a client that can be refused. -/
def Op.Starts : Op → Prop
  | .read .. | .write .. => True
  | _ => False

namespace PlcClient

/-- `msg_.conn_` after the common part of `read()` and `write()`; `bind` is what the tag's own operation makes of
it. -/
def bindTag (p : PlcClient n) (handle : Int) (conn : Option Unit)
    (bind : Tag → Option (List UInt8) → UInt32 → Option Unit) : Option Unit :=
  match p.validHandle handle with
  | none => conn
  | some i =>
    if p.state ≠ .ready then conn
    else if p.anyTagBusy then conn
    else bind (p.slots i).tag (some (p.slots i).name) (p.slots i).elemCount

/-- `msg_.conn_` after a call: null, or a pointer to `tcp_`, which is the only connection. -/
def bind (p : PlcClient n) (conn : Option Unit) : Op → Option Unit
  | .read handle _ _ => p.bindTag handle conn fun tag name _ => tag.bindRead p.msg conn () p.tcp name
  | .write handle _ _ =>
    p.bindTag handle conn fun tag name elemCount => tag.bindWrite p.msg conn () p.tcp name elemCount
  | .abortTag handle =>
    match p.validHandle handle with
    | none => conn
    | some i => (p.slots i).tag.bindAbort conn
  | _ => conn

section Start

variable {p : PlcClient n} {handle : Int}
  {f : Tag → ExplicitMessage → TcpConnection → UInt32 → Option (List UInt8) → UInt32 → Status × Tag × ExplicitMessage}

theorem startTag_refused
    (hf : ∀ t name elemCount st t' msg', f t p.msg p.tcp p.session.handle name elemCount = (st, t', msg') →
      st ≠ .pending → t' = t ∧ msg' = p.msg)
    (h : (p.startTag handle f).1 ≠ .pending) : (p.startTag handle f).2 = p := by
  unfold startTag at h ⊢
  cases hv : p.validHandle handle with
  | none => rfl
  | some i =>
    rw [hv] at h
    dsimp only at h ⊢
    split
    · rfl
    · rename_i hready
      rw [if_neg hready] at h
      split
      · rfl
      · rename_i hfree
        rw [if_neg hfree] at h
        obtain ⟨st, tag, msg, he⟩ : ∃ st tag msg,
          f (p.slots i).tag p.msg p.tcp p.session.handle (some (p.slots i).name)
          (p.slots i).elemCount = (st, tag, msg) := ⟨_, _, _, rfl⟩
        rw [he] at h ⊢
        obtain ⟨rfl, rfl⟩ := hf _ _ _ _ _ _ he h
        simp [setSlot]

theorem startTag_binds {bind : Option Unit → Tag → Option (List UInt8) → UInt32 → Option Unit}
    (hf : ∀ t name elemCount st t' msg', f t p.msg p.tcp p.session.handle name elemCount = (st, t', msg') →
      Binds p.msg () p.tcp msg' fun conn => bind conn t name elemCount) :
    Binds p.msg () p.tcp (p.startTag handle f).2.msg fun conn => p.bindTag handle conn (bind conn) := by
  unfold startTag bindTag
  cases p.validHandle handle with
  | none => exact .kept rfl fun _ => rfl
  | some i =>
    dsimp only
    split
    · exact .kept rfl fun _ => rfl
    · split
      · exact .kept rfl fun _ => rfl
      · exact hf _ _ _ _ _ _ rfl

end Start

/-- The calls that can be refused hand the pointer to `send()`, if they change it at all. -/
theorem call_binds (p : PlcClient n) {op : Op} (hop : op.Starts) :
    Binds p.msg () p.tcp (p.call op).2.msg fun conn => p.bind conn op := by
  cases op with
  | read handle timeoutMs now =>
    simp only [call, read, bind]
    refine startTag_binds ?_
    intro t name elemCount st t' msg' he
    exact Tag.read_binds he
  | write handle timeoutMs now =>
    simp only [call, write, bind]
    refine startTag_binds ?_
    intro t name elemCount st t' msg' he
    exact Tag.write_binds he
  | _ => exact absurd hop id

end PlcClient

/-- A refused call of a client changes neither the client nor the history. -/
theorem World.call_refused {w : World n} {op : Op} (hop : op.Starts) (h : (w.plc.call op).1 ≠ Status.pending.toInt) :
    w.call op = w := by
  have hsame : (w.plc.call op).2 = w.plc := by
    cases op with
    | read handle timeoutMs now =>
      have hst : (w.plc.read handle timeoutMs now).1 ≠ .pending := fun e => h (congrArg Status.toInt e)
      refine PlcClient.startTag_refused ?_ hst
      intro t name elemCount st t' msg' he hne
      exact Tag.read_refused he hne
    | write handle timeoutMs now =>
      have hst : (w.plc.write handle timeoutMs now).1 ≠ .pending := fun e => h (congrArg Status.toInt e)
      refine PlcClient.startTag_refused ?_ hst
      intro t name elemCount st t' msg' he hne
      exact Tag.write_refused he hne
    | _ => exact absurd hop id
  have hevents : callEvents w.plc op = [] := by
    cases op with
    | read handle timeoutMs now => exact if_neg h
    | write handle timeoutMs now => exact if_neg h
    | _ => exact absurd hop id
  rw [World.call, hsame, hevents, List.append_nil]

/-- Only `read()` and `write()` start an exchange over `msg_`. -/
theorem World.step_msg_rest {w w' : World n} {a : Act} (hrest : ¬ w.plc.msg.InFlight) (h : w.step a = some w')
    (ha : ∀ op, a = .call op → ¬ op.Starts) : ¬ w'.plc.msg.InFlight := by
  cases a with
  | deliver bs =>
    cases h
    exact hrest
  | call op =>
    obtain ⟨-, rfl⟩ := step_call h
    have hcalled := call_cases w.plc op
    show ¬ (w.plc.call op).2.msg.InFlight
    generalize hp : (w.plc.call op).2 = p at hcalled ⊢
    generalize callEvents w.plc op = events at hcalled
    cases hcalled with
    | linked hop =>
      rw [(hop.sameTags w.plc).msg]
      exact hrest
    | registered set => exact hrest
    | created free bounded => exact hrest
    | destroyed inUse => exact hrest
    | started hop inUse ready free started =>
      -- `read()` and `write()` are excluded
      refine absurd ?_ (ha op rfl)
      rcases hop with rfl | rfl
      · exact trivial
      · exact trivial
    | @aborted i inUse =>
      show ¬ ((w.plc.slots i).tag.abort w.plc.msg).2.InFlight
      by_cases ht : (w.plc.slots i).tag.InFlight
      · rw [Tag.abort_inFlight ht]
        exact ExplicitMessage.not_inFlight_abort _
      · rw [Tag.abort_rest ht]
        exact hrest
    | edited inUse => exact hrest
    | refused hop => exact hrest
  | poll os =>
    obtain ⟨-, rfl⟩ := step_poll h
    unfold World.poll
    split
    · exact hrest
    · rename_i st p called hpoll
      show ¬ p.msg.InFlight
      rw [(PlcClient.pollState_sameTags hpoll).msg]
      exact hrest
  | iter os =>
    obtain ⟨f, fs, hf, -, hiter⟩ := step_iterated h
    cases hiter with
    | skipped free => exact hrest
    | turned st p inUse turned =>
      cases turned with
      | rest hr => exact hrest
      | inFlight hin polled advanced =>
        rw [ExplicitMessage.poll_rest hrest] at polled
        cases polled
        exact hrest
  | leave =>
    obtain ⟨f, fs, -, -, rfl⟩ := step_leave h
    show ¬ (w.plc.loopEnd f.disconnected).2.1.msg.InFlight
    rw [(PlcClient.loopEnd_sameTags w.plc f.disconnected).msg]
    exact hrest

/-- A world and `msg_.conn_` of its client. -/
structure Wired (n : Nat) where
  world : World n
  conn : Option Unit := none

namespace Wired

/-- The action is a turn of the loop that goes on with the exchange, and looks at `conn_`. -/
def follows (w : World n) : Act → Bool
  | .iter _ =>
    match w.polls with
    | [] => false
    | f :: _ =>
      if h : f.next < n then
        (w.plc.slots ⟨f.next, h⟩).inUse && decide ((w.plc.slots ⟨f.next, h⟩).tag.InFlight ∧ w.plc.msg.InFlight)
      else false
  | _ => false

/-- A step of the world, which is none if a null pointer is followed. -/
def step (s : Wired n) (a : Act) : Option (Wired n) :=
  if follows s.world a ∧ s.conn = none then none
  else
    (s.world.step a).map fun w =>
      { world := w
        conn := match a with
          | .call op => s.world.plc.bind s.conn op
          | _ => s.conn }

/-- The clients differ in the pointer of a message at rest only. -/
structure Paired (s s' : Wired n) : Prop where
  world : s.world = s'.world
  conn : s.world.plc.msg.InFlight → s.conn = s'.conn

theorem follows_inFlight {w : World n} {a : Act} (h : follows w a = true) : w.plc.msg.InFlight := by
  unfold follows at h
  split at h
  · split at h
    · cases h
    · split at h
      · simp only [Bool.and_eq_true, decide_eq_true_eq] at h
        exact h.2.2
      · cases h
  · cases h

theorem Paired.step {s s' : Wired n} (h : Paired s s') (a : Act) : Option.Rel Paired (s.step a) (s'.step a) := by
  obtain ⟨w, conn⟩ := s
  obtain ⟨w', conn'⟩ := s'
  obtain ⟨hworld, hconn⟩ := h
  dsimp only at hworld hconn
  subst hworld
  by_cases hin : w.plc.msg.InFlight
  · -- the pointers are the same
    rw [hconn hin]
    generalize Wired.step _ a = r
    cases r with
    | none => exact .none
    | some r => exact .some ⟨rfl, fun _ => rfl⟩
  · have hfollows : ¬ (follows w a = true ∧ conn = none) := fun e => hin (follows_inFlight e.1)
    have hfollows' : ¬ (follows w a = true ∧ conn' = none) := fun e => hin (follows_inFlight e.1)
    unfold Wired.step
    rw [if_neg hfollows, if_neg hfollows']
    cases hw : w.step a with
    | none => exact .none
    | some w₁ =>
      simp only [Option.map_some]
      refine .some ⟨rfl, fun hin₁ => ?_⟩
      dsimp only at hin₁ ⊢
      by_cases hstarts : ∃ op, a = .call op ∧ op.Starts
      · -- the exchange has been started by this call
        obtain ⟨op, rfl, hop⟩ := hstarts
        obtain ⟨-, rfl⟩ := World.step_call hw
        exact (w.plc.call_binds hop).inFlight hin₁ fun e => absurd e hin
      · exact absurd hin₁ (World.step_msg_rest hin hw fun op e hop => hstarts ⟨op, e, hop⟩)

theorem Paired.indistinguishable {s s' : Wired n} (h : Paired s s') : Indistinguishable Wired.step Wired.world s s' :=
  indistinguishable_of (fun _ _ h => h.world) (fun _ _ a h => h.step a) h

/-- A refused call leaves everything but the pointer of a message at rest. -/
theorem call_refused {s s' : Wired n} {op : Op} (hop : op.Starts) (h : s.step (.call op) = some s')
    (hst : (s.world.plc.call op).1 ≠ Status.pending.toInt) : Paired s' s := by
  unfold Wired.step at h
  rw [if_neg (fun e => Bool.false_ne_true e.1), Option.map_eq_some_iff] at h
  obtain ⟨w, hw, rfl⟩ := h
  obtain ⟨-, rfl⟩ := World.step_call hw
  rw [World.call_refused hop hst]
  exact ⟨rfl, fun hin => (s.world.plc.call_binds hop).busy hin s.conn⟩

end Wired

/-- Whatever a sketch does after a refused call, nothing tells it from a run in which the call was not made: neither
with objects that share messages and connections, nor with a client. -/
theorem refused_unseen {κ σ μ τ : Type} [DecidableEq κ] [DecidableEq σ] [DecidableEq μ] [DecidableEq τ] :
    (∀ (b b' : Bench κ σ μ τ) (a : Bench.Call κ σ μ τ) (st : Status), a.Starts → b.call a = some (st, b') →
      st ≠ .pending → Indistinguishable Bench.step Bench.sight b' b) ∧
    ∀ (s s' : Wired n) (op : Op), op.Starts → s.step (.call op) = some s' →
      (s.world.plc.call op).1 ≠ Status.pending.toInt → Indistinguishable Wired.step Wired.world s' s := by
  constructor
  · intro b b' a st ha hcall hst
    exact (Bench.call_refused ha hcall hst).indistinguishable
  · intro s s' op hop hstep hst
    exact (Wired.call_refused hop hstep hst).indistinguishable

/-- One object of each kind, and the connection is up. -/
def Bench.single : Bench Unit Unit Unit Unit where
  conns := fun _ => { fd := 3, state := .ok }
  sessions := fun _ => { object := {} }
  messages := fun _ => { object := {} }
  tags := fun _ => { data := TagData.zero }

/-- `send()` with a path of one byte, which is refused after `conn_` has been assigned. -/
def Bench.oddSend : Bench.Call Unit Unit Unit Unit := .send () () 7 0x4C (some [0x91]) 1 none 0 5000 0

/-- A second `read()` while the first one is going on. -/
def busyClient : Wired 1 where
  world := World.reached 1 (World.bringUp 7 ++ [.call (.createTag (some [77]) 1), .call (.read 0 5000 0)])
  conn := some ()

theorem refused_unseen_examples :
    Indistinguishable Bench.step Bench.sight (after Bench.step Bench.single [Bench.oddSend]) Bench.single ∧
      Indistinguishable Wired.step Wired.world (after Wired.step busyClient [.call (.read 0 5000 0)]) busyClient := by
  have hall := @refused_unseen 1 Unit Unit Unit Unit _ _ _ _
  constructor
  · exact hall.1 _ _ Bench.oddSend .invalidArg trivial rfl nofun
  · exact hall.2 busyClient _ (.read 0 5000 0) trivial (step_after (by decide +kernel)) (by decide +kernel)

end ControlLogix
