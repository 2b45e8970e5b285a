import ControlLogix.Status

/-!
# The socket layer and `TcpConnection`

`TcpConnection.cpp` over lwIP.  What the socket layer answers to a call is an input of the model: a `RecvAnswer`, a
`SendAnswer`, `ConnectAnswers` and `PollAnswers`.  The bytes of a socket are kept in a `Socket`: `inbox` is what the
peer has delivered and the client has not read, `sent` and `recvd` are the histories of the two directions since the
socket was created.  `sockets` counts the sockets a `TcpConnection` has taken, so a value of it names one TCP
connection, and `calls` is the history of the calls that give it a descriptor or are given one, newest first.
-/

namespace ControlLogix

abbrev IPAddress := UInt32

structure Socket where
  inbox : List UInt8 := []
  sent : List UInt8 := []
  recvd : List UInt8 := []
  deriving DecidableEq, Repr

/-- What `lwip_recv` does: hand out up to `k + 1` of the delivered bytes, report the end of the stream, or fail. -/
inductive RecvAnswer where
  | data (k : Nat)
  | eof
  | failed (e : Errno)
  deriving DecidableEq, Repr

/-- What `lwip_send` does: accept up to `k` bytes, or fail. -/
inductive SendAnswer where
  | accepted (k : Nat)
  | failed (e : Errno)
  deriving DecidableEq, Repr

/-- The results of the calls `connect()` makes, in order. -/
structure ConnectAnswers where
  socket : Int := 0
  getFlags : Int := 0
  setFlags : Int := 0
  connect : Int := 0
  errno : Errno := .einprogress
  deriving DecidableEq, Repr

/-- The results of the calls `poll()` makes, in order. -/
structure PollAnswers where
  select : Int := 1
  getsockopt : Int := 0
  soError : Int := 0
  deriving DecidableEq, Repr

/-- A call that concerns a descriptor. -/
inductive SocketCall where
  | socket (fd : Int)
  | use (fd : Int)
  | close (fd : Int)
  deriving DecidableEq, Repr

/-- `lwip_recv`: the bytes handed out (none when it returns 0) or the error number. -/
def Socket.recv (s : Socket) (length : Nat) : RecvAnswer → Except Errno (List UInt8) × Socket
  | .data k =>
    let bs := s.inbox.take (min (k + 1) length)
    if bs = [] then (.error .ewouldblock, s)
    else (.ok bs, { s with inbox := s.inbox.drop bs.length, recvd := s.recvd ++ bs })
  | .eof => (.ok [], s)
  | .failed e => (.error e, s)

/-- `lwip_send`: the number of bytes accepted or the error number. -/
def Socket.send (s : Socket) (bs : List UInt8) : SendAnswer → Except Errno Nat × Socket
  | .accepted k => (.ok (min k bs.length), { s with sent := s.sent ++ bs.take k })
  | .failed e => (.error e, s)

structure TcpConnection where
  fd : Int := -1
  remoteIp : IPAddress := 0
  remotePort : UInt16 := 0
  deadline : UInt32 := 0
  state : Status := .closed
  sock : Socket := {}
  sockets : Nat := 0
  calls : List SocketCall := []
  deriving DecidableEq, Repr

namespace TcpConnection

def connected (t : TcpConnection) : Bool := t.state = .ok

def close (t : TcpConnection) : TcpConnection :=
  if 0 ≤ t.fd then
    { t with fd := -1, state := .closed, remoteIp := 0, remotePort := 0, deadline := 0,
             calls := .close t.fd :: t.calls }
  else { t with state := .closed, remoteIp := 0, remotePort := 0, deadline := 0 }

def connect (t : TcpConnection) (ip : IPAddress) (port : UInt16) (timeoutMs : UInt32) (os : ConnectAnswers)
    (now : UInt32) : Status × TcpConnection :=
  let t := if 0 ≤ t.fd then t.close else t
  if ip = 0 ∨ port = 0 then (.invalidArg, t)
  else if os.socket < 0 then (.error, t)
  else
    -- `lwip_fcntl` is called for the flags, and again to set them, unless it has failed
    let t := { t with calls := .use os.socket :: .socket os.socket :: t.calls }
    if os.getFlags < 0 then (.error, { t with calls := .close os.socket :: t.calls })
    else
      let t := { t with calls := .use os.socket :: t.calls }
      if os.setFlags < 0 then (.error, { t with calls := .close os.socket :: t.calls })
      else
        let t := { t with calls := .use os.socket :: t.calls }
        if os.connect < 0 ∧ os.errno ≠ .einprogress then
          (.error, { t with calls := .close os.socket :: t.calls })
        else
          (.pending, { t with fd := os.socket, remoteIp := ip, remotePort := port, deadline := now + timeoutMs,
                              state := .pending, sock := {}, sockets := t.sockets + 1 })

def poll (t : TcpConnection) (os : PollAnswers) (now : UInt32) : Status × TcpConnection :=
  if t.fd < 0 then (.closed, t)
  else if t.state = .ok then (.ok, t)
  else
    let t := { t with calls := .use t.fd :: t.calls }
    if os.select < 0 then (.error, t.close)
    else if os.select = 0 then
      if expired now t.deadline then (.timeout, t.close) else (.pending, t)
    else
      let t := { t with calls := .use t.fd :: t.calls }
      if os.getsockopt < 0 then (.error, t.close)
      else if os.soError = 0 then (.ok, { t with state := .ok })
      else (.error, t.close)

/-- `read()`: the bytes read, none when the call would block, or the negative status. -/
def read (t : TcpConnection) (length : Nat) (a : RecvAnswer) : Except Status (List UInt8) × TcpConnection :=
  if t.fd < 0 ∨ t.state ≠ .ok then (.error .closed, t)
  else if length = 0 then (.error .invalidArg, t)
  else
    let t := { t with calls := .use t.fd :: t.calls }
    match t.sock.recv length a with
    | (.ok [], s) => (.error .closed, { t with sock := s, state := .closed })
    | (.ok bs, s) => (.ok bs, { t with sock := s })
    | (.error e, s) =>
      if e = .ewouldblock ∨ e = .eagain then (.ok [], { t with sock := s })
      else (.error .error, { t with sock := s })

/-- `write()`: the number of bytes written, 0 when the call would block, or the negative status. -/
def write (t : TcpConnection) (bs : List UInt8) (a : SendAnswer) : Except Status Nat × TcpConnection :=
  if t.fd < 0 ∨ t.state ≠ .ok then (.error .closed, t)
  else if bs.length = 0 then (.error .invalidArg, t)
  else
    let t := { t with calls := .use t.fd :: t.calls }
    match t.sock.send bs a with
    | (.ok n, s) => (.ok n, { t with sock := s })
    | (.error e, s) =>
      let t := { t with sock := s }
      if e = .ewouldblock ∨ e = .eagain then (.ok 0, t)
      else if e = .epipe ∨ e = .econnreset then (.error .closed, { t with state := .closed })
      else (.error .error, t)

/-- The peer's bytes arrive at the socket. -/
def deliver (t : TcpConnection) (bs : List UInt8) : TcpConnection :=
  { t with sock := { t.sock with inbox := t.sock.inbox ++ bs } }

/-! ### What a call moves -/

/-- The socket can be read and written. -/
def Usable (t : TcpConnection) : Prop := 0 ≤ t.fd ∧ t.state = .ok

instance (t : TcpConnection) : Decidable t.Usable := inferInstanceAs (Decidable (_ ∧ _))

/-- `t'` is `t` after `out` was handed to the socket and `inp` was read from it, on the same TCP connection. -/
structure Transfer (t t' : TcpConnection) (out inp : List UInt8) : Prop where
  sent : t'.sock.sent = t.sock.sent ++ out
  recvd : t'.sock.recvd = t.sock.recvd ++ inp
  inbox : t.sock.inbox = inp ++ t'.sock.inbox
  fd : t'.fd = t.fd
  sockets : t'.sockets = t.sockets
  state : t'.state = t.state ∨ t'.state = .closed
  unusable : ¬ t.Usable → t' = t ∧ out = [] ∧ inp = []

theorem Transfer.refl (t : TcpConnection) : Transfer t t [] [] := by
  constructor <;> simp

theorem Transfer.usable {t t' : TcpConnection} {out inp : List UInt8} (h : Transfer t t' out inp)
    (hu : t'.Usable) : t.Usable := by
  obtain ⟨hf, hs⟩ := hu
  rw [h.fd] at hf
  refine ⟨hf, ?_⟩
  rcases h.state with e | e
  · rw [← e, hs]
  · rw [hs] at e
    cases e

theorem Transfer.trans {t t' t'' : TcpConnection} {out inp out' inp' : List UInt8} (h : Transfer t t' out inp)
    (h' : Transfer t' t'' out' inp') : Transfer t t'' (out ++ out') (inp ++ inp') where
  sent := by rw [h'.sent, h.sent, List.append_assoc]
  recvd := by rw [h'.recvd, h.recvd, List.append_assoc]
  inbox := by rw [h.inbox, h'.inbox, List.append_assoc]
  fd := h'.fd.trans h.fd
  sockets := h'.sockets.trans h.sockets
  state := by
    rcases h'.state with e | e
    · rw [e]
      exact h.state
    · exact Or.inr e
  unusable := by
    intro hu
    obtain ⟨rfl, rfl, rfl⟩ := h.unusable hu
    exact h'.unusable hu

theorem write_ok {t t' : TcpConnection} {bs : List UInt8} {a : SendAnswer} {n : Nat}
    (h : t.write bs a = (.ok n, t')) :
    Transfer t t' (bs.take n) [] ∧ n ≤ bs.length ∧ t.Usable ∧ t'.state = t.state := by
  unfold write at h
  split at h
  · cases h
  · rename_i hu
    have hu : t.Usable := by simpa [Usable] using hu
    split at h
    · cases h
    · cases a with
      | accepted k =>
        simp only [Socket.send, Prod.mk.injEq, Except.ok.injEq] at h
        obtain ⟨rfl, rfl⟩ := h
        have e : bs.take (min k bs.length) = bs.take k := by rw [← List.take_take, List.take_length]
        rw [e]
        exact ⟨⟨rfl, by simp, rfl, rfl, rfl, Or.inl rfl, fun hn => absurd hu hn⟩, Nat.min_le_right _ _, hu, rfl⟩
      | failed e =>
        simp only [Socket.send] at h
        split at h
        · simp only [Prod.mk.injEq, Except.ok.injEq] at h
          obtain ⟨rfl, rfl⟩ := h
          exact ⟨⟨by simp, by simp, rfl, rfl, rfl, Or.inl rfl, fun hn => absurd hu hn⟩, Nat.zero_le _, hu, rfl⟩
        · split at h <;> cases h

theorem write_error {t t' : TcpConnection} {bs : List UInt8} {a : SendAnswer} {st : Status}
    (h : t.write bs a = (.error st, t')) :
    Transfer t t' [] [] ∧ (st = .closed ∧ ¬ t'.Usable ∨ st = .invalidArg ∧ bs = [] ∨ st = .error) := by
  unfold write at h
  split at h
  · rename_i hu
    simp only [Prod.mk.injEq, Except.error.injEq] at h
    obtain ⟨rfl, rfl⟩ := h
    refine ⟨Transfer.refl t, Or.inl ⟨rfl, fun h' => ?_⟩⟩
    rcases hu with hu | hu
    · exact absurd h'.1 (by omega)
    · exact hu h'.2
  · rename_i hu
    have hu : t.Usable := by simpa [Usable] using hu
    split at h
    · rename_i hl
      simp only [Prod.mk.injEq, Except.error.injEq] at h
      obtain ⟨rfl, rfl⟩ := h
      exact ⟨Transfer.refl t, Or.inr (Or.inl ⟨rfl, List.length_eq_zero_iff.1 hl⟩)⟩
    · cases a with
      | accepted k => simp [Socket.send] at h
      | failed e =>
        simp only [Socket.send] at h
        split at h
        · cases h
        · split at h
          · simp only [Prod.mk.injEq, Except.error.injEq] at h
            obtain ⟨rfl, rfl⟩ := h
            exact ⟨⟨by simp, by simp, rfl, rfl, rfl, Or.inr rfl, fun hn => absurd hu hn⟩,
              Or.inl ⟨rfl, fun h' => by cases h'.2⟩⟩
          · simp only [Prod.mk.injEq, Except.error.injEq] at h
            obtain ⟨rfl, rfl⟩ := h
            exact ⟨⟨by simp, by simp, rfl, rfl, rfl, Or.inl rfl, fun hn => absurd hu hn⟩, Or.inr (Or.inr rfl)⟩

theorem read_ok {t t' : TcpConnection} {n : Nat} {a : RecvAnswer} {bs : List UInt8}
    (h : t.read n a = (.ok bs, t')) :
    Transfer t t' [] bs ∧ bs.length ≤ n ∧ t.Usable ∧ t'.state = t.state := by
  unfold read at h
  split at h
  · cases h
  · rename_i hu
    have hu : t.Usable := by simpa [Usable] using hu
    split at h
    · cases h
    · cases a with
      | data k =>
        simp only [Socket.recv] at h
        by_cases hb : t.sock.inbox.take (min (k + 1) n) = []
        · simp only [hb, ↓reduceIte, true_or, Prod.mk.injEq, Except.ok.injEq] at h
          obtain ⟨rfl, rfl⟩ := h
          exact ⟨⟨by simp, by simp, rfl, rfl, rfl, Or.inl rfl, fun hn => absurd hu hn⟩, Nat.zero_le _, hu, rfl⟩
        · obtain ⟨c, cs, hc⟩ := List.exists_cons_of_ne_nil hb
          have hl : (c :: cs).length ≤ min (k + 1) n := by
            rw [← hc, List.length_take]
            exact Nat.min_le_left _ _
          have hi : t.sock.inbox = (c :: cs) ++ t.sock.inbox.drop (c :: cs).length := by
            conv => lhs; rw [← List.take_append_drop (c :: cs).length t.sock.inbox]
            congr 1
            rw [← hc, List.length_take, ← List.take_take, List.take_length]
          simp only [hc, reduceCtorEq, ↓reduceIte, Prod.mk.injEq, Except.ok.injEq] at h
          obtain ⟨rfl, rfl⟩ := h
          exact ⟨⟨by simp, rfl, hi, rfl, rfl, Or.inl rfl, fun hn => absurd hu hn⟩, by omega, hu, rfl⟩
      | eof => simp [Socket.recv] at h
      | failed e =>
        simp only [Socket.recv] at h
        split at h
        · simp only [Prod.mk.injEq, Except.ok.injEq] at h
          obtain ⟨rfl, rfl⟩ := h
          exact ⟨⟨by simp, by simp, rfl, rfl, rfl, Or.inl rfl, fun hn => absurd hu hn⟩, Nat.zero_le _, hu, rfl⟩
        · cases h

theorem read_error {t t' : TcpConnection} {n : Nat} {a : RecvAnswer} {st : Status}
    (h : t.read n a = (.error st, t')) :
    Transfer t t' [] [] ∧ (st = .closed ∧ ¬ t'.Usable ∨ st = .invalidArg ∧ n = 0 ∨ st = .error) := by
  unfold read at h
  split at h
  · rename_i hu
    simp only [Prod.mk.injEq, Except.error.injEq] at h
    obtain ⟨rfl, rfl⟩ := h
    refine ⟨Transfer.refl t, Or.inl ⟨rfl, fun h' => ?_⟩⟩
    rcases hu with hu | hu
    · exact absurd h'.1 (by omega)
    · exact hu h'.2
  · rename_i hu
    have hu : t.Usable := by simpa [Usable] using hu
    split at h
    · rename_i hl
      simp only [Prod.mk.injEq, Except.error.injEq] at h
      obtain ⟨rfl, rfl⟩ := h
      exact ⟨Transfer.refl t, Or.inr (Or.inl ⟨rfl, hl⟩)⟩
    · cases a with
      | data k =>
        simp only [Socket.recv] at h
        by_cases hb : t.sock.inbox.take (min (k + 1) n) = []
        · simp [hb] at h
        · obtain ⟨c, cs, hc⟩ := List.exists_cons_of_ne_nil hb
          simp [hc] at h
      | eof =>
        simp only [Socket.recv, Prod.mk.injEq, Except.error.injEq] at h
        obtain ⟨rfl, rfl⟩ := h
        exact ⟨⟨by simp, by simp, rfl, rfl, rfl, Or.inr rfl, fun hn => absurd hu hn⟩,
          Or.inl ⟨rfl, fun h' => by cases h'.2⟩⟩
      | failed e =>
        simp only [Socket.recv] at h
        split at h
        · cases h
        · simp only [Prod.mk.injEq, Except.error.injEq] at h
          obtain ⟨rfl, rfl⟩ := h
          exact ⟨⟨by simp, by simp, rfl, rfl, rfl, Or.inl rfl, fun hn => absurd hu hn⟩, Or.inr (Or.inr rfl)⟩

/-! ### What the other calls do to the socket -/

/-- `t'` is `t` connecting anew, on a socket of its own. -/
structure Dialled (t t' : TcpConnection) : Prop where
  fd : 0 ≤ t'.fd
  state : t'.state = .pending
  sock : t'.sock = {}
  sockets : t'.sockets = t.sockets + 1

/-- `t'` is `t` without its socket. -/
structure Dropped (t t' : TcpConnection) : Prop where
  fd : t'.fd < 0
  sock : t'.sock = t.sock
  sockets : t'.sockets = t.sockets

theorem close_dropped (t : TcpConnection) : Dropped t t.close := by
  unfold close
  split
  · exact ⟨by simp, rfl, rfl⟩
  · rename_i hf
    exact ⟨by simp only; omega, rfl, rfl⟩

theorem Dropped.trans {t t' t'' : TcpConnection} (h : Dropped t t') (h' : Dropped t' t'') : Dropped t t'' :=
  ⟨h'.fd, h'.sock.trans h.sock, h'.sockets.trans h.sockets⟩

theorem connect_cases {t t' : TcpConnection} {ip : IPAddress} {port : UInt16} {timeoutMs now : UInt32}
    {os : ConnectAnswers} {st : Status} (h : t.connect ip port timeoutMs os now = (st, t')) :
    (st = .pending ∧ Dialled t t') ∨ (st ≠ .pending ∧ Dropped t t') := by
  have hd : Dropped t (if 0 ≤ t.fd then t.close else t) := by
    split
    · exact close_dropped t
    · rename_i hf
      exact ⟨by omega, rfl, rfl⟩
  unfold connect at h
  dsimp only at h
  generalize (if 0 ≤ t.fd then t.close else t) = t₁ at h hd
  split at h
  · simp only [Prod.mk.injEq] at h
    obtain ⟨rfl, rfl⟩ := h
    exact Or.inr ⟨nofun, hd⟩
  · split at h
    · simp only [Prod.mk.injEq] at h
      obtain ⟨rfl, rfl⟩ := h
      exact Or.inr ⟨nofun, hd⟩
    · rename_i hsock
      split at h
      · simp only [Prod.mk.injEq] at h
        obtain ⟨rfl, rfl⟩ := h
        exact Or.inr ⟨nofun, hd.fd, hd.sock, hd.sockets⟩
      · split at h
        · simp only [Prod.mk.injEq] at h
          obtain ⟨rfl, rfl⟩ := h
          exact Or.inr ⟨nofun, hd.fd, hd.sock, hd.sockets⟩
        · split at h
          · simp only [Prod.mk.injEq] at h
            obtain ⟨rfl, rfl⟩ := h
            exact Or.inr ⟨nofun, hd.fd, hd.sock, hd.sockets⟩
          · simp only [Prod.mk.injEq] at h
            obtain ⟨rfl, rfl⟩ := h
            exact Or.inl ⟨rfl, by simp only; omega, rfl, rfl, by simp only [hd.sockets]⟩

theorem connect_deadline {t t' : TcpConnection} {ip : IPAddress} {port : UInt16} {timeoutMs now : UInt32}
    {os : ConnectAnswers} (h : t.connect ip port timeoutMs os now = (.pending, t')) :
    t'.deadline = now + timeoutMs := by
  unfold connect at h
  dsimp only at h
  split at h
  · exact absurd (Prod.mk.inj h).1 (by decide)
  · split at h
    · exact absurd (Prod.mk.inj h).1 (by decide)
    · split at h
      · exact absurd (Prod.mk.inj h).1 (by decide)
      · split at h
        · exact absurd (Prod.mk.inj h).1 (by decide)
        · split at h
          · exact absurd (Prod.mk.inj h).1 (by decide)
          · rw [← (Prod.mk.inj h).2]

/-- `poll()` of a connection that is being made: the socket is kept, or closed with a failure. -/
theorem poll_connecting {t t' : TcpConnection} {os : PollAnswers} {now : UInt32} {st : Status} (hfd : 0 ≤ t.fd)
    (hs : t.state ≠ .ok) (h : t.poll os now = (st, t')) :
    (st = .pending ∧ t'.fd = t.fd ∧ t'.state = t.state ∧ t'.sock = t.sock ∧ t'.sockets = t.sockets) ∨
      (st = .ok ∧ t'.fd = t.fd ∧ t'.state = .ok ∧ t'.sock = t.sock ∧ t'.sockets = t.sockets) ∨
      ((st = .timeout ∨ st = .error) ∧ Dropped t t') := by
  have hclose : ∀ cs, Dropped t ({ t with calls := cs } : TcpConnection).close := by
    intro cs
    obtain ⟨h1, h2, h3⟩ := close_dropped { t with calls := cs }
    exact ⟨h1, h2, h3⟩
  unfold poll at h
  rw [if_neg (by omega), if_neg hs] at h
  dsimp only at h
  split at h
  · simp only [Prod.mk.injEq] at h
    obtain ⟨rfl, rfl⟩ := h
    exact Or.inr (Or.inr ⟨Or.inr rfl, hclose _⟩)
  · split at h
    · split at h
      · simp only [Prod.mk.injEq] at h
        obtain ⟨rfl, rfl⟩ := h
        exact Or.inr (Or.inr ⟨Or.inl rfl, hclose _⟩)
      · simp only [Prod.mk.injEq] at h
        obtain ⟨rfl, rfl⟩ := h
        exact Or.inl ⟨rfl, rfl, rfl, rfl, rfl⟩
    · split at h
      · simp only [Prod.mk.injEq] at h
        obtain ⟨rfl, rfl⟩ := h
        exact Or.inr (Or.inr ⟨Or.inr rfl, hclose _⟩)
      · split at h
        · simp only [Prod.mk.injEq] at h
          obtain ⟨rfl, rfl⟩ := h
          exact Or.inr (Or.inl ⟨rfl, rfl, rfl, rfl, rfl⟩)
        · simp only [Prod.mk.injEq] at h
          obtain ⟨rfl, rfl⟩ := h
          exact Or.inr (Or.inr ⟨Or.inr rfl, hclose _⟩)

end TcpConnection

end ControlLogix
