import ControlLogix.Stages

/-!
# How the exchanges of the session end

`Session::poll()` reports the end of an exchange by its status, and `PlcClient::poll()` acts on some of the statuses.
Here the end of an exchange is told from its inputs alone: what is left to be written, what the peer has sent, and
what the socket layer answers (`ending`).

* `writePending_status`, `readResponse_status`: the two loops end as `sending` and `receiving` say;
* `poll_status`: the status of `Session::poll()`;
* `acted_iff`: `PlcClient::poll()` acts on the end of its sub-machine unless the peer closes the connection during
  RegisterSession, or the UnregisterSession exchange fails or runs out of time;
* `not_acted_late`, `trapped`: a client that disconnects after the deadline of its `connect()` stays in
  `Disconnecting`.
-/

namespace ControlLogix

open Transition
open TcpConnection (Transfer)
open Buffers (Framed Wrote Got stored bodyLength)

variable {n : Nat}

/-! ### The end of an exchange, from its inputs -/

/-- How a loop over the answers of the socket layer ends. -/
inductive Ending where
  | blocked
  | complete
  | closed
  | fault
  deriving DecidableEq, Repr

def Ending.status : Ending → Status
  | .blocked => .pending
  | .complete => .ok
  | .closed => .closed
  | .fault => .error

/-- Writing `left` bytes. -/
def sending (left : Nat) : List SendAnswer → Ending
  | [] => if left = 0 then .complete else .blocked
  | .accepted k :: as => if left = 0 then .complete else if k = 0 then .blocked else sending (left - k) as
  | .failed e :: _ =>
    if left = 0 then .complete
    else if e = .ewouldblock ∨ e = .eagain then .blocked
    else if e = .epipe ∨ e = .econnreset then .closed
    else .fault

/-- The length of a response of which `pos` bytes are there. -/
def needed (stream : List UInt8) (pos : Nat) : Nat := if pos < 24 then 24 else 24 + bodyLength stream

/-- Reading a response out of `stream`, of which `pos` bytes have been read. -/
def receiving (cap : Nat) (stream : List UInt8) (pos : Nat) : List RecvAnswer → Ending
  | [] => if needed stream pos ≤ pos then .complete else .blocked
  | .data k :: as =>
    if needed stream pos ≤ pos then .complete
    else
      let got := min (min (k + 1) (needed stream pos - pos)) (stream.length - pos)
      if got = 0 then .blocked
      else if pos + got = 24 ∧ cap < bodyLength stream then .fault
      else receiving cap stream (pos + got) as
  | .eof :: _ => if needed stream pos ≤ pos then .complete else .closed
  | .failed e :: _ =>
    if needed stream pos ≤ pos then .complete
    else if e = .ewouldblock ∨ e = .eagain then .blocked
    else .fault

/-! ### The answers of the socket layer -/

namespace TcpConnection

private theorem unusable_iff {t : TcpConnection} : (t.fd < 0 ∨ t.state ≠ .ok) ↔ ¬ t.Usable := by
  constructor
  · rintro (h | h) ⟨h1, h2⟩
    · omega
    · exact h h2
  · intro h
    by_cases hf : t.fd < 0
    · exact Or.inl hf
    · exact Or.inr fun hs => h ⟨by omega, hs⟩

theorem write_unusable {t : TcpConnection} (h : ¬ t.Usable) (bs : List UInt8) (a : SendAnswer) :
    t.write bs a = (.error .closed, t) := by
  rw [write, if_pos (unusable_iff.2 h)]

theorem read_unusable {t : TcpConnection} (h : ¬ t.Usable) (length : Nat) (a : RecvAnswer) :
    t.read length a = (.error .closed, t) := by
  rw [read, if_pos (unusable_iff.2 h)]

theorem write_accepted {t : TcpConnection} (h : t.Usable) {bs : List UInt8} (hbs : bs.length ≠ 0) (k : Nat) :
    ∃ t', t.write bs (.accepted k) = (.ok (min k bs.length), t') := by
  have hu : ¬ (t.fd < 0 ∨ t.state ≠ .ok) := fun hn => unusable_iff.1 hn h
  rw [write, if_neg hu, if_neg hbs]
  exact ⟨_, rfl⟩

theorem write_failed {t : TcpConnection} (h : t.Usable) {bs : List UInt8} (hbs : bs.length ≠ 0) (e : Errno) :
    ∃ t', t.write bs (.failed e) = (if e = .ewouldblock ∨ e = .eagain then .ok 0
      else if e = .epipe ∨ e = .econnreset then .error .closed else .error .error, t') := by
  have hu : ¬ (t.fd < 0 ∨ t.state ≠ .ok) := fun hn => unusable_iff.1 hn h
  rw [write, if_neg hu, if_neg hbs]
  simp only [Socket.send]
  split
  · exact ⟨_, rfl⟩
  · split <;> exact ⟨_, rfl⟩

theorem read_data {t : TcpConnection} (h : t.Usable) {length : Nat} (hl : length ≠ 0) (k : Nat) :
    ∃ t', t.read length (.data k) = (.ok (t.sock.inbox.take (min (k + 1) length)), t') := by
  have hu : ¬ (t.fd < 0 ∨ t.state ≠ .ok) := fun hn => unusable_iff.1 hn h
  rw [read, if_neg hu, if_neg hl]
  simp only [Socket.recv]
  by_cases hb : t.sock.inbox.take (min (k + 1) length) = []
  · simp only [hb, ↓reduceIte, true_or]
    exact ⟨_, rfl⟩
  · obtain ⟨c, cs, hc⟩ := List.exists_cons_of_ne_nil hb
    simp only [hc, reduceCtorEq, ↓reduceIte]
    exact ⟨_, rfl⟩

theorem read_eof {t : TcpConnection} (h : t.Usable) {length : Nat} (hl : length ≠ 0) :
    ∃ t', t.read length .eof = (.error .closed, t') := by
  have hu : ¬ (t.fd < 0 ∨ t.state ≠ .ok) := fun hn => unusable_iff.1 hn h
  rw [read, if_neg hu, if_neg hl]
  exact ⟨_, rfl⟩

theorem read_failed {t : TcpConnection} (h : t.Usable) {length : Nat} (hl : length ≠ 0) (e : Errno) :
    ∃ t', t.read length (.failed e) =
      (if e = .ewouldblock ∨ e = .eagain then .ok [] else .error .error, t') := by
  have hu : ¬ (t.fd < 0 ∨ t.state ≠ .ok) := fun hn => unusable_iff.1 hn h
  rw [read, if_neg hu, if_neg hl]
  simp only [Socket.recv]
  split <;> exact ⟨_, rfl⟩

end TcpConnection

/-! ### The loops end as told -/

section Loops

private theorem chunk_length {b : Buffers} (hfit : b.txLen ≤ b.tx.length) :
    ((b.tx.drop b.txSent).take (b.txLen - b.txSent)).length = b.txLen - b.txSent := by
  rw [List.length_take, List.length_drop]
  omega

theorem writePending_status {b : Buffers} {conn : TcpConnection} (as : List SendAnswer)
    (hfit : b.txLen ≤ b.tx.length) (hu : conn.Usable) :
    (b.writePending conn as).1 = (sending (b.txLen - b.txSent) as).status := by
  -- one answer of the socket after the other
  induction as generalizing b conn with
  | nil =>
    unfold Buffers.writePending sending
    by_cases hlt : b.txSent < b.txLen
    · have hleft : b.txLen - b.txSent ≠ 0 := by omega
      obtain ⟨t', ht⟩ := TcpConnection.write_failed hu (chunk_length hfit ▸ hleft) .ewouldblock
      rw [if_pos hlt, if_neg hleft, ht]
      rfl
    · rw [if_neg hlt, if_pos (by omega)]
      rfl
  | cons a as ih =>
    unfold Buffers.writePending
    by_cases hlt : b.txSent < b.txLen
    · have hleft : b.txLen - b.txSent ≠ 0 := by omega
      have hchunk := chunk_length hfit ▸ hleft
      rw [if_pos hlt]
      cases a with
      | accepted k =>
        obtain ⟨t', ht⟩ := TcpConnection.write_accepted hu hchunk k
        obtain ⟨htr, -, -, hst⟩ := TcpConnection.write_ok ht
        have hu' : t'.Usable := ⟨htr.fd ▸ hu.1, hst.trans hu.2⟩
        rw [chunk_length hfit] at ht
        rw [sending, if_neg hleft, ht]
        by_cases hk : k = 0
        · rw [if_pos hk, hk, Nat.zero_min]
          rfl
        · rw [if_neg hk]
          obtain ⟨m, hm⟩ : ∃ m, min k (b.txLen - b.txSent) = m + 1 := ⟨min k (b.txLen - b.txSent) - 1, by omega⟩
          have hnext := ih (b := { b with txSent := b.txSent + (m + 1) }) hfit hu'
          have hrest : b.txLen - (b.txSent + (m + 1)) = b.txLen - b.txSent - k := by omega
          rw [hm]
          simp only [hrest] at hnext
          exact hnext
      | failed e =>
        obtain ⟨t', ht⟩ := TcpConnection.write_failed hu hchunk e
        rw [sending, if_neg hleft, ht]
        by_cases hb : e = .ewouldblock ∨ e = .eagain
        · simp only [if_pos hb]
          rfl
        · by_cases hp : e = .epipe ∨ e = .econnreset
          · simp only [if_neg hb, if_pos hp]
            rfl
          · simp only [if_neg hb, if_neg hp]
            rfl
    · rw [if_neg hlt, show b.txLen - b.txSent = 0 by omega]
      cases a <;> rfl

/-- The bytes of the response that have been read, and those that wait at the socket. -/
def stream (b : Buffers) (conn : TcpConnection) : List UInt8 := b.rx.take b.rxLen ++ conn.sock.inbox

private theorem stream_read {cap : Nat} {b : Buffers} {conn conn' : TcpConnection} {bs : List UInt8}
    (hf : Framed cap b) (ht : Transfer conn conn' [] bs) : stream (stored b bs) conn' = stream b conn := by
  rw [stream, stream, Buffers.stored_bytes hf, ht.inbox, List.append_assoc]

/-- The header can be read off the stream as soon as it is complete. -/
private theorem bodyLength_stream {b : Buffers} {conn : TcpConnection} (hfit : b.rxLen ≤ b.rx.length)
    (h24 : 24 ≤ b.rxLen) : bodyLength (stream b conn) = bodyLength b.rx := by
  apply Buffers.bodyLength_congr
  have hlen : 24 ≤ (b.rx.take b.rxLen).length := by
    rw [List.length_take]
    omega
  rw [stream, List.take_append_of_le_length hlen, List.take_take, Nat.min_eq_left h24]

private theorem needed_stream {cap : Nat} {b : Buffers} (conn : TcpConnection) (hf : Framed cap b) :
    needed (stream b conn) b.rxLen = b.rxExpected := by
  unfold needed
  split
  · rename_i hlt
    exact (hf.head hlt).symm
  · rename_i hge
    rw [bodyLength_stream hf.fits (by omega), (hf.body (by omega)).1]

theorem readResponse_status {cap : Nat} {b : Buffers} {conn : TcpConnection} (as : List RecvAnswer)
    (hf : Framed cap b) (hu : conn.Usable) :
    (b.readResponse cap conn as).1 = (receiving cap (stream b conn) b.rxLen as).status := by
  -- one answer of the socket after the other; what is still to come of the stream does not change
  induction as generalizing b conn with
  | nil =>
    unfold Buffers.readResponse receiving
    rw [needed_stream conn hf]
    by_cases hlt : b.rxLen < b.rxExpected
    · have hleft : b.rxExpected - b.rxLen ≠ 0 := by omega
      obtain ⟨t', ht⟩ := TcpConnection.read_failed hu hleft .ewouldblock
      rw [if_pos hlt, if_neg (by omega), ht]
      rfl
    · rw [if_neg hlt, if_pos (by omega)]
      rfl
  | cons a as ih =>
    unfold Buffers.readResponse
    by_cases hlt : b.rxLen < b.rxExpected
    · have hleft : b.rxExpected - b.rxLen ≠ 0 := by omega
      have hmore : ¬ needed (stream b conn) b.rxLen ≤ b.rxLen := by
        rw [needed_stream conn hf]
        omega
      rw [if_pos hlt]
      cases a with
      | data k =>
        obtain ⟨t', ht⟩ := TcpConnection.read_data hu hleft k
        obtain ⟨htr, hle, -, hst⟩ := TcpConnection.read_ok ht
        have hu' : t'.Usable := ⟨htr.fd ▸ hu.1, hst.trans hu.2⟩
        have hstream : (stream b conn).length - b.rxLen = conn.sock.inbox.length := by
          have hfits := hf.fits
          rw [stream, List.length_append, List.length_take]
          omega
        rw [receiving, if_neg hmore, needed_stream conn hf, hstream, ← List.length_take, ht]
        generalize conn.sock.inbox.take (min (k + 1) (b.rxExpected - b.rxLen)) = bs at hle htr
        cases bs with
        | nil => rfl
        | cons c cs =>
          -- the bytes move from the inbox into the buffer
          have hnext : stream (stored b (c :: cs)) t' = stream b conn := stream_read hf htr
          have hgot : ¬ (c :: cs).length = 0 := by simp
          have hlen : (stored b (c :: cs)).rxLen = b.rxLen + (c :: cs).length := rfl
          dsimp only
          rw [if_neg hgot, ← hlen]
          by_cases h24 : (stored b (c :: cs)).rxLen = 24
          · -- the header is complete: the length it announces decides
            have hbody : bodyLength (stream b conn) = bodyLength (stored b (c :: cs)).rx := by
              rw [← hnext]
              exact bodyLength_stream (Buffers.stored_fits hf _) (by omega)
            rw [if_pos (show (stored b (c :: cs)).rxLen = kEncapsulationHeaderSize from h24), hbody]
            by_cases hcap : bodyLength (stored b (c :: cs)).rx ≤ cap
            · have hready := ih (Buffers.stored_header hf (c :: cs) h24 hcap) hu'
              have hsmall : ¬ (decodeHeader (stored b (c :: cs)).rx).length.toNat > cap := Nat.not_lt.2 hcap
              rw [if_neg hsmall, if_neg (by omega), ← hnext]
              exact hready
            · have hlarge : (decodeHeader (stored b (c :: cs)).rx).length.toNat > cap := Nat.lt_of_not_le hcap
              rw [if_pos hlarge, if_pos ⟨h24, by omega⟩]
              rfl
          · have hready := ih (Buffers.stored_framed hf (List.cons_ne_nil c cs) hle (by omega) h24) hu'
            rw [if_neg (show ¬ (stored b (c :: cs)).rxLen = kEncapsulationHeaderSize from h24),
              if_neg fun h => h24 h.1]
            rw [hnext] at hready
            exact hready
      | eof =>
        obtain ⟨t', ht⟩ := TcpConnection.read_eof hu hleft
        rw [receiving, if_neg hmore, ht]
        rfl
      | failed e =>
        obtain ⟨t', ht⟩ := TcpConnection.read_failed hu hleft e
        rw [receiving, if_neg hmore, ht]
        by_cases hb : e = .ewouldblock ∨ e = .eagain
        · simp only [if_pos hb]
          rfl
        · simp only [if_neg hb]
          rfl
    · have hdone : needed (stream b conn) b.rxLen ≤ b.rxLen := by
        rw [needed_stream conn hf]
        omega
      rw [if_neg hlt]
      cases a <;> rw [receiving, if_pos hdone] <;> rfl

/-! A loop with nothing left to do, and a loop on a socket that is not usable, stop at once. -/

theorem writePending_through {b : Buffers} (h : ¬ b.txSent < b.txLen) (conn : TcpConnection)
    (as : List SendAnswer) : b.writePending conn as = (.ok, b, conn) := by
  cases as <;> rw [Buffers.writePending, if_neg h]

theorem writePending_unusable {b : Buffers} (h : b.txSent < b.txLen) {conn : TcpConnection}
    (hu : ¬ conn.Usable) (as : List SendAnswer) : b.writePending conn as = (.closed, b, conn) := by
  cases as <;> rw [Buffers.writePending, if_pos h, TcpConnection.write_unusable hu]

private theorem readResponse_through {b : Buffers} (h : ¬ b.rxLen < b.rxExpected) (cap : Nat) (conn : TcpConnection)
    (as : List RecvAnswer) : b.readResponse cap conn as = (.ok, b, conn) := by
  cases as <;> rw [Buffers.readResponse, if_neg h]

theorem readResponse_unusable {b : Buffers} (h : b.rxLen < b.rxExpected) (cap : Nat) {conn : TcpConnection}
    (hu : ¬ conn.Usable) (as : List RecvAnswer) : b.readResponse cap conn as = (.closed, b, conn) := by
  cases as <;> rw [Buffers.readResponse, if_pos h, TcpConnection.read_unusable hu]

/-- How an exchange goes on in one `poll()` that finds its deadline in the future: the rest of the request is written,
and then the response is read. -/
def Buffers.ending (cap : Nat) (b : Buffers) (conn : TcpConnection) (os : Platform) : Ending :=
  if ¬ conn.Usable ∧ (b.txSent < b.txLen ∨ b.rxLen < b.rxExpected) then .closed
  else
    match sending (b.txLen - b.txSent) os.sends with
    | .complete => receiving cap (stream b conn) b.rxLen os.recvs
    | e => e

/-- The two loops of an exchange stop as `ending` says. -/
theorem Buffers.loops_status {cap : Nat} {b : Buffers} (conn : TcpConnection) (os : Platform) (hf : Framed cap b)
    (hfit : b.txLen ≤ b.tx.length) :
    (b.ending cap conn os ≠ .complete ∧
        ∃ b₁ conn₁, b.writePending conn os.sends = ((b.ending cap conn os).status, b₁, conn₁)) ∨
      ∃ b₁ conn₁ b₂ conn₂, b.writePending conn os.sends = (.ok, b₁, conn₁) ∧
        b₁.readResponse cap conn₁ os.recvs = ((b.ending cap conn os).status, b₂, conn₂) := by
  unfold Buffers.ending
  by_cases hu : conn.Usable
  · rw [if_neg (fun h => h.1 hu)]
    have hw := writePending_status os.sends hfit hu
    obtain ⟨st, b₁, conn₁, hwr⟩ : ∃ st b₁ conn₁, b.writePending conn os.sends = (st, b₁, conn₁) := ⟨_, _, _, rfl⟩
    have hspec := Buffers.writePending_spec hwr
    rw [hwr] at hw
    simp only at hw
    subst hw
    cases hsend : sending (b.txLen - b.txSent) os.sends with
    | complete =>
      rw [hsend] at hwr hspec
      -- the request is out: what is read is what the peer has sent
      have hu₁ : conn₁.Usable := ⟨hspec.transfer.fd ▸ hu.1, (hspec.alive (Or.inl rfl)).trans hu.2⟩
      have hr := readResponse_status os.recvs (hspec.framed hf) hu₁
      have hrx : stream b₁ conn₁ = stream b conn ∧ b₁.rxLen = b.rxLen := by
        have hin := hspec.transfer.inbox
        rw [List.nil_append] at hin
        rw [stream, stream, hin, hspec.frame]
        exact ⟨rfl, rfl⟩
      rw [hrx.1, hrx.2] at hr
      obtain ⟨st₂, b₂, conn₂, hrd⟩ : ∃ st b₂ conn₂, b₁.readResponse cap conn₁ os.recvs = (st, b₂, conn₂) :=
        ⟨_, _, _, rfl⟩
      rw [hrd] at hr
      simp only at hr
      subst hr
      exact Or.inr ⟨b₁, conn₁, b₂, conn₂, hwr, hrd⟩
    | blocked =>
      rw [hsend] at hwr
      exact Or.inl ⟨nofun, b₁, conn₁, hwr⟩
    | closed =>
      rw [hsend] at hwr
      exact Or.inl ⟨nofun, b₁, conn₁, hwr⟩
    | fault =>
      rw [hsend] at hwr
      exact Or.inl ⟨nofun, b₁, conn₁, hwr⟩
  · by_cases htx : b.txSent < b.txLen
    · rw [if_pos ⟨hu, Or.inl htx⟩]
      exact Or.inl ⟨nofun, b, conn, writePending_unusable htx hu os.sends⟩
    · by_cases hrx : b.rxLen < b.rxExpected
      · rw [if_pos ⟨hu, Or.inr hrx⟩]
        exact Or.inr ⟨b, conn, b, conn, writePending_through htx conn os.sends,
          readResponse_unusable hrx cap hu os.recvs⟩
      · have hsent : ∀ as, sending (b.txLen - b.txSent) as = .complete := by
          intro as
          rw [show b.txLen - b.txSent = 0 by omega]
          cases as with
          | nil => rfl
          | cons a as => cases a <;> rfl
        have hread : ∀ as, receiving cap (stream b conn) b.rxLen as = .complete := by
          intro as
          have hdone : needed (stream b conn) b.rxLen ≤ b.rxLen := by
            rw [needed_stream conn hf]
            omega
          cases as with
          | nil => rw [receiving, if_pos hdone]
          | cons a as => cases a <;> rw [receiving, if_pos hdone]
        rw [if_neg fun h => h.2.elim htx hrx, hsent]
        dsimp only
        rw [hread]
        exact Or.inr ⟨b, conn, b, conn, writePending_through htx conn os.sends,
          readResponse_through hrx cap conn os.recvs⟩

end Loops

/-! ### The end of a session's exchange -/

/-- How the exchange of a session goes on in one `poll()` that finds its deadline in the future. -/
def Session.ending (s : Session) (conn : TcpConnection) (os : Platform) : Ending :=
  s.toBuffers.ending Session.kMaxBodySize conn os

/-- The loops of an exchange stop as `ending` says, and the session goes on to `finish` when they are through. -/
private theorem pollExchange_status (finish : Session → Status × Session) {s : Session} {conn : TcpConnection}
    {now : UInt32} {os : Platform} (hf : Framed Session.kMaxBodySize s.toBuffers) (hl : s.Loaded)
    (hnow : expired now s.deadline = false) :
    (s.ending conn os ≠ .complete ∧ (Session.pollExchange finish s conn now os).1 = (s.ending conn os).status) ∨
      (s.ending conn os = .complete ∧
        ∃ b, (Session.pollExchange finish s conn now os).1 = (finish { s with toBuffers := b }).1) := by
  have hin : ¬ expired now s.deadline = true := by simp [hnow]
  have he : s.ending conn os = s.toBuffers.ending Session.kMaxBodySize conn os := rfl
  unfold Session.pollExchange
  rw [if_neg hin, he]
  rcases Buffers.loops_status conn os hf (Nat.le_of_eq hl.len) with
    ⟨hne, b₁, conn₁, hw⟩ | ⟨b₁, conn₁, b₂, conn₂, hw, hr⟩
  · -- the request could not be written to its end
    refine Or.inl ⟨hne, ?_⟩
    rw [hw]
    cases hend : s.toBuffers.ending Session.kMaxBodySize conn os with
    | complete => exact absurd hend hne
    | blocked => rfl
    | closed => rfl
    | fault => rfl
  · rw [hw]
    dsimp only
    rw [hr]
    cases s.toBuffers.ending Session.kMaxBodySize conn os with
    | complete => exact Or.inr ⟨rfl, b₂, rfl⟩
    | blocked => exact Or.inl ⟨nofun, rfl⟩
    | closed => exact Or.inl ⟨nofun, rfl⟩
    | fault => exact Or.inl ⟨nofun, rfl⟩

/-- What `Session::poll()` returns for an exchange. -/
theorem Session.poll_status {s : Session} (conn : TcpConnection) (now : UInt32) (os : Platform) (hx : s.Exchanging)
    (hf : Framed Session.kMaxBodySize s.toBuffers) (hl : s.Loaded) :
    (expired now s.deadline = true ∧ (s.poll conn now os).1 = .timeout) ∨
      (expired now s.deadline = false ∧ s.ending conn os ≠ .complete ∧
        (s.poll conn now os).1 = (s.ending conn os).status) ∨
      (expired now s.deadline = false ∧ s.ending conn os = .complete ∧
        ((s.poll conn now os).1 = .ok ∨ s.state = .registering ∧ (s.poll conn now os).1 = .error)) := by
  have hpoll : ∀ finish, s.poll conn now os = Session.pollExchange finish s conn now os →
      expired now s.deadline = true → (s.poll conn now os).1 = .timeout := by
    intro finish he hnow
    rw [he, Session.pollExchange, if_pos hnow]
  cases hnow : expired now s.deadline
  · right
    rcases hx with hx | hx
    · have he : s.poll conn now os = Session.pollExchange Session.finishRegister s conn now os := by
        rw [Session.poll, hx]
        rfl
      rw [he]
      rcases pollExchange_status Session.finishRegister hf hl hnow with ⟨h1, h2⟩ | ⟨h1, b, h2⟩
      · exact Or.inl ⟨rfl, h1, h2⟩
      · refine Or.inr ⟨rfl, h1, ?_⟩
        rw [h2]
        simp only [Session.finishRegister]
        split
        · exact Or.inr ⟨hx, rfl⟩
        · split
          · exact Or.inr ⟨hx, rfl⟩
          · exact Or.inl rfl
    · have he : s.poll conn now os = Session.pollExchange Session.finishUnregister s conn now os := by
        rw [Session.poll, hx]
        rfl
      rw [he]
      rcases pollExchange_status Session.finishUnregister hf hl hnow with ⟨h1, h2⟩ | ⟨h1, b, h2⟩
      · exact Or.inl ⟨rfl, h1, h2⟩
      · exact Or.inr ⟨rfl, h1, Or.inl h2⟩
  · left
    refine ⟨rfl, ?_⟩
    rcases hx with hx | hx
    · refine hpoll Session.finishRegister ?_ hnow
      rw [Session.poll, hx]
      rfl
    · refine hpoll Session.finishUnregister ?_ hnow
      rw [Session.poll, hx]
      rfl

/-! ### What the facade makes of it -/

/-- The status `tcp_.poll()` or `session_.poll()` returns inside a call of `PlcClient::poll()`; `none` when neither is
called. -/
def PlcClient.subStatus (p : PlcClient n) (os : Platform) : Option Status :=
  match p.state with
  | .connecting => if expired (os.millis 0) p.deadline then none else some (p.tcp.poll os.poll (os.millis 1)).1
  | .registering =>
    if expired (os.millis 0) p.deadline then none else some (p.session.poll p.tcp (os.millis 1) os).1
  | .disconnecting => some (p.session.poll p.tcp (os.millis 0) os).1
  | _ => none

/-- The inputs on which `PlcClient::poll()` acts: no peer close during RegisterSession, and an UnregisterSession
exchange that has not failed, does not fail and is in time. -/
def PlcClient.ActsOn (p : PlcClient n) (os : Platform) : Prop :=
  match p.state with
  | .registering => expired (os.millis 0) p.deadline = true ∨ p.session.state = .failed ∨
      expired (os.millis 1) p.session.deadline = true ∨ p.session.ending p.tcp os ≠ .closed
  | .disconnecting => p.session.state = .unregistering ∧ expired (os.millis 0) p.session.deadline = false ∧
      p.session.ending p.tcp os ≠ .fault
  | _ => True

private theorem leaves_connecting {p : PlcClient n} (h : Staged p) (hs : p.state = .connecting) {os : Platform}
    (hnow : expired (os.millis 0) p.deadline = false) (hst : (p.tcp.poll os.poll (os.millis 1)).1 ≠ .pending) :
    (p.pollConnecting os).2.1.state ≠ .connecting := by
  obtain ⟨hfd, htcp, -, -⟩ := h.connecting hs
  have hne : p.tcp.state ≠ .ok := by
    rw [htcp]
    nofun
  obtain ⟨st, tcp, hpoll⟩ : ∃ st tcp, p.tcp.poll os.poll (os.millis 1) = (st, tcp) := ⟨_, _, rfl⟩
  have hlate : ¬ expired (os.millis 0) p.deadline = true := by simp [hnow]
  rw [hpoll] at hst
  unfold PlcClient.pollConnecting
  rw [if_neg hlate, hpoll]
  dsimp only
  rcases TcpConnection.poll_connecting hfd hne hpoll with ⟨rfl, -⟩ | ⟨rfl, -⟩ | ⟨hbad, -⟩
  · exact absurd rfl hst
  · rw [if_pos rfl]
    split <;> nofun
  · have hok : st ≠ .ok := by
      rcases hbad with rfl | rfl <;> nofun
    rw [if_neg hok, if_pos hbad]
    nofun

/-- The facade leaves `Registering` on `Ok`, `Timeout` and `Error`. -/
private theorem registering_state {p : PlcClient n} (hs : p.state = .registering) {os : Platform}
    (hnow : expired (os.millis 0) p.deadline = false) :
    (p.pollRegistering os).2.1.state = .registering ↔ (p.session.poll p.tcp (os.millis 1) os).1 ≠ .ok ∧
      (p.session.poll p.tcp (os.millis 1) os).1 ≠ .timeout ∧ (p.session.poll p.tcp (os.millis 1) os).1 ≠ .error := by
  obtain ⟨st, session, tcp, hpoll⟩ : ∃ st session tcp, p.session.poll p.tcp (os.millis 1) os = (st, session, tcp) :=
    ⟨_, _, _, rfl⟩
  have hlate : ¬ expired (os.millis 0) p.deadline = true := by simp [hnow]
  unfold PlcClient.pollRegistering
  rw [if_neg hlate, hpoll]
  dsimp only
  by_cases hok : st = .ok
  · rw [if_pos hok]
    exact ⟨nofun, fun h => absurd hok h.1⟩
  · rw [if_neg hok]
    by_cases hbad : st = .timeout ∨ st = .error
    · rw [if_pos hbad]
      exact ⟨nofun, fun h => absurd hbad (not_or.2 h.2)⟩
    · rw [if_neg hbad]
      exact ⟨fun _ => ⟨hok, not_or.1 hbad⟩, fun _ => hs⟩

/-- The facade leaves `Disconnecting` on `Ok` and `Closed`, and then for `Idle`. -/
private theorem disconnecting_state {p : PlcClient n} (hs : p.state = .disconnecting) (os : Platform) :
    (((p.session.poll p.tcp (os.millis 0) os).1 = .ok ∨ (p.session.poll p.tcp (os.millis 0) os).1 = .closed) ∧
      (p.pollDisconnecting os).2.1.state = .idle ∧ (p.pollDisconnecting os).2.1.tcp.fd < 0 ∧
      (p.pollDisconnecting os).2.2 = if p.stateCallback then some .closed else none) ∨
    (¬ ((p.session.poll p.tcp (os.millis 0) os).1 = .ok ∨ (p.session.poll p.tcp (os.millis 0) os).1 = .closed) ∧
      (p.pollDisconnecting os).2.1.state = .disconnecting) := by
  obtain ⟨st, session, tcp, hpoll⟩ : ∃ st session tcp, p.session.poll p.tcp (os.millis 0) os = (st, session, tcp) :=
    ⟨_, _, _, rfl⟩
  unfold PlcClient.pollDisconnecting
  rw [hpoll]
  dsimp only
  by_cases hend : st = .ok ∨ st = .closed
  · rw [if_pos hend]
    exact Or.inl ⟨hend, rfl, (TcpConnection.close_dropped tcp).fd, rfl⟩
  · rw [if_neg hend]
    exact Or.inr ⟨hend, hs⟩

namespace World

/-- `PlcClient::poll()` acts on the end of its sub-machine: it leaves the state, and `Disconnecting` for `Idle`, with
the socket closed and the state callback made. -/
def Acted (w : World n) (os : Platform) : Prop :=
  ∀ st, w.plc.subStatus os = some st → st ≠ .pending → (w.poll os).plc.state ≠ w.plc.state ∧
    (w.plc.state = .disconnecting → (w.poll os).plc.state = .idle ∧ (w.poll os).plc.tcp.fd < 0 ∧
      (w.plc.stateCallback = true → (w.poll os).log = w.log ++ [.stateCallback .closed]))

private theorem poll_plc {w : World n} {os : Platform} {st : Status} {p : PlcClient n} {called : Option Status}
    (h : w.plc.pollState os = some (st, p, called)) : (w.poll os).plc = p := by
  unfold World.poll
  rw [h]

private theorem acted_registering {w : World n} {os : Platform} (h : Staged w.plc) (hs : w.plc.state = .registering) :
    Acted w os ↔ w.plc.ActsOn os := by
  have hpoll : w.plc.pollState os = some (w.plc.pollRegistering os) := by
    rw [PlcClient.pollState, hs]
  have hplc : (w.poll os).plc = (w.plc.pollRegistering os).2.1 := poll_plc hpoll
  cases hnow : expired (os.millis 0) w.plc.deadline
  · have hstate := registering_state hs hnow
    obtain ⟨st, hst⟩ : ∃ st, (w.plc.session.poll w.plc.tcp (os.millis 1) os).1 = st := ⟨_, rfl⟩
    rw [hst] at hstate
    -- the only status the facade overlooks is `Closed`
    have hacted : Acted w os ↔ (st ≠ .pending → st = .ok ∨ st = .timeout ∨ st = .error) := by
      unfold Acted
      rw [hplc, hs, show w.plc.subStatus os = some st by simp [PlcClient.subStatus, hs, hnow, hst]]
      constructor
      · intro hall hp
        have hleft := (hall st rfl hp).1
        rw [ne_eq, hstate] at hleft
        grind
      · intro hall st' e hp
        obtain rfl := Option.some.inj e
        refine ⟨fun hstay => ?_, nofun⟩
        obtain ⟨h1, h2, h3⟩ := hstate.1 hstay
        rcases hall hp with e | e | e
        · exact h1 e
        · exact h2 e
        · exact h3 e
    have hacts : w.plc.ActsOn os ↔ (w.plc.session.state = .failed ∨
        expired (os.millis 1) w.plc.session.deadline = true ∨ w.plc.session.ending w.plc.tcp os ≠ .closed) := by
      simp [PlcClient.ActsOn, hs, hnow]
    rw [hacted, hacts]
    rcases h.registering hs with hx | hx
    · have hnf : w.plc.session.state ≠ .failed := by
        rw [hx]
        nofun
      obtain ⟨hf, hl⟩ := h.exchanging (Or.inl hx)
      rcases Session.poll_status w.plc.tcp (os.millis 1) os (Or.inl hx) hf hl with
        ⟨hd, he⟩ | ⟨hd, hne, he⟩ | ⟨hd, hc, he⟩
      · rw [hst] at he
        exact ⟨fun _ => Or.inr (Or.inl hd), fun _ _ => Or.inr (Or.inl he)⟩
      · rw [hst] at he
        subst he
        cases hend : w.plc.session.ending w.plc.tcp os
        · exact ⟨fun _ => Or.inr (Or.inr nofun), fun _ hp => absurd rfl hp⟩
        · exact absurd hend hne
        · constructor
          · intro hall
            rcases hall nofun with e | e | e <;> cases e
          · rintro (e | e | e)
            · exact absurd e hnf
            · rw [hd] at e
              cases e
            · exact absurd rfl e
        · exact ⟨fun _ => Or.inr (Or.inr nofun), fun _ _ => Or.inr (Or.inr rfl)⟩
      · rw [hst] at he
        refine ⟨fun _ => Or.inr (Or.inr (hc ▸ nofun)), fun _ _ => ?_⟩
        rcases he with he | ⟨-, he⟩
        · exact Or.inl he
        · exact Or.inr (Or.inr he)
    · have he : st = .error := by
        rw [← hst, Session.poll, hx]
      exact ⟨fun _ => Or.inl hx, fun _ _ => Or.inr (Or.inr he)⟩
  · -- the deadline of `connect()` has passed: the session is not polled
    constructor
    · intro _
      simp [PlcClient.ActsOn, hs, hnow]
    · intro _ st hst
      simp [PlcClient.subStatus, hs, hnow] at hst

private theorem acted_disconnecting {w : World n} {os : Platform} (h : Staged w.plc)
    (hs : w.plc.state = .disconnecting) : Acted w os ↔ w.plc.ActsOn os := by
  have hpoll : w.plc.pollState os = some (w.plc.pollDisconnecting os) := by
    rw [PlcClient.pollState, hs]
  have hplc : (w.poll os).plc = (w.plc.pollDisconnecting os).2.1 := poll_plc hpoll
  obtain ⟨st, hst⟩ : ∃ st, (w.plc.session.poll w.plc.tcp (os.millis 0) os).1 = st := ⟨_, rfl⟩
  have hstate := disconnecting_state hs os
  rw [hst] at hstate
  have hacted : Acted w os ↔ (st ≠ .pending → st = .ok ∨ st = .closed) := by
    have hsub : w.plc.subStatus os = some st := by
      simp only [PlcClient.subStatus, hs, hst]
    unfold Acted
    rw [hsub, hplc, hs]
    rcases hstate with ⟨hend, hidle, hfd, hcb⟩ | ⟨hend, hstay⟩
    · have hlog : w.plc.stateCallback = true → (w.poll os).log = w.log ++ [.stateCallback .closed] := by
        intro hset
        unfold World.poll
        rw [hpoll]
        dsimp only
        rw [hcb, if_pos hset, if_neg (by simp [hs])]
        simp
      refine ⟨fun _ _ => hend, fun _ st' _ _ => ⟨?_, fun _ => ⟨hidle, hfd, hlog⟩⟩⟩
      rw [hidle]
      nofun
    · constructor
      · intro hall hp
        exact absurd hstay (hall st rfl hp).1
      · intro hall st' e hp
        obtain rfl := Option.some.inj e
        exact absurd (hall hp) hend
  have hacts : w.plc.ActsOn os ↔ w.plc.session.state = .unregistering ∧
      expired (os.millis 0) w.plc.session.deadline = false ∧ w.plc.session.ending w.plc.tcp os ≠ .fault := by
    simp [PlcClient.ActsOn, hs]
  rw [hacted, hacts]
  rcases h.disconnecting hs with hx | hx
  · obtain ⟨hf, hl⟩ := h.exchanging (Or.inr hx)
    rcases Session.poll_status w.plc.tcp (os.millis 0) os (Or.inr hx) hf hl with
      ⟨hd, he⟩ | ⟨hd, hne, he⟩ | ⟨hd, hc, he⟩
    · rw [hst] at he
      subst he
      constructor
      · intro hall
        rcases hall nofun with e | e <;> cases e
      · rintro ⟨-, e, -⟩
        rw [hd] at e
        cases e
    · rw [hst] at he
      subst he
      cases hend : w.plc.session.ending w.plc.tcp os
      · exact ⟨fun _ => ⟨hx, hd, nofun⟩, fun _ hp => absurd rfl hp⟩
      · exact absurd hend hne
      · exact ⟨fun _ => ⟨hx, hd, nofun⟩, fun _ _ => Or.inr rfl⟩
      · constructor
        · intro hall
          rcases hall nofun with e | e <;> cases e
        · intro e
          exact absurd rfl e.2.2
    · rw [hst] at he
      refine ⟨fun _ => ⟨hx, hd, hc ▸ nofun⟩, fun _ _ => ?_⟩
      rcases he with he | ⟨e, -⟩
      · exact Or.inl he
      · rw [hx] at e
        cases e
  · have he : st = .error := by
      rw [← hst, Session.poll, hx]
    subst he
    constructor
    · intro hall
      rcases hall nofun with e | e <;> cases e
    · rintro ⟨e, -⟩
      rw [hx] at e
      cases e

/-- In every reachable state, on every clock and every network, `PlcClient::poll()` acts on the end of its sub-machine
if and only if the inputs are such that it does. -/
theorem acted_iff {w : World n} (h : Reachable w) (os : Platform) : Acted w os ↔ w.plc.ActsOn os := by
  cases hs : w.plc.state
  case connecting =>
    have hpoll : w.plc.pollState os = some (w.plc.pollConnecting os) := by
      rw [PlcClient.pollState, hs]
    have hplc : (w.poll os).plc = (w.plc.pollConnecting os).2.1 := poll_plc hpoll
    constructor
    · intro _
      simp [PlcClient.ActsOn, hs]
    · intro _ st hsub hp
      rw [hplc, hs]
      refine ⟨?_, nofun⟩
      cases hnow : expired (os.millis 0) w.plc.deadline
      · simp only [PlcClient.subStatus, hs, hnow, Bool.false_eq_true, ↓reduceIte, Option.some.injEq] at hsub
        subst hsub
        exact leaves_connecting h.staged hs hnow hp
      · simp [PlcClient.subStatus, hs, hnow] at hsub
  case registering => exact acted_registering h.staged hs
  case disconnecting => exact acted_disconnecting h.staged hs
  all_goals
    constructor
    · intro _
      simp [PlcClient.ActsOn, hs]
    · intro _ st hsub
      simp [PlcClient.subStatus, hs] at hsub

/-- A registered client whose sketch disconnects ten seconds after `connect()`, which was given five. -/
def lateDisconnect : List Act := bringUp 7 ++ [.call .disconnect]

/-- A client that disconnects in time, and the `poll()` that finds the connection closed by the peer. -/
theorem acted_iff_closed :
    let w := reached 8 lateDisconnect
    w.plc.ActsOn { recvs := [.eof], sends := [.accepted 24] } ∧
      Acted w { recvs := [.eof], sends := [.accepted 24] } := by
  have hstate : (reached 8 lateDisconnect).plc.state = .disconnecting := by decide +kernel
  have hacts : (reached 8 lateDisconnect).plc.ActsOn { recvs := [.eof], sends := [.accepted 24] } := by
    rw [PlcClient.ActsOn, hstate]
    exact ⟨by decide +kernel, by decide +kernel, by decide +kernel⟩
  exact ⟨hacts, (acted_iff (reachable_reached (by decide +kernel)) _).2 hacts⟩

/-- The session's deadline is that of `connect()`: `poll()` finds it passed, and the client stays in
`Disconnecting`. -/
theorem not_acted_late : ¬ ∀ (w : World 8) (os : Platform), Reachable w → Acted w os := by
  intro h
  have hreach : Reachable (reached 8 lateDisconnect) := reachable_reached (by decide +kernel)
  have hsub : (reached 8 lateDisconnect).plc.subStatus (generous 10000) = some .timeout := by decide +kernel
  have hstay : ((reached 8 lateDisconnect).poll (generous 10000)).plc.state =
    (reached 8 lateDisconnect).plc.state := by
    decide +kernel
  exact (h _ _ hreach .timeout hsub nofun).1 hstay

/-- Nothing but another `connect()`, `disconnect()` or `begin()` gets a client out of `Disconnecting` once its session
has failed. -/
theorem trapped {w : World n} (hs : w.plc.state = .disconnecting) (hx : w.plc.session.state = .failed)
    (os : Platform) :
    w.poll os = w := by
  have hpoll : w.plc.pollState os = some (.pending, w.plc, none) := by
    rw [PlcClient.pollState, hs]
    dsimp only
    rw [PlcClient.pollDisconnecting, poll_failed hx]
    rfl
  unfold World.poll
  rw [hpoll]
  simp [hs]

end World

end ControlLogix
