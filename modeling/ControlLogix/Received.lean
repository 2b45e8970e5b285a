import ControlLogix.Parsing

/-!
# No read is outside the received bytes

The parsers read through a pointer into a buffer that may hold more than the response.  Copies of them that fail on
every read outside the received bytes (`parseWithin`) do not fail, and give the same results.

* `ExplicitMessage.parseWithin_received`, `Connection.parseWithin_received`: no read is outside the received bytes;
* `parsing_exact`: a response is accepted exactly when the decoder accepts it, the accessors denote the CIP part that
  the decoder finds, a rejected response changes nothing, and no read is outside the received bytes.
-/

namespace ControlLogix

open Bytes
open Buffers (Framed)

/-! ### Reading within the received bytes -/

def byteWithin (frame : List UInt8) (p : Nat) : Option UInt8 :=
  if frame.length < p + 1 then none else some (peek (frame.drop p) 0)

def wordWithin (frame : List UInt8) (p : Nat) : Option UInt16 :=
  if frame.length < p + 2 then none else some (getU16 (frame.drop p))

def dwordWithin (frame : List UInt8) (p : Nat) : Option UInt32 :=
  if frame.length < p + 4 then none else some (getU32 (frame.drop p))

def headerWithin (frame : List UInt8) : Option EncapsulationHeader :=
  if frame.length < kEncapsulationHeaderSize then none else some (decodeHeader frame)

/-- `findUnconnected` on the received bytes; `none` is a read outside them. -/
def ExplicitMessage.findWithin (frame : List UInt8) :
    Nat → (p remaining : Nat) → (cip : Option (Nat × Nat)) → Option (Option (Option (Nat × Nat)))
  | 0, _, _, cip => some (some cip)
  | n + 1, p, remaining, cip =>
    if remaining < 4 then some none
    else
      match wordWithin frame p, wordWithin frame (p + 2) with
      | some type, some len =>
        if len.toNat > remaining - 4 then some none
        else
          findWithin frame n (p + 4 + len.toNat) (remaining - 4 - len.toNat)
            (if type = 0x00B2 then some (p + 4, len.toNat) else cip)
      | _, _ => none

/-- `ExplicitMessage.parse` on the received bytes; `none` is a read outside them. -/
def ExplicitMessage.parseWithin (frame : List UInt8) (sentContext : UInt64) : Option (Option Response) :=
  match headerWithin frame with
  | none => none
  | some h =>
    if h.command ≠ Command.sendRRData.code ∨ h.status ≠ 0 then some none
    else if h.context ≠ sentContext then some none
    else if frame.length - kEncapsulationHeaderSize < 8 then some none
    else
      match wordWithin frame (kEncapsulationHeaderSize + 6) with
      | none => none
      | some itemCount =>
        match findWithin frame itemCount.toNat (kEncapsulationHeaderSize + 8)
            (frame.length - kEncapsulationHeaderSize - 8) none with
        | none => none
        | some (some (some (cip, cipLen))) =>
          if cipLen < 4 then some none
          else
            match byteWithin frame cip, byteWithin frame (cip + 2) with
            | some service, some code => some (some ⟨service, code, cip + 4, cipLen - 4⟩)
            | _, _ => none
        | some _ => some none

/-- `findConnected` on the received bytes. -/
def Connection.findWithin (frame : List UInt8) : Nat → (p remaining : Nat) → Option UInt32 → Option (Nat × Nat) →
    Option (Option (Option UInt32 × Option (Nat × Nat)))
  | 0, _, _, connId, cd => some (some (connId, cd))
  | n + 1, p, remaining, connId, cd =>
    if remaining < 4 then some none
    else
      match wordWithin frame p, wordWithin frame (p + 2) with
      | some type, some len =>
        if len.toNat > remaining - 4 then some none
        else if type = 0x00A1 then
          if len.toNat < 4 then some none
          else
            match dwordWithin frame (p + 4) with
            | none => none
            | some id => findWithin frame n (p + 4 + len.toNat) (remaining - 4 - len.toNat) (some id) cd
        else
          findWithin frame n (p + 4 + len.toNat) (remaining - 4 - len.toNat) connId
            (if type = 0x00B1 then some (p + 4, len.toNat) else cd)
      | _, _ => none

/-- `Connection.parse` on the received bytes. -/
def Connection.parseWithin (frame : List UInt8) (sentContext : UInt64) (toConnId : UInt32) (sentSequence : UInt16) :
    Option (Option ExplicitMessage.Response) :=
  match headerWithin frame with
  | none => none
  | some h =>
    if h.command ≠ Command.sendUnitData.code ∨ h.status ≠ 0 then some none
    else if h.context ≠ sentContext then some none
    else if frame.length - kEncapsulationHeaderSize < 8 then some none
    else
      match wordWithin frame (kEncapsulationHeaderSize + 6) with
      | none => none
      | some itemCount =>
        match findWithin frame itemCount.toNat (kEncapsulationHeaderSize + 8)
            (frame.length - kEncapsulationHeaderSize - 8) none none with
        | none => none
        | some (some (some connId, some (cd, cdLen))) =>
          if cdLen < 4 then some none
          else if connId ≠ toConnId then some none
          else
            match wordWithin frame cd with
            | none => none
            | some seq =>
              if seq ≠ sentSequence then some none
              else if cdLen - 2 < 4 then some none
              else
                match byteWithin frame (cd + 2), byteWithin frame (cd + 4) with
                | some service, some code => some (some ⟨service, code, cd + 6, cdLen - 6⟩)
                | _, _ => none
        | some _ => some none

/-! ### The bytes that are read -/

section Reads

variable {rx : List UInt8} {k p : Nat}

private theorem length_received (hk : k ≤ rx.length) : (rx.take k).length = k := by
  rw [List.length_take, Nat.min_eq_left hk]

theorem byteWithin_received (i : Nat) (hp : p + i + 1 ≤ k) (hk : k ≤ rx.length) :
    byteWithin (rx.take k) (p + i) = some (peek (rx.drop p) i) := by
  have hshift : peek (rx.drop (p + i)) 0 = peek (rx.drop p) i := by
    simp [peek, List.getD_eq_getElem?_getD]
  rw [byteWithin, length_received hk, if_neg (by omega), peek_congr (take_drop_received hp) Nat.one_pos, hshift]

theorem wordWithin_received (hp : p + 2 ≤ k) (hk : k ≤ rx.length) :
    wordWithin (rx.take k) p = some (getU16 (rx.drop p)) := by
  rw [wordWithin, length_received hk, if_neg (by omega), getU16_congr (take_drop_received hp)]

theorem dwordWithin_received (hp : p + 4 ≤ k) (hk : k ≤ rx.length) :
    dwordWithin (rx.take k) p = some (getU32 (rx.drop p)) := by
  rw [dwordWithin, length_received hk, if_neg (by omega), getU32_congr (take_drop_received hp)]

theorem headerWithin_received (h : kEncapsulationHeaderSize ≤ k) (hk : k ≤ rx.length) :
    headerWithin (rx.take k) = some (decodeHeader rx) := by
  have h24 : 24 ≤ k := h
  rw [headerWithin, length_received hk, if_neg (by omega),
    decodeHeader_congr (q := rx) (by rw [List.take_take, Nat.min_eq_left h24])]

theorem ExplicitMessage.findWithin_received (hk : k ≤ rx.length) {n remaining : Nat} (hp : p + remaining = k)
    (cip : Option (Nat × Nat)) :
    findWithin (rx.take k) n p remaining cip = some (findUnconnected rx n p remaining cip) := by
  induction n generalizing p remaining cip with
  | zero => rfl
  | succ n ih =>
    unfold findWithin findUnconnected
    split
    · rfl
    · rw [wordWithin_received (by omega) hk, wordWithin_received (by omega) hk]
      dsimp only
      split
      · rfl
      · exact ih (by omega) _

theorem Connection.findWithin_received (hk : k ≤ rx.length) {n remaining : Nat} (hp : p + remaining = k)
    (connId : Option UInt32) (cd : Option (Nat × Nat)) :
    findWithin (rx.take k) n p remaining connId cd = some (findConnected rx n p remaining connId cd) := by
  induction n generalizing p remaining connId cd with
  | zero => rfl
  | succ n ih =>
    unfold findWithin findConnected
    split
    · rfl
    · rw [wordWithin_received (by omega) hk, wordWithin_received (by omega) hk]
      dsimp only
      split
      · rfl
      · split
        · split
          · rfl
          · rw [dwordWithin_received (by omega) hk]
            exact ih (by omega) _ _
        · exact ih (by omega) _ _

end Reads

/-! ### The parsers -/

section Within

variable {rx : List UInt8} {k : Nat} {context : UInt64} {toConnId : UInt32} {sequence : UInt16}

private theorem located_within {frame : List UInt8} {q len : Nat} {x : Option (List UInt8)}
    (h : Located frame (some (q, len)) x) : q + len ≤ frame.length := by
  cases h with
  | some h => exact h.1

private theorem rel_some {α β : Type} {R : α → β → Prop} {a : α} {o : Option β} (h : Option.Rel R (some a) o) :
    ∃ b, R a b := by
  cases h with
  | some h => exact ⟨_, h⟩

theorem ExplicitMessage.parseWithin_received (h24 : 24 ≤ k) (hk : k ≤ rx.length) :
    parseWithin (rx.take k) context = some (parse rx k context) := by
  have hlen := length_received hk
  have hsize : kEncapsulationHeaderSize = 24 := rfl
  unfold parseWithin parse
  rw [headerWithin_received h24 hk, hlen]
  dsimp only
  split
  · rfl
  · split
    · rfl
    · split
      · rfl
      · rw [wordWithin_received (by omega) hk]
        dsimp only
        rw [findWithin_received hk (by omega)]
        have hrel := findUnconnected_items hk (by omega)
          (getU16 (rx.drop (kEncapsulationHeaderSize + 6))).toNat
        have hoff : k - kEncapsulationHeaderSize - 8 = k - 32 := by omega
        rw [hoff]
        change Option.Rel _ (findUnconnected rx _ (kEncapsulationHeaderSize + 8) _ _) _ at hrel
        generalize findUnconnected rx (getU16 (rx.drop (kEncapsulationHeaderSize + 6))).toNat
          (kEncapsulationHeaderSize + 8) (k - 32) none = found at hrel ⊢
        obtain _ | _ | ⟨cip, cipLen⟩ := found
        · rfl
        · rfl
        · -- the loop notes no item that is not received to its end
          have hfit : cip + cipLen ≤ k := by
            obtain ⟨x, hx⟩ := rel_some hrel
            exact hlen ▸ located_within hx
          dsimp only
          split
          · rfl
          · have hservice := byteWithin_received (p := cip) 0 (by omega) hk
            have hcode := byteWithin_received (p := cip) 2 (by omega) hk
            rw [Nat.add_zero] at hservice
            rw [hservice, hcode]

theorem Connection.parseWithin_received (h24 : 24 ≤ k) (hk : k ≤ rx.length) :
    parseWithin (rx.take k) context toConnId sequence = some (parse rx k context toConnId sequence) := by
  have hlen := length_received hk
  have hsize : kEncapsulationHeaderSize = 24 := rfl
  unfold parseWithin parse
  rw [headerWithin_received h24 hk, hlen]
  dsimp only
  split
  · rfl
  · split
    · rfl
    · split
      · rfl
      · rw [wordWithin_received (by omega) hk]
        dsimp only
        rw [findWithin_received hk (by omega)]
        have hrel := findConnected_items hk (by omega)
          (getU16 (rx.drop (kEncapsulationHeaderSize + 6))).toNat
        have hoff : k - kEncapsulationHeaderSize - 8 = k - 32 := by omega
        rw [hoff]
        change Option.Rel _ (findConnected rx _ (kEncapsulationHeaderSize + 8) _ _ _) _ at hrel
        generalize findConnected rx (getU16 (rx.drop (kEncapsulationHeaderSize + 6))).toNat
          (kEncapsulationHeaderSize + 8) (k - 32) none none = found at hrel ⊢
        obtain _ | ⟨_ | connId, _ | ⟨cd, cdLen⟩⟩ := found
        · rfl
        · rfl
        · rfl
        · rfl
        · have hfit : cd + cdLen ≤ k := by
            obtain ⟨x, hx⟩ := rel_some hrel
            exact hlen ▸ located_within hx.2
          dsimp only
          split
          · rfl
          · split
            · rfl
            · rw [wordWithin_received (by omega) hk]
              dsimp only
              split
              · rfl
              · split
                · rfl
                · have hservice := byteWithin_received (p := cd + 2) 0 (by omega) hk
                  have hcode := byteWithin_received (p := cd + 2) 2 (by omega) hk
                  rw [Nat.add_zero] at hservice
                  rw [hservice, hcode]

end Within

/-! ### What the two classes make of a response -/

/-- A parser that went from `c` to `c'` with the status `st`, for a decoder of the received bytes. -/
structure Parses {α : Type} (meant : List UInt8 → Prop) (respond : α → ExplicitMessage.Response → α)
    (data : α → List UInt8) (b : Buffers) (c : α) (st : Status) (c' : α) : Prop where
  accepts : st = .ok ↔ ∃ cip, meant cip
  denotes : ∀ cip, meant cip → ∃ r, c' = respond c r ∧ Denotes b.rx b.rxLen r cip ∧ data c' = cip.drop 4
  rejects : st ≠ .ok → st = .error ∧ c' = c

theorem Unconnected.unique {context : UInt64} {frame cip cip' : List UInt8} (h : Unconnected context frame cip)
    (h' : Unconnected context frame cip') : cip = cip' := by
  obtain ⟨items, hi, hc⟩ := h.item
  obtain ⟨items', hi', hc'⟩ := h'.item
  rw [hi] at hi'
  obtain rfl := Option.some.inj hi'
  rw [hc] at hc'
  exact Option.some.inj hc'

theorem Connected.unique {context : UInt64} {toConnId : UInt32} {sequence : UInt16} {frame cip cip' : List UInt8}
    (h : Connected context toConnId sequence frame cip) (h' : Connected context toConnId sequence frame cip') :
    cip = cip' := by
  obtain ⟨items, address, content, hi, -, -, -, hc, -, -, rfl⟩ := h.item
  obtain ⟨items', address', content', hi', -, -, -, hc', -, -, rfl⟩ := h'.item
  rw [hi] at hi'
  obtain rfl := Option.some.inj hi'
  rw [hc] at hc'
  rw [Option.some.inj hc']

theorem ExplicitMessage.parseResponse_parses {m : ExplicitMessage} (h : m.Whole) :
    Parses (Unconnected m.sentContext m.response) respond data m.toBuffers m m.parseResponse.1 m.parseResponse.2 := by
  unfold parseResponse
  rcases @parse_unconnected m.rx m.rxLen m.sentContext h.header h.fits with
    ⟨hnone, hnot⟩ | ⟨r, cip, hsome, hmeant, hden⟩
  · rw [hnone]
    refine ⟨?_, fun cip hcip => absurd hcip (hnot cip), fun _ => ⟨rfl, rfl⟩⟩
    constructor
    · intro e
      cases e
    · rintro ⟨cip, hcip⟩
      exact absurd hcip (hnot cip)
  · rw [hsome]
    refine ⟨⟨fun _ => ⟨cip, hmeant⟩, fun _ => rfl⟩, fun cip' hcip' => ?_, fun hne => absurd rfl hne⟩
    obtain rfl := hmeant.unique hcip'
    exact ⟨r, rfl, hden, hden.data⟩

theorem Connection.parseConnectedResponse_parses {c : Connection} (h : c.Whole) :
    Parses (Connected c.sentContext c.toConnId c.sentSequence c.response) respond data c.toBuffers c
      c.parseConnectedResponse.1 c.parseConnectedResponse.2 := by
  unfold parseConnectedResponse
  rcases @parse_connected c.rx c.rxLen c.sentContext c.toConnId c.sentSequence h.header h.fits with
    ⟨hnone, hnot⟩ | ⟨r, cip, hsome, hmeant, hden⟩
  · rw [hnone]
    refine ⟨?_, fun cip hcip => absurd hcip (hnot cip), fun _ => ⟨rfl, rfl⟩⟩
    constructor
    · intro e
      cases e
    · rintro ⟨cip, hcip⟩
      exact absurd hcip (hnot cip)
  · rw [hsome]
    refine ⟨⟨fun _ => ⟨cip, hmeant⟩, fun _ => rfl⟩, fun cip' hcip' => ?_, fun hne => absurd rfl hne⟩
    obtain rfl := hmeant.unique hcip'
    exact ⟨r, rfl, hden, hden.data⟩

theorem parsing_exact :
    (∀ m : ExplicitMessage, m.Whole →
      Parses (Unconnected m.sentContext m.response) ExplicitMessage.respond ExplicitMessage.data m.toBuffers m
          m.parseResponse.1 m.parseResponse.2 ∧
        ExplicitMessage.parseWithin m.response m.sentContext =
          some (ExplicitMessage.parse m.rx m.rxLen m.sentContext)) ∧
      (∀ c : Connection, c.Whole →
        Parses (Connected c.sentContext c.toConnId c.sentSequence c.response) Connection.respond Connection.data
            c.toBuffers c c.parseConnectedResponse.1 c.parseConnectedResponse.2 ∧
          Connection.parseWithin c.response c.sentContext c.toConnId c.sentSequence =
            some (Connection.parse c.rx c.rxLen c.sentContext c.toConnId c.sentSequence)) ∧
      ∀ (cap : Nat) (b b' : Buffers) (conn conn' : TcpConnection) (recvs : List RecvAnswer), Framed cap b →
        b.readResponse cap conn recvs = (.ok, b', conn') → b'.Whole := by
  refine ⟨?_, ?_, ?_⟩
  · intro m h
    exact ⟨ExplicitMessage.parseResponse_parses h, ExplicitMessage.parseWithin_received h.header h.fits⟩
  · intro c h
    exact ⟨Connection.parseConnectedResponse_parses h, Connection.parseWithin_received h.header h.fits⟩
  · intro cap b b' conn conn' recvs hf h
    exact Buffers.readResponse_whole hf h

/-- A response to a read with an unknown item before the unconnected-data item. -/
def unconnectedSample : ExplicitMessage :=
  { rx := [0x6F, 0, 24, 0, 1, 0, 0, 0, 0, 0, 0, 0, 7, 0, 0, 0, 0, 0, 0, 0, 0, 0, 0, 0, 0, 0, 0, 0, 0, 0, 2, 0,
    0, 0, 0, 0, 0xB2, 0, 8, 0, 0xCC, 0, 0, 0, 0xC2, 0, 5, 9]
    rxLen := 48
    rxExpected := 48
    sentContext := 7
    state := .receiving }

/-- A response on an open connection. -/
def connectedSample : Connection :=
  { rx := [0x70, 0, 28, 0, 1, 0, 0, 0, 0, 0, 0, 0, 7, 0, 0, 0, 0, 0, 0, 0, 0, 0, 0, 0, 0, 0, 0, 0, 0, 0, 2, 0,
    0xA1, 0, 4, 0, 3, 0, 0, 0, 0xB1, 0, 8, 0, 2, 0, 0xCC, 0, 0, 0, 0xC2, 5]
    rxLen := 52
    rxExpected := 52
    sentContext := 7
    toConnId := 3
    sentSequence := 2
    state := .sending }

private theorem sample_answering {command : Command} {context : UInt64} {frame : List UInt8}
    (h : kEncapsulationHeaderSize ≤ frame.length ∧ (decodeHeader frame).command = command.code ∧
      (decodeHeader frame).status = 0 ∧ (decodeHeader frame).context = context ∧
      8 ≤ (frame.drop kEncapsulationHeaderSize).length) : Answering command context frame :=
  ⟨h.1, h.2.1, h.2.2.1, h.2.2.2.1, h.2.2.2.2⟩

theorem parsing_exact_samples :
    (unconnectedSample.parseResponse.1 = .ok ∧ unconnectedSample.parseResponse.2.data = [0xC2, 0, 5, 9]) ∧
      connectedSample.parseConnectedResponse.1 = .ok ∧ connectedSample.parseConnectedResponse.2.data = [0xC2, 5] := by
  have hu : Unconnected 7 unconnectedSample.response [0xCC, 0, 0, 0, 0xC2, 0, 5, 9] :=
    ⟨sample_answering (by decide +kernel),
      ⟨[⟨0, []⟩, ⟨0x00B2, [0xCC, 0, 0, 0, 0xC2, 0, 5, 9]⟩], by decide +kernel, by decide +kernel⟩, by decide⟩
  have hc : Connected 7 3 2 connectedSample.response [0xCC, 0, 0, 0, 0xC2, 5] :=
    ⟨sample_answering (by decide +kernel),
      ⟨[⟨0x00A1, [3, 0, 0, 0]⟩, ⟨0x00B1, [2, 0, 0xCC, 0, 0, 0, 0xC2, 5]⟩], [3, 0, 0, 0],
        [2, 0, 0xCC, 0, 0, 0, 0xC2, 5], by decide +kernel, by decide +kernel, by decide +kernel, by decide +kernel,
        by decide +kernel, by decide +kernel,
        by decide +kernel, rfl⟩⟩
  obtain ⟨hunconnected, hconnected, -⟩ := parsing_exact
  obtain ⟨hu', -⟩ := hunconnected unconnectedSample ⟨by decide +kernel, by decide +kernel⟩
  obtain ⟨hc', -⟩ := hconnected connectedSample ⟨by decide +kernel, by decide +kernel⟩
  obtain ⟨-, -, -, hdata⟩ := hu'.denotes _ hu
  obtain ⟨-, -, -, hdata'⟩ := hc'.denotes _ hc
  exact ⟨⟨hu'.accepts.2 ⟨_, hu⟩, hdata⟩, hc'.accepts.2 ⟨_, hc⟩, hdata'⟩

end ControlLogix
