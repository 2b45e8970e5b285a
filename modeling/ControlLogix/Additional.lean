import ControlLogix.Received

/-!
# Replies with additional status

A CIP reply names in its fourth byte the number of 16-bit words of additional status that stand between the general
status and the reply data.  `parseResponse()` and `parseConnectedResponse()` do not look at that byte: they take all
that follows it as the data.

* `CipReply.decode_eq_some_iff`: the decoder of a reply accepts exactly the encodings;
* `exposed`: what the two parsers expose of the CIP part of a response;
* `additional_status_iff`: this is the reply, exactly when the size of the additional status is zero.
-/

namespace ControlLogix

open Bytes

/-! ### The parts of a reply -/

structure CipReply where
  service : UInt8
  reserved : UInt8
  status : UInt8
  additional : List UInt16
  data : List UInt8
  /-- The size of the additional status is one byte. -/
  small : additional.length < 256
  deriving DecidableEq, Repr

namespace CipReply

def encode (r : CipReply) : List UInt8 :=
  r.service :: r.reserved :: r.status :: UInt8.ofNat r.additional.length :: (r.additional.flatMap putU16 ++ r.data)

/-- Where the reply data begin. -/
def dataOffset (cip : List UInt8) : Nat := 4 + 2 * (peek cip 3).toNat

/-- The first `n` words of a byte string. -/
def words : Nat → List UInt8 → List UInt16
  | 0, _ => []
  | n + 1, bs => getU16 bs :: words n (bs.drop 2)

theorem length_words (n : Nat) (bs : List UInt8) : (words n bs).length = n := by
  induction n generalizing bs with
  | zero => rfl
  | succ n ih => rw [words, List.length_cons, ih]

/-- The size runs past the end of the reply when the data would begin behind it. -/
def decode (cip : List UInt8) : Option CipReply :=
  if cip.length < dataOffset cip then none
  else
    some
      { service := peek cip 0
        reserved := peek cip 1
        status := peek cip 2
        additional := words (peek cip 3).toNat (cip.drop 4)
        data := cip.drop (dataOffset cip)
        small := by
          rw [length_words]
          exact (peek cip 3).toNat_lt }

theorem flatMap_words {n : Nat} {bs : List UInt8} (h : 2 * n ≤ bs.length) :
    (words n bs).flatMap putU16 = bs.take (2 * n) := by
  induction n generalizing bs with
  | zero => simp [words]
  | succ n ih =>
    have hrest : 2 * n ≤ (bs.drop 2).length := by
      rw [List.length_drop]
      omega
    have hcount : 2 * (n + 1) = 2 + 2 * n := by omega
    rw [words, List.flatMap_cons, ih hrest, putU16_getU16 (by omega), hcount, List.take_add]

theorem words_flatMap (ws : List UInt16) (rest : List UInt8) : words ws.length (ws.flatMap putU16 ++ rest) = ws := by
  induction ws with
  | nil => rfl
  | cons w ws ih =>
    have htail : ((w :: ws).flatMap putU16 ++ rest).drop 2 = ws.flatMap putU16 ++ rest := by
      rw [List.flatMap_cons, List.append_assoc]
      exact List.drop_left' (length_putU16 w)
    rw [List.length_cons, words, htail, ih, List.flatMap_cons, List.append_assoc, getU16_putU16]

@[simp] theorem length_flatMap_putU16 (ws : List UInt16) : (ws.flatMap putU16).length = 2 * ws.length := by
  induction ws with
  | nil => rfl
  | cons w ws ih =>
    rw [List.flatMap_cons, List.length_append, ih, length_putU16, List.length_cons]
    omega

theorem dataOffset_encode (r : CipReply) : dataOffset r.encode = 4 + 2 * r.additional.length := by
  have hsize : (UInt8.ofNat r.additional.length).toNat = r.additional.length := UInt8.toNat_ofNat_of_lt' r.small
  have hbyte : peek r.encode 3 = UInt8.ofNat r.additional.length := rfl
  rw [dataOffset, hbyte, hsize]

theorem length_encode (r : CipReply) : r.encode.length = dataOffset r.encode + r.data.length := by
  rw [dataOffset_encode, encode]
  simp only [List.length_cons, List.length_append, length_flatMap_putU16]
  omega

theorem drop_encode (r : CipReply) : r.encode.drop (dataOffset r.encode) = r.data := by
  have hhead : r.encode.drop 4 = r.additional.flatMap putU16 ++ r.data := rfl
  rw [dataOffset_encode, ← List.drop_drop, hhead, List.drop_left' (length_flatMap_putU16 _)]

theorem decode_encode (r : CipReply) : decode r.encode = some r := by
  have hfit : ¬ r.encode.length < dataOffset r.encode := by
    rw [length_encode]
    omega
  have hsize : (peek r.encode 3).toNat = r.additional.length := UInt8.toNat_ofNat_of_lt' r.small
  have hhead : r.encode.drop 4 = r.additional.flatMap putU16 ++ r.data := rfl
  rw [decode, if_neg hfit]
  simp only [hsize, hhead, words_flatMap, drop_encode]
  rfl

private theorem split_four {bs : List UInt8} (h : 4 ≤ bs.length) :
    peek bs 0 :: peek bs 1 :: peek bs 2 :: peek bs 3 :: bs.drop 4 = bs := by
  match bs, h with
  | _ :: _ :: _ :: _ :: _, _ => rfl

theorem encode_of_decode {cip : List UInt8} {r : CipReply} (h : decode cip = some r) : r.encode = cip := by
  unfold decode at h
  split at h
  · cases h
  · rename_i hfit
    have hoff : dataOffset cip = 4 + 2 * (peek cip 3).toNat := rfl
    have hlen : 2 * (peek cip 3).toNat ≤ (cip.drop 4).length := by
      rw [List.length_drop]
      omega
    obtain rfl := Option.some.inj h
    rw [encode, flatMap_words hlen, length_words, UInt8.ofNat_toNat, hoff, ← List.drop_drop, List.take_append_drop]
    exact split_four (by omega)

theorem decode_eq_some_iff {cip : List UInt8} {r : CipReply} : decode cip = some r ↔ r.encode = cip :=
  ⟨encode_of_decode, fun h => h ▸ decode_encode r⟩

theorem decode_eq_none_iff {cip : List UInt8} : decode cip = none ↔ cip.length < dataOffset cip := by
  unfold decode
  split
  · simp [*]
  · simp [*]

end CipReply

/-! ### What the parsers expose -/

/-- A whole response with the CIP part `cip` was parsed with a status, and the accessors denote these values. -/
inductive Exposed (cip : List UInt8) : (st : Status) → (service code : UInt8) → (data : List UInt8) → Prop
  | explicit (m : ExplicitMessage) (whole : m.Whole) (meant : Unconnected m.sentContext m.response cip) :
      Exposed cip m.parseResponse.1 m.parseResponse.2.replyService m.parseResponse.2.resultCode m.parseResponse.2.data
  | connected (c : Connection) (whole : c.Whole)
      (meant : Connected c.sentContext c.toConnId c.sentSequence c.response cip) :
      Exposed cip c.parseConnectedResponse.1 c.parseConnectedResponse.2.replyService
        c.parseConnectedResponse.2.resultCode c.parseConnectedResponse.2.data

/-- The reply is exposed by its parts, and rejected when the size of the additional status runs past its end. -/
structure Decoded (cip : List UInt8) (st : Status) (service code : UInt8) (data : List UInt8) : Prop where
  parts : ∀ r : CipReply, r.encode = cip → st = .ok ∧ service = r.service ∧ code = r.status ∧ data = r.data
  rejects : cip.length < CipReply.dataOffset cip → st = .error

variable {cip data : List UInt8} {st : Status} {service code : UInt8}

/-- The two parsers take the four bytes of the head as they stand, and all that follows them as the data. -/
theorem exposed (h : Exposed cip st service code data) :
    4 ≤ cip.length ∧ st = .ok ∧ cip[0]? = some service ∧ cip[2]? = some code ∧ data = cip.drop 4 := by
  cases h with
  | explicit m whole meant =>
    have hparses := ExplicitMessage.parseResponse_parses whole
    obtain ⟨r, hr, hden, hdata⟩ := hparses.denotes cip meant
    refine ⟨meant.long, hparses.accepts.2 ⟨cip, meant⟩, ?_, ?_, hdata⟩
    · rw [hr]
      exact hden.service
    · rw [hr]
      exact hden.code
  | connected c whole meant =>
    have hparses := Connection.parseConnectedResponse_parses whole
    obtain ⟨r, hr, hden, hdata⟩ := hparses.denotes cip meant
    obtain ⟨_, _, content, -, -, -, -, -, hlong, -, hcip⟩ := meant.item
    refine ⟨?_, hparses.accepts.2 ⟨cip, meant⟩, ?_, ?_, hdata⟩
    · rw [hcip, List.length_drop]
      omega
    · rw [hr]
      exact hden.service
    · rw [hr]
      exact hden.code

theorem additional_status_iff (h : Exposed cip st service code data) :
    Decoded cip st service code data ↔ peek cip 3 = 0 := by
  obtain ⟨hlong, hst, hservice, hcode, hdata⟩ := exposed h
  constructor
  · intro hd
    -- a reply is accepted in any case, so its size does not run past its end
    have hfit : ¬ cip.length < CipReply.dataOffset cip := by
      intro hpast
      have := hd.rejects hpast
      rw [hst] at this
      cases this
    cases hr : CipReply.decode cip with
    | none => exact absurd (CipReply.decode_eq_none_iff.1 hr) hfit
    | some r =>
      have henc := CipReply.encode_of_decode hr
      obtain ⟨-, -, -, hsame⟩ := hd.parts r henc
      have hdrop := CipReply.drop_encode r
      rw [henc] at hdrop
      -- both are the rest of the reply behind an offset, so the offsets are the same
      have hoffset : cip.length - 4 = cip.length - CipReply.dataOffset cip := by
        rw [← List.length_drop, ← List.length_drop, hdrop, ← hsame, hdata]
      have hdef : CipReply.dataOffset cip = 4 + 2 * (peek cip 3).toNat := rfl
      apply UInt8.toNat_inj.1
      show (peek cip 3).toNat = 0
      omega
  · intro hzero
    have hoff : CipReply.dataOffset cip = 4 := by rw [CipReply.dataOffset, hzero]; rfl
    constructor
    · intro r henc
      have hdrop := CipReply.drop_encode r
      rw [henc, hoff] at hdrop
      subst henc
      refine ⟨hst, ?_, ?_, hdata.trans hdrop⟩
      · exact (Option.some.inj hservice).symm
      · exact (Option.some.inj hcode).symm
    · intro hpast
      rw [hoff] at hpast
      omega

/-- Without additional status a reply is exposed by its parts. -/
theorem additional_status_iff_sample : peek [0xCC, 0, 0, 0, 0xC2, 0, 5, 9] 3 = 0 ∧
    Decoded [0xCC, 0, 0, 0, 0xC2, 0, 5, 9] .ok 0xCC 0 [0xC2, 0, 5, 9] := by
  have h : Exposed [0xCC, 0, 0, 0, 0xC2, 0, 5, 9] .ok 0xCC 0 [0xC2, 0, 5, 9] :=
    Exposed.explicit unconnectedSample ⟨by decide, by decide⟩
      ⟨⟨by decide +kernel, by decide +kernel, by decide +kernel, by decide +kernel, by decide +kernel⟩,
        ⟨[⟨0, []⟩, ⟨0x00B2, [0xCC, 0, 0, 0, 0xC2, 0, 5, 9]⟩], by decide +kernel, by decide +kernel⟩, by decide⟩
  exact ⟨by decide, (additional_status_iff h).2 (by decide)⟩

/-- A response to a read with a path error, and a word of additional status that names the segment. -/
def refusedSample : ExplicitMessage :=
  { rx := [0x6F, 0, 22, 0, 1, 0, 0, 0, 0, 0, 0, 0, 7, 0, 0, 0, 0, 0, 0, 0, 0, 0, 0, 0, 0, 0, 0, 0, 0, 0, 2, 0,
    0, 0, 0, 0, 0xB2, 0, 6, 0, 0xCC, 0, 5, 1, 3, 0]
    rxLen := 46
    rxExpected := 46
    sentContext := 7
    state := .receiving }

/-- A response on an open connection that ends before its two words of additional status do. -/
def truncatedSample : Connection :=
  { rx := [0x70, 0, 28, 0, 1, 0, 0, 0, 0, 0, 0, 0, 7, 0, 0, 0, 0, 0, 0, 0, 0, 0, 0, 0, 0, 0, 0, 0, 0, 0, 2, 0,
    0xA1, 0, 4, 0, 3, 0, 0, 0, 0xB1, 0, 8, 0, 2, 0, 0xCC, 0, 0, 2, 0xC2, 5]
    rxLen := 52
    rxExpected := 52
    sentContext := 7
    toConnId := 3
    sentSequence := 2
    state := .sending }

private theorem refused_exposed : Exposed [0xCC, 0, 5, 1, 3, 0] .ok 0xCC 5 [3, 0] :=
  Exposed.explicit refusedSample ⟨by decide, by decide⟩
    ⟨⟨by decide +kernel, by decide +kernel, by decide +kernel, by decide +kernel, by decide +kernel⟩,
      ⟨[⟨0, []⟩, ⟨0x00B2, [0xCC, 0, 5, 1, 3, 0]⟩], by decide +kernel, by decide +kernel⟩, by decide⟩

private theorem truncated_exposed : Exposed [0xCC, 0, 0, 2, 0xC2, 5] .ok 0xCC 0 [0xC2, 5] :=
  Exposed.connected truncatedSample ⟨by decide, by decide⟩
    ⟨⟨by decide +kernel, by decide +kernel, by decide +kernel, by decide +kernel, by decide +kernel⟩,
      ⟨[⟨0x00A1, [3, 0, 0, 0]⟩, ⟨0x00B1, [2, 0, 0xCC, 0, 0, 2, 0xC2, 5]⟩], [3, 0, 0, 0],
        [2, 0, 0xCC, 0, 0, 2, 0xC2, 5], by decide +kernel, by decide +kernel, by decide +kernel, by decide +kernel,
        by decide +kernel, by decide +kernel, by decide +kernel, rfl⟩⟩

/-- The word of additional status is taken for data, and the response that is too short for its two words is
accepted. -/
theorem additional_status_taken :
    ¬ (∀ cip st service code data, Exposed cip st service code data →
        ∀ r : CipReply, r.encode = cip → data = r.data) ∧
      ¬ ∀ cip st service code data, Exposed cip st service code data →
        cip.length < CipReply.dataOffset cip → st = .error := by
  constructor
  · intro hall
    have hdata := hall _ _ _ _ _ refused_exposed ⟨0xCC, 0, 5, [3], [], by decide⟩ (by decide +kernel)
    cases hdata
  · intro hall
    have hst := hall _ _ _ _ _ truncated_exposed (by decide +kernel)
    cases hst

end ControlLogix
