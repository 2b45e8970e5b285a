import ControlLogix.ExplicitMessage

/-!
# SendRRData replies

A `Reply` is what the server has to say to one exchange, and `frame` the bytes it sends: the encapsulation header with
the context of the request, and two items of which the second carries the CIP response.

* `parse_frame`: `parseResponse()` on a whole frame finds the fields of its reply;
* `starts_frame`, `whole_frame`: a reader that stands between two frames and does not read past the length a header
  announces reads the next frame.
-/

namespace ControlLogix

open Bytes
open Buffers (bodyLength)
open ExplicitMessage (parse findUnconnected)

/-- Exchanges are numbered from 1.  `data` is all that follows the first four bytes of the CIP response. -/
structure Reply where
  exchange : Nat
  session : UInt32 := 0
  encapStatus : UInt32 := 0
  service : UInt8
  status : UInt8 := 0
  extSize : UInt8 := 0
  data : List UInt8
  fits : 20 + data.length < 2 ^ 16
  deriving DecidableEq, Repr

namespace Reply

/-- The context `ExplicitMessage` gives to exchange number `exchange`. -/
def context (r : Reply) : UInt64 := UInt64.ofNat r.exchange

def header (r : Reply) : EncapsulationHeader where
  command := Command.sendRRData.code
  length := UInt16.ofNat (20 + r.data.length)
  session := r.session
  status := r.encapStatus
  context := r.context
  options := 0

def body (r : Reply) : List UInt8 :=
  putU32 0 ++ putU16 0 ++ putU16 2 ++ putU16 0x0000 ++ putU16 0 ++ putU16 0x00B2 ++
    putU16 (UInt16.ofNat (4 + r.data.length)) ++ [r.service, 0, r.status, r.extSize] ++ r.data

def frame (r : Reply) : List UInt8 := encodeHeader r.header ++ r.body

theorem length_body (r : Reply) : r.body.length = 20 + r.data.length := by
  simp only [body, List.length_append, length_putU32, length_putU16, List.length_cons, List.length_nil]

@[simp] theorem length_frame (r : Reply) : r.frame.length = 44 + r.data.length := by
  rw [frame, List.length_append, length_encodeHeader, length_body, kEncapsulationHeaderSize]
  omega

theorem decode_frame (r : Reply) (rest : List UInt8) : decodeHeader (r.frame ++ rest) = r.header := by
  rw [frame, List.append_assoc]
  exact decodeHeader_encodeHeader _ _

theorem bodyLength_frame (r : Reply) (rest : List UInt8) : bodyLength (r.frame ++ rest) = 20 + r.data.length := by
  have hfits := r.fits
  rw [bodyLength, decode_frame]
  simp only [header, UInt16.toNat_ofNat']
  omega

/-! ### Parsing a reply -/

/-- The fields of a reply, at their place in the receive buffer. -/
def response (r : Reply) : ExplicitMessage.Response := ⟨r.service, r.status, 44, r.data.length⟩

/-- The two items of the body, as the item loop finds them. -/
private theorem find_frame (r : Reply) (rest : List UInt8) :
    findUnconnected (r.frame ++ rest) 2 32 (12 + r.data.length) none = some (some (40, 4 + r.data.length)) := by
  have hfits := r.fits
  have hcip : (r.frame ++ rest).drop (36 + 2) =
    putU16 (UInt16.ofNat (4 + r.data.length)) ++ ([r.service, 0, r.status, r.extSize] ++ r.data ++ rest) := rfl
  have hitem₂ : (r.frame ++ rest).drop 36 = putU16 0x00B2 ++ (r.frame ++ rest).drop (36 + 2) := rfl
  have hnull : (r.frame ++ rest).drop (32 + 2) = putU16 0 ++ (r.frame ++ rest).drop 36 := rfl
  have hitem₁ : (r.frame ++ rest).drop 32 = putU16 0x0000 ++ (r.frame ++ rest).drop (32 + 2) := rfl
  have htype₁ : getU16 ((r.frame ++ rest).drop 32) = 0 := by rw [hitem₁, getU16_putU16]
  have hlen₁ : (getU16 ((r.frame ++ rest).drop (32 + 2))).toNat = 0 := by
    rw [hnull, getU16_putU16]
    rfl
  have htype₂ : getU16 ((r.frame ++ rest).drop 36) = 0x00B2 := by rw [hitem₂, getU16_putU16]
  have hlen₂ : (getU16 ((r.frame ++ rest).drop (36 + 2))).toNat = 4 + r.data.length := by
    rw [hcip, getU16_putU16, UInt16.toNat_ofNat']
    omega
  unfold findUnconnected
  dsimp only
  rw [htype₁, hlen₁, if_neg (by omega), if_neg (by omega), if_neg (by decide)]
  unfold findUnconnected
  dsimp only
  rw [htype₂, hlen₂, if_neg (by omega), if_neg (by omega), if_pos rfl]
  rfl

theorem parse_frame (r : Reply) (rest : List UInt8) (sentContext : UInt64) :
    parse (r.frame ++ rest) (44 + r.data.length) sentContext =
      if r.encapStatus = 0 ∧ r.context = sentContext then some r.response else none := by
  have hfits := r.fits
  unfold parse
  rw [decode_frame]
  dsimp only
  by_cases hs : r.encapStatus = 0
  · by_cases hc : r.context = sentContext
    · have hitems : (r.frame ++ rest).drop (kEncapsulationHeaderSize + 6) =
          putU16 2 ++ (r.frame ++ rest).drop (kEncapsulationHeaderSize + 8) := rfl
      have hcount : (getU16 ((r.frame ++ rest).drop (kEncapsulationHeaderSize + 6))).toNat = 2 := by
        rw [hitems, getU16_putU16]
        rfl
      have hleft : 44 + r.data.length - kEncapsulationHeaderSize - 8 = 12 + r.data.length := by
        simp only [kEncapsulationHeaderSize]
        omega
      have hshort : ¬ 44 + r.data.length - kEncapsulationHeaderSize < 8 := by
        simp only [kEncapsulationHeaderSize]
        omega
      have hfind : findUnconnected (r.frame ++ rest) 2 (kEncapsulationHeaderSize + 8) (12 + r.data.length) none =
          some (some (40, 4 + r.data.length)) := find_frame r rest
      rw [if_neg (by simp [header, hs]), if_neg (by simp [header, hc]), if_neg hshort, hcount, hleft, hfind,
        if_pos ⟨hs, hc⟩]
      dsimp only
      rw [if_neg (by omega), Nat.add_sub_cancel_left]
      rfl
    · rw [if_neg (by simp [header, hs]), if_pos (by simp [header, hc]), if_neg (by simp [hc])]
  · rw [if_pos (by simp [header, hs]), if_neg (by simp [hs])]

/-- The data of a reply, where the response says. -/
theorem data_frame (r : Reply) (rest : List UInt8) : ((r.frame ++ rest).drop 44).take r.data.length = r.data := by
  have hdrop : (r.frame ++ rest).drop 44 = r.data ++ rest := rfl
  rw [hdrop, List.take_left]

/-! ### Reading frame by frame -/

theorem bodyLength_starts {p q : List UInt8} (h : 24 ≤ p.length) : bodyLength (p ++ q) = bodyLength p := by
  apply Buffers.bodyLength_congr
  rw [List.take_append_of_le_length h]

/-- What is read from between two frames on is part of the next frame, as long as it is not longer than the header
says. -/
theorem starts_frame {rs : List Reply} {p q : List UInt8} (h : p ++ q = (rs.map frame).flatten) (hne : p ≠ [])
    (hlen : 24 ≤ p.length → p.length ≤ 24 + bodyLength p) : ∃ r rs' q', rs = r :: rs' ∧ r.frame = p ++ q' := by
  cases rs with
  | nil =>
    rw [List.map_nil, List.flatten_nil, List.append_eq_nil_iff] at h
    exact absurd h.1 hne
  | cons r rs =>
    rw [List.map_cons, List.flatten_cons] at h
    rcases List.append_eq_append_iff.1 h with ⟨q', hframe, -⟩ | ⟨p', hp, -⟩
    · exact ⟨r, rs, q', rfl, hframe⟩
    · -- what is longer than the frame would be longer than the header says
      have hlong : r.frame.length = 44 + r.data.length := r.length_frame
      have hp' : p.length = r.frame.length + p'.length := by rw [hp, List.length_append]
      have hbody : bodyLength p = 20 + r.data.length := by rw [hp, bodyLength_frame]
      have hle := hlen (by omega)
      have hnil : p' = [] := List.length_eq_zero_iff.1 (by omega)
      exact ⟨r, rs, [], rfl, by rw [hp, hnil, List.append_nil, List.append_nil]⟩

/-- What is as long as the header says is the next frame. -/
theorem whole_frame {rs : List Reply} {p q : List UInt8} (h : p ++ q = (rs.map frame).flatten) (h24 : 24 ≤ p.length)
    (hlen : p.length = 24 + bodyLength p) : ∃ r rs', rs = r :: rs' ∧ p = r.frame := by
  have hne : p ≠ [] := by
    rintro rfl
    simp at h24
  obtain ⟨r, rs', q', rfl, hframe⟩ := starts_frame h hne fun _ => Nat.le_of_eq hlen
  refine ⟨r, rs', rfl, ?_⟩
  have hlong : r.frame.length = 44 + r.data.length := r.length_frame
  have hbody : bodyLength p = 20 + r.data.length := by
    rw [← bodyLength_starts h24 (q := q'), ← hframe]
    have hb := bodyLength_frame r []
    rwa [List.append_nil] at hb
  have hq : p.length + q'.length = r.frame.length := by rw [hframe, List.length_append]
  have hnil : q' = [] := List.length_eq_zero_iff.1 (by omega)
  rw [hframe, hnil, List.append_nil]

end Reply

end ControlLogix
