import ControlLogix.Connection
import ControlLogix.Tlv

/-!
# The responses are parsed as they are meant

`parseResponse()` and `parseConnectedResponse()` walk over the items of a response with a pointer and the number of
bytes that remain.  Here they are compared with a decoder that takes the items apart (`Unconnected`, `Connected`).

* `findUnconnected_walk`, `findConnected_walk`: the loops walk over the items;
* `Buffers.readResponse_whole`: a response is parsed when a whole header has been received;
* `ExplicitMessage.parse_unconnected`, `Connection.parse_connected`: a response is accepted exactly when the decoder
  accepts it, and its fields denote the CIP part that the decoder finds.
-/

namespace ControlLogix

open Bytes
open Buffers (Framed)
open Tlv (Item)

/-! ### The reference -/

/-- The items of a response: their number stands at offset 6 of the body, and they follow it. -/
def cpfItems (frame : List UInt8) : Option (List Item) :=
  (Tlv.decode 2 2 (getU16 (frame.drop 30)).toNat (frame.drop 32)).map Prod.fst

/-- The header of a response to the request with the context, and the fixed part of the body. -/
structure Answering (command : Command) (context : UInt64) (frame : List UInt8) : Prop where
  header : kEncapsulationHeaderSize ≤ frame.length
  command : (decodeHeader frame).command = command.code
  status : (decodeHeader frame).status = 0
  context : (decodeHeader frame).context = context
  body : 8 ≤ (frame.drop kEncapsulationHeaderSize).length

/-- The connected-address items of a response are long enough for an ID. -/
def Addressed (items : List Item) : Prop := ∀ i ∈ items, i.type = 0x00A1 → 4 ≤ i.content.length

instance decidableAddressed (items : List Item) : Decidable (Addressed items) :=
  inferInstanceAs (Decidable (∀ i ∈ items, i.type = 0x00A1 → 4 ≤ i.content.length))

/-- `cip` is the CIP part of an unconnected response: the last item of type 0x00B2. -/
structure Unconnected (context : UInt64) (frame cip : List UInt8) : Prop where
  answering : Answering .sendRRData context frame
  item : ∃ items, cpfItems frame = some items ∧ Tlv.last? 0x00B2 items = some cip
  long : 4 ≤ cip.length

/-- `cip` is the CIP part of a connected response: it follows the sequence number in the last item of type 0x00B1. -/
structure Connected (context : UInt64) (toConnId : UInt32) (sequence : UInt16) (frame cip : List UInt8) : Prop where
  answering : Answering .sendUnitData context frame
  item : ∃ items address content, cpfItems frame = some items ∧ Addressed items ∧
    Tlv.last? 0x00A1 items = some address ∧ getU32 address = toConnId ∧
    Tlv.last? 0x00B1 items = some content ∧ 6 ≤ content.length ∧ getU16 content = sequence ∧ cip = content.drop 2

/-- The fields of a response denote the CIP part, within the received bytes. -/
structure Denotes (rx : List UInt8) (rxLen : Nat) (r : ExplicitMessage.Response) (cip : List UInt8) : Prop where
  service : cip[0]? = some r.replyService
  code : cip[2]? = some r.resultCode
  within : r.dataPos + r.dataLen ≤ rxLen
  length : r.dataLen = cip.length - 4
  data : (rx.drop r.dataPos).take r.dataLen = cip.drop 4

/-! ### The loops walk over the items -/

section Walks

variable {rx : List UInt8} {k p : Nat}

/-- What stands at an offset is the same in the received bytes and in the whole buffer. -/
theorem take_drop_received {n : Nat} (hp : p + n ≤ k) : ((rx.take k).drop p).take n = (rx.drop p).take n :=
  take_drop_congr (by rw [List.take_take, Nat.min_self]) hp

/-- A field of two bytes, as the decoder reads it. -/
private theorem word_received (hp : p + 2 ≤ k) (hk : k ≤ rx.length) :
    leNat (((rx.take k).drop p).take 2) = (getU16 (rx.drop p)).toNat := by
  have hlen : ((rx.drop p).take 2).length = 2 := by
    rw [List.length_take, List.length_drop]
    omega
  have hpeek := peekLe_append ((rx.drop p).take 2) ((rx.drop p).drop 2)
  rw [hlen, List.take_append_drop] at hpeek
  rw [take_drop_received hp, toNat_getU16, hpeek]

private theorem code_iff (type code : UInt16) : type.toNat = code.toNat ↔ type = code :=
  UInt16.toNat_inj

/-- What `parseResponse()` notes of an item. -/
def ExplicitMessage.note (cip : Option (Nat × Nat)) (type p len : Nat) : Option (Option (Nat × Nat)) :=
  some (if type = 0x00B2 then some (p, len) else cip)

/-- What `parseConnectedResponse()` notes of an item. -/
def Connection.note (rx : List UInt8) (s : Option UInt32 × Option (Nat × Nat)) (type p len : Nat) :
    Option (Option UInt32 × Option (Nat × Nat)) :=
  if type = 0x00A1 then
    if len < 4 then none else some (some (getU32 (rx.drop p)), s.2)
  else some (s.1, if type = 0x00B1 then some (p, len) else s.2)

theorem findUnconnected_walk (hk : k ≤ rx.length) {n remaining : Nat} (hp : p + remaining = k)
    (cip : Option (Nat × Nat)) :
    ExplicitMessage.findUnconnected rx n p remaining cip =
      Tlv.walk 2 2 (rx.take k) ExplicitMessage.note n p cip := by
  have hlen : (rx.take k).length = k := by rw [List.length_take, Nat.min_eq_left hk]
  induction n generalizing p remaining cip with
  | zero => rfl
  | succ n ih =>
    unfold ExplicitMessage.findUnconnected Tlv.walk
    simp only [hlen]
    by_cases hshort : remaining < 4
    · rw [if_pos hshort, if_pos (by omega)]
    · have htype := word_received (p := p) (by omega) hk
      have hword := word_received (p := p + 2) (by omega) hk
      have hb2 : (getU16 (rx.drop p)).toNat = 0x00B2 ↔ getU16 (rx.drop p) = 0x00B2 := code_iff _ 0x00B2
      rw [if_neg hshort, hword, htype]
      by_cases hlong : (getU16 (rx.drop (p + 2))).toNat > remaining - 4
      · have hpast : k < p + 2 + 2 + (getU16 (rx.drop (p + 2))).toNat := by omega
        rw [if_pos hlong, if_pos hpast]
      · have hfit : ¬ k < p + 2 + 2 + (getU16 (rx.drop (p + 2))).toNat := by omega
        rw [if_neg hlong, if_neg hfit]
        simp only [ExplicitMessage.note, hb2]
        exact ih (by omega) _

theorem findConnected_walk (hk : k ≤ rx.length) {n remaining : Nat} (hp : p + remaining = k)
    (connId : Option UInt32) (cd : Option (Nat × Nat)) :
    Connection.findConnected rx n p remaining connId cd =
      Tlv.walk 2 2 (rx.take k) (Connection.note rx) n p (connId, cd) := by
  have hlen : (rx.take k).length = k := by rw [List.length_take, Nat.min_eq_left hk]
  induction n generalizing p remaining connId cd with
  | zero => rfl
  | succ n ih =>
    unfold Connection.findConnected Tlv.walk
    simp only [hlen]
    by_cases hshort : remaining < 4
    · rw [if_pos hshort, if_pos (by omega)]
    · have htype := word_received (p := p) (by omega) hk
      have hword := word_received (p := p + 2) (by omega) hk
      have ha1 : (getU16 (rx.drop p)).toNat = 0x00A1 ↔ getU16 (rx.drop p) = 0x00A1 := code_iff _ 0x00A1
      have hb1 : (getU16 (rx.drop p)).toNat = 0x00B1 ↔ getU16 (rx.drop p) = 0x00B1 := code_iff _ 0x00B1
      rw [if_neg hshort, hword, htype]
      by_cases hlong : (getU16 (rx.drop (p + 2))).toNat > remaining - 4
      · have hpast : k < p + 2 + 2 + (getU16 (rx.drop (p + 2))).toNat := by omega
        rw [if_pos hlong, if_pos hpast]
      · have hfit : ¬ k < p + 2 + 2 + (getU16 (rx.drop (p + 2))).toNat := by omega
        rw [if_neg hlong, if_neg hfit]
        simp only [Connection.note, ha1, hb1]
        by_cases hconn : getU16 (rx.drop p) = 0x00A1
        · rw [if_pos hconn, if_pos hconn]
          by_cases hfour : (getU16 (rx.drop (p + 2))).toNat < 4
          · rw [if_pos hfour, if_pos hfour]
          · rw [if_neg hfour, if_neg hfour]
            exact ih (by omega) _ _
        · rw [if_neg hconn, if_neg hconn]
          exact ih (by omega) _ _

/-! ### What the loops find -/

/-- An offset and a length denote the contents within the frame. -/
def Located (frame : List UInt8) : Option (Nat × Nat) → Option (List UInt8) → Prop :=
  Option.Rel fun q content => q.1 + q.2 ≤ frame.length ∧ content = (frame.drop q.1).take q.2

/-- What a loop that has noted an ID and a place knows about the items before it. -/
def Gathered (frame : List UInt8) (s : Option UInt32 × Option (Nat × Nat))
    (x : Option (List UInt8) × Option (List UInt8)) : Prop :=
  Option.Rel (fun id address => id = getU32 address) s.1 x.1 ∧ Located frame s.2 x.2

/-- `Connection.note` on the items themselves. -/
private def keep (x : Option (List UInt8) × Option (List UInt8)) (i : Item) :
    Option (Option (List UInt8) × Option (List UInt8)) :=
  if i.type = 0x00A1 then
    if i.content.length < 4 then none else some (some i.content, x.2)
  else some (x.1, if i.type = 0x00B1 then some i.content else x.2)

private theorem foldlM_keep (items : List Item) (x : Option (List UInt8) × Option (List UInt8)) :
    items.foldlM keep x =
      if Addressed items then some ((Tlv.last? 0x00A1 items).or x.1, (Tlv.last? 0x00B1 items).or x.2) else none := by
  induction items generalizing x with
  | nil => simp [Addressed, Tlv.last?]
  | cons i items ih =>
    have hall : Addressed (i :: items) ↔ (i.type = 0x00A1 → 4 ≤ i.content.length) ∧ Addressed items := by
      simp [Addressed]
    rw [List.foldlM_cons, keep]
    by_cases htype : i.type = 0x00A1
    · have hother : ¬ i.type = 0x00B1 := by omega
      by_cases hlen : i.content.length < 4
      · have hnot : ¬ Addressed (i :: items) := by
          intro h
          have := (hall.1 h).1 htype
          omega
        rw [if_pos htype, if_pos hlen, if_neg hnot]
        rfl
      · have hiff : Addressed (i :: items) ↔ Addressed items := by
          rw [hall]
          constructor
          · exact fun h => h.2
          · exact fun h => ⟨fun _ => by omega, h⟩
        rw [if_pos htype, if_neg hlen, Option.bind_eq_bind, Option.bind_some, ih]
        simp [hiff, Tlv.last?, htype]
    · have hiff : Addressed (i :: items) ↔ Addressed items := by
        rw [hall]
        constructor
        · exact fun h => h.2
        · exact fun h => ⟨fun e => absurd e htype, h⟩
      rw [if_neg htype, Option.bind_eq_bind, Option.bind_some, ih]
      by_cases hdata : i.type = 0x00B1
      · simp [hiff, Tlv.last?, hdata]
      · simp [hiff, Tlv.last?, htype, hdata]

theorem findUnconnected_items (hk : k ≤ rx.length) (h32 : 32 ≤ k) (n : Nat) :
    Option.Rel (Located (rx.take k)) (ExplicitMessage.findUnconnected rx n 32 (k - 32) none)
      ((Tlv.decode 2 2 n ((rx.take k).drop 32)).map fun d => Tlv.last? 0x00B2 d.1) := by
  have hwalk : Option.Rel (Located (rx.take k)) (Tlv.walk 2 2 (rx.take k) ExplicitMessage.note n 32 none)
      ((Tlv.decode 2 2 n ((rx.take k).drop 32)).bind fun d =>
        d.1.foldlM (fun x i => some (if i.type = 0x00B2 then some i.content else x)) none) := by
    refine Tlv.walk_decode ?_ ?_ .none
    · intro s x type p len hR hp
      refine .some ?_
      by_cases htype : type = 0x00B2
      · rw [if_pos htype, if_pos htype]
        exact .some ⟨hp, rfl⟩
      · rw [if_neg htype, if_neg htype]
        exact hR
    · rw [List.length_take]
      omega
  rw [findUnconnected_walk hk (by omega)]
  generalize Tlv.decode 2 2 n ((rx.take k).drop 32) = d at hwalk ⊢
  cases d with
  | none => exact hwalk
  | some d =>
    simp only [Option.bind_some, Tlv.foldlM_last, Option.or_none] at hwalk
    exact hwalk

theorem findConnected_items (hk : k ≤ rx.length) (h32 : 32 ≤ k) (n : Nat) :
    Option.Rel (Gathered (rx.take k)) (Connection.findConnected rx n 32 (k - 32) none none)
      ((Tlv.decode 2 2 n ((rx.take k).drop 32)).bind fun d =>
        if Addressed d.1 then some (Tlv.last? 0x00A1 d.1, Tlv.last? 0x00B1 d.1) else none) := by
  have hwalk : Option.Rel (Gathered (rx.take k)) (Tlv.walk 2 2 (rx.take k) (Connection.note rx) n 32 (none, none))
      ((Tlv.decode 2 2 n ((rx.take k).drop 32)).bind fun d => d.1.foldlM keep (none, none)) := by
    refine Tlv.walk_decode ?_ ?_ ⟨.none, .none⟩
    · intro s x type p len hR hp
      have hpk : p + len ≤ k := by
        rw [List.length_take] at hp
        omega
      have hlen : (((rx.take k).drop p).take len).length = len := by
        rw [List.length_take, List.length_drop]
        omega
      simp only [Connection.note, keep, hlen]
      by_cases htype : type = 0x00A1
      · rw [if_pos htype, if_pos htype]
        by_cases hfour : len < 4
        · rw [if_pos hfour, if_pos hfour]
          exact .none
        · rw [if_neg hfour, if_neg hfour]
          refine .some ⟨.some (getU32_congr ?_), hR.2⟩
          rw [List.take_take, Nat.min_eq_left (by omega), take_drop_received (by omega)]
      · rw [if_neg htype, if_neg htype]
        refine .some ⟨hR.1, ?_⟩
        by_cases hdata : type = 0x00B1
        · rw [if_pos hdata, if_pos hdata]
          exact .some ⟨hp, rfl⟩
        · rw [if_neg hdata, if_neg hdata]
          exact hR.2
    · rw [List.length_take]
      omega
  rw [findConnected_walk hk (by omega)]
  generalize Tlv.decode 2 2 n ((rx.take k).drop 32) = d at hwalk ⊢
  cases d with
  | none => exact hwalk
  | some d =>
    simp only [Option.bind_some, foldlM_keep, Option.or_none] at hwalk
    exact hwalk

end Walks

/-! ### The two parsers -/

/-- A whole header has been received. -/
structure Buffers.Whole (b : Buffers) : Prop where
  header : kEncapsulationHeaderSize ≤ b.rxLen
  fits : b.rxLen ≤ b.rx.length

/-- The received bytes. -/
def Buffers.response (b : Buffers) : List UInt8 := b.rx.take b.rxLen

/-- `parseResponse()` and `parseConnectedResponse()` run when the loop over the socket has returned `Ok`. -/
theorem Buffers.readResponse_whole {cap : Nat} {b b' : Buffers} {conn conn' : TcpConnection} {as : List RecvAnswer}
    (hf : Framed cap b) (h : b.readResponse cap conn as = (.ok, b', conn')) : b'.Whole := by
  obtain ⟨x, hgot⟩ := readResponse_spec hf h
  have hlive := hgot.live (Or.inl rfl)
  have hlen := hgot.ok rfl
  refine ⟨?_, hgot.fits⟩
  by_cases hshort : b'.rxLen < 24
  · have := hlive.head hshort
    omega
  · have h24 : kEncapsulationHeaderSize = 24 := rfl
    omega

section Parse

variable {rx : List UInt8} {k : Nat} {context : UInt64}

theorem answering_iff (h24 : 24 ≤ k) (hk : k ≤ rx.length) (command : Command) :
    Answering command context (rx.take k) ↔
      (decodeHeader rx).command = command.code ∧ (decodeHeader rx).status = 0 ∧ (decodeHeader rx).context = context ∧
        8 ≤ k - 24 := by
  have hheader : decodeHeader (rx.take k) = decodeHeader rx :=
    decodeHeader_congr (by rw [List.take_take, Nat.min_eq_left h24])
  have hlen : (rx.take k).length = k := by rw [List.length_take, Nat.min_eq_left hk]
  have hbody : ((rx.take k).drop kEncapsulationHeaderSize).length = k - 24 := by
    rw [List.length_drop, hlen]
    rfl
  constructor
  · rintro ⟨-, hcommand, hstatus, hcontext, hb⟩
    rw [hheader] at hcommand hstatus hcontext
    rw [hbody] at hb
    exact ⟨hcommand, hstatus, hcontext, hb⟩
  · rintro ⟨hcommand, hstatus, hcontext, hb⟩
    rw [← hheader] at hcommand hstatus hcontext
    refine ⟨?_, hcommand, hstatus, hcontext, ?_⟩
    · rw [hlen]
      exact h24
    · rw [hbody]
      exact hb

/-- The items of the received bytes, counted by the whole buffer. -/
private theorem cpfItems_received (h32 : 32 ≤ k) :
    cpfItems (rx.take k) =
      (Tlv.decode 2 2 (getU16 (rx.drop 30)).toNat ((rx.take k).drop 32)).map Prod.fst := by
  have hcount : getU16 ((rx.take k).drop 30) = getU16 (rx.drop 30) := getU16_congr (take_drop_received (by omega))
  rw [cpfItems, hcount]

/-- A byte of contents that lie in the received bytes. -/
private theorem located_byte {q len i : Nat} {content : List UInt8} (hk : k ≤ rx.length) (hq : q + len ≤ k)
    (hc : content = ((rx.take k).drop q).take len) (hi : i < len) : content[i]? = some (peek (rx.drop q) i) := by
  have hlt : q + i < rx.length := by omega
  rw [hc, take_drop_received hq, List.getElem?_take_of_lt hi, List.getElem?_drop, List.getElem?_eq_getElem hlt, peek,
    List.getD_eq_getElem?_getD, List.getElem?_drop, List.getElem?_eq_getElem hlt, Option.getD_some]

/-- The checks that the two parsers make before they look at the items pass exactly the frames that answer the
request. -/
private theorem head_passed {command : Command} (h24 : 24 ≤ k) (hk : k ≤ rx.length)
    (ha : Answering command context (rx.take k)) (rest : Option ExplicitMessage.Response) :
    (if (decodeHeader rx).command ≠ command.code ∨ (decodeHeader rx).status ≠ 0 then none
      else if (decodeHeader rx).context ≠ context then none
      else if k - kEncapsulationHeaderSize < 8 then none else rest) = rest := by
  obtain ⟨hcommand, hstatus, hcontext, hb⟩ := (answering_iff h24 hk command).1 ha
  rw [if_neg (by simp [hcommand, hstatus]), if_neg (by simp [hcontext]), if_neg]
  exact Nat.not_lt.2 hb

private theorem head_failed {command : Command} (h24 : 24 ≤ k) (hk : k ≤ rx.length)
    (ha : ¬ Answering command context (rx.take k)) (rest : Option ExplicitMessage.Response) :
    (if (decodeHeader rx).command ≠ command.code ∨ (decodeHeader rx).status ≠ 0 then none
      else if (decodeHeader rx).context ≠ context then none
      else if k - kEncapsulationHeaderSize < 8 then none else rest) = none := by
  split
  · rfl
  · rename_i hhead
    split
    · rfl
    · rename_i hcontext
      split
      · rfl
      · rename_i hb
        simp only [not_or, ne_eq, Decidable.not_not] at hhead hcontext
        exact absurd ((answering_iff h24 hk _).2 ⟨hhead.1, hhead.2, hcontext, Nat.not_lt.1 hb⟩) ha

/-- Behind the checks the walk over the items begins. -/
private theorem items_begin {command : Command} (h24 : 24 ≤ k) (hk : k ≤ rx.length)
    (ha : Answering command context (rx.take k)) : 32 ≤ k ∧ k - kEncapsulationHeaderSize - 8 = k - 32 := by
  obtain ⟨-, -, -, hb⟩ := (answering_iff h24 hk command).1 ha
  have hsize : kEncapsulationHeaderSize = 24 := rfl
  omega

/-- The last checks of `parseResponse()`, on what the loop has found. -/
private def unconnectedResponse (rx : List UInt8) : Option (Option (Nat × Nat)) → Option ExplicitMessage.Response
  | some (some (cip, cipLen)) =>
    if cipLen < 4 then none else some ⟨peek (rx.drop cip) 0, peek (rx.drop cip) 2, cip + 4, cipLen - 4⟩
  | _ => none

private theorem parse_unanswered (h24 : 24 ≤ k) (hk : k ≤ rx.length)
    (ha : ¬ Answering .sendRRData context (rx.take k)) : ExplicitMessage.parse rx k context = none := by
  unfold ExplicitMessage.parse
  dsimp only
  exact head_failed h24 hk ha _

private theorem parse_answered (h24 : 24 ≤ k) (hk : k ≤ rx.length) (ha : Answering .sendRRData context (rx.take k)) :
    32 ≤ k ∧ ExplicitMessage.parse rx k context =
      unconnectedResponse rx (ExplicitMessage.findUnconnected rx (getU16 (rx.drop 30)).toNat 32 (k - 32) none) := by
  obtain ⟨h32, hoff⟩ := items_begin h24 hk ha
  refine ⟨h32, ?_⟩
  unfold ExplicitMessage.parse
  dsimp only
  rw [head_passed h24 hk ha, hoff]
  rfl

/-- The contents that an offset and a length denote, of which the first bytes are no data. -/
private theorem located_data {q len i : Nat} {content : List UInt8} (hk : k ≤ rx.length) (hq : q + len ≤ k)
    (hc : content = ((rx.take k).drop q).take len) (hi : i ≤ len) :
    content.length = len ∧ (rx.drop (q + i)).take (len - i) = content.drop i := by
  have hlen : content.length = len := by
    rw [hc, List.length_take, List.length_drop, List.length_take]
    omega
  have hdata : ((rx.drop q).take len).drop i = ((rx.drop q).drop i).take (len - i) := List.drop_take
  refine ⟨hlen, ?_⟩
  rw [hc, take_drop_received hq, hdata, List.drop_drop]

theorem ExplicitMessage.parse_unconnected (h24 : 24 ≤ k) (hk : k ≤ rx.length) :
    (parse rx k context = none ∧ ∀ cip, ¬ Unconnected context (rx.take k) cip) ∨
      ∃ r cip, parse rx k context = some r ∧ Unconnected context (rx.take k) cip ∧ Denotes rx k r cip := by
  by_cases ha : Answering .sendRRData context (rx.take k)
  · obtain ⟨h32, hparse⟩ := parse_answered h24 hk ha
    have hrel := findUnconnected_items hk h32 (getU16 (rx.drop 30)).toNat
    have hitems := @cpfItems_received rx k h32
    -- no other list of items can be meant
    have honly : ∀ {cip}, Unconnected context (rx.take k) cip →
        ∃ d, Tlv.decode 2 2 (getU16 (rx.drop 30)).toNat ((rx.take k).drop 32) = some d ∧
          Tlv.last? 0x00B2 d.1 = some cip := by
      intro cip h
      obtain ⟨items, hi, hc⟩ := h.item
      rw [hitems, Option.map_eq_some_iff] at hi
      obtain ⟨d, hd, rfl⟩ := hi
      exact ⟨d, hd, hc⟩
    rw [hparse]
    generalize findUnconnected rx (getU16 (rx.drop 30)).toNat 32 (k - 32) none = found at hrel ⊢
    cases hd : Tlv.decode 2 2 (getU16 (rx.drop 30)).toNat ((rx.take k).drop 32) with
    | none =>
      rw [hd] at hrel honly
      cases hrel
      refine Or.inl ⟨rfl, fun cip h => ?_⟩
      obtain ⟨d, hd', -⟩ := honly h
      cases hd'
    | some d =>
      rw [hd] at hrel honly hitems
      simp only [Option.map_some] at hrel
      cases hlast : Tlv.last? 0x00B2 d.1 with
      | none =>
        rw [hlast] at hrel
        cases hrel with
        | some hrel =>
          cases hrel
          refine Or.inl ⟨rfl, fun cip h => ?_⟩
          obtain ⟨d', hd', hc⟩ := honly h
          obtain rfl := Option.some.inj hd'
          rw [hlast] at hc
          cases hc
      | some content =>
        rw [hlast] at hrel
        cases hrel with
        | some hrel =>
          cases hrel with
          | @some place _ hplace =>
            obtain ⟨q, len⟩ := place
            obtain ⟨hq, hc⟩ := hplace
            rw [List.length_take, Nat.min_eq_left hk] at hq
            have hclen := (located_data hk hq hc (Nat.zero_le _)).1
            by_cases hfour : len < 4
            · refine Or.inl ⟨if_pos hfour, fun cip h => ?_⟩
              obtain ⟨d', hd', hc'⟩ := honly h
              obtain rfl := Option.some.inj hd'
              rw [hlast] at hc'
              obtain rfl := Option.some.inj hc'
              have := h.long
              omega
            · refine Or.inr ⟨_, content, if_neg hfour, ⟨ha, ⟨d.1, hitems, hlast⟩, by omega⟩, ?_⟩
              refine ⟨located_byte hk hq hc (by omega), located_byte hk hq hc (by omega), ?_, ?_, ?_⟩
              · show q + 4 + (len - 4) ≤ k
                omega
              · rw [hclen]
              · exact (located_data hk hq hc (by omega)).2
  · exact Or.inl ⟨parse_unanswered h24 hk ha, fun cip h => ha h.answering⟩

variable {toConnId : UInt32} {sequence : UInt16}

/-- The last checks of `parseConnectedResponse()`, on what the loop has found. -/
private def connectedResponse (rx : List UInt8) (toConnId : UInt32) (sequence : UInt16) :
    Option (Option UInt32 × Option (Nat × Nat)) → Option ExplicitMessage.Response
  | some (some connId, some (cd, cdLen)) =>
    if cdLen < 4 then none
    else if connId ≠ toConnId then none
    else if getU16 (rx.drop cd) ≠ sequence then none
    else if cdLen - 2 < 4 then none
    else some ⟨peek (rx.drop (cd + 2)) 0, peek (rx.drop (cd + 2)) 2, cd + 6, cdLen - 6⟩
  | _ => none

private theorem connected_unanswered (h24 : 24 ≤ k) (hk : k ≤ rx.length)
    (ha : ¬ Answering .sendUnitData context (rx.take k)) :
    Connection.parse rx k context toConnId sequence = none := by
  unfold Connection.parse
  dsimp only
  exact head_failed h24 hk ha _

private theorem connected_answered (h24 : 24 ≤ k) (hk : k ≤ rx.length)
    (ha : Answering .sendUnitData context (rx.take k)) :
    32 ≤ k ∧ Connection.parse rx k context toConnId sequence =
      connectedResponse rx toConnId sequence
        (Connection.findConnected rx (getU16 (rx.drop 30)).toNat 32 (k - 32) none none) := by
  obtain ⟨h32, hoff⟩ := items_begin h24 hk ha
  refine ⟨h32, ?_⟩
  unfold Connection.parse
  dsimp only
  rw [head_passed h24 hk ha, hoff]
  rfl

/-- What `parseConnectedResponse()` demands of what the loop has found. -/
structure Accepts (rx : List UInt8) (toConnId : UInt32) (sequence : UInt16) (connId : UInt32) (cd cdLen : Nat) :
    Prop where
  long : 6 ≤ cdLen
  connId : connId = toConnId
  sequence : getU16 (rx.drop cd) = sequence

private theorem connectedResponse_some {connId : UInt32} {cd cdLen : Nat}
    (h : Accepts rx toConnId sequence connId cd cdLen) :
    connectedResponse rx toConnId sequence (some (some connId, some (cd, cdLen))) =
      some ⟨peek (rx.drop (cd + 2)) 0, peek (rx.drop (cd + 2)) 2, cd + 6, cdLen - 6⟩ := by
  obtain ⟨hlong, hid, hseq⟩ := h
  rw [connectedResponse, if_neg (by omega), if_neg (by simp [hid]), if_neg (by simp [hseq]), if_neg (by omega)]

private theorem connectedResponse_none {connId : UInt32} {cd cdLen : Nat}
    (h : ¬ Accepts rx toConnId sequence connId cd cdLen) :
    connectedResponse rx toConnId sequence (some (some connId, some (cd, cdLen))) = none := by
  unfold connectedResponse
  dsimp only
  split
  · rfl
  · split
    · rfl
    · rename_i hid
      split
      · rfl
      · rename_i hseq
        split
        · rfl
        · rename_i hlong
          exact absurd ⟨by omega, Decidable.not_not.1 hid, Decidable.not_not.1 hseq⟩ h

/-- The contents of the last connected-address and the last connected-data item, when every connected-address item is
long enough. -/
private def connectedItems (frame : List UInt8) : Option (Option (List UInt8) × Option (List UInt8)) :=
  (Tlv.decode 2 2 (getU16 (frame.drop 30)).toNat (frame.drop 32)).bind fun d =>
    if Addressed d.1 then some (Tlv.last? 0x00A1 d.1, Tlv.last? 0x00B1 d.1) else none

private theorem connected_iff {frame cip : List UInt8} :
    Connected context toConnId sequence frame cip ↔
      Answering .sendUnitData context frame ∧ ∃ address content,
        connectedItems frame = some (some address, some content) ∧
          getU32 address = toConnId ∧ 6 ≤ content.length ∧ getU16 content = sequence ∧ cip = content.drop 2 := by
  constructor
  · rintro ⟨ha, items, address, content, hi, hall, hadr, hid, hcon, hrest⟩
    rw [cpfItems, Option.map_eq_some_iff] at hi
    obtain ⟨d, hd, rfl⟩ := hi
    refine ⟨ha, address, content, ?_, hid, hrest⟩
    rw [connectedItems, hd, Option.bind_some, if_pos hall, hadr, hcon]
  · rintro ⟨ha, address, content, hi, hid, hrest⟩
    rw [connectedItems, Option.bind_eq_some_iff] at hi
    obtain ⟨d, hd, hi⟩ := hi
    split at hi
    · rename_i hall
      simp only [Option.some.injEq, Prod.mk.injEq] at hi
      refine ⟨ha, d.1, address, content, ?_, hall, hi.1, hid, hi.2, hrest⟩
      rw [cpfItems, hd, Option.map_some]
    · cases hi

/-- The loop of `parseConnectedResponse()` finds these items. -/
private theorem findConnected_received (hk : k ≤ rx.length) (h32 : 32 ≤ k) :
    Option.Rel (Gathered (rx.take k)) (Connection.findConnected rx (getU16 (rx.drop 30)).toNat 32 (k - 32) none none)
      (connectedItems (rx.take k)) := by
  have hcount : getU16 ((rx.take k).drop 30) = getU16 (rx.drop 30) := getU16_congr (take_drop_received (by omega))
  rw [connectedItems, hcount]
  exact findConnected_items hk h32 _

theorem Connection.parse_connected (h24 : 24 ≤ k) (hk : k ≤ rx.length) :
    (parse rx k context toConnId sequence = none ∧
        ∀ cip, ¬ Connected context toConnId sequence (rx.take k) cip) ∨
      ∃ r cip, parse rx k context toConnId sequence = some r ∧
        Connected context toConnId sequence (rx.take k) cip ∧ Denotes rx k r cip := by
  simp only [connected_iff]
  by_cases ha : Answering .sendUnitData context (rx.take k)
  · obtain ⟨h32, hparse⟩ := @connected_answered rx k context toConnId sequence h24 hk ha
    have hrel := findConnected_received hk h32
    rw [hparse]
    generalize findConnected rx (getU16 (rx.drop 30)).toNat 32 (k - 32) none none = found at hrel ⊢
    generalize connectedItems (rx.take k) = meant at hrel ⊢
    cases hrel with
    | none =>
      refine Or.inl ⟨rfl, ?_⟩
      rintro cip ⟨-, address, content, hx, -⟩
      cases hx
    | @some s x hnoted =>
      obtain ⟨id, place⟩ := s
      obtain ⟨address, content⟩ := x
      obtain ⟨haddress, hplace⟩ := hnoted
      cases haddress with
      | none =>
        refine Or.inl ⟨rfl, ?_⟩
        rintro cip ⟨-, address', content', hx, -⟩
        cases hx
      | @some id address hid =>
        cases hplace with
        | none =>
          refine Or.inl ⟨rfl, ?_⟩
          rintro cip ⟨-, address', content', hx, -⟩
          cases hx
        | @some place content hplace =>
          obtain ⟨q, len⟩ := place
          obtain ⟨hq, hc⟩ := hplace
          rw [List.length_take, Nat.min_eq_left hk] at hq
          have hclen := (located_data hk hq hc (Nat.zero_le _)).1
          have hseq : 2 ≤ len → getU16 content = getU16 (rx.drop q) := by
            intro h2
            refine getU16_congr ?_
            rw [hc, take_drop_received hq, List.take_take, Nat.min_eq_left h2]
          by_cases hacc : Accepts rx toConnId sequence id q len
          · obtain ⟨hlong, hto, hs⟩ := hacc
            refine Or.inr ⟨_, content.drop 2, connectedResponse_some ⟨hlong, hto, hs⟩,
              ⟨ha, address, content, rfl, hid ▸ hto, ?_, ?_, rfl⟩, ?_⟩
            · omega
            · rw [hseq (by omega), hs]
            · have hbyte : ∀ i, i + 2 < len → (content.drop 2)[i]? = some (peek (rx.drop (q + 2)) i) := by
                intro i hi
                rw [List.getElem?_drop, Nat.add_comm, located_byte hk hq hc hi, peek, peek,
                  List.getD_eq_getElem?_getD, List.getD_eq_getElem?_getD, List.getElem?_drop, List.getElem?_drop,
                  Nat.add_assoc, Nat.add_comm i 2]
              refine ⟨hbyte 0 (by omega), hbyte 2 (by omega), ?_, ?_, ?_⟩
              · show q + 6 + (len - 6) ≤ k
                omega
              · rw [List.length_drop, hclen]
                show len - 6 = len - 2 - 4
                omega
              · rw [List.drop_drop]
                exact (located_data hk hq hc hlong).2
          · refine Or.inl ⟨connectedResponse_none hacc, ?_⟩
            rintro cip ⟨-, address', content', hx, hto, hlong, hs, -⟩
            simp only [Option.some.injEq, Prod.mk.injEq] at hx
            obtain ⟨rfl, rfl⟩ := hx
            refine hacc ⟨by omega, hid.trans hto, ?_⟩
            rw [← hseq (by omega), hs]
  · exact Or.inl ⟨connected_unanswered h24 hk ha, fun cip h => ha h.1⟩

end Parse

end ControlLogix
