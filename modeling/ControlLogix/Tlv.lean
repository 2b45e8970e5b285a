import ControlLogix.Bytes

/-!
# Lists of items with a type and a length

An item is a type of `t` bytes, a length of `l` bytes, both little-endian, and as many bytes of contents as the length
says.  Any number of items follow one another without separation.

* `decode_encode`: the decoder takes an encoded list apart, whatever follows it;
* `walk_decode`: a loop that walks over the items with an offset computes a fold over the decoded list.
-/

namespace Tlv

open Bytes

structure Item where
  type : Nat
  content : List UInt8
  deriving DecidableEq, Repr

/-- The first `n` items of a byte string, and what follows them. -/
def decode (t l : Nat) : Nat → List UInt8 → Option (List Item × List UInt8)
  | 0, bs => some ([], bs)
  | n + 1, bs =>
    let len := leNat ((bs.drop t).take l)
    if bs.length < t + l + len then none
    else
      match decode t l n (bs.drop (t + l + len)) with
      | none => none
      | some (items, rest) => some (⟨leNat (bs.take t), (bs.drop (t + l)).take len⟩ :: items, rest)

def Item.encode (t l : Nat) (i : Item) : List UInt8 := leBytes t i.type ++ leBytes l i.content.length ++ i.content

/-- The two fields of an item hold its type and its length. -/
structure Item.Fits (t l : Nat) (i : Item) : Prop where
  type : i.type < 256 ^ t
  length : i.content.length < 256 ^ l

variable {t l : Nat}

theorem decode_encode {items : List Item} (h : ∀ i ∈ items, i.Fits t l) (rest : List UInt8) :
    decode t l items.length (items.flatMap (Item.encode t l) ++ rest) = some (items, rest) := by
  induction items with
  | nil => rfl
  | cons i items ih =>
    obtain ⟨htype, hlen⟩ := h i (by simp)
    have ih' := ih fun j hj => h j (by simp [hj])
    have hbytes : (i :: items).flatMap (Item.encode t l) ++ rest =
        leBytes t i.type ++ (leBytes l i.content.length ++ (i.content ++
          (items.flatMap (Item.encode t l) ++ rest))) := by
      simp [Item.encode]
    have hhead : ∀ tail, (leBytes t i.type ++ tail).take t = leBytes t i.type := by
      intro tail
      rw [List.take_left' (length_leBytes t i.type)]
    have htail : ∀ tail, (leBytes t i.type ++ tail).drop t = tail := by
      intro tail
      rw [List.drop_left' (length_leBytes t i.type)]
    have hdrop : ∀ tail, (leBytes t i.type ++ (leBytes l i.content.length ++ tail)).drop (t + l) = tail := by
      intro tail
      rw [← List.drop_drop, htail, List.drop_left' (length_leBytes l i.content.length)]
    rw [hbytes, List.length_cons, decode]
    simp only [hhead, htail, List.take_left' (length_leBytes l i.content.length), leNat_leBytes htype,
      leNat_leBytes hlen, hdrop, ← List.drop_drop, List.take_left, List.drop_left]
    rw [if_neg (by simp only [List.length_append, length_leBytes]; omega), ih']

/-! ### The last item of a type -/

/-- The contents of the last item of the type. -/
def last? (type : Nat) : List Item → Option (List UInt8)
  | [] => none
  | i :: items => (last? type items).or (if i.type = type then some i.content else none)

/-- A fold that keeps the contents of the items of the type ends with the last of them. -/
theorem foldlM_last (type : Nat) (items : List Item) (x : Option (List UInt8)) :
    items.foldlM (fun x i => some (if i.type = type then some i.content else x))
    x = some ((last? type items).or x) := by
  induction items generalizing x with
  | nil => rfl
  | cons i items ih =>
    rw [List.foldlM_cons, Option.bind_eq_bind, Option.bind_some, ih, last?]
    by_cases htype : i.type = type
    · rw [if_pos htype, if_pos htype, Option.or_assoc, Option.or_some]
      simp
    · rw [if_neg htype, if_neg htype, Option.or_none]

/-! ### Walking over the items -/

section Walk

variable {σ τ : Type} {bs : List UInt8}

/-- A loop over `n` items, of which the first begins at the offset `p`.  It hands the type of an item and the offset
and the length of its contents to `f`, and stops when an item does not fit the bytes or `f` has no result. -/
def walk (t l : Nat) (bs : List UInt8) (f : σ → Nat → Nat → Nat → Option σ) : Nat → Nat → σ → Option σ
  | 0, _, s => some s
  | n + 1, p, s =>
    let len := leNat ((bs.drop (p + t)).take l)
    if bs.length < p + t + l + len then none
    else
      match f s (leNat ((bs.drop p).take t)) (p + t + l) len with
      | none => none
      | some s => walk t l bs f n (p + t + l + len) s

/-- When `f` does to the state what `g` does to the part of it that does not speak of offsets, the loop computes the
fold of `g` over the items. -/
theorem walk_decode {R : σ → τ → Prop} {f : σ → Nat → Nat → Nat → Option σ} {g : τ → Item → Option τ}
    (hstep : ∀ s x type p len, R s x → p + len ≤ bs.length →
      Option.Rel R (f s type p len) (g x ⟨type, (bs.drop p).take len⟩))
    {n p : Nat} {s : σ} {x : τ} (hp : p ≤ bs.length) (hR : R s x) :
    Option.Rel R (walk t l bs f n p s) ((decode t l n (bs.drop p)).bind fun d => d.1.foldlM g x) := by
  induction n generalizing p s x with
  | zero => exact .some hR
  | succ n ih =>
    have hlen : ((bs.drop p).drop t).take l = (bs.drop (p + t)).take l := by rw [List.drop_drop]
    rw [walk, decode]
    simp only [hlen, List.length_drop]
    by_cases hlt : bs.length < p + t + l + leNat ((bs.drop (p + t)).take l)
    · rw [if_pos hlt, if_pos (by omega)]
      exact .none
    · rw [if_neg hlt, if_neg (by omega)]
      have hoff : (bs.drop p).drop (t + l) = bs.drop (p + t + l) := by
        rw [List.drop_drop, Nat.add_assoc]
      have hnext : (bs.drop p).drop (t + l + leNat ((bs.drop (p + t)).take l)) =
          bs.drop (p + t + l + leNat ((bs.drop (p + t)).take l)) := by
        rw [List.drop_drop]
        congr 1
        omega
      have hone := hstep s x (leNat ((bs.drop p).take t)) (p + t + l) (leNat ((bs.drop (p + t)).take l)) hR (by omega)
      rw [hoff, hnext]
      generalize f s (leNat ((bs.drop p).take t)) (p + t + l) (leNat ((bs.drop (p + t)).take l)) = r at hone ⊢
      generalize hg : g x ⟨leNat ((bs.drop p).take t),
        (bs.drop (p + t + l)).take (leNat ((bs.drop (p + t)).take l))⟩ = q at hone
      cases hone with
      | none =>
        -- the loop stops here, and the fold does if it gets so far
        cases decode t l n (bs.drop (p + t + l + leNat ((bs.drop (p + t)).take l))) with
        | none => exact .none
        | some d =>
          simp only [Option.bind_some, List.foldlM_cons, hg]
          exact .none
      | some hR' =>
        have hrest := ih (p := p + t + l + leNat ((bs.drop (p + t)).take l)) (by omega) hR'
        cases hd : decode t l n (bs.drop (p + t + l + leNat ((bs.drop (p + t)).take l))) with
        | none =>
          rw [hd] at hrest
          exact hrest
        | some d =>
          rw [hd] at hrest
          simp only [Option.bind_some, List.foldlM_cons, hg]
          exact hrest

end Walk

end Tlv
