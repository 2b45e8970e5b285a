import Mathlib.Data.List.Basic
import ControlLogix.Bytes

/-!
# Packed records

Python's `struct` for the formats of unsigned integers that begin with `<`: the fields follow one another, each
little-endian in its size, with no padding.  A function that raises `struct.error` has the value `none`.

* `Packs` is what a format means: these numbers lie one after the other in these bytes;
* `pack_iff`, `unpack_iff`: both functions compute it, so each one undoes the other (`unpack_pack`).
-/

namespace Struct

open Bytes

inductive Code where
  | B
  | H
  | I
  | Q
  deriving DecidableEq, Repr

def Code.size : Code → Nat
  | .B => 1
  | .H => 2
  | .I => 4
  | .Q => 8

def Code.ofChar : Char → Option Code
  | 'B' => some .B
  | 'H' => some .H
  | 'I' => some .I
  | 'Q' => some .Q
  | _ => none

/-- The fields of a format. -/
def codes (fmt : String) : Option (List Code) :=
  match fmt.toList with
  | '<' :: cs => cs.mapM Code.ofChar
  | _ => none

def sizeOfCodes : List Code → Nat
  | [] => 0
  | c :: cs => c.size + sizeOfCodes cs

/-- The fields of a record, one after the other. -/
def packCodes : List Code → List Nat → Option (List UInt8)
  | [], [] => some []
  | c :: cs, v :: vs => if v < 256 ^ c.size then (packCodes cs vs).map fun bs => leBytes c.size v ++ bs else none
  | _, _ => none

def unpackCodes : List Code → List UInt8 → Option (List Nat)
  | [], [] => some []
  | [], _ => none
  | c :: cs, bs =>
    if c.size ≤ bs.length then (unpackCodes cs (bs.drop c.size)).map fun vs => leNat (bs.take c.size) :: vs else none

def calcsize (fmt : String) : Option Nat := (codes fmt).map sizeOfCodes

def pack (fmt : String) (vs : List Nat) : Option (List UInt8) := (codes fmt).bind fun cs => packCodes cs vs

def unpack (fmt : String) (bs : List UInt8) : Option (List Nat) := (codes fmt).bind fun cs => unpackCodes cs bs

/-! ### Records -/

/-- The bytes are the numbers one after the other, each in the size of its field. -/
inductive Packs : List Code → List Nat → List UInt8 → Prop where
  | nil : Packs [] [] []
  | cons (c : Code) {v : Nat} {cs : List Code} {vs : List Nat} {bs : List UInt8} (fits : v < 256 ^ c.size)
      (rest : Packs cs vs bs) : Packs (c :: cs) (v :: vs) (leBytes c.size v ++ bs)

variable {fmt : String} {cs : List Code} {vs : List Nat} {bs : List UInt8}

theorem Packs.length (h : Packs cs vs bs) : bs.length = sizeOfCodes cs := by
  induction h with
  | nil => rfl
  | cons c _ _ ih =>
    rw [List.length_append, length_leBytes, ih, sizeOfCodes]

theorem Packs.pack (h : Packs cs vs bs) : packCodes cs vs = some bs := by
  induction h with
  | nil => rfl
  | cons c hfits hrest ih => rw [packCodes, if_pos hfits, ih, Option.map_some]

theorem packs_of_pack (h : packCodes cs vs = some bs) : Packs cs vs bs := by
  induction cs generalizing vs bs with
  | nil =>
    cases vs with
    | nil =>
      obtain rfl := Option.some.inj h
      exact .nil
    | cons v vs => cases h
  | cons c cs ih =>
    cases vs with
    | nil => cases h
    | cons v vs =>
      rw [packCodes] at h
      split at h
      · rename_i hfits
        obtain ⟨bs, hbs, rfl⟩ := Option.map_eq_some_iff.1 h
        exact .cons c hfits (ih hbs)
      · cases h

theorem pack_iff : packCodes cs vs = some bs ↔ Packs cs vs bs := ⟨packs_of_pack, Packs.pack⟩

theorem Packs.unpack (h : Packs cs vs bs) : unpackCodes cs bs = some vs := by
  induction h with
  | nil => rfl
  | @cons c v cs vs bs hfits hrest ih =>
    have hlen : (leBytes c.size v).length = c.size := length_leBytes c.size v
    have hroom : c.size ≤ (leBytes c.size v ++ bs).length := by
      rw [List.length_append, hlen]
      omega
    rw [unpackCodes, if_pos hroom, List.drop_left' hlen, ih, List.take_left' hlen, leNat_leBytes hfits,
      Option.map_some]

theorem packs_of_unpack (h : unpackCodes cs bs = some vs) : Packs cs vs bs := by
  induction cs generalizing vs bs with
  | nil =>
    cases bs with
    | nil =>
      obtain rfl := Option.some.inj h
      exact .nil
    | cons b bs => cases h
  | cons c cs ih =>
    rw [unpackCodes] at h
    split at h
    · rename_i hroom
      obtain ⟨vs, hvs, rfl⟩ := Option.map_eq_some_iff.1 h
      -- a field is the encoding of the number that was read from it
      have hlen : (bs.take c.size).length = c.size := by
        rw [List.length_take]
        omega
      have hfits := leNat_lt (bs.take c.size)
      have hfield := leBytes_leNat (bs.take c.size)
      rw [hlen] at hfits hfield
      have hrest := Packs.cons c hfits (ih hvs)
      rwa [hfield, List.take_append_drop] at hrest
    · cases h

theorem unpack_iff : unpackCodes cs bs = some vs ↔ Packs cs vs bs := ⟨packs_of_unpack, Packs.unpack⟩

/-! ### Formats -/

theorem pack_eq (h : codes fmt = some cs) : pack fmt vs = packCodes cs vs := by
  rw [pack, h, Option.bind_some]

theorem unpack_eq (h : codes fmt = some cs) : unpack fmt bs = unpackCodes cs bs := by
  rw [unpack, h, Option.bind_some]

/-- What was packed is unpacked again, and the other way around. -/
theorem unpack_pack : unpack fmt bs = some vs ↔ pack fmt vs = some bs := by
  cases hfmt : codes fmt with
  | none => simp [unpack, pack, hfmt]
  | some cs => rw [unpack_eq hfmt, pack_eq hfmt, unpack_iff, pack_iff]

/-- Only strings of the size of the format are unpacked. -/
theorem calcsize_of_unpack (h : unpack fmt bs = some vs) : calcsize fmt = some bs.length := by
  obtain ⟨cs, hcs, hunpack⟩ := Option.bind_eq_some_iff.1 h
  rw [calcsize, hcs, Option.map_some, (packs_of_unpack hunpack).length]

end Struct
