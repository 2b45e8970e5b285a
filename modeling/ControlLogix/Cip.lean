import ControlLogix.Encapsulation

/-!
# CIP constants and path encoding

The service codes, the attributes of the Identity Object, the elementary data types and the path segments of `Cip.h`.
A C string is the list of its bytes before the terminating NUL.

* `length_appendSymbolic`: the segment is a whole number of words and fits a path buffer of 128 bytes;
* `appendSymbolic_inj`: names up to the maximum length have different segments.
-/

namespace ControlLogix

inductive Service where
  | getAttributeAll
  | setAttributeAll
  | getAttributeList
  | setAttributeList
  | reset
  | start
  | stop
  | create
  | delete
  | multipleServicePacket
  | applyAttributes
  | getAttributeSingle
  | setAttributeSingle
  | findNextObjectInstance
  | restore
  | save
  | noOperation
  | getMember
  | setMember
  | insertMember
  | removeMember
  deriving DecidableEq, Repr

def Service.code : Service → UInt8
  | .getAttributeAll => 0x01
  | .setAttributeAll => 0x02
  | .getAttributeList => 0x03
  | .setAttributeList => 0x04
  | .reset => 0x05
  | .start => 0x06
  | .stop => 0x07
  | .create => 0x08
  | .delete => 0x09
  | .multipleServicePacket => 0x0A
  | .applyAttributes => 0x0D
  | .getAttributeSingle => 0x0E
  | .setAttributeSingle => 0x10
  | .findNextObjectInstance => 0x11
  | .restore => 0x15
  | .save => 0x16
  | .noOperation => 0x17
  | .getMember => 0x18
  | .setMember => 0x19
  | .insertMember => 0x1A
  | .removeMember => 0x1B

def kSegmentClassId8 : UInt8 := 0x20
def kSegmentInstanceId8 : UInt8 := 0x24
def kSegmentAttributeId8 : UInt8 := 0x30
def kSegmentSymbolic : UInt8 := 0xA0

def kIdentityVendorId : UInt8 := 1
def kIdentityDeviceType : UInt8 := 2
def kIdentityProductCode : UInt8 := 3
def kIdentityRevision : UInt8 := 4
def kIdentityStatus : UInt8 := 5
def kIdentitySerialNumber : UInt8 := 6
def kIdentityProductName : UInt8 := 7
def kIdentityState : UInt8 := 8

def appendClass (classId : UInt8) : List UInt8 := [kSegmentClassId8, classId]

def appendInstance (instanceId : UInt8) : List UInt8 := [kSegmentInstanceId8, instanceId]

def appendAttribute (attributeId : UInt8) : List UInt8 := [kSegmentAttributeId8, attributeId]

def kMaxSymbolicName : Nat := 120

def appendSymbolic (name : List UInt8) : List UInt8 :=
  let len := min name.length kMaxSymbolicName
  [kSegmentSymbolic, UInt8.ofNat len] ++ name.take len ++ (if len % 2 = 1 then [0] else [])

inductive TagService where
  | read
  | write
  deriving DecidableEq, Repr

def TagService.code : TagService → UInt8
  | .read => 0x4C
  | .write => 0x4D

inductive DataType where
  | bool
  | sint
  | int
  | dint
  | lint
  | usint
  | uint
  | udint
  | ulint
  | real
  | lreal
  | string
  deriving DecidableEq, Repr

def DataType.code : DataType → UInt8
  | .bool => 0xC1
  | .sint => 0xC2
  | .int => 0xC3
  | .dint => 0xC4
  | .lint => 0xC5
  | .usint => 0xC6
  | .uint => 0xC7
  | .udint => 0xC8
  | .ulint => 0xC9
  | .real => 0xCA
  | .lreal => 0xCB
  | .string => 0xD0

def DataType.all : List DataType :=
  [.bool, .sint, .int, .dint, .lint, .usint, .uint, .udint, .ulint, .real, .lreal, .string]

/-- The data type a byte is cast to; `none` is a value outside the enumeration. -/
def DataType.ofCode (c : UInt8) : Option DataType := DataType.all.find? fun t => t.code = c

def dataTypeElementSize : Option DataType → Nat
  | some .bool => 1
  | some .sint => 1
  | some .int => 2
  | some .dint => 4
  | some .lint => 8
  | some .usint => 1
  | some .uint => 2
  | some .udint => 4
  | some .ulint => 8
  | some .real => 4
  | some .lreal => 8
  | some .string => 0
  | none => 0

theorem DataType.ofCode_code (t : DataType) : DataType.ofCode t.code = some t := by
  cases t <;> rfl

theorem length_appendSymbolic (name : List UInt8) :
    (appendSymbolic name).length % 2 = 0 ∧ (appendSymbolic name).length ≤ 128 := by
  have hk : kMaxSymbolicName = 120 := rfl
  have hl : (appendSymbolic name).length =
      2 + min name.length 120 + if min name.length 120 % 2 = 1 then 1 else 0 := by
    simp only [appendSymbolic, hk, List.length_append, List.length_cons, List.length_nil, List.length_take]
    split <;> simp
  rw [hl]
  split <;> omega

/-- The second byte of the segment tells where the name ends. -/
theorem appendSymbolic_inj {a b : List UInt8} (ha : a.length ≤ kMaxSymbolicName) (hb : b.length ≤ kMaxSymbolicName)
    (h : appendSymbolic a = appendSymbolic b) : a = b := by
  have hk : kMaxSymbolicName = 120 := rfl
  rw [hk] at ha hb
  simp only [appendSymbolic, hk, Nat.min_eq_left ha, Nat.min_eq_left hb, List.take_length, List.cons_append,
    List.nil_append, List.cons.injEq, true_and] at h
  obtain ⟨hc, hn⟩ := h
  have hlen : a.length = b.length := by
    have e := congrArg UInt8.toNat hc
    simp only [UInt8.toNat_ofNat'] at e
    omega
  exact (List.append_inj hn hlen).1

end ControlLogix
