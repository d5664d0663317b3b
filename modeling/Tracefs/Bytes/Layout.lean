import Tracefs.Bytes.Word

/-!
# Layout of C structures

Offsets and sizes of structure members under natural alignment on an LP64
little-endian machine.  A declaration is the list of its members in source
order; `place` assigns the offsets the compiler assigns.
-/

namespace Tracefs.Bytes

inductive CType where
  | uint8
  | char
  | unsignedShort
  | int
  | unsignedInt
  | uint64
  | sizeT
  | modeT
  | chars (count : Nat)
  deriving DecidableEq, Repr

namespace CType

def size : CType → Nat
  | uint8 | char => 1
  | unsignedShort => 2
  | int | unsignedInt | modeT => 4
  | uint64 | sizeT => 8
  | chars count => count

def align : CType → Nat
  | chars _ => 1
  | scalar => scalar.size

end CType

def alignUp (offset align : Nat) : Nat := (offset + align - 1) / align * align

abbrev StructDecl (Field : Type) := List (Field × CType)

structure Member (Field : Type) where
  field : Field
  offset : Nat
  type : CType
  deriving DecidableEq, Repr

namespace StructDecl

variable {Field : Type}

def place : (offset : Nat) → StructDecl Field → List (Member Field)
  | _, [] => []
  | offset, (field, type) :: rest =>
      let start := alignUp offset type.align
      ⟨field, start, type⟩ :: place (start + type.size) rest

/-- Offset one past the last member, before tail padding. -/
def extent : (offset : Nat) → StructDecl Field → Nat
  | offset, [] => offset
  | offset, (_, type) :: rest => extent (alignUp offset type.align + type.size) rest

/-- `sizeof`: the extent rounded up to the strictest member alignment. -/
def sizeof (decl : StructDecl Field) : Nat :=
  alignUp (decl.extent 0) (decl.foldr (fun member strictest => max member.2.align strictest) 1)

variable [DecidableEq Field]

def member? (decl : StructDecl Field) (field : Field) : Option (Member Field) :=
  (decl.place 0).find? (·.field = field)

/-- Offset of a declared member; the structures name only declared members. -/
def offsetOf (decl : StructDecl Field) (field : Field) : Nat :=
  ((decl.member? field).map Member.offset).getD 0

def widthOf (decl : StructDecl Field) (field : Field) : Nat :=
  ((decl.member? field).map (·.type.size)).getD 0

/-- Read a scalar member of the structure at `base`, as an unsigned number. -/
def get (decl : StructDecl Field) (memory : Memory) (base : Nat) (field : Field) : Nat :=
  memory.word (base + decl.offsetOf field) (decl.widthOf field)

end StructDecl

end Tracefs.Bytes
