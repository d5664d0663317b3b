import Tracefs.Record.Emission

/-!
# How large records get

Names are short, so most records are.  Two kinds carry more: a symbolic link
its target, a write its data.  The size field of a record has 16 bits and the
log thread collects records in a page of 4096 bytes; this module says which
calls fit.
-/

namespace Tracefs

open Bytes

namespace TracedCall

/-- The call produces a record whose size a 16-bit field can hold. -/
def SizeFieldFits : TracedCall → Prop
  | write name buf .. => 48 + name.text.length + buf.bytes.length < 2 ^ 16
  | _ => True

/-- The call produces a record that fits a page of 4096 bytes. -/
def FitsPage : TracedCall → Prop
  | write name buf .. => 48 + name.text.length + buf.bytes.length ≤ 4096
  | symlink name target .. => 24 + name.text.length + target.text.length ≤ 4096
  | _ => True

/-- Only the data of a write can outgrow the size field. -/
theorem byteSize_lt_iff (call : TracedCall) : call.byteSize < 2 ^ 16 ↔ call.SizeFieldFits := by
  cases call with
  | write name buf => rfl
  | symlink name target =>
      have first := name.bounded
      have second := target.bounded
      simp only [byteSize, SizeFieldFits, iff_true]
      omega
  | _ =>
      refine iff_of_true ((byteSize_le_of_names ?_ ?_).trans_lt (by decide)) trivial
      · simp [kind]
      · simp [kind]

/-- Only a write or a symbolic link can outgrow the page. -/
theorem byteSize_le_page_iff (call : TracedCall) : call.byteSize ≤ 4096 ↔ call.FitsPage := by
  cases call with
  | write name buf | symlink name target => rfl
  | _ =>
      refine iff_of_true ((byteSize_le_of_names ?_ ?_).trans (by decide)) trivial
      · simp [kind]
      · simp [kind]

end TracedCall

namespace TraceRecord

def rSize (record : TraceRecord) : Nat := record.encoder.decl.get record.memory 0 .rSize

theorem rSize_eq (record : TraceRecord) : record.rSize = record.call.byteSize % 2 ^ 16 := by
  obtain ⟨-, -, sizeAt, sizeWidth, -, -⟩ := record.encoder.header
  rw [rSize, StructDecl.get, sizeAt, sizeWidth]
  exact record.rSize_memory

/-- The stored size is the enqueued size exactly for the calls that fit. -/
theorem rSize_eq_len_iff (record : TraceRecord) :
    record.rSize = record.message.len ↔ record.call.SizeFieldFits := by
  rw [rSize_eq, len_message, ← TracedCall.byteSize_lt_iff]
  exact Nat.mod_eq_iff_lt (by norm_num)

/-- A write of `count` zero bytes to the file `a`. -/
def zeroWrite (count : Nat) (admitted : count ≤ maxRwCount) : TraceRecord where
  call := .write Name.a
    ⟨List.replicate count 0, by rwa [List.length_replicate]⟩ 0 0 0
  pid := 1
  rId := 2
  heap := fun _ => 0

@[simp] theorem rId_zeroWrite (count : Nat) (admitted : count ≤ maxRwCount) :
    (zeroWrite count admitted).rId = 2#32 := rfl

theorem byteSize_zeroWrite (count : Nat) (admitted : count ≤ maxRwCount) :
    (zeroWrite count admitted).call.byteSize = 49 + count := by
  simp [zeroWrite, TracedCall.byteSize, Name.a]

/-- A write of 64 KiB is enqueued with 65585 bytes and says that it has 49. -/
theorem rSize_zeroWrite_ne :
    (zeroWrite 65536 (by decide)).rSize = 49 ∧
      (zeroWrite 65536 (by decide)).message.len = 65585 ∧
      (zeroWrite 65536 (by decide)).rSize ≠ (zeroWrite 65536 (by decide)).message.len := by
  rw [rSize_eq, len_message, byteSize_zeroWrite]
  decide

end TraceRecord

end Tracefs
