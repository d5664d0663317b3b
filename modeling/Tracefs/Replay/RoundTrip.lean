import Tracefs.Record.Contents
import Tracefs.Replay.Handlers

/-!
# Reading a record back

The encoders write through the structures of the kernel module, the handlers
read through those of userland.  For the kinds with one name, every member a
handler uses comes back as it was traced, whatever surrounds the record and
whatever the heap held before.
-/

namespace Tracefs

open Bytes

namespace TraceRecord

variable (record : TraceRecord) (around : Memory) (op : Nat)

def onPage : Memory := around.store op record.bytes

theorem word_onPage {start width : Nat} (bound : start + width ≤ record.call.byteSize) :
    (record.onPage around op).word (op + start) width = record.memory.word start width := by
  have same := Memory.word_within (record.load_around around op) bound
  rwa [Nat.zero_add] at same

theorem load_onPage {start count : Nat} (bound : start + count ≤ record.call.byteSize) :
    (record.onPage around op).load (op + start) count = record.memory.load start count := by
  have same := Memory.load_within (record.load_around around op) bound
  rwa [Nat.zero_add] at same

theorem cStringAt_onPage {start : Nat} {text : List UInt8}
    (bound : start + text.length < record.call.byteSize) :
    (record.onPage around op).CStringAt (op + start) text ↔ record.memory.CStringAt start text := by
  have same := Memory.cStringAt_within (record.load_around around op) bound
  rwa [Nat.zero_add] at same

end TraceRecord

section

variable {record : TraceRecord} {around : Memory} {op : Nat}

theorem pathAt_onPage {decl : StructDecl Field} {field : Field} {name : Name}
    (bound : decl.offsetOf field + name.text.length < record.call.byteSize)
    (held : record.memory.CStringAt (decl.offsetOf field) name.text) :
    pathAt decl (record.onPage around op) op field = some name.text := by
  have short := name.bounded
  refine (Memory.cString_eq_some_iff _ _ _ _).mpr ⟨?_, ?_⟩
  · rw [pathMax]
    omega
  · exact (record.cStringAt_onPage around op bound).mpr held

theorem get_onPage {decl : StructDecl Field} {field : Field} {value : Nat}
    (bound : decl.offsetOf field + decl.widthOf field ≤ record.call.byteSize)
    (held : record.memory.word (decl.offsetOf field) (decl.widthOf field) = value) :
    decl.get (record.onPage around op) op field = value :=
  (record.word_onPage around op bound).trans held

end

/-- The members that the handler of a call uses have the traced values in the
record at `op`.  Calls with two names and calls that are not replayed are left out. -/
def ReadsBack (page : Memory) (op : Nat) (pid : BitVec 32) : TracedCall → Prop
  | .mkdir name mode ret =>
      pathAt Userland.trfsMkdirOp page op .pathname = some name.text ∧
        Userland.trfsMkdirOp.get page op .mode = mode.toNat ∧
        Userland.trfsMkdirOp.get page op .ret = ret.toNat
  | .rmdir name ret =>
      pathAt Userland.trfsRmdirOp page op .pathname = some name.text ∧
        Userland.trfsRmdirOp.get page op .ret = ret.toNat
  | .unlink name ret =>
      pathAt Userland.trfsUnlinkOp page op .pathname = some name.text ∧
        Userland.trfsUnlinkOp.get page op .ret = ret.toNat
  | .openFile name flags mode file ret =>
      pathAt Userland.trfsOpenOp page op .pathname = some name.text ∧
        Userland.trfsOpenOp.get page op .flags = flags.toNat ∧
        Userland.trfsOpenOp.get page op .mode = mode.toNat ∧
        Userland.trfsOpenOp.get page op .pid = pid.toNat ∧
        Userland.trfsOpenOp.get page op .addr = file.toNat ∧
        Userland.trfsOpenOp.get page op .ret = ret.toNat
  | .read _ count _ file ret =>
      Userland.trfsReadOp.get page op .pid = pid.toNat ∧
        Userland.trfsReadOp.get page op .addr = file.toNat ∧
        Userland.trfsReadOp.get page op .count = count.toNat ∧
        Userland.trfsReadOp.get page op .ret = ret.toNat
  | .write _ buf _ file ret =>
      Userland.trfsWriteOp.get page op .pid = pid.toNat ∧
        Userland.trfsWriteOp.get page op .addr = file.toNat ∧
        Userland.trfsWriteOp.get page op .count = buf.bytes.length ∧
        Userland.trfsWriteOp.get page op .ret = ret.toNat ∧
        page.load (op + Userland.trfsWriteOp.offsetOf .pathname +
          Userland.trfsWriteOp.get page op .len) (Userland.trfsWriteOp.get page op .count) =
          buf.bytes
  | .close _ file ret =>
      Userland.trfsCloseOp.get page op .pid = pid.toNat ∧
        Userland.trfsCloseOp.get page op .addr = file.toNat ∧
        Userland.trfsCloseOp.get page op .ret = ret.toNat
  | _ => True

section Records

variable (pid rId : BitVec 32) (heap around : Memory) (op : Nat) (name : Name)
  (file : BitVec 64) (ret : BitVec 32)

theorem readsBack_mkdir (mode : BitVec 32) :
    ReadsBack (TraceRecord.onPage ⟨.mkdir name mode ret, pid, rId, heap⟩ around op) op pid
      (.mkdir name mode ret) := by
  obtain ⟨modeHeld, retHeld, nameHeld⟩ := trfsLogMkdirOp_holds name ret rId heap mode
  exact ⟨pathAt_onPage (Nat.add_lt_add_right (by decide) _) nameHeld,
    get_onPage (Nat.le_add_right_of_le (by decide)) modeHeld,
    get_onPage (Nat.le_add_right_of_le (by decide)) retHeld⟩

theorem readsBack_rmdir :
    ReadsBack (TraceRecord.onPage ⟨.rmdir name ret, pid, rId, heap⟩ around op) op pid
      (.rmdir name ret) := by
  obtain ⟨retHeld, nameHeld⟩ := trfsLogRmdirOp_holds name ret rId heap
  exact ⟨pathAt_onPage (Nat.add_lt_add_right (by decide) _) nameHeld,
    get_onPage (Nat.le_add_right_of_le (by decide)) retHeld⟩

theorem readsBack_unlink :
    ReadsBack (TraceRecord.onPage ⟨.unlink name ret, pid, rId, heap⟩ around op) op pid
      (.unlink name ret) := by
  obtain ⟨retHeld, nameHeld⟩ := trfsLogUnlinkOp_holds name ret rId heap
  exact ⟨pathAt_onPage (Nat.add_lt_add_right (by decide) _) nameHeld,
    get_onPage (Nat.le_add_right_of_le (by decide)) retHeld⟩

theorem readsBack_openFile (flags mode : BitVec 32) :
    ReadsBack (TraceRecord.onPage ⟨.openFile name flags mode file ret, pid, rId, heap⟩ around op) op
      pid (.openFile name flags mode file ret) := by
  obtain ⟨flagsHeld, modeHeld, pidHeld, addrHeld, retHeld, nameHeld⟩ :=
    trfsLogOpenOp_holds pid name file ret rId heap flags mode
  exact ⟨pathAt_onPage (Nat.add_lt_add_right (by decide) _) nameHeld,
    get_onPage (Nat.le_add_right_of_le (by decide)) flagsHeld,
    get_onPage (Nat.le_add_right_of_le (by decide)) modeHeld,
    get_onPage (Nat.le_add_right_of_le (by decide)) pidHeld,
    get_onPage (Nat.le_add_right_of_le (by decide)) addrHeld,
    get_onPage (Nat.le_add_right_of_le (by decide)) retHeld⟩

theorem readsBack_read (count ppos : BitVec 64) :
    ReadsBack (TraceRecord.onPage ⟨.read name count ppos file ret, pid, rId, heap⟩ around op) op pid
      (.read name count ppos file ret) := by
  obtain ⟨pidHeld, addrHeld, countHeld, retHeld, -⟩ :=
    trfsLogReadOp_holds pid name file ret rId heap count ppos
  exact ⟨get_onPage (Nat.le_add_right_of_le (by decide)) pidHeld,
    get_onPage (Nat.le_add_right_of_le (by decide)) addrHeld,
    get_onPage (Nat.le_add_right_of_le (by decide)) countHeld,
    get_onPage (Nat.le_add_right_of_le (by decide)) retHeld⟩

/-- The data is found behind the name, through the recorded lengths. -/
theorem readsBack_write (buf : Payload) (ppos : BitVec 64) :
    ReadsBack (TraceRecord.onPage ⟨.write name buf ppos file ret, pid, rId, heap⟩ around op) op pid
      (.write name buf ppos file ret) := by
  obtain ⟨pidHeld, addrHeld, countHeld, retHeld, lenHeld, -, dataHeld⟩ :=
    trfsLogWriteOp_holds pid name file ret rId heap buf ppos
  have fixed {offset : Nat} (bound : offset ≤ 48) :
      offset ≤ 48 + name.text.length + buf.bytes.length := by
    omega
  have count : Userland.trfsWriteOp.get
      (TraceRecord.onPage ⟨.write name buf ppos file ret, pid, rId, heap⟩ around op) op .count =
        buf.bytes.length := get_onPage (fixed (by decide)) countHeld
  have len : Userland.trfsWriteOp.get
      (TraceRecord.onPage ⟨.write name buf ppos file ret, pid, rId, heap⟩ around op) op .len =
        name.text.length := get_onPage (fixed (by decide)) lenHeld
  refine ⟨get_onPage (fixed (by decide)) pidHeld, get_onPage (fixed (by decide)) addrHeld, count,
    get_onPage (fixed (by decide)) retHeld, ?_⟩
  rw [count, len, Nat.add_assoc, TraceRecord.load_onPage _ _ _ ?_]
  · exact dataHeld
  · show 42 + name.text.length + buf.bytes.length ≤ 48 + name.text.length + buf.bytes.length
    omega

theorem readsBack_close :
    ReadsBack (TraceRecord.onPage ⟨.close name file ret, pid, rId, heap⟩ around op) op pid
      (.close name file ret) := by
  obtain ⟨pidHeld, addrHeld, retHeld⟩ := trfsLogCloseOp_holds pid name file ret rId heap
  exact ⟨get_onPage (Nat.le_add_right_of_le (by decide)) pidHeld,
    get_onPage (Nat.le_add_right_of_le (by decide)) addrHeld,
    get_onPage (Nat.le_add_right_of_le (by decide)) retHeld⟩

end Records

/-- Every record with one name reads back as traced. -/
theorem readsBack_record (record : TraceRecord) (around : Memory) (op : Nat) :
    ReadsBack (record.onPage around op) op record.pid record.call := by
  obtain ⟨call, pid, rId, heap⟩ := record
  cases call with
  | mkdir name mode ret => exact readsBack_mkdir pid rId heap around op name ret mode
  | rmdir name ret => exact readsBack_rmdir pid rId heap around op name ret
  | unlink name ret => exact readsBack_unlink pid rId heap around op name ret
  | openFile name flags mode file ret =>
      exact readsBack_openFile pid rId heap around op name file ret flags mode
  | read name count ppos file ret =>
      exact readsBack_read pid rId heap around op name file ret count ppos
  | write name buf ppos file ret =>
      exact readsBack_write pid rId heap around op name file ret buf ppos
  | close name file ret => exact readsBack_close pid rId heap around op name file ret
  | link | symlink | mknod | rename | setxattr | getxattr | listxattr | removexattr => trivial

end Tracefs
