import Mathlib.Data.List.Forall2
import Mathlib.InformationTheory.Coding.UniquelyDecodable
import Tracefs.LogThread.Packing
import Tracefs.Replay.Dispatch
import Tracefs.Replay.Names

/-!
# Unique decodability of a trace

A trace is a sequence of records without separators, over whatever `kmalloc`
returned.  Its bytes determine the records: where each one ends, which call it
is of, and what it holds.  Records of `mknod` carry the type of `close`; they
are told apart by a byte that belongs to the name in one of them and to a short
length in the other.  Two things are lost when a record is written: the file
position but for 16 bits, and the new name of a link when the space made for
the old one is too short for it.
-/

namespace Tracefs

open Bytes

section Framing

theorem FramedRecord.length_eq_of_append {first second : FramedRecord} {rest other : List UInt8}
    (same : first.bytes ++ rest = second.bytes ++ other) :
    first.bytes.length = second.bytes.length := by
  have firstLower := first.lower
  have secondLower := second.lower
  -- both size fields lie in the part that the two files share
  have field : (first.bytes.drop 4).take 2 = (second.bytes.drop 4).take 2 := by
    have shared := congrArg (fun file : List UInt8 => (file.drop 4).take 2) same
    simpa [List.drop_append, List.take_append, show 4 - first.bytes.length = 0 by omega,
      show 4 - second.bytes.length = 0 by omega, show 2 - (first.bytes.length - 4) = 0 by omega,
      show 2 - (second.bytes.length - 4) = 0 by omega] using shared
  rw [← first.framed, ← second.framed, field]

/-- Concatenated framed records come apart in one way only. -/
theorem FramedRecord.uniquelyDecodable :
    InformationTheory.UniquelyDecodable (Set.range FramedRecord.bytes) := by
  intro first second firstFramed secondFramed same
  induction first generalizing second with
  | nil =>
      cases second with
      | nil => rfl
      | cons bytes second =>
          obtain ⟨record, rfl⟩ := secondFramed bytes (by simp)
          have empty := List.append_eq_nil_iff.mp same.symm
          have lower := record.lower
          simp [empty.1] at lower
  | cons bytes first inductionHypothesis =>
      obtain ⟨record, rfl⟩ := firstFramed bytes (by simp)
      cases second with
      | nil =>
          have empty := List.append_eq_nil_iff.mp same
          have lower := record.lower
          simp [empty.1] at lower
      | cons other second =>
          obtain ⟨record', rfl⟩ := secondFramed other (by simp)
          simp only [List.flatten_cons] at same
          obtain ⟨head, tail⟩ := List.append_inj same (length_eq_of_append same)
          rw [head, inductionHypothesis second
            (fun word member => firstFramed word (by simp [member]))
            (fun word member => secondFramed word (by simp [member])) tail]

end Framing

/-- One record as a reader sees it.  The numbers are those of the call, behind the
task where it is recorded; a string that was cut has no value. -/
structure Recorded where
  rId : Nat
  kind : OpKind
  words : List Nat
  texts : List (Option (List UInt8))
  deriving DecidableEq, Repr

namespace OpKind

/-- The type in the records of a call: `mknod` shares that of `close`. -/
def rType : OpKind → TrfsOps
  | .openFile => .openFile
  | .read => .read
  | .write => .write
  | .close | .mknod => .close
  | .mkdir => .mkdir
  | .rmdir => .rmdir
  | .unlink => .unlink
  | .link => .link
  | .symlink => .symlink
  | .rename => .rename
  | .setxattr => .setxattr
  | .getxattr => .getxattr
  | .listxattr => .listxattr
  | .removexattr => .removexattr

/-- The members that a reader learns something from. -/
def fields : OpKind → List Field
  | .openFile => [.pid, .flags, .mode, .addr, .ret]
  | .read => [.pid, .count, .ppos, .addr, .ret]
  | .write => [.pid, .ppos, .addr, .ret]
  | .close => [.pid, .addr, .ret]
  | .mkdir => [.mode, .ret]
  | .rmdir | .unlink | .link | .symlink | .rename => [.ret]
  | .mknod | .setxattr | .getxattr | .listxattr | .removexattr => [.pid, .ret]

/-- The types that name a call on their own, `close` among them. -/
def typed : List OpKind :=
  [.openFile, .read, .write, .close, .mkdir, .rmdir, .unlink, .link, .symlink, .rename,
    .setxattr, .getxattr, .listxattr, .removexattr]

/-- The call a record is of.  Byte 29 is the upper half of the length of a name in a
record of `close`, and in one of `mknod` it is a character, if the record has it. -/
def ofRecord (page : Memory) (size : Nat) : Option OpKind :=
  (typed.find? fun kind => kind.rType.code = page.word 6 1).map fun kind =>
    if kind = .close ∧ (size < 33 ∨ page 29 ≠ 0) then .mknod else kind

/-- Strings copied without a terminator are read through their length. -/
def texts (kind : OpKind) (page : Memory) (size : Nat) : List (Option (List UInt8)) :=
  match kind with
  | .openFile | .read | .mkdir | .rmdir | .unlink => [pathAt kind.decl page 0 .pathname]
  | .close | .mknod | .setxattr | .getxattr | .listxattr | .removexattr =>
      [some (page.load (kind.decl.offsetOf .pathname) (kind.decl.get page 0 .len))]
  | .write =>
      let len := kind.decl.get page 0 .len
      [some (page.load 42 len), some (page.load (42 + len) (kind.decl.get page 0 .count))]
  | .link =>
      let plen := kind.decl.get page 0 .plen
      [some (page.load 20 plen), page.cString (20 + plen) (size - (20 + plen))]
  | .symlink =>
      let plen := kind.decl.get page 0 .plen
      [some (page.load 20 plen), some (page.load (20 + plen) (kind.decl.get page 0 .slen))]
  | .rename =>
      let len1 := kind.decl.get page 0 .len1
      [some (page.load 20 len1), some (page.load (20 + len1) (kind.decl.get page 0 .len2))]

end OpKind

/-- Read one record back. -/
def Recorded.decode (bytes : List UInt8) : Option Recorded :=
  let page := Memory.store (fun _ => 0) 0 bytes
  (OpKind.ofRecord page bytes.length).map fun kind =>
    { rId := page.word 0 4
      kind := kind
      words := kind.fields.map (kind.decl.get page 0)
      texts := kind.texts page bytes.length }

namespace TracedCall

/-- The numbers of a call that its record holds. -/
def words (pid : BitVec 32) : TracedCall → List Nat
  | openFile _ flags mode file ret =>
      [pid.toNat, flags.toNat, mode.toNat, file.toNat, ret.toNat]
  | read _ count ppos file ret =>
      [pid.toNat, count.toNat, ppos.toNat % 2 ^ 16, file.toNat, ret.toNat]
  | write _ _ ppos file ret => [pid.toNat, ppos.toNat % 2 ^ 16, file.toNat, ret.toNat]
  | close _ file ret => [pid.toNat, file.toNat, ret.toNat]
  | mkdir _ mode ret => [mode.toNat, ret.toNat]
  | rmdir _ ret | unlink _ ret | link _ _ ret | symlink _ _ ret | rename _ _ ret => [ret.toNat]
  | mknod _ ret | setxattr _ ret | getxattr _ ret | listxattr _ ret | removexattr _ ret =>
      [pid.toNat, ret.toNat]

/-- The strings of a call that its record holds. -/
def texts : TracedCall → List (Option (List UInt8))
  | openFile name .. | read name .. | close name .. | mkdir name .. | rmdir name ..
  | unlink name .. | mknod name .. | setxattr name .. | getxattr name .. | listxattr name ..
  | removexattr name .. => [some name.text]
  | write name buf .. => [some name.text, some buf.bytes]
  | link oldName newName _ =>
      [some oldName.text,
        if newName.text.length < oldName.text.length + 4 then some newName.text else none]
  | symlink name target _ => [some name.text, some target.text]
  | rename oldName newName _ => [some oldName.text, some newName.text]

end TracedCall

/-- What the record of a call holds. -/
def TraceRecord.recorded (record : TraceRecord) : Recorded where
  rId := record.rId.toNat
  kind := record.call.kind
  words := record.call.words record.pid
  texts := record.call.texts

theorem Bytes.Memory.word_one (memory : Memory) (offset : Nat) :
    memory.word offset 1 = (memory offset).toNat := by
  simp [word, load, wordValue]

/-- A bounded search finds the string that is there, if it ends within the bound. -/
theorem Bytes.Memory.CStringAt.cString_eq {memory : Memory} {offset : Nat} {text : List UInt8}
    (held : memory.CStringAt offset text) (limit : Nat) :
    memory.cString offset limit = if text.length < limit then some text else none := by
  split
  next short => exact (memory.cString_eq_some_iff offset limit text).mpr ⟨short, held⟩
  next long =>
    rw [Option.eq_none_iff_forall_ne_some]
    intro found search
    obtain ⟨short, foundHeld⟩ := (memory.cString_eq_some_iff offset limit found).mp search
    -- a longer search finds both
    have first := (memory.cString_eq_some_iff offset (text.length + 1) found).mpr
      ⟨by omega, foundHeld⟩
    have second := (memory.cString_eq_some_iff offset (text.length + 1) text).mpr
      ⟨by omega, held⟩
    cases first.symm.trans second
    exact long short

section Contents

variable (pid : BitVec 32) (name : Name) (file : BitVec 64) (ret rId : BitVec 32) (heap : Memory)

theorem trfsLogReadOp_ppos (count ppos : BitVec 64) :
    ((trfsLogReadOp pid name count ppos file ret).fill rId heap).word 32 2 =
      ppos.toNat % 2 ^ 16 := by
  obtain ⟨headed, image⟩ : ∃ headed : Memory,
      (trfsLogReadOp pid name count ppos file ret).fill rId heap =
        (((headed.store 32 (wordBytes 2 ppos.toNat)).store 36 (wordBytes 4 ret.toNat)).store 16
          (wordBytes 8 file.toNat)).store 42 (terminated name.text) :=
    ⟨_, rfl⟩
  rw [image]
  simp (disch := simp) only [Memory.word_store_disjoint]
  exact Memory.word_store_same _ 32 2 _

theorem trfsLogWriteOp_ppos (buf : Payload) (ppos : BitVec 64) :
    ((trfsLogWriteOp pid name buf ppos file ret).fill rId heap).word 32 2 =
      ppos.toNat % 2 ^ 16 := by
  obtain ⟨headed, image⟩ : ∃ headed : Memory,
      (trfsLogWriteOp pid name buf ppos file ret).fill rId heap =
        ((((headed.store 32 (wordBytes 2 ppos.toNat)).store 36 (wordBytes 4 ret.toNat)).store 16
          (wordBytes 8 file.toNat)).store 42 name.text).store (42 + name.text.length) buf.bytes :=
    ⟨_, rfl⟩
  rw [image]
  simp (disch := first | simp; done | omega) only [Memory.word_store_disjoint]
  exact Memory.word_store_same _ 32 2 _

theorem trfsLogCloseOp_name :
    let memory := (trfsLogCloseOp pid name file ret).fill rId heap
    memory.word 28 2 = name.text.length ∧ memory.load 30 name.text.length = name.text := by
  obtain ⟨headed, image⟩ : ∃ headed : Memory,
      (trfsLogCloseOp pid name file ret).fill rId heap =
        (((headed.store 28 (wordBytes 2 name.text.length)).store 24 (wordBytes 4 ret.toNat)).store
          16 (wordBytes 8 file.toNat)).store 30 name.text :=
    ⟨_, rfl⟩
  rw [image]
  refine ⟨?_, Memory.load_store_same _ _ _⟩
  simp (disch := simp) only [Memory.word_store_disjoint]
  exact Memory.word_store_of_lt _ _ name.length_lt

/-- The stores of `mknod` and of the extended-attribute functions. -/
theorem inodeStores_hold (headed : Memory) {len retAt : Nat} (pidFirst : 12 ≤ retAt)
    (retFirst : len = retAt + 4) :
    let memory := (((headed.store 8 (wordBytes 4 pid.toNat)).store len
      (wordBytes 2 name.text.length)).store retAt (wordBytes 4 ret.toNat)).store (len + 2)
      name.text
    memory.word 8 4 = pid.toNat ∧ memory.word retAt 4 = ret.toNat ∧
      memory.word len 2 = name.text.length ∧
      memory.load (len + 2) name.text.length = name.text := by
  refine ⟨?_, ?_, ?_, Memory.load_store_same _ _ _⟩ <;>
    simp (disch := first | simp; done | (simp; omega)) only [Memory.word_store_disjoint]
  · exact Memory.word_store_of_lt _ _ pid.isLt
  · exact Memory.word_store_of_lt _ _ ret.isLt
  · exact Memory.word_store_of_lt _ _ name.length_lt

theorem trfsLogMknodOp_holds :
    let memory := (trfsLogMknodOp pid name ret).fill rId heap
    memory.word 8 4 = pid.toNat ∧ memory.word 12 4 = ret.toNat ∧
      memory.word 16 2 = name.text.length ∧ memory.load 18 name.text.length = name.text :=
  inodeStores_hold pid name ret ((trfsLogMknodOp pid name ret).headed rId heap)
    (show 12 ≤ 12 by decide) rfl

/-- The four structures agree, so one lemma serves the four functions. -/
theorem xattrEncoder_holds (op : TrfsOps) (header : HeaderPlaced Kernel.xattrOp)
    (pastHeader : ∀ field ∈ [Field.pid, .len, .ret, .pathname],
      7 ≤ Kernel.xattrOp.offsetOf field) :
    let memory := (inodeEncoder op op Kernel.xattrOp header pastHeader pid name ret).fill rId heap
    memory.word 8 4 = pid.toNat ∧ memory.word 24 4 = ret.toNat ∧
      memory.word 28 2 = name.text.length ∧ memory.load 30 name.text.length = name.text :=
  inodeStores_hold pid name ret
    ((inodeEncoder op op Kernel.xattrOp header pastHeader pid name ret).headed rId heap)
    (show 12 ≤ 24 by decide) rfl

end Contents

namespace TraceRecord

/-- A record alone in memory. -/
abbrev alone (record : TraceRecord) : Memory := record.onPage (fun _ => 0) 0

theorem load_alone (record : TraceRecord) {start count : Nat}
    (bound : start + count ≤ record.call.byteSize) :
    record.alone.load start count = record.memory.load start count := by
  have same := record.load_onPage (fun _ => 0) 0 bound
  rwa [Nat.zero_add] at same

theorem word_alone (record : TraceRecord) {start width : Nat}
    (bound : start + width ≤ record.call.byteSize) :
    record.alone.word start width = record.memory.word start width := by
  rw [Memory.word, record.load_alone bound, Memory.word]

/-- The handlers use most members of a record; the file position and the records
that are never replayed remain. -/
theorem words_alone (record : TraceRecord) :
    List.Forall₂ (fun field value => record.call.kind.decl.get record.alone 0 field = value)
      record.call.kind.fields (record.call.words record.pid) := by
  have reads := readsBack_record record (fun _ => 0) 0
  obtain ⟨call, pid, rId, heap⟩ := record
  cases call with
  | openFile name flags mode file ret =>
      obtain ⟨-, flagsRead, modeRead, pidRead, addrRead, retRead⟩ := reads
      exact .cons pidRead (.cons flagsRead (.cons modeRead (.cons addrRead (.cons retRead .nil))))
  | read name count ppos file ret =>
      obtain ⟨pidRead, addrRead, countRead, retRead⟩ := reads
      have pposRead := (word_alone ⟨.read name count ppos file ret, pid, rId, heap⟩
        (show 32 + 2 ≤ 48 + name.text.length by omega)).trans
        (trfsLogReadOp_ppos pid name file ret rId heap count ppos)
      exact .cons pidRead (.cons countRead (.cons pposRead (.cons addrRead (.cons retRead .nil))))
  | write name buf ppos file ret =>
      obtain ⟨pidRead, addrRead, -, retRead, -⟩ := reads
      have pposRead := (word_alone ⟨.write name buf ppos file ret, pid, rId, heap⟩
        (show 32 + 2 ≤ 48 + name.text.length + buf.bytes.length by omega)).trans
        (trfsLogWriteOp_ppos pid name file ret rId heap buf ppos)
      exact .cons pidRead (.cons pposRead (.cons addrRead (.cons retRead .nil)))
  | close name file ret =>
      obtain ⟨pidRead, addrRead, retRead⟩ := reads
      exact .cons pidRead (.cons addrRead (.cons retRead .nil))
  | mkdir name mode ret =>
      obtain ⟨-, modeRead, retRead⟩ := reads
      exact .cons modeRead (.cons retRead .nil)
  | rmdir name ret | unlink name ret => exact .cons reads.2 .nil
  | link oldName newName ret =>
      exact .cons (linkMembers_onPage _ 0 pid rId heap ret oldName newName).2.2 .nil
  | symlink name target ret =>
      exact .cons (symlinkMembers_onPage _ 0 pid rId heap ret name target).2.2 .nil
  | rename oldName newName ret =>
      exact .cons (renameMembers_onPage _ 0 pid rId heap ret oldName newName).2.2 .nil
  | mknod name ret =>
      obtain ⟨pidHeld, retHeld, -, -⟩ := trfsLogMknodOp_holds pid name ret rId heap
      exact .cons (get_onPage (Nat.le_add_right_of_le (show 12 ≤ 20 by decide)) pidHeld)
        (.cons (get_onPage (Nat.le_add_right_of_le (show 16 ≤ 20 by decide)) retHeld) .nil)
  | setxattr name ret | getxattr name ret | listxattr name ret | removexattr name ret =>
      obtain ⟨pidHeld, retHeld, -, -⟩ :=
        xattrEncoder_holds pid name ret rId heap _ (by decide) (by decide)
      exact .cons (get_onPage (Nat.le_add_right_of_le (show 12 ≤ 32 by decide)) pidHeld)
        (.cons (get_onPage (Nat.le_add_right_of_le (show 28 ≤ 32 by decide)) retHeld) .nil)

/-- A string read through a length. -/
theorem counted_alone {record : TraceRecord} {lenAt width textAt : Nat} {text : List UInt8}
    (lenInside : lenAt + width ≤ record.call.byteSize)
    (textInside : textAt + text.length ≤ record.call.byteSize)
    (lenHeld : record.memory.word lenAt width = text.length)
    (textHeld : record.memory.load textAt text.length = text) :
    record.alone.load textAt (record.alone.word lenAt width) = text := by
  rw [record.word_alone lenInside, lenHeld, record.load_alone textInside, textHeld]

/-- Two strings back to back, read through two lengths. -/
theorem countedPair_alone {record : TraceRecord} {lenAt countAt width textAt : Nat}
    {first second : List UInt8} (lenInside : lenAt + 2 ≤ record.call.byteSize)
    (countInside : countAt + width ≤ record.call.byteSize)
    (textInside : textAt + first.length + second.length ≤ record.call.byteSize)
    (lenHeld : record.memory.word lenAt 2 = first.length)
    (countHeld : record.memory.word countAt width = second.length)
    (firstHeld : record.memory.load textAt first.length = first)
    (secondHeld : record.memory.load (textAt + first.length) second.length = second) :
    [some (record.alone.load textAt (record.alone.word lenAt 2)),
      some (record.alone.load (textAt + record.alone.word lenAt 2)
        (record.alone.word countAt width))] = [some first, some second] := by
  rw [counted_alone lenInside (by omega) lenHeld firstHeld, record.word_alone lenInside, lenHeld,
    counted_alone countInside textInside countHeld secondHeld]

/-- A string with a terminator, looked for in what the record has left. -/
theorem cString_alone {record : TraceRecord} {start limit : Nat} {text : List UInt8}
    (inside : start + limit ≤ record.call.byteSize)
    (held : record.memory.CStringAt start text) :
    record.alone.cString start limit = if text.length < limit then some text else none := by
  have transfer (found : List UInt8) : record.alone.cString start limit = some found ↔
      record.memory.cString start limit = some found := by
    rw [Memory.cString_eq_some_iff, Memory.cString_eq_some_iff]
    refine and_congr_right fun short => ?_
    have same := record.cStringAt_onPage (fun _ => 0) 0
      (show start + found.length < record.call.byteSize by omega)
    rwa [Nat.zero_add] at same
  rw [Option.ext transfer, held.cString_eq]

theorem texts_link_alone (pid rId : BitVec 32) (heap : Memory) (oldName newName : Name)
    (ret : BitVec 32) :
    OpKind.link.texts (alone ⟨.link oldName newName ret, pid, rId, heap⟩)
        (TracedCall.link oldName newName ret).byteSize =
      (TracedCall.link oldName newName ret).texts := by
  obtain ⟨-, plenHeld, -, oldHeld, newHeld⟩ := trfsLogLinkOp_holds ret rId heap oldName newName
  obtain ⟨plen, -⟩ := linkMembers_onPage (fun _ => 0) 0 pid rId heap ret oldName newName
  have plen : OpKind.link.decl.get (alone ⟨.link oldName newName ret, pid, rId, heap⟩) 0 .plen =
      oldName.text.length := plen
  have old := (load_alone ⟨.link oldName newName ret, pid, rId, heap⟩
    (show 20 + oldName.text.length ≤ 24 + oldName.text.length + oldName.text.length by
      omega)).trans oldHeld
  have left : 24 + oldName.text.length + oldName.text.length - (20 + oldName.text.length) =
      oldName.text.length + 4 := by
    omega
  have new : (alone ⟨.link oldName newName ret, pid, rId, heap⟩).cString
      (20 + oldName.text.length) (oldName.text.length + 4) = _ :=
    cString_alone (show 20 + oldName.text.length + (oldName.text.length + 4) ≤
      24 + oldName.text.length + oldName.text.length by omega) newHeld
  simp only [OpKind.texts, plen, old, TracedCall.texts, TracedCall.byteSize, left, new]

theorem texts_alone (record : TraceRecord) :
    record.call.kind.texts record.alone record.call.byteSize = record.call.texts := by
  have reads := readsBack_record record (fun _ => 0) 0
  obtain ⟨call, pid, rId, heap⟩ := record
  cases call with
  | openFile name flags mode file ret | mkdir name mode ret | rmdir name ret
  | unlink name ret => exact congrArg ([·]) reads.1
  | read name count ppos file ret =>
      obtain ⟨-, -, -, -, nameHeld⟩ := trfsLogReadOp_holds pid name file ret rId heap count ppos
      have inside : 42 + name.text.length < 48 + name.text.length := by
        omega
      exact congrArg ([·]) (pathAt_onPage inside nameHeld)
  | write name buf ppos file ret =>
      obtain ⟨-, -, countHeld, -, lenHeld, nameHeld, bufHeld⟩ :=
        trfsLogWriteOp_holds pid name file ret rId heap buf ppos
      exact countedPair_alone (show 40 + 2 ≤ 48 + name.text.length + buf.bytes.length by omega)
        (show 24 + 8 ≤ 48 + name.text.length + buf.bytes.length by omega)
        (show 42 + name.text.length + buf.bytes.length ≤
          48 + name.text.length + buf.bytes.length by omega)
        lenHeld countHeld nameHeld bufHeld
  | close name file ret =>
      obtain ⟨lenHeld, nameHeld⟩ := trfsLogCloseOp_name pid name file ret rId heap
      exact congrArg (fun text => [some text]) (counted_alone
        (show 28 + 2 ≤ 32 + name.text.length by omega)
        (show 30 + name.text.length ≤ 32 + name.text.length by omega) lenHeld nameHeld)
  | link oldName newName ret => exact texts_link_alone pid rId heap oldName newName ret
  | symlink name target ret =>
      obtain ⟨-, plenHeld, slenHeld, nameHeld, targetHeld, -⟩ :=
        trfsLogSymlinkOp_holds ret rId heap name target
      exact countedPair_alone (show 16 + 2 ≤ 24 + name.text.length + target.text.length by omega)
        (show 18 + 2 ≤ 24 + name.text.length + target.text.length by omega)
        (show 20 + name.text.length + target.text.length ≤
          24 + name.text.length + target.text.length by omega)
        plenHeld slenHeld nameHeld targetHeld
  | rename oldName newName ret =>
      obtain ⟨-, len1Held, len2Held, oldHeld, newHeld, -⟩ :=
        trfsLogRenameOp_holds ret rId heap oldName newName
      exact countedPair_alone
        (show 16 + 2 ≤ 24 + oldName.text.length + newName.text.length by omega)
        (show 18 + 2 ≤ 24 + oldName.text.length + newName.text.length by omega)
        (show 20 + oldName.text.length + newName.text.length ≤
          24 + oldName.text.length + newName.text.length by omega)
        len1Held len2Held oldHeld newHeld
  | mknod name ret =>
      obtain ⟨-, -, lenHeld, nameHeld⟩ := trfsLogMknodOp_holds pid name ret rId heap
      exact congrArg (fun text => [some text]) (counted_alone
        (show 16 + 2 ≤ 20 + name.text.length by omega)
        (show 18 + name.text.length ≤ 20 + name.text.length by omega) lenHeld nameHeld)
  | setxattr name ret | getxattr name ret | listxattr name ret | removexattr name ret =>
      obtain ⟨-, -, lenHeld, nameHeld⟩ :=
        xattrEncoder_holds pid name ret rId heap _ (by decide) (by decide)
      exact congrArg (fun text => [some text]) (counted_alone
        (show 28 + 2 ≤ 32 + name.text.length by omega)
        (show 30 + name.text.length ≤ 32 + name.text.length by omega) lenHeld nameHeld)

section Kinds

variable (pid : BitVec 32) (name : Name) (ret rId : BitVec 32) (heap : Memory)

/-- The length of a name fits one byte. -/
theorem byte29_close (file : BitVec 64) :
    alone ⟨.close name file ret, pid, rId, heap⟩ 29 = 0 := by
  obtain ⟨lenHeld, -⟩ := trfsLogCloseOp_name pid name file ret rId heap
  have lenRead := (word_alone ⟨.close name file ret, pid, rId, heap⟩
    (show 28 + 2 ≤ 32 + name.text.length by omega)).trans lenHeld
  have bound := name.bounded
  rw [show 2 = 1 + 1 from rfl, Memory.word_add, Memory.word_one _ (28 + 1)] at lenRead
  have upper : (alone ⟨.close name file ret, pid, rId, heap⟩ (28 + 1)).toNat = 0 := by
    omega
  exact UInt8.toNat_inj.mp upper

/-- A name of 13 characters or more reaches byte 29 of its record. -/
theorem byte29_mknod (long : 13 ≤ name.text.length) :
    alone ⟨.mknod name ret, pid, rId, heap⟩ 29 ≠ 0 := by
  obtain ⟨-, -, -, nameHeld⟩ := trfsLogMknodOp_holds pid name ret rId heap
  have nameRead := (load_alone ⟨.mknod name ret, pid, rId, heap⟩
    (show 18 + name.text.length ≤ 20 + name.text.length by omega)).trans nameHeld
  have character : name.text[11] = alone ⟨.mknod name ret, pid, rId, heap⟩ 29 := by
    rw [List.getElem_of_eq nameRead.symm (by omega), Memory.getElem_load]
  rw [← character]
  exact fun zero => name.clean (zero ▸ List.getElem_mem _)

end Kinds

theorem type_alone (record : TraceRecord) :
    record.alone.word 6 1 = record.call.kind.rType.code := by
  have size := record.call.twenty_lt_byteSize
  have written : record.encoder.rType = record.call.kind.rType := by
    obtain ⟨call, pid, rId, heap⟩ := record
    cases call <;> rfl
  rw [record.word_alone (by omega), memory, Encoder.fill_rType, written]

theorem ofRecord_alone (record : TraceRecord) :
    OpKind.ofRecord record.alone record.call.byteSize = some record.call.kind := by
  rw [OpKind.ofRecord, record.type_alone]
  obtain ⟨call, pid, rId, heap⟩ := record
  cases call with
  | close name file ret =>
      have nonempty := name.nonempty
      have zero := byte29_close pid name ret rId heap file
      have read : ¬ (32 + name.text.length < 33 ∨
          alone ⟨.close name file ret, pid, rId, heap⟩ 29 ≠ 0) := by
        rintro (short | character)
        · omega
        · exact character zero
      exact congrArg some (if_neg fun both => read both.2)
  | mknod name ret =>
      have read : 20 + name.text.length < 33 ∨
          alone ⟨.mknod name ret, pid, rId, heap⟩ 29 ≠ 0 := by
        rcases Nat.lt_or_ge name.text.length 13 with short | long
        · exact .inl (by omega)
        · exact .inr (byte29_mknod pid name ret rId heap long)
      exact congrArg some (if_pos ⟨rfl, read⟩)
  | openFile | read | write | mkdir | rmdir | unlink | link | symlink | rename | setxattr
  | getxattr | listxattr | removexattr => rfl

/-- A record is read back to what it holds. -/
theorem decode_bytes (record : TraceRecord) :
    Recorded.decode record.bytes = some record.recorded := by
  have size := record.call.twenty_lt_byteSize
  have id : record.alone.word 0 4 = record.rId.toNat := by
    rw [record.word_alone (by omega), memory, Encoder.fill_rId]
  have words : record.call.kind.fields.map (record.call.kind.decl.get record.alone 0) =
      record.call.words record.pid := by
    rw [← List.forall₂_eq_eq_eq, List.forall₂_map_left_iff]
    exact record.words_alone
  have read : Recorded.decode record.bytes =
      (OpKind.ofRecord record.alone record.bytes.length).map fun kind =>
        ⟨record.alone.word 0 4, kind, kind.fields.map (kind.decl.get record.alone 0),
          kind.texts record.alone record.bytes.length⟩ := rfl
  rw [read, length_bytes, ofRecord_alone, Option.map_some, id, words, texts_alone]
  rfl

end TraceRecord

/-- The bytes of a trace determine the ids of its records, the calls they are of and
what they hold, in order. -/
theorem trace_uniquely_decodable {first second : List TraceRecord}
    (firstFits : ∀ record ∈ first, record.call.SizeFieldFits)
    (secondFits : ∀ record ∈ second, record.call.SizeFieldFits)
    (same : logBytes (first.map TraceRecord.message) = logBytes (second.map TraceRecord.message)) :
    first.map TraceRecord.recorded = second.map TraceRecord.recorded := by
  have framed {records : List TraceRecord}
      (fits : ∀ record ∈ records, record.call.SizeFieldFits) :
      ∀ word ∈ records.map TraceRecord.bytes, word ∈ Set.range FramedRecord.bytes := by
    intro word member
    obtain ⟨record, recordIn, rfl⟩ := List.mem_map.mp member
    exact ⟨record.framed (fits record recordIn), rfl⟩
  have flattened (records : List TraceRecord) :
      (records.map TraceRecord.bytes).flatten = logBytes (records.map TraceRecord.message) := by
    rw [logBytes, List.flatMap_map, List.flatMap_def]
    rfl
  have bytes : first.map TraceRecord.bytes = second.map TraceRecord.bytes :=
    FramedRecord.uniquelyDecodable _ _ (framed firstFits) (framed secondFits)
      (by rw [flattened, flattened, same])
  have decoded := congrArg (List.map Recorded.decode) bytes
  simp only [List.map_map, Function.comp_def, TraceRecord.decode_bytes] at decoded
  rw [← List.map_inj_right (fun _ _ => Option.some.inj), List.map_map, List.map_map]
  exact decoded

/-- A device node and a directory made by task `pid`. -/
def nodeAndDirectory (pid : BitVec 32) : List TraceRecord :=
  [⟨.mknod Name.a 0, 1, 7, fun _ => 0⟩, ⟨.mkdir Name.a 0x1ed 0, pid, 8, fun _ => 0⟩]

/-- The task is not in the record of a directory: the two traces are the same. -/
theorem trace_uniquely_decodable_nodeAndDirectory :
    (nodeAndDirectory 1).map TraceRecord.recorded =
      (nodeAndDirectory 2).map TraceRecord.recorded := by
  refine trace_uniquely_decodable ?_ ?_ (by decide +kernel) <;>
    simp [nodeAndDirectory, TracedCall.SizeFieldFits]

end Tracefs
