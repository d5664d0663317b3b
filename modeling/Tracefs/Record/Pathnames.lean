import Tracefs.Record.Contents
import Tracefs.Record.Stores
import Mathlib.Data.List.TakeWhile

/-!
# The names in a record

Every encoder stores the name of each directory entry it is given, and its
length.  The names are read back here through the lengths in the record, up to a
terminator if there is one before.
-/

namespace Tracefs

open Bytes

/-- The names of the directory entries a call works on. -/
def TracedCall.names : TracedCall → List Name
  | openFile name .. | read name .. | write name .. | close name .. | mkdir name ..
  | rmdir name .. | unlink name .. | symlink name .. | mknod name .. | setxattr name ..
  | getxattr name .. | listxattr name .. | removexattr name .. => [name]
  | link oldName newName .. | rename oldName newName .. => [oldName, newName]

namespace TraceRecord

def member (record : TraceRecord) (field : Field) : Nat :=
  record.encoder.decl.get record.memory 0 field

def slot (record : TraceRecord) (start count : Nat) : List UInt8 :=
  (record.memory.load start count).takeWhile (· ≠ 0)

/-- The names in a record, each with the length recorded for it. -/
def pathnames (record : TraceRecord) : List (List UInt8) :=
  let offset := record.encoder.decl.offsetOf
  match record.call.kind with
  | .link =>
      [record.slot (offset .pathname) (record.member .plen),
       record.slot (offset .pathname + record.member .plen) (record.member .hlen)]
  | .rename =>
      [record.slot (offset .pathname1) (record.member .len1),
       record.slot (offset .pathname1 + record.member .len1) (record.member .len2)]
  | .symlink => [record.slot (offset .pathname) (record.member .plen)]
  | _ => [record.slot (offset .pathname) (record.member .len)]

end TraceRecord

/-- The encoder stores `name` and its length, to places that nothing else is
stored to. -/
structure Encoder.StoresName (encoder : Encoder) (name : Name) : Prop where
  apart : encoder.body.Pairwise (Store.Apart encoder.decl)
  length : Store.assign .len name.text.length ∈ encoder.body
  width : encoder.decl.widthOf .len = 2
  text : ∃ behind, Store.copy .pathname 0 (name.text ++ behind) ∈ encoder.body

theorem Encoder.load_body {encoder : Encoder}
    (apart : encoder.body.Pairwise (Store.Apart encoder.decl)) {store : Store}
    (membership : store ∈ encoder.body) (rId : BitVec 32) (heap : Memory) :
    (encoder.fill rId heap).load (store.offset encoder.decl) (store.bytes encoder.decl).length =
      store.bytes encoder.decl :=
  Store.load_foldl_of_apart encoder.decl apart membership (encoder.headed rId heap)

/-- The functions for `rmdir` and `unlink` end the name with a terminator. -/
theorem dentryEncoder_storesName {op : TrfsOps} {decl : StructDecl Field}
    {header : HeaderPlaced decl}
    {pastHeader : ∀ field ∈ [Field.len, .ret, .pathname], 7 ≤ decl.offsetOf field}
    (name : Name) (ret : BitVec 32) (width : decl.widthOf .len = 2)
    (order : decl.offsetOf .ret + decl.widthOf .ret ≤ decl.offsetOf .len ∧
      decl.offsetOf .len + decl.widthOf .len ≤ decl.offsetOf .pathname) :
    (dentryEncoder op decl header pastHeader name ret).StoresName name where
  apart := by
    simp only [dentryEncoder, List.pairwise_cons, List.mem_cons, List.not_mem_nil, or_false,
      forall_eq_or_imp, forall_eq, false_imp_iff, implies_true, List.Pairwise.nil, and_true,
      Store.Apart, Store.offset, Store.bytes, length_wordBytes]
    omega
  length := by simp [dentryEncoder]
  width := width
  text := ⟨[0], by simp [dentryEncoder, terminated]⟩

/-- Those for `mknod` and the extended attributes copy the name alone. -/
theorem inodeEncoder_storesName {gate rType : TrfsOps} {decl : StructDecl Field}
    {header : HeaderPlaced decl}
    {pastHeader : ∀ field ∈ [Field.pid, .len, .ret, .pathname], 7 ≤ decl.offsetOf field}
    (pid : BitVec 32) (name : Name) (ret : BitVec 32) (width : decl.widthOf .len = 2)
    (order : decl.offsetOf .pid + decl.widthOf .pid ≤ decl.offsetOf .ret ∧
      decl.offsetOf .ret + decl.widthOf .ret ≤ decl.offsetOf .len ∧
      decl.offsetOf .len + decl.widthOf .len ≤ decl.offsetOf .pathname) :
    (inodeEncoder gate rType decl header pastHeader pid name ret).StoresName name where
  apart := by
    simp only [inodeEncoder, List.pairwise_cons, List.mem_cons, List.not_mem_nil, or_false,
      forall_eq_or_imp, forall_eq, false_imp_iff, implies_true, List.Pairwise.nil, and_true,
      Store.Apart, Store.offset, Store.bytes, length_wordBytes]
    omega
  length := by simp [inodeEncoder]
  width := width
  text := ⟨[], by simp [inodeEncoder]⟩

theorem takeWhile_clean_append {text : List UInt8} (clean : 0 ∉ text) (behind : List UInt8) :
    (text ++ behind).takeWhile (· ≠ 0) = text ++ behind.takeWhile (· ≠ 0) := by
  apply List.takeWhile_append_of_pos
  intro byte membership
  exact decide_eq_true fun zero => clean (zero ▸ membership)

theorem takeWhile_of_clean {text : List UInt8} (clean : 0 ∉ text) :
    text.takeWhile (· ≠ 0) = text := by
  simpa using takeWhile_clean_append clean []

namespace TraceRecord

variable {record : TraceRecord}

theorem slot_of_load {name : Name} {start len : Nat} (length : len = name.text.length)
    (loaded : record.memory.load start name.text.length = name.text) :
    record.slot start len = name.text := by
  rw [slot, length, loaded, takeWhile_of_clean name.clean]

/-- A slot that is too short shows the beginning of the string. -/
theorem slot_of_cStringAt {text : List UInt8} {start : Nat}
    (held : record.memory.CStringAt start text) (count : Nat) :
    record.slot start count = text.take count := by
  obtain ⟨loaded, clean, zero⟩ := held
  rw [slot]
  by_cases short : count ≤ text.length
  · rw [← Memory.take_load _ _ _ _ short, loaded]
    exact takeWhile_of_clean fun membership => clean (List.mem_of_mem_take membership)
  · obtain ⟨behind, rfl⟩ := Nat.exists_eq_add_of_lt (Nat.lt_of_not_le short)
    rw [Nat.add_assoc, Memory.load_add, loaded, Memory.load_succ, zero,
      takeWhile_clean_append clean, List.take_of_length_le (by omega)]
    simp

/-- A member that is assigned to, and that no other store touches. -/
theorem member_of_assign (apart : record.encoder.body.Pairwise (Store.Apart record.encoder.decl))
    {field : Field} {value : Nat} (assigned : Store.assign field value ∈ record.encoder.body)
    (fits : value < 256 ^ record.encoder.decl.widthOf field) : record.member field = value := by
  have loaded := Encoder.load_body apart assigned record.rId record.heap
  simp only [Store.offset, Store.bytes, length_wordBytes] at loaded
  rw [member, StructDecl.get, Nat.zero_add, Memory.word]
  show wordValue ((record.encoder.fill record.rId record.heap).load _ _) = _
  rw [loaded, wordValue_wordBytes, Nat.mod_eq_of_lt fits]

theorem slot_of_storesName {name : Name} (stores : record.encoder.StoresName name) :
    record.slot (record.encoder.decl.offsetOf .pathname) (record.member .len) = name.text := by
  have length : record.member .len = name.text.length := by
    apply member_of_assign stores.apart stores.length
    rw [stores.width]
    exact name.length_lt
  obtain ⟨behind, text⟩ := stores.text
  have loaded := Encoder.load_body stores.apart text record.rId record.heap
  simp only [Store.offset, Store.bytes, Nat.add_zero, List.length_append] at loaded
  rw [Memory.load_add] at loaded
  exact slot_of_load length (List.append_inj loaded (by simp)).1

end TraceRecord

namespace TracedCall

/-- The names as they come back: the second name of a link is cut to the length of
the first. -/
def storedNames : TracedCall → List (List UInt8)
  | link oldName newName _ => [oldName.text, newName.text.take oldName.text.length]
  | call => call.names.map Name.text

/-- The kinds with one name; the data of a write lies behind it. -/
theorem storesName {call : TracedCall} (pid : BitVec 32) {name : Name}
    (single : call.names = [name]) (notWrite : call.kind ≠ .write)
    (notSymlink : call.kind ≠ .symlink) : (call.encoder pid).StoresName name := by
  cases call with
  | link | rename => simp [names] at single
  | write => exact absurd rfl notWrite
  | symlink => exact absurd rfl notSymlink
  | rmdir | unlink =>
      obtain rfl := List.singleton_inj.mp single
      exact dentryEncoder_storesName _ _ rfl (by decide)
  | mknod | setxattr | getxattr | listxattr | removexattr =>
      obtain rfl := List.singleton_inj.mp single
      exact inodeEncoder_storesName _ _ _ rfl (by decide)
  | openFile | read | mkdir =>
      obtain rfl := List.singleton_inj.mp single
      constructor
      case apart =>
        simp +decide [encoder, trfsLogOpenOp, trfsLogReadOp, trfsLogMkdirOp, Store.Apart,
          Store.offset, Store.bytes]
      case length => simp [encoder, trfsLogOpenOp, trfsLogReadOp, trfsLogMkdirOp]
      case width => rfl
      case text =>
        refine ⟨[0], ?_⟩
        simp [encoder, trfsLogOpenOp, trfsLogReadOp, trfsLogMkdirOp, terminated]
  | close =>
      obtain rfl := List.singleton_inj.mp single
      constructor
      case apart =>
        simp +decide [encoder, trfsLogCloseOp, Store.Apart, Store.offset, Store.bytes]
      case length => simp [encoder, trfsLogCloseOp]
      case width => rfl
      case text => exact ⟨[], by simp [encoder, trfsLogCloseOp]⟩

end TracedCall

/-- Two names back to back, the second in a slot of `count` bytes. -/
theorem TraceRecord.two_slots {record : TraceRecord} {start plen hlen count : Nat}
    {oldName newName : Name} (firstLength : plen = oldName.text.length)
    (secondLength : hlen = count)
    (first : record.memory.load start oldName.text.length = oldName.text)
    (second : record.memory.CStringAt (start + oldName.text.length) newName.text) :
    [record.slot start plen, record.slot (start + plen) hlen] =
      [oldName.text, newName.text.take count] := by
  rw [slot_of_load firstLength first, firstLength, secondLength, slot_of_cStringAt second]

/-- What the names in a record are, for every kind of call. -/
theorem TraceRecord.pathnames_eq (record : TraceRecord) :
    record.pathnames = record.call.storedNames := by
  obtain ⟨call, pid, rId, heap⟩ := record
  cases call with
  | link oldName newName ret =>
      obtain ⟨-, plen, hlen, first, second⟩ := trfsLogLinkOp_holds ret rId heap oldName newName
      exact two_slots plen hlen first second
  | rename oldName newName ret =>
      obtain ⟨-, len1, len2, first, second⟩ := trfsLogRenameOp_holds ret rId heap oldName newName
      have both : pathnames ⟨.rename oldName newName ret, pid, rId, heap⟩ =
          [oldName.text, newName.text.take newName.text.length] := two_slots len1 len2 first second
      rw [both, List.take_length]
      rfl
  | symlink name target ret =>
      obtain ⟨-, plen, -, first, -⟩ := trfsLogSymlinkOp_holds ret rId heap name target
      exact congrArg (· :: []) (slot_of_load plen first)
  | write name buf ppos file ret =>
      obtain ⟨-, -, -, -, len, text, -⟩ :=
        trfsLogWriteOp_holds pid name file ret rId heap buf ppos
      exact congrArg (· :: []) (slot_of_load len text)
  | openFile name | read name | mkdir name | rmdir name | unlink name | close name | mknod name
  | setxattr name | getxattr name | listxattr name | removexattr name =>
      exact congrArg (· :: []) (slot_of_storesName
        (TracedCall.storesName pid rfl (by simp [TracedCall.kind]) (by simp [TracedCall.kind])))

end Tracefs
