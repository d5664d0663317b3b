import Tracefs.Record.Emission

/-!
# What a record holds

For each encoder whose records are decoded later, the buffer as a sequence of
stores at numeric offsets, and what can be read from it.  The bytes that the
header and `kmalloc` left behind do not matter.
-/

namespace Tracefs

open Bytes

theorem Name.length_lt (name : Name) : name.text.length < 256 ^ 2 :=
  lt_of_le_of_lt name.bounded (by decide)

theorem LinkTarget.length_lt (target : LinkTarget) : target.text.length < 256 ^ 2 :=
  lt_of_le_of_lt target.bounded (by decide)

theorem Payload.length_lt (payload : Payload) : payload.bytes.length < 256 ^ 8 :=
  lt_of_le_of_lt payload.bounded (by decide)

/-- The buffer with its header filled in. -/
def Encoder.headed (encoder : Encoder) (rId : BitVec 32) (heap : Memory) : Memory :=
  [Store.assign .rId rId.toNat, .assign .rType encoder.rType.code,
    .assign .rSize (encoder.size % 2 ^ 32).toNat].foldl (Store.apply encoder.decl) heap

section Single

variable (name : Name) (ret rId : BitVec 32) (heap : Memory)

theorem trfsLogMkdirOp_holds (mode : BitVec 32) :
    let memory := (trfsLogMkdirOp name mode ret).fill rId heap
    memory.word 12 4 = mode.toNat ∧ memory.word 16 4 = ret.toNat ∧
      memory.CStringAt 22 name.text := by
  obtain ⟨headed, image⟩ : ∃ headed : Memory, (trfsLogMkdirOp name mode ret).fill rId heap =
      (((headed.store 12 (wordBytes 4 mode.toNat)).store 20
        (wordBytes 2 name.text.length)).store 16 (wordBytes 4 ret.toNat)).store 22
        (terminated name.text) :=
    ⟨(trfsLogMkdirOp name mode ret).headed rId heap, rfl⟩
  rw [image]
  refine ⟨?_, ?_, Memory.cStringAt_store _ _ name.clean⟩ <;>
    simp (disch := simp) only [Memory.word_store_disjoint]
  · exact Memory.word_store_of_lt _ _ mode.isLt
  · exact Memory.word_store_of_lt _ _ ret.isLt

theorem dentryStores_hold (headed : Memory) :
    let memory := ((headed.store 16 (wordBytes 2 name.text.length)).store 12
      (wordBytes 4 ret.toNat)).store 18 (terminated name.text)
    memory.word 12 4 = ret.toNat ∧ memory.CStringAt 18 name.text := by
  refine ⟨?_, Memory.cStringAt_store _ _ name.clean⟩
  simp (disch := simp) only [Memory.word_store_disjoint]
  exact Memory.word_store_of_lt _ _ ret.isLt

theorem trfsLogRmdirOp_holds :
    let memory := (trfsLogRmdirOp name ret).fill rId heap
    memory.word 12 4 = ret.toNat ∧ memory.CStringAt 18 name.text :=
  dentryStores_hold name ret ((trfsLogRmdirOp name ret).headed rId heap)

theorem trfsLogUnlinkOp_holds :
    let memory := (trfsLogUnlinkOp name ret).fill rId heap
    memory.word 12 4 = ret.toNat ∧ memory.CStringAt 18 name.text :=
  dentryStores_hold name ret ((trfsLogUnlinkOp name ret).headed rId heap)

end Single

section OpenFiles

variable (pid : BitVec 32) (name : Name) (file : BitVec 64) (ret rId : BitVec 32) (heap : Memory)

theorem trfsLogOpenOp_holds (flags mode : BitVec 32) :
    let memory := (trfsLogOpenOp pid name flags mode file ret).fill rId heap
    memory.word 8 4 = flags.toNat ∧ memory.word 12 4 = mode.toNat ∧
      memory.word 16 4 = pid.toNat ∧ memory.word 24 8 = file.toNat ∧
      memory.word 32 4 = ret.toNat ∧ memory.CStringAt 38 name.text := by
  obtain ⟨headed, image⟩ : ∃ headed : Memory,
      (trfsLogOpenOp pid name flags mode file ret).fill rId heap =
        ((((((headed.store 16 (wordBytes 4 pid.toNat)).store 8 (wordBytes 4 flags.toNat)).store 12
          (wordBytes 4 mode.toNat)).store 36 (wordBytes 2 name.text.length)).store 32
          (wordBytes 4 ret.toNat)).store 24 (wordBytes 8 file.toNat)).store 38
          (terminated name.text) :=
    ⟨(trfsLogOpenOp pid name flags mode file ret).headed rId heap, rfl⟩
  rw [image]
  refine ⟨?_, ?_, ?_, ?_, ?_, Memory.cStringAt_store _ _ name.clean⟩ <;>
    simp (disch := simp) only [Memory.word_store_disjoint]
  · exact Memory.word_store_of_lt _ _ flags.isLt
  · exact Memory.word_store_of_lt _ _ mode.isLt
  · exact Memory.word_store_of_lt _ _ pid.isLt
  · exact Memory.word_store_of_lt _ _ file.isLt
  · exact Memory.word_store_of_lt _ _ ret.isLt

theorem trfsLogReadOp_holds (count ppos : BitVec 64) :
    let memory := (trfsLogReadOp pid name count ppos file ret).fill rId heap
    memory.word 8 4 = pid.toNat ∧ memory.word 16 8 = file.toNat ∧
      memory.word 24 8 = count.toNat ∧ memory.word 36 4 = ret.toNat ∧
      memory.CStringAt 42 name.text := by
  obtain ⟨headed, image⟩ : ∃ headed : Memory,
      (trfsLogReadOp pid name count ppos file ret).fill rId heap =
        ((((((headed.store 8 (wordBytes 4 pid.toNat)).store 40
          (wordBytes 2 name.text.length)).store 24 (wordBytes 8 count.toNat)).store 32
          (wordBytes 2 ppos.toNat)).store 36 (wordBytes 4 ret.toNat)).store 16
          (wordBytes 8 file.toNat)).store 42 (terminated name.text) :=
    ⟨(trfsLogReadOp pid name count ppos file ret).headed rId heap, rfl⟩
  rw [image]
  refine ⟨?_, ?_, ?_, ?_, Memory.cStringAt_store _ _ name.clean⟩ <;>
    simp (disch := simp) only [Memory.word_store_disjoint]
  · exact Memory.word_store_of_lt _ _ pid.isLt
  · exact Memory.word_store_of_lt _ _ file.isLt
  · exact Memory.word_store_of_lt _ _ count.isLt
  · exact Memory.word_store_of_lt _ _ ret.isLt

/-- The name is not terminated; the data begins where it ends. -/
theorem trfsLogWriteOp_holds (buf : Payload) (ppos : BitVec 64) :
    let memory := (trfsLogWriteOp pid name buf ppos file ret).fill rId heap
    memory.word 8 4 = pid.toNat ∧ memory.word 16 8 = file.toNat ∧
      memory.word 24 8 = buf.bytes.length ∧ memory.word 36 4 = ret.toNat ∧
      memory.word 40 2 = name.text.length ∧ memory.load 42 name.text.length = name.text ∧
      memory.load (42 + name.text.length) buf.bytes.length = buf.bytes := by
  obtain ⟨headed, image⟩ : ∃ headed : Memory,
      (trfsLogWriteOp pid name buf ppos file ret).fill rId heap =
        (((((((headed.store 8 (wordBytes 4 pid.toNat)).store 40
          (wordBytes 2 name.text.length)).store 24 (wordBytes 8 buf.bytes.length)).store 32
          (wordBytes 2 ppos.toNat)).store 36 (wordBytes 4 ret.toNat)).store 16
          (wordBytes 8 file.toNat)).store 42 name.text).store (42 + name.text.length) buf.bytes :=
    ⟨(trfsLogWriteOp pid name buf ppos file ret).headed rId heap, rfl⟩
  rw [image]
  refine ⟨?_, ?_, ?_, ?_, ?_, ?_, Memory.load_store_same _ _ _⟩
  case refine_6 =>
    rw [Memory.load_store_disjoint _ (.inl le_rfl), Memory.load_store_same]
  all_goals simp (disch := first | simp; done | omega) only [Memory.word_store_disjoint]
  · exact Memory.word_store_of_lt _ _ pid.isLt
  · exact Memory.word_store_of_lt _ _ file.isLt
  · exact Memory.word_store_of_lt _ _ buf.length_lt
  · exact Memory.word_store_of_lt _ _ ret.isLt
  · exact Memory.word_store_of_lt _ _ name.length_lt

theorem trfsLogCloseOp_holds :
    let memory := (trfsLogCloseOp pid name file ret).fill rId heap
    memory.word 8 4 = pid.toNat ∧ memory.word 16 8 = file.toNat ∧
      memory.word 24 4 = ret.toNat := by
  obtain ⟨headed, image⟩ : ∃ headed : Memory,
      (trfsLogCloseOp pid name file ret).fill rId heap =
        ((((headed.store 8 (wordBytes 4 pid.toNat)).store 28 (wordBytes 2 name.text.length)).store
          24 (wordBytes 4 ret.toNat)).store 16 (wordBytes 8 file.toNat)).store 30 name.text :=
    ⟨(trfsLogCloseOp pid name file ret).headed rId heap, rfl⟩
  rw [image]
  refine ⟨?_, ?_, ?_⟩ <;> simp (disch := simp) only [Memory.word_store_disjoint]
  · exact Memory.word_store_of_lt _ _ pid.isLt
  · exact Memory.word_store_of_lt _ _ file.isLt
  · exact Memory.word_store_of_lt _ _ ret.isLt

end OpenFiles

/-- Two strings copied back to back: the second overwrites the terminator of the
first. -/
theorem Bytes.Memory.holds_two_names (memory : Memory) (offset : Nat) {first second : List UInt8}
    (clean : 0 ∉ second) :
    let both := (memory.store offset (terminated first)).store (offset + first.length)
      (terminated second)
    both.load offset first.length = first ∧ both.CStringAt (offset + first.length) second := by
  refine ⟨?_, cStringAt_store _ _ clean⟩
  rw [load_store_disjoint _ (.inl le_rfl)]
  have stored := memory.load_store_same offset (terminated first)
  rw [length_terminated, load_add] at stored
  exact (List.append_inj stored (by simp)).1

section TwoNames

variable (ret rId : BitVec 32) (heap : Memory)

/-- The three encoders with two names differ in the lengths they record. -/
theorem twoNameStores_hold (headed : Memory) {plen hlen : Nat} (plenFits : plen < 256 ^ 2)
    (hlenFits : hlen < 256 ^ 2) {first second : List UInt8} (clean : 0 ∉ second) :
    let memory := ((((headed.store 16 (wordBytes 2 plen)).store 18 (wordBytes 2 hlen)).store 12
      (wordBytes 4 ret.toNat)).store 20 (terminated first)).store (20 + first.length)
      (terminated second)
    memory.word 12 4 = ret.toNat ∧ memory.word 16 2 = plen ∧ memory.word 18 2 = hlen ∧
      memory.load 20 first.length = first ∧ memory.CStringAt (20 + first.length) second := by
  refine ⟨?_, ?_, ?_, Memory.holds_two_names _ _ clean⟩ <;>
    simp (disch := first | simp; done | omega) only [Memory.word_store_disjoint]
  · exact Memory.word_store_of_lt _ _ ret.isLt
  · exact Memory.word_store_of_lt _ _ plenFits
  · exact Memory.word_store_of_lt _ _ hlenFits

theorem trfsLogLinkOp_holds (oldName newName : Name) :
    let memory := (trfsLogLinkOp oldName newName ret).fill rId heap
    memory.word 12 4 = ret.toNat ∧ memory.word 16 2 = oldName.text.length ∧
      memory.word 18 2 = oldName.text.length ∧
      memory.load 20 oldName.text.length = oldName.text ∧
      memory.CStringAt (20 + oldName.text.length) newName.text :=
  twoNameStores_hold ret ((trfsLogLinkOp oldName newName ret).headed rId heap) oldName.length_lt
    oldName.length_lt newName.clean

theorem trfsLogSymlinkOp_holds (name : Name) (target : LinkTarget) :
    let memory := (trfsLogSymlinkOp name target ret).fill rId heap
    memory.word 12 4 = ret.toNat ∧ memory.word 16 2 = name.text.length ∧
      memory.word 18 2 = target.text.length ∧ memory.load 20 name.text.length = name.text ∧
      memory.CStringAt (20 + name.text.length) target.text :=
  twoNameStores_hold ret ((trfsLogSymlinkOp name target ret).headed rId heap) name.length_lt
    target.length_lt target.clean

theorem trfsLogRenameOp_holds (oldName newName : Name) :
    let memory := (trfsLogRenameOp oldName newName ret).fill rId heap
    memory.word 12 4 = ret.toNat ∧ memory.word 16 2 = oldName.text.length ∧
      memory.word 18 2 = newName.text.length ∧
      memory.load 20 oldName.text.length = oldName.text ∧
      memory.CStringAt (20 + oldName.text.length) newName.text :=
  twoNameStores_hold ret ((trfsLogRenameOp oldName newName ret).headed rId heap) oldName.length_lt
    newName.length_lt newName.clean

end TwoNames

end Tracefs
