import Tracefs.Record.Stores

/-!
# Heap contents in emitted records

A record is handed on with all its bytes, whether or not its encoder has stored
to them.  Two runs of an encoder on different heaps agree at a byte exactly when
some store covers it; the padding behind `r_type` is covered by none.
-/

namespace Tracefs

open Bytes

def Encoder.Covered (encoder : Encoder) (rId : BitVec 32) (index : Nat) : Prop :=
  ∃ store ∈ encoder.stores rId, store.Covers encoder.decl index

theorem Encoder.fill_of_not_covered {encoder : Encoder} {rId : BitVec 32} {index : Nat}
    (uncovered : ¬ encoder.Covered rId index) (heap : Memory) :
    encoder.fill rId heap index = heap index :=
  Store.foldl_of_not_covers encoder.decl
    (fun store membership covers => uncovered ⟨store, membership, covers⟩) heap

namespace TracedCall

/-- The bytes enqueued for a call are the same whatever `kmalloc` returned. -/
def HeapIndependent (call : TracedCall) (pid rId : BitVec 32) : Prop :=
  ∀ first second : Memory,
    (TraceRecord.mk call pid rId first).bytes = (TraceRecord.mk call pid rId second).bytes

/-- A record is independent of the heap exactly when its encoder has stored to
each of its bytes. -/
theorem heapIndependent_iff (call : TracedCall) (pid rId : BitVec 32) :
    call.HeapIndependent pid rId ↔
      ∀ index < call.byteSize, (call.encoder pid).Covered rId index := by
  have emitted (heap : Memory) : (TraceRecord.mk call pid rId heap).bytes =
      ((call.encoder pid).fill rId heap).load 0 call.byteSize := by
    rw [TraceRecord.bytes, Message.bytes, TraceRecord.len_message]
    rfl
  constructor
  · intro independent index inside
    by_contra uncovered
    have same := independent (fun _ => 0) (fun _ => 1)
    rw [emitted, emitted] at same
    have byte := Memory.apply_within same inside
    rw [Encoder.fill_of_not_covered (by simpa using uncovered),
      Encoder.fill_of_not_covered (by simpa using uncovered)] at byte
    exact absurd byte (by decide)
  · intro covered first second
    rw [emitted, emitted]
    apply Memory.load_congr
    intro index inside
    rw [Nat.zero_add]
    exact Store.foldl_of_covers _ (covered index inside) first second

/-- No encoder assigns a member at offset 7: the next one is aligned to 8. -/
theorem eight_le_offset (call : TracedCall) (pid : BitVec 32) :
    ∀ field ∈ (call.encoder pid).body.map Store.field,
      8 ≤ (call.encoder pid).decl.offsetOf field := by
  cases call <;>
    (simp only [encoder, trfsLogOpenOp, trfsLogReadOp, trfsLogWriteOp, trfsLogCloseOp,
      trfsLogMkdirOp, trfsLogRmdirOp, trfsLogUnlinkOp, dentryEncoder, trfsLogLinkOp,
      trfsLogSymlinkOp, trfsLogRenameOp, trfsLogMknodOp, trfsLogSetxattrOp, trfsLogGetxattrOp,
      trfsLogListxattrOp, trfsLogRemovexattrOp, inodeEncoder, List.map_cons, List.map_nil,
      Store.field]
     decide)

theorem padding_not_covered (call : TracedCall) (pid rId : BitVec 32) :
    ¬ (call.encoder pid).Covered rId 7 := by
  rintro ⟨store, membership, lower, upper⟩
  obtain ⟨idAt, idWidth, sizeAt, sizeWidth, typeAt, typeWidth⟩ := (call.encoder pid).header
  simp only [Encoder.stores, List.mem_cons] at membership
  rcases membership with rfl | rfl | rfl | inBody
  · simp only [Store.offset, Store.bytes, length_wordBytes, idAt, idWidth] at upper
    omega
  · simp only [Store.offset, Store.bytes, length_wordBytes, typeAt, typeWidth] at upper
    omega
  · simp only [Store.offset, Store.bytes, length_wordBytes, sizeAt, sizeWidth] at upper
    omega
  · have placed := call.eight_le_offset pid store.field (List.mem_map_of_mem inBody)
    cases store with
    | assign field value =>
        simp only [Store.offset, Store.field] at lower placed
        omega
    | copy field displacement bytes =>
        simp only [Store.offset, Store.field] at lower placed
        omega

/-- Every record of every kind shows a byte of the heap. -/
theorem not_heapIndependent (call : TracedCall) (pid rId : BitVec 32) :
    ¬ call.HeapIndependent pid rId := by
  rw [heapIndependent_iff]
  intro covered
  have long := call.twenty_lt_byteSize
  exact call.padding_not_covered pid rId (covered 7 (by omega))

end TracedCall

/-- The record of `mkdir("a")` on two heaps: the padding, the process id and the
last byte of the structure differ. -/
theorem mkdir_bytes_differ :
    (TraceRecord.mk (.mkdir Name.a 0x1ed 0) 7 2 fun _ => 0).bytes ≠
      (TraceRecord.mk (.mkdir Name.a 0x1ed 0) 7 2 fun _ => 0xaa).bytes := by
  decide

end Tracefs
