import Tracefs.Record.Stores

/-!
# Stores and the allocated size

Each encoder allocates the size of its structure plus the lengths of its names and data, and
copies behind a one-byte array that ends before the structure's padding does.  The padding makes
room for the terminators.  `trfs_log_link_op` counts the old name twice instead of both names, so
there the padding has to make up for the difference too.
-/

namespace Tracefs

open Bytes

/-- `kmalloc`, called with an `int`: a negative one is a huge `size_t`, which is refused. -/
structure Kmalloc where
  succeeds : Int → Bool
  nonneg : ∀ size, succeeds size = true → 0 ≤ size

/-- `trfs_log_write_op` for any count. -/
def writeEncoder (pid : BitVec 32) (name : Name) (buf : List UInt8) (ppos file : BitVec 64)
    (ret : BitVec 32) : Encoder where
  gate := .write
  rType := .write
  decl := Kernel.trfsWriteOp
  size := recordSize Kernel.trfsWriteOp (name.text.length + buf.length)
  body :=
    [.assign .pid pid.toNat, .assign .len name.text.length, .assign .count buf.length,
     .assign .ppos ppos.toNat, .assign .ret ret.toNat,
     .copy .addr 0 (wordBytes 8 file.toNat), .copy .pathname 0 name.text,
     .copy .pathname name.text.length buf]
  header := (trfsLogWriteOp pid name ⟨[], Nat.zero_le _⟩ ppos file ret).header
  pastHeader := (trfsLogWriteOp pid name ⟨[], Nat.zero_le _⟩ ppos file ret).pastHeader

theorem trfsLogWriteOp_eq (pid : BitVec 32) (name : Name) (buf : Payload) (ppos file : BitVec 64)
    (ret : BitVec 32) :
    trfsLogWriteOp pid name buf ppos file ret = writeEncoder pid name buf.bytes ppos file ret := rfl

/-- The offset behind the last byte stored. -/
def Store.stop (decl : StructDecl Field) (store : Store) : Nat :=
  store.offset decl + (store.bytes decl).length

namespace Encoder

/-- Every byte stored lies below the allocated size. -/
def Inside (encoder : Encoder) (rId : BitVec 32) : Prop :=
  ∀ store ∈ encoder.stores rId, ∀ index, store.Covers encoder.decl index →
    (index : Int) < encoder.size

def StaysInside (encoder : Encoder) (kmalloc : Kmalloc) (rId : BitVec 32) : Prop :=
  kmalloc.succeeds encoder.size = true → encoder.Inside rId

variable {encoder : Encoder}

theorem inside_of_stops (room : 7 ≤ encoder.size)
    (stops : ∀ stop ∈ encoder.body.map (Store.stop encoder.decl), (stop : Int) ≤ encoder.size)
    (rId : BitVec 32) : encoder.Inside rId := by
  obtain ⟨idAt, idWidth, sizeAt, sizeWidth, typeAt, typeWidth⟩ := encoder.header
  have all : ∀ store ∈ encoder.stores rId, (store.stop encoder.decl : Int) ≤ encoder.size := by
    simp only [Encoder.stores, List.forall_mem_cons]
    refine ⟨?_, ?_, ?_, fun store member => stops _ (List.mem_map_of_mem member)⟩ <;>
      simp only [Store.stop, Store.offset, Store.bytes, length_wordBytes, idAt, idWidth, sizeAt,
        sizeWidth, typeAt, typeWidth] <;>
      omega
  intro store member index covers
  have stop := all store member
  have below : index < store.stop encoder.decl := covers.2
  omega

theorem stop_le_of_inside {rId : BitVec 32} (inside : encoder.Inside rId) {store : Store}
    (member : store ∈ encoder.body) (nonempty : 0 < (store.bytes encoder.decl).length) :
    (store.stop encoder.decl : Int) ≤ encoder.size := by
  have last : store.Covers encoder.decl (store.stop encoder.decl - 1) := by
    rw [Store.Covers, Store.stop]
    omega
  have below := inside store (by simp [Encoder.stores, member]) _ last
  omega

end Encoder

namespace TracedCall

/-- Where the stores behind the header end. -/
def stops : TracedCall → List Nat
  | openFile name .. => [20, 12, 16, 38, 36, 32, 38 + (terminated name.text).length]
  | read name .. => [12, 42, 32, 34, 40, 24, 42 + (terminated name.text).length]
  | write name buf .. =>
      [12, 42, 32, 34, 40, 24, 42 + name.text.length, 42 + name.text.length + buf.bytes.length]
  | close name .. => [12, 30, 28, 24, 30 + name.text.length]
  | mkdir name .. => [16, 22, 20, 22 + (terminated name.text).length]
  | rmdir name .. | unlink name .. => [18, 16, 18 + (terminated name.text).length]
  | link oldName newName .. | rename oldName newName .. =>
      [18, 20, 16, 20 + (terminated oldName.text).length,
        20 + oldName.text.length + (terminated newName.text).length]
  | symlink name target .. =>
      [18, 20, 16, 20 + (terminated name.text).length,
        20 + name.text.length + (terminated target.text).length]
  | mknod name .. => [12, 18, 16, 18 + name.text.length]
  | setxattr name .. | getxattr name .. | listxattr name .. | removexattr name .. =>
      [12, 30, 28, 30 + name.text.length]

theorem map_stop_body (call : TracedCall) (pid : BitVec 32) :
    (call.encoder pid).body.map (Store.stop (call.encoder pid).decl) = call.stops := by
  cases call <;> rfl

/-- The new name of a link is at most as much longer than the old one as the padding allows. -/
def LinkPaddingSuffices : TracedCall → Prop
  | link oldName newName .. => newName.text.length ≤ oldName.text.length + 3
  | _ => True

theorem stops_le_iff (call : TracedCall) :
    (∀ stop ∈ call.stops, stop ≤ call.byteSize) ↔ call.LinkPaddingSuffices := by
  cases call <;>
    simp only [stops, byteSize, LinkPaddingSuffices, List.forall_mem_cons, List.not_mem_nil,
      IsEmpty.forall_iff, implies_true, and_true, length_terminated, iff_true] <;>
    omega

/-- Beyond the names of a link all stores of all encoders fit. -/
theorem inside_iff (call : TracedCall) (pid rId : BitVec 32) :
    (call.encoder pid).Inside rId ↔ call.LinkPaddingSuffices := by
  constructor
  · intro inside
    cases call with
    | link oldName newName ret =>
        have member : Store.copy .pathname oldName.text.length (terminated newName.text) ∈
            ((link oldName newName ret).encoder pid).body := by
          simp [encoder, trfsLogLinkOp]
        have last := Encoder.stop_le_of_inside inside member (by simp [Store.bytes])
        rw [encoder_size] at last
        have stop : Store.stop ((link oldName newName ret).encoder pid).decl
            (.copy .pathname oldName.text.length (terminated newName.text)) =
              20 + oldName.text.length + (terminated newName.text).length := rfl
        rw [stop, length_terminated, byteSize] at last
        show newName.text.length ≤ oldName.text.length + 3
        omega
    | _ => trivial
  · intro fits
    have room := call.twenty_lt_byteSize
    apply Encoder.inside_of_stops
    · rw [encoder_size]
      omega
    · rw [encoder_size, map_stop_body]
      intro stop member
      exact_mod_cast call.stops_le_iff.mpr fits stop member

end TracedCall

/-- With a count that the `int` cannot hold the size that is left is too small. -/
theorem writeEncoder_staysInside_iff (kmalloc : Kmalloc) (pid rId : BitVec 32) (name : Name)
    (buf : List UInt8) (ppos file : BitVec 64) (ret : BitVec 32) :
    (writeEncoder pid name buf ppos file ret).StaysInside kmalloc rId ↔
      (kmalloc.succeeds (writeEncoder pid name buf ppos file ret).size = true →
        48 + name.text.length + buf.length < 2 ^ 32) := by
  apply imp_congr_right
  intro allocated
  have sizeof : Kernel.trfsWriteOp.sizeof = 48 := by decide
  have size : (writeEncoder pid name buf ppos file ret).size =
      toInt32 (48 + (name.text.length + buf.length : Nat)) := by
    simp only [writeEncoder, recordSize, sizeof, Nat.cast_ofNat]
  have nonneg := kmalloc.nonneg _ allocated
  have range := toInt32_range (48 + (name.text.length + buf.length : Nat))
  constructor
  · intro inside
    by_cases empty : buf = []
    · have bounded := name.bounded
      rw [empty, List.length_nil]
      omega
    · have member : Store.copy .pathname name.text.length buf ∈
          (writeEncoder pid name buf ppos file ret).body := by
        simp [writeEncoder]
      have last := Encoder.stop_le_of_inside inside member (List.length_pos_iff.mpr empty)
      have stop : Store.stop (writeEncoder pid name buf ppos file ret).decl
          (.copy .pathname name.text.length buf) = 42 + name.text.length + buf.length := rfl
      rw [stop, size] at last
      omega
  · intro small
    rw [size, toInt32_eq] at nonneg
    have whole : (writeEncoder pid name buf ppos file ret).size =
        48 + name.text.length + buf.length := by
      rw [size, toInt32_eq]
      omega
    have stops : (writeEncoder pid name buf ppos file ret).body.map
        (Store.stop (writeEncoder pid name buf ppos file ret).decl) =
          [12, 42, 32, 34, 40, 24, 42 + name.text.length,
            42 + name.text.length + buf.length] := rfl
    apply Encoder.inside_of_stops
    · omega
    · rw [stops, whole]
      simp only [List.forall_mem_cons, List.not_mem_nil, IsEmpty.forall_iff, implies_true, and_true]
      omega

/-- Where `kmalloc` succeeds the fifteen encoders store below the size they allocated, except for
a link whose new name is too long; so does a write of any count that the sum holds. -/
theorem encoders_stay_inside_iff (kmalloc : Kmalloc) (pid rId : BitVec 32) :
    (∀ call : TracedCall, (call.encoder pid).StaysInside kmalloc rId ↔
        (kmalloc.succeeds (call.encoder pid).size = true → call.LinkPaddingSuffices)) ∧
      ∀ (name : Name) (buf : List UInt8) (ppos file : BitVec 64) (ret : BitVec 32),
        (writeEncoder pid name buf ppos file ret).StaysInside kmalloc rId ↔
          (kmalloc.succeeds (writeEncoder pid name buf ppos file ret).size = true →
            48 + name.text.length + buf.length < 2 ^ 32) := by
  refine ⟨?_, writeEncoder_staysInside_iff kmalloc pid rId⟩
  intro call
  exact imp_congr_right fun _ => call.inside_iff pid rId

def Name.abcde : Name := ⟨[97, 98, 99, 100, 101], by decide, by decide, by decide⟩

/-- An allocator that refuses negative sizes only. -/
def Kmalloc.lenient : Kmalloc where
  succeeds := fun size => decide (0 ≤ size)
  nonneg := fun _ allocated => of_decide_eq_true allocated

/-- `link("a", "abcde")`: 26 bytes are allocated and the terminator is stored at offset 26. -/
theorem link_leaves_allocation :
    (trfsLogLinkOp Name.a Name.abcde 0).size = 26 ∧
      (Store.copy .pathname 1 (terminated Name.abcde.text)).Covers Kernel.trfsLinkOp 26 ∧
      ¬ (trfsLogLinkOp Name.a Name.abcde 0).StaysInside Kmalloc.lenient 2 := by
  have covered :
      (Store.copy .pathname 1 (terminated Name.abcde.text)).Covers Kernel.trfsLinkOp 26 := by
    show 21 ≤ 26 ∧ 26 < 27
    decide
  have stored : Store.copy .pathname 1 (terminated Name.abcde.text) ∈
      (trfsLogLinkOp Name.a Name.abcde 0).stores 2 := by
    simp [Encoder.stores, trfsLogLinkOp, Name.a]
  refine ⟨by decide, covered, ?_⟩
  intro inside
  exact absurd (inside (by decide) _ stored 26 covered) (by decide)

end Tracefs
