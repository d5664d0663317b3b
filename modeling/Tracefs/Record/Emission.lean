import Tracefs.Record.Encoder

/-!
# Traced calls and the records they enqueue

`TracedCall` is a call through the table `log_ops`.  An enqueued record is
determined by the call, the task, the record id and the bytes `kmalloc`
returned.
-/

namespace Tracefs

open Bytes

inductive OpKind where
  | openFile | read | write | close | mkdir | rmdir | unlink | link | symlink | mknod
  | rename | setxattr | getxattr | listxattr | removexattr
  deriving DecidableEq, Repr

/-- A hooked operation with the arguments its encoder reads.  `file` is the
address of the `struct file`. -/
inductive TracedCall where
  | openFile (name : Name) (flags mode : BitVec 32) (file : BitVec 64) (ret : BitVec 32)
  | read (name : Name) (count ppos file : BitVec 64) (ret : BitVec 32)
  | write (name : Name) (buf : Payload) (ppos file : BitVec 64) (ret : BitVec 32)
  | close (name : Name) (file : BitVec 64) (ret : BitVec 32)
  | mkdir (name : Name) (mode ret : BitVec 32)
  | rmdir (name : Name) (ret : BitVec 32)
  | unlink (name : Name) (ret : BitVec 32)
  | link (oldName newName : Name) (ret : BitVec 32)
  | symlink (name : Name) (target : LinkTarget) (ret : BitVec 32)
  | mknod (name : Name) (ret : BitVec 32)
  | rename (oldName newName : Name) (ret : BitVec 32)
  | setxattr (name : Name) (ret : BitVec 32)
  | getxattr (name : Name) (ret : BitVec 32)
  | listxattr (name : Name) (ret : BitVec 32)
  | removexattr (name : Name) (ret : BitVec 32)

namespace TracedCall

def kind : TracedCall → OpKind
  | openFile .. => .openFile
  | read .. => .read
  | write .. => .write
  | close .. => .close
  | mkdir .. => .mkdir
  | rmdir .. => .rmdir
  | unlink .. => .unlink
  | link .. => .link
  | symlink .. => .symlink
  | mknod .. => .mknod
  | rename .. => .rename
  | setxattr .. => .setxattr
  | getxattr .. => .getxattr
  | listxattr .. => .listxattr
  | removexattr .. => .removexattr

/-- The result that a hook is given. -/
def ret : TracedCall → BitVec 32
  | openFile _ _ _ _ ret | read _ _ _ _ ret | write _ _ _ _ ret | close _ _ ret | mkdir _ _ ret
  | rmdir _ ret | unlink _ ret | link _ _ ret | symlink _ _ ret | mknod _ ret | rename _ _ ret
  | setxattr _ ret | getxattr _ ret | listxattr _ ret | removexattr _ ret => ret

/-- The table `log_ops`: the function that runs for the call. -/
def encoder (pid : BitVec 32) : TracedCall → Encoder
  | openFile name flags mode file ret => trfsLogOpenOp pid name flags mode file ret
  | read name count ppos file ret => trfsLogReadOp pid name count ppos file ret
  | write name buf ppos file ret => trfsLogWriteOp pid name buf ppos file ret
  | close name file ret => trfsLogCloseOp pid name file ret
  | mkdir name mode ret => trfsLogMkdirOp name mode ret
  | rmdir name ret => trfsLogRmdirOp name ret
  | unlink name ret => trfsLogUnlinkOp name ret
  | link oldName newName ret => trfsLogLinkOp oldName newName ret
  | symlink name target ret => trfsLogSymlinkOp name target ret
  | mknod name ret => trfsLogMknodOp pid name ret
  | rename oldName newName ret => trfsLogRenameOp oldName newName ret
  | setxattr name ret => trfsLogSetxattrOp pid name ret
  | getxattr name ret => trfsLogGetxattrOp pid name ret
  | listxattr name ret => trfsLogListxattrOp pid name ret
  | removexattr name ret => trfsLogRemovexattrOp pid name ret

/-- The number of bytes handed to the queue, as an unbounded sum. -/
def byteSize : TracedCall → Nat
  | openFile name .. => 40 + name.text.length
  | read name .. => 48 + name.text.length
  | write name buf .. => 48 + name.text.length + buf.bytes.length
  | close name .. => 32 + name.text.length
  | mkdir name .. => 24 + name.text.length
  | rmdir name .. | unlink name .. => 20 + name.text.length
  | link oldName .. => 24 + oldName.text.length + oldName.text.length
  | symlink name target .. => 24 + name.text.length + target.text.length
  | mknod name .. => 20 + name.text.length
  | rename oldName newName .. => 24 + oldName.text.length + newName.text.length
  | setxattr name .. | getxattr name .. | listxattr name .. | removexattr name .. =>
      32 + name.text.length

/-- A record that holds names only is far smaller than a page. -/
theorem byteSize_le_of_names {call : TracedCall} (notWrite : call.kind ≠ .write)
    (notSymlink : call.kind ≠ .symlink) : call.byteSize ≤ 600 := by
  cases call with
  | write => exact absurd rfl notWrite
  | symlink => exact absurd rfl notSymlink
  | link oldName newName | rename oldName newName =>
      have first := oldName.bounded
      have second := newName.bounded
      simp only [byteSize]
      omega
  | openFile name | read name | close name | mkdir name | rmdir name | unlink name
  | mknod name | setxattr name | getxattr name | listxattr name | removexattr name =>
      have bound := name.bounded
      simp only [byteSize]
      omega

theorem byteSize_lt (call : TracedCall) : call.byteSize < 2 ^ 31 := by
  cases call with
  | write name buf =>
      have nameBound := name.bounded
      have bufBound := buf.bounded
      simp only [byteSize, maxRwCount] at *
      omega
  | symlink name target =>
      have first := name.bounded
      have second := target.bounded
      simp only [byteSize]
      omega
  | _ =>
      refine (byteSize_le_of_names ?_ ?_).trans_lt (by decide)
      · simp [kind]
      · simp [kind]

theorem twenty_lt_byteSize (call : TracedCall) : 20 < call.byteSize := by
  cases call with
  | link name | rename name | symlink name | write name | openFile name | read name
  | close name | mkdir name | rmdir name | unlink name | mknod name | setxattr name
  | getxattr name | listxattr name | removexattr name =>
      have bound := name.nonempty
      simp only [byteSize]
      omega

/-- No encoder overflows the `int` that holds its size. -/
theorem encoder_size (call : TracedCall) (pid : BitVec 32) :
    (call.encoder pid).size = call.byteSize := by
  have upper := call.byteSize_lt
  have sum : (call.encoder pid).size = toInt32 call.byteSize := by
    cases call <;>
      simp only [encoder, trfsLogOpenOp, trfsLogReadOp, trfsLogWriteOp, trfsLogCloseOp,
        trfsLogMkdirOp, trfsLogRmdirOp, trfsLogUnlinkOp, dentryEncoder, trfsLogLinkOp,
        trfsLogSymlinkOp, trfsLogRenameOp, trfsLogMknodOp, trfsLogSetxattrOp,
        trfsLogGetxattrOp, trfsLogListxattrOp, trfsLogRemovexattrOp, inodeEncoder,
        recordSize, byteSize, Nat.cast_add, Int.add_assoc] <;> rfl
  rw [sum]
  exact toInt32_of_range (by omega) (by exact_mod_cast upper)

end TracedCall

namespace Encoder

def stores (encoder : Encoder) (rId : BitVec 32) : List Store :=
  .assign .rId rId.toNat :: .assign .rType encoder.rType.code ::
    .assign .rSize (encoder.size % 2 ^ 32).toNat :: encoder.body

def fill (encoder : Encoder) (rId : BitVec 32) (heap : Memory) : Memory :=
  (encoder.stores rId).foldl (Store.apply encoder.decl) heap

theorem body_offset (encoder : Encoder) {store : Store} (membership : store ∈ encoder.body) :
    7 ≤ store.offset encoder.decl := by
  have placed := encoder.pastHeader store.field (List.mem_map_of_mem membership)
  cases store with
  | assign field value => exact placed
  | copy field displacement bytes => exact Nat.le_add_right_of_le placed

/-- The body leaves the header alone: the induction is on the stores still to run. -/
theorem word_body (encoder : Encoder) (memory : Memory) {start width : Nat}
    (inHeader : start + width ≤ 7) :
    (encoder.body.foldl (Store.apply encoder.decl) memory).word start width =
      memory.word start width := by
  have behind : ∀ store ∈ encoder.body, 7 ≤ store.offset encoder.decl :=
    fun _ membership => encoder.body_offset membership
  generalize encoder.body = stores at behind
  induction stores generalizing memory with
  | nil => rfl
  | cons store stores inductionHypothesis =>
      have first := behind store (by simp)
      rw [List.foldl_cons, inductionHypothesis _ (fun s hs => behind s (by simp [hs])),
        Store.apply, memory.word_store_disjoint (by omega)]

theorem fill_rId (encoder : Encoder) (rId : BitVec 32) (heap : Memory) :
    (encoder.fill rId heap).word 0 4 = rId.toNat := by
  obtain ⟨idAt, idWidth, sizeAt, sizeWidth, typeAt, typeWidth⟩ := encoder.header
  rw [fill, stores, List.foldl_cons, List.foldl_cons, List.foldl_cons,
    word_body _ _ (by omega)]
  simp only [Store.apply, Store.offset, Store.bytes, idAt, idWidth, sizeAt, sizeWidth, typeAt,
    typeWidth]
  rw [Memory.word_store_disjoint _ (by omega), Memory.word_store_disjoint _ (by omega),
    Memory.word_store_same]
  exact Nat.mod_eq_of_lt rId.isLt

theorem fill_rSize (encoder : Encoder) (rId : BitVec 32) (heap : Memory) :
    (encoder.fill rId heap).word 4 2 = (encoder.size % 2 ^ 32).toNat % 2 ^ 16 := by
  obtain ⟨idAt, idWidth, sizeAt, sizeWidth, typeAt, typeWidth⟩ := encoder.header
  rw [fill, stores, List.foldl_cons, List.foldl_cons, List.foldl_cons,
    word_body _ _ (by omega)]
  simp only [Store.apply, Store.offset, Store.bytes, sizeAt, sizeWidth]
  exact Memory.word_store_same _ 4 2 _

theorem fill_rType (encoder : Encoder) (rId : BitVec 32) (heap : Memory) :
    (encoder.fill rId heap).word 6 1 = encoder.rType.code := by
  obtain ⟨idAt, idWidth, sizeAt, sizeWidth, typeAt, typeWidth⟩ := encoder.header
  rw [fill, stores, List.foldl_cons, List.foldl_cons, List.foldl_cons,
    word_body _ _ (by omega)]
  simp only [Store.apply, Store.offset, Store.bytes, sizeAt, sizeWidth, typeAt, typeWidth]
  rw [Memory.word_store_disjoint _ (by simp), Memory.word_store_same]
  exact Nat.mod_eq_of_lt encoder.rType.code_lt

end Encoder

/-- What `TRFS_WRITE` hands to the queue: a pointer and a length. -/
structure Message where
  data : Memory
  len : Nat

def Message.bytes (message : Message) : List UInt8 := message.data.load 0 message.len

/-- `*msg1`: the first `int` of the message. -/
def Message.firstInt (message : Message) : Int := toInt32 (message.data.word 0 4)

structure TraceRecord where
  call : TracedCall
  pid : BitVec 32
  rId : BitVec 32
  heap : Memory

namespace TraceRecord

def encoder (record : TraceRecord) : Encoder := record.call.encoder record.pid

def memory (record : TraceRecord) : Memory := record.encoder.fill record.rId record.heap

def message (record : TraceRecord) : Message :=
  ⟨record.memory, record.encoder.size.toNat⟩

def bytes (record : TraceRecord) : List UInt8 := record.message.bytes

@[simp] theorem len_message (record : TraceRecord) :
    record.message.len = record.call.byteSize := by
  simp [message, encoder, TracedCall.encoder_size]

@[simp] theorem length_bytes (record : TraceRecord) :
    record.bytes.length = record.call.byteSize := by
  simp [bytes, Message.bytes]

theorem firstInt_message (record : TraceRecord) :
    record.message.firstInt = record.rId.toInt := by
  rw [Message.firstInt, message, memory, Encoder.fill_rId, toInt32,
    BitVec.toInt_eq_toNat_bmod]

theorem rSize_memory (record : TraceRecord) :
    record.memory.word 4 2 = record.call.byteSize % 2 ^ 16 := by
  have upper := record.call.byteSize_lt
  have wrapped : (record.encoder.size % 2 ^ 32).toNat = record.call.byteSize := by
    rw [encoder, TracedCall.encoder_size]
    omega
  rw [memory, Encoder.fill_rSize, wrapped]

/-- A record copied to some place reads there as in its buffer. -/
theorem load_around (record : TraceRecord) (around : Memory) (offset : Nat) :
    (around.store offset record.bytes).load offset record.call.byteSize =
      record.memory.load 0 record.call.byteSize := by
  have stored := around.load_store_same offset record.bytes
  rw [length_bytes] at stored
  rw [stored, bytes, Message.bytes, len_message]
  rfl

end TraceRecord

end Tracefs
