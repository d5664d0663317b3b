import Tracefs.Replay.Descriptors
import Tracefs.Replay.Execution

/-!
# File offsets

A transfer through an open file takes place at the position of the file or at
an offset of its own, and seeks leave no record.  The record of a transfer
holds the position after it, cut down to 16 bits, and the replay does not look
at it: it reads and writes at the running position of its descriptor.  It does so
for the records that the parser finds on its pages, and only as long as a read
stays in the buffer of its handler.
-/

namespace Tracefs

open Bytes Transition

inductive Transfer where
  | read (count : Nat)
  | write (data : List UInt8)

def Transfer.size : Transfer → Nat
  | read count => count
  | write data => data.length

/-- The number of bytes a result stands for; a negative one is an error. -/
def movedBytes (ret : BitVec 32) : Nat := if ret.toInt < 0 then 0 else ret.toNat

/-- The file below: where a transfer started at a position takes place (there, or
at the end of a file opened for appending), and what it does there.  No more
bytes are moved than were asked for. -/
structure LowerFile (Contents : Type) where
  landing : Contents → Transfer → BitVec 64 → BitVec 64
  perform : Contents → Transfer → BitVec 64 → BitVec 32 × Contents
  bounded : ∀ contents transfer offset,
    movedBytes (perform contents transfer offset).1 ≤ transfer.size

/-- An open file: what it contains and its `f_pos`. -/
structure OpenFile (Contents : Type) where
  contents : Contents
  position : BitVec 64

structure TransferResult (Contents : Type) where
  ret : BitVec 32
  offset : BitVec 64
  /-- the file afterwards, its position where the transfer left `*ppos` -/
  file : OpenFile Contents

/-- `vfs_read` and `vfs_write`, which set `*ppos` behind what they transfer. -/
def LowerFile.transfer {Contents : Type} (lower : LowerFile Contents) (file : OpenFile Contents)
    (transfer : Transfer) : TransferResult Contents :=
  let offset := lower.landing file.contents transfer file.position
  let performed := lower.perform file.contents transfer offset
  ⟨performed.1, offset, performed.2,
    if movedBytes performed.1 = 0 then file.position
    else offset + BitVec.ofNat 64 (movedBytes performed.1)⟩

inductive TracedTransfer where
  | read (count : BitVec 64)
  | write (buf : Payload)

def TracedTransfer.transfer : TracedTransfer → Transfer
  | read count => .read count.toNat
  | write buf => .write buf.bytes

/-- The call that `trfs_read` and `trfs_write` trace, `*ppos` being already advanced. -/
def TracedTransfer.call (name : Name) (ppos : BitVec 64) (ret : BitVec 32) :
    TracedTransfer → FileCall
  | read count => .read name count ppos ret
  | write buf => .write name buf ppos ret

/-- A use of the open file.  A transfer is `read` or `write` at the position of
the file, or `pread` or `pwrite` at an offset; `generic_file_llseek` sets the
position.  The other members of a transfer go into its record. -/
inductive OffsetEvent where
  | transfer (request : TracedTransfer) (positional : Option (BitVec 64)) (name : Name)
      (file : BitVec 64) (pid rId : BitVec 32) (heap around : Memory) (op : Nat)
  | llseek (position : BitVec 64)

/-- What the file open at a descriptor does for a system call of the replay. -/
def Syscall.transferOn (descriptor : Int) : Syscall → Option Transfer
  | .read fd count => if fd = descriptor then some (.read count) else none
  | .write fd data => if fd = descriptor then some (.write data) else none
  | _ => none

/-- The system of the replay: the calls on the descriptor are made on the copy that is open there,
the others are answered in some way. -/
def Environment.onCopy {Contents : Type} (env : Environment) (lower : LowerFile Contents)
    (descriptor : Int) (copy : OpenFile Contents) : Environment where
  answer := fun tick syscall =>
    match syscall.transferOn descriptor with
    | some transfer =>
        let ret := (lower.transfer copy transfer).ret
        if ret.toInt < 0 then -1 else ret.toInt
    | none => env.answer tick syscall
  p1 := env.p1
  p2 := env.p2

/-- The traced file, with the end of its last transfer, next to the replay, as long as it goes on,
and the copy it works on, open at a descriptor of the replay. -/
structure OffsetSession (Contents : Type) where
  traced : OpenFile Contents
  lastEnd : BitVec 64
  replay : Option Replay
  descriptor : Int
  copy : OpenFile Contents

namespace OffsetSession

variable {Contents : Type} (lower : LowerFile Contents) (env : Environment) (gflags : Nat)
  (blocks : Nat → Memory)

/-- Both files as they are opened. -/
def start (contents : Contents) (replay : Replay) (descriptor : Int) : OffsetSession Contents :=
  ⟨⟨contents, 0⟩, 0, some replay, descriptor, ⟨contents, 0⟩⟩

def tracedResult (session : OffsetSession Contents) (request : TracedTransfer)
    (positional : Option (BitVec 64)) : TransferResult Contents :=
  lower.transfer { session.traced with position := positional.getD session.traced.position }
    request.transfer

/-- The record of a transfer, as it is replayed. -/
def emitted (result : TransferResult Contents) (request : TracedTransfer) (name : Name)
    (file : BitVec 64) (pid rId : BitVec 32) (heap around : Memory) (op : Nat) : FileEvent :=
  ⟨request.call name result.file.position result.ret, file, pid, rId, heap, around, op⟩

/-- What the parser does with what lies of a record on a page of treplay, if that has a defined
end.  As many rounds as there are bytes are enough, unless it goes on forever. -/
def parsed (session : OffsetSession Contents) (event : FileEvent) : Option (Progress Replay) :=
  session.replay.bind fun replay =>
    (trfsReadTfileBuf (ReplayOp.run (env.onCopy lower session.descriptor session.copy) gflags)
      blocks 0 (event.around.store event.op (event.record.paged event.op)) (replayPageSize + 1)
      event.op (event.record.paged event.op).length ⟨replay, []⟩).progress?

/-- The transfers on the copy that have been made since. -/
def transfers (session : OffsetSession Contents) (after : Option (Progress Replay)) :
    List Transfer :=
  match session.replay, after with
  | some before, some after =>
      (after.state.calls.drop before.calls.length).filterMap (Syscall.transferOn session.descriptor)
  | _, _ => []

/-- The offsets of transfers made one after the other, and the file after them. -/
def runTransfers (file : OpenFile Contents) (transfers : List Transfer) :
    OpenFile Contents × List (BitVec 64) :=
  observe (fun file transfer => let result := lower.transfer file transfer
    (result.file, result.offset)) file transfers

def step (session : OffsetSession Contents) : OffsetEvent → OffsetSession Contents
  | .llseek position => { session with traced.position := position }
  | .transfer request positional name file pid rId heap around op =>
      let result := session.tracedResult lower request positional
      let parsed := session.parsed lower env gflags blocks
        (emitted result request name file pid rId heap around op)
      { traced :=
          match positional with
          | none => result.file
          | some _ => { result.file with position := session.traced.position }
        lastEnd := if movedBytes result.ret = 0 then session.lastEnd else result.file.position
        replay := parsed.map Progress.state
        descriptor := session.descriptor
        copy := (runTransfers lower session.copy (session.transfers parsed)).1 }

end OffsetSession

/-- The member `ppos` of a record as treplay's structures read it, an `int`. -/
def FileEvent.decodedPpos (event : FileEvent) : Int :=
  toInt32 (event.call.replayOp.decl.get (event.record.onPage event.around event.op) event.op .ppos)

namespace OffsetSession

variable {Contents : Type} (lower : LowerFile Contents) (env : Environment) (gflags : Nat)
  (blocks : Nat → Memory)

/-- The record gives the offset of the transfer, and the parser hands the whole of it to its
handler, who makes one transfer at the same offset and returns. -/
def SameOffset (session : OffsetSession Contents) : OffsetEvent → Prop
  | .llseek _ => True
  | .transfer request positional name file pid rId heap around op =>
      let result := session.tracedResult lower request positional
      let event := emitted result request name file pid rId heap around op
      event.decodedPpos = result.offset.toInt ∧
        ∃ progress, session.parsed lower env gflags blocks event = some progress ∧
          progress.visits = [⟨op, event.record.bytes, some event.call.replayOp⟩] ∧
          (runTransfers lower session.copy (session.transfers (some progress))).2 = [result.offset]

/-- The transfer moves nothing, at an offset of an `int` that the record shows: its start, to
16 bits, and the upper half in the padding behind `ppos`.  It takes place where one continuing the
last transfer would, the replay finds the file under the task that makes it, and the record lies
whole on a page. -/
def Continues (session : OffsetSession Contents) : OffsetEvent → Prop
  | .llseek _ => True
  | .transfer request positional name file pid rId heap around op =>
      let result := session.tracedResult lower request positional
      let start := positional.getD session.traced.position
      let event := emitted result request name file pid rId heap around op
      movedBytes result.ret = 0 ∧
      (start.toNat % 2 ^ 16 = result.offset.toNat % 2 ^ 16 ∧
        heap.word 34 2 = result.offset.toNat / 2 ^ 16 % 2 ^ 16 ∧
        -2 ^ 31 ≤ result.offset.toInt ∧ result.offset.toInt < 2 ^ 31) ∧
      lower.landing session.traced.contents request.transfer session.lastEnd = result.offset ∧
      (∃ replay, session.replay = some replay ∧
        trfsOmapGetfd replay.omap file.toNat pid.toInt = session.descriptor) ∧
      op + event.record.call.byteSize ≤ replayPageSize

end OffsetSession

section Decoding

variable (pid : BitVec 32) (name : Name) (file : BitVec 64) (ret rId : BitVec 32) (heap : Memory)

/-- The two bytes behind the kernel's `ppos` are padding, which userland reads as
part of its own. -/
theorem word_ppos_trfsLogReadOp (count ppos : BitVec 64) :
    ((trfsLogReadOp pid name count ppos file ret).fill rId heap).word 32 4 =
      ppos.toNat % 2 ^ 16 + 2 ^ 16 * heap.word 34 2 := by
  have image : (trfsLogReadOp pid name count ppos file ret).fill rId heap =
      (((((((((heap.store 0 (wordBytes 4 rId.toNat)).store 6 (wordBytes 1 _)).store 4
        (wordBytes 2 _)).store 8 (wordBytes 4 pid.toNat)).store 40
        (wordBytes 2 name.text.length)).store 24 (wordBytes 8 count.toNat)).store 32
        (wordBytes 2 ppos.toNat)).store 36 (wordBytes 4 ret.toNat)).store 16
        (wordBytes 8 file.toNat)).store 42 (terminated name.text) := rfl
  rw [image, show (4 : Nat) = 2 + 2 from rfl, Memory.word_add]
  simp (disch := simp) only [Memory.word_store_disjoint, Memory.word_store_same]
  norm_num

theorem word_ppos_trfsLogWriteOp (buf : Payload) (ppos : BitVec 64) :
    ((trfsLogWriteOp pid name buf ppos file ret).fill rId heap).word 32 4 =
      ppos.toNat % 2 ^ 16 + 2 ^ 16 * heap.word 34 2 := by
  have image : (trfsLogWriteOp pid name buf ppos file ret).fill rId heap =
      ((((((((((heap.store 0 (wordBytes 4 rId.toNat)).store 6 (wordBytes 1 _)).store 4
        (wordBytes 2 _)).store 8 (wordBytes 4 pid.toNat)).store 40
        (wordBytes 2 name.text.length)).store 24 (wordBytes 8 buf.bytes.length)).store 32
        (wordBytes 2 ppos.toNat)).store 36 (wordBytes 4 ret.toNat)).store 16
        (wordBytes 8 file.toNat)).store 42 name.text).store (42 + name.text.length) buf.bytes := rfl
  rw [image, show (4 : Nat) = 2 + 2 from rfl, Memory.word_add]
  simp (disch := first | simp; done | omega) only [Memory.word_store_disjoint,
    Memory.word_store_same]
  norm_num

theorem decodedPpos_eq (request : TracedTransfer) (ppos : BitVec 64) (around : Memory) (op : Nat) :
    (FileEvent.mk (request.call name ppos ret) file pid rId heap around op).decodedPpos =
      toInt32 (ppos.toNat % 2 ^ 16 + 2 ^ 16 * heap.word 34 2 : Nat) := by
  rw [FileEvent.decodedPpos]
  congr 2
  cases request with
  | read count =>
      have bound : Userland.trfsReadOp.offsetOf .ppos + Userland.trfsReadOp.widthOf .ppos ≤ 48 := by
        decide
      exact get_onPage (Nat.le_add_right_of_le bound)
        (word_ppos_trfsLogReadOp pid name file ret rId heap count ppos)
  | write buf =>
      have bound :
          Userland.trfsWriteOp.offsetOf .ppos + Userland.trfsWriteOp.widthOf .ppos ≤ 48 := by
        decide
      exact get_onPage (Nat.le_add_right_of_le (Nat.le_add_right_of_le bound))
        (word_ppos_trfsLogWriteOp pid name file ret rId heap buf ppos)

/-- Which positions after a transfer decode as the offset before it. -/
theorem decoded_eq_iff (position offset : BitVec 64) :
    toInt32 (position.toNat % 2 ^ 16 + 2 ^ 16 * heap.word 34 2 : Nat) = offset.toInt ↔
      position.toNat % 2 ^ 16 = offset.toNat % 2 ^ 16 ∧
        heap.word 34 2 = offset.toNat / 2 ^ 16 % 2 ^ 16 ∧
        -2 ^ 31 ≤ offset.toInt ∧ offset.toInt < 2 ^ 31 := by
  have padding := heap.word_lt 34 2
  have bound := offset.isLt
  rw [toInt32_eq, BitVec.toInt_eq_toNat_cond]
  omega

end Decoding

/-- A record that lies whole on a page: the parser does what its handler does. -/
theorem FileEvent.progress?_whole (event : FileEvent) (env : Environment) (gflags : Nat)
    (blocks : Nat → Memory) (state : Replay)
    (whole : event.op + event.record.call.byteSize ≤ replayPageSize) :
    (trfsReadTfileBuf (ReplayOp.run env gflags) blocks 0
        (event.around.store event.op (event.record.paged event.op)) (replayPageSize + 1) event.op
        (event.record.paged event.op).length ⟨state, []⟩).progress? =
      (event.replay env gflags state).map fun next =>
        ⟨next, [⟨event.op, event.record.bytes, some event.call.replayOp⟩]⟩ := by
  have known : event.record.call.kind ≠ .mknod := by
    rw [record]
    cases event.call <;> exact OpKind.noConfusion
  have chosen : TraceRecord.selected event.record.call.kind = some event.call.replayOp := by
    rw [record]
    cases event.call <;> rfl
  let item : ReplayableRecord :=
    ⟨event.record, TraceRecord.sizeFieldFits_of_paged whole, known⟩
  have visit : item.framed.visit (0 + event.op) =
      ⟨event.op, event.record.bytes, some event.call.replayOp⟩ := by
    rw [FramedRecord.visit, FramedRecord.op, Nat.zero_add, ← chosen,
      ← TraceRecord.replayDispatch_rType, ← TraceRecord.typeByte]
    rfl
  have meaning : (item.replay env gflags state).state? = event.replay env gflags state := by
    have run := event.record.run_onPage known env gflags event.around event.op state
    rw [chosen] at run
    exact congrArg Outcome.state? run.symm
  have placed : (event.around.store event.op event.record.bytes).load event.op
      item.framed.bytes.length = item.framed.bytes :=
    event.around.load_store_same event.op event.record.bytes
  have round := (recordInstructions env gflags).trfsReadTfileBuf_item blocks 0 placed
    event.record.bytes.length le_rfl ⟨state, []⟩ replayPageSize
  rw [TraceRecord.paged_of_whole whole, ← meaning]
  refine (congrArg Parsed.progress? round).trans ?_
  dsimp only [recordInstructions]
  rw [visit]
  cases item.replay env gflags state with
  | returned next =>
      have used : (event.record.bytes.length : Int) - item.framed.bytes.length ≤ 0 :=
        (Int.sub_self _).le
      rw [replayPageSize]
      dsimp only
      rw [trfsReadTfileBuf, if_pos used]
      rfl
  | exited next => rfl
  | fault => rfl

namespace OffsetSession

variable {Contents : Type} (lower : LowerFile Contents) (env : Environment) (gflags : Nat)
  (blocks : Nat → Memory)

theorem calls_emitted {before next : Replay} (descriptor : Int) {result : TransferResult Contents}
    {request : TracedTransfer} {name : Name} {file : BitVec 64} {pid rId : BitVec 32}
    {heap around : Memory} {op : Nat}
    (replayed : (emitted result request name file pid rId heap around op).replay env gflags before =
      some next) :
    ∃ syscall : Syscall, next.calls = before.calls ++ [syscall] ∧
      syscall.transferOn descriptor =
        if trfsOmapGetfd before.omap file.toNat pid.toInt = descriptor
        then some request.transfer else none := by
  cases request with
  | read count =>
      obtain ⟨same, read⟩ := FileEvent.replay_read env gflags
        (emitted result (.read count) name file pid rId heap around op) before rfl
      rw [read, Option.ite_none_right_eq_some] at replayed
      cases replayed.2
      exact ⟨_, rfl, rfl⟩
  | write buf =>
      obtain ⟨same, written⟩ := FileEvent.replay_write env gflags
        (emitted result (.write buf) name file pid rId heap around op) before rfl
      rw [written] at replayed
      cases replayed
      exact ⟨_, rfl, rfl⟩

/-- The handler makes the transfer as it was requested, whatever its `ppos`. -/
theorem transfers_emitted {session : OffsetSession Contents} {before next : Replay}
    (going : session.replay = some before) {visits : List Visit}
    {result : TransferResult Contents} {request : TracedTransfer} {name : Name} {file : BitVec 64}
    {pid rId : BitVec 32} {heap around : Memory} {op : Nat}
    (replayed : (emitted result request name file pid rId heap around op).replay env gflags before =
      some next) :
    session.transfers (some ⟨next, visits⟩) =
      if trfsOmapGetfd before.omap file.toNat pid.toInt = session.descriptor
      then [request.transfer] else [] := by
  obtain ⟨syscall, appended, transfer⟩ := calls_emitted env gflags session.descriptor replayed
  have made : session.transfers (some ⟨next, visits⟩) =
      (next.calls.drop before.calls.length).filterMap (Syscall.transferOn session.descriptor) := by
    simp only [transfers, going]
  rw [made, appended, List.drop_left]
  by_cases found : trfsOmapGetfd before.omap file.toNat pid.toInt = session.descriptor
  · rw [if_pos found] at transfer ⊢
    rw [List.filterMap_cons_some transfer, List.filterMap_nil]
  · rw [if_neg found] at transfer ⊢
    rw [List.filterMap_cons_none transfer, List.filterMap_nil]

/-- The bytes that a read of the copy moves are those the buffer has to hold. -/
theorem fits_emitted_iff {session : OffsetSession Contents} {before : Replay}
    {result : TransferResult Contents} {count : BitVec 64} {name : Name} {file : BitVec 64}
    {pid rId : BitVec 32} {heap around : Memory} {op : Nat}
    (found : trfsOmapGetfd before.omap file.toNat pid.toInt = session.descriptor) :
    (emitted result (.read count) name file pid rId heap around op).Fits
        (env.onCopy lower session.descriptor session.copy) before ↔
      movedBytes (lower.transfer session.copy (.read count.toNat)).ret ≤ maxBytes := by
  have bounded : movedBytes (lower.transfer session.copy (.read count.toNat)).ret ≤ count.toNat :=
    lower.bounded _ _ _
  have transfer : Syscall.transferOn session.descriptor
      (.read (trfsOmapGetfd before.omap file.toNat pid.toInt) count.toNat) =
        some (.read count.toNat) := if_pos found
  show min _ _ ≤ _ ↔ _
  simp only [Environment.onCopy, FileEvent.lookup, emitted, transfer]
  generalize (lower.transfer session.copy (.read count.toNat)).ret = ret at bounded ⊢
  have value := BitVec.toInt_eq_toNat_cond ret
  have bound := ret.isLt
  simp only [movedBytes, maxBytes] at bounded ⊢
  split at bounded <;> rename_i sign <;> simp only [sign, if_true, if_false] <;> omega

/-- The copy is in step: it contains the same, and stands behind the last transfer. -/
structure InStep (session : OffsetSession Contents) : Prop where
  contents : session.copy.contents = session.traced.contents
  position : session.copy.position = session.lastEnd

theorem inStep_start (contents : Contents) (replay : Replay) (descriptor : Int) :
    (start contents replay descriptor).InStep :=
  ⟨rfl, rfl⟩

variable {session : OffsetSession Contents}

theorem InStep.offset_eq (inStep : session.InStep) (transfer : Transfer) :
    (lower.transfer session.copy transfer).offset =
      lower.landing session.traced.contents transfer session.lastEnd := by
  rw [LowerFile.transfer, inStep.contents, inStep.position]

/-- Transfers at the same offset of the same contents have the same result. -/
theorem InStep.performed (inStep : session.InStep) {request : TracedTransfer}
    {positional : Option (BitVec 64)}
    (landing : lower.landing session.traced.contents request.transfer session.lastEnd =
      (session.tracedResult lower request positional).offset) :
    let result := session.tracedResult lower request positional
    lower.transfer session.copy request.transfer =
      ⟨result.ret, result.offset, result.file.contents,
        if movedBytes result.ret = 0 then session.lastEnd else result.file.position⟩ := by
  simp only [tracedResult, LowerFile.transfer, inStep.contents, inStep.position] at landing ⊢
  rw [landing]
  split <;> rfl

/-- On a copy in step a read fits its buffer exactly if what the traced one moved does. -/
theorem InStep.fits_iff (inStep : session.InStep) {before : Replay} {request : TracedTransfer}
    {positional : Option (BitVec 64)} {result : TransferResult Contents} {name : Name}
    {file : BitVec 64} {pid rId : BitVec 32} {heap around : Memory} {op : Nat}
    (landing : lower.landing session.traced.contents request.transfer session.lastEnd =
      (session.tracedResult lower request positional).offset)
    (found : trfsOmapGetfd before.omap file.toNat pid.toInt = session.descriptor) :
    (emitted result request name file pid rId heap around op).Fits
        (env.onCopy lower session.descriptor session.copy) before ↔
      ∀ count, request = .read count →
        movedBytes (session.tracedResult lower request positional).ret ≤ maxBytes := by
  have performed := inStep.performed lower landing
  cases request with
  | read count =>
      simp only [TracedTransfer.transfer] at performed
      rw [fits_emitted_iff lower env found, performed]
      exact ⟨fun fits _ _ => fits, fun fits => fits count rfl⟩
  | write buf => exact iff_of_true trivial nofun

/-- The record of a write holds what was to be written. -/
theorem size_le_byteSize (result : TransferResult Contents) (buf : Payload) (name : Name)
    (file : BitVec 64) (pid rId : BitVec 32) (heap around : Memory) (op : Nat) :
    buf.bytes.length ≤
      (emitted result (.write buf) name file pid rId heap around op).record.call.byteSize :=
  Nat.le_add_left _ _

/-- A transfer that moves something moves the position, by less than 16 bits can hide. -/
theorem movedBytes_eq_zero {request : TracedTransfer} {positional : Option (BitVec 64)}
    (shown : (session.tracedResult lower request positional).file.position.toNat % 2 ^ 16 =
      (session.tracedResult lower request positional).offset.toNat % 2 ^ 16)
    (small : movedBytes (session.tracedResult lower request positional).ret ≤ maxBytes) :
    movedBytes (session.tracedResult lower request positional).ret = 0 := by
  by_contra moves
  have behind : (session.tracedResult lower request positional).file.position =
      (session.tracedResult lower request positional).offset +
        BitVec.ofNat 64 (movedBytes (session.tracedResult lower request positional).ret) :=
    if_neg moves
  rw [behind, BitVec.toNat_add, BitVec.toNat_ofNat] at shown
  rw [maxBytes] at small
  omega

theorem position_of_not_moved {request : TracedTransfer} {positional : Option (BitVec 64)}
    (nothing : movedBytes (session.tracedResult lower request positional).ret = 0) :
    (session.tracedResult lower request positional).file.position =
      positional.getD session.traced.position :=
  if_pos nothing

section Parsed

variable {event : FileEvent} {before next : Replay}

theorem parsed_of_replayed (whole : event.op + event.record.call.byteSize ≤ replayPageSize)
    (going : session.replay = some before)
    (replayed : event.replay (env.onCopy lower session.descriptor session.copy) gflags before =
      some next) :
    session.parsed lower env gflags blocks event =
      some ⟨next, [⟨event.op, event.record.bytes, some event.call.replayOp⟩]⟩ := by
  refine Option.bind_eq_some_iff.mpr ⟨before, going, ?_⟩
  rw [event.progress?_whole _ _ _ _ whole, replayed, Option.map_some]

/-- A record that the parser has handed over as a whole lies whole on its page, and its handler has
returned. -/
theorem replayed_of_parsed {progress : Progress Replay}
    (parsed : session.parsed lower env gflags blocks event = some progress)
    (visited : progress.visits = [⟨event.op, event.record.bytes, some event.call.replayOp⟩]) :
    event.op + event.record.call.byteSize ≤ replayPageSize ∧ ∃ before,
      session.replay = some before ∧
        event.replay (env.onCopy lower session.descriptor session.copy) gflags before =
          some progress.state := by
  obtain ⟨before, going, ended⟩ := Option.bind_eq_some_iff.mp parsed
  obtain ⟨whole, -⟩ := TraceRecord.of_handled ended (by rw [Nat.zero_add]; exact visited)
  rw [event.progress?_whole _ _ _ _ whole, Option.map_eq_some_iff] at ended
  obtain ⟨next, replayed, rfl⟩ := ended
  exact ⟨whole, before, going, replayed⟩

end Parsed

theorem InStep.sameOffset_iff (inStep : session.InStep) (event : OffsetEvent) :
    session.SameOffset lower env gflags blocks event ↔ session.Continues lower event := by
  cases event with
  | llseek position => exact Iff.rfl
  | transfer request positional name file pid rId heap around op =>
      simp only [SameOffset, Continues]
      constructor
      · rintro ⟨decoded, progress, parsed, visited, offsets⟩
        rw [emitted, decodedPpos_eq, decoded_eq_iff] at decoded
        obtain ⟨whole, before, going, replayed⟩ :=
          replayed_of_parsed lower env gflags blocks parsed visited
        obtain ⟨next, visits⟩ := progress
        rw [transfers_emitted _ gflags going replayed] at offsets
        by_cases found : trfsOmapGetfd before.omap file.toNat pid.toInt = session.descriptor
        · simp only [found, if_true, runTransfers, observe, List.cons.injEq, and_true,
            inStep.offset_eq] at offsets
          have fits := (FileEvent.isSome_replay_iff ..).mp (Option.isSome_of_eq_some replayed)
          have small : movedBytes (session.tracedResult lower request positional).ret ≤
              maxBytes := by
            cases request with
            | read count => exact (inStep.fits_iff lower env offsets found).mp fits count rfl
            | write buf =>
                have bounded : movedBytes (session.tracedResult lower (.write buf) positional).ret ≤
                  buf.bytes.length := lower.bounded _ _ _
                exact bounded.trans
                  ((size_le_byteSize ..).trans ((Nat.le_add_left _ _).trans whole))
          have nothing := movedBytes_eq_zero lower decoded.1 small
          rw [position_of_not_moved lower nothing] at decoded
          exact ⟨nothing, decoded, offsets, ⟨before, going, found⟩, whole⟩
        · simp [found, runTransfers, observe] at offsets
      · rintro ⟨nothing, shown, landing, ⟨before, going, found⟩, whole⟩
        have fits : (emitted (session.tracedResult lower request positional) request name file pid
            rId heap around op).Fits (env.onCopy lower session.descriptor session.copy) before :=
          (inStep.fits_iff lower env landing found).mpr fun _ _ =>
            nothing.le.trans (Nat.zero_le maxBytes)
        obtain ⟨next, replayed⟩ := FileEvent.exists_replay _ gflags _ _ fits
        refine ⟨?_, _, parsed_of_replayed lower env gflags blocks whole going replayed, rfl, ?_⟩
        · rw [emitted, decodedPpos_eq, decoded_eq_iff, position_of_not_moved lower nothing]
          exact shown
        · rw [transfers_emitted _ gflags going replayed, if_pos found]
          simp only [runTransfers, observe, inStep.offset_eq, landing]

theorem InStep.step (inStep : session.InStep) (event : OffsetEvent)
    (same : session.SameOffset lower env gflags blocks event) :
    (session.step lower env gflags blocks event).InStep := by
  cases event with
  | llseek position => exact ⟨inStep.contents, inStep.position⟩
  | transfer request positional name file pid rId heap around op =>
      obtain ⟨-, -, landing, ⟨before, going, found⟩, -⟩ :=
        (inStep.sameOffset_iff lower env gflags blocks _).mp same
      obtain ⟨-, ⟨next, visits⟩, parsed, visited, -⟩ := same
      obtain ⟨-, state, stillGoing, replayed⟩ :=
        replayed_of_parsed lower env gflags blocks parsed visited
      obtain rfl : before = state := Option.some.inj (going.symm.trans stillGoing)
      have afterwards : (session.step lower env gflags blocks (.transfer request positional name
          file pid rId heap around op)).copy =
            (lower.transfer session.copy request.transfer).file := by
        simp only [OffsetSession.step, parsed, transfers_emitted _ gflags going replayed,
          if_pos found, runTransfers, observe]
      rw [inStep.performed lower landing] at afterwards
      constructor
      · rw [afterwards]
        cases positional <;> rfl
      · rw [afterwards]
        rfl

/-- Each record gives the offset of its transfer and is replayed there, and the copy ends up with
the contents of the traced file, exactly when every transfer moves nothing, at an offset that
survives the cut and that the replay has too, and every record lies whole on a page. -/
theorem replaysOffsets_iff (contents : Contents) (replay : Replay) (descriptor : Int)
    (events : List OffsetEvent) :
    let session := start contents replay descriptor
    let final := run (OffsetSession.step lower env gflags blocks) session events
    (Along (OffsetSession.step lower env gflags blocks) (SameOffset lower env gflags blocks) session
          events ∧
        final.copy.contents = final.traced.contents) ↔
      Along (OffsetSession.step lower env gflags blocks) (Continues lower) session events := by
  have inStep := inStep_start contents replay descriptor
  have agree : Along (OffsetSession.step lower env gflags blocks)
      (SameOffset lower env gflags blocks) _ events ↔
      Along (OffsetSession.step lower env gflags blocks) (Continues lower) _ events :=
    along_iff InStep (fun _ event inStep => inStep.sameOffset_iff lower env gflags blocks event)
      (fun _ event inStep same => inStep.step lower env gflags blocks event same) inStep events
  refine (and_iff_left_iff_imp.mpr fun same => ?_).trans agree
  exact (along_run InStep (fun _ event inStep same =>
    inStep.step lower env gflags blocks event same) inStep same).contents

theorem movedBytes_ofNat_le (count : Nat) : movedBytes (BitVec.ofNat 32 count) ≤ count := by
  rw [movedBytes]
  split
  · exact Nat.zero_le _
  · rw [BitVec.toNat_ofNat]
    exact Nat.mod_le _ _

/-- A file that is not opened for appending, with room for any write. -/
def plainFile : LowerFile (List UInt8) where
  landing := fun _ _ position => position
  perform := fun contents transfer offset =>
    match transfer with
    | .read count => (BitVec.ofNat 32 (min count (contents.length - offset.toNat)), contents)
    | .write data =>
        (BitVec.ofNat 32 data.length,
          contents.takeD offset.toNat 0 ++ data ++ contents.drop (offset.toNat + data.length))
  bounded := by
    intro contents transfer offset
    cases transfer with
    | read count =>
        exact (movedBytes_ofNat_le _).trans (Nat.min_le_left _ _)
    | write data => exact movedBytes_ofNat_le _

theorem singleByte_bounded : [120].length ≤ maxRwCount := by decide

/-- A write of one byte by task 1 to the file at address 1. -/
def writeOne (positional : Option (BitVec 64)) : OffsetEvent :=
  .transfer (.write ⟨[120], singleByte_bounded⟩) positional Name.a 1 1 2 (fun _ => 0) (fun _ => 0) 0

/-- The file is open in the replay as descriptor 3. -/
def openedAtThree : Replay := ⟨[⟨3, 1, 1⟩], [.openFile (some [97]) 1 0], []⟩

abbrev plainStep : OffsetSession (List UInt8) → OffsetEvent → OffsetSession (List UInt8) :=
  OffsetSession.step plainFile (ReplaySession.onlyCall 0) 0 fun _ _ => 0

theorem not_replaysOffsets_seek :
    ¬ Along plainStep (SameOffset plainFile (ReplaySession.onlyCall 0) 0 fun _ _ => 0)
        (start [] openedAtThree 3) [writeOne none] ∧
      ∀ events ∈ [[.llseek 4, writeOne none], [writeOne (some 4)]],
        (run plainStep (start [] openedAtThree 3) events).traced.contents = [0, 0, 0, 0, 120] ∧
          (run plainStep (start [] openedAtThree 3) events).copy.contents = [120] := by
  refine ⟨?_, by decide⟩
  rintro ⟨⟨decoded, -⟩, -⟩
  revert decoded
  decide

end OffsetSession

end Tracefs
