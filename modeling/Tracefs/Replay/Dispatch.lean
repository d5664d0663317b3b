import Tracefs.Replay.Framing

/-!
# Which handler a record meets

A record of the kernel should meet the handler of the operation it records, and
be read there through a structure that places the members where the encoder put
them.  The type byte decides the first, the two sets of declarations the second.
-/

namespace Tracefs

open Bytes

variable {State : Type}

/-- The handler written for an operation; there is none for `mknod`. -/
def OpKind.handler : OpKind → Option ReplayOp
  | openFile => some .openFile
  | read => some .read
  | write => some .write
  | close => some .close
  | mkdir => some .mkdir
  | rmdir => some .rmdir
  | unlink => some .unlink
  | link => some .link
  | symlink => some .symlink
  | mknod => none
  | rename => some .rename
  | setxattr => some .setxattr
  | getxattr => some .getxattr
  | listxattr => some .listxattr
  | removexattr => some .removexattr

def OpKind.decl : OpKind → StructDecl Field
  | openFile => Kernel.trfsOpenOp
  | read => Kernel.trfsReadOp
  | write => Kernel.trfsWriteOp
  | close => Kernel.trfsCloseOp
  | mkdir => Kernel.trfsMkdirOp
  | rmdir => Kernel.trfsRmdirOp
  | unlink => Kernel.trfsUnlinkOp
  | link => Kernel.trfsLinkOp
  | symlink => Kernel.trfsSymlinkOp
  | mknod => Kernel.trfsMknodOp
  | rename => Kernel.trfsRenameOp
  | setxattr => Kernel.trfsSetxattrOp
  | getxattr => Kernel.trfsGetxattrOp
  | listxattr => Kernel.trfsListxattrOp
  | removexattr => Kernel.trfsRemovexattrOp

def ReplayOp.decl : ReplayOp → StructDecl Field
  | openFile => Userland.trfsOpenOp
  | read => Userland.trfsReadOp
  | write => Userland.trfsWriteOp
  | close => Userland.trfsCloseOp
  | mkdir => Userland.trfsMkdirOp
  | rmdir => Userland.trfsRmdirOp
  | link => Userland.trfsLinkOp
  | trunct => Userland.trfsTrunctOp
  | symlink => Userland.trfsSymlinkOp
  | unlink => Userland.trfsUnlinkOp
  | rename => Userland.trfsRenameOp
  | setxattr => Userland.trfsSetxattrOp
  | getxattr => Userland.trfsGetxattrOp
  | listxattr => Userland.trfsListxattrOp
  | removexattr => Userland.trfsRemovexattrOp

/-- The members a handler looks at, those it only prints included. -/
def ReplayOp.reads : ReplayOp → List Field
  | openFile => [.pathname, .flags, .mode, .addr, .pid]
  | read => [.addr, .pid, .count, .ret, .pathname]
  | write => [.addr, .pid, .pathname, .len, .count]
  | close => [.addr, .pid, .pathname]
  | mkdir => [.pathname, .mode, .ret]
  | rmdir | unlink => [.pathname, .ret]
  | link => [.pathname, .plen, .hlen, .ret]
  | symlink => [.pathname, .plen, .slen, .ret]
  | rename => [.pathname1, .len1, .len2, .ret]
  | trunct => []
  | setxattr | getxattr | listxattr | removexattr => [.ret]

def memberSlot (decl : StructDecl Field) (field : Field) : Option (Nat × Nat) :=
  (decl.member? field).map fun member => (member.offset, member.type.size)

/-- Two declarations that agree in size and place the given members alike. -/
def SameLayout (first second : StructDecl Field) (fields : List Field) : Prop :=
  first.sizeof = second.sizeof ∧
    ∀ field ∈ fields, (memberSlot first field).isSome ∧
      memberSlot first field = memberSlot second field

instance (first second : StructDecl Field) (fields : List Field) :
    Decidable (SameLayout first second fields) := by
  unfold SameLayout
  infer_instance

namespace TraceRecord

/-- What of the record lies on the page that `main` has read, when its first byte is the one
numbered `buf`. -/
def paged (record : TraceRecord) (buf : Nat) : List UInt8 :=
  record.bytes.take (replayPageSize - buf)

/-- Given the part of a page that this record takes, the parser hands the whole of the record,
once, to the handler of its operation, who reads it in the layout it was written in. -/
def ReachesItsHandler (handlers : ReturningHandlers State) (heap : Nat → Memory) (base buf : Nat)
    (around : Memory) (progress : Progress State) (record : TraceRecord) : Prop :=
  ∃ op, record.call.kind.handler = some op ∧
    SameLayout record.encoder.decl op.decl op.reads ∧ ∃ fuel final,
    trfsReadTfileBuf handlers.handle heap base (around.store buf (record.paged buf)) fuel buf
        (record.paged buf).length progress = .done 0 final ∧
      final.visits = progress.visits ++ [⟨base + buf, record.bytes, some op⟩]

/-- The kinds that the parser does not hand to a handler of their own. -/
def strayKinds : List OpKind := [.mknod, .setxattr, .getxattr, .listxattr, .removexattr]

/-- What the type byte selects.  A `mknod` is taken for a `close`. -/
def selected (kind : OpKind) : Option ReplayOp :=
  match kind with
  | .mknod => some .close
  | .setxattr | .getxattr | .listxattr | .removexattr => none
  | kind => kind.handler

theorem replayDispatch_rType (record : TraceRecord) :
    replayDispatch (record.memory 6) = selected record.call.kind := by
  have byte : (record.memory 6).toNat = record.encoder.rType.code := by
    have word := record.encoder.fill_rType record.rId record.heap
    simpa [Memory.word, Memory.load, wordValue, memory] using word
  rw [replayDispatch, byte, encoder]
  cases record.call <;> rfl

theorem typeByte (record : TraceRecord) : record.bytes.getD 6 0 = record.memory 6 := by
  have size := record.call.twenty_lt_byteSize
  have inside : 6 < record.bytes.length := by
    rw [length_bytes]
    omega
  rw [List.getD_eq_getElem _ _ inside]
  simp [bytes, Message.bytes, message]

theorem selected_eq_handler_iff {kind : OpKind} {op : ReplayOp}
    (handler : kind.handler = some op) : selected kind = some op ↔ kind ∉ strayKinds := by
  cases kind <;> simp_all [selected, OpKind.handler, strayKinds]

theorem encoder_decl (record : TraceRecord) : record.encoder.decl = record.call.kind.decl := by
  rw [encoder]
  cases record.call <;> rfl

/-- The encoder and the handler of an operation agree on the layout. -/
theorem sameLayout {kind : OpKind} {op : ReplayOp} (handler : kind.handler = some op) :
    SameLayout kind.decl op.decl op.reads := by
  cases kind <;> cases handler <;> decide

theorem sizeFieldFits_of_paged {record : TraceRecord} {buf : Nat}
    (whole : buf + record.call.byteSize ≤ replayPageSize) : record.call.SizeFieldFits := by
  rw [replayPageSize] at whole
  exact record.call.byteSize_lt_iff.mp (by omega)

theorem paged_of_whole {record : TraceRecord} {buf : Nat}
    (whole : buf + record.call.byteSize ≤ replayPageSize) : record.paged buf = record.bytes :=
  List.take_of_length_le (by rw [length_bytes]; omega)

section

variable (handlers : ReturningHandlers State) (heap : Nat → Memory) (base buf : Nat)
  (around : Memory) (progress : Progress State) (record : TraceRecord)

/-- A record that lies whole on a page is handled once, by what its type selects. -/
theorem trfsReadTfileBuf_whole_record (whole : buf + record.call.byteSize ≤ replayPageSize) :
    ∃ fuel final,
      trfsReadTfileBuf handlers.handle heap base (around.store buf (record.paged buf)) fuel buf
          (record.paged buf).length progress = .done 0 final ∧
        final.visits = progress.visits ++
          [⟨base + buf, record.bytes, selected record.call.kind⟩] := by
  have fits := sizeFieldFits_of_paged whole
  have placed := around.load_store_same buf record.bytes
  have file : FramedRecord.file [record.framed fits] = record.bytes := by
    simp [framed]
  rw [← file] at placed
  obtain ⟨final, visited, parsed⟩ :=
    trfsReadTfileBuf_whole heap base handlers [record.framed fits] placed progress
  rw [file] at parsed
  rw [paged_of_whole whole]
  refine ⟨_, final, parsed, ?_⟩
  rw [visited]
  simp only [FramedRecord.visits, FramedRecord.visit, FramedRecord.op, framed, typeByte,
    replayDispatch_rType]

variable {heap base buf around progress record}

/-- What the parser hands over as a whole record lies whole on the page, and the
handler is the one its type selects. -/
theorem of_handled {handle : Handlers State} {fuel : Nat} {final : Progress State}
    {op : Option ReplayOp}
    (parsed : (trfsReadTfileBuf handle heap base (around.store buf (record.paged buf)) fuel buf
      (record.paged buf).length progress).progress? = some final)
    (visited : final.visits = progress.visits ++ [⟨base + buf, record.bytes, op⟩]) :
    buf + record.call.byteSize ≤ replayPageSize ∧ selected record.call.kind = op := by
  obtain ⟨fits, same⟩ := roundVisit_of_visits heap _ _ handle parsed visited
  rw [roundVisit, Visit.mk.injEq] at same
  obtain ⟨-, loaded, dispatched⟩ := same
  have size := record.call.twenty_lt_byteSize
  have length := congrArg List.length loaded
  rw [Memory.length_load, length_bytes] at length
  have whole : buf + record.call.byteSize ≤ replayPageSize := by
    rw [length, paged, List.length_take, length_bytes] at fits
    omega
  refine ⟨whole, ?_⟩
  have inside : 6 < record.bytes.length := by
    rw [length_bytes]
    omega
  rw [loaded, ← Nat.zero_add 6, Memory.store_of_inside _ 0 record.bytes inside,
    ← List.getD_eq_getElem _ 0 inside, typeByte, replayDispatch_rType] at dispatched
  exact dispatched

variable (heap base buf around progress record)

/-- A record reaches its handler exactly when it is of a kind that the parser
knows and lies whole on a page. -/
theorem reachesItsHandler_iff :
    record.ReachesItsHandler handlers heap base buf around progress ↔
      record.call.kind ∉ strayKinds ∧ buf + record.call.byteSize ≤ replayPageSize := by
  constructor
  · rintro ⟨op, handler, -, fuel, final, parsed, visited⟩
    obtain ⟨whole, chosen⟩ := of_handled (congrArg Parsed.progress? parsed) visited
    exact ⟨(selected_eq_handler_iff handler).mp chosen, whole⟩
  · rintro ⟨known, whole⟩
    obtain ⟨op, handler⟩ : ∃ op, record.call.kind.handler = some op := by
      apply Option.ne_none_iff_exists'.mp
      intro absent
      revert known absent
      cases record.call.kind <;> decide
    obtain ⟨fuel, final, parsed, visited⟩ :=
      record.trfsReadTfileBuf_whole_record handlers heap base buf around progress whole
    rw [(selected_eq_handler_iff handler).mpr known] at visited
    exact ⟨op, handler, record.encoder_decl ▸ sameLayout handler, fuel, final, parsed, visited⟩

end

def mknodRecord : TraceRecord where
  call := .mknod Name.a 0
  pid := 1
  rId := 2
  heap := fun _ => 0

/-- It is handed to the handler of `close`. -/
theorem not_reachesItsHandler_mknodRecord :
    (∃ fuel final,
      trfsReadTfileBuf idleHandlers.handle (fun _ _ => 0) 0
          (Memory.store (fun _ => 0) 0 (mknodRecord.paged 0)) fuel 0 (mknodRecord.paged 0).length
          ⟨(), []⟩ =
        .done 0 final ∧ final.visits = [⟨0, mknodRecord.bytes, some .close⟩]) ∧
      ¬ mknodRecord.ReachesItsHandler idleHandlers (fun _ _ => 0) 0 0 (fun _ => 0) ⟨(), []⟩ := by
  constructor
  · exact mknodRecord.trfsReadTfileBuf_whole_record idleHandlers (fun _ _ => 0) 0 0 (fun _ => 0)
      ⟨(), []⟩ (by decide)
  · rintro ⟨op, handler, -⟩
    cases handler

end TraceRecord

end Tracefs
