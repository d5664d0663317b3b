import Tracefs.Replay.Dispatch
import Tracefs.Replay.Names

/-!
# What it means to replay a call

`TracedCall.replay` says what treplay does for a traced call in terms of the call: no page, no
record and no layout occur in it.  The handler that a record selects does just that, wherever the
record lies and whatever surrounds it.
-/

namespace Tracefs

open Bytes

namespace TracedCall

/-- The effect of replaying a call that the task `pid` made.  Of the new name of a link as much is
left as the old name is long; the old name of a rename ends where the local array happens to hold a
zero.  A read that returns more than its buffer holds, and a target that does not fit its array,
have no defined effect.  No handler is selected for the extended attributes.  A `mknod` has no
meaning of its own: its record is read as that of a `close`. -/
def replay (env : Environment) (gflags : Nat) (pid : BitVec 32) (state : Replay) :
    TracedCall → Outcome Replay
  | openFile name flags mode file _ =>
      let called := state.call env (.openFile (some name.text) flags.toInt mode.toNat)
      .returned { called.2 with
        omap := trfsOmapAddOp called.2.omap ⟨called.1, file.toNat, pid.toInt⟩ }
  | read _ count _ file ret =>
      let fd := trfsOmapGetfd state.omap file.toNat pid.toInt
      if env.ReadFits state.calls.length fd count.toNat then
        runCompared env gflags (.read fd count.toNat) ret.toNat state
      else .fault
  | write _ buf _ file _ =>
      let called := state.call env
        (.write (trfsOmapGetfd state.omap file.toNat pid.toInt) buf.bytes)
      mapRetval gflags (called.1 % 2 ^ 64 = buf.bytes.length) called.2
  | close _ file _ =>
      let fd := trfsOmapGetfd state.omap file.toNat pid.toInt
      let omap := trfsOmapDeleteOp state.omap file.toNat pid.toInt
      .returned ({ state with omap }.call env (.close fd)).2
  | mkdir name mode ret =>
      runCompared env gflags (.mkdir (some name.text) mode.toNat) ret.toNat state
  | rmdir name ret => runCompared env gflags (.rmdir (some name.text)) ret.toNat state
  | unlink name ret => runCompared env gflags (.unlink (some name.text)) ret.toNat state
  | link oldName newName ret =>
      runCompared env gflags
        (.link (some oldName.text) (some (newName.text.take oldName.text.length))) ret.toNat state
  | symlink name target ret =>
      if target.text.length < localSize then
        runCompared env gflags (.symlink (some target.text) (some name.text)) ret.toNat state
      else .fault
  | rename oldName newName ret =>
      runCompared env gflags
        (.rename (localPath ((env.p1 state.calls.length).store 0 oldName.text))
          (some newName.text)) ret.toNat state
  | mknod .. | setxattr .. | getxattr .. | listxattr .. | removexattr .. => .returned state

/-- The call as a system call, with a descriptor for the address of its file.  There is none for the
calls that treplay does not make again. -/
def callOn (descriptor : BitVec 64 → Int) : TracedCall → Option Syscall
  | openFile name flags mode _ _ => some (.openFile (some name.text) flags.toInt mode.toNat)
  | read _ count _ file _ => some (.read (descriptor file) count.toNat)
  | write _ buf _ file _ => some (.write (descriptor file) buf.bytes)
  | close _ file _ => some (.close (descriptor file))
  | mkdir name mode _ => some (.mkdir (some name.text) mode.toNat)
  | rmdir name _ => some (.rmdir (some name.text))
  | unlink name _ => some (.unlink (some name.text))
  | link oldName newName _ => some (.link (some oldName.text) (some newName.text))
  | symlink name target _ => some (.symlink (some target.text) (some name.text))
  | rename oldName newName _ => some (.rename (some oldName.text) (some newName.text))
  | mknod .. | setxattr .. | getxattr .. | listxattr .. | removexattr .. => none

/-- The system call that treplay makes when the names survive. -/
def issued (pid : BitVec 32) (omap : List OmapNode) (call : TracedCall) : Option Syscall :=
  call.callOn fun file => trfsOmapGetfd omap file.toNat pid.toInt

/-- What comes out of the comparison with the result of the call, where there is one. -/
def verdict (answer : Int) : TracedCall → Option Bool
  | openFile .. | close .. => none
  | write _ buf _ _ _ => some (toInt32 answer % 2 ^ 64 = buf.bytes.length)
  | call => some (toInt32 answer = toInt32 call.ret.toNat)

def omapAfter (pid : BitVec 32) (answer : Int) (omap : List OmapNode) :
    TracedCall → List OmapNode
  | openFile _ _ _ file _ => trfsOmapAddOp omap ⟨toInt32 answer, file.toNat, pid.toInt⟩
  | close _ file _ => trfsOmapDeleteOp omap file.toNat pid.toInt
  | _ => omap

end TracedCall

/-- `MAP_RETVAL`, where there is one. -/
def settle (gflags : Nat) (verdict : Option Bool) (state : Replay) : Outcome Replay :=
  match verdict with
  | none => .returned state
  | some same => mapRetval gflags same state

/-- Replaying a call whose names survive and whose bytes have room, in one piece: one system call,
the list of descriptors kept up to date, and the comparison. -/
theorem TracedCall.replay_eq_settle {call : TracedCall} {env : Environment} {state : Replay}
    (gflags : Nat) {pid : BitVec 32} {syscall : Syscall}
    (issued : call.issued pid state.omap = some syscall)
    (survive : NamesSurvive (env.p1 state.calls.length) call)
    (room : ∀ fd count, syscall = .read fd count → env.ReadFits state.calls.length fd count) :
    call.replay env gflags pid state =
      settle gflags (call.verdict (env.answer state.calls.length syscall))
        { state with
          omap := call.omapAfter pid (env.answer state.calls.length syscall) state.omap
          calls := state.calls ++ [syscall] } := by
  cases call with
  | openFile | write | close | mkdir | rmdir | unlink =>
      cases issued
      rfl
  | read name count ppos file ret =>
      cases issued
      simp only [replay, if_pos (room _ _ rfl)]
      rfl
  | link oldName newName ret =>
      cases issued
      have whole : newName.text.take oldName.text.length = newName.text :=
        List.take_of_length_le survive
      rw [replay, whole]
      rfl
  | symlink name target ret =>
      cases issued
      have short : target.text.length < localSize := survive
      rw [replay, if_pos short]
      rfl
  | rename oldName newName ret =>
      cases issued
      have path := (localPath_store_iff (env.p1 state.calls.length) oldName.clean
        oldName.length_lt_localSize).mpr survive
      rw [replay, path]
      rfl
  | mknod | setxattr | getxattr | listxattr | removexattr => cases issued

/-- A record that the parser takes for what it is: its size fits the size field, and it is not a
`mknod`. -/
structure ReplayableRecord where
  record : TraceRecord
  fits : record.call.SizeFieldFits
  known : record.call.kind ≠ .mknod

namespace ReplayableRecord

def framed (replayable : ReplayableRecord) : FramedRecord :=
  replayable.record.framed replayable.fits

def replay (env : Environment) (gflags : Nat) (replayable : ReplayableRecord) (state : Replay) :
    Outcome Replay :=
  replayable.record.call.replay env gflags replayable.record.pid state

end ReplayableRecord

/-- What the parser does for a record that selects `op`. -/
def runSelected {State : Type} (handle : Handlers State) (op : Option ReplayOp) (page : Memory)
    (buf : Nat) (state : State) : Outcome State :=
  match op with
  | none => .returned state
  | some op => handle op page buf state

/-- A terminated copy of `count` bytes shows as much of a string. -/
theorem localPath_cut (array page : Memory) {start count : Nat} {text : List UInt8}
    (short : count < localSize) (clean : 0 ∉ text)
    (cut : count < text.length → page.load start count = text.take count)
    (whole : text.length ≤ count → page.CStringAt start text) :
    localPath ((array.store 0 (page.load start count)).store count [0]) =
      some (text.take count) := by
  rcases Nat.lt_or_ge count text.length with long | fits
  · have length : (text.take count).length = count := List.length_take_of_le long.le
    have cleanPart : 0 ∉ text.take count := fun zero => clean (List.mem_of_mem_take zero)
    have shown := localPath_terminated array cleanPart (length.trans_lt short)
    rw [length] at shown
    rw [cut long]
    exact shown
  · rw [List.take_of_length_le fits]
    exact (localPath_cut_iff array page short whole).mpr fits

section Handlers

variable (env : Environment) (gflags : Nat) (around : Memory) (op : Nat) (state : Replay)
  (pid rId : BitVec 32) (heap : Memory) (ret : BitVec 32)

theorem trfsRunLinkOp_onPage (oldName newName : Name) :
    trfsRunLinkOp env gflags
        (TraceRecord.onPage ⟨.link oldName newName ret, pid, rId, heap⟩ around op) op state =
      TracedCall.replay env gflags pid state (.link oldName newName ret) := by
  obtain ⟨-, -, -, oldHeld, newHeld⟩ := trfsLogLinkOp_holds ret rId heap oldName newName
  obtain ⟨plen, hlen, retRead⟩ := linkMembers_onPage around op pid rId heap ret oldName newName
  have fits := oldName.length_lt_localSize
  have offset : Userland.trfsLinkOp.offsetOf .pathname = 20 := rfl
  have oldInside : 20 + oldName.text.length ≤
      24 + oldName.text.length + oldName.text.length := by
    omega
  have oldAt := (TraceRecord.load_onPage ⟨.link oldName newName ret, pid, rId, heap⟩ around op
    oldInside).trans oldHeld
  simp only [trfsRunLinkOp, plen, hlen, retRead, offset, unpackNames_of_fits _ _ _ _ fits fits,
    oldAt, localPath_terminated _ oldName.clean fits, TracedCall.replay]
  rw [localPath_cut _ _ fits newName.clean]
  · intro longer
    have inside : 20 + oldName.text.length + oldName.text.length ≤
        24 + oldName.text.length + oldName.text.length := by
      omega
    rw [Nat.add_assoc, TraceRecord.load_onPage _ _ _ inside]
    have start := Memory.take_load (Encoder.fill (trfsLogLinkOp oldName newName ret) rId heap)
      (20 + oldName.text.length) newName.text.length oldName.text.length longer.le
    rw [newHeld.1] at start
    exact start.symm
  · intro shorter
    have inside : 20 + oldName.text.length + newName.text.length <
        24 + oldName.text.length + oldName.text.length := by
      omega
    rw [Nat.add_assoc]
    exact (TraceRecord.cStringAt_onPage _ _ _ inside).mpr newHeld

theorem trfsRunSymlinkOp_onPage (name : Name) (target : LinkTarget) :
    trfsRunSymlinkOp env gflags
        (TraceRecord.onPage ⟨.symlink name target ret, pid, rId, heap⟩ around op) op state =
      TracedCall.replay env gflags pid state (.symlink name target ret) := by
  obtain ⟨-, -, -, nameHeld, targetHeld, -⟩ := trfsLogSymlinkOp_holds ret rId heap name target
  obtain ⟨plen, slen, retRead⟩ := symlinkMembers_onPage around op pid rId heap ret name target
  have nameFits := name.length_lt_localSize
  have offset : Userland.trfsSymlinkOp.offsetOf .pathname = 20 := rfl
  have nameInside : 20 + name.text.length ≤ 24 + name.text.length + target.text.length := by
    omega
  have targetInside : 20 + name.text.length + target.text.length ≤
      24 + name.text.length + target.text.length := by
    omega
  have nameAt := (TraceRecord.load_onPage ⟨.symlink name target ret, pid, rId, heap⟩ around op
    nameInside).trans nameHeld
  have targetAt := (TraceRecord.load_onPage ⟨.symlink name target ret, pid, rId, heap⟩ around op
    targetInside).trans targetHeld
  rw [← Nat.add_assoc] at targetAt
  rcases Nat.lt_or_ge target.text.length localSize with targetFits | long
  · simp only [trfsRunSymlinkOp, plen, slen, retRead, offset,
      unpackNames_of_fits _ _ _ _ nameFits targetFits, nameAt, targetAt,
      localPath_terminated _ name.clean nameFits, localPath_terminated _ target.clean targetFits,
      TracedCall.replay, if_pos targetFits]
  · simp only [trfsRunSymlinkOp, plen, slen, unpackNames_of_long _ _ _ _ long, TracedCall.replay,
      if_neg (Nat.not_lt.mpr long)]

theorem trfsRunRenameOp_onPage (oldName newName : Name) :
    trfsRunRenameOp env gflags
        (TraceRecord.onPage ⟨.rename oldName newName ret, pid, rId, heap⟩ around op) op state =
      TracedCall.replay env gflags pid state (.rename oldName newName ret) := by
  obtain ⟨-, -, -, oldHeld, newHeld, -⟩ := trfsLogRenameOp_holds ret rId heap oldName newName
  obtain ⟨len1, len2, retRead⟩ := renameMembers_onPage around op pid rId heap ret oldName newName
  have oldFits := oldName.length_lt_localSize
  have newFits := newName.length_lt_localSize
  have offset : Userland.trfsRenameOp.offsetOf .pathname1 = 20 := rfl
  have oldInside : 20 + oldName.text.length ≤
      24 + oldName.text.length + newName.text.length := by
    omega
  have newInside : 20 + oldName.text.length + newName.text.length ≤
      24 + oldName.text.length + newName.text.length := by
    omega
  have oldAt := (TraceRecord.load_onPage ⟨.rename oldName newName ret, pid, rId, heap⟩ around op
    oldInside).trans oldHeld
  have newAt := (TraceRecord.load_onPage ⟨.rename oldName newName ret, pid, rId, heap⟩ around op
    newInside).trans newHeld
  rw [← Nat.add_assoc] at newAt
  simp only [trfsRunRenameOp, len1, len2, retRead, offset,
    unpackRename_of_fits _ _ _ _ oldFits newFits, oldAt, newAt,
    localPath_terminated _ newName.clean newFits, TracedCall.replay]

end Handlers

/-- The record of a call makes its handler do what the call means. -/
theorem TraceRecord.run_onPage (record : TraceRecord) (known : record.call.kind ≠ .mknod)
    (env : Environment) (gflags : Nat) (around : Memory) (op : Nat) (state : Replay) :
    runSelected (ReplayOp.run env gflags) (selected record.call.kind) (record.onPage around op) op
      state = record.call.replay env gflags record.pid state := by
  have reads := readsBack_record record around op
  obtain ⟨call, pid, rId, heap⟩ := record
  cases call with
  | openFile name flags mode file ret =>
      obtain ⟨path, flagsRead, modeRead, pidRead, addrRead, -⟩ := reads
      simp only [runSelected, selected, OpKind.handler, TracedCall.kind, ReplayOp.run,
        trfsRunOpenOp, path, flagsRead, modeRead, pidRead, addrRead, TracedCall.replay,
        toInt32_toNat]
  | read name count ppos file ret =>
      obtain ⟨pidRead, addrRead, countRead, retRead⟩ := reads
      simp only [runSelected, selected, OpKind.handler, TracedCall.kind, ReplayOp.run,
        trfsRunReadOp, pidRead, addrRead, countRead, retRead, TracedCall.replay, toInt32_toNat]
  | write name buf ppos file ret =>
      obtain ⟨pidRead, addrRead, countRead, -, data⟩ := reads
      simp only [runSelected, selected, OpKind.handler, TracedCall.kind, ReplayOp.run,
        trfsRunWriteOp, data]
      simp only [pidRead, addrRead, countRead, TracedCall.replay, toInt32_toNat]
  | close name file ret =>
      obtain ⟨pidRead, addrRead, -⟩ := reads
      simp only [runSelected, selected, OpKind.handler, TracedCall.kind, ReplayOp.run,
        trfsRunCloseOp, pidRead, addrRead, TracedCall.replay, toInt32_toNat]
  | mkdir name mode ret =>
      obtain ⟨path, modeRead, retRead⟩ := reads
      simp only [runSelected, selected, OpKind.handler, TracedCall.kind, ReplayOp.run,
        trfsRunMkdirOp, path, modeRead, retRead, TracedCall.replay]
  | rmdir name ret =>
      obtain ⟨path, retRead⟩ := reads
      simp only [runSelected, selected, OpKind.handler, TracedCall.kind, ReplayOp.run,
        trfsRunRmdirOp, path, retRead, TracedCall.replay]
  | unlink name ret =>
      obtain ⟨path, retRead⟩ := reads
      simp only [runSelected, selected, OpKind.handler, TracedCall.kind, ReplayOp.run,
        trfsRunUnlinkOp, path, retRead, TracedCall.replay]
  | link oldName newName ret =>
      exact trfsRunLinkOp_onPage env gflags around op state pid rId heap ret oldName newName
  | symlink name target ret =>
      exact trfsRunSymlinkOp_onPage env gflags around op state pid rId heap ret name target
  | rename oldName newName ret =>
      exact trfsRunRenameOp_onPage env gflags around op state pid rId heap ret oldName newName
  | mknod => exact absurd rfl known
  | setxattr | getxattr | listxattr | removexattr => rfl

/-- A page that holds a record at `op` is that record put on the page. -/
theorem TraceRecord.onPage_of_placed {record : TraceRecord} {page : Memory} {op : Nat}
    (placed : page.load op record.bytes.length = record.bytes) : record.onPage page op = page := by
  funext address
  rw [onPage]
  by_cases inside : op ≤ address ∧ address < op + record.bytes.length
  · obtain ⟨index, rfl⟩ := Nat.exists_eq_add_of_le inside.1
    have short : index < record.bytes.length := Nat.lt_of_add_lt_add_left inside.2
    rw [Memory.store_of_inside _ _ _ short, List.getElem_of_eq placed.symm short,
      Memory.getElem_load]
  · exact Memory.store_of_outside _ _ _ (by omega)

/-- Wherever a record lies on a page, what it selects does what its call means. -/
theorem ReplayableRecord.runSelected_framed (replayable : ReplayableRecord) (env : Environment)
    (gflags : Nat) (page : Memory) (buf : Nat) (state : Replay)
    (placed : page.load buf replayable.framed.bytes.length = replayable.framed.bytes) :
    runSelected (ReplayOp.run env gflags) replayable.framed.op page buf state =
      replayable.replay env gflags state := by
  have run := replayable.record.run_onPage replayable.known env gflags page buf state
  rw [TraceRecord.onPage_of_placed placed, ← TraceRecord.replayDispatch_rType,
    ← TraceRecord.typeByte] at run
  exact run

end Tracefs
