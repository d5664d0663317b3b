import Tracefs.Replay.RoundTrip

/-!
# Calls with two names

The records of link, symlink and rename hold their names back to back.  The
handlers take them apart by two lengths, into local arrays whose old contents
are arbitrary.  Each of the three handlers loses a name in a way of its own.
-/

namespace Tracefs

open Bytes

/-- The calls made when a handler ends, if it has a defined end. -/
def Outcome.calls? : Outcome Replay → Option (List Syscall)
  | .returned state | .exited state => some state.calls
  | .fault => none

theorem calls?_mapRetval (gflags : Nat) (same : Bool) (state : Replay) :
    (mapRetval gflags same state).calls? = some state.calls := by
  rcases mapRetval_cases gflags same state with ended | ended <;> rw [ended] <;> rfl

theorem calls?_runCompared (env : Environment) (gflags : Nat) (syscall : Syscall) (recorded : Nat)
    (state : Replay) :
    (runCompared env gflags syscall recorded state).calls? = some (state.calls ++ [syscall]) := by
  rw [runCompared, calls?_mapRetval]
  rfl

section LocalArrays

theorem localPath_eq_some_iff (array : Memory) (text : List UInt8) :
    localPath array = some text ↔ text.length < localSize ∧ array.CStringAt 0 text :=
  Memory.cString_eq_some_iff array 0 localSize text

/-- A string copied without its terminator is one only if a zero was there before. -/
theorem localPath_store_iff (array : Memory) {text : List UInt8} (clean : 0 ∉ text)
    (short : text.length < localSize) :
    localPath (array.store 0 text) = some text ↔ array text.length = 0 := by
  rw [localPath_eq_some_iff, Memory.CStringAt, Memory.load_store_same, Nat.zero_add,
    Memory.store_of_outside array 0 text (by omega)]
  simp [short, clean]

theorem localPath_terminated (array : Memory) {text : List UInt8} (clean : 0 ∉ text)
    (short : text.length < localSize) :
    localPath ((array.store 0 text).store text.length [0]) = some text := by
  refine (localPath_eq_some_iff _ _).mpr ⟨short, ?_, clean, ?_⟩
  · rw [Memory.load_store_disjoint _ (.inl (by omega)), Memory.load_store_same]
  · simpa using Memory.store_of_inside _ text.length [0] (show 0 < 1 by decide)

/-- What a terminated copy of `count` bytes shows of a string: all of it, or not. -/
theorem localPath_cut_iff (array page : Memory) {start count : Nat} {text : List UInt8}
    (short : count < localSize) (placed : text.length ≤ count → page.CStringAt start text) :
    localPath ((array.store 0 (page.load start count)).store count [0]) = some text ↔
      text.length ≤ count := by
  have copied := array.load_store_same 0 (page.load start count)
  rw [Memory.length_load] at copied
  have ended : (array.store 0 (page.load start count)).store count [0] count = 0 :=
    Memory.store_of_inside _ count [0] (show 0 < 1 by decide)
  rw [localPath_eq_some_iff]
  constructor
  · rintro ⟨-, loaded, clean, -⟩
    by_contra! long
    -- the terminator would be a character of the text
    apply clean
    have character : text[count] = 0 := by
      rw [List.getElem_of_eq loaded.symm long, Memory.getElem_load, Nat.zero_add, ended]
    exact character ▸ List.getElem_mem long
  · intro fits
    obtain ⟨loaded, clean, zero⟩ := placed fits
    refine ⟨by omega, ?_, clean, ?_⟩
    · rw [Memory.load_store_disjoint _ (.inl (by omega))]
      have agree := Memory.load_within copied (show 0 + text.length ≤ count by omega)
      exact agree.trans loaded
    · rcases Nat.lt_or_eq_of_le fits with inside | equal
      · rw [Memory.store_of_outside _ _ _ (.inl (by omega)), Memory.apply_within copied inside,
          zero]
      · rw [Nat.zero_add, equal]
        exact ended

variable (page p1 p2 : Memory) (names : Nat) {first second : Nat}

theorem unpackNames_of_fits (firstFits : first < localSize) (secondFits : second < localSize) :
    unpackNames page p1 p2 names first second =
      some ((p1.store 0 (page.load names first)).store first [0],
        (p2.store 0 (page.load (names + first) second)).store second [0]) := by
  simp [unpackNames, copyLocal, terminateLocal, firstFits, secondFits, Nat.le_of_lt]

theorem unpackNames_of_long (long : localSize ≤ second) :
    unpackNames page p1 p2 names first second = none := by
  simp [unpackNames, terminateLocal, Nat.not_lt.mpr long]

theorem unpackRename_of_fits (firstFits : first < localSize) (secondFits : second < localSize) :
    unpackRename page p1 p2 names first second =
      some (p1.store 0 (page.load names first),
        (p2.store 0 (page.load (names + first) second)).store second [0]) := by
  simp [unpackRename, copyLocal, terminateLocal, firstFits, secondFits, Nat.le_of_lt]

end LocalArrays

/-- The handler of a call with two names makes that call, with the traced names
in their roles, and ends. -/
def NamesReplayed (env : Environment) (gflags : Nat) (page : Memory) (op : Nat) (state : Replay) :
    TracedCall → Prop
  | .link oldName newName _ =>
      (trfsRunLinkOp env gflags page op state).calls? =
        some (state.calls ++ [.link (some oldName.text) (some newName.text)])
  | .symlink name target _ =>
      (trfsRunSymlinkOp env gflags page op state).calls? =
        some (state.calls ++ [.symlink (some target.text) (some name.text)])
  | .rename oldName newName _ =>
      (trfsRunRenameOp env gflags page op state).calls? =
        some (state.calls ++ [.rename (some oldName.text) (some newName.text)])
  | _ => True

/-- What it takes: the record of a link holds the old length twice, the array for
the target of a symlink has 256 bytes, and the array for the old name of a rename
is not terminated. -/
def NamesSurvive (p1 : Memory) : TracedCall → Prop
  | .link oldName newName _ => newName.text.length ≤ oldName.text.length
  | .symlink _ target _ => target.text.length < localSize
  | .rename oldName _ _ => p1 oldName.text.length = 0
  | _ => True

theorem Name.length_lt_localSize (name : Name) : name.text.length < localSize :=
  Nat.lt_succ_of_le name.bounded

section Decoding

variable (env : Environment) (gflags : Nat) {page : Memory} {op : Nat} (state : Replay)

theorem trfsRunLinkOp_calls_iff {oldName newName : Name}
    (plen : Userland.trfsLinkOp.get page op .plen = oldName.text.length)
    (hlen : Userland.trfsLinkOp.get page op .hlen = oldName.text.length)
    (oldAt : page.load (op + 20) oldName.text.length = oldName.text)
    (newAt : newName.text.length ≤ oldName.text.length →
      page.CStringAt (op + 20 + oldName.text.length) newName.text) :
    (trfsRunLinkOp env gflags page op state).calls? =
        some (state.calls ++ [.link (some oldName.text) (some newName.text)]) ↔
      newName.text.length ≤ oldName.text.length := by
  have fits := oldName.length_lt_localSize
  have offset : Userland.trfsLinkOp.offsetOf .pathname = 20 := rfl
  simp only [trfsRunLinkOp, plen, hlen, offset, unpackNames_of_fits _ _ _ _ fits fits, oldAt,
    localPath_terminated _ oldName.clean fits, calls?_runCompared, Option.some.injEq,
    List.append_cancel_left_eq, List.cons.injEq, Syscall.link.injEq, true_and, and_true]
  exact localPath_cut_iff _ _ fits newAt

/-- With a long target the handler writes behind its array. -/
theorem trfsRunSymlinkOp_calls_iff {name : Name} {target : LinkTarget}
    (plen : Userland.trfsSymlinkOp.get page op .plen = name.text.length)
    (slen : Userland.trfsSymlinkOp.get page op .slen = target.text.length)
    (nameAt : page.load (op + 20) name.text.length = name.text)
    (targetAt : page.load (op + 20 + name.text.length) target.text.length = target.text) :
    (trfsRunSymlinkOp env gflags page op state).calls? =
        some (state.calls ++ [.symlink (some target.text) (some name.text)]) ↔
      target.text.length < localSize := by
  have nameFits := name.length_lt_localSize
  have offset : Userland.trfsSymlinkOp.offsetOf .pathname = 20 := rfl
  rcases Nat.lt_or_ge target.text.length localSize with targetFits | long
  · simp only [trfsRunSymlinkOp, plen, slen, offset,
      unpackNames_of_fits _ _ _ _ nameFits targetFits, nameAt, targetAt,
      localPath_terminated _ name.clean nameFits, localPath_terminated _ target.clean targetFits,
      calls?_runCompared, targetFits]
  · simp only [trfsRunSymlinkOp, plen, slen, unpackNames_of_long _ _ _ _ long, Outcome.calls?,
      reduceCtorEq, Nat.not_lt.mpr long]

/-- The old name ends where the array held a zero before. -/
theorem trfsRunRenameOp_calls_iff {oldName newName : Name}
    (len1 : Userland.trfsRenameOp.get page op .len1 = oldName.text.length)
    (len2 : Userland.trfsRenameOp.get page op .len2 = newName.text.length)
    (oldAt : page.load (op + 20) oldName.text.length = oldName.text)
    (newAt : page.load (op + 20 + oldName.text.length) newName.text.length = newName.text) :
    (trfsRunRenameOp env gflags page op state).calls? =
        some (state.calls ++ [.rename (some oldName.text) (some newName.text)]) ↔
      env.p1 state.calls.length oldName.text.length = 0 := by
  have oldFits := oldName.length_lt_localSize
  have newFits := newName.length_lt_localSize
  have offset : Userland.trfsRenameOp.offsetOf .pathname1 = 20 := rfl
  simp only [trfsRunRenameOp, len1, len2, offset, unpackRename_of_fits _ _ _ _ oldFits newFits,
    oldAt, newAt, localPath_terminated _ newName.clean newFits, calls?_runCompared,
    Option.some.injEq, List.append_cancel_left_eq, List.cons.injEq, Syscall.rename.injEq, and_true]
  exact localPath_store_iff _ oldName.clean oldFits

end Decoding

section Records

variable (env : Environment) (gflags : Nat) (around : Memory) (op : Nat) (state : Replay)
  (pid rId : BitVec 32) (heap : Memory) (ret : BitVec 32)

/-- The lengths and the result in the record of a link; both lengths are the old name's. -/
theorem linkMembers_onPage (oldName newName : Name) :
    let page := TraceRecord.onPage ⟨.link oldName newName ret, pid, rId, heap⟩ around op
    Userland.trfsLinkOp.get page op .plen = oldName.text.length ∧
      Userland.trfsLinkOp.get page op .hlen = oldName.text.length ∧
      Userland.trfsLinkOp.get page op .ret = ret.toNat := by
  obtain ⟨retHeld, plenHeld, hlenHeld, -, -⟩ := trfsLogLinkOp_holds ret rId heap oldName newName
  have fixed {offset : Nat} (bound : offset ≤ 24) :
      offset ≤ 24 + oldName.text.length + oldName.text.length := by
    omega
  exact ⟨get_onPage (fixed (by decide)) plenHeld, get_onPage (fixed (by decide)) hlenHeld,
    get_onPage (fixed (by decide)) retHeld⟩

theorem symlinkMembers_onPage (name : Name) (target : LinkTarget) :
    let page := TraceRecord.onPage ⟨.symlink name target ret, pid, rId, heap⟩ around op
    Userland.trfsSymlinkOp.get page op .plen = name.text.length ∧
      Userland.trfsSymlinkOp.get page op .slen = target.text.length ∧
      Userland.trfsSymlinkOp.get page op .ret = ret.toNat := by
  obtain ⟨retHeld, plenHeld, slenHeld, -, -⟩ := trfsLogSymlinkOp_holds ret rId heap name target
  have fixed {offset : Nat} (bound : offset ≤ 24) :
      offset ≤ 24 + name.text.length + target.text.length := by
    omega
  exact ⟨get_onPage (fixed (by decide)) plenHeld, get_onPage (fixed (by decide)) slenHeld,
    get_onPage (fixed (by decide)) retHeld⟩

theorem renameMembers_onPage (oldName newName : Name) :
    let page := TraceRecord.onPage ⟨.rename oldName newName ret, pid, rId, heap⟩ around op
    Userland.trfsRenameOp.get page op .len1 = oldName.text.length ∧
      Userland.trfsRenameOp.get page op .len2 = newName.text.length ∧
      Userland.trfsRenameOp.get page op .ret = ret.toNat := by
  obtain ⟨retHeld, len1Held, len2Held, -, -⟩ := trfsLogRenameOp_holds ret rId heap oldName newName
  have fixed {offset : Nat} (bound : offset ≤ 24) :
      offset ≤ 24 + oldName.text.length + newName.text.length := by
    omega
  exact ⟨get_onPage (fixed (by decide)) len1Held, get_onPage (fixed (by decide)) len2Held,
    get_onPage (fixed (by decide)) retHeld⟩

theorem namesReplayed_link_iff (oldName newName : Name) :
    NamesReplayed env gflags
        (TraceRecord.onPage ⟨.link oldName newName ret, pid, rId, heap⟩ around op) op state
        (.link oldName newName ret) ↔ newName.text.length ≤ oldName.text.length := by
  obtain ⟨-, -, -, oldHeld, newHeld⟩ := trfsLogLinkOp_holds ret rId heap oldName newName
  obtain ⟨plen, hlen, -⟩ := linkMembers_onPage around op pid rId heap ret oldName newName
  have oldInside : 20 + oldName.text.length ≤
      24 + oldName.text.length + oldName.text.length := by
    omega
  refine trfsRunLinkOp_calls_iff env gflags state plen hlen
    ((TraceRecord.load_onPage _ _ _ oldInside).trans oldHeld) ?_
  -- a longer new name may leave the record; a shorter one does not
  intro fits
  have newInside : 20 + oldName.text.length + newName.text.length <
      24 + oldName.text.length + oldName.text.length := by
    omega
  rw [Nat.add_assoc]
  exact (TraceRecord.cStringAt_onPage _ _ _ newInside).mpr newHeld

theorem namesReplayed_symlink_iff (name : Name) (target : LinkTarget) :
    NamesReplayed env gflags
        (TraceRecord.onPage ⟨.symlink name target ret, pid, rId, heap⟩ around op) op state
        (.symlink name target ret) ↔ target.text.length < localSize := by
  obtain ⟨-, -, -, nameHeld, targetHeld, -⟩ := trfsLogSymlinkOp_holds ret rId heap name target
  obtain ⟨plen, slen, -⟩ := symlinkMembers_onPage around op pid rId heap ret name target
  have nameInside : 20 + name.text.length ≤ 24 + name.text.length + target.text.length := by
    omega
  have targetInside : 20 + name.text.length + target.text.length ≤
      24 + name.text.length + target.text.length := by
    omega
  refine trfsRunSymlinkOp_calls_iff env gflags state plen slen
    ((TraceRecord.load_onPage _ _ _ nameInside).trans nameHeld) ?_
  rw [Nat.add_assoc]
  exact (TraceRecord.load_onPage _ _ _ targetInside).trans targetHeld

theorem namesReplayed_rename_iff (oldName newName : Name) :
    NamesReplayed env gflags
        (TraceRecord.onPage ⟨.rename oldName newName ret, pid, rId, heap⟩ around op) op state
        (.rename oldName newName ret) ↔ env.p1 state.calls.length oldName.text.length = 0 := by
  obtain ⟨-, -, -, oldHeld, newHeld, -⟩ := trfsLogRenameOp_holds ret rId heap oldName newName
  obtain ⟨len1, len2, -⟩ := renameMembers_onPage around op pid rId heap ret oldName newName
  have oldInside : 20 + oldName.text.length ≤
      24 + oldName.text.length + newName.text.length := by
    omega
  have newInside : 20 + oldName.text.length + newName.text.length ≤
      24 + oldName.text.length + newName.text.length := by
    omega
  refine trfsRunRenameOp_calls_iff env gflags state len1 len2
    ((TraceRecord.load_onPage _ _ _ oldInside).trans oldHeld) ?_
  rw [Nat.add_assoc]
  exact (TraceRecord.load_onPage _ _ _ newInside).trans newHeld

end Records

/-- The call is replayed with its names exactly when they survive the lengths
and the local arrays. -/
theorem namesReplayed_iff (record : TraceRecord) (env : Environment) (gflags : Nat)
    (around : Memory) (op : Nat) (state : Replay) :
    NamesReplayed env gflags (record.onPage around op) op state record.call ↔
      NamesSurvive (env.p1 state.calls.length) record.call := by
  obtain ⟨call, pid, rId, heap⟩ := record
  cases call with
  | link oldName newName ret =>
      exact namesReplayed_link_iff env gflags around op state pid rId heap ret oldName newName
  | symlink name target ret =>
      exact namesReplayed_symlink_iff env gflags around op state pid rId heap ret name target
  | rename oldName newName ret =>
      exact namesReplayed_rename_iff env gflags around op state pid rId heap ret oldName newName
  | openFile | read | write | close | mkdir | rmdir | unlink | mknod | setxattr | getxattr
  | listxattr | removexattr => exact Iff.rfl

/-- The record of linking `bb` to `a`: the new name is the longer one. -/
def longLinkRecord : TraceRecord where
  call := .link Name.a ⟨[98, 98], by decide, by decide, by decide⟩ 0
  pid := 1
  rId := 2
  heap := fun _ => 0

/-- A system that answers 0 to everything, with zeroed local arrays. -/
def zeroedEnvironment : Environment where
  answer := fun _ _ => 0
  p1 := fun _ _ => 0
  p2 := fun _ _ => 0

/-- It is replayed as a link to `b`. -/
theorem not_namesReplayed_longLinkRecord :
    (trfsRunLinkOp zeroedEnvironment 0 (longLinkRecord.onPage (fun _ => 0) 0) 0
        ⟨[], [], []⟩).calls? = some [.link (some [97]) (some [98])] ∧
      ¬ NamesReplayed zeroedEnvironment 0 (longLinkRecord.onPage (fun _ => 0) 0) 0 ⟨[], [], []⟩
        longLinkRecord.call := by
  have replayed : (trfsRunLinkOp zeroedEnvironment 0 (longLinkRecord.onPage (fun _ => 0) 0) 0
      ⟨[], [], []⟩).calls? = some [.link (some [97]) (some [98])] := by
    decide +kernel
  refine ⟨replayed, fun traced => ?_⟩
  exact absurd (replayed.symm.trans traced) (by decide)

end Tracefs
