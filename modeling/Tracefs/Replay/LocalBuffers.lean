import Tracefs.Replay.Names

/-!
# The local buffers of the handlers

The handlers of link, symlink and rename copy the names into arrays of 256 bytes, and the handler
of read hands an array of `MAX_BYTES` bytes to the system together with the recorded count.  None
of them looks at a length first.  Names always fit; the target of a symbolic link and the count of
a read need not.
-/

namespace Tracefs

open Bytes

/-- The handler of a record asks for no more than its buffer holds, and copies and terminates
inside its arrays. -/
def StaysInBuffers (env : Environment) (gflags : Nat) (page : Memory) (op : Nat) (state : Replay) :
    TracedCall → Prop
  | .read .. => ∃ fd count, count ≤ maxBytes ∧
      (trfsRunReadOp env gflags page op state).calls? = some (state.calls ++ [.read fd count])
  | .link .. => (trfsRunLinkOp env gflags page op state).calls?.isSome
  | .symlink .. => (trfsRunSymlinkOp env gflags page op state).calls?.isSome
  | .rename .. => (trfsRunRenameOp env gflags page op state).calls?.isSome
  | _ => True

def FitsBuffers : TracedCall → Prop
  | .read _ count .. => count.toNat ≤ maxBytes
  | .symlink _ target _ => target.text.length < localSize
  | _ => True

section Handlers

variable (env : Environment) (gflags : Nat) {page : Memory} {op : Nat} (state : Replay)

/-- A read within the buffer is made, whatever the system answers. -/
theorem trfsRunReadOp_of_fits (fits : Userland.trfsReadOp.get page op .count ≤ maxBytes) :
    ∃ fd, (trfsRunReadOp env gflags page op state).calls? =
      some (state.calls ++ [.read fd (Userland.trfsReadOp.get page op .count)]) := by
  rw [trfsRunReadOp, if_pos (env.readFits_of_count _ _ fits)]
  exact ⟨_, calls?_runCompared ..⟩

/-- No other read is made. -/
theorem count_of_trfsRunReadOp {fd : Int} {count : Nat}
    (made : (trfsRunReadOp env gflags page op state).calls? =
      some (state.calls ++ [.read fd count])) :
    Userland.trfsReadOp.get page op .count = count := by
  rw [trfsRunReadOp] at made
  split at made
  · rw [calls?_runCompared] at made
    simp only [Option.some.injEq, List.append_cancel_left_eq, List.cons.injEq,
      Syscall.read.injEq, and_true] at made
    exact made.2
  · cases made

theorem trfsRunLinkOp_of_fits (plen : Userland.trfsLinkOp.get page op .plen < localSize)
    (hlen : Userland.trfsLinkOp.get page op .hlen < localSize) :
    (trfsRunLinkOp env gflags page op state).calls?.isSome := by
  simp only [trfsRunLinkOp, unpackNames_of_fits _ _ _ _ plen hlen, calls?_runCompared,
    Option.isSome_some]

theorem trfsRunRenameOp_of_fits (len1 : Userland.trfsRenameOp.get page op .len1 < localSize)
    (len2 : Userland.trfsRenameOp.get page op .len2 < localSize) :
    (trfsRunRenameOp env gflags page op state).calls?.isSome := by
  simp only [trfsRunRenameOp, unpackRename_of_fits _ _ _ _ len1 len2, calls?_runCompared,
    Option.isSome_some]

/-- The terminator of a long target is stored behind the array. -/
theorem trfsRunSymlinkOp_of_long (slen : localSize ≤ Userland.trfsSymlinkOp.get page op .slen) :
    trfsRunSymlinkOp env gflags page op state = .fault := by
  simp only [trfsRunSymlinkOp, unpackNames_of_long _ _ _ _ slen]

theorem trfsRunSymlinkOp_isSome_iff (plen : Userland.trfsSymlinkOp.get page op .plen < localSize) :
    (trfsRunSymlinkOp env gflags page op state).calls?.isSome ↔
      Userland.trfsSymlinkOp.get page op .slen < localSize := by
  rcases Nat.lt_or_ge (Userland.trfsSymlinkOp.get page op .slen) localSize with fits | long
  · simp only [trfsRunSymlinkOp, unpackNames_of_fits _ _ _ _ plen fits, calls?_runCompared,
      Option.isSome_some, fits]
  · simp only [trfsRunSymlinkOp_of_long env gflags state long, Outcome.calls?, Option.isSome_none,
      Bool.false_eq_true, Nat.not_lt.mpr long]

end Handlers

/-- The handlers stay inside their buffers exactly on the records whose read count and whose link
target fit. -/
theorem staysInBuffers_iff (record : TraceRecord) (env : Environment) (gflags : Nat)
    (around : Memory) (op : Nat) (state : Replay) :
    StaysInBuffers env gflags (record.onPage around op) op state record.call ↔
      FitsBuffers record.call := by
  obtain ⟨call, pid, rId, heap⟩ := record
  cases call with
  | read name count ppos file ret =>
      obtain ⟨-, -, countHeld, -⟩ :=
        readsBack_read pid rId heap around op name file ret count ppos
      constructor
      · rintro ⟨fd, asked, bounded, made⟩
        have same := count_of_trfsRunReadOp env gflags state made
        rw [countHeld] at same
        exact same.trans_le bounded
      · intro fits
        obtain ⟨fd, made⟩ := trfsRunReadOp_of_fits env gflags state (countHeld.trans_le fits)
        exact ⟨fd, _, countHeld.trans_le fits, made⟩
  | link oldName newName ret =>
      obtain ⟨plen, hlen, -⟩ := linkMembers_onPage around op pid rId heap ret oldName newName
      have fits := oldName.length_lt_localSize
      exact iff_of_true
        (trfsRunLinkOp_of_fits env gflags state (plen.symm ▸ fits) (hlen.symm ▸ fits)) trivial
  | rename oldName newName ret =>
      obtain ⟨len1, len2, -⟩ := renameMembers_onPage around op pid rId heap ret oldName newName
      exact iff_of_true (trfsRunRenameOp_of_fits env gflags state
        (len1.symm ▸ oldName.length_lt_localSize) (len2.symm ▸ newName.length_lt_localSize)) trivial
  | symlink name target ret =>
      obtain ⟨plen, slen, -⟩ := symlinkMembers_onPage around op pid rId heap ret name target
      have decided := trfsRunSymlinkOp_isSome_iff env gflags state
        (plen.symm ▸ name.length_lt_localSize)
      rwa [slen] at decided
  | _ => exact Iff.rfl

/-- A read of 8192 bytes from the file `a`, as the program of the test directory makes it. -/
def sampleRead : TraceRecord where
  call := .read Name.a 8192 0 0 0
  pid := 1
  rId := 2
  heap := fun _ => 0

/-- It is replayed with 8192 bytes into a buffer of 4096. -/
theorem not_staysInBuffers_sampleRead :
    (trfsRunReadOp zeroedEnvironment 0 (sampleRead.onPage (fun _ => 0) 0) 0 ⟨[], [], []⟩).calls? =
        some [.read (-1) 8192] ∧
      ¬ StaysInBuffers zeroedEnvironment 0 (sampleRead.onPage (fun _ => 0) 0) 0 ⟨[], [], []⟩
        sampleRead.call := by
  have replayed : (trfsRunReadOp zeroedEnvironment 0 (sampleRead.onPage (fun _ => 0) 0) 0
      ⟨[], [], []⟩).calls? = some [.read (-1) 8192] := by
    decide +kernel
  refine ⟨replayed, ?_⟩
  rintro ⟨fd, count, bounded, asked⟩
  have same := asked.symm.trans replayed
  simp only [Option.some.injEq, List.nil_append, List.cons.injEq, Syscall.read.injEq] at same
  rw [same.1.2] at bounded
  exact absurd bounded (by decide)

end Tracefs
