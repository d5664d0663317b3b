import Tracefs.Replay.LocalBuffers

/-!
# What `MAP_RETVAL` reports

The kernel records a failure as a negative error number, libc returns `-1` and keeps the number to
itself.  The handlers compare the two as they are, and the handler of write compares with the
number of bytes asked for instead of the recorded result.
-/

namespace Tracefs

open Bytes

/-- How a system call ends: a result that an `int` holds, or an error number. -/
inductive CallOutcome where
  | ok (value : Nat) (bounded : value < 2 ^ 31)
  | failed (errno : Nat) (positive : 0 < errno)
  deriving DecidableEq

namespace CallOutcome

/-- What the wrapper in libc returns. -/
def libc : CallOutcome → Int
  | ok value _ => value
  | failed _ _ => -1

theorem recorded_ok {ret : BitVec 32} (success : 0 ≤ ret.toInt) : ret.toInt.toNat < 2 ^ 31 := by
  have bound := ret.toInt_lt
  omega

theorem recorded_failed {ret : BitVec 32} (failure : ¬ 0 ≤ ret.toInt) :
    0 < (-ret.toInt).toNat := by
  omega

/-- What the hooks recorded. -/
def recorded (ret : BitVec 32) : CallOutcome :=
  if success : 0 ≤ ret.toInt then .ok ret.toInt.toNat (recorded_ok success)
  else .failed (-ret.toInt).toNat (recorded_failed success)

theorem recorded_cases (ret : BitVec 32) :
    (∃ value bounded, recorded ret = .ok value bounded ∧ ret.toInt = value) ∨
      ∃ errno positive, recorded ret = .failed errno positive ∧ ret.toInt = -errno := by
  by_cases success : 0 ≤ ret.toInt
  · exact .inl ⟨_, _, dif_pos success, (Int.toNat_of_nonneg success).symm⟩
  · exact .inr ⟨_, _, dif_neg success, by omega⟩

theorem toInt32_libc (outcome : CallOutcome) : toInt32 outcome.libc = outcome.libc := by
  cases outcome with
  | ok value bounded =>
      exact toInt32_of_range (by rw [libc]; omega) (by rw [libc]; exact_mod_cast bounded)
  | failed errno positive =>
      show toInt32 (-1) = -1
      decide

end CallOutcome

/-- The calls of a handler end with `outcome`; the local arrays hold `p1` and `p2`. -/
def Environment.answering (outcome : CallOutcome) (p1 p2 : Memory) : Environment where
  answer := fun _ _ => outcome.libc
  p1 := fun _ => p1
  p2 := fun _ => p2

def Outcome.reports? : Outcome Replay → Option (List Bool)
  | .returned state | .exited state => some state.reports
  | .fault => none

theorem reports?_mapRetval (gflags : Nat) (same : Bool) (state : Replay) :
    (mapRetval gflags same state).reports? = some (state.reports ++ [same]) := by
  rcases mapRetval_cases gflags same state with ended | ended <;> rw [ended] <;> rfl

theorem reports?_runCompared (outcome : CallOutcome) (p1 p2 : Memory) (gflags : Nat)
    (syscall : Syscall) (ret : BitVec 32) (state : Replay) :
    (runCompared (.answering outcome p1 p2) gflags syscall ret.toNat state).reports? =
      some (state.reports ++ [decide (outcome.libc = ret.toInt)]) := by
  rw [runCompared, reports?_mapRetval, toInt32_toNat]
  simp only [Replay.call, Environment.answering, CallOutcome.toInt32_libc]

/-- The handler ends with one more report, which says whether the outcomes are the same. -/
def TrulyReported (state : Replay) (ret : BitVec 32) (outcome : CallOutcome)
    (ended : Outcome Replay) : Prop :=
  ∃ success, ended.reports? = some (state.reports ++ [success]) ∧
    (success = true ↔ CallOutcome.recorded ret = outcome)

def ReportsTruly (outcome : CallOutcome) (p1 p2 : Memory) (gflags : Nat) (page : Memory) (op : Nat)
    (state : Replay) (call : TracedCall) : Prop :=
  let env := Environment.answering outcome p1 p2
  match call with
  | .mkdir _ _ ret => TrulyReported state ret outcome (trfsRunMkdirOp env gflags page op state)
  | .rmdir _ ret => TrulyReported state ret outcome (trfsRunRmdirOp env gflags page op state)
  | .link _ _ ret => TrulyReported state ret outcome (trfsRunLinkOp env gflags page op state)
  | .symlink _ _ ret => TrulyReported state ret outcome (trfsRunSymlinkOp env gflags page op state)
  | .unlink _ ret => TrulyReported state ret outcome (trfsRunUnlinkOp env gflags page op state)
  | .rename _ _ ret => TrulyReported state ret outcome (trfsRunRenameOp env gflags page op state)
  | .read _ _ _ _ ret => TrulyReported state ret outcome (trfsRunReadOp env gflags page op state)
  | .write _ _ _ _ ret => TrulyReported state ret outcome (trfsRunWriteOp env gflags page op state)
  | _ => True

namespace CallOutcome

/-- `-1` tells one error number from the others: that of `EPERM`. -/
def ErrnoTold : CallOutcome → CallOutcome → Prop
  | failed recorded _, failed replayed _ => recorded = 1 ↔ recorded = replayed
  | _, _ => True

/-- Comparing with the count: partial transfers and failures have to be recorded otherwise than
they are replayed, whole transfers have to be recorded as such. -/
def CountTold (count : Nat) : CallOutcome → CallOutcome → Prop
  | ok recorded _, ok replayed _ => replayed = count ↔ recorded = replayed
  | ok _ _, failed _ _ => True
  | failed _ _, ok replayed _ => replayed ≠ count
  | failed recorded _, failed replayed _ => recorded ≠ replayed

end CallOutcome

/-- The recorded and the replayed outcome are a pair that the comparison of the handler decides
rightly, and the handler comes to it: a read has returned no more than its buffer holds, and the
target of a link fits its array. -/
def ToldApart (outcome : CallOutcome) : TracedCall → Prop
  | .mkdir _ _ ret | .rmdir _ ret | .link _ _ ret | .unlink _ ret | .rename _ _ ret =>
      (CallOutcome.recorded ret).ErrnoTold outcome
  | .read _ count _ _ ret =>
      min (count.toNat : Int) outcome.libc ≤ maxBytes ∧
        (CallOutcome.recorded ret).ErrnoTold outcome
  | .symlink _ target ret =>
      target.text.length < localSize ∧ (CallOutcome.recorded ret).ErrnoTold outcome
  | .write _ buf _ _ ret => (CallOutcome.recorded ret).CountTold buf.bytes.length outcome
  | _ => True

section Comparisons

variable {state : Replay} {ret : BitVec 32} {outcome : CallOutcome} {ended : Outcome Replay}

theorem trulyReported_iff {success : Bool}
    (reports : ended.reports? = some (state.reports ++ [success])) :
    TrulyReported state ret outcome ended ↔
      (success = true ↔ CallOutcome.recorded ret = outcome) := by
  constructor
  · rintro ⟨reported, same, truly⟩
    have equal : success = reported := by simpa [reports] using same
    rwa [equal]
  · intro truly
    exact ⟨success, reports, truly⟩

/-- Comparing with the recorded result goes wrong between two failures only. -/
theorem trulyReported_compared_iff
    (reports : ended.reports? = some (state.reports ++ [decide (outcome.libc = ret.toInt)])) :
    TrulyReported state ret outcome ended ↔ (CallOutcome.recorded ret).ErrnoTold outcome := by
  rw [trulyReported_iff reports, decide_eq_true_iff]
  rcases CallOutcome.recorded_cases ret with
    ⟨recorded, _, same, result⟩ | ⟨recorded, positive, same, result⟩
  · rw [same, result]
    cases outcome with
    | ok value _ =>
        simp only [CallOutcome.libc, CallOutcome.ok.injEq, CallOutcome.ErrnoTold, iff_true]
        omega
    | failed errno _ =>
        simp only [CallOutcome.libc, reduceCtorEq, CallOutcome.ErrnoTold]
  · rw [same, result]
    cases outcome with
    | ok value _ =>
        simp only [CallOutcome.libc, reduceCtorEq, iff_false, CallOutcome.ErrnoTold, iff_true]
        omega
    | failed errno _ =>
        have eperm : (-1 : Int) = -recorded ↔ recorded = 1 := by omega
        simp only [CallOutcome.libc, CallOutcome.failed.injEq, CallOutcome.ErrnoTold, eperm]

/-- Comparing with the count never takes `-1` for a success. -/
theorem trulyReported_counted_iff {count : Nat} (admitted : count ≤ maxRwCount)
    (reports : ended.reports? =
      some (state.reports ++ [decide (outcome.libc % 2 ^ 64 = count)])) :
    TrulyReported state ret outcome ended ↔
      (CallOutcome.recorded ret).CountTold count outcome := by
  have counted : count < 2 ^ 31 := lt_of_le_of_lt admitted (by decide)
  rw [trulyReported_iff reports, decide_eq_true_iff]
  rcases CallOutcome.recorded_cases ret with ⟨recorded, _, same, -⟩ | ⟨recorded, _, same, -⟩
  · rw [same]
    cases outcome with
    | ok value bounded =>
        simp only [CallOutcome.libc, CallOutcome.ok.injEq, CallOutcome.CountTold]
        omega
    | failed errno _ =>
        simp only [CallOutcome.libc, reduceCtorEq, iff_false, CallOutcome.CountTold, iff_true]
        omega
  · rw [same]
    cases outcome with
    | ok value bounded =>
        simp only [CallOutcome.libc, reduceCtorEq, iff_false, CallOutcome.CountTold]
        omega
    | failed errno _ =>
        simp only [CallOutcome.libc, CallOutcome.failed.injEq, CallOutcome.CountTold]
        omega

end Comparisons

section Records

variable (outcome : CallOutcome) (p1 p2 : Memory) (gflags : Nat) (state : Replay)
  (ret : BitVec 32)

theorem trulyReported_runCompared_iff (syscall : Syscall) :
    TrulyReported state ret outcome
        (runCompared (.answering outcome p1 p2) gflags syscall ret.toNat state) ↔
      (CallOutcome.recorded ret).ErrnoTold outcome :=
  trulyReported_compared_iff (reports?_runCompared outcome p1 p2 gflags syscall ret state)

theorem trulyReported_trfsRunWriteOp_iff {page : Memory} {op count : Nat}
    (held : Userland.trfsWriteOp.get page op .count = count) (admitted : count ≤ maxRwCount) :
    TrulyReported state ret outcome
        (trfsRunWriteOp (.answering outcome p1 p2) gflags page op state) ↔
      (CallOutcome.recorded ret).CountTold count outcome := by
  apply trulyReported_counted_iff admitted
  rw [trfsRunWriteOp, held, reports?_mapRetval]
  simp only [Replay.call, Environment.answering, CallOutcome.toInt32_libc]

theorem not_trulyReported_of_fault : ¬ TrulyReported state ret outcome .fault := by
  rintro ⟨success, reports, _⟩
  cases reports

end Records

/-- The handlers that compare return values report the truth about a record and an outcome of the
replayed call exactly when their comparison tells the two outcomes apart. -/
theorem reportsTruly_iff (record : TraceRecord) (outcome : CallOutcome) (p1 p2 : Memory)
    (gflags : Nat) (around : Memory) (op : Nat) (state : Replay) :
    ReportsTruly outcome p1 p2 gflags (record.onPage around op) op state record.call ↔
      ToldApart outcome record.call := by
  obtain ⟨call, pid, rId, heap⟩ := record
  have compared := trulyReported_runCompared_iff outcome p1 p2 gflags state
  cases call with
  | mkdir name mode ret =>
      obtain ⟨-, -, held⟩ := readsBack_mkdir pid rId heap around op name ret mode
      rw [ReportsTruly, trfsRunMkdirOp, held]
      exact compared ret _
  | rmdir name ret =>
      obtain ⟨-, held⟩ := readsBack_rmdir pid rId heap around op name ret
      rw [ReportsTruly, trfsRunRmdirOp, held]
      exact compared ret _
  | unlink name ret =>
      obtain ⟨-, held⟩ := readsBack_unlink pid rId heap around op name ret
      rw [ReportsTruly, trfsRunUnlinkOp, held]
      exact compared ret _
  | read name count ppos file ret =>
      obtain ⟨-, -, asked, held⟩ := readsBack_read pid rId heap around op name file ret count ppos
      simp only [ReportsTruly, ToldApart, trfsRunReadOp, held, asked, Environment.ReadFits]
      by_cases fits : min (count.toNat : Int) outcome.libc ≤ maxBytes
      · rw [if_pos (by exact fits), and_iff_right fits]
        exact compared ret _
      · rw [if_neg (by exact fits)]
        exact iff_of_false (not_trulyReported_of_fault outcome state ret) fun told => fits told.1
  | write name buf ppos file ret =>
      obtain ⟨-, -, held, -⟩ := readsBack_write pid rId heap around op name file ret buf ppos
      exact trulyReported_trfsRunWriteOp_iff outcome p1 p2 gflags state ret held buf.bounded
  | link oldName newName ret =>
      obtain ⟨plen, hlen, held⟩ := linkMembers_onPage around op pid rId heap ret oldName newName
      have fits := oldName.length_lt_localSize
      simp only [ReportsTruly, trfsRunLinkOp, held,
        unpackNames_of_fits _ _ _ _ (plen.symm ▸ fits) (hlen.symm ▸ fits)]
      exact compared ret _
  | rename oldName newName ret =>
      obtain ⟨len1, len2, held⟩ := renameMembers_onPage around op pid rId heap ret oldName newName
      have oldFits := oldName.length_lt_localSize
      have newFits := newName.length_lt_localSize
      simp only [ReportsTruly, trfsRunRenameOp, held,
        unpackRename_of_fits _ _ _ _ (len1.symm ▸ oldFits) (len2.symm ▸ newFits)]
      exact compared ret _
  | symlink name target ret =>
      obtain ⟨plen, slen, held⟩ := symlinkMembers_onPage around op pid rId heap ret name target
      have nameFits := name.length_lt_localSize
      rcases Nat.lt_or_ge target.text.length localSize with fits | long
      · rw [ToldApart, and_iff_right fits]
        simp only [ReportsTruly, trfsRunSymlinkOp, held,
          unpackNames_of_fits _ _ _ _ (plen.symm ▸ nameFits) (slen.symm ▸ fits)]
        exact compared ret _
      · -- the handler does not come to its report
        refine iff_of_false ?_ fun told => absurd told.1 (Nat.not_lt.mpr long)
        rw [ReportsTruly, trfsRunSymlinkOp_of_long _ gflags state (slen.symm ▸ long)]
        exact not_trulyReported_of_fault outcome state ret
  | _ => exact Iff.rfl

/-- A directory that existed at trace time: `mkdir` failed with `EEXIST`. -/
def existingDirectory : TraceRecord where
  call := .mkdir Name.a 0 (-17)
  pid := 1
  rId := 2
  heap := fun _ => 0

theorem eexist_pos : 0 < 17 := by decide

def eexist : CallOutcome := .failed 17 eexist_pos

/-- It exists again, `mkdir` fails in the same way, and the replay reports a failure. -/
theorem not_reportsTruly_existingDirectory :
    CallOutcome.recorded (-17) = eexist ∧
      (trfsRunMkdirOp (.answering eexist (fun _ => 0) (fun _ => 0)) 0
        (existingDirectory.onPage (fun _ => 0) 0) 0 ⟨[], [], []⟩).reports? = some [false] ∧
      ¬ ReportsTruly eexist (fun _ => 0) (fun _ => 0) 0
        (existingDirectory.onPage (fun _ => 0) 0) 0 ⟨[], [], []⟩ existingDirectory.call := by
  have same : CallOutcome.recorded (-17) = eexist := by decide
  have reports : (trfsRunMkdirOp (.answering eexist (fun _ => 0) (fun _ => 0)) 0
      (existingDirectory.onPage (fun _ => 0) 0) 0 ⟨[], [], []⟩).reports? = some [false] := by
    decide +kernel
  refine ⟨same, reports, ?_⟩
  rintro ⟨success, reported, truly⟩
  have failure : success = false := by simpa using reported.symm.trans reports
  exact Bool.false_ne_true (failure.symm.trans (truly.mpr same))

end Tracefs
