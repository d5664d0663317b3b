import Tracefs.Bytes.Word
import Tracefs.Transition

/-!
# Seeking in a directory

A directory of the upper file system and the one below it are two open files.  `trfs_file_llseek`
is there to move both, by one call of `generic_file_llseek` for each.  It takes the position that
the first call returns for an `int`, and a position whose bit 31 is set for an error.
-/

namespace Tracefs

open Bytes Transition

/-- The values of `loff_t` that are positions. -/
abbrev FilePos := Fin (2 ^ 63)

/-- How a seek ends: with the position at which the file is then, or with an error code and the
file where it was. -/
inductive SeekOutcome where
  | accepted (position : FilePos)
  | refused (errno : Nat) (positive : 0 < errno) (bounded : errno < 4096)

namespace SeekOutcome

def ret : SeekOutcome → Int
  | accepted position => position.val
  | refused errno _ _ => -errno

def leaves (before : FilePos) : SeekOutcome → FilePos
  | accepted position => position
  | refused _ _ _ => before

end SeekOutcome

/-- The positions of the upper and the lower file. -/
structure DirFiles where
  upper : FilePos
  lower : FilePos
  deriving DecidableEq

/-- What `generic_file_llseek` does with a position, an offset and `whence`, for both files. -/
structure DirLlseek where
  upper : FilePos → BitVec 64 → BitVec 32 → SeekOutcome
  lower : FilePos → BitVec 64 → BitVec 32 → SeekOutcome

/-- `trfs_file_llseek`.  Its variable `err` is an `int`. -/
def trfsFileLlseek (llseek : DirLlseek) (files : DirFiles) (offset : BitVec 64)
    (whence : BitVec 32) : Int × DirFiles :=
  let moved := llseek.upper files.upper offset whence
  let files := { files with upper := moved.leaves files.upper }
  let err := toInt32 moved.ret
  if err < 0 then (err, files)
  else
    let moved := llseek.lower files.lower offset whence
    (toInt32 moved.ret, { files with lower := moved.leaves files.lower })

/-- A request that both files accept moves them to one position, which is returned, and one that
is answered by an error moves none. -/
def SeeksTogether (llseek : DirLlseek) (files : DirFiles) (offset : BitVec 64)
    (whence : BitVec 32) : Prop :=
  let ended := trfsFileLlseek llseek files offset whence
  (∀ position lowerPosition, files.upper = files.lower →
    llseek.upper files.upper offset whence = .accepted position →
    llseek.lower files.lower offset whence = .accepted lowerPosition →
    ended = ((position.val : Int), ⟨position, position⟩)) ∧
  (ended.1 < 0 → ended.2 = files)

/-- The condition on a request, by how the two files take it. -/
def SeekFits (files : DirFiles) : SeekOutcome → SeekOutcome → Prop
  | .refused _ _ _, _ => True
  | .accepted position, .refused _ _ _ => position = files.upper
  | .accepted position, .accepted lowerPosition =>
      if files.upper = files.lower then lowerPosition = position ∧ position.val < 2 ^ 31
      else
        (toInt32 position.val < 0 → position = files.upper) ∧
        (0 ≤ toInt32 position.val → toInt32 lowerPosition.val < 0 →
          ⟨position, lowerPosition⟩ = files)

section Outcomes

variable {llseek : DirLlseek} {files : DirFiles} {offset : BitVec 64} {whence : BitVec 32}
  {position lowerPosition : FilePos} {errno : Nat} {positive : 0 < errno} {bounded : errno < 4096}

theorem toInt32_ret_refused :
    toInt32 (SeekOutcome.refused errno positive bounded).ret = -errno :=
  toInt32_of_range (by rw [SeekOutcome.ret]; omega) (by rw [SeekOutcome.ret]; omega)

theorem trfsFileLlseek_of_refused
    (refused : llseek.upper files.upper offset whence = .refused errno positive bounded) :
    trfsFileLlseek llseek files offset whence = (-(errno : Int), files) := by
  have negative : -(errno : Int) < 0 := by omega
  simp only [trfsFileLlseek, refused, toInt32_ret_refused, negative, if_true, SeekOutcome.leaves]

/-- The first position is taken for an error. -/
theorem trfsFileLlseek_of_negative
    (accepted : llseek.upper files.upper offset whence = .accepted position)
    (negative : toInt32 position.val < 0) :
    trfsFileLlseek llseek files offset whence =
      (toInt32 position.val, { files with upper := position }) := by
  simp only [trfsFileLlseek, accepted, SeekOutcome.ret, negative, if_true, SeekOutcome.leaves]

theorem trfsFileLlseek_of_nonneg
    (accepted : llseek.upper files.upper offset whence = .accepted position)
    (nonneg : ¬ toInt32 position.val < 0) :
    trfsFileLlseek llseek files offset whence =
      (toInt32 (llseek.lower files.lower offset whence).ret,
        ⟨position, (llseek.lower files.lower offset whence).leaves files.lower⟩) := by
  simp only [trfsFileLlseek, accepted, SeekOutcome.ret, nonneg, if_false, SeekOutcome.leaves]

theorem upper_eq_iff : { files with upper := position } = files ↔ position = files.upper :=
  ⟨fun same => congrArg DirFiles.upper same, fun same => by rw [same]⟩

/-- If the lower file refuses the request, or is not asked, the upper one has moved. -/
theorem trfsFileLlseek_of_lower_refused
    (accepted : llseek.upper files.upper offset whence = .accepted position)
    (refused : llseek.lower files.lower offset whence = .refused errno positive bounded) :
    (trfsFileLlseek llseek files offset whence).1 < 0 ∧
      (trfsFileLlseek llseek files offset whence).2 = { files with upper := position } := by
  by_cases negative : toInt32 position.val < 0
  · simp only [trfsFileLlseek_of_negative accepted negative, and_true]
    exact negative
  · have error : -(errno : Int) < 0 := by omega
    rw [trfsFileLlseek_of_nonneg accepted negative, refused, toInt32_ret_refused]
    exact ⟨error, rfl⟩

theorem seeksTogether_of_lower_refused
    (accepted : llseek.upper files.upper offset whence = .accepted position)
    (refused : llseek.lower files.lower offset whence = .refused errno positive bounded) :
    SeeksTogether llseek files offset whence ↔ position = files.upper := by
  obtain ⟨error, moved⟩ := trfsFileLlseek_of_lower_refused accepted refused
  rw [← @upper_eq_iff files position, ← moved]
  constructor
  · intro together
    exact together.2 error
  · intro unchanged
    refine ⟨?_, fun _ => unchanged⟩
    intro _ _ _ _ lowerAccepted
    rw [refused] at lowerAccepted
    cases lowerAccepted

/-- The position returned is the position reached if it is below 2 GiB. -/
theorem toInt32_val_eq_iff : toInt32 position.val = position.val ↔ position.val < 2 ^ 31 := by
  have range := toInt32_range position.val
  constructor
  · intro same
    omega
  · intro below
    exact toInt32_of_range (by omega) (by omega)

theorem seeksTogether_of_accepted
    (accepted : llseek.upper files.upper offset whence = .accepted position)
    (lowerAccepted : llseek.lower files.lower offset whence = .accepted lowerPosition) :
    SeeksTogether llseek files offset whence ↔
      SeekFits files (.accepted position) (.accepted lowerPosition) := by
  have both : SeeksTogether llseek files offset whence ↔
      (files.upper = files.lower → trfsFileLlseek llseek files offset whence =
        ((position.val : Int), ⟨position, position⟩)) ∧
      ((trfsFileLlseek llseek files offset whence).1 < 0 →
        (trfsFileLlseek llseek files offset whence).2 = files) := by
    simp only [SeeksTogether, accepted, lowerAccepted, SeekOutcome.accepted.injEq]
    constructor
    · rintro ⟨arrives, unmoved⟩
      exact ⟨fun equal => arrives _ _ equal rfl rfl, unmoved⟩
    · rintro ⟨arrives, unmoved⟩
      refine ⟨?_, unmoved⟩
      rintro _ _ equal rfl rfl
      exact arrives equal
  rw [both, SeekFits]
  by_cases negative : toInt32 position.val < 0
  · have large : ¬ position.val < 2 ^ 31 := by
      intro below
      rw [toInt32_val_eq_iff.mpr below] at negative
      omega
    simp only [trfsFileLlseek_of_negative accepted negative, Prod.mk.injEq, upper_eq_iff]
    by_cases equal : files.upper = files.lower
    · rw [if_pos equal]
      constructor
      · rintro ⟨arrives, -⟩
        exact absurd (toInt32_val_eq_iff.mp (arrives equal).1) large
      · rintro ⟨-, below⟩
        exact absurd below large
    · simp [equal, negative, negative.not_ge]
  · simp only [trfsFileLlseek_of_nonneg accepted negative, lowerAccepted, SeekOutcome.ret,
      SeekOutcome.leaves, Prod.mk.injEq]
    by_cases equal : files.upper = files.lower
    · rw [if_pos equal]
      constructor
      · rintro ⟨arrives, -⟩
        obtain ⟨returned, same⟩ := arrives equal
        have together : lowerPosition = position := congrArg DirFiles.lower same
        rw [together] at returned
        exact ⟨together, toInt32_val_eq_iff.mp returned⟩
      · rintro ⟨rfl, below⟩
        exact ⟨fun _ => ⟨toInt32_val_eq_iff.mpr below, rfl⟩, fun error => absurd error negative⟩
    · simp [equal, negative, not_lt.mp negative]

end Outcomes

/-- The files stay together exactly at the requests that fit. -/
theorem seeksTogether_iff (llseek : DirLlseek) (files : DirFiles) (offset : BitVec 64)
    (whence : BitVec 32) :
    SeeksTogether llseek files offset whence ↔
      SeekFits files (llseek.upper files.upper offset whence)
        (llseek.lower files.lower offset whence) := by
  cases upper : llseek.upper files.upper offset whence with
  | refused errno positive bounded =>
      simp [SeeksTogether, trfsFileLlseek_of_refused upper, upper, SeekFits]
  | accepted position =>
      cases lower : llseek.lower files.lower offset whence with
      | refused errno positive bounded => exact seeksTogether_of_lower_refused upper lower
      | accepted lowerPosition => exact seeksTogether_of_accepted upper lower

/-! ## Runs on an open directory -/

inductive DirAction where
  | llseek (offset : BitVec 64) (whence : BitVec 32)
  /-- `iterate_dir` leaves the lower file at `position`. -/
  | readdir (position : FilePos)

/-- `trfs_readdir` moves the upper file to where the lower one is. -/
def dirStep (llseek : DirLlseek) (files : DirFiles) : DirAction → DirFiles
  | .llseek offset whence => (trfsFileLlseek llseek files offset whence).2
  | .readdir position => ⟨position, position⟩

/-- The condition on the seeks of a run. -/
def DirActionFits (llseek : DirLlseek) (files : DirFiles) : DirAction → Prop
  | .llseek offset whence => SeekFits files (llseek.upper files.upper offset whence)
      (llseek.lower files.lower offset whence)
  | .readdir _ => True

theorem dirStep_together (llseek : DirLlseek) (files : DirFiles) (action : DirAction)
    (together : files.upper = files.lower) (fits : DirActionFits llseek files action) :
    (dirStep llseek files action).upper = (dirStep llseek files action).lower := by
  cases action with
  | readdir position => rfl
  | llseek offset whence =>
      simp only [dirStep, DirActionFits] at fits ⊢
      cases upper : llseek.upper files.upper offset whence with
      | refused errno positive bounded =>
          rw [trfsFileLlseek_of_refused upper]
          exact together
      | accepted position =>
          cases lower : llseek.lower files.lower offset whence with
          | refused errno positive bounded =>
              rw [upper, lower] at fits
              have unmoved : position = files.upper := fits
              rw [(trfsFileLlseek_of_lower_refused upper lower).2, unmoved]
              exact together
          | accepted lowerPosition =>
              rw [upper, lower, SeekFits, if_pos together] at fits
              obtain ⟨rfl, below⟩ := fits
              have nonneg : ¬ toInt32 lowerPosition.val < 0 := by
                rw [toInt32_val_eq_iff.mpr below]
                omega
              rw [trfsFileLlseek_of_nonneg upper nonneg, lower]
              rfl

/-- Along a run whose seeks all fit the two files are at one position. -/
theorem positions_agree_after (llseek : DirLlseek) (start : FilePos) {actions : List DirAction}
    (fits : Along (dirStep llseek) (DirActionFits llseek) ⟨start, start⟩ actions) :
    (run (dirStep llseek) ⟨start, start⟩ actions).upper =
      (run (dirStep llseek) ⟨start, start⟩ actions).lower :=
  along_run (fun files => files.upper = files.lower) (dirStep_together llseek) rfl fits

/-! ## The kernel's `generic_file_llseek` -/

/-- `s_maxbytes` of the file system and the size of the file. -/
structure SeekLimits where
  maxsize : FilePos
  eof : FilePos

theorem einval_bounds : 0 < 22 ∧ 22 < 4096 := by decide

theorem enxio_bounds : 0 < 6 ∧ 6 < 4096 := by decide

theorem setpos_bounded {maxsize : FilePos} {offset : Int} (below : offset ≤ maxsize.val) :
    offset.toNat < 2 ^ 63 := by
  omega

def vfsSetpos (maxsize : FilePos) (offset : Int) : SeekOutcome :=
  if offset < 0 then .refused 22 einval_bounds.1 einval_bounds.2
  else if below : offset ≤ maxsize.val then .accepted ⟨offset.toNat, setpos_bounded below⟩
  else .refused 22 einval_bounds.1 einval_bounds.2

/-- `generic_file_llseek` with `SEEK_SET`, `SEEK_CUR`, `SEEK_END`, `SEEK_DATA` and `SEEK_HOLE`.  A
sum that leaves the range of `loff_t` is refused here as too large, there as negative. -/
def genericFileLlseek (limits : SeekLimits) (position : FilePos) (offset : BitVec 64)
    (whence : BitVec 32) : SeekOutcome :=
  match whence.toNat with
  | 1 =>
      if offset = 0 then .accepted position
      else vfsSetpos limits.maxsize (position.val + offset.toInt)
  | 2 => vfsSetpos limits.maxsize (offset.toInt + limits.eof.val)
  | 3 =>
      if limits.eof.val ≤ offset.toInt then .refused 6 enxio_bounds.1 enxio_bounds.2
      else vfsSetpos limits.maxsize offset.toInt
  | 4 =>
      if limits.eof.val ≤ offset.toInt then .refused 6 enxio_bounds.1 enxio_bounds.2
      else vfsSetpos limits.maxsize limits.eof.val
  | _ => vfsSetpos limits.maxsize offset.toInt

/-- Two directories without a bound on their positions. -/
def unboundedLlseek : DirLlseek where
  upper := genericFileLlseek ⟨Fin.last _, 0⟩
  lower := genericFileLlseek ⟨Fin.last _, 0⟩

/-- `SEEK_SET` to 2 GiB, which both files accept: an error is returned, and the upper file alone
is there. -/
theorem not_seeksTogether_twoGiB :
    trfsFileLlseek unboundedLlseek ⟨0, 0⟩ 0x80000000#64 0#32 = (-0x80000000, ⟨0x80000000, 0⟩) ∧
      ¬ SeeksTogether unboundedLlseek ⟨0, 0⟩ 0x80000000#64 0#32 := by
  have ended : trfsFileLlseek unboundedLlseek ⟨0, 0⟩ 0x80000000#64 0#32 =
      (-0x80000000, ⟨0x80000000, 0⟩) := by
    decide +kernel
  refine ⟨ended, ?_⟩
  rintro ⟨-, unmoved⟩
  rw [ended] at unmoved
  exact absurd (unmoved (by decide)) (by decide +kernel)

end Tracefs
