import Tracefs.Vfs.Steps

/-!
# Changing attributes

`trfs_setattr` sets the size of its own inode, and with it the page cache, before it asks the lower
file system for the change.  When the lower one refuses, nothing is taken back: the upper inode is
as before only where there was nothing to cut off and no other size to set.
-/

namespace Tracefs

open Transition

variable {File Values Attr : Type}

/-- `ATTR_MODE` and the other bits of `ia_valid` that the function looks at. -/
def attrMode : BitVec 32 := 1

@[inherit_doc attrMode]
def attrSize : BitVec 32 := 0x8

@[inherit_doc attrMode]
def attrKillSuid : BitVec 32 := 0x800

@[inherit_doc attrMode]
def attrKillSgid : BitVec 32 := 0x1000

@[inherit_doc attrMode]
def attrFile : BitVec 32 := 0x2000

/-- `struct iattr`.  The mode, the owner and the times are only passed on. -/
structure Iattr (File Values : Type) where
  iaValid : BitVec 32
  iaSize : Nat
  iaFile : File
  values : Values

/-- `ia_valid & flags`, as a condition. -/
def Iattr.has (ia : Iattr File Values) (flags : BitVec 32) : Bool := ia.iaValid &&& flags ≠ 0

/-- The test for `ATTR_FILE`, on the copy of the request. -/
def Iattr.withLowerFile (ia : Iattr File Values) (trfsLowerFile : File → File) :
    Iattr File Values :=
  if ia.has attrFile then { ia with iaFile := trfsLowerFile ia.iaFile } else ia

/-- The lower file system clears the setuid and setgid bits in its own way. -/
def Iattr.withoutKilledMode (ia : Iattr File Values) : Iattr File Values :=
  if ia.has (attrKillSuid ||| attrKillSgid) then { ia with iaValid := ia.iaValid &&& ~~~attrMode }
  else ia

/-- The pages of an inode that are in memory, by their index. -/
abbrev PageCache := Nat → Option (Fin 4096 → UInt8)

/-- The inode of trfs.  `attr` is what `fsstack_copy_attr_all` copies. -/
structure UpperState (Attr : Type) where
  size : Nat
  mapping : PageCache
  attr : Attr

structure LowerState (Attr : Type) where
  size : Nat
  attr : Attr

structure InodePair (Attr : Type) where
  upper : UpperState Attr
  lower : LowerState Attr

/-- `truncate_pagecache` of the kernel drops the pages behind the new end and clears the rest of
the page that it lies in. -/
def truncatePagecache (mapping : PageCache) (newsize : Nat) : PageCache := fun index =>
  if index * 4096 < newsize then
    (mapping index).map fun page offset =>
      if index * 4096 + offset < newsize then page offset else 0
  else none

/-- `truncate_setsize` of the kernel. -/
def UpperState.truncateSetsize (upper : UpperState Attr) (newsize : Nat) : UpperState Attr :=
  { upper with size := newsize, mapping := truncatePagecache upper.mapping newsize }

/-- The kernel functions that may refuse a change, which the source does not hold.  A lower file
system that refuses one leaves its inode alone. -/
structure SetattrCalls (File Values Attr : Type) where
  inodeChangeOk : UpperState Attr → Iattr File Values → Err
  inodeNewsizeOk : UpperState Attr → Nat → Err
  notifyChange : LowerState Attr → Iattr File Values → Err × LowerState Attr
  trfsLowerFile : File → File
  refused : ∀ lower ia, (notifyChange lower ia).1 ≠ 0 → (notifyChange lower ia).2 = lower

namespace SetattrCalls

variable (calls : SetattrCalls File Values Attr)

/-- `lower_ia`, the request to the lower inode. -/
def lowerIa (ia : Iattr File Values) : Iattr File Values :=
  (ia.withLowerFile calls.trfsLowerFile).withoutKilledMode

/-- The part of the function for `ATTR_SIZE`: an error, or the upper inode behind it. -/
def setSize (upper : UpperState Attr) (ia : Iattr File Values) : Err × UpperState Attr :=
  if ia.has attrSize then
    let err := calls.inodeNewsizeOk upper ia.iaSize
    if err ≠ 0 then (err, upper) else (0, upper.truncateSetsize ia.iaSize)
  else (0, upper)

/-- `trfs_setattr` on the two inodes. -/
def trfsSetattr (inodes : InodePair Attr) (ia : Iattr File Values) : Err × InodePair Attr :=
  let err := calls.inodeChangeOk inodes.upper ia
  if err ≠ 0 then (err, inodes)
  else
    let sized := calls.setSize inodes.upper ia
    if sized.1 ≠ 0 then (sized.1, { inodes with upper := sized.2 })
    else
      let notified := calls.notifyChange inodes.lower (calls.lowerIa ia)
      if notified.1 ≠ 0 then (notified.1, ⟨sized.2, notified.2⟩)
      else (notified.1, ⟨{ sized.2 with attr := notified.2.attr }, notified.2⟩)

/-- An error leaves the upper inode as it was, and sizes that agreed still agree. -/
def FailsCleanly (inodes : InodePair Attr) (ia : Iattr File Values) : Prop :=
  let result := calls.trfsSetattr inodes ia
  result.1 ≠ 0 → result.2.upper = inodes.upper ∧
    (inodes.upper.size = inodes.lower.size → result.2.upper.size = result.2.lower.size)

end SetattrCalls

/-- Nothing is cached behind an offset but zeros in the page that it lies in. -/
def PageCache.EndsAt (mapping : PageCache) (size : Nat) : Prop :=
  ∀ index page, mapping index = some page → index * 4096 < size ∧
    ∀ offset : Fin 4096, size ≤ index * 4096 + offset → page offset = 0

namespace SetattrCalls

variable (calls : SetattrCalls File Values Attr)

/-- The refusals that come before the upper inode is touched, a request without a size, the
consent of the lower file system, and a size that cuts nothing off. -/
def NothingToUndo (inodes : InodePair Attr) (ia : Iattr File Values) : Prop :=
  calls.inodeChangeOk inodes.upper ia ≠ 0 ∨ ia.has attrSize = false ∨
    calls.inodeNewsizeOk inodes.upper ia.iaSize ≠ 0 ∨
    (calls.notifyChange inodes.lower (calls.lowerIa ia)).1 = 0 ∨
    (ia.iaSize = inodes.upper.size ∧ inodes.upper.mapping.EndsAt ia.iaSize)

end SetattrCalls

theorem truncatePagecache_eq_self_iff (mapping : PageCache) (newsize : Nat) :
    truncatePagecache mapping newsize = mapping ↔ mapping.EndsAt newsize := by
  constructor
  · intro unchanged index page cached
    have same := congrFun unchanged index
    rw [truncatePagecache, cached] at same
    by_cases inside : index * 4096 < newsize
    · rw [if_pos inside, Option.map_some, Option.some.injEq] at same
      refine ⟨inside, fun offset behind => ?_⟩
      have cleared := congrFun same offset
      rw [if_neg (Nat.not_lt_of_le behind)] at cleared
      exact cleared.symm
    · rw [if_neg inside] at same
      cases same
  · intro endsAt
    funext index
    rw [truncatePagecache]
    cases cached : mapping index with
    | none => simp
    | some page =>
        obtain ⟨inside, zeros⟩ := endsAt index page cached
        rw [if_pos inside, Option.map_some]
        congr 1
        funext offset
        by_cases before : index * 4096 + offset < newsize
        · rw [if_pos before]
        · rw [if_neg before, zeros offset (Nat.le_of_not_lt before)]

theorem UpperState.truncateSetsize_eq_self_iff (upper : UpperState Attr) (newsize : Nat) :
    upper.truncateSetsize newsize = upper ↔
      newsize = upper.size ∧ upper.mapping.EndsAt newsize := by
  rw [← truncatePagecache_eq_self_iff]
  obtain ⟨size, mapping, attr⟩ := upper
  simp [truncateSetsize]

namespace SetattrCalls

variable (calls : SetattrCalls File Values Attr) (inodes : InodePair Attr)
  (ia : Iattr File Values)

theorem setSize_of_refused {upper : UpperState Attr} (sized : ia.has attrSize = true)
    (refused : calls.inodeNewsizeOk upper ia.iaSize ≠ 0) :
    calls.setSize upper ia = (calls.inodeNewsizeOk upper ia.iaSize, upper) := by
  rw [setSize, if_pos sized]
  exact if_pos refused

theorem setSize_of_fits {upper : UpperState Attr}
    (fits : ia.has attrSize = true → calls.inodeNewsizeOk upper ia.iaSize = 0) :
    calls.setSize upper ia =
      (0, if ia.has attrSize then upper.truncateSetsize ia.iaSize else upper) := by
  rw [setSize]
  cases sized : ia.has attrSize with
  | false => rfl
  | true => exact if_neg (not_not_intro (fits sized))

/-- The two refusals that come before the upper inode is touched. -/
theorem trfsSetattr_of_early
    (early : calls.inodeChangeOk inodes.upper ia ≠ 0 ∨
      (ia.has attrSize = true ∧ calls.inodeNewsizeOk inodes.upper ia.iaSize ≠ 0)) :
    (calls.trfsSetattr inodes ia).1 ≠ 0 ∧ (calls.trfsSetattr inodes ia).2 = inodes := by
  by_cases allowed : calls.inodeChangeOk inodes.upper ia = 0
  · obtain ⟨sized, tooLarge⟩ := early.resolve_left (not_not_intro allowed)
    rw [trfsSetattr, if_neg (not_not_intro allowed), calls.setSize_of_refused ia sized tooLarge,
      if_pos tooLarge]
    exact ⟨tooLarge, rfl⟩
  · rw [trfsSetattr, if_pos allowed]
    exact ⟨allowed, rfl⟩

theorem trfsSetattr_of_fits (allowed : calls.inodeChangeOk inodes.upper ia = 0)
    (fits : ia.has attrSize = true → calls.inodeNewsizeOk inodes.upper ia.iaSize = 0) :
    calls.trfsSetattr inodes ia =
      let sized :=
        if ia.has attrSize then inodes.upper.truncateSetsize ia.iaSize else inodes.upper
      let notified := calls.notifyChange inodes.lower (calls.lowerIa ia)
      if notified.1 ≠ 0 then (notified.1, ⟨sized, notified.2⟩)
      else (notified.1, ⟨{ sized with attr := notified.2.attr }, notified.2⟩) := by
  rw [trfsSetattr, if_neg (not_not_intro allowed), calls.setSize_of_fits ia fits]
  exact if_neg (not_not_intro rfl)

/-- The lower inode is asked last; its refusal finds the upper one with the new size. -/
theorem trfsSetattr_of_refused (allowed : calls.inodeChangeOk inodes.upper ia = 0)
    (fits : ia.has attrSize = true → calls.inodeNewsizeOk inodes.upper ia.iaSize = 0)
    (refused : (calls.notifyChange inodes.lower (calls.lowerIa ia)).1 ≠ 0) :
    calls.trfsSetattr inodes ia =
      ((calls.notifyChange inodes.lower (calls.lowerIa ia)).1,
        ⟨if ia.has attrSize then inodes.upper.truncateSetsize ia.iaSize else inodes.upper,
          inodes.lower⟩) := by
  rw [calls.trfsSetattr_of_fits inodes ia allowed fits]
  dsimp only
  rw [if_pos refused, calls.refused inodes.lower (calls.lowerIa ia) refused]

theorem trfsSetattr_of_accepted (allowed : calls.inodeChangeOk inodes.upper ia = 0)
    (fits : ia.has attrSize = true → calls.inodeNewsizeOk inodes.upper ia.iaSize = 0)
    (accepted : (calls.notifyChange inodes.lower (calls.lowerIa ia)).1 = 0) :
    calls.trfsSetattr inodes ia =
      (0, ⟨{ (if ia.has attrSize then inodes.upper.truncateSetsize ia.iaSize
          else inodes.upper) with
            attr := (calls.notifyChange inodes.lower (calls.lowerIa ia)).2.attr },
        (calls.notifyChange inodes.lower (calls.lowerIa ia)).2⟩) := by
  rw [calls.trfsSetattr_of_fits inodes ia allowed fits]
  dsimp only
  rw [if_neg (not_not_intro accepted), accepted]

/-- The function fails before it has touched anything, fails at the lower inode, or succeeds. -/
theorem trfsSetattr_cases :
    ((calls.trfsSetattr inodes ia).1 ≠ 0 ∧ (calls.trfsSetattr inodes ia).2 = inodes) ∨
      (calls.inodeChangeOk inodes.upper ia = 0 ∧
        (ia.has attrSize = true → calls.inodeNewsizeOk inodes.upper ia.iaSize = 0) ∧
        (calls.notifyChange inodes.lower (calls.lowerIa ia)).1 ≠ 0) ∨
      (calls.inodeChangeOk inodes.upper ia = 0 ∧
        (ia.has attrSize = true → calls.inodeNewsizeOk inodes.upper ia.iaSize = 0) ∧
        (calls.notifyChange inodes.lower (calls.lowerIa ia)).1 = 0) := by
  by_cases early : calls.inodeChangeOk inodes.upper ia ≠ 0 ∨
      (ia.has attrSize = true ∧ calls.inodeNewsizeOk inodes.upper ia.iaSize ≠ 0)
  · exact .inl (calls.trfsSetattr_of_early inodes ia early)
  rw [not_or, not_not, not_and, not_not] at early
  obtain ⟨allowed, fits⟩ := early
  by_cases accepted : (calls.notifyChange inodes.lower (calls.lowerIa ia)).1 = 0
  · exact .inr (.inr ⟨allowed, fits, accepted⟩)
  · exact .inr (.inl ⟨allowed, fits, accepted⟩)

/-- The result is the one that the operation has without its inodes. -/
theorem trfsSetattr_err :
    (calls.trfsSetattr inodes ia).1 =
      (Tracefs.trfsSetattr (calls.inodeChangeOk inodes.upper ia)
        (if ia.has attrSize then some (calls.inodeNewsizeOk inodes.upper ia.iaSize) else none)
        (calls.notifyChange inodes.lower (calls.lowerIa ia)).1).err := by
  show _ = firstError _ (firstError _ _)
  by_cases allowed : calls.inodeChangeOk inodes.upper ia = 0
  swap
  · rw [trfsSetattr, if_pos allowed, firstError, if_pos allowed]
  by_cases fits : ia.has attrSize = true → calls.inodeNewsizeOk inodes.upper ia.iaSize = 0
  · have size : (if ia.has attrSize then some (calls.inodeNewsizeOk inodes.upper ia.iaSize)
        else none).getD 0 = 0 := by
      cases sized : ia.has attrSize with
      | false => rfl
      | true => exact fits sized
    rw [calls.trfsSetattr_of_fits inodes ia allowed fits, size, firstError,
      if_neg (not_not_intro allowed), firstError, if_neg (not_not_intro rfl)]
    dsimp only
    split <;> rfl
  · rw [Classical.not_imp] at fits
    obtain ⟨sized, tooLarge⟩ := fits
    rw [trfsSetattr, if_neg (not_not_intro allowed), calls.setSize_of_refused ia sized tooLarge,
      if_pos tooLarge, firstError, if_neg (not_not_intro allowed), sized, if_pos rfl]
    exact (if_pos tooLarge).symm

variable {calls inodes ia}

theorem NothingToUndo.failsCleanly (nothing : calls.NothingToUndo inodes ia) :
    calls.FailsCleanly inodes ia := by
  intro failed
  rcases calls.trfsSetattr_cases inodes ia with
    ⟨_, untouched⟩ | ⟨allowed, fits, refused⟩ | ⟨allowed, fits, accepted⟩
  · rw [untouched]
    exact ⟨rfl, id⟩
  swap
  · rw [calls.trfsSetattr_of_accepted inodes ia allowed fits accepted] at failed
    exact absurd rfl failed
  rw [calls.trfsSetattr_of_refused inodes ia allowed fits refused]
  cases sized : ia.has attrSize with
  | false => exact ⟨rfl, id⟩
  | true =>
      rcases nothing with forbidden | unsized | tooLarge | accepted | same
      · exact absurd allowed forbidden
      · exact absurd (sized.symm.trans unsized) (by decide)
      · exact absurd (fits sized) tooLarge
      · exact absurd accepted refused
      · rw [if_pos rfl, (UpperState.truncateSetsize_eq_self_iff _ _).mpr same]
        exact ⟨rfl, id⟩

theorem FailsCleanly.nothingToUndo (clean : calls.FailsCleanly inodes ia) :
    calls.NothingToUndo inodes ia := by
  by_contra undone
  simp only [NothingToUndo, not_or, not_not, Bool.not_eq_false] at undone
  obtain ⟨allowed, sized, fits, refused, cut⟩ := undone
  have result := calls.trfsSetattr_of_refused inodes ia allowed (fun _ => fits) refused
  rw [sized, if_pos rfl] at result
  rw [FailsCleanly, result] at clean
  exact cut ((UpperState.truncateSetsize_eq_self_iff _ _).mp (clean refused).1)

variable (calls inodes ia)

/-- An error is clean exactly when it comes before the upper inode has been cut, or the cut changes
nothing. -/
theorem failsCleanly_iff : calls.FailsCleanly inodes ia ↔ calls.NothingToUndo inodes ia :=
  ⟨FailsCleanly.nothingToUndo, NothingToUndo.failsCleanly⟩

/-- A change that the lower file system accepts gives its inode the size asked for, if one is. -/
def SetsSize : Prop :=
  ∀ lower ia, (calls.notifyChange lower ia).1 = 0 →
    (calls.notifyChange lower ia).2.size = if ia.has attrSize then ia.iaSize else lower.size

/-- The lower request asks for the same size. -/
theorem lowerIa_size :
    (calls.lowerIa ia).has attrSize = ia.has attrSize ∧ (calls.lowerIa ia).iaSize = ia.iaSize := by
  have withFile : (ia.withLowerFile calls.trfsLowerFile).has attrSize = ia.has attrSize ∧
      (ia.withLowerFile calls.trfsLowerFile).iaSize = ia.iaSize := by
    unfold Iattr.withLowerFile
    split <;> exact ⟨rfl, rfl⟩
  have withoutMode (copied : Iattr File Values) :
      copied.withoutKilledMode.has attrSize = copied.has attrSize ∧
        copied.withoutKilledMode.iaSize = copied.iaSize := by
    unfold Iattr.withoutKilledMode
    split
    · have otherBit : ~~~attrMode &&& attrSize = attrSize := by decide
      refine ⟨?_, rfl⟩
      simp only [Iattr.has, BitVec.and_assoc, otherBit]
    · exact ⟨rfl, rfl⟩
  rw [lowerIa, (withoutMode _).1, (withoutMode _).2]
  exact withFile

theorem sizes_agree_of_accepted (setsSize : calls.SetsSize)
    (agree : inodes.upper.size = inodes.lower.size)
    (succeeded : (calls.trfsSetattr inodes ia).1 = 0) :
    (calls.trfsSetattr inodes ia).2.upper.size = (calls.trfsSetattr inodes ia).2.lower.size := by
  rcases calls.trfsSetattr_cases inodes ia with
    ⟨failed, _⟩ | ⟨allowed, fits, refused⟩ | ⟨allowed, fits, accepted⟩
  · exact absurd succeeded failed
  · rw [calls.trfsSetattr_of_refused inodes ia allowed fits refused] at succeeded
    exact absurd succeeded refused
  have lowerSize := setsSize inodes.lower (calls.lowerIa ia) accepted
  rw [(calls.lowerIa_size ia).1, (calls.lowerIa_size ia).2] at lowerSize
  rw [calls.trfsSetattr_of_accepted inodes ia allowed fits accepted]
  dsimp only
  rw [lowerSize]
  cases ia.has attrSize with
  | false => exact agree
  | true => rfl

/-- Along any requests that each leave nothing to undo, equal sizes stay equal. -/
theorem sizes_agree_after (setsSize : calls.SetsSize) {start : InodePair Attr}
    (agree : start.upper.size = start.lower.size) {requests : List (Iattr File Values)}
    (nothing : Along (fun inodes ia => (calls.trfsSetattr inodes ia).2) calls.NothingToUndo start
      requests) :
    let final := run (fun inodes ia => (calls.trfsSetattr inodes ia).2) start requests
    final.upper.size = final.lower.size := by
  refine along_run (fun inodes => inodes.upper.size = inodes.lower.size) ?_ agree nothing
  intro inodes ia equal clean
  by_cases accepted : (calls.trfsSetattr inodes ia).1 = 0
  · exact calls.sizes_agree_of_accepted inodes ia setsSize equal accepted
  · exact (clean.failsCleanly accepted).2 equal

end SetattrCalls

/-- A lower file system that fails to truncate, with an I/O error. -/
def failingNotify (lower : LowerState Unit) (ia : Iattr Unit Unit) : Err × LowerState Unit :=
  if ia.has attrSize then (BitVec.ofInt 32 (-5), lower) else (0, lower)

theorem failingNotify_lower (lower : LowerState Unit) (ia : Iattr Unit Unit)
    (_ : (failingNotify lower ia).1 ≠ 0) : (failingNotify lower ia).2 = lower := by
  unfold failingNotify
  split <;> rfl

def failingTruncate : SetattrCalls Unit Unit Unit :=
  ⟨fun _ _ => 0, fun _ _ => 0, failingNotify, id, failingNotify_lower⟩

/-- A file of one page, which is in memory. -/
def onePageCached : InodePair Unit :=
  ⟨⟨4096, fun index => if index = 0 then some fun _ => 0x61 else none, ()⟩, ⟨4096, ()⟩⟩

/-- The file is truncated to nothing: the call fails, the page is gone, and the upper size is 0
where the lower one is 4096. -/
theorem not_failsCleanly_truncate :
    (failingTruncate.trfsSetattr onePageCached ⟨attrSize, 0, (), ()⟩).1.toInt = -5 ∧
      (failingTruncate.trfsSetattr onePageCached ⟨attrSize, 0, (), ()⟩).2.upper.size = 0 ∧
      (failingTruncate.trfsSetattr onePageCached ⟨attrSize, 0, (), ()⟩).2.upper.mapping 0 = none ∧
      (failingTruncate.trfsSetattr onePageCached ⟨attrSize, 0, (), ()⟩).2.lower.size = 4096 ∧
      ¬ failingTruncate.FailsCleanly onePageCached ⟨attrSize, 0, (), ()⟩ := by
  refine ⟨by decide, by decide, by decide, by decide, ?_⟩
  intro clean
  have sizes := (clean (by decide)).2 rfl
  exact absurd sizes (by decide)

end Tracefs
