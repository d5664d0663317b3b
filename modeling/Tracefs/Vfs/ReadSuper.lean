import Tracefs.Vfs.Inodes
import Tracefs.Vfs.Mount

/-!
# A mount that fails

`trfs_read_super` with every outcome of the calls inside it.  It acquires the
option block, the queues, the trace file, the log driver, the log thread, the
device, and then the lower path, the private data of the super block, the lower
super block, the root inode and the root dentry.  Its labels undo only some of it.
-/

namespace Tracefs

open Balance

/-- What `trfs_read_super` takes besides the resources of the module. -/
inductive MountRef where
  | optionBlock
  | filename
  | lowerPath
  | sbInfo
  | lowerSuper
  | inode
  | lowerInode
  | root
  deriving DecidableEq

/-- How `match_token` classifies an option. -/
inductive MountOption where
  | tfile (name : List UInt8)
  | unrecognized

structure TrfsOptions where
  filename : Option (List UInt8)
  err : Int

/-- `trfs_parse_options` with its block allocated.  A file name makes up for an
unrecognized option before it. -/
def trfsParseOptions : Option (List MountOption) → TrfsOptions
  | none => ⟨none, -22⟩
  | some options =>
      options.foldl (fun tOp option =>
        match option with
        | .tfile name => ⟨some name, 0⟩
        | .unrecognized => { tOp with err := -22 }) ⟨none, 0⟩

/-- Every file name is copied to a buffer of its own. -/
def filenameBuffers (options : List MountOption) : List (Entry MountRef) :=
  options.flatMap fun
    | .tfile _ => [.take .filename]
    | .unrecognized => []

/-- `filp_open` returns an error pointer or a file. -/
inductive FilpOpen where
  | failed (err : Int) (negative : err < 0)
  | opened (regular : Bool)

/-- The outcomes of the calls inside `trfs_read_super`, as far as it makes them.
Those for the character device succeed. -/
structure MountOutcomes where
  devName : Bool
  optionBlock : Bool
  options : Option (List MountOption)
  filpOpen : FilpOpen
  driver : Bool
  kernPath : Int
  sbInfo : Bool
  iget : InodeOutcomes
  dMakeRoot : Bool
  privateData : Bool

/-- What a mount returns and leaves behind.  `oops` says that it has dereferenced
an error pointer or a null pointer. -/
structure MountResult where
  err : Int
  module : TrfsModule
  entries : List (Entry MountRef)
  oops : Bool

/-- `trfs_log_write_init`: the offset is set before the error is looked at. -/
def TrfsModule.logWriteInit (module : TrfsModule) (tfileName : Option (List UInt8)) :
    FilpOpen → Int × TrfsModule × Bool
  | filpOpen =>
      match tfileName, filpOpen with
      | none, _ => (-2, module, false)
      | some _, .failed err _ => (err, module, true)
      | some _, .opened regular =>
          (if regular then 0 else -5, { module with tfile := true }, false)

namespace MountOutcomes

/-- The label `out_free`. -/
def outFree : List (Entry MountRef) := [.drop .optionBlock, .drop .lowerPath]

/-- The label `out_sput`. -/
def outSput : List (Entry MountRef) := .drop .lowerSuper :: .drop .sbInfo :: outFree

/-- The label `out_iput`. -/
def outIput : List (Entry MountRef) := .drop .inode :: outSput

/-- With the last reference on the root inode `trfs_evict_inode` drops the lower inode. -/
def evictRoot : List (Entry MountRef) := [.drop .inode, .drop .lowerInode]

/-- The label `out_freeroot`.  The root dentry drops its inode. -/
def outFreeroot : List (Entry MountRef) := .drop .root :: evictRoot ++ outIput

/-- What `trfs_iget` takes and drops for the first inode of a super block. -/
def igetEntries (outcomes : InodeOutcomes) : List (Entry MountRef) :=
  match outcomes.allocated, outcomes.grabbed with
  | false, _ => [.drop .lowerInode]
  | true, false => [.take .inode]
  | true, true => [.take .inode, .take .lowerInode]

/-- The part of `trfs_read_super` from `kern_path` on.  `d_make_root` consumes the
inode in any case.  To release a root without private data dereferences a null
pointer. -/
def readLower (outcomes : MountOutcomes) : Int × List (Entry MountRef) × Bool :=
  let linked : List (Entry MountRef) :=
    [.take .lowerPath, .take .sbInfo, .take .lowerSuper] ++ igetEntries outcomes.iget
  if outcomes.kernPath ≠ 0 then (outcomes.kernPath, [], false)
  else if outcomes.sbInfo = false then (-12, .take .lowerPath :: outFree, false)
  else
    match (InodeTable.empty.trfsIget () outcomes.iget).1 with
    | .error err => (err.toInt, linked ++ outSput, false)
    | .ok _ =>
        if outcomes.dMakeRoot = false then (-12, linked ++ evictRoot ++ outIput, false)
        else if outcomes.privateData = false then
          (-12, linked ++ .take .root :: outFreeroot, true)
        else (0, linked ++ [.take .root], false)

end MountOutcomes

namespace TrfsModule

/-- The part of `trfs_read_super` from `trfs_create_log_q` to `trfs_ioctl_init`. -/
def startTracing (module : TrfsModule) (filename : Option (List UInt8))
    (outcomes : MountOutcomes) : Int × TrfsModule × Bool :=
  let created := trfsCreateLogQ module.queues
  let module := { module with queues := created.2 }
  if created.1 < 0 then (-22, module, false)
  else
    let (ret, module, oops) := module.logWriteInit filename outcomes.filpOpen
    if ret < 0 then (-22, module, oops)
    else
      let module := { module with tld := outcomes.driver }.trfsKthreadCreate module.trfsKthread
      if outcomes.driver = false then (-12, module, false)
      else (0, { module with kernelCdev := true }, false)

/-- `trfs_read_super`, whatever its calls return. -/
def readSuper (module : TrfsModule) (outcomes : MountOutcomes) : MountResult :=
  if outcomes.devName = false then ⟨-22, module, [], false⟩
  else if outcomes.optionBlock = false then ⟨-12, module, [], false⟩
  else
    let tOp := trfsParseOptions outcomes.options
    let parsed := .take .optionBlock :: filenameBuffers (outcomes.options.getD [])
    if tOp.err ≠ 0 ∧ outcomes.options.isSome then ⟨tOp.err, module, parsed, false⟩
    else
      let (err, module, oops) := module.startTracing tOp.filename outcomes
      if err ≠ 0 then ⟨err, module, parsed, oops⟩
      else
        let (err, entries, oops) := outcomes.readLower
        ⟨err, module, parsed ++ entries, oops⟩

/-- If the mount fails, everything is as before and no bad pointer has been
dereferenced. -/
def RestoresOnError (module : TrfsModule) (outcomes : MountOutcomes) : Prop :=
  let result := module.readSuper outcomes
  result.err ≠ 0 →
    result.module.resources = module.resources ∧ balance result.entries = 0 ∧ result.oops = false

/-- There is a file name, ten queues are free, and every call succeeds. -/
structure Succeeds (module : TrfsModule) (outcomes : MountOutcomes) : Prop where
  parsed : (trfsParseOptions outcomes.options).err = 0
  named : (trfsParseOptions outcomes.options).filename.isSome
  room : module.queues.table.numAfdxQs + trfsTxQMaxNodes ≤ trfsMqMaxNoOfQ
  opened : outcomes.filpOpen = .opened true
  driver : outcomes.driver = true
  kernPath : outcomes.kernPath = 0
  sbInfo : outcomes.sbInfo = true
  allocated : outcomes.iget.allocated = true
  grabbed : outcomes.iget.grabbed = true
  dMakeRoot : outcomes.dMakeRoot = true
  privateData : outcomes.privateData = true

end TrfsModule

theorem balance_filenameBuffers (options : List MountOption) :
    balance (filenameBuffers options) .optionBlock = 0 := by
  induction options with
  | nil => rfl
  | cons option options inductionHypothesis =>
      have split : filenameBuffers (option :: options) =
          filenameBuffers [option] ++ filenameBuffers options := by
        simp [filenameBuffers]
      rw [split, balance_append, Pi.add_apply, inductionHypothesis]
      cases option <;> rfl

/-- The option block is still there right after the options are parsed. -/
theorem balance_parsed_ne_zero (options : List MountOption) :
    balance (.take .optionBlock :: filenameBuffers options) ≠ 0 := by
  intro zero
  have kept := congrFun zero .optionBlock
  rw [balance_cons, Pi.add_apply, balance_filenameBuffers, Entry.amount, unit_self] at kept
  cases kept

/-- All ten queues are opened, or there was no room for them. -/
theorem LogQueues.openFrom_cases (queues : LogQueues) (i remaining : Nat) :
    ((queues.openFrom i remaining).1 = 0 ∧
      (queues.openFrom i remaining).2.table.numAfdxQs = queues.table.numAfdxQs + remaining ∧
      (queues.table.numAfdxQs + remaining ≤ trfsMqMaxNoOfQ ∨ remaining = 0)) ∨
    ((queues.openFrom i remaining).1 = -1 ∧
      trfsMqMaxNoOfQ < queues.table.numAfdxQs + remaining) := by
  induction remaining generalizing queues i with
  | zero => exact .inl ⟨rfl, rfl, .inr rfl⟩
  | succ remaining inductionHypothesis =>
      rcases Nat.lt_or_ge queues.table.numAfdxQs trfsMqMaxNoOfQ with room | full
      · have more : (queues.table.addNode txQAttr).numAfdxQs = queues.table.numAfdxQs + 1 := rfl
        rw [openFrom_room room]
        rcases inductionHypothesis ⟨queues.table.addNode txQAttr,
            Function.update queues.txQId i queues.table.mqIdSeq⟩ (i + 1) with
          ⟨ret, opened, fits⟩ | ⟨ret, crowded⟩
        · simp only [more] at opened fits
          exact .inl ⟨ret, by omega, .inl (by omega)⟩
        · simp only [more] at crowded
          exact .inr ⟨ret, by omega⟩
      · rw [openFrom_full full]
        exact .inr ⟨rfl, by omega⟩

namespace MountOutcomes

/-- The two accounts of the references on the lower root inode agree. -/
theorem balance_igetEntries (outcomes : InodeOutcomes) :
    balance (igetEntries outcomes) .lowerInode =
      ((InodeTable.empty : InodeTable Unit).trfsIget () outcomes).2.held () := by
  obtain ⟨allocated, grabbed⟩ := outcomes
  cases allocated <;> cases grabbed <;> decide

theorem readLower_err_iff (outcomes : MountOutcomes) :
    outcomes.readLower.1 = 0 ↔
      outcomes.kernPath = 0 ∧ outcomes.sbInfo = true ∧ outcomes.iget.allocated = true ∧
        outcomes.iget.grabbed = true ∧ outcomes.dMakeRoot = true ∧
        outcomes.privateData = true := by
  obtain ⟨-, -, -, -, -, kernPath, sbInfo, ⟨allocated, grabbed⟩, dMakeRoot, privateData⟩ := outcomes
  simp only [readLower]
  by_cases found : kernPath = 0
  · subst found
    cases sbInfo <;> cases allocated <;> cases grabbed <;> cases dMakeRoot <;>
      cases privateData <;> decide
  · simp [found]

end MountOutcomes

namespace TrfsModule

/-- The set-up fails, or it has taken ten queues. -/
theorem startTracing_cases (module : TrfsModule) (filename : Option (List UInt8))
    (outcomes : MountOutcomes) :
    (module.startTracing filename outcomes).1 ≠ 0 ∧
        (trfsMqMaxNoOfQ < module.queues.table.numAfdxQs + trfsTxQMaxNodes ∨ filename = none ∨
          outcomes.filpOpen ≠ .opened true ∨ outcomes.driver = false) ∨
      (module.startTracing filename outcomes).1 = 0 ∧
        (module.startTracing filename outcomes).2.1.queues.table.numAfdxQs =
          module.queues.table.numAfdxQs + trfsTxQMaxNodes ∧
        module.queues.table.numAfdxQs + trfsTxQMaxNodes ≤ trfsMqMaxNoOfQ ∧ filename.isSome ∧
        outcomes.filpOpen = .opened true ∧ outcomes.driver = true := by
  rcases LogQueues.openFrom_cases module.queues 0 trfsTxQMaxNodes with
    ⟨ret, opened, fits⟩ | ⟨ret, crowded⟩
  · have created : (trfsCreateLogQ module.queues).1 = 0 := ret
    have room : module.queues.table.numAfdxQs + trfsTxQMaxNodes ≤ trfsMqMaxNoOfQ :=
      fits.resolve_right (by decide)
    cases filename with
    | none => exact .inl ⟨by simp [startTracing, created, logWriteInit], .inr (.inl rfl)⟩
    | some name =>
        obtain ⟨-, -, -, filpOpen, driver, -⟩ := outcomes
        cases filpOpen with
        | failed err negative =>
            exact .inl ⟨by simp [startTracing, created, logWriteInit, negative], by simp⟩
        | opened regular =>
            cases regular with
            | false => exact .inl ⟨by simp [startTracing, created, logWriteInit], by simp⟩
            | true =>
                cases driver with
                | false => exact .inl ⟨by simp [startTracing, created, logWriteInit], by simp⟩
                | true =>
                    refine .inr
                      ⟨by simp [startTracing, created, logWriteInit], ?_, room, rfl, rfl, rfl⟩
                    simp only [startTracing, created, logWriteInit]
                    exact opened
  · have created : (trfsCreateLogQ module.queues).1 = -1 := ret
    exact .inl ⟨by simp [startTracing, created], .inl crowded⟩

theorem Succeeds.startTracing {module : TrfsModule} {outcomes : MountOutcomes}
    (succeeds : module.Succeeds outcomes) :
    (module.startTracing (trfsParseOptions outcomes.options).filename outcomes).1 = 0 := by
  rcases module.startTracing_cases (trfsParseOptions outcomes.options).filename outcomes with
    ⟨-, crowded | unnamed | unopened | noDriver⟩ | ⟨started, -⟩
  · exact absurd crowded (Nat.not_lt_of_le succeeds.room)
  · have named := succeeds.named
    rw [unnamed] at named
    cases named
  · exact absurd succeeds.opened unopened
  · have driver := succeeds.driver
    rw [noDriver] at driver
    cases driver
  · exact started

theorem Succeeds.readLower {module : TrfsModule} {outcomes : MountOutcomes}
    (succeeds : module.Succeeds outcomes) : outcomes.readLower.1 = 0 :=
  outcomes.readLower_err_iff.mpr ⟨succeeds.kernPath, succeeds.sbInfo, succeeds.allocated,
    succeeds.grabbed, succeeds.dMakeRoot, succeeds.privateData⟩

/-- What a mount does once it has an option block. -/
theorem readSuper_eq {module : TrfsModule} {outcomes : MountOutcomes}
    (devName : outcomes.devName = true) (optionBlock : outcomes.optionBlock = true) :
    module.readSuper outcomes =
      let tOp := trfsParseOptions outcomes.options
      let parsed := .take .optionBlock :: filenameBuffers (outcomes.options.getD [])
      if tOp.err ≠ 0 ∧ outcomes.options.isSome then ⟨tOp.err, module, parsed, false⟩
      else
        let started := module.startTracing tOp.filename outcomes
        if started.1 ≠ 0 then ⟨started.1, started.2.1, parsed, started.2.2⟩
        else
          let lower := outcomes.readLower
          ⟨lower.1, started.2.1, parsed ++ lower.2.1, lower.2.2⟩ := by
  rw [readSuper, if_neg (by simp [devName]), if_neg (by simp [optionBlock])]

/-- A mount that succeeds sets up the module as `trfsReadSuper` says. -/
theorem readSuper_of_succeeds {module : TrfsModule} {outcomes : MountOutcomes}
    (devName : outcomes.devName = true) (optionBlock : outcomes.optionBlock = true)
    (succeeds : module.Succeeds outcomes) {filename : List UInt8}
    (named : (trfsParseOptions outcomes.options).filename = some filename) :
    ((module.readSuper outcomes).err, (module.readSuper outcomes).module) =
      module.trfsReadSuper (some filename) := by
  have started := succeeds.startTracing
  have created : (trfsCreateLogQ module.queues).1 = 0 := by
    rcases LogQueues.openFrom_cases module.queues 0 trfsTxQMaxNodes with ⟨ret, -⟩ | ⟨-, crowded⟩
    · exact ret
    · exact absurd crowded (Nat.not_lt_of_le succeeds.room)
  rw [trfsReadSuper_of_created created, readSuper_eq devName optionBlock]
  dsimp only
  rw [if_neg fun wrong => wrong.1 succeeds.parsed, if_neg (not_not.mpr started), succeeds.readLower]
  simp [TrfsModule.startTracing, created, named, logWriteInit, succeeds.opened, succeeds.driver,
    trfsKthreadCreate]

/-- A mount that has an option block leaves something behind unless it succeeds. -/
theorem restoresOnError_iff_succeeds {module : TrfsModule} {outcomes : MountOutcomes}
    (devName : outcomes.devName = true) (optionBlock : outcomes.optionBlock = true) :
    module.RestoresOnError outcomes ↔ module.Succeeds outcomes := by
  rw [RestoresOnError, readSuper_eq devName optionBlock]
  dsimp only
  split
  next wrong =>
    -- a parse error leaves the option block
    refine iff_of_false (fun restores => ?_) fun succeeds => wrong.1 succeeds.parsed
    exact balance_parsed_ne_zero _ (restores wrong.1).2.1
  next right =>
    split
    next failed =>
      refine iff_of_false (fun restores => ?_) fun succeeds => ?_
      · exact balance_parsed_ne_zero _ (restores failed).2.1
      · exact failed succeeds.startTracing
    next started =>
      refine ⟨fun restores => ?_, fun succeeds failed => absurd succeeds.readLower failed⟩
      rcases module.startTracing_cases (trfsParseOptions outcomes.options).filename outcomes with
        ⟨failed, -⟩ | ⟨-, grown, room, named, opened, driver⟩
      · exact absurd failed started
      · have mounted : outcomes.readLower.1 = 0 := by
          -- after any later failure the queues are still taken
          by_contra failed
          have queues := congrArg Resources.queues (restores failed).1
          simp only [resources, grown, trfsTxQMaxNodes] at queues
          omega
        obtain ⟨kernPath, sbInfo, allocated, grabbed, dMakeRoot, privateData⟩ :=
          outcomes.readLower_err_iff.mp mounted
        have parsed : (trfsParseOptions outcomes.options).err = 0 := by
          by_contra wrong
          cases given : outcomes.options with
          | none => simp [given, trfsParseOptions] at named
          | some options => exact right ⟨wrong, by simp [given]⟩
        exact ⟨parsed, named, room, opened, driver, kernPath, sbInfo, allocated, grabbed,
          dMakeRoot, privateData⟩

/-- A mount restores everything on an error exactly when the error comes before
the option block, or there is none. -/
theorem restoresOnError_iff (module : TrfsModule) (outcomes : MountOutcomes) :
    module.RestoresOnError outcomes ↔
      outcomes.devName = false ∨ outcomes.optionBlock = false ∨ module.Succeeds outcomes := by
  cases devName : outcomes.devName with
  | false =>
      refine iff_of_true (fun _ => ?_) (.inl rfl)
      simp [readSuper, devName]
  | true =>
      cases optionBlock : outcomes.optionBlock with
      | false =>
          refine iff_of_true (fun _ => ?_) (.inr (.inl rfl))
          simp [readSuper, devName, optionBlock]
      | true =>
          rw [restoresOnError_iff_succeeds devName optionBlock]
          simp

/-- `-EACCES`, for a trace file in a directory that is not to be written to. -/
theorem eacces_negative : (-13 : Int) < 0 := by decide

/-- All calls succeed, but the lower directory does not exist. -/
def noLowerDirectory : MountOutcomes where
  devName := true
  optionBlock := true
  options := some [.tfile [47, 116]]
  filpOpen := .opened true
  driver := true
  kernPath := -2
  sbInfo := true
  iget := ⟨true, true⟩
  dMakeRoot := true
  privateData := true

/-- Queues, trace file, log driver, thread, device and option block stay.  If the
trace file cannot be opened the error pointer is dereferenced, and if there is no
root dentry the inode is dropped twice. -/
theorem not_restoresOnError_lowerDirectory :
    (boot.readSuper noLowerDirectory).err = -2 ∧
      (boot.readSuper noLowerDirectory).module.resources = ⟨10, [0], true, true, true⟩ ∧
      balance (boot.readSuper noLowerDirectory).entries .optionBlock = 1 ∧
      (boot.readSuper { noLowerDirectory with
        filpOpen := .failed (-13) eacces_negative }).oops = true ∧
      balance (boot.readSuper { noLowerDirectory with
        kernPath := 0, dMakeRoot := false }).entries .inode = -1 ∧
      ¬ boot.RestoresOnError noLowerDirectory := by
  have kept :
      (boot.readSuper noLowerDirectory).module.resources = ⟨10, [0], true, true, true⟩ := rfl
  refine ⟨rfl, kept, rfl, rfl, rfl, fun restores => ?_⟩
  have failed : (boot.readSuper noLowerDirectory).err ≠ 0 := by decide
  exact absurd (kept.symm.trans (restores failed).1) (by decide)

end TrfsModule

end Tracefs
