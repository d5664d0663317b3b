import Tracefs.Vfs.ReadSuper

/-!
# From loading the module to unloading it

Mounts are attempted with any outcome of the calls inside them, and in between
the file system is used and unmounted.  The slots of the queue table are handed
out once: the first attempt that gets past its options takes ten of the twelve,
and no later one finds enough, whether the first has succeeded or not.  What
`trfsMqOpen` stores behind `msg` is taken to hit nothing that is used here; behind
the last node of the table, `numAfdxQs` is not the variable that follows.
-/

namespace Tracefs

open Bytes Transition

/-- The attempt gets as far as `trfs_create_log_q`.  A mount without options does,
although its options are in error. -/
def MountOutcomes.ReachesQueues (outcomes : MountOutcomes) : Prop :=
  outcomes.devName = true ∧ outcomes.optionBlock = true ∧
    ((trfsParseOptions outcomes.options).err = 0 ∨ outcomes.options = none)

/-- What happens to a loaded module. -/
inductive ModuleEvent where
  | mount (outcomes : MountOutcomes)
  | use (event : MountEvent)
  | unmount (stack : Memory)

/-- An attempt to mount that gets as far as the queues. -/
def ModuleEvent.TakesQueues : ModuleEvent → Prop
  | mount outcomes => outcomes.ReachesQueues
  | use _ | unmount _ => False

/-- A module and whether its file system is mounted. -/
structure LoadedModule where
  module : TrfsModule
  mounted : Bool

namespace LoadedModule

def start : LoadedModule := ⟨.boot, false⟩

/-- `put_super`, and with it `trfs_exit`, is called for a super block that was
mounted only.  Hooks run on a mounted file system, log threads at any time. -/
def step (loaded : LoadedModule) : ModuleEvent → LoadedModule
  | .mount outcomes =>
      let result := loaded.module.readSuper outcomes
      ⟨result.module, loaded.mounted || result.err = 0⟩
  | .use (.trace record) =>
      if loaded.mounted then { loaded with module := loaded.module.step (.trace record) }
      else loaded
  | .use (.turn thread) => { loaded with module := loaded.module.step (.turn thread) }
  | .unmount stack =>
      if loaded.mounted then ⟨loaded.module.trfsExit stack, false⟩ else loaded

def after (events : List ModuleEvent) : LoadedModule := run step start events

end LoadedModule

namespace TrfsModule

variable {module : TrfsModule} {count : Nat}

/-- When a mount succeeds. -/
theorem readSuper_err_iff (module : TrfsModule) (outcomes : MountOutcomes) :
    (module.readSuper outcomes).err = 0 ↔
      outcomes.devName = true ∧ outcomes.optionBlock = true ∧ module.Succeeds outcomes := by
  constructor
  · intro mounted
    have devName : outcomes.devName = true := by
      by_contra missing
      rw [readSuper, if_pos (Bool.not_eq_true _ ▸ missing)] at mounted
      cases mounted
    have optionBlock : outcomes.optionBlock = true := by
      by_contra missing
      rw [readSuper, if_neg (by simp [devName]), if_pos (Bool.not_eq_true _ ▸ missing)] at mounted
      cases mounted
    refine ⟨devName, optionBlock, (restoresOnError_iff_succeeds devName optionBlock).mp ?_⟩
    exact fun failed => absurd mounted failed
  · rintro ⟨devName, optionBlock, succeeds⟩
    rw [readSuper_eq devName optionBlock]
    dsimp only
    rw [if_neg fun wrong => wrong.1 succeeds.parsed, if_neg (not_not.mpr succeeds.startTracing)]
    exact succeeds.readLower

/-- Room for ten queues is all that a mount asks of the module. -/
theorem Succeeds.on {other : TrfsModule} {outcomes : MountOutcomes}
    (succeeds : module.Succeeds outcomes)
    (room : other.queues.table.numAfdxQs + trfsTxQMaxNodes ≤ trfsMqMaxNoOfQ) :
    other.Succeeds outcomes :=
  { succeeds with room := room }

namespace HasOpened

theorem startTracing (opened : module.HasOpened count) (filename : Option (List UInt8))
    (outcomes : MountOutcomes) :
    (module.startTracing filename outcomes).2.1.HasOpened
      (min trfsMqMaxNoOfQ (count + trfsTxQMaxNodes)) := by
  obtain ⟨wellFormed, numAfdxQs, -⟩ :=
    LogQueues.openFrom_opens opened.wellFormed 0 trfsTxQMaxNodes
  rw [opened.numAfdxQs] at numAfdxQs
  rw [TrfsModule.startTracing]
  dsimp only
  split
  next => exact ⟨wellFormed, numAfdxQs⟩
  next =>
    -- what comes behind the queues leaves them alone
    cases filename with
    | none => exact ⟨wellFormed, numAfdxQs⟩
    | some name =>
        cases outcomes.filpOpen with
        | failed err negative =>
            simp only [logWriteInit, negative, if_true]
            exact ⟨wellFormed, numAfdxQs⟩
        | opened regular =>
            cases regular <;> cases outcomes.driver <;> exact ⟨wellFormed, numAfdxQs⟩

/-- An attempt takes ten slots, or what is left, as soon as it reaches the queues. -/
theorem readSuper (opened : module.HasOpened count) (outcomes : MountOutcomes) :
    (outcomes.ReachesQueues ∧ (module.readSuper outcomes).module.HasOpened
        (min trfsMqMaxNoOfQ (count + trfsTxQMaxNodes))) ∨
      (¬ outcomes.ReachesQueues ∧ (module.readSuper outcomes).module.HasOpened count) := by
  by_cases named : outcomes.devName = true ∧ outcomes.optionBlock = true
  · obtain ⟨devName, optionBlock⟩ := named
    rw [readSuper_eq devName optionBlock]
    dsimp only
    split
    next wrong =>
      refine .inr ⟨?_, opened⟩
      rintro ⟨-, -, right | absent⟩
      · exact wrong.1 right
      · simp [absent] at wrong
    next right =>
      refine .inl ⟨⟨devName, optionBlock, ?_⟩, ?_⟩
      · by_contra! bad
        exact right ⟨bad.1, Option.isSome_iff_ne_none.mpr bad.2⟩
      · have started := opened.startTracing (trfsParseOptions outcomes.options).filename outcomes
        split <;> exact started
  · refine .inr ⟨fun reaches => named ⟨reaches.1, reaches.2.1⟩, ?_⟩
    rw [TrfsModule.readSuper]
    split
    next => exact opened
    next devName =>
      rw [if_pos (by simpa [devName] using named)]
      exact opened

end HasOpened

end TrfsModule

namespace LoadedModule

/-- Slots are handed out by attempts that reach the queues, and never handed back. -/
theorem hasOpened_step {loaded : LoadedModule} {count : Nat}
    (opened : loaded.module.HasOpened count) (event : ModuleEvent) :
    (event.TakesQueues ∧ (loaded.step event).module.HasOpened
        (min trfsMqMaxNoOfQ (count + trfsTxQMaxNodes))) ∨
      (¬ event.TakesQueues ∧ (loaded.step event).module.HasOpened count) := by
  cases event with
  | mount outcomes => exact opened.readSuper outcomes
  | use event =>
      refine .inr ⟨id, ?_⟩
      cases event with
      | trace record =>
          rw [step]
          split
          next => exact opened.step (.trace record)
          next => exact opened
      | turn thread => exact opened.step (.turn thread)
  | unmount stack =>
      refine .inr ⟨id, ?_⟩
      rw [step]
      split
      next => exact opened.trfsExit stack
      next => exact opened

/-- None of the slots is taken, or too few are left. -/
theorem hasOpened_run {loaded : LoadedModule} {count : Nat}
    (opened : loaded.module.HasOpened count) (events : List ModuleEvent) :
    ∃ count', (run step loaded events).module.HasOpened count' ∧
      ((∀ event ∈ events, ¬ event.TakesQueues) ∧ count' = count ∨
        (¬ ∀ event ∈ events, ¬ event.TakesQueues) ∧ trfsTxQMaxNodes ≤ count') := by
  induction events generalizing loaded count with
  | nil => exact ⟨count, opened, .inl ⟨by simp, rfl⟩⟩
  | cons event events inductionHypothesis =>
      rw [run_cons, List.forall_mem_cons]
      rcases hasOpened_step opened event with ⟨takes, next⟩ | ⟨stays, next⟩
      · obtain ⟨count', final, kept⟩ := inductionHypothesis next
        refine ⟨count', final, .inr ⟨fun none => none.1 takes, ?_⟩⟩
        rcases kept with ⟨-, rfl⟩ | ⟨-, enough⟩
        · exact le_min (by decide) (Nat.le_add_left _ _)
        · exact enough
      · obtain ⟨count', final, kept⟩ := inductionHypothesis next
        exact ⟨count', final, by simpa [stays] using kept⟩

end LoadedModule

/-- A mount succeeds exactly when it would on the module just loaded and no earlier
attempt has got past its options.  The stores of `trfsMqOpen` behind `msg` are taken
to hit nothing else. -/
theorem mount_succeeds_iff_first (events : List ModuleEvent) (outcomes : MountOutcomes) :
    ((LoadedModule.after events).module.readSuper outcomes).err = 0 ↔
      (TrfsModule.boot.readSuper outcomes).err = 0 ∧ ∀ event ∈ events, ¬ event.TakesQueues := by
  have boot : LoadedModule.start.module.HasOpened 0 := TrfsModule.hasOpened_boot
  obtain ⟨count, opened, kept⟩ := LoadedModule.hasOpened_run boot events
  rw [TrfsModule.readSuper_err_iff, TrfsModule.readSuper_err_iff]
  constructor
  · rintro ⟨devName, optionBlock, succeeds⟩
    have room := succeeds.room
    rw [LoadedModule.after, opened.numAfdxQs] at room
    refine ⟨⟨devName, optionBlock, succeeds.on (by decide)⟩, ?_⟩
    rcases kept with ⟨none, -⟩ | ⟨-, enough⟩
    · exact none
    · -- two slots are left of twelve
      have short : trfsTxQMaxNodes + trfsTxQMaxNodes ≤ trfsMqMaxNoOfQ :=
        (Nat.add_le_add_right enough _).trans room
      exact absurd short (by decide)
  · rintro ⟨⟨devName, optionBlock, succeeds⟩, none⟩
    rcases kept with ⟨-, rfl⟩ | ⟨some, -⟩
    · refine ⟨devName, optionBlock, succeeds.on ?_⟩
      rw [LoadedModule.after, opened.numAfdxQs]
      decide
    · exact absurd none some

/-- A mount without options fails, and so does the next one, with a trace file. -/
example :
    let first : ModuleEvent := .mount { TrfsModule.noLowerDirectory with options := none }
    let second := { TrfsModule.noLowerDirectory with kernPath := 0 }
    ((LoadedModule.after [first]).module.readSuper second).err = -22 ∧
      (TrfsModule.boot.readSuper second).err = 0 := by
  decide

end Tracefs
