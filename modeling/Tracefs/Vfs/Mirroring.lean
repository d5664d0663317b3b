import Tracefs.Vfs.Stacking

/-!
# The mounted tree over the lower tree

The tree of dentries that a mount shows is, at any time, part of the lower one: a path that leads to
a dentry leads to its lower dentry below.  Therefore the two ways of finding a lower directory
agree, and every operation on a name reaches the entry of that name in the lower directory.
-/

namespace Tracefs

open NameCache Transition

section Lower

variable {Inode : Type} {lower looked : Cache Name Inode} {dir : Nat} {name : Name}

/-- A lookup leaves a cache as it is or enters the name there. -/
def Grown (lower : Cache Name Inode) (dir : Nat) (name : Name) (looked : Cache Name Inode) : Prop :=
  looked = lower ∨
    ∃ inode, (∀ low, ¬ lower.Names dir name low) ∧ looked = lower.enter dir name inode

theorem Grown.wellFormed (grown : Grown lower dir name looked) (wellFormed : lower.WellFormed) :
    looked.WellFormed := by
  rcases grown with rfl | ⟨inode, free, rfl⟩
  · exact wellFormed
  · exact wellFormed.enter free inode

theorem Grown.node_of_lt (grown : Grown lower dir name looked) {low : Nat}
    (allocated : low < lower.count) : looked.node low = lower.node low := by
  rcases grown with rfl | ⟨inode, -, rfl⟩
  · rfl
  · exact Cache.node_enter_of_ne _ _ _ allocated.ne

theorem Grown.count_le (grown : Grown lower dir name looked) : lower.count ≤ looked.count := by
  rcases grown with rfl | ⟨inode, -, rfl⟩
  · exact le_rfl
  · exact Nat.le_succ _

/-- The lookup says that the name exists exactly if the cache then has it with an inode. -/
def PathLookup.Agrees (looked : Cache Name Inode) (dir : Nat) (name : Name) :
    PathLookup Nat Unit → Prop
  | .found path => looked.Names dir name path.dentry ∧ (looked.node path.dentry).inode.isSome
  | .failed _ _ => ∀ low, looked.Names dir name low → (looked.node low).inode = none

theorem vfsPathLookup_spec (wellFormed : lower.WellFormed) (dir : Nat) (name : Name)
    (fetched : Fetched Inode) :
    Grown lower dir name (vfsPathLookup lower dir name fetched).1 ∧
      (vfsPathLookup lower dir name fetched).2.Agrees (vfsPathLookup lower dir name fetched).1 dir
        name := by
  unfold vfsPathLookup
  cases cached : lower.dLookup dir name with
  | some low =>
      have names := wellFormed.dLookup_eq_some.mp cached
      refine ⟨.inl rfl, ?_⟩
      dsimp only
      split
      next positive => exact ⟨names, positive⟩
      next negative =>
        intro other otherNames
        rw [wellFormed.unique dir name other low otherNames names]
        simpa using negative
  | none =>
      have free := wellFormed.dLookup_eq_none.mp cached
      cases fetched with
      | present inode =>
          refine ⟨.inr ⟨some inode, free, rfl⟩, wellFormed.names_enter dir name _, ?_⟩
          rw [Cache.node_enter_self]
          rfl
      | absent kept =>
          cases kept with
          | false => exact ⟨.inl rfl, fun low names => absurd names (free low)⟩
          | true =>
              refine ⟨.inr ⟨none, free, rfl⟩, fun low names => ?_⟩
              rw [(wellFormed.enter free none).unique dir name low lower.count names
                (wellFormed.names_enter dir name none), Cache.node_enter_self]
      | failed err nonzero => exact ⟨.inl rfl, fun low names => absurd names (free low)⟩

/-- The lower path that a lookup stores, unless the dentry is a root. -/
theorem lowerPath_trfsLookup {parent : Nat} {lowerDir path : LowerPath Nat Unit}
    {outcomes : LookupOutcomes Nat Unit} (notRoot : outcomes.isRoot = false)
    (stored : (trfsLookup parent lowerDir outcomes).lowerPath = some path) :
    outcomes.vfsPathLookup = .found path ∨
      ∃ nonzero, outcomes.vfsPathLookup = .failed .enoent nonzero ∧
        (outcomes.dLookup = some path.dentry ∨
          outcomes.dLookup = none ∧ outcomes.dAlloc = some path.dentry) := by
  obtain ⟨newPrivateData, isRoot, looked, retDentry, cached, allocated⟩ := outcomes
  obtain rfl : isRoot = false := notRoot
  rw [trfsLookup] at stored
  dsimp only at stored ⊢
  split at stored
  next => cases stored
  next =>
    rw [lookupBelow] at stored
    cases looked with
    | found found =>
        simp only [Bool.false_eq_true, if_false] at stored
        split at stored
        next => cases stored
        next =>
          cases stored
          exact .inl rfl
    | failed err nonzero =>
        simp only [Bool.false_eq_true, if_false] at stored
        split at stored
        next => cases stored
        next missing =>
          obtain rfl := not_not.mp missing
          refine .inr ⟨nonzero, rfl, ?_⟩
          cases cached with
          | some low =>
              cases stored
              exact .inl rfl
          | none =>
              cases allocated with
              | none => cases stored
              | some low =>
                  cases stored
                  exact .inr ⟨rfl, rfl⟩

/-- What a lookup stores is the lower dentry of that name. -/
theorem consult_spec (wellFormed : lower.WellFormed) (dir : Nat) (name : Name)
    (inputs : LookupInputs Inode) (parent : Nat) :
    Grown lower dir name (consult lower dir name inputs).1 ∧
      ∀ path,
        (trfsLookup parent ⟨dir, ()⟩ (consult lower dir name inputs).2).lowerPath = some path →
        (consult lower dir name inputs).1.Names dir name path.dentry ∧
        (consult lower dir name inputs).2.vfsPathLookup.Agrees (consult lower dir name inputs).1 dir
          name := by
  obtain ⟨grown, agrees⟩ := vfsPathLookup_spec wellFormed dir name inputs.fetched
  have seenFormed := grown.wellFormed wellFormed
  rw [consult]
  revert grown agrees seenFormed
  generalize vfsPathLookup lower dir name inputs.fetched = seen
  obtain ⟨looked, result⟩ := seen
  intro grown agrees seenFormed
  dsimp only at grown agrees seenFormed ⊢
  by_cases allocates : result.isEnoent ∧ looked.dLookup dir name = none ∧ inputs.dAlloc
  · rw [if_pos allocates]
    obtain ⟨enoent, uncached, dAlloc⟩ := allocates
    have free := seenFormed.dLookup_eq_none.mp uncached
    have entered := seenFormed.names_enter dir name (none : Option Inode)
    obtain rfl : looked = lower := by
      rcases grown with same | ⟨inode, -, rfl⟩
      · exact same
      · exact absurd (wellFormed.names_enter dir name inode) (free lower.count)
    refine ⟨.inr ⟨none, free, rfl⟩, fun path stored => ?_⟩
    cases result with
    | found path => cases enoent
    | failed err nonzero =>
        rcases lowerPath_trfsLookup rfl stored with found | ⟨_, -, cached | ⟨-, allocated⟩⟩
        · cases found
        · exact absurd (seenFormed.dLookup_eq_some.mp cached) (free path.dentry)
        · have new : looked.count = path.dentry := by
            simpa [dAlloc] using allocated
          refine ⟨new ▸ entered, fun low names => ?_⟩
          rw [(seenFormed.enter free none).unique dir name low looked.count names entered,
            Cache.node_enter_self]
  · rw [if_neg allocates]
    refine ⟨grown, fun path stored => ⟨?_, agrees⟩⟩
    rcases lowerPath_trfsLookup rfl stored with found | ⟨_, failed, cached | ⟨uncached, allocated⟩⟩
    · obtain rfl : result = .found path := found
      exact agrees.1
    · exact seenFormed.dLookup_eq_some.mp cached
    · refine absurd ⟨?_, uncached, ?_⟩ allocates
      · obtain rfl : result = .failed .enoent _ := failed
        rfl
      · by_contra without
        simp [without] at allocated

/-- The name that NFS chooses may be in the cache, but does not exist. -/
theorem LowerUnlink.free_of_admitted (outcome : LowerUnlink) (wellFormed : lower.WellFormed)
    (low : Nat) (hidden : Name) (target : Nat)
    (renamed : outcome.admitted lower low = .sillyRenamed hidden)
    (names : lower.Names (lower.node low).parent hidden target) :
    (lower.node target).inode = none := by
  unfold admitted at renamed
  split at renamed
  next => cases renamed
  next =>
    split at renamed
    next chosen =>
      split at renamed
      next found cached =>
        split at renamed
        next => cases renamed
        next negative =>
          obtain rfl : chosen = hidden := by
            simpa using renamed
          obtain rfl := wellFormed.unique _ _ _ _ names (wellFormed.dLookup_eq_some.mp cached)
          exact Option.not_isSome_iff_eq_none.mp negative
      next uncached =>
        obtain rfl : chosen = hidden := by
          simpa using renamed
        exact absurd names (wellFormed.dLookup_eq_none.mp uncached target)
    next other => exact absurd renamed (other hidden)

end Lower

namespace Stack

variable {Inode : Type} {stack looked : Stack Inode} {dir dentry low : Nat} {name : Name}

/-- The mount shows a part of the lower tree. -/
def Mirrored (stack : Stack Inode) : Prop :=
  NameCache.Mirrors stack.upper stack.lower stack.below

/-- A lookup of `name` in `dir` has given `dentry`. -/
def Given (stack : Stack Inode) (dir : Nat) (name : Name) (dentry : Nat) : Prop :=
  InHand stack.upper stack.lower stack.below dir name dentry

/-- The dentries in the cache are still there. -/
def Extends (stack looked : Stack Inode) : Prop :=
  ∀ dentry, (stack.upper.node dentry).hashed = true →
    looked.upper.node dentry = stack.upper.node dentry ∧ looked.below dentry = stack.below dentry

/-- The lower file system is given the entry called `name` of the directory below `dir`. -/
def At (stack : Stack Inode) (dir : Nat) (name : Name) (operand : LowerOperand Inode) : Prop :=
  operand.name = name ∧ stack.below dir = some operand.parent ∧
    operand.dir = (stack.upper.node dir).inode ∧ operand.dir.isSome

theorem mirrored_mounted (lowerName : Name) (inode : Inode) :
    (mounted lowerName inode).Mirrored := mirrors_start Name.slash lowerName inode

theorem Extends.at_eq (grown : Extends stack looked)
    (hashed : (stack.upper.node dir).hashed = true) : looked.At dir = stack.At dir := by
  obtain ⟨sameNode, sameBelow⟩ := grown dir hashed
  funext name operand
  rw [At, At, sameNode, sameBelow]

theorem at_operand (mirrored : stack.Mirrored) (given : stack.Given dir name dentry)
    (covers : Covers stack.upper stack.lower stack.below dentry low) :
    stack.At dir name (stack.operand low) := by
  have dirBelow : stack.below dir = some (stack.lower.node low).parent := by
    rw [← given.parent]
    exact covers.parent
  have dirInode := mirrored.inodes dir _ given.dirHashed dirBelow
  refine ⟨covers.name.trans given.named, dirBelow, dirInode.symm, ?_⟩
  rw [operand, ← dirInode]
  exact mirrored.positive dir given.dirHashed

theorem Given.operand_inode (given : stack.Given dir name dentry)
    (lies : stack.below dentry = some low) :
    (stack.operand low).inode = (stack.upper.node dentry).inode :=
  (given.inode low lies).symm

theorem Mirrored.grown (mirrored : stack.Mirrored) {lowerDir : Nat} {lower : Cache Name Inode}
    (grown : Grown stack.lower lowerDir name lower) :
    NameCache.Mirrors stack.upper lower stack.below := by
  rcases grown with rfl | ⟨inode, free, rfl⟩
  · exact mirrored
  · exact mirrored.enterLower free inode

/-- The new dentry of a lookup, hashed if the name exists. -/
theorem given_new {lower : Cache Name Inode} {lowerDir : Nat}
    (mirrors : NameCache.Mirrors stack.upper lower stack.below)
    (dirHashed : (stack.upper.node dir).hashed = true) (dirBelow : stack.below dir = some lowerDir)
    (free : ∀ dentry, ¬ stack.upper.Names dir name dentry)
    (names : lower.Names lowerDir name low) {result : PathLookup Nat Unit}
    (agrees : result.Agrees lower lowerDir name) :
    let dentry := stack.upper.count
    let looked : Stack Inode :=
      { upper := dSpliceAlias (stack.upper.dAlloc dir name) dentry (lower.node low).inode result
        lower := lower
        below := Function.update stack.below dentry (some low) }
    looked.Mirrored ∧ Extends stack looked ∧ looked.Given dir name dentry := by
  obtain ⟨allocated, placed⟩ := mirrors.alloc dirHashed dirBelow free names
  obtain ⟨other, covers⟩ := placed.covers
  obtain rfl : low = other := by
    simpa using covers.lies
  have kept {dentry : Nat} (hashed : (stack.upper.node dentry).hashed = true) :
      dentry ≠ stack.upper.count := (mirrors.upperFormed.bounded dentry hashed).ne
  cases result with
  | found path =>
      obtain rfl := mirrors.lowerFormed.unique _ _ path.dentry low agrees.1 names
      obtain ⟨inode, positive⟩ := Option.isSome_iff_exists.mp agrees.2
      obtain ⟨mirrored, given⟩ := allocated.add placed covers positive
      simp only [dSpliceAlias, positive]
      refine ⟨mirrored, fun dentry hashed => ⟨?_, ?_⟩, given⟩
      · exact (Cache.node_set_of_ne _ (kept hashed)).trans
          (Cache.node_dAlloc_of_ne _ _ (kept hashed))
      · exact Function.update_of_ne (kept hashed) _ _
  | failed err nonzero =>
      have negative : (lower.node low).inode = none := agrees low names
      have new : ((stack.upper.dAlloc dir name).node stack.upper.count).inode = none := by
        rw [Cache.node_dAlloc_self]
      have given : InHand (stack.upper.dAlloc dir name) lower
          (Function.update stack.below stack.upper.count (some low)) dir name
          stack.upper.count := by
        refine ⟨placed, fun positive => ?_, fun other lies => ?_⟩
        · rw [new] at positive
          cases positive
        · obtain rfl : low = other := Option.some.inj (covers.lies.symm.trans lies)
          rw [new, negative]
      refine ⟨allocated, fun dentry hashed => ⟨?_, ?_⟩, given⟩
      · exact Cache.node_dAlloc_of_ne _ _ (kept hashed)
      · exact Function.update_of_ne (kept hashed) _ _

theorem lookup_spec (mirrored : stack.Mirrored) (dir : Nat) (name : Name)
    (inputs : LookupInputs Inode) :
    (stack.lookup dir name inputs).2.Mirrored ∧ Extends stack (stack.lookup dir name inputs).2 ∧
      ∀ dentry, (stack.lookup dir name inputs).1 = some dentry →
        (stack.upper.node dir).hashed = true ∧
          (stack.lookup dir name inputs).2.Given dir name dentry := by
  have unchanged : Extends stack stack := fun _ _ => ⟨rfl, rfl⟩
  unfold lookup
  split
  next dentry cached =>
    have names := mirrored.upperFormed.dLookup_eq_some.mp cached
    have given := mirrored.inHand_of_names names
    refine ⟨mirrored, unchanged, ?_⟩
    rintro _ ⟨⟩
    exact ⟨given.dirHashed, given⟩
  next lowerDir uncached dirBelow dirHashed =>
    have free := mirrored.upperFormed.dLookup_eq_none.mp uncached
    by_cases noMemory : inputs.newPrivateData ≠ 0
    · simp only [if_pos noMemory, trfsLookup]
      exact ⟨mirrored, unchanged, fun _ none => by cases none⟩
    · simp only [if_neg noMemory]
      obtain ⟨grown, stores⟩ := consult_spec mirrored.lowerFormed lowerDir name inputs dir
      split
      next => exact ⟨mirrored.grown grown, unchanged, fun _ none => by cases none⟩
      next path stored =>
        obtain ⟨names, agrees⟩ := stores path stored
        obtain ⟨looked, extended, given⟩ := given_new (mirrored.grown grown) dirHashed dirBelow free
          names agrees
        refine ⟨looked, extended, ?_⟩
        rintro _ ⟨⟩
        exact ⟨dirHashed, given⟩
  next => exact ⟨mirrored, unchanged, fun _ none => by cases none⟩

/-- The call does to the lower file system what the event asks of the mount: with the entries of the
same names in the directories below, and with the inodes that those directories have. -/
def Serves (stack : Stack Inode) : StackEvent Inode → LowerCall Inode → Prop
  | .make dir name _ kind _ _ _, .vfsMake made dirInode dentry =>
      made = kind ∧ dirInode = dentry.dir ∧ stack.At dir name dentry ∧ dentry.inode = none
  | .link oldDir oldName _ newDir newName _ _ _ _, .vfsLink old dirInode new =>
      dirInode = new.dir ∧ stack.At oldDir oldName old ∧ old.inode.isSome ∧
        stack.At newDir newName new ∧ new.inode = none
  | .unlink dir name _ _, .vfsUnlink dirInode dentry
  | .rmdir dir name _ _, .vfsRmdir dirInode dentry =>
      dirInode = dentry.dir ∧ stack.At dir name dentry ∧ dentry.inode.isSome
  | .rename oldDir oldName _ newDir newName _ _ _, .vfsRename oldDirInode old newDirInode new =>
      oldDirInode = old.dir ∧ newDirInode = new.dir ∧ stack.At oldDir oldName old ∧
        old.inode.isSome ∧ stack.At newDir newName new ∧ old.inode ≠ new.inode
  | _, _ => False

theorem Mirrored.unhashed (mirrored : stack.Mirrored)
    (negative : (stack.upper.node dentry).inode = none) :
    (stack.upper.node dentry).hashed = false := by
  rw [← Bool.not_eq_true]
  intro hashed
  have positive := mirrored.positive dentry hashed
  rw [negative] at positive
  cases positive

section Operations

variable (mirrored : stack.Mirrored) (given : stack.Given dir name dentry)

include mirrored

theorem lookupFree_spec {lowerDir : Nat}
    (free : ∀ target, stack.lower.Names lowerDir name target →
      (stack.lower.node target).inode = none) :
    let looked := lookupFree stack.lower lowerDir name
    Grown stack.lower lowerDir name looked.1 ∧ looked.1.Names lowerDir name looked.2 ∧
      (looked.1.node looked.2).inode = none := by
  have formed := mirrored.lowerFormed
  unfold lookupFree
  cases cached : stack.lower.dLookup lowerDir name with
  | some target =>
      have names := formed.dLookup_eq_some.mp cached
      exact ⟨.inl rfl, names, free target names⟩
  | none =>
      refine ⟨.inr ⟨none, formed.dLookup_eq_none.mp cached, rfl⟩, formed.names_enter _ _ _, ?_⟩
      simp only [Cache.node_enter_self]

/-- The unlinked dentry is gone or under another name, and whatever else exists stays. -/
theorem afterUnlink_spec (covers : Covers stack.upper stack.lower stack.below dentry low)
    (present : (stack.lower.node low).inode.isSome) {outcome : LowerUnlink}
    (free : ∀ hidden target, outcome = .sillyRenamed hidden →
      stack.lower.Names (stack.lower.node low).parent hidden target →
        (stack.lower.node target).inode = none) :
    (afterUnlink stack.lower low outcome).WellFormed ∧
      ∀ other, other ≠ low → other < stack.lower.count →
        (stack.lower.node other).inode.isSome →
          (afterUnlink stack.lower low outcome).node other = stack.lower.node other := by
  have formed := mirrored.lowerFormed
  have allocated := formed.bounded low covers.hashed
  cases outcome with
  | removed =>
      exact ⟨formed.dDrop covers.notRoot,
        fun other different _ _ => Cache.node_set_of_ne _ different⟩
  | failed => exact ⟨formed, fun _ _ _ _ => rfl⟩
  | sillyRenamed hidden =>
      obtain ⟨grown, names, negative⟩ := lookupFree_spec mirrored (free hidden · rfl)
      have lookedFormed := grown.wellFormed formed
      -- the dentry of the new name is another one than any that exists
      have apart {other : Nat} (allocated : other < stack.lower.count)
          (present : (stack.lower.node other).inode.isSome) :
          other ≠ (lookupFree stack.lower (stack.lower.node low).parent hidden).2 := by
        rintro rfl
        rw [← grown.node_of_lt allocated, negative] at present
        cases present
      constructor
      · apply lookedFormed.dMove covers.notRoot (allocated.trans_le grown.count_le) names.1
          (apart allocated present)
        intro other otherNames
        rw [names.2.2.1, names.2.2.2] at otherNames
        exact lookedFormed.unique _ _ _ _ otherNames names
      · intro other different otherAllocated otherPresent
        exact (Cache.node_dMove_of_ne different (apart otherAllocated otherPresent)).trans
          (grown.node_of_lt otherAllocated)

include given

theorem make_spec (negative : (stack.upper.node dentry).inode = none) (kind : MakeKind)
    (vfsMake : Err) (inode : Inode) (interposed : Interposed) (inputs : LookupInputs Inode) :
    (stack.make dentry kind vfsMake inode interposed).1.Mirrored ∧
      ∀ call ∈ (stack.make dentry kind vfsMake inode interposed).2,
        stack.Serves (.make dir name inputs kind vfsMake inode interposed) call := by
  obtain ⟨low, covers⟩ := given.covers
  have unhashed := mirrored.unhashed negative
  have serves : ∀ call ∈ [LowerCall.vfsMake kind (stack.operand low).dir (stack.operand low)],
      stack.Serves (.make dir name inputs kind vfsMake inode interposed) call :=
    List.forall_mem_singleton.mpr ⟨rfl, rfl, at_operand mirrored given covers,
      (given.operand_inode covers.lies).trans negative⟩
  rw [make, covers.lies]
  dsimp only
  split
  next => exact ⟨mirrored, serves⟩
  next =>
    split
    next =>
      exact ⟨mirrored.instantiateLower given.toPlaced covers unhashed (some inode), serves⟩
    next => exact ⟨mirrored.create given.toPlaced covers unhashed inode, serves⟩

/-- What is unlinked has nothing under it. -/
theorem unlink_spec (positive : (stack.upper.node dentry).inode.isSome) (vfsUnlink : LowerUnlink)
    (inputs : LookupInputs Inode) :
    (stack.unlink dir dentry vfsUnlink).1.Mirrored ∧
      ∀ call ∈ (stack.unlink dir dentry vfsUnlink).2,
        stack.Serves (.unlink dir name inputs vfsUnlink) call := by
  obtain ⟨low, covers⟩ := given.covers
  have placed := at_operand mirrored given covers
  have present : (stack.operand low).inode.isSome := by
    rw [given.operand_inode covers.lies]
    exact positive
  have serves : ∀ call ∈ [LowerCall.vfsUnlink (stack.upper.node dir).inode (stack.operand low)],
      stack.Serves (.unlink dir name inputs vfsUnlink) call :=
    List.forall_mem_singleton.mpr ⟨placed.2.2.1.symm, placed, present⟩
  rw [unlink, covers.lies]
  dsimp only
  cases empty : stack.lower.hasChild low with
  | true =>
      have refused : vfsUnlink.admitted stack.lower low = .failed .eisdir (by decide) false :=
        if_pos empty
      rw [refused]
      simpa [trfsUnlink, LowerUnlink.err, Err.eisdir, Err.ebusy] using And.intro mirrored serves
  | false =>
      split
      next => exact ⟨mirrored, serves⟩
      next =>
        obtain ⟨formed, same⟩ := afterUnlink_spec mirrored covers present
          (vfsUnlink.free_of_admitted mirrored.lowerFormed low)
        exact ⟨mirrored.remove given.toPlaced covers empty formed same, serves⟩

theorem rmdir_spec (positive : (stack.upper.node dentry).inode.isSome) (vfsRmdir : Err)
    (inputs : LookupInputs Inode) :
    (stack.rmdir dentry vfsRmdir).1.Mirrored ∧
      ∀ call ∈ (stack.rmdir dentry vfsRmdir).2,
        stack.Serves (.rmdir dir name inputs vfsRmdir) call := by
  obtain ⟨low, covers⟩ := given.covers
  have serves : ∀ call ∈ [LowerCall.vfsRmdir (stack.operand low).dir (stack.operand low)],
      stack.Serves (.rmdir dir name inputs vfsRmdir) call :=
    List.forall_mem_singleton.mpr ⟨rfl, at_operand mirrored given covers,
      (given.operand_inode covers.lies).symm ▸ positive⟩
  rw [rmdir, covers.lies]
  dsimp only
  cases empty : stack.lower.hasChild low with
  | true => simpa [Err.enotempty] using And.intro mirrored serves
  | false =>
      simp only [Bool.false_eq_true, if_false]
      split
      next => exact ⟨mirrored, serves⟩
      next =>
        refine ⟨?_, serves⟩
        exact mirrored.remove given.toPlaced covers empty
          (mirrored.lowerFormed.dDrop covers.notRoot) fun other different _ _ =>
            Cache.node_set_of_ne _ different

section Two

variable {newDir new : Nat} {newName : Name} (positive : (stack.upper.node dentry).inode.isSome)
  (newGiven : stack.Given newDir newName new)

include positive newGiven

theorem link_spec (negative : (stack.upper.node new).inode = none) (vfsLink : Err)
    (hasInode : Bool) (interposed : Interposed) (inputs newInputs : LookupInputs Inode) :
    (stack.link dentry new vfsLink hasInode interposed).1.Mirrored ∧
      ∀ call ∈ (stack.link dentry new vfsLink hasInode interposed).2,
        stack.Serves (.link dir name inputs newDir newName newInputs vfsLink hasInode interposed)
          call := by
  obtain ⟨low, covers⟩ := given.covers
  obtain ⟨newLow, newCovers⟩ := newGiven.covers
  have unhashed := mirrored.unhashed negative
  obtain ⟨inode, known⟩ := Option.isSome_iff_exists.mp positive
  have lowInode : (stack.lower.node low).inode = some inode :=
    (given.inode low covers.lies).symm.trans known
  have serves : ∀ call ∈ [LowerCall.vfsLink (stack.operand low) (stack.operand newLow).dir
      (stack.operand newLow)],
      stack.Serves (.link dir name inputs newDir newName newInputs vfsLink hasInode interposed)
        call :=
    List.forall_mem_singleton.mpr ⟨rfl, at_operand mirrored given covers,
      (given.operand_inode covers.lies).symm ▸ positive, at_operand mirrored newGiven newCovers,
      (newGiven.operand_inode newCovers.lies).trans negative⟩
  rw [link, covers.lies, newCovers.lies]
  dsimp only
  rw [lowInode]
  split
  next => exact ⟨mirrored, serves⟩
  next =>
    split
    next =>
      exact ⟨mirrored.instantiateLower newGiven.toPlaced newCovers unhashed (some inode), serves⟩
    next => exact ⟨mirrored.create newGiven.toPlaced newCovers unhashed inode, serves⟩

theorem rename_spec
    (different : (stack.upper.node dentry).inode ≠ (stack.upper.node new).inode) (trap : Trap)
    (vfsRename : Err) (inputs newInputs : LookupInputs Inode) :
    (stack.rename dentry new trap vfsRename).1.Mirrored ∧
      ∀ call ∈ (stack.rename dentry new trap vfsRename).2,
        stack.Serves (.rename dir name inputs newDir newName newInputs trap vfsRename) call := by
  obtain ⟨low, covers⟩ := given.covers
  obtain ⟨newLow, newCovers⟩ := newGiven.covers
  have sameInode := given.operand_inode covers.lies
  have sameNewInode := newGiven.operand_inode newCovers.lies
  have serves : ∀ call ∈ (if trap = .nothing then
      [LowerCall.vfsRename (stack.operand low).dir (stack.operand low) (stack.operand newLow).dir
        (stack.operand newLow)] else []),
      stack.Serves (.rename dir name inputs newDir newName newInputs trap vfsRename) call := by
    intro call membership
    split at membership
    next =>
      obtain rfl := List.mem_singleton.mp membership
      refine ⟨rfl, rfl, at_operand mirrored given covers, sameInode.symm ▸ positive,
        at_operand mirrored newGiven newCovers, ?_⟩
      rw [sameInode, sameNewInode]
      exact different
    next => cases membership
  have apart : dentry ≠ new := by
    rintro rfl
    exact different rfl
  rw [rename, covers.lies, newCovers.lies]
  dsimp only
  cases empty : stack.lower.hasChild newLow with
  | true =>
      have failed : ∀ oldName newName, (trfsRename oldName newName trap .enotempty).err ≠ 0 := by
        intro oldName newName
        cases trap <;> simp [trfsRename, Err.einval, Err.enotempty]
      simp only [if_true, if_pos (failed _ _)]
      exact ⟨mirrored, serves⟩
  | false =>
      simp only [Bool.false_eq_true, if_false]
      split
      next => exact ⟨mirrored, serves⟩
      next =>
        exact ⟨mirrored.move given.toPlaced covers (given.hashed positive) newGiven.toPlaced
          newCovers empty apart, serves⟩

end Two

end Operations

theorem prune_spec (mirrored : stack.Mirrored) (dentry : Nat) : (stack.prune dentry).Mirrored := by
  rw [prune]
  split
  next => exact mirrored
  next unused =>
    obtain ⟨notRoot, unused⟩ := not_or.mp unused
    apply mirrored.drop notRoot
    · intro other otherNotRoot hashed parent
      obtain ⟨low, covers⟩ := mirrored.covers other otherNotRoot hashed
      exact unused ⟨other, mirrored.upperFormed.bounded other hashed, otherNotRoot, parent,
        Option.isSome_iff_exists.mpr ⟨low, covers.lies⟩⟩
    · exact mirrored.lowerFormed
    · exact fun other different => Function.update_of_ne different _ _
    · exact fun _ _ _ _ _ => rfl

theorem pruneLower_spec (mirrored : stack.Mirrored) (low : Nat) :
    (stack.pruneLower low).Mirrored := by
  rw [pruneLower]
  split
  next => exact mirrored
  next unused =>
    obtain ⟨notRoot, unused⟩ := not_or.mp unused
    apply mirrored.frame (mirrored.lowerFormed.dDrop notRoot)
    intro dentry other hashed lies
    apply Cache.node_set_of_ne
    rintro rfl
    exact unused (.inl ⟨dentry, mirrored.upperFormed.bounded dentry hashed, lies⟩)

theorem Extends.serves_eq (grown : Extends stack looked) {event : StackEvent Inode}
    (hashed : ∀ dir ∈ event.dirs, (stack.upper.node dir).hashed = true) (call : LowerCall Inode) :
    looked.Serves event call = stack.Serves event call := by
  have same : ∀ dir ∈ event.dirs, looked.At dir = stack.At dir :=
    fun dir membership => grown.at_eq (hashed dir membership)
  cases event with
  | walk | prune | pruneLower => cases call <;> rfl
  | make dir | unlink dir | rmdir dir =>
      have atDir := same dir (List.mem_singleton.mpr rfl)
      cases call <;> simp only [Serves, atDir]
  | link oldDir _ _ newDir | rename oldDir _ _ newDir =>
      have atOld := same oldDir (List.mem_cons_self ..)
      have atNew := same newDir (List.mem_cons_of_mem _ (List.mem_singleton.mpr rfl))
      cases call <;> simp only [Serves, atOld, atNew]

/-- A dentry that exists stays at hand while another name is looked up. -/
theorem Given.of_extends (given : stack.Given dir name dentry)
    (positive : (stack.upper.node dentry).inode.isSome) (grown : Extends stack looked)
    (mirrored : looked.Mirrored) :
    looked.Given dir name dentry ∧ (looked.upper.node dentry).inode.isSome := by
  obtain ⟨sameNode, -⟩ := grown dentry (given.hashed positive)
  have names : stack.upper.Names dir name dentry :=
    ⟨given.notRoot, given.hashed positive, given.parent, given.named⟩
  exact ⟨mirrored.inHand_of_names (names.congr sameNode), sameNode ▸ positive⟩

/-- What an operation leaves and asks of the lower file system is right. -/
def Correct (stack : Stack Inode) (event : StackEvent Inode)
    (result : Stack Inode × List (LowerCall Inode)) : Prop :=
  result.1.Mirrored ∧ ∀ call ∈ result.2, stack.Serves event call

theorem correct_of_quiet (mirrored : looked.Mirrored) (event : StackEvent Inode) :
    stack.Correct event (looked, []) :=
  ⟨mirrored, fun _ membership => absurd membership List.not_mem_nil⟩

theorem Extends.correct (grown : Extends stack looked) {event : StackEvent Inode}
    (hashed : ∀ dir ∈ event.dirs, (stack.upper.node dir).hashed = true)
    {result : Stack Inode × List (LowerCall Inode)} (correct : looked.Correct event result) :
    stack.Correct event result :=
  ⟨correct.1, fun call membership => grown.serves_eq hashed call ▸ correct.2 call membership⟩

theorem Extends.correct_one (grown : Extends stack looked) {event : StackEvent Inode}
    (dirs : event.dirs = [dir]) (hashed : (stack.upper.node dir).hashed = true)
    {result : Stack Inode × List (LowerCall Inode)} (correct : looked.Correct event result) :
    stack.Correct event result := by
  refine grown.correct (fun other membership => ?_) correct
  rw [dirs, List.mem_singleton] at membership
  exact membership ▸ hashed

/-- The dentry for a name is at hand when the operation begins. -/
theorem correct_onName (mirrored : stack.Mirrored) (dir : Nat) (name : Name)
    (inputs : LookupInputs Inode) (event : StackEvent Inode)
    {operate : Nat → Stack Inode → Stack Inode × List (LowerCall Inode)}
    (correct : ∀ dentry looked, Extends stack looked → looked.Mirrored →
      (stack.upper.node dir).hashed = true → looked.Given dir name dentry →
        stack.Correct event (operate dentry looked)) :
    stack.Correct event (stack.onName dir name inputs operate) := by
  obtain ⟨looked, grown, found⟩ := lookup_spec mirrored dir name inputs
  rw [onName]
  split
  next next missed =>
    rw [missed] at looked
    exact correct_of_quiet looked event
  next dentry next hit =>
    rw [hit] at looked grown found
    obtain ⟨dirHashed, given⟩ := found dentry rfl
    exact correct dentry next grown looked dirHashed given

theorem correct_onNames (mirrored : stack.Mirrored) {oldDir newDir : Nat} (oldName newName : Name)
    (oldInputs newInputs : LookupInputs Inode) {event : StackEvent Inode}
    (dirs : event.dirs = [oldDir, newDir])
    {operate : Nat → Nat → Stack Inode → Stack Inode × List (LowerCall Inode)}
    (correct : ∀ old new (looked : Stack Inode), looked.Mirrored →
      looked.Given oldDir oldName old → (looked.upper.node old).inode.isSome →
        looked.Given newDir newName new → looked.Correct event (operate old new looked)) :
    stack.Correct event
      (stack.onNames oldDir oldName oldInputs newDir newName newInputs operate) := by
  rw [onNames]
  split
  next => exact correct_of_quiet mirrored event
  next newHashed =>
    apply correct_onName mirrored
    intro old first firstGrown firstMirrored oldHashed oldGiven
    split
    next => exact correct_of_quiet firstMirrored event
    next exists_ =>
      have positive := Option.isSome_iff_ne_none.mpr exists_
      have hashed : ∀ dir ∈ event.dirs, (stack.upper.node dir).hashed = true := by
        simpa [dirs] using And.intro oldHashed newHashed
      have firstHashed : ∀ dir ∈ event.dirs, (first.upper.node dir).hashed = true :=
        fun dir membership => (firstGrown dir (hashed dir membership)).1 ▸ hashed dir membership
      apply firstGrown.correct hashed
      apply correct_onName firstMirrored
      intro new second secondGrown secondMirrored _ newGiven
      obtain ⟨stillGiven, stillPositive⟩ := oldGiven.of_extends positive secondGrown secondMirrored
      exact secondGrown.correct firstHashed
        (correct old new second secondMirrored stillGiven stillPositive newGiven)

/-- The dentry a lookup gives has the inode that its name has in the lower directory. -/
theorem inode_of_lookup (mirrored : stack.Mirrored) {inputs : LookupInputs Inode}
    (found : (stack.lookup dir name inputs).1 = some dentry) :
    ∃ lowerDir, stack.below dir = some lowerDir ∧
      ((stack.lookup dir name inputs).2.upper.node dentry).inode =
        ((stack.lookup dir name inputs).2.lower.dLookup lowerDir name).bind fun low =>
          ((stack.lookup dir name inputs).2.lower.node low).inode := by
  obtain ⟨looked, grown, hit⟩ := lookup_spec mirrored dir name inputs
  obtain ⟨dirHashed, given⟩ := hit dentry found
  obtain ⟨low, covers⟩ := given.covers
  have names := covers.lowerNames covers.parent
  have dirBelow := covers.parent
  rw [given.named] at names
  rw [given.parent, (grown dir dirHashed).2] at dirBelow
  refine ⟨_, dirBelow, ?_⟩
  rw [looked.lowerFormed.dLookup_eq_some.mpr names, Option.bind_some]
  exact given.inode low covers.lies

section Perform

variable [DecidableEq Inode]

theorem correct_perform (mirrored : stack.Mirrored) (event : StackEvent Inode) :
    stack.Correct event (stack.perform event) := by
  cases event with
  | walk dir name inputs =>
      apply correct_onName mirrored
      exact fun _ looked _ lookedMirrored _ _ => correct_of_quiet lookedMirrored _
  | make dir name inputs kind vfsMake inode interposed =>
      apply correct_onName mirrored
      intro dentry looked grown lookedMirrored dirHashed given
      split
      next negative =>
        apply grown.correct_one rfl dirHashed
        exact make_spec lookedMirrored given negative kind vfsMake inode interposed inputs
      next => exact correct_of_quiet lookedMirrored _
  | link oldDir oldName oldInputs newDir newName newInputs vfsLink hasInode interposed =>
      apply correct_onNames mirrored oldName newName oldInputs newInputs rfl
      intro old new looked lookedMirrored oldGiven positive newGiven
      split
      next negative =>
        exact link_spec lookedMirrored oldGiven positive newGiven negative vfsLink hasInode
          interposed oldInputs newInputs
      next => exact correct_of_quiet lookedMirrored _
  | unlink dir name inputs vfsUnlink =>
      apply correct_onName mirrored
      intro dentry looked grown lookedMirrored dirHashed given
      split
      next => exact correct_of_quiet lookedMirrored _
      next present =>
        apply grown.correct_one rfl dirHashed
        exact unlink_spec lookedMirrored given (Option.isSome_iff_ne_none.mpr present) vfsUnlink
          inputs
  | rmdir dir name inputs vfsRmdir =>
      apply correct_onName mirrored
      intro dentry looked grown lookedMirrored dirHashed given
      split
      next => exact correct_of_quiet lookedMirrored _
      next present =>
        apply grown.correct_one rfl dirHashed
        exact rmdir_spec lookedMirrored given (Option.isSome_iff_ne_none.mpr present) vfsRmdir
          inputs
  | rename oldDir oldName oldInputs newDir newName newInputs trap vfsRename =>
      apply correct_onNames mirrored oldName newName oldInputs newInputs rfl
      intro old new looked lookedMirrored oldGiven positive newGiven
      split
      next => exact correct_of_quiet lookedMirrored _
      next different =>
        exact rename_spec lookedMirrored oldGiven positive newGiven different trap vfsRename
          oldInputs newInputs
  | prune dentry => exact correct_of_quiet (prune_spec mirrored dentry) _
  | pruneLower low => exact correct_of_quiet (pruneLower_spec mirrored low) _

theorem mirrored_run (lowerName : Name) (inode : Inode) (events : List (StackEvent Inode)) :
    (run step (mounted lowerName inode) events).Mirrored := by
  apply run_invariant Mirrored
  · exact fun stack event mirrored => (correct_perform mirrored event).1
  · exact mirrored_mounted lowerName inode

/-- After any calls on the mount, a path that leads to a dentry leads to its lower dentry below, and
both have the same inode.  Whatever is called next asks of the lower file system the same, with the
entries of the same names in the directories below, and a lookup shows what is there. -/
theorem mount_mirrors_lower_tree (lowerName : Name) (inode : Inode)
    (events : List (StackEvent Inode)) :
    let stack := run step (mounted lowerName inode) events
    (∀ path dentry, stack.upper.resolve path = some dentry →
      ∃ low, stack.below dentry = some low ∧ stack.lower.resolve path = some low ∧
        (stack.upper.node dentry).inode = (stack.lower.node low).inode) ∧
    (∀ event, ∀ call ∈ (stack.perform event).2, stack.Serves event call) ∧
    ∀ dir name inputs dentry, (stack.lookup dir name inputs).1 = some dentry →
      ∃ lowerDir, stack.below dir = some lowerDir ∧
        let looked := (stack.lookup dir name inputs).2
        (looked.upper.node dentry).inode =
          (looked.lower.dLookup lowerDir name).bind fun low => (looked.lower.node low).inode := by
  have mirrored := mirrored_run lowerName inode events
  exact ⟨fun _ _ => mirrored.resolve, fun event => (correct_perform mirrored event).2,
    fun _ _ _ _ => inode_of_lookup mirrored⟩

/-- A directory is made and renamed.  Its old name leads nowhere, in either tree. -/
example :
    let b : Name := ⟨[98], by decide, by decide, by decide⟩
    let inputs : LookupInputs Nat := ⟨0, .absent true, ⟨0, by decide⟩, true⟩
    let stack := run step (mounted .a 7)
      [.make 0 .a inputs (.mkdir 0) 0 8 ⟨0, by decide⟩, .rename 0 .a inputs 0 b inputs .nothing 0]
    stack.upper.resolve [b] = some 1 ∧ stack.lower.resolve [b] = some 1 ∧
      stack.upper.resolve [.a] = none ∧ stack.lower.resolve [.a] = none := by
  decide

/-- A file that NFS renames is gone from the mount and shows up under its new name.  Unlinked there,
it leaves the cache of the mount, and the next lookup shows it again. -/
example :
    let hidden : Name := ⟨[46, 110, 102, 115], by decide, by decide, by decide⟩
    let inputs : LookupInputs Nat := ⟨0, .absent true, ⟨0, by decide⟩, true⟩
    let stack := run step (mounted .a 7)
      [.make 0 .a inputs .create 0 8 ⟨0, by decide⟩, .unlink 0 .a inputs (.sillyRenamed hidden),
        .unlink 0 hidden inputs (.failed .ebusy (by decide) true), .walk 0 hidden inputs]
    stack.upper.resolve [.a] = none ∧ stack.lower.resolve [.a] = none ∧
      stack.upper.resolve [hidden] = some 3 ∧ stack.lower.resolve [hidden] = some 1 := by
  decide

end Perform

end Stack

end Tracefs
