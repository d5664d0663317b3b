import Tracefs.NameCache.Basic

/-!
# One cache over another

Every hashed node of the upper cache has a node of the lower one below it, under the same name and
below the same parent.  Then every path that leads somewhere in the upper cache leads to the node
below it in the lower one.  The rules here say which changes of the two caches keep this.
-/

namespace Tracefs.NameCache

universe u v

/-- `low` lies below `dentry`: under the same name, and below the same parent. -/
structure Covers {Name : Type u} {Inode : Type v} (upper lower : Cache Name Inode)
    (below : Nat → Option Nat) (dentry low : Nat) : Prop where
  lies : below dentry = some low
  notRoot : low ≠ 0
  hashed : (lower.node low).hashed = true
  name : (lower.node low).name = (upper.node dentry).name
  parent : below (upper.node dentry).parent = some (lower.node low).parent

/-- Every hashed node of the upper cache exists and has a node of its own below it. -/
structure Mirrors {Name : Type u} {Inode : Type v} (upper lower : Cache Name Inode)
    (below : Nat → Option Nat) : Prop where
  upperFormed : upper.WellFormed
  lowerFormed : lower.WellFormed
  root : below 0 = some 0
  covers : ∀ dentry, dentry ≠ 0 → (upper.node dentry).hashed = true →
    ∃ low, Covers upper lower below dentry low
  positive : ∀ dentry, (upper.node dentry).hashed = true → (upper.node dentry).inode.isSome
  inodes : ∀ dentry low, (upper.node dentry).hashed = true → below dentry = some low →
    (upper.node dentry).inode = (lower.node low).inode
  parents : ∀ dentry, dentry ≠ 0 → (upper.node dentry).hashed = true →
    (upper.node (upper.node dentry).parent).hashed = true
  injective : ∀ first second, (upper.node first).hashed = true →
    (upper.node second).hashed = true → below first = below second → first = second

/-- A node of the upper cache, hashed or not, at a place where no other is hashed. -/
structure Placed {Name : Type u} {Inode : Type v} (upper lower : Cache Name Inode)
    (below : Nat → Option Nat) (dir : Nat) (name : Name) (dentry : Nat) : Prop where
  notRoot : dentry ≠ 0
  allocated : dentry < upper.count
  parent : (upper.node dentry).parent = dir
  named : (upper.node dentry).name = name
  dirHashed : (upper.node dir).hashed = true
  sole : ∀ other, upper.Names dir name other → other = dentry
  covers : ∃ low, Covers upper lower below dentry low

/-- A node that a lookup of `name` in `dir` has given: it is hashed if it exists, and exists if the
node below it does. -/
structure InHand {Name : Type u} {Inode : Type v} (upper lower : Cache Name Inode)
    (below : Nat → Option Nat) (dir : Nat) (name : Name) (dentry : Nat) : Prop
    extends Placed upper lower below dir name dentry where
  hashed : (upper.node dentry).inode.isSome → (upper.node dentry).hashed = true
  inode : ∀ low, below dentry = some low → (upper.node dentry).inode = (lower.node low).inode

section Mirror

variable {Name : Type u} {Inode : Type v} {upper lower : Cache Name Inode}
  {below : Nat → Option Nat}

theorem Covers.lowerNames {dentry low : Nat} (covers : Covers upper lower below dentry low)
    {lowerDir : Nat} (dir : below (upper.node dentry).parent = some lowerDir) :
    lower.Names lowerDir (upper.node dentry).name low :=
  ⟨covers.notRoot, covers.hashed, Option.some.inj (covers.parent.symm.trans dir), covers.name⟩

theorem Covers.congr {upper' lower' : Cache Name Inode} {below' : Nat → Option Nat}
    {dentry low : Nat} (covers : Covers upper lower below dentry low)
    (sameNode : upper'.node dentry = upper.node dentry)
    (sameLow : lower'.node low = lower.node low) (sameBelow : below' dentry = below dentry)
    (sameParent : below' (upper.node dentry).parent = below (upper.node dentry).parent) :
    Covers upper' lower' below' dentry low := by
  refine ⟨sameBelow.trans covers.lies, covers.notRoot, sameLow ▸ covers.hashed, ?_, ?_⟩
  · rw [sameLow, sameNode]
    exact covers.name
  · rw [sameLow, sameNode, sameParent]
    exact covers.parent

theorem mirrors_start (upperName lowerName : Name) (inode : Inode) :
    Mirrors (.start upperName inode) (.start lowerName inode) fun dentry =>
      if dentry = 0 then some 0 else none where
  upperFormed := Cache.wellFormed_start upperName inode
  lowerFormed := Cache.wellFormed_start lowerName inode
  root := rfl
  covers := fun _ notRoot hashed => absurd (of_decide_eq_true hashed) notRoot
  positive := fun _ _ => rfl
  inodes := fun _ _ _ _ => rfl
  parents := fun _ _ _ => rfl
  injective := fun _ _ first second _ =>
    (of_decide_eq_true first).trans (of_decide_eq_true second).symm

namespace Mirrors

variable (mirrors : Mirrors upper lower below)

include mirrors

theorem inHand_of_names {dir dentry : Nat} {name : Name} (names : upper.Names dir name dentry) :
    InHand upper lower below dir name dentry := by
  obtain ⟨notRoot, hashed, rfl, rfl⟩ := names
  exact
    { notRoot := notRoot
      allocated := mirrors.upperFormed.bounded dentry hashed
      parent := rfl
      named := rfl
      dirHashed := mirrors.parents dentry notRoot hashed
      sole := fun other otherNames =>
        mirrors.upperFormed.unique _ _ _ _ otherNames ⟨notRoot, hashed, rfl, rfl⟩
      covers := mirrors.covers dentry notRoot hashed
      hashed := fun _ => hashed
      inode := fun low lies => mirrors.inodes dentry low hashed lies }

section Resolve

variable [DecidableEq Name]

theorem dLookup {dir lowerDir dentry : Nat} {name : Name} (dirBelow : below dir = some lowerDir)
    (found : upper.dLookup dir name = some dentry) :
    ∃ low, below dentry = some low ∧ lower.dLookup lowerDir name = some low := by
  obtain ⟨notRoot, hashed, rfl, rfl⟩ := mirrors.upperFormed.dLookup_eq_some.mp found
  obtain ⟨low, covers⟩ := mirrors.covers dentry notRoot hashed
  exact ⟨low, covers.lies, mirrors.lowerFormed.dLookup_eq_some.mpr (covers.lowerNames dirBelow)⟩

theorem walk {dentry : Nat} (path : List Name) :
    ∀ dir lowerDir : Nat, (upper.node dir).hashed = true → below dir = some lowerDir →
      path.foldlM upper.dLookup dir = some dentry →
      (upper.node dentry).hashed = true ∧
        ∃ low, below dentry = some low ∧ path.foldlM lower.dLookup lowerDir = some low := by
  induction path with
  | nil =>
      rintro dir lowerDir hashed dirBelow ⟨⟩
      exact ⟨hashed, lowerDir, dirBelow, rfl⟩
  | cons name path inductionHypothesis =>
      intro dir lowerDir _ dirBelow reached
      rw [List.foldlM_cons] at reached
      obtain ⟨next, found, further⟩ := Option.bind_eq_some_iff.mp reached
      obtain ⟨nextLow, nextBelow, foundBelow⟩ := mirrors.dLookup dirBelow found
      have nextHashed := (mirrors.upperFormed.dLookup_eq_some.mp found).2.1
      rw [List.foldlM_cons, foundBelow]
      exact inductionHypothesis next nextLow nextHashed nextBelow further

/-- A path that leads somewhere leads to the node below in the lower cache. -/
theorem resolve {path : List Name} {dentry : Nat} (resolved : upper.resolve path = some dentry) :
    ∃ low, below dentry = some low ∧ lower.resolve path = some low ∧
      (upper.node dentry).inode = (lower.node low).inode := by
  obtain ⟨hashed, low, lies, lowResolved⟩ :=
    mirrors.walk path 0 0 mirrors.upperFormed.root mirrors.root resolved
  exact ⟨low, lies, lowResolved, mirrors.inodes dentry low hashed lies⟩

end Resolve

/-- No other hashed node stands over the node below a placed one. -/
theorem eq_of_below {dir dentry low other : Nat} {name : Name}
    (placed : Placed upper lower below dir name dentry)
    (covers : Covers upper lower below dentry low) (hashed : (upper.node other).hashed = true)
    (otherBelow : below other = some low) : other = dentry := by
  have notRoot : other ≠ 0 := by
    rintro rfl
    exact covers.notRoot (Option.some.inj (otherBelow.symm.trans mirrors.root))
  obtain ⟨otherLow, otherCovers⟩ := mirrors.covers other notRoot hashed
  obtain rfl : otherLow = low := Option.some.inj (otherCovers.lies.symm.trans otherBelow)
  have sameBelow : below (upper.node other).parent = below dir := by
    rw [otherCovers.parent, ← covers.parent, placed.parent]
  have sameParent : (upper.node other).parent = dir :=
    mirrors.injective _ _ (mirrors.parents other notRoot hashed) placed.dirHashed sameBelow
  have sameName : (upper.node other).name = name := by
    rw [← otherCovers.name, covers.name, placed.named]
  exact placed.sole other ⟨notRoot, hashed, sameParent, sameName⟩

/-- The upper cache may change in the nodes that are not hashed, and unhash some that have nothing
hashed under them, as long as the lower one is the same below all others. -/
theorem restrict {upper' lower' : Cache Name Inode} {below' : Nat → Option Nat}
    (upperFormed : upper'.WellFormed) (lowerFormed : lower'.WellFormed)
    (kept : ∀ dentry, (upper'.node dentry).hashed = true →
      (upper.node dentry).hashed = true ∧ upper'.node dentry = upper.node dentry ∧
        below' dentry = below dentry ∧
        ∀ low, below dentry = some low → lower'.node low = lower.node low)
    (parents : ∀ dentry, dentry ≠ 0 → (upper'.node dentry).hashed = true →
      (upper'.node (upper.node dentry).parent).hashed = true) :
    Mirrors upper' lower' below' where
  upperFormed := upperFormed
  lowerFormed := lowerFormed
  root := (kept 0 upperFormed.root).2.2.1.trans mirrors.root
  covers := by
    intro dentry notRoot hashed
    obtain ⟨before, sameNode, sameBelow, sameLow⟩ := kept dentry hashed
    obtain ⟨low, covers⟩ := mirrors.covers dentry notRoot before
    obtain ⟨-, -, sameParent, -⟩ := kept _ (parents dentry notRoot hashed)
    exact ⟨low, covers.congr sameNode (sameLow low covers.lies) sameBelow sameParent⟩
  positive := by
    intro dentry hashed
    obtain ⟨before, sameNode, -⟩ := kept dentry hashed
    rw [sameNode]
    exact mirrors.positive dentry before
  inodes := by
    intro dentry low hashed lies
    obtain ⟨before, sameNode, sameBelow, sameLow⟩ := kept dentry hashed
    have liesBefore := sameBelow.symm.trans lies
    rw [sameNode, sameLow low liesBefore]
    exact mirrors.inodes dentry low before liesBefore
  parents := by
    intro dentry notRoot hashed
    rw [(kept dentry hashed).2.1]
    exact parents dentry notRoot hashed
  injective := by
    intro first second firstHashed secondHashed same
    obtain ⟨firstBefore, -, firstBelow, -⟩ := kept first firstHashed
    obtain ⟨secondBefore, -, secondBelow, -⟩ := kept second secondHashed
    apply mirrors.injective first second firstBefore secondBefore
    rw [← firstBelow, ← secondBelow]
    exact same

/-- The lower cache may change wherever no hashed node stands. -/
theorem frame {lower' : Cache Name Inode} (wellFormed : lower'.WellFormed)
    (same : ∀ dentry low, (upper.node dentry).hashed = true → below dentry = some low →
      lower'.node low = lower.node low) : Mirrors upper lower' below := by
  apply mirrors.restrict mirrors.upperFormed wellFormed
  · exact fun dentry hashed => ⟨hashed, rfl, rfl, fun low => same dentry low hashed⟩
  · exact mirrors.parents

/-- One node of the upper cache may get another place, over a node of its own. -/
theorem replace {upper' lower' : Cache Name Inode} (upperFormed : upper'.WellFormed)
    (lowerFormed : lower'.WellFormed) {placed low : Nat} (inode : Inode) (notRoot : placed ≠ 0)
    (covers : Covers upper' lower' below placed low)
    (placedInode : (upper'.node placed).inode = some inode)
    (lowInode : (lower'.node low).inode = some inode)
    (alone : ∀ dentry, dentry ≠ placed → (upper.node dentry).hashed = true →
      below dentry ≠ some low)
    (kept : ∀ dentry, dentry ≠ placed → (upper'.node dentry).hashed = true →
      (upper.node dentry).hashed = true ∧ upper'.node dentry = upper.node dentry ∧
        ∀ low, below dentry = some low → lower'.node low = lower.node low)
    (parents : ∀ dentry, dentry ≠ 0 → (upper'.node dentry).hashed = true →
      (upper'.node (upper'.node dentry).parent).hashed = true) :
    Mirrors upper' lower' below where
  upperFormed := upperFormed
  lowerFormed := lowerFormed
  root := mirrors.root
  covers := by
    intro dentry dentryNotRoot hashed
    by_cases isPlaced : dentry = placed
    · exact ⟨low, isPlaced ▸ covers⟩
    · obtain ⟨before, sameNode, sameLow⟩ := kept dentry isPlaced hashed
      obtain ⟨other, otherCovers⟩ := mirrors.covers dentry dentryNotRoot before
      exact ⟨other, otherCovers.congr sameNode (sameLow other otherCovers.lies) rfl rfl⟩
  positive := by
    intro dentry hashed
    by_cases isPlaced : dentry = placed
    · rw [isPlaced, placedInode]
      rfl
    · obtain ⟨before, sameNode, -⟩ := kept dentry isPlaced hashed
      rw [sameNode]
      exact mirrors.positive dentry before
  inodes := by
    intro dentry other hashed lies
    by_cases isPlaced : dentry = placed
    · subst isPlaced
      obtain rfl : low = other := Option.some.inj (covers.lies.symm.trans lies)
      rw [placedInode, lowInode]
    · obtain ⟨before, sameNode, sameLow⟩ := kept dentry isPlaced hashed
      rw [sameNode, sameLow other lies]
      exact mirrors.inodes dentry other before lies
  parents := parents
  injective := by
    intro first second firstHashed secondHashed same
    by_cases firstPlaced : first = placed
    · subst firstPlaced
      by_contra different
      obtain ⟨before, -⟩ := kept second (Ne.symm different) secondHashed
      exact alone second (Ne.symm different) before (same.symm.trans covers.lies)
    · by_cases secondPlaced : second = placed
      · subst secondPlaced
        obtain ⟨before, -⟩ := kept first firstPlaced firstHashed
        exact absurd (same.trans covers.lies) (alone first firstPlaced before)
      · exact mirrors.injective first second (kept first firstPlaced firstHashed).1
          (kept second secondPlaced secondHashed).1 same

theorem low_lt_count {dentry low : Nat} (hashed : (upper.node dentry).hashed = true)
    (lies : below dentry = some low) : low < lower.count := by
  by_cases isRoot : dentry = 0
  · subst isRoot
    obtain rfl : low = 0 := Option.some.inj (lies.symm.trans mirrors.root)
    exact mirrors.lowerFormed.count_pos
  · obtain ⟨other, covers⟩ := mirrors.covers dentry isRoot hashed
    obtain rfl : other = low := Option.some.inj (covers.lies.symm.trans lies)
    exact mirrors.lowerFormed.bounded other covers.hashed

/-- A new node of the lower cache, at a free place. -/
theorem enterLower {dir : Nat} {name : Name} (free : ∀ dentry, ¬ lower.Names dir name dentry)
    (inode : Option Inode) : Mirrors upper (lower.enter dir name inode) below := by
  apply mirrors.frame (mirrors.lowerFormed.enter free inode)
  exact fun dentry low hashed lies =>
    Cache.node_enter_of_ne _ _ _ (mirrors.low_lt_count hashed lies).ne

/-- The node below one that is not hashed comes to exist. -/
theorem instantiateLower {dir dentry low : Nat} {name : Name}
    (placed : Placed upper lower below dir name dentry)
    (covers : Covers upper lower below dentry low)
    (unhashed : (upper.node dentry).hashed = false) (inode : Option Inode) :
    Mirrors upper (lower.dInstantiate low inode) below := by
  apply mirrors.frame (mirrors.lowerFormed.dInstantiate low inode)
  intro other otherLow hashed lies
  apply Cache.node_set_of_ne
  rintro rfl
  obtain rfl := mirrors.eq_of_below placed covers hashed lies
  exact absurd hashed (Bool.eq_false_iff.mp unhashed)

/-- What has nothing that exists below it has nothing hashed under it. -/
theorem childless {dentry low : Nat} (lies : below dentry = some low)
    (empty : lower.hasChild low = false) (other : Nat) (notRoot : other ≠ 0)
    (hashed : (upper.node other).hashed = true) : (upper.node other).parent ≠ dentry := by
  intro parent
  obtain ⟨otherLow, covers⟩ := mirrors.covers other notRoot hashed
  have lowParent : (lower.node otherLow).parent = low := by
    have parentBelow := covers.parent
    rw [parent, lies] at parentBelow
    exact (Option.some.inj parentBelow).symm
  have positive : (lower.node otherLow).inode.isSome :=
    mirrors.inodes other otherLow hashed covers.lies ▸ mirrors.positive other hashed
  have child := mirrors.lowerFormed.hasChild_of_mem covers.notRoot covers.hashed positive lowParent
  rw [empty] at child
  cases child

/-- The upper cache unhashes a node with nothing under it, while the lower one changes below it. -/
theorem drop {lower' : Cache Name Inode} {below' : Nat → Option Nat} {dentry : Nat}
    (notRoot : dentry ≠ 0)
    (childless : ∀ other, other ≠ 0 → (upper.node other).hashed = true →
      (upper.node other).parent ≠ dentry)
    (lowerFormed : lower'.WellFormed)
    (sameBelow : ∀ other, other ≠ dentry → below' other = below other)
    (sameLow : ∀ other low, other ≠ dentry → (upper.node other).hashed = true →
      below other = some low → lower'.node low = lower.node low) :
    Mirrors (upper.dDrop dentry) lower' below' := by
  apply mirrors.restrict (mirrors.upperFormed.dDrop notRoot) lowerFormed
  · intro other hashed
    obtain ⟨different, before⟩ := Cache.hashed_dDrop.mp hashed
    exact ⟨before, Cache.node_set_of_ne _ different, sameBelow other different,
      fun low lies => sameLow other low different before lies⟩
  · intro other otherNotRoot hashed
    obtain ⟨-, before⟩ := Cache.hashed_dDrop.mp hashed
    exact Cache.hashed_dDrop.mpr
      ⟨childless other otherNotRoot before, mirrors.parents other otherNotRoot before⟩

/-- A new node for a name that is not in the upper cache, over the node of that name. -/
theorem alloc {dir lowerDir low : Nat} {name : Name} (dirHashed : (upper.node dir).hashed = true)
    (dirBelow : below dir = some lowerDir) (free : ∀ dentry, ¬ upper.Names dir name dentry)
    (names : lower.Names lowerDir name low) :
    Mirrors (upper.dAlloc dir name) lower (Function.update below upper.count (some low)) ∧
      Placed (upper.dAlloc dir name) lower (Function.update below upper.count (some low)) dir name
        upper.count := by
  have old {dentry : Nat} (hashed : (upper.node dentry).hashed = true) : dentry ≠ upper.count :=
    (mirrors.upperFormed.bounded dentry hashed).ne
  constructor
  · apply mirrors.restrict (mirrors.upperFormed.dAlloc dir name) mirrors.lowerFormed
    · intro dentry hashed
      obtain ⟨different, before⟩ := Cache.hashed_dAlloc.mp hashed
      exact ⟨before, Cache.node_dAlloc_of_ne _ _ different, Function.update_of_ne different _ _,
        fun _ _ => rfl⟩
    · intro dentry notRoot hashed
      have parentHashed := mirrors.parents dentry notRoot (Cache.hashed_dAlloc.mp hashed).2
      exact Cache.hashed_dAlloc.mpr ⟨old parentHashed, parentHashed⟩
  · have new : (upper.dAlloc dir name).node upper.count = ⟨dir, name, none, false⟩ :=
      Cache.node_dAlloc_self dir name
    refine ⟨mirrors.upperFormed.count_pos.ne', Nat.lt_succ_self _, ?_, ?_, ?_, ?_, low, ?_⟩
    · rw [new]
    · rw [new]
    · exact Cache.hashed_dAlloc.mpr ⟨old dirHashed, dirHashed⟩
    · intro other otherNames
      obtain ⟨different, -⟩ := Cache.hashed_dAlloc.mp otherNames.2.1
      exact absurd (otherNames.congr (Cache.node_dAlloc_of_ne _ _ different).symm) (free other)
    · refine ⟨Function.update_self _ _ _, names.1, names.2.1, ?_, ?_⟩
      · rw [new]
        exact names.2.2.2
      · rw [new, Function.update_of_ne (old dirHashed), dirBelow, names.2.2.1]

/-- A placed node is hashed once the node below it exists. -/
theorem add {dir dentry low : Nat} {name : Name} {inode : Inode}
    (placed : Placed upper lower below dir name dentry)
    (covers : Covers upper lower below dentry low)
    (lowInode : (lower.node low).inode = some inode) :
    Mirrors (upper.dAdd dentry (some inode)) lower below ∧
      InHand (upper.dAdd dentry (some inode)) lower below dir name dentry := by
  have self : (upper.dAdd dentry (some inode)).node dentry =
      { upper.node dentry with inode := some inode, hashed := true } := Cache.node_set_self _ _
  have others {other : Nat} (different : other ≠ dentry) :
      (upper.dAdd dentry (some inode)).node other = upper.node other :=
    Cache.node_set_of_ne _ different
  have mirrors' : Mirrors (upper.dAdd dentry (some inode)) lower below := by
    refine mirrors.replace ?_ mirrors.lowerFormed inode placed.notRoot
      ⟨covers.lies, covers.notRoot, covers.hashed, ?_, ?_⟩ ?_ lowInode ?_ ?_ ?_
    · apply mirrors.upperFormed.dAdd placed.notRoot placed.allocated
      rw [placed.parent, placed.named]
      exact placed.sole
    · rw [self]
      exact covers.name
    · rw [self]
      exact covers.parent
    · rw [self]
    · intro other different hashed lies
      exact different (mirrors.eq_of_below placed covers hashed lies)
    · intro other different hashed
      exact ⟨(Cache.hashed_dAdd.mp hashed).resolve_left different, others different,
        fun _ _ => rfl⟩
    · intro other notRoot hashed
      refine Cache.hashed_dAdd.mpr (.inr ?_)
      by_cases same : other = dentry
      · rw [same, self, placed.parent]
        exact placed.dirHashed
      · rw [others same]
        exact mirrors.parents other notRoot ((Cache.hashed_dAdd.mp hashed).resolve_left same)
  have names : (upper.dAdd dentry (some inode)).Names dir name dentry := by
    rw [Cache.Names, self]
    exact ⟨placed.notRoot, rfl, placed.parent, placed.named⟩
  exact ⟨mirrors', mirrors'.inHand_of_names names⟩

/-- A node that does not exist is made to exist in both caches. -/
theorem create {dir dentry low : Nat} {name : Name}
    (placed : Placed upper lower below dir name dentry)
    (covers : Covers upper lower below dentry low)
    (unhashed : (upper.node dentry).hashed = false) (inode : Inode) :
    Mirrors (upper.dAdd dentry (some inode)) (lower.dInstantiate low (some inode)) below := by
  have instantiated : (lower.dInstantiate low (some inode)).node low =
      { lower.node low with inode := some inode } := Cache.node_set_self _ _
  have covers' : Covers upper (lower.dInstantiate low (some inode)) below dentry low := by
    refine ⟨covers.lies, covers.notRoot, ?_, ?_, ?_⟩ <;> rw [instantiated]
    · exact covers.hashed
    · exact covers.name
    · exact covers.parent
  have placed' : Placed upper (lower.dInstantiate low (some inode)) below dir name dentry :=
    { placed with covers := ⟨low, covers'⟩ }
  have lowInode : ((lower.dInstantiate low (some inode)).node low).inode = some inode := by
    rw [instantiated]
  exact ((mirrors.instantiateLower placed covers unhashed (some inode)).add placed' covers'
    lowInode).1

/-- The lower cache may take a node away from its place, and the upper one unhashes what stands
there. -/
theorem remove {lower' : Cache Name Inode} {dir dentry low : Nat} {name : Name}
    (placed : Placed upper lower below dir name dentry)
    (covers : Covers upper lower below dentry low) (empty : lower.hasChild low = false)
    (lowerFormed : lower'.WellFormed)
    (same : ∀ other, other ≠ low → other < lower.count → (lower.node other).inode.isSome →
      lower'.node other = lower.node other) :
    Mirrors (upper.dDrop dentry) lower' below := by
  apply mirrors.drop placed.notRoot (mirrors.childless covers.lies empty) lowerFormed
  · exact fun _ _ => rfl
  · intro other otherLow different hashed lies
    refine same otherLow ?_ (mirrors.low_lt_count hashed lies) ?_
    · rintro rfl
      exact different (mirrors.eq_of_below placed covers hashed lies)
    · rw [← mirrors.inodes other otherLow hashed lies]
      exact mirrors.positive other hashed

/-- Both caches move a node to the place of another that has nothing under it. -/
theorem move {oldDir old oldLow newDir new newLow : Nat} {oldName newName : Name}
    (oldPlaced : Placed upper lower below oldDir oldName old)
    (oldCovers : Covers upper lower below old oldLow) (oldHashed : (upper.node old).hashed = true)
    (newPlaced : Placed upper lower below newDir newName new)
    (newCovers : Covers upper lower below new newLow) (empty : lower.hasChild newLow = false)
    (apart : old ≠ new) :
    Mirrors (upper.dMove old new) (lower.dMove oldLow newLow) below := by
  have lowApart : oldLow ≠ newLow := by
    rintro rfl
    exact apart (mirrors.eq_of_below newPlaced newCovers oldHashed oldCovers.lies)
  have oldLowAllocated := mirrors.lowerFormed.bounded oldLow oldCovers.hashed
  have newLowNames : lower.Names (lower.node newLow).parent (lower.node newLow).name newLow :=
    ⟨newCovers.notRoot, newCovers.hashed, rfl, rfl⟩
  have moved : (upper.dMove old new).node old = { upper.node old with
      parent := (upper.node new).parent, name := (upper.node new).name, hashed := true } :=
    Cache.node_dMove apart
  have lowMoved : (lower.dMove oldLow newLow).node oldLow = { lower.node oldLow with
      parent := (lower.node newLow).parent, name := (lower.node newLow).name, hashed := true } :=
    Cache.node_dMove lowApart
  obtain ⟨inode, oldInode⟩ := Option.isSome_iff_exists.mp (mirrors.positive old oldHashed)
  have childless := mirrors.childless newCovers.lies empty
  refine mirrors.replace ?_ ?_ inode oldPlaced.notRoot
    ⟨oldCovers.lies, oldCovers.notRoot, ?_, ?_, ?_⟩ ?_ ?_ ?_ ?_ ?_
  · apply mirrors.upperFormed.dMove oldPlaced.notRoot oldPlaced.allocated newPlaced.notRoot apart
    rw [newPlaced.parent, newPlaced.named]
    exact newPlaced.sole
  · apply mirrors.lowerFormed.dMove oldCovers.notRoot oldLowAllocated newCovers.notRoot lowApart
    exact fun other names => mirrors.lowerFormed.unique _ _ _ _ names newLowNames
  · rw [lowMoved]
  · rw [lowMoved, moved]
    exact newCovers.name
  · rw [lowMoved, moved]
    exact newCovers.parent
  · rw [moved]
    exact oldInode
  · rw [lowMoved]
    exact (mirrors.inodes old oldLow oldHashed oldCovers.lies).symm.trans oldInode
  · intro other different hashed lies
    exact different (mirrors.eq_of_below oldPlaced oldCovers hashed lies)
  · intro other different hashed
    obtain ⟨notNew, before⟩ := (Cache.hashed_dMove apart).mp hashed
    have before := before.resolve_left different
    refine ⟨before, Cache.node_dMove_of_ne different notNew,
      fun low lies => Cache.node_dMove_of_ne ?_ ?_⟩
    · rintro rfl
      exact different (mirrors.eq_of_below oldPlaced oldCovers before lies)
    · rintro rfl
      exact notNew (mirrors.eq_of_below newPlaced newCovers before lies)
  · intro other notRoot hashed
    obtain ⟨notNew, before⟩ := (Cache.hashed_dMove apart).mp hashed
    rw [Cache.hashed_dMove apart]
    by_cases same : other = old
    · rw [same, moved]
      have dirHashed : (upper.node (upper.node new).parent).hashed = true :=
        newPlaced.parent ▸ newPlaced.dirHashed
      refine ⟨fun itself => ?_, .inr dirHashed⟩
      exact childless new newPlaced.notRoot (itself ▸ dirHashed) itself
    · have before := before.resolve_left same
      rw [Cache.node_dMove_of_ne same notNew]
      exact ⟨childless other notRoot before, .inr (mirrors.parents other notRoot before)⟩

end Mirrors

end Mirror

end Tracefs.NameCache
