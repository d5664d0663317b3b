import Tracefs.Record.Pathnames

/-!
# Directory entries and the names recorded for them

A dentry knows its parent and the last component of its path.  The encoders
record that component.  Resolved from the root of the mount it denotes the
dentry only when the dentry lies directly under the root.
-/

namespace Tracefs

open Bytes

inductive Dentry where
  | root
  | child (parent : Dentry) (name : Name)
  deriving DecidableEq

def Name.slash : Name := ⟨[47], by decide, by decide, by decide⟩

namespace Dentry

/-- `d_parent`, which for the root is the root itself. -/
def parent : Dentry → Dentry
  | root => root
  | child parent _ => parent

/-- `d_name`; that of a root is a slash. -/
def name : Dentry → Name
  | root => .slash
  | child _ name => name

end Dentry

/-- A name that stands for an entry of a directory in a path. -/
structure Name.IsComponent (name : Name) : Prop where
  noSlash : 47 ∉ name.text
  notDot : name.text ≠ [46]
  notDotDot : name.text ≠ [46, 46]

/-- The dentries under the mount, those of entries about to be created included. -/
structure DirTree where
  dentries : List Dentry
  rooted : .root ∈ dentries
  closed : ∀ dentry ∈ dentries, dentry.parent ∈ dentries
  components : ∀ dentry ∈ dentries, dentry ≠ .root → dentry.name.IsComponent

namespace DirTree

variable (tree : DirTree)

def lookup (dir : Dentry) (component : List UInt8) : Option Dentry :=
  tree.dentries.find? fun dentry =>
    dentry ≠ .root ∧ dentry.parent = dir ∧ dentry.name.text = component

def walk (dir : Dentry) (component : List UInt8) : Option Dentry :=
  if component = [] ∨ component = [46] then some dir
  else if component = [46, 46] then some dir.parent
  else tree.lookup dir component

/-- The dentry that a path denotes, from the root of the mount. -/
def resolve (path : List UInt8) : Option Dentry :=
  (path.splitOn 47).foldlM tree.walk .root

variable {tree}

theorem resolve_of_noSlash {path : List UInt8} (noSlash : 47 ∉ path) :
    tree.resolve path = tree.walk .root path := by
  rw [resolve, List.splitOn_eq_singleton noSlash]
  simp

theorem resolve_slash : tree.resolve Name.slash.text = some .root := by
  rfl

theorem eq_child_of_lookup {dir dentry : Dentry} {component : List UInt8}
    (found : tree.lookup dir component = some dentry) :
    dentry ≠ .root ∧ dentry.parent = dir ∧ dentry.name.text = component := by
  simpa using List.find?_some found

theorem lookup_of_mem {dentry : Dentry} (present : dentry ∈ tree.dentries)
    (notRoot : dentry ≠ .root) : tree.lookup dentry.parent dentry.name.text = some dentry := by
  cases found : tree.lookup dentry.parent dentry.name.text with
  | none =>
      have absent := List.find?_eq_none.mp found dentry present
      simp [notRoot] at absent
  | some other =>
      obtain ⟨otherNotRoot, sameParent, sameText⟩ := eq_child_of_lookup found
      cases dentry with
      | root => exact absurd rfl notRoot
      | child parent name =>
          cases other with
          | root => exact absurd rfl otherNotRoot
          | child otherParent otherName =>
              obtain rfl : otherParent = parent := sameParent
              obtain rfl : otherName = name := Name.ext sameText
              rfl

/-- Without a slash a path leads to the root or to an entry of the root. -/
theorem of_resolve_noSlash {path : List UInt8} (noSlash : 47 ∉ path) {dentry : Dentry}
    (resolved : tree.resolve path = some dentry) :
    dentry.parent = .root ∧ (dentry ≠ .root → dentry.name.text = path) := by
  rw [resolve_of_noSlash noSlash, walk] at resolved
  split at resolved
  next =>
    cases resolved
    exact ⟨rfl, fun notRoot => absurd rfl notRoot⟩
  next =>
    split at resolved
    next =>
      cases resolved
      exact ⟨rfl, fun notRoot => absurd rfl notRoot⟩
    next =>
      obtain ⟨-, parent, text⟩ := eq_child_of_lookup resolved
      exact ⟨parent, fun _ => text⟩

theorem resolve_name_iff {dentry : Dentry} (present : dentry ∈ tree.dentries) :
    tree.resolve dentry.name.text = some dentry ↔ dentry.parent = .root := by
  by_cases isRoot : dentry = .root
  · subst isRoot
    exact iff_of_true resolve_slash rfl
  · have component := tree.components dentry present isRoot
    constructor
    · intro resolved
      exact (of_resolve_noSlash component.noSlash resolved).1
    · intro parent
      have nonempty : dentry.name.text ≠ [] := List.ne_nil_of_length_pos dentry.name.nonempty
      rw [resolve_of_noSlash component.noSlash, walk, if_neg (by
        simp [nonempty, component.notDot]), if_neg component.notDotDot, ← parent]
      exact lookup_of_mem present isRoot

end DirTree

/-- A traced call on dentries of the tree. -/
structure DentryCall (tree : DirTree) where
  record : TraceRecord
  dentries : List Dentry
  inTree : ∀ dentry ∈ dentries, dentry ∈ tree.dentries
  named : dentries.map Dentry.name = record.call.names

/-- The new name of a link is not longer than the old one. -/
def TracedCall.NewNameFits : TracedCall → Prop
  | link oldName newName _ => newName.text.length ≤ oldName.text.length
  | _ => True

namespace DentryCall

variable {tree : DirTree}

/-- Each name in the record, resolved from the root of the mount, denotes the
dentry it stands for. -/
def Denotes (call : DentryCall tree) : Prop :=
  call.record.pathnames.map tree.resolve = call.dentries.map some

/-- The dentries lie directly under the root, and a link keeps its new name. -/
structure Flat (call : DentryCall tree) : Prop where
  parents : ∀ dentry ∈ call.dentries, dentry.parent = .root
  newName : call.record.call.NewNameFits

theorem names_denote_iff (call : DentryCall tree) :
    (call.record.call.names.map Name.text).map tree.resolve = call.dentries.map some ↔
      ∀ dentry ∈ call.dentries, dentry.parent = .root := by
  rw [← call.named, List.map_map, List.map_map, List.map_inj_left]
  exact forall₂_congr fun dentry present => DirTree.resolve_name_iff (call.inTree dentry present)

end DentryCall

theorem TracedCall.storedNames_of_fits {call : TracedCall} (fits : call.NewNameFits) :
    call.storedNames = call.names.map Name.text := by
  cases call with
  | link oldName newName ret =>
      have whole : newName.text.take oldName.text.length = newName.text :=
        List.take_of_length_le fits
      rw [storedNames, whole]
      rfl
  | _ => rfl

/-- A name cut short denotes something else. -/
theorem DirTree.resolve_cut_ne {tree : DirTree} {dentry : Dentry} (present : dentry ∈ tree.dentries)
    {count : Nat} (positive : 1 ≤ count) (short : count < dentry.name.text.length) :
    tree.resolve (dentry.name.text.take count) ≠ some dentry := by
  intro resolved
  have notRoot : dentry ≠ .root := by
    rintro rfl
    exact absurd short (Nat.not_lt.mpr positive)
  have noSlash : 47 ∉ dentry.name.text.take count :=
    fun membership => (tree.components dentry present notRoot).noSlash
      (List.mem_of_mem_take membership)
  have cut := congrArg List.length ((of_resolve_noSlash noSlash resolved).2 notRoot)
  rw [List.length_take] at cut
  omega

namespace DentryCall

variable {tree : DirTree}

theorem newNameFits_of_denotes {call : DentryCall tree} (denotes : call.Denotes) :
    call.record.call.NewNameFits := by
  obtain ⟨⟨traced, pid, rId, heap⟩, dentries, inTree, named⟩ := call
  cases traced with
  | link oldName newName ret =>
      obtain ⟨first, rest, rfl, -, restNamed⟩ := List.map_eq_cons_iff.mp named
      obtain ⟨second, later, rfl, rfl, -⟩ := List.map_eq_cons_iff.mp restNamed
      rw [Denotes, TraceRecord.pathnames_eq] at denotes
      simp only [TracedCall.storedNames, List.map_cons, List.cons.injEq] at denotes
      by_contra long
      exact DirTree.resolve_cut_ne (inTree second (by simp)) oldName.nonempty
        (Nat.lt_of_not_le long) denotes.2.1
  | _ => trivial

theorem denotes_iff (call : DentryCall tree) : call.Denotes ↔ call.Flat := by
  constructor
  · intro denotes
    have fits := newNameFits_of_denotes denotes
    rw [Denotes, TraceRecord.pathnames_eq, TracedCall.storedNames_of_fits fits] at denotes
    exact ⟨call.names_denote_iff.mp denotes, fits⟩
  · rintro ⟨parents, fits⟩
    rw [Denotes, TraceRecord.pathnames_eq, TracedCall.storedNames_of_fits fits]
    exact call.names_denote_iff.mpr parents

end DentryCall

/-- The names of a record denote the dentries of its call exactly when these lie
directly under the root of the mount and a link keeps its new name; such calls
with the same names are calls on the same dentries. -/
theorem pathnames_denote_iff {tree : DirTree} (call : DentryCall tree) :
    (call.Denotes ↔ call.Flat) ∧
      ∀ other : DentryCall tree, call.Flat → other.Flat →
        call.record.pathnames = other.record.pathnames → call.dentries = other.dentries := by
  refine ⟨call.denotes_iff, fun other flat otherFlat same => ?_⟩
  have denoted := call.denotes_iff.mpr flat
  rw [DentryCall.Denotes, same, other.denotes_iff.mpr otherFlat] at denoted
  exact (List.map_inj_right fun _ _ => Option.some.inj).mp denoted.symm

/-- The dentries of a tree with a directory `a` and an entry `a` of it. -/
def nested : List Dentry := [.root, .child .root .a, .child (.child .root .a) .a]

theorem nested_closed : ∀ dentry ∈ nested, dentry.parent ∈ nested := by decide

theorem nested_components : ∀ dentry ∈ nested, dentry ≠ .root → dentry.name.IsComponent := by
  have component : Name.a.IsComponent := ⟨by decide, by decide, by decide⟩
  intro dentry present notRoot
  simp only [nested, List.mem_cons, List.not_mem_nil, or_false] at present
  rcases present with rfl | rfl | rfl
  · exact absurd rfl notRoot
  · exact component
  · exact component

def nestedTree : DirTree := ⟨nested, List.mem_cons_self, nested_closed, nested_components⟩

/-- A call on an entry `a` of the tree. -/
def callOnA (call : TracedCall) (dentry : Dentry) (present : dentry ∈ nested)
    (named : [dentry.name] = call.names) : DentryCall nestedTree where
  record := ⟨call, 1, 2, fun _ => 0⟩
  dentries := [dentry]
  inTree := fun _ membership => List.mem_singleton.mp membership ▸ present
  named := named

/-- Whatever is done to the outer `a`, its records name no other dentry. -/
theorem pathnames_denote_outer :
    let unlink := callOnA (.unlink .a 0) (.child .root .a) (by decide) rfl
    let mkdir := callOnA (.mkdir .a 0 0) (.child .root .a) (by decide) rfl
    unlink.Flat ∧ mkdir.Flat ∧ unlink.record.pathnames = mkdir.record.pathnames ∧
      unlink.Denotes ∧ unlink.dentries = mkdir.dentries := by
  intro unlink mkdir
  have unlinkFlat : unlink.Flat := ⟨by simp [unlink, callOnA, Dentry.parent], trivial⟩
  have mkdirFlat : mkdir.Flat := ⟨by simp [mkdir, callOnA, Dentry.parent], trivial⟩
  have same : unlink.record.pathnames = mkdir.record.pathnames := by
    rw [unlink.record.pathnames_eq, mkdir.record.pathnames_eq]
    rfl
  have denotes := pathnames_denote_iff unlink
  exact ⟨unlinkFlat, mkdirFlat, same, denotes.1.mpr unlinkFlat,
    denotes.2 mkdir unlinkFlat mkdirFlat same⟩

/-- The records of `unlink` for `a` and for `a/a` both hold the name `a`, which
denotes the first. -/
theorem not_denotes_nested :
    ∃ (tree : DirTree) (outer inner : DentryCall tree),
      outer.dentries = [.child .root .a] ∧ inner.dentries = [.child (.child .root .a) .a] ∧
      outer.record.pathnames = inner.record.pathnames ∧ outer.Denotes ∧ ¬ inner.Denotes := by
  let outer := callOnA (.unlink .a 0) (.child .root .a) (by decide) rfl
  let inner := callOnA (.unlink .a 0) (.child (.child .root .a) .a) (by decide) rfl
  have flat : outer.Flat := ⟨by simp [outer, callOnA, Dentry.parent], trivial⟩
  refine ⟨nestedTree, outer, inner, rfl, rfl, rfl, outer.denotes_iff.mpr flat, ?_⟩
  rw [inner.denotes_iff]
  rintro ⟨parents, -⟩
  exact absurd (parents _ (List.mem_singleton_self _)) (by decide)

end Tracefs
