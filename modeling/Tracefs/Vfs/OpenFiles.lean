import Tracefs.Balance
import Tracefs.Transition
import Tracefs.Vfs.Operations
import Mathlib.Tactic.Abel

/-!
# Open files

A file of trfs that is open owns a `trfs_file_info`, which owns one reference on the lower file.
The VFS calls the methods while somebody holds the file (a descriptor, a mapping, or a
`read_iter` or `write_iter` under way) and calls `release` when the last holder lets go; a file
whose `open` failed is thrown away without a release.  Mappings outlive descriptors, and several
calls may be under way at once.
-/

namespace Tracefs

open Balance Transition

variable {Lower VmOps : Type}

def Err.enotty : Err := BitVec.ofInt 32 (-25)

structure TrfsFileInfo (Lower VmOps : Type) where
  lowerFile : Option Lower
  lowerVmOps : Option VmOps

/-- `file->private_data`.  The pointer is stored nowhere else. -/
inductive PrivateData (Lower VmOps : Type) where
  | null
  | live (info : TrfsFileInfo Lower VmOps)
  | freed

/-- A file info that is not there is used, a null lower file is used, the lower file has no `mmap`
to call, or the `BUG_ON` of the fault handlers. -/
inductive FileFault where
  | privateData
  | lowerFile
  | lowerMmap
  | lowerVmOps
  deriving DecidableEq

inductive LowerMethod where
  | read | write | iterate | unlockedIoctl | compatIoctl | mmap | flush | fsync | fasync
  | readIter | writeIter | fault | pageMkwrite
  deriving DecidableEq

/-- What a method returns, and the methods it calls on lower files. -/
structure Forwarded (Lower : Type) where
  err : Err
  calls : List (LowerMethod × Lower)

/-! ## The methods that only forward

An optional method of the lower file is `none` when the lower file system has none, and its result
otherwise. -/

namespace TrfsFileInfo

section Methods

variable (info : TrfsFileInfo Lower VmOps)

def forward (method : LowerMethod) (ret : Err) : Except FileFault (Forwarded Lower) :=
  match info.lowerFile with
  | none => .error .lowerFile
  | some lowerFile => .ok ⟨ret, [(method, lowerFile)]⟩

def trfsRead (vfsRead : Err) : Except FileFault (Forwarded Lower) := info.forward .read vfsRead

def trfsWrite (vfsWrite : Err) : Except FileFault (Forwarded Lower) := info.forward .write vfsWrite

def trfsReaddir (iterateDir : Err) : Except FileFault (Forwarded Lower) :=
  info.forward .iterate iterateDir

/-- An optional method of a lower file that is looked at before it is used. -/
def forwardIf (method : LowerMethod) (otherwise : Err) (implemented : Option Err) :
    Except FileFault (Forwarded Lower) :=
  match info.lowerFile, implemented with
  | some lowerFile, some ret => .ok ⟨ret, [(method, lowerFile)]⟩
  | _, _ => .ok ⟨otherwise, []⟩

def trfsUnlockedIoctl : Option Err → Except FileFault (Forwarded Lower) :=
  info.forwardIf .unlockedIoctl .enotty

def trfsCompatIoctl : Option Err → Except FileFault (Forwarded Lower) :=
  info.forwardIf .compatIoctl .enotty

def trfsFlush : Option Err → Except FileFault (Forwarded Lower) := info.forwardIf .flush 0

def trfsFsync (genericFileFsync vfsFsyncRange : Err) : Except FileFault (Forwarded Lower) :=
  if genericFileFsync ≠ 0 then .ok ⟨genericFileFsync, []⟩
  else info.forward .fsync vfsFsyncRange

/-- Unlike flush, `trfs_fasync` does not ask whether there is a lower file. -/
def trfsFasync (implemented : Option Err) : Except FileFault (Forwarded Lower) :=
  match info.lowerFile, implemented with
  | none, _ => .error .lowerFile
  | some _, none => .ok ⟨0, []⟩
  | some lowerFile, some ret => .ok ⟨ret, [(.fasync, lowerFile)]⟩

end Methods

end TrfsFileInfo

inductive FileOp where
  | read (vfsRead : Err)
  | write (vfsWrite : Err)
  | readdir (iterateDir : Err)
  | unlockedIoctl (implemented : Option Err)
  | compatIoctl (implemented : Option Err)
  | flush (implemented : Option Err)
  | fsync (genericFileFsync vfsFsyncRange : Err)
  | fasync (implemented : Option Err)

def FileOp.run (info : TrfsFileInfo Lower VmOps) : FileOp → Except FileFault (Forwarded Lower)
  | read vfsRead => info.trfsRead vfsRead
  | write vfsWrite => info.trfsWrite vfsWrite
  | readdir iterateDir => info.trfsReaddir iterateDir
  | unlockedIoctl implemented => info.trfsUnlockedIoctl implemented
  | compatIoctl implemented => info.trfsCompatIoctl implemented
  | flush implemented => info.trfsFlush implemented
  | fsync genericFileFsync vfsFsyncRange => info.trfsFsync genericFileFsync vfsFsyncRange
  | fasync implemented => info.trfsFasync implemented

/-! ## Mappings -/

/-- How the lower `mmap` ends: it is missing, fails, or leaves operations in the `vma`. -/
inductive LowerMmap (VmOps : Type) where
  | missing
  | failed (err : Err) (nonzero : err ≠ 0)
  | mapped (vmOps : Option VmOps)

namespace TrfsFileInfo

/-- `trfs_mmap`, with the file info afterwards. -/
def trfsMmap (info : TrfsFileInfo Lower VmOps) (willwrite writepage : Bool)
    (lowerMmap : LowerMmap VmOps) :
    Except FileFault (Forwarded Lower × TrfsFileInfo Lower VmOps) :=
  match info.lowerFile with
  | none => .error .lowerFile
  | some lowerFile =>
      if willwrite && !writepage then .ok (⟨.einval, []⟩, info)
      else
        match info.lowerVmOps, lowerMmap with
        | some _, _ => .ok (⟨0, []⟩, info)
        | none, .missing => .error .lowerMmap
        | none, .failed err _ => .ok (⟨err, [(.mmap, lowerFile)]⟩, info)
        | none, .mapped savedVmOps =>
            .ok (⟨0, [(.mmap, lowerFile)]⟩, { info with lowerVmOps := savedVmOps })

/-- `trfs_fault`.  The lower handler gets a copy of the `vma` with the lower file in it. -/
def trfsFault (info : TrfsFileInfo Lower VmOps) (ret : Err) : Except FileFault (Forwarded Lower) :=
  match info.lowerVmOps with
  | none => .error .lowerVmOps
  | some _ => info.forward .fault ret

def trfsPageMkwrite (info : TrfsFileInfo Lower VmOps) (implemented : Option Err) :
    Except FileFault (Forwarded Lower) :=
  match info.lowerVmOps, implemented with
  | none, _ => .error .lowerVmOps
  | some _, none => .ok ⟨0, []⟩
  | some _, some ret => info.forward .pageMkwrite ret

end TrfsFileInfo

/-! ## The life of an open file -/

inductive FileResource (Lower : Type) where
  | info
  | lower (lowerFile : Lower)
  deriving DecidableEq

inductive FileHolder (Lower : Type) where
  | descriptor
  | mapping (vma : Nat)
  | iter (lowerFile : Lower)
  deriving DecidableEq

/-- A `struct file` of trfs: who holds it, what it has taken and dropped, the calls it has made on
lower files, and what has gone wrong. -/
structure TrfsFile (Lower VmOps : Type) where
  privateData : PrivateData Lower VmOps
  holders : List (FileHolder Lower)
  entries : List (Entry (FileResource Lower))
  lowerCalls : List (LowerMethod × Lower)
  faults : List FileFault

/-- The result of `dentry_open` on the lower path. -/
inductive DentryOpen (Lower : Type) where
  | opened (lowerFile : Lower)
  | failed (err : Err) (nonzero : err ≠ 0)

structure OpenOutcomes (Lower : Type) where
  unhashed : Bool
  kzalloc : Bool
  dentryOpen : DentryOpen Lower

/-- `trfs_open` of a new file.  A failed lower open finds no lower file to drop, and its file info
is freed while `private_data` still points to it. -/
def TrfsFile.trfsOpen (outcomes : OpenOutcomes Lower) : Err × TrfsFile Lower VmOps :=
  if outcomes.unhashed then (.enoent, ⟨.null, [], [], [], []⟩)
  else if !outcomes.kzalloc then (.enomem, ⟨.null, [], [], [], []⟩)
  else
    match outcomes.dentryOpen with
    | .failed err _ => (err, ⟨.freed, [], [.take .info, .drop .info], [], []⟩)
    | .opened lowerFile =>
        (0, ⟨.live ⟨some lowerFile, none⟩, [], [.take .info, .take (.lower lowerFile)], [], []⟩)

/-- The two methods that hold a reference of their own on the lower file while they run. -/
inductive IterMethod where
  | readIter
  | writeIter

def IterMethod.lowerMethod : IterMethod → LowerMethod
  | readIter => .readIter
  | writeIter => .writeIter

inductive FileAction (Lower VmOps : Type) where
  | duplicate
  | close
  | operate (op : FileOp)
  | mmap (vma : Nat) (willwrite writepage : Bool) (lowerMmap : LowerMmap VmOps)
  | munmap (vma : Nat)
  | fault (vma : Nat) (ret : Err)
  | pageMkwrite (vma : Nat) (implemented : Option Err)
  | iterStart (method : IterMethod) (implemented : Bool)
  | iterEnd (lowerFile : Lower)

/-- The lower file system has an `mmap` that installs its operations when it succeeds. -/
def FileAction.LowerMaps : FileAction Lower VmOps → Prop
  | .mmap _ _ _ lowerMmap => lowerMmap ≠ .missing ∧ lowerMmap ≠ .mapped none
  | _ => True

namespace TrfsFile

/-- The file as `open` leaves it, in the hands of its first descriptor if it succeeded. -/
def start (outcomes : OpenOutcomes Lower) : TrfsFile Lower VmOps :=
  let opened := trfsOpen outcomes
  if opened.1 = 0 then { opened.2 with holders := [.descriptor] } else opened.2

def fail (file : TrfsFile Lower VmOps) (fault : FileFault) : TrfsFile Lower VmOps :=
  { file with faults := file.faults ++ [fault] }

/-- `TRFS_F(file)`. -/
def withInfo (file : TrfsFile Lower VmOps)
    (run : TrfsFileInfo Lower VmOps → TrfsFile Lower VmOps) : TrfsFile Lower VmOps :=
  match file.privateData with
  | .live info => run info
  | _ => file.fail .privateData

def note (file : TrfsFile Lower VmOps) :
    Except FileFault (Forwarded Lower) → TrfsFile Lower VmOps
  | .error fault => file.fail fault
  | .ok forwarded => { file with lowerCalls := file.lowerCalls ++ forwarded.calls }

def fput (file : TrfsFile Lower VmOps) (lowerFile : Lower) : TrfsFile Lower VmOps :=
  { file with entries := file.entries ++ [.drop (.lower lowerFile)] }

def trfsFileRelease (file : TrfsFile Lower VmOps) : TrfsFile Lower VmOps :=
  file.withInfo fun info =>
    { file with
      privateData := .freed
      entries := file.entries ++
        (info.lowerFile.toList.map fun lowerFile => .drop (.lower lowerFile)) ++ [.drop .info] }

variable [DecidableEq Lower]

/-- A holder lets go, the last one with a release. -/
def put (file : TrfsFile Lower VmOps) (holder : FileHolder Lower) : TrfsFile Lower VmOps :=
  let left := { file with holders := file.holders.erase holder }
  if left.holders = [] then left.trfsFileRelease else left

/-- One call of the VFS.  It makes none on a file that nobody holds, and a mapping or a call ends
once. -/
def step (file : TrfsFile Lower VmOps) : FileAction Lower VmOps → TrfsFile Lower VmOps
  | .duplicate =>
      if .descriptor ∈ file.holders then { file with holders := .descriptor :: file.holders }
      else file
  | .close => if .descriptor ∈ file.holders then file.put .descriptor else file
  | .operate op =>
      if file.holders ≠ [] then file.withInfo fun info => file.note (op.run info)
      else file
  | .mmap vma willwrite writepage lowerMmap =>
      if file.holders ≠ [] then
        file.withInfo fun info =>
          match info.trfsMmap willwrite writepage lowerMmap with
          | .error fault => file.fail fault
          | .ok (forwarded, next) =>
              { file with
                privateData := .live next
                lowerCalls := file.lowerCalls ++ forwarded.calls
                holders :=
                  if forwarded.err = 0 then .mapping vma :: file.holders else file.holders }
      else file
  | .munmap vma => if .mapping vma ∈ file.holders then file.put (.mapping vma) else file
  | .fault vma ret =>
      if .mapping vma ∈ file.holders then
        file.withInfo fun info => file.note (info.trfsFault ret)
      else file
  | .pageMkwrite vma implemented =>
      if .mapping vma ∈ file.holders then
        file.withInfo fun info => file.note (info.trfsPageMkwrite implemented)
      else file
  | .iterStart method implemented =>
      if file.holders ≠ [] then
        file.withInfo fun info =>
          match info.lowerFile with
          | none => file.fail .lowerFile
          | some lowerFile =>
              if implemented then
                { file with
                  holders := .iter lowerFile :: file.holders
                  entries := file.entries ++ [.take (.lower lowerFile)]
                  lowerCalls := file.lowerCalls ++ [(method.lowerMethod, lowerFile)] }
              else file
      else file
  | .iterEnd lowerFile =>
      if .iter lowerFile ∈ file.holders then
        -- the times are copied from the lower file after `fput`, so the file info has to own it
        file.withInfo fun info =>
          if info.lowerFile = some lowerFile then
            (file.fput lowerFile).put (.iter lowerFile)
          else file.fail .lowerFile
      else file

/-- A file that was opened over `lowerFile`: while it is held its info is there and leads to that
file, and no other file is ever called. -/
structure Wired (lowerFile : Lower) (file : TrfsFile Lower VmOps) : Prop where
  live : file.holders ≠ [] →
    ∃ info, file.privateData = .live info ∧ info.lowerFile = some lowerFile
  iters : ∀ other, .iter other ∈ file.holders → other = lowerFile
  calls : ∀ call ∈ file.lowerCalls, call.2 = lowerFile
  faults : ∀ fault ∈ file.faults, fault = .lowerMmap ∨ fault = .lowerVmOps

/-- A call under way owns the lower file once more. -/
def share : FileHolder Lower → FileResource Lower → Int
  | .iter lowerFile => unit (.lower lowerFile)
  | _ => 0

/-- What a held file owns: its info, the lower file, and what its holders own. -/
def owned (lowerFile : Lower) (holders : List (FileHolder Lower)) : FileResource Lower → Int :=
  if holders = [] then 0
  else unit .info + unit (.lower lowerFile) + (holders.map share).sum

end TrfsFile

section Methods

variable {info : TrfsFileInfo Lower VmOps} {lowerFile : Lower}

/-- Every method calls the lower file of the info or none. -/
def Forwarded.To (lowerFile : Lower) (forwarded : Forwarded Lower) : Prop :=
  ∀ call ∈ forwarded.calls, call.2 = lowerFile

theorem TrfsFileInfo.forward_to (found : info.lowerFile = some lowerFile) (method : LowerMethod)
    (ret : Err) :
    ∃ forwarded, info.forward method ret = .ok forwarded ∧ forwarded.To lowerFile := by
  refine ⟨⟨ret, [(method, lowerFile)]⟩, by rw [forward, found], ?_⟩
  intro call member
  rw [List.mem_singleton.mp member]

theorem TrfsFileInfo.forwardIf_to (found : info.lowerFile = some lowerFile) (method : LowerMethod)
    (otherwise : Err) (implemented : Option Err) :
    ∃ forwarded, info.forwardIf method otherwise implemented = .ok forwarded ∧
      forwarded.To lowerFile := by
  cases implemented with
  | none =>
      exact ⟨⟨otherwise, []⟩, by simp only [forwardIf, found], fun call member => by cases member⟩
  | some ret =>
      refine ⟨⟨ret, [(method, lowerFile)]⟩, by simp only [forwardIf, found], ?_⟩
      intro call member
      rw [List.mem_singleton.mp member]

theorem FileOp.run_to (found : info.lowerFile = some lowerFile) (op : FileOp) :
    ∃ forwarded, op.run info = .ok forwarded ∧ forwarded.To lowerFile := by
  cases op with
  | read ret | write ret | readdir ret => exact TrfsFileInfo.forward_to found _ ret
  | unlockedIoctl implemented | compatIoctl implemented | flush implemented =>
      exact TrfsFileInfo.forwardIf_to found _ _ implemented
  | fsync generic ret =>
      simp only [FileOp.run, TrfsFileInfo.trfsFsync]
      split
      · exact ⟨_, rfl, fun call member => by cases member⟩
      · exact TrfsFileInfo.forward_to found _ ret
  | fasync implemented =>
      have same : info.trfsFasync implemented = info.forwardIf .fasync 0 implemented := by
        cases implemented <;> simp only [TrfsFileInfo.trfsFasync, TrfsFileInfo.forwardIf, found]
      rw [FileOp.run, same]
      exact TrfsFileInfo.forwardIf_to found _ _ implemented

/-- A mapping keeps the lower file of the info, and fails only for want of a lower `mmap`. -/
theorem TrfsFileInfo.trfsMmap_to (found : info.lowerFile = some lowerFile)
    (willwrite writepage : Bool) (lowerMmap : LowerMmap VmOps) :
    info.trfsMmap willwrite writepage lowerMmap = .error .lowerMmap ∨
      ∃ forwarded next, info.trfsMmap willwrite writepage lowerMmap = .ok (forwarded, next) ∧
        forwarded.To lowerFile ∧ next.lowerFile = some lowerFile := by
  unfold trfsMmap
  rw [found]
  dsimp only
  split
  · exact .inr ⟨_, _, rfl, fun call member => (by cases member), found⟩
  · split
    · exact .inr ⟨_, _, rfl, fun call member => (by cases member), found⟩
    · exact .inl rfl
    · refine .inr ⟨_, _, rfl, fun call member => ?_, found⟩
      rw [List.mem_singleton.mp member]
    · refine .inr ⟨_, _, rfl, fun call member => ?_, rfl⟩
      rw [List.mem_singleton.mp member]

theorem einval_ne_zero : Err.einval ≠ 0 := by decide

/-- A successful mapping saves the operations of the lower one, and no mapping loses them. -/
theorem TrfsFileInfo.trfsMmap_saves (found : info.lowerFile = some lowerFile)
    (willwrite writepage : Bool) {lowerMmap : LowerMmap VmOps} (present : lowerMmap ≠ .missing)
    (installs : lowerMmap ≠ .mapped none) :
    ∃ forwarded next, info.trfsMmap willwrite writepage lowerMmap = .ok (forwarded, next) ∧
      (forwarded.err = 0 → next.lowerVmOps ≠ none) ∧
      (info.lowerVmOps ≠ none → next.lowerVmOps ≠ none) := by
  unfold trfsMmap
  rw [found]
  dsimp only
  split
  · exact ⟨_, _, rfl, fun none => absurd none einval_ne_zero, id⟩
  · split
    · rename_i saved
      exact ⟨_, _, rfl, fun _ => by rw [saved]; exact Option.some_ne_none _, id⟩
    · exact absurd rfl present
    · rename_i err nonzero _
      exact ⟨_, _, rfl, fun none => absurd none nonzero, id⟩
    · rename_i savedVmOps _
      have some : savedVmOps ≠ none := fun none => installs (by rw [none])
      exact ⟨_, _, rfl, fun _ => some, fun _ => some⟩

theorem TrfsFileInfo.trfsFault_to (found : info.lowerFile = some lowerFile) (ret : Err) :
    info.trfsFault ret = .error .lowerVmOps ∨
      ∃ forwarded, info.trfsFault ret = .ok forwarded ∧ forwarded.To lowerFile := by
  unfold trfsFault
  split
  · exact .inl rfl
  · exact .inr (forward_to found _ ret)

theorem TrfsFileInfo.trfsPageMkwrite_to (found : info.lowerFile = some lowerFile)
    (implemented : Option Err) :
    info.trfsPageMkwrite implemented = .error .lowerVmOps ∨
      ∃ forwarded, info.trfsPageMkwrite implemented = .ok forwarded ∧
        forwarded.To lowerFile := by
  unfold trfsPageMkwrite
  split
  · exact .inl rfl
  · exact .inr ⟨_, rfl, fun call member => by cases member⟩
  · exact .inr (forward_to found _ _)

end Methods

namespace TrfsFile

variable {lowerFile : Lower} {file : TrfsFile Lower VmOps}

namespace Wired

theorem fail (wired : file.Wired lowerFile) {fault : FileFault}
    (allowed : fault = .lowerMmap ∨ fault = .lowerVmOps) : (file.fail fault).Wired lowerFile where
  live := wired.live
  iters := wired.iters
  calls := wired.calls
  faults := by
    intro other member
    rcases List.mem_append.mp member with earlier | now
    · exact wired.faults other earlier
    · rw [List.mem_singleton.mp now]
      exact allowed

theorem note (wired : file.Wired lowerFile) {forwarded : Forwarded Lower}
    (reaches : forwarded.To lowerFile) : (file.note (.ok forwarded)).Wired lowerFile where
  live := wired.live
  iters := wired.iters
  calls := by
    intro call member
    exact (List.mem_append.mp member).elim (wired.calls call) (reaches call)
  faults := wired.faults

theorem withInfo (wired : file.Wired lowerFile) (held : file.holders ≠ [])
    (run : TrfsFileInfo Lower VmOps → TrfsFile Lower VmOps) :
    ∃ info, info.lowerFile = some lowerFile ∧ file.privateData = .live info ∧
      file.withInfo run = run info := by
  obtain ⟨info, live, found⟩ := wired.live held
  exact ⟨info, found, live, by rw [TrfsFile.withInfo, live]⟩

/-- Somebody takes hold of the file, or the info changes. -/
theorem hold (wired : file.Wired lowerFile) {next : TrfsFile Lower VmOps}
    {info : TrfsFileInfo Lower VmOps} (live : next.privateData = .live info)
    (found : info.lowerFile = some lowerFile) (holder : Option (FileHolder Lower))
    (holders : next.holders = holder.toList ++ file.holders)
    (iter : ∀ other, holder = some (.iter other) → other = lowerFile)
    {calls : List (LowerMethod × Lower)} (appended : next.lowerCalls = file.lowerCalls ++ calls)
    (reaches : ∀ call ∈ calls, call.2 = lowerFile) (faults : next.faults = file.faults) :
    next.Wired lowerFile where
  live := fun _ => ⟨info, live, found⟩
  iters := by
    intro other member
    rw [holders, List.mem_append, Option.mem_toList] at member
    exact member.elim (iter other) (wired.iters other)
  calls := by
    intro call member
    rw [appended] at member
    exact (List.mem_append.mp member).elim (wired.calls call) (reaches call)
  faults := faults ▸ wired.faults

variable [DecidableEq Lower]

/-- A holder lets go.  Only an unheld file is released, and its info is still there then. -/
theorem put (wired : file.Wired lowerFile) {holder : FileHolder Lower}
    (member : holder ∈ file.holders) :
    (file.put holder).Wired lowerFile ∧ (file.put holder).holders = file.holders.erase holder ∧
      (file.put holder).faults = file.faults ∧
      (file.holders.erase holder ≠ [] → (file.put holder).privateData = file.privateData) ∧
      balance (file.put holder).entries = balance file.entries +
        (if file.holders.erase holder = [] then -unit .info - unit (.lower lowerFile) else 0) := by
  have held : file.holders ≠ [] := List.ne_nil_of_mem member
  obtain ⟨info, live, found⟩ := wired.live held
  have kept : ∀ other, .iter other ∈ file.holders.erase holder → other = lowerFile :=
    fun other inside => wired.iters other (List.mem_of_mem_erase inside)
  unfold TrfsFile.put
  dsimp only
  split
  · rename_i last
    simp only [trfsFileRelease, TrfsFile.withInfo, live, found]
    refine ⟨⟨fun still => absurd last still, kept, wired.calls, wired.faults⟩, trivial, trivial,
      fun still => absurd last still, ?_⟩
    simp [Entry.amount]
    abel
  · exact ⟨⟨fun _ => ⟨info, live, found⟩, kept, wired.calls, wired.faults⟩, rfl, rfl,
      fun _ => rfl, (add_zero _).symm⟩

end Wired

variable [DecidableEq Lower]

/-- A wired file owns what its holders account for. -/
structure Balanced (lowerFile : Lower) (file : TrfsFile Lower VmOps) : Prop where
  wired : file.Wired lowerFile
  balance : balance file.entries = owned lowerFile file.holders

theorem owned_cons {holders : List (FileHolder Lower)} (held : holders ≠ [])
    (holder : FileHolder Lower) :
    owned lowerFile (holder :: holders) = owned lowerFile holders + share holder := by
  rw [owned, owned, if_neg held, if_neg (List.cons_ne_nil _ _), List.map_cons, List.sum_cons]
  abel

/-- Letting go gives up the share of the holder, and everything with the last one. -/
theorem owned_erase {holders : List (FileHolder Lower)} {holder : FileHolder Lower}
    (member : holder ∈ holders) :
    owned lowerFile (holders.erase holder) = owned lowerFile holders - share holder +
      (if holders.erase holder = [] then -unit .info - unit (.lower lowerFile) else 0) := by
  have shares := List.sum_map_erase share member
  simp only [owned, if_neg (List.ne_nil_of_mem member), ← shares]
  split
  · rename_i last
    rw [last]
    simp
  · abel

namespace Balanced

theorem put (balanced : file.Balanced lowerFile) {holder : FileHolder Lower}
    (member : holder ∈ file.holders) (silent : share holder = 0) :
    (file.put holder).Balanced lowerFile := by
  obtain ⟨wired, holders, -, -, entries⟩ := balanced.wired.put member
  refine ⟨wired, ?_⟩
  rw [entries, holders, balanced.balance, owned_erase member, silent, sub_zero]

theorem fail (balanced : file.Balanced lowerFile) {fault : FileFault}
    (allowed : fault = .lowerMmap ∨ fault = .lowerVmOps) : (file.fail fault).Balanced lowerFile :=
  ⟨balanced.wired.fail allowed, balanced.balance⟩

theorem note (balanced : file.Balanced lowerFile) {forwarded : Forwarded Lower}
    (reaches : forwarded.To lowerFile) : (file.note (.ok forwarded)).Balanced lowerFile :=
  ⟨balanced.wired.note reaches, balanced.balance⟩

theorem duplicate (balanced : file.Balanced lowerFile) :
    (file.step .duplicate).Balanced lowerFile := by
  simp only [TrfsFile.step]
  split
  · rename_i member
    have held : file.holders ≠ [] := List.ne_nil_of_mem member
    obtain ⟨info, live, found⟩ := balanced.wired.live held
    refine ⟨balanced.wired.hold live found (some .descriptor) rfl (fun _ same => by cases same)
      (List.append_nil _).symm (fun _ member => by cases member) rfl, ?_⟩
    rw [owned_cons held, balanced.balance]
    exact (add_zero _).symm
  · exact balanced

theorem mmap (balanced : file.Balanced lowerFile) (vma : Nat) (willwrite writepage : Bool)
    (lowerMmap : LowerMmap VmOps) :
    (file.step (.mmap vma willwrite writepage lowerMmap)).Balanced lowerFile := by
  simp only [TrfsFile.step]
  split
  · rename_i held
    obtain ⟨info, found, live, same⟩ := balanced.wired.withInfo held _
    rw [same]
    rcases TrfsFileInfo.trfsMmap_to found willwrite writepage lowerMmap with
      missing | ⟨forwarded, next, mapped, reaches, still⟩
    · rw [missing]
      exact balanced.fail (.inl rfl)
    · rw [mapped]
      dsimp only
      split
      · refine ⟨balanced.wired.hold rfl still (some (.mapping vma)) rfl
          (fun _ same => by cases same) rfl reaches rfl, ?_⟩
        rw [owned_cons held, balanced.balance]
        exact (add_zero _).symm
      · exact ⟨balanced.wired.hold rfl still none rfl (fun _ same => by cases same) rfl reaches
          rfl, balanced.balance⟩
  · exact balanced

theorem iterStart (balanced : file.Balanced lowerFile) (method : IterMethod)
    (implemented : Bool) : (file.step (.iterStart method implemented)).Balanced lowerFile := by
  simp only [TrfsFile.step]
  split
  · rename_i held
    obtain ⟨info, found, live, same⟩ := balanced.wired.withInfo held _
    rw [same, found]
    dsimp only
    split
    · refine ⟨balanced.wired.hold live found (some (.iter lowerFile)) rfl ?_ rfl ?_ rfl, ?_⟩
      · rintro other same
        cases same
        rfl
      · intro call member
        rw [List.mem_singleton.mp member]
      · rw [owned_cons held, balance_append, balanced.balance]
        simp [Entry.amount, share]
    · exact balanced
  · exact balanced

theorem iterEnd (balanced : file.Balanced lowerFile) (other : Lower) :
    (file.step (.iterEnd other)).Balanced lowerFile := by
  simp only [TrfsFile.step]
  split
  · rename_i member
    obtain rfl := balanced.wired.iters other member
    obtain ⟨info, found, live, same⟩ :=
      balanced.wired.withInfo (List.ne_nil_of_mem member) _
    rw [same, if_pos found]
    have dropped : (file.fput other).Wired other :=
      ⟨balanced.wired.live, balanced.wired.iters, balanced.wired.calls, balanced.wired.faults⟩
    obtain ⟨wired, holders, -, -, entries⟩ := dropped.put member
    refine ⟨wired, ?_⟩
    have given : Tracefs.Balance.balance (file.fput other).entries =
        owned other file.holders - share (.iter other) := by
      simp [fput, balanced.balance, Entry.amount, share, sub_eq_add_neg]
    rw [entries, holders, given]
    exact (owned_erase member).symm
  · exact balanced

theorem step (balanced : file.Balanced lowerFile) (action : FileAction Lower VmOps) :
    (file.step action).Balanced lowerFile := by
  cases action with
  | duplicate => exact balanced.duplicate
  | mmap vma willwrite writepage lowerMmap =>
      exact balanced.mmap vma willwrite writepage lowerMmap
  | iterStart method implemented => exact balanced.iterStart method implemented
  | iterEnd other => exact balanced.iterEnd other
  | close | munmap =>
      simp only [TrfsFile.step]
      split
      · rename_i member
        exact balanced.put member rfl
      · exact balanced
  | operate op =>
      simp only [TrfsFile.step]
      split
      · rename_i held
        obtain ⟨info, found, -, same⟩ := balanced.wired.withInfo held _
        obtain ⟨forwarded, ran, reaches⟩ := op.run_to found
        rw [same, ran]
        exact balanced.note reaches
      · exact balanced
  | fault vma ret =>
      simp only [TrfsFile.step]
      split
      · rename_i member
        obtain ⟨info, found, -, same⟩ := balanced.wired.withInfo (List.ne_nil_of_mem member) _
        rw [same]
        rcases info.trfsFault_to found ret with bug | ⟨forwarded, ran, reaches⟩
        · rw [bug]
          exact balanced.fail (.inr rfl)
        · rw [ran]
          exact balanced.note reaches
      · exact balanced
  | pageMkwrite vma implemented =>
      simp only [TrfsFile.step]
      split
      · rename_i member
        obtain ⟨info, found, -, same⟩ := balanced.wired.withInfo (List.ne_nil_of_mem member) _
        rw [same]
        rcases info.trfsPageMkwrite_to found implemented with bug | ⟨forwarded, ran, reaches⟩
        · rw [bug]
          exact balanced.fail (.inr rfl)
        · rw [ran]
          exact balanced.note reaches
      · exact balanced

end Balanced

/-- A file that nobody holds is left alone. -/
theorem step_of_unheld (unheld : file.holders = []) (action : FileAction Lower VmOps) :
    file.step action = file := by
  cases action <;> simp [TrfsFile.step, unheld]

theorem run_of_unheld (unheld : file.holders = []) (actions : List (FileAction Lower VmOps)) :
    run TrfsFile.step file actions = file :=
  run_invariant (fun current => current = file)
    (fun _ action same => by rw [same, step_of_unheld unheld]) rfl actions

/-- After `open` the file is wired to its lower file and held by a descriptor, or it owns nothing
and nobody holds it. -/
theorem start_cases (outcomes : OpenOutcomes Lower) :
    (∃ lowerFile, outcomes.dentryOpen = .opened lowerFile ∧
        (start outcomes : TrfsFile Lower VmOps).Balanced lowerFile ∧
        (start outcomes : TrfsFile Lower VmOps).holders = [.descriptor] ∧
        (start outcomes : TrfsFile Lower VmOps).faults = []) ∨
      ((start outcomes : TrfsFile Lower VmOps).holders = [] ∧
        (start outcomes : TrfsFile Lower VmOps).faults = [] ∧
        (start outcomes : TrfsFile Lower VmOps).lowerCalls = [] ∧
        balance (start outcomes : TrfsFile Lower VmOps).entries = 0) := by
  obtain ⟨unhashed, kzalloc, dentryOpen⟩ := outcomes
  cases unhashed with
  | true => exact .inr ⟨rfl, rfl, rfl, rfl⟩
  | false =>
      cases kzalloc with
      | false => exact .inr ⟨rfl, rfl, rfl, rfl⟩
      | true =>
          cases dentryOpen with
          | failed err nonzero =>
              have thrownAway : (start ⟨false, true, .failed err nonzero⟩ : TrfsFile Lower VmOps) =
                  ⟨.freed, [], [.take .info, .drop .info], [], []⟩ := if_neg nonzero
              rw [thrownAway]
              exact .inr ⟨rfl, rfl, rfl, by simp [Entry.amount]⟩
          | opened lowerFile =>
              refine .inl ⟨lowerFile, rfl, ⟨⟨fun _ => ⟨_, rfl, rfl⟩, ?_, ?_, ?_⟩, ?_⟩, rfl, rfl⟩
              · intro other member
                cases List.mem_singleton.mp member
              · intro call member
                cases member
              · intro fault member
                cases member
              · simp [start, trfsOpen, Entry.amount, owned, share]

/-! ### Mappings of a lower file system that maps -/

structure Mapped (file : TrfsFile Lower VmOps) : Prop where
  vmOps : ∀ vma info, .mapping vma ∈ file.holders → file.privateData = .live info →
    info.lowerVmOps ≠ none
  faults : file.faults = []

namespace Mapped

theorem put (mapped : file.Mapped) (wired : file.Wired lowerFile) {holder : FileHolder Lower}
    (member : holder ∈ file.holders) : (file.put holder).Mapped := by
  obtain ⟨-, holders, faults, kept, -⟩ := wired.put member
  refine ⟨fun vma info inside live => ?_, faults.trans mapped.faults⟩
  rw [holders] at inside
  rw [kept (List.ne_nil_of_mem inside)] at live
  exact mapped.vmOps vma info (List.mem_of_mem_erase inside) live

theorem mmap (mapped : file.Mapped) (wired : file.Wired lowerFile) (vma : Nat)
    (willwrite writepage : Bool) {lowerMmap : LowerMmap VmOps} (present : lowerMmap ≠ .missing)
    (installs : lowerMmap ≠ .mapped none) :
    (file.step (.mmap vma willwrite writepage lowerMmap)).Mapped := by
  simp only [TrfsFile.step]
  split
  · rename_i held
    obtain ⟨info, found, live, same⟩ := wired.withInfo held _
    obtain ⟨forwarded, next, ran, saved, kept⟩ :=
      TrfsFileInfo.trfsMmap_saves found willwrite writepage present installs
    rw [same, ran]
    refine ⟨fun other _ member current => ?_, mapped.faults⟩
    cases current
    dsimp only at member
    split at member
    · rename_i succeeded
      exact saved succeeded
    · exact kept (mapped.vmOps other info member live)
  · exact mapped

/-- A fault on a mapped page finds the operations of the lower file. -/
theorem fault (mapped : file.Mapped) (wired : file.Wired lowerFile) {vma : Nat}
    (member : .mapping vma ∈ file.holders) (ret : Err) :
    file.step (.fault vma ret) =
      { file with lowerCalls := file.lowerCalls ++ [(.fault, lowerFile)] } := by
  obtain ⟨info, found, live, same⟩ :=
    wired.withInfo (List.ne_nil_of_mem member) fun info => file.note (info.trfsFault ret)
  obtain ⟨vmOps, installed⟩ := Option.ne_none_iff_exists'.mp (mapped.vmOps vma info member live)
  have ran : info.trfsFault ret = .ok ⟨ret, [(.fault, lowerFile)]⟩ := by
    simp only [TrfsFileInfo.trfsFault, installed, TrfsFileInfo.forward, found]
  rw [TrfsFile.step, if_pos member, same, ran]
  rfl

theorem pageMkwrite (mapped : file.Mapped) (wired : file.Wired lowerFile) {vma : Nat}
    (member : .mapping vma ∈ file.holders) (implemented : Option Err) :
    ∃ calls, file.step (.pageMkwrite vma implemented) =
      { file with lowerCalls := file.lowerCalls ++ calls } := by
  obtain ⟨info, found, live, same⟩ := wired.withInfo (List.ne_nil_of_mem member)
    fun info => file.note (info.trfsPageMkwrite implemented)
  obtain ⟨vmOps, installed⟩ := Option.ne_none_iff_exists'.mp (mapped.vmOps vma info member live)
  simp only [TrfsFile.step, if_pos member, same]
  cases implemented with
  | none =>
      simp only [TrfsFileInfo.trfsPageMkwrite, installed]
      exact ⟨[], rfl⟩
  | some ret =>
      simp only [TrfsFileInfo.trfsPageMkwrite, installed, TrfsFileInfo.forward, found]
      exact ⟨[(.pageMkwrite, lowerFile)], rfl⟩

theorem step (mapped : file.Mapped) (wired : file.Wired lowerFile)
    {action : FileAction Lower VmOps} (maps : action.LowerMaps) : (file.step action).Mapped := by
  cases action with
  | mmap vma willwrite writepage lowerMmap =>
      exact mapped.mmap wired vma willwrite writepage maps.1 maps.2
  | duplicate =>
      simp only [TrfsFile.step]
      split
      · exact ⟨fun vma info member => mapped.vmOps vma info
          (List.mem_of_ne_of_mem (by simp) member), mapped.faults⟩
      · exact mapped
  | close | munmap =>
      simp only [TrfsFile.step]
      split
      · rename_i member
        exact mapped.put wired member
      · exact mapped
  | operate op =>
      simp only [TrfsFile.step]
      split
      · rename_i held
        obtain ⟨info, found, -, same⟩ := wired.withInfo held _
        obtain ⟨forwarded, ran, -⟩ := op.run_to found
        rw [same, ran]
        exact ⟨mapped.vmOps, mapped.faults⟩
      · exact mapped
  | fault vma ret =>
      by_cases member : .mapping vma ∈ file.holders
      · rw [mapped.fault wired member]
        exact ⟨mapped.vmOps, mapped.faults⟩
      · rw [TrfsFile.step, if_neg member]
        exact mapped
  | pageMkwrite vma implemented =>
      by_cases member : .mapping vma ∈ file.holders
      · obtain ⟨calls, same⟩ := mapped.pageMkwrite wired member implemented
        rw [same]
        exact ⟨mapped.vmOps, mapped.faults⟩
      · rw [TrfsFile.step, if_neg member]
        exact mapped
  | iterStart method implemented =>
      simp only [TrfsFile.step]
      split
      · rename_i held
        obtain ⟨info, found, -, same⟩ := wired.withInfo held _
        rw [same, found]
        dsimp only
        split
        · exact ⟨fun vma info member => mapped.vmOps vma info
            (List.mem_of_ne_of_mem (by simp) member), mapped.faults⟩
        · exact mapped
      · exact mapped
  | iterEnd other =>
      simp only [TrfsFile.step]
      split
      · rename_i member
        obtain ⟨info, found, -, same⟩ := wired.withInfo (List.ne_nil_of_mem member) _
        have own := wired.iters other member
        rw [same, if_pos (own ▸ found)]
        have dropped : (file.fput other).Wired lowerFile :=
          ⟨wired.live, wired.iters, wired.calls, wired.faults⟩
        have stillMapped : (file.fput other).Mapped := ⟨mapped.vmOps, mapped.faults⟩
        exact stillMapped.put dropped member
      · exact mapped

end Mapped

end TrfsFile

def DentryOpen.err : DentryOpen Lower → Err
  | opened _ => 0
  | failed err _ => err

/-- `trfs_open` returns what its hook records. -/
theorem TrfsFile.trfsOpen_err (outcomes : OpenOutcomes Lower) (opened : OpenedFile)
    (flags mode : BitVec 32) :
    (TrfsFile.trfsOpen outcomes : Err × TrfsFile Lower VmOps).1 =
      (Tracefs.trfsOpen opened flags mode outcomes.unhashed outcomes.kzalloc
        outcomes.dentryOpen.err).err := by
  obtain ⟨unhashed, kzalloc, dentryOpen⟩ := outcomes
  cases unhashed <;> cases kzalloc <;> cases dentryOpen <;> rfl

variable [DecidableEq Lower]

/-- A file opened anew, after any calls of the VFS. -/
def TrfsFile.after (outcomes : OpenOutcomes Lower) (actions : List (FileAction Lower VmOps)) :
    TrfsFile Lower VmOps :=
  run TrfsFile.step (TrfsFile.start outcomes) actions

/-- Whatever the VFS does with an open file, in any order and with any number of calls under way,
and however the lower calls end: as long as the lower file system has an `mmap` that installs its
operations, no file info or lower file is used that is not there, every call reaches the lower
file that this file was opened over, and a fault on a mapped page reaches its handler. -/
theorem file_methods_reach_own_lower_file (outcomes : OpenOutcomes Lower)
    {actions : List (FileAction Lower VmOps)} (maps : ∀ action ∈ actions, action.LowerMaps) :
    (TrfsFile.after outcomes actions).faults = [] ∧
      (∀ call ∈ (TrfsFile.after outcomes actions).lowerCalls,
        outcomes.dentryOpen = .opened call.2) ∧
      ∀ vma ret, .mapping vma ∈ (TrfsFile.after outcomes actions).holders →
        ∃ lowerFile, outcomes.dentryOpen = .opened lowerFile ∧
          ((TrfsFile.after outcomes actions).step (.fault vma ret)).lowerCalls =
            (TrfsFile.after outcomes actions).lowerCalls ++ [(.fault, lowerFile)] := by
  have along := (along_forall_iff TrfsFile.step FileAction.LowerMaps
    (TrfsFile.start outcomes) actions).mpr maps
  unfold TrfsFile.after
  rcases TrfsFile.start_cases outcomes with
    ⟨lowerFile, opened, balanced, holders, faults⟩ | ⟨unheld, faults, calls, -⟩
  · have unmapped : (TrfsFile.start outcomes : TrfsFile Lower VmOps).Mapped :=
      ⟨fun vma info member => by simp [holders] at member, faults⟩
    have final := along_run
      (fun file : TrfsFile Lower VmOps => file.Balanced lowerFile ∧ file.Mapped)
      (fun _ action both maps => ⟨both.1.step action, both.2.step both.1.wired maps⟩)
      ⟨balanced, unmapped⟩ along
    refine ⟨final.2.faults, fun call member => ?_, fun vma ret member => ?_⟩
    · rw [opened, final.1.wired.calls call member]
    · exact ⟨lowerFile, opened, by rw [final.2.fault final.1.wired member]⟩
  · rw [TrfsFile.run_of_unheld unheld, unheld, calls]
    exact ⟨faults, fun call member => (by cases member), fun vma ret member => (by cases member)⟩

/-- The file is mapped and read, its descriptor closed, and a page of the mapping faulted in. -/
def mapReadCloseFault : List (FileAction Nat Nat) :=
  [.mmap 1 true true (.mapped (some 5)), .iterStart .readIter true, .close, .iterEnd 7,
    .fault 1 0, .munmap 1]

theorem file_methods_reach_mapReadCloseFault :
    (TrfsFile.after ⟨false, true, .opened 7⟩ mapReadCloseFault).lowerCalls =
        [(.mmap, 7), (.readIter, 7), (.fault, 7)] ∧
      (TrfsFile.after ⟨false, true, .opened 7⟩ mapReadCloseFault).faults = [] :=
  ⟨by decide, (file_methods_reach_own_lower_file ⟨false, true, .opened 7⟩
    (by simp [mapReadCloseFault, FileAction.LowerMaps])).1⟩

/-- The references of an open file are balanced at every point of every run: a held file owns its
info, the lower file, and the lower file once more for each call under way; a file that was
released, or whose open failed, owns nothing. -/
theorem open_file_references_balanced (outcomes : OpenOutcomes Lower)
    (actions : List (FileAction Lower VmOps)) :
    ((TrfsFile.after outcomes actions).holders = [] →
        balance (TrfsFile.after outcomes actions).entries = 0) ∧
      ∀ lowerFile, outcomes.dentryOpen = .opened lowerFile →
        (TrfsFile.after outcomes actions).holders ≠ [] →
          balance (TrfsFile.after outcomes actions).entries =
            unit .info + unit (.lower lowerFile) +
              ((TrfsFile.after outcomes actions).holders.map TrfsFile.share).sum := by
  unfold TrfsFile.after
  rcases TrfsFile.start_cases outcomes with
    ⟨lowerFile, opened, balanced, -, -⟩ | ⟨unheld, -, -, nothing⟩
  · have final := run_invariant (TrfsFile.Balanced lowerFile)
      (fun _ action balanced => balanced.step action) balanced actions
    refine ⟨fun released => ?_, fun other openedOver held => ?_⟩
    · rw [final.balance, TrfsFile.owned, if_pos released]
    · rw [opened] at openedOver
      cases openedOver
      rw [final.balance, TrfsFile.owned, if_neg held]
  · rw [TrfsFile.run_of_unheld unheld]
    exact ⟨fun _ => nothing, fun _ _ held => absurd unheld held⟩

end Tracefs
