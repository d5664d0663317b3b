import Tracefs.Bytes.Access
import Tracefs.Replay.Termination

/-!
# What the replayer looks at

The parser reads the size of a record before it knows how much of the page is left,
and the handlers follow the structures and the lengths in a record without a look
at its size.  The reads of one round are listed, and compared with the bytes that
are left of the page and with the record.
-/

namespace Tracefs

open Bytes Loop Relation

/-- A member of a structure. -/
def fieldAccess (decl : StructDecl Field) (field : Field) : Access :=
  .span (decl.offsetOf field) (decl.widthOf field)

/-- A path argument of a system call, and a `%s` of `printf`. -/
def pathAccess (decl : StructDecl Field) : Access :=
  .string (decl.offsetOf .pathname) (some pathMax)

@[inherit_doc pathAccess]
def textAccess (decl : StructDecl Field) : Access := .string (decl.offsetOf .pathname) none

/-- Two names back to back, by the lengths in the record. -/
def namesAccess (start first second : Nat) : List Access :=
  [.span start first, .span (start + first) second]

/-- `MAP_RETVAL` does not leave the handler: with `-n` it returns after a success,
with `-s` it exits after a failure. -/
def mapRetvalGoesOn (gflags : Nat) (same : Bool) : Bool :=
  if same then gflags ≠ 1 else gflags ≠ 2

/-- The read or write gets to its last `printf`. -/
def ReplayOp.prints (env : Environment) (gflags : Nat) (page : Memory) (op : Nat)
    (state : Replay) : ReplayOp → Bool
  | .read =>
      let fd := trfsOmapGetfd state.omap (Userland.trfsReadOp.get page op .addr)
        (toInt32 (Userland.trfsReadOp.get page op .pid))
      let bytes := (state.call env (.read fd (Userland.trfsReadOp.get page op .count))).1
      mapRetvalGoesOn gflags (bytes = toInt32 (Userland.trfsReadOp.get page op .ret))
  | .write =>
      let fd := trfsOmapGetfd state.omap (Userland.trfsWriteOp.get page op .addr)
        (toInt32 (Userland.trfsWriteOp.get page op .pid))
      let count := Userland.trfsWriteOp.get page op .count
      let data := page.load (op + Userland.trfsWriteOp.offsetOf .pathname +
        Userland.trfsWriteOp.get page op .len) count
      mapRetvalGoesOn gflags ((state.call env (.write fd data)).1 % 2 ^ 64 = count)
  | _ => false

/-- What a handler reads of the record at `op`. -/
def ReplayOp.accesses (page : Memory) (op : Nat) (prints : Bool) : ReplayOp → List Access
  | .mkdir => [pathAccess Userland.trfsMkdirOp, fieldAccess Userland.trfsMkdirOp .mode,
      fieldAccess Userland.trfsMkdirOp .ret]
  | .rmdir => [pathAccess Userland.trfsRmdirOp, fieldAccess Userland.trfsRmdirOp .ret]
  | .unlink => [pathAccess Userland.trfsUnlinkOp, fieldAccess Userland.trfsUnlinkOp .ret]
  | .link => [fieldAccess Userland.trfsLinkOp .plen, fieldAccess Userland.trfsLinkOp .hlen] ++
      namesAccess (Userland.trfsLinkOp.offsetOf .pathname) (Userland.trfsLinkOp.get page op .plen)
        (Userland.trfsLinkOp.get page op .hlen) ++
      [fieldAccess Userland.trfsLinkOp .ret]
  | .symlink =>
      [fieldAccess Userland.trfsSymlinkOp .plen, fieldAccess Userland.trfsSymlinkOp .slen] ++
      namesAccess (Userland.trfsSymlinkOp.offsetOf .pathname)
        (Userland.trfsSymlinkOp.get page op .plen) (Userland.trfsSymlinkOp.get page op .slen) ++
      [fieldAccess Userland.trfsSymlinkOp .ret]
  | .rename =>
      [fieldAccess Userland.trfsRenameOp .len1, fieldAccess Userland.trfsRenameOp .len2] ++
      namesAccess (Userland.trfsRenameOp.offsetOf .pathname1)
        (Userland.trfsRenameOp.get page op .len1) (Userland.trfsRenameOp.get page op .len2) ++
      [fieldAccess Userland.trfsRenameOp .ret]
  | .trunct => []
  | .openFile => [pathAccess Userland.trfsOpenOp, fieldAccess Userland.trfsOpenOp .flags,
      fieldAccess Userland.trfsOpenOp .mode, fieldAccess Userland.trfsOpenOp .addr,
      fieldAccess Userland.trfsOpenOp .pid, textAccess Userland.trfsOpenOp]
  | .read => [fieldAccess Userland.trfsReadOp .addr, fieldAccess Userland.trfsReadOp .pid,
      fieldAccess Userland.trfsReadOp .count, fieldAccess Userland.trfsReadOp .ret] ++
      if prints then [textAccess Userland.trfsReadOp] else []
  | .write => [fieldAccess Userland.trfsWriteOp .addr, fieldAccess Userland.trfsWriteOp .pid,
      fieldAccess Userland.trfsWriteOp .len, fieldAccess Userland.trfsWriteOp .count,
      .span (Userland.trfsWriteOp.offsetOf .pathname + Userland.trfsWriteOp.get page op .len)
        (Userland.trfsWriteOp.get page op .count)] ++
      if prints then [textAccess Userland.trfsWriteOp] else []
  | .close => [fieldAccess Userland.trfsCloseOp .addr, fieldAccess Userland.trfsCloseOp .pid,
      textAccess Userland.trfsCloseOp]
  | .setxattr => [fieldAccess Userland.trfsSetxattrOp .ret]
  | .getxattr => [fieldAccess Userland.trfsGetxattrOp .ret]
  | .listxattr => [fieldAccess Userland.trfsListxattrOp .ret]
  | .removexattr => [fieldAccess Userland.trfsRemovexattrOp .ret]

/-- The reads of one round of `trfs_read_tfile_buf`: the size, and if the record
fits, its copy, the type and those of the handler.  `block` is what `malloc`
returned for the copy. -/
def roundAccesses (env : Environment) (gflags : Nat) (block page : Memory) (buf : Nat)
    (len : Int) (state : Replay) : List Access :=
  let rsize := page.word (buf + 4) 2
  .span 4 2 ::
    if rsize > len then []
    else
      .span 0 rsize :: .span 6 1 ::
        match replayDispatch ((block.store 0 (page.load buf rsize)) 6) with
        | none => []
        | some op => op.accesses page buf (op.prints env gflags page buf state)

/-- Whatever the system answers, the round looks at nothing beyond the bytes that
are left and nothing beyond the record. -/
def LooksWithin (page : Memory) (buf : Nat) (len : Int) : Prop :=
  ∀ env gflags block state, ∀ access ∈ roundAccesses env gflags block page buf len state,
    ∀ offset, access.Covers page buf offset →
      (offset : Int) < len ∧ offset < page.word (buf + 4) 2

/-- So does every round of `trfs_read_tfile_buf` on a page of `len` valid bytes. -/
def PageLooksWithin (page : Memory) (len : Int) : Prop :=
  ∀ cursor rest, ReflTransGen (Follows (recordLoop page)) (0, len) (cursor, rest) → 0 < rest →
    LooksWithin page cursor rest

/-- The name ends inside the record. -/
def TextEnds (page : Memory) (buf rsize : Nat) (decl : StructDecl Field) : Prop :=
  ∃ index, decl.offsetOf .pathname ≤ index ∧ index < rsize ∧ page (buf + index) = 0

/-- The name ends inside the record, or the system gives it up before. -/
def PathEnds (page : Memory) (buf rsize : Nat) (decl : StructDecl Field) : Prop :=
  TextEnds page buf rsize decl ∨ decl.offsetOf .pathname + pathMax ≤ rsize

/-- What a handler needs of its record. -/
def ReplayOp.RecordFits (page : Memory) (buf rsize : Nat) : ReplayOp → Prop
  | .mkdir => PathEnds page buf rsize Userland.trfsMkdirOp
  | .rmdir => PathEnds page buf rsize Userland.trfsRmdirOp
  | .unlink => PathEnds page buf rsize Userland.trfsUnlinkOp
  | .link => Userland.trfsLinkOp.offsetOf .pathname + Userland.trfsLinkOp.get page buf .plen +
      Userland.trfsLinkOp.get page buf .hlen ≤ rsize
  | .symlink => Userland.trfsSymlinkOp.offsetOf .pathname +
      Userland.trfsSymlinkOp.get page buf .plen + Userland.trfsSymlinkOp.get page buf .slen ≤ rsize
  | .rename => Userland.trfsRenameOp.offsetOf .pathname1 +
      Userland.trfsRenameOp.get page buf .len1 + Userland.trfsRenameOp.get page buf .len2 ≤ rsize
  | .trunct => True
  | .openFile => TextEnds page buf rsize Userland.trfsOpenOp
  | .read => TextEnds page buf rsize Userland.trfsReadOp
  | .write => TextEnds page buf rsize Userland.trfsWriteOp ∧
      (Userland.trfsWriteOp.get page buf .count = 0 ∨
        Userland.trfsWriteOp.offsetOf .pathname + Userland.trfsWriteOp.get page buf .len +
          Userland.trfsWriteOp.get page buf .count ≤ rsize)
  | .close => TextEnds page buf rsize Userland.trfsCloseOp
  | .setxattr | .getxattr | .listxattr | .removexattr =>
      Userland.xattrOp.offsetOf .ret + Userland.xattrOp.widthOf .ret ≤ rsize

/-- The size is in what is left and in the record; a record that is handled has a
type, and its names and its data end inside it. -/
def HeaderFits (page : Memory) (buf : Nat) (len : Int) : Prop :=
  let rsize := page.word (buf + 4) 2
  6 ≤ len ∧ 6 ≤ rsize ∧ (rsize ≤ len → 7 ≤ rsize ∧
    ∀ op, replayDispatch (page (buf + 6)) = some op → op.RecordFits page buf rsize)

/-- Every record that the sizes on the page lead to. -/
def RecordsFit (page : Memory) (len : Int) : Prop :=
  ∀ cursor rest, ReflTransGen (Follows (recordLoop page)) (0, len) (cursor, rest) → 0 < rest →
    HeaderFits page cursor rest

section Fits

variable {page : Memory} {buf rsize : Nat} {decl : StructDecl Field}

theorem textAccess_fits_iff :
    (textAccess decl).Fits page buf rsize ↔ TextEnds page buf rsize decl := by
  constructor
  · rintro (ends | ⟨most, limited, -⟩)
    · exact ends
    · cases limited
  · exact .inl

theorem pathAccess_fits_iff :
    (pathAccess decl).Fits page buf rsize ↔ PathEnds page buf rsize decl := by
  constructor
  · rintro (ends | ⟨most, limited, short⟩)
    · exact .inl ends
    · cases limited
      exact .inr (short.resolve_left (by decide))
  · rintro (ends | short)
    · exact .inl ends
    · exact .inr ⟨pathMax, rfl, .inr short⟩

theorem TextEnds.offset_le (ends : TextEnds page buf rsize decl) :
    decl.offsetOf .pathname ≤ rsize := by
  obtain ⟨index, lower, upper, -⟩ := ends
  omega

theorem PathEnds.offset_le (ends : PathEnds page buf rsize decl) :
    decl.offsetOf .pathname ≤ rsize := by
  rcases ends with ends | short
  · exact ends.offset_le
  · omega

/-- The members up to a place that is in the record. -/
theorem fieldAccess_fits {start : Nat} {fields : List Field}
    (below : ∀ field ∈ fields, decl.offsetOf field + decl.widthOf field ≤ start)
    (inside : start ≤ rsize) :
    ∀ access ∈ fields.map (fieldAccess decl), access.Fits page buf rsize := by
  intro access member
  obtain ⟨field, listed, rfl⟩ := List.mem_map.mp member
  exact .inr ((below field listed).trans inside)

/-- A path and some of the members before it. -/
theorem path_fits_iff (decl : StructDecl Field) (fields : List Field) (below : ∀ field ∈ fields,
      decl.offsetOf field + decl.widthOf field ≤ decl.offsetOf .pathname) :
    (∀ access ∈ pathAccess decl :: fields.map (fieldAccess decl), access.Fits page buf rsize) ↔
      PathEnds page buf rsize decl := by
  rw [List.forall_mem_cons, pathAccess_fits_iff]
  exact ⟨And.left, fun ends => ⟨ends, fieldAccess_fits below ends.offset_le⟩⟩

/-- Some of the members before a name, other reads, and the name as text. -/
theorem text_fits_iff (decl : StructDecl Field) (fields : List Field) (more : List Access)
    (below : ∀ field ∈ fields,
      decl.offsetOf field + decl.widthOf field ≤ decl.offsetOf .pathname) :
    (∀ access ∈ fields.map (fieldAccess decl) ++ more ++ [textAccess decl],
        access.Fits page buf rsize) ↔
      TextEnds page buf rsize decl ∧ ∀ access ∈ more, access.Fits page buf rsize := by
  rw [List.forall_mem_append, List.forall_mem_append, List.forall_mem_singleton,
    textAccess_fits_iff]
  constructor
  · rintro ⟨⟨-, rest⟩, ends⟩
    exact ⟨ends, rest⟩
  · rintro ⟨ends, rest⟩
    exact ⟨⟨fieldAccess_fits below ends.offset_le, rest⟩, ends⟩

/-- Two names behind their lengths, the second of which is the last member. -/
theorem names_fit_iff {earlier last : Field} {start : Nat}
    (below : ∀ field ∈ [earlier, .ret], decl.offsetOf field + decl.widthOf field ≤ start)
    (ends : decl.offsetOf last + decl.widthOf last = start) (wide : decl.widthOf last ≠ 0)
    (first second : Nat) :
    (∀ access ∈ [fieldAccess decl earlier, fieldAccess decl last] ++
          namesAccess start first second ++ [fieldAccess decl .ret],
        access.Fits page buf rsize) ↔
      start + first + second ≤ rsize := by
  simp only [namesAccess, List.cons_append, List.nil_append, List.forall_mem_cons,
    List.not_mem_nil, false_imp_iff, implies_true, and_true] at below ⊢
  simp only [fieldAccess, Access.Fits]
  omega

theorem ReplayOp.accesses_fit_iff (op : ReplayOp) :
    (∀ access ∈ op.accesses page buf true, access.Fits page buf rsize) ↔
      op.RecordFits page buf rsize := by
  have xattr : (∀ access ∈ [fieldAccess Userland.xattrOp .ret], access.Fits page buf rsize) ↔
      Userland.xattrOp.offsetOf .ret + Userland.xattrOp.widthOf .ret ≤ rsize := by
    rw [List.forall_mem_singleton]
    exact or_iff_right (by decide)
  cases op with
  | mkdir => exact path_fits_iff Userland.trfsMkdirOp [.mode, .ret] (by decide)
  | rmdir => exact path_fits_iff Userland.trfsRmdirOp [.ret] (by decide)
  | unlink => exact path_fits_iff Userland.trfsUnlinkOp [.ret] (by decide)
  | link => exact names_fit_iff (by decide) (by decide) (by decide) _ _
  | symlink => exact names_fit_iff (by decide) (by decide) (by decide) _ _
  | rename => exact names_fit_iff (by decide) (by decide) (by decide) _ _
  | trunct => exact iff_of_true nofun trivial
  | openFile =>
      show (∀ access ∈ pathAccess Userland.trfsOpenOp ::
        ([.flags, .mode, .addr, .pid].map (fieldAccess Userland.trfsOpenOp) ++ [] ++
          [textAccess Userland.trfsOpenOp]), _) ↔ _
      rw [List.forall_mem_cons, pathAccess_fits_iff, text_fits_iff _ _ _ (by decide)]
      exact ⟨fun all => all.2.1, fun ends => ⟨.inl ends, ends, nofun⟩⟩
  | read =>
      exact (text_fits_iff Userland.trfsReadOp [.addr, .pid, .count, .ret] [] (by decide)).trans
        (and_iff_left nofun)
  | write =>
      refine (text_fits_iff Userland.trfsWriteOp [.addr, .pid, .len, .count] [_] (by decide)).trans
        ?_
      rw [List.forall_mem_singleton]
      rfl
  | close =>
      exact (text_fits_iff Userland.trfsCloseOp [.addr, .pid] [] (by decide)).trans
        (and_iff_left nofun)
  | setxattr => exact xattr
  | getxattr => exact xattr
  | listxattr => exact xattr
  | removexattr => exact xattr

end Fits

section Rounds

variable {page : Memory} {buf : Nat}

/-- With neither `-n` nor `-s` every handler gets to its output. -/
theorem ReplayOp.accesses_without_flags (op : ReplayOp) (env : Environment) (state : Replay) :
    op.accesses page buf (op.prints env 0 page buf state) = op.accesses page buf true := by
  have goesOn (same : Bool) : mapRetvalGoesOn 0 same = true := by cases same <;> rfl
  cases op with
  | read => rw [prints, goesOn]
  | write => rw [prints, goesOn]
  | _ => rfl

theorem ReplayOp.accesses_subset (op : ReplayOp) (prints : Bool) :
    op.accesses page buf false ⊆ op.accesses page buf prints ∧
      op.accesses page buf prints ⊆ op.accesses page buf true := by
  have output : op.accesses page buf false ⊆ op.accesses page buf true := by
    cases op with
    | read => exact List.subset_append_left _ _
    | write => exact List.subset_append_left _ _
    | _ => exact List.Subset.refl _
  cases prints with
  | true => exact ⟨output, List.Subset.refl _⟩
  | false => exact ⟨List.Subset.refl _, output⟩

theorem rType_of_block (block : Memory) {rsize : Nat} (long : 7 ≤ rsize) :
    block.store 0 (page.load buf rsize) 6 = page (buf + 6) := by
  have inside : 6 < (page.load buf rsize).length := by
    rw [Memory.length_load]
    exact long
  rw [← Nat.zero_add 6, Memory.store_of_inside block 0 _ inside, Memory.getElem_load]

/-- The reads for a record that is handled. -/
theorem mem_roundAccesses_iff (env : Environment) (gflags : Nat) (block : Memory) {len : Int}
    (state : Replay) (fits : page.word (buf + 4) 2 ≤ len) (long : 7 ≤ page.word (buf + 4) 2)
    (access : Access) :
    access ∈ roundAccesses env gflags block page buf len state ↔
      access ∈ [.span 4 2, .span 0 (page.word (buf + 4) 2), .span 6 1] ∨
        ∃ op, replayDispatch (page (buf + 6)) = some op ∧
          access ∈ op.accesses page buf (op.prints env gflags page buf state) := by
  rw [roundAccesses, if_neg (not_lt.mpr fits), rType_of_block block long]
  cases replayDispatch (page (buf + 6)) with
  | none => simp
  | some op => simp [or_assoc]

theorem headerFits_of_looksWithin {len : Int} (within : LooksWithin page buf len) :
    HeaderFits page buf len := by
  have looks := within ⟨fun _ _ => 0, fun _ _ => 0, fun _ _ => 0⟩ 0 (fun _ => 0) ⟨[], [], []⟩
  have size := looks (.span 4 2) (by simp [roundAccesses]) 5 ⟨by decide, by decide⟩
  refine ⟨by omega, by omega, fun fits => ?_⟩
  have type := looks (.span 6 1) (by simp [roundAccesses, not_lt.mpr fits]) 6
    ⟨by decide, by decide⟩
  refine ⟨by omega, fun op dispatched => ?_⟩
  rw [← op.accesses_fit_iff]
  intro access member
  rw [← Access.covers_lt_iff]
  intro offset covers
  refine (looks access ?_ offset covers).2
  rw [mem_roundAccesses_iff _ _ _ _ fits (by omega)]
  exact .inr ⟨op, dispatched, by rwa [ReplayOp.accesses_without_flags]⟩

theorem looksWithin_of_headerFits {len : Int} (fits : HeaderFits page buf len) :
    LooksWithin page buf len := by
  obtain ⟨left, size, record⟩ := fits
  intro env gflags block state access member offset covers
  by_cases cut : page.word (buf + 4) 2 > len
  · rw [roundAccesses, if_pos cut, List.mem_singleton] at member
    subst member
    obtain ⟨-, upper⟩ := covers
    omega
  · obtain ⟨long, handled⟩ := record (not_lt.mp cut)
    suffices offset < page.word (buf + 4) 2 by omega
    rw [mem_roundAccesses_iff _ _ _ _ (not_lt.mp cut) long] at member
    rcases member with header | ⟨op, dispatched, member⟩
    · simp only [List.mem_cons, List.not_mem_nil, or_false] at header
      rcases header with rfl | rfl | rfl <;> obtain ⟨-, upper⟩ := covers <;> omega
    · have fits := (op.accesses_fit_iff).mpr (handled op dispatched) access
        ((op.accesses_subset _).2 member)
      exact access.covers_lt_iff.mpr fits offset covers

/-- On every page, every round of the parser keeps to what is left of the page and to
the record exactly when every record it comes to fits. -/
theorem pageLooksWithin_iff (page : Memory) (len : Int) :
    PageLooksWithin page len ↔ RecordsFit page len := by
  refine forall₄_congr fun cursor rest reached positive => ?_
  exact ⟨headerFits_of_looksWithin, looksWithin_of_headerFits⟩

end Rounds

section Depends

variable {page other : Memory} {buf : Nat} {decl : StructDecl Field}

theorem get_congr {field : Field} (agrees : (fieldAccess decl field).Agrees page other buf) :
    decl.get page buf field = decl.get other buf field :=
  agrees.word

theorem pathAt_congr (agrees : (pathAccess decl).Agrees page other buf) :
    pathAt decl page buf .pathname = pathAt decl other buf .pathname :=
  agrees.cString

theorem names_congr {start first second : Nat}
    (agrees : ∀ access ∈ namesAccess start first second, access.Agrees page other buf) :
    page.load (buf + start) first = other.load (buf + start) first ∧
      page.load (buf + start + first) second = other.load (buf + start + first) second := by
  simp only [namesAccess, List.forall_mem_cons] at agrees
  obtain ⟨one, two, -⟩ := agrees
  exact ⟨one.load, by simpa only [Nat.add_assoc] using two.load⟩

variable (env : Environment) (gflags : Nat)

/-- The handlers depend on the record through the listed reads only. -/
theorem ReplayOp.run_congr (op : ReplayOp) (state : Replay)
    (agrees : ∀ access ∈ op.accesses page buf false, access.Agrees page other buf) :
    op.run env gflags page buf state = op.run env gflags other buf state := by
  cases op with
  | mkdir =>
      simp only [accesses, List.forall_mem_cons] at agrees
      obtain ⟨path, mode, ret, -⟩ := agrees
      simp only [run, trfsRunMkdirOp, pathAt_congr path, get_congr mode, get_congr ret]
  | rmdir =>
      simp only [accesses, List.forall_mem_cons] at agrees
      obtain ⟨path, ret, -⟩ := agrees
      simp only [run, trfsRunRmdirOp, pathAt_congr path, get_congr ret]
  | unlink =>
      simp only [accesses, List.forall_mem_cons] at agrees
      obtain ⟨path, ret, -⟩ := agrees
      simp only [run, trfsRunUnlinkOp, pathAt_congr path, get_congr ret]
  | link =>
      simp only [accesses, List.forall_mem_append, List.forall_mem_cons] at agrees
      obtain ⟨⟨⟨plen, hlen, -⟩, names⟩, ret, -⟩ := agrees
      rw [get_congr plen, get_congr hlen] at names
      obtain ⟨first, second⟩ := names_congr names
      simp only [run, trfsRunLinkOp, unpackNames, get_congr plen, get_congr hlen, get_congr ret,
        first, second]
  | symlink =>
      simp only [accesses, List.forall_mem_append, List.forall_mem_cons] at agrees
      obtain ⟨⟨⟨plen, slen, -⟩, names⟩, ret, -⟩ := agrees
      rw [get_congr plen, get_congr slen] at names
      obtain ⟨first, second⟩ := names_congr names
      simp only [run, trfsRunSymlinkOp, unpackNames, get_congr plen, get_congr slen,
        get_congr ret, first, second]
  | rename =>
      simp only [accesses, List.forall_mem_append, List.forall_mem_cons] at agrees
      obtain ⟨⟨⟨len1, len2, -⟩, names⟩, ret, -⟩ := agrees
      rw [get_congr len1, get_congr len2] at names
      obtain ⟨first, second⟩ := names_congr names
      simp only [run, trfsRunRenameOp, unpackRename, get_congr len1, get_congr len2,
        get_congr ret, first, second]
  | trunct => rfl
  | openFile =>
      simp only [accesses, List.forall_mem_cons] at agrees
      obtain ⟨path, flags, mode, addr, pid, -⟩ := agrees
      simp only [run, trfsRunOpenOp, pathAt_congr path, get_congr flags, get_congr mode,
        get_congr addr, get_congr pid]
  | read =>
      simp only [accesses, List.forall_mem_append, List.forall_mem_cons] at agrees
      obtain ⟨⟨addr, pid, count, ret, -⟩, -⟩ := agrees
      simp only [run, trfsRunReadOp, get_congr addr, get_congr pid, get_congr count,
        get_congr ret]
  | write =>
      simp only [accesses, List.forall_mem_append, List.forall_mem_cons] at agrees
      obtain ⟨⟨addr, pid, len, count, data, -⟩, -⟩ := agrees
      rw [get_congr len, get_congr count] at data
      have loaded := data.load
      rw [← Nat.add_assoc] at loaded
      simp only [run, trfsRunWriteOp, get_congr addr, get_congr pid, get_congr len,
        get_congr count, loaded]
  | close =>
      simp only [accesses, List.forall_mem_cons] at agrees
      obtain ⟨addr, pid, -⟩ := agrees
      simp only [run, trfsRunCloseOp, get_congr addr, get_congr pid]
  | setxattr | getxattr | listxattr | removexattr =>
      rw [accesses, List.forall_mem_singleton] at agrees
      simp only [run, trfsRunSetxattrOp, trfsRunGetxattrOp, trfsRunListxattrOp,
        trfsRunRemovexattrOp, runXattr, get_congr agrees]

/-- And so does the round: a page that differs elsewhere only is not told apart. -/
theorem parseRound_congr (heap : Nat → Memory) (base : Nat) {len : Int}
    (progress : Progress Replay) (fits : page.word (buf + 4) 2 ≤ len)
    (agrees : ∀ access ∈ roundAccesses env gflags (heap progress.visits.length) page buf len
      progress.state, access.Agrees page other buf) :
    other.word (buf + 4) 2 = page.word (buf + 4) 2 ∧
      parseRound (ReplayOp.run env gflags) heap base page buf (page.word (buf + 4) 2) progress =
        parseRound (ReplayOp.run env gflags) heap base other buf (page.word (buf + 4) 2)
          progress := by
  rw [roundAccesses, if_neg (not_lt.mpr fits)] at agrees
  simp only [List.forall_mem_cons] at agrees
  obtain ⟨size, record, -, handler⟩ := agrees
  have bytes := record.load
  rw [Nat.add_zero] at bytes
  refine ⟨size.word.symm, ?_⟩
  unfold parseRound
  dsimp only
  rw [← bytes]
  split
  next => rfl
  next op dispatched =>
    rw [dispatched] at handler
    rw [op.run_congr env gflags progress.state fun access member =>
      handler access ((op.accesses_subset _).1 member)]

end Depends

/-- A link record of 24 bytes that claims a name of 200. -/
def longNameLink : List UInt8 :=
  [1, 0, 0, 0, 24, 0, 3, 0, 0, 0, 0, 0, 0, 0, 0, 0, 200, 0, 1, 0, 97, 98, 0, 0]

/-- With three bytes left the size is read from behind them, and a name is read as
far as its length says. -/
theorem not_pageLooksWithin_longNameLink :
    ¬ PageLooksWithin (fun _ => 0) 3 ∧
      ¬ PageLooksWithin (Memory.store (fun _ => 0) 0 longNameLink) 24 := by
  constructor
  · intro within
    obtain ⟨left, -⟩ := headerFits_of_looksWithin (within 0 3 .refl (by decide))
    exact absurd left (by decide)
  · intro within
    obtain ⟨-, -, record⟩ := headerFits_of_looksWithin (within 0 24 .refl (by decide))
    have names : Userland.trfsLinkOp.offsetOf .pathname +
        Userland.trfsLinkOp.get (Memory.store (fun _ => 0) 0 longNameLink) 0 .plen +
        Userland.trfsLinkOp.get (Memory.store (fun _ => 0) 0 longNameLink) 0 .hlen ≤
          (Memory.store (fun _ => 0) 0 longNameLink).word (0 + 4) 2 :=
      (record (by decide)).2 .link (by decide)
    exact absurd names (by decide)

end Tracefs
