import Tracefs.LogThread.Packing
import Mathlib.Data.List.Flatten
import Mathlib.Data.List.Induction

/-!
# Writes that fall short

No one looks at what `trfs_file_write` returns: the page is reset whether or not
its records have reached the file.  The outcomes of the writes are given by their
number, and what is written in each is decided by the lengths of the records.
-/

namespace Tracefs

open Bytes

section Pack

variable {Item : Type} (size : Item → Nat)

/-- One record: the page is written when the record does not fit. -/
def packStep (packed : List (List Item) × List Item) (item : Item) :
    List (List Item) × List Item :=
  if (packed.2.map size).sum + size item > trfsPageSize then (packed.1 ++ [packed.2], [item])
  else (packed.1, packed.2 ++ [item])

/-- The pages that are written, and the page that is being filled. -/
def pack (items : List Item) : List (List Item) × List Item :=
  items.foldl (packStep size) ([], [])

/-- The pages written by the time of the unmount, with or without its flush. -/
def pages (items : List Item) (flushed : Bool) : List (List Item) :=
  (pack size items).1 ++ if flushed then [(pack size items).2] else []

end Pack

/-- The writes of some pages, from write `number` on. -/
def attempts (results : Nat → Int) : (number : Nat) → List (List Message) → TraceFile
  | _, [] => []
  | number, page :: rest => ⟨logBytes page, results number⟩ :: attempts results (number + 1) rest

/-- The file after the unmount's `trfs_log_write_flush`.  A thread that has left
has freed its page, and then there is nothing to write. -/
def LogRun.flushed (vfsWrite : VfsWrite) : LogRun → Option TraceFile
  | .waiting thread => (thread.flush vfsWrite).tlw.tfile
  | .left _ thread => thread.tlw.tfile

/-- The file holds the first of the records taken from the queue, each of them
whole, at every point of the run and after the flush of the unmount. -/
def KeepsWholeRecords (results : Nat → Int) (messages : List Message) (flushed : Bool) : Prop :=
  let vfsWrite : VfsWrite := fun file _ => results file.length
  ∀ page : Memory,
    let loop (handled : List Message) :=
      trfsLogWriteFunc vfsWrite (.start (some []) page) (handled.map some)
    (∀ handled, handled <+: messages → ∃ file, (loop handled).thread.tlw.tfile = some file ∧
      ∃ kept, kept <+: handled ∧ file.contents = logBytes kept) ∧
    (flushed = true → ∃ file, (loop messages).flushed vfsWrite = some file ∧
      ∃ kept, kept <+: messages ∧ file.contents = logBytes kept)

/-- Nothing of the pages is written, from write `number` on. -/
def Silent (results : Nat → Int) : (number : Nat) → (pages : List (List Nat)) → Prop
  | _, [] => True
  | number, page :: rest =>
      ((results number).toNat = 0 ∨ page.sum = 0) ∧ Silent results (number + 1) rest

/-- Every write is complete, up to one that ends with a record and after which
nothing is written. -/
def Orderly (results : Nat → Int) : (number : Nat) → (pages : List (List Nat)) → Prop
  | _, [] => True
  | number, page :: rest =>
      page.sum ≤ (results number).toNat ∧ Orderly results (number + 1) rest ∨
        (∃ kept, kept <+: page ∧ (results number).toNat = kept.sum) ∧
          Silent results (number + 1) rest

section Pack

variable {Item : Type} (size : Item → Nat)

theorem pack_append_singleton (items : List Item) (item : Item) :
    pack size (items ++ [item]) = packStep size (pack size items) item := by
  rw [pack, List.foldl_append]
  rfl

theorem flatten_pack (items : List Item) :
    (pack size items).1.flatten ++ (pack size items).2 = items := by
  induction items using List.reverseRecOn with
  | nil => rfl
  | append_singleton items item inductionHypothesis =>
      rw [pack_append_singleton, packStep]
      split
      · simp [inductionHypothesis]
      · rw [← List.append_assoc, inductionHypothesis]

/-- How records are grouped is a matter of their lengths. -/
theorem pack_map (items : List Item) :
    pack id (items.map size) =
      ((pack size items).1.map (List.map size), (pack size items).2.map size) := by
  induction items using List.reverseRecOn with
  | nil => rfl
  | append_singleton items item inductionHypothesis =>
      rw [List.map_append, List.map_singleton, pack_append_singleton, pack_append_singleton,
        inductionHypothesis]
      simp only [packStep, List.map_id, id]
      split <;> simp

theorem flatten_pages (items : List Item) (flushed : Bool) :
    (pages size items flushed).flatten ++ (if flushed then [] else (pack size items).2) =
      items := by
  have packed := flatten_pack size items
  cases flushed <;> simpa [pages] using packed

theorem pages_map (items : List Item) (flushed : Bool) :
    pages id (items.map size) flushed = (pages size items flushed).map (List.map size) := by
  rw [pages, pages, pack_map]
  cases flushed <;> simp

/-- What has been written stays written. -/
theorem pack_mono {handled items : List Item} (isPrefix : handled <+: items) :
    (pack size handled).1 <+: (pack size items).1 := by
  obtain ⟨rest, rfl⟩ := isPrefix
  induction rest using List.reverseRecOn with
  | nil => simp
  | append_singleton rest item inductionHypothesis =>
      rw [← List.append_assoc, pack_append_singleton, packStep]
      split
      · exact inductionHypothesis.trans (List.prefix_append _ _)
      · exact inductionHypothesis

end Pack

section Attempts

variable (results : Nat → Int)

@[simp] theorem length_attempts (number : Nat) (pages : List (List Message)) :
    (attempts results number pages).length = pages.length := by
  induction pages generalizing number with
  | nil => rfl
  | cons page pages inductionHypothesis => simp [attempts, inductionHypothesis]

theorem attempts_append_singleton (number : Nat) (pages : List (List Message))
    (page : List Message) :
    attempts results number (pages ++ [page]) =
      attempts results number pages ++ [⟨logBytes page, results (number + pages.length)⟩] := by
  induction pages generalizing number with
  | nil => rfl
  | cons first pages inductionHypothesis =>
      have next : number + 1 + pages.length = number + (pages.length + 1) := by omega
      simp [attempts, inductionHypothesis, next]

theorem contents_attempts_cons (number : Nat) (page : List Message)
    (pages : List (List Message)) :
    (attempts results number (page :: pages)).contents =
      (logBytes page).take (results number).toNat ++
        (attempts results (number + 1) pages).contents := by
  simp [attempts, TraceFile.contents, WriteAttempt.written]

/-- The loop makes the writes of the pages, and its page is the one being filled. -/
structure LogThread.Fills (thread : LogThread) (messages : List Message) : Prop where
  holds : thread.PageHolds (pack Message.len messages).2
  file : thread.tlw.tfile = some (attempts results 0 (pack Message.len messages).1)

theorem length_logBytes (messages : List Message) :
    (logBytes messages).length = (messages.map Message.len).sum := by
  simp [logBytes, List.length_flatMap]

namespace LogThread.Fills

variable {results} {thread : LogThread} {messages : List Message}

theorem start (page : Memory) : (LogThread.start (some []) page).Fills results [] :=
  ⟨.start _ _, rfl⟩

theorem overflows_iff (fills : thread.Fills results messages) {message : Message}
    (fits : message.len ≤ trfsPageSize) :
    toInt32 (thread.tlw.pageSize + message.len) > trfsPageSize ↔
      ((pack Message.len messages).2.map Message.len).sum + message.len > trfsPageSize := by
  have bounded := fills.holds.safe.bounded
  rw [fills.holds.size, length_logBytes] at bounded ⊢
  simp only [trfsPageSize] at *
  rw [toInt32_of_range (by omega) (by omega)]
  omega

theorem file_flush (fills : thread.Fills results messages) :
    (thread.flush fun file _ => results file.length).tlw.tfile =
      some (attempts results 0
        ((pack Message.len messages).1 ++ [(pack Message.len messages).2])) := by
  rw [fills.holds.tfile_flush _ fills.file, attempts_append_singleton, length_attempts,
    Nat.zero_add]

theorem append (fills : thread.Fills results messages) {message : Message}
    (fits : message.len ≤ trfsPageSize) :
    (thread.append (fun file _ => results file.length) message).Fills results
      (messages ++ [message]) := by
  by_cases full :
      ((pack Message.len messages).2.map Message.len).sum + message.len > trfsPageSize
  · have packed : pack Message.len (messages ++ [message]) =
        ((pack Message.len messages).1 ++ [(pack Message.len messages).2], [message]) := by
      rw [pack_append_singleton, packStep, if_pos full]
    rw [LogThread.append, if_pos ((fills.overflows_iff fits).mpr full)]
    refine ⟨?_, ?_⟩
    · rw [packed]
      exact (fills.holds.flush _).copy (by simpa [LogThread.flush] using fits)
    · rw [packed]
      exact fills.file_flush
  · have packed : pack Message.len (messages ++ [message]) =
        ((pack Message.len messages).1, (pack Message.len messages).2 ++ [message]) := by
      rw [pack_append_singleton, packStep, if_neg full]
    rw [LogThread.append, if_neg fun spills => full ((fills.overflows_iff fits).mp spills)]
    refine ⟨?_, ?_⟩
    · rw [packed]
      apply fills.holds.copy
      have cursor := fills.holds.safe.cursor
      rw [fills.holds.size, length_logBytes] at cursor
      omega
    · rw [packed]
      exact fills.file

/-- The loop fills pages with all the messages and waits, or it has left at one that
reads as the end of the trace. -/
theorem run (fills : thread.Fills results messages) {more : List Message}
    (fit : ∀ message ∈ more, message.len ≤ trfsPageSize) :
    let loop := trfsLogWriteFunc (fun file _ => results file.length) thread (more.map some)
    (∃ next, loop = .waiting next ∧ next.Fills results (messages ++ more)) ∨
      ∃ next handled, loop = .left 0 next ∧ next.Fills results (messages ++ handled) ∧
        handled <+: more ∧ ∃ message ∈ more, message.firstInt = trfsLogComplete := by
  induction more generalizing thread messages with
  | nil => exact .inl ⟨thread, rfl, by simpa using fills⟩
  | cons message more inductionHypothesis =>
      rw [List.map_cons]
      by_cases complete : message.firstInt = trfsLogComplete
      · rw [trfsLogWriteFunc_cons_complete _ _ complete]
        exact .inr ⟨thread, [], rfl, by simpa using fills, List.nil_prefix,
          message, by simp, complete⟩
      · rw [trfsLogWriteFunc_cons_append _ _ complete]
        have regroup (rest : List Message) : messages ++ [message] ++ rest =
            messages ++ message :: rest := by simp
        rcases inductionHypothesis (fills.append (fit message (by simp)))
            fun m hm => fit m (by simp [hm]) with
          ⟨next, loop, filled⟩ | ⟨next, handled, loop, filled, isPrefix, last, present, ends⟩
        · exact .inl ⟨next, loop, regroup more ▸ filled⟩
        · exact .inr ⟨next, message :: handled, loop, regroup handled ▸ filled,
            (List.prefix_cons_inj message).mpr isPrefix, last, by simp [present], ends⟩

end LogThread.Fills

end Attempts

section Orderly

variable {results : Nat → Int}

theorem contents_of_silent {number : Nat} {pages : List (List Message)}
    (silent : Silent results number (pages.map (List.map Message.len))) :
    (attempts results number pages).contents = [] := by
  induction pages generalizing number with
  | nil => rfl
  | cons page pages inductionHypothesis =>
      obtain ⟨nothing, rest⟩ := silent
      rw [contents_attempts_cons, inductionHypothesis rest, List.append_nil]
      rcases nothing with zero | empty
      · rw [zero, List.take_zero]
      · rw [← length_logBytes, List.length_eq_zero_iff] at empty
        rw [empty, List.take_nil]

theorem logBytes_append (first second : List Message) :
    logBytes (first ++ second) = logBytes first ++ logBytes second := by
  simp [logBytes]

/-- Orderly writes leave the first records in the file, each of them whole. -/
theorem contents_of_orderly {number : Nat} {pages : List (List Message)}
    (orderly : Orderly results number (pages.map (List.map Message.len))) :
    ∃ kept, kept <+: pages.flatten ∧ (attempts results number pages).contents = logBytes kept := by
  induction pages generalizing number with
  | nil => exact ⟨[], List.nil_prefix, rfl⟩
  | cons page pages inductionHypothesis =>
      rw [contents_attempts_cons]
      rcases orderly with ⟨complete, rest⟩ | ⟨⟨kept, isPrefix, written⟩, silent⟩
      · obtain ⟨kept, isPrefix, contents⟩ := inductionHypothesis rest
        refine ⟨page ++ kept, (List.prefix_append_right_inj page).mpr isPrefix, ?_⟩
        rw [← length_logBytes] at complete
        rw [List.take_of_length_le complete, contents, logBytes_append]
      · obtain ⟨records, recordsPrefix, rfl⟩ := List.prefix_map_iff.mp isPrefix
        obtain ⟨behind, rfl⟩ := recordsPrefix
        refine ⟨records, (List.prefix_append _ _).trans (List.prefix_append _ _), ?_⟩
        rw [contents_of_silent silent, List.append_nil, written, ← length_logBytes,
          logBytes_append, List.take_left]

theorem Silent.mono {number : Nat} {first second : List (List Nat)}
    (isPrefix : first <+: second) (silent : Silent results number second) :
    Silent results number first := by
  induction first generalizing number second with
  | nil => trivial
  | cons page first inductionHypothesis =>
      obtain ⟨behind, rfl⟩ := isPrefix
      exact ⟨silent.1, inductionHypothesis (List.prefix_append _ _) silent.2⟩

theorem Orderly.mono {number : Nat} {first second : List (List Nat)}
    (isPrefix : first <+: second) (orderly : Orderly results number second) :
    Orderly results number first := by
  induction first generalizing number second with
  | nil => trivial
  | cons page first inductionHypothesis =>
      obtain ⟨behind, rfl⟩ := isPrefix
      rcases orderly with ⟨complete, rest⟩ | ⟨boundary, silent⟩
      · exact .inl ⟨complete, inductionHypothesis (List.prefix_append _ _) rest⟩
      · exact .inr ⟨boundary, silent.mono (List.prefix_append _ _)⟩

/-- A record of one byte over and over. -/
def blank (byte : UInt8) (len : Nat) : Message := ⟨fun _ => byte, len⟩

theorem logBytes_blank (byte : UInt8) (sizes : List Nat) :
    logBytes (sizes.map (blank byte)) = List.replicate sizes.sum byte := by
  induction sizes with
  | nil => rfl
  | cons len sizes inductionHypothesis =>
      have first : (blank byte len).bytes = List.replicate len byte := by
        simp [blank, Message.bytes, Memory.load, List.map_const']
      simp only [logBytes, List.map_cons, List.flatMap_cons] at *
      rw [inductionHypothesis, first, List.sum_cons, List.replicate_append_replicate]

theorem map_len_blank (byte : UInt8) (sizes : List Nat) :
    (sizes.map (blank byte)).map Message.len = sizes := by
  simp [Function.comp_def, blank]

/-- Writes that are not silent put a byte of theirs into the file. -/
theorem contents_blank_of_not_silent {number : Nat} {sizes : List (List Nat)}
    (written : ¬ Silent results number sizes) (byte : UInt8) :
    ∃ rest, (attempts results number (sizes.map (List.map (blank byte)))).contents =
      byte :: rest := by
  induction sizes generalizing number with
  | nil => exact absurd trivial written
  | cons page sizes inductionHypothesis =>
      rw [List.map_cons, contents_attempts_cons, logBytes_blank, List.take_replicate]
      cases amount : min (results number).toNat page.sum with
      | zero =>
          have nothing : (results number).toNat = 0 ∨ page.sum = 0 := by omega
          rw [List.replicate_zero, List.nil_append]
          exact inductionHypothesis fun rest => written ⟨nothing, rest⟩
      | succ amount => exact ⟨_, rfl⟩

theorem firstInt_blank (len : Nat) :
    (blank 0 len).firstInt ≠ trfsLogComplete ∧ (blank 1 len).firstInt ≠ trfsLogComplete := by
  constructor
  · show (blank 0 0).firstInt ≠ _
    decide
  · show (blank 1 0).firstInt ≠ _
    decide

theorem firstInt_of_mem_blank {sizes : List Nat} (message : Message)
    (present : message ∈ sizes.map (blank 0)) : message.firstInt ≠ trfsLogComplete := by
  obtain ⟨len, -, rfl⟩ := List.mem_map.mp present
  exact (firstInt_blank len).1

/-- Disorder behind a complete write. -/
theorem disorder_cons {number : Nat} {page : List Message} {pages : List (List Message)}
    (complete : (page.map Message.len).sum ≤ (results number).toNat)
    (disorder : ∀ kept, kept <+: pages.flatten →
      (attempts results (number + 1) pages).contents ≠ logBytes kept)
    {kept : List Message} (isPrefix : kept <+: (page :: pages).flatten) :
    (attempts results number (page :: pages)).contents ≠ logBytes kept := by
  intro same
  rw [← length_logBytes] at complete
  rw [contents_attempts_cons, List.take_of_length_le complete] at same
  rw [List.flatten_cons] at isPrefix
  rcases List.prefix_or_prefix_of_prefix isPrefix (List.prefix_append page _) with
    ⟨rest, rfl⟩ | ⟨rest, rfl⟩
  · -- the page alone is as long as what is kept of it, so nothing is written later
    have lengths := congrArg List.length same
    simp only [List.length_append, logBytes_append] at lengths
    have nothing : (attempts results (number + 1) pages).contents = [] :=
      List.length_eq_zero_iff.mp (by omega)
    exact disorder [] List.nil_prefix nothing
  · rw [logBytes_append, List.append_cancel_left_eq] at same
    exact disorder rest ((List.prefix_append_right_inj page).mp isPrefix) same

/-- Disorder at an incomplete write: it does not end with a record, or something is
written after it. -/
theorem disorder_incomplete {number : Nat} {page : List Nat} {sizes : List (List Nat)}
    (incomplete : (results number).toNat < page.sum)
    (disorderly : ¬ ((∃ kept, kept <+: page ∧ (results number).toNat = kept.sum) ∧
      Silent results (number + 1) sizes))
    {kept : List Message}
    (isPrefix : kept <+:
      (page.map (blank 0) :: sizes.map (List.map (blank 1))).flatten) :
    (attempts results number (page.map (blank 0) :: sizes.map (List.map (blank 1)))).contents ≠
      logBytes kept := by
  intro same
  rw [contents_attempts_cons, logBytes_blank, List.take_replicate,
    Nat.min_eq_left incomplete.le] at same
  rw [List.flatten_cons] at isPrefix
  by_cases silent : Silent results (number + 1) sizes
  · have lengths := congrArg List.length same
    have nothing : (attempts results (number + 1) (sizes.map (List.map (blank 1)))).contents = [] :=
      contents_of_silent (by simpa [Function.comp_def, blank] using silent)
    rw [nothing, List.append_nil, List.length_replicate, length_logBytes] at lengths
    apply disorderly
    refine ⟨⟨kept.map Message.len, ?_, lengths⟩, silent⟩
    rcases List.prefix_or_prefix_of_prefix isPrefix (List.prefix_append _ _) with
      inside | ⟨behind, rfl⟩
    · rw [← map_len_blank 0 page]
      exact inside.map Message.len
    · rw [List.map_append, List.sum_append, map_len_blank] at lengths
      omega
  · obtain ⟨rest, written⟩ := contents_blank_of_not_silent silent 1
    obtain ⟨missing, more⟩ := Nat.exists_eq_add_of_lt incomplete
    obtain ⟨behind, whole⟩ := isPrefix
    have stream := congrArg logBytes whole
    rw [logBytes_append, ← same, written, logBytes_append, logBytes_blank, more, Nat.add_assoc,
      ← List.replicate_append_replicate, List.append_assoc, List.append_assoc,
      List.append_cancel_left_eq, List.replicate_succ] at stream
    exact absurd (List.cons.inj stream).1 (by decide)

/-- If the writes are not orderly, some records of the given lengths are not
kept as they should be: those behind the first incomplete write differ from those
in it. -/
theorem exists_disorder {number : Nat} {sizes : List (List Nat)}
    (disorderly : ¬ Orderly results number sizes) :
    ∃ pages : List (List Message), pages.map (List.map Message.len) = sizes ∧
      (∀ message ∈ pages.flatten, message.firstInt ≠ trfsLogComplete) ∧
      ∀ kept, kept <+: pages.flatten →
        (attempts results number pages).contents ≠ logBytes kept := by
  induction sizes generalizing number with
  | nil => exact absurd trivial disorderly
  | cons page sizes inductionHypothesis =>
      by_cases complete : page.sum ≤ (results number).toNat
      · obtain ⟨pages, lengths, plain, disorder⟩ :=
          inductionHypothesis fun rest => disorderly (.inl ⟨complete, rest⟩)
        refine ⟨page.map (blank 0) :: pages, by simp [lengths, blank, Function.comp_def], ?_, ?_⟩
        · intro message present
          rcases List.mem_append.mp present with here | later
          · exact firstInt_of_mem_blank message here
          · exact plain message later
        · intro kept isPrefix
          exact disorder_cons (by rwa [map_len_blank]) disorder isPrefix
      · refine ⟨page.map (blank 0) :: sizes.map (List.map (blank 1)), ?_, ?_, ?_⟩
        · simp [Function.comp_def, blank]
        · intro message present
          rcases List.mem_append.mp present with here | later
          · exact firstInt_of_mem_blank message here
          · obtain ⟨group, member, inside⟩ := List.mem_flatten.mp later
            obtain ⟨lens, -, rfl⟩ := List.mem_map.mp member
            obtain ⟨len, -, rfl⟩ := List.mem_map.mp inside
            exact (firstInt_blank len).2
        · intro kept isPrefix
          exact disorder_incomplete (Nat.lt_of_not_le complete)
            (fun orderly => disorderly (.inr orderly)) isPrefix

theorem length_contents_le (results : Nat → Int) (number : Nat) (pages : List (List Message)) :
    (attempts results number pages).contents.length ≤ (logBytes pages.flatten).length := by
  induction pages generalizing number with
  | nil => exact le_rfl
  | cons page pages inductionHypothesis =>
      have rest := inductionHypothesis (number + 1)
      rw [contents_attempts_cons, List.flatten_cons, logBytes_append, List.length_append,
        List.length_append, List.length_take]
      omega

/-- Records with the lengths of the pages are packed into these pages. -/
theorem pages_of_lengths {sizes : List Nat} {flushed : Bool} {written : List (List Message)}
    {filling : List Message}
    (lengths : written.map (List.map Message.len) = pages id sizes flushed)
    (behind : filling.map Message.len = if flushed then [] else (pack id sizes).2) :
    (written.flatten ++ filling).map Message.len = sizes ∧
      pages Message.len (written.flatten ++ filling) flushed = written := by
  have same : (written.flatten ++ filling).map Message.len = sizes := by
    rw [List.map_append, List.map_flatten, lengths, behind, flatten_pages]
  have grouped := pages_map Message.len (written.flatten ++ filling) flushed
  rw [same, ← lengths] at grouped
  have counts : (pages Message.len (written.flatten ++ filling) flushed).map List.length =
      written.map List.length := by
    have counted := congrArg (List.map List.length) grouped
    simpa [Function.comp_def] using counted.symm
  refine ⟨same, List.eq_iff_flatten_eq.mpr ⟨?_, counts⟩⟩
  apply List.append_inj_left (flatten_pages Message.len (written.flatten ++ filling) flushed)
  rw [List.length_flatten, List.length_flatten, counts]

end Orderly

section KeepsWholeRecords

variable {results : Nat → Int}

/-- What is in the file when the loop has filled pages with the first records. -/
theorem LogThread.Fills.keeps {thread : LogThread} {handled messages : List Message}
    {flushed : Bool} (fills : thread.Fills results handled)
    (orderly : Orderly results 0 (pages id (messages.map Message.len) flushed))
    (isPrefix : handled <+: messages) :
    ∃ file, thread.tlw.tfile = some file ∧
      ∃ kept, kept <+: handled ∧ file.contents = logBytes kept := by
  rw [pages_map] at orderly
  have written : (pack Message.len handled).1 <+: pages Message.len messages flushed :=
    (pack_mono Message.len isPrefix).trans (List.prefix_append _ _)
  obtain ⟨kept, keptPrefix, contents⟩ :=
    contents_of_orderly (orderly.mono (written.map (List.map Message.len)))
  refine ⟨_, fills.file, kept, keptPrefix.trans ?_, contents⟩
  exact ⟨_, flatten_pack Message.len handled⟩

/-- What is in the file when the page has been written at the unmount. -/
theorem LogThread.Fills.keeps_flush {thread : LogThread} {messages : List Message}
    (fills : thread.Fills results messages)
    (orderly : Orderly results 0 (pages id (messages.map Message.len) true)) :
    ∃ file, (thread.flush fun file _ => results file.length).tlw.tfile = some file ∧
      ∃ kept, kept <+: messages ∧ file.contents = logBytes kept := by
  rw [pages_map] at orderly
  obtain ⟨kept, keptPrefix, contents⟩ := contents_of_orderly orderly
  refine ⟨_, fills.file_flush, kept, ?_, contents⟩
  have whole := flatten_pages Message.len messages true
  rw [if_pos rfl, List.append_nil] at whole
  rwa [whole] at keptPrefix

theorem keepsWholeRecords_of_orderly {messages : List Message} {flushed : Bool}
    (fit : ∀ message ∈ messages, message.len ≤ trfsPageSize)
    (orderly : Orderly results 0 (pages id (messages.map Message.len) flushed)) :
    KeepsWholeRecords results messages flushed := by
  intro page loop
  have started : (LogThread.start (some []) page).Fills results [] := .start page
  refine ⟨fun handled isPrefix => ?_, fun unmounted => ?_⟩
  · rcases started.run fun message present => fit message (isPrefix.subset present) with
      ⟨thread, left, fills⟩ | ⟨thread, done, left, fills, donePrefix, -⟩
    · rw [show loop handled = .waiting thread from left]
      exact fills.keeps orderly isPrefix
    · rw [show loop handled = .left 0 thread from left]
      obtain ⟨file, opened, kept, keptPrefix, contents⟩ :=
        fills.keeps orderly (donePrefix.trans isPrefix)
      exact ⟨file, opened, kept, keptPrefix.trans donePrefix, contents⟩
  · subst unmounted
    rcases started.run fit with
      ⟨thread, left, fills⟩ | ⟨thread, done, left, fills, donePrefix, -⟩
    · rw [show loop messages = .waiting thread from left]
      exact fills.keeps_flush orderly
    · -- the thread has left, and nothing is written any more
      rw [show loop messages = .left 0 thread from left]
      obtain ⟨file, opened, kept, keptPrefix, contents⟩ := fills.keeps orderly donePrefix
      exact ⟨file, opened, kept, keptPrefix.trans donePrefix, contents⟩

/-- What the file holds of messages of which none ends the trace. -/
theorem KeepsWholeRecords.contents_pages {messages : List Message} {flushed : Bool}
    (keeps : KeepsWholeRecords results messages flushed)
    (fit : ∀ message ∈ messages, message.len ≤ trfsPageSize)
    (plain : ∀ message ∈ messages, message.firstInt ≠ trfsLogComplete) :
    ∃ kept, kept <+: messages ∧
      (attempts results 0 (pages Message.len messages flushed)).contents = logBytes kept := by
  have started : (LogThread.start (some []) fun _ => 0).Fills results [] := .start _
  obtain ⟨running, unmounting⟩ := keeps fun _ => 0
  rcases started.run fit with ⟨thread, waits, fills⟩ | ⟨-, -, -, -, -, message, present, ends⟩
  · rw [List.nil_append] at fills
    cases flushed with
    | false =>
        obtain ⟨file, opened, kept, isPrefix, contents⟩ := running messages List.prefix_rfl
        simp only [waits, LogRun.thread, fills.file, Option.some.injEq] at opened
        subst opened
        exact ⟨kept, isPrefix, by simpa [pages] using contents⟩
    | true =>
        obtain ⟨file, opened, kept, isPrefix, contents⟩ := unmounting rfl
        simp only [waits, LogRun.flushed, fills.file_flush, Option.some.injEq] at opened
        subst opened
        exact ⟨kept, isPrefix, contents⟩
  · exact absurd ends (plain message present)

/-- For records of given lengths, whatever is in them, the file holds the first of
them exactly when the writes are orderly. -/
theorem keepsWholeRecords_iff (results : Nat → Int) {sizes : List Nat}
    (fit : ∀ len ∈ sizes, len ≤ trfsPageSize) (flushed : Bool) :
    (∀ messages : List Message, messages.map Message.len = sizes →
        KeepsWholeRecords results messages flushed) ↔
      Orderly results 0 (pages id sizes flushed) := by
  constructor
  · intro keeps
    by_contra disorderly
    obtain ⟨written, lengths, plain, disorder⟩ := exists_disorder disorderly
    obtain ⟨filling, behind, still⟩ : ∃ filling : List Message,
        (filling.map Message.len = if flushed then [] else (pack id sizes).2) ∧
          ∀ message ∈ filling, message.firstInt ≠ trfsLogComplete :=
      ⟨_, map_len_blank 0 _, firstInt_of_mem_blank⟩
    obtain ⟨same, paged⟩ := pages_of_lengths lengths behind
    have short (message : Message) (present : message ∈ written.flatten ++ filling) :
        message.len ≤ trfsPageSize := fit _ (same ▸ List.mem_map_of_mem present)
    have ordinary (message : Message) (present : message ∈ written.flatten ++ filling) :
        message.firstInt ≠ trfsLogComplete := by
      rcases List.mem_append.mp present with early | late
      · exact plain message early
      · exact still message late
    obtain ⟨kept, isPrefix, contents⟩ := (keeps _ same).contents_pages short ordinary
    rw [paged] at contents
    rcases List.prefix_or_prefix_of_prefix isPrefix (List.prefix_append _ _) with
      inside | ⟨more, rfl⟩
    · exact disorder kept inside contents
    · -- no more bytes are written than the pages have, so these are all of them
      have bound := length_contents_le results 0 written
      rw [contents, logBytes_append, List.length_append] at bound
      have nothing : logBytes more = [] := List.length_eq_zero_iff.mp (by omega)
      rw [logBytes_append, nothing, List.append_nil] at contents
      exact disorder _ List.prefix_rfl contents
  · rintro orderly messages rfl
    exact keepsWholeRecords_of_orderly
      (fun message present => fit _ (List.mem_map_of_mem present)) orderly

/-- A full device: the second write fails, and nothing is written after it. -/
theorem keepsWholeRecords_iff_full_device :
    (∀ len ∈ [3000, 3000, 100], len ≤ trfsPageSize) ∧
      ∀ messages : List Message, messages.map Message.len = [3000, 3000, 100] →
        KeepsWholeRecords (fun number => if number = 0 then 3000 else -28) messages true := by
  have fit : ∀ len ∈ [3000, 3000, 100], len ≤ trfsPageSize := by decide
  refine ⟨fit, (keepsWholeRecords_iff _ fit true).mpr ?_⟩
  have paged : pages id [3000, 3000, 100] true = [[3000], [3000, 100]] := by decide
  rw [paged]
  exact .inl ⟨by decide, .inr ⟨⟨[], List.nil_prefix, rfl⟩, trivial⟩⟩

/-- Only the first 1000 bytes of the first write are written. -/
def shortWrite (number : Nat) : Int := if number = 0 then 1000 else 3000

/-- A short write tears the first of two records, and the second is written behind
what there is of it. -/
theorem not_keepsWholeRecords_shortWrite :
    ¬ KeepsWholeRecords shortWrite [blank 0 3000, blank 1 3000] true := by
  intro keeps
  have fit : ∀ message ∈ [blank 0 3000, blank 1 3000], message.len ≤ trfsPageSize := by
    simp [blank, trfsPageSize]
  have plain : ∀ message ∈ [blank 0 3000, blank 1 3000], message.firstInt ≠ trfsLogComplete := by
    simp [firstInt_blank]
  obtain ⟨kept, isPrefix, contents⟩ := keeps.contents_pages fit plain
  have torn : (shortWrite 0).toNat < [3000].sum := by decide
  have follows : ¬ Silent shortWrite (0 + 1) [[3000]] := by simp [Silent, shortWrite]
  exact disorder_incomplete torn (fun orderly => follows orderly.2) isPrefix contents

end KeepsWholeRecords

end Tracefs
