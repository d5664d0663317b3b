import Tracefs.Replay.Meaning
import Tracefs.Replay.PageLoop

/-!
# Executing a trace

The handlers of treplay are the instructions of a small machine, and a trace file is its program:
records behind each other, taken from pages.  For a trace whose pages end with records the machine
does what the calls of the trace mean, one after the other.  A handler that exits or faults ends
the run there.
-/

namespace Tracefs

open Bytes FramedRecord

variable {State Item : Type}

/-- Act on one item after the other, as long as this returns. -/
def runAll (act : Item → State → Outcome State) : List Item → State → Outcome State
  | [], state => .returned state
  | item :: rest, state =>
      match act item state with
      | .returned next => runAll act rest next
      | .exited final => .exited final
      | .fault => .fault

theorem runAll_append (act : Item → State → Outcome State) (first rest : List Item)
    (state : State) :
    runAll act (first ++ rest) state =
      match runAll act first state with
      | .returned next => runAll act rest next
      | .exited final => .exited final
      | .fault => .fault := by
  induction first generalizing state with
  | nil => rfl
  | cons item first inductionHypothesis =>
      rw [List.cons_append, runAll, runAll]
      split
      next next _ => exact inductionHypothesis next
      next => rfl
      next => rfl

/-- How `main` ends when its handlers have ended as they did.  After the last record it stands at
the end of the file. -/
inductive EndsAs (size : Nat) : Outcome State → MainResult State → Prop where
  | finished {final : ReplayMain State} : final.position = size →
      EndsAs size (.returned final.progress.state) (.finished final)
  | exited (progress : Progress State) : EndsAs size (.exited progress.state) (.exited progress)
  | fault : EndsAs size .fault .fault

/-- Items of which each is a framed record with a meaning: wherever the record lies on a page, the
handler it selects does what the item means. -/
structure Instructions (State Item : Type) where
  handle : Handlers State
  framed : Item → FramedRecord
  meaning : Item → State → Outcome State
  sound : ∀ item page buf state,
    page.load buf (framed item).bytes.length = (framed item).bytes →
      runSelected handle (framed item).op page buf state = meaning item state

namespace Instructions

variable (machine : Instructions State Item) (heap : Nat → Memory) (base : Nat) {page : Memory}

/-- The file that holds the records of the items. -/
def program (items : List Item) : List UInt8 := file (items.map machine.framed)

@[simp] theorem program_nil : machine.program [] = [] := rfl

@[simp] theorem program_cons (item : Item) (items : List Item) :
    machine.program (item :: items) = (machine.framed item).bytes ++ machine.program items := rfl

@[simp] theorem program_append (first rest : List Item) :
    machine.program (first ++ rest) = machine.program first ++ machine.program rest := by
  rw [program, List.map_append, file_append, program, program]

theorem program_eq_nil_iff (items : List Item) : machine.program items = [] ↔ items = [] := by
  rw [program, file_eq_nil_iff, List.map_eq_nil_iff]

/-- One round of the record loop at the record of an item. -/
theorem parseRound_item {item : Item} {buf : Nat}
    (placed : page.load buf (machine.framed item).bytes.length = (machine.framed item).bytes)
    (progress : Progress State) :
    parseRound machine.handle heap base page buf (machine.framed item).bytes.length progress =
      match machine.meaning item progress.state with
      | .returned state =>
          .returned ⟨state, progress.visits ++ [(machine.framed item).visit (base + buf)]⟩
      | .exited state =>
          .exited ⟨state, progress.visits ++ [(machine.framed item).visit (base + buf)]⟩
      | .fault => .fault := by
  rw [← machine.sound item page buf progress.state placed, parseRound, store_rType _ placed, placed]
  dsimp only [visit, FramedRecord.op, runSelected]
  cases replayDispatch ((machine.framed item).bytes.getD 6 0) with
  | none => rfl
  | some op => cases ended : machine.handle op page buf progress.state <;> simp only [ended]

/-- The record loop at the record of an item. -/
theorem trfsReadTfileBuf_item {item : Item} {buf : Nat}
    (placed : page.load buf (machine.framed item).bytes.length = (machine.framed item).bytes)
    (len : Int) (fits : (machine.framed item).bytes.length ≤ len) (progress : Progress State)
    (fuel : Nat) :
    trfsReadTfileBuf machine.handle heap base page (fuel + 1) buf len progress =
      match machine.meaning item progress.state with
      | .returned state =>
          trfsReadTfileBuf machine.handle heap base page fuel
            (buf + (machine.framed item).bytes.length) (len - (machine.framed item).bytes.length)
            ⟨state, progress.visits ++ [(machine.framed item).visit (base + buf)]⟩
      | .exited state =>
          .exited ⟨state, progress.visits ++ [(machine.framed item).visit (base + buf)]⟩
      | .fault => .fault := by
  have lower := (machine.framed item).lower
  rw [trfsReadTfileBuf, if_neg (by omega)]
  dsimp only
  rw [word_rSize placed, if_neg (by omega), machine.parseRound_item heap base placed]
  cases machine.meaning item progress.state <;> rfl

/-- The record loop at the records of some items.  The induction is on the items; what comes after
them is untouched, unless one of them ends the run. -/
theorem trfsReadTfileBuf_items (items : List Item) {buf : Nat}
    (placed : page.load buf (machine.program items).length = machine.program items)
    (len : Int) (fits : (machine.program items).length ≤ len) (progress : Progress State) :
    match runAll machine.meaning items progress.state with
    | .returned state => ∃ visits, ∀ fuel,
        trfsReadTfileBuf machine.handle heap base page (fuel + items.length) buf len progress =
          trfsReadTfileBuf machine.handle heap base page fuel
            (buf + (machine.program items).length) (len - (machine.program items).length)
            ⟨state, visits⟩
    | .exited state => ∃ visits, ∀ fuel,
        trfsReadTfileBuf machine.handle heap base page (fuel + items.length) buf len progress =
          .exited ⟨state, visits⟩
    | .fault => ∀ fuel,
        trfsReadTfileBuf machine.handle heap base page (fuel + items.length) buf len progress =
          .fault := by
  induction items generalizing buf len progress with
  | nil => exact ⟨progress.visits, by simp⟩
  | cons item items inductionHypothesis =>
      rw [program_cons, List.length_append] at placed fits
      rw [Memory.load_add] at placed
      obtain ⟨first, rest⟩ := List.append_inj placed (by simp)
      have step := machine.trfsReadTfileBuf_item heap base first len (by omega) progress
      rw [runAll]
      simp only [List.length_cons, ← Nat.add_assoc, step]
      cases machine.meaning item progress.state with
      | returned state =>
          have later := inductionHypothesis rest (len - (machine.framed item).bytes.length)
            (by omega) ⟨state, progress.visits ++ [(machine.framed item).visit (base + buf)]⟩
          have total : len - ((machine.framed item).bytes.length : Int) -
              (machine.program items).length = len - (machine.program (item :: items)).length := by
            rw [program_cons, List.length_append]
            omega
          rw [total, Nat.add_assoc, ← List.length_append, ← program_cons] at later
          exact later
      | exited state => exact ⟨_, fun _ => rfl⟩
      | fault => exact fun _ => rfl

/-- The record loop on a page of whole records. -/
theorem trfsReadTfileBuf_page (items : List Item)
    (placed : page.load 0 (machine.program items).length = machine.program items)
    (progress : Progress State) {steps : Nat} (enough : items.length < steps) :
    match runAll machine.meaning items progress.state with
    | .returned state => ∃ visits,
        trfsReadTfileBuf machine.handle heap base page steps 0 (machine.program items).length
          progress = .done 0 ⟨state, visits⟩
    | .exited state => ∃ visits,
        trfsReadTfileBuf machine.handle heap base page steps 0 (machine.program items).length
          progress = .exited ⟨state, visits⟩
    | .fault =>
        trfsReadTfileBuf machine.handle heap base page steps 0 (machine.program items).length
          progress = .fault := by
  obtain ⟨spare, rfl⟩ : ∃ spare, steps = spare + 1 + items.length :=
    ⟨steps - 1 - items.length, by omega⟩
  have parsed := machine.trfsReadTfileBuf_items heap base items placed _ le_rfl progress
  split at parsed
  next state _ =>
    obtain ⟨visits, parsed⟩ := parsed
    refine ⟨visits, ?_⟩
    rw [parsed, trfsReadTfileBuf, if_pos (by omega)]
  next =>
    obtain ⟨visits, parsed⟩ := parsed
    exact ⟨visits, parsed _⟩
  next => exact parsed _

/-- The items on the next page, when pages end with records. -/
theorem exists_page {items : List Item} (some : items ≠ [])
    (ends : PagesEndRecords (items.map machine.framed)) :
    ∃ first later, items = first ++ later ∧ first ≠ [] ∧
      (machine.program (first ++ later)).take replayPageSize = machine.program first ∧
      PagesEndRecords (later.map machine.framed) := by
  rcases Nat.lt_or_ge replayPageSize (machine.program items).length with long | short
  · rcases exists_boundary_or_cut long with
      ⟨first, later, split, boundary⟩ | ⟨first, record, later, split, starts, cut⟩
    · obtain ⟨first, later, rfl, rfl, rfl⟩ := List.map_eq_append_iff.mp split
      have page : (machine.program first).length = replayPageSize := boundary
      refine ⟨first, later, rfl, ?_, ?_, ?_⟩
      · rintro rfl
        cases page
      · rw [program_append, List.take_left' page]
      · rw [split] at ends
        exact (pagesEndRecords_append_iff boundary).mp ends
    · rw [split] at ends
      exact absurd ends (not_pagesEndRecords starts cut)
  · refine ⟨items, [], (List.append_nil _).symm, some, ?_, pagesEndRecords_of_le (by simp)⟩
    rw [List.append_nil, List.take_of_length_le short]

/-- A round of `main` at a page of whole records, of which there are some. -/
theorem treplayLoop_page {before first rest : List Item} {main : ReplayMain State}
    (position : main.position = (machine.program before).length)
    (fsize : main.fsize = (machine.program (first ++ rest)).length)
    (inRange : main.fsize < 2 ^ 31) (nonempty : first ≠ [])
    (whole : (machine.program (first ++ rest)).take replayPageSize = machine.program first)
    {steps : Nat} (enough : first.length < steps) (fuel : Nat) :
    match runAll machine.meaning first main.progress.state with
    | .returned state => ∃ next : ReplayMain State,
        next.position = (machine.program (before ++ first)).length ∧
          next.fsize = (machine.program rest).length ∧ next.progress.state = state ∧
          treplayLoop machine.handle heap (machine.program (before ++ (first ++ rest))) steps
              (fuel + 1) main =
            treplayLoop machine.handle heap (machine.program (before ++ (first ++ rest))) steps fuel
              next
    | .exited state => ∃ visits,
        treplayLoop machine.handle heap (machine.program (before ++ (first ++ rest))) steps
          (fuel + 1) main = .exited ⟨state, visits⟩
    | .fault =>
        treplayLoop machine.handle heap (machine.program (before ++ (first ++ rest))) steps
          (fuel + 1) main = .fault := by
  have someBytes : (machine.program first).length ≠ 0 := by
    simpa [program_eq_nil_iff] using nonempty
  have sum : (machine.program (first ++ rest)).length =
      (machine.program first).length + (machine.program rest).length := by
    rw [program_append, List.length_append]
  have data : ((machine.program (before ++ (first ++ rest))).drop main.position).take
      replayPageSize = machine.program first := by
    rw [program_append, List.drop_left' position.symm, whole]
  have placed := main.page.load_store_same 0 (machine.program first)
  have parsed := machine.trfsReadTfileBuf_page heap main.position first placed main.progress enough
  rw [treplayLoop, if_neg (by omega)]
  simp only [data, if_neg someBytes]
  split at parsed
  next state _ =>
    obtain ⟨visits, parsed⟩ := parsed
    have left : (main.seekBack (machine.program first) 0 ⟨state, visits⟩).fsize =
        (machine.program rest).length := by
      simp only [ReplayMain.seekBack]
      omega
    refine ⟨main.seekBack (machine.program first) 0 ⟨state, visits⟩, ?_, left, rfl, ?_⟩
    · simp [ReplayMain.seekBack, lseekBack, position]
    · rw [parsed]
      exact if_pos (by omega)
  next state _ =>
    obtain ⟨visits, parsed⟩ := parsed
    exact ⟨visits, by rw [parsed]⟩
  next => rw [parsed]

/-- Page after page.  The strong induction is on the number of items left; a page takes some of
them off, so that more rounds than items are enough. -/
theorem treplayLoop_items (before : List Item) {rest : List Item} {main : ReplayMain State}
    (position : main.position = (machine.program before).length)
    (fsize : main.fsize = (machine.program rest).length) (inRange : main.fsize < 2 ^ 31)
    (ends : PagesEndRecords (rest.map machine.framed)) {steps fuel : Nat}
    (enoughSteps : rest.length < steps) (enoughFuel : rest.length < fuel) :
    EndsAs (machine.program (before ++ rest)).length
      (runAll machine.meaning rest main.progress.state)
      (treplayLoop machine.handle heap (machine.program (before ++ rest)) steps fuel main) := by
  induction count : rest.length using Nat.strong_induction_on
    generalizing before rest main fuel with
  | _ size inductionHypothesis =>
    obtain ⟨fuel, rfl⟩ := Nat.exists_eq_succ_of_ne_zero (Nat.ne_zero_of_lt enoughFuel)
    by_cases nothing : rest = []
    · subst nothing
      rw [treplayLoop, if_pos (by simp [fsize]), List.append_nil]
      exact .finished position
    obtain ⟨first, later, rfl, nonempty, whole, laterEnds⟩ := machine.exists_page nothing ends
    rw [List.length_append] at enoughSteps enoughFuel count
    have positive := List.length_pos_iff.mpr nonempty
    have page := machine.treplayLoop_page heap position fsize inRange nonempty whole
      (Nat.lt_of_le_of_lt (Nat.le_add_right _ _) enoughSteps) fuel
    rw [runAll_append]
    split at page
    next state returned =>
      obtain ⟨next, nextPosition, nextSize, rfl, step⟩ := page
      rw [step, ← List.append_assoc]
      apply inductionHypothesis later.length (by omega) _ nextPosition nextSize
      · rw [fsize, program_append, List.length_append] at inRange
        omega
      · exact laterEnds
      · omega
      · omega
      · rfl
    next state exited =>
      obtain ⟨visits, exits⟩ := page
      rw [exits]
      exact .exited ⟨state, visits⟩
    next =>
      rw [page]
      exact .fault

/-- On a trace below 2 GiB whose pages end with records, `main` does what the records mean. -/
theorem treplay_items (items : List Item) (page : Memory) (state : State)
    (ends : PagesEndRecords (items.map machine.framed))
    (short : (machine.program items).length < 2 ^ 31) {steps fuel : Nat}
    (enoughSteps : items.length < steps) (enoughFuel : items.length < fuel) :
    EndsAs (machine.program items).length (runAll machine.meaning items state)
      (treplay machine.handle heap (machine.program items) steps fuel page state) := by
  have inRange : ((machine.program items).length : Int) < 2 ^ 31 := by omega
  have size : (ReplayMain.start (machine.program items) page state).fsize =
      (machine.program items).length := by
    rw [ReplayMain.start, toInt32_of_range (by omega) inRange]
  exact machine.treplayLoop_items heap [] rfl size
    (size.trans_lt inRange) ends enoughSteps enoughFuel

end Instructions

/-- The records of traced calls as instructions for treplay. -/
def recordInstructions (env : Environment) (gflags : Nat) :
    Instructions Replay ReplayableRecord where
  handle := ReplayOp.run env gflags
  framed := ReplayableRecord.framed
  meaning := ReplayableRecord.replay env gflags
  sound := fun replayable page buf state placed =>
    replayable.runSelected_framed env gflags page buf state placed

/-- The trace file that holds some records. -/
def traceFile (records : List ReplayableRecord) : List UInt8 :=
  file (records.map ReplayableRecord.framed)

theorem length_traceFile (records : List ReplayableRecord) :
    (traceFile records).length =
      (records.map fun replayable => replayable.record.call.byteSize).sum := by
  simp only [traceFile, file, List.length_flatMap, List.map_map]
  congr 1
  apply List.map_congr_left
  intro replayable _
  exact replayable.record.length_bytes

/-- treplay does for a trace what its calls mean, in their order, and ends as they do: at the end of
the file, with the exit of a handler, or undefined where a handler is. -/
theorem treplay_executes (env : Environment) (gflags : Nat) (heap : Nat → Memory) (page : Memory)
    (state : Replay) (records : List ReplayableRecord)
    (ends : PagesEndRecords (records.map ReplayableRecord.framed))
    (short : (traceFile records).length < 2 ^ 31) {steps fuel : Nat}
    (enoughSteps : records.length < steps) (enoughFuel : records.length < fuel) :
    EndsAs (traceFile records).length
      (runAll (ReplayableRecord.replay env gflags) records state)
      (treplay (ReplayOp.run env gflags) heap (traceFile records) steps fuel page state) :=
  (recordInstructions env gflags).treplay_items heap records page state ends short enoughSteps
    enoughFuel

/-- The trace of making the directory `a` and removing it again. -/
def mkdirRmdirTrace : List ReplayableRecord :=
  [⟨⟨.mkdir Name.a 0 0, 1, 2, fun _ => 0⟩, trivial, nofun⟩,
    ⟨⟨.rmdir Name.a 0, 1, 3, fun _ => 0⟩, trivial, nofun⟩]

theorem length_traceFile_mkdirRmdirTrace : (traceFile mkdirRmdirTrace).length = 46 := by
  rw [length_traceFile]
  rfl

theorem treplay_executes_mkdirRmdirTrace :
    (runAll (ReplayableRecord.replay zeroedEnvironment 2) mkdirRmdirTrace ⟨[], [], []⟩).calls? =
        some [.mkdir (some [97]) 0, .rmdir (some [97])] ∧
      EndsAs (traceFile mkdirRmdirTrace).length
        (runAll (ReplayableRecord.replay zeroedEnvironment 2) mkdirRmdirTrace ⟨[], [], []⟩)
        (treplay (ReplayOp.run zeroedEnvironment 2) (fun _ _ => 0) (traceFile mkdirRmdirTrace) 3 3
          (fun _ => 0) ⟨[], [], []⟩) := by
  have size := length_traceFile_mkdirRmdirTrace
  refine ⟨by decide, treplay_executes zeroedEnvironment 2 _ _ _ mkdirRmdirTrace ?_ ?_ ?_ ?_⟩
  · exact pagesEndRecords_of_le (size.trans_le (by decide))
  · rw [size]
    decide
  · decide
  · decide

end Tracefs
