import Tracefs.Replay.Framing

/-!
# Records across page boundaries

`main` reads the trace in pages of 4096 bytes and seeks back by what the parser
returns.  The parser returns the size of the record that did not fit, not the
number of bytes left on the page, so the loop goes back too far.  Once it stands
before a record that is to be handled next, it never gets there properly: every
seek that succeeds goes further back, and one that fails leaves `fsize` too large.
-/

namespace Tracefs

open Bytes FramedRecord

variable {State : Type}

/-- The run ends by itself, has handled each record once, in order and from its
first byte, and stands at the end of the file. -/
def ReplaysExactly (handlers : ReturningHandlers State) (heap : Nat → Memory) (page : Memory)
    (state : State) (records : List FramedRecord) : Prop :=
  ∃ steps fuel final,
    treplay handlers.handle heap (file records) steps fuel page state = .finished final ∧
      final.progress.visits = visits 0 records ∧ final.position = (file records).length

/-- Wherever a page ends inside the file, a record ends. -/
def PagesEndRecords (records : List FramedRecord) : Prop :=
  ∀ pages, replayPageSize * pages < (file records).length →
    ∃ count, (file (records.take count)).length = replayPageSize * pages

def Completes (handlers : ReturningHandlers State) (heap : Nat → Memory)
    (records : List FramedRecord) (main : ReplayMain State) : Prop :=
  ∃ steps fuel final,
    treplayLoop handlers.handle heap (file records) steps fuel main = .finished final ∧
      final.progress.visits = visits 0 records ∧ final.position = (file records).length

section Loop

variable (heap : Nat → Memory) (handle : Handlers State) {content : List UInt8}
  {steps fuel : Nat} {main final : ReplayMain State}

theorem treplayLoop_cases
    (finished : treplayLoop handle heap content steps (fuel + 1) main = .finished final) :
    (main.fsize ≤ 0 ∧ final = main) ∨
      ∃ leftBytes progress, 0 < main.fsize ∧
        0 < ((content.drop main.position).take replayPageSize).length ∧
        trfsReadTfileBuf handle heap main.position
          (main.page.store 0 ((content.drop main.position).take replayPageSize)) steps 0
          ((content.drop main.position).take replayPageSize).length main.progress =
            .done leftBytes progress ∧
        treplayLoop handle heap content steps fuel
          (main.seekBack ((content.drop main.position).take replayPageSize) leftBytes progress) =
            .finished final := by
  rw [treplayLoop] at finished
  split at finished
  next stops =>
    cases finished
    exact .inl ⟨stops, rfl⟩
  next goesOn =>
    dsimp only at finished
    split at finished
    next => cases finished
    next someBytes =>
      split at finished
      next leftBytes progress parsed =>
        split at finished
        next => exact .inr ⟨leftBytes, progress, by omega, by omega, parsed, finished⟩
        next => cases finished
      all_goals cases finished

/-- Visits are only added, and what `fsize` promises beyond the position never
shrinks: a seek that fails adds to it. -/
theorem treplayLoop_monotone
    (finished : treplayLoop handle heap content steps fuel main = .finished final) :
    main.progress.visits <+: final.progress.visits ∧
      main.fsize + main.position ≤ final.fsize + final.position ∧ final.fsize ≤ 0 := by
  induction fuel generalizing main with
  | zero => cases finished
  | succ fuel inductionHypothesis =>
      rcases treplayLoop_cases heap handle finished with
        ⟨stops, rfl⟩ | ⟨leftBytes, progress, _, _, parsed, later⟩
      · exact ⟨List.prefix_refl _, le_rfl, stops⟩
      · obtain ⟨visits, balance, stops⟩ := inductionHypothesis later
        refine ⟨(trfsReadTfileBuf_visits_grow heap _ _ handle
          (congrArg Parsed.progress? parsed)).trans visits, ?_, stops⟩
        simp only [ReplayMain.seekBack, lseekBack] at balance
        split at balance <;> push_cast [*] at balance <;> omega

/-- In a run that ends at the end of the file no seek is refused, as `fsize`
would stay too large. -/
theorem seekBack_of_finished {data : List UInt8} {leftBytes : Nat} {progress : Progress State}
    (finished : treplayLoop handle heap content steps fuel
      (main.seekBack data leftBytes progress) = .finished final)
    (balance : main.fsize + main.position = final.position) :
    (main.seekBack data leftBytes progress).position + leftBytes = main.position + data.length ∧
      (main.seekBack data leftBytes progress).fsize +
        (main.seekBack data leftBytes progress).position = final.position := by
  obtain ⟨-, kept, stops⟩ := treplayLoop_monotone heap handle finished
  simp only [ReplayMain.seekBack, lseekBack] at kept ⊢
  split at kept
  next succeeds =>
    rw [if_pos succeeds]
    omega
  next refused =>
    push_cast at kept
    omega

theorem treplayLoop_steps
    (finished : treplayLoop handle heap content steps fuel main = .finished final) (extra : Nat) :
    treplayLoop handle heap content (steps + extra) fuel main = .finished final := by
  induction fuel generalizing main with
  | zero => cases finished
  | succ fuel inductionHypothesis =>
      rw [treplayLoop] at finished ⊢
      split
      next stops => rwa [if_pos stops] at finished
      next goesOn =>
        rw [if_neg goesOn] at finished
        dsimp only at finished ⊢
        split
        next atEnd =>
          rw [if_pos atEnd] at finished
          cases finished
        next someBytes =>
          rw [if_neg someBytes] at finished
          -- the parser has ended, or the run would not have
          rw [trfsReadTfileBuf_fuel heap _ _ handle
            (fun running => by rw [running] at finished; cases finished)]
          split at finished
          next =>
            split at finished
            next inRange =>
              rw [if_pos inRange]
              exact inductionHypothesis finished
            next => cases finished
          all_goals cases finished

end Loop

theorem not_visits_of_handled {record : FramedRecord} {before rest : List FramedRecord}
    {visit : Visit} {handled : List Visit}
    (other : visit ≠ record.visit (file before).length)
    (later : visits 0 before ++ [visit] <+: handled) :
    handled ≠ visits 0 (before ++ record :: rest) := by
  rintro rfl
  rw [visits_append, List.prefix_append_right_inj, FramedRecord.visits,
    List.singleton_prefix_cons_iff, Nat.zero_add] at later
  exact other later

/-- A loop that has gone back behind the next record does not complete.  The
induction is on the rounds: a round handles something else, goes further back,
or has its seek refused. -/
theorem not_completes_of_behind (handlers : ReturningHandlers State) (heap : Nat → Memory)
    {before rest : List FramedRecord} {record : FramedRecord} {main : ReplayMain State}
    (visited : main.progress.visits = visits 0 before)
    (behind : main.position < (file before).length)
    (balance : main.fsize + main.position = (file (before ++ record :: rest)).length) :
    ¬ Completes handlers heap (before ++ record :: rest) main := by
  rintro ⟨steps, fuel, final, finished, complete, atEnd⟩
  induction fuel generalizing main with
  | zero => cases finished
  | succ fuel inductionHypothesis =>
      have total : (file (before ++ record :: rest)).length =
          (file before).length + (file (record :: rest)).length := by simp
      rcases treplayLoop_cases heap handlers.handle finished with
        ⟨stops, rfl⟩ | ⟨leftBytes, progress, _, someBytes, parsed, later⟩
      · omega
      · rcases trfsReadTfileBuf_cases heap _ _ handlers.handle (by omega) parsed with
          ⟨tooLong, rfl⟩ | ⟨next, _, _, round, rounds⟩
        · obtain ⟨back, kept⟩ := seekBack_of_finished heap handlers.handle later (by omega)
          refine inductionHypothesis ?_ ?_ ?_ later
          · exact visited
          · omega
          · omega
        · have added := parseRound_visits heap _ _ handlers.handle (congrArg Outcome.state? round)
          have grows := (trfsReadTfileBuf_visits_grow heap _ _ handlers.handle
            (congrArg Parsed.progress? rounds)).trans
            (treplayLoop_monotone heap handlers.handle later).1
          rw [added, visited] at grows
          refine not_visits_of_handled (fun same => ?_) grows complete
          have offsets : main.position + 0 = (file before).length := congrArg Visit.offset same
          omega

/-- The loop stands at the first record of `rest`, having handled `before`. -/
structure AtRecord (before rest : List FramedRecord) (main : ReplayMain State) : Prop where
  position : main.position = (file before).length
  visits : main.progress.visits = visits 0 before

section Pages

variable (handlers : ReturningHandlers State) (heap : Nat → Memory)
  {before first rest : List FramedRecord} {record : FramedRecord} {main : ReplayMain State}

theorem AtRecord.page_data (atRecord : AtRecord before rest main) :
    ((file (before ++ rest)).drop main.position).take replayPageSize =
      (file rest).take replayPageSize := by
  rw [file_append, List.drop_left' atRecord.position.symm]

/-- A page that ends with a record takes the loop to the record after it. -/
theorem AtRecord.page_step (atRecord : AtRecord before (first ++ rest) main)
    (goesOn : 0 < main.fsize) (inRange : main.fsize < 2 ^ 31) (nonempty : first ≠ [])
    (whole : (file (first ++ rest)).take replayPageSize = file first) :
    ∃ next, AtRecord (before ++ first) rest next ∧
      next.fsize = main.fsize - (file first).length ∧ ∀ steps fuel,
      treplayLoop handlers.handle heap (file (before ++ (first ++ rest)))
          (first.length + 1 + steps) (fuel + 1) main =
        treplayLoop handlers.handle heap (file (before ++ (first ++ rest)))
          (first.length + 1 + steps) fuel next := by
  have placed := main.page.load_store_same 0 (file first)
  obtain ⟨progress, visited, parsed⟩ :=
    trfsReadTfileBuf_whole heap main.position handlers first placed main.progress
  have someBytes : (file first).length ≠ 0 := by
    simpa [file_eq_nil_iff] using nonempty
  refine ⟨main.seekBack (file first) 0 progress, ⟨?_, ?_⟩, ?_, ?_⟩
  · simp [ReplayMain.seekBack, lseekBack, atRecord.position]
  · show progress.visits = _
    rw [visited, atRecord.visits, visits_append, atRecord.position]
    simp
  · simp [ReplayMain.seekBack]
  · intro steps fuel
    have smaller : (main.seekBack (file first) 0 progress).fsize < 2 ^ 31 := by
      simp only [ReplayMain.seekBack]
      omega
    rw [treplayLoop, if_neg (by omega)]
    simp only [atRecord.page_data, whole, if_neg someBytes]
    rw [trfsReadTfileBuf_fuel heap _ _ handlers.handle (by rw [parsed]; exact nofun), parsed]
    exact if_pos smaller

theorem completes_iff_of_page {records : List FramedRecord} {next : ReplayMain State} {enough : Nat}
    (step : ∀ steps fuel,
      treplayLoop handlers.handle heap (file records) (enough + steps) (fuel + 1) main =
        treplayLoop handlers.handle heap (file records) (enough + steps) fuel next) :
    Completes handlers heap records main ↔ Completes handlers heap records next := by
  constructor
  · rintro ⟨steps, fuel, final, finished, complete⟩
    cases fuel with
    | zero => cases finished
    | succ fuel =>
        have more := treplayLoop_steps heap handlers.handle finished enough
        rw [Nat.add_comm, step] at more
        exact ⟨enough + steps, fuel, final, more, complete⟩
  · rintro ⟨steps, fuel, final, finished, complete⟩
    have more := treplayLoop_steps heap handlers.handle finished enough
    rw [Nat.add_comm, ← step] at more
    exact ⟨enough + steps, fuel + 1, final, more, complete⟩

/-- On a page that cuts a record off, the parser gets as far as that record. -/
theorem AtRecord.page_cut (atRecord : AtRecord before (first ++ record :: rest) main)
    (starts : (file first).length < replayPageSize)
    (cut : replayPageSize < (file first).length + record.bytes.length) :
    let data := (file (first ++ record :: rest)).take replayPageSize
    data.length = replayPageSize ∧ ∃ reached,
      reached.visits = FramedRecord.visits 0 (before ++ first) ∧ ∀ steps,
      trfsReadTfileBuf handlers.handle heap main.position (main.page.store 0 data)
          (steps + first.length) 0 replayPageSize main.progress =
        trfsReadTfileBuf handlers.handle heap main.position (main.page.store 0 data) steps
          (0 + (file first).length) (replayPageSize - (file first).length) reached := by
  intro data
  have length : data.length = replayPageSize := by
    simp only [data, file_append, file_cons, List.length_take, List.length_append]
    omega
  have placed : (main.page.store 0 data).load 0 (file first).length = file first := by
    have stored := main.page.load_store_same 0 data
    rw [length] at stored
    rw [← Memory.take_load _ _ _ _ starts.le, stored, List.take_take, min_eq_left starts.le,
      file_append, List.take_left' rfl]
  obtain ⟨reached, visited, parsed⟩ := trfsReadTfileBuf_records heap main.position handlers
    first placed (Int.ofNat_le.mpr starts.le) main.progress
  refine ⟨length, reached, ?_, parsed⟩
  rw [visited, atRecord.visits, visits_append, atRecord.position]
  simp

/-- After such a page the loop stands behind the record, or it has taken
something else for it. -/
theorem AtRecord.not_completes_of_cut
    (atRecord : AtRecord before (first ++ record :: rest) main)
    (balance : main.fsize = (file (first ++ record :: rest)).length)
    (starts : (file first).length < replayPageSize)
    (cut : replayPageSize < (file first).length + record.bytes.length) :
    ¬ Completes handlers heap (before ++ (first ++ record :: rest)) main := by
  rintro ⟨steps, fuel, final, finished, complete, atEnd⟩
  have total : (file (before ++ (first ++ record :: rest))).length =
      main.position + (file (first ++ record :: rest)).length := by
    rw [file_append, List.length_append, atRecord.position]
  have handled : (file (before ++ first)).length = main.position + (file first).length := by
    rw [file_append, List.length_append, atRecord.position]
  have remaining : (file (first ++ record :: rest)).length =
      (file first).length + (record.bytes.length + (file rest).length) := by simp
  obtain ⟨length, reached, visited, atCut⟩ := atRecord.page_cut handlers heap starts cut
  replace finished := treplayLoop_steps heap handlers.handle finished first.length
  cases fuel with
  | zero => cases finished
  | succ fuel =>
      rcases treplayLoop_cases heap handlers.handle finished with
        ⟨stops, rfl⟩ | ⟨leftBytes, progress, _, _, parsed, later⟩
      · omega
      rw [atRecord.page_data] at parsed later
      rw [length, atCut] at parsed
      rw [← List.append_assoc] at later complete atEnd total
      rcases trfsReadTfileBuf_cases heap _ _ handlers.handle (by omega) parsed with
        ⟨tooLong, rfl⟩ | ⟨next, _, fits, round, rounds⟩
      · obtain ⟨back, kept⟩ := seekBack_of_finished heap handlers.handle later (by omega)
        exact not_completes_of_behind handlers heap visited (by omega) (by omega)
          ⟨_, fuel, final, later, complete, atEnd⟩
      · have taken := parseRound_visits heap _ _ handlers.handle (congrArg Outcome.state? round)
        have grows := (trfsReadTfileBuf_visits_grow heap _ _ handlers.handle
          (congrArg Parsed.progress? rounds)).trans
          (treplayLoop_monotone heap handlers.handle later).1
        rw [taken, visited] at grows
        refine not_visits_of_handled (fun same => ?_) grows complete
        have lengths := congrArg (fun visit => visit.bytes.length) same
        simp only [roundVisit, Memory.length_load, FramedRecord.visit] at lengths
        omega

end Pages

theorem exists_boundary_or_cut {records : List FramedRecord} {limit : Nat}
    (long : limit < (file records).length) :
    (∃ first rest, records = first ++ rest ∧ (file first).length = limit) ∨
      ∃ first record rest, records = first ++ record :: rest ∧ (file first).length < limit ∧
        limit < (file first).length + record.bytes.length := by
  induction records generalizing limit with
  | nil => simp at long
  | cons record records inductionHypothesis =>
      rw [file_cons, List.length_append] at long
      by_cases inside : limit < record.bytes.length
      · rcases Nat.eq_zero_or_pos limit with rfl | positive
        · exact .inl ⟨[], record :: records, rfl, rfl⟩
        · exact .inr ⟨[], record, records, rfl, positive, by simpa using inside⟩
      · have later : limit - record.bytes.length < (file records).length := by omega
        rcases inductionHypothesis later with
          ⟨first, rest, rfl, boundary⟩ | ⟨first, next, rest, rfl, starts, cut⟩
        · refine .inl ⟨record :: first, rest, rfl, ?_⟩
          rw [file_cons, List.length_append]
          omega
        · refine .inr ⟨record :: first, next, rest, rfl, ?_, ?_⟩ <;>
            rw [file_cons, List.length_append] <;> omega

theorem length_file_take_le (records : List FramedRecord) (count : Nat) :
    (file (records.take count)).length ≤ (file records).length := by
  conv_rhs => rw [← List.take_append_drop count records, file_append, List.length_append]
  omega

theorem pagesEndRecords_of_le {records : List FramedRecord}
    (short : (file records).length ≤ replayPageSize) : PagesEndRecords records := by
  intro pages inside
  have none : pages = 0 := by
    rw [replayPageSize] at short inside
    omega
  exact ⟨0, by simp [none]⟩

theorem not_pagesEndRecords {first rest : List FramedRecord} {record : FramedRecord}
    (starts : (file first).length < replayPageSize)
    (cut : replayPageSize < (file first).length + record.bytes.length) :
    ¬ PagesEndRecords (first ++ record :: rest) := by
  intro ends
  obtain ⟨count, boundary⟩ := ends 1 (by
    rw [file_append, file_cons, List.length_append, List.length_append]
    omega)
  rw [Nat.mul_one, List.take_append, file_append, List.length_append] at boundary
  by_cases inFirst : count ≤ first.length
  · have partly := length_file_take_le first count
    rw [Nat.sub_eq_zero_of_le inFirst] at boundary
    simp only [List.take_zero, file_nil, List.length_nil] at boundary
    omega
  · obtain ⟨more, rfl⟩ := Nat.exists_eq_add_of_lt (not_le.mp inFirst)
    rw [List.take_of_length_le (by omega), show first.length + more + 1 - first.length = more + 1
      by omega, List.take_succ_cons, file_cons, List.length_append] at boundary
    omega

theorem pagesEndRecords_append_iff {first rest : List FramedRecord}
    (whole : (file first).length = replayPageSize) :
    PagesEndRecords (first ++ rest) ↔ PagesEndRecords rest := by
  have sum : (file (first ++ rest)).length = replayPageSize + (file rest).length := by
    rw [file_append, List.length_append, whole]
  constructor
  · intro ends pages inside
    obtain ⟨count, boundary⟩ := ends (pages + 1) (by rw [sum]; rw [Nat.mul_succ]; omega)
    rw [List.take_append, file_append, List.length_append, Nat.mul_succ] at boundary
    refine ⟨count - first.length, ?_⟩
    by_cases inFirst : count ≤ first.length
    · have partly := length_file_take_le first count
      rw [Nat.sub_eq_zero_of_le inFirst] at boundary ⊢
      simp only [List.take_zero, file_nil, List.length_nil] at boundary ⊢
      omega
    · rw [List.take_of_length_le (by omega)] at boundary
      omega
  · intro ends pages inside
    cases pages with
    | zero => exact ⟨0, by simp⟩
    | succ pages =>
        obtain ⟨count, boundary⟩ := ends pages (by rw [sum, Nat.mul_succ] at inside; omega)
        refine ⟨first.length + count, ?_⟩
        rw [List.take_length_add_append, file_append, List.length_append, whole, boundary,
          Nat.mul_succ, Nat.add_comm]

section Complete

variable (handlers : ReturningHandlers State) (heap : Nat → Memory)
  {before rest : List FramedRecord} {main : ReplayMain State}

theorem AtRecord.completes_iff_of_stop (atRecord : AtRecord before rest main)
    (stops : main.fsize ≤ 0) : Completes handlers heap (before ++ rest) main ↔ rest = [] := by
  constructor
  · rintro ⟨steps, fuel, final, finished, complete, -⟩
    cases fuel with
    | zero => cases finished
    | succ fuel =>
        rw [treplayLoop, if_pos stops] at finished
        cases finished
        have lengths := congrArg List.length complete
        simp only [atRecord.visits, length_visits, List.length_append] at lengths
        exact List.length_eq_zero_iff.mp (by omega)
  · rintro rfl
    refine ⟨0, 1, main, ?_, ?_, ?_⟩
    · rw [treplayLoop, if_pos stops]
    · rw [List.append_nil, atRecord.visits]
    · rw [List.append_nil, atRecord.position]

theorem AtRecord.completes_of_last (atRecord : AtRecord before rest main)
    (goesOn : 0 < main.fsize) (nonempty : rest ≠ [])
    (short : (file rest).length ≤ replayPageSize) (exactly : main.fsize = (file rest).length) :
    Completes handlers heap (before ++ rest) main := by
  have inRange : main.fsize < 2 ^ 31 := by
    rw [replayPageSize] at short
    omega
  rw [← List.append_nil rest] at atRecord
  obtain ⟨next, nextAt, nextSize, step⟩ := atRecord.page_step handlers heap goesOn inRange
    nonempty (by rw [List.append_nil, List.take_of_length_le short])
  rw [List.append_nil] at step
  rw [completes_iff_of_page handlers heap step, ← List.append_nil (before ++ rest)]
  exact (nextAt.completes_iff_of_stop handlers heap (by omega)).mpr rfl

/-- A page that ends with a record leaves the question to the records after it. -/
theorem AtRecord.completes_iff_of_boundary {first : List FramedRecord}
    (atRecord : AtRecord before (first ++ rest) main) (goesOn : 0 < main.fsize)
    (inRange : main.fsize < 2 ^ 31) (nonempty : first ≠ [])
    (boundary : (file first).length = replayPageSize) :
    ∃ next, AtRecord (before ++ first) rest next ∧ next.fsize = main.fsize - replayPageSize ∧
      (Completes handlers heap (before ++ (first ++ rest)) main ↔
        Completes handlers heap (before ++ first ++ rest) next) := by
  obtain ⟨next, nextAt, nextSize, step⟩ := atRecord.page_step handlers heap goesOn inRange
    nonempty (by rw [file_append, List.take_left' boundary])
  refine ⟨next, nextAt, by rw [nextSize, boundary], ?_⟩
  rw [List.append_assoc]
  exact completes_iff_of_page handlers heap step

/-- The step and the run at once: the induction is on the number of records left,
and each round takes a page of them.  `fsize` is right, or it has lost a multiple
of 2 to the 32. -/
theorem AtRecord.completes_iff (atRecord : AtRecord before rest main)
    (inRange : -2 ^ 31 ≤ main.fsize ∧ main.fsize < 2 ^ 31)
    (covered : main.fsize = (file rest).length ∨
      PagesEndRecords rest ∧ main.fsize + 2 ^ 32 ≤ (file rest).length) :
    Completes handlers heap (before ++ rest) main ↔
      PagesEndRecords rest ∧ main.fsize = (file rest).length := by
  induction count : rest.length using Nat.strong_induction_on generalizing before rest main with
  | _ size inductionHypothesis =>
    by_cases goesOn : main.fsize ≤ 0
    · rw [atRecord.completes_iff_of_stop handlers heap goesOn, ← file_eq_nil_iff,
        ← List.length_eq_zero_iff]
      constructor
      · intro nothing
        exact ⟨pagesEndRecords_of_le (by omega), by omega⟩
      · rintro ⟨_, exactly⟩
        omega
    by_cases short : (file rest).length ≤ replayPageSize
    · have exactly : main.fsize = (file rest).length := by
        rw [replayPageSize] at short
        omega
      have nonempty : rest ≠ [] := by
        rintro rfl
        exact goesOn (by simp [exactly])
      exact iff_of_true
        (atRecord.completes_of_last handlers heap (by omega) nonempty short exactly)
        ⟨pagesEndRecords_of_le short, exactly⟩
    rcases exists_boundary_or_cut (not_le.mp short) with
      ⟨first, later, rfl, boundary⟩ | ⟨first, record, later, rfl, starts, cut⟩
    · have nonempty : first ≠ [] := by
        rintro rfl
        exact absurd boundary (by decide)
      obtain ⟨next, nextAt, nextSize, sameQuestion⟩ :=
        atRecord.completes_iff_of_boundary handlers heap (by omega) inRange.2 nonempty boundary
      have fewer : later.length < size := by
        have positive := List.length_pos_iff.mpr nonempty
        rw [List.length_append] at count
        omega
      have ends : PagesEndRecords (first ++ later) ↔ PagesEndRecords later :=
        pagesEndRecords_append_iff boundary
      rw [file_append, List.length_append] at covered ⊢
      rw [replayPageSize] at boundary nextSize
      have nextCovered : next.fsize = (file later).length ∨
          PagesEndRecords later ∧ next.fsize + 2 ^ 32 ≤ (file later).length := by
        rcases covered with exactly | ⟨whole, lost⟩
        · exact .inl (by omega)
        · exact .inr ⟨ends.mp whole, by omega⟩
      rw [sameQuestion, inductionHypothesis _ fewer nextAt (by omega) nextCovered rfl, ends]
      exact and_congr_right fun _ => by omega
    · have cuts : ¬ PagesEndRecords (first ++ record :: later) := not_pagesEndRecords starts cut
      have exactly := covered.resolve_right fun both => cuts both.1
      exact iff_of_false (atRecord.not_completes_of_cut handlers heap exactly starts cut)
        fun both => cuts both.1

end Complete

/-- The start of a run, whose `fsize` is the length of the file as an `int`. -/
theorem replaysExactly_iff_of_covered (handlers : ReturningHandlers State)
    (heap : Nat → Memory) (page : Memory) (state : State) (records : List FramedRecord)
    (covered : (file records).length < 2 ^ 31 ∨ PagesEndRecords records) :
    ReplaysExactly handlers heap page state records ↔
      PagesEndRecords records ∧ (file records).length < 2 ^ 31 := by
  have atRecord : AtRecord [] records (ReplayMain.start (file records) page state) := ⟨rfl, rfl⟩
  have size : (ReplayMain.start (file records) page state).fsize =
      ((file records).length + 2 ^ 31) % 2 ^ 32 - 2 ^ 31 := by
    rw [ReplayMain.start, toInt32_eq]
  have start := atRecord.completes_iff handlers heap (by omega) (by
    rcases Nat.lt_or_ge (file records).length (2 ^ 31) with short | long
    · exact .inl (by omega)
    · exact .inr ⟨covered.resolve_left (by omega), by omega⟩)
  exact start.trans (and_congr_right fun _ => by omega)

/-- Below 2 GiB a trace is replayed exactly if and only if every page ends where
a record ends; beyond, not even then. -/
theorem replaysExactly_iff (handlers : ReturningHandlers State) (heap : Nat → Memory)
    (page : Memory) (state : State) (records : List FramedRecord) :
    (ReplaysExactly handlers heap page state records ∧ (file records).length < 2 ^ 31 ↔
        PagesEndRecords records ∧ (file records).length < 2 ^ 31) ∧
      ¬ (PagesEndRecords records ∧ 2 ^ 31 ≤ (file records).length ∧
        ReplaysExactly handlers heap page state records) := by
  constructor
  · constructor
    · rintro ⟨replays, short⟩
      exact (replaysExactly_iff_of_covered _ _ _ _ _ (.inl short)).mp replays
    · intro both
      exact ⟨(replaysExactly_iff_of_covered _ _ _ _ _ (.inl both.2)).mpr both, both.2⟩
  · rintro ⟨ends, long, replays⟩
    have short := ((replaysExactly_iff_of_covered _ _ _ _ _ (.inr ends)).mp replays).2
    omega

/-- The records of a write of one byte and of a write of 4047 bytes, which are 50
and 4096 bytes long. -/
def cutTrace : List FramedRecord :=
  [(TraceRecord.zeroWrite 1 (by decide)).framed (by
      rw [← TracedCall.byteSize_lt_iff, TraceRecord.byteSize_zeroWrite]; decide),
    (TraceRecord.zeroWrite 4047 (by decide)).framed (by
      rw [← TracedCall.byteSize_lt_iff, TraceRecord.byteSize_zeroWrite]; decide)]

theorem lengths_cutTrace : cutTrace.map (fun record => record.bytes.length) = [50, 4096] := by
  simp only [cutTrace, List.map_cons, List.map_nil, TraceRecord.framed, TraceRecord.length_bytes,
    TraceRecord.byteSize_zeroWrite]

theorem length_file_cutTrace : (file cutTrace).length = 4146 := by
  rw [file, List.length_flatMap, lengths_cutTrace]
  rfl

theorem cutTrace_eq : ∃ first second, cutTrace = [first] ++ second :: [] ∧
    first.bytes.length = 50 ∧ second.bytes.length = 4096 := by
  have lengths := lengths_cutTrace
  obtain ⟨first, second, cut⟩ : ∃ first second, cutTrace = [first] ++ second :: [] := ⟨_, _, rfl⟩
  rw [cut, List.singleton_append, List.map_cons, List.map_singleton, List.cons.injEq,
    List.cons.injEq] at lengths
  exact ⟨first, second, cut, lengths.1, lengths.2.1⟩

/-- The first page ends inside the second record. -/
theorem not_replaysExactly_cutTrace :
    cutTrace.map (fun record => record.bytes.length) = [50, 4096] ∧
      ¬ ReplaysExactly idleHandlers (fun _ _ => 0) (fun _ => 0) () cutTrace := by
  have size := length_file_cutTrace
  obtain ⟨first, second, cut, lengths⟩ := cutTrace_eq
  refine ⟨lengths_cutTrace, fun replays => ?_⟩
  have ends := ((replaysExactly_iff_of_covered _ _ _ _ _ (.inl (by omega))).mp replays).1
  rw [cut] at ends
  exact not_pagesEndRecords (by simp [lengths, replayPageSize]) (by simp [lengths, replayPageSize])
    ends

end Tracefs
