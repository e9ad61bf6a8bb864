/-
**Reading the data of a program.** Each `READ` takes the values of `DATA` statements where the one
before it left off, whatever the machine does in between. So all values are taken once and in their
order, from the beginning of the program on or from a line on.

* `Machine.ReadsFrom`: the lines of the program that a machine takes values from;
* `Machine.TakesAt`: values that are taken in one machine after the other, with nothing else that
  moves the place in the data;
* `Machine.StartsData`: what sets the place in the data, and the lines whose data come next;
* `Machine.PlaysOn`: how a host goes on without setting that place;
* **`Machine.PlaysOn.takes`**: going on so takes values and does nothing else to the place;
* **`Machine.data_are_read_in_order`**: which values are taken.
-/

import PocketBasic.Proofs.Machine.Aside
import PocketBasic.Proofs.Memory.Guarded
import PocketBasic.Proofs.Memory.LineTable
import PocketBasic.Proofs.Program.DataLists

namespace PocketBasic

/-- Whether the slots remember where lines of the program begin, and nothing else. -/
def Memory.RemembersLines (memory : Memory) : Prop :=
  ∀ line start, memory.lineCache.find? line = some start →
    memory.program.findLine? memory.width line = some start

/-- A line is found where it begins, if the slots remember lines, and then they may remember it. -/
theorem Memory.RemembersLines.findLine_eq {memory : Memory} (remembers : memory.RemembersLines)
    (line : LineNumber) : ∃ edited, memory.SameProgram edited ∧
      memory.findLine line = (memory.program.findLine? memory.width line, edited) := by
  rw [findLine]
  cases remembered : memory.lineCache.find? line with
  | some start => exact ⟨memory, ⟨rfl, rfl⟩, by rw [remembers line start remembered]⟩
  | none =>
    have found : memory.program.findLine? memory.width line =
        (memory.lineSpan? line).map (·.start) := rfl
    rw [found]
    cases memory.lineSpan? line with
    | none => exact ⟨memory, ⟨rfl, rfl⟩, rfl⟩
    | some span =>
      let edited := { memory with lineCache := memory.lineCache.insert line span.start }
      exact ⟨edited, ⟨rfl, rfl⟩, rfl⟩

namespace Machine

variable {width : AddressWidth} {records rest : List (LineRecord width)}
  {listed : LineRecord width → List Datum} {data : List Datum} {place last : DataCursor}
  {machine before after : Machine} {readers : List Machine}

/-- Whether the program that a machine takes values from is made of lines. -/
structure ReadsFrom (machine : Machine) (records : List (LineRecord width)) : Prop where
  width : machine.memory.width = width
  text : machine.programText machine.cursor.mode = ProgramText.ofBytes (LineRecord.image records)

/-- A machine reads from the same program before its place in the data was set. -/
theorem ReadsFrom.of_sameProgram {memory : Memory}
    (reads : { machine with memory, data := place }.ReadsFrom records)
    (same : machine.memory.SameProgram memory) : machine.ReadsFrom records := by
  have text : { machine with memory, data := place }.programText = machine.programText := by
    funext mode
    unfold programText
    dsimp only
    rw [same.width, same.program]
  exact ⟨same.width.symm.trans reads.width, by rw [← text]; exact reads.text⟩

/-- A machine that does not run the program in the store reads from the one in memory. -/
theorem readsFrom_of_holdsLines (held : machine.memory.HoldsLines records)
    (inMemory : machine.cursor.mode ≠ .runStore) : machine.ReadsFrom records := by
  refine ⟨held.width, ?_⟩
  rw [← held.program_eq]
  unfold programText
  split
  · exact absurd ‹_› inMemory
  · rfl

/-! ### Taking values -/

/-- Values that are taken in machines one after the other: each of them has the place in the data
where the one before it left off. -/
def TakesAt : DataCursor → List Machine → DataCursor → Prop
  | place, [], last => last = place
  | place, reader :: later, last => reader.data = place ∧
    ∃ datum after, takeDatum.runOn reader = (.ok datum, after) ∧ TakesAt after.data later last

/-- What a machine does that takes the first one of some values: it takes it and goes on in the
data, or there is none and it stays as it was. -/
def TakesFirst (machine : Machine) : List Datum → Prop
  | [] => takeDatum.runOn machine = (.error (.reported { kind := .outOfData }), machine)
  | datum :: _ => ∃ data, takeDatum.runOn machine = (.ok datum, { machine with data })

theorem runOn_takeDatum (machine : Machine) :
    takeDatum.runOn machine =
      match (machine.programText machine.cursor.mode).nextDatum machine.memory.width
        machine.data with
      | .ok (datum, next) => (.ok datum, { machine with data := .inside next })
      | .error error => (.error (.reported error), machine) := by
  rw [takeDatum, Attempt.runOn_get_bind]
  dsimp only
  rcases (machine.programText machine.cursor.mode).nextDatum machine.memory.width machine.data with
    error | ⟨datum, next⟩ <;> rfl

/-- A machine that awaits values takes the first of them, and awaits the others then. -/
theorem takesFirst_of_awaits {text : ProgramText} (awaits : text.Awaits width machine.data data)
    (same : machine.memory.width = width) (reads : machine.programText machine.cursor.mode = text) :
    machine.TakesFirst data ∧ ∀ datum later, data = datum :: later →
      text.Awaits width (takeDatum.runOn machine).2.data later := by
  have finds := awaits.finds_nextDatum
  rw [← same, ← reads] at finds
  cases data with
  | nil =>
    refine ⟨?_, nofun⟩
    rw [TakesFirst, runOn_takeDatum, show _ = _ from finds]
  | cons datum later =>
    obtain ⟨next, found, ahead⟩ := finds
    rw [TakesFirst, runOn_takeDatum, found]
    refine ⟨⟨_, rfl⟩, ?_⟩
    rintro _ _ ⟨⟩
    rwa [same, reads] at ahead

namespace TakesAt

theorem snoc (takes : TakesAt place readers machine.data) {datum : Datum}
    (ran : takeDatum.runOn machine = (.ok datum, after)) :
    TakesAt place (readers ++ [machine]) after.data := by
  induction readers generalizing place with
  | nil => exact ⟨takes, datum, after, ran, rfl⟩
  | cons reader later ih =>
    obtain ⟨here, first, next, took, goesOn⟩ := takes
    exact ⟨here, first, next, took, ih goesOn⟩

/-- **Values are taken in the order in which they are awaited.** -/
theorem in_order {text : ProgramText} (takes : TakesAt place readers last)
    (awaits : text.Awaits width place data)
    (reads : ∀ reader ∈ readers, reader.memory.width = width ∧
      reader.programText reader.cursor.mode = text) :
    ∃ taken ahead, data = taken ++ ahead ∧ text.Awaits width last ahead ∧
      readers.map (fun reader => (takeDatum.runOn reader).1) = taken.map .ok := by
  induction readers generalizing place data with
  | nil =>
    cases takes
    exact ⟨[], data, rfl, awaits, rfl⟩
  | cons reader later ih =>
    obtain ⟨rfl, datum, next, took, goesOn⟩ := takes
    obtain ⟨same, text⟩ := reads reader List.mem_cons_self
    obtain ⟨first, others⟩ := takesFirst_of_awaits awaits same text
    cases data with
    | nil => exact nomatch (show _ = _ from first).symm.trans took
    | cons head tail =>
      obtain ⟨place, found⟩ := first
      obtain rfl : head = datum := by
        rw [found] at took
        cases took
        rfl
      have awaited := others head tail rfl
      rw [took] at awaited
      obtain ⟨taken, ahead, cut, awaits, values⟩ := ih goesOn awaited fun reader member =>
        reads reader (List.mem_cons_of_mem _ member)
      refine ⟨head :: taken, ahead, by rw [cut, List.cons_append], awaits, ?_⟩
      rw [List.map_cons, List.map_cons, took, values]

end TakesAt

/-! ### What moves the place in the data -/

/-- A property of the place in the data. -/
theorem isAside_data (holds : DataCursor → Prop) : IsAside fun machine => holds machine.data where
  apart _ _ _ _ _ _ _ _ _ _ _ _ := id
  registers shares held := shares.data ▸ held
  frames _ _ _ _ := id

/-- Whether the statement at the cursor sets the place in the data: `RESTORE` and `LOAD`, and those
that start the machine afresh. -/
def setsData (machine : Machine) : Bool := machine.seeksData || machine.clearsAll

/-- What takes values from a place on, and does nothing else to the place in the data. -/
def takesFrom (place : DataCursor) : Conduct Machine :=
  .keeps fun machine => ∃ readers, TakesAt place readers machine.data

theorem isAside_takes (place : DataCursor) :
    IsAside fun machine => ∃ readers, TakesAt place readers machine.data :=
  isAside_data fun data => ∃ readers, TakesAt place readers data

instance steers_takesFrom : (takesFrom place).Steers := (isAside_takes place).jumps.steers

instance departs_takesFrom : (takesFrom place).Departs := (isAside_takes place).departs

instance : (takesFrom place).StartsStatements := ⟨fun _ => id⟩

instance : (takesFrom place).Idles := ⟨fun _ _ => id⟩

instance : (takesFrom place).Postpones := ⟨fun _ _ _ => id⟩

instance (repeats : Bool) : (takesFrom place).SetsTimer repeats := ⟨fun _ _ => id⟩

theorem takesFrom_takeDatum : takeDatum.Obeys (takesFrom place) := by
  intro machine
  rcases ran : takeDatum.runOn machine with ⟨failure | datum, after⟩
  · have stays : after = machine := by
      rw [runOn_takeDatum] at ran
      split at ran <;> cases ran
      rfl
    exact Attempt.obeysFrom_of_error ran (stays ▸ id)
  · refine Attempt.obeysFrom_of_ok ran fun taken => ?_
    obtain ⟨readers, takes⟩ := taken
    exact ⟨_, takes.snoc ran⟩

/-- **Statements take values and do nothing else to the place in the data**, unless they set it. -/
instance performs_takesFrom : (takesFrom place).Performs :=
  (isAside_takes place).performs setsData
    (fun begins allowed => by simp [setsData, begins] at allowed)
    (fun _ _ => (takesFrom_takeDatum : takeDatum.Obeys (takesFrom place)))
    (fun begins allowed => by simp [setsData, begins] at allowed)
    (fun repeats _ _ => (obeys_timerStatement : (timerStatement repeats).Obeys (takesFrom place)))
    fun repeats => (obeys_clearTimer : (clearTimer repeats).Obeys (takesFrom place))

theorem takesFrom_servePins : servePins.Obeys (takesFrom place) :=
  (isAside_takes place).servePins

/-- Whether a host goes on from one machine to another one without setting the place in the data: in
the middle of a step it goes on between two statements or with an error; it lets devices do what
they want, enters lines without number, and lets the machine do statements that do not set the
place. -/
inductive PlaysOn (first : Machine) : Machine → Prop
  | refl : PlaysOn first first
  | checkpoint {machine : Machine} :
    PlaysOn first machine → PlaysOn first (checkpoint.runOn machine).2
  | unwind {machine : Machine} (error : Error) :
    PlaysOn first machine → PlaysOn first ((unwind error).runOn machine).2
  | devices {machine : Machine} (host : Host) :
    PlaysOn first machine → PlaysOn first { machine with host }
  | prepare {machine : Machine} (line : TypedLine) :
    PlaysOn first machine → PlaysOn first ((prepare line).runOn machine).2
  | execute {machine after : Machine} {cycles : Nat} {outcome : Outcome} :
    PlaysOn first machine →
      (executeUnless setsData cycles).runOn machine = (.ok outcome, after) → PlaysOn first after

/-- **Whoever goes on without setting the place in the data takes values from there on** and does
nothing else to it. -/
theorem PlaysOn.takes {first : Machine} (playsOn : PlaysOn first machine) :
    ∃ readers, TakesAt first.data readers machine.data := by
  have steps : (stepUnless setsData).Obeys (takesFrom first.data) :=
    @obeys_stepUnless _ performs_takesFrom _ _ _ _ (.refl _) takesFrom_servePins
  have recovers : (takesFrom first.data).Recovers := Conduct.recovers_keeps
  have unwinds (error : Error) : (Machine.unwind error).Obeys (takesFrom first.data) := fun _ =>
    obeysFrom_unwind recovers fun _ => id
  induction playsOn with
  | refl => exact ⟨[], rfl⟩
  | checkpoint _ ih =>
    have goesOn : Machine.checkpoint.Obeys (takesFrom first.data) :=
      obeys_checkpoint (.refl _) takesFrom_servePins
    exact holds_after goesOn ih
  | unwind error _ ih => exact holds_after (unwinds error) ih
  | devices host _ ih => exact ih
  | prepare line _ ih =>
    have prepares : (Machine.prepare line).Obeys (takesFrom first.data) :=
      .modify fun machine taken => by rwa [nextToken_eq]
    exact holds_after prepares ih
  | execute _ ran ih =>
    exact (obeys_executeBy recovers steps (fun _ => id) _ _).moves ran ih

/-- Where a run without setting the place in the data leaves a machine, a host can go on so. -/
theorem PlaysOn.execute_of_isSome {first : Machine} (playsOn : PlaysOn first machine) {cycles : Nat}
    (ends : ((executeUnless setsData cycles).runOn machine).1.toOption.isSome = true) :
    PlaysOn first ((Machine.execute cycles).runOn machine).2 := by
  rcases ran : (executeUnless setsData cycles).runOn machine with ⟨failure | outcome, after⟩
  · rw [ran] at ends
    cases ends
  · rw [execute_of_executeUnless ran]
    exact playsOn.execute ran

/-! ### Where reading starts -/

/-- What sets the place in the data of a program, and the lines whose data come next: `RUN`,
`RESTORE` alone, and `RESTORE` with the number of a line, in a machine that finds lines where they
are. -/
inductive StartsData (records : List (LineRecord width)) :
    Machine → List (LineRecord width) → Prop
  | run {before start : Machine} (ran : runStatement.runOn before = (.ok (), start)) :
    StartsData records start records
  | restore {before start : Machine}
    (alone : isStatementEnd before.nextToken.cursor.token = true)
    (ran : restoreStatement.runOn before = (.ok (), start)) : StartsData records start records
  | restoreLine {before valued start : Machine} {number : Single} {line : LineNumber}
    (argument : isStatementEnd before.nextToken.cursor.token = false)
    (value : value.runOn before.nextToken = (.ok number, valued))
    (denotes : LineNumber.ofSingle? number = some line) (finds : valued.memory.RemembersLines)
    (ran : restoreStatement.runOn before = (.ok (), start)) :
    StartsData records start (records.filter (line ≤ ·.number))

/-- What starts a program afresh starts its data anew. -/
theorem data_startAfresh {loaded : Bool} {line : Option LineNumber} (ran : (do
      let mode := if (← get).cursor.mode = .runStore && !loaded then Mode.runStore else .run
      clear
      modify fun machine =>
        { machine with continuation := none, cursor := { machine.cursor with mode } }
      match line with
      | some line => gotoLine line
      | none => startOf mode : Action Unit).runOn before = (.ok (), after)) :
    after.data = .search 0 := by
  have anew := isAside_data (· = .search 0)
  have goes (line : LineNumber) :
      (gotoLine line).Obeys (.keeps fun machine => machine.data = .search 0) :=
    @obeys_gotoLine _ anew.jumps.steers.toGoes line
  have begins (mode : Mode) :
      (startOf mode).Obeys (.keeps fun machine => machine.data = .search 0) :=
    @obeys_moveTo _ anew.jumps.steers.toGoes _
  rw [Attempt.runOn_get_bind] at ran
  obtain ⟨_, cleared, clears, ran⟩ := Attempt.exists_of_runOn_bind ran
  have fresh : cleared.data = .search 0 := by
    obtain ⟨_, middle, -, last⟩ := Attempt.exists_of_runOn_bind clears
    cases last
    rfl
  rw [Attempt.runOn_modify_bind] at ran
  cases line with
  | some line => exact (goes line _).moves ran fresh
  | none => exact (begins _ _).moves ran fresh

/-- `RUN` starts the data anew. -/
theorem data_runStatement (ran : runStatement.runOn before = (.ok (), after)) :
    after.data = .search 0 := by
  unfold runStatement at ran
  obtain ⟨_, named, -, ran⟩ := Attempt.exists_of_runOn_bind ran
  obtain ⟨loaded, ready, -, ran⟩ := Attempt.exists_of_runOn_bind ran
  obtain ⟨ends, atEnd, -, ran⟩ := Attempt.exists_of_runOn_bind ran
  cases ends with
  | true =>
    rw [if_pos rfl] at ran
    exact @data_startAfresh _ _ loaded none ran
  | false =>
    rw [if_neg Bool.false_ne_true] at ran
    obtain ⟨line, told, -, ran⟩ := Attempt.exists_of_runOn_bind ran
    exact @data_startAfresh _ _ loaded line ran

/-- `RESTORE` alone starts the data anew, and does nothing else. -/
theorem runOn_restoreStatement_alone
    (alone : isStatementEnd before.nextToken.cursor.token = true) :
    restoreStatement.runOn before = (.ok (), { before.nextToken with data := .search 0 }) := by
  have ends : atEnd.runOn before.nextToken = (.ok true, before.nextToken) :=
    Prod.ext (congrArg Except.ok alone) rfl
  rw [restoreStatement, advance, Attempt.runOn_modify_bind, Attempt.runOn_bind_ok ends, if_pos rfl]
  rfl

/-- Looking for a line finds where it begins, if the slots remember lines. -/
theorem runOn_findLine (remembers : machine.memory.RemembersLines) (line : LineNumber) :
    ∃ mode memory, machine.memory.SameProgram memory ∧
      (findLine line).runOn machine =
        match (machine.programText machine.cursor.mode).findLine? machine.memory.width line with
        | some offset => (.ok { mode, offset }, { machine with memory })
        | none => (.error (.reported { kind := .undefinedLine }), { machine with memory }) := by
  obtain ⟨edited, same, found⟩ := remembers.findLine_eq line
  rw [findLine, Attempt.runOn_get_bind]
  cases mode : machine.cursor.mode with
  | runStore =>
    refine ⟨.runStore, machine.memory, ⟨rfl, rfl⟩, ?_⟩
    dsimp only
    cases (machine.programText .runStore).findLine? machine.memory.width line <;> rfl
  | interactive | run =>
    refine ⟨.run, edited, same, ?_⟩
    have looked : (onMemory (Attempt.always fun memory => memory.findLine line)).runOn machine =
        (.ok (machine.memory.program.findLine? machine.memory.width line),
          { machine with memory := edited }) := by
      rw [runOn_onMemory, Attempt.runOn_always, found]
    dsimp only
    rw [Attempt.runOn_bind_ok looked]
    simp only [programText]
    cases machine.memory.program.findLine? machine.memory.width line <;> rfl

/-- `RESTORE` with a number goes to where the line begins that has it. -/
theorem runOn_restoreStatement_line {valued : Machine} {number : Single} {line : LineNumber}
    (argument : isStatementEnd before.nextToken.cursor.token = false)
    (value : value.runOn before.nextToken = (.ok number, valued))
    (denotes : LineNumber.ofSingle? number = some line)
    (remembers : valued.memory.RemembersLines) :
    ∃ memory, valued.memory.SameProgram memory ∧
      restoreStatement.runOn before =
        match (valued.programText valued.cursor.mode).findLine? valued.memory.width line with
        | some offset => (.ok (), { valued with memory, data := .search offset })
        | none => (.error (.reported { kind := .undefinedLine }), { valued with memory }) := by
  have goesOn : atEnd.runOn before.nextToken = (.ok false, before.nextToken) :=
    Prod.ext (congrArg Except.ok argument) rfl
  have told : (Range.line number).runOn valued = (.ok line, valued) := by
    rw [Range.line, denotes]
    rfl
  obtain ⟨mode, memory, same, found⟩ := runOn_findLine remembers line
  refine ⟨memory, same, ?_⟩
  rw [restoreStatement, advance, Attempt.runOn_modify_bind, Attempt.runOn_bind_ok goesOn,
    if_neg Bool.false_ne_true, Attempt.runOn_bind_ok value, Attempt.runOn_bind_ok told]
  cases place : (valued.programText valued.cursor.mode).findLine? valued.memory.width line with
  | none =>
    rw [place] at found
    exact Attempt.runOn_bind_error found _
  | some offset =>
    rw [place] at found
    rw [Attempt.runOn_bind_ok found]
    rfl

/-- The program of lines finds the lines where they stand. -/
theorem findLine?_ofBytes (sorted : LineRecord.Ascending records) {line : LineNumber} {offset : Nat}
    (found : (ProgramText.ofBytes (LineRecord.image records)).findLine? width line = some offset) :
    ∃ lower, records = lower ++ records.filter (line ≤ ·.number) ∧
      offset = (LineRecord.image lower).length := by
  obtain ⟨lower, same, higher, split⟩ := LineRecord.exists_splitAt sorted line
  rw [ProgramText.findLine?, ProgramText.lines_ofRecords, split.find?_spansFrom] at found
  refine ⟨lower, by rw [split.filter_le, ← List.append_assoc, split.cut], ?_⟩
  cases same with
  | nil => cases found
  | cons record others =>
    cases found
    rfl

/-- **What starts the data sets the place before the lines whose data come next.** -/
theorem StartsData.data_eq {start : Machine} (sorted : LineRecord.Ascending records)
    (starts : StartsData records start rest) (reads : start.ReadsFrom records) :
    ∃ lower, records = lower ++ rest ∧ start.data = .search (LineRecord.image lower).length := by
  cases starts with
  | run ran => exact ⟨[], rfl, data_runStatement ran⟩
  | restore alone ran =>
    rw [runOn_restoreStatement_alone alone] at ran
    cases ran
    exact ⟨[], rfl, rfl⟩
  | @restoreLine _ valued _ _ line argument value denotes remembers ran =>
    obtain ⟨memory, same, restored⟩ :=
      runOn_restoreStatement_line argument value denotes remembers
    rw [restored] at ran
    cases place : (valued.programText valued.cursor.mode).findLine? valued.memory.width line with
    | none =>
      rw [place] at ran
      cases ran
    | some offset =>
      rw [place] at ran
      cases ran
      have read := reads.of_sameProgram same
      rw [read.text, read.width] at place
      obtain ⟨lower, cut, rfl⟩ := findLine?_ofBytes sorted place
      exact ⟨lower, cut, rfl⟩

/-! ### The data of a program -/

/-- **Values are read once and in order.** Let the `DATA` statements of a program be lists. From
`RUN` or `RESTORE` on, whatever a host does without setting the place in the data, values are taken
from that place on in one machine after the other. As long as these machines read from the program,
the values taken so far are the first of all data that the program lists, or lists from a line on,
in their order and with their signs; the next machine takes the first of the others, and when there
is none left it says that it is out of data, and stays as it was. -/
theorem data_are_read_in_order (sorted : LineRecord.Ascending records)
    (lists : ∀ record ∈ records, Token.ListsData record.body (listed record)) {start : Machine}
    (starts : StartsData records start rest) (reads : start.ReadsFrom records) :
    (∀ later, PlaysOn start later → ∃ readers, TakesAt start.data readers later.data) ∧
    ∀ readers place, TakesAt start.data readers place →
      (∀ reader ∈ readers, reader.ReadsFrom records) →
        ∃ taken ahead, rest.flatMap listed = taken ++ ahead ∧
          readers.map (fun reader => (takeDatum.runOn reader).1) = taken.map .ok ∧
          ∀ machine : Machine, machine.data = place → machine.ReadsFrom records →
            machine.TakesFirst ahead := by
  refine ⟨fun later playsOn => playsOn.takes, fun readers place takes shown => ?_⟩
  obtain ⟨lower, cut, begins⟩ := starts.data_eq sorted reads
  have awaits : (ProgramText.ofBytes (LineRecord.image records)).Awaits width start.data
      (rest.flatMap listed) := by
    have held := ProgramText.holds_ofBytes (LineRecord.image lower) (LineRecord.image rest) []
    rw [List.append_nil, ← LineRecord.image_append, ← cut] at held
    have ends : (ProgramText.ofBytes (LineRecord.image records)).length =
        (LineRecord.image lower).length + (LineRecord.image rest).length := by
      rw [cut, LineRecord.image_append]
      exact List.length_append
    rw [begins]
    refine ProgramText.awaits_of_records (fun record member => lists record ?_) held ends
    rw [cut]
    exact List.mem_append_right _ member
  obtain ⟨taken, ahead, all, awaited, values⟩ := takes.in_order awaits fun reader member =>
    ⟨(shown reader member).width, (shown reader member).text⟩
  refine ⟨taken, ahead, all, values, ?_⟩
  rintro machine rfl read
  exact (takesFirst_of_awaits awaited read.width read.text).1

/-- Two of four values are read, and the text comes next: neither the remark nor the string that
mention `DATA` are data. -/
theorem data_are_read_in_order_signed :
    let entering (machine : Machine) (text : String) := ((enter (ascii text)).runOn machine).2
    let typed := ["10 DATA 1,-2:REM DATA 9", "20 READ A,B:PRINT \"DATA\"", "30 DATA \"X\",+4",
      "RUN"].foldl entering (start { memorySize := 128 } {})
    let first := (runStatement.runOn ((findStatementWithin 2).runOn typed).2).2
    let second := (takeDatum.runOn first).2
    let later := ((execute 5).runOn (checkpoint.runOn first).2).2
    (takeDatum.runOn first).1 = .ok (.number (.ofNat 1)) ∧
      (takeDatum.runOn second).1 = .ok (.number (Single.negate (.ofNat 2))) ∧
      (∃ readers, TakesAt first.data readers later.data) ∧
      later.TakesFirst [.text [88], .number (.ofNat 4)] := by
  intro entering typed first second later
  let numbers : LineRecord .two :=
    { number := 10
      body := [.word .data, .number (.ofNat 1), .symbol 44, .operator .minus, .number (.ofNat 2),
        .symbol 58, .word .rem, .symbol 32, .symbol 68, .symbol 65, .symbol 84, .symbol 65,
        .symbol 32, .symbol 57]
      bytes := [129, 10, 0, 189, 128, 0, 0, 128, 63, 44, 45, 128, 0, 0, 0, 64, 58, 158, 32, 68, 65,
        84, 65, 32, 57]
      storable := by decide
      encoded := by decide }
  let reading : LineRecord .two :=
    { number := 20
      body := [.word .read, .scalar ⟨65, 0⟩, .symbol 44, .scalar ⟨66, 0⟩, .symbol 58, .word .print,
        .literal [68, 65, 84, 65]]
      bytes := [129, 20, 0, 190, 131, 65, 0, 44, 131, 66, 0, 58, 140, 130, 4, 68, 65, 84, 65]
      storable := by decide
      encoded := by decide }
  let texts : LineRecord .two :=
    { number := 30
      body := [.word .data, .literal [88], .symbol 44, .operator .plus, .number (.ofNat 4)]
      bytes := [129, 30, 0, 189, 130, 1, 88, 44, 43, 128, 0, 0, 128, 64]
      storable := by decide
      encoded := by decide }
  let signed (isNegative : Bool) (value : Nat) : DataItem := .signed isNegative (.ofNat value)
  have numbersListed : Token.ListsData numbers.body
      [.number (.ofNat 1), .number (Single.negate (.ofNat 2))] := by
    refine .statement [.number (.ofNat 1), signed true 2] (by rintro _ ⟨⟩; rfl) ?_
    iterate 9 refine .other (by decide) ?_
    exact .nil
  have nothingListed : Token.ListsData reading.body [] := by
    iterate 7 refine .other (by decide) ?_
    exact .nil
  have textsListed : Token.ListsData texts.body [.text [88], .number (.ofNat 4)] :=
    .statement [.text [88], signed false 4] nofun .nil
  let listed (record : LineRecord .two) : List Datum :=
    if record.number = 10 then [.number (.ofNat 1), .number (Single.negate (.ofNat 2))]
    else if record.number = 20 then [] else [.text [88], .number (.ofNat 4)]
  let records := [numbers, reading, texts]
  have lists : ∀ record ∈ records, Token.ListsData record.body (listed record) := by
    intro record among
    simp only [records, List.mem_cons, List.not_mem_nil, or_false] at among
    rcases among with rfl | rfl | rfl
    · exact numbersListed
    · exact nothingListed
    · exact textsListed
  have seen : (runStatement.runOn ((findStatementWithin 2).runOn typed).2).1 = .ok () ∧
      (takeDatum.runOn first).1 = .ok (.number (.ofNat 1)) ∧
      (takeDatum.runOn second).1 = .ok (.number (Single.negate (.ofNat 2))) ∧
      ((executeUnless setsData 5).runOn (checkpoint.runOn first).2).1.toOption.isSome = true ∧
      later.data = (takeDatum.runOn second).2.data ∧
      ∀ machine ∈ [first, second, later], machine.memory.width = .two ∧
        machine.memory.top = (LineRecord.image records).length ∧
        LineRecord.image records <+: machine.memory.contents ∧ machine.cursor.mode = .run := by
    decide +kernel
  obtain ⟨ran, one, two, runs, left, stored⟩ := seen
  have sorted : LineRecord.Ascending records := by simp [LineRecord.Ascending, records, numbers,
    reading, texts]
  have readsFrom (machine : Machine) (among : machine ∈ [first, second, later]) :
      machine.ReadsFrom records := by
    obtain ⟨width, top, program, mode⟩ := stored machine among
    exact readsFrom_of_holdsLines ⟨width, sorted, top, program⟩ (by rw [mode]; decide)
  obtain ⟨goesOn, inOrder⟩ := data_are_read_in_order sorted lists (.run (Prod.ext ran rfl))
    (readsFrom first (by simp))
  have takes : TakesAt first.data [first, second] later.data :=
    ⟨rfl, _, second, Prod.ext one rfl, rfl, _, _, Prod.ext two rfl, left⟩
  obtain ⟨taken, ahead, all, values, next⟩ := inOrder _ _ takes fun reader among =>
    readsFrom reader (by simp at among ⊢; tauto)
  have told : [first, second].map (fun reader => (takeDatum.runOn reader).1) =
      [Datum.number (.ofNat 1), .number (Single.negate (.ofNat 2))].map .ok := by
    simp only [List.map_cons, List.map_nil, one, two]
  have firstTwo : [Datum.number (.ofNat 1), .number (Single.negate (.ofNat 2))] = taken :=
    List.map_injective_iff.mpr (fun _ _ => Except.ok.inj) (told.symm.trans values)
  have lastTwo : [Datum.text [88], .number (.ofNat 4)] = ahead :=
    List.append_cancel_left (all.trans (congrArg (· ++ ahead) firstTwo.symm))
  refine ⟨one, two, goesOn _ ((PlaysOn.refl.checkpoint).execute_of_isSome runs), ?_⟩
  rw [lastTwo]
  exact next later rfl (readsFrom later (by simp))

/-- A list of data is not ended by an `ELSE`: after its values comes a syntax error, although a
`DATA` statement follows. -/
theorem else_breaks_data_list :
    let entering (machine : Machine) (text : String) := ((enter (ascii text)).runOn machine).2
    let typed := ["10 IF 0 THEN DATA 1 ELSE PRINT 3", "20 DATA 2", "30 READ A,B",
      "RUN"].foldl entering (start { memorySize := 128 } {})
    let first := (runStatement.runOn ((findStatementWithin 2).runOn typed).2).2
    let second := (takeDatum.runOn first).2
    (takeDatum.runOn first).1 = .ok (.number (.ofNat 1)) ∧
      (takeDatum.runOn second).1 = .error (.reported { kind := .syntaxError }) ∧
      ((execute 9).runOn first).1 =
        .ok (.failed { kind := .syntaxError, line := some 30 }) := by
  decide +kernel

end Machine

end PocketBasic
