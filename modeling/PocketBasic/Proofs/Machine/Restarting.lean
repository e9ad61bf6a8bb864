/-
**`RUN` starts afresh.** It drops variables, stacks, the handler, timers and pins, and goes to the
first line. What it keeps are the settings, the program, the memory that is free, the devices and
the random numbers, and two things that a program cannot ask for but come to light: what timers that
are turned off were set to do, and which lines were looked up before a `POKE` changes their numbers.

* `Machine.StartsLike`: what two machines share so that `RUN` makes them the same machine;
* `Machine.started`, `Machine.runOn_runStatement`: the machine that `RUN` makes;
* **`Machine.run_starts_afresh`**: from a typed `RUN` on the two machines do the same;
* `Machine.run_remembers_response`: timers do not start afresh.
-/

import Mathlib.Tactic.MkIffOfInductiveProp
import PocketBasic.Machine.Run
import PocketBasic.Proofs.Attempt
import PocketBasic.Proofs.Token.Readings

namespace PocketBasic

namespace Machine

variable {left right machine : Machine}

/-! ### What `RUN` keeps -/

/-- What two machines share so that `RUN` makes them the same machine. Variables, the handler, pins,
the last error, the data, the place of `CONT` and everything that is under way may differ. -/
@[mk_iff]
structure StartsLike (left right : Machine) : Prop where
  config : left.config = right.config
  clears : (Memory.clearHeap.runOn left.memory).1 = .ok ()
  /-- Without variables the memories are the same: the program, the lines that were looked up in it,
  and the bytes that belong to nothing, in which the cells `@(index)` lie. -/
  memory : Memory.clearHeap.runOn left.memory = Memory.clearHeap.runOn right.memory
  host : left.host = right.host
  operands : left.operands.clear = right.operands.clear
  depth : left.depth = right.depth
  loops : left.loops.clear = right.loops.clear
  returns : left.returns.clear = right.returns.clear
  /-- Timers keep intervals and responses when they are turned off. -/
  timers : left.timers.disabled = right.timers.disabled
  input : left.input = right.input
  output : left.output = right.output
  fieldWidth : left.fieldWidth = right.fieldWidth
  random : left.random = right.random
  seed : left.seed = right.seed
  isTracing : left.isTracing = right.isTracing
  left_pending : left.pending = none
  right_pending : right.pending = none

instance : Decidable (left.StartsLike right) := decidable_of_iff' _ (startsLike_iff left right)

/-- A machine at the first line of its program, with nothing else than `RUN` keeps. The typed line
was read as far as the token behind `RUN`. -/
def started (memory : Memory) (line : TypedLine) (machine : Machine) : Machine :=
  jump { mode := .run, offset := 0 }
    { machine with
      memory
      cursor := { mode := .run, line }
      operands := machine.operands.clear
      loops := machine.loops.clear
      returns := machine.returns.clear
      bookmark := none
      handler := none
      lastError := 0
      deviceFailed := false
      timers := machine.timers.disabled
      pins := {}
      data := .search 0
      continuation := none }

/-- Machines that share what `RUN` keeps are the same once it has begun. -/
theorem StartsLike.started_eq (like : left.StartsLike right) (memory : Memory) (line : TypedLine)
    (start : Location) :
    started memory line { left with statementStart := start, isIdle := false } =
      started memory line { right with statementStart := start, isIdle := false } := by
  simp only [started, like.config, like.host, like.operands, like.depth, like.loops, like.returns,
    like.timers, like.input, like.output, like.fieldWidth, like.random, like.seed, like.isTracing,
    like.left_pending, like.right_pending]

/-! ### `RUN` -/

/-- `RUN` in a typed line. -/
theorem runOn_runStatement {cleared : Memory}
    (clears : Memory.clearHeap.runOn machine.memory = (.ok (), cleared))
    (mode : machine.cursor.mode = .interactive)
    (alone : isStatementEnd machine.cursor.line.next.1 = true) :
    runStatement.runOn machine = (.ok (), machine.started cleared machine.cursor.line.next.2) := by
  have advanced : machine.nextToken = { machine with
      cursor :=
        { machine.cursor with
          line := machine.cursor.line.next.2, token := machine.cursor.line.next.1
          tokenOffset := machine.cursor.line.position } } := by
    rw [nextToken_eq, Cursor.next]
    simp only [mode]
  have nameless : loadNamed.runOn machine.nextToken = (.ok false, machine.nextToken) := by
    rw [loadNamed, token, bind_assoc, Attempt.runOn_get_bind, pure_bind, advanced]
    dsimp only
    split
    · rename_i name literal
      rw [literal] at alone
      cases alone
    · rfl
  have ends : atEnd.runOn machine.nextToken = (.ok true, machine.nextToken) := by
    rw [atEnd, token, bind_assoc, Attempt.runOn_get_bind, pure_bind, advanced]
    exact congrArg (fun ends => (Except.ok ends, _)) alone
  have clearing : (onMemory Memory.clearHeap).runOn machine.nextToken =
      (.ok (), { machine.nextToken with memory := cleared }) := by
    rw [onMemory, Attempt.within, Attempt.runOn_ofRun]
    have memory : machine.nextToken.memory = machine.memory := by rw [advanced]
    simp only [memory, clears]
  rw [runStatement, advance, Attempt.runOn_modify_bind, Attempt.runOn_bind_ok nameless,
    Attempt.runOn_bind_ok ends]
  dsimp only
  rw [if_pos rfl, Attempt.runOn_pure_bind, Attempt.runOn_get_bind, clear, bind_assoc,
    Attempt.runOn_bind_ok clearing, Attempt.runOn_modify_bind, Attempt.runOn_modify_bind, advanced]
  simp only [mode]
  rfl

/-- The machine that is about to do a typed line. -/
def typed (line : TypedLine) (machine : Machine) : Machine :=
  { machine with
    cursor :=
      { machine.cursor with
        mode := .interactive, line := line.next.2, token := line.next.1
        tokenOffset := line.position }
    isIdle := false }

/-- Machines that are about to run do the same if their first steps are the same. -/
theorem runOn_execute_congr (left right : Machine)
    (leftReady : left.pending = none ∧ left.isIdle = false)
    (rightReady : right.pending = none ∧ right.isIdle = false)
    (same : step.runOn left = step.runOn right) (cycles : Nat) :
    (execute (cycles + 1)).runOn left = (execute (cycles + 1)).runOn right := by
  have caught : step.caught.runOn left = step.caught.runOn right := by
    rw [Attempt.caught, Attempt.runOn_ofRun, Attempt.runOn_ofRun, same]
  rw [execute, Attempt.runOn_get_bind, Attempt.runOn_get_bind]
  simp only [leftReady.1, leftReady.2, rightReady.1, rightReady.2, Bool.false_eq_true, if_false]
  rw [run, Attempt.runOn_bind_eq_goOn, Attempt.runOn_bind_eq_goOn, caught]

variable {text : Bytes} {line : TypedLine}

/-- A typed line that begins with a word is made ready. -/
theorem runOn_enter {word : Keyword} (begins : line.next.1 = .word word)
    (typing : line = TypedLine.ofText text (!machine.config.wholeNumbers)) :
    (enter text).runOn machine = (.ok true, machine.typed line) := by
  subst typing
  obtain ⟨rest, tokens⟩ := TypedLine.exists_tokens_ofText (by rw [begins]; exact Token.noConfusion)
  rw [begins] at tokens
  rw [enter, Attempt.runOn_get_bind]
  dsimp only
  rw [tokens]
  dsimp only
  rw [prepare, Attempt.runOn_modify_bind, nextToken_eq, Attempt.runOn_pure]
  rfl

/-- The word is found at once. -/
theorem runOn_findStatementWithin_typed {word : Keyword} (begins : line.next.1 = .word word)
    (fuel : Nat) :
    (findStatementWithin (fuel + 1)).runOn (machine.typed line) =
      (.ok true, machine.typed line) := by
  rw [findStatementWithin, token, bind_assoc, Attempt.runOn_get_bind, pure_bind,
    show (machine.typed line).cursor.token = .word word from begins]
  rfl

section Typed

variable (begins : line.next.1 = .word .run) (alone : isStatementEnd line.next.2.next.1 = true)

include begins alone in
/-- A step of a machine that is about to do a typed `RUN`. -/
theorem runOn_step_typed {cleared : Memory}
    (clears : Memory.clearHeap.runOn machine.memory = (.ok (), cleared)) :
    step.runOn (machine.typed line) = (do
        if !(← atEnd) then Attempt.fail .syntaxError
        checkpoint
        return true : Action Bool).runOn
      (started cleared line.next.2.next.2
        { machine with
          statementStart := { mode := .interactive, offset := line.position }
          isIdle := false }) := by
  have word : (machine.typed line).cursor.token = .word .run := begins
  have runs :
      statement.runOn { machine.typed line with
        statementStart := (machine.typed line).cursor.location } =
      runStatement.runOn { machine.typed line with
        statementStart := (machine.typed line).cursor.location } := by
    rw [statement, Attempt.runOn_get_bind, statementWithin, statementWith, token, bind_assoc,
      Attempt.runOn_get_bind, pure_bind]
    dsimp only
    rw [word]
    rfl
  have ran := runs.trans (runOn_runStatement clears rfl alone)
  rw [step, Attempt.runOn_get_bind,
    Attempt.runOn_bind_ok (runOn_findStatementWithin_typed begins _)]
  dsimp only
  rw [if_pos rfl, Attempt.runOn_modify_bind, Attempt.runOn_bind_ok ran]
  rfl

include begins alone in
/-- **`RUN` starts afresh.** Machines that share what `RUN` keeps do the same from a typed `RUN` on,
and are the same machine after any number of statements. -/
theorem run_starts_afresh (like : left.StartsLike right)
    (typing : line = TypedLine.ofText text (!left.config.wholeNumbers)) (cycles : Nat) :
    (execute (cycles + 1)).runOn ((enter text).runOn left).2 =
      (execute (cycles + 1)).runOn ((enter text).runOn right).2 := by
  have leftClears : Memory.clearHeap.runOn left.memory = (.ok (), _) := Prod.ext like.clears rfl
  have rightClears := like.memory.symm.trans leftClears
  rw [runOn_enter begins typing, runOn_enter begins (like.config ▸ typing)]
  refine runOn_execute_congr (left.typed line) (right.typed line) ⟨like.left_pending, rfl⟩
    ⟨like.right_pending, rfl⟩ ?_ cycles
  rw [runOn_step_typed begins alone leftClears, runOn_step_typed begins alone rightClears,
    like.started_eq]

end Typed

/-- A machine with a loop, and one with a handler. -/
theorem run_starts_afresh_handler :
    let typing (machine : Machine) (text : String) :=
      ((execute 2).runOn ((enter (ascii text)).runOn machine).2).2
    let stored := typing (start { memorySize := 48 } {}) "10 PRINT A"
    let left := typing stored "FOR A=1 TO 2"
    let right := typing stored "ERROR CONT"
    let line := TypedLine.ofText (ascii "RUN") true
    line.next.1 = .word .run ∧ isStatementEnd line.next.2.next.1 = true ∧
      left.StartsLike right ∧ left.memory ≠ right.memory ∧ left.handler ≠ right.handler ∧
      ∀ cycles, (execute (cycles + 1)).runOn ((enter (ascii "RUN")).runOn left).2 =
        (execute (cycles + 1)).runOn ((enter (ascii "RUN")).runOn right).2 := by
  intro typing stored left right line
  have like : left.StartsLike right := by decide +kernel
  obtain ⟨begins, alone, typed, different⟩ : line.next.1 = .word .run ∧
      isStatementEnd line.next.2.next.1 = true ∧
      line = TypedLine.ofText (ascii "RUN") (!left.config.wholeNumbers) ∧
      left.memory ≠ right.memory ∧ left.handler ≠ right.handler := by decide +kernel
  exact ⟨begins, alone, like, different.1, different.2,
    fun cycles => run_starts_afresh begins alone like typed cycles⟩

/-- A line that was looked up is still found when the program gives it another number with
`POKE`. -/
example :
    let typing (machine : Machine) (text : String) :=
      ((execute 4).runOn ((enter (ascii text)).runOn machine).2).2
    let host : Host := { streams := [(Channel.console, {})] }
    let stored := ["1 POKE 23,3:GOTO 2", "2 PRINT 1"].foldl typing
      (start { memorySize := 48 } host)
    let printed (text : String) := (typing (typing stored text) "RUN").host.takeOutput.1
    printed "RESTORE" = [(Channel.console, [])] ∧
      printed "RESTORE 2" = [(Channel.console, ascii "1\n")] := by
  decide +kernel

/-- A timer that the program sets again does what it was set to do before `RUN`: two machines that
differ in nothing else print different numbers. -/
theorem run_remembers_response :
    let typing (machine : Machine) (text : String) :=
      ((execute 5).runOn ((enter (ascii text)).runOn machine).2).2
    let host : Host := { streams := [(Channel.console, {})] }
    let stored := ["10 AFTER 1", "20 PRINT 1:END", "30 PRINT 2"].foldl typing
      (start { memorySize := 48 } host)
    let left := typing stored "AFTER 100"
    let right := typing stored "AFTER 100 GOTO 30"
    let printed (machine : Machine) := (typing machine "RUN").host.takeOutput.1
    StartsLike { left with timers := right.timers } right ∧
      printed left = [(Channel.console, ascii "1\n")] ∧
      printed right = [(Channel.console, ascii "2\n")] := by
  decide +kernel

end Machine

end PocketBasic
