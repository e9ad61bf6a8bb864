/-
**A program begins its own loops.** A program that does not edit itself, and into which nothing is
poked, only comes to places where its tokens begin. So every loop that it begins stands in its text,
where it can be counted; and if there is room for as many, it never fails because of them. Loops and
subroutines under way go on at such places as well.

* `ProgramText.loopKeys`: the loops that begin in a text; `ProgramText.isQuiet`: whether nothing in
  it edits the program, or could;
* `Machine.IsWithin.loopKey?_mem`: a loop that begins is one of them;
* `Machine.DoAlike`, `Machine.runOn_stepUnless`: what never begins within a program need not be
  forbidden there;
* `Machine.IsWithin.of_turns`: what happens behind errors included, a run stays within its program;
* **`Machine.places_stay_at_tokens`**, **`Machine.own_loops_find_room`**: a program that `RUN`
  starts goes on at its tokens, and finds room for its loops.
-/

import Mathlib.Data.List.Dedup
import PocketBasic.Proofs.Machine.LoopFrames
import PocketBasic.Proofs.Machine.Resuming
import PocketBasic.Proofs.Machine.Restarting
import PocketBasic.Proofs.Machine.WithinProgram

namespace PocketBasic

/-! ### What stands in a text -/

namespace ProgramText

variable (text : ProgramText) (width : AddressWidth)

/-- The loop that the statement at a place of the program begins. -/
def loopKeyAt? (offset : Nat) : Option LoopKey :=
  let read := text.decode width offset
  let behind : Location := { mode := .run, offset := read.2 }
  match read.1, (text.decode width read.2).1 with
  | .word .for, .scalar counter => some (.for counter)
  | .word .while, _ => some (.while behind)
  | .word .repeat, _ => some (.repeat behind)
  | _, _ => none

/-- The loops that begin in a text. -/
def loopKeys : List LoopKey := (text.boundaries width).filterMap (text.loopKeyAt? width)

/-- Whether a loop begins in a text. -/
def hasLoop (key : LoopKey) : Bool := key ∈ text.loopKeys width

/-- Whether the statement at a place edits the program, or could. -/
def meddlesAt (offset : Nat) : Bool :=
  let read := text.decode width offset
  read.1 = .word .poke || read.1.editsProgram (text.decode width read.2).1

/-- Whether no statement of a text edits the program, or could. -/
def isQuiet : Bool := (text.boundaries width).all fun offset => !text.meddlesAt width offset

end ProgramText

namespace Machine

open Conduct (within)

variable {α β : Type} {config : Config} {text : ProgramText} {machine middle after failed : Machine}
  {forbids : Machine → Bool} {error : Error} {count : Nat}

/-! ### What begins within a program -/

namespace IsWithin

variable (before : machine.IsWithin config text true)

include before

/-- Where there is a token, it is one of the text, and so is the next one. -/
theorem reads (some : machine.cursor.token ≠ .endOfText) :
    machine.cursor.tokenOffset ∈ text.boundaries config.width ∧
    text.decode config.width machine.cursor.tokenOffset =
      (machine.cursor.token, machine.cursor.offset) ∧
    machine.nextToken.cursor.token = (text.decode config.width machine.cursor.offset).1 ∧
    machine.nextToken.cursor.location = { mode := .run, offset := machine.cursor.offset } := by
  have running := before.mode_eq some
  obtain ⟨boundary, decoded⟩ := before.token rfl running
  rw [before.program, before.width_eq] at boundary decoded
  have inside : machine.cursor.tokenOffset < text.length := by
    by_contra past
    rw [ProgramText.decode_of_length_le (Nat.not_lt.mp past)] at decoded
    exact some (congrArg Prod.fst decoded).symm
  have program : machine.programText .run = text := before.program
  refine ⟨ProgramText.mem_boundaries boundary inside, decoded, ?_⟩
  rw [nextToken_eq, Cursor.next, running]
  dsimp only [Cursor.location]
  rw [program, before.width_eq]
  exact ⟨rfl, rfl⟩

/-- **A loop that begins stands in the text.** -/
theorem loopKey?_mem {key : LoopKey} (begins : machine.loopKey? = some key) :
    key ∈ text.loopKeys config.width := by
  have token : machine.cursor.token ≠ .endOfText := by
    intro last
    rw [loopKey?, last] at begins
    cases begins
  obtain ⟨among, decoded, next, behind⟩ := before.reads token
  refine List.mem_filterMap.mpr ⟨_, among, ?_⟩
  rw [← begins]
  simp only [ProgramText.loopKeyAt?, decoded, ← behind, ← next]
  rfl

theorem not_beginsBeside : machine.beginsBeside (text.hasLoop config.width) = false := by
  rw [beginsBeside]
  cases begins : machine.loopKey? with
  | none => rfl
  | some key => simpa [ProgramText.hasLoop] using before.loopKey?_mem begins

/-- **In a quiet text no statement edits the program.** -/
theorem not_meddles (quiet : text.isQuiet config.width = true) :
    machine.meddles = false := by
  by_cases last : machine.cursor.token = .endOfText
  · rw [meddles, editsProgram, last]
    rfl
  · obtain ⟨among, decoded, next, -⟩ := before.reads last
    have still := List.all_eq_true.mp quiet _ among
    rw [ProgramText.meddlesAt, decoded, ← next] at still
    exact Bool.not_eq_true' _ ▸ still

end IsWithin

/-! ### What need not be forbidden -/

/-- Whether two steps do the same within a program. -/
def DoAlike (config : Config) (text : ProgramText) (step other : Action α) : Prop :=
  ∀ machine : Machine, machine.IsWithin config text true →
    step.runOn machine = other.runOn machine

namespace DoAlike

theorem refl (step : Action α) : DoAlike config text step step := fun _ _ => rfl

theorem behind {step : Action α} {next others : α → Action β}
    (obeys : step.Obeys (within config text true))
    (second : ∀ value, DoAlike config text (next value) (others value)) :
    DoAlike config text (step >>= next) (step >>= others) := by
  intro machine before
  rcases ran : step.runOn machine with ⟨failure | value, after⟩
  · rw [Attempt.runOn_bind_error ran, Attempt.runOn_bind_error ran]
  · rw [Attempt.runOn_bind_ok ran, Attempt.runOn_bind_ok ran]
    exact second value after ((obeys machine).moves ran before)

theorem bind {step other : Action α} (first : DoAlike config text step other)
    (next : α → Action β) : DoAlike config text (step >>= next) (other >>= next) := by
  intro machine before
  rw [Attempt.runOn_bind, Attempt.runOn_bind, first machine before]

end DoAlike

theorem isCongruent_doAlike : IsCongruent (within config text true) (DoAlike config text) :=
  ⟨.refl, .behind⟩

section Roomy

variable [config.IsRoomy]
  (never : ∀ machine : Machine, machine.IsWithin config text true → forbids machine = false)

include never

theorem doAlike_statementUnlessWithin (fuel : Nat) :
    DoAlike config text (statementUnlessWithin forbids fuel) (statementWithin fuel) := by
  induction fuel with
  | zero => exact .refl _
  | succ fuel ih =>
    intro machine before
    rw [statementUnlessWithin, Attempt.runOn_get_bind, never machine before]
    exact isCongruent_doAlike.statementWith ih machine before

/-- **What never begins within a program need not be forbidden there.** -/
theorem runOn_stepUnless (before : machine.IsWithin config text true) :
    (stepUnless forbids).runOn machine = step.runOn machine := by
  have statements : DoAlike config text (statementUnless forbids) statement :=
    .behind .get fun _ => doAlike_statementUnlessWithin never _
  have steps : DoAlike config text (stepUnless forbids) step := by
    refine .behind .get fun machine => .behind (obeys_findStatementWithin _) fun found => ?_
    refine related_ite (.behind ?_ fun _ => statements.bind _) (.refl _)
    exact .modify fun machine before => before.of_same rfl rfl rfl rfl rfl
  exact steps machine before

end Roomy

/-! ### Behind an error -/

/-- Where a statement is found there is a token. -/
theorem ends_findStatementWithin (fuel : Nat) (machine : Machine) :
    (findStatementWithin fuel).Ends machine
      (fun begins after => begins = true → after.cursor.token ≠ .endOfText) fun _ _ => True := by
  induction fuel generalizing machine with
  | zero => exact trivial
  | succ fuel ih =>
    refine .ok_bind (rfl : token.runOn machine = (.ok machine.cursor.token, machine)) ?_
    split
    · exact nofun
    · exact .modify_bind (ih _)
    · refine .get_bind (.ite (fun _ => ?_) fun _ => .modify_bind (ih _))
      exact (Attempt.Ends.unknown _ _).bind fun _ _ _ => .modify_bind (ih _)
    · rename_i other _ _
      exact fun _ => other

/-- **A handler goes on at a token of the program**, at the line that it names or behind the
statement that failed. -/
theorem HasProgram.of_unwind [config.IsRoomy] (reads : failed.HasProgram config text)
    (start : failed.Admits true failed.statementStart)
    (unwound : (unwind error).runOn failed = (.ok none, after)) :
    after.IsWithin config text true := by
  have ends : (unwind error).Ends failed
      (fun outcome after => outcome = none → after.IsWithin config text true)
      fun _ _ => True := by
    refine .get_bind (.ite (fun _ => ?_) fun _ => .modify_bind ?_)
    · exact (Attempt.Ends.unknown _ _).bind fun _ _ _ => nofun
    let passed (handler : Option Handler) : Machine :=
      { failed.abandon false with lastError := error.kind.code, handler }
    have still (handler : Option Handler) : (passed handler).HasProgram config text :=
      ⟨reads.remembers.of_same rfl rfl, reads.program, reads.mode, reads.typed⟩
    have empty (handler : Option Handler) : (passed handler).AdmitsFrames true := .of_nil rfl rfl
    split
    · rename_i line _
      have goes := ((still none).ends_gotoLine (empty none) line).caught
      refine .modify_bind ((goes.mono (fun _ _ => id) fun _ _ _ => trivial).bind ?_)
      intro result after reached
      cases result with
      | ok _ => exact fun _ => reached
      | error missing => exact (Attempt.Ends.unknown _ _).bind fun _ _ _ => nofun
    · have back := IsWithin.jump (still failed.handler) (empty failed.handler) start
      have skips : (modify (skipTo Token.isTerminator) : Action Unit).Obeys
        (within config text true) := obeys_skipTo _
      exact .modify_bind (.modify_bind (.modify_bind fun _ => skips _ back))
    · exact (Attempt.Ends.unknown _ _).bind fun _ _ _ => nofun
  exact ends.kept unwound rfl

/-! ### Runs -/

namespace IsWithin

variable [config.IsRoomy] (before : machine.IsWithin config text true)

include before

/-- **A turn of a run stays within a quiet program.** -/
theorem of_turn (quiet : text.isQuiet config.width = true) (turn : Turn machine after) :
    after.IsWithin config text true := by
  have same := runOn_stepUnless (fun _ within => within.not_meddles quiet) before
  cases turn with
  | done ran => exact (within_stepUnless machine).moves (same.trans ran) before
  | @handled error failed fails unwound =>
    have behind : failed.IsWithin config text false :=
      (within_stepUnless machine).fails (same.trans fails) before.of_exactly rfl
    obtain ⟨found, looked, began, -⟩ := fails_cases fails
    have searches : (findStatementWithin (machine.textLength + 2)).Obeys
      (within config text true) := obeys_findStatementWithin _
    have there : found.IsWithin config text true := (searches machine).moves looked before
    have some := (ends_findStatementWithin _ machine).kept looked rfl
    refine behind.toHasProgram.of_unwind ?_ unwound
    rw [began]
    exact there.admits_later (there.mode_eq some) behind.toHasProgram

theorem of_turns (quiet : text.isQuiet config.width = true)
    (turns : Turns count machine after) : after.IsWithin config text true := by
  induction turns with
  | none => exact before
  | next turn _ ih => exact ih (before.of_turn quiet turn)

end IsWithin

/-- **A turn of a run keeps the loops of the text different.** -/
theorem KeepsLoops.of_turn [config.IsRoomy]
    (keeps : machine.KeepsLoops config (text.hasLoop config.width))
    (before : machine.IsWithin config text true) (turn : Turn machine after) :
    after.KeepsLoops config (text.hasLoop config.width) := by
  have same := runOn_stepUnless (fun _ within => within.not_beginsBeside) before
  have steps := obeys_stepUnless
    (Conduct.Refines.refl (.keepsLoops config (text.hasLoop config.width))) obeys_servePins
  cases turn with
  | done ran => exact (steps machine).moves (same.trans ran) keeps
  | @handled error failed fails unwound =>
    have behind := ((steps machine).fails (same.trans fails) keeps).1
    have unwinds : (unwind error).ObeysFrom (.keepsLoops config (text.hasLoop config.width))
        failed := obeysFrom_unwind recovers_keepsLoops fun _ keeps =>
      (keeps.of_sublist (List.nil_sublist _)).of_same rfl rfl rfl rfl
    exact unwinds.moves unwound behind

theorem KeepsLoops.of_turns [config.IsRoomy]
    (keeps : machine.KeepsLoops config (text.hasLoop config.width))
    (before : machine.IsWithin config text true) (quiet : text.isQuiet config.width = true)
    (turns : Turns count machine after) : after.KeepsLoops config (text.hasLoop config.width) := by
  induction turns with
  | none => exact keeps
  | next turn _ ih => exact ih (keeps.of_turn before turn) (before.of_turn quiet turn)

/-! ### From `RUN` on -/

/-- What can be reached where something is refused can be reached. -/
theorem Reaches.reachesUnless {refused : List Hazard} {first : Machine}
    (reaches : Reaches refused first machine) :
    ReachesUnless (fun _ => false) True first machine := by
  induction reaches with
  | refl => exact .refl
  | devices host _ ih => exact .devices host ih
  | enter text _ ih => exact .enter text ih
  | execute _ ran ih =>
    have same := execute_of_executeWithout ran
    rw [execute_eq, ← stepUnless_none] at same
    exact .execute ih same
  | autorun _ ih => exact .autorun trivial ih
  | restart _ ih => exact .restart trivial ih

/-- The end of a step obeys what statements and pins do. -/
theorem obeys_stepEnd {conduct : Conduct Machine} [conduct.Performs] [conduct.Departs]
    [∀ repeats, conduct.SetsTimer repeats] (serves : servePins.Obeys conduct) : (do
      if !(← atEnd) then Attempt.fail .syntaxError
      checkpoint
      return true : Action Bool).Obeys conduct := by
  have checks : (do
      checkpoint
      return true : Action Bool).Obeys conduct :=
    (obeys_checkpoint (.refl conduct) serves).bind fun _ => .pure _
  exact obeys_atEnd.bind fun _ => .ite ((obeys_fail (by decide)).bind fun _ => checks) checks

variable [config.IsRoomy] {host : Host} {line : TypedLine} {first last : Machine}

/-- **A program that `RUN` starts is read from its beginning**, with no loop under way. -/
theorem isWithin_of_run (reaches : Reaches [.poke] (start config host) machine)
    (begins : line.next.1 = .word .run) (alone : isStatementEnd line.next.2.next.1 = true)
    (ran : step.runOn (machine.typed line) = (.ok true, first)) :
    first.IsWithin config machine.memory.program true ∧
      first.KeepsLoops config (machine.memory.program.hasLoop config.width) := by
  have remembers := reaches.remembers
  have keeps : machine.KeepsLoops config fun _ => true := by
    have never : (fun _ => false) = beginsBeside fun _ => true := by
      funext machine
      simp [beginsBeside]
    have reached := reaches.reachesUnless
    rw [never] at reached
    exact (keepsLoops_start config host).of_reachesUnless reached
  obtain ⟨records, held, -⟩ := remembers.intact.memory.objects
  obtain ⟨cleared, clears, -⟩ := held.clearHeap remembers.intact.memory.below
  have dropped : (onMemory Memory.clearHeap).runOn machine =
      (.ok (), { machine with memory := cleared }) := by
    rw [runOn_onMemory, clears]
  have stays : machine.StaysPut config { machine with memory := cleared } :=
    (staysPut_clearHeap machine).moves dropped remembers.intact
  rw [runOn_step_typed begins alone clears] at ran
  generalize begun : started cleared line.next.2.next.2 _ = second at ran
  have within : second.IsWithin config machine.memory.program true := by
    subst begun
    have there := remembers.of_staysPut stays
    exact IsWithin.jump (.of_running (there.of_same rfl rfl) stays.program.program rfl)
      (.of_nil rfl rfl) (.run ProgramText.isBoundary_zero)
  have none : second.KeepsLoops config (machine.memory.program.hasLoop config.width) := by
    subst begun
    rw [started, jump_eq]
    exact
      { config_eq := keeps.config_eq
        capacity := keeps.capacity
        operands := keeps.operands
        returns := keeps.returns
        nodup := List.nodup_nil
        among := fun key listed => absurd listed List.not_mem_nil }
  exact ⟨(obeys_stepEnd within_servePins second).moves ran within,
    (@obeys_stepEnd (.keepsLoops config _) _ _ _ obeys_servePins second).moves ran none⟩

/-- **Places stay at tokens.** A program is started by `RUN`, on a machine on which no `POKE` was
done before, and no statement of the program edits it, or could. However long it runs, it is the
same program, and loops and subroutines under way go on where a token of it begins, as long as they
were not begun in a typed line. -/
theorem places_stay_at_tokens (reaches : Reaches [.poke] (start config host) machine)
    (begins : line.next.1 = .word .run) (alone : isStatementEnd line.next.2.next.1 = true)
    (quiet : machine.memory.program.isQuiet config.width = true)
    (ran : step.runOn (machine.typed line) = (.ok true, first)) (turns : Turns count first last) :
    last.memory.program = machine.memory.program ∧
      (∀ loop ∈ last.loops.entries, last.Admits true loop.resume) ∧
      ∀ frame ∈ last.returns.entries, last.Admits true frame.resume := by
  have within := (isWithin_of_run reaches begins alone ran).1.of_turns quiet turns
  exact ⟨within.program, within.frames.loops, within.frames.returns⟩

/-- **A program finds room for its loops.** A program is started by `RUN`, on a machine on which no
`POKE` was done before, and no statement of the program edits it, or could. If no more different
loops stand in its text than may be under way at once, then no statement of it fails because there
are too many loops, whatever jumps, errors and handlers there are. -/
theorem own_loops_find_room (reaches : Reaches [.poke] (start config host) machine)
    (begins : line.next.1 = .word .run) (alone : isStatementEnd line.next.2.next.1 = true)
    (quiet : machine.memory.program.isQuiet config.width = true)
    (few : (machine.memory.program.loopKeys config.width).dedup.length ≤ config.loopDepth)
    (ran : step.runOn (machine.typed line) = (.ok true, first)) (turns : Turns count first last)
    (fails : step.runOn last = (.error (.reported error), failed)) : ¬ error.BlamesLoops := by
  obtain ⟨within, none⟩ := isWithin_of_run reaches begins alone ran
  have still := within.of_turns quiet turns
  have room : config.HasRoomFor (machine.memory.program.hasLoop config.width) :=
    fun keys different among => Config.hasRoomFor_of_length few keys different fun key listed =>
      decide_eq_true (List.mem_dedup.mpr (of_decide_eq_true (among key listed)))
  have same := runOn_stepUnless (fun _ within => within.not_beginsBeside) still
  exact (none.of_turns within quiet turns).not_blamesLoops room (same.trans fails)

/-- Two loops that a jump begins again and again, with room for two. -/
example :
    let entering (machine : Machine) (text : String) := ((enter (ascii text)).runOn machine).2
    let machine := ["10 FOR I=1 TO 2", "20 FOR J=1 TO 2", "30 GOTO 10"].foldl entering
      (start { memorySize := 128, loopDepth := 2 } {})
    let first := (step.runOn (machine.typed (TypedLine.ofText (ascii "RUN") true))).2
    ∀ count last, Turns count first last → ∀ error failed,
      step.runOn last = (.error (.reported error), failed) → ¬ error.BlamesLoops := by
  intro entering machine first count last turns error failed fails
  have roomy : Config.IsRoomy { memorySize := 128, loopDepth := 2 } := ⟨by decide, by decide⟩
  have reaches : Reaches [.poke] (start { memorySize := 128, loopDepth := 2 } {}) machine :=
    .enter _ (.enter _ (.enter _ .refl))
  obtain ⟨begins, alone, quiet, few, ran⟩ :
      let line := TypedLine.ofText (ascii "RUN") true
      line.next.1 = .word .run ∧ isStatementEnd line.next.2.next.1 = true ∧
        machine.memory.program.isQuiet .two = true ∧
        (machine.memory.program.loopKeys .two).dedup.length ≤ 2 ∧
        (step.runOn (machine.typed line)).1 = .ok true := by decide +kernel
  exact own_loops_find_room reaches begins alone quiet few (Prod.ext ran rfl) turns fails

end Machine

end PocketBasic
