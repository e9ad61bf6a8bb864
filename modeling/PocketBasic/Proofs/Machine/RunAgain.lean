/-
**`RUN` is heedless of the lines that were looked up.** Without `POKE` the lines are where they are
remembered, so whether one is remembered makes no difference to a program. Machines that differ in
this do the same from a typed `RUN` on, for one when a program that was run is run again.

* `Disguise.anySlots`: any lines are remembered, as long as none is looked up;
* `Disguise.trueSlots`: lines are remembered where they are;
* `Machine.endsAlike_run`: the steps with a typed `RUN`;
* **`Machine.run_ignores_lookups`**: from a typed `RUN` on two machines do the same, whatever lines
  were looked up before.
-/

import PocketBasic.Proofs.Machine.HeedlessRuns
import PocketBasic.Proofs.Machine.KeptTexts
import PocketBasic.Proofs.Machine.Restarting
import PocketBasic.Proofs.Machine.Sparing

namespace PocketBasic

namespace Disguise

open Machine

variable {α : Type} {config : Config} {machine : Machine} {guise : Guise}

/-! ### Any lines -/

/-- The disguise of a machine that looks no line up: any lines may be remembered. -/
def anySlots : Disguise where
  hides machine guise :=
    guise.line = machine.cursor.line ∧ guise.continuation = machine.continuation
  admits _ := True

/-- With other lines remembered, a machine that stops has nothing else that is different. -/
theorem halt_wearing (same : guise.line = machine.cursor.line ∧
      guise.continuation = machine.continuation) :
    (machine.wearing guise).halt = machine.halt.wearing
      { line := TypedLine.empty, continuation := machine.continuation, slots := guise.slots } := by
  rw [← same.2]
  rfl

instance accesses_anySlots : anySlots.Accesses where
  stored _ := trivial
  goesOn _ := ⟨trivial, fun _ _ => trivial, fun _ _ => trivial, fun _ _ => trivial, trivial⟩
  typed hides _ := hides
  change hides _ _ _ line continuation _ := ⟨line hides.1, continuation hides.2⟩
  halt hides _ := by
    rw [halt_wearing hides]
    exact .hidden _ ⟨rfl, rfl⟩ fun _ _ => trivial
  memory {_ step} ignorant machine guise hides := by
    obtain ⟨slots, ran⟩ := ignorant machine.memory guise.slots
    rw [runOn_onMemory, runOn_onMemory,
      show (machine.wearing guise).memory = machine.memory.withSlots guise.slots from rfl, ran]
    exact .hidden { guise with slots } hides fun _ _ => trivial

/-! ### Lines that are remembered where they are -/

/-- The disguise of a machine in which lines are remembered where they are. -/
def trueSlots (config : Config) : Disguise where
  hides machine guise := anySlots.hides machine guise ∧ machine.Remembers config ∧
    (machine.wearing guise).Remembers config
  admits _ := True

instance lawful_trueSlots : (trueSlots config).Lawful where
  stored _ := trivial
  goesOn _ := ⟨trivial, fun _ _ => trivial, fun _ _ => trivial, fun _ _ => trivial, trivial⟩
  typed hides _ := hides.1
  change hides _ memory same line continuation slots :=
    ⟨⟨line hides.1.1, continuation hides.1.2⟩, hides.2.1.of_same same memory,
      hides.2.2.of_same same (by rw [wearing, wearing, memory, slots])⟩
  halt {_ guise} hides _ := by
    rw [halt_wearing hides.1]
    exact .hidden _ ⟨⟨rfl, rfl⟩, hides.2.1.of_same rfl rfl, hides.2.2.of_same rfl rfl⟩
      fun _ _ => trivial

/-- What is forbidden is the same, and `POKE` is. -/
theorem spares_trueSlots : (trueSlots config).Spares (refuses [.poke]) where
  alike {machine guise} hides := by
    obtain ⟨next, moved, -⟩ := nextToken_wearing hides
    rw [refuses, refuses, hazard?, hazard?, moved]
    rfl
  poke pokes allowed := by
    rw [refuses, hazard?, pokes] at allowed
    cases allowed

variable [config.IsRoomy]

instance evaluates_trueSlots : (trueSlots config).Evaluates where
  access {_ step} heedless obeys machine guise hides := by
    have looksAway : anySlots.Heedless step := heedless
    have remembers : step.Obeys (.remembers config) := obeys
    have before := hides.2.1.after remembers
    have other := hides.2.2.after remembers
    obtain same | ⟨_, after, guise, ran, again, alike, -⟩ :=
      (looksAway machine guise hides.1).eq_or_wearing
    · rw [same]
      exact .same _
    · rw [ran] at before ⊢
      rw [again] at other ⊢
      exact .hidden guise ⟨alike, before, other⟩ fun _ _ => trivial

/-- **Where lines are remembered truly, lookups are not seen through.** -/
instance performs_trueSlots : (trueSlots config).Performs where
  findLine line machine guise hides := by
    have looks : (onMemory (Attempt.always fun memory => memory.findLine line)).Obeys
        (.remembers config) := jumps_remembers.findLine line
    have before := hides.2.1.after looks
    have other := hides.2.2.after looks
    obtain ⟨slots, found⟩ :=
      machine.memory.findLine_withSlots guise.slots line hides.2.1.truly hides.2.2.truly
    rw [runOn_onMemory, Attempt.runOn_always] at before other ⊢
    rw [runOn_onMemory, Attempt.runOn_always]
    rw [show (machine.wearing guise).memory = machine.memory.withSlots guise.slots from rfl, found]
      at other ⊢
    exact .hidden { guise with slots } ⟨hides.1, before, other⟩ fun _ _ => trivial

end Disguise

namespace Machine

open Disguise

variable {left right machine : Machine} {config : Config} {line : TypedLine} {text : Bytes}
  {cleared : Memory} {forbids : Machine → Bool}

/-! ### RUN -/

/-- A typed `RUN` is done where it is not forbidden. -/
theorem runOn_stepUnless_run (begins : line.next.1 = .word .run)
    (allowed : forbids { machine.typed line with
      statementStart := (machine.typed line).cursor.location } = false) :
    (stepUnless forbids).runOn (machine.typed line) = step.runOn (machine.typed line) := by
  have runs : (statementUnless forbids).runOn { machine.typed line with
        statementStart := (machine.typed line).cursor.location } =
      statement.runOn { machine.typed line with
        statementStart := (machine.typed line).cursor.location } := by
    rw [statementUnless, statement, Attempt.runOn_get_bind, Attempt.runOn_get_bind,
      statementUnlessWithin, statementWithin, Attempt.runOn_get_bind, allowed]
    rw [if_neg Bool.false_ne_true, statementWith, statementWith, token, bind_assoc, bind_assoc,
      Attempt.runOn_get_bind, Attempt.runOn_get_bind, pure_bind, pure_bind]
    dsimp only
    rw [show (machine.typed line).cursor.token = .word .run from begins]
    rfl
  rw [stepUnless, step, Attempt.runOn_get_bind, Attempt.runOn_get_bind,
    Attempt.runOn_bind_ok (runOn_findStatementWithin_typed begins _),
    Attempt.runOn_bind_ok (runOn_findStatementWithin_typed begins _)]
  dsimp only
  rw [if_pos rfl, if_pos rfl, Attempt.runOn_modify_bind, Attempt.runOn_modify_bind,
    Attempt.runOn_bind_eq_goOn, Attempt.runOn_bind_eq_goOn]
  exact congrArg (Attempt.goOn · _) runs

/-- What a machine does that reads a program from its start, with other lines remembered. -/
theorem started_withSlots (cleared : Memory) (slots : LineCache) (line : TypedLine)
    (machine : Machine) :
    machine.started (cleared.withSlots slots) line =
      (machine.started cleared line).wearing { line, continuation := none, slots } := by
  rw [started, started, jump_eq, jump_eq]
  rfl

theorem Remembers.started [config.IsRoomy] (remembers : machine.Remembers config)
    (clears : Memory.clearHeap.runOn machine.memory = (.ok (), cleared)) (line : TypedLine) :
    (machine.started cleared line).Remembers config := by
  have kept := remembers.after (staysPut_clearHeap.of_refines refines_remembers)
  rw [runOn_onMemory, clears] at kept
  exact remembers_jump (kept.of_same rfl rfl)

/-- Running without `POKE` is a run of the steps that do none. -/
theorem executeWithout_poke (idle : machine.isIdle = false) (pending : machine.pending = none)
    (cycles : Nat) : (executeWithout [.poke] cycles).runOn machine =
      (runBy (stepUnless (refuses [.poke])) cycles).runOn machine := by
  rw [executeWithout_eq, stepWithout, refusingErrors_eq (by decide), stepRefusing_eq, executeBy,
    Attempt.runOn_get_bind, pending]
  dsimp only
  rw [idle, if_neg Bool.false_ne_true]

section Typed

variable (begins : line.next.1 = .word .run) (alone : isStatementEnd line.next.2.next.1 = true)

include begins alone

/-- The steps with a typed `RUN` end alike if the machines differ in what `RUN` drops, and in the
lines that were looked up. -/
theorem endsAlike_run [config.IsRoomy] (leftRemembers : left.Remembers config)
    (rightRemembers : right.Remembers config)
    (like : left.StartsLike
      { right with memory := right.memory.withSlots left.memory.lineCache }) :
    (trueSlots config).EndsAlike (fun _ => True) (step.runOn (left.typed line))
      (step.runOn (right.typed line)) := by
  obtain ⟨cleared, leftClears⟩ :
      ∃ cleared, Memory.clearHeap.runOn left.memory = (.ok (), cleared) :=
    ⟨_, Prod.ext like.clears rfl⟩
  obtain ⟨slots, rightClears⟩ := Memory.ignores_clearHeap
    (right.memory.withSlots left.memory.lineCache) right.memory.lineCache
  rw [like.memory.symm.trans leftClears] at rightClears
  let first (machine : Machine) : Machine := { machine with
    statementStart := { mode := .interactive, offset := line.position }, isIdle := false }
  let guise : Guise := { line := line.next.2.next.2, continuation := none, slots }
  have alike : (first right).started (cleared.withSlots slots) guise.line =
      ((first left).started cleared guise.line).wearing guise := by
    rw [started_withSlots]
    exact congrArg _ (like.started_eq cleared guise.line _).symm
  have leftFirst : (first left).Remembers config := leftRemembers.of_same rfl rfl
  have rightFirst : (first right).Remembers config := rightRemembers.of_same rfl rfl
  have rightBegun := rightFirst.started rightClears guise.line
  have shown : anySlots.hides ((first left).started cleared guise.line) guise := by
    rw [started, jump_eq]
    exact ⟨rfl, rfl⟩
  rw [alike] at rightBegun
  rw [runOn_step_typed begins alone leftClears, runOn_step_typed begins alone rightClears, alike]
  exact heedless_behind _ guise ⟨shown, leftFirst.started leftClears guise.line, rightBegun⟩

/-- **`RUN` is heedless of the lines that were looked up.** Machines that share what `RUN` keeps but
for these do the same from a typed `RUN` on, if no `POKE` was done before and none is done now. -/
theorem run_ignores_lookups [config.IsRoomy] {host other : Host}
    (leftReaches : Reaches [.poke] (start config host) left)
    (rightReaches : Reaches [.poke] (start config other) right)
    (like : left.StartsLike
      { right with memory := right.memory.withSlots left.memory.lineCache })
    (typing : line = TypedLine.ofText text (!left.config.wholeNumbers)) {cycles : Nat}
    {outcome : Outcome} {after : Machine}
    (ran : (executeWithout [.poke] (cycles + 1)).runOn ((enter text).runOn left).2 =
      (.ok outcome, after)) :
    ∃ slots, (execute (cycles + 1)).runOn ((enter text).runOn right).2 =
      (.ok outcome, { after with memory := after.memory.withSlots slots }) := by
  have allowed (machine : Machine) : refuses [.poke] { machine.typed line with
      statementStart := (machine.typed line).cursor.location } = false := by
    rw [refuses, hazard?, show (machine.typed line).cursor.token = .word .run from begins]
    rfl
  have first := endsAlike_run begins alone leftReaches.remembers rightReaches.remembers like
  rw [← runOn_stepUnless_run begins (allowed left),
    ← runOn_stepUnless_run begins (allowed right)] at first
  have runs := endsAlike_runBy (heedless_runBy (heedless_stepUnless spares_trueSlots) cycles) first
  rw [runOn_enter begins typing,
    @executeWithout_poke (left.typed line) rfl like.left_pending] at ran
  have same : right.config = left.config := like.config.symm
  rw [runOn_enter begins (same ▸ typing)]
  rw [ran, ← @executeWithout_poke (right.typed line) rfl like.right_pending] at runs
  obtain ends | ⟨_, last, guise, told, ends, ⟨typed, -⟩, -⟩ := runs.eq_or_wearing
  · exact ⟨after.memory.lineCache, execute_of_executeWithout ends.symm⟩
  · cases told
    refine ⟨guise.slots, execute_of_executeWithout (ends.trans ?_)⟩
    rw [wearing, typed.1, typed.2]

end Typed

/-- A program that was run is run again: the machine is like the one before, but for the line that
was looked up. -/
example :
    let typing (machine : Machine) (text : String) :=
      ((execute 4).runOn ((enter (ascii text)).runOn machine).2).2
    let first := ["10 GOTO 20", "20 A=1"].foldl typing (start { memorySize := 48 } {})
    let again := { typing first "RUN" with host := first.host }
    first.memory.lineCache ≠ again.memory.lineCache ∧
      first.StartsLike
        { again with memory := again.memory.withSlots first.memory.lineCache } := by
  decide +kernel

/-- Free memory has to be the same, since a program can look into it. -/
example :
    let typing (machine : Machine) (text : String) :=
      ((execute 4).runOn ((enter (ascii text)).runOn machine).2).2
    let host : Host := { streams := [(Channel.console, {})] }
    let stored := typing (start { memorySize := 48 } host) "10 PRINT @(1)"
    let printed (machine : Machine) := (typing machine "RUN").host.takeOutput.1
    printed stored = [(Channel.console, ascii "0\n")] ∧
      printed (typing stored "@(1)=5") = [(Channel.console, ascii "5\n")] := by
  decide +kernel

end Machine

end PocketBasic
