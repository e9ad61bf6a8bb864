/-
**Places where tokens begin.** A machine that reads the program in memory reads one token after the
other, and is sent to lines and to places that it remembers. All of them are places where a token of
the program begins, as long as the program stays as it is. An evaluation may go to the body of a
function, of which nothing is known, but comes back.

* `Machine.Admits`: the places that a machine may be sent to;
* `Machine.ReadsToken`: the current token stands in the program where it is said to begin;
* `Machine.HasProgram`: the program in memory is read, or what was typed is at its end;
* `Machine.SharesFrames`: what evaluations leave of the places that are remembered;
* `Machine.IsWithin`: all places are such places, or so much as is known of them behind an error;
* `Conduct.staysWithin`, **`Machine.evaluates_staysWithin`**: evaluations come back to their token;
* **`Machine.HasProgram.ends_gotoLine`**: a line begins with a token.
-/

import PocketBasic.Proofs.Machine.KeptTexts
import PocketBasic.Proofs.Machine.Sparing
import PocketBasic.Proofs.Program.Boundaries

namespace PocketBasic

/-- There is no token in an empty line. -/
theorem TypedLine.next_of_nil {line : TypedLine} (empty : line.text = []) :
    line.next.1 = .endOfText := by
  by_contra some
  have bounds := position_lt_next some
  rw [empty, List.length_nil] at bounds
  omega

/-- Looking for a line leaves the program as it was. -/
theorem Memory.sameProgram_findLine (memory : Memory) (line : LineNumber) :
    memory.SameProgram (memory.findLine line).2 := by
  rw [findLine]
  split
  · exact ⟨rfl, rfl⟩
  · split
    · exact ⟨rfl, rfl⟩
    · exact ⟨rfl, rfl⟩

/-- How many bytes an address takes in a machine with these settings. -/
def Config.width (config : Config) : AddressWidth := .forSize config.memorySize

namespace Machine

/-! ### Places -/

/-- Whether a machine may be sent to a place: in the program to one where a token begins, if that
must be so `exactly`, and in what was typed if nothing stands there. -/
def Admits (exactly : Bool) (machine : Machine) (place : Location) : Prop :=
  match place.mode with
  | .interactive => machine.cursor.line.text = []
  | .run => exactly = true →
      machine.memory.program.IsBoundary machine.memory.width place.offset
  | .runStore => False

/-- Whether the current token stands in the program in memory where it is said to begin, if that is
what is read. -/
def ReadsToken (machine : Machine) : Prop :=
  machine.cursor.mode = .run →
    machine.memory.program.IsBoundary machine.memory.width machine.cursor.tokenOffset ∧
    machine.memory.program.decode machine.memory.width machine.cursor.tokenOffset =
      (machine.cursor.token, machine.cursor.offset)

/-- Whether a program is in memory and is read, or else nothing is left of what was typed; its lines
are where they are remembered. -/
structure HasProgram (config : Config) (text : ProgramText) (machine : Machine) : Prop where
  remembers : machine.Remembers config
  program : machine.memory.program = text
  mode : machine.cursor.mode ≠ .runStore
  typed : machine.cursor.mode = .interactive →
    machine.cursor.line.text = [] ∧ machine.cursor.token = .endOfText

/-- What is left as it was of the texts that places are in. -/
structure SharesTexts (before after : Machine) : Prop where
  program : before.memory.SameProgram after.memory
  line : after.cursor.line.text = before.cursor.line.text

/-- What is left as it was of the places that are remembered. -/
structure SharesFrames (before after : Machine) : Prop extends before.SharesTexts after where
  loops : after.loops = before.loops
  returns : after.returns = before.returns
  bookmark : after.bookmark = before.bookmark

/-- Whether a machine may be sent to the places where loops and subroutines under way go on. -/
structure AdmitsFrames (exactly : Bool) (machine : Machine) : Prop where
  loops : ∀ loop ∈ machine.loops.entries, machine.Admits exactly loop.resume
  returns : ∀ frame ∈ machine.returns.entries, machine.Admits exactly frame.resume

/-- Whether a machine reads a program at one of its tokens, and goes on at such places; where this
is not so `exactly`, whether it can be sent to such a place. -/
structure IsWithin (config : Config) (text : ProgramText) (exactly : Bool) (machine : Machine) :
    Prop extends machine.HasProgram config text where
  token : exactly = true → machine.ReadsToken
  frames : machine.AdmitsFrames exactly

variable {config : Config} {text : ProgramText} {exactly : Bool} {place : Location}
  {machine before middle after : Machine}

/-- Where nothing is under way, nothing is remembered. -/
theorem AdmitsFrames.of_nil (loops : machine.loops.entries = [])
    (returns : machine.returns.entries = []) : machine.AdmitsFrames exactly where
  loops _ among := absurd (loops ▸ among) List.not_mem_nil
  returns _ among := absurd (returns ▸ among) List.not_mem_nil

namespace Admits

theorem run {offset : Nat}
    (boundary : machine.memory.program.IsBoundary machine.memory.width offset) :
    machine.Admits exactly { mode := .run, offset } := fun _ => boundary

/-- What is so exactly is so. -/
theorem of_exactly (admits : machine.Admits true place) : machine.Admits exactly place := by
  rcases place with ⟨_ | _ | _, offset⟩
  · exact admits
  · exact fun _ => admits rfl
  · exact admits

end Admits

namespace SharesTexts

variable (shares : before.SharesTexts after)

include shares

theorem admits (admitted : before.Admits exactly place) : after.Admits exactly place := by
  unfold Admits
  rw [shares.line, shares.program.program, shares.program.width]
  exact admitted

theorem admitsFrames (frames : before.AdmitsFrames exactly)
    (loops : after.loops.entries ⊆ before.loops.entries)
    (returns : after.returns.entries ⊆ before.returns.entries) : after.AdmitsFrames exactly where
  loops loop among := shares.admits (frames.loops loop (loops among))
  returns frame among := shares.admits (frames.returns frame (returns among))

end SharesTexts

namespace SharesFrames

theorem refl (machine : Machine) : machine.SharesFrames machine where
  program := ⟨rfl, rfl⟩
  line := rfl
  loops := rfl
  returns := rfl
  bookmark := rfl

theorem trans (first : before.SharesFrames middle) (second : middle.SharesFrames after) :
    before.SharesFrames after where
  program := ⟨second.program.size.trans first.program.size,
    second.program.program.trans first.program.program⟩
  line := second.line.trans first.line
  loops := second.loops.trans first.loops
  returns := second.returns.trans first.returns
  bookmark := second.bookmark.trans first.bookmark

variable (shares : before.SharesFrames after)

include shares

theorem admitsFrames (frames : before.AdmitsFrames exactly) : after.AdmitsFrames exactly :=
  shares.toSharesTexts.admitsFrames frames (by rw [shares.loops]; exact List.Subset.refl _)
    (by rw [shares.returns]; exact List.Subset.refl _)

omit shares

theorem of_staysPut (stays : before.StaysPut config after) : before.SharesFrames after where
  program := stays.program
  line := by rw [stays.cursor]
  loops := stays.loops
  returns := stays.returns
  bookmark := stays.bookmark

theorem of_cursor {cursor : Cursor} (line : cursor.line.text = machine.cursor.line.text) :
    machine.SharesFrames { machine with cursor } where
  program := ⟨rfl, rfl⟩
  line := line
  loops := rfl
  returns := rfl
  bookmark := rfl

theorem nextToken (machine : Machine) : machine.SharesFrames machine.nextToken := by
  rw [nextToken_eq]
  exact .of_cursor machine.cursor.sharesText_next.text

theorem jump (place : Location) (machine : Machine) :
    machine.SharesFrames (Machine.jump place machine) := by
  rw [jump_eq]
  exact .of_cursor
    ((Cursor.sharesText_next _).text.trans (Cursor.line_movedTo place machine.cursor).1)

end SharesFrames

/-! ### Reading on -/

theorem ReadsToken.of_staysPut (reads : before.ReadsToken) (stays : before.StaysPut config after) :
    after.ReadsToken := by
  unfold ReadsToken
  rw [stays.cursor, stays.program.program, stays.program.width]
  exact reads

/-- **Behind a token of the program the next one begins.** -/
theorem ReadsToken.nextToken (reads : machine.ReadsToken) : machine.nextToken.ReadsToken := by
  rw [nextToken_eq]
  intro runs
  have running : machine.cursor.mode = .run := (Cursor.mode_next _ _ _).symm.trans runs
  obtain ⟨boundary, decoded⟩ := reads running
  have behind := boundary.next
  rw [decoded] at behind
  unfold Cursor.next
  rw [running]
  exact ⟨behind, rfl⟩

theorem readsToken_jump (admits : machine.Admits true place) :
    (jump place machine).ReadsToken := by
  rw [jump_eq]
  rcases place with ⟨_ | _ | _, offset⟩
  · exact fun runs => nomatch (Cursor.mode_next _ _ _).symm.trans runs
  · exact fun _ => ⟨admits rfl, rfl⟩
  · exact admits.elim

namespace HasProgram

/-- A machine that reads its program has one. -/
theorem of_running (remembers : machine.Remembers config)
    (program : machine.memory.program = text) (running : machine.cursor.mode = .run) :
    machine.HasProgram config text where
  remembers := remembers
  program := program
  mode := by rw [running]; decide
  typed typed := absurd (running.symm.trans typed) (by decide)

variable (reads : machine.HasProgram config text)

include reads

theorem of_staysPut (stays : machine.StaysPut config after) :
    after.HasProgram config text where
  remembers := reads.remembers.of_staysPut stays
  program := stays.program.program.trans reads.program
  mode := by rw [stays.cursor]; exact reads.mode
  typed := by rw [stays.cursor]; exact reads.typed

theorem nextToken : machine.nextToken.HasProgram config text := by
  have shares := @Cursor.sharesText_next machine.programText machine.memory.width machine.cursor
  rw [nextToken_eq]
  refine ⟨reads.remembers.of_same rfl rfl, reads.program, ?_, fun typed => ?_⟩
  · rw [Cursor.mode_next]
    exact reads.mode
  · rw [Cursor.mode_next] at typed
    have empty := (reads.typed typed).1
    refine ⟨shares.text.trans empty, ?_⟩
    unfold Cursor.next
    rw [typed]
    exact TypedLine.next_of_nil empty

theorem jump (admits : machine.Admits exactly place) :
    (jump place machine).HasProgram config text := by
  have shares := SharesFrames.jump place machine
  have there := reads.remembers
  rw [jump_eq] at shares ⊢
  refine ⟨there.of_same rfl rfl, reads.program, ?_, fun typed => ?_⟩
  all_goals rcases place with ⟨_ | _ | _, offset⟩
  · exact nofun
  · exact nofun
  · exact admits.elim
  · exact ⟨shares.line.trans admits, TypedLine.next_of_nil admits⟩
  · cases typed
  · cases typed

theorem width_eq : machine.memory.width = config.width :=
  reads.remembers.intact.memory.width_eq

/-- The place where a machine is is one that it may be sent to. -/
theorem admits_location (exact : exactly = true → machine.ReadsToken) :
    machine.Admits exactly machine.cursor.location := by
  have mode := reads.mode
  have typed := reads.typed
  unfold Admits Cursor.location
  cases running : machine.cursor.mode with
  | interactive => exact (typed running).1
  | run => exact fun same => (exact same running).1
  | runStore => exact mode running

end HasProgram

namespace IsWithin

/-- A machine that is sent to a place is there. -/
theorem jump (reads : machine.HasProgram config text) (frames : machine.AdmitsFrames exactly)
    (admits : machine.Admits exactly place) :
    (jump place machine).IsWithin config text exactly where
  toHasProgram := reads.jump admits
  token same := readsToken_jump (same ▸ admits)
  frames := (SharesFrames.jump place machine).admitsFrames frames

variable (within : machine.IsWithin config text exactly)

include within

theorem admits_location : machine.Admits exactly machine.cursor.location :=
  within.toHasProgram.admits_location within.token

theorem nextToken : machine.nextToken.IsWithin config text exactly where
  toHasProgram := within.toHasProgram.nextToken
  token same := (within.token same).nextToken
  frames := (SharesFrames.nextToken machine).admitsFrames within.frames

theorem of_frames {after : Machine} (sameConfig : after.config = machine.config)
    (memory : after.memory = machine.memory) (cursor : after.cursor = machine.cursor)
    (frames : after.AdmitsFrames exactly) : after.IsWithin config text exactly where
  remembers := within.remembers.of_same sameConfig memory
  program := by rw [memory]; exact within.program
  mode := by rw [cursor]; exact within.mode
  typed := by rw [cursor]; exact within.typed
  token same := by
    unfold ReadsToken
    rw [memory, cursor]
    exact within.token same
  frames := frames

/-- Loops and subroutines may end. -/
theorem of_fewer {after : Machine} (sameConfig : after.config = machine.config)
    (memory : after.memory = machine.memory) (cursor : after.cursor = machine.cursor)
    (loops : after.loops.entries ⊆ machine.loops.entries)
    (returns : after.returns.entries ⊆ machine.returns.entries) :
    after.IsWithin config text exactly :=
  have shares : machine.SharesTexts after := ⟨by rw [memory]; exact ⟨rfl, rfl⟩, by rw [cursor]⟩
  within.of_frames sameConfig memory cursor (shares.admitsFrames within.frames loops returns)

theorem of_same {after : Machine} (sameConfig : after.config = machine.config)
    (memory : after.memory = machine.memory) (cursor : after.cursor = machine.cursor)
    (loops : after.loops = machine.loops) (returns : after.returns = machine.returns) :
    after.IsWithin config text exactly :=
  within.of_fewer sameConfig memory cursor (by rw [loops]; exact List.Subset.refl _)
    (by rw [returns]; exact List.Subset.refl _)

omit within in
/-- What is so exactly is so. -/
theorem of_exactly (within : machine.IsWithin config text true) :
    machine.IsWithin config text exactly where
  toHasProgram := within.toHasProgram
  token _ := within.token rfl
  frames := ⟨fun loop among => (within.frames.loops loop among).of_exactly,
    fun frame among => (within.frames.returns frame among).of_exactly⟩

end IsWithin

end Machine

/-! ### Evaluations -/

/-- What comes back to where it was in the program. Where it fails it may be elsewhere. -/
def Conduct.staysWithin (config : Config) (text : ProgramText) : Conduct Machine where
  moves before after := before.HasProgram config text →
    after.HasProgram config text ∧ before.SharesFrames after ∧
      (before.ReadsToken → after.ReadsToken)
  fails before _ after := before.HasProgram config text →
    after.HasProgram config text ∧ before.SharesFrames after
  refl machine reads := ⟨reads, .refl machine, id⟩
  trans first second reads :=
    have ⟨middle, shares, exact⟩ := first reads
    have ⟨last, again, still⟩ := second middle
    ⟨last, shares.trans again, still ∘ exact⟩
  fails_of_moves first second reads :=
    have ⟨middle, shares, _⟩ := first reads
    have ⟨last, again⟩ := second middle
    ⟨last, shares.trans again⟩
  fails_moves first second reads :=
    have ⟨middle, shares⟩ := first reads
    have ⟨last, again, _⟩ := second middle
    ⟨last, shares.trans again⟩

namespace Machine

open Conduct (staysWithin)

variable {config : Config} {text : ProgramText} {machine before middle after : Machine}
  {exactly : Bool}

theorem refines_staysWithin : (Conduct.staysPut config).Refines (staysWithin config text) := by
  refine ⟨fun stays reads => ?_, fun stays reads => ?_⟩
  · have put := stays reads.remembers.intact
    exact ⟨reads.of_staysPut put, .of_staysPut put, fun exact => exact.of_staysPut put⟩
  · have put := stays reads.remembers.intact
    exact ⟨reads.of_staysPut put, .of_staysPut put⟩

/-- What is evaluated in the body of a function is evaluated in the program. -/
theorem staysWithin_away {entry : Nat} (moved : (staysWithin config text).moves before middle)
    (reads : before.HasProgram config text) :
    (jump (before.bodyPlace entry) middle).HasProgram config text ∧
      before.SharesFrames (jump (before.bodyPlace entry) middle) := by
  obtain ⟨reads', shares, -⟩ := moved reads
  have admits : middle.Admits false (before.bodyPlace entry) := by
    unfold Admits bodyPlace
    rw [if_neg reads.mode]
    exact nofun
  exact ⟨reads'.jump admits, shares.trans (.jump _ _)⟩

/-- **Evaluations come back to where they were**: to the token that was read, if they do not
fail. -/
instance evaluates_staysWithin [config.IsRoomy] : (staysWithin config text).Evaluates where
  toAccesses := refines_staysWithin.accesses
  fails_stalled machine reads := ⟨reads, .refl machine⟩
  moves_next machine reads := ⟨reads.nextToken, .nextToken machine, ReadsToken.nextToken⟩
  toMakes := refines_staysWithin.makes
  moves_excursion {before _ after} _ first second reads := by
    obtain ⟨away, left⟩ := staysWithin_away first reads
    obtain ⟨last, again, -⟩ := second away
    have shares := left.trans again
    have admits (exactly : Bool) (exact : exactly = true → before.ReadsToken) :
        after.Admits exactly before.cursor.location :=
      shares.admits (reads.admits_location exact)
    refine ⟨last.jump (admits false nofun), shares.trans (.jump _ _), fun exact => ?_⟩
    exact readsToken_jump (admits true fun _ => exact)
  fails_excursion _ first second reads := by
    obtain ⟨away, left⟩ := staysWithin_away first reads
    obtain ⟨last, again⟩ := second away
    exact ⟨last, left.trans again⟩
  fails_otherwise := id
  fails_first first second reads :=
    have ⟨middle, shares⟩ := first reads
    have ⟨last, again⟩ := second middle
    ⟨last, shares.trans again⟩
  fails_second first second reads :=
    have ⟨middle, shares⟩ := first reads
    have ⟨last, again⟩ := second middle
    ⟨last, shares.trans again⟩
  storeScalar name value := (staysPut_storeScalar name value).of_refines refines_staysWithin
  deleteScalar name := (staysPut_delete .scalar name).of_refines refines_staysWithin

instance edits_staysWithin [config.IsRoomy] : (staysWithin config text).Edits :=
  refines_staysWithin.edits

/-! ### Lines -/

/-- Looking for a line remembers it, and changes nothing else. -/
theorem staysWithin_findLine (line : LineNumber) :
    (onMemory (Attempt.always fun memory => memory.findLine line)).Obeys
      (staysWithin config text) := by
  intro machine reads
  have same := machine.memory.sameProgram_findLine line
  have remembers : Remembers config { machine with memory := (machine.memory.findLine line).2 } :=
    ⟨⟨reads.remembers.intact.config_eq, reads.remembers.intact.memory.findLine line⟩,
      reads.remembers.truly.findLine_snd line⟩
  refine ⟨⟨remembers, same.program.trans reads.program, reads.mode, reads.typed⟩,
    ⟨⟨same, rfl⟩, rfl, rfl, rfl⟩, fun exact runs => ?_⟩
  show (machine.memory.findLine line).2.program.IsBoundary (machine.memory.findLine line).2.width
    machine.cursor.tokenOffset ∧ (machine.memory.findLine line).2.program.decode
      (machine.memory.findLine line).2.width machine.cursor.tokenOffset = _
  rw [same.program, same.width]
  exact exact runs

/-- **A line begins with a token.** -/
theorem HasProgram.ends_findLine (reads : machine.HasProgram config text) (line : LineNumber) :
    (findLine line).Ends machine
      (fun place after => after.HasProgram config text ∧ machine.SharesFrames after ∧
        after.Admits true place)
      fun _ after => after.HasProgram config text ∧ machine.SharesFrames after := by
  refine .get_bind ?_
  split
  · exact absurd ‹_› reads.mode
  · have looked : (onMemory (Attempt.always fun memory => memory.findLine line)).runOn machine =
        (.ok (machine.memory.program.findLine? machine.memory.width line),
          { machine with memory := (machine.memory.findLine line).2 }) := by
      rw [runOn_onMemory, Attempt.runOn_always, reads.remembers.truly.findLine_fst]
    obtain ⟨still, shares, -⟩ := (staysWithin_findLine line machine).moves looked reads
    refine .ok_bind looked ?_
    cases found : machine.memory.program.findLine? machine.memory.width line with
    | none => exact ⟨still, shares⟩
    | some offset =>
      exact ⟨still, shares, shares.admits (.run (ProgramText.isBoundary_of_findLine? found))⟩

/-- **Who goes to a line is at one of the program's tokens.** -/
theorem HasProgram.ends_gotoLine (reads : machine.HasProgram config text)
    (frames : machine.AdmitsFrames exactly) (line : LineNumber) :
    (gotoLine line).Ends machine (fun _ after => after.IsWithin config text exactly)
      fun _ after => after.HasProgram config text ∧ machine.SharesFrames after :=
  (reads.ends_findLine line).bind fun _ _ ⟨still, shares, admits⟩ =>
    .jump still (shares.admitsFrames frames) admits.of_exactly

end Machine

end PocketBasic
