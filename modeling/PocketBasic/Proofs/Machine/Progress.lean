import Mathlib.Tactic.Common
import PocketBasic.Proofs.Machine.Lenient

namespace PocketBasic

/-! ### Positions -/

/-- Reading a token does not add to a text. -/
theorem Lexer.length_read_le (fractions : Bool) (text : Bytes) :
    (read fractions text).2.length ≤ text.length := by
  have skipped := dropWhile_length_le isBlank text
  rw [read]
  split
  · exact Nat.zero_le _
  · rename_i first rest begins
    rw [show text.dropWhile isBlank = first :: rest from begins, List.length_cons] at skipped
    exact Nat.le_trans (readAfter_length fractions first rest) (Nat.le_of_succ_le skipped)

/-- Reading does not add to what a line has ahead, not even at its end. -/
theorem TypedLine.ahead_next_le (line : TypedLine) :
    line.text.length - line.next.2.position ≤ line.text.length - line.position := by
  have rest := line.length_rest
  unfold next
  split
  · split
    · exact Nat.le_refl _
    · simp only
      omega
  · have read := Lexer.length_read_le line.fractions line.rest
    simp only
    omega

namespace Cursor

variable {texts : Mode → ProgramText} {width : AddressWidth}

theorem tokenOffset_next (cursor : Cursor) :
    (cursor.next texts width).tokenOffset = cursor.position := by
  unfold next
  split <;> rename_i mode <;> simp only [position, mode]

/-- Reading does not add to what a cursor has ahead, not even at the end of its text. -/
theorem ahead_next_le (cursor : Cursor) :
    cursor.textLength texts - (cursor.next texts width).position ≤
      cursor.textLength texts - cursor.position := by
  unfold next
  split <;> rename_i mode
  · simpa only [position, textLength, mode] using cursor.line.ahead_next_le
  · simp only [position, textLength, ProgramText.decode]
    have moves := (texts cursor.mode).one_le_extent width cursor.offset
    split_ifs <;> simp only <;> omega

end Cursor

namespace Machine

variable {before middle after : Machine}

/-- The length of the text of a mode. -/
def lengthIn (machine : Machine) : Mode → Nat
  | .interactive => machine.cursor.line.text.length
  | mode => (machine.programText mode).length

theorem textLength_eq_lengthIn (machine : Machine) :
    machine.textLength = machine.lengthIn machine.cursor.mode := by
  unfold textLength lengthIn
  cases machine.cursor.mode <;> rfl

/-! ### What is left to read -/

/-- How many bytes of its text the machine has not read. -/
def ahead (machine : Machine) : Nat := machine.textLength - machine.cursor.position

/-- How many bytes of its text are behind the place where the current token begins. -/
def fromToken (machine : Machine) : Nat := machine.textLength - machine.cursor.tokenOffset

/-- How much of its text the machine has left to read: the current token, and what it has not
read. -/
def left (machine : Machine) : Nat :=
  machine.ahead + if machine.cursor.token = .endOfText then 0 else 1

/-- Every two rounds of a scan over the text can leave less to read. -/
theorem left_lt (machine : Machine) : machine.left < 2 * (machine.textLength + 1) := by
  unfold left ahead
  split <;> omega

theorem lengthIn_nextToken (machine : Machine) (mode : Mode) :
    machine.nextToken.lengthIn mode = machine.lengthIn mode := by
  rw [nextToken_eq]
  cases mode with
  | interactive => exact congrArg List.length machine.cursor.sharesText_next.text
  | run | runStore => rfl

theorem textLength_nextToken (machine : Machine) :
    machine.nextToken.textLength = machine.textLength := by
  rw [textLength_eq_lengthIn, textLength_eq_lengthIn, lengthIn_nextToken, mode_nextToken]

theorem fromToken_nextToken (machine : Machine) :
    machine.nextToken.fromToken = machine.ahead := by
  rw [fromToken, textLength_nextToken, nextToken_eq]
  exact congrArg (machine.textLength - ·) (Cursor.tokenOffset_next _)

/-- What is left to read behind a token was ahead before. -/
theorem left_nextToken_le (machine : Machine) : machine.nextToken.left ≤ machine.ahead := by
  have length := machine.textLength_nextToken
  have notMore := @Cursor.ahead_next_le machine.programText machine.memory.width machine.cursor
  have moves := @Cursor.position_lt_next machine.programText machine.memory.width machine.cursor
  rw [left, ahead, ahead, length]
  rw [nextToken_eq]
  rw [textLength_eq]
  split
  · exact notMore
  · have := moves ‹_›
    simp only
    omega

theorem config_jump (location : Location) (machine : Machine) :
    (jump location machine).config = machine.config := by
  rw [jump, nextToken_eq]

theorem depth_jump (location : Location) (machine : Machine) :
    (jump location machine).depth = machine.depth := by
  rw [jump, nextToken_eq]

theorem lengthIn_jump (location : Location) (machine : Machine) (mode : Mode) :
    (jump location machine).lengthIn mode = machine.lengthIn mode := by
  rw [jump, lengthIn_nextToken]
  cases mode with
  | interactive =>
    simp only [lengthIn]
    split <;> rfl
  | run | runStore => rfl

theorem left_jump_le (location : Location) (machine : Machine) :
    (jump location machine).left ≤ (jump location machine).fromToken := by
  rw [jump, fromToken_nextToken]
  exact left_nextToken_le _

/-- What is behind a place is behind it again once the machine is back there. -/
theorem fromToken_jump (location : Location) (machine : Machine) :
    (jump location machine).fromToken = machine.lengthIn location.mode - location.offset := by
  rw [jump, fromToken_nextToken, ahead, textLength, Cursor.position]
  obtain ⟨mode, offset⟩ := location
  cases mode with
  | interactive =>
    simp only [lengthIn, TypedLine.seek]
    omega
  | run | runStore => rfl

/-! ### Going on -/

/-- Whether a machine is behind the current token of another one: nothing from where it reads on was
read there. -/
def IsBehind (before after : Machine) : Prop :=
  after.left ≤ after.fromToken ∧ after.fromToken ≤ before.ahead

/-- Whether a machine is in the same text and as deep in evaluations as another one, and is where
that one was or behind its current token. -/
structure Onward (before after : Machine) : Prop where
  config : after.config = before.config
  depth : after.depth = before.depth
  mode : after.cursor.mode = before.cursor.mode
  length : ∀ mode, after.lengthIn mode = before.lengthIn mode
  place : after.cursor = before.cursor ∨ before.IsBehind after

namespace Onward

theorem refl (machine : Machine) : Onward machine machine := ⟨rfl, rfl, rfl, fun _ => rfl, .inl rfl⟩

theorem textLength (onward : Onward before after) : after.textLength = before.textLength := by
  rw [textLength_eq_lengthIn, textLength_eq_lengthIn, onward.length, onward.mode]

/-- At the same place there is as much left to read. -/
theorem same (onward : Onward before after) (same : after.cursor = before.cursor) :
    after.left = before.left ∧ after.fromToken = before.fromToken ∧ after.ahead = before.ahead := by
  simp only [left, fromToken, ahead, same, onward.textLength, true_and]

theorem left_le (onward : Onward before after) : after.left ≤ before.left := by
  rcases onward.place with same | behind
  · exact (onward.same same).1.le
  · exact behind.1.trans (behind.2.trans (Nat.le_add_right _ _))

/-- What is behind a token stays behind it. -/
theorem isBehind (behind : before.IsBehind middle) (second : Onward middle after) :
    before.IsBehind after := by
  rcases second.place with there | ⟨left, fromToken⟩
  · obtain ⟨left, fromToken, -⟩ := second.same there
    rwa [IsBehind, left, fromToken]
  · exact ⟨left, fromToken.trans ((Nat.le_add_right _ _).trans (behind.1.trans behind.2))⟩

theorem trans (first : Onward before middle) (second : Onward middle after) :
    Onward before after where
  config := second.config.trans first.config
  depth := second.depth.trans first.depth
  mode := second.mode.trans first.mode
  length mode := (second.length mode).trans (first.length mode)
  place := by
    rcases first.place with here | behind
    · refine second.place.imp (·.trans here) fun behind => ⟨behind.1, behind.2.trans ?_⟩
      exact (first.same here).2.2.le
    · exact .inr (second.isBehind behind)

end Onward

/-- Behind a token that is there, there is less left to read. -/
theorem IsBehind.left_lt (behind : before.IsBehind after)
    (some : before.cursor.token ≠ .endOfText) : after.left < before.left := by
  have here : before.left = before.ahead + 1 := by rw [left, if_neg some]
  exact here ▸ Nat.lt_succ_of_le (behind.1.trans behind.2)

theorem isBehind_nextToken (machine : Machine) : machine.IsBehind machine.nextToken :=
  ⟨machine.fromToken_nextToken ▸ machine.left_nextToken_le, machine.fromToken_nextToken.le⟩

theorem onward_nextToken (machine : Machine) : machine.Onward machine.nextToken where
  config := by rw [nextToken_eq]
  depth := by rw [nextToken_eq]
  mode := mode_nextToken machine
  length := lengthIn_nextToken machine
  place := .inr machine.isBehind_nextToken

/-- **What goes elsewhere in the texts comes back** behind the token that it was behind. -/
theorem Onward.back {away : Machine} {place : Location} (onward : before.Onward middle)
    (behind : before.IsBehind middle) (left : (jump place middle).Onward away) :
    before.Onward (jump middle.cursor.location away) ∧
      before.IsBehind (jump middle.cursor.location away) := by
  have length (mode : Mode) : away.lengthIn mode = middle.lengthIn mode :=
    (left.length mode).trans (lengthIn_jump place middle mode)
  have there : before.IsBehind (jump middle.cursor.location away) := by
    refine ⟨left_jump_le _ _, ?_⟩
    rw [fromToken_jump, length]
    exact middle.textLength_eq_lengthIn ▸ behind.2
  refine ⟨⟨?_, ?_, ?_, fun mode => ?_, .inr there⟩, there⟩
  · rw [config_jump, left.config, config_jump, onward.config]
  · rw [depth_jump, left.depth, depth_jump, onward.depth]
  · rw [mode_jump]
    exact onward.mode
  · rw [lengthIn_jump, length, onward.length]

/-- Whether so many more evaluations fit into each other. -/
def Fits (budget : Nat) (machine : Machine) : Prop :=
  machine.config.stackSize ≤ machine.depth + budget

theorem Onward.fits {budget : Nat} (onward : Onward before after) (fits : before.Fits budget) :
    after.Fits budget := by
  rwa [Fits, onward.config, onward.depth]

end Machine

/-! ### Standing still -/

/-- A step with a last change of the state ends where that change leads. -/
theorem Attempt.Ends.ensuring {σ α : Type} {step : Attempt σ α} {state : σ}
    {promised later : α → σ → Prop} {allowed wider : Failure → σ → Prop} {change : σ → σ}
    (ends : step.Ends state promised allowed)
    (kept : ∀ value after, promised value after → later value (change after))
    (excused : ∀ failure after, allowed failure after → wider failure (change after)) :
    (step.ensuring change).Ends state later wider := by
  rw [Ends, Attempt.ensuring, runOn_ofRun]
  rcases ran : step.runOn state with ⟨failure | value, after⟩
  · exact excused _ _ (ends.excused ran)
  · exact kept _ _ (ends.kept ran)

/-- The conduct of steps that read nothing, keep the texts as long as they are, and never wait. -/
def Conduct.stands : Conduct Machine where
  moves before after :=
    (after.cursor, after.config, after.depth, after.memory.size, after.memory.top,
      after.host.store) =
    (before.cursor, before.config, before.depth, before.memory.size, before.memory.top,
      before.host.store)
  fails _ failure _ := failure ≠ .stalled
  refl _ := rfl
  trans first second := second.trans first
  fails_of_moves _ second := second
  fails_moves first _ := first

/-- The conduct of steps on a memory that keep its size and the length of its program, and never
wait. -/
def Conduct.keepsLengths : Conduct Memory where
  moves before after := (after.size, after.top) = (before.size, before.top)
  fails _ failure _ := failure ≠ .stalled
  refl _ := rfl
  trans first second := second.trans first
  fails_of_moves _ second := second
  fails_moves first _ := first

instance : Conduct.keepsLengths.Stores where
  fails_ordinary _ _ ordinary := ordinary.sparesStacks.not_stalled
  moves_bytes _ _ same := Prod.ext same rfl
  moves_heap _ _ _ _ := rfl

namespace Machine

open Conduct (stands)

variable {α β : Type}

theorem stands_onMemory {step : Attempt Memory α} (keeps : step.Obeys .keepsLengths) :
    (onMemory step).Obeys stands := by
  intro machine
  rcases ran : (step.runOn machine.memory).1 with failure | value
  · exact Attempt.obeysFrom_of_error (Prod.ext ran rfl) ((keeps _).fails (Prod.ext ran rfl))
  · have same := (keeps machine.memory).moves (Prod.ext ran rfl)
    simp only [Conduct.keepsLengths, Prod.mk.injEq] at same
    exact Attempt.obeysFrom_of_ok (Prod.ext ran rfl)
      (by simp only [stands, runOn_onMemory, same])

theorem usesMemory_stands : stands.UsesMemory where
  fails _ _ spares := spares.not_stalled
  lookup kind name := stands_onMemory (Memory.obeys_lookup kind name)
  allocate kind name size := stands_onMemory (Memory.obeys_allocate kind name size)
  delete kind name := stands_onMemory (Memory.obeys_delete kind name)
  write start data := stands_onMemory (Memory.obeys_write start data)
  poke address value := stands_onMemory (Memory.obeys_poke address value)

instance assigns_stands : stands.Assigns where
  toConsults := usesMemory_stands.consults fun _ _ _ _ _ _ _ used => by
    simp only [stands, used.store]
  storeScalar := usesMemory_stands.storeScalar
  deleteScalar := usesMemory_stands.delete .scalar

instance makes_stands : stands.Makes := usesMemory_stands.makes

/-- Steps on the operands read nothing. -/
theorem stands_onOperands {step : Attempt (BoundedStack Single) α}
    (tells : ∀ stack, (step.runOn stack).1 ≠ .error .stalled) : (onOperands step).Obeys stands := by
  intro machine
  rcases ran : step.runOn machine.operands with ⟨failure | value, operands⟩
  · refine Attempt.obeysFrom_of_error (runOn_onOperands ran) ?_
    rintro rfl
    exact tells _ (congrArg Prod.fst ran)
  · exact Attempt.obeysFrom_of_ok (runOn_onOperands ran) rfl

theorem stands_takesOff {step : Attempt (BoundedStack Single) α} (takes : step.Obeys .takesOff) :
    (onOperands step).Obeys stands := by
  refine stands_onOperands fun stack stalls => ?_
  cases ((takes stack).fails (Prod.ext stalls rfl)).2

theorem stands_push (value : Single) : (push value).Obeys stands := by
  refine stands_onOperands fun stack => ?_
  cases room : stack.isFull with
  | true =>
    rw [BoundedStack.runOn_push_of_full room]
    nofun
  | false =>
    rw [BoundedStack.runOn_push_of_room room]
    nofun

theorem stands_pop : pop.Obeys stands := stands_takesOff BoundedStack.takesOff_pop

/-- What stands still is where it was. -/
theorem onward_of_stands {before after : Machine} (same : stands.moves before after) :
    before.Onward after := by
  simp only [stands, Prod.mk.injEq] at same
  obtain ⟨cursor, config, depth, size, top, store⟩ := same
  refine ⟨config, depth, by rw [cursor], fun mode => ?_, .inl cursor⟩
  cases mode with
  | interactive => simp only [lengthIn, cursor]
  | run => exact top
  | runStore => simp only [lengthIn, programText, Memory.width, size, store]

/-! ### Steps that go on -/

/-- Whether a step that begins in a machine never waits and goes on in the text, and leaves less to
read where its value is of a certain kind. -/
def ProceedsFrom (eats : α → Prop) (machine : Machine) (step : Action α) : Prop :=
  step.Ends machine
    (fun value after => machine.Onward after ∧ (eats value → after.left < machine.left))
    fun failure _ => failure ≠ .stalled

/-- Whether a step does so from every machine that so many more evaluations fit in. -/
def Proceeds (budget : Nat) (eats : α → Prop) (step : Action α) : Prop :=
  ∀ machine, machine.Fits budget → ProceedsFrom eats machine step

/-- Whether a step does so from every such machine that has read a certain token. -/
def ProceedsAt (token : Token) (budget : Nat) (eats : α → Prop) (step : Action α) : Prop :=
  ∀ machine, machine.Fits budget → machine.cursor.token = token → ProceedsFrom eats machine step

/-- Whether a step does so from every such machine that has less than a limit left to read. -/
def ProceedsWithin (limit budget : Nat) (eats : α → Prop) (step : Action α) : Prop :=
  ∀ machine, machine.Fits budget → machine.left < limit → ProceedsFrom eats machine step

/-- Whether a step goes on. -/
abbrev Finishes (budget : Nat) (step : Action α) : Prop := Proceeds budget (fun _ => False) step

/-- Whether a step always leaves less to read. -/
abbrev Consumes (budget : Nat) (step : Action α) : Prop := Proceeds budget (fun _ => True) step

/-- Whether a step always leaves less to read behind a certain token. -/
abbrev ConsumesAt (token : Token) (budget : Nat) (step : Action α) : Prop :=
  ProceedsAt token budget (fun _ => True) step

variable {budget : Nat} {eats wider : α → Prop} {last : β → Prop} {step : Action α}
  {next : α → Action β} {machine : Machine}

namespace ProceedsFrom

theorem mono (proceeds : ProceedsFrom eats machine step)
    (fewer : ∀ value, wider value → eats value) :
    ProceedsFrom wider machine step :=
  Attempt.Ends.mono proceeds (fun value _ kept => ⟨kept.1, fun ate => kept.2 (fewer value ate)⟩)
    fun _ _ => id

/-- The second step begins where the first one ended. -/
theorem bind (first : ProceedsFrom eats machine step)
    (second : ∀ value after, machine.Onward after → (eats value → after.left < machine.left) →
      ProceedsFrom last after (next value)) : ProceedsFrom last machine (step >>= next) := by
  refine Attempt.Ends.bind first fun value after kept => ?_
  obtain ⟨onward, less⟩ := kept
  refine Attempt.Ends.mono (second value after onward less) (fun result reached kept => ?_)
    fun _ _ => id
  exact ⟨onward.trans kept.1, fun ate => (kept.2 ate).trans_le onward.left_le⟩

/-- Behind a step that left less to read there is less left, whatever comes. -/
theorem bind_of_lt (first : ProceedsFrom eats machine step) (ate : ∀ value, eats value)
    (second : ∀ value after, machine.Onward after →
      ProceedsFrom (fun _ => False) after (next value)) :
    ProceedsFrom last machine (step >>= next) := by
  refine Attempt.Ends.bind first fun value after kept => ?_
  obtain ⟨onward, less⟩ := kept
  refine Attempt.Ends.mono (second value after onward) (fun result reached kept => ?_)
    fun _ _ => id
  exact ⟨onward.trans kept.1, fun _ => kept.1.left_le.trans_lt (less (ate value))⟩

theorem get_bind {next : Machine → Action β} (second : ProceedsFrom last machine (next machine)) :
    ProceedsFrom last machine (MonadState.get >>= next) := second

/-- What depends on the current token. -/
theorem token_bind {next : Token → Action β}
    (second : ProceedsFrom last machine (next machine.cursor.token)) :
    ProceedsFrom last machine (token >>= next) := second

/-- A token that is read over is no longer left for what follows. -/
theorem advance_bind {next : Unit → Action β} (some : machine.cursor.token ≠ .endOfText)
    (second : ∀ after, machine.Onward after → after.left < machine.left →
      ProceedsFrom (fun _ => False) after (next ())) :
    ProceedsFrom last machine (advance >>= next) := by
  have onward := onward_nextToken machine
  have less := machine.isBehind_nextToken.left_lt some
  refine Attempt.Ends.mono (second machine.nextToken onward less)
    (fun value after kept => ⟨onward.trans kept.1, fun _ => ?_⟩) fun _ _ => id
  exact kept.1.left_le.trans_lt less

end ProceedsFrom

namespace Proceeds

theorem finishes (proceeds : Proceeds budget eats step) : Finishes budget step :=
  fun machine fits => (proceeds machine fits).mono fun _ => False.elim

theorem at_token (proceeds : Proceeds budget eats step) (token : Token) :
    ProceedsAt token budget eats step := fun machine fits _ => proceeds machine fits

theorem pure {value : α} (nothing : ¬ eats value) :
    Proceeds budget eats (Pure.pure value : Action α) :=
  fun machine _ => ⟨.refl machine, fun ate => absurd ate nothing⟩

theorem throw {failure : Failure} (tells : failure ≠ .stalled) :
    Proceeds budget eats (MonadExcept.throw failure : Action α) := fun _ _ => tells

theorem fail (kind : ErrorKind) : Proceeds budget eats (Attempt.fail kind : Action α) := throw nofun

theorem of_stands (obeys : step.Obeys stands) : Finishes budget step := fun machine _ =>
  (obeys machine).ends.mono (fun _ _ same => ⟨onward_of_stands same, False.elim⟩) fun _ _ => id

theorem failWith (kind : ErrorKind) (detail : String) :
    Proceeds budget eats (Attempt.failWith kind detail : Action α) := throw nofun

/-- What follows a step that goes on may leave less to read. -/
theorem behind (first : Proceeds budget eats step)
    (second : ∀ value, Proceeds budget last (next value)) : Proceeds budget last (step >>= next) :=
  fun machine fits => (first machine fits).bind fun value after onward _ =>
    second value after (onward.fits fits)

/-- What is behind a token stays behind it when a step goes on. -/
theorem ends_behind {before : Machine} {promised : β → Machine → Prop}
    (first : Proceeds budget eats step) (fits : machine.Fits budget)
    (onward : before.Onward machine) (behind : before.IsBehind machine)
    (second : ∀ value after, after.Fits budget → before.Onward after → before.IsBehind after →
      (next value).Ends after promised fun failure _ => failure ≠ .stalled) :
    (step >>= next).Ends machine promised fun failure _ => failure ≠ .stalled :=
  Attempt.Ends.bind (first machine fits) fun value after kept =>
    second value after (kept.1.fits fits) (onward.trans kept.1) (kept.1.isBehind behind)

/-- What follows a step that leaves less to read need only go on. -/
theorem bind (first : Consumes budget step) (second : ∀ value, Finishes budget (next value)) :
    Proceeds budget last (step >>= next) :=
  fun machine fits => (first machine fits).bind_of_lt (fun _ => trivial) fun value after onward =>
    second value after (onward.fits fits)

theorem get_bind {next : Machine → Action β}
    (second : ∀ machine, Proceeds budget last (next machine)) :
    Proceeds budget last (MonadState.get >>= next) :=
  fun machine fits => second machine machine fits

theorem ite {condition : Prop} [Decidable condition] {first second : Action α}
    (holds : Proceeds budget eats first) (fails : Proceeds budget eats second) :
    Proceeds budget eats (if condition then first else second) := by
  split
  · exact holds
  · exact fails

/-- What depends on the current token. -/
theorem token_bind {next : Token → Action α}
    (second : ∀ token, ProceedsAt token budget eats (next token)) :
    Proceeds budget eats (token >>= next) :=
  fun machine fits => second machine.cursor.token machine fits rfl

end Proceeds

namespace ProceedsAt

variable {token : Token}

theorem behind_stands (obeys : step.Obeys stands)
    (second : ∀ value, ProceedsAt token budget last (next value)) :
    ProceedsAt token budget last (step >>= next) := by
  refine fun machine fits here => (obeys machine).ends.bind fun value after same => ?_
  have onward := onward_of_stands same
  have there : after.cursor = machine.cursor := congrArg Prod.fst same
  refine Attempt.Ends.mono (second value after (onward.fits fits) (there ▸ here))
    (fun result reached kept => ⟨onward.trans kept.1, fun ate => ?_⟩) fun _ _ => id
  exact (kept.2 ate).trans_le onward.left_le

/-- A token that is read over leaves less to read. -/
theorem advance_bind {next : Unit → Action α} (some : token ≠ .endOfText)
    (second : Finishes budget (next ())) : ProceedsAt token budget eats (advance >>= next) := by
  intro machine fits here
  have onward := onward_nextToken machine
  have less := machine.isBehind_nextToken.left_lt (here ▸ some)
  refine Attempt.Ends.mono (second machine.nextToken (onward.fits fits))
    (fun value after kept => ⟨onward.trans kept.1, fun _ => ?_⟩) fun _ _ => id
  exact kept.1.left_le.trans_lt less

end ProceedsAt

/-! ### Reading on -/

theorem Proceeds.advance : Finishes budget Machine.advance :=
  fun machine _ => ⟨onward_nextToken machine, False.elim⟩

theorem consumes_expect (symbol : Char) : Consumes budget (expect symbol) := by
  refine .token_bind fun token machine fits here => ?_
  split
  · rename_i is
    have some : machine.cursor.token ≠ .endOfText := by
      rintro ends
      rw [← here, ends] at is
      cases is
    exact ⟨onward_nextToken machine, fun _ => machine.isBehind_nextToken.left_lt some⟩
  · exact Proceeds.fail _ machine fits

theorem proceeds_accept (symbol : Char) : Proceeds budget (· = true) (accept symbol) := by
  refine .token_bind fun token machine fits here => ?_
  split
  · rename_i is
    have some : token ≠ .endOfText := by
      rintro rfl
      cases is
    refine ProceedsAt.advance_bind some ?_ machine fits here
    exact .pure not_false
  · exact Proceeds.pure Bool.false_ne_true machine fits

/-- **An evaluation that is opened goes on** where the one inside does, since one more fits in. -/
theorem Proceeds.nested (proceeds : ∀ machine : Machine, machine.depth ≤ machine.config.stackSize →
      machine.config.stackSize < machine.depth + budget → ProceedsFrom eats machine step) :
    Proceeds budget eats (Machine.nested step) := by
  intro machine fits
  have checked : (checkDepth "EXPRESSION").Ends machine
      (fun _ after => machine = after ∧ machine.depth < machine.config.stackSize)
      fun failure _ => failure ≠ .stalled :=
    .get_bind (.ite (fun _ => .of_error rfl nofun) fun shallow =>
      .pure ⟨rfl, Nat.not_le.mp shallow⟩)
  refine checked.bind fun _ after passed => .modify_bind ?_
  obtain ⟨rfl, shallow⟩ := passed
  have room : machine.config.stackSize < machine.depth + 1 + budget := by
    rw [Fits] at fits
    omega
  have inside := proceeds { machine with depth := machine.depth + 1 } shallow room
  refine Attempt.Ends.ensuring inside (fun value after kept => ?_) fun _ _ tells => tells
  obtain ⟨onward, less⟩ := kept
  exact ⟨⟨onward.config, congrArg (· - 1) onward.depth, onward.mode, onward.length, onward.place⟩,
    less⟩

/-! ### Rounds -/

namespace ProceedsWithin

variable {limit : Nat}

/-- What follows a step that goes on has no more left to read. -/
theorem behind (first : Proceeds budget eats step)
    (second : ∀ value, ProceedsWithin limit budget last (next value)) :
    ProceedsWithin limit budget last (step >>= next) :=
  fun machine fits few => (first machine fits).bind fun value after onward _ =>
    second value after (onward.fits fits) (onward.left_le.trans_lt few)

/-- What follows a step that leaves less to read has less left to read. -/
theorem bind (first : Consumes budget step)
    (second : ∀ value, ProceedsWithin limit budget (fun _ => False) (next value)) :
    ProceedsWithin (limit + 1) budget last (step >>= next) := by
  refine fun machine fits few => Attempt.Ends.bind (first machine fits) fun value after kept => ?_
  obtain ⟨onward, less⟩ := kept
  have fewer : after.left < limit := (less trivial).trans_le (Nat.le_of_lt_succ few)
  refine Attempt.Ends.mono (second value after (onward.fits fits) fewer)
    (fun result reached kept => ⟨onward.trans kept.1, fun _ => ?_⟩) fun _ _ => id
  exact kept.1.left_le.trans_lt (less trivial)

theorem get_bind {next : Machine → Action β}
    (second : ∀ machine, ProceedsWithin limit budget last (next machine)) :
    ProceedsWithin limit budget last (MonadState.get >>= next) :=
  fun machine fits few => second machine machine fits few

end ProceedsWithin

section Operators

variable {operator? : Token → Option Operator} {operand : Action Unit} {fuel : Nat}

/-- A round takes an operator and its operand. -/
theorem proceeds_round (consumes : Consumes budget operand) (fits : machine.Fits budget)
    (few : machine.left < 2 * (fuel + 1)) (some : machine.cursor.token ≠ .endOfText)
    (begins : (operator? machine.cursor.token).isSome)
    (rounds : ProceedsWithin (2 * fuel) budget (fun _ => False)
      (operatorsWithin operator? operand fuel)) {eats : Unit → Prop} :
    ProceedsFrom eats machine (operatorsWithin operator? operand (fuel + 1)) := by
  obtain ⟨operator, is⟩ := Option.isSome_iff_exists.mp begins
  refine .token_bind ?_
  rw [is]
  refine .advance_bind some fun after onward read => ?_
  refine (.bind consumes fun _ => ?_ : ProceedsWithin (2 * fuel + 1) budget _ _) after
    (onward.fits fits) (by omega)
  refine .behind (.of_stands (stands_takesOff BoundedStack.takesOff_popPair)) fun operands => ?_
  refine .get_bind fun _ => ?_
  refine .behind (.of_stands (obeys_lift (Arithmetic.isPlain_apply operator _ _ _))) fun _ => ?_
  exact .behind (.of_stands (stands_push _)) fun _ => rounds

variable (noEnd : operator? .endOfText = none) (consumes : Consumes budget operand)

include noEnd

theorem ne_end_of_operator {token : Token} (begins : (operator? token).isSome) :
    token ≠ .endOfText := by
  rintro rfl
  rw [noEnd] at begins
  cases begins

include consumes

/-- **Chains of operators end.** Each operator takes a token, and so does its operand, so there are
fewer rounds than bytes. -/
theorem proceeds_operatorsWithin (fuel : Nat) :
    ProceedsWithin (2 * fuel) budget (fun _ => False) (operatorsWithin operator? operand fuel) := by
  induction fuel with
  | zero => exact fun _ _ few => absurd few (Nat.not_lt_zero _)
  | succ fuel ih =>
    intro machine fits few
    cases begins : (operator? machine.cursor.token).isSome with
    | true => exact proceeds_round consumes fits few (ne_end_of_operator noEnd begins) begins ih
    | false =>
      refine .token_bind ?_
      rw [Option.isSome_eq_false_iff.mp begins |> Option.isNone_iff_eq_none.mp]
      exact Proceeds.pure id machine fits

theorem proceeds_operators : Finishes budget (operators operator? operand) := fun machine fits =>
  .get_bind (proceeds_operatorsWithin noEnd consumes _ machine fits machine.left_lt)

/-- Where an operator comes first, there is less left to read behind the chain. -/
theorem consumes_operators {token : Token} (begins : (operator? token).isSome) :
    ConsumesAt token budget (operators operator? operand) := by
  rintro machine fits rfl
  exact .get_bind (proceeds_round consumes fits machine.left_lt (ne_end_of_operator noEnd begins)
    begins (proceeds_operatorsWithin noEnd consumes machine.textLength))

end Operators

end Machine

end PocketBasic
