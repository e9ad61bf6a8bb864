/-
**The words of loops.** Each loop begins with a word and ends with another one. The closing word
judges whether the loop is over, and then leaves it or comes back; so do `BREAK` and `CONT`, which
look for the closing word first.

* `LoopKind.opening`, `LoopKind.closing`: the words of a loop; `Loop.isOver`, `Loop.turn`: what the
  closing word judges, and what it does then;
* `Machine.forHead`: the counter, its first value, the limit and the step of a `FOR`;
* `Machine.runOn_leaveFor`: where a `FOR` that is left ends;
* **`Machine.runOn_closing`**: the closing word of the innermost loop;
* `Machine.runOn_break`, `Machine.runOn_cont`: the other ways out of a round.
-/

import PocketBasic.Proofs.Machine.Along
import PocketBasic.Proofs.Machine.Conditionals
import PocketBasic.Proofs.Machine.Executing

namespace PocketBasic

/-! ### Words -/

/-- The word that begins a loop. -/
def LoopKind.opening : LoopKind → Keyword
  | .for _ _ _ => .for
  | .while => .while
  | .repeat => .repeat

/-- The word that ends the body of a loop. -/
def LoopKind.closing : LoopKind → Keyword
  | .for _ _ _ => .next
  | .while => .wend
  | .repeat => .until

theorem LoopKind.opening_ne_closing (kind : LoopKind) : kind.opening ≠ kind.closing := by
  cases kind <;> exact nofun

theorem LoopKind.opening_cases (kind : LoopKind) :
    kind.opening = .for ∨ kind.opening = .while ∨ kind.opening = .repeat := by
  cases kind <;> simp [opening]

/-- A stack with an entry on top of the others. -/
def BoundedStack.topped {α : Type} (older : BoundedStack α) (entry : α) : BoundedStack α :=
  { older with entries := entry :: older.entries }

namespace Machine

/-! ### Heads of loops -/

/-- The first part of `FOR`: the counter, and the value that it is given. -/
def openFor : Action (Name × Option Single) := do
  advance
  let counter ← match ← token with
    | .scalar name => pure name
    | _ => Attempt.fail .syntaxError
  advance
  if (← token).isOperator .equal then
    advance
    let first ← value
    setScalar counter first
    return (counter, some first)
  else return (counter, none)

/-- The limit and the step of a `FOR`. -/
def forBounds : Action (Single × Single) := do
  let limit ← valueAfter .to Single.largest
  let step ← valueAfter .step Single.one
  if !(← token).isTerminator then Attempt.fail .syntaxError else return (limit, step)

/-- `FOR` but for its last part: counter, first value, limit and step. -/
def forHead : Action (Name × Option Single × Single × Single) := do
  let (counter, first) ← openFor
  let (limit, step) ← forBounds
  return (counter, first, limit, step)

theorem forStatement_eq : forStatement = (do
    let (counter, _, limit, step) ← forHead
    beginFor counter limit step) := by
  have bounded (counter : Name) : (do
      let limit ← valueAfter .to Single.largest
      let step ← valueAfter .step Single.one
      if !(← token).isTerminator then Attempt.fail .syntaxError
      else beginFor counter limit step : Action Unit) = (do
      let (limit, step) ← forBounds
      beginFor counter limit step) := by
    simp only [forBounds, bind_assoc]
    refine bind_congr fun limit => bind_congr fun step => bind_congr fun token => ?_
    split
    · rfl
    · rfl
  simp only [forHead, openFor, bind_assoc]
  refine bind_congr fun _ => bind_congr fun read => ?_
  cases read with
  | scalar counter =>
    simp only [pure_bind, bind_assoc]
    refine bind_congr fun _ => bind_congr fun sign => ?_
    split
    · simp only [bind_assoc, pure_bind]
      exact bind_congr fun _ => bind_congr fun _ => bind_congr fun _ => bounded counter
    · simp only [pure_bind]
      exact bounded counter
  | _ => rfl

variable {α : Type} {start machine before after judged : Machine} {loop : Loop}
  {older : BoundedStack Loop} {counter : Name} {limit step : Single} {resume : Location}
  {count : Nat} {tokens : List Token}

/-- **The head of a `FOR` leaves the texts as they were**, and ends where the loop can come back. -/
theorem readsOn_forHead : ReadsOn (· = .word .for) forHead := by
  have bound (word : Keyword) (missing : Single) (other : word ≠ .rem) :
      ReadsOn anywhere (valueAfter word missing) := by
    refine .token_bind fun token => ?_
    split
    · rename_i found
      refine .bind (.advance ?_) fun _ => .value
      rintro rfl
      exact other (of_decide_eq_true found).symm
    · exact .pure _
  have bounds : ReadsOn anywhere forBounds := by
    refine .bind (bound .to _ nofun) fun limit => .bind (bound .step _ nofun) fun step => ?_
    refine .token_bind fun token => ?_
    split
    · exact .fail _
    · exact .pure _
  have assigned (counter : Name) : ReadsOn anywhere (do
      if (← token).isOperator .equal then
        advance
        let first ← value
        setScalar counter first
        return (counter, some first)
      else return (counter, none) : Action (Name × Option Single)) := by
    refine .token_bind fun token => ?_
    split
    · rename_i found
      refine .bind (.advance ?_) fun _ => .bind .value fun first => ?_
      · rintro rfl
        cases found
      · exact .bind (.of_stays (stays_setScalar counter first)) fun _ => .pure _
    · exact .pure _
  refine .bind (.bind (.advance nofun) fun _ => .token_bind fun token => ?_) fun _ =>
    .bind bounds fun _ => .pure _
  split
  · rw [pure_bind]
    exact .bind (.advance fun same => by cases same) fun _ => assigned _
  · exact .fail_bind _

/-! ### Behind NEXT -/

/-- The machine behind a name, if the current token is one. -/
def pastCounter (machine : Machine) : Machine :=
  match machine.cursor.token with
  | .scalar _ => machine.nextToken
  | _ => machine

/-- The number of tokens behind the name at a place, if one stands there. -/
def behindCounter (machine : Machine) (count : Nat) : Nat :=
  match (machine.cursorAt count).token with
  | .scalar _ => count + 1
  | _ => count

theorem runOn_skipCounter (machine : Machine) :
    skipCounter.runOn machine = (.ok (), machine.pastCounter) := by
  have looked : token.runOn machine = (.ok machine.cursor.token, machine) := rfl
  rw [skipCounter, Attempt.runOn_bind_ok looked, pastCounter]
  cases machine.cursor.token <;> rfl

theorem IsAlong.pastCounter (along : start.IsAlong count machine) :
    start.IsAlong (start.behindCounter count) machine.pastCounter := by
  unfold Machine.pastCounter behindCounter
  rw [along.token]
  split
  · exact along.nextToken
  · exact along

/-- The stacks and the bookmark are not touched by reading on. -/
theorem loops_pastCounter (machine : Machine) : machine.pastCounter.loops = machine.loops := by
  unfold pastCounter
  split
  · rw [nextToken_eq]
  · rfl

/-- **A `FOR` is left behind its `NEXT`**, and behind the name there. -/
theorem runOn_leaveFor {rest : List Token} (balanced : Balanced .for .next tokens)
    (reads : machine.Reads (tokens ++ .word .next :: rest)) :
    leaveFor.runOn machine = (.ok (), (nextToken^[tokens.length + 1] machine).pastCounter) := by
  rw [leaveFor, Attempt.runOn_bind_ok (runOn_findBracket (by decide) balanced reads), advance,
    Attempt.runOn_modify_bind, runOn_skipCounter, Function.iterate_succ_apply']

end Machine

/-! ### Closing words -/

namespace Loop

open Machine

/-- What the closing word of a loop judges: whether the loop is over. -/
def isOver (loop : Loop) : Action Bool :=
  match loop.kind with
  | .for counter limit step => do
    advance
    skipCounter
    let value := (← getScalar counter).add step
    setScalar counter value
    return isPast value limit step
  | .while => do
    advance
    modify fun machine => { machine with bookmark := some machine.cursor.location }
    moveTo loop.resume
    return (← value).equals Single.zero
  | .repeat => do
    advance
    return !(← value).equals Single.zero

/-- What the closing word of a loop does then: it leaves the loop, or comes back. -/
def turn (loop : Loop) (finished : Bool) : Action Unit :=
  match loop.kind, finished with
  | .while, true => do
    let _ ← onLoops BoundedStack.pop
    takeBookmark "WEND"
  | .while, false => modify fun machine => { machine with bookmark := none }
  | _, true => do let _ ← onLoops BoundedStack.pop
  | _, false => moveTo loop.resume

end Loop

/-- The statement of a closing word. -/
def LoopKind.closingStatement : LoopKind → Action Unit
  | .for _ _ _ => Machine.nextStatement
  | .while => Machine.wendStatement
  | .repeat => Machine.untilStatement

namespace Machine

variable {start machine before after judged : Machine} {loop : Loop}

/-- Whether the closing word at the current token is that of a loop: a `NEXT` may name the counter
of another one. -/
def Closes (loop : Loop) (machine : Machine) : Prop :=
  machine.cursor.token = .word loop.kind.closing ∧
    match loop.kind, machine.nextToken.cursor.token with
    | .for counter _ _, .scalar name => name = counter
    | _, _ => True

theorem runOn_statement_closing (closes : machine.Closes loop) :
    statement.runOn machine = loop.kind.closingStatement.runOn machine := by
  rw [runOn_statement_word closes.1]
  cases loop.kind <;> rfl

/-- The innermost loop is found if it is the one that is looked for. -/
theorem runOn_counterWithin {counter : Name} {limit step : Single} {resume : Location}
    {wanted : Option Name}
    (top : machine.loops.top? = some { kind := .for counter limit step, resume })
    (named : wanted.all (· = counter) = true) (fuel : Nat) :
    (counterWithin wanted (fuel + 1)).runOn machine =
      (.ok (counter, limit, step, resume), machine) := by
  rw [counterWithin, Attempt.runOn_get_bind, top]
  dsimp only
  rw [if_pos named]
  rfl

/-- **The closing word of the innermost loop** judges whether it is over, and leaves it or comes
back. -/
theorem runOn_closing (closes : machine.Closes loop) (top : machine.loops.top? = some loop) :
    loop.kind.closingStatement.runOn machine = (loop.isOver >>= loop.turn).runOn machine := by
  rcases loop with ⟨⟨counter, limit, step⟩ | _ | _, resume⟩
  · have counts (middle : Machine) : (do
        let value := (← getScalar counter).add step
        setScalar counter value
        if isPast value limit step then
          let _ ← onLoops BoundedStack.pop
        else moveTo resume : Action Unit).runOn middle = (do
        let value := (← getScalar counter).add step
        setScalar counter value
        Loop.turn { kind := .for counter limit step, resume } (isPast value limit step) :
          Action Unit).runOn middle := by
      refine congrArg (Attempt.runOn · middle) (bind_congr fun value => bind_congr fun _ => ?_)
      cases isPast (value.add step) limit step <;> rfl
    have named := closes.2
    show nextStatement.runOn machine = _
    simp only [Loop.isOver, bind_assoc, pure_bind]
    rw [nextStatement, advance, Attempt.runOn_modify_bind, Attempt.runOn_modify_bind,
      Attempt.runOn_bind_ok (runOn_skipCounter _)]
    have looked : token.runOn machine.nextToken =
      (.ok machine.nextToken.cursor.token, machine.nextToken) := rfl
    rw [Attempt.runOn_bind_ok looked, pastCounter]
    have after : machine.nextToken.loops.top? =
        some { kind := .for counter limit step, resume } := by
      rw [nextToken_eq]
      exact top
    cases read : machine.nextToken.cursor.token with
    | scalar name =>
      rw [read] at named
      have behind : machine.nextToken.nextToken.loops.top? =
          some { kind := .for counter limit step, resume } := by
        rw [nextToken_eq]
        exact after
      have finds := @runOn_counterWithin _ _ _ _ _ (some name) behind (decide_eq_true named)
      dsimp only
      rw [Attempt.runOn_modify_bind, Attempt.runOn_pure_bind, Attempt.runOn_get_bind,
        Attempt.runOn_bind_ok (finds _)]
      exact counts _
    | _ =>
      have finds := @runOn_counterWithin _ _ _ _ _ none after rfl
      dsimp only
      rw [Attempt.runOn_pure_bind, Attempt.runOn_get_bind, Attempt.runOn_bind_ok (finds _)]
      exact counts _
  · show wendStatement.runOn machine = _
    rw [wendStatement, Attempt.runOn_get_bind, top]
    simp only [Loop.isOver, bind_assoc, pure_bind]
    refine congrArg (Attempt.runOn · machine) (bind_congr fun _ => bind_congr fun _ => ?_)
    refine bind_congr fun _ => bind_congr fun condition => ?_
    cases condition.equals Single.zero <;> rfl
  · show untilStatement.runOn machine = _
    rw [untilStatement, Attempt.runOn_get_bind, top]
    simp only [Loop.isOver, bind_assoc, pure_bind]
    refine congrArg (Attempt.runOn · machine) (bind_congr fun _ => bind_congr fun condition => ?_)
    cases condition.equals Single.zero <;> rfl

/-- What a `NEXT` judges leaves the machine behind its name, with another value of the counter. -/
theorem isOver_for {counter : Name} {limit step : Single} {resume : Location} {finished : Bool}
    (ran : (Loop.isOver { kind := .for counter limit step, resume }).runOn machine =
      (.ok finished, judged)) : Conduct.stays.moves machine.nextToken.pastCounter judged := by
  obtain ⟨_, _, read, ran⟩ := Attempt.exists_of_runOn_bind ran
  cases read
  rw [Attempt.runOn_bind_ok (runOn_skipCounter _)] at ran
  have counted : (do
      let value := (← getScalar counter).add step
      setScalar counter value
      return isPast value limit step : Action Bool).Obeys Conduct.stays :=
    (obeys_getScalar counter).bind fun _ => (stays_setScalar counter _).bind fun _ => .pure _
  exact (counted _).moves ran

/-- What a `WEND` judges is evaluated behind the `WHILE`, while the place behind the `WEND` is
marked. -/
theorem isOver_while {resume : Location} {finished : Bool}
    (ran : (Loop.isOver { kind := .while, resume }).runOn machine = (.ok finished, judged)) :
    ∃ condition : Single, finished = condition.equals Single.zero ∧
      value.runOn (jump resume
        { machine.nextToken with bookmark := some machine.nextToken.cursor.location }) =
        (.ok condition, judged) := by
  obtain ⟨_, _, read, ran⟩ := Attempt.exists_of_runOn_bind ran
  cases read
  obtain ⟨_, _, marked, ran⟩ := Attempt.exists_of_runOn_bind ran
  cases marked
  obtain ⟨_, _, moved, ran⟩ := Attempt.exists_of_runOn_bind ran
  cases moved
  obtain ⟨condition, _, evaluated, ran⟩ := Attempt.exists_of_runOn_bind ran
  cases ran
  exact ⟨condition, rfl, evaluated⟩

theorem isOver_repeat {resume : Location} {finished : Bool}
    (ran : (Loop.isOver { kind := .repeat, resume }).runOn machine = (.ok finished, judged)) :
    ∃ condition : Single, finished = !condition.equals Single.zero ∧
      value.runOn machine.nextToken = (.ok condition, judged) := by
  obtain ⟨_, _, read, ran⟩ := Attempt.exists_of_runOn_bind ran
  cases read
  obtain ⟨condition, _, evaluated, ran⟩ := Attempt.exists_of_runOn_bind ran
  cases ran
  exact ⟨condition, rfl, evaluated⟩

theorem runOn_popLoop {older : BoundedStack Loop} (loops : machine.loops = older.topped loop) :
    (onLoops BoundedStack.pop).runOn machine = (.ok loop, { machine with loops := older }) :=
  runOn_onLoops (by rw [loops]; exact BoundedStack.runOn_pop_of_cons rfl)

end Machine

/-! ### Leaving and entering -/

/-- How a loop is left from the middle of its body. -/
def LoopKind.leave (kind : LoopKind) : Action Unit :=
  match kind with
  | .for _ _ _ => Machine.leaveFor
  | .while => do
    Machine.findBracket .while .wend
    Machine.advance
  | .repeat => do
    Machine.findBracket .repeat .until
    Machine.advance
    let _ ← Machine.value

namespace Machine

/-- `FOR` up to the test on entry: the loop, and whether it is over before it begins. -/
def enterFor : Action (Loop × Bool) := do
  let (counter, _, limit, step) ← forHead
  modify fun machine =>
    { machine with loops := (machine.loops.unwindTo (·.countsWith counter)).2 }
  let finished := isPast (← getScalar counter) limit step
  return ({ kind := .for counter limit step, resume := ← location }, finished)

/-- `WHILE` up to the test on entry. -/
def enterWhile : Action (Loop × Bool) := do
  advance
  let loop : Loop := { kind := .while, resume := ← location }
  let condition ← value
  modify fun machine => { machine with loops := (machine.loops.unwindTo (· = loop)).2 }
  return (loop, condition.equals Single.zero)

/-- `REPEAT`, which has no test on entry. -/
def enterRepeat : Action (Loop × Bool) := do
  advance
  let loop : Loop := { kind := .repeat, resume := ← location }
  modify fun machine => { machine with loops := (machine.loops.unwindTo (· = loop)).2 }
  return (loop, false)

/-- The first part of a loop that begins with a word. -/
def enterLoop : Keyword → Action (Loop × Bool)
  | .for => enterFor
  | .while => enterWhile
  | .repeat => enterRepeat
  | _ => Attempt.fail .syntaxError

/-- **A loop that is entered** is put on the others, or is left if it is over already. -/
theorem runOn_opening {word : Keyword} (loops : word = .for ∨ word = .while ∨ word = .repeat)
    (here : machine.cursor.token = .word word) :
    statement.runOn machine = (do
      let (loop, finished) ← enterLoop word
      if finished then loop.kind.leave else onLoops (BoundedStack.push loop)).runOn machine := by
  rw [runOn_statement_word here]
  refine congrArg (Attempt.runOn · machine) ?_
  rcases loops with rfl | rfl | rfl
  · show forStatement = (enterFor >>= _)
    rw [forStatement_eq]
    simp only [enterFor, bind_assoc, pure_bind]
    refine bind_congr fun head => bind_congr fun _ => bind_congr fun first => ?_
    cases isPast first head.2.2.1 head.2.2.2 <;> rfl
  · show whileStatement = (enterWhile >>= _)
    simp only [enterWhile, whileStatement, bind_assoc, pure_bind]
    refine bind_congr fun _ => bind_congr fun _ => bind_congr fun condition => ?_
    refine bind_congr fun _ => ?_
    cases condition.equals Single.zero <;> rfl
  · show repeatStatement = (enterRepeat >>= _)
    simp only [enterRepeat, repeatStatement, bind_assoc, pure_bind]
    rfl

/-! ### BREAK and CONT -/

/-- `BREAK` takes the innermost loop off and leaves it. -/
theorem runOn_break {older : BoundedStack Loop} (loops : machine.loops = older.topped loop) :
    breakStatement.runOn machine =
      loop.kind.leave.runOn { machine with loops := older }.nextToken := by
  rw [breakStatement, Attempt.runOn_bind_ok (runOn_popLoop loops), advance,
    Attempt.runOn_modify_bind]
  cases loop.kind <;> rfl

/-- **`CONT` in a program does what the closing word does**, from there. -/
theorem runOn_cont {back rest : List Token} (running : machine.cursor.mode ≠ .interactive)
    (top : machine.loops.top? = some loop)
    (balanced : Balanced loop.kind.opening loop.kind.closing back)
    (reads : machine.nextToken.Reads (back ++ .word loop.kind.closing :: rest)) :
    contStatement.runOn machine =
      loop.kind.closingStatement.runOn (nextToken^[back.length + 1] machine) := by
  have found := runOn_findBracket loop.kind.opening_ne_closing balanced reads
  have asked : isInteractive.runOn machine = (.ok false, machine) := by
    rw [isInteractive, Attempt.runOn_get_bind, Attempt.runOn_pure, decide_eq_false running]
  rw [contStatement, Attempt.runOn_bind_ok asked, if_neg Bool.false_ne_true, continueLoop,
    Attempt.runOn_get_bind, top]
  dsimp only
  rw [advance, Attempt.runOn_modify_bind, Function.iterate_succ_apply]
  cases kind : loop.kind <;> rw [kind] at found <;>
    exact Attempt.runOn_bind_ok found _

end Machine

end PocketBasic
