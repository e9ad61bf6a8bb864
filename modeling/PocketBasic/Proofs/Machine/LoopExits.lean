/-
**All ways out of a loop agree.** A loop can be over before it begins, at its closing word, or at a
`BREAK` in its body. Each way finds the end of the loop by other means: by counting words from the
head or from the middle of the body, by coming to the closing word, by a place that is marked while
the condition is evaluated again. They end at the same token, with the same loops under way.

* `Machine.IsLoop`: a loop in the text, and the machine that has read its head;
* `Machine.HasLeft`: a machine behind a loop;
* `Machine.closes_or_comes_back`: the closing word, which leaves the loop or begins another round;
* **`Machine.ways_out_of_a_loop_agree`**: the ways out, and `CONT` as the way to the closing word.
-/

import PocketBasic.Proofs.Machine.LoopWords

namespace PocketBasic.Machine

variable {machine begun before judged after : Machine} {loop : Loop} {finished : Bool}
  {body front back : List Token} {exit : Cursor}

/-- Whether a loop stands at the current token of a machine, with a body that is properly nested up
to its closing word, and its head was read to the first token of the body. -/
structure IsLoop (machine : Machine) (loop : Loop) (finished : Bool) (begun : Machine)
    (body : List Token) : Prop where
  ready : machine.IsReady
  opens : machine.cursor.token = .word loop.kind.opening
  enters : (enterLoop loop.kind.opening).runOn machine = (.ok (loop, finished), begun)
  reads : begun.Reads body
  balanced : Balanced loop.kind.opening loop.kind.closing body
  closes : (nextToken^[body.length] begun).Closes loop

/-- Whether a machine is behind a loop, with the loops that were under way when the loop began. -/
structure HasLeft (exit : Cursor) (begun after : Machine) : Prop where
  place : exit.SamePlace after.cursor
  loops : after.loops = begun.loops

/-- Whether a loop can come back to its beginning: the text from there is read the same way, and the
condition of a `WHILE`, which is judged again, ends where the body begins. -/
def ComesBack (loop : Loop) (begun : Machine) : Prop :=
  match loop.kind with
  | .while => ∃ (head : Machine) (count : Nat), head.IsReady ∧ head.IsAlong count begun ∧
      loop.resume = head.cursor.location ∧
      ∀ judge, head.IsAlong 0 judge → judge.IsReady → ∀ value after,
        Machine.value.runOn judge = (.ok value, after) → begun.cursor.SamePlace after.cursor
  | _ => loop.resume = begun.cursor.location

namespace IsLoop

/-- Where the body begins, and how the loop comes back. -/
theorem head (isLoop : IsLoop machine loop finished begun body) :
    begun.IsReady ∧ ComesBack loop begun := by
  have ready := isLoop.ready
  have enters := isLoop.enters
  rcases loop with ⟨⟨counter, limit, step⟩ | _ | _, resume⟩
  · change enterFor.runOn machine = _ at enters
    obtain ⟨head, opened, ran, rest⟩ := Attempt.exists_of_runOn_bind enters
    obtain ⟨-, again⟩ := readsOn_forHead machine ready isLoop.opens _ _ ran
    obtain ⟨_, unwound, changed, rest⟩ := Attempt.exists_of_runOn_bind rest
    cases changed
    obtain ⟨first, _, read, rest⟩ := Attempt.exists_of_runOn_bind rest
    cases rest
    have same : Machine.IsReady
        { opened with loops := (opened.loops.unwindTo (·.countsWith head.1)).2 } :=
      ⟨again.settled, again.guarded⟩
    have reads : ReadsOn anywhere (getScalar head.1) := .of_stays (obeys_getScalar _)
    exact ⟨(reads _ same trivial _ _ read).2, rfl⟩
  · change enterWhile.runOn machine = _ at enters
    obtain ⟨_, _, advanced, rest⟩ := Attempt.exists_of_runOn_bind enters
    obtain ⟨-, again⟩ := ReadsOn.advance (fun same => by cases same) machine ready isLoop.opens
      _ _ advanced
    cases advanced
    obtain ⟨_, _, looked, rest⟩ := Attempt.exists_of_runOn_bind rest
    cases looked
    obtain ⟨condition, opened, evaluated, rest⟩ := Attempt.exists_of_runOn_bind rest
    obtain ⟨_, _, changed, rest⟩ := Attempt.exists_of_runOn_bind rest
    cases changed
    cases rest
    obtain ⟨count, ahead⟩ := exists_isAhead_value again.settled again.guarded evaluated
    have ends := again.of_ahead ahead
    refine ⟨⟨ends.settled, ends.guarded⟩, machine.nextToken, count, again,
      ahead.isAlong.of_same rfl rfl rfl rfl, rfl, fun judge along judges value after ran => ?_⟩
    obtain ⟨place, ends⟩ := exists_end_of_value machine.nextToken 0
    exact (ends _ again.isAlong again _ _ evaluated).symm.trans (ends _ along judges _ _ ran)
  · change enterRepeat.runOn machine = _ at enters
    obtain ⟨_, _, advanced, rest⟩ := Attempt.exists_of_runOn_bind enters
    obtain ⟨-, again⟩ := ReadsOn.advance (fun same => by cases same) machine ready isLoop.opens
      _ _ advanced
    cases advanced
    obtain ⟨_, _, looked, rest⟩ := Attempt.exists_of_runOn_bind rest
    cases looked
    obtain ⟨_, _, changed, rest⟩ := Attempt.exists_of_runOn_bind rest
    cases changed
    cases rest
    exact ⟨⟨again.settled, again.guarded⟩, rfl⟩

/-- A loop is left or put on the others, as soon as its head was read. -/
theorem runOn_statement (isLoop : IsLoop machine loop finished begun body) :
    statement.runOn machine =
      (if finished then loop.kind.leave else onLoops (BoundedStack.push loop)).runOn begun := by
  rw [runOn_opening loop.kind.opening_cases isLoop.opens, Attempt.runOn_bind_ok isLoop.enters]

/-- A machine that has come to the closing word. -/
theorem closes_of_along (isLoop : IsLoop machine loop finished begun body)
    (along : begun.IsAlong body.length before) : before.Closes loop := by
  have here : before.cursor.token = (nextToken^[body.length] begun).cursor.token := by
    rw [along.token, token_iterate]
  have next : before.nextToken.cursor.token =
      (nextToken^[body.length] begun).nextToken.cursor.token := by
    rw [along.nextToken.token, ← token_iterate, Function.iterate_succ_apply']
  unfold Closes
  rw [here, next]
  exact isLoop.closes

end IsLoop

/-- Where a loop with a body of some tokens ends: behind its closing word, with the name behind a
`NEXT` and the condition behind an `UNTIL`. -/
def EndsAt (loop : Loop) (begun : Machine) (count : Nat) (exit : Cursor) : Prop :=
  match loop.kind with
  | .for _ _ _ => exit = begun.cursorAt (begun.behindCounter (count + 1))
  | .while => exit = begun.cursorAt (count + 1)
  | .repeat => ∀ judge, begun.IsAlong (count + 1) judge → judge.IsReady → ∀ condition after,
      value.runOn judge = (.ok condition, after) → exit.SamePlace after.cursor

theorem exists_endsAt (loop : Loop) (begun : Machine) (count : Nat) :
    ∃ exit, EndsAt loop begun count exit := by
  unfold EndsAt
  cases loop.kind with
  | «for» counter limit step => exact ⟨_, rfl⟩
  | «while» => exact ⟨_, rfl⟩
  | «repeat» => exact exists_end_of_value begun (count + 1)

/-- What stands behind a word of the text can be come back to. -/
theorem IsAlong.isReady_behind {start : Machine} {count : Nat} {word : Keyword}
    (along : start.IsAlong count machine) (ready : start.IsReady)
    (here : machine.cursor.token = .word word) (other : word ≠ .rem) :
    machine.nextToken.IsReady := by
  have whole : machine.IsReady := along.isReady_of_whole ready (by rw [here]; rfl)
  have plain : machine.cursor.token ≠ .word .rem := by
    rw [here]
    exact fun same => other (Token.word.inj same)
  exact (ReadsOn.advance plain machine whole rfl _ _ rfl).2

/-- What a machine is behind the closing word of a loop, once it was judged whether the loop is
over: behind the loop if it is, or else at the beginning of the body again, with the loop under
way. -/
def HasTurned (exit : Cursor) (begun judged : Machine) (loop : Loop) (ended : Bool)
    (after : Machine) : Prop :=
  after.memory = judged.memory ∧
    if ended then HasLeft exit begun after
    else after.loops = begun.loops.topped loop ∧ begun.IsAlong 0 after

section

variable {count : Nat} {ended : Bool}

theorem turns_for {counter : Name} {limit step : Single} {resume : Location}
    (ready : begun.IsReady) (comesBack : resume = begun.cursor.location)
    (along : begun.IsAlong count before)
    (loops : before.loops = begun.loops.topped { kind := .for counter limit step, resume })
    (judges : (Loop.isOver { kind := .for counter limit step, resume }).runOn before =
      (.ok ended, judged)) :
    ∃ after, (Loop.turn { kind := .for counter limit step, resume } ended).runOn judged =
        (.ok (), after) ∧
      HasTurned (begun.cursorAt (begun.behindCounter (count + 1))) begun judged
        { kind := .for counter limit step, resume } ended after := by
  subst comesBack
  have stays := isOver_for judges
  have named := along.nextToken.pastCounter
  have there := named.stays stays
  have same : judged.loops = before.loops := by
    obtain ⟨_, keeps, _⟩ := stays named.guarded
    rw [keeps.loops, loops_pastCounter, nextToken_eq]
  cases ended with
  | true =>
    have popped := runOn_popLoop (same.trans loops)
    exact ⟨_, Attempt.runOn_bind_ok popped _, rfl, there.place, rfl⟩
  | false =>
    refine ⟨jump begun.cursor.location judged, rfl, memory_jump _ _, ?_, ?_⟩
    · rw [jump_eq, same, loops]
    · exact there.jump ready.isAlong ready

theorem turns_while {resume : Location}
    (comesBack : ComesBack { kind := .while, resume } begun) (along : begun.IsAlong count before)
    (again : before.nextToken.IsReady)
    (loops : before.loops = begun.loops.topped { kind := .while, resume })
    (judges : (Loop.isOver { kind := .while, resume }).runOn before = (.ok ended, judged)) :
    ∃ after, (Loop.turn { kind := .while, resume } ended).runOn judged = (.ok (), after) ∧
      HasTurned (begun.cursorAt (count + 1)) begun judged { kind := .while, resume } ended
        after := by
  obtain ⟨condition, rfl, evaluated⟩ := isOver_while judges
  obtain ⟨head, front, headReady, opened, rfl, ends⟩ := comesBack
  have beside := opened.trans along.nextToken
  have marking : head.IsAlong (front + (count + 1))
      { before.nextToken with bookmark := some before.nextToken.cursor.location } :=
    beside.of_same rfl rfl rfl rfl
  have judging := marking.jump headReady.isAlong headReady
  have judges : Machine.IsReady (jump head.cursor.location
      { before.nextToken with bookmark := some before.nextToken.cursor.location }) :=
    ⟨isSettled_jump _ _, judging.guarded⟩
  have place := ends _ judging judges _ _ evaluated
  obtain ⟨further, ahead⟩ := exists_isAhead_value judges.settled judges.guarded evaluated
  have there := judging.ahead ahead
  have same : judged.loops = before.loops := by
    rw [ahead.keeps.loops, jump_eq, nextToken_eq]
  have mark : judged.bookmark = some before.nextToken.cursor.location := by
    rw [ahead.keeps.bookmark, jump_eq]
  cases condition.equals Single.zero with
  | true =>
    have left : head.IsAlong _ { judged with loops := begun.loops, bookmark := none } :=
      there.of_same rfl rfl rfl rfl
    refine ⟨jump before.nextToken.cursor.location
      { judged with loops := begun.loops, bookmark := none }, ?_, memory_jump _ _, ?_, ?_⟩
    · show (onLoops BoundedStack.pop >>= fun _ => takeBookmark "WEND").runOn judged = _
      rw [Attempt.runOn_bind_ok (runOn_popLoop (same.trans loops)), takeBookmark,
        Attempt.runOn_get_bind]
      simp only [mark]
      rfl
    · exact (along.nextToken.trans (left.jump beside again)).place
    · rw [jump_eq]
  | false =>
    have begins : head.IsAlong _ { judged with bookmark := none } :=
      there.of_same rfl rfl rfl rfl
    exact ⟨_, rfl, rfl, same.trans loops, begins.of_samePlace opened place⟩

theorem turns_repeat {resume : Location} (ready : begun.IsReady)
    (comesBack : resume = begun.cursor.location) (along : begun.IsAlong count before)
    (again : before.nextToken.IsReady)
    (loops : before.loops = begun.loops.topped { kind := .repeat, resume })
    (ends : EndsAt { kind := .repeat, resume } begun count exit)
    (judges : (Loop.isOver { kind := .repeat, resume }).runOn before = (.ok ended, judged)) :
    ∃ after, (Loop.turn { kind := .repeat, resume } ended).runOn judged = (.ok (), after) ∧
      HasTurned exit begun judged { kind := .repeat, resume } ended after := by
  subst comesBack
  obtain ⟨condition, rfl, evaluated⟩ := isOver_repeat judges
  obtain ⟨further, ahead⟩ := exists_isAhead_value again.settled again.guarded evaluated
  have there := along.nextToken.ahead ahead
  have same : judged.loops = before.loops := by rw [ahead.keeps.loops, nextToken_eq]
  cases condition.equals Single.zero with
  | false =>
    have popped := runOn_popLoop (same.trans loops)
    have place : exit.SamePlace judged.cursor := ends _ along.nextToken again _ _ evaluated
    exact ⟨_, Attempt.runOn_bind_ok popped _, rfl, place, rfl⟩
  | true =>
    refine ⟨jump begun.cursor.location judged, rfl, memory_jump _ _, ?_, ?_⟩
    · rw [jump_eq, same, loops]
    · exact there.jump ready.isAlong ready

/-- **A closing word leaves the loop if it is over**, and otherwise comes back to the beginning of
the body with the loop still under way. -/
theorem closes_or_comes_back (isLoop : IsLoop machine loop finished begun body)
    (ends : EndsAt loop begun body.length exit) (along : begun.IsAlong body.length before)
    (loops : before.loops = begun.loops.topped loop)
    (judges : loop.isOver.runOn before = (.ok ended, judged)) :
    ∃ after, statement.runOn before = (.ok (), after) ∧
      HasTurned exit begun judged loop ended after := by
  obtain ⟨ready, comesBack⟩ := isLoop.head
  have closes := isLoop.closes_of_along along
  have top : before.loops.top? = some loop := by rw [loops]; rfl
  rw [runOn_statement_closing closes, runOn_closing closes top, Attempt.runOn_bind_ok judges]
  have behind := along.isReady_behind ready closes.1
  rcases loop with ⟨⟨counter, limit, step⟩ | _ | _, resume⟩
  · exact ends ▸ turns_for ready comesBack along loops judges
  · exact ends ▸ turns_while comesBack along (behind (by exact nofun)) loops judges
  · exact turns_repeat ready comesBack along (behind (by exact nofun)) loops ends judges

end

/-! ### Ways out -/

/-- A `REPEAT` is not over before it begins. -/
theorem IsLoop.kind_ne_repeat (isLoop : IsLoop machine loop true begun body) :
    loop.kind ≠ .repeat := by
  intro kind
  have enters := isLoop.enters
  rw [kind] at enters
  change enterRepeat.runOn machine = _ at enters
  obtain ⟨_, _, -, rest⟩ := Attempt.exists_of_runOn_bind enters
  obtain ⟨_, _, -, rest⟩ := Attempt.exists_of_runOn_bind rest
  obtain ⟨_, _, -, rest⟩ := Attempt.exists_of_runOn_bind rest
  cases rest

/-- At a word of the body, the rest of the body is ahead. -/
theorem IsLoop.reads_from {word : Keyword} (isLoop : IsLoop machine loop finished begun body)
    (cut : body = front ++ .word word :: back) (along : begun.IsAlong front.length before) :
    before.Reads (.word word :: (back ++ [.word loop.kind.closing])) := by
  have reads : begun.Reads (body ++ [.word loop.kind.closing]) :=
    reads_append.mpr ⟨isLoop.reads, isLoop.closes.1, trivial⟩
  rw [cut, List.append_assoc] at reads
  exact along.reads reads

/-- **A loop that is left from a place in its body** ends behind its closing word. -/
theorem leaves {count : Nat} {tokens : List Token} (ready : begun.IsReady)
    (ends : EndsAt loop begun (count + tokens.length) exit) (along : begun.IsAlong count before)
    (balanced : Balanced loop.kind.opening loop.kind.closing tokens)
    (reads : before.Reads (tokens ++ [.word loop.kind.closing]))
    (loops : before.loops = begun.loops)
    (judges : loop.kind = .repeat → ∃ condition judged,
      value.runOn (nextToken^[tokens.length + 1] before) = (.ok condition, judged)) :
    ∃ after, loop.kind.leave.runOn before = (.ok (), after) ∧ HasLeft exit begun after := by
  have found := runOn_findBracket loop.kind.opening_ne_closing balanced reads
  have closing := (reads_append.mp reads).2.1
  have there := along.iterate tokens.length
  have behind := there.isReady_behind ready closing
  have further : begun.IsAlong (count + tokens.length + 1) (nextToken^[tokens.length + 1] before) :=
    along.iterate (tokens.length + 1)
  have same : (nextToken^[tokens.length + 1] before).loops = begun.loops := by
    rw [iterate_nextToken, loops]
  rw [Function.iterate_succ_apply'] at further same judges
  rcases loop with ⟨⟨counter, limit, step⟩ | _ | _, resume⟩
  · refine ⟨_, runOn_leaveFor balanced reads, ?_, ?_⟩
    · rw [Function.iterate_succ_apply', ends]
      exact further.pastCounter.place
    · rw [Function.iterate_succ_apply', loops_pastCounter, same]
  · exact ⟨_, Attempt.runOn_bind_ok found _, ends ▸ further.place, same⟩
  · obtain ⟨condition, judged, evaluated⟩ := judges rfl
    have again := behind (by exact nofun)
    obtain ⟨count, ahead⟩ := exists_isAhead_value again.settled again.guarded evaluated
    refine ⟨judged, (Attempt.runOn_bind_ok found _).trans ?_, ends _ further again _ _ evaluated,
      ahead.keeps.loops.trans same⟩
    rw [advance, Attempt.runOn_modify_bind, Attempt.runOn_bind_ok evaluated]
    rfl

/-- **All ways out of a loop agree.** A loop that is over on entry, at its closing word, or at a
`BREAK` in its body ends at one place with the loops that were under way before it; whatever the
variables are, as long as the condition that is judged there has a value. A loop that is not over is
entered, if there is room for it, and its closing word comes back to its body. `CONT` in a program
does what the closing word does, from there. -/
theorem ways_out_of_a_loop_agree (isLoop : IsLoop machine loop finished begun body) :
    ∃ exit : Cursor,
      (finished = true → ∃ after, statement.runOn machine = (.ok (), after) ∧
        HasLeft exit begun after) ∧
      (finished = false → begun.loops.isFull = false → ∃ after,
        statement.runOn machine = (.ok (), after) ∧ after.loops = begun.loops.topped loop ∧
          begun.IsAlong 0 after) ∧
      (∀ before ended judged, begun.IsAlong body.length before →
        before.loops = begun.loops.topped loop → loop.isOver.runOn before = (.ok ended, judged) →
          ∃ after, statement.runOn before = (.ok (), after) ∧
            if ended then HasLeft exit begun after
            else after.loops = begun.loops.topped loop ∧ begun.IsAlong 0 after) ∧
      (∀ front back before, body = front ++ .word .break :: back →
        Balanced loop.kind.opening loop.kind.closing back → begun.IsAlong front.length before →
        before.loops = begun.loops.topped loop →
        (loop.kind = .repeat → ∃ condition judged,
          value.runOn (nextToken^[back.length + 2] { before with loops := begun.loops }) =
            (.ok condition, judged)) →
          ∃ after, statement.runOn before = (.ok (), after) ∧ HasLeft exit begun after) ∧
      (∀ front back before, body = front ++ .word .cont :: back →
        Balanced loop.kind.opening loop.kind.closing back → begun.IsAlong front.length before →
        before.loops = begun.loops.topped loop → before.cursor.mode ≠ .interactive →
          statement.runOn before = statement.runOn (nextToken^[back.length + 1] before)) := by
  obtain ⟨exit, ends⟩ := exists_endsAt loop begun body.length
  have ready := isLoop.head.1
  have opening := isLoop.runOn_statement
  have reads : begun.Reads (body ++ [.word loop.kind.closing]) :=
    reads_append.mpr ⟨isLoop.reads, isLoop.closes.1, trivial⟩
  refine ⟨exit, fun isOver => ?_, fun goesOn room => ?_, fun before ended judged => ?_, ?_, ?_⟩
  · rw [opening, isOver]
    exact leaves ready (by rwa [Nat.zero_add]) ready.isAlong isLoop.balanced reads rfl
      fun kind => absurd kind (isOver ▸ isLoop).kind_ne_repeat
  · rw [opening, goesOn]
    refine ⟨_, runOn_onLoops (BoundedStack.runOn_push_of_room room), rfl, ?_⟩
    exact ready.isAlong.of_same rfl rfl rfl rfl
  · intro along loops judges
    obtain ⟨after, ran, -, turned⟩ := closes_or_comes_back isLoop ends along loops judges
    exact ⟨after, ran, turned⟩
  · intro front back before cut balanced along loops judges
    have here := (isLoop.reads_from cut along).1
    have popped : begun.IsAlong front.length { before with loops := begun.loops } :=
      along.of_same rfl rfl rfl rfl
    have ahead := (isLoop.reads_from cut popped).2
    rw [runOn_statement_word here]
    show ∃ after, breakStatement.runOn before = _ ∧ _
    rw [runOn_break loops]
    refine leaves ready ?_ popped.nextToken balanced ahead ?_ judges
    · rw [cut, List.length_append, List.length_cons] at ends
      rwa [Nat.add_assoc, Nat.add_comm 1]
    · rw [nextToken_eq]
  · intro front back before cut balanced along loops running
    have reads := isLoop.reads_from cut along
    have top : before.loops.top? = some loop := by rw [loops]; rfl
    have closing : begun.IsAlong body.length (nextToken^[back.length + 1] before) := by
      have there := along.iterate (back.length + 1)
      rwa [cut, List.length_append, List.length_cons]
    rw [runOn_statement_word reads.1, runOn_statement_closing (isLoop.closes_of_along closing)]
    exact runOn_cont running top balanced reads.2

/-- A loop with another one in its body is left at the same place by `BREAK` and by `NEXT`. -/
theorem ways_out_of_a_loop_agree_nested :
    let typed := ((enter (ascii "10 FOR I=1 TO 1:FOR J=1 TO 2:NEXT:BREAK:NEXT:PRINT I")).runOn
      (start { memorySize := 128 } {})).2
    let machine := ((execute 1).runOn ((enter (ascii "RUN")).runOn typed).2).2.nextToken
    let begun := (enterFor.runOn machine).2
    let entered := (statement.runOn machine).2
    ∃ exit : Cursor,
      (∃ after, statement.runOn (nextToken^[10] entered) = (.ok (), after) ∧
        HasLeft exit begun after) ∧
      ∃ after, statement.runOn (nextToken^[12] entered) = (.ok (), after) ∧
        HasLeft exit begun after := by
  intro typed machine begun entered
  let loop : Loop :=
    { kind := .for ⟨73, 0⟩ (.ofNat 1) (.ofNat 1), resume := { mode := .run, offset := 19 } }
  let inner : List Token := [.scalar ⟨74, 0⟩, .operator .equal, .number (.ofNat 1), .word .to,
    .number (.ofNat 2), .symbol 58]
  let front : List Token := .symbol 58 :: .word .for :: (inner ++ [.word .next, .symbol 58])
  have seen : machine.IsReady ∧ machine.cursor.token = .word .for ∧
      (enterFor.runOn machine).1 = .ok (loop, false) ∧
      begun.Reads (front ++ [.word .break, .symbol 58]) ∧
      (nextToken^[12] begun).cursor.token = .word .next ∧
      (nextToken^[12] begun).nextToken.cursor.token = .symbol 58 ∧
      begun.loops.isFull = false ∧
      (loop.isOver.runOn (nextToken^[12] entered)).1 = .ok true := by
    decide +kernel
  obtain ⟨ready, opens, enters, reads, closes, ends, room, judges⟩ := seen
  have inside : Balanced .for .next inner := .of_forall (by decide)
  have behind : Balanced .for .next [.symbol 58, .word .break, .symbol 58] :=
    .of_forall (by decide)
  have balanced : Balanced .for .next (front ++ [.word .break, .symbol 58]) :=
    .other nofun nofun nofun (.block inside behind)
  have unnamed : (nextToken^[12] begun).Closes loop := by
    refine ⟨closes, ?_⟩
    rw [ends]
    exact trivial
  have isLoop : IsLoop machine loop false begun (front ++ [.word .break, .symbol 58]) :=
    ⟨ready, opens, Prod.ext enters rfl, reads, balanced, unnamed⟩
  obtain ⟨exit, -, goesOn, leaves, breaks, -⟩ := ways_out_of_a_loop_agree isLoop
  obtain ⟨after, ran, loops, along⟩ := goesOn rfl room
  obtain rfl : entered = after := congrArg Prod.snd ran
  have same (count : Nat) : (nextToken^[count] entered).loops = begun.loops.topped loop := by
    rw [iterate_nextToken, loops]
  have breaking : begun.IsAlong 10 (nextToken^[10] entered) := Nat.zero_add 10 ▸ along.iterate 10
  have closing : begun.IsAlong 12 (nextToken^[12] entered) := Nat.zero_add 12 ▸ along.iterate 12
  have plain : Balanced .for .next [.symbol 58] := .of_forall (by decide)
  exact ⟨exit, breaks front [.symbol 58] _ rfl plain breaking (same 10) nofun,
    leaves _ true _ closing (same 12) (Prod.ext judges rfl)⟩

/-- In a typed line `CONT` goes on with a program that was interrupted, also in the body of a loop.
Here is no such program, whereas the `NEXT` behind the `CONT` comes back to the body. -/
theorem cont_in_typed_line_is_no_next :
    let typed := ((enter (ascii "FOR I=1 TO 2:CONT:NEXT:PRINT I")).runOn
      (start { memorySize := 128 } {})).2
    let entered := (statement.runOn typed).2
    typed.cursor.token = .word .for ∧ entered.nextToken.cursor.token = .word .cont ∧
      (nextToken^[3] entered).cursor.token = .word .next ∧
      (statement.runOn entered.nextToken).1 = .error (.reported { kind := .cannotContinue }) ∧
      (statement.runOn (nextToken^[3] entered)).1 = .ok () := by
  decide +kernel

end PocketBasic.Machine
