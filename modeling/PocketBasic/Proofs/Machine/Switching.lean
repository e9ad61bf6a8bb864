/-
**SWITCH picks one case.** The values behind each `CASE` of a block are evaluated in the order of
the text, until one of them is the wanted one. The part behind it ends at the next `CASE`, which
leads behind the block. If no value is the wanted one, the program goes on behind the `SWITCH`, and
the first `CASE` leads behind the block.

* `Caseless`, `Case`: the text between the words of a block, and a `CASE` with its part;
* `Machine.Lists`, `Machine.Passes`: values that are evaluated up to the wanted one, and cases
  without it; `Machine.exists_lists`: so are all values that are evaluated without an error;
* `Machine.Passes.leads`, `Machine.exists_runOn_found`: the search for the wanted value;
* `Machine.IsSwitch`: a `SWITCH` in the text, and the machine that has read its value;
* **`Machine.switch_picks_first_case`**: where `SWITCH` and `CASE` lead.
-/

import PocketBasic.Proofs.Machine.LoopWords

namespace PocketBasic

/-! ### Blocks of cases -/

/-- Whether a token is one of the words that a block of cases is made of. -/
def Token.isOfSwitch (token : Token) : Bool :=
  token = .word .switch || token = .word .case || token = .word .swend

/-- Tokens without a `CASE`, but for those of inner blocks. The text goes on behind them. -/
inductive Caseless : List Token → Prop
  | nil : Caseless []
  | other {token : Token} {rest : List Token} (goesOn : token ≠ .endOfText)
    (plain : token.isOfSwitch = false) : Caseless rest → Caseless (token :: rest)
  | block {inner rest : List Token} : Balanced .switch .swend inner → Caseless rest →
    Caseless (.word .switch :: (inner ++ .word .swend :: rest))

/-- A `CASE`: the list of its values, the end of this list, and the part up to the next `CASE` or to
the end of the block. -/
structure Case where
  list : List Token
  stop : Token
  part : List Token

namespace Case

/-- The text of a case. -/
def tokens (case : Case) : List Token := .word .case :: (case.list ++ case.stop :: case.part)

theorem append_tokens (case : Case) (rest : List Token) :
    case.tokens ++ rest = .word .case :: (case.list ++ case.stop :: (case.part ++ rest)) := by
  simp [tokens]

theorem length_tokens (case : Case) :
    case.tokens.length = case.list.length + 1 + case.part.length + 1 := by
  simp only [tokens, List.length_cons, List.length_append]
  omega

/-- Whether a case is one statement up to the end of its list, with a part that holds whole blocks
only. -/
structure IsProper (case : Case) : Prop where
  list : ∀ token ∈ case.list, token.isTerminator = false ∧ token.isOfSwitch = false
  stops : case.stop.isTerminator = true
  goesOn : case.stop ≠ .endOfText
  part : Caseless case.part

end Case

theorem Token.isOfSwitch_of_isTerminator {token : Token} (stops : token.isTerminator = true) :
    token.isOfSwitch = false := by
  cases token with
  | word _ => cases stops
  | _ => rfl

theorem Caseless.append {front rest : List Token}
    (plain : ∀ token ∈ front, token ≠ .endOfText ∧ token.isOfSwitch = false)
    (caseless : Caseless rest) : Caseless (front ++ rest) := by
  induction front with
  | nil => exact caseless
  | cons token front ih =>
    obtain ⟨goesOn, other⟩ := plain token (.head _)
    exact .other goesOn other (ih fun token member => plain token (.tail _ member))

theorem Balanced.append {opening closing : Keyword} {front rest : List Token}
    (first : Balanced opening closing front) (last : Balanced opening closing rest) :
    Balanced opening closing (front ++ rest) := by
  induction first with
  | nil => exact last
  | other goesOn opens closes _ ih => exact .other goesOn opens closes ih
  | @block inner _ inside _ _ ih =>
    rw [List.cons_append, List.append_assoc]
    exact .block inside ih

theorem Token.ne_of_isOfSwitch {token : Token} (plain : token.isOfSwitch = false) :
    token ≠ .word .switch ∧ token ≠ .word .case ∧ token ≠ .word .swend := by
  refine ⟨?_, ?_, ?_⟩ <;> rintro rfl <;> cases plain

theorem Caseless.balanced {tokens : List Token} (caseless : Caseless tokens) :
    Balanced .switch .swend tokens := by
  induction caseless with
  | nil => exact .nil
  | other goesOn plain _ ih =>
    obtain ⟨opens, -, closes⟩ := Token.ne_of_isOfSwitch plain
    exact .other goesOn opens closes ih
  | block inside _ ih => exact .block inside ih

namespace Case.IsProper

variable {case : Case}

/-- What is left of a list and its part, from any place in the list. -/
theorem caseless (proper : case.IsProper) (count : Nat) :
    Caseless (case.list.drop count ++ case.stop :: case.part) := by
  refine .append (fun token member => ?_) ?_
  · obtain ⟨inside, plain⟩ := proper.list token (List.mem_of_mem_drop member)
    refine ⟨?_, plain⟩
    rintro rfl
    cases inside
  · exact .other proper.goesOn (Token.isOfSwitch_of_isTerminator proper.stops) proper.part

theorem balanced (proper : case.IsProper) : Balanced .switch .swend case.tokens :=
  .other nofun nofun nofun (proper.caseless 0).balanced

end Case.IsProper

theorem Balanced.flatMap_tokens {block : List Case} (proper : ∀ case ∈ block, case.IsProper) :
    Balanced .switch .swend (block.flatMap Case.tokens) := by
  induction block with
  | nil => exact .nil
  | cons case block ih =>
    rw [List.flatMap_cons]
    exact (proper case (.head _)).balanced.append (ih fun case member =>
      proper case (.tail _ member))

namespace Machine

variable {machine after before begun last : Machine} {wanted : Single} {tokens rest : List Token}
  {count fuel depth : Nat} {answer : Bool} {block : List Case} {case : Case}

/-! ### Lists of values -/

/-- Values behind a `CASE`, one after the other up to the wanted one: how many tokens were read, and
whether one of the values is the wanted one. -/
inductive Lists (wanted : Single) : Machine → Nat → Bool → Machine → Prop
  | found {machine after : Machine} {count : Nat} {number : Single}
    (evaluated : value.runOn machine = (.ok number, after)) (ahead : machine.IsAhead after count)
    (equal : number.equals wanted = true) : Lists wanted machine count true after
  | last {machine after : Machine} {count : Nat} {number : Single}
    (evaluated : value.runOn machine = (.ok number, after)) (ahead : machine.IsAhead after count)
    (differs : number.equals wanted = false) (ends : after.cursor.token ≠ .symbol 44) :
    Lists wanted machine count false after
  | next {machine middle after : Machine} {count more : Nat} {number : Single} {answer : Bool}
    (evaluated : value.runOn machine = (.ok number, middle))
    (ahead : machine.IsAhead middle count) (differs : number.equals wanted = false)
    (goesOn : middle.cursor.token = .symbol 44)
    (others : Lists wanted middle.nextToken more answer after) :
    Lists wanted machine (count + 1 + more) answer after

theorem Lists.isAhead (lists : Lists wanted machine count answer after) :
    machine.IsAhead after count := by
  induction lists with
  | found _ ahead _ => exact ahead
  | last _ ahead _ _ => exact ahead
  | next _ ahead _ goesOn _ ih =>
    exact (ahead.trans (.nextToken ahead.guarded (by rw [goesOn]; rfl))).trans ih

theorem accept_comma (here : machine.cursor.token = .symbol 44) :
    (accept ',').runOn machine = (.ok true, machine.nextToken) := by
  have looked : token.runOn machine = (.ok (.symbol 44), machine) := by rw [← here]; rfl
  rw [accept, Attempt.runOn_bind_ok looked]
  rfl

theorem accept_other (other : machine.cursor.token ≠ .symbol 44) :
    (accept ',').runOn machine = (.ok false, machine) := by
  have looked : token.runOn machine = (.ok machine.cursor.token, machine) := rfl
  have differs : machine.cursor.token.isSymbol ',' = false := by
    cases here : machine.cursor.token with
    | symbol byte =>
      refine decide_eq_false fun same => ?_
      subst same
      exact other here
    | _ => rfl
  rw [accept, Attempt.runOn_bind_ok looked, differs, if_neg Bool.false_ne_true]
  rfl

/-- **Values are compared one after the other**, if there is fuel for as many tokens. -/
theorem Lists.runOn_caseMatchesWithin (lists : Lists wanted machine count answer after)
    (enough : count < fuel) :
    (caseMatchesWithin wanted fuel).runOn machine = (.ok answer, after) := by
  induction lists generalizing fuel with
  | found evaluated _ equal =>
    obtain ⟨fuel, rfl⟩ := Nat.exists_eq_add_of_lt enough
    rw [caseMatchesWithin, Attempt.runOn_bind_ok evaluated, if_pos equal]
    rfl
  | last evaluated _ differs ends =>
    obtain ⟨fuel, rfl⟩ := Nat.exists_eq_add_of_lt enough
    rw [caseMatchesWithin, Attempt.runOn_bind_ok evaluated, differs, if_neg Bool.false_ne_true,
      Attempt.runOn_bind_ok (accept_other ends), if_neg Bool.false_ne_true]
    rfl
  | next evaluated _ differs goesOn _ ih =>
    obtain ⟨fuel, rfl⟩ := Nat.exists_eq_add_of_lt enough
    rw [caseMatchesWithin, Attempt.runOn_bind_ok evaluated, differs, if_neg Bool.false_ne_true,
      Attempt.runOn_bind_ok (accept_comma goesOn), if_pos rfl]
    exact ih (by omega)

/-- Values that are compared without an error are such a list, whatever functions they call. -/
theorem exists_lists (ready : machine.IsReady)
    (ran : (caseMatchesWithin wanted fuel).runOn machine = (.ok answer, after)) :
    ∃ count, Lists wanted machine count answer after := by
  induction fuel generalizing machine with
  | zero => cases ran
  | succ fuel ih =>
    rw [caseMatchesWithin] at ran
    obtain ⟨number, middle, evaluated, ran⟩ := Attempt.exists_of_runOn_bind ran
    obtain ⟨count, ahead⟩ := exists_isAhead_value ready.settled ready.guarded evaluated
    cases differs : number.equals wanted with
    | true =>
      rw [differs, if_pos rfl] at ran
      cases ran
      exact ⟨count, .found evaluated ahead differs⟩
    | false =>
      rw [differs, if_neg Bool.false_ne_true] at ran
      by_cases comma : middle.cursor.token = .symbol 44
      · rw [Attempt.runOn_bind_ok (accept_comma comma), if_pos rfl] at ran
        have again : middle.nextToken.IsReady := by
          have step : middle.IsAhead middle.nextToken 1 :=
            .nextToken ahead.guarded (by rw [comma]; rfl)
          exact (ready.of_ahead ahead).of_ahead step
        obtain ⟨more, others⟩ := ih again ran
        exact ⟨_, .next evaluated ahead differs comma others⟩
      · rw [Attempt.runOn_bind_ok (accept_other comma), if_neg Bool.false_ne_true] at ran
        cases ran
        exact ⟨count, .last evaluated ahead differs comma⟩

/-! ### Cases that are passed over -/

/-- Cases without the wanted value, which are passed over from the first `CASE` on. -/
inductive Passes (wanted : Single) : List Case → Machine → Machine → Prop
  | nil (machine : Machine) : Passes wanted [] machine machine
  | cons {case : Case} {block : List Case} {machine after last : Machine} {count : Nat}
    (lists : Lists wanted machine.nextToken count false after)
    (others : Passes wanted block
      (nextToken^[case.list.length + 1 + case.part.length - count] after) last) :
    Passes wanted (case :: block) machine last

theorem runOn_findCaseWithin_other (fuel depth : Nat)
    (goesOn : machine.cursor.token ≠ .endOfText)
    (plain : machine.cursor.token.isOfSwitch = false) :
    (findCaseWithin wanted (fuel + 1) depth).runOn machine =
      (findCaseWithin wanted fuel depth).runOn machine.nextToken := by
  have looked : token.runOn machine = (.ok machine.cursor.token, machine) := rfl
  obtain ⟨opens, begins, closes⟩ := Token.ne_of_isOfSwitch plain
  conv_lhs => unfold findCaseWithin
  rw [Attempt.runOn_bind_ok looked]
  split
  · exact absurd ‹_› goesOn
  · exact absurd ‹_› opens
  · exact absurd ‹_› closes
  · exact absurd ‹_› closes
  · exact absurd ‹_› begins
  · rfl

theorem runOn_findCaseWithin_opening (fuel depth : Nat)
    (here : machine.cursor.token = .word .switch) :
    (findCaseWithin wanted (fuel + 1) depth).runOn machine =
      (findCaseWithin wanted fuel (depth + 1)).runOn machine.nextToken := by
  have looked : token.runOn machine = (.ok (.word .switch), machine) := by rw [← here]; rfl
  conv_lhs => unfold findCaseWithin
  rw [Attempt.runOn_bind_ok looked]
  rfl

theorem runOn_findCaseWithin_closing (fuel depth : Nat)
    (here : machine.cursor.token = .word .swend) :
    (findCaseWithin wanted (fuel + 1) (depth + 1)).runOn machine =
      (findCaseWithin wanted fuel depth).runOn machine.nextToken := by
  have looked : token.runOn machine = (.ok (.word .swend), machine) := by rw [← here]; rfl
  conv_lhs => unfold findCaseWithin
  rw [Attempt.runOn_bind_ok looked]
  rfl

theorem runOn_findCaseWithin_end (fuel : Nat) (here : machine.cursor.token = .word .swend) :
    (findCaseWithin wanted (fuel + 1) 0).runOn machine = (.ok false, machine) := by
  have looked : token.runOn machine = (.ok (.word .swend), machine) := by rw [← here]; rfl
  unfold findCaseWithin
  rw [Attempt.runOn_bind_ok looked]
  rfl

/-- The cases of an inner block are no cases of this one. -/
theorem runOn_findCaseWithin_inner_case (fuel depth : Nat)
    (here : machine.cursor.token = .word .case) :
    (findCaseWithin wanted (fuel + 1) (depth + 1)).runOn machine =
      (findCaseWithin wanted fuel (depth + 1)).runOn machine.nextToken := by
  have looked : token.runOn machine = (.ok (.word .case), machine) := by rw [← here]; rfl
  conv_lhs => unfold findCaseWithin
  rw [Attempt.runOn_bind_ok looked]
  rfl

theorem runOn_findCaseWithin_case (fuel : Nat) (here : machine.cursor.token = .word .case) :
    (findCaseWithin wanted (fuel + 1) 0).runOn machine = (do
      if ← caseMatchesWithin wanted (fuel + 1) then
        modify (skipTo Token.isTerminator)
        return true
      else findCaseWithin wanted fuel 0).runOn machine.nextToken := by
  have looked : token.runOn machine = (.ok (.word .case), machine) := by rw [← here]; rfl
  conv_lhs => unfold findCaseWithin
  rw [Attempt.runOn_bind_ok looked]
  rfl

/-- **Inner blocks are passed over**, with the cases in them. -/
theorem runOn_findCaseWithin_balanced (balanced : Balanced .switch .swend tokens) (fuel depth : Nat)
    (reads : machine.Reads tokens) :
    (findCaseWithin wanted (tokens.length + fuel) (depth + 1)).runOn machine =
      (findCaseWithin wanted fuel (depth + 1)).runOn (nextToken^[tokens.length] machine) := by
  induction balanced generalizing machine fuel depth with
  | nil => rw [List.length_nil, Nat.zero_add, Function.iterate_zero_apply]
  | @other token rest goesOn opens closes _ ih =>
    obtain ⟨here, later⟩ := reads
    rw [List.length_cons, Nat.add_right_comm, Function.iterate_succ_apply, ← ih _ _ later]
    by_cases begins : token = .word .case
    · exact runOn_findCaseWithin_inner_case _ _ (here.trans begins)
    · refine runOn_findCaseWithin_other _ _ (here ▸ goesOn) ?_
      rw [here]
      simp only [Token.isOfSwitch, opens, begins, closes, decide_false, Bool.or_self]
  | @block inner rest _ _ innerIh restIh =>
    obtain ⟨here, inside⟩ := reads
    obtain ⟨inside, closed, later⟩ := reads_append.mp inside
    rw [length_block_add, iterate_block, runOn_findCaseWithin_opening _ _ here, innerIh _ _ inside,
      runOn_findCaseWithin_closing _ _ closed, restIh _ _ later]

/-- **Text without a case of the block is passed over.** -/
theorem runOn_findCaseWithin_caseless (caseless : Caseless tokens) (fuel : Nat)
    (reads : machine.Reads tokens) :
    (findCaseWithin wanted (tokens.length + fuel) 0).runOn machine =
      (findCaseWithin wanted fuel 0).runOn (nextToken^[tokens.length] machine) := by
  induction caseless generalizing machine fuel with
  | nil => rw [List.length_nil, Nat.zero_add, Function.iterate_zero_apply]
  | other goesOn plain _ ih =>
    obtain ⟨here, later⟩ := reads
    rw [List.length_cons, Nat.add_right_comm, Function.iterate_succ_apply, ← ih _ later]
    exact runOn_findCaseWithin_other _ _ (here ▸ goesOn) (here ▸ plain)
  | @block inner rest balanced _ ih =>
    obtain ⟨here, inside⟩ := reads
    obtain ⟨inside, closed, later⟩ := reads_append.mp inside
    rw [length_block_add, iterate_block, runOn_findCaseWithin_opening _ _ here,
      runOn_findCaseWithin_balanced balanced _ _ inside, runOn_findCaseWithin_closing _ _ closed,
      ih _ later]

/-- Values end in the list of their case. -/
theorem IsAhead.count_le {list : List Token} {stop : Token} (ahead : machine.IsAhead after count)
    (reads : machine.Reads (list ++ stop :: rest)) (stops : stop.isTerminator = true) :
    count ≤ list.length := by
  by_contra beyond
  have passed := Token.not_isTerminator (ahead.passes list.length (by omega))
  rw [← token_iterate, (reads_append.mp reads).2.1, stops] at passed
  cases passed

/-- What is left of a case behind some of its values. -/
theorem IsAhead.reads_case (ahead : machine.IsAhead after count) (inside : count ≤ case.list.length)
    (reads : machine.Reads (case.list ++ case.stop :: (case.part ++ rest))) :
    after.Reads (case.list.drop count ++ case.stop :: (case.part ++ rest)) := by
  have short : (case.list.take count).length = count := by
    rw [List.length_take, Nat.min_eq_left inside]
  rw [← List.take_append_drop count case.list, List.append_assoc] at reads
  have along := ahead.isAlong
  rw [← short] at along
  exact along.reads reads

/-- **Cases without the wanted value are passed over**, and the search goes on behind them. -/
theorem Passes.leads {start : Machine} {place : Nat} (passes : Passes wanted block machine last)
    (proper : ∀ case ∈ block, case.IsProper)
    (reads : machine.Reads (block.flatMap Case.tokens ++ rest))
    (along : start.IsAlong place machine) (spare : Nat) :
    start.IsAlong (place + (block.flatMap Case.tokens).length) last ∧
      last.bookmark = machine.bookmark ∧
      ∃ fuel ≥ spare, (findCaseWithin wanted ((block.flatMap Case.tokens).length + spare) 0).runOn
        machine = (findCaseWithin wanted fuel 0).runOn last := by
  induction passes generalizing place spare with
  | nil =>
    refine ⟨along, rfl, spare, Nat.le_refl _, ?_⟩
    rw [List.flatMap_nil, List.length_nil, Nat.zero_add]
  | @cons case block machine after last count lists others ih =>
    have is := proper case (.head _)
    rw [List.flatMap_cons, List.append_assoc, case.append_tokens] at reads
    obtain ⟨here, reads⟩ := reads
    have ahead := lists.isAhead
    have inside := ahead.count_le reads is.stops
    have behind := ahead.reads_case inside reads
    have left : (case.list.drop count ++ case.stop :: case.part).length =
        case.list.length + 1 + case.part.length - count := by
      simp only [List.length_append, List.length_drop, List.length_cons]
      omega
    rw [← List.cons_append, ← List.append_assoc] at behind
    obtain ⟨front, further⟩ := reads_append.mp behind
    rw [left] at further
    have there := (along.nextToken.ahead ahead).iterate
      (case.list.length + 1 + case.part.length - count)
    obtain ⟨arrives, bookmark, fuel, enough, ran⟩ := ih
      (fun case member => proper case (.tail _ member)) further there (spare + count)
    rw [List.flatMap_cons, List.length_append, case.length_tokens]
    refine ⟨?_, ?_, fuel, by omega, ?_⟩
    · have total : place + (case.list.length + 1 + case.part.length + 1 +
          (block.flatMap Case.tokens).length) = place + 1 + count +
            (case.list.length + 1 + case.part.length - count) +
              (block.flatMap Case.tokens).length := by omega
      rw [total]
      exact arrives
    · rw [bookmark, iterate_nextToken, ahead.keeps.bookmark, nextToken_eq]
    · have total : case.list.length + 1 + case.part.length + 1 +
          (block.flatMap Case.tokens).length + spare =
            (case.list.drop count ++ case.stop :: case.part).length +
              ((block.flatMap Case.tokens).length + (spare + count)) + 1 := by
        rw [left]
        omega
      rw [total, runOn_findCaseWithin_case _ here,
        Attempt.runOn_bind_ok (lists.runOn_caseMatchesWithin (by rw [left]; omega)),
        if_neg Bool.false_ne_true, runOn_findCaseWithin_caseless (is.caseless count) _ front, left]
      exact ran

/-- **The search ends at the first case with the wanted value**, behind its list. -/
theorem exists_runOn_found {start : Machine} {place spare : Nat} (proper : case.IsProper)
    (reads : machine.Reads (case.tokens ++ rest)) (along : start.IsAlong place machine)
    (lists : Lists wanted machine.nextToken count true after) (enough : case.list.length ≤ spare) :
    ∃ found, (findCaseWithin wanted (spare + 1) 0).runOn machine = (.ok true, found) ∧
      start.IsAlong (place + 1 + case.list.length) found := by
  rw [case.append_tokens] at reads
  obtain ⟨here, reads⟩ := reads
  have ahead := lists.isAhead
  have inside := ahead.count_le reads proper.stops
  have behind := ahead.reads_case inside reads
  have skipped := skipTo_eq_of_reads rfl behind
    (fun token member => (proper.list token (List.mem_of_mem_drop member)).1) proper.stops
  have there := (along.nextToken.ahead ahead).iterate (case.list.drop count).length
  have total : place + 1 + count + (case.list.drop count).length =
      place + 1 + case.list.length := by
    rw [List.length_drop]
    omega
  rw [total, ← skipped] at there
  refine ⟨_, ?_, there⟩
  rw [runOn_findCaseWithin_case _ here,
    Attempt.runOn_bind_ok (lists.runOn_caseMatchesWithin (by omega)), if_pos rfl]
  rfl

/-! ### SWITCH and CASE -/

section

variable {lead : List Token} {front back : List Case} {chosen : Case}

/-- There is fuel for a block, and for more. -/
theorem exists_spare (caseless : Caseless lead) (proper : ∀ case ∈ block, case.IsProper)
    (reads : machine.Reads (lead ++ (block.flatMap Case.tokens ++ [.word .swend]))) :
    ∃ spare, machine.textLength + 1 =
      lead.length + ((block.flatMap Case.tokens).length + (spare + 1)) := by
  have goesOn : .endOfText ∉ lead ++ (block.flatMap Case.tokens ++ [.word .swend]) := by
    simp only [List.mem_append, List.mem_singleton, reduceCtorEq, or_false, not_or]
    exact ⟨caseless.balanced.goesOn, (Balanced.flatMap_tokens proper).goesOn⟩
  have total : (lead ++ (block.flatMap Case.tokens ++ [Token.word .swend])).length =
      lead.length + (block.flatMap Case.tokens).length + 1 := by
    simp only [List.length_append, List.length_singleton, Nat.add_assoc]
  have short : (lead ++ (block.flatMap Case.tokens ++ [Token.word .swend])).length ≤
      machine.textLength + 1 := by
    cases text : lead ++ (block.flatMap Case.tokens ++ [Token.word .swend]) with
    | nil => exact Nat.zero_le _
    | cons first others =>
      rw [text] at reads goesOn
      have inside : .endOfText ∉ others := fun member => goesOn (.tail _ member)
      have ahead : machine.ReadsAt 0 (first :: others) := reads
      exact Nat.succ_le_succ (ahead.length_le inside)
  obtain ⟨spare, more⟩ := Nat.exists_eq_add_of_le (total ▸ short)
  exact ⟨spare, by omega⟩

/-- Whether a `SWITCH` stands at the current token of a machine, with cases up to its `SWEND`, and
its value was read up to the text before them. -/
structure IsSwitch (machine : Machine) (wanted : Single) (begun : Machine) (lead : List Token)
    (block : List Case) : Prop where
  ready : machine.IsReady
  opens : machine.cursor.token = .word .switch
  evaluates : value.runOn machine.nextToken = (.ok wanted, begun)
  reads : begun.Reads (lead ++ (block.flatMap Case.tokens ++ [.word .swend]))
  caseless : Caseless lead
  proper : ∀ case ∈ block, case.IsProper

/-- The machine that looks through the cases, at the first of them. -/
def looking (begun : Machine) (lead : List Token) : Machine :=
  nextToken^[lead.length] { begun with bookmark := some begun.cursor.location }

namespace IsSwitch

theorem isReady (isSwitch : IsSwitch machine wanted begun lead block) : begun.IsReady := by
  obtain ⟨-, again⟩ :=
    ReadsOn.advance (fun same => by cases same) machine isSwitch.ready isSwitch.opens _ _ rfl
  obtain ⟨_, ahead⟩ := exists_isAhead_value again.settled again.guarded isSwitch.evaluates
  exact again.of_ahead ahead

theorem along_looking (isSwitch : IsSwitch machine wanted begun lead block) :
    begun.IsAlong lead.length (looking begun lead) := by
  have marking : begun.IsAlong 0 { begun with bookmark := some begun.cursor.location } :=
    isSwitch.isReady.isAlong.of_same rfl rfl rfl rfl
  have scanning := marking.iterate lead.length
  rw [Nat.zero_add] at scanning
  exact scanning

theorem reads_looking (isSwitch : IsSwitch machine wanted begun lead block) :
    (looking begun lead).Reads (block.flatMap Case.tokens ++ [.word .swend]) :=
  isSwitch.along_looking.reads isSwitch.reads

/-- What a `SWITCH` does: it looks through its cases, with fuel for all of them. -/
theorem exists_runOn_statement (isSwitch : IsSwitch machine wanted begun lead block) :
    ∃ spare, statement.runOn machine = (do
      if ← findCaseWithin wanted ((block.flatMap Case.tokens).length + (spare + 1)) 0 then
        modify fun machine => { machine with bookmark := none }
      else takeBookmark "SWITCH" : Action Unit).runOn (looking begun lead) := by
  let marked : Machine := { begun with bookmark := some begun.cursor.location }
  have marking : begun.IsAlong 0 marked := isSwitch.isReady.isAlong.of_same rfl rfl rfl rfl
  have reads := marking.reads_of_iterate isSwitch.reads
  obtain ⟨spare, fuel⟩ := exists_spare isSwitch.caseless isSwitch.proper reads
  refine ⟨spare, ?_⟩
  rw [runOn_statement_word isSwitch.opens]
  show switchStatement.runOn machine = _
  rw [switchStatement, advance, Attempt.runOn_modify_bind, Attempt.runOn_bind_ok isSwitch.evaluates,
    Attempt.runOn_modify_bind, Attempt.runOn_get_bind, Attempt.runOn_bind_eq_goOn,
    Attempt.runOn_bind_eq_goOn]
  show Attempt.goOn ((findCaseWithin wanted (marked.textLength + 1) 0).runOn marked) _ = _
  rw [fuel, runOn_findCaseWithin_caseless isSwitch.caseless _ (reads_append.mp reads).1]
  rfl

/-- What is ahead at a case of a block. -/
theorem reads_cases (isSwitch : IsSwitch machine wanted begun lead (front ++ block))
    (along : begun.IsAlong (lead.length + (front.flatMap Case.tokens).length) before) :
    before.Reads (block.flatMap Case.tokens ++ [.word .swend]) := by
  have reads := isSwitch.reads
  rw [List.flatMap_append, List.append_assoc, ← List.append_assoc] at reads
  rw [← List.length_append] at along
  exact along.reads reads

/-- Behind all cases stands the end of the block. -/
theorem closes (isSwitch : IsSwitch machine wanted begun lead block)
    (along : begun.IsAlong (lead.length + (block.flatMap Case.tokens).length) before) :
    before.cursor.token = .word .swend := by
  have reads := isSwitch.reads
  rw [← List.append_assoc] at reads
  rw [← List.length_append] at along
  exact (along.reads reads).1

/-- **The first case with the value is picked**, and the program goes on behind its list. -/
theorem picks (isSwitch : IsSwitch machine wanted begun lead (front ++ chosen :: back))
    (passes : Passes wanted front (looking begun lead) before)
    (lists : Lists wanted before.nextToken count true after) :
    ∃ picked, statement.runOn machine = (.ok (), picked) ∧ picked.bookmark = none ∧
      begun.IsAlong (lead.length + (front.flatMap Case.tokens).length + 1 + chosen.list.length)
        picked := by
  obtain ⟨spare, ran⟩ := isSwitch.exists_runOn_statement
  have reads := isSwitch.reads_looking
  rw [List.flatMap_append, List.append_assoc] at reads
  obtain ⟨along, -, left, enough, searched⟩ := passes.leads
    (fun case member => isSwitch.proper case (List.mem_append_left _ member)) reads
    isSwitch.along_looking (((chosen :: back).flatMap Case.tokens).length + (spare + 1))
  have ahead := isSwitch.reads_cases along
  rw [List.flatMap_cons, List.append_assoc] at ahead
  rw [List.flatMap_cons, List.length_append, chosen.length_tokens] at enough
  obtain ⟨left, rfl⟩ : ∃ more, left = more + 1 := ⟨left - 1, by omega⟩
  have room : chosen.list.length ≤ left := by omega
  obtain ⟨found, finds, there⟩ :=
    exists_runOn_found (isSwitch.proper chosen (by simp)) ahead along lists room
  rw [← Nat.add_assoc, ← List.length_append, ← List.flatMap_append] at searched
  refine ⟨{ found with bookmark := none }, ?_, rfl, there.of_same rfl rfl rfl rfl⟩
  rw [ran, Attempt.runOn_bind_ok (searched.trans finds)]
  rfl

/-- **If no case has the value**, the program goes on behind the value. -/
theorem goes_on (isSwitch : IsSwitch machine wanted begun lead block)
    (passes : Passes wanted block (looking begun lead) last) :
    ∃ back, statement.runOn machine = (.ok (), back) ∧ back.bookmark = none ∧
      begun.IsAlong 0 back := by
  obtain ⟨spare, ran⟩ := isSwitch.exists_runOn_statement
  obtain ⟨along, bookmark, left, enough, searched⟩ := passes.leads isSwitch.proper
    isSwitch.reads_looking isSwitch.along_looking (spare + 1)
  obtain ⟨left, rfl⟩ : ∃ more, left = more + 1 := ⟨left - 1, by omega⟩
  have closes := isSwitch.closes along
  rw [runOn_findCaseWithin_end _ closes] at searched
  have mark : last.bookmark = some begun.cursor.location := by
    rw [bookmark, looking, iterate_nextToken]
  have unmarked : begun.IsAlong _ { last with bookmark := none } := along.of_same rfl rfl rfl rfl
  refine ⟨jump begun.cursor.location { last with bookmark := none }, ?_, by rw [jump_eq],
    unmarked.jump isSwitch.isReady.isAlong isSwitch.isReady⟩
  rw [ran, Attempt.runOn_bind_ok searched]
  show (takeBookmark "SWITCH").runOn last = _
  rw [takeBookmark, Attempt.runOn_get_bind]
  simp only [mark]
  rfl

/-- **A `CASE` that is reached leads behind its block.** -/
theorem case_leads_behind
    (isSwitch : IsSwitch machine wanted begun lead (front ++ chosen :: back))
    (along : begun.IsAlong (lead.length + (front.flatMap Case.tokens).length) before) :
    ∃ after, statement.runOn before = (.ok (), after) ∧ after.bookmark = before.bookmark ∧
      begun.IsAlong
        (lead.length + ((front ++ chosen :: back).flatMap Case.tokens).length + 1) after := by
  have is := isSwitch.proper chosen (by simp)
  have others : Balanced .switch .swend (back.flatMap Case.tokens) :=
    .flatMap_tokens fun case member => isSwitch.proper case (by simp [member])
  have ahead := isSwitch.reads_cases along
  rw [List.flatMap_cons, Case.tokens, List.cons_append, List.cons_append] at ahead
  obtain ⟨here, behind⟩ := ahead
  have found := runOn_findBracket (by decide) ((is.caseless 0).balanced.append others) behind
  refine ⟨nextToken^[((chosen.list.drop 0 ++ chosen.stop :: chosen.part) ++
    back.flatMap Case.tokens).length + 1] before.nextToken, ?_, ?_, ?_⟩
  · rw [runOn_statement_word here]
    show caseStatement.runOn before = _
    rw [caseStatement, advance, Attempt.runOn_modify_bind, Attempt.runOn_bind_ok found,
      Attempt.runOn_modify, Function.iterate_succ_apply']
  · rw [iterate_nextToken, nextToken_eq]
  · have there := along.nextToken.iterate (((chosen.list.drop 0 ++ chosen.stop :: chosen.part) ++
      back.flatMap Case.tokens).length + 1)
    have total : lead.length + ((front ++ chosen :: back).flatMap Case.tokens).length + 1 =
        lead.length + (front.flatMap Case.tokens).length + 1 +
          (((chosen.list.drop 0 ++ chosen.stop :: chosen.part) ++
            back.flatMap Case.tokens).length + 1) := by
      simp only [List.flatMap_append, List.flatMap_cons, List.length_append, List.drop_zero,
        List.length_cons, Case.length_tokens]
      omega
    rw [total]
    exact there

/-- **A `SWEND` that is reached leads behind its block.** -/
theorem swend_leads_behind (isSwitch : IsSwitch machine wanted begun lead block)
    (along : begun.IsAlong (lead.length + (block.flatMap Case.tokens).length) before) :
    ∃ after, statement.runOn before = (.ok (), after) ∧ after.bookmark = before.bookmark ∧
      begun.IsAlong (lead.length + (block.flatMap Case.tokens).length + 1) after :=
  ⟨before.nextToken, runOn_statement_word (isSwitch.closes along), by rw [nextToken_eq],
    along.nextToken⟩

end IsSwitch

/-- **SWITCH picks the first case with its value**, and goes on behind the value if there is none;
nothing is marked afterwards. From everywhere in the block the next `CASE` or `SWEND` leads behind
the block. -/
theorem switch_picks_first_case (isSwitch : IsSwitch machine wanted begun lead block) :
    (∀ front chosen back before count after, block = front ++ chosen :: back →
      Passes wanted front (looking begun lead) before →
      Lists wanted before.nextToken count true after →
        ∃ picked, statement.runOn machine = (.ok (), picked) ∧ picked.bookmark = none ∧
          begun.IsAlong (lead.length + (front.flatMap Case.tokens).length + 1 + chosen.list.length)
            picked) ∧
    (∀ last, Passes wanted block (looking begun lead) last →
      ∃ back, statement.runOn machine = (.ok (), back) ∧ back.bookmark = none ∧
        begun.IsAlong 0 back) ∧
    (∀ front case back before, block = front ++ case :: back →
      begun.IsAlong (lead.length + (front.flatMap Case.tokens).length) before →
        ∃ after, statement.runOn before = (.ok (), after) ∧ after.bookmark = before.bookmark ∧
          begun.IsAlong (lead.length + (block.flatMap Case.tokens).length + 1) after) ∧
    ∀ before, begun.IsAlong (lead.length + (block.flatMap Case.tokens).length) before →
      ∃ after, statement.runOn before = (.ok (), after) ∧ after.bookmark = before.bookmark ∧
        begun.IsAlong (lead.length + (block.flatMap Case.tokens).length + 1) after := by
  refine ⟨?_, fun last passes => isSwitch.goes_on passes, ?_,
    fun before along => isSwitch.swend_leads_behind along⟩
  · rintro front chosen back before count after rfl passes lists
    exact isSwitch.picks passes lists
  · rintro front case back before rfl along
    exact isSwitch.case_leads_behind along

/-- The second of three cases, the end of its part, and a third case that has the value as well. -/
theorem switch_picks_first_case_second :
    let typed := ((enter (ascii ("10 SWITCH 2:CASE 1:PRINT 1:CASE 3,2:PRINT 2:CASE 2:PRINT 3:" ++
      "SWEND:PRINT 4"))).runOn (start { memorySize := 128 } {})).2
    let machine := ((execute 1).runOn ((enter (ascii "RUN")).runOn typed).2).2.nextToken
    let begun := (value.runOn machine.nextToken).2
    ∃ picked, statement.runOn machine = (.ok (), picked) ∧ picked.bookmark = none ∧
      begun.IsAlong 11 picked ∧ ∃ after,
        statement.runOn (nextToken^[4] picked) = (.ok (), after) ∧ after.bookmark = none ∧
          begun.IsAlong 22 after := by
  intro typed machine begun
  let printing (digit : Nat) : List Token := [.word .print, .number (.ofNat digit), .symbol 58]
  let first : Case := ⟨[.number (.ofNat 1)], .symbol 58, printing 1⟩
  let second : Case :=
    ⟨[.number (.ofNat 3), .symbol 44, .number (.ofNat 2)], .symbol 58, printing 2⟩
  let third : Case := ⟨[.number (.ofNat 2)], .symbol 58, printing 3⟩
  let scanning := looking begun [.symbol 58]
  let judged := (value.runOn scanning.nextToken).2
  let before := nextToken^[4] judged
  have seen : machine.IsReady ∧ machine.cursor.token = .word .switch ∧
      (value.runOn machine.nextToken).1 = .ok (.ofNat 2) ∧
      begun.Reads ([.symbol 58] ++ ([first, second, third].flatMap Case.tokens ++
        [.word .swend])) ∧
      (value.runOn scanning.nextToken).1 = .ok (.ofNat 1) ∧ scanning.nextToken.IsReady ∧
      judged.cursor.token ≠ .symbol 44 ∧
      (scanning.nextToken.cursorAt 1).SamePlace judged.cursor ∧
      (∀ earlier < 1, (scanning.nextToken.cursorAt earlier).token.isOfExpression = true) ∧
      before.nextToken.IsReady ∧
      ((caseMatchesWithin (.ofNat 2) 2).runOn before.nextToken).1 = .ok true := by
    decide +kernel
  obtain ⟨ready, here, wanted, reads, one, settled, ends, place, passed, again, picks⟩ := seen
  have proper : ∀ case ∈ [first, second, third], case.IsProper := by
    have caseless (digit : Nat) : Caseless (printing digit) :=
      .other nofun rfl (.other nofun rfl (.other nofun rfl .nil))
    simp only [List.forall_mem_cons]
    exact ⟨⟨by decide, rfl, nofun, caseless 1⟩, ⟨by decide, rfl, nofun, caseless 2⟩,
      ⟨by decide, rfl, nofun, caseless 3⟩, nofun⟩
  obtain ⟨_, ahead⟩ := exists_isAhead_value settled.settled settled.guarded (Prod.ext one rfl)
  have passes : Passes (.ofNat 2) [first] scanning before :=
    .cons (.last (Prod.ext one rfl) ⟨ahead.keeps, ahead.guarded, place, passed⟩ rfl ends) (.nil _)
  obtain ⟨count, lists⟩ := exists_lists again (Prod.ext picks rfl)
  obtain ⟨finds, -, leads, -⟩ := switch_picks_first_case
    ⟨ready, here, Prod.ext wanted rfl, reads, .other nofun rfl .nil, proper⟩
  obtain ⟨picked, ran, unmarked, along⟩ := finds [first] second [third] before count _ rfl passes
    lists
  obtain ⟨after, left, same, behind⟩ := leads [first, second] third [] _ rfl (along.iterate 4)
  rw [iterate_nextToken] at same
  exact ⟨picked, ran, unmarked, along, after, left, same.trans unmarked, behind⟩

end

end Machine

end PocketBasic
