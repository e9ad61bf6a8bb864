/-
**Conditionals.** An `IF` has no tree: the part that is not wanted is found by scanning tokens, in
one way behind `IF`, and in another way behind `ELSE`, which is only met when the part in front of
it has run.

* `Part`, `Conditional`: what a condition chooses between, in a line or in blocks, and a chain of
  them;
* `Conditional.Chooses`: the part that the conditions choose, and the machine at its beginning;
* **`Machine.runOn_branch_of_chooses`**: that part is come to and begun, and nothing else;
* **`Machine.runOn_statement_else`**: behind the part that ran the alternative is passed over;
* **`Machine.if_runs_one_alternative`**: both together.
-/

import Mathlib.Tactic.Common
import PocketBasic.Machine.Run
import PocketBasic.Proofs.Machine.Scanning

namespace PocketBasic

/-! ### Conditionals -/

/-- What a condition chooses between: statements in a line, or a block. -/
inductive Part where
  | line (statements : List Token)
  | block (body : List Token)

/-- What may stand behind `ELSE`: a part, or an `IF` with an `ELSE` of its own. -/
inductive Conditional where
  | last (part : Part)
  /-- The tokens of the condition go as far as the part, with `THEN` if it is there. -/
  | choice (condition : List Token) (part : Part) (otherwise : Conditional)

namespace Part

def tokens : Part → List Token
  | line statements => statements
  | block body => .word .do :: (body ++ [.word .dend])

/-- Whether a part can stand where no `ELSE` follows it: statements that do not begin with a block
and stay in their line, or a block with balanced blocks in it. -/
def IsLast : Part → Prop
  | line statements =>
    statements.head? ≠ some (.word .do) ∧ ∀ token ∈ statements, token.endsLine = false
  | block body => Balanced .do .dend body

/-- Whether a part can stand in front of `ELSE`: statements are then without `IF` and `ELSE`. -/
def IsGuarded (part : Part) : Prop :=
  part.IsLast ∧ ∀ statements, part = line statements →
    .word .if ∉ statements ∧ .word .else ∉ statements

end Part

namespace Conditional

def tokens : Conditional → List Token
  | last part => part.tokens
  | choice condition part otherwise =>
    .word .if :: (condition ++ part.tokens ++ .word .else :: otherwise.tokens)

/-- Whether all parts of a conditional can stand where they are. -/
def IsProper : Conditional → Prop
  | last part => part.IsLast
  | choice condition part otherwise =>
    .endOfText ∉ condition ∧ part.IsGuarded ∧ otherwise.IsProper

/-- Whether a conditional ends with its line, in which it begins, if it is not a block. -/
def EndsWithLine (rest : List Token) : Conditional → Prop
  | last (.block _) => True
  | conditional => (∀ token ∈ conditional.tokens, token.endsLine = false) ∧
    ∃ ending behind, rest = ending :: behind ∧ ending.endsLine = true

end Conditional

theorem Part.IsLast.goesOn {part : Part} (isLast : part.IsLast) : .endOfText ∉ part.tokens := by
  cases part with
  | line statements =>
    intro member
    cases isLast.2 _ member
  | block body =>
    have inside := Balanced.goesOn isLast
    simp [tokens, inside]

theorem Conditional.IsProper.goesOn {conditional : Conditional} (proper : conditional.IsProper) :
    .endOfText ∉ conditional.tokens := by
  induction conditional with
  | last part => exact Part.IsLast.goesOn proper
  | choice condition part otherwise ih =>
    obtain ⟨judged, guarded, further⟩ := proper
    simp [tokens, judged, guarded.1.goesOn, ih further]

namespace Machine

variable {machine : Machine} {rest : List Token} {part : Part}

/-! ### Statements of one word -/

theorem runOn_statementWithin_word {word : Keyword} (here : machine.cursor.token = .word word)
    (fuel : Nat) : (statementWithin (fuel + 1)).runOn machine =
      (wordStatement (statementWithin fuel) word).runOn machine := by
  have looked : token.runOn machine = (.ok (.word word), machine) := by rw [← here]; rfl
  rw [statementWithin, statementWith, Attempt.runOn_bind_ok looked]

theorem runOn_statement_word {word : Keyword} (here : machine.cursor.token = .word word) :
    statement.runOn machine =
      (wordStatement (statementWithin machine.textLength) word).runOn machine := by
  rw [statement, Attempt.runOn_get_bind]
  exact runOn_statementWithin_word here machine.textLength

/-- What begins with a word is no line number. -/
theorem runOn_branch_word {word : Keyword} (here : machine.cursor.token = .word word)
    (statement : Action Unit) : (branch statement).runOn machine = statement.runOn machine := by
  have looked : token.runOn machine = (.ok (.word word), machine) := by rw [← here]; rfl
  rw [branch, Attempt.runOn_bind_ok looked]
  rfl

/-! ### Passing over a part -/

/-- Statements in a line do not begin with a block, even if there are none. -/
theorem begins_of_line {statements : List Token} {last : Token}
    (isLast : (Part.line statements).IsLast) (reads : machine.Reads (statements ++ last :: rest))
    (other : last ≠ .word .do) : machine.cursor.token ≠ .word .do := by
  cases statements with
  | nil => exact reads.1 ▸ other
  | cons first others =>
    have here : machine.cursor.token = first := reads.1
    rw [here]
    exact fun same => isLast.1 (congrArg some same)

/-- A block is passed over, with the blocks in it, on however many lines. -/
theorem runOn_skipBlock {body : List Token} (balanced : Balanced .do .dend body)
    (reads : machine.Reads ((Part.block body).tokens ++ rest)) :
    skipBlock.runOn machine = (.ok (), nextToken^[(Part.block body).tokens.length] machine) := by
  rw [Part.tokens, List.cons_append, List.append_assoc] at reads
  have found := runOn_findBracket (by decide) balanced reads.2
  have behind : nextToken^[(Part.block body).tokens.length] machine =
      (nextToken^[body.length] machine.nextToken).nextToken := by
    have total : (Part.block body).tokens.length = body.length + 2 := by simp [Part.tokens]
    rw [total, Function.iterate_succ_apply', Function.iterate_succ_apply]
  have advanced : advance.runOn machine = (.ok (), machine.nextToken) := rfl
  rw [skipBlock, Attempt.runOn_bind_ok advanced, Attempt.runOn_bind_ok found, behind]
  rfl

/-- What a condition that does not hold does about its part. -/
def skipPart : Action Unit := do
  if (← token).isWord .do then skipBlock
  else modify (skipTo fun token => token.endsLine || token.isWord .else)

/-- **A part in front of `ELSE` is passed over.** -/
theorem runOn_skipPart (guarded : part.IsGuarded)
    (reads : machine.Reads (part.tokens ++ .word .else :: rest)) :
    skipPart.runOn machine = (.ok (), nextToken^[part.tokens.length] machine) := by
  have looked : token.runOn machine = (.ok machine.cursor.token, machine) := rfl
  rw [skipPart, Attempt.runOn_bind_ok looked]
  cases part with
  | block body =>
    have here : machine.cursor.token = .word .do := reads.1
    rw [here, Token.isWord_word, decide_eq_true rfl, if_pos rfl]
    exact runOn_skipBlock guarded.1 reads
  | line statements =>
    obtain ⟨noIf, noElse⟩ := guarded.2 statements rfl
    rw [Token.isWord_eq_false (begins_of_line guarded.1 reads nofun), if_neg Bool.false_ne_true,
      Attempt.runOn_modify]
    rw [skipTo_eq_of_reads rfl reads ?_ rfl]
    intro token member
    rw [guarded.1.2 token member, Bool.false_or]
    exact Token.isWord_eq_false fun same => noElse (same ▸ member)

/-! ### Choosing a part -/

/-- Reads the condition behind `IF`, with the `THEN` behind it, and tells whether it holds. -/
def judge : Action Bool := do
  advance
  let condition ← value
  if (← token).isWord .then then advance
  return !condition.equals Single.zero

/-- The alternative of a part that was passed over is begun. -/
theorem runOn_alternative (here : machine.cursor.token = .word .else) (statement : Action Unit) :
    (alternative statement).runOn machine = (branch statement).runOn machine.nextToken := by
  have looked : token.runOn machine = (.ok (.word .else), machine) := by rw [← here]; rfl
  rw [alternative, Attempt.runOn_bind_ok looked, Token.isWord_word, decide_eq_true rfl, if_pos rfl]
  rfl

/-- `IF` judges its condition, and then begins its part or passes over it. -/
theorem ifStatement_eq (statement : Action Unit) :
    ifStatement statement = judge >>= fun holds =>
      if holds then branch statement else skipPart >>= fun _ => alternative statement := by
  have skips : (do
      if (← token).isWord .do then skipBlock
      else modify (skipTo fun token => token.endsLine || token.isWord .else)
      alternative statement : Action Unit) = skipPart >>= fun _ => alternative statement := by
    rw [skipPart, bind_assoc]
    congr 1
    funext token
    split
    · rfl
    · rfl
  unfold ifStatement judge
  rw [skips]
  simp only [bind_assoc]
  congr 1
  funext _
  congr 1
  funext condition
  congr 1
  funext token
  split
  · rw [bind_assoc]
    rfl
  · rfl

end Machine

theorem Conditional.length_tokens (condition : List Token) (part : Part)
    (otherwise : Conditional) : (choice condition part otherwise).tokens.length =
      condition.length + part.tokens.length + otherwise.tokens.length + 2 := by
  simp [tokens]
  omega

/-- The part that the conditions of a conditional choose, and the machine that has come to it: the
one that has judged the last condition, or has read on from there over the part in front of
`ELSE`. -/
inductive Conditional.Chooses (rest : List Token) :
    Conditional → Machine → Part → Machine → Prop
  | last {part : Part} {machine : Machine} (reads : machine.Reads (part.tokens ++ rest)) :
    Chooses rest (.last part) machine part machine
  | taken {condition : List Token} {part : Part} {otherwise : Conditional}
    {machine judged : Machine} (ran : Machine.judge.runOn machine = (.ok true, judged))
    (reads : judged.Reads (part.tokens ++ .word .else :: (otherwise.tokens ++ rest))) :
    Chooses rest (.choice condition part otherwise) machine part judged
  | untaken {condition : List Token} {part chosen : Part} {otherwise : Conditional}
    {machine judged reached : Machine} (ran : Machine.judge.runOn machine = (.ok false, judged))
    (reads : judged.Reads (part.tokens ++ .word .else :: (otherwise.tokens ++ rest))) :
    Chooses rest otherwise (Machine.nextToken^[part.tokens.length + 1] judged) chosen reached →
      Chooses rest (.choice condition part otherwise) machine chosen reached

namespace Conditional.Chooses

variable {rest : List Token} {conditional : Conditional} {machine reached elsewhere : Machine}
  {part other : Part}

/-- **One part is chosen and no other one.** -/
theorem unique (chooses : conditional.Chooses rest machine part reached)
    (again : conditional.Chooses rest machine other elsewhere) :
    other = part ∧ elsewhere = reached := by
  induction chooses with
  | last =>
    cases again
    exact ⟨rfl, rfl⟩
  | taken ran =>
    cases again with
    | taken agrees =>
      cases ran.symm.trans agrees
      exact ⟨rfl, rfl⟩
    | untaken disagrees => cases ran.symm.trans disagrees
  | untaken ran _ _ ih =>
    cases again with
    | taken disagrees => cases ran.symm.trans disagrees
    | untaken agrees _ further =>
      cases ran.symm.trans agrees
      exact ih further

/-- The chosen part is read where it was come to. -/
theorem reads (chooses : conditional.Chooses rest machine part reached) :
    reached.Reads part.tokens := by
  induction chooses with
  | last reads => exact (Machine.reads_append.mp reads).1
  | taken _ reads => exact (Machine.reads_append.mp reads).1
  | untaken _ _ _ ih => exact ih

end Conditional.Chooses

namespace Machine

variable {machine reached : Machine} {fuel : Nat} {rest : List Token} {part : Part}
  {conditional : Conditional}

/-- An `IF` that stands where a part may stand. -/
theorem runOn_branch_if {holds : Bool} {judged : Machine}
    (here : machine.cursor.token = .word .if) (ran : judge.runOn machine = (.ok holds, judged))
    (fuel : Nat) : (branch (statementWithin (fuel + 1))).runOn machine =
      (if holds then branch (statementWithin fuel)
        else skipPart >>= fun _ => alternative (statementWithin fuel)).runOn judged := by
  rw [runOn_branch_word here, runOn_statementWithin_word here]
  show (ifStatement (statementWithin fuel)).runOn machine = _
  rw [ifStatement_eq, Attempt.runOn_bind_ok ran]

/-- **The chosen part is come to and begun**, with fuel for each of its tokens. -/
theorem runOn_branch_of_chooses (proper : conditional.IsProper)
    (reads : machine.Reads (conditional.tokens ++ rest))
    (chooses : conditional.Chooses rest machine part reached)
    (enough : conditional.tokens.length ≤ fuel) :
    ∃ less, part.tokens.length ≤ less ∧
      (branch (statementWithin fuel)).runOn machine =
        (branch (statementWithin less)).runOn reached := by
  induction chooses generalizing fuel with
  | last => exact ⟨fuel, enough, rfl⟩
  | @taken condition part otherwise machine judged ran further =>
    rw [Conditional.length_tokens] at enough
    obtain ⟨less, rfl⟩ := Nat.exists_eq_add_of_le' (Nat.le_of_add_left_le enough)
    refine ⟨less + 1, by omega, ?_⟩
    rw [runOn_branch_if reads.1 ran (less + 1), if_pos rfl]
  | @untaken condition part chosen otherwise machine judged reached ran further chooses ih =>
    rw [Conditional.length_tokens] at enough
    obtain ⟨less, rfl⟩ := Nat.exists_eq_add_of_le' (Nat.le_of_add_left_le enough)
    have skipped := runOn_skipPart proper.2.1 further
    obtain ⟨-, here, behind⟩ := reads_append.mp further
    rw [← Function.iterate_succ_apply' nextToken] at behind
    obtain ⟨spare, enough, begun⟩ := ih proper.2.2 behind (by omega : _ ≤ less + 1)
    refine ⟨spare, enough, ?_⟩
    rw [runOn_branch_if reads.1 ran (less + 1), if_neg Bool.false_ne_true,
      Attempt.runOn_bind_ok skipped, runOn_alternative here,
      ← Function.iterate_succ_apply' nextToken]
    exact begun

/-! ### Passing over the alternative -/

/-- Behind `ELSE` only a block is recognised. Anything else is passed over to the end of the
line. -/
theorem runOn_statement_else_line {skipped behind : List Token} {ending : Token}
    (reads : machine.Reads (.word .else :: (skipped ++ ending :: behind)))
    (other : machine.nextToken.cursor.token ≠ .word .do)
    (stays : ∀ token ∈ skipped, token.endsLine = false) (ends : ending.endsLine = true) :
    statement.runOn machine = (.ok (), nextToken^[skipped.length + 1] machine) := by
  have looked : token.runOn machine.nextToken =
      (.ok machine.nextToken.cursor.token, machine.nextToken) := rfl
  have advanced : advance.runOn machine = (.ok (), machine.nextToken) := rfl
  rw [runOn_statement_word reads.1]
  show elseStatement.runOn machine = _
  rw [elseStatement, Attempt.runOn_bind_ok advanced, Attempt.runOn_bind_ok looked,
    Function.iterate_succ_apply, Token.isWord_eq_false other, if_neg Bool.false_ne_true,
    Attempt.runOn_modify, skipTo_eq_of_reads rfl reads.2 stays ends]

theorem runOn_statement_else_block {body : List Token} (balanced : Balanced .do .dend body)
    (reads : machine.Reads (.word .else :: ((Part.block body).tokens ++ rest))) :
    statement.runOn machine =
      (.ok (), nextToken^[(Part.block body).tokens.length + 1] machine) := by
  have looked : token.runOn machine.nextToken = (.ok (.word .do), machine.nextToken) := by
    rw [← reads.2.1]
    rfl
  have advanced : advance.runOn machine = (.ok (), machine.nextToken) := rfl
  rw [runOn_statement_word reads.1]
  show elseStatement.runOn machine = _
  rw [elseStatement, Attempt.runOn_bind_ok advanced, Attempt.runOn_bind_ok looked,
    Function.iterate_succ_apply, Token.isWord_word, decide_eq_true rfl, if_pos rfl]
  exact runOn_skipBlock balanced reads.2

/-- **Behind the part that ran the alternative is passed over**, if it is a block or ends with the
line. -/
theorem runOn_statement_else (proper : conditional.IsProper) (ends : conditional.EndsWithLine rest)
    (reads : machine.Reads (.word .else :: (conditional.tokens ++ rest))) :
    statement.runOn machine =
      (.ok (), nextToken^[conditional.tokens.length + 1] machine) := by
  cases conditional with
  | last part =>
    cases part with
    | block body => exact runOn_statement_else_block proper reads
    | line statements =>
      obtain ⟨stays, ending, behind, rfl, found⟩ := ends
      refine runOn_statement_else_line reads (begins_of_line proper reads.2 ?_) stays found
      rintro rfl
      cases found
  | choice condition part otherwise =>
    obtain ⟨stays, ending, behind, rfl, found⟩ := ends
    have here : machine.nextToken.cursor.token = .word .if := reads.2.1
    exact runOn_statement_else_line reads (by rw [here]; exact nofun) stays found

/-! ### Exactly one alternative -/

/-- **The statement comes to the chosen part.** -/
theorem runOn_statement_of_chooses {condition : List Token} {first : Part} {otherwise : Conditional}
    (proper : (Conditional.choice condition first otherwise).IsProper)
    (reads : machine.Reads ((Conditional.choice condition first otherwise).tokens ++ rest))
    (chooses : (Conditional.choice condition first otherwise).Chooses rest machine part reached) :
    ∃ fuel, part.tokens.length ≤ fuel ∧
      statement.runOn machine = (branch (statementWithin fuel)).runOn reached := by
  have here : machine.cursor.token = .word .if := reads.1
  have ahead : machine.ReadsAt 0 (Conditional.choice condition first otherwise).tokens :=
    (reads_append.mp reads).1
  have short := ahead.length_le fun member => proper.goesOn (List.mem_cons_of_mem _ member)
  obtain ⟨fuel, spare, begun⟩ :=
    runOn_branch_of_chooses proper reads chooses (Nat.succ_le_succ short)
  refine ⟨fuel, spare, ?_⟩
  rw [statement, Attempt.runOn_get_bind, ← begun, runOn_branch_word here]

/-- A block is entered. -/
theorem runOn_branch_block {body : List Token} (reads : machine.Reads (Part.block body).tokens)
    (enough : (Part.block body).tokens.length ≤ fuel) :
    (branch (statementWithin fuel)).runOn machine = (.ok (), machine.nextToken) := by
  have here : machine.cursor.token = .word .do := reads.1
  obtain ⟨less, rfl⟩ : ∃ less, fuel = less + 1 := Nat.exists_eq_add_one.mpr
    (Nat.lt_of_lt_of_le (Nat.succ_pos _) enough)
  rw [runOn_branch_word here, runOn_statementWithin_word here]
  rfl

/-- **`IF` runs one alternative**, for conditionals in a line, in blocks on any lines, and in chains
of them. The statement comes to the part that the conditions choose, and nothing but the conditions
has been evaluated then: it begins the statements of a line, or has entered the block. Behind a part
that ran, `DEND` leads to `ELSE`, and `ELSE` leads behind the alternative, if that is a block or
ends with the line. An alternative that is an `IF` is passed over to the end of the line, wherever
it ends itself. -/
theorem if_runs_one_alternative {condition : List Token} {part : Part} {otherwise : Conditional}
    (proper : (Conditional.choice condition part otherwise).IsProper) (rest : List Token) :
    (∀ machine chosen reached,
      machine.Reads ((Conditional.choice condition part otherwise).tokens ++ rest) →
      (Conditional.choice condition part otherwise).Chooses rest machine chosen reached →
        reached.Reads chosen.tokens ∧
        (∃ fuel, chosen.tokens.length ≤ fuel ∧
          statement.runOn machine = (branch (statementWithin fuel)).runOn reached) ∧
        (∀ body, chosen = .block body →
          statement.runOn machine = (.ok (), reached.nextToken)) ∧
        ∀ other elsewhere, (Conditional.choice condition part otherwise).Chooses rest machine other
          elsewhere → other = chosen ∧ elsewhere = reached) ∧
    (∀ machine, machine.Reads (.word .dend :: .word .else :: (otherwise.tokens ++ rest)) →
      statement.runOn machine = (.ok (), machine.nextToken)) ∧
    (∀ machine, machine.Reads (.word .else :: (otherwise.tokens ++ rest)) →
      otherwise.EndsWithLine rest →
        statement.runOn machine = (.ok (), nextToken^[otherwise.tokens.length + 1] machine)) ∧
    ∀ machine skipped ending behind,
      machine.Reads (.word .else :: (otherwise.tokens ++ rest)) →
      otherwise.tokens.head? = some (.word .if) →
      otherwise.tokens ++ rest = skipped ++ ending :: behind →
      (∀ token ∈ skipped, token.endsLine = false) → ending.endsLine = true →
        statement.runOn machine = (.ok (), nextToken^[skipped.length + 1] machine) := by
  refine ⟨fun machine chosen reached reads chooses => ?_,
    fun machine reads => runOn_statement_word reads.1,
    fun machine reads ends => runOn_statement_else proper.2.2 ends reads, ?_⟩
  · obtain ⟨fuel, spare, begun⟩ := runOn_statement_of_chooses proper reads chooses
    refine ⟨chooses.reads, ⟨fuel, spare, begun⟩, ?_, fun _ _ again => chooses.unique again⟩
    rintro body rfl
    rw [begun, runOn_branch_block chooses.reads spare]
  · intro machine skipped ending behind reads begins same stays ends
    have here : machine.nextToken.cursor.token = .word .if := by
      obtain ⟨others, first⟩ := List.head?_eq_some_iff.mp begins
      rw [first] at reads
      exact reads.2.1
    rw [same] at reads
    exact runOn_statement_else_line reads (by rw [here]; exact nofun) stays ends

/-- The second block of a chain in one line is entered, and behind the first one the rest of the
chain is passed over. -/
theorem if_runs_one_alternative_chain :
    let typed := ((enter (ascii ("10 IF 0 THEN DO:PRINT 1:DEND ELSE IF 1 THEN DO:PRINT 2:DEND " ++
      "ELSE PRINT 3"))).runOn (start { memorySize := 64 } {})).2
    let machine := ((execute 1).runOn ((enter (ascii "RUN")).runOn typed).2).2.nextToken
    let judged := (judge.runOn machine).2
    let reached := (judge.runOn (nextToken^[7] judged)).2
    statement.runOn machine = (.ok (), reached.nextToken) ∧
      statement.runOn (nextToken^[6] judged) = (.ok (), nextToken^[13] (nextToken^[6] judged)) := by
  intro typed machine judged reached
  let printing (digit : Nat) : List Token :=
    [.symbol 58, .word .print, .number (.ofNat digit), .symbol 58]
  let inner : Conditional := .choice [.number (.ofNat 1), .word .then] (.block (printing 2))
    (.last (.line [.word .print, .number (.ofNat 3)]))
  have balanced (digit : Nat) : Balanced .do .dend (printing digit) :=
    .other nofun nofun nofun (.other nofun nofun nofun (.other nofun nofun nofun
      (.other nofun nofun nofun .nil)))
  have proper : (Conditional.choice [.number (.ofNat 0), .word .then] (.block (printing 1))
      inner).IsProper :=
    ⟨by decide, ⟨balanced 1, nofun⟩, by decide, ⟨balanced 2, nofun⟩, by decide, by decide⟩
  obtain ⟨chosen, -, passed, -⟩ := if_runs_one_alternative proper [.endOfText]
  have seen : (judge.runOn machine).1 = .ok false ∧
      (judge.runOn (nextToken^[7] judged)).1 = .ok true ∧
      machine.Reads ((Conditional.choice [.number (.ofNat 0), .word .then] (.block (printing 1))
        inner).tokens ++ [.endOfText]) ∧
      judged.Reads ((Part.block (printing 1)).tokens ++ .word .else ::
        (inner.tokens ++ [.endOfText])) ∧
      reached.Reads ((Part.block (printing 2)).tokens ++ .word .else ::
        [.word .print, .number (.ofNat 3), .endOfText]) := by
    decide +kernel
  obtain ⟨fails, holds, begins, first, second⟩ := seen
  have chooses : (Conditional.choice [.number (.ofNat 0), .word .then] (.block (printing 1))
      inner).Chooses [.endOfText] machine (.block (printing 2)) reached :=
    .untaken (Prod.ext fails rfl) first (.taken (Prod.ext holds rfl) second)
  refine ⟨(chosen _ _ _ begins chooses).2.2.1 _ rfl, ?_⟩
  exact passed _ (reads_append.mp first).2 ⟨by decide, _, _, rfl, rfl⟩

/-- The block of an `IF` behind `ELSE` is on the next line, and it is entered behind the part that
ran. -/
theorem else_enters_block_of_next_line :
    let typed := ["10 IF 1 THEN DO:PRINT 1:DEND ELSE IF 0 THEN DO", "20 PRINT 2",
      "30 DEND ELSE PRINT 3", "RUN"].foldl
        (fun machine text => ((enter (ascii text)).runOn machine).2) (start { memorySize := 64 } {})
    let machine := ((execute 4).runOn typed).2
    let alternative : Conditional := .choice [.number (.ofNat 0), .word .then]
      (.block [.lineNumber 20, .word .print, .number (.ofNat 2), .lineNumber 30])
      (.last (.line [.word .print, .number (.ofNat 3)]))
    machine.Reads (.word .else :: (alternative.tokens ++ [.endOfText])) ∧
      (nextToken^[alternative.tokens.length + 1] machine).cursor.token = .endOfText ∧
      (statement.runOn machine).1 = .ok () ∧
      (statement.runOn machine).2.cursor.token = .lineNumber 20 := by
  decide +kernel

end Machine

end PocketBasic
