/-
**FOR counts.** A counter takes the first value, and then each value that the step makes of the one
before, until one of them is past the limit. The first value is judged where the loop begins and the
others at its `NEXT`; the limit and the step are those that the `FOR` found.

* `Machine.HasScalar`: a scalar that exists, with its value, whatever else is in the heap;
* `Machine.HasScalar.exists_runOn_setScalar`: a number that is assigned to it can be read again;
* `Machine.isPast_eq`, `Machine.runOn_forHead_iff`: what past the limit means, and where the head of
  a loop has its values from;
* `Machine.IsCounting`, `Machine.HasCounted`: a machine in a round of the loop, and between rounds;
* `Machine.begins_counting`, `Machine.goes_on_counting`: the `FOR`, and the `NEXT` behind a round;
* **`Machine.for_counts_up_to_its_limit`**: the rounds of a loop.
-/

import PocketBasic.Proofs.Machine.LoopExits

namespace PocketBasic

/-! ### Scalars in any heap -/

namespace Memory

variable {memory : Memory}

theorem inside_of_numberAt? {start : Nat} {number : Single}
    (there : memory.numberAt? start = some number) : start + numberSize ≤ memory.size := by
  by_contra outside
  rw [numberAt?, read?, if_neg outside] at there
  cases there

end Memory

namespace Machine

variable {machine begun before judged after opened : Machine} {name counter : Name}
  {number other first limit step : Single} {payload : Extent}

/-- Whether a scalar exists, with a value. -/
def HasScalar (machine : Machine) (name : Name) (number : Single) : Prop :=
  ((storedScalar? name).runOn machine).1 = .ok (some number)

theorem numberAt?_foundIn (machine : Machine) (name : Name) (start : Nat) :
    (machine.foundIn .scalar name).memory.numberAt? start = machine.memory.numberAt? start := by
  obtain ⟨recent, same⟩ := Memory.HoldsObjects.find_snd machine.memory .scalar name
  rw [foundIn, same]
  rfl

theorem runOn_storedScalar?_of_find (found : (machine.memory.find .scalar name).1 = some payload)
    (there : machine.memory.numberAt? payload.start = some number) :
    (storedScalar? name).runOn machine = (.ok (some number), machine.foundIn .scalar name) := by
  have read : (numberAt payload.start).runOn (machine.foundIn .scalar name) =
      (.ok number, machine.foundIn .scalar name) := by
    rw [numberAt, Attempt.runOn_get_bind, numberAt?_foundIn, there, Attempt.runOn_orFault_some]
  rw [storedScalar?, Attempt.runOn_bind_ok (runOn_lookup _ _ _), found]
  exact Attempt.runOn_bind_ok read _

theorem hasScalar_iff : machine.HasScalar name number ↔ ∃ payload,
    (machine.memory.find .scalar name).1 = some payload ∧
      machine.memory.numberAt? payload.start = some number := by
  refine ⟨fun has => ?_, fun ⟨payload, found, there⟩ => ?_⟩
  · have looked := has
    rw [HasScalar, storedScalar?, Attempt.runOn_bind_ok (runOn_lookup _ _ _)] at looked
    cases found : (machine.memory.find .scalar name).1 with
    | none =>
      rw [found] at looked
      cases looked
    | some payload =>
      refine ⟨payload, rfl, ?_⟩
      cases there : machine.memory.numberAt? payload.start with
      | none =>
        have faults : (numberAt payload.start).runOn (machine.foundIn .scalar name) =
            (.error .fault, machine.foundIn .scalar name) := by
          rw [numberAt, Attempt.runOn_get_bind, numberAt?_foundIn, there,
            Attempt.runOn_orFault_none]
        rw [found] at looked
        dsimp only at looked
        rw [Attempt.runOn_bind_error faults] at looked
        cases looked
      | some stored =>
        rw [HasScalar, runOn_storedScalar?_of_find found there] at has
        cases has
        rfl
  · rw [HasScalar, runOn_storedScalar?_of_find found there]

namespace HasScalar

theorem of_memory (has : machine.HasScalar name number) (same : after.memory = machine.memory) :
    after.HasScalar name number := by
  rw [hasScalar_iff] at has ⊢
  rwa [same]

/-- What is looked up again is the same. -/
theorem foundIn (has : machine.HasScalar name number) :
    (machine.foundIn .scalar name).HasScalar name number := by
  obtain ⟨payload, found, there⟩ := hasScalar_iff.mp has
  have again := Memory.find_of_recent (Memory.recent_of_find found)
  exact hasScalar_iff.mpr ⟨payload, by rw [Machine.foundIn, again], by rwa [numberAt?_foundIn]⟩

theorem runOn_storedScalar? (has : machine.HasScalar name number) :
    (storedScalar? name).runOn machine = (.ok (some number), machine.foundIn .scalar name) := by
  obtain ⟨payload, found, there⟩ := hasScalar_iff.mp has
  exact runOn_storedScalar?_of_find found there

theorem runOn_getScalar (has : machine.HasScalar name number) (ordinary : name.isSpecial = false) :
    (getScalar name).runOn machine = (.ok number, machine.foundIn .scalar name) := by
  rw [getScalar, ordinary, if_neg Bool.false_ne_true]
  exact Attempt.runOn_bind_ok has.runOn_storedScalar? _

/-- **A number that is assigned to a scalar can be read again.** -/
theorem exists_runOn_setScalar (has : machine.HasScalar name number)
    (ordinary : name.isSpecial = false) (value : Single) :
    ∃ after, (setScalar name value).runOn machine = (.ok (), after) ∧
      after.HasScalar name value := by
  obtain ⟨payload, found, there⟩ := hasScalar_iff.mp has
  have inside : payload.start + value.toBytes.length ≤ (machine.foundIn .scalar name).memory.size :=
    Memory.inside_of_numberAt? ((numberAt?_foundIn machine name _).trans there)
  obtain ⟨bytes, -, wrote, read⟩ := Memory.exists_runOn_write inside
  refine ⟨{ machine with memory := (machine.foundIn .scalar name).memory.holding bytes }, ?_, ?_⟩
  · rw [setScalar, ordinary, if_neg Bool.false_ne_true, storeScalar,
      Attempt.runOn_bind_ok (runOn_lookup _ _ _), found]
    exact runOn_onMemory_of wrote
  · refine hasScalar_iff.mpr ⟨payload, ?_, ?_⟩
    · have remembered : ((machine.foundIn .scalar name).memory.holding bytes).recent =
          some (.scalar, name, payload) := Memory.recent_of_find found
      exact congrArg Prod.fst (Memory.find_of_recent remembered)
    · rw [Memory.numberAt?_eq read, numberOf?_toBytes]

theorem of_foundIn (has : (machine.foundIn .scalar name).HasScalar name number) :
    machine.HasScalar name number := by
  obtain ⟨payload, found, there⟩ := hasScalar_iff.mp has
  rw [numberAt?_foundIn] at there
  cases looked : (machine.memory.find .scalar name).1 with
  | none =>
    rw [Machine.foundIn, Memory.HoldsObjects.find_eq_self _ looked] at found
    cases looked.symm.trans found
  | some place =>
    rw [Machine.foundIn, Memory.find_of_recent (Memory.recent_of_find looked)] at found
    cases found
    exact hasScalar_iff.mpr ⟨payload, looked, there⟩

end HasScalar

/-- Reading a scalar looks it up and leaves the rest as it was. -/
theorem eq_foundIn_of_getScalar (ordinary : name.isSpecial = false)
    (ran : (getScalar name).runOn machine = (.ok number, after)) :
    after = machine.foundIn .scalar name := by
  rw [getScalar, ordinary, if_neg Bool.false_ne_true] at ran
  obtain ⟨old, _, stored, ended⟩ := Attempt.exists_of_runOn_bind ran
  cases ended
  rw [storedScalar?, Attempt.runOn_bind_ok (runOn_lookup _ _ _)] at stored
  cases found : (machine.memory.find .scalar name).1 with
  | none =>
    rw [found] at stored
    cases stored
    rfl
  | some payload =>
    rw [found] at stored
    obtain ⟨_, _, read, ended⟩ := Attempt.exists_of_runOn_bind stored
    cases ended
    rw [numberAt, Attempt.runOn_get_bind, numberAt?_foundIn] at read
    cases there : machine.memory.numberAt? payload.start with
    | none =>
      rw [there] at read
      cases read
    | some _ =>
      rw [there] at read
      cases read
      rfl

/-! ### The head of the loop -/

/-- Past the limit is above it where the loop counts up, and below it where it counts down. -/
theorem isPast_eq (number limit step : Single) :
    isPast number limit step =
      if Single.zero.less step then limit.less number
      else if step.less Single.zero then number.less limit
      else false := by
  cases up : Single.zero.less step with
  | true => simp [isPast, up, Single.less_asymm up]
  | false => cases down : step.less Single.zero <;> simp [isPast, up, down]

/-- Whether a machine has a value behind a word and goes on behind it. Where the word is missing it
has another value, and stays where it is. -/
def HasBehind (word : Keyword) (missing : Single) (machine : Machine) (number : Single)
    (after : Machine) : Prop :=
  if machine.cursor.token.isWord word then value.runOn machine.nextToken = (.ok number, after)
  else number = missing ∧ after = machine

theorem runOn_valueAfter_iff {word : Keyword} {missing : Single} :
    (valueAfter word missing).runOn machine = (.ok number, after) ↔
      machine.HasBehind word missing number after := by
  have read : token.runOn machine = (.ok machine.cursor.token, machine) := rfl
  unfold HasBehind
  rw [valueAfter, Attempt.runOn_bind_ok read, Attempt.runOn_ite]
  split
  · rw [advance, Attempt.runOn_modify_bind]
  · rw [Attempt.runOn_pure, Prod.mk.injEq, Except.ok.injEq, eq_comm, @eq_comm _ machine]

/-- What `FOR` reads first: the counter, and behind `=` the first value, which the counter takes. -/
theorem runOn_openFor_iff :
    openFor.runOn machine = (.ok (counter, some first), opened) ↔
      machine.nextToken.cursor.token = .scalar counter ∧
        machine.nextToken.nextToken.cursor.token.isOperator .equal = true ∧
        ∃ valued, value.runOn machine.nextToken.nextToken.nextToken = (.ok first, valued) ∧
          (setScalar counter first).runOn valued = (.ok (), opened) := by
  have read (machine : Machine) : token.runOn machine = (.ok machine.cursor.token, machine) := rfl
  rw [openFor, advance, Attempt.runOn_modify_bind, Attempt.runOn_bind_ok (read _)]
  cases named : machine.nextToken.cursor.token with
  | scalar name =>
    dsimp only
    rw [pure_bind, Attempt.runOn_modify_bind, Attempt.runOn_bind_ok (read _), Attempt.runOn_ite]
    split
    · rename_i equal
      simp only [Attempt.runOn_modify_bind, Attempt.runOn_bind_ok_iff, Attempt.runOn_pure,
        Prod.mk.injEq, Except.ok.injEq, Option.some.injEq, Token.scalar.injEq, equal, true_and]
      constructor
      · rintro ⟨number, valued, evaluated, _, _, assigned, ⟨rfl, rfl⟩, rfl⟩
        exact ⟨rfl, valued, evaluated, assigned⟩
      · rintro ⟨rfl, valued, evaluated, assigned⟩
        exact ⟨_, valued, evaluated, _, _, assigned, ⟨rfl, rfl⟩, rfl⟩
    · rename_i other
      simp [other]
  | _ =>
    dsimp only
    rw [Attempt.runOn_bind_error (Attempt.runOn_fail _ _)]
    simp

/-- What `FOR` reads then: the limit behind `TO` and the step behind `STEP`, up to where it ends. -/
theorem runOn_forBounds_iff :
    forBounds.runOn machine = (.ok (limit, step), opened) ↔
      ∃ bounded, machine.HasBehind .to Single.largest limit bounded ∧
        bounded.HasBehind .step Single.one step opened ∧
        opened.cursor.token.isTerminator = true := by
  have read (machine : Machine) : token.runOn machine = (.ok machine.cursor.token, machine) := rfl
  simp only [forBounds, Attempt.runOn_bind_ok_iff, runOn_valueAfter_iff, read]
  constructor
  · rintro ⟨_, bounded, limited, _, _, stepped, _, _, ⟨⟩, ran⟩
    rw [Attempt.runOn_ite] at ran
    split at ran
    · cases ran
    · rename_i ends
      cases ran
      exact ⟨bounded, limited, stepped, by simpa using ends⟩
  · rintro ⟨bounded, limited, stepped, ends⟩
    refine ⟨_, bounded, limited, _, opened, stepped, _, _, rfl, ?_⟩
    rw [if_neg (by simp [ends]), Attempt.runOn_pure]

/-- **The head of a `FOR` is what its text says**: the counter takes the value behind `=`, the limit
is the value behind `TO`, or else the largest number, and the step the one behind `STEP`, or else
one. -/
theorem runOn_forHead_iff :
    forHead.runOn machine = (.ok (counter, some first, limit, step), opened) ↔
      ∃ assigned bounded, openFor.runOn machine = (.ok (counter, some first), assigned) ∧
        assigned.HasBehind .to Single.largest limit bounded ∧
        bounded.HasBehind .step Single.one step opened ∧
        opened.cursor.token.isTerminator = true := by
  simp only [forHead, Attempt.runOn_bind_ok_iff]
  constructor
  · rintro ⟨⟨_, _⟩, assigned, opens, ⟨_, _⟩, _, ran, ended⟩
    cases ended
    obtain ⟨bounded, rest⟩ := runOn_forBounds_iff.mp ran
    exact ⟨assigned, bounded, opens, rest⟩
  · rintro ⟨assigned, bounded, opens, rest⟩
    exact ⟨_, assigned, opens, _, opened, runOn_forBounds_iff.mpr ⟨bounded, rest⟩, rfl⟩

theorem growsHeap_forBounds : forBounds.Obeys Conduct.growsHeap :=
  (obeys_valueAfter _ _).bind fun _ => (obeys_valueAfter _ _).bind fun _ =>
    obeys_token.bind fun _ => .ite (obeys_fail (by decide)) (.pure _)

/-- **In a heap of objects the counter has its first value** behind the head, whatever functions
were called for the limit and the step. -/
theorem hasScalar_of_forHead (held : machine.memory.IsHeld) (ordinary : counter.isSpecial = false)
    (ran : forHead.runOn machine = (.ok (counter, some first, limit, step), opened)) :
    opened.HasScalar counter first := by
  obtain ⟨⟨name, assigned⟩, middle, begins, ran⟩ := Attempt.exists_of_runOn_bind ran
  obtain ⟨⟨_, _⟩, last, bounds, ended⟩ := Attempt.exists_of_runOn_bind ran
  cases ended
  obtain ⟨-, -, evaluated, valued, assigned⟩ := runOn_openFor_iff.mp begins
  have same : machine.nextToken.nextToken.nextToken.memory = machine.memory := by
    simp only [nextToken_eq]
  obtain ⟨tops, width, records, objects⟩ := same ▸ held
  have grown := grows_of_obeysFrom (obeys_value _) valued (told_ok _) width records objects tops
  obtain ⟨program, newer, kept, -⟩ := grown
  rw [setScalar, ordinary, if_neg Bool.false_ne_true] at assigned
  -- Whether the counter was there before or not, its object is among those that `middle` holds.
  obtain ⟨record, others, among, is, has, left⟩ : ∃ record, ∃ others : List (HeapRecord width),
      record ∈ others ∧ record.Is .scalar counter ∧ record.numberAt 0 = first ∧
        evaluated.LeftWith middle others := by
    by_cases absent : ∀ record ∈ newer ++ records, ¬ record.Is .scalar counter
    · rcases stores_absent kept program.below absent first with
        ⟨_, _, failed, -⟩ | ⟨_, record, stored, is, has, left⟩
      · cases failed.symm.trans assigned
      · cases stored.symm.trans assigned
        exact ⟨record, _, List.mem_cons_self .., is, has, left⟩
    · push Not at absent
      obtain ⟨record, among, is⟩ := absent
      obtain ⟨before, after, cut⟩ := List.append_of_mem among
      obtain ⟨_, stored, left⟩ := stores_present (cut ▸ kept) program.below is first
      cases stored.symm.trans assigned
      refine ⟨_, _, List.mem_append_right _ (List.mem_cons_self ..), HeapRecord.is_written.mpr is,
        HeapRecord.numberAt_written ?_, left⟩
      rw [record.number is.1, Nat.zero_add]
  have further := grows_of_obeysFrom (growsHeap_forBounds middle) bounds (told_ok _) width others
    left.held left.program.below
  obtain ⟨-, newest, holds, -⟩ := further
  rw [HasScalar, Machine.runOn_storedScalar? holds (List.mem_append_right _ among) is, has]

/-! ### Rounds -/

/-- A machine some tokens behind the beginning of the body of a loop, with the loop under way and
its counter at a number. -/
structure IsCounting (begun : Machine) (loop : Loop) (counter : Name) (number : Single)
    (count : Nat) (machine : Machine) : Prop where
  along : begun.IsAlong count machine
  loops : machine.loops = begun.loops.topped loop
  counts : machine.HasScalar counter number

/-- What a machine is once the counter of a loop has a number: behind the `NEXT`, without the loop,
if the number is past the limit, or else at the beginning of the body. -/
def HasCounted (begun : Machine) (loop : Loop) (counter : Name) (limit step number : Single)
    (length : Nat) (machine : Machine) : Prop :=
  if isPast number limit step then
    HasLeft (begun.cursorAt (begun.behindCounter (length + 1))) begun machine ∧
      machine.HasScalar counter number
  else begun.IsCounting loop counter number 0 machine

/-- What a counter has after some rounds. -/
def counted (first step : Single) : Nat → Single
  | 0 => first
  | count + 1 => (counted first step count).add step

/-- Some rounds of a loop: what is done in its body each time, and then the closing word. -/
def rounds (work : Action Unit) : Nat → Action Unit
  | 0 => pure ()
  | count + 1 => do
    rounds work count
    work
    statement

section

variable {resume : Location} {finished : Bool} {body : List Token}

/-- What `NEXT` judges is the next value, which the counter has from then on. -/
theorem HasScalar.exists_runOn_isOver (has : machine.HasScalar counter number)
    (ordinary : counter.isSpecial = false) (limit step : Single) (resume : Location) :
    ∃ judged, (Loop.isOver { kind := .for counter limit step, resume }).runOn machine =
        (.ok (isPast (number.add step) limit step), judged) ∧
      judged.HasScalar counter (number.add step) := by
  have named : machine.nextToken.pastCounter.HasScalar counter number := by
    refine has.of_memory ?_
    unfold pastCounter
    split
    · simp only [nextToken_eq]
    · rw [nextToken_eq]
  obtain ⟨judged, stored, counts⟩ :=
    named.foundIn.exists_runOn_setScalar ordinary (number.add step)
  refine ⟨judged, ?_, counts⟩
  rw [Loop.isOver, advance, Attempt.runOn_modify_bind, Attempt.runOn_bind_ok (runOn_skipCounter _),
    Attempt.runOn_bind_ok (named.runOn_getScalar ordinary), Attempt.runOn_bind_ok stored]
  rfl

/-- **A loop begins with the first value**, which is judged on entry. -/
theorem begins_counting
    (isLoop : IsLoop machine { kind := .for counter limit step, resume } finished begun body)
    (head : (forHead.runOn machine).1 = .ok (counter, some first, limit, step))
    (ordinary : counter.isSpecial = false)
    (assigned : machine.memory.IsHeld ∨ begun.HasScalar counter first) :
    begun.HasScalar counter first ∧ finished = isPast first limit step := by
  obtain ⟨_, opened, ran, enters⟩ := Attempt.exists_of_runOn_bind isLoop.enters
  rw [ran] at head
  cases head
  obtain ⟨_, unwound, changed, enters⟩ := Attempt.exists_of_runOn_bind enters
  cases changed
  obtain ⟨number, _, read, ended⟩ := Attempt.exists_of_runOn_bind enters
  cases ended
  obtain rfl := eq_foundIn_of_getScalar ordinary read
  have has : HasScalar { opened with loops := (opened.loops.unwindTo (·.countsWith counter)).2 }
      counter first := by
    rcases assigned with held | has
    · exact (hasScalar_of_forHead held ordinary ran).of_memory rfl
    · exact has.of_foundIn
  cases (has.runOn_getScalar ordinary).symm.trans read
  exact ⟨has.foundIn, rfl⟩

/-- **A round ends with the next value**, which is judged by `NEXT`. -/
theorem goes_on_counting
    (isLoop : IsLoop machine { kind := .for counter limit step, resume } finished begun body)
    (ordinary : counter.isSpecial = false)
    (counting : begun.IsCounting { kind := .for counter limit step, resume } counter number
      body.length before) :
    ∃ after, statement.runOn before = (.ok (), after) ∧
      begun.HasCounted { kind := .for counter limit step, resume } counter limit step
        (number.add step) body.length after := by
  obtain ⟨judged, judges, counts⟩ :=
    counting.counts.exists_runOn_isOver ordinary limit step resume
  obtain ⟨after, ran, memory, turned⟩ :=
    closes_or_comes_back isLoop rfl counting.along counting.loops judges
  have kept := counts.of_memory memory
  refine ⟨after, ran, ?_⟩
  unfold HasCounted
  split at turned <;> rename_i past
  · rw [if_pos past]
    exact ⟨turned, kept⟩
  · rw [if_neg past]
    exact ⟨turned.2, turned.1, kept⟩

/-- **The `FOR` judges the first value.** -/
theorem enters_counting
    (isLoop : IsLoop machine { kind := .for counter limit step, resume } finished begun body)
    (counts : begun.HasScalar counter first) (judged : finished = isPast first limit step)
    (room : isPast first limit step = true ∨ begun.loops.isFull = false) :
    ∃ after, statement.runOn machine = (.ok (), after) ∧
      begun.HasCounted { kind := .for counter limit step, resume } counter limit step first
        body.length after := by
  have ready := isLoop.head.1
  rw [isLoop.runOn_statement]
  unfold HasCounted
  subst judged
  cases past : isPast first limit step with
  | true =>
    have reads : begun.Reads (body ++ [.word .next]) :=
      reads_append.mpr ⟨isLoop.reads, isLoop.closes.1, trivial⟩
    have left := runOn_leaveFor isLoop.balanced reads
    have there := (ready.isAlong.iterate (body.length + 1)).pastCounter
    rw [Nat.zero_add] at there
    refine ⟨_, left, ⟨there.place, ?_⟩, counts.of_memory ?_⟩
    · rw [loops_pastCounter, iterate_nextToken]
    · unfold pastCounter
      split
      · rw [nextToken_eq, iterate_nextToken]
      · rw [iterate_nextToken]
  | false =>
    rw [past] at room
    have free : begun.loops.isFull = false := room.resolve_left Bool.false_ne_true
    refine ⟨_, runOn_onLoops (BoundedStack.runOn_push_of_room free), ?_⟩
    exact ⟨ready.isAlong.of_same rfl rfl rfl rfl, rfl, counts.of_memory rfl⟩

/-- **A `FOR` counts up to its limit.** -/
theorem for_counts_up_to_its_limit
    (isLoop : IsLoop machine { kind := .for counter limit step, resume } finished begun body)
    (head : (forHead.runOn machine).1 = .ok (counter, some first, limit, step))
    (ordinary : counter.isSpecial = false)
    (assigned : machine.memory.IsHeld ∨ begun.HasScalar counter first) :
    (isPast first limit step = false → begun.loops.isFull = true →
      statement.runOn machine = (.error (.reported
        { kind := .stackOverflow, detail := begun.loops.overflowDetail }), begun)) ∧
    ∀ (work : Action Unit) (count : Nat),
      (isPast first limit step = true ∨ begun.loops.isFull = false) →
      (∀ earlier < count, isPast (counted first step earlier) limit step = false) →
      (∀ earlier < count, ∀ round, (do statement; rounds work earlier).runOn machine =
        (.ok (), round) → begun.IsCounting { kind := .for counter limit step, resume } counter
          (counted first step earlier) 0 round →
        ∃ before, work.runOn round = (.ok (), before) ∧
          begun.IsCounting { kind := .for counter limit step, resume } counter
            (counted first step earlier) body.length before) →
      ∃ after, (do statement; rounds work count).runOn machine = (.ok (), after) ∧
        begun.HasCounted { kind := .for counter limit step, resume } counter limit step
          (counted first step count) body.length after := by
  obtain ⟨counts, judged⟩ := begins_counting isLoop head ordinary assigned
  refine ⟨fun within full => ?_, fun work count room within works => ?_⟩
  · rw [isLoop.runOn_statement, judged, within]
    exact runOn_onLoops (BoundedStack.runOn_push_of_full full)
  induction count with
  | zero =>
    obtain ⟨after, ran, counted⟩ := enters_counting isLoop counts judged room
    exact ⟨after, by rw [Attempt.runOn_bind_ok ran]; rfl, counted⟩
  | succ count ih =>
    obtain ⟨round, ran, counted⟩ := ih (fun earlier less => within earlier (by omega))
      fun earlier less => works earlier (by omega)
    rw [HasCounted, within count (Nat.lt_succ_self _), if_neg Bool.false_ne_true] at counted
    obtain ⟨before, worked, counting⟩ := works count (Nat.lt_succ_self _) round ran counted
    obtain ⟨after, closed, goesOn⟩ := goes_on_counting isLoop ordinary counting
    refine ⟨after, ?_, goesOn⟩
    have again : (do statement; rounds work (count + 1) : Action Unit) =
        ((do statement; rounds work count) >>= fun _ => do work; statement) := by
      simp only [rounds, bind_assoc]
    rw [again, Attempt.runOn_bind_ok ran, Attempt.runOn_bind_ok worked, closed]

/-- Two rounds upwards, behind which the counter is at three, and two rounds downwards, behind which
it is at zero. -/
theorem for_counts_up_to_its_limit_twice :
    let begins (line : String) : Machine :=
      let typed := ((enter (ascii line)).runOn (start { memorySize := 128 } {})).2
      ((execute 1).runOn ((enter (ascii "RUN")).runOn typed).2).2.nextToken
    let up := begins "10 FOR I=1 TO 2:NEXT I:PRINT I"
    let down := begins "10 FOR I=2 TO 1 STEP -1:NEXT I:PRINT I"
    (∃ after, (do statement; rounds advance 2).runOn up = (.ok (), after) ∧
      HasLeft ((enterFor.runOn up).2.cursorAt 3) (enterFor.runOn up).2 after ∧
      after.HasScalar ⟨73, 0⟩ (.ofNat 3)) ∧
    ∃ after, (do statement; rounds advance 2).runOn down = (.ok (), after) ∧
      HasLeft ((enterFor.runOn down).2.cursorAt 3) (enterFor.runOn down).2 after ∧
      after.HasScalar ⟨73, 0⟩ (.ofNat 0) := by
  intro begins up down
  have twice {machine : Machine} {first limit step : Single} {resume : Location}
      (seen :
        let begun := (enterFor.runOn machine).2
        machine.IsReady ∧ machine.cursor.token = .word .for ∧
          (enterFor.runOn machine).1 =
            .ok ({ kind := .for ⟨73, 0⟩ limit step, resume }, false) ∧
          begun.Reads [.symbol 58] ∧ begun.nextToken.cursor.token = .word .next ∧
          begun.nextToken.nextToken.cursor.token = .scalar ⟨73, 0⟩ ∧
          (forHead.runOn machine).1 = .ok (⟨73, 0⟩, some first, limit, step) ∧
          ((storedScalar? ⟨73, 0⟩).runOn begun).1 = .ok (some first) ∧
          begun.loops.isFull = false ∧ begun.behindCounter 2 = 3)
      (within : ∀ earlier < 2, isPast (counted first step earlier) limit step = false)
      (past : isPast (counted first step 2) limit step = true) :
      ∃ after, (do statement; rounds advance 2).runOn machine = (.ok (), after) ∧
        HasLeft ((enterFor.runOn machine).2.cursorAt 3) (enterFor.runOn machine).2 after ∧
        after.HasScalar ⟨73, 0⟩ (counted first step 2) := by
    obtain ⟨ready, opens, enters, reads, closes, named, head, has, room, behind⟩ := seen
    have closing : (nextToken^[1] (enterFor.runOn machine).2).Closes
        { kind := .for ⟨73, 0⟩ limit step, resume } := by
      refine ⟨closes, ?_⟩
      rw [Function.iterate_one, named]
    have plain : ∀ token ∈ [Token.symbol 58], token ≠ .endOfText ∧ token ≠ .word .for ∧
        token ≠ .word .next := by decide
    have isLoop : IsLoop machine { kind := .for ⟨73, 0⟩ limit step, resume } false
        (enterFor.runOn machine).2 [.symbol 58] :=
      ⟨ready, opens, Prod.ext enters rfl, reads, .of_forall plain, closing⟩
    obtain ⟨-, counts⟩ := for_counts_up_to_its_limit isLoop head rfl (.inr has)
    obtain ⟨after, ran, counted⟩ := counts advance 2 (.inr room) within
      fun earlier _ round _ counting => ⟨round.nextToken, rfl, counting.along.nextToken,
        by rw [nextToken_eq, counting.loops], counting.counts.of_memory (by rw [nextToken_eq])⟩
    have place : (enterFor.runOn machine).2.behindCounter ([Token.symbol 58].length + 1) = 3 :=
      behind
    rw [HasCounted, if_pos past, place] at counted
    exact ⟨after, ran, counted⟩
  constructor
  · have seen := @twice up (.ofNat 1) (.ofNat 2) (.ofNat 1) { mode := .run, offset := 19 }
      (by decide +kernel) (by decide +kernel) (by decide +kernel)
    have last : counted (.ofNat 1) (.ofNat 1) 2 = .ofNat 3 := by decide +kernel
    rwa [last] at seen
  · have seen := @twice down (.ofNat 2) (.ofNat 1) .minusOne { mode := .run, offset := 26 }
      (by decide +kernel) (by decide +kernel) (by decide +kernel)
    have last : counted (.ofNat 2) .minusOne 2 = .ofNat 0 := by decide +kernel
    rwa [last] at seen

end

end Machine

end PocketBasic
