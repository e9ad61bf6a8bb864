/-
**Loops are told apart.** A loop is told by the counter of its `FOR`, or by the place where its
`WHILE` or `REPEAT` goes on. One that begins ends first if it is under way, with all loops inside
it, whatever jumps have left behind. So no two loops under way are told the same, and there are
never more of them than different ones have begun.

* `LoopKey`, `Loop.key`: what tells loops apart;
* `Machine.loopKey?`: the loop that the statement at the cursor begins;
* `Machine.KeepsLoops`: the loops under way are different ones and known;
* `Config.HasRoomFor`: whether there is room for all known loops at once;
* **`Machine.performs_keepsLoops`**: statements keep the loops different, as long as they are known,
  and blame the loops only if there is no room for the known ones;
* **`Machine.loops_are_unique_and_find_room`**: the same of whole runs;
* `Machine.entered_line_misplaces_loop`: a place that a new line of the program makes wrong.
-/

import Mathlib.Data.List.Perm.Subperm
import PocketBasic.Proofs.Machine.Running
import PocketBasic.Proofs.Program.Alignment

namespace PocketBasic

/-! ### What tells loops apart -/

/-- What tells loops apart: the counter of `FOR`, or where `WHILE` and `REPEAT` go on. -/
inductive LoopKey where
  | for (counter : Name)
  | while (resume : Location)
  | repeat (resume : Location)
  deriving DecidableEq

def Loop.key (loop : Loop) : LoopKey :=
  match loop.kind with
  | .for counter _ _ => .for counter
  | .while => .while loop.resume
  | .repeat => .repeat loop.resume

theorem Loop.countsWith_iff {loop : Loop} {counter : Name} :
    loop.countsWith counter = true ↔ loop.key = .for counter := by
  rcases loop with ⟨_ | _ | _, resume⟩ <;> simp [countsWith, key]

/-- `WHILE` and `REPEAT` are told by all that is remembered of them. -/
theorem Loop.eq_iff_key {loop other : Loop} (apart : other.kind = .while ∨ other.kind = .repeat) :
    loop = other ↔ loop.key = other.key := by
  rcases loop with ⟨_ | _ | _, resume⟩ <;> rcases other with ⟨_ | _ | _, place⟩ <;>
    simp [key] at apart ⊢

/-- The known loops but for one. -/
def LoopKey.except (known : LoopKey → Bool) (key other : LoopKey) : Bool :=
  known other && other ≠ key

/-- Whether there is room for all known loops at once. -/
def Config.HasRoomFor (config : Config) (known : LoopKey → Bool) : Prop :=
  ∀ keys : List LoopKey, keys.Nodup → (∀ key ∈ keys, known key = true) →
    keys.length ≤ config.loopDepth

theorem Config.hasRoomFor_of_length {config : Config} {known : List LoopKey}
    (few : known.length ≤ config.loopDepth) : config.HasRoomFor fun key => decide (key ∈ known) :=
  fun _ nodup among =>
    have listed := List.Nodup.subperm nodup fun key listed => by simpa using among key listed
    Nat.le_trans listed.length_le few

namespace Machine

/-- What tells the loops under way apart, newest first. -/
def loopKeys (machine : Machine) : List LoopKey := machine.loops.entries.map Loop.key

/-- The loop that the statement at the cursor begins. -/
def loopKey? (machine : Machine) : Option LoopKey :=
  match machine.cursor.token, machine.nextToken.cursor.token with
  | .word .for, .scalar counter => some (.for counter)
  | .word .while, _ => some (.while machine.nextToken.cursor.location)
  | .word .repeat, _ => some (.repeat machine.nextToken.cursor.location)
  | _, _ => none

/-- Whether the statement at the cursor begins a loop that is not known. -/
def beginsBeside (known : LoopKey → Bool) (machine : Machine) : Bool :=
  machine.loopKey?.any fun key => !known key

/-- Whether the loops under way are different ones and known. The stacks have the limits of the
settings, and only that of the loops says so when it is full. -/
structure KeepsLoops (config : Config) (known : LoopKey → Bool) (machine : Machine) : Prop where
  config_eq : machine.config = config
  capacity : machine.loops.capacity = config.loopDepth
  operands : machine.operands.overflowDetail ≠ "LOOP"
  returns : machine.returns.overflowDetail ≠ "LOOP"
  nodup : machine.loopKeys.Nodup
  among : ∀ key ∈ machine.loopKeys, known key = true

end Machine

/-- What keeps the loops different and known, and blames them only if there is no room for the known
ones. -/
def Conduct.keepsLoops (config : Config) (known : LoopKey → Bool) : Conduct Machine where
  moves before after := before.KeepsLoops config known → after.KeepsLoops config known
  fails before failure after := before.KeepsLoops config known →
    after.KeepsLoops config known ∧ (config.HasRoomFor known → ¬ failure.BlamesLoops)
  refl _ := id
  trans first second keeps := second (first keeps)
  fails_of_moves first second keeps := second (first keeps)
  fails_moves first second keeps := ⟨second (first keeps).1, (first keeps).2⟩

namespace Machine

variable {α : Type} {config : Config} {known others : LoopKey → Bool} {machine : Machine}

namespace KeepsLoops

theorem of_same {after : Machine} (keeps : machine.KeepsLoops config known)
    (sameConfig : after.config = machine.config) (sameLoops : after.loops = machine.loops)
    (operands : after.operands.overflowDetail = machine.operands.overflowDetail)
    (returns : after.returns.overflowDetail = machine.returns.overflowDetail) :
    after.KeepsLoops config known where
  config_eq := sameConfig.trans keeps.config_eq
  capacity := by rw [sameLoops, keeps.capacity]
  operands := operands ▸ keeps.operands
  returns := returns ▸ keeps.returns
  nodup := by rw [loopKeys, sameLoops]; exact keeps.nodup
  among := by rw [loopKeys, sameLoops]; exact keeps.among

theorem mono (keeps : machine.KeepsLoops config known)
    (more : ∀ key, known key = true → others key = true) : machine.KeepsLoops config others :=
  { keeps with among := fun key listed => more key (keeps.among key listed) }

/-- Loops can end. -/
theorem of_sublist (keeps : machine.KeepsLoops config known) {entries : List Loop}
    (older : entries.Sublist machine.loops.entries) :
    KeepsLoops config known { machine with loops := { machine.loops with entries } } :=
  { keeps with
    nodup := keeps.nodup.sublist (older.map Loop.key)
    among := fun key listed => keeps.among key ((older.map Loop.key).subset listed) }

/-- **A loop that is unwound to is not under way any more.** -/
theorem unwindTo (keeps : machine.KeepsLoops config known) {key : LoopKey} {unwinds : Loop → Bool}
    (tells : ∀ loop, unwinds loop = true ↔ loop.key = key) :
    KeepsLoops config (LoopKey.except known key)
      { machine with loops := (machine.loops.unwindTo unwinds).2 } := by
  have unique : machine.loops.entries.Pairwise fun first second =>
      ¬ (unwinds first = true ∧ unwinds second = true) := by
    refine (List.pairwise_map.mp keeps.nodup).imp fun different both => different ?_
    rw [(tells _).mp both.1, (tells _).mp both.2]
  have gone : ∀ loop ∈ (machine.loops.unwindTo unwinds).2.entries, loop.key ≠ key := by
    intro loop listed told
    rw [← tells, BoundedStack.not_of_mem_unwindTo unique listed] at told
    cases told
  obtain ⟨entries, older, same⟩ := machine.loops.unwindTo_eq unwinds
  rw [same] at gone ⊢
  have kept := keeps.of_sublist older.sublist
  refine { kept with among := fun told listed => ?_ }
  obtain ⟨loop, among, rfl⟩ := List.mem_map.mp listed
  simpa [LoopKey.except, gone loop among] using kept.among _ listed

end KeepsLoops

theorem known_of_except {key other : LoopKey} (left : LoopKey.except known key other = true) :
    known other = true := by
  simp only [LoopKey.except, Bool.and_eq_true] at left
  exact left.1

/-! ### Evaluations and jumps -/

theorem isApart_keepsLoops : IsApart (KeepsLoops config known) :=
  fun _ _ _ _ _ _ _ _ _ _ _ same keeps => keeps.of_same rfl rfl same rfl

theorem ignoresMemory_keepsLoops : (Conduct.keepsLoops config known).IgnoresMemory where
  moves _ _ keeps := keeps.of_same rfl rfl rfl rfl
  fails _ _ _ spares keeps := ⟨keeps.of_same rfl rfl rfl rfl, fun _ => spares.not_blamesLoops⟩

instance evaluates_keepsLoops : (Conduct.keepsLoops config known).Evaluates where
  toReads := ignoresMemory_keepsLoops.usesMemory.reads ⟨fun _ keeps => ⟨keeps, fun _ => not_false⟩⟩
    (fun _ _ _ _ _ _ _ _ _ _ _ _ same keeps => keeps.of_same rfl rfl same rfl)
    (fun _ keeps => ⟨keeps, fun _ blames => keeps.operands blames.2⟩)
    fun _ keeps => ⟨keeps, fun _ => Failure.not_blamesLoops_of_kind _⟩
  toMakes := ignoresMemory_keepsLoops.usesMemory.makes
  moves_excursion _ first second keeps :=
    isApart_keepsLoops.jump _ (second (isApart_keepsLoops.jump _ (first keeps)))
  fails_excursion _ first second keeps := second (isApart_keepsLoops.jump _ (first keeps))
  fails_otherwise fails keeps :=
    ⟨(fails keeps).1, fun _ => Failure.not_blamesLoops_of_kind .syntaxError⟩
  fails_first first second keeps := ⟨(second (first keeps).1).1, (first keeps).2⟩
  fails_second first second keeps := second (first keeps).1
  storeScalar := ignoresMemory_keepsLoops.usesMemory.storeScalar
  deleteScalar := ignoresMemory_keepsLoops.usesMemory.delete .scalar

instance steers_keepsLoops : (Conduct.keepsLoops config known).Steers where
  toOperates := inferInstance
  moves_registers shares keeps := keeps.of_same shares.config shares.loops
    (congrArg (·.1.overflowDetail) shares.operands)
    (congrArg BoundedStack.overflowDetail shares.returns)
  moves_host _ _ _ keeps := keeps.of_same rfl rfl rfl rfl
  fails_interrupted _ _ _ keeps :=
    ⟨keeps.of_same rfl rfl rfl rfl, fun _ => Failure.not_blamesLoops_of_kind .interrupted⟩
  moves_loops _ _ older keeps := keeps.of_sublist older.sublist
  fails_empty _ keeps := ⟨keeps, fun _ => Failure.not_blamesLoops_of_kind _⟩
  findLine _ := ignoresMemory_keepsLoops.onMemory (Memory.ordinary_always _)

instance : (Conduct.keepsLoops config known).EditsProgram :=
  ignoresMemory_keepsLoops.editsProgram

instance : (Conduct.keepsLoops config known).StartsStatements :=
  ⟨fun _ keeps => keeps.of_same rfl rfl rfl rfl⟩

instance : (Conduct.keepsLoops config known).Idles :=
  ⟨fun _ _ keeps => keeps.of_same rfl rfl rfl rfl⟩

instance : (Conduct.keepsLoops config known).SeeksData :=
  ⟨fun _ _ keeps => keeps.of_same rfl rfl rfl rfl⟩

instance (repeats : Bool) : (Conduct.keepsLoops config known).SetsTimer repeats :=
  ⟨fun _ _ keeps => keeps.of_same rfl rfl rfl rfl⟩

instance : (Conduct.keepsLoops config known).Postpones :=
  ⟨fun _ _ _ keeps => keeps.of_same rfl rfl rfl rfl⟩

/-! ### Loops that begin -/

/-- **A known loop that is not under way finds room** if there is room for all known ones. -/
theorem obeysFrom_pushLoop {loop : Loop}
    (keeps : machine.KeepsLoops config (LoopKey.except known loop.key))
    (among : known loop.key = true) :
    (onLoops (BoundedStack.push loop)).ObeysFrom (.keepsLoops config known) machine := by
  have kept : machine.KeepsLoops config known := keeps.mono fun _ => known_of_except
  have nodup : (loop.key :: machine.loopKeys).Nodup := by
    refine List.nodup_cons.mpr ⟨fun listed => ?_, keeps.nodup⟩
    simpa [LoopKey.except] using keeps.among _ listed
  have all : ∀ key ∈ loop.key :: machine.loopKeys, known key = true := by
    rintro key (_ | ⟨_, listed⟩)
    · exact among
    · exact kept.among key listed
  cases full : machine.loops.isFull with
  | true =>
    refine Attempt.obeysFrom_of_error (runOn_onLoops (BoundedStack.runOn_push_of_full full))
      fun _ => ⟨kept, fun room _ => ?_⟩
    have fits : machine.loopKeys.length + 1 ≤ config.loopDepth := room _ nodup all
    have none : machine.loops.capacity ≤ machine.loops.entries.length := of_decide_eq_true full
    rw [loopKeys, List.length_map] at fits
    have depth := keeps.capacity
    omega
  | false =>
    exact Attempt.obeysFrom_of_ok (runOn_onLoops (BoundedStack.runOn_push_of_room full))
      fun _ => { kept with nodup := nodup, among := all }

/-- What follows the unwinding to a loop may take it not to be under way. -/
theorem obeys_unwindTo_bind {key : LoopKey} {unwinds : Loop → Bool}
    (tells : ∀ loop, unwinds loop = true ↔ loop.key = key) {next : Action α}
    (goesOn : ∀ machine : Machine, machine.KeepsLoops config (LoopKey.except known key) →
      next.ObeysFrom (.keepsLoops config known) machine) : (do
      modify fun machine => { machine with loops := (machine.loops.unwindTo unwinds).2 }
      next : Action α).Obeys (.keepsLoops config known) := by
  intro machine
  by_cases keeps : machine.KeepsLoops config known
  · have unwound := keeps.unwindTo tells
    exact .of_run (Attempt.runOn_modify_bind _ _ _) (fun _ => unwound.mono fun _ => known_of_except)
      (goesOn _ unwound)
  · rcases ran : Attempt.runOn (do
        modify fun machine => { machine with loops := (machine.loops.unwindTo unwinds).2 }
        next) machine with ⟨failure | value, after⟩
    · exact Attempt.obeysFrom_of_error ran fun kept => absurd kept keeps
    · exact Attempt.obeysFrom_of_ok ran fun kept => absurd kept keeps

theorem keepsLoops_beginFor {counter : Name} (among : known (.for counter) = true)
    (limit step : Single) : (beginFor counter limit step).Obeys (.keepsLoops config known) := by
  refine obeys_unwindTo_bind (fun _ => Loop.countsWith_iff) fun machine unwound => ?_
  have reads (known : LoopKey → Bool) : (getScalar counter).Obeys (.keepsLoops config known) :=
    obeys_getScalar counter
  -- Reading the counter makes no loop, so the one that begins is still not under way.
  refine (reads known machine).bind_of_ran fun value after ran => ?_
  have still := (reads _ machine).moves ran unwound
  exact .ite (fun _ => obeys_leaveFor after) fun _ => obeysFrom_pushLoop still among

theorem keepsLoops_beginLoop {loop : Loop} (apart : loop.kind = .while ∨ loop.kind = .repeat)
    (among : known loop.key = true) : (beginLoop loop).Obeys (.keepsLoops config known) := by
  refine obeys_unwindTo_bind (fun other => ?_) fun machine unwound =>
    obeysFrom_pushLoop unwound among
  rw [decide_eq_true_eq, Loop.eq_iff_key apart]

/-! ### Subroutines -/

instance diverts_keepsLoops : (Conduct.keepsLoops config known).Diverts where
  moves_returns _ _ keeps := keeps.of_same rfl rfl rfl rfl
  fails_full _ keeps := ⟨keeps, fun _ blames => keeps.returns blames.2⟩
  fails_empty _ keeps := ⟨keeps, fun _ => Failure.not_blamesLoops_of_kind _⟩
  moves_pins _ _ keeps := keeps.of_same rfl rfl rfl rfl

/-! ### Statements -/

theorem keepsLoops_clear : clear.Obeys (.keepsLoops config known) := by
  refine (ignoresMemory_keepsLoops.onMemory Memory.obeys_clearHeap).bind fun _ =>
    .modify fun machine keeps => ?_
  exact (keeps.of_sublist (List.nil_sublist _)).of_same rfl rfl rfl rfl

/-- **What statements are made of keeps the loops different**, as long as known ones begin. -/
instance performs_keepsLoops : (Conduct.keepsLoops config known).Performs where
  toEdits := ignoresMemory_keepsLoops.edits
  forbids := beginsBeside known
  remains := inferInstance
  editsProgram _ _ := inferInstance
  departs _ _ := inferInstance
  clear _ _ := keepsLoops_clear
  watchPins _ _ _ keeps := keeps.of_same rfl rfl rfl rfl
  takeDatum _ _ := obeys_takeDatum
  seekData _ _ _ _ keeps := keeps.of_same rfl rfl rfl rfl
  setTimer _ _ _ := obeys_timerStatement
  clearTimer _ := obeys_clearTimer
  holdPins _ _ := obeys_enablePins false _
  releasePins _ _ := obeys_enablePins true _
  clearReturns _ _ _ keeps := keeps.of_same rfl rfl rfl rfl
  poke _ _ := ignoresMemory_keepsLoops.usesMemory.pokeStatement
  forStatement begins allowed := obeysFrom_forStatement fun _ limit step counts =>
    keepsLoops_beginFor (by simpa [beginsBeside, loopKey?, begins, counts] using allowed) limit step
  whileStatement begins allowed := obeysFrom_whileStatement
    (keepsLoops_beginLoop (.inl rfl)
      (by simpa [beginsBeside, loopKey?, begins, Loop.key] using allowed))
  repeatStatement begins allowed := obeysFrom_repeatStatement
    (keepsLoops_beginLoop (.inr rfl)
      (by simpa [beginsBeside, loopKey?, begins, Loop.key] using allowed))

/-! ### Runs -/

theorem keepsLoops_start (config : Config) (host : Host) :
    (start config host).KeepsLoops config known where
  config_eq := rfl
  capacity := rfl
  operands := (by decide : "EXPRESSION" ≠ "LOOP")
  returns := (by decide : "GOSUB" ≠ "LOOP")
  nodup := List.nodup_nil
  among := nofun

theorem recovers_keepsLoops : (Conduct.keepsLoops config known).Recovers :=
  fun fails keeps => (fails keeps).1

theorem refines_keepsLoops :
    (Conduct.keepsLoops config known).Refines (.keeps (KeepsLoops config known)) :=
  ⟨id, fun fails keeps => (fails keeps).1⟩

/-- **Loops stay different and known** as long as known ones begin. -/
theorem KeepsLoops.of_reachesUnless {first : Machine} (begins : first.KeepsLoops config known)
    (reaches : ReachesUnless (beginsBeside known) True first machine) :
    machine.KeepsLoops config known := by
  refine holds_of_reachesUnless refines_keepsLoops recovers_keepsLoops obeys_servePins
    (fun machine keeps => ?_) (fun _ _ keeps => keeps.of_same rfl rfl rfl rfl)
    (fun _ => keepsLoops_clear) (fun machine _ keeps => ?_) begins reaches
  · exact (keeps.of_sublist (List.nil_sublist _)).of_same rfl rfl rfl rfl
  · rw [restart, keeps.config_eq]
    exact keepsLoops_start config machine.host

/-- **Known loops find room** if there is room for all of them. -/
theorem KeepsLoops.not_blamesLoops (keeps : machine.KeepsLoops config known)
    (room : config.HasRoomFor known) {error : Error} {after : Machine}
    (failed : (stepUnless (beginsBeside known)).runOn machine = (.error (.reported error), after)) :
    ¬ error.BlamesLoops := by
  have steps := obeys_stepUnless (Conduct.Refines.refl (.keepsLoops config known))
    obeys_servePins
  exact ((steps machine).fails failed keeps).2 room

/-- **Loops under way are different, and find room.** Wherever a host brings a machine from power
on, with whatever lines, statements, jumps and errors, its loops under way have different counters
and places. If from then on only known loops begin, which the ones under way are as well, and no
more are known than may be under way at once, then no statement fails because there are too many
loops. -/
theorem loops_are_unique_and_find_room {config : Config} {host : Host} {first : Machine}
    (reaches : ReachesUnless (fun _ => false) True (start config host) first) :
    first.loopKeys.Nodup ∧
    ∀ known : List LoopKey, known.length ≤ config.loopDepth → first.loopKeys ⊆ known →
      ∀ machine, ReachesUnless (beginsBeside fun key => decide (key ∈ known)) True first machine →
        ∀ error after, (stepUnless (beginsBeside fun key => decide (key ∈ known))).runOn machine =
          (.error (.reported error), after) → ¬ error.BlamesLoops := by
  have never : (fun _ => false) = beginsBeside fun _ => true := by
    funext machine
    simp [beginsBeside]
  rw [never] at reaches
  have unique := (keepsLoops_start config host).of_reachesUnless reaches
  refine ⟨unique.nodup, fun known few under machine goesOn error after failed => ?_⟩
  have begins : first.KeepsLoops config fun key => decide (key ∈ known) :=
    { unique with among := fun key listed => decide_eq_true (under listed) }
  exact (begins.of_reachesUnless goesOn).not_blamesLoops (Config.hasRoomFor_of_length few) failed

/-- Two loops that a jump begins again, with room for two. -/
theorem loops_are_unique_and_find_room_again :
    let entering (machine : Machine) (text : String) := ((enter (ascii text)).runOn machine).2
    let first := ["10 FOR I=1 TO 2", "20 FOR J=1 TO 2", "30 GOTO 10", "RUN"].foldl entering
      (start { memorySize := 128, loopDepth := 2 } {})
    let known : List LoopKey := [.for ⟨73, 0⟩, .for ⟨74, 0⟩]
    let machine := ((execute 4).runOn first).2
    first.loopKeys.Nodup ∧ machine.loops.isFull = true ∧
      ∀ error after, (stepUnless (beginsBeside fun key => decide (key ∈ known))).runOn machine =
        (.error (.reported error), after) → ¬ error.BlamesLoops := by
  intro entering first known machine
  have reaches : ReachesUnless (fun _ => false) True
      (start { memorySize := 128, loopDepth := 2 } {}) first :=
    .enter _ (.enter _ (.enter _ (.enter _ .refl)))
  have goesOn : ReachesUnless (beginsBeside fun key => decide (key ∈ known)) True first machine :=
    ReachesUnless.execute_of_isSome .refl (by decide +kernel)
  obtain ⟨unique, findsRoom⟩ := loops_are_unique_and_find_room reaches
  obtain ⟨none, full⟩ : first.loopKeys = [] ∧ machine.loops.isFull = true := by decide +kernel
  exact ⟨unique, full, findsRoom known (Nat.le_refl 2) (none ▸ List.nil_subset _) machine goesOn⟩

/-- A line that a `POKE` made part of a string is still found by its number, and the loop in it
begins although the program has only one loop. -/
theorem loops_overflow_in_lost_line :
    let typing (machine : Machine) (text : String) :=
      ((execute 2).runOn ((enter (ascii text)).runOn machine).2).2
    let machine := ["10 FOR I=1 TO 2:GOTO 30", "20 A$=\"X\"", "30 FOR J=1 TO 2", "40 NEXT",
      "RESTORE 30", "POKE 34,20"].foldl typing (start { memorySize := 128, loopDepth := 1 } {})
    let tokens := machine.memory.lines.flatMap fun span =>
      (machine.memory.lineTokens? span.number).getD []
    let run := (execute 4).runOn ((enter (ascii "RUN")).runOn machine).2
    tokens.countP (fun token => [.for, .while, .repeat].any (token.isWord ·)) = 1 ∧
      run.1.toOption =
        some (.failed { kind := .stackOverflow, line := some 20, detail := "LOOP" }) := by
  decide +kernel

/-- A line that is entered moves the program, but not the place where a loop under way goes on. That
place is then inside of a token: no number of tokens leads there, and the next round is a syntax
error. -/
theorem entered_line_misplaces_loop :
    let entering (machine : Machine) (text : String) := ((enter (ascii text)).runOn machine).2
    let typed := ["10 FOR I=1 TO 3", "20 STOP", "30 PRINT I:NEXT", "RUN"].foldl entering
      (start { memorySize := 128 } {})
    let stopped := ((execute 9).runOn typed).2
    let edited := entering stopped "5 REM ABC"
    let next (machine : Machine) := ((execute 9).runOn (entering machine "NEXT")).1.toOption
    let places (machine : Machine) := (List.range (machine.memory.top + 1)).map fun count =>
      machine.memory.program.placeAfter machine.memory.width count 0
    stopped.loops.entries.map Loop.resume = [{ mode := .run, offset := 19 }] ∧
      edited.loops = stopped.loops ∧ 19 ∈ places stopped ∧ 19 ∉ places edited ∧
      next stopped = some .stopped ∧ next edited = some (.failed { kind := .syntaxError }) := by
  decide +kernel

end Machine

end PocketBasic
