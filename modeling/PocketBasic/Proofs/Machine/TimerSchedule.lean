/-
**Timers keep their schedule.** A timer changes in a few places only: where a statement sets or
clears it, where it fires, where a program starts afresh, and where an error ends a statement. From
one setting or firing to the next it can only be turned off or forgotten, so what outlasts the two
is said of it once and holds until it is set or fires again.

* `Timer.IsOff`, `Timer.CountsFrom`: what is said of a timer;
* `TimerRule`: what outlasts that a timer is turned off or forgotten;
* `Machine.stepSparing`, `Machine.executeSparing`: running, but stalling where one of the timers
  would be set or fire;
* `Machine.TimePasses`: how a host goes on while one of the timers is not set and does not fire;
* `Machine.Started`, `Machine.Stopped`: where a timer begins to count, and where it is turned off;
* **`Machine.TimePasses.keeps`**: what outlasts both holds of the timer meanwhile;
* **`Machine.timers_keep_schedule`**: a timer fires only after its interval has passed since it was
  set or fired last, and not at all after it was turned off;
* `Machine.line_error_leaves_timer`: the error of a line that is not stored turns no timer off.
-/

import PocketBasic.Proofs.Machine.Aside

namespace PocketBasic

/-! ### One timer -/

namespace Timer

variable {timer : Timer} {start interval now : UInt64}

def IsOff (timer : Timer) : Prop := timer.isEnabled = false

/-- Whether a timer, if it is on, counts an interval from a time on. -/
def CountsFrom (start interval : UInt64) (timer : Timer) : Prop :=
  timer.isEnabled = true → timer.last = start ∧ timer.interval = interval

theorem IsOff.not_isDue (off : timer.IsOff) (now : UInt64) : timer.isDue now = false := by
  rw [isDue, off, Bool.false_and, Bool.false_and]

/-- **A timer is due only after its interval has passed**, if the clock does not go back. -/
theorem CountsFrom.le_of_isDue (counts : timer.CountsFrom start interval) (onwards : start ≤ now)
    (due : timer.isDue now = true) : start.toNat + interval.toNat ≤ now.toNat := by
  simp only [isDue, Bool.and_eq_true, decide_eq_true_eq] at due
  obtain ⟨⟨enabled, -⟩, passed⟩ := due
  obtain ⟨rfl, rfl⟩ := counts enabled
  rw [UInt64.le_iff_toNat_le, UInt64.toNat_sub_of_le _ _ onwards] at passed
  rw [UInt64.le_iff_toNat_le] at onwards
  omega

end Timer

/-- What outlasts that a timer is turned off, and that it is forgotten. -/
class TimerRule (holds : Timer → Prop) : Prop where
  off : ∀ {timer : Timer}, holds timer → holds timer.disabled
  forgotten : holds {}

instance : TimerRule Timer.IsOff := ⟨fun _ => rfl, rfl⟩

instance (start interval : UInt64) : TimerRule (Timer.CountsFrom start interval) where
  off _ enabled := nomatch enabled
  forgotten enabled := nomatch enabled

/-- What keeps a property of one of the timers. -/
def Conduct.keepsTimer (repeats : Bool) (holds : Timer → Prop) : Conduct Machine :=
  .keeps fun machine => holds (machine.timer repeats)

namespace Machine

open Conduct (keepsTimer)

variable {holds : Timer → Prop} {repeats : Bool} {machine first last after : Machine}

/-! ### What changes a timer -/

@[simp]
theorem timer_withTimer (repeats : Bool) (timer : Timer) (machine : Machine) :
    (machine.withTimer repeats timer).timer repeats = timer := by
  cases repeats <;> rfl

theorem timer_withTimer_other (repeats : Bool) (timer : Timer) (machine : Machine) :
    (machine.withTimer (!repeats) timer).timer repeats = machine.timer repeats := by
  cases repeats <;> rfl

theorem timer_disabled (repeats : Bool) (machine : Machine) :
    timer repeats { machine with timers := machine.timers.disabled } =
      (machine.timer repeats).disabled := by
  cases repeats <;> rfl

theorem isAside_timer (repeats : Bool) (holds : Timer → Prop) :
    IsAside fun machine => holds (machine.timer repeats) where
  apart _ _ _ _ _ _ _ _ _ _ _ _ := id
  registers shares held := by
    rw [timer, shares.timers]
    exact held
  frames _ _ _ _ := id

instance steers_keepsTimer : (keepsTimer repeats holds).Steers :=
  (isAside_timer repeats holds).jumps.steers

instance departs_keepsTimer : (keepsTimer repeats holds).Departs :=
  (isAside_timer repeats holds).departs

instance : (keepsTimer repeats holds).EditsProgram :=
  (isAside_timer repeats holds).apart.ignoresMemory.editsProgram

instance : (keepsTimer repeats holds).SeeksData := ⟨fun _ _ => id⟩

instance : (keepsTimer repeats holds).StartsStatements := ⟨fun _ => id⟩

instance : (keepsTimer repeats holds).Idles := ⟨fun _ _ => id⟩

instance : (keepsTimer repeats holds).Postpones := ⟨fun _ _ _ => id⟩

/-- The other timer may change as it likes. -/
instance setsTimer_keepsTimer : (keepsTimer repeats holds).SetsTimer (!repeats) :=
  ⟨fun machine timer held => by
    show holds ((machine.withTimer (!repeats) timer).timer repeats)
    rw [timer_withTimer_other]
    exact held⟩

theorem keepsTimer_servePins : servePins.Obeys (keepsTimer repeats holds) :=
  (isAside_timer repeats holds).servePins

section Rule

variable [rule : TimerRule holds]

theorem keepsTimer_disabled (machine : Machine) :
    (keepsTimer repeats holds).moves machine { machine with timers := machine.timers.disabled } :=
  fun held => by
    show holds (timer repeats { machine with timers := machine.timers.disabled })
    rw [timer_disabled]
    exact rule.off held

theorem keepsTimer_clear : clear.Obeys (keepsTimer repeats holds) :=
  ((isAside_timer repeats holds).apart.ignoresMemory.onMemory Memory.obeys_clearHeap).bind
    fun _ => .modify keepsTimer_disabled

theorem keepsTimer_clearTimer (other : Bool) :
    (clearTimer other).Obeys (keepsTimer repeats holds) := by
  rcases Bool.eq_or_eq_not other repeats with rfl | rfl
  · refine .modify fun machine _ => ?_
    show holds ((machine.withTimer other {}).timer other)
    rw [timer_withTimer]
    exact rule.forgotten
  · exact obeys_clearTimer

/-- **Statements keep what outlasts that a timer is turned off or forgotten**, unless they set
it. -/
instance performs_keepsTimer : (keepsTimer repeats holds).Performs :=
  (isAside_timer repeats holds).performs (setsTimer repeats) (fun _ _ => keepsTimer_clear)
    (fun _ _ => (obeys_takeDatum : takeDatum.Obeys (keepsTimer repeats holds)))
    (fun _ _ _ _ => id)
    (fun other begins allowed => by
      rcases Bool.eq_or_eq_not other repeats with rfl | rfl
      · cases begins.symm.trans allowed
      · exact (obeys_timerStatement :
          (timerStatement (!repeats)).Obeys (keepsTimer repeats holds)))
    keepsTimer_clearTimer

end Rule

/-! ### Runs that leave a timer alone -/

/-- Fires what is due, and stalls where one of the timers would fire. -/
def dispatchSparing (repeats : Bool) : Action Unit := do
  if (← get).fires repeats then throw .stalled else dispatch

/-- Does a statement, if there is another one, and stalls where one of the timers would be set or
fire. -/
def stepSparing (repeats : Bool) : Action Bool := do
  match ← stepToDispatch (setsTimer repeats) with
  | some mayFire =>
    if mayFire then dispatchSparing repeats
    return true
  | none => return false

/-- Lets the machine do at most `cycles` statements, and stalls where one of the timers would be set
or fire. -/
def executeSparing (repeats : Bool) : Nat → Action Outcome := executeBy (stepSparing repeats)

theorem stallsOrDoes_stepSparing (repeats : Bool) : StallsOrDoes (stepSparing repeats) step := by
  refine .trans ?_ (stallsOrDoes_stepUnless (setsTimer repeats))
  rw [stepUnless_eq]
  refine .behind fun reached => ?_
  match reached with
  | none => exact .refl _
  | some false => exact .refl _
  | some true =>
    refine .bind (fun machine => ?_) fun _ => .refl _
    rw [dispatchSparing, Attempt.runOn_get_bind]
    split
    · exact .inr rfl
    · exact .inl rfl

/-- **A run that comes to an end without setting or firing a timer is a run of the machine.** -/
theorem execute_of_executeSparing {cycles : Nat} {outcome : Outcome}
    (ran : (executeSparing repeats cycles).runOn machine = (.ok outcome, after)) :
    (execute cycles).runOn machine = (.ok outcome, after) := by
  rw [execute_eq]
  exact (stallsOrDoes_executeBy (stallsOrDoes_stepSparing repeats) cycles).ran ran

/-- Whether a machine in the middle of a step can come to another one while one of its timers is not
set and does not fire: it goes on to where timers and pins fire, the other timer or a pin fires, an
error ends the step, the run goes on, and then a host goes on as it likes. -/
inductive TimePasses (repeats : Bool) (first : Machine) : Machine → Prop
  | refl : TimePasses repeats first first
  | approach {machine : Machine} :
    TimePasses repeats first machine → TimePasses repeats first (approach.runOn machine).2
  | statement {machine : Machine} : TimePasses repeats first machine →
    TimePasses repeats first ((stepToDispatch (setsTimer repeats)).runOn machine).2
  | dispatch {machine : Machine} (spared : machine.fires repeats = false) :
    TimePasses repeats first machine → TimePasses repeats first (dispatch.runOn machine).2
  | unwind {machine : Machine} (error : Error) :
    TimePasses repeats first machine → TimePasses repeats first ((unwind error).runOn machine).2
  | run {machine after : Machine} {cycles : Nat} {outcome : Outcome} :
    TimePasses repeats first machine →
    (runBy (stepSparing repeats) cycles).runOn machine = (.ok outcome, after) →
      TimePasses repeats first after
  | devices {machine : Machine} (host : Host) :
    TimePasses repeats first machine → TimePasses repeats first { machine with host }
  | enter {machine : Machine} (text : Bytes) :
    TimePasses repeats first machine → TimePasses repeats first ((enter text).runOn machine).2
  | execute {machine after : Machine} {cycles : Nat} {outcome : Outcome} :
    TimePasses repeats first machine →
    (executeSparing repeats cycles).runOn machine = (.ok outcome, after) →
      TimePasses repeats first after
  | autorun {machine : Machine} :
    TimePasses repeats first machine → TimePasses repeats first (autorun.runOn machine).2
  | restart {machine : Machine} :
    TimePasses repeats first machine → TimePasses repeats first machine.restart

section Rule

variable [rule : TimerRule holds]

omit rule in
/-- **Firing what is due keeps the property**, unless the timer fires itself. -/
theorem keepsTimer_dispatch (spared : machine.fires repeats = false) :
    dispatch.ObeysFrom (keepsTimer repeats holds) machine := by
  refine obeysFrom_dispatch (.refl _) (fun other due => ?_) keepsTimer_servePins
  rcases Bool.eq_or_eq_not other repeats with rfl | rfl
  · cases due.symm.trans spared
  · exact setsTimer_keepsTimer.moves_timer machine _

theorem keepsTimer_stepSparing : (stepSparing repeats).Obeys (keepsTimer repeats holds) := by
  have steps : (stepToDispatch (setsTimer repeats)).Obeys (keepsTimer repeats holds) :=
    obeys_stepToDispatch
  have fires : (dispatchSparing repeats).Obeys (keepsTimer repeats holds) :=
    .get_bind fun machine => .ite (fun _ => obeys_stalled machine) fun spared =>
      keepsTimer_dispatch (by simpa using spared)
  refine steps.bind fun reached => ?_
  match reached with
  | none => exact .pure _
  | some false => exact .pure _
  | some true => exact fires.bind fun _ => .pure _

theorem keepsTimer_unwind (error : Error) : (unwind error).Obeys (keepsTimer repeats holds) :=
  fun machine =>
    have recovers : (keepsTimer repeats holds).Recovers := Conduct.recovers_keeps
    obeysFrom_unwind recovers fun _ => keepsTimer_disabled machine

/-- **What outlasts that a timer is turned off or forgotten holds of it** until it is set or
fires. -/
theorem TimePasses.keeps (passes : TimePasses repeats first last)
    (begins : holds (first.timer repeats)) : holds (last.timer repeats) := by
  have abandons (machine : Machine) :
      (keepsTimer repeats holds).moves machine (machine.abandon false) :=
    keepsTimer_disabled machine
  have recovers : (keepsTimer repeats holds).Recovers := Conduct.recovers_keeps
  induction passes with
  | refl => exact begins
  | approach _ ih =>
    have obeys : Machine.approach.Obeys (keepsTimer repeats holds) := obeys_approach
    exact holds_after obeys ih
  | statement _ ih =>
    have obeys : (stepToDispatch (setsTimer repeats)).Obeys (keepsTimer repeats holds) :=
      obeys_stepToDispatch
    exact holds_after obeys ih
  | dispatch spared _ ih => exact holds_of_obeysFrom (keepsTimer_dispatch spared) ih
  | unwind error _ ih => exact holds_after (keepsTimer_unwind error) ih
  | run _ ran ih =>
    exact (obeys_runBy recovers keepsTimer_stepSparing abandons _ _).moves ran ih
  | devices host _ ih => exact ih
  | enter text _ ih => exact holds_after (obeys_enter recovers text) ih
  | execute _ ran ih =>
    exact (obeys_executeBy recovers keepsTimer_stepSparing abandons _ _).moves ran ih
  | autorun _ ih =>
    have obeys : Machine.autorun.Obeys (keepsTimer repeats holds) := obeys_autorun keepsTimer_clear
    exact holds_after obeys ih
  | restart _ _ =>
    cases repeats <;> exact rule.forgotten

end Rule

/-! ### Firing -/

theorem isDue_of_fires (fires : machine.fires repeats = true) :
    (machine.timer repeats).isDue machine.host.millis = true := by
  cases repeats with
  | false => exact fires
  | true => exact (Bool.and_eq_true_iff.mp fires).2

/-- **A timer that fires does what it is set to do.** -/
theorem runOn_dispatch (due : machine.fires repeats = true) :
    ∃ response, (machine.timer repeats).response = some response ∧
      dispatch.runOn machine = (respond response false).runOn (machine.fired repeats) := by
  have isDue := isDue_of_fires due
  have responds : (machine.timer repeats).response.isSome = true := by
    simp only [Timer.isDue, Bool.and_eq_true] at isDue
    exact isDue.1.2
  obtain ⟨response, set⟩ := Option.isSome_iff_exists.mp responds
  refine ⟨response, set, ?_⟩
  rw [dispatch, Attempt.runOn_get_bind]
  cases repeats with
  | false =>
    refine (congrArg (Attempt.runOn · machine) (if_pos isDue)).trans ?_
    rw [show machine.timers.after.response = some response from set]
    rfl
  | true =>
    have early : ¬ (machine.timer false).isDue machine.host.millis = true := by
      simpa using (Bool.and_eq_true_iff.mp due).1
    refine (congrArg (Attempt.runOn · machine) ((if_neg early).trans (if_pos isDue))).trans ?_
    rw [show machine.timers.every.response = some response from set]
    rfl

/-- What firing makes of a timer holds of it afterwards. -/
theorem holds_of_fired [TimerRule holds] (due : machine.fires repeats = true)
    (begins : holds ((machine.fired repeats).timer repeats)) :
    holds ((dispatch.runOn machine).2.timer repeats) := by
  obtain ⟨response, -, ran⟩ := runOn_dispatch due
  have responds : (respond response false).Obeys (keepsTimer repeats holds) :=
    departs_keepsTimer.respond response
  rw [ran]
  exact holds_after responds begins

/-! ### Setting -/

/-- **`AFTER` and `EVERY` set a timer from now on.** -/
theorem exists_set {interval : Single} {reached : Machine}
    (argument : (do advance; value : Action Single).runOn machine = (.ok interval, reached))
    (ran : (timerStatement repeats).runOn machine = (.ok (), after)) :
    ∃ timer response,
      after.timer repeats = Timer.set timer interval response after.host.millis := by
  obtain ⟨_, _, advanced, evaluated⟩ := Attempt.exists_of_runOn_bind argument
  obtain ⟨_, _, begun, ran⟩ := Attempt.exists_of_runOn_bind ran
  cases advanced.symm.trans begun
  obtain ⟨_, _, same, ran⟩ := Attempt.exists_of_runOn_bind ran
  cases evaluated.symm.trans same
  rw [Attempt.runOn_ite] at ran
  split at ran
  · cases ran
  · obtain ⟨response, middle, -, ran⟩ := Attempt.exists_of_runOn_bind ran
    cases ran
    refine ⟨middle.timer repeats, response, ?_⟩
    cases repeats <;> rfl

/-- Where a timer begins to count an interval, and when: where a statement sets it, and where it
fires and repeats. -/
inductive Started (repeats : Bool) (interval : Single) : UInt64 → Machine → Prop
  | set {machine reached after : Machine} :
    (do advance; value : Action Single).runOn machine = (.ok interval, reached) →
    (timerStatement repeats).runOn machine = (.ok (), after) →
      Started repeats interval after.host.millis after
  | fired {start : UInt64} {first last : Machine} (again : repeats = true) :
    Started repeats interval start first → TimePasses repeats first last →
    last.fires repeats = true →
      Started repeats interval last.host.millis (dispatch.runOn last).2

/-- **A timer that was started counts from then on.** -/
theorem Started.countsFrom {interval : Single} {start : UInt64}
    (started : Started repeats interval start machine) :
    (machine.timer repeats).CountsFrom start (UInt64.ofNat interval.toSize) := by
  induction started with
  | set argument ran =>
    obtain ⟨timer, response, same⟩ := exists_set argument ran
    rw [same]
    exact fun _ => ⟨rfl, rfl⟩
  | fired again _ passes due ih =>
    subst again
    refine holds_of_fired due fun enabled => ⟨rfl, ?_⟩
    exact (passes.keeps ih enabled).2

/-! ### Turning off -/

theorem isOff_clear {value : Unit} (ran : clear.runOn machine = (.ok value, after)) :
    (after.timer repeats).IsOff := by
  obtain ⟨_, cleared, -, ran⟩ := Attempt.exists_of_runOn_bind ran
  cases ran
  cases repeats <;> rfl

/-- `CLR` alone, and `CLR` for a timer. -/
theorem isOff_clrStatement {value : Unit}
    (clears : isStatementEnd machine.nextToken.cursor.token = true ∨
      machine.nextToken.cursor.token = .word (if repeats then .every else .after))
    (ran : clrStatement.runOn machine = (.ok value, after)) : (after.timer repeats).IsOff := by
  obtain ⟨_, _, advanced, ran⟩ := Attempt.exists_of_runOn_bind ran
  cases advanced
  obtain ⟨ends, _, looked, ran⟩ := Attempt.exists_of_runOn_bind ran
  cases looked
  rw [Attempt.runOn_ite] at ran
  split at ran
  · exact isOff_clear ran
  rename_i more
  have names := clears.resolve_left more
  obtain ⟨_, _, read, ran⟩ := Attempt.exists_of_runOn_bind ran
  cases read
  rw [names] at ran
  cases repeats
  all_goals
    obtain ⟨_, _, -, ran⟩ := Attempt.exists_of_runOn_bind ran
    cases ran
    rfl

theorem isOff_startAfresh (loaded : Bool) (line : Option LineNumber) {value : Unit}
    (ran : (startAfresh loaded line).runOn machine = (.ok value, after)) :
    (after.timer repeats).IsOff := by
  rw [startAfresh, Attempt.runOn_get_bind] at ran
  obtain ⟨_, cleared, clears, ran⟩ := Attempt.exists_of_runOn_bind ran
  have goes (mode : Mode) : (goAfresh mode line).Obeys (keepsTimer repeats Timer.IsOff) :=
    obeys_goAfresh mode line
  exact (goes _ cleared).moves ran (isOff_clear clears)

/-- What an error leaves of a statement it leaves once. -/
theorem runOn_unwind_abandon {error : Error} (other : error.kind ≠ .interrupted) :
    (unwind error).runOn machine = (unwind error).runOn (machine.abandon false) := by
  rw [unwind, Attempt.runOn_get_bind, Attempt.runOn_get_bind]
  dsimp only
  rw [if_neg other, if_neg other]
  rfl

/-- Where a timer is turned off: where a statement sets it to an interval that is not positive, by
`CLR` for this timer, `CLR` alone and `RUN`, by an error of a statement other than a break, and
where it fires once. -/
inductive Stopped (repeats : Bool) : Machine → Prop
  | set {interval : Single} {machine reached after : Machine}
      (zero : Single.zero.less interval = false) :
    (do advance; value : Action Single).runOn machine = (.ok interval, reached) →
    (timerStatement repeats).runOn machine = (.ok (), after) → Stopped repeats after
  | clearTimer {machine after : Machine}
      (names : machine.nextToken.cursor.token = .word (if repeats then .every else .after)) :
    clrStatement.runOn machine = (.ok (), after) → Stopped repeats after
  | clear {machine after : Machine}
      (alone : isStatementEnd machine.nextToken.cursor.token = true) :
    clrStatement.runOn machine = (.ok (), after) → Stopped repeats after
  | run {machine after : Machine} :
    runStatement.runOn machine = (.ok (), after) → Stopped repeats after
  | error {error : Error} (machine : Machine) (other : error.kind ≠ .interrupted) :
    Stopped repeats ((unwind error).runOn machine).2
  | fired {machine : Machine} (once : repeats = false) :
    machine.fires repeats = true → Stopped repeats (dispatch.runOn machine).2

/-- **A timer that was turned off is off.** -/
theorem Stopped.isOff (stopped : Stopped repeats machine) : (machine.timer repeats).IsOff := by
  cases stopped with
  | set zero argument ran =>
    obtain ⟨timer, response, same⟩ := exists_set argument ran
    rw [same, Timer.IsOff, Timer.set, zero, Bool.false_and]
  | clearTimer names ran =>
    exact isOff_clrStatement (.inr names) ran
  | clear alone ran =>
    exact isOff_clrStatement (.inl alone) ran
  | run ran =>
    obtain ⟨_, _, -, ran⟩ := Attempt.exists_of_runOn_bind ran
    obtain ⟨loaded, _, -, ran⟩ := Attempt.exists_of_runOn_bind ran
    obtain ⟨ends, _, -, ran⟩ := Attempt.exists_of_runOn_bind ran
    cases ends with
    | true => exact isOff_startAfresh loaded none ran
    | false =>
      obtain ⟨line, _, -, ran⟩ := Attempt.exists_of_runOn_bind ran
      exact isOff_startAfresh loaded line ran
  | error failed other =>
    rw [runOn_unwind_abandon other]
    refine holds_after (keepsTimer_unwind _) ?_
    cases repeats <;> rfl
  | fired once due =>
    subst once
    exact holds_of_fired due rfl

/-! ### Schedules -/

/-- **Timers keep their schedule.** While time passes in which a timer is not set, and from a
statement or a firing that starts it on, it fires only after its interval, in whole milliseconds as
far as the clock can count them, has passed, if the clock does not go back; and not at all once it
was turned off, be it by a statement, an error, or firing once. Where it fires it does what it is
set to do. -/
theorem timers_keep_schedule (passes : TimePasses repeats first last) :
    (∀ interval start, Started repeats interval start first → start ≤ last.host.millis →
      last.fires repeats = true → start.toNat + interval.toSize ≤ last.host.millis.toNat) ∧
    (Stopped repeats first → last.fires repeats = false) ∧
    (last.fires repeats = true → ∃ response, (last.timer repeats).response = some response ∧
      dispatch.runOn last = (respond response false).runOn (last.fired repeats)) := by
  refine ⟨fun interval start started onwards due => ?_, fun stopped => ?_, runOn_dispatch⟩
  · have counts := passes.keeps started.countsFrom
    have passed := counts.le_of_isDue onwards (isDue_of_fires due)
    have small : interval.toSize < 2 ^ 64 :=
      Nat.lt_of_le_of_lt interval.toSize_le_sizeLimit (by decide)
    rwa [UInt64.toNat_ofNat', Nat.mod_eq_of_lt small] at passed
  · have off := passes.keeps stopped.isOff
    rw [← Bool.not_eq_true]
    intro due
    cases (off.not_isDue _).symm.trans (isDue_of_fires due)

/-- `EVERY 2` fires two milliseconds after it was set, and again when two more have passed; had an
error ended a statement meanwhile, it would not fire however late it is. -/
theorem timers_keep_schedule_every :
    let entering (machine : Machine) (text : String) := ((enter (ascii text)).runOn machine).2
    let typed := ["10 EVERY 2 GOTO 20", "20 GOTO 20", "RUN"].foldl entering
      (start { memorySize := 128 } {})
    let setting := ((findStatementWithin 3).runOn ((execute 1).runOn typed).2).2
    let onward (machine : Machine) :=
      ((stepToDispatch (setsTimer true)).runOn (dispatch.runOn machine).2).2
    let first := ((timerStatement true).runOn setting).2
    let next := (approach.runOn first).2
    let last := onward next
    let again := onward (onward last)
    let failed := ((unwind { kind := .syntaxError }).runOn next).2
    let late := { failed with host := { failed.host with millis := 100 } }
    (last.fires true = true ∧ first.host.millis.toNat + 2 ≤ last.host.millis.toNat) ∧
      (again.fires true = true ∧ last.host.millis.toNat + 2 ≤ again.host.millis.toNat) ∧
      (next.timer true).isEnabled = true ∧ late.fires true = false := by
  intro entering typed setting onward first next last again failed late
  obtain ⟨argument, sets, whole, waits, fires, between, refires, later, latest, armed⟩ :
      ((do advance; value : Action Single).runOn setting).1 = .ok (Single.ofNat 2) ∧
        ((timerStatement true).runOn setting).1 = .ok () ∧ (Single.ofNat 2).toSize = 2 ∧
        next.fires true = false ∧ last.fires true = true ∧ (onward last).fires true = false ∧
        again.fires true = true ∧ first.host.millis ≤ last.host.millis ∧
        last.host.millis ≤ again.host.millis ∧ (next.timer true).isEnabled = true := by
    decide +kernel
  have started : Started true (Single.ofNat 2) first.host.millis first :=
    .set (Prod.ext argument rfl) (Prod.ext sets rfl)
  have passes : TimePasses true first last := .statement (.dispatch waits (.approach .refl))
  have onwards : TimePasses true (dispatch.runOn last).2 again :=
    .statement (.dispatch between (.statement .refl))
  have stays : TimePasses true failed late := .devices _ .refl
  have restarted : Started true (Single.ofNat 2) last.host.millis (dispatch.runOn last).2 :=
    .fired rfl started passes fires
  have stopped : Stopped true failed := .error next (by decide)
  clear_value first last again failed late
  have waited := (timers_keep_schedule passes).1 _ _ started later fires
  have rewaited := (timers_keep_schedule onwards).1 _ _ restarted latest refires
  rw [whole] at waited rewaited
  have never := (timers_keep_schedule stays).2.1 stopped
  exact ⟨⟨fires, waited⟩, ⟨refires, rewaited⟩, armed, never⟩

/-- An error of a line that could not be stored is reported like the same error of a direct
statement, but it turns no timer off: after `CONT` the timer fires that the other one stops. -/
theorem line_error_leaves_timer :
    let host : Host := { triggers := [{ yield := 4, interrupts := true }] }
    let entering (machine : Machine) (text : String) := ((enter (ascii text)).runOn machine).2
    let typed := ["10 AFTER 9 GOTO 30", "20 GOTO 20", "30 END", "RUN"].foldl entering
      (start { memorySize := 128 } host)
    let broken := ((execute 9).runOn typed).2
    let told (line : String) := (execute 1).runOn (entering broken line)
    let moment (line : String) := (stepToDispatch (setsTimer false)).runOn
      ((execute 5).runOn (entering (told line).2 "CONT")).2
    ((told "70000 X").1.toOption = some (.failed { kind := .undefinedLine }) ∧
      (moment "70000 X").1.toOption = some (some true) ∧
      (moment "70000 X").2.fires false = true) ∧
    (told "GOTO 70").1.toOption = some (.failed { kind := .undefinedLine }) ∧
      (moment "GOTO 70").1.toOption = some (some true) ∧
      (moment "GOTO 70").2.fires false = false := by
  decide +kernel

end Machine

end PocketBasic
