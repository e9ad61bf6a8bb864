/-
**Where expressions make objects.** An expression makes and keeps an object in two places only:
where it reads `MALLOC`, and where it reads the element of an array that is not dimensioned. Where
it comes to neither of them, also in the functions that it calls, a successful evaluation leaves the
heap as it was, to the last object.

* `Token.MakesBeside`: the tokens that make objects beside given arrays;
* `Cursor.MayCome`: the cursors that an evaluation may come to: it reads on, it goes to the
  expressions of functions, and it comes back;
* `Machine.MakesNothing`: a machine with given objects that comes to no token that makes another;
* `Machine.makesNothing_call`: a call of a function leaves the objects as they were;
* `Machine.IsQuiet`, `Machine.isQuiet_of_texts`: a machine whose texts make no object;
* **`Machine.expressions_make_nothing`**: its expressions leave the objects as they were.
-/

import PocketBasic.Proofs.Machine.Parameters
import PocketBasic.Proofs.Machine.Places

namespace PocketBasic

variable {width : AddressWidth} {α : Type}

/-! ### Tokens and cursors -/

/-- Whether the token makes an object where only these arrays are dimensioned. -/
def Token.MakesBeside (dimensioned : Name → Prop) : Token → Prop
  | .word .malloc => True
  | .array name => name.isSpecial = false ∧ ¬ dimensioned name
  | _ => False

namespace Cursor

variable {texts : Mode → ProgramText} {entries : Nat → Prop} {first second third : Cursor}

/-- What an evaluation may come to from a cursor on: it reads on, it goes to the expression of a
function, and it comes back to where a token begins. -/
inductive MayCome (texts : Mode → ProgramText) (width : AddressWidth) (entries : Nat → Prop)
    (first : Cursor) : Cursor → Prop
  | here : MayCome texts width entries first first
  | next {cursor : Cursor} (comes : MayCome texts width entries first cursor) :
    MayCome texts width entries first (cursor.next texts width)
  | goes {cursor : Cursor} {entry : Nat} (defined : entries entry)
    (comes : MayCome texts width entries first cursor) :
    MayCome texts width entries first ((cursor.movedTo
      { mode := if cursor.mode = .runStore then .runStore else .run
        offset := entry }).next texts width)
  | back {cursor : Cursor} (comes : MayCome texts width entries first cursor) :
    MayCome texts width entries first ((cursor.movedTo cursor.location).next texts width)

theorem MayCome.trans (begins : MayCome texts width entries first second)
    (goesOn : MayCome texts width entries second third) :
    MayCome texts width entries first third := by
  induction goesOn with
  | here => exact begins
  | next _ ih => exact ih.next
  | goes defined _ ih => exact ih.goes defined
  | back _ ih => exact ih.back

/-- The typed line stays on the way. -/
theorem MayCome.line (comes : MayCome texts width entries first second) :
    second.line.text = first.line.text ∧ second.line.fractions = first.line.fractions := by
  have read {cursor : Cursor} (same : cursor.line.text = first.line.text ∧
      cursor.line.fractions = first.line.fractions) :
      (cursor.next texts width).line.text = first.line.text ∧
        (cursor.next texts width).line.fractions = first.line.fractions :=
    ⟨(sharesText_next cursor).text.trans same.1, (sharesText_next cursor).fractions.trans same.2⟩
  induction comes with
  | here => exact ⟨rfl, rfl⟩
  | next _ ih => exact read ih
  | goes _ _ ih | back _ ih =>
    exact read ⟨(line_movedTo _ _).1.trans ih.1, (line_movedTo _ _).2.trans ih.2⟩

/-- Cursors at one place come to the same places. -/
theorem MayCome.exists_alike (alike : first.ReadsAlike second)
    (comes : MayCome texts width entries second third) :
    ∃ other, MayCome texts width entries first other ∧ other.ReadsAlike third := by
  induction comes with
  | here => exact ⟨first, .here, alike⟩
  | next _ ih =>
    obtain ⟨other, there, same⟩ := ih
    exact ⟨_, there.next, same.next⟩
  | goes defined _ ih =>
    obtain ⟨other, there, same⟩ := ih
    rw [same.place.mode]
    exact ⟨_, there.goes defined, .movedTo same.text same.fractions _⟩
  | back _ ih =>
    obtain ⟨other, there, same⟩ := ih
    rw [same.place.location]
    exact ⟨_, there.back, .movedTo same.text same.fractions _⟩

end Cursor

/-! ### Objects -/

namespace HeapRecord

/-- Whether one of the objects defines a function whose expression is here. -/
def Defines (records : List (HeapRecord width)) (entry : Nat) : Prop :=
  ∃ record ∈ records, record.kind = .function ∧
    entry = fromLittleEndian (record.payload.take width.byteCount)

/-- **A parameter shadows a scalar only.** -/
theorem Shadows.mem_iff {records shadowed : List (HeapRecord width)}
    {bound : Option (Name × Option Single)} (shadows : Shadows records bound shadowed)
    {record : HeapRecord width} (other : record.kind ≠ .scalar) :
    record ∈ shadowed ↔ record ∈ records := by
  cases shadows with
  | none | special => rfl
  | @present newer older changed name value ordinary is same =>
    have one : record ≠ changed.written 0 value.toBytes := fun same =>
      other (same ▸ (is_written.mpr is).1)
    have two : record ≠ changed := fun same => other (same ▸ is.1)
    subst same
    simp only [List.mem_append, List.mem_cons, one, two, false_or]
  | absent is =>
    rw [List.mem_cons, or_iff_right]
    exact fun same => other (same ▸ is.1)

theorem defines_iff {records others : List (HeapRecord width)}
    (same : ∀ record : HeapRecord width, record.kind ≠ .scalar →
      (record ∈ others ↔ record ∈ records)) (entry : Nat) :
    Defines others entry ↔ Defines records entry :=
  exists_congr fun record => and_congr_left fun defined =>
    same record (by rw [defined.1]; exact nofun)

end HeapRecord

/-! ### Machines that make nothing -/

namespace Machine

/-- Whether the objects of a machine are these, and an evaluation comes to no token that makes
another one: no array but the dimensioned ones, and no buffer. -/
structure MakesNothing (dimensioned : Name → Prop) (records : List (HeapRecord width))
    (machine : Machine) : Prop where
  held : machine.memory.HoldsObjects records
  guarded : machine.memory.IsGuarded
  arrays : ∀ name, name.isSpecial = false → dimensioned name →
    ∃ record ∈ records, record.Is .array name
  functions : ∀ record ∈ records, record.kind = .function →
    record.payload.length = width.byteCount + 2
  quiet : ∀ cursor, machine.cursor.MayCome machine.programText machine.memory.width
    (HeapRecord.Defines records) cursor → ¬ cursor.token.MakesBeside dimensioned

variable {dimensioned : Name → Prop} {machine after : Machine}
  {records others : List (HeapRecord width)}

/-- A machine that an evaluation comes to, where at most scalars are other ones. -/
theorem MakesNothing.kept (nothing : machine.MakesNothing dimensioned records)
    (texts : after.programText = machine.programText)
    (widths : after.memory.width = machine.memory.width)
    (same : ∀ record : HeapRecord width, record.kind ≠ .scalar →
      (record ∈ others ↔ record ∈ records))
    (held : after.memory.HoldsObjects others) (guarded : after.memory.IsGuarded) {cursor : Cursor}
    (comes : machine.cursor.MayCome machine.programText machine.memory.width
      (HeapRecord.Defines records) cursor)
    (alike : cursor.ReadsAlike after.cursor) : after.MakesNothing dimensioned others where
  held := held
  guarded := guarded
  arrays name ordinary there := by
    obtain ⟨record, among, is⟩ := nothing.arrays name ordinary there
    exact ⟨record, (same record (by rw [is.1]; exact nofun)).mpr among, is⟩
  functions record among function :=
    nothing.functions record ((same record (by rw [function]; exact nofun)).mp among) function
  quiet other reached := by
    have defines : HeapRecord.Defines others = HeapRecord.Defines records :=
      funext fun entry => propext (HeapRecord.defines_iff same entry)
    rw [texts, widths, defines] at reached
    obtain ⟨first, there, same⟩ := reached.exists_alike alike
    rw [same.place.token]
    exact nothing.quiet first (comes.trans there)

end Machine

/-- What keeps the texts and, where nothing is made, the objects. Of what fails nothing is said. -/
def Conduct.keepsObjects (dimensioned : Name → Prop) : Conduct Machine where
  moves before after := ∀ (width : AddressWidth) (records : List (HeapRecord width)),
    before.MakesNothing dimensioned records →
      before.KeepsTexts after ∧ after.MakesNothing dimensioned records
  fails _ _ _ := True
  refl machine _ _ nothing := ⟨.refl machine, nothing⟩
  trans first second width records nothing :=
    have begun := first width records nothing
    have ended := second width records begun.2
    ⟨begun.1.trans ended.1, ended.2⟩
  fails_of_moves _ _ := trivial
  fails_moves _ _ := trivial

namespace Machine

open Conduct (keepsObjects)

variable {config : Config} {dimensioned : Name → Prop} {machine after : Machine}
  {records : List (HeapRecord width)}

/-- What stays where it is and leaves the objects alone. -/
theorem keepsObjects_of_stays (stays : Conduct.stays.moves machine after)
    (held : ∀ (width : AddressWidth) (records : List (HeapRecord width)),
      machine.memory.HoldsObjects records → after.memory.HoldsObjects records) :
    (keepsObjects dimensioned).moves machine after := by
  intro width records nothing
  obtain ⟨guarded, keeps, place⟩ := stays nothing.guarded
  exact ⟨keeps, nothing.kept keeps.programText keeps.width (fun _ _ => Iff.rfl)
    (held width records nothing.held) guarded .here (place ▸ .refl _)⟩

theorem mayFail_keepsObjects : (keepsObjects dimensioned).MayFail := ⟨fun _ _ _ => trivial⟩

theorem keepsObjects_foundIn (kind : ObjectKind) (name : Name) (machine : Machine) :
    (keepsObjects dimensioned).moves machine (machine.foundIn kind name) :=
  keepsObjects_of_stays ((accesses_stays.lookup kind name machine).moves (runOn_lookup _ _ _))
    fun _ _ held => holdsObjects_foundIn held kind name

theorem keepsObjects_lookup (kind : ObjectKind) (name : Name) :
    (lookup kind name).Obeys (keepsObjects dimensioned) :=
  fun machine => Attempt.obeysFrom_of_ok (runOn_lookup _ _ _)
    (keepsObjects_foundIn kind name machine)

/-- Evaluations that make nothing and call no function keep the objects. -/
instance reads_keepsObjects : (keepsObjects dimensioned).Reads where
  toAccesses := mayFail_keepsObjects.accesses keepsObjects_lookup
    (fun machine _ _ _ _ _ _ _ _ used detail => keepsObjects_of_stays
      (accesses_stays.moves_registers machine _ _ _ _ _ _ _ _ used detail) fun _ _ => id)
    (fun _ => trivial) fun _ => trivial
  fails_stalled _ := trivial
  moves_next machine width records nothing := by
    rw [nextToken_eq]
    exact ⟨.of_cursor (Cursor.sharesText_next _),
      nothing.kept rfl rfl (fun _ _ => Iff.rfl) nothing.held nothing.guarded
        Cursor.MayCome.here.next (.refl _)⟩

/-! ### Arrays and functions -/

/-- Nothing is said where something is made. -/
theorem ignores_keepsObjects {token : Token} (makes : token.MakesBeside dimensioned) :
    (keepsObjects dimensioned).Ignores token := by
  refine fun machine here after => ⟨fun width records nothing => ?_, fun _ => trivial⟩
  exact (nothing.quiet _ .here (here ▸ makes)).elim

/-- An array that is dimensioned is there. -/
theorem keepsObjects_arrayPayload {name : Name} (ordinary : name.isSpecial = false)
    (there : dimensioned name) : (arrayPayload name).Obeys (keepsObjects dimensioned) := by
  intro machine
  have looked := runOn_lookup .array name machine
  cases found : (machine.memory.find .array name).1 with
  | some payload =>
    rw [found] at looked
    exact .of_run (Attempt.runOn_bind_ok looked _) (keepsObjects_foundIn _ _ _) (.pure _)
  | none =>
    -- Then the dimensioned arrays are not those of the machine, of which nothing is said.
    have absurdly (width : AddressWidth) (records : List (HeapRecord width)) :
        ¬ machine.MakesNothing dimensioned records := by
      intro nothing
      obtain ⟨record, among, is⟩ := nothing.arrays name ordinary there
      exact nothing.held.find_eq_none_iff.mp found record among is
    rcases ran : (arrayPayload name).runOn machine with ⟨failure | payload, after⟩
    · exact Attempt.obeysFrom_of_error ran trivial
    · exact Attempt.obeysFrom_of_ok ran fun width records nothing =>
        (absurdly width records nothing).elim

/-- The expression of a function is where an object says. -/
theorem defines_of_definition (nothing : machine.MakesNothing dimensioned records) {name : Name}
    {entry : Nat} {parameter : Name}
    (ran : (Evaluator.definition name).runOn machine = (.ok (entry, parameter), after)) :
    HeapRecord.Defines records entry := by
  rw [Evaluator.definition, Attempt.runOn_bind_ok (runOn_lookup _ _ _)] at ran
  cases found : (machine.memory.find .function name).1 with
  | none =>
    rw [found] at ran
    cases ran
  | some payload =>
    rw [found, Attempt.runOn_bind_ok (Attempt.runOn_orFail_some _ _ _)] at ran
    obtain ⟨address, middle, read, ran⟩ := Attempt.exists_of_runOn_bind ran
    obtain ⟨newer, record, older, cut, ⟨function, rfl⟩, -⟩ :=
      HeapRecord.exists_of_locate? ((nothing.held.find_eq _ _).symm.trans found)
    have among : record ∈ records := by simp [cut]
    have short := nothing.functions record among function
    rw [← function] at found read
    have held := holdsObjects_foundIn nothing.held record.kind record.name
    have again := (find_foundIn nothing.held record.kind record.name _ _).trans found
    have piece := held.read?_piece among again
      (show 0 + width.byteCount ≤ record.payload.length by omega)
    rw [addressAt, Attempt.runOn_get_bind, Memory.addressAt?, held.width,
      ← Nat.add_zero payload.start, piece] at read
    cases read
    obtain ⟨_, _, -, ran⟩ := Attempt.exists_of_runOn_bind ran
    obtain ⟨_, _, -, ran⟩ := Attempt.exists_of_runOn_bind ran
    obtain ⟨_, _, -, ran⟩ := Attempt.exists_of_runOn_bind ran
    cases ran
    exact ⟨record, among, function, rfl⟩

/-! ### Calls -/

/-- Both steps of a recovery that succeeds. -/
theorem recover_ok {first last : Action Unit} {value : Unit}
    (ran : (Evaluator.Obeys.recover first last).runOn machine = (.ok value, after)) :
    ∃ middle, first.runOn machine = (.ok (), middle) ∧ last.runOn middle = (.ok (), after) := by
  obtain ⟨began, middle, caught, ran⟩ := Attempt.exists_of_runOn_bind ran
  obtain ⟨ended, left, again, ran⟩ := Attempt.exists_of_runOn_bind ran
  rw [Attempt.caught, Attempt.runOn_ofRun] at caught again
  rcases one : first.runOn machine with ⟨(_ | _ | _ | _) | ⟨⟩, _⟩ <;> rw [one] at caught <;>
    cases caught
  · cases ran
  rcases two : last.runOn middle with ⟨(_ | _ | _ | _) | ⟨⟩, _⟩ <;> rw [two] at again <;>
    cases again <;> cases ran
  exact ⟨middle, rfl, two⟩

/-- **A call of a function leaves the objects as they were**, if its expression does. -/
theorem makesNothing_call {deeper : Evaluator} (obeys : deeper.Obeys (keepsObjects dimensioned))
    (nothing : machine.MakesNothing dimensioned records) {entry : Nat}
    (defined : HeapRecord.Defines records entry) {parameter : Name} {argument : Option Single}
    {value : Unit} (ran : (Evaluator.Obeys.call deeper entry parameter argument).runOn machine =
      (.ok value, after)) :
    machine.KeepsTexts after ∧ after.MakesNothing dimensioned records := by
  obtain ⟨back, _, looked, ran⟩ := Attempt.exists_of_runOn_bind ran
  cases looked
  obtain ⟨bound, began, binds, ran⟩ := Attempt.exists_of_runOn_bind ran
  obtain ⟨_, _, went, ran⟩ := Attempt.exists_of_runOn_bind ran
  cases went
  obtain ⟨_, left, recovered, ran⟩ := Attempt.exists_of_runOn_bind ran
  cases ran
  obtain ⟨ended, body, unbinds⟩ := recover_ok recovered
  -- The parameter gets its value where the machine is.
  obtain ⟨program, shadowed, shadows, held⟩ :=
    binds_parameter nothing.held nothing.guarded.below binds
  obtain ⟨guarded, first, here⟩ := ((Evaluator.Obeys.bindParameter parameter argument :
    Attempt.Obeys Conduct.stays _) machine).moves binds nothing.guarded
  -- The expression is one of those that may be come to.
  have inside : (jump (bodyPlace machine entry) began).MakesNothing dimensioned shadowed := by
    rw [jump_eq, here, first.programText, first.width]
    exact nothing.kept first.programText first.width (fun _ => shadows.mem_iff) held guarded
      (Cursor.MayCome.here.goes defined) (.refl _)
  obtain ⟨second, nothingLeft⟩ := (obeys.functionBody _).moves body _ _ inside
  -- What was made for the parameter is dropped again, and nothing else was made.
  obtain ⟨-, newer, among, back⟩ := unbinds_parameter shadows
    (show ended.memory.HoldsObjects ([] ++ shadowed) from nothingLeft.held)
    (by simp) nothingLeft.guarded.below unbinds
  obtain rfl := List.subset_nil.mp among
  obtain ⟨guarded, third, there⟩ := ((Evaluator.Obeys.unbindParameter bound :
    Attempt.Obeys Conduct.stays _) ended).moves unbinds nothingLeft.guarded
  -- The machine comes back to where it was.
  have keeps := first.excursion (second.trans third)
  refine ⟨keeps, nothing.kept keeps.programText keeps.width (fun _ _ => Iff.rfl) ?_ ?_
    Cursor.MayCome.here.back keeps.readsAlike_jump⟩
  · rwa [memory_jump]
  · rwa [memory_jump]

instance calls_keepsObjects : (keepsObjects dimensioned).Calls where
  reads := reads_keepsObjects
  allocateBuffer heeded := (heeded (ignores_keepsObjects trivial)).elim
  loadElement name row column ordinary heeded := by
    have there : dimensioned name := by
      by_contra absent
      exact heeded (ignores_keepsObjects ⟨ordinary, absent⟩)
    have payload := keepsObjects_arrayPayload ordinary there
    exact (mayFail_keepsObjects.elementAddress_of_payload row column payload).bind
      fun _ => mayFail_keepsObjects.numberAt _
  userFunction _ _ obeys := by
    refine obeys.userFunction_of_defined fun name argument machine => ?_
    rcases ran : (Evaluator.Obeys.callDefined _ name argument).runOn machine with
      ⟨failure | value, after⟩
    · exact Attempt.obeysFrom_of_error ran trivial
    refine Attempt.obeysFrom_of_ok ran fun width records nothing => ?_
    obtain ⟨⟨entry, parameter⟩, found, looked, ran⟩ := Attempt.exists_of_runOn_bind ran
    obtain ⟨_, checked, check, ran⟩ := Attempt.exists_of_runOn_bind ran
    have defined := defines_of_definition nothing looked
    obtain ⟨keeps, nothing⟩ :=
      (mayFail_keepsObjects.definition keepsObjects_lookup name machine).moves looked _ _ nothing
    obtain ⟨again, nothing⟩ := ((obeys_checkDepth (by decide) :
        (checkDepth "FN").Obeys (keepsObjects dimensioned)) found).moves check _ _ nothing
    obtain ⟨further, nothing⟩ := makesNothing_call obeys nothing defined ran
    exact ⟨(keeps.trans again).trans further, nothing⟩

/-! ### Expressions -/

/-- Whether an evaluation comes to no token that makes an object: to no `MALLOC` and to no array
that is not dimensioned, neither in the text from the cursor on nor in the functions that are
defined. -/
def IsQuiet (machine : Machine) : Prop :=
  ∀ (width : AddressWidth) (records : List (HeapRecord width)),
    machine.memory.HoldsObjects records → ∀ cursor,
      machine.cursor.MayCome machine.programText machine.memory.width (HeapRecord.Defines records)
        cursor → ¬ cursor.token.MakesBeside fun name => (machine.memory.scan? .array name).isSome

/-- No token that makes an object is come to where none can be read, at whatever place. -/
theorem isQuiet_of_texts
    (here : ¬ machine.cursor.token.MakesBeside fun name =>
      (machine.memory.scan? .array name).isSome)
    (typed : ∀ line : TypedLine, line.text = machine.cursor.line.text →
      line.fractions = machine.cursor.line.fractions →
        ¬ line.next.1.MakesBeside fun name => (machine.memory.scan? .array name).isSome)
    (stored : ∀ mode ≠ .interactive, ∀ offset,
      ¬ ((machine.programText mode).decode machine.memory.width offset).1.MakesBeside
        fun name => (machine.memory.scan? .array name).isSome) : machine.IsQuiet := by
  intro width records _ cursor comes
  have reads {cursor : Cursor} (text : cursor.line.text = machine.cursor.line.text)
      (fractions : cursor.line.fractions = machine.cursor.line.fractions) :
      ¬ (cursor.next machine.programText machine.memory.width).token.MakesBeside fun name =>
        (machine.memory.scan? .array name).isSome := by
    unfold Cursor.next
    split
    · exact typed _ text fractions
    · exact stored _ ‹_› _
  cases comes with
  | here => exact here
  | next comes => exact reads comes.line.1 comes.line.2
  | goes _ comes | back comes =>
    exact reads ((Cursor.line_movedTo _ _).1.trans comes.line.1)
      ((Cursor.line_movedTo _ _).2.trans comes.line.2)

theorem Keeps.makesNothing {records : List (HeapRecord (AddressWidth.forSize config.memorySize))}
    (keeps : machine.Keeps config records) (quiet : machine.IsQuiet) :
    machine.MakesNothing (fun name => (machine.memory.scan? .array name).isSome) records where
  held := keeps.held
  guarded := keeps.held.isGuarded keeps.below
  arrays name _ there := by
    obtain ⟨payload, found⟩ := Option.isSome_iff_exists.mp there
    obtain ⟨record, among, is, -⟩ := keeps.exists_found found
    exact ⟨record, among, is⟩
  functions record among := (keeps.wellFormed record among).function
  quiet := quiet _ records keeps.held

/-- **Expressions make nothing** unless they come to a token that makes an object. In every run
without `POKE`, an evaluation that succeeds leaves the start of the heap and the number of objects
as they were, with the bytes of the objects. -/
theorem expressions_make_nothing [config.IsSound] {host : Host}
    (underway : Underway config host machine) (quiet : machine.IsQuiet) {step : Action α}
    (reads : ReadsExpression step) {value : α} (ran : step.runOn machine = (.ok value, after)) :
    after.memory.himem = machine.memory.himem ∧ after.memory.objects = machine.memory.objects ∧
      after.memory.contents.drop after.memory.himem =
        machine.memory.contents.drop machine.memory.himem := by
  obtain ⟨records, keeps⟩ := underway.isIntact.exists_keeps
  have obeys : step.Obeys (keepsObjects fun name => (machine.memory.scan? .array name).isSome) :=
    reads.obeys
  obtain ⟨texts, left⟩ := (obeys machine).moves ran _ _ (keeps.makesNothing quiet)
  have before := keeps.held.size_eq
  have behind := left.held.size_eq
  have size := texts.memory.size
  exact ⟨by omega, left.held.objects.trans keeps.held.objects.symm,
    left.held.heap.trans keeps.held.heap.symm⟩

end Machine

end PocketBasic
