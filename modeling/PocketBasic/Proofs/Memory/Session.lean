/-
**Memory as its users see it**: two lists that any order of calls keeps apart. Program lines are a
table, objects are a list with the newest in front, and every answer is told from these alone.

* `Call`: storing and deleting lines, clearing the program, and the calls of the heap;
* `Session`: a memory beside the table and the list that it should hold; `Session.run`: any calls
  on a fresh memory;
* `Session.HoldsHeap`, `Session.HoldsTable`: the memory agrees with the list, and with the table;
* **`Session.lines_follow_table`**: the line editor is a table of lines in the order of their
  numbers;
* **`Session.heap_follows_list`**: the heap is a list of objects.
-/

import Mathlib.Data.List.Basic
import Mathlib.Data.List.Induction
import Mathlib.Tactic.Common
import PocketBasic.Proofs.Memory.HeapCalls
import PocketBasic.Proofs.Memory.LineTable
import PocketBasic.Proofs.Token.Typed

namespace PocketBasic

/-! ### Calls of the heap -/

/-- The calls that work on objects. -/
inductive HeapCall where
  | allocate (kind : ObjectKind) (name : Name) (size : Nat)
  | find (kind : ObjectKind) (name : Name)
  | length (kind : ObjectKind) (name : Name)
  | delete (kind : ObjectKind) (name : Name)
  | clear
  /-- Writing bytes that lie in the payload of an object. -/
  | write (kind : ObjectKind) (name : Name) (offset : Nat) (data : Bytes)

namespace HeapCall

variable {width : AddressWidth}

/-- A call on a memory. -/
def run : HeapCall → Attempt Memory (Option Nat)
  | allocate kind name size => do return some (← Memory.allocate kind name size)
  | find kind name => do return (← Memory.lookup kind name).map (·.start)
  | length kind name => do return (← Memory.lookup kind name).map (·.length)
  | delete kind name => Memory.delete kind name
  | clear => do
    Memory.clearHeap
    return none
  | write kind name offset data => do
    Memory.writePayload kind name offset data
    return none

/-- What a call answers, told from a list of objects in a memory of `size` bytes of which `room` are
free. -/
def answer (size room : Nat) (records : List (HeapRecord width)) :
    HeapCall → Except ErrorKind (Option Nat)
  | allocate kind name count =>
    (HeapRecord.push room kind name count records).map fun others =>
      (HeapRecord.locate? size kind name others).map (·.start)
  | find kind name => .ok ((HeapRecord.locate? size kind name records).map (·.start))
  | length kind name => .ok ((HeapRecord.locate? size kind name records).map (·.length))
  | delete kind name =>
    .ok ((HeapRecord.dropThrough? kind name records).map fun older =>
      size - (HeapRecord.image older).length)
  | clear | write .. => .ok none

/-- The list of objects after a call, or `none` if the call changes nothing. -/
def changed? (room : Nat) (records : List (HeapRecord width)) :
    HeapCall → Option (List (HeapRecord width))
  | allocate kind name count => (HeapRecord.push room kind name count records).toOption
  | find .. | length .. => none
  | delete kind name => HeapRecord.dropThrough? kind name records
  | clear => some []
  | write kind name offset data => some (HeapRecord.overwrite kind name offset data records)

theorem exists_of_push {room count : Nat} {kind : ObjectKind} {name : Name}
    {records others : List (HeapRecord width)}
    (pushed : HeapRecord.push room kind name count records = .ok others) :
    ∃ record : HeapRecord width, others = record :: records ∧ record.Is kind name ∧
      (kind.payloadLength? count width = some record.payload.length ∧
        record.payload = List.replicate record.payload.length 0) ∧
      ∀ other ∈ records, ¬ other.Is kind name := by
  rw [HeapRecord.push] at pushed
  split at pushed
  · cases pushed
  · rename_i absent
    split at pushed
    · cases pushed
    · rename_i record made
      split at pushed
      · cases pushed
      · cases pushed
        obtain ⟨is, made⟩ := HeapRecord.zeroed?_eq_some made
        exact ⟨record, rfl, is, made, fun other among same => absent ⟨other, among, same⟩⟩

/-- **Every call answers what the list says** and changes the list as it should. The program stays,
and a call that changes nothing in the list changes at most what is remembered. -/
theorem run_eq {memory : Memory} {records : List (HeapRecord width)}
    (held : memory.HoldsObjects records) (tops : memory.top ≤ memory.himem) (call : HeapCall) :
    ∃ edited, call.run.runOn memory =
        ((call.answer memory.size memory.free records).mapError
          fun kind => .reported { kind }, edited) ∧
      edited.HoldsObjects ((call.changed? memory.free records).getD records) ∧
      memory.KeepsProgram edited ∧
      (call.changed? memory.free records = none → ∃ recent, edited = { memory with recent }) := by
  have lookup (kind : ObjectKind) (name : Name) : (Memory.lookup kind name).runOn memory =
      (.ok (HeapRecord.locate? memory.size kind name records), (memory.find kind name).2) := by
    rw [Memory.lookup, Attempt.runOn_always, held.find_eq]
  cases call with
  | allocate kind name count =>
    have allocated := held.allocate tops kind name count
    rw [run, answer, changed?]
    cases pushed : HeapRecord.push memory.free kind name count records with
    | error error =>
      rw [pushed] at allocated
      obtain ⟨recent, ran, kept⟩ := allocated
      exact ⟨_, Attempt.runOn_bind_error ran _, kept, Memory.keepsProgram_of_recent tops recent,
        fun _ => ⟨recent, rfl⟩⟩
    | ok others =>
      rw [pushed] at allocated
      obtain ⟨edited, ran, kept, program⟩ := allocated
      obtain ⟨record, rfl, is, -⟩ := exists_of_push pushed
      have total := kept.size_eq
      rw [HeapRecord.image_cons, List.length_append, HeapRecord.length_bytes, is.1,
        program.size] at total
      have start : edited.himem + kind.headerLength width =
          memory.size - (HeapRecord.image records).length - record.payload.length := by omega
      refine ⟨edited, ?_, kept, program, fun none => by cases none⟩
      rw [Attempt.runOn_bind_ok ran, Attempt.runOn_pure, start]
      simp only [Except.map, Except.mapError, HeapRecord.locate?, if_pos is, Option.map_some]
  | find kind name =>
    obtain ⟨recent, same⟩ := Memory.HoldsObjects.find_snd memory kind name
    refine ⟨_, Attempt.runOn_bind_ok (lookup kind name) _, held.find kind name, ?_,
      fun _ => ⟨recent, same⟩⟩
    exact same ▸ Memory.keepsProgram_of_recent tops recent
  | length kind name =>
    obtain ⟨recent, same⟩ := Memory.HoldsObjects.find_snd memory kind name
    refine ⟨_, Attempt.runOn_bind_ok (lookup kind name) _, held.find kind name, ?_,
      fun _ => ⟨recent, same⟩⟩
    exact same ▸ Memory.keepsProgram_of_recent tops recent
  | delete kind name =>
    have deleted := held.delete tops kind name
    rw [run, answer, changed?]
    cases dropped : HeapRecord.dropThrough? kind name records with
    | none =>
      rw [dropped] at deleted
      exact ⟨memory, deleted, held, ⟨rfl, rfl, rfl, tops⟩, fun _ => ⟨memory.recent, rfl⟩⟩
    | some older =>
      rw [dropped] at deleted
      obtain ⟨edited, ran, kept, program⟩ := deleted
      exact ⟨edited, ran, kept, program, fun none => by cases none⟩
  | clear =>
    obtain ⟨edited, ran, kept, program⟩ := held.clearHeap tops
    exact ⟨edited, Attempt.runOn_bind_ok ran _, kept, program, fun none => by cases none⟩
  | write kind name offset data =>
    obtain ⟨edited, ran, kept, program⟩ := held.writePayload tops kind name offset data
    exact ⟨edited, Attempt.runOn_bind_ok ran _, kept, program, fun none => by cases none⟩

end HeapCall

/-- The calls on a memory. Storing a line without tokens deletes it. -/
inductive Call where
  | storeLine (line : LineNumber) (body : List Token)
  | clearProgram
  | heap (call : HeapCall)

/-- Whether all tokens that a call stores could have been typed. -/
def Call.IsTyped : Call → Prop
  | storeLine _ body => ∀ token ∈ body, token.IsTyped
  | clearProgram | heap _ => True

/-! ### Sessions -/

/-- A memory beside what it should hold: a table of lines and a list of objects. -/
structure Session (size : Nat) where
  memory : Memory
  lines : LineTable
  objects : List (HeapRecord (AddressWidth.forSize size))

namespace Session

variable {size : Nat}

/-- A fresh memory holds nothing. -/
def fresh (size : Nat) : Session size :=
  { memory := Memory.ofSize size, lines := fun _ => none, objects := [] }

/-- A call on the memory, with what it does to the table and the list. A line is stored, replaced or
deleted if the call succeeds. -/
def step (session : Session size) : Call → Session size
  | .storeLine line body =>
    match (Memory.storeLine line body).runOn session.memory with
    | (.ok _, memory) =>
      { session with
        memory
        lines := Function.update session.lines line (if body = [] then none else some body) }
    | (.error _, memory) => { session with memory }
  | .clearProgram =>
    { session with
      memory := (Memory.clearProgram.runOn session.memory).2
      lines := fun _ => none }
  | .heap call =>
    { session with
      memory := (call.run.runOn session.memory).2
      objects := (call.changed? session.memory.free session.objects).getD session.objects }

/-- A fresh memory after calls. -/
def run (size : Nat) (calls : List Call) : Session size := calls.foldl step (fresh size)

theorem run_append (calls : List Call) (call : Call) :
    run size (calls ++ [call]) = (run size calls).step call := by
  rw [run, List.foldl_append]
  rfl

/-! ### What calls keep -/

/-- The heap of the memory is the list of objects, and the program ends below it. -/
structure HoldsHeap (session : Session size) : Prop where
  size : session.memory.size = size
  below : session.memory.top ≤ session.memory.himem
  objects : session.memory.HoldsObjects session.objects

/-- The program of the memory is the table of lines. -/
def HoldsTable (session : Session size) : Prop :=
  ∃ records : List (LineRecord (AddressWidth.forSize size)),
    session.memory.HoldsLines records ∧ session.lines = LineRecord.table records

theorem size_ofSize (size : Nat) : (Memory.ofSize size).size = size := by
  simp [Memory.ofSize, Memory.size]

theorem holdsHeap_fresh : (fresh size).HoldsHeap where
  size := size_ofSize size
  below := Nat.zero_le _
  objects :=
    { width := congrArg AddressWidth.forSize (size_ofSize size)
      inside := Nat.le_of_eq (size_ofSize size).symm
      heap := List.drop_of_length_le
        (by rw [Memory.length_contents]; exact Nat.le_of_eq (size_ofSize size))
      objects := rfl
      distinct := .nil
      recent := fun _ _ _ none => nomatch none }

theorem holdsTable_fresh : (fresh size).HoldsTable :=
  ⟨[], { width := congrArg AddressWidth.forSize (size_ofSize size)
         sorted := .nil
         top := rfl
         program := List.nil_prefix }, rfl⟩

/-- **Every call keeps the heap and the list together.** -/
theorem HoldsHeap.step {session : Session size} (held : session.HoldsHeap) (call : Call) :
    (session.step call).HoldsHeap := by
  obtain ⟨same, below, objects⟩ := held
  have edited (memory : Memory) (kept : session.memory.KeepsHeap memory) (lines : LineTable) :
      HoldsHeap { session with memory, lines } :=
    ⟨kept.size.trans same, kept.below, objects.of_keepsHeap kept⟩
  cases call with
  | storeLine line body =>
    rcases Memory.storeLine_keepsHeap below objects.inside line body with
      ⟨error, ran | ran⟩ | ⟨memory, ran, kept⟩
    · rw [Session.step, ran]
      exact ⟨same, below, objects⟩
    · rw [Session.step, ran]
      exact edited session.memory.withoutCache ⟨rfl, rfl, rfl, rfl, rfl, below⟩
        session.lines
    · rw [Session.step, ran]
      exact edited _ kept _
  | clearProgram =>
    exact edited _ (Memory.clearProgram_keepsHeap below objects.inside) _
  | heap call =>
    obtain ⟨memory, ran, kept, program, -⟩ := HeapCall.run_eq objects below call
    rw [Session.step, ran]
    exact ⟨program.size.trans same, program.below, kept⟩

/-- **Every call keeps the program and the table together**, if what it stores was typed. -/
theorem HoldsTable.step {session : Session size} (table : session.HoldsTable)
    (held : session.HoldsHeap) {call : Call} (typed : call.IsTyped) :
    (session.step call).HoldsTable := by
  obtain ⟨same, below, objects⟩ := held
  obtain ⟨records, lines, known⟩ := table
  cases call with
  | storeLine line body =>
    rcases ran : (Memory.storeLine line body).runOn session.memory with ⟨⟨⟩ | ⟨⟩, memory⟩
    · rcases Memory.storeLine_keepsHeap below objects.inside line body with
        ⟨error, refused | refused⟩ | ⟨memory, stored, -⟩
      · rw [Session.step, refused]
        exact ⟨records, lines, known⟩
      · rw [Session.step, refused]
        exact ⟨records, lines.of_same rfl rfl rfl, known⟩
      · rw [stored] at ran
        cases ran
    · obtain ⟨others, kept, changed⟩ := lines.storeLine below objects.inside
        (fun token member => (typed token member).isStorable) ran
      rw [Session.step, ran]
      exact ⟨others, kept, by rw [changed, known]⟩
  | clearProgram =>
    exact ⟨[], lines.clearProgram (Nat.le_trans below objects.inside), rfl⟩
  | heap call =>
    obtain ⟨memory, ran, -, program, -⟩ := HeapCall.run_eq objects below call
    rw [Session.step, ran]
    exact ⟨records, lines.of_same program.size program.top program.program, known⟩

theorem holdsHeap_run (size : Nat) (calls : List Call) : (run size calls).HoldsHeap := by
  induction calls using List.reverseRecOn with
  | nil => exact holdsHeap_fresh
  | append_singleton calls call ih =>
    rw [run_append]
    exact ih.step call

theorem holdsTable_run {calls : List Call} (typed : ∀ call ∈ calls, call.IsTyped) :
    (run size calls).HoldsTable := by
  induction calls using List.reverseRecOn with
  | nil => exact holdsTable_fresh
  | append_singleton calls call ih =>
    rw [run_append]
    exact (ih fun call member => typed call (List.mem_append_left _ member)).step
      (holdsHeap_run size calls) (typed call (List.mem_append_right _ List.mem_cons_self))

/-- An object that is made stands in front of the list, and its name is new. -/
theorem objects_allocate (session : Session size) (kind : ObjectKind) (name : Name) (count : Nat) :
    ∃ added, (session.step (.heap (.allocate kind name count))).objects =
        added ++ session.objects ∧
      ∀ record ∈ added, ∀ other ∈ session.objects, ¬ other.Is record.kind record.name := by
  rw [step, HeapCall.changed?]
  cases pushed : HeapRecord.push session.memory.free kind name count session.objects with
  | error error => exact ⟨[], rfl, by simp⟩
  | ok others =>
    obtain ⟨record, rfl, is, -, new⟩ := HeapCall.exists_of_push pushed
    refine ⟨[record], rfl, ?_⟩
    rw [List.forall_mem_singleton, is.1, is.2]
    exact new

/-- Objects that are put in front leave the bytes of the others where they are. -/
theorem HoldsHeap.drop_of_grown {session later : Session size} (held : session.HoldsHeap)
    (heldLater : later.HoldsHeap) {added : List (HeapRecord (AddressWidth.forSize size))}
    (grown : later.objects = added ++ session.objects) :
    later.memory.contents.drop session.memory.himem = HeapRecord.image session.objects := by
  have before := held.objects.size_eq
  have after := heldLater.objects.size_eq
  rw [held.size] at before
  rw [heldLater.size, grown, HeapRecord.image_append, List.length_append] at after
  have start : session.memory.himem =
      later.memory.himem + (HeapRecord.image added).length := by omega
  rw [start, ← List.drop_drop, heldLater.objects.heap, grown, HeapRecord.image_append,
    List.drop_left]

/-! ### The line editor -/

/-- **The line editor is a sorted table.** After any calls the program is the records of the table's
lines in the order of their numbers, its lines are these one behind the other, the tokens of a line
are those of the table, and storing can fail but never goes astray. -/
theorem lines_follow_table (size : Nat) (calls : List Call)
    (typed : ∀ call ∈ calls, call.IsTyped) :
    ∃ records : List (LineRecord (AddressWidth.forSize size)),
      LineRecord.Ascending records ∧
      (∀ line body, (run size calls).lines line = some body ↔
        ∃ record ∈ records, record.number = line ∧ record.body = body) ∧
      (run size calls).memory.program = ProgramText.ofBytes (LineRecord.image records) ∧
      (run size calls).memory.lines.map (·.number) = records.map (·.number) ∧
      LineSpan.Tile 0 (run size calls).memory.top (run size calls).memory.lines ∧
      (∀ line, (run size calls).memory.lineTokens? line = (run size calls).lines line) ∧
      ∀ line body failure,
        ((Memory.storeLine line body).runOn (run size calls).memory).1 = .error failure →
          ∃ error, failure = .reported error := by
  obtain ⟨records, lines, known⟩ := @holdsTable_run size _ typed
  obtain ⟨-, below, objects⟩ := holdsHeap_run size calls
  refine ⟨records, lines.sorted, fun line body => ?_, lines.program_eq, ?_, ?_, fun line => ?_,
    fun line body failure failed => ?_⟩
  · rw [known]
    exact LineRecord.table_eq_some_iff lines.sorted
  · rw [lines.lines_eq, LineRecord.map_number_spansFrom]
  · rw [lines.lines_eq, lines.top]
    have tiled := LineRecord.tile_spansFrom 0 records
    rwa [Nat.zero_add] at tiled
  · rw [lines.lineTokens?_eq, known]
  · rcases Memory.storeLine_keepsHeap below objects.inside line body with
      ⟨error, ran | ran⟩ | ⟨memory, ran, -⟩
    all_goals
      rw [ran] at failed
      cases failed
    · exact ⟨error, rfl⟩
    · exact ⟨error, rfl⟩

/-- Two lines that are typed in the wrong order, with an object made in between. -/
theorem lines_follow_table_unordered :
    (∀ call ∈ [Call.storeLine 20 [.word .print],
        .heap (.allocate .scalar ⟨65, 0⟩ 0), .storeLine 10 [.word .end]], call.IsTyped) ∧
    ∃ records : List (LineRecord (AddressWidth.forSize 64)),
      LineRecord.Ascending records ∧
      (run 64 [.storeLine 20 [.word .print], .heap (.allocate .scalar ⟨65, 0⟩ 0),
        .storeLine 10 [.word .end]]).memory.program =
          ProgramText.ofBytes (LineRecord.image records) := by
  have print : (Token.word .print).IsTyped :=
    ⟨by decide, { text := ascii "PRINT", fractions := false }, by decide +kernel⟩
  have stop : (Token.word .end).IsTyped :=
    ⟨by decide, { text := ascii "END", fractions := false }, by decide +kernel⟩
  have typed : ∀ call ∈ [Call.storeLine 20 [.word .print],
      .heap (.allocate .scalar ⟨65, 0⟩ 0), .storeLine 10 [.word .end]], call.IsTyped := by
    simp [Call.IsTyped, print, stop]
  obtain ⟨records, ascending, -, program, -⟩ := lines_follow_table 64 _ typed
  exact ⟨typed, records, ascending, program⟩

/-! ### The heap -/

/-- **The heap is a stack of objects with names.** After any calls the bytes from the start of the
heap to the end of memory are the objects of the list, the newest first, and the counter counts
them. Every call answers what the list says, whatever is remembered; one that the list refuses
changes no byte, no bound and no count; and a new object leaves all others with their bytes at their
addresses. -/
theorem heap_follows_list (size : Nat) (calls : List Call) :
    (run size calls).memory.size = size ∧
    (run size calls).memory.top ≤ (run size calls).memory.himem ∧
    (run size calls).memory.contents.drop (run size calls).memory.himem =
      HeapRecord.image (run size calls).objects ∧
    (run size calls).memory.objects = (run size calls).objects.length ∧
    (run size calls).objects.Pairwise (fun newer older => ¬ older.Is newer.kind newer.name) ∧
    (∀ call : HeapCall, (call.run.runOn (run size calls).memory).1 =
      (call.answer size (run size calls).memory.free (run size calls).objects).mapError
        fun kind => .reported { kind }) ∧
    (∀ call : HeapCall,
      call.changed? (run size calls).memory.free (run size calls).objects = none →
        ∃ recent, (call.run.runOn (run size calls).memory).2 =
          { (run size calls).memory with recent }) ∧
    ∀ kind name count,
      (run size (calls ++ [.heap (.allocate kind name count)])).memory.contents.drop
          (run size calls).memory.himem =
        (run size calls).memory.contents.drop (run size calls).memory.himem ∧
      ∀ other called payload,
        HeapRecord.locate? size other called (run size calls).objects = some payload →
          HeapRecord.locate? size other called
            (run size (calls ++ [.heap (.allocate kind name count)])).objects = some payload := by
  obtain ⟨same, below, objects⟩ := holdsHeap_run size calls
  refine ⟨same, below, objects.heap, objects.objects, objects.distinct, fun call => ?_,
    fun call refused => ?_, fun kind name count => ?_⟩
  · obtain ⟨memory, ran, -⟩ := HeapCall.run_eq objects below call
    rw [ran, same]
  · obtain ⟨memory, ran, -, -, still⟩ := HeapCall.run_eq objects below call
    rw [ran]
    exact still refused
  · obtain ⟨added, grown, new⟩ := objects_allocate (run size calls) kind name count
    rw [← run_append] at grown
    refine ⟨?_, fun other called payload found => ?_⟩
    · rw [(holdsHeap_run size calls).drop_of_grown (holdsHeap_run size _) grown, objects.heap]
    · rw [grown]
      exact HeapRecord.locate?_append_of_new new found

end Session

end PocketBasic
