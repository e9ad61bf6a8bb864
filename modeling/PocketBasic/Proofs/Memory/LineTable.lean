/-
**The line editor as a table.** The program is held as records in the order of their numbers, and
what is known of it from outside is a table of lines: which numbers there are, and with what tokens.

* `LineTable`: the tokens of every line that there is;
* `Memory.HoldsLines`: the program of a memory is made of given records;
* `Memory.HoldsLines.lines_eq`, `Memory.HoldsLines.lineTokens?_eq`: what is read from such a memory;
* **`Memory.HoldsLines.storeLine`**: storing a line changes the table at its number and nowhere
  else.
-/

import Mathlib.Data.List.Basic
import Mathlib.Data.List.GetD
import Mathlib.Logic.Function.Basic
import Mathlib.Tactic.Common
import PocketBasic.Proofs.Memory.Editing
import PocketBasic.Proofs.Program.Records

namespace PocketBasic

/-- The tokens of every line that there is. -/
abbrev LineTable := LineNumber → Option (List Token)

namespace LineRecord

variable {width : AddressWidth}

/-- The lines of records as a table. -/
def table (records : List (LineRecord width)) : LineTable := fun line =>
  (records.find? fun record => record.number = line).map (·.body)

/-- Records in the order of their numbers. -/
def Ascending (records : List (LineRecord width)) : Prop :=
  records.Pairwise fun first second => first.number < second.number

/-- Records cut at a number: those below it, at most one with it, and those above it. -/
structure SplitAt (records lower same higher : List (LineRecord width)) (line : LineNumber) :
    Prop where
  cut : records = lower ++ same ++ higher
  below : ∀ record ∈ lower, record.number < line
  equal : ∀ record ∈ same, record.number = line
  above : ∀ record ∈ higher, line < record.number
  one : same.length ≤ 1

/-- **Records in order can be cut at every number.** -/
theorem exists_splitAt {records : List (LineRecord width)} (sorted : Ascending records)
    (line : LineNumber) : ∃ lower same higher, SplitAt records lower same higher line := by
  induction records with
  | nil => exact ⟨[], [], [], rfl, by simp, by simp, by simp, by simp⟩
  | cons record rest ih =>
    obtain ⟨smaller, sortedRest⟩ := List.pairwise_cons.mp sorted
    by_cases equal : record.number = line
    · refine ⟨[], [record], rest, rfl, by simp, by simpa using equal, ?_, by simp⟩
      exact equal ▸ smaller
    rcases UInt16.lt_or_lt_of_ne equal with less | more
    · obtain ⟨lower, same, higher, cut, below, equal, above, one⟩ := ih sortedRest
      refine ⟨record :: lower, same, higher, by rw [cut]; rfl, ?_, equal, above, one⟩
      exact List.forall_mem_cons.mpr ⟨less, below⟩
    · refine ⟨[], [], record :: rest, rfl, by simp, by simp, ?_, by simp⟩
      exact List.forall_mem_cons.mpr
        ⟨more, fun other member => UInt16.lt_trans more (smaller other member)⟩

namespace SplitAt

variable {records lower same higher : List (LineRecord width)} {line : LineNumber}

/-- Other records with the same number may take the place of the old one. -/
theorem replace (split : SplitAt records lower same higher line) (sorted : Ascending records)
    {others : List (LineRecord width)} (equal : ∀ record ∈ others, record.number = line)
    (one : others.length ≤ 1) : Ascending (lower ++ others ++ higher) := by
  rw [split.cut] at sorted
  have parts := List.pairwise_append.mp sorted
  have fronts := List.pairwise_append.mp parts.1
  refine List.pairwise_append.mpr ⟨List.pairwise_append.mpr ⟨fronts.1, ?_, ?_⟩, parts.2.1, ?_⟩
  · match others, one with
    | [], _ => exact .nil
    | [record], _ => exact List.pairwise_singleton _ record
  · intro first inLower second inOthers
    exact equal second inOthers ▸ split.below first inLower
  · intro first inFront second inHigher
    rcases List.mem_append.mp inFront with inLower | inOthers
    · exact UInt16.lt_trans (split.below first inLower) (split.above second inHigher)
    · exact equal first inOthers ▸ split.above second inHigher

/-- The table of records with others at one number differs there only. -/
theorem table_replace (split : SplitAt records lower same higher line)
    {others : List (LineRecord width)} (equal : ∀ record ∈ others, record.number = line) :
    table (lower ++ others ++ higher) =
      Function.update (table records) line (others.head?.map (·.body)) := by
  funext number
  by_cases here : number = line
  · subst here
    have notLower : lower.find? (fun record => record.number = number) = none :=
      List.find?_eq_none.mpr fun record member => by
        simpa using UInt16.ne_of_lt (split.below record member)
    have notHigher : higher.find? (fun record => record.number = number) = none :=
      List.find?_eq_none.mpr fun record member => by
        simpa using (UInt16.ne_of_lt (split.above record member)).symm
    rw [Function.update_self, table, List.find?_append, List.find?_append, notLower, notHigher,
      Option.none_or, Option.or_none]
    cases others with
    | nil => rfl
    | cons record rest =>
      rw [List.find?_cons_of_pos (by simpa using equal record List.mem_cons_self), List.head?_cons]
  · have elsewhere (records : List (LineRecord width))
        (equal : ∀ record ∈ records, record.number = line) :
        records.find? (fun record => record.number = number) = none :=
      List.find?_eq_none.mpr fun record member => by
        simpa [equal record member] using Ne.symm here
    rw [Function.update_of_ne here, table, table, split.cut]
    simp only [List.find?_append, elsewhere others equal, elsewhere same split.equal]

/-- The place of the record with a number, if there is one. -/
theorem find?_spansFrom (split : SplitAt records lower same higher line) :
    (spansFrom 0 records).find? (fun span => span.number = line) = same.head?.map fun record =>
      { number := record.number, start := (image lower).length,
        stop := (image lower).length + record.bytes.length } := by
  have passed : (spansFrom 0 lower).find? (fun span => span.number = line) = none :=
    List.find?_eq_none.mpr fun span member => by
      obtain ⟨record, among, number⟩ := number_of_mem_spansFrom member
      simpa [number] using UInt16.ne_of_lt (split.below record among)
  rw [split.cut, List.append_assoc, spansFrom_append, List.find?_append, passed, Option.none_or,
    Nat.zero_add]
  match same, split with
  | [], split =>
    refine List.find?_eq_none.mpr fun span member => ?_
    obtain ⟨record, among, number⟩ := number_of_mem_spansFrom member
    simpa [number] using (UInt16.ne_of_lt (split.above record among)).symm
  | record :: rest, split =>
    have equal := split.equal record List.mem_cons_self
    simp [spansFrom, equal]

/-- The records from a number on are those with it and above it. -/
theorem filter_le (split : SplitAt records lower same higher line) :
    records.filter (line ≤ ·.number) = same ++ higher := by
  have none : lower.filter (line ≤ ·.number) = [] :=
    List.filter_eq_nil_iff.mpr fun record member => by
      simpa using split.below record member
  have equal : same.filter (line ≤ ·.number) = same :=
    List.filter_eq_self.mpr fun record member => by
      simp [split.equal record member]
  have all : higher.filter (line ≤ ·.number) = higher :=
    List.filter_eq_self.mpr fun record member => by
      simpa using UInt16.le_of_lt (split.above record member)
  rw [split.cut, List.filter_append, List.filter_append, none, equal, all, List.nil_append]

end SplitAt

/-- **The table of records in order has the lines of all records** and no others. -/
theorem table_eq_some_iff {records : List (LineRecord width)} (sorted : Ascending records)
    {line : LineNumber} {body : List Token} :
    table records line = some body ↔
      ∃ record ∈ records, record.number = line ∧ record.body = body := by
  obtain ⟨lower, same, higher, split⟩ := exists_splitAt sorted line
  have here : table records line = same.head?.map (·.body) := by
    have replaced := split.table_replace split.equal
    rw [← split.cut] at replaced
    rw [congrFun replaced line, Function.update_self]
  have among (record : LineRecord width) (member : record ∈ records)
      (number : record.number = line) : record ∈ same := by
    rw [split.cut, List.mem_append, List.mem_append] at member
    rcases member with (inLower | inSame) | inHigher
    · exact absurd number (UInt16.ne_of_lt (split.below record inLower))
    · exact inSame
    · exact absurd number (UInt16.ne_of_lt (split.above record inHigher)).symm
  rw [here]
  constructor
  · intro found
    obtain ⟨record, first, rfl⟩ := Option.map_eq_some_iff.mp found
    have member := List.mem_of_head? first
    refine ⟨record, ?_, split.equal record member, rfl⟩
    rw [split.cut]
    exact List.mem_append_left _ (List.mem_append_right _ member)
  · rintro ⟨record, member, number, rfl⟩
    have only := among record member number
    match same, split.one, only with
    | [other], _, only =>
      rw [List.mem_singleton.mp only]
      rfl

end LineRecord

namespace Memory

/-! ### Reading -/

/-- The program is the bytes up to its end. -/
theorem program_of_begins {memory : Memory} {image rest : Bytes}
    (cut : memory.contents = image ++ rest) (top : memory.top = image.length) :
    memory.program = ProgramText.ofBytes image := by
  have bytes : (fun offset => if offset < memory.top then memory.bytes.getD offset 0 else 0) =
      fun offset => image.getD offset 0 := by
    funext offset
    rw [getD_bytes, cut, top]
    split_ifs with inside
    · rw [List.getD_append _ _ _ _ inside]
    · rw [List.getD_eq_default _ _ (Nat.not_lt.mp inside)]
  rw [Memory.program, bytes, top]
  rfl

/-- The program of a memory is made of records, in the order of their numbers. -/
structure HoldsLines (memory : Memory) {width : AddressWidth} (records : List (LineRecord width)) :
    Prop where
  width : memory.width = width
  sorted : LineRecord.Ascending records
  top : memory.top = (LineRecord.image records).length
  program : LineRecord.image records <+: memory.contents

namespace HoldsLines

variable {memory : Memory} {width : AddressWidth}
  {records lower same higher : List (LineRecord width)}
  {line : LineNumber}

/-- **The program is the bytes of the records** and nothing else. -/
theorem program_eq (held : HoldsLines memory records) :
    memory.program = ProgramText.ofBytes (LineRecord.image records) := by
  obtain ⟨rest, cut⟩ := held.program
  exact program_of_begins cut.symm held.top

/-- **The lines are those of the records.** -/
theorem lines_eq (held : HoldsLines memory records) :
    memory.lines = LineRecord.spansFrom 0 records := by
  rw [lines, held.program_eq, held.width, ProgramText.lines_ofRecords]

/-- The place of a line, and the place of the record that it replaces. -/
theorem insertionPoint_eq (held : HoldsLines memory records)
    (split : LineRecord.SplitAt records lower same higher line) :
    memory.insertionPoint line = ((LineRecord.image lower).length,
      same.head?.map fun record => (LineRecord.image lower).length + record.bytes.length) := by
  have passed : (LineRecord.spansFrom 0 lower).find? (fun span => line ≤ span.number) = none :=
    List.find?_eq_none.mpr fun span member => by
      obtain ⟨record, among, number⟩ := LineRecord.number_of_mem_spansFrom member
      simpa [number] using split.below record among
  have top := held.top
  rw [split.cut, LineRecord.image_append, LineRecord.image_append] at top
  rw [insertionPoint, held.lines_eq, split.cut, List.append_assoc, LineRecord.spansFrom_append,
    List.find?_append, passed, Option.none_or, Nat.zero_add]
  cases same with
  | nil =>
    cases higher with
    | nil => simp [LineRecord.spansFrom, top]
    | cons record rest =>
      have above := split.above record List.mem_cons_self
      simp [LineRecord.spansFrom, UInt16.le_of_lt above, (UInt16.ne_of_lt above).symm]
  | cons record rest =>
    have equal := split.equal record List.mem_cons_self
    simp [LineRecord.spansFrom, equal]

/-- What stands at the place of a line is the record with its number, or nothing. -/
theorem isOld_of_splitAt (split : LineRecord.SplitAt records lower same higher line) :
    IsOld (LineRecord.image lower) (LineRecord.image same)
      (same.head?.map fun record => (LineRecord.image lower).length + record.bytes.length) := by
  match same, split with
  | [], _ => rfl
  | [record], _ => simp [IsOld]
  | _ :: _ :: _, split => exact absurd split.one (by simp)

/-- The place of the record with a number, if there is one. -/
theorem lineSpan?_eq (held : HoldsLines memory records)
    (split : LineRecord.SplitAt records lower same higher line) :
    memory.lineSpan? line = same.head?.map fun record =>
      { number := record.number, start := (LineRecord.image lower).length,
        stop := (LineRecord.image lower).length + record.bytes.length } := by
  rw [lineSpan?, held.lines_eq]
  exact split.find?_spansFrom

/-- **The tokens of a line are those of the table.** -/
theorem lineTokens?_eq (held : HoldsLines memory records) (line : LineNumber) :
    memory.lineTokens? line = LineRecord.table records line := by
  obtain ⟨lower, same, higher, split⟩ := LineRecord.exists_splitAt held.sorted line
  have table := split.table_replace split.equal
  rw [← split.cut] at table
  rw [lineTokens?, held.lineSpan?_eq split, congrFun table line, Function.update_self,
    Option.map_map]
  cases same with
  | nil => rfl
  | cons record rest =>
    have image : LineRecord.image records = LineRecord.image lower ++ record.bytes ++
        (LineRecord.image rest ++ LineRecord.image higher) := by
      rw [split.cut]
      simp
    have text : memory.program.Holds (LineRecord.image lower).length record.bytes := by
      rw [held.program_eq, image]
      exact ProgramText.holds_ofBytes _ _ _
    refine congrArg some ?_
    rw [held.width]
    exact ProgramText.lineTokens_of_holds record (text.truncate (Nat.le_refl _))

/-! ### Editing -/

/-- What does not touch the program leaves the lines as they are. -/
theorem of_same {others : Memory} (held : HoldsLines memory records)
    (size : others.size = memory.size) (top : others.top = memory.top)
    (program : others.contents.take others.top = memory.contents.take memory.top) :
    HoldsLines others records where
  width := by rw [Memory.width, size, ← Memory.width, held.width]
  sorted := held.sorted
  top := top.trans held.top
  program := by
    have whole : memory.contents.take memory.top = LineRecord.image records := by
      rw [held.top]
      exact List.prefix_iff_eq_take.mp held.program |>.symm
    rw [← whole, ← program]
    exact List.take_prefix _ _

/-- New bytes for the program are lines if they are those of records in order. -/
theorem of_holding {bytes rest : Bytes} {top : Nat} (held : HoldsLines memory records)
    {others : List (LineRecord width)} (sorted : LineRecord.Ascending others)
    (program : bytes = LineRecord.image others ++ rest) (size : bytes.length = memory.size)
    (ends : top = (LineRecord.image others).length) :
    HoldsLines ((memory.withoutCache.holding bytes).endingAt top) others where
  width := by
    rw [Memory.width, size_endingAt, size_holding, size, ← Memory.width, held.width]
  sorted := sorted
  top := ends
  program := ⟨rest, program.symm⟩

/-- The pieces of the program on both sides of a line. -/
theorem contents_eq (held : HoldsLines memory records)
    (split : LineRecord.SplitAt records lower same higher line) :
    ∃ rest, memory.contents = LineRecord.image lower ++ LineRecord.image same ++
        LineRecord.image higher ++ rest ∧
      memory.top = (LineRecord.image lower).length + (LineRecord.image same).length +
        (LineRecord.image higher).length := by
  obtain ⟨rest, cut⟩ := held.program
  refine ⟨rest, ?_, ?_⟩
  · rw [← cut, split.cut, LineRecord.image_append, LineRecord.image_append]
  · rw [held.top, split.cut, LineRecord.image_append, LineRecord.image_append, List.length_append,
      List.length_append]

/-- Deleting a line takes its number out of the table. -/
theorem deleteLine (held : HoldsLines memory records) (tops : memory.top ≤ memory.himem)
    {edited : Memory}
    (ran : (Memory.deleteLine line).runOn memory.withoutCache = (.ok (), edited)) :
    ∃ others : List (LineRecord width), HoldsLines edited others ∧
      LineRecord.table others = Function.update (LineRecord.table records) line none := by
  obtain ⟨lower, same, higher, split⟩ := LineRecord.exists_splitAt held.sorted line
  have found : memory.withoutCache.lineSpan? line = _ := held.lineSpan?_eq split
  match same, split with
  | [], split =>
    rw [runOn_deleteLine_absent found] at ran
    cases ran
  | [record], split =>
    obtain ⟨rest, cut, ends⟩ := held.contents_eq split
    rw [LineRecord.image_cons, LineRecord.image_nil, List.append_nil] at cut ends
    have deleted := @runOn_deleteLine memory.withoutCache _ _ _ _ _ _ found rfl rfl cut ends tops
    rw [deleted] at ran
    cases ran
    refine ⟨lower ++ [] ++ higher, ?_, split.table_replace (by simp)⟩
    refine @of_holding _ _ _ _ (List.replicate record.bytes.length 0 ++ rest) _ held _
      (split.replace held.sorted (by simp) (by simp)) (by simp) ?_ (by simp)
    rw [← length_contents, cut]
    simp only [List.length_append, List.length_replicate]
    omega
  | _ :: _ :: _, split => exact absurd split.one (by simp)

/-- **Storing a line changes the table at its number and nowhere else**, and leaves the records in
order. -/
theorem storeLine (held : HoldsLines memory records) (tops : memory.top ≤ memory.himem)
    (inside : memory.himem ≤ memory.size) {body : List Token}
    (storable : ∀ token ∈ body, token.IsStorable) {edited : Memory}
    (ran : (Memory.storeLine line body).runOn memory = (.ok (), edited)) :
    ∃ others : List (LineRecord width), HoldsLines edited others ∧
      LineRecord.table others = Function.update (LineRecord.table records) line
        (if body = [] then none else some body) := by
  by_cases numbered : line = 0
  · rw [numbered, runOn_storeLine_zero] at ran
    cases ran
  by_cases empty : body = []
  · rw [empty, runOn_storeLine_nil numbered] at ran
    rw [if_pos empty]
    exact held.deleteLine tops ran
  cases encoded : encodeAll memory.width (.lineNumber line :: body) with
  | error error =>
    rw [runOn_storeLine_unencodable numbered empty encoded] at ran
    cases ran
  | ok bytes =>
    obtain ⟨lower, same, higher, split⟩ := LineRecord.exists_splitAt held.sorted line
    have place := held.insertionPoint_eq split
    set existing := same.head?.map fun record =>
      (LineRecord.image lower).length + record.bytes.length
    have replaced : IsOld (LineRecord.image lower) (LineRecord.image same) existing :=
      isOld_of_splitAt split
    obtain ⟨rest, cut, ends⟩ := held.contents_eq split
    have room : ¬ memory.himem < memory.top +
        scratchFor bytes.length memory.top (LineRecord.image lower).length existing := by
      intro full
      rw [runOn_storeLine_encoded numbered empty encoded place, if_pos full] at ran
      cases ran
    have total := congrArg List.length cut
    simp only [length_contents, List.length_append] at total
    set scratch := scratchFor bytes.length memory.top (LineRecord.image lower).length existing
      with needed
    have stored := @runOn_storeLine _ _ _ _ _ _ _ (rest.take scratch) (rest.drop scratch) _ numbered
      empty encoded place replaced
      (by rw [cut, List.append_assoc _ (rest.take _), List.take_append_drop]) ends
      (by rw [List.length_take]; omega) (by rw [List.length_take]; omega)
    rw [stored] at ran
    cases ran
    let record : LineRecord width :=
      { number := line, body, bytes, storable, encoded := by rw [← held.width, encoded] }
    have table := @LineRecord.SplitAt.table_replace _ _ _ _ _ _ split [record] (by simp [record])
    rw [if_neg empty]
    refine ⟨lower ++ [record] ++ higher, ?_, table⟩
    rw [ends, scratchFor_eq replaced] at needed
    refine @of_holding _ _ _ _ (_ ++ rest.drop scratch) _ held _
      (split.replace held.sorted (by simp [record]) (by simp)) (by simp [record]; rfl) ?_
      (by simp [record]; omega)
    simp only [List.length_append, List.length_replicate, List.length_take, List.length_drop]
    omega

/-- Clearing the program leaves no line. -/
theorem clearProgram (held : HoldsLines memory records) (inside : memory.top ≤ memory.size) :
    HoldsLines (Memory.clearProgram.runOn memory).2 ([] : List (LineRecord width)) := by
  rw [runOn_clearProgram inside]
  refine @of_holding _ _ _ _ (List.replicate memory.top 0 ++
    memory.contents.drop memory.top) _ held _ .nil rfl ?_ rfl
  rw [List.length_append, List.length_replicate, List.length_drop, length_contents]
  omega

end HoldsLines

end Memory

end PocketBasic
