/-
**What editing does to the bytes.** The memory is cut into the program before the place of a line,
the record that stands there, the program behind it, the room that the edit needs, and all the rest,
which no edit touches. Nothing here depends on what the program bytes mean.

* `Memory.runOn_replaceRecord`: a record that stands above the program goes to the place of another
  one, in every order of lengths;
* `Memory.insertRecord_eq`: so it does between two records;
* **`Memory.runOn_storeLine`**: storing a line puts its record in the place of the old one;
* **`Memory.runOn_deleteLine`**: deleting takes the old one out;
* `Memory.plan`: the edit that storing a line is, found before anything is written;
* **`Memory.storeLine_is_atomic`**: an edit is refused or done as planned, nothing in between.
-/

import Mathlib.Data.List.Basic
import Mathlib.Tactic.Common
import PocketBasic.Memory.Editor
import PocketBasic.Proofs.Memory.Bytes
import PocketBasic.Proofs.Program.Decoding

namespace PocketBasic.Memory

/-! ### Placing a record -/

section Placing

variable {memory : Memory} {before old after record spare far : Bytes}

/-- A record that is longer than the old one: everything behind the old one makes room first. -/
theorem runOn_replaceRecord_longer
    (cut : memory.contents = before ++ old ++ after ++ record ++ spare ++ far)
    (longer : old.length < record.length) (room : spare.length = record.length - old.length)
    (below : before.length + old.length + after.length + record.length + spare.length ≤
      memory.himem) :
    (replaceRecord (before.length + old.length + after.length) record.length before.length
      (before.length + old.length)).runOn memory =
        (.ok (), (memory.holding (before ++ record ++ after ++ record ++ far)).endingAt
          (before.length + record.length + after.length)) := by
  have oldLength : before.length + old.length - before.length = old.length := by omega
  have behind : before.length + old.length + after.length + record.length -
      (before.length + old.length) = after.length + record.length := by omega
  have written : before.length + old.length + after.length + (record.length - old.length) =
      before.length + old.length + spare.length + after.length := by omega
  have top : before.length + old.length + after.length + record.length - old.length =
      before.length + record.length + after.length := by omega
  obtain ⟨left, sameLeft, moved⟩ := @runOn_moveBlock_up memory (before ++ old) (after ++ record)
    spare far (by rw [cut]; simp) (by simp only [List.length_append]; omega)
  have placed := @runOn_moveBlock
    (memory.holding ((before ++ old) ++ left ++ (after ++ record) ++ far))
    (before ++ old ++ left ++ after) record far before (old ++ left) (after ++ record ++ far)
    (by simp) (by simp) (by simp only [List.length_append, sameLeft]; omega)
    (by simp only [List.length_append, sameLeft, himem_holding]; omega)
    (by simp only [himem_holding]; omega)
  simp only [List.length_append, sameLeft] at moved placed
  simp only [replaceRecord, oldLength, longer, if_true, behind, written, top]
  rw [← room, Attempt.runOn_bind_ok moved, Attempt.runOn_bind_ok placed, Attempt.runOn_modify]
  simp [holding, endingAt]

/-- A record that is not longer than the old one: it is written over it, and what follows closes
up. -/
theorem runOn_replaceRecord_shorter
    (cut : memory.contents = before ++ old ++ after ++ record ++ far)
    (fitting : record.length ≤ old.length)
    (below : before.length + old.length + after.length + record.length ≤ memory.himem) :
    ∃ left : Bytes, left.length = old.length - record.length ∧
      (replaceRecord (before.length + old.length + after.length) record.length before.length
        (before.length + old.length)).runOn memory =
          (.ok (), (memory.holding (before ++ record ++ after ++ left ++ record ++ far)).endingAt
            (before.length + record.length + after.length)) := by
  have oldLength : before.length + old.length - before.length = old.length := by omega
  have behind : before.length + old.length + after.length - (before.length + old.length) =
      after.length := by omega
  have stop : before.length + old.length + after.length + record.length - old.length =
      before.length + record.length + after.length := by omega
  have placed := @runOn_moveBlock memory (before ++ old ++ after) record far before
    (old.take record.length) (old.drop record.length ++ after ++ record ++ far) cut
    (by rw [cut]; simp [← List.append_assoc (List.take _ _)]) (by rw [List.length_take]; omega)
    (by simp only [List.length_append]; omega) (by omega)
  simp only [List.length_append] at placed
  have notLonger : ¬ old.length < record.length := by omega
  simp only [replaceRecord, oldLength, notLonger, if_false, behind, stop]
  rw [Attempt.runOn_bind_ok placed]
  by_cases same : record.length = old.length
  · have none : ¬ record.length < old.length := by omega
    refine ⟨[], by rw [same]; simp, ?_⟩
    rw [if_neg none, Attempt.runOn_modify, List.drop_of_length_le (by omega)]
    simp [holding, endingAt]
  · have some : record.length < old.length := by omega
    obtain ⟨left, sameLeft, moved⟩ := @runOn_moveBlock_down
      (memory.holding (before ++ record ++
        (old.drop record.length ++ after ++ record ++ far))) (before ++ record)
      (old.drop record.length) after (record ++ far) (by simp)
      (by simp only [List.length_append, List.length_drop, himem_holding]; omega)
    have reached : before.length + old.length =
        (before ++ record).length + (old.drop record.length).length := by
      simp only [List.length_append, List.length_drop]
      omega
    refine ⟨left, by simpa using sameLeft, ?_⟩
    simp only [List.length_append] at moved reached
    rw [if_pos some, reached, Attempt.runOn_bind_ok moved, Attempt.runOn_modify]
    simp [holding, endingAt]

/-- **A record that stands above the program goes to its place**, in front of what followed the old
one. The room it was written in keeps bytes of no meaning. -/
theorem runOn_replaceRecord
    (cut : memory.contents = before ++ old ++ after ++ record ++ spare ++ far)
    (room : spare.length = record.length - old.length)
    (below : before.length + old.length + after.length + record.length + spare.length ≤
      memory.himem) :
    ∃ left : Bytes, left.length = old.length + spare.length ∧
      (replaceRecord (before.length + old.length + after.length) record.length before.length
        (before.length + old.length)).runOn memory =
          (.ok (), (memory.holding (before ++ record ++ after ++ left ++ far)).endingAt
            (before.length + record.length + after.length)) := by
  by_cases longer : old.length < record.length
  · exact ⟨record, by omega, runOn_replaceRecord_longer cut longer room below⟩
  · have empty : spare = [] := List.length_eq_zero_iff.mp (by omega)
    subst empty
    rw [List.append_nil] at cut
    obtain ⟨left, sameLeft, ran⟩ := runOn_replaceRecord_shorter cut (by omega) (by omega)
    refine ⟨left ++ record, by simp only [List.length_append, List.length_nil]; omega, ?_⟩
    rw [ran]
    simp

/-- Inserting is replacing nothing. -/
theorem insertRecord_eq {oldTop length start : Nat} (some : 0 < length) :
    insertRecord oldTop length start = replaceRecord oldTop length start start := by
  simp only [insertRecord, replaceRecord, Nat.sub_self, some, if_true, Nat.sub_zero]

/-! ### Any place -/

/-- Puts the record of a line, which stands at `oldTop`, where it belongs: in the place of a record
that ends at a given stop, or between two records, or at the end, where it stands already. -/
def placeRecord (oldTop length start : Nat) : Option Nat → Attempt Memory Unit
  | some stop => replaceRecord oldTop length start stop
  | none => if start = oldTop then pure () else insertRecord oldTop length start

/-- Whether the end of the old record, if there is one, says that the old record is `old`. -/
def IsOld (before old : Bytes) : Option Nat → Prop
  | none => old = []
  | some stop => stop = before.length + old.length

/-- The room that an edit needs is that of the record and as much as the record grows. -/
theorem scratchFor_eq {before old after : Bytes} {existing : Option Nat} {length : Nat}
    (replaced : IsOld before old existing) :
    scratchFor length (before.length + old.length + after.length) before.length existing =
      length + if after = [] ∧ existing = none then 0 else length - old.length := by
  cases existing with
  | none =>
    cases replaced
    have empty : before.length = before.length + ([] : Bytes).length + after.length ↔
        after = [] := by
      rw [← List.length_eq_zero_iff, List.length_nil]
      omega
    simp only [scratchFor, empty, and_true]
    split_ifs
    · rfl
    · exact Nat.two_mul length
  | some stop =>
    cases replaced
    have oldLength : before.length + old.length - before.length = old.length := by omega
    simp [scratchFor, oldLength]

theorem runOn_placeRecord {existing : Option Nat} (replaced : IsOld before old existing)
    (cut : memory.contents = before ++ old ++ after ++ record ++ spare ++ far)
    (some : 0 < record.length)
    (ends : memory.top = before.length + old.length + after.length + record.length)
    (room : spare.length =
      if after = [] ∧ existing = none then 0 else record.length - old.length)
    (below : memory.top + spare.length ≤ memory.himem) :
    ∃ left : Bytes, left.length = old.length + spare.length ∧
      (placeRecord (before.length + old.length + after.length) record.length before.length
        existing).runOn memory =
          (.ok (), (memory.holding (before ++ record ++ after ++ left ++ far)).endingAt
            (before.length + record.length + after.length)) := by
  rw [ends] at below
  rcases existing with _ | stop
  · cases replaced
    by_cases last : after = []
    · subst last
      have empty : spare = [] := List.length_eq_zero_iff.mp (by simpa using room)
      subst empty
      refine ⟨[], rfl, ?_⟩
      have still : (memory.holding memory.contents).endingAt memory.top = memory := by
        rw [holding_contents]
        rfl
      rw [placeRecord, if_pos (by simp), Attempt.runOn_pure]
      simp only [List.append_nil, List.length_nil, Nat.add_zero] at cut ends ⊢
      rw [← cut, ← ends, still]
    · have inside : before.length ≠ before.length + ([] : Bytes).length + after.length := by
        have := List.length_pos_of_ne_nil last
        omega
      rw [if_neg fun both => last both.1] at room
      rw [placeRecord, if_neg inside, insertRecord_eq some]
      exact runOn_replaceRecord cut room below
  · cases replaced
    rw [if_neg fun both => nomatch both.2] at room
    exact runOn_replaceRecord cut room below

end Placing

/-! ### Storing a line -/

section Storing

variable {memory : Memory} {line : LineNumber} {body : List Token}

/-- The memory with all slots for starts of lines empty. -/
def withoutCache (memory : Memory) : Memory := { memory with lineCache := memory.lineCache.clear }

theorem runOn_storeLine_zero : (storeLine 0 body).runOn memory =
    (.error (.reported { kind := .undefinedLine }), memory) := rfl

theorem runOn_storeLine_nil (numbered : line ≠ 0) :
    (storeLine line []).runOn memory = (deleteLine line).runOn memory.withoutCache := by
  rw [storeLine, if_neg numbered]
  rfl

/-- A line with a token that cannot be stored changes nothing. -/
theorem runOn_storeLine_unencodable (numbered : line ≠ 0) (some : body ≠ []) {error : Error}
    (encoded : encodeAll memory.width (.lineNumber line :: body) = .error error) :
    (storeLine line body).runOn memory = (.error (.reported error), memory.withoutCache) := by
  have cleared : encodeAll memory.withoutCache.width (.lineNumber line :: body) = .error error :=
    encoded
  rw [storeLine, if_neg numbered, Attempt.runOn_modify_bind]
  simp only [List.isEmpty_iff, some, if_false, Attempt.runOn_get_bind]
  exact Attempt.runOn_bind_error (by rw [← withoutCache, cleared]; rfl) _

/-- What storing does to a memory once the record is encoded and its place is known. -/
theorem runOn_storeLine_encoded (numbered : line ≠ 0) (some : body ≠ []) {record : Bytes}
    (encoded : encodeAll memory.width (.lineNumber line :: body) = .ok record) {start : Nat}
    {existing : Option Nat} (place : memory.insertionPoint line = (start, existing)) :
    (storeLine line body).runOn memory =
      if memory.himem < memory.top + scratchFor record.length memory.top start existing then
        (.error (.reported { kind := .outOfMemory }), memory.withoutCache)
      else
        (do
          write memory.top record
          modify fun now => { now with top := memory.top + record.length }
          placeRecord memory.top record.length start existing
          zero (← get).top (memory.top + scratchFor record.length memory.top start existing) :
            Attempt Memory Unit).runOn memory.withoutCache := by
  have cleared : encodeAll memory.withoutCache.width (.lineNumber line :: body) = .ok record :=
    encoded
  have there : memory.withoutCache.insertionPoint line = (start, existing) := place
  rw [storeLine, if_neg numbered, Attempt.runOn_modify_bind]
  simp only [List.isEmpty_iff, some, if_false, Attempt.runOn_get_bind]
  rw [← withoutCache, cleared, Attempt.runOn_bind_ok (Attempt.runOn_lift_ok record _), there]
  show Attempt.runOn (ite _ _ _) _ = _
  rw [Attempt.runOn_ite]
  rcases existing with _ | stop
  · by_cases last : start = memory.top
    · simp only [placeRecord, last, ne_eq, not_true_eq_false, if_false, if_true]
      rfl
    · simp only [placeRecord, last, ne_eq, not_false_eq_true, if_false, if_true]
      rfl
  · rfl

/-- **Storing a line puts its record in the place of the old one.** The room that the edit used and
that is free afterwards is zero, and the bytes behind it are as they were. -/
theorem runOn_storeLine {before old after record scratch far : Bytes} {existing : Option Nat}
    (numbered : line ≠ 0) (some : body ≠ [])
    (encoded : encodeAll memory.width (.lineNumber line :: body) = .ok record)
    (place : memory.insertionPoint line = (before.length, existing))
    (replaced : IsOld before old existing)
    (cut : memory.contents = before ++ old ++ after ++ scratch ++ far)
    (ends : memory.top = before.length + old.length + after.length)
    (count : scratch.length = scratchFor record.length memory.top before.length existing)
    (fits : memory.top + scratch.length ≤ memory.himem) :
    (storeLine line body).runOn memory =
      (.ok (), (memory.withoutCache.holding (before ++ record ++ after ++
        List.replicate (old.length + scratch.length - record.length) 0 ++ far)).endingAt
          (before.length + record.length + after.length)) := by
  have needed : ¬ memory.himem < memory.top +
      scratchFor record.length memory.top before.length existing := by omega
  have room := count
  rw [ends, scratchFor_eq replaced] at room
  have written := @runOn_write memory.withoutCache (before ++ old ++ after)
    (scratch.take record.length) (scratch.drop record.length ++ far) record
    (by rw [← List.append_assoc, List.append_assoc _ (List.take _ _), List.take_append_drop]
        exact cut) (by rw [List.length_take]; omega)
  -- The record goes to its place, and the scratch area is left with bytes of no meaning.
  obtain ⟨left, sameLeft, placed⟩ := @runOn_placeRecord
    ((memory.withoutCache.holding (before ++ old ++ after ++ record ++
      (scratch.drop record.length ++ far))).endingAt (memory.top + record.length)) _ _ after _
    (scratch.drop record.length) far _ replaced (by simp) (length_pos_of_encodeAll encoded)
    (by simp [ends]) (by rw [List.length_drop]; omega)
    (by
      rw [List.length_drop, top_endingAt, himem_endingAt, himem_holding]
      exact Nat.le_trans (by omega) fits)
  have cleared := @runOn_zero
    ((memory.withoutCache.holding (before ++ record ++ after ++ left ++ far)).endingAt
      (before.length + record.length + after.length)) (before ++ record ++ after) left far
    (memory.top + scratchFor record.length memory.top before.length existing) (by simp)
    (by simp only [sameLeft, List.length_append, List.length_drop]; omega)
  have count : left.length = old.length + scratch.length - record.length := by
    rw [sameLeft, List.length_drop]
    omega
  rw [runOn_storeLine_encoded numbered some encoded place, if_neg needed]
  simp only [List.length_append, ← ends] at written cleared placed
  rw [Attempt.runOn_bind_ok written, Attempt.runOn_modify_bind, ← endingAt,
    Attempt.runOn_bind_ok placed, Attempt.runOn_get_bind, ← count]
  exact cleared

end Storing

/-! ### Deleting a line -/

section Deleting

variable {memory : Memory} {line : LineNumber}

theorem runOn_deleteLine_absent (absent : memory.lineSpan? line = none) :
    (deleteLine line).runOn memory = (.error (.reported { kind := .undefinedLine }), memory) := by
  rw [deleteLine, Attempt.runOn_get_bind, absent]
  rfl

/-- **Deleting a line closes the gap** and clears what becomes free. -/
theorem runOn_deleteLine {before old after far : Bytes} {span : LineSpan}
    (found : memory.lineSpan? line = some span) (start : span.start = before.length)
    (stop : span.stop = before.length + old.length)
    (cut : memory.contents = before ++ old ++ after ++ far)
    (ends : memory.top = before.length + old.length + after.length)
    (below : memory.top ≤ memory.himem) :
    (deleteLine line).runOn memory =
      (.ok (), (memory.holding (before ++ after ++ List.replicate old.length 0 ++ far)).endingAt
        (before.length + after.length)) := by
  have behind : memory.top - span.stop = after.length := by omega
  have newTop : memory.top - (span.stop - span.start) = before.length + after.length := by omega
  obtain ⟨left, sameLeft, moved⟩ := runOn_moveBlock_down cut (by omega)
  have cleared := @runOn_zero
    ((memory.holding (before ++ after ++ left ++ far)).endingAt
      (before.length + after.length)) (before ++ after) left far memory.top (by simp)
    (by simp only [List.length_append]; omega)
  rw [List.length_append, sameLeft] at cleared
  rw [deleteLine, Attempt.runOn_get_bind, found]
  simp only [behind, newTop]
  rw [start, stop, Attempt.runOn_bind_ok moved, Attempt.runOn_modify_bind, ← endingAt]
  exact cleared

end Deleting

/-! ### Any program bytes -/

/-- What an edit leaves of a memory: the heap with everything that is known about it, and room for
it above the program. -/
structure KeepsHeap (memory edited : Memory) : Prop where
  size : edited.size = memory.size
  himem : edited.himem = memory.himem
  objects : edited.objects = memory.objects
  recent : edited.recent = memory.recent
  heap : edited.contents.drop edited.himem = memory.contents.drop memory.himem
  below : edited.top ≤ edited.himem

section Frame

variable {memory : Memory} {line : LineNumber}

/-- A line goes to a place inside the program, and so does the record that it replaces. -/
theorem insertionPoint_bounds (memory : Memory) (line : LineNumber) :
    (memory.insertionPoint line).1 ≤ memory.top ∧
      ∀ stop ∈ (memory.insertionPoint line).2,
        (memory.insertionPoint line).1 ≤ stop ∧ stop ≤ memory.top := by
  rw [insertionPoint]
  split
  · exact ⟨Nat.le_refl _, fun _ none => nomatch none⟩
  · rename_i span found
    have bounds := ProgramText.bounds_of_mem_lines (List.mem_of_find?_eq_some found)
    have top : memory.program.length = memory.top := rfl
    refine ⟨by simp only; omega, fun stop some => ?_⟩
    simp only at some
    split at some
    · cases some
      simp only
      omega
    · cases some

/-- A list in five pieces of given lengths. -/
theorem exists_pieces (bytes : Bytes) {start stop top room : Nat} (first : start ≤ stop)
    (second : stop ≤ top) (third : top + room ≤ bytes.length) :
    ∃ old scratch : Bytes,
      bytes = bytes.take start ++ old ++ (bytes.take top).drop stop ++ scratch ++
        bytes.drop (top + room) ∧
      (bytes.take start).length = start ∧ start + old.length = stop ∧
      stop + ((bytes.take top).drop stop).length = top ∧ scratch.length = room := by
  refine ⟨(bytes.take stop).drop start, (bytes.drop top).take room, ?_, ?_⟩
  · have cutAt (first second : Nat) (ordered : first ≤ second) :
        bytes.take first ++ (bytes.take second).drop first = bytes.take second := by
      have cut := List.take_append_drop first (bytes.take second)
      rwa [List.take_take, Nat.min_eq_left ordered] at cut
    rw [cutAt start stop first, cutAt stop top second, List.append_assoc, ← List.drop_drop,
      List.take_append_drop, List.take_append_drop]
  · simp only [List.length_take, List.length_drop]
    omega

/-- What stands below the heap may be exchanged for as many other bytes. -/
theorem keepsHeap_of_cut {used others far : Bytes} {top : Nat}
    (cut : memory.contents = used ++ far) (same : others.length = used.length)
    (behind : used.length ≤ memory.himem) (below : top ≤ memory.himem) :
    KeepsHeap memory ((memory.withoutCache.holding (others ++ far)).endingAt top) where
  size := by
    rw [size_endingAt, size_holding, ← length_contents, cut, List.length_append, same,
      ← List.length_append]
  himem := rfl
  objects := rfl
  recent := rfl
  heap := by
    have usedEnds : used.drop memory.himem = [] := List.drop_of_length_le behind
    have othersEnd : others.drop memory.himem = [] := List.drop_of_length_le (same ▸ behind)
    rw [contents_endingAt, contents_holding, cut]
    show (others ++ far).drop memory.himem = _
    rw [List.drop_append, List.drop_append, usedEnds, othersEnd, same]
  below := below

/-! ### Edits as a whole -/

/-- An edit of the program: a record in the place of the bytes from `start` to `stop`. It uses the
room above the program up to `reach`. -/
structure Edit where
  start : Nat
  stop : Nat
  record : Bytes
  reach : Nat

/-- The edit that storing a line is, or why it is refused. Nothing has to be written to find that
out. -/
def plan (memory : Memory) (line : LineNumber) (body : List Token) : Except Error Edit :=
  if line = 0 then .error { kind := .undefinedLine }
  else if body.isEmpty then
    match memory.lineSpan? line with
    | none => .error { kind := .undefinedLine }
    | some span => .ok { start := span.start, stop := span.stop, record := [], reach := memory.top }
  else do
    let record ← encodeAll memory.width (.lineNumber line :: body)
    let (start, existing) := memory.insertionPoint line
    let reach := memory.top + scratchFor record.length memory.top start existing
    if memory.himem < reach then .error { kind := .outOfMemory }
    else .ok { start, stop := existing.getD start, record, reach }

namespace Edit

/-- The program that an edit makes: its record between what stays. -/
def program (edit : Edit) (memory : Memory) : Bytes :=
  memory.contents.take edit.start ++ edit.record ++ (memory.contents.take memory.top).drop edit.stop

/-- What an edit makes of a memory. The room that it used is zero as far as it is free. -/
def applied (edit : Edit) (memory : Memory) : Memory :=
  (memory.withoutCache.holding (edit.program memory ++
    List.replicate (edit.reach - (edit.program memory).length) 0 ++
      memory.contents.drop edit.reach)).endingAt (edit.program memory).length

/-- An edit that replaces bytes of the program and takes no room from the heap. -/
structure Fits (edit : Edit) (memory : Memory) : Prop where
  ordered : edit.start ≤ edit.stop
  inside : edit.stop ≤ memory.top
  above : memory.top ≤ edit.reach
  covers : (edit.program memory).length ≤ edit.reach
  below : edit.reach ≤ memory.himem

theorem Fits.keepsHeap {edit : Edit} (fits : edit.Fits memory)
    (inside : memory.himem ≤ memory.size) : KeepsHeap memory (edit.applied memory) := by
  have covers := fits.covers
  have below := fits.below
  refine keepsHeap_of_cut (List.take_append_drop edit.reach memory.contents).symm ?_ ?_ (by omega)
  · rw [List.length_append, List.length_replicate, List.length_take, length_contents]
    omega
  · rw [List.length_take]
    omega

end Edit

/-- A line that is deleted leaves its place to an empty record. -/
theorem runOn_deleteLine_found {span : LineSpan} (tops : memory.top ≤ memory.himem)
    (inside : memory.himem ≤ memory.size) (found : memory.lineSpan? line = some span) {edit : Edit}
    (planned : edit = ⟨span.start, span.stop, [], memory.top⟩) :
    edit.Fits memory ∧
      (deleteLine line).runOn memory.withoutCache = (.ok (), edit.applied memory) := by
  subst planned
  have bounds : span.start < span.stop ∧ span.stop ≤ memory.top :=
    ProgramText.bounds_of_mem_lines (List.mem_of_find?_eq_some found)
  obtain ⟨old, scratch, cut, first, second, third, fourth⟩ :=
    @exists_pieces memory.contents span.start span.stop memory.top 0 (by omega) bounds.2
      (by rw [length_contents]; omega)
  obtain rfl : scratch = [] := List.length_eq_zero_iff.mp fourth
  have program : (Edit.program ⟨span.start, span.stop, [], memory.top⟩ memory).length =
      span.start + (memory.top - span.stop) := by
    simp only [Edit.program, List.length_append, List.length_nil, List.length_take,
      List.length_drop, length_contents]
    omega
  refine ⟨⟨by simp only; omega, bounds.2, Nat.le_refl _, ?_, tops⟩, ?_⟩
  · simp only [program]
    omega
  rw [List.append_nil, Nat.add_zero] at cut
  rw [@runOn_deleteLine memory.withoutCache _ _ _ _ _ _ found first.symm (by omega) cut
    (by rw [first]; show memory.top = _; omega) tops]
  have free : memory.top - (span.start + (memory.top - span.stop)) = old.length := by omega
  have ends : span.start + (memory.top - span.stop) =
      (memory.contents.take span.start).length +
        ((memory.contents.take memory.top).drop span.stop).length := by omega
  rw [Edit.applied, program, free, ends, Edit.program, List.append_nil]

/-- A record that there is room for takes the place of the old one. -/
theorem runOn_storeLine_planned (inside : memory.himem ≤ memory.size) (numbered : line ≠ 0)
    {body : List Token}
    (some : body ≠ []) {record : Bytes}
    (encoded : encodeAll memory.width (.lineNumber line :: body) = .ok record) {start : Nat}
    {existing : Option Nat} (place : memory.insertionPoint line = (start, existing))
    (room : memory.top + scratchFor record.length memory.top start existing ≤ memory.himem)
    {edit : Edit} (planned : edit = ⟨start, existing.getD start, record,
      memory.top + scratchFor record.length memory.top start existing⟩) :
    edit.Fits memory ∧ (storeLine line body).runOn memory = (.ok (), edit.applied memory) := by
  subst planned
  have bounds : start ≤ existing.getD start ∧ existing.getD start ≤ memory.top := by
    have within := insertionPoint_bounds memory line
    rw [place] at within
    cases existing with
    | none => exact ⟨Nat.le_refl _, within.1⟩
    | some stop => exact within.2 stop rfl
  obtain ⟨old, scratch, cut, first, second, third, fourth⟩ :=
    @exists_pieces memory.contents start (existing.getD start) memory.top
      (scratchFor record.length memory.top start existing) bounds.1 bounds.2
      (by rw [length_contents]; omega)
  have replaced : IsOld (memory.contents.take start) old existing := by
    cases existing with
    | none => exact List.length_eq_zero_iff.mp (by simpa using second)
    | some stop => exact (first.symm ▸ second).symm
  generalize beforeIs : memory.contents.take start = before at cut first replaced
  generalize afterIs : (memory.contents.take memory.top).drop (existing.getD start) = after
    at cut third
  generalize farIs : memory.contents.drop
    (memory.top + scratchFor record.length memory.top start existing) = far at cut
  subst first
  have ends : memory.top = before.length + old.length + after.length := by omega
  have grows := @scratchFor_eq before old after existing record.length replaced
  rw [← ends] at grows
  have program : Edit.program ⟨before.length, existing.getD before.length, record,
      memory.top + scratchFor record.length memory.top before.length existing⟩ memory =
        before ++ record ++ after := by
    rw [Edit.program, beforeIs, afterIs]
  refine ⟨⟨bounds.1, bounds.2, Nat.le_add_right _ _, ?_, room⟩, ?_⟩
  · simp only [program, List.length_append]
    omega
  rw [runOn_storeLine numbered some encoded place replaced cut ends fourth (by omega), Edit.applied,
    program, farIs]
  have free : memory.top + scratchFor record.length memory.top before.length existing -
      (before ++ record ++ after).length = old.length + scratch.length - record.length := by
    simp only [List.length_append]
    omega
  rw [free, List.length_append, List.length_append]

/-- **An edit is refused before anything is written, or it is done as planned**, whatever the
program bytes are. -/
theorem runOn_storeLine_eq (tops : memory.top ≤ memory.himem) (inside : memory.himem ≤ memory.size)
    (line : LineNumber) (body : List Token) :
    (∃ error, memory.plan line body = .error error ∧
      ((storeLine line body).runOn memory = (.error (.reported error), memory) ∨
        (storeLine line body).runOn memory = (.error (.reported error), memory.withoutCache))) ∨
    ∃ edit, memory.plan line body = .ok edit ∧ edit.Fits memory ∧
      (storeLine line body).runOn memory = (.ok (), edit.applied memory) := by
  by_cases numbered : line = 0
  · subst numbered
    exact .inl ⟨_, rfl, .inl runOn_storeLine_zero⟩
  by_cases some : body = []
  · subst some
    rw [runOn_storeLine_nil numbered, plan, if_neg numbered]
    cases found : memory.lineSpan? line with
    | none => exact .inl ⟨_, rfl, .inr (runOn_deleteLine_absent found)⟩
    | some span => exact .inr ⟨_, rfl, runOn_deleteLine_found tops inside found rfl⟩
  have stored : body.isEmpty = false := by simpa using some
  rw [plan, if_neg numbered, stored, if_neg Bool.false_ne_true]
  cases encoded : encodeAll memory.width (.lineNumber line :: body) with
  | error error =>
    exact .inl ⟨error, rfl, .inr (runOn_storeLine_unencodable numbered some encoded)⟩
  | ok record =>
    cases place : memory.insertionPoint line with
    | mk start existing =>
      by_cases full : memory.himem <
          memory.top + scratchFor record.length memory.top start existing
      · refine .inl ⟨{ kind := .outOfMemory }, if_pos full, .inr ?_⟩
        rw [runOn_storeLine_encoded numbered some encoded place, if_pos full]
      · exact .inr ⟨_, if_neg full, runOn_storeLine_planned inside numbered some encoded place
          (by omega) rfl⟩

/-- **Storing a line leaves the heap alone.** It fails before it writes anything, or it succeeds. -/
theorem storeLine_keepsHeap (tops : memory.top ≤ memory.himem)
    (inside : memory.himem ≤ memory.size) (line : LineNumber) (body : List Token) :
    (∃ error, (storeLine line body).runOn memory = (.error (.reported error), memory) ∨
      (storeLine line body).runOn memory = (.error (.reported error), memory.withoutCache)) ∨
    ∃ edited, (storeLine line body).runOn memory = (.ok (), edited) ∧
      KeepsHeap memory edited := by
  rcases runOn_storeLine_eq tops inside line body with
    ⟨error, -, refused⟩ | ⟨edit, -, fits, ran⟩
  · exact .inl ⟨error, refused⟩
  · exact .inr ⟨_, ran, fits.keepsHeap inside⟩

/-- What an edit has done: besides the heap, everything behind the room that it used is as it
was. -/
structure Edit.IsDone (edit : Edit) (memory edited : Memory) : Prop
    extends KeepsHeap memory edited where
  fits : edit.Fits memory
  top : edited.top = edit.start + edit.record.length + (memory.top - edit.stop)
  program : edited.contents.take edited.top = memory.contents.take edit.start ++ edit.record ++
    (memory.contents.take memory.top).drop edit.stop
  zeros : (edited.contents.take edit.reach).drop edited.top =
    List.replicate (edit.reach - edited.top) 0
  behind : edited.contents.drop edit.reach = memory.contents.drop edit.reach

/-- **Storing a line is all or nothing**, whatever the program bytes, the line and its tokens are.
Either it is refused with an error, and only the slots for starts of lines may have changed; or the
edit that was planned is done, and nothing else. No access leaves the memory in either case. -/
theorem storeLine_is_atomic (tops : memory.top ≤ memory.himem)
    (inside : memory.himem ≤ memory.size) (line : LineNumber) (body : List Token) :
    match memory.plan line body with
    | .error error => ∃ lineCache, (storeLine line body).runOn memory =
        (.error (.reported error), { memory with lineCache })
    | .ok edit => ∃ edited, (storeLine line body).runOn memory = (.ok (), edited) ∧
        edit.IsDone memory edited := by
  rcases runOn_storeLine_eq tops inside line body with
    ⟨error, planned, ran | ran⟩ | ⟨edit, planned, fits, ran⟩
  · rw [planned]
    exact ⟨_, ran⟩
  · rw [planned]
    exact ⟨_, ran⟩
  rw [planned]
  have covers := fits.covers
  have applied : (edit.applied memory).contents = edit.program memory ++
      List.replicate (edit.reach - (edit.program memory).length) 0 ++
        memory.contents.drop edit.reach := by
    rw [Edit.applied, contents_endingAt, contents_holding]
  have room : (edit.program memory ++
      List.replicate (edit.reach - (edit.program memory).length) 0).length = edit.reach := by
    rw [List.length_append, List.length_replicate]
    omega
  refine ⟨_, ran, { fits.keepsHeap inside with
    fits, top := ?_, program := ?_, zeros := ?_, behind := ?_ }⟩
  · have ordered := fits.ordered
    have ends := fits.inside
    simp only [Edit.applied, Edit.program, top_endingAt, List.length_append, List.length_take,
      List.length_drop, length_contents]
    omega
  · rw [applied, List.append_assoc]
    exact List.take_left
  · rw [applied, List.take_left' room]
    exact List.drop_left
  · rw [applied]
    exact List.drop_left' room

/-- A program of one line whose literal says that it is longer than the program. -/
def overlong : Memory :=
  ((ofSize 24).holding ([129, 10, 0, 130, 200] ++ List.replicate 19 0)).endingAt 5

/-- The line goes, overlong as it is, and the one that is stored takes its place. -/
theorem storeLine_is_atomic_overlong :
    overlong.top ≤ overlong.himem ∧ overlong.himem ≤ overlong.size ∧
      ∃ edited, (storeLine 10 [.scalar ⟨65, 0⟩]).runOn overlong = (.ok (), edited) ∧
        (⟨0, 5, [129, 10, 0, 131, 65, 0], 12⟩ : Edit).IsDone overlong edited := by
  have planned : overlong.plan 10 [.scalar ⟨65, 0⟩] =
      .ok ⟨0, 5, [129, 10, 0, 131, 65, 0], 12⟩ := by rfl
  have stored := @storeLine_is_atomic overlong (by decide) (by decide) 10 [.scalar ⟨65, 0⟩]
  rw [planned] at stored
  exact ⟨by decide, by decide, stored⟩

/-! ### Clearing the program -/

theorem runOn_clearProgram (inside : memory.top ≤ memory.size) :
    clearProgram.runOn memory = (.ok (), (memory.withoutCache.holding
      (List.replicate memory.top 0 ++ memory.contents.drop memory.top)).endingAt 0) := by
  have count : (memory.contents.take memory.top).length = memory.top := by
    rw [List.length_take, length_contents]
    exact Nat.min_eq_left inside
  have cleared := @runOn_zero memory [] (memory.contents.take memory.top)
    (memory.contents.drop memory.top) memory.top (by rw [List.nil_append, List.take_append_drop])
    (by rw [count]; exact (Nat.zero_add _).symm)
  rw [List.nil_append, count, List.length_nil] at cleared
  rw [clearProgram, Attempt.runOn_get_bind, Attempt.runOn_bind_ok cleared, Attempt.runOn_modify]
  rfl

theorem clearProgram_keepsHeap (tops : memory.top ≤ memory.himem)
    (inside : memory.himem ≤ memory.size) :
    KeepsHeap memory (clearProgram.runOn memory).2 := by
  rw [runOn_clearProgram (Nat.le_trans tops inside)]
  refine @keepsHeap_of_cut _ (memory.contents.take memory.top) _ _ _
    (List.take_append_drop _ _).symm ?_ ?_ (Nat.zero_le _)
  · rw [List.length_replicate, List.length_take, length_contents]
    omega
  · rw [List.length_take]
    omega

end Frame

end PocketBasic.Memory
