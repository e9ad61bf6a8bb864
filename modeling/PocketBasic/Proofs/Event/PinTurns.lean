/-
**Pins are served in turn.** Between two calls of `PinTable.take` any slots can be activated again,
so a pin may be raised as often as its host likes. It cannot keep the others waiting: the search
begins behind the slot that was served last, and comes to every slot before it comes to that one
again.

* `PinTable.Activates`: what happens to a table between two calls;
* `PinTable.nextActive?_behind`: the search stops at a waiting slot or before it;
* `PinTable.serves_within`: a slot waits for as many calls as it is steps behind the start, at most;
* **`PinTable.pins_are_served_in_turn`**: each slot that waits is served by one of the next calls,
  as many as there are slots, and nothing is served only where nothing waits.
-/

import Mathlib.Tactic.Common
import Mathlib.Data.List.Forall2
import PocketBasic.Event.PinTable

namespace PocketBasic

/-- The same slot later: it may have been raised, but was not served. -/
structure PinSlot.Activates (before after : PinSlot) : Prop where
  pin : after.pin = before.pin
  response : after.response = before.response
  isActive : before.isActive = true → after.isActive = true

namespace PinTable

/-- The same table later: slots may have been raised, but none was served, added or removed. Pins
may be turned off or on meanwhile. -/
structure Activates (before after : PinTable) : Prop where
  slots : List.Forall₂ PinSlot.Activates before.slots after.slots
  next : after.next = before.next

/-- The next call serves the slot at a place: it returns the response of the slot, and makes this
slot wait for the next time and no other one. -/
structure Serves (table : PinTable) (place : Nat) (slot : PinSlot) : Prop where
  found : table.slots[place]? = some slot
  isActive : slot.isActive = true
  response : table.take.1 = some slot.response
  slots : table.take.2.slots = table.slots.set place { slot with isActive := false }

variable {table before after : PinTable} {place step : Nat} {slot : PinSlot}

/-! ### Between two calls -/

theorem activates_pollSlots (slots : List PinSlot) (signals : Signals) :
    List.Forall₂ PinSlot.Activates slots (pollSlots slots signals).1 := by
  induction slots generalizing signals with
  | nil => exact .nil
  | cons slot rest ih => exact .cons ⟨rfl, rfl, fun waits => by simp [waits]⟩ (ih _)

/-- Taking raised pins over is one of the things that may happen between two calls. -/
theorem activates_poll (table : PinTable) (signals : Signals) :
    table.Activates (table.poll signals).1 :=
  ⟨activates_pollSlots table.slots signals, rfl⟩

theorem Activates.length (activates : before.Activates after) :
    after.slots.length = before.slots.length :=
  activates.slots.length_eq.symm

/-- Every slot was there before the others were activated. -/
theorem Activates.exists_old (activates : before.Activates after) (among : slot ∈ after.slots) :
    ∃ old ∈ before.slots, old.Activates slot := by
  obtain ⟨place, inside, rfl⟩ := List.getElem_of_mem among
  have inside_before : place < before.slots.length := by rw [← activates.length]; exact inside
  exact ⟨_, List.getElem_mem inside_before, activates.slots.get inside_before inside⟩

/-- A slot that waits still waits after the others were activated. -/
theorem Activates.getElem? (activates : before.Activates after)
    (found : before.slots[place]? = some slot) :
    ∃ later, after.slots[place]? = some later ∧ slot.Activates later := by
  obtain ⟨inside, rfl⟩ := List.getElem?_eq_some_iff.mp found
  have inside_after : place < after.slots.length := by rw [activates.length]; exact inside
  exact ⟨_, List.getElem?_eq_getElem inside_after, activates.slots.get inside inside_after⟩

/-! ### The search -/

/-- Whether the slot at a place waits. -/
def waitsAt (table : PinTable) (place : Nat) : Bool := (table.slots[place]?).any (·.isActive)

theorem waitsAt_iff :
    table.waitsAt place = true ↔ ∃ slot, table.slots[place]? = some slot ∧ slot.isActive = true :=
  Option.any_eq_true ..

/-- The search in steps from its start. -/
theorem nextActive?_eq_map (table : PinTable) :
    table.nextActive? =
      ((List.range table.slots.length).find? fun step =>
        table.waitsAt ((table.next + step) % table.slots.length)).map
          fun step => (table.next + step) % table.slots.length :=
  List.find?_map

/-- **The search stops at a slot that waits, or before it.** -/
theorem nextActive?_behind (inside : step < table.slots.length)
    (waits : table.waitsAt ((table.next + step) % table.slots.length) = true) :
    ∃ first ≤ step,
      table.nextActive? = some ((table.next + first) % table.slots.length) := by
  rw [nextActive?_eq_map]
  cases stops : (List.range table.slots.length).find? fun step =>
      table.waitsAt ((table.next + step) % table.slots.length) with
  | none => exact absurd waits (by simpa using List.find?_range_eq_none.mp stops step inside)
  | some first =>
    obtain ⟨-, -, passed⟩ := List.find?_range_eq_some.mp stops
    refine ⟨first, ?_, rfl⟩
    by_contra past
    have passes := passed step (Nat.lt_of_not_le past)
    rw [waits] at passes
    cases passes

/-- Every place is at some step of the search. -/
theorem exists_step (next : Nat) {length : Nat} (inside : place < length) :
    ∃ step < length, (next + step) % length = place := by
  have positive : 0 < length := Nat.zero_lt_of_lt inside
  have bound : next % length < length := Nat.mod_lt _ positive
  have around : next % length + (place + (length - next % length)) = place + length := by omega
  refine ⟨(place + (length - next % length)) % length, Nat.mod_lt _ positive, ?_⟩
  rw [Nat.add_mod_mod, ← Nat.mod_add_mod, around, Nat.add_mod_right, Nat.mod_eq_of_lt inside]

/-! ### What a call does -/

/-- A call serves the slot at which the search stops, and the next search begins behind it. -/
theorem serves_of_nextActive? (stops : table.nextActive? = some place) :
    ∃ slot, table.Serves place slot ∧ table.take.2.next = (place + 1) % table.slots.length := by
  obtain ⟨slot, found, isActive⟩ := waitsAt_iff.mp (List.find?_some stops)
  refine ⟨slot, ⟨found, isActive, ?_, ?_⟩, ?_⟩ <;> simp only [take, stops]
  · rw [found, Option.map_some]
  · rw [List.modify_eq_set, found]
    rfl

/-- **Nothing is served only where nothing waits.** -/
theorem take_eq_none_iff :
    table.take.1 = none ↔ ∀ slot ∈ table.slots, slot.isActive = false := by
  refine ⟨fun nothing slot among => ?_, fun idle => ?_⟩
  · by_contra waits
    obtain ⟨place, found⟩ := List.getElem?_of_mem among
    obtain ⟨inside, -⟩ := List.getElem?_eq_some_iff.mp found
    obtain ⟨step, bound, same⟩ := exists_step table.next inside
    have there : table.waitsAt place = true :=
      waitsAt_iff.mpr ⟨slot, found, Bool.of_not_eq_false waits⟩
    rw [← same] at there
    obtain ⟨first, -, stops⟩ := nextActive?_behind bound there
    obtain ⟨served, serves, -⟩ := serves_of_nextActive? stops
    rw [serves.response] at nothing
    cases nothing
  · cases stops : table.nextActive? with
    | none => rw [take, stops]
    | some place =>
      obtain ⟨slot, serves, -⟩ := serves_of_nextActive? stops
      have waits := serves.isActive
      rw [idle slot (List.mem_of_getElem? serves.found)] at waits
      cases waits

/-- A slot that is not served is as it was. -/
theorem Serves.getElem?_ne {other : Nat} {waiting : PinSlot} (serves : table.Serves place slot)
    (differs : place ≠ other) (found : table.slots[other]? = some waiting) :
    table.take.2.slots[other]? = some waiting := by
  rw [serves.slots, List.getElem?_set_ne differs, found]

theorem Serves.length (serves : table.Serves place slot) :
    table.take.2.slots.length = table.slots.length := by
  rw [serves.slots, List.length_set]

/-! ### Call after call -/

/-- Behind a slot that the search passes, the rest of the way is that much shorter. -/
theorem step_behind {length first : Nat} (next : Nat) (passed : first < step) :
    (((next + first) % length + 1) % length + (step - first - 1)) % length =
      (next + step) % length := by
  have rest : (next + first) % length + 1 + (step - first - 1) =
      (next + first) % length + (step - first) := by omega
  rw [Nat.mod_add_mod, rest, Nat.mod_add_mod]
  congr 1
  omega

/-- **A slot waits for no more calls than it is steps behind the start of the search.** Each call
serves it or a slot before it, and begins the next search behind that one. -/
theorem serves_within (step : Nat) {tables : Nat → PinTable}
    (goesOn : ∀ call < step, (tables call).take.2.Activates (tables (call + 1)))
    (inside : step < (tables 0).slots.length)
    (found : (tables 0).slots[((tables 0).next + step) % (tables 0).slots.length]? = some slot)
    (waits : slot.isActive = true) :
    ∃ call ≤ step, ∃ served,
      (tables call).Serves (((tables 0).next + step) % (tables 0).slots.length) served ∧
        served.pin = slot.pin ∧ served.response = slot.response := by
  induction step using Nat.strongRecOn generalizing tables slot with
  | ind step ih =>
    obtain ⟨first, before, stops⟩ :=
      nextActive?_behind inside (waitsAt_iff.mpr ⟨slot, found, waits⟩)
    obtain ⟨served, serves, start⟩ := serves_of_nextActive? stops
    by_cases own : ((tables 0).next + first) % (tables 0).slots.length =
        ((tables 0).next + step) % (tables 0).slots.length
    · rw [own] at serves
      have same : served = slot := Option.some.inj (serves.found.symm.trans found)
      exact ⟨0, Nat.zero_le _, served, serves, by rw [same], by rw [same]⟩
    have passed : first < step := Nat.lt_of_le_of_ne before fun same => own (by rw [same])
    have activates : (tables 0).take.2.Activates (tables 1) := goesOn 0 (by omega)
    have length : (tables 1).slots.length = (tables 0).slots.length :=
      activates.length.trans serves.length
    obtain ⟨later, found_later, kept⟩ := activates.getElem? (serves.getElem?_ne own found)
    have nearer : ((tables 1).next + (step - first - 1)) % (tables 1).slots.length =
        ((tables 0).next + step) % (tables 0).slots.length := by
      rw [activates.next, start, length, step_behind _ passed]
    let rest (call : Nat) : PinTable := tables (call + 1)
    have goesOn' (call : Nat) (bound : call < step - first - 1) :
        (rest call).take.2.Activates (rest (call + 1)) := goesOn (call + 1) (by omega)
    obtain ⟨call, soon, again, serves_again, pin, response⟩ :=
      ih (step - first - 1) (by omega) goesOn' (by rw [length]; omega)
        (by rw [nearer]; exact found_later) (kept.isActive waits)
    rw [nearer] at serves_again
    exact ⟨call + 1, by omega, again, serves_again, pin.trans kept.pin,
      response.trans kept.response⟩

/-- **Pins are served in turn**: whatever slots are activated again between the calls, each slot
that waits is served by one of the next calls, as many as there are slots; and a call serves nothing
only where nothing waits. -/
theorem pins_are_served_in_turn {tables : Nat → PinTable}
    (goesOn : ∀ call, call + 1 < (tables 0).slots.length →
      (tables call).take.2.Activates (tables (call + 1))) :
    (∀ table : PinTable, table.take.1 = none ↔ ∀ slot ∈ table.slots, slot.isActive = false) ∧
      ∀ place slot, (tables 0).slots[place]? = some slot → slot.isActive = true →
        ∃ call < (tables 0).slots.length, ∃ served, (tables call).Serves place served ∧
          served.pin = slot.pin ∧ served.response = slot.response := by
  refine ⟨fun _ => take_eq_none_iff, fun place slot found waits => ?_⟩
  obtain ⟨inside, -⟩ := List.getElem?_eq_some_iff.mp found
  obtain ⟨step, bound, rfl⟩ := exists_step (tables 0).next inside
  obtain ⟨call, soon, served, serves, same⟩ :=
    serves_within step (fun call early => goesOn call (by omega)) bound found waits
  exact ⟨call, by omega, served, serves, same⟩

/-- The tables of a program whose second pin is raised again after every call. -/
def busyPin : Nat → PinTable
  | 0 =>
    { slots := [⟨1, .gosub 10, true⟩, ⟨2, .gosub 20, true⟩, ⟨3, .goto 30, true⟩], next := 1 }
  | call + 1 => ((busyPin call).take.2.poll (({} : Signals).raise 2)).1

/-- The first pin gets its turn although the second one is raised again and again. -/
theorem pins_are_served_in_turn_busyPin :
    ∃ call < 3, ∃ served, (busyPin call).Serves 0 served ∧ served.pin = 1 ∧
      served.response = .gosub 10 := by
  have raised (call : Nat) : (busyPin call).take.2.Activates (busyPin (call + 1)) :=
    activates_poll _ _
  exact (pins_are_served_in_turn fun call _ => raised call).2 0 ⟨1, .gosub 10, true⟩ rfl rfl

end PinTable

end PocketBasic
