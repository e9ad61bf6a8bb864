/-
**Pins are neither lost nor served twice.** A raised pin waits among the signals until a dispatch
takes it over into its slot, and there until it is its turn. The host raises pins whenever it wants,
also while a dispatch looks at the slots, so what happens to pins is followed here in steps between
which the host can come: a dispatch looks at one slot after the other and then serves one pin.

* `Delivery`: the table, the signals and how far a dispatch has come; `PinDeed`: one step;
* `Delivery.run?`: what one step after the other leaves;
* `Delivery.served_add_pending_le`: what a run serves was raised;
* `Delivery.IsPending.run`: what is pending stays so until it is served or the program gives it up;
* `Delivery.serves_as_watched`: who serves a pin gets the response that it was watched with last;
* **`Delivery.pins_are_neither_lost_nor_served_twice`**: the first two, for every run.

Taking the signal of a pin and marking its slot is one step, as the host does not see the slots.
-/

import Mathlib.Tactic.Common
import PocketBasic.Event.PinTable

namespace PocketBasic

/-! ### Signals of one pin -/

namespace Signals

variable (signals : Signals) {pin other : UInt8}

/-- Whether a pin was raised and not taken since. -/
def isRaised (pin : UInt8) : Bool := (signals.pins[pin.toNat]?).getD false

theorem isRaised_raise_self (exists_pin : pin.toNat < 64) :
    (signals.raise pin).isRaised pin = true := by
  simp [isRaised, raise, exists_pin]

theorem isRaised_raise_of_not_lt (none_such : ¬ pin.toNat < 64) :
    (signals.raise pin).isRaised pin = signals.isRaised pin := by
  simp [isRaised, raise, none_such]

theorem isRaised_raise_of_ne (differs : pin ≠ other) :
    (signals.raise other).isRaised pin = signals.isRaised pin := by
  have apart : other.toNat ≠ pin.toNat := fun same => differs (UInt8.toNat_inj.mp same.symm)
  simp [isRaised, raise, apart]

theorem isRaised_take_self : (signals.take pin).2.isRaised pin = false := by
  by_cases exists_pin : pin.toNat < 64 <;> simp [isRaised, take, exists_pin]

theorem isRaised_take_of_ne (differs : pin ≠ other) :
    (signals.take other).2.isRaised pin = signals.isRaised pin := by
  have apart : other.toNat ≠ pin.toNat := fun same => differs (UInt8.toNat_inj.mp same.symm)
  simp [isRaised, take, apart]

end Signals

/-! ### Slots -/

namespace PinTable

/-- How many slots hold a pin for its turn. -/
def activeSlots (slots : List PinSlot) (pin : UInt8) : Nat :=
  slots.countP fun slot => slot.isActive && slot.pin = pin

/-- The slot that is served next. -/
def nextSlot? (table : PinTable) : Option PinSlot := do table.slots[← table.nextActive?]?

variable {table : PinTable} {slots : List PinSlot}

/-- A slot that changes in its place among the others. -/
theorem modify_middle (before after : List PinSlot) (slot : PinSlot) (change : PinSlot → PinSlot) :
    (before ++ slot :: after).modify before.length change = before ++ change slot :: after := by
  rw [List.modify_eq_take_cons_drop (by simp)]
  simp

theorem exists_modify {place : Nat} {slot : PinSlot} (found : slots[place]? = some slot) :
    ∃ before after, slots = before ++ slot :: after ∧
      ∀ change, slots.modify place change = before ++ change slot :: after := by
  obtain ⟨inside, same⟩ := List.getElem?_eq_some_iff.mp found
  have modified (change : PinSlot → PinSlot) :
      slots.modify place change = slots.take place ++ change slot :: slots.drop (place + 1) := by
    rw [List.modify_eq_take_cons_drop inside, same]
  refine ⟨slots.take place, slots.drop (place + 1), ?_, modified⟩
  rw [← same, List.getElem_cons_drop, List.take_append_drop]

theorem activeSlots_middle (before after : List PinSlot) (slot : PinSlot) (pin : UInt8) :
    activeSlots (before ++ slot :: after) pin =
      activeSlots (before ++ after) pin + if slot.isActive && slot.pin = pin then 1 else 0 := by
  simp only [activeSlots, List.countP_append, List.countP_cons]
  omega

theorem activeSlots_remove_le (table : PinTable) (removed pin : UInt8) :
    activeSlots (table.remove removed).slots pin ≤ activeSlots table.slots pin :=
  List.Sublist.countP_le List.filter_sublist

/-- Giving up a pin leaves the others as they were. -/
theorem activeSlots_remove_of_ne (table : PinTable) {removed pin : UInt8}
    (differs : removed ≠ pin) :
    activeSlots (table.remove removed).slots pin = activeSlots table.slots pin := by
  rw [activeSlots, activeSlots, remove, List.countP_filter]
  refine List.countP_congr fun slot _ => ?_
  simp only [Bool.and_eq_true, decide_eq_true_eq, and_iff_left_iff_imp]
  rintro ⟨-, rfl⟩
  exact differs.symm

/-- A pin that is watched from now on does not wait. -/
theorem activeSlots_add? {added : UInt8} {response : Response} {after : PinTable}
    (adds : table.add? added response = some after) (pin : UInt8) :
    activeSlots after.slots pin = activeSlots (table.remove added).slots pin := by
  obtain ⟨-, same⟩ := Option.ite_none_right_eq_some.mp adds
  cases same
  simp [activeSlots]

/-- The next pin to be served has an active slot. -/
theorem nextSlot?_eq_some {slot : PinSlot} (next : table.nextSlot? = some slot) :
    ∃ place, table.nextActive? = some place ∧ table.slots[place]? = some slot ∧
      slot.isActive = true := by
  obtain ⟨place, active, found⟩ := Option.bind_eq_some_iff.mp next
  have holds := List.find?_some active
  rw [found] at holds
  exact ⟨place, active, found, holds⟩

theorem exists_nextSlot? {place : Nat} (active : table.nextActive? = some place) :
    ∃ slot, table.nextSlot? = some slot := by
  have holds := List.find?_some active
  cases found : table.slots[place]? with
  | none => rw [found] at holds; cases holds
  | some slot => exact ⟨slot, by rw [nextSlot?, active]; exact found⟩

/-- Serving a pin makes its slot wait for the next time. -/
theorem take_of_nextSlot? {slot : PinSlot} (next : table.nextSlot? = some slot) :
    ∃ before after start, table.slots = before ++ slot :: after ∧ slot.isActive = true ∧
      table.take = (some slot.response,
        { table with
          slots := before ++ { slot with isActive := false } :: after, next := start }) := by
  obtain ⟨place, active, found, marked⟩ := nextSlot?_eq_some next
  obtain ⟨before, after, same, modified⟩ := exists_modify found
  refine ⟨before, after, (place + 1) % table.slots.length, same, marked, ?_⟩
  rw [take, active]
  simp only [found, modified, Option.map_some]

theorem take_of_none (nobody : table.nextActive? = none) : table.take = (none, table) := by
  rw [take, nobody]

/-- Looking at all slots but the first ones is looking at one slot more, and then at the others. -/
theorem pollSlots_cons (slot : PinSlot) (rest : List PinSlot) (signals : Signals) :
    pollSlots (slot :: rest) signals =
      ({ slot with isActive := slot.isActive || signals.isRaised slot.pin } ::
          (pollSlots rest (signals.take slot.pin).2).1,
        (pollSlots rest (signals.take slot.pin).2).2) := rfl

end PinTable

/-! ### Steps -/

/-- The pins of a machine while the host may come between the steps of a dispatch. -/
structure Delivery where
  table : PinTable := {}
  signals : Signals := {}
  /-- How many slots the dispatch under way has looked at; `none` between two dispatches. -/
  polled : Option Nat := none
  deriving DecidableEq

/-- What happens to pins, between two moments at which the host can raise one. -/
inductive PinDeed where
  /-- The host raises a pin. -/
  | raise (pin : UInt8)
  /-- A dispatch begins to look at the slots: no timer was due, and pins are served. -/
  | begin
  /-- It takes the signal of the next slot over. -/
  | poll
  /-- It takes the action of a pin, and ends. -/
  | serve (pin : UInt8)
  /-- It finds no pin to serve, and ends. -/
  | pass
  /-- A statement watches a pin, for the first time or anew. -/
  | watch (pin : UInt8) (response : Response)
  /-- A statement stops watching a pin. -/
  | forget (pin : UInt8)
  /-- The program starts anew, and watches no pin. -/
  | clear
  /-- Pins are held from now on, or served. -/
  | enable (enabled : Bool)
  deriving DecidableEq

/-- Whether a deed ends what is pending for a pin: it is served, watched anew or given up. -/
def PinDeed.settles (pin : UInt8) : PinDeed → Bool
  | serve other | watch other _ | forget other => other = pin
  | clear => true
  | raise _ | begin | poll | pass | enable _ => false

/-- How the program wants a pin answered after a deed, if it watches the pin then. -/
def PinDeed.answer (pin : UInt8) (before : Option Response) : PinDeed → Option Response
  | watch other response => if other = pin then some response else before
  | forget other => if other = pin then none else before
  | clear => none
  | raise _ | begin | poll | serve _ | pass | enable _ => before

/-- How often a pin was raised. -/
def PinDeed.raised (pin : UInt8) (deeds : List PinDeed) : Nat := deeds.count (.raise pin)

/-- How often the action of a pin was taken. -/
def PinDeed.served (pin : UInt8) (deeds : List PinDeed) : Nat := deeds.count (.serve pin)

namespace Delivery

/-- Takes the signal of a slot over. -/
def takeOver (delivery : Delivery) (place : Nat) (slot : PinSlot) : Delivery :=
  { table :=
      { delivery.table with
        slots := delivery.table.slots.modify place fun slot =>
          { slot with isActive := slot.isActive || delivery.signals.isRaised slot.pin } }
    signals := (delivery.signals.take slot.pin).2
    polled := some (place + 1) }

/-- Serves the next pin. While its subroutine runs no other pin is served. -/
def serveNext (delivery : Delivery) : Delivery :=
  let (response, table) := delivery.table.take
  { delivery with
    table := { table with isEnabled := table.isEnabled && !response.any Response.isCall }
    polled := none }

/-- The pins after a deed, if it can be done now. -/
def after? (delivery : Delivery) : PinDeed → Option Delivery
  | .raise pin => some { delivery with signals := delivery.signals.raise pin }
  | .begin =>
    if delivery.polled = none ∧ delivery.table.isEnabled ∧ delivery.table.slots ≠ [] then
      some { delivery with polled := some 0 }
    else none
  | .poll => do
    let place ← delivery.polled
    let slot ← delivery.table.slots[place]?
    return delivery.takeOver place slot
  | .serve pin =>
    if delivery.polled = some delivery.table.slots.length ∧
        delivery.table.nextSlot?.map (·.pin) = some pin then
      some delivery.serveNext
    else none
  | .pass =>
    if delivery.polled = some delivery.table.slots.length ∧ delivery.table.nextSlot? = none then
      some { delivery with polled := none }
    else none
  | .watch pin response =>
    if delivery.polled = none ∧ pin.toNat < 64 then
      (delivery.table.add? pin response).map fun table => { delivery with table }
    else none
  | .forget pin =>
    if delivery.polled = none then some { delivery with table := delivery.table.remove pin }
    else none
  | .clear => if delivery.polled = none then some { delivery with table := {} } else none
  | .enable enabled =>
    if delivery.polled = none then
      some { delivery with table := { delivery.table with isEnabled := enabled } }
    else none

/-- The pins after one deed after the other, if they can be done. -/
def run? (delivery : Delivery) (deeds : List PinDeed) : Option Delivery :=
  deeds.foldlM after? delivery

variable {delivery first middle last : Delivery} {deed : PinDeed} {deeds : List PinDeed}
  {pin : UInt8}

theorem run?_cons (delivery : Delivery) (deed : PinDeed) (deeds : List PinDeed) :
    delivery.run? (deed :: deeds) = (delivery.after? deed).bind (·.run? deeds) :=
  List.foldlM_cons

theorem run?_append (delivery : Delivery) (earlier later : List PinDeed) :
    delivery.run? (earlier ++ later) = (delivery.run? earlier).bind (·.run? later) :=
  List.foldlM_append

/-- Runs follow each other. -/
theorem exists_run?_trans {property : PinDeed → Prop}
    (one : ∃ deeds, (∀ deed ∈ deeds, property deed) ∧ first.run? deeds = some middle)
    (other : ∃ deeds, (∀ deed ∈ deeds, property deed) ∧ middle.run? deeds = some last) :
    ∃ deeds, (∀ deed ∈ deeds, property deed) ∧ first.run? deeds = some last := by
  obtain ⟨earlier, some_kind, reached⟩ := one
  obtain ⟨later, same_kind, ran⟩ := other
  refine ⟨earlier ++ later, fun deed among => ?_, ?_⟩
  · exact (List.mem_append.mp among).elim (some_kind deed) (same_kind deed)
  · rw [run?_append, reached]
    exact ran

/-- Looking at one slot after the other is looking at all of them. -/
theorem run?_polls (table : PinTable) (done rest : List PinSlot) (signals : Signals) :
    run? { table := { table with slots := done ++ rest }, signals, polled := some done.length }
        (List.replicate rest.length .poll) =
      some
        { table := { table with slots := done ++ (PinTable.pollSlots rest signals).1 }
          signals := (PinTable.pollSlots rest signals).2
          polled := some (done ++ (PinTable.pollSlots rest signals).1).length } := by
  induction rest generalizing done signals with
  | nil => simp [run?, PinTable.pollSlots]
  | cons slot rest ih =>
    have looks : after?
        { table := { table with slots := done ++ slot :: rest }, signals,
          polled := some done.length } .poll =
        some
          { table := { table with
              slots := (done ++ [{ slot with
                isActive := slot.isActive || signals.isRaised slot.pin }]) ++ rest }
            signals := (signals.take slot.pin).2
            polled := some (done ++ [{ slot with
                isActive := slot.isActive || signals.isRaised slot.pin }]).length } := by
      simp [after?, takeOver, PinTable.modify_middle]
    rw [List.length_cons, List.replicate_succ, run?_cons, looks, Option.bind_some, ih,
      PinTable.pollSlots_cons]
    simp only [List.append_assoc, List.cons_append, List.nil_append]

end Delivery

/-! ### What is pending -/

namespace Delivery

variable {delivery after first last : Delivery} {deed : PinDeed} {deeds : List PinDeed}
  {pin : UInt8}

/-- Whether a pin waits to be served: as a signal or in its slot. -/
def IsPending (delivery : Delivery) (pin : UInt8) : Prop :=
  delivery.signals.isRaised pin = true ∨
    ∃ slot ∈ delivery.table.slots, slot.pin = pin ∧ slot.isActive = true

/-- At how many places a pin waits. -/
def pending (delivery : Delivery) (pin : UInt8) : Nat :=
  PinTable.activeSlots delivery.table.slots pin + (delivery.signals.isRaised pin).toNat

theorem isPending_iff : delivery.IsPending pin ↔ 0 < delivery.pending pin := by
  have slots : 0 < PinTable.activeSlots delivery.table.slots pin ↔
      ∃ slot ∈ delivery.table.slots, slot.pin = pin ∧ slot.isActive = true := by
    simp only [PinTable.activeSlots, List.countP_pos_iff, Bool.and_eq_true, decide_eq_true_eq,
      and_comm]
  have signal : 0 < (delivery.signals.isRaised pin).toNat ↔
      delivery.signals.isRaised pin = true := by
    cases delivery.signals.isRaised pin <;> decide
  rw [IsPending, pending, ← slots, ← signal]
  omega

/-- Raising a pin adds one place at most, and leaves no place out. -/
theorem pending_raise (delivery : Delivery) (raised pin : UInt8) :
    pending { delivery with signals := delivery.signals.raise raised } pin ≤
        delivery.pending pin + (if raised = pin then 1 else 0) ∧
      delivery.pending pin ≤
        pending { delivery with signals := delivery.signals.raise raised } pin := by
  rw [pending, pending]
  by_cases own : raised = pin
  · subst own
    by_cases exists_pin : raised.toNat < 64
    · rw [Signals.isRaised_raise_self _ exists_pin]
      cases delivery.signals.isRaised raised <;> simp
    · rw [Signals.isRaised_raise_of_not_lt _ exists_pin]
      simp
  · rw [Signals.isRaised_raise_of_ne _ (Ne.symm own)]
    simp [own]

/-- Taking a signal over moves it to the slot of its pin. -/
theorem pending_takeOver {place : Nat} {slot : PinSlot}
    (found : delivery.table.slots[place]? = some slot) (pin : UInt8) :
    (delivery.takeOver place slot).pending pin ≤ delivery.pending pin ∧
      (0 < delivery.pending pin → 0 < (delivery.takeOver place slot).pending pin) := by
  obtain ⟨before, behind, same, modified⟩ := PinTable.exists_modify found
  rw [pending, pending, takeOver, modified, same, PinTable.activeSlots_middle,
    PinTable.activeSlots_middle]
  by_cases own : pin = slot.pin
  · subst own
    rw [Signals.isRaised_take_self]
    cases slot.isActive <;> cases delivery.signals.isRaised slot.pin <;> simp
  · rw [Signals.isRaised_take_of_ne _ own]
    simp [Ne.symm own]

/-- Serving a pin empties its slot and no other one. -/
theorem pending_serveNext {served : UInt8}
    (next : delivery.table.nextSlot?.map (·.pin) = some served) (pin : UInt8) :
    delivery.serveNext.pending pin + (if served = pin then 1 else 0) = delivery.pending pin := by
  obtain ⟨slot, found, rfl⟩ := Option.map_eq_some_iff.mp next
  obtain ⟨before, behind, start, same, active, taken⟩ := PinTable.take_of_nextSlot? found
  rw [pending, pending, serveNext, taken]
  dsimp only
  rw [same, PinTable.activeSlots_middle, PinTable.activeSlots_middle, active]
  simp
  omega

/-- **What one step does to what is pending**: what it serves was pending, nothing gets pending but
by being raised, and what is pending stays so unless the step settles it. -/
theorem pending_after? (does : delivery.after? deed = some after) (pin : UInt8) :
    (if deed = .serve pin then 1 else 0) + after.pending pin ≤
        (if deed = .raise pin then 1 else 0) + delivery.pending pin ∧
      (deed.settles pin = false → 0 < delivery.pending pin → 0 < after.pending pin) := by
  cases deed with
  | raise raised =>
    cases does
    obtain ⟨most, least⟩ := pending_raise delivery raised pin
    simp only [PinDeed.raise.injEq, reduceCtorEq, if_false]
    exact ⟨by omega, fun _ waits => by omega⟩
  | poll =>
    obtain ⟨place, -, slots⟩ := Option.bind_eq_some_iff.mp does
    obtain ⟨slot, found, same⟩ := Option.bind_eq_some_iff.mp slots
    cases same
    obtain ⟨most, least⟩ := pending_takeOver found pin
    simp only [reduceCtorEq, if_false]
    exact ⟨by omega, fun _ => least⟩
  | serve served =>
    obtain ⟨⟨-, next⟩, same⟩ := Option.ite_none_right_eq_some.mp does
    cases same
    have served_one := pending_serveNext next pin
    simp only [PinDeed.serve.injEq, reduceCtorEq, if_false, PinDeed.settles,
      decide_eq_false_iff_not]
    refine ⟨by omega, fun other waits => ?_⟩
    rw [if_neg other] at served_one
    omega
  | watch watched response =>
    obtain ⟨-, added⟩ := Option.ite_none_right_eq_some.mp does
    obtain ⟨table, adds, rfl⟩ := Option.map_eq_some_iff.mp added
    have most := PinTable.activeSlots_remove_le delivery.table watched pin
    have same := PinTable.activeSlots_add? adds pin
    simp only [reduceCtorEq, if_false, PinDeed.settles, decide_eq_false_iff_not, pending]
    refine ⟨by omega, fun other waits => ?_⟩
    rw [same, PinTable.activeSlots_remove_of_ne _ other]
    exact waits
  | forget removed =>
    obtain ⟨-, same⟩ := Option.ite_none_right_eq_some.mp does
    cases same
    have most := PinTable.activeSlots_remove_le delivery.table removed pin
    simp only [reduceCtorEq, if_false, PinDeed.settles, decide_eq_false_iff_not, pending]
    refine ⟨by omega, fun other waits => ?_⟩
    rw [PinTable.activeSlots_remove_of_ne _ other]
    exact waits
  | clear =>
    obtain ⟨-, same⟩ := Option.ite_none_right_eq_some.mp does
    cases same
    refine ⟨?_, fun keeps => by cases keeps⟩
    simp [pending, PinTable.activeSlots]
  | begin | pass | enable =>
    obtain ⟨-, same⟩ := Option.ite_none_right_eq_some.mp does
    cases same
    exact ⟨Nat.le_refl _, fun _ => id⟩

/-- **What a run serves was raised**, or pending at its beginning, and is not pending any more. -/
theorem served_add_pending_le (ran : first.run? deeds = some last) (pin : UInt8) :
    PinDeed.served pin deeds + last.pending pin ≤ PinDeed.raised pin deeds + first.pending pin := by
  induction deeds generalizing first with
  | nil =>
    cases ran
    exact Nat.le_refl _
  | cons deed deeds ih =>
    rw [run?_cons] at ran
    obtain ⟨middle, does, rest⟩ := Option.bind_eq_some_iff.mp ran
    have step := (pending_after? does pin).1
    have later := ih rest
    simp only [PinDeed.served, PinDeed.raised, List.count_cons, beq_iff_eq] at later ⊢
    omega

/-- What is pending stays so until it is settled. -/
theorem IsPending.run (pends : first.IsPending pin) (ran : first.run? deeds = some last)
    (unsettled : ∀ deed ∈ deeds, deed.settles pin = false) : last.IsPending pin := by
  induction deeds generalizing first with
  | nil =>
    cases ran
    exact pends
  | cons deed deeds ih =>
    rw [run?_cons] at ran
    obtain ⟨middle, does, rest⟩ := Option.bind_eq_some_iff.mp ran
    have step := (pending_after? does pin).2 (unsettled deed List.mem_cons_self)
    have kept : middle.IsPending pin := isPending_iff.mpr (step (isPending_iff.mp pends))
    exact ih kept rest fun deed among => unsettled deed (List.mem_cons_of_mem _ among)

/-! ### Watched pins -/

/-- Whether a pin has a slot. -/
def Watches (delivery : Delivery) (pin : UInt8) : Prop :=
  ∃ slot ∈ delivery.table.slots, slot.pin = pin

/-- Whether all watched pins exist. -/
def WatchesPins (delivery : Delivery) : Prop :=
  ∀ pin, delivery.Watches pin → pin.toNat < 64

/-- Whether pins that are watched have the responses that the program wants. -/
def AnswersAs (wanted : UInt8 → Option Response) (delivery : Delivery) : Prop :=
  ∀ slot ∈ delivery.table.slots, wanted slot.pin = some slot.response

/-- A slot in the midst of others may change without its pin and its response. -/
theorem exists_slot_middle {slots others before behind : List PinSlot} {slot other found : PinSlot}
    (same : slots = before ++ slot :: behind) (changed : others = before ++ other :: behind)
    (alike : other.pin = slot.pin ∧ other.response = slot.response) (among : found ∈ others) :
    ∃ old ∈ slots, old.pin = found.pin ∧ old.response = found.response := by
  rw [changed, List.mem_append, List.mem_cons] at among
  rw [same]
  rcases among with earlier | rfl | later
  · exact ⟨found, List.mem_append_left _ earlier, rfl, rfl⟩
  · exact ⟨slot, List.mem_append_right _ List.mem_cons_self, alike.1.symm, alike.2.symm⟩
  · exact ⟨found, List.mem_append_right _ (List.mem_cons_of_mem _ later), rfl, rfl⟩

/-- **A slot after a step** was one before, with its pin and its response, or it is the slot of a
pin that exists and is watched from now on. -/
theorem slots_after? (does : delivery.after? deed = some after) {slot : PinSlot}
    (among : slot ∈ after.table.slots) :
    ((∃ old ∈ delivery.table.slots, old.pin = slot.pin ∧ old.response = slot.response) ∧
        ∀ before, deed.answer slot.pin before = before) ∨
      slot.pin.toNat < 64 ∧ ∀ before, deed.answer slot.pin before = some slot.response := by
  cases deed with
  | raise raised =>
    cases does
    exact .inl ⟨⟨slot, among, rfl, rfl⟩, fun _ => rfl⟩
  | poll =>
    obtain ⟨place, -, slots⟩ := Option.bind_eq_some_iff.mp does
    obtain ⟨polled, found, same⟩ := Option.bind_eq_some_iff.mp slots
    cases same
    obtain ⟨before, behind, split, modified⟩ := PinTable.exists_modify found
    exact .inl ⟨exists_slot_middle split (modified _) ⟨rfl, rfl⟩ among, fun _ => rfl⟩
  | serve served =>
    obtain ⟨⟨-, next⟩, same⟩ := Option.ite_none_right_eq_some.mp does
    cases same
    obtain ⟨own, found, rfl⟩ := Option.map_eq_some_iff.mp next
    obtain ⟨before, behind, start, split, -, taken⟩ := PinTable.take_of_nextSlot? found
    have changed : delivery.serveNext.table.slots =
        before ++ { own with isActive := false } :: behind := by rw [serveNext, taken]
    exact .inl ⟨exists_slot_middle split changed ⟨rfl, rfl⟩ among, fun _ => rfl⟩
  | watch watched response =>
    obtain ⟨⟨-, exists_pin⟩, added⟩ := Option.ite_none_right_eq_some.mp does
    obtain ⟨table, adds, rfl⟩ := Option.map_eq_some_iff.mp added
    obtain ⟨-, same⟩ := Option.ite_none_right_eq_some.mp adds
    cases same
    rcases List.mem_append.mp among with old | new
    · obtain ⟨kept, other⟩ := List.mem_filter.mp old
      have differs : watched ≠ slot.pin := Ne.symm (of_decide_eq_true other)
      exact .inl ⟨⟨slot, kept, rfl, rfl⟩, fun _ => if_neg differs⟩
    · cases List.mem_singleton.mp new
      exact .inr ⟨exists_pin, fun _ => if_pos rfl⟩
  | forget removed =>
    obtain ⟨-, same⟩ := Option.ite_none_right_eq_some.mp does
    cases same
    obtain ⟨kept, other⟩ := List.mem_filter.mp among
    have differs : removed ≠ slot.pin := Ne.symm (of_decide_eq_true other)
    exact .inl ⟨⟨slot, kept, rfl, rfl⟩, fun _ => if_neg differs⟩
  | clear =>
    obtain ⟨-, same⟩ := Option.ite_none_right_eq_some.mp does
    cases same
    cases among
  | begin | pass | enable =>
    obtain ⟨-, same⟩ := Option.ite_none_right_eq_some.mp does
    cases same
    exact .inl ⟨⟨slot, among, rfl, rfl⟩, fun _ => rfl⟩

/-- All pins that a run leaves watched exist. -/
theorem WatchesPins.run (sound : first.WatchesPins) (ran : first.run? deeds = some last) :
    last.WatchesPins := by
  induction deeds generalizing first with
  | nil =>
    cases ran
    exact sound
  | cons deed deeds ih =>
    rw [run?_cons] at ran
    obtain ⟨middle, does, rest⟩ := Option.bind_eq_some_iff.mp ran
    refine ih ?_ rest
    rintro pin ⟨slot, among, rfl⟩
    rcases slots_after? does among with ⟨⟨old, there, pin, -⟩, -⟩ | ⟨exists_pin, -⟩
    · exact sound _ ⟨old, there, pin⟩
    · exact exists_pin

/-- Watched pins keep the responses that they were watched with last. -/
theorem AnswersAs.run {wanted : UInt8 → Option Response} (answers : first.AnswersAs wanted)
    (ran : first.run? deeds = some last) :
    last.AnswersAs fun pin => deeds.foldl (PinDeed.answer pin) (wanted pin) := by
  induction deeds generalizing first wanted with
  | nil =>
    cases ran
    exact answers
  | cons deed deeds ih =>
    rw [run?_cons] at ran
    obtain ⟨middle, does, rest⟩ := Option.bind_eq_some_iff.mp ran
    have step : middle.AnswersAs fun pin => deed.answer pin (wanted pin) := by
      intro slot among
      rcases slots_after? does among with ⟨⟨old, there, pin, response⟩, same⟩ | ⟨-, same⟩
      · refine (same _).trans ?_
        rw [← pin, ← response]
        exact answers old there
      · exact same _
    exact ih step rest

/-- **Who serves a pin gets its response**: it is handed out from the slot of the pin, and it is the
one that the pin was watched with last. -/
theorem serves_as_watched {wanted : UInt8 → Option Response} {earlier later : List PinDeed}
    (answers : first.AnswersAs wanted)
    (ran : first.run? (earlier ++ .serve pin :: later) = some last) :
    ∃ middle response, first.run? earlier = some middle ∧
      middle.table.take.1 = some response ∧
      earlier.foldl (PinDeed.answer pin) (wanted pin) = some response := by
  rw [run?_append] at ran
  obtain ⟨middle, reached, ran⟩ := Option.bind_eq_some_iff.mp ran
  rw [run?_cons] at ran
  obtain ⟨_, does, -⟩ := Option.bind_eq_some_iff.mp ran
  obtain ⟨⟨-, next⟩, -⟩ := Option.ite_none_right_eq_some.mp does
  obtain ⟨slot, found, rfl⟩ := Option.map_eq_some_iff.mp next
  obtain ⟨before, behind, start, split, -, taken⟩ := PinTable.take_of_nextSlot? found
  refine ⟨middle, slot.response, reached, congrArg Prod.fst taken, ?_⟩
  refine answers.run reached slot ?_
  rw [split]
  exact List.mem_append_right _ List.mem_cons_self

/-! ### Delivery -/

/-- **Pins are neither lost nor served twice.** However the host raises pins between the steps of
dispatches, and whatever the program watches: the action of a pin is taken no more often than the
pin is raised, if it was not pending at the beginning; and a watched pin that is raised is pending
from then on until its action is taken, unless it is given up or watched anew. -/
theorem pins_are_neither_lost_nor_served_twice (pin : UInt8) (sound : first.WatchesPins)
    (ran : first.run? deeds = some last) :
    (¬ first.IsPending pin → PinDeed.served pin deeds ≤ PinDeed.raised pin deeds) ∧
      ∀ earlier later middle, deeds = earlier ++ .raise pin :: later →
        first.run? earlier = some middle → middle.Watches pin →
          (∀ deed ∈ later, deed.settles pin = false) → last.IsPending pin := by
  constructor
  · intro calm
    have none_pending : first.pending pin = 0 := by
      by_contra some_pending
      exact calm (isPending_iff.mpr (Nat.pos_of_ne_zero some_pending))
    have balance := served_add_pending_le ran pin
    omega
  · rintro earlier later middle rfl reached watches unsettled
    rw [run?_append, reached, Option.bind_some, run?_cons] at ran
    have exists_pin : pin.toNat < 64 := sound.run reached pin watches
    have raised : IsPending { middle with signals := middle.signals.raise pin } pin :=
      .inl (Signals.isRaised_raise_self _ exists_pin)
    exact raised.run ran unsettled

/-- A pin is raised and served, and raised again when the next dispatch has looked at its slot. -/
theorem pin_raised_amid_dispatch_is_pending :
    ∃ last, run? {} [.watch 3 (.gosub ⟨100⟩), .raise 3, .begin, .poll, .serve 3, .enable true,
        .begin, .poll, .raise 3, .pass] = some last ∧ last.IsPending 3 ∧
      PinDeed.served 3 [.watch 3 (.gosub ⟨100⟩), .raise 3, .begin, .poll, .serve 3, .enable true,
        .begin, .poll, .raise 3, .pass] ≤ 2 := by
  have sound : WatchesPins {} := by
    rintro pin ⟨slot, among, -⟩
    cases among
  have calm : ¬ IsPending {} 3 := by
    rw [isPending_iff]
    decide
  obtain ⟨last, ran⟩ : ∃ last, run? {} [.watch 3 (.gosub ⟨100⟩), .raise 3, .begin, .poll, .serve 3,
      .enable true, .begin, .poll, .raise 3, .pass] = some last := ⟨_, rfl⟩
  obtain ⟨most, keeps⟩ := pins_are_neither_lost_nor_served_twice 3 sound ran
  refine ⟨last, ran, ?_, most calm⟩
  refine keeps [.watch 3 (.gosub ⟨100⟩), .raise 3, .begin, .poll, .serve 3, .enable true, .begin,
    .poll] [.pass] _ rfl rfl ⟨_, List.mem_cons_self, rfl⟩ ?_
  decide

end Delivery

end PocketBasic
