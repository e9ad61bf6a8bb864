/-
**Interrupts wait until they are taken.** The host raises an interrupt at some of the yields of the
machine, and it waits among the signals until the machine looks. Whatever else the machine does with
its host, the interrupt waits afterwards exactly if it waited before or was raised at a yield
between.

* `Host.interruptsBetween`: whether the interrupt is raised at one of some yields;
* `Host.KeepsInterrupts`: a host later, if nobody took the interrupt meanwhile;
* `Host.Consulted`: the same of a host whose byte store was not written to;
* `Host.consulted_yield` and the others: what the machine does with its host.
-/

import Mathlib.Tactic.Common
import PocketBasic.Event.PinTable
import PocketBasic.Host.Basic

namespace PocketBasic.Host

variable {before middle after : Host}

/-! ### Interrupts and yields -/

/-- Whether the interrupt is raised at a yield behind the `first` ones, up to the `last` one. -/
def interruptsBetween (host : Host) (first last : Nat) : Bool :=
  host.triggers.any fun trigger =>
    trigger.interrupts && first < trigger.yield && trigger.yield ≤ last

theorem interruptsBetween_self (host : Host) (yields : Nat) :
    host.interruptsBetween yields yields = false := by
  rw [interruptsBetween, List.any_eq_false]
  intro trigger _
  simp only [Bool.and_eq_true, decide_eq_true_eq, not_and]
  omega

theorem interruptsBetween_split (host : Host) {first middle last : Nat} (begins : first ≤ middle)
    (ends : middle ≤ last) :
    host.interruptsBetween first last =
      (host.interruptsBetween first middle || host.interruptsBetween middle last) := by
  rw [Bool.eq_iff_iff]
  simp only [interruptsBetween, Bool.or_eq_true, List.any_eq_true, Bool.and_eq_true,
    decide_eq_true_eq]
  constructor
  · rintro ⟨trigger, among, ⟨interrupts, after⟩, before⟩
    rcases Nat.lt_or_ge middle trigger.yield with late | early
    · exact .inr ⟨trigger, among, ⟨interrupts, late⟩, before⟩
    · exact .inl ⟨trigger, among, ⟨interrupts, after⟩, early⟩
  · rintro (⟨trigger, among, ⟨interrupts, after⟩, before⟩ |
      ⟨trigger, among, ⟨interrupts, after⟩, before⟩)
    · exact ⟨trigger, among, ⟨interrupts, after⟩, Nat.le_trans before ends⟩
    · exact ⟨trigger, among, ⟨interrupts, Nat.lt_of_le_of_lt begins after⟩, before⟩

/-- A host later, if nobody took the interrupt meanwhile: it waits if it did before or was raised at
a yield between. -/
structure KeepsInterrupts (before after : Host) : Prop where
  triggers : after.triggers = before.triggers
  yields : before.yields ≤ after.yields
  interrupted : after.signals.interrupted =
    (before.signals.interrupted || before.interruptsBetween before.yields after.yields)

namespace KeepsInterrupts

theorem of_same (triggers : after.triggers = before.triggers)
    (yields : after.yields = before.yields)
    (interrupted : after.signals.interrupted = before.signals.interrupted) :
    before.KeepsInterrupts after :=
  ⟨triggers, Nat.le_of_eq yields.symm,
    by rw [yields, interruptsBetween_self, Bool.or_false, interrupted]⟩

theorem refl (host : Host) : host.KeepsInterrupts host := .of_same rfl rfl rfl

theorem trans (first : before.KeepsInterrupts middle) (second : middle.KeepsInterrupts after) :
    before.KeepsInterrupts after where
  triggers := second.triggers.trans first.triggers
  yields := Nat.le_trans first.yields second.yields
  interrupted := by
    have same (least most : Nat) :
        middle.interruptsBetween least most = before.interruptsBetween least most := by
      rw [interruptsBetween, interruptsBetween, first.triggers]
    rw [second.interrupted, first.interrupted, same, Bool.or_assoc,
      interruptsBetween_split before first.yields second.yields]

end KeepsInterrupts

/-- A host that the machine has used, but for the interrupt and for writing to the byte store. -/
structure Consulted (before after : Host) : Prop extends before.KeepsInterrupts after where
  store : after.store = before.store

namespace Consulted

theorem refl (host : Host) : host.Consulted host := ⟨.refl host, rfl⟩

end Consulted

/-! ### What the machine does with its host -/

theorem consulted_onStream {α : Type} (host : Host) (channel : UInt8) (missing : α)
    (step : Stream → α × Stream) : host.Consulted (host.onStream channel missing step).2 :=
  ⟨.of_same rfl rfl rfl, rfl⟩

theorem consulted_onFiles {α : Type} (host : Host) (missing : α) (step : Files → α × Files) :
    host.Consulted (host.onFiles missing step).2 := by
  unfold onFiles
  split
  · exact ⟨.of_same rfl rfl rfl, rfl⟩
  · exact .refl host

theorem consulted_write (host : Host) (channel byte : UInt8) :
    host.Consulted (host.write channel byte).2 := by
  unfold write
  split
  · exact consulted_onFiles ..
  · exact consulted_onStream ..

theorem consulted_read (host : Host) (channel : UInt8) :
    host.Consulted (host.read channel).2 := by
  unfold read
  split
  · exact consulted_onFiles ..
  · exact consulted_onStream ..

/-- Taking raised pins over leaves the interrupt. -/
theorem keepsInterrupts_poll (host : Host) (table : PinTable) :
    host.KeepsInterrupts { host with signals := (table.poll host.signals).2 } := by
  have kept (slots : List PinSlot) (signals : Signals) :
      (PinTable.pollSlots slots signals).2.interrupted = signals.interrupted := by
    induction slots generalizing signals with
    | nil => rfl
    | cons slot rest ih => exact ih (signals.take slot.pin).2
  exact .of_same rfl rfl (kept table.slots host.signals)

/-- What a trigger leaves as it was, and that it raises the interrupt if it interrupts. -/
theorem fire_eq (host : Host) (trigger : Trigger) :
    (host.fire trigger).triggers = host.triggers ∧ (host.fire trigger).yields = host.yields ∧
      (host.fire trigger).store = host.store ∧
      (host.fire trigger).signals.interrupted =
        (host.signals.interrupted || trigger.interrupts) := by
  unfold fire feed onStream
  cases trigger.interrupts <;> cases trigger.pin <;> cases trigger.input <;>
    simp [Signals.interrupt, Signals.raise]

theorem foldl_fire_eq (triggers : List Trigger) (host : Host) :
    (triggers.foldl fire host).triggers = host.triggers ∧
      (triggers.foldl fire host).yields = host.yields ∧
      (triggers.foldl fire host).store = host.store ∧
      (triggers.foldl fire host).signals.interrupted =
        (host.signals.interrupted || triggers.any (·.interrupts)) := by
  induction triggers generalizing host with
  | nil => simp
  | cons trigger rest ih =>
    obtain ⟨planned, yields, store, interrupted⟩ := ih (host.fire trigger)
    obtain ⟨planned', yields', store', interrupted'⟩ := host.fire_eq trigger
    rw [List.foldl_cons, planned, yields, store, interrupted, planned', yields', store',
      interrupted', List.any_cons, Bool.or_assoc]
    exact ⟨rfl, rfl, rfl, rfl⟩

/-- **At a yield the interrupt is raised if it was planned for that one.** -/
theorem consulted_yield (host : Host) : host.Consulted host.yield := by
  obtain ⟨triggers, yields, store, interrupted⟩ := foldl_fire_eq
    (host.triggers.filter fun trigger => trigger.yield = host.yields + 1)
    { host with yields := host.yields + 1, millis := host.millis + host.tick }
  refine ⟨⟨triggers, ?_, ?_⟩, store⟩
  · exact Nat.le_of_lt (Nat.lt_of_lt_of_eq (Nat.lt_succ_self _) yields.symm)
  · have now : host.yield.yields = host.yields + 1 := yields
    rw [now]
    refine interrupted.trans ?_
    dsimp only
    congr 1
    rw [List.any_filter, interruptsBetween]
    congr 1
    funext trigger
    rw [Bool.eq_iff_iff]
    simp only [Bool.and_eq_true, decide_eq_true_eq]
    constructor
    · rintro ⟨same, interrupts⟩
      exact ⟨⟨interrupts, by omega⟩, by omega⟩
    · rintro ⟨⟨interrupts, behind⟩, reached⟩
      exact ⟨by omega, interrupts⟩

end PocketBasic.Host
