/-
**Stacks of bounded size.** A push onto a full stack and a pop from an empty one are errors of the
language; which error an underflow is belongs to the stack.

* `push`, `pop`, `popPair`, `popMany`: the steps that can fail;
* `unwindTo`: drops the newest entry of a kind and everything above it, and tells whether there
  was one.
-/

import PocketBasic.Attempt

namespace PocketBasic

/-- A stack of at most `capacity` entries, newest first. -/
structure BoundedStack (α : Type) where
  capacity : Nat
  /-- What an overflow error says besides its cause. -/
  overflowDetail : String
  underflow : ErrorKind
  entries : List α := []
  deriving DecidableEq, Inhabited

namespace BoundedStack

variable {α : Type}

def size (stack : BoundedStack α) : Nat := stack.entries.length

def isEmpty (stack : BoundedStack α) : Bool := stack.entries.isEmpty

def isFull (stack : BoundedStack α) : Bool := stack.capacity ≤ stack.size

def clear (stack : BoundedStack α) : BoundedStack α := { stack with entries := [] }

/-- The newest entry. -/
def top? (stack : BoundedStack α) : Option α := stack.entries.head?

/-- Puts another entry in the place of the newest one, if there is one. -/
def replaceTop (stack : BoundedStack α) (entry : α) : BoundedStack α :=
  match stack.entries with
  | [] => stack
  | _ :: older => { stack with entries := entry :: older }

/-- Whether there is an entry with a property, and the stack without the newest one and everything
above it. -/
def unwindTo (stack : BoundedStack α) (property : α → Bool) : Bool × BoundedStack α :=
  match stack.entries.dropWhile (fun entry => !property entry) with
  | [] => (false, stack)
  | _ :: older => (true, { stack with entries := older })

/-- Adds an entry. A full stack stays as it is. -/
def push (entry : α) : Attempt (BoundedStack α) Unit := do
  let stack ← get
  if stack.isFull then Attempt.failWith .stackOverflow stack.overflowDetail
  else set { stack with entries := entry :: stack.entries }

/-- Takes the newest entry off. -/
def pop : Attempt (BoundedStack α) α := do
  let stack ← get
  match stack.entries with
  | [] => Attempt.fail stack.underflow
  | entry :: older =>
    set { stack with entries := older }
    return entry

/-- Takes the two newest entries off one after the other: the older and the newer one. -/
def popPair : Attempt (BoundedStack α) (α × α) := do
  let newer ← pop
  let older ← pop
  return (older, newer)

/-- Takes the newest `count` entries off, oldest first, if there are as many. -/
def popMany (count : Nat) : Attempt (BoundedStack α) (List α) := do
  let stack ← get
  if stack.size < count then Attempt.fail stack.underflow
  else
    set { stack with entries := stack.entries.drop count }
    return (stack.entries.take count).reverse

end BoundedStack

end PocketBasic
