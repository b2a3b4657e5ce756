import DemandPaging.Sync.TicketQueue

/-!
# Interrupts

The thread that disables interrupts keeps every other thread out until it has enabled them as often
as it disabled them.
-/

namespace DemandPaging

/-- Who has disabled interrupts, and how often. The machine has a word for the depth, which is the
same as long as no thread disables interrupts `2 ^ 64` times without enabling them. -/
structure Interrupts where
  owner : Option ThreadId := none
  depth : Nat := 0
deriving DecidableEq

namespace Interrupts

/-- Whether interrupts are disabled as a thread sees it: only by its own doing. -/
def areOff (i : Interrupts) (thread : ThreadId) : Bool := i.owner = some thread

/-- Disables interrupts once more. A thread has to wait while they belong to another one. -/
def disable (i : Interrupts) (thread : ThreadId) : Option Interrupts :=
  match i.owner with
  | none => some ⟨some thread, 1⟩
  | some owner => if owner = thread then some { i with depth := i.depth + 1 } else none

/-- Takes one disabling back. With the last one the interrupts belong to nobody. -/
def enable (i : Interrupts) (thread : ThreadId) : Except Halt Interrupts :=
  if i.areOff thread then
    .ok ⟨if i.depth = 1 then none else i.owner, i.depth - 1⟩
  else .error .interruptsNotHeld

end Interrupts

end DemandPaging
