import DemandPaging.Kernel.State

/-!
# Waiting for a swap slot

A thread that needs a swap slot gives up the processor and sleeps until one is free; whoever frees a
slot wakes one such thread, and whoever ends a process wakes all of them. Each step gives the phase
after it, or nothing when it was the last; a thread that is blocked has no step.
-/

namespace DemandPaging.Kernel

variable {σ : Type}

/-- The next step of a thread that takes the processor: the phase after it, or `whenTaken`. -/
def takeCpu {α : Type} (k : Kernel σ) (thread : ThreadId) (phase : Acquiring)
    (during : Acquiring → α) (whenTaken : α) : Option (Except Halt (α × Kernel σ)) :=
  (k.cpu.acquire thread phase).map fun result => result.map fun (phase, cpu) =>
    (phase.elim whenTaken during, { k with cpu })

/-- The next step of a thread that takes the swap lock: the phase after it, or `whenTaken`. -/
def takeSwapLock {α : Type} (k : Kernel σ) (thread : ThreadId) (phase : Acquiring)
    (during : Acquiring → α) (whenTaken : α) : Option (Except Halt (α × Kernel σ)) :=
  (k.swapLock.acquire thread phase).map fun result => result.map fun (phase, swapLock) =>
    (phase.elim whenTaken during, { k with swapLock })

/-- A thread gives the processor up. -/
def leaveCpu (k : Kernel σ) (thread : ThreadId) : Except Halt (Kernel σ) :=
  (k.cpu.release thread).map fun cpu => { k with cpu }

/-- A thread gives the swap lock back. -/
def leaveSwapLock (k : Kernel σ) (thread : ThreadId) : Except Halt (Kernel σ) :=
  (k.swapLock.release thread).map fun swapLock => { k with swapLock }

/-- The next step of a thread that waits for a swap slot. It is counted before it takes the swap
lock, and holds that lock before it gives the processor up, so whoever frees a slot from then on
sees it and finds it asleep. -/
def waitStep (k : Kernel σ) (thread : ThreadId) :
    Waiting → Option (Except Halt (Option Waiting × Kernel σ))
  | .counting => some (.ok (some (.locking .asking), { k with waiting := k.waiting + 1 }))
  | .locking phase => k.takeSwapLock thread phase (some ∘ .locking) (some .leaving)
  | .leaving => some ((k.leaveCpu thread).map fun k => (some (.sleeping .entering), k))
  | .sleeping phase => (k.slotFreed.sleep k.swapLock thread phase).map fun result =>
      result.map fun (phase, slotFreed, swapLock) =>
        (phase.elim (some .unlocking) (some ∘ .sleeping), { k with slotFreed, swapLock })
  | .unlocking => some ((k.leaveSwapLock thread).map fun k => (some .uncounting, k))
  | .uncounting => some (.ok (some (.returning .asking), { k with waiting := k.waiting - 1 }))
  | .returning phase => k.takeCpu thread phase (some ∘ .returning) (some .flushing)
  | .flushing => some (.ok (none, k.flush))

/-- Wakes one thread that sleeps for a swap slot, or all of them. -/
def wakeSleepers (k : Kernel σ) (thread : ThreadId) (everyone : Bool) : Except Halt (Kernel σ) :=
  if everyone then
    (k.slotFreed.wakeAll k.swapLock thread).map fun (_, slotFreed) => { k with slotFreed }
  else (k.slotFreed.wake k.swapLock thread).map fun (_, slotFreed) => { k with slotFreed }

/-- The next step of a thread that wakes one sleeper, or everyone. When nobody is counted as waiting
there is nothing to do. -/
def notifyStep (k : Kernel σ) (thread : ThreadId) (everyone : Bool) :
    Notifying → Option (Except Halt (Option Notifying × Kernel σ))
  | .checking => some (.ok (if k.waiting = 0 then none else some (.locking .asking), k))
  | .locking phase => k.takeSwapLock thread phase (some ∘ .locking) (some .waking)
  | .waking => some ((k.wakeSleepers thread everyone).map fun k => (some .unlocking, k))
  | .unlocking => some ((k.leaveSwapLock thread).map fun k => (none, k))

end DemandPaging.Kernel
