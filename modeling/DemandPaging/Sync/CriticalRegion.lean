import DemandPaging.Sync.Interrupts

/-!
# The critical region

The region is entered by disabling interrupts, which keeps other threads out. Unlike disabling, it
does not nest: the thread that is inside cannot enter it again.
-/

namespace DemandPaging

/-- The region that only one thread is inside of, with the interrupts that guard it. -/
structure CriticalRegion where
  interrupts : Interrupts := {}
  /-- a thread is inside -/
  occupied : Bool := false
deriving DecidableEq

namespace CriticalRegion

/-- Enters the region. A thread has to wait while interrupts belong to another one; when the region
is occupied even so, the disabling is taken back. -/
def enter (r : CriticalRegion) (thread : ThreadId) : Option (Except Halt Unit × CriticalRegion) :=
  (r.interrupts.disable thread).map fun interrupts =>
    if ¬ r.occupied then (.ok (), ⟨interrupts, true⟩)
    -- someone is inside, so the disabling goes back
    else match interrupts.enable thread with
      | .ok interrupts => (.error .regionReentered, ⟨interrupts, true⟩)
      | .error halt => (.error halt, ⟨interrupts, true⟩)

/-- Leaves the region. It is empty afterwards even when interrupts turn out not to be the
thread's. -/
def leave (r : CriticalRegion) (thread : ThreadId) : Except Halt Unit × CriticalRegion :=
  match r.interrupts.enable thread with
  | .ok interrupts => (.ok (), ⟨interrupts, false⟩)
  | .error halt => (.error halt, { r with occupied := false })

end CriticalRegion

end DemandPaging
