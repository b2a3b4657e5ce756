import DemandPaging.Kernel.SlotWait
import DemandPaging.Paging.Fault

/-!
# Handling a miss, step by step

The tables are locked from the miss to its end, or to the point where the thread has to sleep for a
swap slot; after the sleep they are locked again. When the mapping is loaded and the tables are
unlocked, the sleepers that can use a freed slot are woken.
-/

namespace DemandPaging

/-- What is left of a miss after a locked step. -/
def Faulting.after (page : Nat) : Paging.MissResult → Option Faulting
  | .loaded 0 => none
  | .loaded (wakeUps + 1) => some (.notifying wakeUps .checking)
  | .needsSlot victim => some (.waiting page victim .counting)

/-- What is left of a miss when one sleeper has been woken. -/
def Faulting.afterNotice : Nat → Option Faulting
  | 0 => none
  | left + 1 => some (.notifying left .checking)

namespace Kernel

variable {σ : Type} [Extent σ]

/-- The next step of a thread that handles a miss of its process: the phase after it, nothing when
the miss is handled, or the error that ended it. -/
def faultStep (k : Kernel σ) (thread : ThreadId) (process : UserProcess) :
    Faulting → Option (Except Halt (Except PagingError (Option Faulting) × Kernel σ))
  | .missing address =>
      let page := Address.page k.config.pageSize address
      (k.locked thread (Paging.handleMiss process address)).map fun result =>
        result.map fun (result, k) => (result.map (Faulting.after page), k)
  | .resuming page victim =>
      (k.locked thread (Paging.resumeFault process page victim)).map fun result =>
        result.map fun (result, k) => (result.map (Faulting.after page), k)
  | .waiting page victim phase =>
      (k.waitStep thread phase).map fun result => result.map fun (phase, k) =>
        (.ok (some (phase.elim (.resuming page victim) (.waiting page victim))), k)
  | .notifying left phase =>
      (k.notifyStep thread false phase).map fun result => result.map fun (phase, k) =>
        (.ok (phase.elim (Faulting.afterNotice left) (some ∘ .notifying left)), k)

end Kernel

end DemandPaging
