import DemandPaging.Kernel.Request
import DemandPaging.Sync.Condition
import DemandPaging.PagingError

/-!
# Phases of a thread

Threads share the processor and the tables, so what a thread does is cut into steps, with steps of
other threads in between. Its phase says where it is. Everything that happens while the tables are
locked is a single step.
-/

namespace DemandPaging

/-- Where a thread is while it waits for a free swap slot. -/
inductive Waiting where
  /-- it is about to be counted among those who wait -/
  | counting
  /-- it takes the swap lock -/
  | locking (phase : Acquiring)
  /-- it is about to give the processor up -/
  | leaving
  /-- it sleeps -/
  | sleeping (phase : Sleeping)
  /-- it is about to give the swap lock back -/
  | unlocking
  /-- it is about to be no longer counted -/
  | uncounting
  /-- it takes the processor again -/
  | returning (phase : Acquiring)
  /-- it is about to empty the mapping cache, which others have used -/
  | flushing
deriving DecidableEq

/-- Where a thread is while it wakes those who wait for a free swap slot. -/
inductive Notifying where
  /-- it is about to see whether anyone waits -/
  | checking
  /-- it takes the swap lock -/
  | locking (phase : Acquiring)
  /-- it is about to wake -/
  | waking
  /-- it is about to give the swap lock back -/
  | unlocking
deriving DecidableEq

/-- Where a thread is while it handles a miss. -/
inductive Faulting where
  /-- it has yet to see what is missing -/
  | missing (address : Nat)
  /-- it waits for a swap slot, for its pinned victim -/
  | waiting (page victim : Nat) (phase : Waiting)
  /-- it goes on after the wait -/
  | resuming (page victim : Nat)
  /-- the page is there; it wakes one waiting thread now and `left` more afterwards -/
  | notifying (left : Nat) (phase : Notifying)
deriving DecidableEq

/-- Where a thread is inside a request. -/
inductive Stage where
  /-- nothing is done yet -/
  | begun
  /-- the processor is about to make the access -/
  | accessing
  /-- a miss is handled -/
  | faulting (phase : Faulting)
  /-- the next page of a copy is about to be pinned -/
  | pinning
  /-- bytes are about to be moved from or to a pinned frame -/
  | moving (frame : Nat)
  /-- the frame is about to be unpinned -/
  | unpinning (frame : Nat)
  /-- the process is about to be ended by an error -/
  | killing (cause : PagingError)
  /-- the process has ended, by an error or by its own will, and the waiting threads are woken -/
  | mourning (cause : Option PagingError) (phase : Notifying)
  /-- the processor is about to be given up -/
  | yielding
  /-- the processor is taken again -/
  | returning (phase : Acquiring)
  /-- the mapping cache is about to be emptied -/
  | flushing
  /-- the thread is about to end and saves what the mapping cache knows -/
  | parting
  /-- the processor is about to be given up for good -/
  | leaving (failure : Option PagingError)
deriving DecidableEq

/-- A request and how far it came. -/
structure Call where
  request : Request
  stage : Stage := .begun
  /-- the bytes that a copy has moved so far -/
  moved : List UInt8 := []
deriving DecidableEq

/-- Where a thread is. -/
inductive Phase where
  /-- it takes the processor for the first time -/
  | starting (phase : Acquiring)
  /-- it has the processor and is about to empty the mapping cache -/
  | entering
  /-- it has the processor and nothing to do -/
  | ready
  /-- it is inside a request -/
  | busy (call : Call)
  /-- it has ended -/
  | ended
deriving DecidableEq

/-- A thread that runs a process. -/
structure Session where
  /-- the process, by its place among all processes -/
  process : Nat
  phase : Phase := .starting .asking
deriving DecidableEq

end DemandPaging
