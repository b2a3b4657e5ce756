import DemandPaging.Sync.TicketQueue

/-!
# Locks that put threads to sleep

A thread that finds the lock taken queues for it and sleeps. Whoever gives the lock back hands it to
the thread that has waited longest, so that a woken thread never has to race for it, and a thread
that only tries never overtakes one that waits.

A call that may sleep is cut into steps, with other threads' steps in between. Its phase says where
the thread is inside the call.
-/

namespace DemandPaging

/-- A lock, and the threads that wait for it. -/
structure SleepLock where
  holder : Option ThreadId := none
  queue : TicketQueue := {}
deriving DecidableEq

/-- Where a thread is inside a call that takes a lock. -/
inductive Acquiring where
  /-- it has yet to ask -/
  | asking
  /-- it has queued, and has the lock as soon as its ticket is woken -/
  | queued (ticket : Ticket)
deriving DecidableEq

namespace SleepLock

/-- Whether a thread holds the lock. -/
def isHeldBy (l : SleepLock) (thread : ThreadId) : Bool := l.holder = some thread

/-- Whether any thread holds the lock. -/
def isLocked (l : SleepLock) : Bool := l.holder.isSome

/-- How many threads wait. -/
def waiters (l : SleepLock) : Nat := l.queue.length

/-- The lock in words, with a name for each thread. -/
def describe (l : SleepLock) (name : ThreadId → String) : String :=
  let holder := match l.holder with
    | some thread => s!"Some({name thread})"
    | none => "None"
  s!"SleepLock \x7b holder: {holder}, waiters: {l.waiters} \x7d"

/-- A thread asks for the lock. Either it has the lock, or it stands in the queue, in the phase
given. -/
def ask (l : SleepLock) (thread : ThreadId) : Except Halt (Option Acquiring × SleepLock) :=
  if l.isHeldBy thread then .error .lockHeld
  else match l.holder with
    | none => .ok (none, { l with holder := some thread })
    | some _ => do
        let (ticket, queue) ← l.queue.push thread
        .ok (some (.queued ticket), { l with queue })

/-- A thread whose ticket was woken goes on. It was made the holder before it was woken. -/
def resume (l : SleepLock) (thread : ThreadId) : Except Halt (Option Acquiring × SleepLock) :=
  if l.isHeldBy thread then .ok (none, l) else .error .lockNotGranted

/-- The next step of a call that takes the lock: the phase after it, or nothing when the call is
over. A thread in the queue takes no step until it is woken. -/
def acquire (l : SleepLock) (thread : ThreadId) :
    Acquiring → Option (Except Halt (Option Acquiring × SleepLock))
  | .asking => some (l.ask thread)
  | .queued ticket => if l.queue.isWoken ticket then some (l.resume thread) else none

/-- Gives the lock to the thread that has waited longest, or to nobody. -/
def handOver (l : SleepLock) : SleepLock :=
  match l.queue.pop with
  | (some w, queue) => { holder := some w.thread, queue := queue.wake w }
  | (none, queue) => { holder := none, queue }

/-- The holder gives the lock back. -/
def release (l : SleepLock) (thread : ThreadId) : Except Halt SleepLock :=
  if l.isHeldBy thread then .ok l.handOver else .error .lockNotHeld

/-- Takes the lock if nobody has it. Answers whether it did. -/
def tryAcquire (l : SleepLock) (thread : ThreadId) : Bool × SleepLock :=
  if l.isLocked then (false, l) else (true, { l with holder := some thread })

end SleepLock

end DemandPaging
