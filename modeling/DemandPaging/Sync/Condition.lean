import DemandPaging.Sync.SleepLock

/-!
# Conditions

A thread that holds a lock can sleep on a condition: it gives the lock up, waits to be woken, and
takes the lock again. It queues before it gives the lock up, so whoever has the lock next cannot
wake in vain. Only the holder of the lock may sleep or wake.
-/

namespace DemandPaging

/-- The threads that sleep until something changes. -/
structure Condition where
  queue : TicketQueue := {}
deriving DecidableEq

/-- Where a thread is inside a call that sleeps on a condition. -/
inductive Sleeping where
  /-- it has yet to queue -/
  | entering
  /-- it has queued, but still holds the lock -/
  | leaving (ticket : Ticket)
  /-- it sleeps until its ticket is woken -/
  | asleep (ticket : Ticket)
  /-- it takes the lock again -/
  | returning (phase : Acquiring)
deriving DecidableEq

namespace Condition

/-- How many threads sleep. -/
def sleepers (c : Condition) : Nat := c.queue.length

/-- Does something that only the holder of the lock may do. -/
def whileHolding {α : Type} (lock : SleepLock) (thread : ThreadId) (act : Except Halt α) :
    Except Halt α :=
  if lock.isHeldBy thread then act else .error .conditionUnlocked

/-- The next step of a call that sleeps: the phase after it, or nothing when the call is over. A
sleeping thread takes no step until it is woken. -/
def sleep (c : Condition) (lock : SleepLock) (thread : ThreadId) :
    Sleeping → Option (Except Halt (Option Sleeping × Condition × SleepLock))
  | .entering => some (whileHolding lock thread do
      let (ticket, queue) ← c.queue.push thread
      .ok (some (.leaving ticket), ⟨queue⟩, lock))
  | .leaving ticket => some do
      let lock ← lock.release thread
      .ok (some (.asleep ticket), c, lock)
  | .asleep ticket =>
      if c.queue.isWoken ticket then some (.ok (some (.returning .asking), c, lock)) else none
  | .returning phase =>
      (lock.acquire thread phase).map fun result => result.map fun (phase, lock) =>
        (phase.map .returning, c, lock)

/-- Wakes the thread that has slept longest. Answers whether there was one. -/
def wake (c : Condition) (lock : SleepLock) (thread : ThreadId) : Except Halt (Bool × Condition) :=
  whileHolding lock thread (.ok (c.queue.wakeOne.map id Condition.mk))

/-- Wakes every sleeping thread. Answers how many there were. -/
def wakeAll (c : Condition) (lock : SleepLock) (thread : ThreadId) :
    Except Halt (Nat × Condition) :=
  whileHolding lock thread (.ok (c.queue.wakeAll.map id Condition.mk))

end Condition

end DemandPaging
