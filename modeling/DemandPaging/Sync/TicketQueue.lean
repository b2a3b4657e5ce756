import DemandPaging.Halt

/-!
# Queues of sleeping threads

A thread that has to wait stands in a queue and holds a ticket. It sleeps until its ticket is woken,
which may be before it begins to sleep, so that no wake is lost. Threads leave the queue in the
order they came. A thread that was taken out of the queue but not yet woken is a waiter in someone
else's hands.
-/

namespace DemandPaging

/-- The number of a thread. -/
abbrev ThreadId := Nat

/-- What a thread that queued holds; each one is given out once. -/
abbrev Ticket := Nat

/-- A thread in a queue. -/
structure Waiter where
  thread : ThreadId
  ticket : Ticket
deriving DecidableEq

/-- Threads that wait, and the tickets that have been woken. -/
structure TicketQueue where
  /-- who waits, the longest waiting first -/
  waiters : List Waiter := []
  /-- how many tickets have been given out -/
  issued : Nat := 0
  /-- the tickets whose threads may go on -/
  woken : List Ticket := []
deriving DecidableEq

namespace TicketQueue

/-- How many threads wait. -/
def length (q : TicketQueue) : Nat := q.waiters.length

/-- Whether a thread stands in the queue. -/
def contains (q : TicketQueue) (thread : ThreadId) : Bool := q.waiters.any (·.thread = thread)

/-- Whether the holder of a ticket may go on. -/
def isWoken (q : TicketQueue) (ticket : Ticket) : Bool := q.woken.contains ticket

/-- Puts a thread at the end and gives it a ticket. No thread stands in the queue twice. -/
def push (q : TicketQueue) (thread : ThreadId) : Except Halt (Ticket × TicketQueue) :=
  if q.contains thread then .error .alreadyQueued
  else .ok (q.issued, { q with
    waiters := q.waiters ++ [⟨thread, q.issued⟩]
    issued := q.issued + 1 })

/-- Takes out the thread that has waited longest, without waking it. -/
def pop (q : TicketQueue) : Option Waiter × TicketQueue :=
  (q.waiters.head?, { q with waiters := q.waiters.tail })

/-- Wakes a thread that was taken out. -/
def wake (q : TicketQueue) (w : Waiter) : TicketQueue := { q with woken := w.ticket :: q.woken }

/-- Takes out and wakes the thread that has waited longest. Answers whether there was one. -/
def wakeOne (q : TicketQueue) : Bool × TicketQueue :=
  match q.pop with
  | (some w, q) => (true, q.wake w)
  | (none, q) => (false, q)

/-- Takes out and wakes every thread. Answers how many there were. -/
def wakeAll (q : TicketQueue) : Nat × TicketQueue :=
  (q.length, q.waiters.foldl wake { q with waiters := [] })

end TicketQueue

end DemandPaging
