import DemandPaging.PagingError

/-!
# Halts

A halt is a broken assumption: the machine stops instead of going on with wrong tables. Unlike an
error it is never handled. An operation that returns `Except Halt` checks before it changes
anything, so the state before the call is the state after a halt; where a halt leaves something
behind, the operation gives the state as well.
-/

namespace DemandPaging

/-- The assumption that was broken. -/
inductive Halt where
  /-- an array was read or written past its end -/
  | indexOutOfBounds
  /-- an address was split by pages of no bytes -/
  | divisionByZero
  /-- a block of memory with more bytes than any block can have -/
  | blockTooLarge
  /-- a choice from an empty range -/
  | emptyRange
  /-- the process numbers have run out -/
  | pidsExhausted
  /-- a page number that a mapping cannot hold -/
  | pageTooWide (page : Nat)
  /-- a frame number that a mapping cannot hold -/
  | frameTooWide (frame : Nat)
  /-- a machine without frames -/
  | noFrames
  /-- a machine with more frames than a mapping can name -/
  | tooManyFrames
  /-- a frame on the free list that is marked as allocated -/
  | freeFrameAllocated (frame : Nat)
  /-- a page number that the frame table cannot hold -/
  | ownerTooWide (page : Nat)
  /-- a free frame was given an owner -/
  | occupyFree (frame : Nat)
  /-- a free frame was parted from its owner -/
  | vacateFree (frame : Nat)
  /-- a free frame was freed again -/
  | giveBackFree (frame : Nat)
  /-- an allocated frame was freed that is on the free list -/
  | alreadyListed
  /-- a free frame was pinned -/
  | pinFree (frame : Nat)
  /-- a frame was pinned more often than can be counted -/
  | tooManyPins (frame : Nat)
  /-- a pin was taken off a frame that has none -/
  | notPinned (frame : Nat)
  /-- a second page table for one process -/
  | tableExists (pid : Pid)
  /-- a mapping was loaded for a page that is not in memory -/
  | loadAbsent (page : Nat)
  /-- swap slots of no bytes -/
  | emptyPages
  /-- something other than a whole page was swapped out -/
  | partialPageOut
  /-- a page was swapped into something other than a whole frame -/
  | partialPageIn
  /-- a thread asked for a lock that it holds -/
  | lockHeld
  /-- a thread was woken to go on with a lock that it does not hold -/
  | lockNotGranted
  /-- a thread gave back a lock that it does not hold -/
  | lockNotHeld
  /-- a condition was used by a thread that does not hold its lock -/
  | conditionUnlocked
  /-- a thread queued twice -/
  | alreadyQueued
  /-- interrupts were enabled by a thread that had not disabled them -/
  | interruptsNotHeld
  /-- the critical region was entered while a thread was inside -/
  | regionReentered
  /-- an error that the kernel cannot survive -/
  | fatal (error : PagingError)
deriving DecidableEq

/-- What the machine says when it stops. -/
def Halt.message : Halt → String
  | indexOutOfBounds => "index out of bounds"
  | divisionByZero => "division by zero"
  | blockTooLarge => "capacity overflow"
  | emptyRange => "next_below called with an empty range"
  | pidsExhausted => "PID overflow"
  | pageTooWide page => s!"vpn {page} does not fit a translation entry"
  | frameTooWide frame => s!"ppn {frame} does not fit a translation entry"
  | noFrames => "a machine needs at least one frame"
  | tooManyFrames => "assertion failed: num_frames - 1 <= MAX_PAGE_NUMBER"
  | freeFrameAllocated frame => s!"free frame {frame} is marked allocated"
  | ownerTooWide page => s!"vpn {page} does not fit the inverted table"
  | occupyFree frame => s!"installing into free frame {frame}"
  | vacateFree frame => s!"detaching free frame {frame}"
  | giveBackFree frame => s!"releasing free frame {frame}"
  | alreadyListed => "assertion failed: !self.free_frames.contains(&frame)"
  | pinFree frame => s!"pinning free frame {frame}"
  | tooManyPins frame => s!"frame {frame} pinned too many times"
  | notPinned frame => s!"unpinning frame {frame} which is not pinned"
  | tableExists pid => s!"page table for pid {pid} already present"
  | loadAbsent page => s!"installing a translation for invalid page {page}"
  | emptyPages => "assertion failed: page_size > 0"
  | partialPageOut => "swap writes whole pages"
  | partialPageIn => "swap reads whole pages"
  | lockHeld => "thread T acquired a SleepLock it already holds"
  | lockNotGranted => "assertion `left == right` failed"
  | lockNotHeld => "SleepLock released by a thread that does not hold it"
  | conditionUnlocked => "condition variable used without holding its lock"
  | alreadyQueued => "thread T already in wait queue"
  | interruptsNotHeld => "interrupts enabled by a thread that did not disable them"
  | regionReentered => "InterruptLock re-entered while already held"
  | fatal error => s!"kernel fatal: {error.message}"

end DemandPaging
