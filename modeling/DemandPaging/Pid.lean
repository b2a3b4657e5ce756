import DemandPaging.Halt

/-!
# Process numbers

Processes are numbered from one by a 16-bit counter. Number zero means nobody, so it is refused
when the counter comes round to it.
-/

namespace DemandPaging

/-- The counter that hands out process numbers. -/
structure PidCounter where
  next : Pid
deriving DecidableEq

namespace PidCounter

/-- The counter before the first process. -/
def fresh : PidCounter := ⟨1⟩

/-- The next number, and the counter after it. The counter moves on even when zero is refused. -/
def allocate (a : PidCounter) : Except Halt Pid × PidCounter :=
  (if a.next = 0 then .error .pidsExhausted else .ok a.next, ⟨a.next + 1⟩)

end PidCounter

end DemandPaging
