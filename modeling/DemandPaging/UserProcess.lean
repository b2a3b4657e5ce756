import DemandPaging.Image
import DemandPaging.PagingError

/-!
# Processes

A process is a number, the image it was made from, and an address space: the pages up to the end of
the last section and a stack of zeros after them.
-/

namespace DemandPaging

/-- A process. Its page table is kept with those of all others. -/
structure UserProcess where
  pid : Pid
  image : Image
  numPages : Nat
  /-- it ended, by its own will or by an error; it has no page table any more -/
  exited : Bool := false

namespace UserProcess

/-- The size of the address space of an image with a stack. It stops at the largest number that a
word can hold, far beyond what is allowed. -/
def addressSpace (image : Image) (stackPages : Nat) : Nat :=
  min (image.endPage + stackPages) (UInt64.size - 1)

end UserProcess

end DemandPaging
