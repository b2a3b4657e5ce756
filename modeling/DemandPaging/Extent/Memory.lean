import DemandPaging.Address
import DemandPaging.Extent
import DemandPaging.Extent.SparseBytes

/-!
# Extents in memory
-/

namespace DemandPaging

/-- An extent kept in memory. -/
structure MemoryExtent where
  bytes : SparseBytes

namespace MemoryExtent

/-- An extent of zeros, which is one block of memory. -/
def zeros (length : Nat) : Except Halt MemoryExtent :=
  (Address.refuseBlock length 1).map fun () => ⟨.zeros length⟩

def read (e : MemoryExtent) (offset count : Nat) : Except IoError (List UInt8) × MemoryExtent :=
  match Extent.refusePastEnd offset count e.bytes.length with
  | .error cause => (.error cause, e)
  | .ok () => (.ok (e.bytes.slice offset count), e)

def write (e : MemoryExtent) (offset : Nat) (data : List UInt8) :
    Except IoError Unit × MemoryExtent :=
  match Extent.refusePastEnd offset data.length e.bytes.length with
  | .error cause => (.error cause, e)
  | .ok () => (.ok (), ⟨e.bytes.put offset data⟩)

/-- Deleting leaves an extent of no bytes. -/
def remove (_ : MemoryExtent) : Except IoError Unit × MemoryExtent := (.ok (), ⟨.zeros 0⟩)

instance : Extent MemoryExtent where
  length e := e.bytes.length
  read := read
  write := write
  remove := remove

end MemoryExtent

end DemandPaging
