import DemandPaging.IoError
import DemandPaging.Text.Hex

/-!
# Errors of the memory manager

Every way a page can fail to be reached, with the numbers that belong to it, how far the error may
travel, and its two texts: the message for a reader and the diagnostic for a log.
-/

namespace DemandPaging

/-- The number of a process: 16 bits. -/
abbrev Pid := UInt16

/-- How far an error may travel. -/
inductive Reach where
  /-- it ends the faulting process -/
  | endsProcess
  /-- a broken assumption of the kernel; the machine is stopped -/
  | stopsMachine
  /-- handled by waiting until the resource is free again -/
  | waitsOut
  /-- handled by filling the page another way -/
  | worksAround
deriving DecidableEq

/-- Why a memory operation failed. -/
inductive PagingError where
  /-- a page table was asked for a page past the end of its address space -/
  | outOfRange (page numPages : Nat)
  /-- a user access outside the address space -/
  | segmentationFault (address : Nat)
  /-- a user write to a read-only page -/
  | readOnlyViolation (address : Nat)
  /-- every frame is pinned -/
  | noVictim
  /-- every swap slot is in use -/
  | swapExhausted
  /-- a swap slot belongs to another process, or to none -/
  | slotOwnerMismatch (slot : Nat) (expected : Pid) (found : Option Pid)
  /-- the frame table and a page table disagree on a frame -/
  | frameTableCorrupt (frame : Nat)
  /-- the free slots and the slots in use disagree -/
  | swapTableCorrupt (slot : Nat)
  /-- the process has no address space -/
  | noSuchProcess (pid : Pid)
  /-- the address space has more pages than a mapping can name -/
  | addressSpaceTooLarge (numPages : Nat)
  /-- an image laid out for another page size than the machine's -/
  | pageSizeMismatch (image machine : Nat)
  /-- the swap extent failed -/
  | swapIo (cause : IoError)
deriving DecidableEq

namespace PagingError

/-- How far the error may travel. -/
def reach : PagingError → Reach
  | outOfRange .. | segmentationFault _ | readOnlyViolation _ | noSuchProcess _
  | addressSpaceTooLarge _ | pageSizeMismatch .. => .endsProcess
  | noVictim | frameTableCorrupt _ | swapTableCorrupt _ | swapIo _ => .stopsMachine
  | swapExhausted => .waitsOut
  | slotOwnerMismatch .. => .worksAround

/-- The message for a reader. -/
def message : PagingError → String
  | outOfRange page numPages =>
      s!"virtual page {page} is outside a {numPages}-page address space"
  | segmentationFault address => s!"segmentation fault at {Text.hex address}"
  | readOnlyViolation address => s!"write to read-only page at {Text.hex address}"
  | noVictim => "every frame is pinned, nothing to evict"
  | swapExhausted => "no free swap slots"
  | slotOwnerMismatch slot expected (some owner) =>
      s!"swap slot {slot} belongs to process {owner}, not process {expected}"
  | slotOwnerMismatch slot expected none =>
      s!"swap slot {slot} has no owner, expected process {expected}"
  | frameTableCorrupt frame =>
      s!"inverted table entry for frame {frame} disagrees with its page table"
  | swapTableCorrupt slot => s!"swap slot {slot} is both free and in use, or neither"
  | noSuchProcess pid => s!"process {pid} has no address space"
  | addressSpaceTooLarge numPages => s!"an address space of {numPages} pages is too large"
  | pageSizeMismatch image machine =>
      s!"executable uses {image}-byte pages but the machine uses {machine}-byte pages"
  | swapIo cause => s!"swap I/O failed: {cause.message}"

/-- The kind of error, as the first word of its diagnostic. -/
def kindName : PagingError → String
  | outOfRange .. => "OutOfRange"
  | segmentationFault _ => "SegmentationFault"
  | readOnlyViolation _ => "ReadOnlyViolation"
  | noVictim => "NoVictimAvailable"
  | swapExhausted => "SwapExhausted"
  | slotOwnerMismatch .. => "SlotOwnerMismatch"
  | frameTableCorrupt _ => "FrameTableCorrupt"
  | swapTableCorrupt _ => "SwapTableCorrupt"
  | noSuchProcess _ => "NoSuchProcess"
  | addressSpaceTooLarge _ => "AddressSpaceTooLarge"
  | pageSizeMismatch .. => "PageSizeMismatch"
  | swapIo _ => "SwapIo"

/-- The numbers of an error as its diagnostic lists them; nothing where there are none. -/
def details : PagingError → Option String
  | outOfRange page numPages => some s!"vpn {page} of {numPages}"
  | segmentationFault address | readOnlyViolation address => some (Text.hex address)
  | noVictim | swapExhausted => none
  | slotOwnerMismatch slot expected (some owner) =>
      some s!"slot {slot}, expected {expected}, found Some({owner})"
  | slotOwnerMismatch slot expected none => some s!"slot {slot}, expected {expected}, found None"
  | frameTableCorrupt frame => some s!"frame {frame}"
  | swapTableCorrupt slot => some s!"slot {slot}"
  | noSuchProcess pid => some (toString pid)
  | addressSpaceTooLarge numPages => some s!"{numPages} pages"
  | pageSizeMismatch image machine => some s!"image {image}, machine {machine}"
  | swapIo cause => some cause.diagnostic

/-- The diagnostic for a log: the kind, then the details in brackets. -/
def diagnostic (e : PagingError) : String :=
  match e.details with
  | none => e.kindName
  | some text => s!"{e.kindName}({text})"

/-- The error underneath, where there is one. -/
def source : PagingError → Option IoError
  | swapIo cause => some cause
  | _ => none

end PagingError

end DemandPaging
