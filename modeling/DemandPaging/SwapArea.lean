import DemandPaging.Extent
import DemandPaging.PageId

/-!
# Swap space

An extent cut into slots of one page each. Slot `i` takes the bytes from `i * pageSize`; a list
holds the free slots in the order in which they will be used, and two maps say which slot a page is
in and whose page is in a slot. Whether a slot is in use is recorded only here.
-/

namespace DemandPaging

/-- An extent cut into slots, and what is in them. -/
structure SwapArea (σ : Type) where
  extent : σ
  pageSize : Nat
  numSlots : Nat
  /-- the free slots, next to be used first -/
  free : List Nat
  /-- the slot of every page that is swapped out -/
  slots : Std.TreeMap PageId Nat
  /-- the process whose page is in a slot -/
  owners : Std.TreeMap Nat Pid

namespace SwapArea

variable {σ : Type} [Extent σ]

/-- How many bytes the list of free slots takes for each of them. -/
def slotNumberBytes : Nat := 8

/-- An area of whose slots none is in use. -/
def unused (extent : σ) (pageSize numSlots : Nat) : SwapArea σ :=
  { extent, pageSize, numSlots, free := List.range numSlots, slots := ∅, owners := ∅ }

/-- Cuts an extent into free slots. Their numbers are a block of memory. -/
def create (extent : σ) (pageSize : Nat) : Except Halt (SwapArea σ) :=
  if pageSize = 0 then .error .emptyPages
  else (Address.refuseBlock (Extent.length extent / pageSize) slotNumberBytes).map fun () =>
    unused extent pageSize (Extent.length extent / pageSize)

/-- The slot that a page is in. -/
def lookup (s : SwapArea σ) (id : PageId) : Option Nat := s.slots[id]?

/-- The process whose page is in a slot. -/
def owner (s : SwapArea σ) (slot : Nat) : Option Pid := s.owners[slot]?

/-- Puts a page into the next free slot. A page that already has a slot is a fault of the tables,
and a slot whose write fails stays the next to be used. -/
def store (s : SwapArea σ) (id : PageId) (data : List UInt8) :
    Except Halt (Except PagingError Nat × SwapArea σ) :=
  if data.length ≠ s.pageSize then .error .partialPageOut
  else match s.lookup id with
    | some slot => .ok (.error (.swapTableCorrupt slot), s)
    | none =>
        match s.free with
        | [] => .ok (.error .swapExhausted, s)
        | slot :: free =>
            match Extent.write s.extent (slot * s.pageSize) data with
            | (.error cause, extent) => .ok (.error (.swapIo cause), { s with extent })
            | (.ok (), extent) =>
                .ok (.ok slot, { s with
                  extent, free
                  slots := s.slots.insert id slot
                  owners := s.owners.insert slot id.pid })

/-- The slots without the one that a page is in, which becomes the last to be used. -/
def vacate (s : SwapArea σ) (id : PageId) (slot : Nat) : SwapArea σ :=
  { s with
    slots := s.slots.erase id
    owners := s.owners.erase slot
    free := s.free ++ [slot] }

/-- Takes a page out of its slot, for a frame of `frameSize` bytes. The slot has to be the one the
page is in; it is free afterwards. -/
def fetch (s : SwapArea σ) (id : PageId) (slot frameSize : Nat) :
    Except Halt (Except PagingError (List UInt8) × SwapArea σ) :=
  if frameSize ≠ s.pageSize then .error .partialPageIn
  else if s.owner slot = some id.pid ∧ s.lookup id = some slot then
    match Extent.read s.extent (slot * s.pageSize) s.pageSize with
    | (.error cause, extent) => .ok (.error (.swapIo cause), { s with extent })
    | (.ok data, extent) => .ok (.ok data, { s with extent }.vacate id slot)
  else .ok (.error (.slotOwnerMismatch slot id.pid (s.owner slot)), s)

/-- The pages of a process that are swapped out, with their slots, in page order. -/
def pagesOf (s : SwapArea σ) (pid : Pid) : List (PageId × Nat) :=
  s.slots.toList.filter fun entry => entry.1.pid = pid

/-- Frees every slot of a process, in page order, and counts them. -/
def releaseAll (s : SwapArea σ) (pid : Pid) : Nat × SwapArea σ :=
  let pages := s.pagesOf pid
  (pages.length, pages.foldl (fun s entry => s.vacate entry.1 entry.2) s)

/-- Marks a slot as seen, once. -/
def markSeen (seen : Array Bool) (slot : Nat) : Except PagingError (Array Bool) :=
  if seen[slot]? = some false then .ok (seen.setIfInBounds slot true)
  else .error (.swapTableCorrupt slot)

/-- Marks the slot of a page as seen, once, and checks that it has the page's process as owner. -/
def markUsed (s : SwapArea σ) (seen : Array Bool) (entry : PageId × Nat) :
    Except PagingError (Array Bool) := do
  let seen ← markSeen seen entry.2
  if s.owner entry.2 = some entry.1.pid then .ok seen else .error (.swapTableCorrupt entry.2)

/-- Checks that every slot is either free or used by one page, and that the two maps agree. Names
the first slot found wrong: among the free ones, among those of pages in page order, among all, and
among those that have an owner but no page. -/
def audit (s : SwapArea σ) : Except PagingError Unit := do
  let seen ← s.free.foldlM markSeen (Array.replicate s.numSlots false)
  let seen ← s.slots.toList.foldlM s.markUsed seen
  match seen.toList.findIdx? (· = false) with
  | some slot => .error (.swapTableCorrupt slot)
  | none =>
      if s.owners.size = s.slots.size then .ok ()
      else
        let surplus := s.owners.keys.find? fun slot => !s.slots.values.contains slot
        .error (.swapTableCorrupt (surplus.getD 0))

/-- Deletes the extent. What was in the slots is lost, and all of them are free. -/
def remove (s : SwapArea σ) : Except IoError Unit × SwapArea σ :=
  let (result, extent) := Extent.remove s.extent
  (result, unused extent s.pageSize s.numSlots)

end SwapArea

end DemandPaging
