import DemandPaging.Paging.State

/-!
# Actions on the processor and the tables

The small actions that all handlers are made of, one for each thing that is done to a frame, to a
page table, to the mapping cache, or to the swap area.
-/

namespace DemandPaging.Paging

variable {σ : Type}

/-- Counts something. -/
def count (change : Counters → Counters) : PagingM σ Unit :=
  modify fun s => { s with counters := change s.counters }

/-! ## Frames -/

/-- Changes the frame table, or halts. -/
def changeFrames (change : FrameTable → Except Halt FrameTable) : PagingM σ Unit := do
  let frameTable ← orHalt (change (← get).frameTable)
  modify fun s => { s with frameTable }

/-- Takes the next free frame, if there is one. -/
def reserveFrame : PagingM σ (Option Nat) := do
  let (frame, frameTable) ← orHalt (← get).frameTable.reserve
  modify fun s => { s with frameTable }
  pure frame

/-- The bytes of a frame. -/
def frameBytes (frame : Nat) : PagingM σ (List UInt8) := do
  orHalt ((← get).processor.frame frame)

/-- Replaces the bytes of a frame. -/
def setFrameBytes (frame : Nat) (bytes : List UInt8) : PagingM σ Unit := do
  let processor ← orHalt ((← get).processor.setFrame frame bytes)
  modify fun s => { s with processor }

/-! ## Page tables -/

/-- The page table of a process that has one. -/
def tableOf (pid : Pid) : PagingM σ PageTable := do
  orFail (PageTables.table (← get).tables pid)

/-- Replaces the page table of a process. -/
def setTable (pid : Pid) (table : PageTable) : PagingM σ Unit :=
  modify fun s => { s with tables := s.tables.insert pid table }

/-- The entry of a page inside an address space. -/
def entryOf (id : PageId) : PagingM σ PageEntry := do
  orFail ((← tableOf id.pid).lookup id.page)

/-! ## The mapping cache -/

/-- Empties the cache. -/
def flush : PagingM σ Unit :=
  modify fun s => { s with processor := MappingCache.flush s.processor }

/-- Syncs the cache into the page table of the process it holds entries of. -/
def syncCache (pid : Pid) (invalidate : Bool) : PagingM σ Unit := do
  let table ← tableOf pid
  let (result, processor, table) := MappingCache.sync (← get).processor table invalidate
  modify fun s => { s with processor }
  setTable pid table
  orFail result

/-- Empties the cache of a process that leaves the processor. What it knows goes back to the page
table, if the process still has one. -/
def saveCache (pid : Pid) : PagingM σ Unit := do
  if (← get).tables.contains pid then syncCache pid true else flush

/-- Loads the mapping of a page in memory. -/
def loadMapping (id : PageId) : PagingM σ Unit := do
  let table ← tableOf id.pid
  let entry ← orFail (table.lookup id.page)
  let s ← get
  let (result, processor, table, rng) ←
    orHalt (MappingCache.slotToFill s.processor table s.rng)
  modify fun s => { s with processor, rng }
  setTable id.pid table
  let slot ← orFail result
  let processor ← orHalt (MappingCache.load processor slot id.page entry)
  modify fun s => { s with processor }

/-! ## Swap -/

variable [Extent σ]

/-- Puts a page into a swap slot. -/
def swapOut (id : PageId) (bytes : List UInt8) : PagingM σ Unit := do
  let (result, swap) ← orHalt ((← get).swap.store id bytes)
  modify fun s => { s with swap }
  let _ ← orFail result

/-- Takes a page out of its swap slot. -/
def swapIn (id : PageId) (slot frameSize : Nat) : PagingM σ (List UInt8) := do
  let (result, swap) ← orHalt ((← get).swap.fetch id slot frameSize)
  modify fun s => { s with swap }
  orFail result

end DemandPaging.Paging
