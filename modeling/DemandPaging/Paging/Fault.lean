import DemandPaging.Paging.Eviction

/-!
# Misses and faults

An access that the mapping cache does not know is a miss. If the page is not in memory either,
the miss is a fault: a frame is found for the page and filled from swap or from the image. In the
end the mapping is in the cache and the access can be made again.
-/

namespace DemandPaging.Paging

variable {σ : Type} [Extent σ]

/-- How far the handling of a miss came. -/
inductive MissResult where
  /-- the mapping is in the cache; so many threads that sleep for a swap slot are to be woken -/
  | loaded (wakeUps : Nat)
  /-- the thread has to sleep until a swap slot is free -/
  | needsSlot (victim : Nat)
deriving DecidableEq

/-- Fills a frame with what its page starts with. -/
def fillAfresh (process : UserProcess) (page frame frameSize : Nat) : PagingM σ Unit :=
  setFrameBytes frame (process.image.initialPage page frameSize)

/-- Fills a frame with a page from its swap slot. -/
def fillFromSwap (id : PageId) (slot frame frameSize : Nat) : PagingM σ Unit := do
  setFrameBytes frame (← swapIn id slot frameSize)
  count fun c => { c with swapIns := c.swapIns + 1 }

/-- Fills a frame with a page: from its swap slot, or with what it starts with when it has none or
the slot is not its own. Answers whether it came from swap. -/
def fill (process : UserProcess) (page frame : Nat) : PagingM σ Bool := do
  let frameSize := (← frameBytes frame).length
  match (← get).swap.lookup ⟨process.pid, page⟩ with
  | none => do
      fillAfresh process page frame frameSize
      pure false
  | some slot =>
      tryCatch (do fillFromSwap ⟨process.pid, page⟩ slot frame frameSize; pure true) fun
        | .slotOwnerMismatch .. => do
            fillAfresh process page frame frameSize
            pure false
        | cause => throw cause

/-- Enters a page into both tables. A page that came from swap is dirty, for its slot is gone. -/
def enter (process : UserProcess) (page frame : Nat) (dirty : Bool) : PagingM σ Unit := do
  let table ← tableOf process.pid
  let table ← orFail (table.place page frame (process.image.isReadOnly page))
  let entry ← orFail (table.lookup page)
  setTable process.pid (table.put page { entry with dirty })
  changeFrames (·.occupy frame ⟨process.pid, page⟩)

/-- Puts a page into a pinned frame without an owner. If the process is gone, or another thread of
it brought the page in meanwhile, the frame is given back. Answers whether a swap slot became
free. -/
def bringIn (process : UserProcess) (page frame : Nat) : PagingM σ Bool := do
  match PageTables.table (← get).tables process.pid with
  | .error cause =>
      -- the process ended while this thread slept
      changeFrames (·.unpin frame)
      throw cause
  | .ok table =>
      if (← orFail (table.lookup page)).valid then
        -- another thread of the process brought the page in meanwhile
        changeFrames (·.unpin frame)
        pure false
      else
        let fromSwap ← fill process page frame
        enter process page frame fromSwap
        pure fromSwap

/-- Goes on with a fault once the search for a frame has ended. -/
def settleFault (process : UserProcess) (page : Nat) : FrameSearch → PagingM σ MissResult
  | .needsSlot victim => pure (.needsSlot victim)
  | .found frame passOn => do
      let slotFreed ← bringIn process page frame
      loadMapping ⟨process.pid, page⟩
      pure (.loaded (passOn.toNat + slotFreed.toNat))

/-- Handles a miss at an address, up to the first sleep. -/
def handleMiss (process : UserProcess) (address : Nat) : PagingM σ MissResult := do
  count fun c => { c with misses := c.misses + 1 }
  let page := Address.page (← get).processor.pageSize address
  match (← tableOf process.pid).lookup page with
  | .error _ => throw (.segmentationFault address)
  | .ok entry =>
      if entry.valid then
        loadMapping ⟨process.pid, page⟩
        pure (.loaded 0)
      else
        count fun c => { c with faults := c.faults + 1 }
        settleFault process page (← findFrame process)

/-- Goes on with a fault after a sleep, up to the next one. -/
def resumeFault (process : UserProcess) (page victim : Nat) : PagingM σ MissResult := do
  settleFault process page (← resumeSearch process victim)

end DemandPaging.Paging
