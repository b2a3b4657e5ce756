import DemandPaging.Paging.Action

/-!
# Eviction

How a page gets a frame when memory is full: a victim is chosen, pinned, and pushed out. A dirty
page goes to swap; when every slot is in use the evictor has to sleep, with the victim pinned, and
try again. A victim whose process ended meanwhile needs no pushing.
-/

namespace DemandPaging.Paging

variable {σ : Type} [Extent σ]

/-- What came of looking for a frame. -/
inductive FrameSearch where
  /-- a pinned frame without an owner. `passOn` says that the thread was woken for a swap slot that
  it did not use. -/
  | found (frame : Nat) (passOn : Bool)
  /-- the pinned victim can only be pushed out once a swap slot is free -/
  | needsSlot (victim : Nat)
deriving DecidableEq

/-- The entry of the page that owns a frame. The two tables have to agree on it. -/
def residentEntry (frame : Nat) (id : PageId) : PagingM σ PageEntry := do
  match PageTables.lookup (← get).tables id with
  | .ok entry =>
      if entry.valid && entry.frame = some frame then pure entry
      else throw (.frameTableCorrupt frame)
  | .error _ => throw (.frameTableCorrupt frame)

/-- Empties the cache entries of a frame and takes its page out of the page table. -/
def invalidate (frame : Nat) (id : PageId) : PagingM σ Unit := do
  let table ← tableOf id.pid
  let (result, processor) :=
    MappingCache.unmap (← get).processor frame table id.page
  modify fun s => { s with processor }
  setTable id.pid (← orFail result)

/-- Writes a page to swap if its frame holds the only copy. -/
def save (frame : Nat) (id : PageId) (entry : PageEntry) : PagingM σ Unit :=
  if entry.dirty then do
    swapOut id (← frameBytes frame)
    count fun c => { c with swapOuts := c.swapOuts + 1 }
  else pure ()

/-- Pushes the page out that owns a frame. The frame keeps its pins and ends up without an owner. -/
def evict (victim : Nat) : PagingM σ Unit := do
  match (← get).frameTable.owner victim with
  | none => pure ()
  | some id =>
      save victim id (← residentEntry victim id)
      invalidate victim id
      changeFrames (·.vacate victim)
      count fun c => { c with evictions := c.evictions + 1 }

/-- Pushes the victim out. Without a free swap slot the process has to leave the processor and
sleep; after any other error the victim is let go. -/
def evictOrWait (process : UserProcess) (victim : Nat) : PagingM σ FrameSearch :=
  tryCatch (do evict victim; pure (.found victim false)) fun
    | .swapExhausted => do
        -- the pin stays: nobody else may choose the victim while this thread sleeps
        saveCache process.pid
        pure (.needsSlot victim)
    | cause => do
        changeFrames (·.unpin victim)
        throw cause

/-- Chooses the page that is to leave memory, with all bits of the running process in its table. -/
def chooseVictim (process : UserProcess) : PagingM σ Nat := do
  syncCache process.pid false
  let s ← get
  let (result, policy, tables) := s.policy.select s.frameTable s.tables
  set { s with policy, tables }
  orFail result

/-- A frame for a new page: a free one, or else that of a victim. -/
def findFrame (process : UserProcess) : PagingM σ FrameSearch := do
  match ← reserveFrame with
  | some frame => pure (.found frame false)
  | none =>
      let victim ← chooseVictim process
      changeFrames (·.pin victim)
      evictOrWait process victim

/-- Goes on looking after the thread was woken. A process may have ended meanwhile, so a free frame
comes first, and then the victim is let go and the wake-up belongs to the next sleeper if there is
still a free slot. -/
def resumeSearch (process : UserProcess) (victim : Nat) : PagingM σ FrameSearch := do
  match ← reserveFrame with
  | some frame =>
      -- a free slot woke this thread for nothing; someone else may need it
      changeFrames (·.unpin victim)
      pure (.found frame (!(← get).swap.free.isEmpty))
  | none => evictOrWait process victim

end DemandPaging.Paging
