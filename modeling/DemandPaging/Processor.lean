import DemandPaging.Address
import DemandPaging.Mapping

/-!
# The processor

Physical memory, frame by frame, the mapping cache, and the register that keeps the address of
the last trap. An access goes through the cache: the first valid entry for the page gives the frame,
and without one the processor traps into the kernel.
-/

namespace DemandPaging

/-- Why the processor stopped at an access. -/
inductive Trap where
  /-- no valid cache entry for the page -/
  | miss
  /-- a write through a read-only entry -/
  | readOnly
  /-- an entry whose frame is not there -/
  | badFrame
deriving DecidableEq

/-- A byte of physical memory. -/
structure Location where
  frame : Nat
  offset : Nat
deriving DecidableEq

/-- Physical memory, the mapping cache and the trap register. -/
structure Processor where
  pageSize : Nat
  /-- the bytes of each frame -/
  memory : Array (List UInt8)
  cache : List Mapping
  /-- the address of the last trap -/
  badAddress : Nat
deriving DecidableEq

namespace Processor

/-- A processor with zeros in memory and nothing in the cache. Memory is one block of bytes, and
the cache is one block of words. -/
def create (frames pageSize cacheSize : Nat) : Except Halt Processor := do
  Address.refuseBlock frames pageSize
  Address.refuseBlock cacheSize Mapping.numBytes
  .ok { pageSize
        memory := Array.replicate frames (List.replicate pageSize 0)
        cache := List.replicate cacheSize Mapping.empty
        badAddress := 0 }

/-- How many frames there are. -/
def numFrames (p : Processor) : Nat := p.memory.size

/-- The cache entry in a slot. -/
def cacheEntry (p : Processor) (slot : Nat) : Except Halt Mapping :=
  match p.cache[slot]? with
  | some e => .ok e
  | none => .error .indexOutOfBounds

/-- Puts an entry into a slot of the cache. -/
def setCacheEntry (p : Processor) (slot : Nat) (e : Mapping) : Except Halt Processor :=
  if slot < p.cache.length then .ok { p with cache := p.cache.set slot e }
  else .error .indexOutOfBounds

/-- The first slot with a valid entry for a page. -/
def cacheSlot (p : Processor) (page : Nat) : Option Nat :=
  p.cache.findIdx? fun e => e.valid && e.page = page

/-- Whether the bytes of a frame lie inside memory. Frames of no bytes always do. -/
def hasFrame (p : Processor) (frame : Nat) : Bool :=
  (frame + 1) * p.pageSize ≤ p.numFrames * p.pageSize

/-- The bytes of a frame. -/
def frame (p : Processor) (frame : Nat) : Except Halt (List UInt8) :=
  if p.hasFrame frame then .ok (p.memory.getD frame []) else .error .indexOutOfBounds

/-- Replaces the bytes of a frame. -/
def setFrame (p : Processor) (frame : Nat) (bytes : List UInt8) : Except Halt Processor :=
  if p.hasFrame frame then .ok { p with memory := p.memory.setIfInBounds frame bytes }
  else .error .indexOutOfBounds

/-- Stops at an access, with its address in the trap register. -/
def raise {α : Type} (p : Processor) (address : Nat) (trap : Trap) : Except Trap α × Processor :=
  (.error trap, { p with badAddress := address })

/-- The frame that the last trap was about: the one that the cache gives its page, or else the
number of the page itself. -/
def trappedFrame (p : Processor) : Nat :=
  let page := Address.page p.pageSize p.badAddress
  match p.cache.find? fun e => e.valid && e.page = page with
  | some e => e.frame
  | none => page

/-- The byte of physical memory behind a virtual address. The entry that gives it becomes used,
and dirty when the access is a write. -/
def locate (p : Processor) (address : Nat) (writing : Bool) :
    Except Halt (Except Trap Location × Processor) := do
  let (page, offset) ← Address.split p.pageSize address
  match p.cacheSlot page with
  | none => .ok (p.raise address .miss)
  | some slot =>
      let e ← p.cacheEntry slot
      if writing && e.readOnly then .ok (p.raise address .readOnly)
      else if p.numFrames ≤ e.frame then .ok (p.raise address .badFrame)
      else
        let e' := (e.withUsed true).withDirty (e.dirty || writing)
        .ok (.ok ⟨e.frame, offset⟩, { p with cache := p.cache.set slot e' })

/-- The byte at a location. -/
def byteAt (p : Processor) (l : Location) : Except Halt UInt8 :=
  match p.memory[l.frame]?.bind (·[l.offset]?) with
  | some byte => .ok byte
  | none => .error .indexOutOfBounds

/-- Replaces the byte at a location. -/
def setByteAt (p : Processor) (l : Location) (byte : UInt8) : Processor :=
  { p with memory := p.memory.modify l.frame (·.set l.offset byte) }

/-- Loads the byte behind a virtual address. -/
def loadByte (p : Processor) (address : Nat) : Except Halt (Except Trap UInt8 × Processor) := do
  match ← p.locate address false with
  | (.error trap, p) => .ok (.error trap, p)
  | (.ok l, p) => .ok (.ok (← p.byteAt l), p)

/-- Stores a byte behind a virtual address. -/
def storeByte (p : Processor) (address : Nat) (byte : UInt8) :
    Except Halt (Except Trap Unit × Processor) := do
  match ← p.locate address true with
  | (.error trap, p) => .ok (.error trap, p)
  | (.ok l, p) => .ok (.ok (), p.setByteAt l byte)

end Processor

end DemandPaging
