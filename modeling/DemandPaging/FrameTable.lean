import DemandPaging.Address
import DemandPaging.PageId
import DemandPaging.Word

/-!
# The frame table

The other way round from the page tables: which page, if any, lives in each frame, how often the
frame is pinned, and which frames are free. A frame is free, reserved (allocated and pinned, but
with no owner yet) or owned by a page. Each frame has one packed word; the free frames stand in a
list, the next one to be used first.
-/

namespace DemandPaging

/-- The packed record of a frame. -/
structure FrameRecord where
  bits : Word
deriving DecidableEq

namespace FrameRecord

/-- The frame is not free. -/
abbrev allocatedField : BitField := .inUse

/-- How often the frame is pinned. A pinned frame is never evicted. -/
abbrev pinsField : BitField := { lowest := 1, width := 7 }

/-- The process whose page lives in the frame. -/
abbrev pidField : BitField := { lowest := 8, width := 16 }

/-- A page lives in the frame. -/
abbrev ownedField : BitField := { lowest := 24, width := 1 }

/-- The page that lives in the frame. -/
abbrev pageField : BitField := .pageNumber

/-- The record of a free frame. -/
def empty : FrameRecord := ⟨0#64⟩

def allocated (e : FrameRecord) : Bool := allocatedField.test e.bits
def pins (e : FrameRecord) : Nat := pinsField.get e.bits
def owned (e : FrameRecord) : Bool := ownedField.test e.bits

/-- The page that lives in the frame, if any. -/
def owner (e : FrameRecord) : Option PageId :=
  if e.owned then some ⟨UInt16.ofNat (pidField.get e.bits), pageField.get e.bits⟩ else none

def withPins (e : FrameRecord) (n : Nat) : FrameRecord := ⟨pinsField.set e.bits n⟩

/-- The record of a frame that is pinned `pins` times and has no owner. -/
def reserved (pins : Nat) : FrameRecord :=
  (⟨allocatedField.assign empty.bits true⟩ : FrameRecord).withPins pins

/-- The record of an unpinned frame that a page lives in. -/
def ownedBy (id : PageId) : FrameRecord :=
  let bits := allocatedField.assign empty.bits true
  let bits := ownedField.assign bits true
  let bits := pidField.set bits id.pid.toNat
  ⟨pageField.set bits id.page⟩

end FrameRecord

/-- What is known of every frame, and the free ones. -/
structure FrameTable where
  entries : Array FrameRecord
  /-- the free frames, next to be used first -/
  free : List Nat
deriving DecidableEq

namespace FrameTable

/-- The most pins that a record can count. -/
def maxPins : Nat := 127

/-- A table of free frames. -/
def create (frames : Nat) : Except Halt FrameTable :=
  if frames = 0 then .error .noFrames
  else if Address.maxPageNumber < frames - 1 then .error .tooManyFrames
  else .ok ⟨Array.replicate frames FrameRecord.empty, List.range frames⟩

/-- How many frames there are. -/
def size (t : FrameTable) : Nat := t.entries.size

/-- The record of a frame. -/
def entry (t : FrameTable) (frame : Nat) : Except Halt FrameRecord :=
  match t.entries[frame]? with
  | some e => .ok e
  | none => .error .indexOutOfBounds

/-- The table with the record of a frame replaced. -/
def put (t : FrameTable) (frame : Nat) (e : FrameRecord) : FrameTable :=
  { t with entries := t.entries.setIfInBounds frame e }

/-- The page that lives in a frame, if there is such a frame and such a page. -/
def owner (t : FrameTable) (frame : Nat) : Option PageId :=
  t.entries[frame]?.bind FrameRecord.owner

/-- How often a frame is pinned. -/
def pins (t : FrameTable) (frame : Nat) : Nat :=
  (t.entries[frame]?.map FrameRecord.pins).getD 0

/-- Whether a frame is pinned. -/
def isPinned (t : FrameTable) (frame : Nat) : Bool := 0 < t.pins frame

/-- Whether a frame is allocated. -/
def isAllocated (t : FrameTable) (frame : Nat) : Bool :=
  (t.entries[frame]?.map FrameRecord.allocated).getD false

/-- Whether a frame is on the free list. -/
def isFree (t : FrameTable) (frame : Nat) : Bool := t.free.contains frame

/-- Takes the next free frame. It comes reserved with one pin, so that nobody else takes it before
it has an owner. -/
def reserve (t : FrameTable) : Except Halt (Option Nat × FrameTable) :=
  match t.free with
  | [] => .ok (none, t)
  | frame :: free => do
      let e ← t.entry frame
      if e.allocated then .error (.freeFrameAllocated frame)
      else .ok (some frame, { t with free }.put frame (FrameRecord.reserved 1))

/-- Makes a page the owner of an allocated frame and drops all its pins. -/
def occupy (t : FrameTable) (frame : Nat) (id : PageId) : Except Halt FrameTable := do
  if Address.maxPageNumber < id.page then .error (.ownerTooWide id.page)
  else
    let e ← t.entry frame
    if e.allocated then .ok (t.put frame (FrameRecord.ownedBy id))
    else .error (.occupyFree frame)

/-- Parts an allocated frame from its owner. Its pins stay. -/
def vacate (t : FrameTable) (frame : Nat) : Except Halt FrameTable := do
  let e ← t.entry frame
  if e.allocated then .ok (t.put frame (FrameRecord.reserved e.pins))
  else .error (.vacateFree frame)

/-- Frees an allocated frame. Someone else is about to use a pinned one, so that only loses its
owner. -/
def giveBack (t : FrameTable) (frame : Nat) : Except Halt FrameTable := do
  let e ← t.entry frame
  if ¬ e.allocated then .error (.giveBackFree frame)
  else if 0 < e.pins then t.vacate frame
  else if t.isFree frame then .error .alreadyListed
  else .ok { t.put frame FrameRecord.empty with free := t.free ++ [frame] }

/-- Pins an allocated frame once more. -/
def pin (t : FrameTable) (frame : Nat) : Except Halt FrameTable := do
  let e ← t.entry frame
  if ¬ e.allocated then .error (.pinFree frame)
  else if e.pins < maxPins then .ok (t.put frame (e.withPins (e.pins + 1)))
  else .error (.tooManyPins frame)

/-- Takes one pin off a frame. A reserved frame that loses its last pin is free again. -/
def unpin (t : FrameTable) (frame : Nat) : Except Halt FrameTable := do
  let e ← t.entry frame
  if e.pins = 0 then .error (.notPinned frame)
  else if e.pins = 1 ∧ ¬ e.owned then
    .ok { t.put frame FrameRecord.empty with free := t.free ++ [frame] }
  else .ok (t.put frame (e.withPins (e.pins - 1)))

end FrameTable

end DemandPaging
