import DemandPaging.Paging.Action

/-!
# Copies in and out of an address space

The kernel copies page by page. It pins the frame of a page, which counts as an access, and moves
the bytes of the page that are in range.
-/

namespace DemandPaging.Paging

variable {σ : Type}

/-- What came of pinning the frame of a page. -/
inductive PinResult where
  | pinned (frame : Nat)
  /-- the page may not be written -/
  | readOnly
  /-- the page is not in memory -/
  | absent
deriving DecidableEq

/-- Pins the frame of a page in memory, for reading or for writing. -/
def pinForCopy (id : PageId) (writing : Bool) : PagingM σ PinResult := do
  let entry ← entryOf id
  match entry.valid, entry.frame with
  | true, some frame =>
      if writing && entry.readOnly then pure .readOnly
      else
        let entry := { entry with referenced := true, dirty := entry.dirty || writing }
        modify fun s => { s with tables := PageTables.put s.tables id entry }
        changeFrames (·.pin frame)
        pure (.pinned frame)
  | _, _ => pure .absent

end DemandPaging.Paging
