import DemandPaging.Paging.State

/-!
# The audit

Checks that the frame table and the page tables tell the same story, and that the swap space agrees
with itself.
-/

namespace DemandPaging.Paging

variable {σ : Type} [Extent σ]

/-- Whether the record of a frame makes sense: its owner has its page there, and without an owner
it is either reserved, so pinned, or on the free list. -/
def frameSound (s : Paging σ) (frame : Nat) : Bool :=
  match s.frameTable.owner frame with
  | some id => PageTables.holds s.tables id frame
  | none =>
      if s.frameTable.isAllocated frame then s.frameTable.isPinned frame
      else s.frameTable.isFree frame

/-- The first frame of a page table that the frame table gives to someone else. -/
def firstStray (s : Paging σ) (pid : Pid) (table : PageTable) : Option Nat :=
  (table.inMemory.find? fun (page, frame) => s.frameTable.owner frame ≠ some ⟨pid, page⟩).map
    Prod.snd

/-- Checks all tables, and names the first frame or slot found wrong. -/
def audit (s : Paging σ) : Except PagingError Unit :=
  match (List.range s.frameTable.size).find? fun frame => !s.frameSound frame with
  | some frame => .error (.frameTableCorrupt frame)
  | none =>
      match s.tables.toList.findSome? fun (pid, table) => s.firstStray pid table with
      | some frame => .error (.frameTableCorrupt frame)
      | none => s.swap.audit

end DemandPaging.Paging
