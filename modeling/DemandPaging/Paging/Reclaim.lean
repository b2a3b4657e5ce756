import DemandPaging.Paging.Action

/-!
# The end of a process

A process that ends gives everything back: its cache entries, its page table, the frames of its
pages in page order, and its swap slots.
-/

namespace DemandPaging.Paging

variable {σ : Type} [Extent σ]

/-- Takes everything from a process that ends. -/
def reclaim (pid : Pid) : PagingM σ Unit := do
  flush
  match (← get).tables[pid]? with
  | none => pure ()
  | some table =>
      modify fun s => { s with tables := s.tables.erase pid }
      table.inMemory.forM fun (_, frame) => changeFrames (·.giveBack frame)
  modify fun s => { s with swap := (s.swap.releaseAll pid).2 }

end DemandPaging.Paging
