import DemandPaging.UserProcess
import DemandPaging.Replacement
import DemandPaging.SwapArea
import DemandPaging.MappingCache

/-!
# Paging

The processor and the tables that say where every page is, and the actions on them. An action either
gives a result, or fails with an error of the memory manager, or halts. What it changed before an
error stays changed; after a halt there is nothing left to change. `bind_run` and its companions say
so for each way that actions are put together.
-/

namespace DemandPaging

/-- How often things have happened. The machine counts in words, so its counts are these totals
until something has happened `2 ^ 64` times. -/
structure Counters where
  /-- accesses without a cache entry -/
  misses : Nat := 0
  /-- misses on a page that was not in memory -/
  faults : Nat := 0
  /-- pages that left memory for another one -/
  evictions : Nat := 0
  /-- evicted pages that were written to swap -/
  swapOuts : Nat := 0
  /-- pages that came back from swap -/
  swapIns : Nat := 0
deriving DecidableEq

/-- The processor and the tables. -/
structure Paging (σ : Type) where
  processor : Processor
  frameTable : FrameTable
  policy : Policy
  swap : SwapArea σ
  tables : PageTables := ∅
  /-- chooses the cache slots to be overwritten -/
  rng : Random
  counters : Counters := {}

/-- An action on the processor and the tables. -/
abbrev PagingM (σ : Type) := ExceptT PagingError (StateT (Paging σ) (Except Halt))

namespace Paging

variable {σ : Type}

/-- Halts where the operation halts. -/
def orHalt {α : Type} (result : Except Halt α) : PagingM σ α :=
  fun s => result.map fun x => (.ok x, s)

/-- Fails where the operation fails. -/
def orFail {α : Type} (result : Except PagingError α) : PagingM σ α := fun s => .ok (result, s)

theorem pure_run {α : Type} (x : α) (s : Paging σ) :
    (pure x : PagingM σ α) s = .ok (.ok x, s) := rfl

theorem throw_run {α : Type} (cause : PagingError) (s : Paging σ) :
    (throw cause : PagingM σ α) s = .ok (.error cause, s) := rfl

theorem get_run (s : Paging σ) : (get : PagingM σ (Paging σ)) s = .ok (.ok s, s) := rfl

theorem modify_run (f : Paging σ → Paging σ) (s : Paging σ) :
    (modify f : PagingM σ PUnit) s = .ok (.ok ⟨⟩, f s) := rfl

theorem bind_run {α β : Type} (act : PagingM σ α) (next : α → PagingM σ β) (s : Paging σ) :
    (act >>= next) s = (act s).bind fun
      | (.ok x, s) => next x s
      | (.error cause, s) => .ok (.error cause, s) := by
  show Except.bind _ _ = Except.bind _ _
  congr 1
  funext ⟨result, s⟩
  cases result <;> rfl

theorem tryCatch_run {α : Type} (act : PagingM σ α) (handle : PagingError → PagingM σ α)
    (s : Paging σ) :
    (tryCatch act handle) s = (act s).bind fun
      | (.ok x, s) => .ok (.ok x, s)
      | (.error cause, s) => handle cause s := by
  show Except.bind _ _ = Except.bind _ _
  congr 1
  funext ⟨result, s⟩
  cases result <;> rfl

end Paging

end DemandPaging
