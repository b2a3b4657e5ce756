import DemandPaging.PageTable
import DemandPaging.Processor
import DemandPaging.Random

/-!
# Keeping the mapping cache and a page table in step

While the cache maps a page, its used and dirty bits are the ones that count. They are synced into
the page table of the running process before anyone reads them there, and before the cache entry is
overwritten.
-/

namespace DemandPaging.MappingCache

/-- Folds the bits of one cache entry into the page table, and gives what is left in the slot:
nothing with `invalidate`, else the same mapping, unused and with the page's dirty bit. -/
def syncSlot (invalidate : Bool) (table : PageTable) (c : Mapping) :
    Except PagingError (Mapping × PageTable) :=
  if ¬ c.valid then .ok (c, table)
  else match table.lookup c.page with
    | .error _ => .error (.frameTableCorrupt c.frame)
    | .ok e =>
        if ¬ e.valid ∨ e.frame ≠ some c.frame then .error (.frameTableCorrupt c.frame)
        else
          let e' := { e with
            dirty := e.dirty || c.dirty
            referenced := e.referenced || c.used }
          let left := if invalidate then Mapping.empty
            else (c.withUsed false).withDirty e'.dirty
          .ok (left, table.put c.page e')

/-- Syncs the entries one after the other, up to the first that disagrees with the table. -/
def syncSlots (invalidate : Bool) :
    List Mapping → PageTable →
      Except PagingError Unit × List Mapping × PageTable
  | [], table => (.ok (), [], table)
  | c :: rest, table =>
      match syncSlot invalidate table c with
      | .error cause => (.error cause, c :: rest, table)
      | .ok (c', table) =>
          let (result, rest', table) := syncSlots invalidate rest table
          (result, c' :: rest', table)

/-- Syncs the cache into the page table of the process it holds entries of. -/
def sync (p : Processor) (table : PageTable) (invalidate : Bool) :
    Except PagingError Unit × Processor × PageTable :=
  let (result, cache, table) := syncSlots invalidate p.cache table
  (result, { p with cache }, table)

/-- Empties the entries that point at a frame. -/
def dropFrame (p : Processor) (frame : Nat) : Processor :=
  { p with cache := p.cache.map fun c =>
      if c.valid && c.frame = frame then Mapping.empty else c }

/-- Empties the entries that point at a frame, and takes the page that lives there out of its
table. Bits in the cache are lost, so they have to be synced before. -/
def unmap (p : Processor) (frame : Nat) (table : PageTable) (page : Nat) :
    Except PagingError PageTable × Processor :=
  (table.forget page, dropFrame p frame)

/-- The first slot without a valid entry. -/
def emptySlot (p : Processor) : Option Nat := p.cache.findIdx? fun c => !c.valid

/-- The slot to be overwritten next: a free one, or any one after a sync. -/
def slotToFill (p : Processor) (table : PageTable) (r : Random) :
    Except Halt (Except PagingError Nat × Processor × PageTable × Random) :=
  match emptySlot p with
  | some slot => .ok (.ok slot, p, table, r)
  | none =>
      match sync p table false with
      | (.error cause, p, table) => .ok (.error cause, p, table, r)
      | (.ok (), p, table) => do
          let (slot, r) ← r.below p.cache.length
          .ok (.ok slot, p, table, r)

/-- Puts the mapping of a page in memory into a slot. -/
def load (p : Processor) (slot page : Nat) (e : PageEntry) : Except Halt Processor := do
  match e.valid, e.frame with
  | true, some frame =>
      let c ← Mapping.create page frame e.readOnly
      p.setCacheEntry slot (c.withDirty e.dirty)
  | _, _ => .error (.loadAbsent page)

/-- Empties the cache. -/
def flush (p : Processor) : Processor :=
  { p with cache := p.cache.map fun _ => Mapping.empty }

end DemandPaging.MappingCache
