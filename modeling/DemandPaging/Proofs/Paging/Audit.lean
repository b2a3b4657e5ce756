import DemandPaging.Paging.Audit
import DemandPaging.Proofs.Paging.Sound

/-!
# A sound memory manager passes the audit

The audit looks at both tables from both sides, so it finds nothing where they are inverse to each
other, and a swap area that is consistent passes its own.
-/

namespace DemandPaging.Paging

variable {σ : Type} {s : Paging σ} [Extent σ] [Extent.Reliable σ] {live : Population}
  {running : Option Pid} {pins : Multiset Nat} {mem : PageId → List UInt8}

namespace Sound

/-- The record of every frame makes sense. -/
theorem frameSound_eq (h : s.Sound live running pins mem) {f : Nat} (hf : f < s.frameTable.size) :
    s.frameSound f = true := by
  rw [frameSound]
  cases howner : s.frameTable.owner f with
  | some id =>
      obtain ⟨e, he, hframe⟩ := (h.inverse.owner_iff f id).1 howner
      have hvalid := h.inverse.valid_eq id e he
      obtain ⟨u, hu, -⟩ := h.inverse.live_of_find? he
      obtain ⟨table, ht, -⟩ := h.inverse.table_of_live hu
      have hlookup : PageTables.lookup s.tables id = .ok e := by
        rw [PageTables.find?_of_table ht] at he
        rw [PageTables.lookup, PageTables.table_eq_ok_iff.2 ht]
        exact PageTable.lookup_eq_ok_iff.2 he
      show PageTables.holds s.tables id f = true
      rw [PageTables.holds, hlookup]
      simp [hvalid, hframe]
  | none =>
      show (if s.frameTable.isAllocated f then s.frameTable.isPinned f
        else s.frameTable.isFree f) = true
      split
      · rename_i hallocated
        exact decide_eq_true (h.frames.pins_of_reserved f hallocated howner)
      · rename_i hfree
        rw [FrameTable.isFree, List.contains_iff_mem, h.frames.mem_free]
        exact ⟨hf, Bool.not_eq_true _ ▸ hfree⟩

/-- No page table has a page in a frame of someone else. -/
theorem firstStray_eq (h : s.Sound live running pins mem) {pid : Pid} {table : PageTable}
    (ht : s.tables[pid]? = some table) : s.firstStray pid table = none := by
  rw [firstStray, Option.map_eq_none_iff, List.find?_eq_none]
  rintro ⟨page, frame⟩ hmem
  obtain ⟨e, he, hvalid, hframe⟩ := PageTable.mem_inMemory.1 hmem
  have howner := (h.inverse.owner_iff frame ⟨pid, page⟩).2
    ⟨e, (PageTables.find?_of_table ht page).trans he, hframe⟩
  simp [howner]

/-- The audit finds nothing wrong. -/
theorem audit_eq_ok (h : s.Sound live running pins mem) : s.audit = .ok () := by
  have hframes : ((List.range s.frameTable.size).find? fun f => !s.frameSound f) = none := by
    rw [List.find?_eq_none]
    intro f hf
    rw [h.frameSound_eq (List.mem_range.1 hf)]
    exact Bool.false_ne_true
  rw [audit, hframes]
  dsimp only
  split
  · rename_i stray hstray
    obtain ⟨⟨pid, table⟩, hmem, hstray⟩ := List.exists_of_findSome?_eq_some hstray
    rw [h.firstStray_eq (Std.TreeMap.mem_toList_iff_getElem?_eq_some.1 hmem)] at hstray
    cases hstray
  · exact h.swap.toConsistent.audit_eq_ok

end Sound

end DemandPaging.Paging
