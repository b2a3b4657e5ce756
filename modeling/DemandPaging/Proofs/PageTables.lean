import DemandPaging.PageTable
import Mathlib.Data.List.Nodup

/-!
# The entries of all page tables

All page tables together give an entry to every page of every process that has an address space.
`PageTables.find?` is that view and `PageTables.sizeOf?` says how large each address space is; every
change to the tables is described by what it does to the two.
-/

namespace DemandPaging

namespace PageTable

variable {t : PageTable} {page : Nat} {e : PageEntry}

theorem lookup_eq_ok_iff : t.lookup page = .ok e ↔ t.entries[page]? = some e := by
  rw [lookup]
  cases t.entries[page]? with
  | none => simp
  | some e' => simp

@[simp] theorem numPages_create (numPages : Nat) : (create numPages).numPages = numPages :=
  Array.size_replicate

@[simp] theorem numPages_put (t : PageTable) (page : Nat) (e : PageEntry) :
    (t.put page e).numPages = t.numPages := by
  simp [put, numPages]

@[simp] theorem put_put (t : PageTable) (page : Nat) (e e' : PageEntry) :
    (t.put page e).put page e' = t.put page e' := by
  simp [put]

theorem getElem?_put (t : PageTable) (page : Nat) (e : PageEntry) (v : Nat) :
    (t.put page e).entries[v]? =
      if v = page then t.entries[v]?.map (fun _ => e) else t.entries[v]? := by
  simp only [put, Array.getElem?_setIfInBounds]
  by_cases h : page = v
  · subst h
    rw [if_pos rfl, if_pos rfl]
    by_cases hs : page < t.entries.size
    · rw [if_pos hs, Array.getElem?_eq_getElem hs]
      rfl
    · rw [if_neg hs, Array.getElem?_eq_none (Nat.le_of_not_lt hs)]
      rfl
  · rw [if_neg h, if_neg (Ne.symm h)]

theorem lt_numPages_iff : page < t.numPages ↔ ∃ e, t.entries[page]? = some e := by
  constructor
  · exact fun h => ⟨_, Array.getElem?_eq_getElem h⟩
  · rintro ⟨e, he⟩
    by_contra h
    rw [Array.getElem?_eq_none (Nat.le_of_not_lt h)] at he
    cases he

/-- The pages in memory are those whose entries are valid and have a frame. -/
theorem mem_inMemory {frame : Nat} :
    (page, frame) ∈ t.inMemory ↔
      ∃ e, t.entries[page]? = some e ∧ e.valid = true ∧ e.frame = some frame := by
  rw [inMemory, collect_eq, List.mem_filterMap]
  constructor
  · rintro ⟨v, -, hv⟩
    cases he : t.entries[v]? with
    | none =>
        rw [he] at hv
        cases hv
    | some e =>
        rw [he, Option.bind_some] at hv
        split at hv
        · rename_i hvalid
          cases hf : e.frame with
          | none =>
              rw [hf] at hv
              cases hv
          | some g =>
              rw [hf, Option.map_some, Option.some.injEq, Prod.mk.injEq] at hv
              obtain ⟨rfl, rfl⟩ := hv
              exact ⟨e, he, hvalid, hf⟩
        · cases hv
  · rintro ⟨e, he, hvalid, hf⟩
    refine ⟨page, List.mem_range.2 (lt_numPages_iff.2 ⟨e, he⟩), ?_⟩
    rw [he, Option.bind_some, if_pos hvalid, hf]
    rfl

/-- No page is listed twice among those in memory. -/
theorem inMemory_nodup (t : PageTable) : (t.inMemory.map Prod.fst).Nodup := by
  rw [inMemory, collect_eq, List.map_filterMap]
  refine List.Nodup.filterMap ?_ List.nodup_range
  intro a b c ha hb
  have hkey : ∀ v, c ∈ ((t.entries[v]?.bind fun e =>
      if e.valid = true then e.frame.map fun frame => (v, frame) else none).map Prod.fst) →
      c = v := by
    intro v hv
    rw [Option.mem_def, Option.map_eq_some_iff] at hv
    obtain ⟨x, hx, rfl⟩ := hv
    rw [Option.bind_eq_some_iff] at hx
    obtain ⟨e, -, he⟩ := hx
    split at he
    · rw [Option.map_eq_some_iff] at he
      obtain ⟨f, -, rfl⟩ := he
      rfl
    · cases he
  exact (hkey a ha).symm.trans (hkey b hb)

end PageTable

namespace PageTables

/-- The entry of a page, if its process has one. -/
def find? (t : PageTables) (id : PageId) : Option PageEntry :=
  t[id.pid]?.bind fun table => table.entries[id.page]?

/-- How many pages a process has, if it has an address space. -/
def sizeOf? (t : PageTables) (pid : Pid) : Option Nat := t[pid]?.map PageTable.numPages

variable {t : PageTables} {id : PageId} {pid : Pid} {table : PageTable} {e : PageEntry}

/-- A table with an entry for every page number is no larger than a block of memory can be. -/
theorem refuseBlock_eq_ok {numPages : Nat} (h : numPages ≤ Address.maxPageNumber + 1) :
    Address.refuseBlock numPages PageEntry.numBytes = .ok () :=
  if_pos (Nat.le_trans (Nat.mul_le_mul_right _ h) (by decide))

theorem table_eq_ok_iff : PageTables.table t pid = .ok table ↔ t[pid]? = some table := by
  rw [PageTables.table]
  cases t[pid]? with
  | none => simp
  | some table' => simp

theorem table_eq_error (h : t[pid]? = none) :
    PageTables.table t pid = .error (.noSuchProcess pid) := by
  rw [PageTables.table, h]

theorem find?_of_table (h : t[pid]? = some table) (page : Nat) :
    find? t ⟨pid, page⟩ = table.entries[page]? := by
  rw [find?, h]
  rfl

theorem lookup_eq_ok_iff : lookup t id = .ok e ↔ find? t id = some e := by
  rw [lookup, find?, PageTables.table]
  cases ht : t[id.pid]? with
  | none => simp [bind, Except.bind]
  | some table => exact PageTable.lookup_eq_ok_iff

theorem holds_iff {frame : Nat} : holds t id frame = true ↔
    ∃ e, find? t id = some e ∧ e.valid = true ∧ e.frame = some frame := by
  rw [holds]
  cases h : lookup t id with
  | ok e => simp [lookup_eq_ok_iff.1 h]
  | error reason =>
      have hnone : ¬ ∃ e, find? t id = some e := by
        rintro ⟨e, he⟩
        rw [lookup_eq_ok_iff.2 he] at h
        cases h
      simp only [Bool.false_eq_true, false_iff]
      rintro ⟨e, he, -⟩
      exact hnone ⟨e, he⟩

/-- A page of an address space is one that has an entry. -/
theorem exists_find?_iff :
    (∃ e, find? t id = some e) ↔ ∃ n, sizeOf? t id.pid = some n ∧ id.page < n := by
  rw [find?, sizeOf?]
  cases ht : t[id.pid]? with
  | none => simp
  | some table =>
      simp only [Option.bind_some, Option.map_some, Option.some.injEq, exists_eq_left']
      exact PageTable.lt_numPages_iff.symm

theorem find?_empty (id : PageId) : find? ∅ id = none := by
  rw [find?, Std.TreeMap.getElem?_emptyc]
  rfl

theorem not_find?_empty : ¬ find? ∅ id = some e := by
  rw [find?_empty]
  intro he
  cases he

theorem sizeOf?_empty (pid : Pid) : sizeOf? ∅ pid = none := by
  rw [sizeOf?, Std.TreeMap.getElem?_emptyc]
  rfl

theorem find?_insert (t : PageTables) (pid : Pid) (table : PageTable) (id : PageId) :
    find? (t.insert pid table) id =
      if id.pid = pid then table.entries[id.page]? else find? t id := by
  rw [find?, Std.TreeMap.getElem?_insert]
  simp only [Std.LawfulEqOrd.compare_eq_iff_eq]
  by_cases h : pid = id.pid
  · rw [if_pos h, if_pos h.symm]
    rfl
  · rw [if_neg h, if_neg (Ne.symm h)]
    rfl

theorem sizeOf?_insert (t : PageTables) (pid : Pid) (table : PageTable) (q : Pid) :
    sizeOf? (t.insert pid table) q = if q = pid then some table.numPages else sizeOf? t q := by
  rw [sizeOf?, Std.TreeMap.getElem?_insert]
  simp only [Std.LawfulEqOrd.compare_eq_iff_eq]
  by_cases h : pid = q
  · rw [if_pos h, if_pos h.symm]
    rfl
  · rw [if_neg h, if_neg (Ne.symm h)]
    rfl

theorem find?_erase (t : PageTables) (pid : Pid) (id : PageId) :
    find? (t.erase pid) id = if id.pid = pid then none else find? t id := by
  rw [find?, Std.TreeMap.getElem?_erase]
  simp only [Std.LawfulEqOrd.compare_eq_iff_eq]
  by_cases h : pid = id.pid
  · rw [if_pos h, if_pos h.symm]
    rfl
  · rw [if_neg h, if_neg (Ne.symm h)]
    rfl

theorem sizeOf?_erase (t : PageTables) (pid q : Pid) :
    sizeOf? (t.erase pid) q = if q = pid then none else sizeOf? t q := by
  rw [sizeOf?, Std.TreeMap.getElem?_erase]
  simp only [Std.LawfulEqOrd.compare_eq_iff_eq]
  by_cases h : pid = q
  · rw [if_pos h, if_pos h.symm]
    rfl
  · rw [if_neg h, if_neg (Ne.symm h)]
    rfl

/-- A page table replaced by one that differs in a single entry. -/
theorem find?_insert_put (h : t[pid]? = some table) {page : Nat} (hpage : page < table.numPages)
    (e : PageEntry) (id : PageId) :
    find? (t.insert pid (table.put page e)) id =
      if id = ⟨pid, page⟩ then some e else find? t id := by
  rw [find?_insert]
  obtain ⟨q, v⟩ := id
  by_cases hq : q = pid
  · subst hq
    rw [if_pos rfl, PageTable.getElem?_put, find?_of_table h]
    by_cases hv : v = page
    · subst hv
      obtain ⟨old, hold⟩ := PageTable.lt_numPages_iff.1 hpage
      rw [if_pos rfl, if_pos rfl, hold]
      rfl
    · rw [if_neg hv, if_neg (by simpa using hv)]
  · rw [if_neg hq, if_neg (by simp [hq])]

/-- A page table replaced by one of the same size. -/
theorem sizeOf?_insert_of_eq (h : t[pid]? = some table) {table' : PageTable}
    (hsize : table'.numPages = table.numPages) (q : Pid) :
    sizeOf? (t.insert pid table') q = sizeOf? t q := by
  rw [sizeOf?_insert, hsize]
  by_cases hq : q = pid
  · rw [if_pos hq, hq, sizeOf?, h]
    rfl
  · rw [if_neg hq]

theorem find?_put (t : PageTables) (id : PageId) (e : PageEntry) (id' : PageId) :
    find? (put t id e) id' =
      if id' = id then (find? t id).map (fun _ => e) else find? t id' := by
  obtain ⟨pid, page⟩ := id
  obtain ⟨q, v⟩ := id'
  rw [find?, put, Std.TreeMap.getElem?_modify]
  simp only [Std.LawfulEqOrd.compare_eq_iff_eq]
  by_cases hq : pid = q
  · subst hq
    rw [if_pos rfl, find?, find?]
    cases t[pid]? with
    | none => simp
    | some table =>
        simp only [Option.map_some, Option.bind_some, PageTable.getElem?_put, PageId.mk.injEq,
          true_and]
        by_cases hv : v = page
        · rw [if_pos hv, if_pos hv, hv]
        · rw [if_neg hv, if_neg hv]
  · rw [if_neg hq, if_neg (by simp [Ne.symm hq])]
    rfl

theorem sizeOf?_put (t : PageTables) (id : PageId) (e : PageEntry) (q : Pid) :
    sizeOf? (put t id e) q = sizeOf? t q := by
  rw [sizeOf?, sizeOf?, put, Std.TreeMap.getElem?_modify]
  simp only [Std.LawfulEqOrd.compare_eq_iff_eq]
  by_cases hq : id.pid = q
  · rw [if_pos hq, hq, Option.map_map]
    cases t[q]? with
    | none => rfl
    | some table => simp
  · rw [if_neg hq]

/-- The tables after the entry of one page was replaced. -/
structure Replaced (t t' : PageTables) (id : PageId) (e : PageEntry) : Prop where
  sizeOf_eq : ∀ q, t'.sizeOf? q = t.sizeOf? q
  find?_eq : ∀ id', t'.find? id' = if id' = id then some e else t.find? id'

namespace Replaced

theorem of_insert (h : t[id.pid]? = some table) {old : PageEntry} (hold : t.find? id = some old)
    (e : PageEntry) : t.Replaced (t.insert id.pid (table.put id.page e)) id e := by
  have hpage : id.page < table.numPages :=
    PageTable.lt_numPages_iff.2 ⟨old, (find?_of_table h id.page).symm.trans hold⟩
  exact ⟨sizeOf?_insert_of_eq h (PageTable.numPages_put ..), find?_insert_put h hpage e⟩

theorem of_put {old : PageEntry} (hold : t.find? id = some old) (e : PageEntry) :
    t.Replaced (t.put id e) id e := by
  refine ⟨sizeOf?_put t id e, fun id' => ?_⟩
  rw [find?_put, hold]
  rfl

variable {t' : PageTables} {id' : PageId} {e' : PageEntry} (h : t.Replaced t' id e)
include h

theorem self : t'.find? id = some e := by
  rw [h.find?_eq, if_pos rfl]

theorem other (hne : id' ≠ id) : t'.find? id' = t.find? id' := by
  rw [h.find?_eq, if_neg hne]

/-- An entry is the new one of the page, or the old one of another page. -/
theorem eq_or_find? (he' : t'.find? id' = some e') :
    id' = id ∧ e' = e ∨ id' ≠ id ∧ t.find? id' = some e' := by
  rw [h.find?_eq] at he'
  split at he'
  · rename_i hid
    exact .inl ⟨hid, (Option.some.inj he').symm⟩
  · rename_i hid
    exact .inr ⟨hid, he'⟩

end Replaced

end PageTables

end DemandPaging
