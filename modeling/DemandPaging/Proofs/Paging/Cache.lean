import DemandPaging.Proofs.Paging.Run
import DemandPaging.Proofs.Paging.Sound
import DemandPaging.Proofs.Paging.Spending

/-!
# Saving and loading the mapping cache

Saving the cache and loading a mapping keep the invariant, and touch neither frames nor slots. A
sync makes the page tables know of every dirty page, and a mapping is loaded into a slot whose old
entry nobody needs any more.
-/

namespace DemandPaging.Paging

variable {σ : Type} {s : Paging σ}

/-- No valid cache entry is for a page. -/
def Uncached (s : Paging σ) (page : Nat) : Prop :=
  ∀ c ∈ s.processor.cache, c.valid = true → c.page ≠ page

/-- The page size stays, and no page comes into the cache. -/
structure Narrows (s s' : Paging σ) : Prop where
  pageSize_eq : s'.processor.pageSize = s.processor.pageSize
  uncached : ∀ page, s.Uncached page → s'.Uncached page

namespace Narrows

theorem refl (s : Paging σ) : Narrows s s := ⟨rfl, fun _ h => h⟩

theorem trans {s s' s'' : Paging σ} (h : Narrows s s') (h' : Narrows s' s'') : Narrows s s'' :=
  ⟨h'.pageSize_eq.trans h.pageSize_eq, fun page hp => h'.uncached page (h.uncached page hp)⟩

/-- Entries that are valid afterwards were so before, for the same page. -/
theorem of_map {s s' : Paging σ} (hsize : s'.processor.pageSize = s.processor.pageSize)
    {f : Mapping → Mapping} (hcache : s'.processor.cache = s.processor.cache.map f)
    (hf : ∀ c, (f c).valid = true → c.valid = true ∧ (f c).page = c.page) : Narrows s s' := by
  refine ⟨hsize, fun page h c' hc' hvalid => ?_⟩
  rw [hcache] at hc'
  obtain ⟨c, hc, rfl⟩ := List.mem_map.1 hc'
  rw [(hf c hvalid).2]
  exact h c hc (hf c hvalid).1

end Narrows

variable [Extent σ] [Extent.Reliable σ] {live : Population} {pid : Pid} {pins : Multiset Nat}
  {running : Option Pid} {mem : PageId → List UInt8}

/-! ## The page tables and the cache after a sync -/

section Folded

variable {tables : PageTables} {cache : List Mapping} {table table' : PageTable}
  (ht : tables[pid]? = some table)
  (hentries : ∀ page,
    table'.entries[page]? = table.entries[page]?.map (MappingCache.folded cache page))
include ht hentries

omit [Extent σ] [Extent.Reliable σ]

/-- The entries of the process have the bits that the cache had for their pages. -/
theorem find?_folded (page : Nat) :
    PageTables.find? (tables.insert pid table') ⟨pid, page⟩ =
      (tables.find? ⟨pid, page⟩).map (MappingCache.folded cache page) := by
  rw [PageTables.find?_insert, if_pos rfl, hentries, PageTables.find?_of_table ht]

/-- No entry came from nowhere. -/
theorem folded_or_same {id : PageId} {e' : PageEntry}
    (he' : PageTables.find? (tables.insert pid table') id = some e') :
    ∃ e, tables.find? id = some e ∧
      (id.pid = pid ∧ e' = MappingCache.folded cache id.page e ∨ e' = e) := by
  by_cases hid : id.pid = pid
  · obtain ⟨q, page⟩ := id
    obtain rfl : q = pid := hid
    rw [find?_folded ht hentries, Option.map_eq_some_iff] at he'
    obtain ⟨e, he, rfl⟩ := he'
    exact ⟨e, he, .inl ⟨rfl, rfl⟩⟩
  · rw [PageTables.find?_insert, if_neg hid] at he'
    exact ⟨e', he', .inr rfl⟩

/-- A sync touches neither frames nor slots, and forgets no page that is dirty. -/
theorem Still.folded {s s' : Paging σ} (htables : s.tables = tables)
    (htables' : s'.tables = tables.insert pid table') (hframes : s'.frameTable = s.frameTable)
    (hswap : s'.swap = s.swap) : Still s s' := by
  refine ⟨fun f => by rw [hframes], by rw [hframes], by rw [hswap], fun id e he => ?_⟩
  rw [htables] at he
  rw [htables']
  by_cases hid : id.pid = pid
  · obtain ⟨q, page⟩ := id
    obtain rfl : q = pid := hid
    refine ⟨MappingCache.folded cache page e, ?_, rfl, fun hd => by simp [MappingCache.folded, hd]⟩
    rw [find?_folded ht hentries, he]
    rfl
  · refine ⟨e, ?_, rfl, fun hd => hd⟩
    rw [PageTables.find?_insert, if_neg hid]
    exact he

variable (hcoherent : Coherent cache tables (some pid))
include hcoherent

/-- The page tables know of every page that was marked as dirty, and of no other. -/
theorem marked_iff_folded (id : PageId) : Marked cache tables (some pid) id ↔
    ∃ e', PageTables.find? (tables.insert pid table') id = some e' ∧ e'.dirty = true := by
  constructor
  · rintro (⟨e, he, hd⟩ | ⟨hq, c, hc, hvalid, hpage, hd⟩)
    · by_cases hid : id.pid = pid
      · obtain ⟨q, page⟩ := id
        obtain rfl : q = pid := hid
        refine ⟨MappingCache.folded cache page e, ?_, by simp [MappingCache.folded, hd]⟩
        rw [find?_folded ht hentries, he]
        rfl
      · refine ⟨e, ?_, hd⟩
        rw [PageTables.find?_insert, if_neg hid]
        exact he
    · obtain ⟨q, page⟩ := id
      obtain rfl := Option.some.inj hq
      obtain rfl : c.page = page := hpage
      obtain ⟨q, e, hq, he, -⟩ := hcoherent.agrees c hc hvalid
      obtain rfl := Option.some.inj hq
      -- the entry of the cache gives its bit to the table
      have hbit := MappingCache.bitAt_eq_true_iff.2 ⟨c, hc, hvalid, rfl, hd⟩
      refine ⟨MappingCache.folded cache c.page e, ?_, by simp [MappingCache.folded, hbit]⟩
      rw [find?_folded ht hentries, he]
      rfl
  · rintro ⟨e', he', hd⟩
    obtain ⟨e, he, ⟨hid, rfl⟩ | rfl⟩ := folded_or_same ht hentries he'
    · -- the bit was set in the table, or in the cache
      rcases Bool.or_eq_true_iff.1 hd with hd | hd
      · exact .inl ⟨e, he, hd⟩
      · obtain ⟨c, hc, hvalid, hpage, hdirty⟩ := MappingCache.bitAt_eq_true_iff.1 hd
        exact .inr ⟨congrArg some hid.symm, c, hc, hvalid, hpage, hdirty⟩
    · exact .inl ⟨e', he, hd⟩

/-- An entry that is still valid has the bits that its page now has in the table. -/
theorem leftover_agrees {invalidate : Bool} {c' : Mapping}
    (hc' : c' ∈ cache.map (MappingCache.leftover invalidate table')) (hvalid : c'.valid = true) :
    invalidate = false ∧ ∃ e,
      PageTables.find? (tables.insert pid table') ⟨pid, c'.page⟩ = some e ∧
        e.frame = some c'.frame ∧ e.readOnly = c'.readOnly ∧ c'.dirty = e.dirty := by
  obtain ⟨c, hc, rfl⟩ := List.mem_map.1 hc'
  obtain ⟨hinv, hcv, hp, hf, hr, hd⟩ := MappingCache.valid_leftover hvalid
  obtain ⟨q, e, hq, he, hef, her⟩ := hcoherent.agrees c hc hcv
  obtain rfl := Option.some.inj hq
  refine ⟨hinv, MappingCache.folded cache c.page e, ?_, hef.trans (congrArg some hf.symm),
    her.trans hr.symm, ?_⟩
  · rw [hp, find?_folded ht hentries, he]
    rfl
  · -- the entry took over the bits that the table now has
    rw [PageTables.find?_of_table ht] at he
    rw [hd, hentries, he]
    rfl

theorem Coherent.leftover (invalidate : Bool) :
    Coherent (cache.map (MappingCache.leftover invalidate table')) (tables.insert pid table')
      (some pid) := by
  refine ⟨fun c' hc' hvalid => ?_, hcoherent.distinct.map fun c hv => ?_⟩
  · obtain ⟨-, e, he, hf, hr, -⟩ := leftover_agrees ht hentries hcoherent hc' hvalid
    exact ⟨pid, e, rfl, he, hf, hr⟩
  · obtain ⟨-, hcv, hp, -⟩ := MappingCache.valid_leftover hv
    exact ⟨hcv, hp⟩

theorem synced_leftover (invalidate : Bool) :
    Synced (cache.map (MappingCache.leftover invalidate table')) (tables.insert pid table')
      (some pid) := by
  rintro ⟨q, page⟩ (hd | ⟨hq, c', hc', hvalid, hpage, hd⟩)
  · exact hd
  · obtain rfl := Option.some.inj hq
    obtain rfl : c'.page = page := hpage
    obtain ⟨-, e, he, -, -, hdirty⟩ := leftover_agrees ht hentries hcoherent hc' hvalid
    exact ⟨e, he, hdirty.symm.trans hd⟩

end Folded

namespace Sound

/-- A sync keeps the invariant. The page tables know of every dirty page after it, and the cache is
empty if it was to be. -/
theorem synced (h : s.Sound live (some pid) pins mem) {table table' : PageTable}
    (ht : s.tables[pid]? = some table) (hsize : table'.numPages = table.numPages)
    (hentries : ∀ page, table'.entries[page]? =
      table.entries[page]?.map (MappingCache.folded s.processor.cache page))
    (invalidate : Bool) {s' : Paging σ}
    (hs' : s' = { s with
      processor := { s.processor with
        cache := s.processor.cache.map (MappingCache.leftover invalidate table') }
      tables := s.tables.insert pid table' }) :
    s'.Sound live (some pid) pins mem ∧ Synced s'.processor.cache s'.tables (some pid) ∧
      (invalidate = true → s'.Sound live none pins mem) ∧ Narrows s s' := by
  subst hs'
  have hmarked := marked_iff_folded ht hentries h.coherent
  have hsynced := synced_leftover ht hentries h.coherent invalidate
  have hsound := h.retag (s.processor.cache.map (MappingCache.leftover invalidate table'))
    (s.tables.insert pid table') (by rw [List.length_map]; exact h.sized.cache_pos)
    (PageTables.sizeOf?_insert_of_eq ht hsize)
    (fun id e' he' => by
      obtain ⟨e, he, ⟨-, rfl⟩ | rfl⟩ := folded_or_same ht hentries he'
      · exact ⟨e, he, rfl, rfl, rfl⟩
      · exact ⟨e', he, rfl, rfl, rfl⟩)
    (h.coherent.leftover ht hentries invalidate) (fun id hm => .inl ((hmarked id).1 hm))
    (fun id hm => .inl ((hmarked id).2 (hsynced id hm)))
  refine ⟨hsound, hsynced, fun hinv => hsound.switch (fun c' hc' => ?_) none, ?_⟩
  · -- no entry is still valid after a sync that empties the cache
    rw [← Bool.not_eq_true]
    intro hvalid
    obtain ⟨hfalse, -⟩ := leftover_agrees ht hentries h.coherent hc' hvalid
    rw [hinv] at hfalse
    exact Bool.noConfusion hfalse
  · refine Narrows.of_map rfl rfl fun c hv => ?_
    obtain ⟨-, hcv, hp, -⟩ := MappingCache.valid_leftover hv
    exact ⟨hcv, hp⟩

/-- A live process syncs its cache. The page tables know of every dirty page then, and the cache is
empty if it is to be. -/
theorem syncCache_run (h : s.Sound live (some pid) pins mem) {u : UserProcess}
    (hu : live pid = some u) (invalidate : Bool) :
    ∃ s', syncCache pid invalidate s = .ok (.ok (), s') ∧ s'.Sound live (some pid) pins mem ∧
      Synced s'.processor.cache s'.tables (some pid) ∧
      (invalidate = true → s'.Sound live none pins mem) ∧ Narrows s s' ∧ Still s s' := by
  obtain ⟨table, ht, -⟩ := h.inverse.table_of_live hu
  obtain ⟨table', hsync, hsize, hentries⟩ := MappingCache.sync_eq (p := s.processor) invalidate
    (h.coherent.agrees_table ht h.inverse.valid_eq) h.coherent.distinct
  obtain ⟨h1, h2, h3, h4⟩ := h.synced ht hsize hentries invalidate rfl
  refine ⟨_, ?_, h1, h2, h3, h4, .folded ht hentries rfl rfl rfl rfl⟩
  rw [syncCache, bind_ok (tableOf_ok ht), bind_ok (get_run s), hsync]
  rfl

/-- Emptying a cache that has no valid entry changes nothing that matters. -/
theorem flushed (h : s.Sound live running pins mem)
    (hempty : ∀ c ∈ s.processor.cache, c.valid = false) (running' : Option Pid) :
    Sound { s with processor := MappingCache.flush s.processor } live running' pins mem ∧
      Narrows s { s with processor := MappingCache.flush s.processor } := by
  have hflushed : ∀ c ∈ s.processor.cache.map fun _ => Mapping.empty, c.valid = false := by
    intro c hc
    obtain ⟨_, -, rfl⟩ := List.mem_map.1 hc
    exact Mapping.valid_empty
  refine ⟨h.retag (s.processor.cache.map fun _ => Mapping.empty) s.tables
    (by rw [List.length_map]; exact h.sized.cache_pos) (fun _ => rfl)
    (fun _ e he => ⟨e, he, rfl, rfl, rfl⟩) (.of_empty hflushed) ?_ ?_, ?_⟩
  · exact fun id hm => .inl ((marked_iff_of_empty hempty id).1 hm)
  · exact fun id hm => .inl (.inl ((marked_iff_of_empty hflushed id).1 hm))
  · exact .of_map rfl rfl fun c hv => nomatch hv

/-- The cache has no valid entry once the process has ended. -/
theorem empty_of_ended (h : s.Sound live (some pid) pins mem) (hend : live pid = none) :
    ∀ c ∈ s.processor.cache, c.valid = false := by
  intro c hc
  rw [← Bool.not_eq_true]
  intro hvalid
  obtain ⟨q, e, hq, he, -⟩ := h.coherent.agrees c hc hvalid
  obtain rfl := Option.some.inj hq
  rw [PageTables.find?, h.inverse.table_eq_none hend] at he
  cases he

/-- A process that leaves the processor saves its cache, or just empties it when it has ended. -/
theorem saveCache_run (h : s.Sound live (some pid) pins mem) :
    ∃ s', saveCache pid s = .ok (.ok (), s') ∧ s'.Sound live none pins mem ∧ Narrows s s' ∧
      Still s s' := by
  cases hu : live pid with
  | some u =>
      obtain ⟨table, ht, -⟩ := h.inverse.table_of_live hu
      obtain ⟨s', hrun, -, -, hnone, hnarrow, hstill⟩ := h.syncCache_run hu true
      refine ⟨s', ?_, hnone rfl, hnarrow, hstill⟩
      -- the process is alive as long as it has a page table
      have hcontains : s.tables.contains pid = true := by
        rw [Std.TreeMap.contains_eq_isSome_getElem?, ht]
        rfl
      rw [saveCache, bind_ok (get_run s), if_pos hcontains, hrun]
  | none =>
      have hnone := h.inverse.table_eq_none hu
      have hcontains : ¬ s.tables.contains pid = true := by
        rw [Std.TreeMap.contains_eq_isSome_getElem?, hnone]
        exact Bool.false_ne_true
      obtain ⟨hflushed, hnarrow⟩ := h.flushed (h.empty_of_ended hu) none
      refine ⟨_, ?_, hflushed, hnarrow, .of_eq rfl rfl rfl⟩
      rw [saveCache, bind_ok (get_run s), if_neg hcontains]
      rfl

/-- The mapping of a resident page may be put into a slot whose old entry is not valid, or has no
bit that the page tables do not know of. -/
theorem setSlot (h : s.Sound live (some pid) pins mem) {slot : Nat} {c c' : Mapping}
    (hslot : s.processor.cache[slot]? = some c)
    (hold : c.valid = false ∨ Synced s.processor.cache s.tables (some pid))
    (huncached : s.Uncached c'.page) {e : PageEntry} (he : s.tables.find? ⟨pid, c'.page⟩ = some e)
    (hf : e.frame = some c'.frame) (hr : e.readOnly = c'.readOnly)
    (hd : c'.dirty = true → e.dirty = true) :
    Sound { s with processor := { s.processor with cache := s.processor.cache.set slot c' } } live
      (some pid) pins mem := by
  refine h.retag (s.processor.cache.set slot c') s.tables
    (by rw [List.length_set]; exact h.sized.cache_pos) (fun _ => rfl)
    (fun _ e he => ⟨e, he, rfl, rfl, rfl⟩)
    ⟨fun c0 hc0 hvalid => ?_, h.coherent.distinct.set huncached slot⟩ ?_ ?_
  · rcases List.mem_or_eq_of_mem_set hc0 with hmem | rfl
    · exact h.coherent.agrees c0 hmem hvalid
    · exact ⟨pid, e, rfl, he, hf, hr⟩
  · rintro id (htable | ⟨hrun, c0, hc0, hvalid, hpage, hdirty⟩)
    · exact .inl htable
    · obtain ⟨i, hi⟩ := List.mem_iff_getElem?.1 hc0
      by_cases his : i = slot
      · -- the entry that is overwritten
        subst his
        rw [hslot] at hi
        obtain rfl := Option.some.inj hi
        rcases hold with hinvalid | hsynced
        · rw [hvalid] at hinvalid
          exact Bool.noConfusion hinvalid
        · exact .inl (hsynced id (.inr ⟨hrun, c, hc0, hvalid, hpage, hdirty⟩))
      · refine .inr ⟨hrun, c0, List.mem_iff_getElem?.2 ⟨i, ?_⟩, hvalid, hpage, hdirty⟩
        rw [List.getElem?_set_ne (Ne.symm his)]
        exact hi
  · rintro id (htable | ⟨hrun, c0, hc0, hvalid, hpage, hdirty⟩)
    · exact .inl (.inl htable)
    · rcases List.mem_or_eq_of_mem_set hc0 with hmem | rfl
      · exact .inl (.inr ⟨hrun, c0, hmem, hvalid, hpage, hdirty⟩)
      · obtain ⟨q, v⟩ := id
        obtain rfl := Option.some.inj hrun
        obtain rfl : c0.page = v := hpage
        exact .inl (.inl ⟨e, he, hd hdirty⟩)

/-- How a mapping is loaded once the slot for it is known. The entry to be loaded is the one that
the page had before the slot was chosen. -/
theorem loadMapping_of_slot {table table' : PageTable} {page f slot : Nat} {e : PageEntry}
    (e' : PageEntry) {p : Processor} {r : Random} {c : Mapping} (ht : s.tables[pid]? = some table)
    (he : table.entries[page]? = some e) (hf : e.frame = some f) (hvalid : e.valid = true)
    (hpage : page ≤ Address.maxPageNumber) (hframe : f ≤ Address.maxPageNumber)
    (hfill : MappingCache.slotToFill s.processor table s.rng = .ok (.ok slot, p, table', r))
    (h : Sound { s with processor := p, tables := s.tables.insert pid table' } live (some pid) pins
      mem)
    (huncached : ∀ c ∈ p.cache, c.valid = true → c.page ≠ page) (hslot : p.cache[slot]? = some c)
    (hold : c.valid = false ∨ Synced p.cache (s.tables.insert pid table') (some pid))
    (he' : PageTables.find? (s.tables.insert pid table') ⟨pid, page⟩ = some e')
    (hf' : e'.frame = e.frame) (hr' : e'.readOnly = e.readOnly)
    (hd' : e.dirty = true → e'.dirty = true)
    (hstill : Still s { s with tables := s.tables.insert pid table' }) :
    ∃ s', loadMapping ⟨pid, page⟩ s = .ok (.ok (), s') ∧ s'.Sound live (some pid) pins mem ∧
      s'.processor.pageSize = p.pageSize ∧ Still s s' := by
  obtain ⟨hlt, -⟩ := List.getElem?_eq_some_iff.1 hslot
  obtain ⟨c', hload, -, rfl, rfl, hcr, hcd⟩ := MappingCache.load_eq hlt hvalid hf hpage hframe
  have hset := h.setSlot hslot hold huncached he' (hf'.trans hf) (hr'.trans hcr.symm)
    (fun hd => hd' (hcd.symm.trans hd))
  refine ⟨{ s with
    processor := { p with cache := p.cache.set slot c' }, rng := r,
    tables := s.tables.insert pid table' }, ?_,
    ⟨hset.sized, hset.frames, hset.swap, hset.inverse, hset.coherent, hset.keeps⟩, rfl,
    hstill.trans (.of_eq rfl rfl rfl)⟩
  rw [loadMapping, bind_ok (tableOf_ok ht), bind_ok (orFail_ok (PageTable.lookup_eq_ok_iff.2 he)),
    bind_ok (get_run s), bind_ok (orHalt_ok hfill)]
  show (orHalt (MappingCache.load p slot c'.page e) >>= fun processor =>
    modify fun s => { s with processor }) _ = _
  rw [bind_ok (orHalt_ok hload)]
  rfl

/-- The mapping of a resident page without a cache entry is loaded. -/
theorem loadMapping_run (h : s.Sound live (some pid) pins mem) {page f : Nat} {e : PageEntry}
    (he : s.tables.find? ⟨pid, page⟩ = some e) (hf : e.frame = some f)
    (huncached : s.Uncached page) :
    ∃ s', loadMapping ⟨pid, page⟩ s = .ok (.ok (), s') ∧ s'.Sound live (some pid) pins mem ∧
      s'.processor.pageSize = s.processor.pageSize ∧ Still s s' := by
  obtain ⟨u, hu, hlt⟩ := h.inverse.live_of_find? he
  have hpage : page ≤ Address.maxPageNumber := by
    have hlt : page < u.numPages := hlt
    have := h.inverse.numPages_le pid u hu
    omega
  have hframe : f ≤ Address.maxPageNumber := by
    have := (h.frame_of_resident he hf).2.1
    have := h.sized.numFrames_le
    omega
  have hvalid := h.inverse.valid_of_frame he hf
  obtain ⟨table, ht, -⟩ := h.inverse.table_of_live hu
  have ht : s.tables[pid]? = some table := ht
  have hentry : table.entries[page]? = some e := (PageTables.find?_of_table ht page).symm.trans he
  rcases MappingCache.slotToFill_eq s.rng (h.coherent.agrees_table ht h.inverse.valid_eq)
      h.coherent.distinct h.sized.cache_pos with
    ⟨slot, c, hfill, hslot, hinvalid⟩ | ⟨slot, table', r, hfill, hslot, hsize, hentries⟩
  · -- the slot was free, and the table is written back as it was
    have hsame : ∀ id, PageTables.find? (s.tables.insert pid table) id = s.tables.find? id := by
      rintro ⟨q, v⟩
      rw [PageTables.find?_insert]
      by_cases hq : q = pid
      · subst hq
        rw [if_pos rfl, PageTables.find?_of_table ht]
      · rw [if_neg hq]
    have hmarked : ∀ id, Marked s.processor.cache (s.tables.insert pid table) (some pid) id ↔
        Marked s.processor.cache s.tables (some pid) id := fun id => by
      rw [Marked, Marked, hsame]
    have hback := h.retag s.processor.cache (s.tables.insert pid table)
      h.sized.cache_pos (PageTables.sizeOf?_insert_of_eq ht rfl)
      (fun id e' he' => ⟨e', by rw [← hsame]; exact he', rfl, rfl, rfl⟩)
      ⟨fun c hc hv => by
        obtain ⟨q, e0, hq, he0, hrest⟩ := h.coherent.agrees c hc hv
        exact ⟨q, e0, hq, by rw [hsame]; exact he0, hrest⟩, h.coherent.distinct⟩
      (fun id => (hmarked id).2) (fun id hm => .inl ((hmarked id).1 hm))
    exact loadMapping_of_slot _ ht hentry hf hvalid hpage hframe hfill hback huncached hslot
      (.inl hinvalid) ((hsame _).trans he) rfl rfl id
      ⟨fun _ => rfl, rfl, rfl, fun id' e' he' => ⟨e', (hsame id').trans he', rfl, id⟩⟩
  · -- the slot was taken, and the cache was synced to free it
    obtain ⟨hsync, hsynced, -, hnarrow⟩ := h.synced ht hsize hentries false rfl
    refine loadMapping_of_slot (MappingCache.folded s.processor.cache page e)
      (p := { s.processor with
        cache := s.processor.cache.map (MappingCache.leftover false table') })
      ht hentry hf hvalid hpage hframe hfill hsync (hnarrow.uncached page huncached)
      (List.getElem?_eq_getElem (by rw [List.length_map]; exact hslot)) (.inr hsynced)
      ?_ rfl rfl ?_ (.folded ht hentries rfl rfl rfl rfl)
    · rw [PageTables.find?_insert, if_pos rfl, hentries, hentry]
      rfl
    · intro hd
      simp [MappingCache.folded, hd]

end Sound

end DemandPaging.Paging
