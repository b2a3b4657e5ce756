import DemandPaging.Proofs.Paging.Access
import DemandPaging.Proofs.Paging.Fault
import DemandPaging.Proofs.Results

/-!
# What a handled miss leaves in the cache

However a miss was handled, and whoever slept in between: when the mapping is said to be loaded, the
cache has a valid entry for the page (`cached_of_handleMiss`, `cached_of_resumeFault`). So the
processor finds the page, or finds that it may not be written (`Sound.locate_cached`).
-/

namespace DemandPaging.Paging

variable {σ : Type} {s s' : Paging σ} {page : Nat}

/-- A valid cache entry is for a page. -/
def Cached (s : Paging σ) (page : Nat) : Prop :=
  ∃ c ∈ s.processor.cache, c.valid = true ∧ c.page = page

theorem Cached.not_uncached (h : s.Cached page) : ¬ s.Uncached page := by
  obtain ⟨c, hc, hvalid, hpage⟩ := h
  exact fun hun => hun c hc hvalid hpage

/-- A mapping that was put into a slot is in the cache. -/
theorem cached_of_load {p p' : Processor} {slot : Nat} {entry : PageEntry}
    (h : MappingCache.load p slot page entry = .ok p') :
    ∃ c ∈ p'.cache, c.valid = true ∧ c.page = page := by
  rw [MappingCache.load] at h
  split at h
  · obtain ⟨c, hc, h⟩ := ok_of_bind h
    rw [Processor.setCacheEntry] at h
    split at h
    · rename_i hslot
      obtain rfl := Except.ok.inj h
      obtain ⟨hpage, -, -, hvalid, -⟩ := Mapping.fields_of_create hc
      refine ⟨_, List.mem_iff_getElem?.2 ⟨slot, List.getElem?_set_self hslot⟩, ?_, ?_⟩
      · rw [Mapping.valid_withDirty, hvalid]
      · rw [Mapping.page_withDirty, hpage]
    · cases h
  · cases h

theorem cached_of_loadMapping {id : PageId} (h : loadMapping id s = .ok (.ok (), s')) :
    s'.Cached id.page := by
  -- of all that is done only the last part counts, which puts the mapping into a slot
  obtain ⟨table, _, -, h⟩ := run_of_bind h
  obtain ⟨entry, _, -, h⟩ := run_of_bind h
  obtain ⟨_, _, -, h⟩ := run_of_bind h
  obtain ⟨⟨result, processor, table', rng⟩, _, -, h⟩ := run_of_bind h
  obtain ⟨_, _, -, h⟩ := run_of_bind h
  obtain ⟨_, _, -, h⟩ := run_of_bind h
  obtain ⟨slot, _, -, h⟩ := run_of_bind h
  obtain ⟨processor', _, hload, h⟩ := run_of_bind h
  obtain ⟨_, hentry, heq⟩ := ok_of_map hload
  obtain rfl := Except.ok.inj (Prod.mk.inj heq).1
  obtain ⟨-, rfl⟩ := Prod.mk.inj (Except.ok.inj h)
  exact cached_of_load hentry

variable [Extent σ] {process : UserProcess} {victim wakeUps : Nat}

theorem cached_of_settleFault {found : FrameSearch}
    (h : settleFault process page found s = .ok (.ok (.loaded wakeUps), s')) : s'.Cached page := by
  cases found with
  | needsSlot victim => cases h
  | found frame passOn =>
      obtain ⟨slotFreed, _, -, h⟩ := run_of_bind h
      obtain ⟨_, _, hload, h⟩ := run_of_bind h
      obtain ⟨-, rfl⟩ := Prod.mk.inj (Except.ok.inj h)
      exact cached_of_loadMapping hload

theorem cached_of_handleMiss {address : Nat}
    (h : handleMiss process address s = .ok (.ok (.loaded wakeUps), s')) :
    s'.Cached (Address.page s.processor.pageSize address) := by
  obtain ⟨_, _, hcount, h⟩ := run_of_bind h
  obtain ⟨-, rfl⟩ := Prod.mk.inj (Except.ok.inj hcount)
  obtain ⟨_, _, hget, h⟩ := run_of_bind h
  obtain ⟨heq, rfl⟩ := Prod.mk.inj (Except.ok.inj hget)
  obtain rfl := Except.ok.inj heq
  obtain ⟨table, _, -, h⟩ := run_of_bind h
  cases hlookup : table.lookup (Address.page s.processor.pageSize address) with
  | error cause =>
      simp only [hlookup] at h
      cases h
  | ok entry =>
      simp only [hlookup] at h
      by_cases hvalid : entry.valid = true
      · -- the page was in memory
        rw [if_pos hvalid] at h
        obtain ⟨_, _, hload, h⟩ := run_of_bind h
        obtain ⟨-, rfl⟩ := Prod.mk.inj (Except.ok.inj h)
        exact cached_of_loadMapping hload
      · -- a frame had to be found first
        rw [if_neg hvalid] at h
        obtain ⟨_, _, -, h⟩ := run_of_bind h
        obtain ⟨found, _, -, h⟩ := run_of_bind h
        exact cached_of_settleFault h

theorem cached_of_resumeFault
    (h : resumeFault process page victim s = .ok (.ok (.loaded wakeUps), s')) : s'.Cached page := by
  obtain ⟨found, _, -, h⟩ := run_of_bind h
  exact cached_of_settleFault h

namespace Sound

variable [Extent.Reliable σ] {live : Population} {pid : Pid} {pins : Multiset Nat}
  {mem : PageId → List UInt8}

/-- A page that is in the cache is in memory, and its process is alive. -/
theorem resident_of_cached (h : s.Sound live (some pid) pins mem) (hcached : s.Cached page) :
    ∃ u e, live pid = some u ∧ s.tables.find? ⟨pid, page⟩ = some e ∧ e.valid = true := by
  obtain ⟨c, hc, hvalid, rfl⟩ := hcached
  obtain ⟨q, e, hq, he, hf, -⟩ := h.coherent.agrees c hc hvalid
  obtain rfl := Option.some.inj hq
  obtain ⟨u, hu, -⟩ := h.inverse.live_of_find? he
  exact ⟨u, e, hu, he, h.inverse.valid_of_frame he hf⟩

/-- The processor does not miss a page that is in the cache. -/
theorem locate_cached (h : s.Sound live (some pid) pins mem) {address : Nat}
    (hcached : s.Cached (Address.page s.processor.pageSize address)) (writing : Bool) :
    ∃ u e r p, live pid = some u ∧
      s.tables.find? ⟨pid, Address.page s.processor.pageSize address⟩ = some e ∧ e.valid = true ∧
      s.processor.locate address writing = .ok (r, p) ∧
      ((∃ l, r = .ok l ∧ e.frame = some l.frame) ∨
        r = .error .readOnly ∧ writing = true ∧
          u.image.isReadOnly (Address.page s.processor.pageSize address) = true) := by
  obtain ⟨u, e, hu, he, hvalid⟩ := h.resident_of_cached hcached
  obtain ⟨r, p, hrun, hlocated⟩ := h.locate_run address writing
  refine ⟨u, e, r, p, hu, he, hvalid, hrun, ?_⟩
  cases hlocated with
  | miss hun => exact absurd hun hcached.not_uncached
  | readOnly hw he' hf hr =>
      obtain rfl := Option.some.inj (he.symm.trans he')
      exact .inr ⟨rfl, hw, (h.inverse.readOnly_eq _ e u he hf hu).symm.trans hr⟩
  | hit he' hf =>
      obtain rfl := Option.some.inj (he.symm.trans he')
      exact .inl ⟨_, rfl, hf⟩

end Sound

end DemandPaging.Paging
