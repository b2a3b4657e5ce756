import DemandPaging.Paging.Eviction
import DemandPaging.Proofs.Paging.Cache
import DemandPaging.Proofs.Replacement

/-!
# Eviction keeps the invariant

A victim is chosen after a sync, so the page tables know of every dirty page when one is pushed out.
A dirty page is stored in a swap slot; a clean one starts with what it holds, so it may be
forgotten. An evictor that finds no slot leaves everything as it was, and the cache empty.
-/

namespace DemandPaging.Paging

variable {σ : Type} {s : Paging σ} [Extent σ] [Extent.Reliable σ] {live : Population}
  {running : Option Pid} {pid : Pid} {pins : Multiset Nat} {mem : PageId → List UInt8}

omit [Extent σ] [Extent.Reliable σ] in
theorem residentEntry_ok {f : Nat} {id : PageId} {e : PageEntry}
    (he : s.tables.find? id = some e) (hvalid : e.valid = true) (hf : e.frame = some f) :
    residentEntry f id s = .ok (.ok e, s) := by
  have hok : (e.valid && decide (e.frame = some f)) = true := by
    rw [hvalid, hf]
    simp
  rw [residentEntry, bind_ok (get_run s), PageTables.lookup_eq_ok_iff.2 he]
  show (if e.valid && decide (e.frame = some f) then pure e
    else throw _ : PagingM σ PageEntry) s = _
  rw [if_pos hok, pure_run]

omit [Extent σ] [Extent.Reliable σ] in
theorem invalidate_ok {f : Nat} {id : PageId} {table : PageTable} {e : PageEntry}
    (ht : s.tables[id.pid]? = some table) (he : table.entries[id.page]? = some e) :
    invalidate f id s = .ok (.ok (), { s with
      processor := MappingCache.dropFrame s.processor f
      tables := s.tables.insert id.pid (table.put id.page { readOnly := e.readOnly }) }) := by
  have hforget : table.forget id.page = .ok (table.put id.page { readOnly := e.readOnly }) := by
    rw [PageTable.forget, PageTable.lookup_eq_ok_iff.2 he]
    rfl
  rw [invalidate, bind_ok (tableOf_ok ht), bind_ok (get_run s)]
  show (orFail (table.forget id.page) >>= setTable id.pid) _ = _
  rw [bind_ok (orFail_ok hforget)]
  rfl

/-! ## A page leaves its frame -/

section Vacated

variable {tables tables' : PageTables} {id : PageId} {e : PageEntry} {victim : Nat}
  (htables : tables.Replaced tables' id { readOnly := e.readOnly })
  (he : tables.find? id = some e) (hf : e.frame = some victim)
include htables he hf

omit [Extent σ] [Extent.Reliable σ] in
/-- Pages in other frames have the entries that they had. -/
theorem find?_vacated_iff {id' : PageId} {e' : PageEntry} {f : Nat} (hf' : e'.frame = some f)
    (hne : f ≠ victim) : tables'.find? id' = some e' ↔ tables.find? id' = some e' := by
  by_cases hid : id' = id
  · constructor
    · intro he'
      -- the entry that the page has now is in no frame
      rcases htables.eq_or_find? he' with ⟨-, rfl⟩ | ⟨hother, -⟩
      · cases hf'
      · exact absurd hid hother
    · intro he'
      rw [hid, he] at he'
      obtain rfl := Option.some.inj he'
      exact absurd (Option.some.inj (hf'.symm.trans hf)) hne
  · rw [htables.other hid]

omit [Extent σ] [Extent.Reliable σ] in
theorem Inverse.vacated {frames frames' : FrameTable} (h : Inverse tables frames live)
    (howner : ∀ g, frames'.owner g = if g = victim then none else frames.owner g) :
    Inverse tables' frames' live := by
  refine ⟨fun pid => (htables.sizeOf_eq pid).trans (h.sizeOf_eq pid), h.numPages_le, ?_, ?_, ?_⟩
  · intro id' e' he'
    rcases htables.eq_or_find? he' with ⟨-, rfl⟩ | ⟨-, he'⟩
    · rfl
    · exact h.valid_eq id' e' he'
  · -- an owned frame: the victim has no owner, and no other page was in it
    intro f id'
    rw [howner]
    by_cases hfv : f = victim
    · rw [if_pos hfv]
      constructor
      · intro hnone
        cases hnone
      · rintro ⟨e', he', hf'⟩
        rcases htables.eq_or_find? he' with ⟨-, rfl⟩ | ⟨hother, he'⟩
        · cases hf'
        · exact absurd (h.frame_inj he' (hfv ▸ hf') he hf) hother
    · rw [if_neg hfv, h.owner_iff]
      exact exists_congr fun e' => and_congr_left fun hf' =>
        (find?_vacated_iff htables he hf hf' hfv).symm
  · intro id' e' u he' hsome hu
    rcases htables.eq_or_find? he' with ⟨-, rfl⟩ | ⟨-, he'⟩
    · cases hsome
    · exact h.readOnly_eq id' e' u he' hsome hu

variable {p : Processor} (hcoherent : Coherent p.cache tables running)
include hcoherent

omit [Extent σ] [Extent.Reliable σ] in
theorem Coherent.vacated : Coherent (MappingCache.dropFrame p victim).cache tables' running := by
  refine ⟨fun c hc hvalid => ?_, hcoherent.distinct.map fun c hv => MappingCache.valid_drop hv⟩
  obtain ⟨hmem, hne⟩ := (MappingCache.mem_dropFrame_iff hvalid).1 hc
  obtain ⟨pid, e', hpid, he', hf', hr'⟩ := hcoherent.agrees c hmem hvalid
  exact ⟨pid, e', hpid, (find?_vacated_iff htables he hf hf' hne).2 he', hf', hr'⟩

omit [Extent σ] [Extent.Reliable σ] in
/-- What is still marked as dirty is another page, and was so before. -/
theorem marked_of_vacated {id' : PageId}
    (hm : Marked (MappingCache.dropFrame p victim).cache tables' running id') :
    id' ≠ id ∧ Marked p.cache tables running id' := by
  obtain ⟨q, v⟩ := id'
  rcases hm with ⟨e', he', hd⟩ | ⟨hrun, c, hc, hvalid, hpage, hd⟩
  · rcases htables.eq_or_find? he' with ⟨-, rfl⟩ | ⟨hne, he'⟩
    · cases hd
    · exact ⟨hne, .inl ⟨e', he', hd⟩⟩
  · obtain ⟨hmem, hne⟩ := (MappingCache.mem_dropFrame_iff hvalid).1 hc
    obtain ⟨pid, e', hpid, he', hf', -⟩ := hcoherent.agrees c hmem hvalid
    obtain rfl : pid = q := Option.some.inj (hpid.symm.trans hrun)
    obtain rfl : c.page = v := hpage
    -- entries of the cache for the frame were dropped, so this one is for another page
    refine ⟨?_, .inr ⟨hrun, c, hmem, hvalid, rfl, hd⟩⟩
    rintro rfl
    rw [he] at he'
    obtain rfl := Option.some.inj he'
    exact hne (Option.some.inj (hf'.symm.trans hf))

/-- The page has its contents in its slot if it was dirty, and in its image if not. For this the
page tables have to know whether it was dirty. -/
theorem Keeps.vacated {swap swap' : SwapArea σ} (h : Keeps p tables swap live running mem)
    (hsynced : Synced p.cache tables running)
    (hsaved : ∀ id', swap'.saved? id' =
      if id' = id ∧ e.dirty = true then some (mem id) else swap.saved? id') :
    Keeps (MappingCache.dropFrame p victim) tables' swap' live running mem := by
  refine ⟨?_, ?_, ?_, ?_, ?_⟩
  · -- a page in memory
    intro id' e' f he' hf'
    rcases htables.eq_or_find? he' with ⟨-, rfl⟩ | ⟨-, he'⟩
    · cases hf'
    · exact h.resident id' e' f he' hf'
  · -- a page with a slot: the slot is the one just written, or an old one
    intro id' bytes hbytes
    rw [hsaved] at hbytes
    split at hbytes
    · rename_i hid
      obtain rfl := Option.some.inj hbytes
      obtain ⟨rfl, -⟩ := hid
      exact ⟨rfl, _, htables.self, rfl⟩
    · obtain ⟨hmem, e', he', hf'⟩ := h.saved id' bytes hbytes
      refine ⟨hmem, e', ?_, hf'⟩
      rw [htables.other, he']
      rintro rfl
      rw [he] at he'
      obtain rfl := Option.some.inj he'
      rw [hf] at hf'
      cases hf'
  · -- a page that is nowhere
    intro id' e' u he' hf' hnone hu
    rw [hsaved] at hnone
    rcases htables.eq_or_find? he' with ⟨rfl, -⟩ | ⟨hne, he'⟩
    · -- the page has no slot, so it was not dirty
      refine h.clean id' e u he (by rw [hf]; rfl) (fun hm => ?_) hu
      obtain ⟨e0, he0, hd⟩ := hsynced id' hm
      rw [he] at he0
      obtain rfl := Option.some.inj he0
      rw [if_pos ⟨rfl, hd⟩] at hnone
      cases hnone
    · rw [if_neg (fun hand => hne hand.1)] at hnone
      exact h.absent id' e' u he' hf' hnone hu
  · -- a page in memory that is not dirty
    intro id' e' u he' hsome hm hu
    rcases htables.eq_or_find? he' with ⟨-, rfl⟩ | ⟨hne, he'⟩
    · cases hsome
    · refine h.clean id' e' u he' hsome (fun hm' => hm ?_) hu
      obtain ⟨e0, he0, hd⟩ := hsynced id' hm'
      exact .inl ⟨e0, (htables.other hne).trans he0, hd⟩
  · -- a page of a read-only section: it was not dirty, so it was not stored
    intro id' u hu hro
    obtain ⟨hnone, hunmarked⟩ := h.readOnly id' u hu hro
    refine ⟨?_, fun hm => hunmarked (marked_of_vacated htables he hf hcoherent hm).2⟩
    rw [hsaved, if_neg, hnone]
    rintro ⟨rfl, hd⟩
    exact hunmarked (.inl ⟨e, he, hd⟩)

end Vacated

namespace Sound

/-- The state after a page left its frame: with a slot if it was dirty, and forgotten if not. -/
theorem evicted (h : s.Sound live running pins mem)
    (hsynced : Synced s.processor.cache s.tables running) {victim : Nat} {id : PageId}
    {e : PageEntry} {table : PageTable} (he : s.tables.find? id = some e)
    (hf : e.frame = some victim) (ht : s.tables[id.pid]? = some table) {swap : SwapArea σ}
    (hswap : swap.Sound) (hswapSize : swap.pageSize = s.swap.pageSize)
    (hsaved : ∀ id', swap.saved? id' =
      if id' = id ∧ e.dirty = true then some (mem id) else s.swap.saved? id')
    {frameTable : FrameTable} (hframes : frameTable.Sound pins)
    (hsize : frameTable.size = s.frameTable.size)
    (howner : ∀ g, frameTable.owner g = if g = victim then none else s.frameTable.owner g)
    (counters : Counters) :
    Sound { s with
      processor := MappingCache.dropFrame s.processor victim
      tables := s.tables.insert id.pid (table.put id.page { readOnly := e.readOnly })
      swap, frameTable, counters } live running pins mem := by
  have htables := PageTables.Replaced.of_insert ht he { readOnly := e.readOnly }
  refine ⟨⟨h.sized.pageSize_pos, h.sized.length_frame, h.sized.numFrames_eq.trans hsize.symm,
    h.sized.numFrames_pos, h.sized.numFrames_le, ?_, hswapSize.trans h.sized.swap_pageSize⟩,
    hframes, hswap, h.inverse.vacated htables he hf howner, h.coherent.vacated htables he hf,
    h.keeps.vacated htables he hf h.coherent hsynced hsaved⟩
  show 0 < (s.processor.cache.map _).length
  rw [List.length_map]
  exact h.sized.cache_pos

/-- The frame of a resident page has the bytes of the page, as many as a slot. -/
theorem bytes_of_resident (h : s.Sound live running pins mem) {f : Nat} {id : PageId}
    {e : PageEntry} (he : s.tables.find? id = some e) (hf : e.frame = some f) :
    s.processor.frame f = .ok (mem id) ∧ (mem id).length = s.swap.pageSize := by
  obtain ⟨-, hlt, hmem⟩ := h.frame_of_resident he hf
  obtain ⟨bytes, hbytes, hmem', hlen⟩ := h.frame_eq hlt
  obtain rfl : mem id = bytes := Option.some.inj (hmem.symm.trans hmem')
  exact ⟨hbytes, hlen.trans h.sized.swap_pageSize.symm⟩

/-- A resident page has no slot. -/
theorem lookup_eq_none_of_resident (h : s.Sound live running pins mem) {f : Nat} {id : PageId}
    {e : PageEntry} (he : s.tables.find? id = some e) (hf : e.frame = some f) :
    s.swap.lookup id = none := by
  rw [← SwapArea.saved?_eq_none_iff]
  cases hs : s.swap.saved? id with
  | none => rfl
  | some bytes =>
      obtain ⟨-, e', he', hf'⟩ := h.keeps.saved id bytes hs
      rw [he] at he'
      obtain rfl := Option.some.inj he'
      rw [hf] at hf'
      cases hf'

/-- A dirty page is stored if there is a free slot, and a clean one is let be. -/
theorem save_run (h : s.Sound live running pins mem) {f : Nat} {id : PageId} {e : PageEntry}
    (he : s.tables.find? id = some e) (hf : e.frame = some f) :
    (∃ swap counters, save f id e s = .ok (.ok (), { s with swap, counters }) ∧ swap.Sound ∧
        swap.pageSize = s.swap.pageSize ∧
        swap.free.length + e.dirty.toNat = s.swap.free.length ∧ ∀ id', swap.saved? id' =
          if id' = id ∧ e.dirty = true then some (mem id) else s.swap.saved? id') ∨
      save f id e s = .ok (.error .swapExhausted, s) ∧ e.dirty = true ∧ s.swap.free = [] := by
  rw [save]
  by_cases hd : e.dirty = true
  · obtain ⟨hbytes, hdata⟩ := h.bytes_of_resident he hf
    -- a page in memory has no slot, so the slot that it gets is its only one
    have hlookup := h.lookup_eq_none_of_resident he hf
    rw [if_pos hd, bind_ok (frameBytes_ok hbytes)]
    cases hfree : s.swap.free with
    | nil =>
        have hstore := SwapArea.Sound.store_exhausted hfree hlookup hdata
        refine .inr ⟨bind_error ?_, hd, rfl⟩
        rw [swapOut_run, hstore]
        rfl
    | cons slot rest =>
        obtain ⟨swap, hstore, hsound, hsize, hrest, hsaved⟩ :=
          h.swap.store_eq hfree hlookup hdata
        have hout : swapOut id (mem id) s = .ok (.ok (), { s with swap }) := by
          rw [swapOut_run, hstore]
          rfl
        refine .inl ⟨swap, _, by rw [bind_ok hout, count_run], hsound, hsize, ?_, fun id' => ?_⟩
        · rw [hrest, hd]
          rfl
        · rw [hsaved]
          simp only [hd, and_true]
  · rw [if_neg hd]
    refine .inl ⟨s.swap, s.counters, pure_run _ _, h.swap, rfl, ?_, fun id' => ?_⟩
    · rw [Bool.not_eq_true] at hd
      rw [hd]
      rfl
    · rw [if_neg (fun hand => hd hand.2)]

/-- A pinned victim is pushed out, unless its page is dirty and there is no free slot. -/
theorem evict_run (h : s.Sound live running pins mem)
    (hsynced : Synced s.processor.cache s.tables running) {victim : Nat} (hv : victim ∈ pins) :
    (∃ s', evict victim s = .ok (.ok (), s') ∧ s'.Sound live running pins mem ∧ Narrows s s' ∧
        Evicts victim s s') ∨
      evict victim s = .ok (.error .swapExhausted, s) ∧ s.swap.free = [] ∧
        (s.frameTable.owner victim).isSome = true ∧ s.Laden victim := by
  rw [evict, bind_ok (get_run s)]
  cases howner : s.frameTable.owner victim with
  | none =>
      refine .inl ⟨s, pure_run _ _, h, .refl s, fun f => ?_, rfl, ?_, fun _ _ _ he _ _ => he⟩
      · by_cases hf : f = victim
        · rw [if_pos hf, hf, howner]
        · rw [if_neg hf]
      · rw [due, howner]
        rfl
  | some id =>
      obtain ⟨e, he, hf⟩ := (h.inverse.owner_iff victim id).1 howner
      obtain ⟨u, hu, -⟩ := h.inverse.live_of_find? he
      obtain ⟨table, ht, -⟩ := h.inverse.table_of_live hu
      have hvalid := h.inverse.valid_of_frame he hf
      have hentry : table.entries[id.page]? = some e :=
        (PageTables.find?_of_table ht id.page).symm.trans he
      show (∃ s', (residentEntry victim id >>= _) s = _ ∧ _) ∨
        (residentEntry victim id >>= _) s = _ ∧ _
      rw [bind_ok (residentEntry_ok he hvalid hf)]
      rcases h.save_run he hf with
        ⟨swap, counters, hsave, hswap, hsize, hslots, hsaved⟩ | ⟨hsave, hd, hfull⟩
      · obtain ⟨frameTable, hvacate, hframes, hframesSize, hfree, howners⟩ :=
          h.frames.vacate_eq hv
        have htables := PageTables.Replaced.of_insert ht he { readOnly := e.readOnly }
        refine .inl ⟨_, ?_, h.evicted hsynced he hf ht hswap hsize hsaved hframes hframesSize
          howners { counters with evictions := counters.evictions + 1 }, ?_, howners, hfree, ?_,
          fun id' e' f he' hf' hne => (find?_vacated_iff htables he hf hf' hne).2 he'⟩
        · have hinvalid := invalidate_ok (s := { s with swap, counters }) (f := victim) ht hentry
          rw [bind_ok hsave, bind_ok hinvalid, bind_ok (changeFrames_ok (t := frameTable) hvacate)]
          rfl
        · exact .of_map rfl rfl fun c hv => MappingCache.valid_drop hv
        · rw [due_of_owner howner he]
          exact hslots
      · refine .inr ⟨bind_error hsave, hfull, rfl, fun id' hid' => ?_⟩
        obtain rfl := Option.some.inj (howner.symm.trans hid')
        exact ⟨e, he, hf, hd⟩

/-- Referenced bits mean nothing to the invariant. -/
theorem retouched (h : s.Sound live running pins mem)
    (hsynced : Synced s.processor.cache s.tables running) {tables : PageTables}
    (ht : PageTables.Retouched s.tables tables) :
    Sound { s with tables } live running pins mem ∧ Synced s.processor.cache tables running := by
  have hmarked : ∀ id, Marked s.processor.cache tables running id ↔
      Marked s.processor.cache s.tables running id := fun id => or_congr_left (ht.dirty_iff id)
  refine ⟨h.retag s.processor.cache tables h.sized.cache_pos ht.sizeOf_eq ?_
    ⟨?_, h.coherent.distinct⟩ (fun id => (hmarked id).2)
    (fun id hm => .inl ((hmarked id).1 hm)), ?_⟩
  · intro id e' he'
    obtain ⟨e, he, heq⟩ := ht.of_find? id e' he'
    exact ⟨e, he, by rw [heq], by rw [heq], by rw [heq]⟩
  · intro c hc hvalid
    obtain ⟨pid, e, hpid, he, hf, hr⟩ := h.coherent.agrees c hc hvalid
    obtain ⟨e', he', heq⟩ := ht.find? he
    refine ⟨pid, e', hpid, he', ?_, ?_⟩
    · rw [heq]
      exact hf
    · rw [heq]
      exact hr
  · exact fun id hm => (ht.dirty_iff id).2 (hsynced id ((hmarked id).1 hm))

/-- While no process runs there is nothing in the cache to be synced. -/
theorem synced_of_none (h : s.Sound live none pins mem) (running : Option Pid) :
    Synced s.processor.cache s.tables running := fun id hm =>
  (marked_iff_of_empty (fun _ hc => h.empty_of_none hc) id).1 hm

/-- A frame with an owner that nobody has pinned takes a pin. -/
theorem pin_victim (h : s.Sound live running pins mem) {victim : Nat} {id : PageId}
    (howner : s.frameTable.owner victim = some id) (hv : victim ∉ pins) :
    ∃ t, s.frameTable.pin victim = .ok t ∧
      Sound { s with frameTable := t } live running (victim ::ₘ pins) mem ∧
      t.free = s.frameTable.free ∧ ∀ f, t.owner f = s.frameTable.owner f := by
  have hcount : pins.count victim < FrameTable.maxPins := by
    rw [Multiset.count_eq_zero.2 hv]
    decide
  obtain ⟨t, hpin, hframes, hsize, hfree, howners⟩ :=
    h.frames.pin_eq (h.frames.allocated_of_owner victim id howner) hcount
  exact ⟨t, hpin, h.repinned hframes hsize howners, hfree, howners⟩

/-- Every owner has its entry, so a search for a victim meets no inconsistency. -/
theorem backed (h : s.Sound live running pins mem) : Policy.Backed s.frameTable s.tables := by
  intro f id hid
  obtain ⟨e, he, hf⟩ := (h.inverse.owner_iff f id).1 hid
  exact ⟨e, he, h.inverse.valid_of_frame he hf, hf⟩

/-- The victim that a live process chooses is owned by a page and pinned by nobody. There is none
only if every frame that a page owns is pinned. -/
theorem chooseVictim_run (h : s.Sound live (some pid) pins mem) {process u : UserProcess}
    (hpid : process.pid = pid) (hu : live pid = some u) :
    (∃ victim id s', chooseVictim process s = .ok (.ok victim, s') ∧
        s'.Sound live (some pid) pins mem ∧ Synced s'.processor.cache s'.tables (some pid) ∧
        Narrows s s' ∧ Still s s' ∧ s'.frameTable.owner victim = some id ∧ victim ∉ pins) ∨
      (∃ s', chooseVictim process s = .ok (.error .noVictim, s')) ∧
        ∀ f id, s.frameTable.owner f = some id → f ∈ pins := by
  subst hpid
  obtain ⟨s1, hsync, h1, hsynced, -, hnarrow, hstill⟩ := h.syncCache_run hu false
  obtain ⟨r, policy, tables, hselect, hr, htouch⟩ := s1.policy.select_eq h1.backed
  have hchoose : chooseVictim process s = .ok (r, { s1 with policy, tables }) := by
    rw [chooseVictim, bind_ok hsync, bind_ok (get_run s1), hselect]
    rfl
  rcases hr with rfl | ⟨victim, id, rfl, hid, hpin⟩
  · refine .inr ⟨⟨_, hchoose⟩, fun f id hid => ?_⟩
    -- the policy would have found an owned frame that nobody pins
    by_contra hf
    rw [← hstill.owner_eq] at hid
    have hfound := s1.policy.select_ne_noVictim h1.backed hid (h1.frames.isPinned_of_not_mem hf)
    rw [hselect] at hfound
    exact hfound rfl
  · obtain ⟨h2, hsynced'⟩ := h1.retouched hsynced htouch
    refine .inl ⟨victim, id, _, hchoose, h2.reset policy s1.rng s1.counters, hsynced',
      ⟨hnarrow.pageSize_eq, hnarrow.uncached⟩, hstill.trans ⟨fun _ => rfl, rfl, rfl, ?_⟩, hid,
      h1.frames.not_mem_of_not_isPinned hpin⟩
    -- entries have other referenced bits at most
    intro id' e he
    obtain ⟨e', he', heq⟩ := htouch.find? he
    rw [heq] at he'
    exact ⟨_, he', rfl, fun hd => hd⟩

end Sound

/-- What a search for a frame leaves behind: a frame without an owner, pinned for the process that
searched, or a victim, pinned for it while no process has entries in the cache. -/
def Searched (s : Paging σ) (live : Population) (pid : Pid) (pins : Multiset Nat)
    (mem : PageId → List UInt8) : FrameSearch → Prop
  | .found frame _ => s.Sound live (some pid) (frame ::ₘ pins) mem ∧ frame ∉ pins ∧
      s.frameTable.owner frame = none
  | .needsSlot victim => s.Sound live none (victim ::ₘ pins) mem ∧ victim ∉ pins

namespace Sound

/-- A victim with one pin of its own is pushed out, or the cache is saved for a sleep. -/
theorem evictOrWait_eq {victim : Nat} (h : s.Sound live (some pid) (victim ::ₘ pins) mem)
    (hsynced : Synced s.processor.cache s.tables (some pid)) (hfull : s.frameTable.free = [])
    {process : UserProcess} (hpid : process.pid = pid) :
    (∃ s', evictOrWait process victim s = .ok (.ok (.found victim false), s') ∧
        s'.Sound live (some pid) (victim ::ₘ pins) mem ∧ Narrows s s' ∧ Evicts victim s s') ∨
      ∃ s', evictOrWait process victim s = .ok (.ok (.needsSlot victim), s') ∧
        s'.Sound live none (victim ::ₘ pins) mem ∧ Narrows s s' ∧ Still s s' ∧
        s'.Blocked victim := by
  subst hpid
  rw [evictOrWait]
  rcases h.evict_run hsynced (Multiset.mem_cons_self victim pins) with
    ⟨s', hevict, h', hnarrow, hevicts⟩ | ⟨hevict, hslots, howned, hladen⟩
  · have hfound : (evict victim >>= fun _ => pure (FrameSearch.found victim false)) s =
        .ok (.ok (FrameSearch.found victim false), s') := by
      rw [bind_ok hevict, pure_run]
    exact .inl ⟨s', tryCatch_ok hfound, h', hnarrow, hevicts⟩
  · obtain ⟨s', hsave, h', hnarrow, hstill⟩ := h.saveCache_run
    refine .inr ⟨s', ?_, h', hnarrow, hstill, hstill.blocked ⟨hslots, hfull, howned, hladen⟩⟩
    rw [tryCatch_error (bind_error hevict)]
    show (saveCache process.pid >>= fun _ => pure (FrameSearch.needsSlot victim)) s = _
    rw [bind_ok hsave, pure_run]

/-- Whoever pushes its victim out, or has to wait with it, has spent what is due for the victim. -/
theorem evictOrWait_run {victim : Nat} (h : s.Sound live (some pid) (victim ::ₘ pins) mem)
    (hsynced : Synced s.processor.cache s.tables (some pid)) (hv : victim ∉ pins)
    (hfull : s.frameTable.free = []) {process : UserProcess} (hpid : process.pid = pid) :
    ∃ r s', evictOrWait process victim s = .ok (.ok r, s') ∧ s'.Searched live pid pins mem r ∧
      Narrows s s' ∧ Spent pins (s.due victim) s s' r := by
  rcases h.evictOrWait_eq hsynced hfull hpid with
    ⟨s', hrun, h', hnarrow, hevicts⟩ | ⟨s', hrun, h', hnarrow, hstill, hblocked⟩
  · refine ⟨_, s', hrun, ⟨h', hv, (hevicts.owner_eq victim).trans (if_pos rfl)⟩, hnarrow,
      hevicts.spares hv, ?_, fun _ => hevicts.frames_eq.trans hfull, fun _ => hevicts.absent⟩
    have := hevicts.slots_eq
    simp only [Bool.toNat_false]
    omega
  · exact ⟨_, s', hrun, ⟨h', hv⟩, hnarrow, hstill, hblocked⟩

/-- A live process finds a free frame, or pushes a victim out, or has to wait with its victim. Only
if every frame is pinned there is no victim. -/
theorem findFrame_run (h : s.Sound live (some pid) pins mem) {process u : UserProcess}
    (hpid : process.pid = pid) (hu : live pid = some u) :
    (∃ r s', findFrame process s = .ok (.ok r, s') ∧ s'.Searched live pid pins mem r ∧
        Narrows s s' ∧ Spent pins 0 s s' r) ∨
      (∃ s', findFrame process s = .ok (.error .noVictim, s')) ∧
        ∀ f < s.frameTable.size, f ∈ pins := by
  cases hfree : s.frameTable.free with
  | cons f rest =>
      have hmem : f ∈ s.frameTable.free := by rw [hfree]; exact List.mem_cons_self
      obtain ⟨howner, hf⟩ := h.frames.blank_of_mem_free hmem
      obtain ⟨t, hreserve, hframes, hsize, -, howners⟩ := h.frames.reserve_some hfree
      refine .inl ⟨.found f false, { s with frameTable := t }, ?_,
        ⟨h.repinned hframes hsize howners, hf, (howners f).trans howner⟩, ⟨rfl, fun _ hp => hp⟩,
        .of_free hfree howners (Nat.le_refl _)⟩
      rw [findFrame, bind_ok (reserveFrame_ok hreserve)]
      rfl
  | nil =>
      have hfind : findFrame process s =
          (chooseVictim process >>= fun victim => changeFrames (·.pin victim) >>= fun _ =>
            evictOrWait process victim) s := by
        rw [findFrame, bind_ok (reserveFrame_ok (FrameTable.Sound.reserve_none hfree))]
      rw [hfind]
      rcases h.chooseVictim_run hpid hu with
        ⟨victim, id, s1, hchoose, h1, hsynced, hnarrow, hstill, hid, hv⟩ | ⟨⟨s1, hchoose⟩, howned⟩
      · obtain ⟨t, hpin, h2, hfrees, howners⟩ := h1.pin_victim hid hv
        have hpinned : Still s1 { s1 with frameTable := t } :=
          ⟨howners, hfrees, rfl, fun _ e he => ⟨e, he, rfl, fun hd => hd⟩⟩
        obtain ⟨r, s2, hevict, hsearched, hnarrow', hspent⟩ :=
          h2.evictOrWait_run hsynced hv (hfrees.trans (hstill.frames_eq.trans hfree)) hpid
        refine .inl ⟨r, s2, ?_, hsearched, hnarrow.trans ⟨hnarrow'.pageSize_eq, hnarrow'.uncached⟩,
          hspent.unmeant.of_still (hstill.trans hpinned)⟩
        rw [bind_ok hchoose, bind_ok (changeFrames_ok hpin), hevict]
      · exact .inr ⟨⟨s1, bind_error hchoose⟩, fun f => h.frames.mem_pins_of_full hfree howned⟩

/-- A woken thread that finds a free frame takes it, and lets its victim go. -/
theorem resumeSearch_free {victim f : Nat} {rest : List Nat}
    (h : s.Sound live none (victim ::ₘ pins) mem) (hfree : s.frameTable.free = f :: rest)
    (process : UserProcess) :
    ∃ t, resumeSearch process victim s =
        .ok (.ok (.found f (!s.swap.free.isEmpty)), { s with frameTable := t }) ∧
      Sound { s with frameTable := t } live none (f ::ₘ pins) mem ∧
      t.size = s.frameTable.size ∧ ∀ g, t.owner g = s.frameTable.owner g := by
  obtain ⟨t, hreserve, hframes, hsize, -, howners⟩ := h.frames.reserve_some hfree
  rw [Multiset.cons_swap] at hframes
  obtain ⟨t', hunpin, hframes', hsize', -, howners'⟩ := hframes.unpin_eq
  have hsizes := hsize'.trans hsize
  have hsame : ∀ g, t'.owner g = s.frameTable.owner g := fun g =>
    (howners' g).trans (howners g)
  refine ⟨t', ?_, h.repinned hframes' hsizes hsame, hsizes, hsame⟩
  have hlet : changeFrames (·.unpin victim) { s with frameTable := t } =
      .ok (.ok (), { s with frameTable := t' }) := changeFrames_ok (t := t') hunpin
  rw [resumeSearch, bind_ok (reserveFrame_ok hreserve)]
  show (changeFrames (·.unpin victim) >>= _) _ = _
  rw [bind_ok hlet]
  rfl

omit [Extent.Reliable σ] in
/-- Without a free frame a woken thread goes back to its victim. -/
theorem resumeSearch_full (hfull : s.frameTable.free = []) (process : UserProcess)
    (victim : Nat) : resumeSearch process victim s = evictOrWait process victim s := by
  rw [resumeSearch, bind_ok (reserveFrame_ok (FrameTable.Sound.reserve_none hfull))]

/-- A woken thread finds a free frame and lets its victim go, or pushes the victim out, or has to
wait once more. -/
theorem resumeSearch_run {victim : Nat} (h : s.Sound live none (victim ::ₘ pins) mem)
    (hv : victim ∉ pins) {process : UserProcess} (hpid : process.pid = pid) :
    ∃ r s', resumeSearch process victim s = .ok (.ok r, s') ∧ s'.Searched live pid pins mem r ∧
      Narrows s s' ∧ Spent pins (s.due victim) s s' r := by
  cases hfree : s.frameTable.free with
  | cons f rest =>
      have hmem : f ∈ s.frameTable.free := by rw [hfree]; exact List.mem_cons_self
      obtain ⟨howner, hf⟩ := h.frames.blank_of_mem_free hmem
      obtain ⟨t, hrun, h', -, howners⟩ := h.resumeSearch_free hfree process
      refine ⟨_, _, hrun, ⟨h'.switch_of_none (some pid),
        fun hm => hf (Multiset.mem_cons_of_mem hm), (howners f).trans howner⟩,
        ⟨rfl, fun _ hp => hp⟩, .of_free hfree howners ?_⟩
      -- a slot that the victim would have needed is left for somebody else
      have hdue := s.due_le_one victim
      cases s.swap.free with
      | nil => exact Nat.zero_le _
      | cons slot rest =>
          simp only [List.isEmpty_cons, Bool.not_false, Bool.toNat_true, List.length_cons]
          omega
  | nil =>
      -- the cache is empty after the sleep
      rw [resumeSearch_full hfree]
      exact (h.switch_of_none (some pid)).evictOrWait_run (h.synced_of_none (some pid)) hv hfree
        hpid

end Sound

end DemandPaging.Paging
