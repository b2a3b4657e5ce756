import DemandPaging.Paging.Fault
import DemandPaging.Proofs.Image
import DemandPaging.Proofs.Paging.Eviction

/-!
# Faults keep the invariant

A page that is brought in has the contents that it is to have: those of its slot, which is free
again, so the page is dirty; or those that it starts with, if it has no slot. A fault ends with the
mapping in the cache, or with a pinned victim and an empty cache, or with an error that leaves no
pin behind.
-/

namespace DemandPaging.Paging

variable {σ : Type} {s : Paging σ} [Extent σ] [Extent.Reliable σ] {live : Population}
  {running : Option Pid} {pid : Pid} {pins : Multiset Nat} {mem : PageId → List UInt8}

/-- The entry of a page that was just brought in. -/
def entered (process : UserProcess) (page frame : Nat) (dirty : Bool) : PageEntry :=
  { frame := some frame, valid := true, dirty, readOnly := process.image.isReadOnly page }

omit [Extent σ] [Extent.Reliable σ] in
theorem enter_ok {process : UserProcess} {page f : Nat} (dirty : Bool) {table : PageTable}
    {e : PageEntry} {frameTable : FrameTable} (ht : s.tables[process.pid]? = some table)
    (he : table.entries[page]? = some e)
    (hoccupy : s.frameTable.occupy f ⟨process.pid, page⟩ = .ok frameTable) :
    enter process page f dirty s = .ok (.ok (), { s with
      tables := s.tables.insert process.pid (table.put page (entered process page f dirty))
      frameTable }) := by
  have hplace : table.place page f (process.image.isReadOnly page) =
      .ok (table.put page (entered process page f false)) := by
    rw [PageTable.place, PageTable.lookup_eq_ok_iff.2 he]
    rfl
  have hlookup : (table.put page (entered process page f false)).lookup page =
      .ok (entered process page f false) := by
    rw [PageTable.lookup_eq_ok_iff, PageTable.getElem?_put, if_pos rfl, he]
    rfl
  rw [enter, bind_ok (tableOf_ok ht), bind_ok (orFail_ok hplace), bind_ok (orFail_ok hlookup),
    PageTable.put_put]
  have hset : setTable process.pid (table.put page (entered process page f dirty)) s =
      .ok (.ok (), { s with
        tables := s.tables.insert process.pid (table.put page (entered process page f dirty)) }) :=
    rfl
  exact (bind_ok hset).trans (changeFrames_ok hoccupy)

/-! ## A page comes into a frame -/

section Occupied

variable {tables tables' : PageTables} {id : PageId} {e e' : PageEntry} {f : Nat}
  (htables : tables.Replaced tables' id e') (he : tables.find? id = some e)
  (habsent : e.frame = none)

omit [Extent σ] [Extent.Reliable σ] in
include he habsent in
theorem ne_of_resident {id' : PageId} {e₀ : PageEntry} {g : Nat}
    (he₀ : tables.find? id' = some e₀) (hg : e₀.frame = some g) : id' ≠ id := by
  rintro rfl
  rw [he] at he₀
  obtain rfl := Option.some.inj he₀
  rw [habsent] at hg
  cases hg

omit [Extent σ] [Extent.Reliable σ] in
include htables in
/-- What is marked as dirty is the page itself, or was so before. -/
theorem marked_of_occupied {cache : List Mapping} {id' : PageId}
    (hm : Marked cache tables' running id') :
    id' = id ∧ e'.dirty = true ∨ Marked cache tables running id' := by
  rcases hm with ⟨e₀, he₀, hd⟩ | hcache
  · rcases htables.eq_or_find? he₀ with ⟨hid, rfl⟩ | ⟨-, he₀⟩
    · exact .inl ⟨hid, hd⟩
    · exact .inr (.inl ⟨e₀, he₀, hd⟩)
  · exact .inr (.inr hcache)

include htables he habsent

omit [Extent σ] [Extent.Reliable σ] in
theorem Coherent.occupied {cache : List Mapping} (h : Coherent cache tables running) :
    Coherent cache tables' running := by
  refine ⟨fun c hc hv => ?_, h.distinct⟩
  obtain ⟨pid, e₀, hpid, he₀, hf₀, hr₀⟩ := h.agrees c hc hv
  exact ⟨pid, e₀, hpid, (htables.other (ne_of_resident he habsent he₀ hf₀)).trans he₀, hf₀, hr₀⟩

variable {u : UserProcess} (hu : live id.pid = some u) (hf' : e'.frame = some f)
  {frames frames' : FrameTable} (hinverse : Inverse tables frames live)
  (hfree : frames.owner f = none)
include hu hf' hinverse hfree

omit [Extent σ] [Extent.Reliable σ] in
theorem Inverse.occupied (hvalid : e'.valid = true)
    (hro : e'.readOnly = u.image.isReadOnly id.page)
    (howner : ∀ g, frames'.owner g = if g = f then some id else frames.owner g) :
    Inverse tables' frames' live := by
  refine ⟨fun pid => (htables.sizeOf_eq pid).trans (hinverse.sizeOf_eq pid), hinverse.numPages_le,
    ?_, ?_, ?_⟩
  · intro id' e₀ he₀
    rcases htables.eq_or_find? he₀ with ⟨-, rfl⟩ | ⟨-, he₀⟩
    · rw [hvalid, hf']
      rfl
    · exact hinverse.valid_eq id' e₀ he₀
  · -- an owned frame: it is the new one, or the entries of its pages are as before
    intro g id'
    rw [howner]
    by_cases hg : g = f
    · rw [if_pos hg]
      constructor
      · intro heq
        obtain rfl := Option.some.inj heq
        exact ⟨e', htables.self, hg ▸ hf'⟩
      · rintro ⟨e₀, he₀, hf₀⟩
        rcases htables.eq_or_find? he₀ with ⟨rfl, -⟩ | ⟨-, he₀⟩
        · rfl
        · -- the frame was nobody's
          rw [← hg, (hinverse.owner_iff g id').2 ⟨e₀, he₀, hf₀⟩] at hfree
          cases hfree
    · rw [if_neg hg, hinverse.owner_iff]
      refine exists_congr fun e₀ => and_congr_left fun hf₀ => ⟨fun he₀ => ?_, fun he₀ => ?_⟩
      · exact (htables.other (ne_of_resident he habsent he₀ hf₀)).trans he₀
      · rcases htables.eq_or_find? he₀ with ⟨-, rfl⟩ | ⟨-, he₀⟩
        · exact absurd (Option.some.inj (hf₀.symm.trans hf')) hg
        · exact he₀
  · intro id' e₀ u' he₀ hsome hu'
    rcases htables.eq_or_find? he₀ with ⟨rfl, rfl⟩ | ⟨-, he₀⟩
    · rw [hu] at hu'
      obtain rfl := Option.some.inj hu'
      exact hro
    · exact hinverse.readOnly_eq id' e₀ u' he₀ hsome hu'

omit habsent in
/-- The page has its contents in the frame, and its slot is free. It is marked as dirty unless these
are the contents that it started with. -/
theorem Keeps.occupied {p : Processor} {swap swap' : SwapArea σ}
    (h : Keeps p tables swap live running mem) {memory : Array (List UInt8)}
    (hmemory : ∀ g, memory[g]? = if g = f then some (mem id) else p.memory[g]?)
    (hsaved : ∀ id', swap'.saved? id' = if id' = id then none else swap.saved? id')
    (hclean : e'.dirty = false → mem id = u.image.initialPage id.page p.pageSize)
    (hdirty : e'.dirty = true → u.image.isReadOnly id.page = false) :
    Keeps { p with memory } tables' swap' live running mem := by
  refine ⟨?_, ?_, ?_, ?_, ?_⟩
  · -- a page in memory: in the new frame, or in another one, which is as before
    intro id' e₀ g he₀ hg
    show memory[g]? = _
    rw [hmemory]
    rcases htables.eq_or_find? he₀ with ⟨rfl, rfl⟩ | ⟨-, he₀⟩
    · rw [if_pos (Option.some.inj (hg.symm.trans hf'))]
    · rw [if_neg]
      · exact h.resident id' e₀ g he₀ hg
      · rintro rfl
        rw [(hinverse.owner_iff g id').2 ⟨e₀, he₀, hg⟩] at hfree
        cases hfree
  · -- a page with a slot is another page
    intro id' bytes hbytes
    rw [hsaved] at hbytes
    split at hbytes
    · cases hbytes
    · rename_i hne
      obtain ⟨hmem, e₀, he₀, hf₀⟩ := h.saved id' bytes hbytes
      exact ⟨hmem, e₀, (htables.other hne).trans he₀, hf₀⟩
  · -- a page that is nowhere is another page
    intro id' e₀ u' he₀ hf₀ hnone hu'
    rcases htables.eq_or_find? he₀ with ⟨-, rfl⟩ | ⟨hne, he₀⟩
    · rw [hf'] at hf₀
      cases hf₀
    · rw [hsaved, if_neg hne] at hnone
      exact h.absent id' e₀ u' he₀ hf₀ hnone hu'
  · -- a page in memory that is not dirty
    intro id' e₀ u' he₀ hsome hm hu'
    rcases htables.eq_or_find? he₀ with ⟨rfl, rfl⟩ | ⟨hne, he₀⟩
    · rw [hu] at hu'
      obtain rfl := Option.some.inj hu'
      refine hclean ?_
      rw [← Bool.not_eq_true]
      exact fun hd => hm (.inl ⟨_, htables.self, hd⟩)
    · refine h.clean id' e₀ u' he₀ hsome (fun hm' => hm ?_) hu'
      rcases hm' with ⟨e₁, he₁, hd⟩ | hcache
      · exact .inl ⟨e₁, (htables.other hne).trans he₁, hd⟩
      · exact .inr hcache
  · -- a page of a read-only section
    intro id' u' hu' hro'
    obtain ⟨hnone, hunmarked⟩ := h.readOnly id' u' hu' hro'
    refine ⟨by rw [hsaved, hnone, ite_self], fun hm => ?_⟩
    rcases marked_of_occupied htables hm with ⟨rfl, hd⟩ | hm'
    · rw [hu] at hu'
      obtain rfl := Option.some.inj hu'
      rw [hdirty hd] at hro'
      exact Bool.noConfusion hro'
    · exact hunmarked hm'

end Occupied

namespace Sound

/-- The state after an absent page was put into a frame that was pinned for it and had no owner. -/
theorem brought {f : Nat} (h : s.Sound live running (f ::ₘ pins) mem)
    (e' : PageEntry) (hfree : s.frameTable.owner f = none) {id : PageId} {e : PageEntry}
    {table : PageTable} {u : UserProcess} (he : s.tables.find? id = some e)
    (habsent : e.frame = none) (ht : s.tables[id.pid]? = some table) (hu : live id.pid = some u)
    (hf' : e'.frame = some f) (hvalid : e'.valid = true)
    (hro : e'.readOnly = u.image.isReadOnly id.page) {swap : SwapArea σ} (hswap : swap.Sound)
    (hswapSize : swap.pageSize = s.swap.pageSize)
    (hsaved : ∀ id', swap.saved? id' = if id' = id then none else s.swap.saved? id')
    (hlength : (mem id).length = s.processor.pageSize)
    (hclean : e'.dirty = false → mem id = u.image.initialPage id.page s.processor.pageSize)
    (hdirty : e'.dirty = true → u.image.isReadOnly id.page = false) {frameTable : FrameTable}
    (hframes : frameTable.Sound pins) (hsize : frameTable.size = s.frameTable.size)
    (howner : ∀ g, frameTable.owner g = if g = f then some id else s.frameTable.owner g)
    (counters : Counters) :
    Sound { s with
      processor := { s.processor with memory := s.processor.memory.setIfInBounds f (mem id) }
      tables := s.tables.insert id.pid (table.put id.page e')
      swap, frameTable, counters } live running pins mem := by
  have htables := PageTables.Replaced.of_insert ht he e'
  have hlt : f < s.processor.memory.size := by
    have := FrameTable.lt_size_of_isAllocated
      (h.frames.allocated_of_mem (Multiset.mem_cons_self f pins))
    rw [← h.sized.numFrames_eq] at this
    exact this
  have hmemory := getElem?_setFrame hlt (mem id)
  have hmemorySize : (s.processor.memory.setIfInBounds f (mem id)).size =
    s.processor.memory.size := Array.size_setIfInBounds
  refine ⟨⟨h.sized.pageSize_pos, fun g bytes hg => ?_,
      hmemorySize.trans (h.sized.numFrames_eq.trans hsize.symm),
      h.sized.numFrames_pos.trans_eq hmemorySize.symm,
      hmemorySize.trans_le h.sized.numFrames_le, h.sized.cache_pos,
      hswapSize.trans h.sized.swap_pageSize⟩, hframes, hswap,
    h.inverse.occupied htables he habsent hu hf' hfree hvalid hro howner,
    h.coherent.occupied htables he habsent,
    h.keeps.occupied htables he hu hf' h.inverse hfree hmemory hsaved hclean hdirty⟩
  rw [hmemory] at hg
  split at hg
  · obtain rfl := Option.some.inj hg
    exact hlength
  · exact h.sized.length_frame g bytes hg

/-- A frame is filled with what the page is to have. It comes from swap if the page has a slot, and
then the page may be written. -/
theorem fill_run (h : s.Sound live running pins mem) {process : UserProcess} {page f : Nat}
    {e : PageEntry} (hlive : live process.pid = some process) (hlt : f < s.processor.numFrames)
    (he : s.tables.find? ⟨process.pid, page⟩ = some e) (habsent : e.frame = none) :
    ∃ fromSwap swap counters, fill process page f s = .ok (.ok fromSwap, { s with
        processor := { s.processor with
          memory := s.processor.memory.setIfInBounds f (mem ⟨process.pid, page⟩) }
        swap, counters }) ∧
      swap.Sound ∧ swap.pageSize = s.swap.pageSize ∧
      (∀ id, swap.saved? id = if id = ⟨process.pid, page⟩ then none else s.swap.saved? id) ∧
      swap.free.length = s.swap.free.length + fromSwap.toNat ∧
      (mem ⟨process.pid, page⟩).length = s.processor.pageSize ∧
      (fromSwap = false →
        mem ⟨process.pid, page⟩ = process.image.initialPage page s.processor.pageSize) ∧
      (fromSwap = true → process.image.isReadOnly page = false) := by
  obtain ⟨bytes, hbytes, -, hlen⟩ := h.frame_eq hlt
  have hset := h.setFrame_eq hlt (mem ⟨process.pid, page⟩)
  rw [fill, bind_ok (frameBytes_ok hbytes), bind_ok (get_run s), hlen]
  cases hlookup : s.swap.lookup ⟨process.pid, page⟩ with
  | none =>
      have hsaved := SwapArea.saved?_eq_none_iff.2 hlookup
      have hmem := h.keeps.absent _ e process he habsent hsaved hlive
      have hfill : fillAfresh process page f s.processor.pageSize s = .ok (.ok (), { s with
          processor := { s.processor with
            memory := s.processor.memory.setIfInBounds f (mem ⟨process.pid, page⟩) } }) := by
        rw [fillAfresh, ← hmem]
        exact setFrameBytes_ok hset
      refine ⟨false, s.swap, s.counters, ?_, h.swap, rfl, fun id => ?_, rfl, ?_, fun _ => hmem,
        fun hswapped => Bool.noConfusion hswapped⟩
      · show (fillAfresh process page f s.processor.pageSize >>= fun _ => pure false) s = _
        rw [bind_ok hfill, pure_run]
      · by_cases hid : id = ⟨process.pid, page⟩
        · rw [if_pos hid, hid, hsaved]
        · rw [if_neg hid]
      · rw [hmem, Image.length_initialPage]
  | some slot =>
      have hsaved : s.swap.saved? ⟨process.pid, page⟩ = some (s.swap.bytesAt slot) := by
        rw [SwapArea.saved?, hlookup]
        rfl
      have hmem := (h.keeps.saved _ _ hsaved).1
      rw [hmem] at hsaved
      obtain ⟨swap, hfetch, hswap, hsize, hslots, hsaved'⟩ :=
        h.swap.fetch_eq hlookup hsaved h.sized.swap_pageSize.symm
      have hin : swapIn ⟨process.pid, page⟩ slot s.processor.pageSize s =
          .ok (.ok (mem ⟨process.pid, page⟩), { s with swap }) := by
        rw [swapIn_run, hfetch]
        rfl
      have hfill : fillFromSwap ⟨process.pid, page⟩ slot f s.processor.pageSize s =
          .ok (.ok (), { s with
            processor := { s.processor with
              memory := s.processor.memory.setIfInBounds f (mem ⟨process.pid, page⟩) }
            swap, counters := { s.counters with swapIns := s.counters.swapIns + 1 } }) := by
        have hput := setFrameBytes_ok (s := { s with swap }) hset
        rw [fillFromSwap, bind_ok hin, bind_ok hput, count_run]
      refine ⟨true, swap, { s.counters with swapIns := s.counters.swapIns + 1 }, ?_, hswap, hsize,
        hsaved', ?_, ?_, fun hafresh => Bool.noConfusion hafresh, fun _ => ?_⟩
      · exact tryCatch_ok (by rw [bind_ok hfill, pure_run])
      · rw [hslots, List.length_append]
        rfl
      · exact (h.swap.length_saved hsaved).trans h.sized.swap_pageSize
      · -- a page of a read-only section would have no slot
        rw [← Bool.not_eq_true]
        intro hro
        rw [(h.keeps.readOnly ⟨process.pid, page⟩ process hlive hro).1] at hsaved
        cases hsaved

/-- A page whose entry has no frame is in no frame. -/
theorem absent_of_find? (h : s.Sound live running pins mem) {id : PageId} {e : PageEntry}
    (he : s.tables.find? id = some e) (hframe : e.frame = none) : s.Absent id := by
  intro f hf
  obtain ⟨e', he', hf'⟩ := (h.inverse.owner_iff f id).1 hf
  obtain rfl := Option.some.inj (he.symm.trans he')
  rw [hframe] at hf'
  cases hf'

/-- A page that is not in memory has no valid cache entry. -/
theorem uncached_of_absent (h : s.Sound live (some pid) pins mem) {page : Nat} {e : PageEntry}
    (he : s.tables.find? ⟨pid, page⟩ = some e) (habsent : e.frame = none) : s.Uncached page := by
  rintro c hc hvalid rfl
  obtain ⟨q, e', hq, he', hf', -⟩ := h.coherent.agrees c hc hvalid
  obtain rfl := Option.some.inj hq
  rw [he] at he'
  obtain rfl := Option.some.inj he'
  rw [habsent] at hf'
  cases hf'

/-- A live process gets its page into memory, or finds it there and gives the frame back. -/
theorem bringIn_run {process : UserProcess} {f page : Nat}
    (h : s.Sound live (some process.pid) (f ::ₘ pins) mem) (hf : f ∉ pins)
    (hfree : s.frameTable.owner f = none) (hlive : live process.pid = some process)
    (hpage : page < process.numPages) (huncached : s.Uncached page) :
    ∃ slotFreed s', bringIn process page f s = .ok (.ok slotFreed, s') ∧
      s'.Sound live (some process.pid) pins mem ∧
      s'.processor.pageSize = s.processor.pageSize ∧ s'.Uncached page ∧
      (∃ e g, s'.tables.find? ⟨process.pid, page⟩ = some e ∧ e.frame = some g) ∧
      Spares pins s s' ∧ s'.swap.free.length = s.swap.free.length + slotFreed.toNat ∧
      (s.Absent ⟨process.pid, page⟩ → s'.frameTable.free = s.frameTable.free) := by
  obtain ⟨e, he⟩ := h.inverse.find?_of_live hlive hpage
  obtain ⟨table, ht, -⟩ := h.inverse.table_of_live hlive
  have hentry : table.entries[page]? = some e := (PageTables.find?_of_table ht page).symm.trans he
  have hlookup : table.lookup page = .ok e := PageTable.lookup_eq_ok_iff.2 hentry
  rw [bringIn, bind_ok (get_run s), PageTables.table_eq_ok_iff.2 ht]
  show ∃ slotFreed s', (orFail (table.lookup page) >>= _) s = _ ∧ _
  rw [bind_ok (orFail_ok hlookup)]
  cases hframe : e.frame with
  | some g =>
      -- another thread brought the page in while this one slept
      have hvalid := h.inverse.valid_of_frame he hframe
      obtain ⟨t, hunpin, hframes, hsize, -, howners⟩ := h.frames.unpin_eq
      refine ⟨false, { s with frameTable := t }, ?_, h.repinned hframes hsize howners, rfl,
        huncached, ⟨e, g, he, hframe⟩, .of_entries (fun g _ => howners g) fun _ _ _ _ he _ => he,
        rfl, fun habsent => absurd ((h.inverse.owner_iff g _).2 ⟨e, he, hframe⟩) (habsent g)⟩
      rw [if_pos hvalid, bind_ok (changeFrames_ok (t := t) hunpin), pure_run]
  | none =>
      have hvalid := h.inverse.not_valid_of_none he hframe
      have hlt : f < s.processor.numFrames := by
        rw [h.sized.numFrames_eq]
        exact FrameTable.lt_size_of_isAllocated
          (h.frames.allocated_of_mem (Multiset.mem_cons_self f pins))
      have hmax : page ≤ Address.maxPageNumber := by
        have := h.inverse.numPages_le process.pid process hlive
        omega
      obtain ⟨fromSwap, swap, counters, hfill, hswap, hswapSize, hsaved, hslots, hlength, hclean,
        hdirty⟩ := h.fill_run hlive hlt he hframe
      obtain ⟨t, hoccupy, hframes, hsize, hfrees, howners⟩ :=
        h.frames.occupy_eq ⟨process.pid, page⟩ hf hmax
      have htables := PageTables.Replaced.of_insert ht he (entered process page f fromSwap)
      refine ⟨fromSwap, _, ?_,
        h.brought (entered process page f fromSwap) hfree he hframe ht hlive rfl rfl rfl hswap
          hswapSize hsaved hlength hclean hdirty hframes hsize howners counters,
        rfl, h.uncached_of_absent he hframe,
        ⟨entered process page f fromSwap, f, htables.self, rfl⟩,
        .of_entries (fun g hg => ?_) fun g hg id e' he' hf' => ?_, hslots, fun _ => hfrees⟩
      · have henter := enter_ok (s := { s with
            processor := { s.processor with
              memory := s.processor.memory.setIfInBounds f (mem ⟨process.pid, page⟩) }
            swap, counters }) fromSwap ht hentry hoccupy
        rw [if_neg hvalid, bind_ok hfill, bind_ok henter, pure_run]
      · rw [howners, if_neg]
        rintro rfl
        exact hf hg
      · -- the page was in no frame, so a page in a frame is another one
        exact (htables.other (ne_of_resident he hframe he' hf')).trans he'

/-- A process that ended while its thread slept gets no page, and the frame loses its pin. -/
theorem bringIn_ended {process : UserProcess} {f : Nat}
    (h : s.Sound live running (f ::ₘ pins) mem) (hlive : live process.pid = none) (page : Nat) :
    ∃ t, bringIn process page f s =
        .ok (.error (.noSuchProcess process.pid), { s with frameTable := t }) ∧
      Sound { s with frameTable := t } live running pins mem ∧ t.size = s.frameTable.size ∧
      ∀ g, t.owner g = s.frameTable.owner g := by
  obtain ⟨t, hunpin, hframes, hsize, -, howners⟩ := h.frames.unpin_eq
  refine ⟨t, ?_, h.repinned hframes hsize howners, hsize, howners⟩
  rw [bringIn, bind_ok (get_run s), PageTables.table_eq_error (h.inverse.table_eq_none hlive)]
  show (changeFrames (·.unpin f) >>= fun _ => throw (.noSuchProcess process.pid)) s = _
  rw [bind_ok (changeFrames_ok (t := t) hunpin), throw_run]

end Sound

/-- What the handling of a miss leaves behind: the mapping in the cache; a victim pinned for the
process, and an empty cache; or nothing, when the process has ended meanwhile. -/
def Handled (s : Paging σ) (live : Population) (process : UserProcess) (pins : Multiset Nat)
    (mem : PageId → List UInt8) : Except PagingError MissResult → Prop
  | .ok (.loaded _) =>
      live process.pid = some process ∧ s.Sound live (some process.pid) pins mem
  | .ok (.needsSlot victim) => s.Sound live none (victim ::ₘ pins) mem ∧ victim ∉ pins
  | .error cause => cause = .noSuchProcess process.pid ∧ live process.pid = none ∧
      s.Sound live (some process.pid) pins mem

namespace Sound

/-- A fault is settled once the search for a frame has ended. -/
theorem settleFault_run {process : UserProcess} {page : Nat} {found : FrameSearch}
    (h : s.Searched live process.pid pins mem found)
    (hlive : live process.pid = some process ∨ live process.pid = none)
    (hpage : page < process.numPages) (huncached : s.Uncached page) {s₀ : Paging σ} {meant : Nat}
    (hspent : Spent pins meant s₀ s found) :
    ∃ r s', settleFault process page found s = .ok (r, s') ∧ s'.Handled live process pins mem r ∧
      s'.processor.pageSize = s.processor.pageSize ∧
      Settled (live process.pid = some process ∧ s₀.Absent ⟨process.pid, page⟩) pins meant s₀ s'
        r := by
  cases found with
  | needsSlot victim => exact ⟨_, s, pure_run _ _, h, rfl, hspent⟩
  | found f passOn =>
      obtain ⟨hsound, hf, hfree⟩ := h
      obtain ⟨hspares, hslots, hframes, habsent⟩ := hspent
      -- the process may have ended while its thread slept
      rcases hlive with hlive | hlive
      · obtain ⟨slotFreed, s1, hbring, h1, hsize, hun, ⟨e, g, he, hg⟩, hspares', hslots',
            hframes'⟩ := hsound.bringIn_run hf hfree hlive hpage huncached
        obtain ⟨s2, hload, h2, hsize', hstill⟩ := h1.loadMapping_run he hg hun
        refine ⟨.ok (.loaded (passOn.toNat + slotFreed.toNat)), s2, ?_, ⟨hlive, h2⟩,
          hsize'.trans hsize, (hspares.trans hspares').trans (hstill.spares pins), ?_,
          fun hwanted hfull => ?_⟩
        · rw [settleFault, bind_ok hbring, bind_ok hload, pure_run]
        · rw [hstill.slots_eq, hslots']
          omega
        · rw [hstill.frames_eq, hframes' (habsent _ hwanted.2)]
          exact hframes hfull
      · obtain ⟨t, hbring, h1, -, howners⟩ := hsound.bringIn_ended hlive page
        have hspares' : Spares pins s { s with frameTable := t } :=
          .of_entries (fun g _ => howners g) fun _ _ _ _ he _ => he
        refine ⟨.error (.noSuchProcess process.pid), _, ?_, ⟨rfl, hlive, h1⟩, rfl,
          hspares.trans hspares', fun hwanted => ?_⟩
        · rw [settleFault, bind_error hbring]
        · rw [hlive] at hwanted
          cases hwanted.1

/-- A miss of the running process. Besides the usual outcomes there are a segmentation fault, for an
address outside the address space, and the lack of any victim when every frame is pinned. -/
theorem handleMiss_run {process : UserProcess} (h : s.Sound live (some process.pid) pins mem)
    (hlive : live process.pid = some process ∨ live process.pid = none) (address : Nat)
    (huncached : s.Uncached (Address.page s.processor.pageSize address)) :
    ∃ r s', handleMiss process address s = .ok (r, s') ∧
      (r = .error .noVictim ∧ (∀ f < s.frameTable.size, f ∈ pins) ∨
        s'.processor.pageSize = s.processor.pageSize ∧ Settled True pins 0 s s' r ∧
        (s'.Handled live process pins mem r ∧
            (∀ x, r = .ok x → live process.pid = some process ∧
              Address.page s.processor.pageSize address < process.numPages) ∨
          r = .error (.segmentationFault address) ∧ live process.pid = some process ∧
            process.numPages ≤ Address.page s.processor.pageSize address ∧
            s'.Sound live (some process.pid) pins mem)) := by
  have h0 := h.reset s.policy s.rng { s.counters with misses := s.counters.misses + 1 }
  have hcounted : ∀ counters, Still s { s with counters } := fun _ => .of_eq rfl rfl rfl
  rw [handleMiss, bind_ok (count_run _ s), bind_ok (get_run _)]
  rcases hlive with hlive | hlive
  · obtain ⟨table, ht, hsize⟩ := h0.inverse.table_of_live hlive
    rw [bind_ok (tableOf_ok ht)]
    -- a segmentation fault is a page that the table has no entry for
    by_cases hpage : Address.page s.processor.pageSize address < process.numPages
    · obtain ⟨e, hentry⟩ := PageTable.lt_numPages_iff.1 (hsize ▸ hpage)
      have he : s.tables.find? ⟨process.pid, Address.page s.processor.pageSize address⟩ = some e :=
        (PageTables.find?_of_table ht _).trans hentry
      simp only [PageTable.lookup_eq_ok_iff.2 hentry]
      cases hframe : e.frame with
      | some f =>
          have hvalid := h.inverse.valid_of_frame he hframe
          obtain ⟨s1, hload, h1, hsize1, hloaded⟩ := h0.loadMapping_run he hframe huncached
          have hstill := (hcounted _).trans hloaded
          refine ⟨.ok (.loaded 0), s1, ?_, .inr ⟨hsize1,
            ⟨hstill.spares pins, Nat.le_of_eq (congrArg List.length hstill.slots_eq),
              fun _ => hstill.frames_eq.trans⟩,
            .inl ⟨⟨hlive, h1⟩, fun _ _ => ⟨hlive, hpage⟩⟩⟩⟩
          rw [if_pos hvalid, bind_ok hload, pure_run]
      | none =>
          have hvalid := h.inverse.not_valid_of_none he hframe
          have hcount := h0.reset s.policy s.rng
            { s.counters with misses := s.counters.misses + 1, faults := s.counters.faults + 1 }
          rw [if_neg hvalid, bind_ok (count_run _ _)]
          rcases hcount.findFrame_run rfl hlive with
            ⟨found, s1, hfind, hsearched, hnarrow, hspent⟩ | ⟨⟨s1, hfind⟩, hpinned⟩
          · obtain ⟨r, s2, hsettle, hhandled, hsize2, hsettled⟩ :=
              settleFault_run hsearched (.inl hlive) hpage (hnarrow.uncached _ huncached)
                (hspent.of_still (hcounted _))
            refine ⟨r, s2, ?_, .inr ⟨hsize2.trans hnarrow.pageSize_eq,
              hsettled.wanted ⟨hlive, h.absent_of_find? he hframe⟩,
              .inl ⟨hhandled, fun _ _ => ⟨hlive, hpage⟩⟩⟩⟩
            rw [bind_ok hfind, hsettle]
          · exact ⟨_, s1, bind_error hfind, .inl ⟨rfl, hpinned⟩⟩
    · have hnone : table.lookup (Address.page s.processor.pageSize address) =
          .error (.outOfRange (Address.page s.processor.pageSize address) table.numPages) := by
        have hlen : table.entries.size ≤ Address.page s.processor.pageSize address := by
          show table.numPages ≤ _
          omega
        rw [PageTable.lookup, Array.getElem?_eq_none hlen]
      refine ⟨.error (.segmentationFault address),
        { s with counters := { s.counters with misses := s.counters.misses + 1 } }, ?_,
        .inr ⟨rfl, ⟨(hcounted _).spares pins, fun _ => hcounted _⟩,
          .inr ⟨rfl, hlive, Nat.le_of_not_lt hpage, h0⟩⟩⟩
      simp only [hnone]
      exact throw_run _ _
  · refine ⟨.error (.noSuchProcess process.pid), _,
      bind_error (tableOf_error (h0.inverse.table_eq_none hlive)),
      .inr ⟨rfl, ⟨(hcounted _).spares pins, fun _ => hcounted _⟩,
        .inl ⟨⟨rfl, hlive, h0⟩, fun x hx => ?_⟩⟩⟩
    cases hx

/-- A fault goes on after a sleep, with an empty cache and its pinned victim. -/
theorem resumeFault_run {process : UserProcess} {victim page : Nat}
    (h : s.Sound live none (victim ::ₘ pins) mem) (hv : victim ∉ pins)
    (hlive : live process.pid = some process ∨ live process.pid = none)
    (hpage : page < process.numPages) :
    ∃ r s', resumeFault process page victim s = .ok (r, s') ∧
      s'.Handled live process pins mem r ∧
      s'.processor.pageSize = s.processor.pageSize ∧
      Settled (live process.pid = some process ∧ s.Absent ⟨process.pid, page⟩) pins (s.due victim)
        s s' r := by
  obtain ⟨found, s1, hsearch, hsearched, hnarrow, hspent⟩ := h.resumeSearch_run hv rfl
  have huncached : s1.Uncached page := hnarrow.uncached page fun c hc hvalid => by
    rw [h.empty_of_none hc] at hvalid
    exact Bool.noConfusion hvalid
  obtain ⟨r, s2, hsettle, hhandled, hsize, hsettled⟩ :=
    settleFault_run hsearched hlive hpage huncached hspent
  refine ⟨r, s2, ?_, hhandled, hsize.trans hnarrow.pageSize_eq, hsettled⟩
  rw [resumeFault, bind_ok hsearch, hsettle]

end Sound

end DemandPaging.Paging
