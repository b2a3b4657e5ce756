import DemandPaging.Paging.Reclaim
import DemandPaging.Proofs.Paging.Cache
import Mathlib.Logic.Function.Basic

/-!
# Processes come and go

A new process has all of its pages absent, and so with the contents they start with. A process that
ends gives back its frames and its slots; nothing of it is left in the cache, and no other process
notices.
-/

namespace DemandPaging.Paging

variable {σ : Type} {s : Paging σ}

/-- The population with one process changed. -/
abbrev Population.set (live : Population) (pid : Pid) (u : Option UserProcess) : Population :=
  Function.update live pid u

/-- Frames of different pages are given back one after the other. -/
theorem giveBack_all {pid : Pid} {pins : Multiset Nat} (pages : List (Nat × Nat)) :
    ∀ {s : Paging σ}, s.frameTable.Sound pins → (pages.map Prod.fst).Nodup →
      (∀ page f, (page, f) ∈ pages → s.frameTable.owner f = some ⟨pid, page⟩) →
      ∃ t, (pages.forM fun (_, frame) => changeFrames (·.giveBack frame)) s =
          .ok (.ok (), { s with frameTable := t }) ∧
        t.Sound pins ∧ t.size = s.frameTable.size ∧
        ∀ g, t.owner g = if g ∈ pages.map Prod.snd then none else s.frameTable.owner g := by
  induction pages with
  | nil =>
      intro s h _ _
      exact ⟨s.frameTable, rfl, h, rfl, fun g => by rw [List.map_nil, if_neg List.not_mem_nil]⟩
  | cons entry rest ih =>
      obtain ⟨page, f⟩ := entry
      intro s h hnodup howner
      rw [List.map_cons, List.nodup_cons] at hnodup
      obtain ⟨t, hgive, hsound, hsize, -, howners⟩ :=
        h.giveBack_eq (howner page f List.mem_cons_self)
      -- the frames are different, since a frame has one owner, and so the others still have theirs
      have hrest : ∀ page' f', (page', f') ∈ rest → t.owner f' = some ⟨pid, page'⟩ := by
        intro page' f' hmem
        have hother := howner page' f' (List.mem_cons_of_mem _ hmem)
        rw [howners, if_neg, hother]
        rintro rfl
        have hsame := (howner page f' List.mem_cons_self).symm.trans hother
        obtain ⟨-, rfl⟩ := PageId.mk.inj (Option.some.inj hsame)
        exact hnodup.1 (List.mem_map_of_mem (f := Prod.fst) hmem)
      obtain ⟨t', hrun, hsound', hsize', howners'⟩ :=
        ih (s := { s with frameTable := t }) hsound hnodup.2 hrest
      refine ⟨t', ?_, hsound', hsize'.trans hsize, fun g => ?_⟩
      · show (changeFrames (·.giveBack f) >>= fun _ => rest.forM _) s = _
        rw [bind_ok (changeFrames_ok (t := t) hgive)]
        exact hrun
      · rw [howners', howners, List.map_cons]
        by_cases hg : g = f
        · rw [if_pos hg, ite_self, if_pos (by rw [hg]; exact List.mem_cons_self)]
        · simp only [List.mem_cons, hg, false_or, if_false]

variable {live : Population} {running : Option Pid} {pid : Pid} {pins : Multiset Nat}
  {mem mem' : PageId → List UInt8}

/-! ## Before there are processes -/

theorem Inverse.fresh {frames : FrameTable} (howner : ∀ f, frames.owner f = none) :
    Inverse ∅ frames (fun _ => none) := by
  refine ⟨PageTables.sizeOf?_empty, fun pid u hu => ?_, fun id e he => ?_, fun f id => ?_,
    fun id e u he => ?_⟩
  · cases hu
  · exact absurd he PageTables.not_find?_empty
  · rw [howner]
    constructor
    · intro howned
      cases howned
    · rintro ⟨e, he, -⟩
      exact absurd he PageTables.not_find?_empty
  · exact absurd he PageTables.not_find?_empty

theorem Keeps.fresh [Extent σ] [Extent.Reliable σ] (p : Processor) {swap : SwapArea σ}
    (hsaved : ∀ id, swap.saved? id = none) (mem : PageId → List UInt8) :
    Keeps p ∅ swap (fun _ => none) none mem := by
  refine ⟨fun id e f he => ?_, fun id bytes hbytes => ?_, fun id e u he => ?_, fun id e u he => ?_,
    fun id u hu => ?_⟩
  · exact absurd he PageTables.not_find?_empty
  · rw [hsaved] at hbytes
    cases hbytes
  · exact absurd he PageTables.not_find?_empty
  · exact absurd he PageTables.not_find?_empty
  · cases hu

/-! ## A process is added -/

section Added

variable {tables : PageTables} {frames : FrameTable} (h : Inverse tables frames live)
  (hfresh : live pid = none) {id : PageId} {e : PageEntry} {u : UserProcess}
include h hfresh

/-- Nothing is known of the pages of a number that nobody has. -/
theorem Inverse.pid_ne_of_fresh (he : tables.find? id = some e) : id.pid ≠ pid := by
  rintro rfl
  obtain ⟨v, hv, -⟩ := h.live_of_find? he
  rw [hfresh] at hv
  cases hv

/-- The pages of the new process are in no frame, and those of the others are as they were. -/
theorem Inverse.find?_create_iff :
    PageTables.find? (tables.insert pid (PageTable.create u.numPages)) id = some e ↔
      id.pid = pid ∧ id.page < u.numPages ∧ e = {} ∨ tables.find? id = some e := by
  rw [PageTables.find?_insert]
  by_cases hid : id.pid = pid
  · rw [if_pos hid, PageTable.create, Array.getElem?_replicate]
    constructor
    · intro he
      split at he
      · rename_i hlt
        exact .inl ⟨hid, hlt, (Option.some.inj he).symm⟩
      · cases he
    · rintro (⟨-, hlt, rfl⟩ | he)
      · rw [if_pos hlt]
      · exact absurd hid (h.pid_ne_of_fresh hfresh he)
  · rw [if_neg hid]
    exact ⟨.inr, fun h' => h'.resolve_left fun h'' => hid h''.1⟩

/-- A new process has nothing that is marked as dirty. -/
theorem Inverse.marked_create_iff {cache : List Mapping} :
    Marked cache (tables.insert pid (PageTable.create u.numPages)) running id ↔
      Marked cache tables running id := by
  refine or_congr_left ⟨?_, ?_⟩
  · rintro ⟨e, he, hd⟩
    rcases (h.find?_create_iff hfresh).1 he with ⟨-, -, rfl⟩ | he'
    · exact Bool.noConfusion hd
    · exact ⟨e, he', hd⟩
  · rintro ⟨e, he, hd⟩
    exact ⟨e, (h.find?_create_iff hfresh).2 (.inr he), hd⟩

theorem Inverse.added (hnum : u.numPages ≤ Address.maxPageNumber + 1) :
    Inverse (tables.insert pid (PageTable.create u.numPages)) frames (live.set pid (some u)) := by
  refine ⟨fun q => ?_, fun q v hv => ?_, fun id e he => ?_, fun f id => ?_,
    fun id e v he hsome hv => ?_⟩
  · rw [PageTables.sizeOf?_insert]
    by_cases hq : q = pid
    · rw [if_pos hq, hq, Population.set, Function.update_self,
        PageTable.numPages_create]
      rfl
    · rw [if_neg hq, Population.set, Function.update_of_ne hq]
      exact h.sizeOf_eq q
  · by_cases hq : q = pid
    · rw [hq, Population.set, Function.update_self] at hv
      obtain rfl := Option.some.inj hv
      exact hnum
    · rw [Population.set, Function.update_of_ne hq] at hv
      exact h.numPages_le q v hv
  · rcases (h.find?_create_iff hfresh).1 he with ⟨-, -, rfl⟩ | he'
    · rfl
    · exact h.valid_eq id e he'
  · -- an owned frame has a page of another process
    refine (h.owner_iff f id).trans (exists_congr fun e => and_congr_left fun hf => ?_)
    rw [h.find?_create_iff hfresh]
    refine ⟨.inr, fun h' => h'.resolve_left ?_⟩
    rintro ⟨-, -, rfl⟩
    cases hf
  · rcases (h.find?_create_iff hfresh).1 he with ⟨-, -, rfl⟩ | he'
    · cases hsome
    · rw [Population.set, Function.update_of_ne (h.pid_ne_of_fresh hfresh he')] at hv
      exact h.readOnly_eq id e v he' hsome hv

/-- The pages of the new process have the contents they start with. -/
theorem Keeps.added [Extent σ] [Extent.Reliable σ] {p : Processor} {swap : SwapArea σ}
    (hcoherent : Coherent p.cache tables running) (hkeeps : Keeps p tables swap live running mem)
    (hold : ∀ id, id.pid ≠ pid → mem' id = mem id)
    (hnew : ∀ page, page < u.numPages →
      mem' ⟨pid, page⟩ = u.image.initialPage page p.pageSize) :
    Keeps p (tables.insert pid (PageTable.create u.numPages)) swap (live.set pid (some u)) running
      mem' := by
  -- for the other processes nothing has changed
  have hlive : ∀ {q : Pid} {v : UserProcess}, live.set pid (some u) q = some v →
      q ≠ pid → live q = some v := by
    intro q v hv hq
    rw [Population.set, Function.update_of_ne hq] at hv
    exact hv
  refine ⟨?_, ?_, ?_, ?_, ?_⟩
  · intro id e f he hf
    rcases (h.find?_create_iff hfresh).1 he with ⟨-, -, rfl⟩ | he'
    · cases hf
    · rw [hold id (h.pid_ne_of_fresh hfresh he')]
      exact hkeeps.resident id e f he' hf
  · intro id bytes hbytes
    obtain ⟨hmem, e, he, hf⟩ := hkeeps.saved id bytes hbytes
    exact ⟨hmem.trans (hold id (h.pid_ne_of_fresh hfresh he)).symm, e,
      (h.find?_create_iff hfresh).2 (.inr he), hf⟩
  · intro id e v he hf hsaved hv
    rcases (h.find?_create_iff hfresh).1 he with ⟨hid, hlt, rfl⟩ | he'
    · obtain ⟨q, page⟩ := id
      obtain rfl : q = pid := hid
      rw [Population.set, Function.update_self] at hv
      obtain rfl := Option.some.inj hv
      exact hnew page hlt
    · have hid := h.pid_ne_of_fresh hfresh he'
      rw [hold id hid]
      exact hkeeps.absent id e v he' hf hsaved (hlive hv hid)
  · intro id e v he hsome hm hv
    rcases (h.find?_create_iff hfresh).1 he with ⟨-, -, rfl⟩ | he'
    · cases hsome
    · have hid := h.pid_ne_of_fresh hfresh he'
      rw [hold id hid]
      exact hkeeps.clean id e v he' hsome (fun hm' => hm ((h.marked_create_iff hfresh).2 hm'))
        (hlive hv hid)
  · intro id v hv hro
    by_cases hid : id.pid = pid
    · -- neither the swap area nor the cache knows a page of the new process
      refine ⟨?_, fun hm => ?_⟩
      · cases hsaved : swap.saved? id with
        | none => rfl
        | some bytes =>
            obtain ⟨-, e, he, -⟩ := hkeeps.saved id bytes hsaved
            exact absurd hid (h.pid_ne_of_fresh hfresh he)
      · rcases (h.marked_create_iff hfresh).1 hm with ⟨e, he, -⟩ | ⟨hrun, c, hc, hvalid, hpage, -⟩
        · exact h.pid_ne_of_fresh hfresh he hid
        · obtain ⟨q, e, hq, he, -⟩ := hcoherent.agrees c hc hvalid
          rw [hrun] at hq
          refine h.pid_ne_of_fresh hfresh he ?_
          rw [← hid]
          exact (Option.some.inj hq).symm
    · obtain ⟨hnone, hunmarked⟩ := hkeeps.readOnly id v (hlive hv hid) hro
      exact ⟨hnone, fun hm => hunmarked ((h.marked_create_iff hfresh).1 hm)⟩

end Added

/-! ## A process ends -/

section Ended

variable {tables : PageTables} {frames frames' : FrameTable} {id : PageId} {e : PageEntry}

theorem Population.set_none_iff {q : Pid} {v : UserProcess} :
    live.set pid none q = some v ↔ q ≠ pid ∧ live q = some v := by
  by_cases hq : q = pid
  · rw [hq, Population.set, Function.update_self]
    constructor
    · intro hv
      cases hv
    · exact fun hv => absurd rfl hv.1
  · rw [Population.set, Function.update_of_ne hq]
    exact (and_iff_right hq).symm

theorem find?_erase_iff :
    PageTables.find? (tables.erase pid) id = some e ↔
      id.pid ≠ pid ∧ tables.find? id = some e := by
  rw [PageTables.find?_erase]
  by_cases hid : id.pid = pid
  · rw [if_pos hid]
    constructor
    · intro he
      cases he
    · exact fun he => absurd hid he.1
  · rw [if_neg hid]
    exact (and_iff_right hid).symm

theorem Inverse.ended (h : Inverse tables frames live)
    (howner : ∀ f id, frames'.owner f = some id ↔ id.pid ≠ pid ∧ frames.owner f = some id) :
    Inverse (tables.erase pid) frames' (live.set pid none) := by
  refine ⟨fun q => ?_, fun q v hv => ?_, fun id e he => ?_, fun f id => ?_,
    fun id e v he hsome hv => ?_⟩
  · rw [PageTables.sizeOf?_erase]
    by_cases hq : q = pid
    · rw [if_pos hq, hq, Population.set, Function.update_self]
      rfl
    · rw [if_neg hq, Population.set, Function.update_of_ne hq]
      exact h.sizeOf_eq q
  · exact h.numPages_le q v (Population.set_none_iff.1 hv).2
  · exact h.valid_eq id e (find?_erase_iff.1 he).2
  · rw [howner, h.owner_iff]
    constructor
    · rintro ⟨hid, e, he, hf⟩
      exact ⟨e, find?_erase_iff.2 ⟨hid, he⟩, hf⟩
    · rintro ⟨e, he, hf⟩
      obtain ⟨hid, he⟩ := find?_erase_iff.1 he
      exact ⟨hid, e, he, hf⟩
  · exact h.readOnly_eq id e v (find?_erase_iff.1 he).2 hsome (Population.set_none_iff.1 hv).2

/-- The page tables mark the pages of the others that they or the cache marked before: the cache
knows none of these. -/
theorem marked_ended_iff {cache cache' : List Mapping} (hflushed : ∀ c ∈ cache', c.valid = false)
    (hid : id.pid ≠ pid) :
    Marked cache' (tables.erase pid) none id ↔ Marked cache tables (some pid) id := by
  rw [marked_iff_of_empty hflushed, PageTables.find?_erase, if_neg hid]
  refine ⟨.inl, fun hm => hm.resolve_right ?_⟩
  rintro ⟨hrun, -⟩
  exact hid (Option.some.inj hrun).symm

theorem Keeps.ended [Extent σ] [Extent.Reliable σ] {p : Processor} {swap swap' : SwapArea σ}
    (h : Keeps p tables swap live (some pid) mem)
    (hsaved : ∀ id, swap'.saved? id = if id.pid = pid then none else swap.saved? id)
    {cache : List Mapping} (hflushed : ∀ c ∈ cache, c.valid = false) :
    Keeps { p with cache } (tables.erase pid) swap' (live.set pid none) none mem := by
  refine ⟨fun id e f he hf => ?_, fun id bytes hbytes => ?_, fun id e v he hf hnone hv => ?_,
    fun id e v he hsome hm hv => ?_, fun id v hv hro => ?_⟩
  · exact h.resident id e f (find?_erase_iff.1 he).2 hf
  · rw [hsaved] at hbytes
    split at hbytes
    · cases hbytes
    · rename_i hid
      obtain ⟨hmem, e, he, hf⟩ := h.saved id bytes hbytes
      exact ⟨hmem, e, find?_erase_iff.2 ⟨hid, he⟩, hf⟩
  · obtain ⟨hid, he⟩ := find?_erase_iff.1 he
    rw [hsaved, if_neg hid] at hnone
    exact h.absent id e v he hf hnone (Population.set_none_iff.1 hv).2
  · obtain ⟨hid, he⟩ := find?_erase_iff.1 he
    exact h.clean id e v he hsome (fun hm' => hm ((marked_ended_iff hflushed hid).2 hm'))
      (Population.set_none_iff.1 hv).2
  · obtain ⟨hid, hv⟩ := Population.set_none_iff.1 hv
    obtain ⟨hnone, hunmarked⟩ := h.readOnly id v hv hro
    exact ⟨by rw [hsaved, if_neg hid, hnone],
      fun hm => hunmarked ((marked_ended_iff hflushed hid).1 hm)⟩

end Ended

/-- What is different after everything was taken from a process, and what is not. -/
structure Reclaimed [Extent σ] [Extent.Reliable σ] (pid : Pid) (s s' : Paging σ) : Prop where
  pageSize_eq : s'.processor.pageSize = s.processor.pageSize
  memory_eq : s'.processor.memory = s.processor.memory
  flushed : ∀ c ∈ s'.processor.cache, c.valid = false
  tables_eq : s'.tables = s.tables.erase pid
  owner_iff : ∀ f id, s'.frameTable.owner f = some id ↔
    id.pid ≠ pid ∧ s.frameTable.owner f = some id
  lookup_eq : ∀ id, s'.swap.lookup id = if id.pid = pid then none else s.swap.lookup id
  bytesAt_eq : ∀ slot, s'.swap.bytesAt slot = s.swap.bytesAt slot

/-- The frames of the process have no owner any more. -/
theorem Reclaimed.owner_eq_none [Extent σ] [Extent.Reliable σ] {s' : Paging σ} {f page : Nat}
    (h : Reclaimed pid s s') (howner : s.frameTable.owner f = some ⟨pid, page⟩) :
    s'.frameTable.owner f = none := by
  rw [Option.eq_none_iff_forall_ne_some]
  intro id hid
  obtain ⟨hpid, hid⟩ := (h.owner_iff f id).1 hid
  rw [howner] at hid
  exact hpid (congrArg PageId.pid (Option.some.inj hid)).symm

/-- Pages of other processes stay where they are. -/
theorem Reclaimed.laden [Extent σ] [Extent.Reliable σ] {s' : Paging σ} {f : Nat}
    (h : Reclaimed pid s s') (hladen : s.Laden f) : s'.Laden f := by
  intro id hid
  obtain ⟨hpid, hid⟩ := (h.owner_iff f id).1 hid
  obtain ⟨e, he, hdirty⟩ := hladen id hid
  exact ⟨e, by rw [h.tables_eq]; exact find?_erase_iff.2 ⟨hpid, he⟩, hdirty⟩

namespace Sound

variable [Extent σ] [Extent.Reliable σ]

/-- A process with a new number is added. -/
theorem added (h : s.Sound live running pins mem) {u : UserProcess} (hfresh : live pid = none)
    (hnum : u.numPages ≤ Address.maxPageNumber + 1)
    (hold : ∀ id, id.pid ≠ pid → mem' id = mem id)
    (hnew : ∀ page, page < u.numPages →
      mem' ⟨pid, page⟩ = u.image.initialPage page s.processor.pageSize) :
    Sound { s with tables := s.tables.insert pid (PageTable.create u.numPages) }
      (live.set pid (some u)) running pins mem' := by
  refine ⟨h.sized, h.frames, h.swap, h.inverse.added hfresh hnum, ⟨?_, h.coherent.distinct⟩,
    .added h.inverse hfresh h.coherent h.keeps hold hnew⟩
  intro c hc hvalid
  obtain ⟨q, e, hq, he, hrest⟩ := h.coherent.agrees c hc hvalid
  exact ⟨q, e, hq, (h.inverse.find?_create_iff hfresh).2 (.inr he), hrest⟩

/-- The other processes do not notice a new one. -/
theorem still_added (h : s.Sound live running pins mem) (u : UserProcess)
    (hfresh : live pid = none) :
    Still s { s with tables := s.tables.insert pid (PageTable.create u.numPages) } :=
  ⟨fun _ => rfl, rfl, rfl, fun _ e he =>
    ⟨e, (h.inverse.find?_create_iff hfresh).2 (.inr he), rfl, fun hd => hd⟩⟩

/-- The pages of a process that are in memory are the owners of the frames that it owns. -/
theorem mem_inMemory_iff (h : s.Sound live running pins mem) {table : PageTable}
    (ht : s.tables[pid]? = some table) (page f : Nat) :
    (page, f) ∈ table.inMemory ↔ s.frameTable.owner f = some ⟨pid, page⟩ := by
  rw [PageTable.mem_inMemory, h.inverse.owner_iff]
  refine exists_congr fun e => ?_
  rw [PageTables.find?_of_table ht]
  refine and_congr_right fun he => ⟨fun h' => h'.2, fun hf => ⟨?_, hf⟩⟩
  exact h.inverse.valid_of_frame ((PageTables.find?_of_table ht page).trans he) hf

/-- A process that ends leaves nothing behind but the pins that others have on its frames. -/
theorem reclaim_run (h : s.Sound live (some pid) pins mem) {u : UserProcess}
    (hu : live pid = some u) :
    ∃ s', reclaim pid s = .ok (.ok (), s') ∧ s'.Sound (live.set pid none) none pins mem ∧
      Reclaimed pid s s' := by
  obtain ⟨table, ht, -⟩ := h.inverse.table_of_live hu
  have hlisted := h.mem_inMemory_iff ht
  obtain ⟨t, hgive, hframes, hsize, howners⟩ := giveBack_all (s := { s with
      processor := MappingCache.flush s.processor, tables := s.tables.erase pid })
    table.inMemory h.frames table.inMemory_nodup fun page f hmem => (hlisted page f).1 hmem
  obtain ⟨hswap, hextent, hswapSize, hlookup⟩ := h.swap.releaseAll_sound pid
  have hflushed : ∀ c ∈ (MappingCache.flush s.processor).cache, c.valid = false := by
    intro c hc
    obtain ⟨_, -, rfl⟩ := List.mem_map.1 hc
    exact Mapping.valid_empty
  -- frames that were given back had pages of the process, and there are no others of it
  have howner : ∀ f id, t.owner f = some id ↔ id.pid ≠ pid ∧ s.frameTable.owner f = some id := by
    intro f id
    rw [howners]
    split
    · rename_i hmem
      obtain ⟨⟨page, g⟩, hpage, rfl⟩ := List.mem_map.1 hmem
      rw [(hlisted page g).1 hpage]
      constructor
      · intro hnone
        cases hnone
      · rintro ⟨hid, hsame⟩
        exact absurd (PageId.mk.inj (Option.some.inj hsame)).1.symm hid
    · rename_i hnot
      refine ⟨fun hid => ⟨?_, hid⟩, fun hid => hid.2⟩
      rintro rfl
      exact hnot (List.mem_map.2 ⟨(id.page, f), (hlisted id.page f).2 hid, rfl⟩)
  -- slots keep their bytes, so pages of others are saved as before
  have hbytes : ∀ slot, (s.swap.releaseAll pid).2.bytesAt slot = s.swap.bytesAt slot := by
    intro slot
    rw [SwapArea.bytesAt, SwapArea.bytesAt, hextent, hswapSize]
  have hsaved : ∀ id, (s.swap.releaseAll pid).2.saved? id =
      if id.pid = pid then none else s.swap.saved? id := by
    intro id
    rw [SwapArea.saved?, SwapArea.saved?, hlookup, funext hbytes]
    split <;> rfl
  refine ⟨{ s with
    processor := MappingCache.flush s.processor, tables := s.tables.erase pid, frameTable := t,
    swap := (s.swap.releaseAll pid).2 }, ?_,
    ⟨⟨h.sized.pageSize_pos, h.sized.length_frame, h.sized.numFrames_eq.trans hsize.symm,
      h.sized.numFrames_pos, h.sized.numFrames_le, ?_, hswapSize.trans h.sized.swap_pageSize⟩,
      hframes, hswap, h.inverse.ended howner, .of_empty hflushed, h.keeps.ended hsaved hflushed⟩,
    ⟨rfl, rfl, hflushed, rfl, howner, hlookup, hbytes⟩⟩
  · have hflush : flush s =
        .ok (.ok (), { s with processor := MappingCache.flush s.processor }) := rfl
    rw [reclaim, bind_ok hflush, bind_ok (get_run _), ht]
    exact (bind_ok (modify_run _ _)).trans (bind_ok hgive)
  · show 0 < (s.processor.cache.map _).length
    rw [List.length_map]
    exact h.sized.cache_pos

end Sound

end DemandPaging.Paging
