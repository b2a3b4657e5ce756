import DemandPaging.Paging.State
import DemandPaging.Proofs.FrameTable
import DemandPaging.Proofs.MappingCache
import DemandPaging.Proofs.SwapArea

/-!
# What holds of the processor and the tables

`Paging.Sound` is the invariant of the memory manager between its actions. It is stated for the
processes that are alive, the process whose entries the mapping cache may hold, the pins that
threads have on frames, and the contents `mem` that every page is to have wherever it is kept.

The parts are: the sizes of all components fit together (`Sized`); page tables and frame table are
inverse to each other (`Inverse`); the cache holds only mappings of the running process, each one
once (`Coherent`); and every page has its contents in its frame, in its slot, or in the image it
came from, so that a page that nothing marks as dirty can be built afresh (`Keeps`).
-/

namespace DemandPaging.Paging

variable {σ : Type}

/-- The processes that are alive, by number. -/
abbrev Population := Pid → Option UserProcess

/-- The page table or the cache marks a page as dirty. The cache speaks for the running process. -/
def Marked (cache : List Mapping) (tables : PageTables) (running : Option Pid) (id : PageId) :
    Prop :=
  (∃ e, tables.find? id = some e ∧ e.dirty = true) ∨
    (running = some id.pid ∧
      ∃ c ∈ cache, c.valid = true ∧ c.page = id.page ∧ c.dirty = true)

/-- The page tables know of every page that is marked as dirty. -/
def Synced (cache : List Mapping) (tables : PageTables) (running : Option Pid) : Prop :=
  ∀ id, Marked cache tables running id → ∃ e, tables.find? id = some e ∧ e.dirty = true

/-- The sizes of frames, slots and tables fit together. -/
structure Sized (p : Processor) (frames : FrameTable) (swap : SwapArea σ) : Prop where
  pageSize_pos : 0 < p.pageSize
  length_frame : ∀ (f : Nat) (bytes : List UInt8),
    p.memory[f]? = some bytes → bytes.length = p.pageSize
  numFrames_eq : p.numFrames = frames.size
  numFrames_pos : 0 < p.numFrames
  numFrames_le : p.numFrames ≤ Address.maxPageNumber + 1
  cache_pos : 0 < p.cache.length
  swap_pageSize : swap.pageSize = p.pageSize

/-- Exactly the live processes have page tables, and these are the inverse of the frame table. -/
structure Inverse (tables : PageTables) (frames : FrameTable) (live : Population) : Prop where
  sizeOf_eq : ∀ pid, tables.sizeOf? pid = (live pid).map UserProcess.numPages
  numPages_le : ∀ pid u, live pid = some u → u.numPages ≤ Address.maxPageNumber + 1
  valid_eq : ∀ id e, tables.find? id = some e → e.valid = e.frame.isSome
  -- the two tables are inverse to each other
  owner_iff : ∀ f id, frames.owner f = some id ↔
    ∃ e, tables.find? id = some e ∧ e.frame = some f
  readOnly_eq : ∀ id e u, tables.find? id = some e → e.frame.isSome = true →
    live id.pid = some u → e.readOnly = u.image.isReadOnly id.page

/-- Every valid cache entry is a mapping of the running process, and no page has two. -/
structure Coherent (cache : List Mapping) (tables : PageTables) (running : Option Pid) :
    Prop where
  agrees : ∀ c ∈ cache, c.valid = true → ∃ pid e, running = some pid ∧
    tables.find? ⟨pid, c.page⟩ = some e ∧ e.frame = some c.frame ∧ e.readOnly = c.readOnly
  distinct : MappingCache.Distinct cache

/-- Every page has its contents in its frame or in its slot, or starts with them. -/
structure Keeps (p : Processor) (tables : PageTables) [Extent σ] [Extent.Reliable σ]
    (swap : SwapArea σ) (live : Population) (running : Option Pid)
    (mem : PageId → List UInt8) : Prop where
  -- a page in a frame
  resident : ∀ id e f, tables.find? id = some e → e.frame = some f →
    p.memory[f]? = some (mem id)
  -- a page in a slot, which is in no frame
  saved : ∀ id bytes, swap.saved? id = some bytes →
    bytes = mem id ∧ ∃ e, tables.find? id = some e ∧ e.frame = none
  -- a page that is nowhere, and so has to be made afresh
  absent : ∀ id e u, tables.find? id = some e → e.frame = none → swap.saved? id = none →
    live id.pid = some u → mem id = u.image.initialPage id.page p.pageSize
  -- a page that may be forgotten when it leaves its frame
  clean : ∀ id e u, tables.find? id = some e → e.frame.isSome = true →
    ¬ Marked p.cache tables running id → live id.pid = some u →
    mem id = u.image.initialPage id.page p.pageSize
  -- a page that nobody may write, and that is never stored
  readOnly : ∀ id u, live id.pid = some u → u.image.isReadOnly id.page = true →
    swap.saved? id = none ∧ ¬ Marked p.cache tables running id

/-- The invariant of the memory manager between its actions. -/
structure Sound [Extent σ] [Extent.Reliable σ] (s : Paging σ) (live : Population)
    (running : Option Pid) (pins : Multiset Nat) (mem : PageId → List UInt8) : Prop where
  sized : Sized s.processor s.frameTable s.swap
  frames : s.frameTable.Sound pins
  swap : s.swap.Sound
  inverse : Inverse s.tables s.frameTable live
  coherent : Coherent s.processor.cache s.tables running
  keeps : Keeps s.processor s.tables s.swap live running mem

namespace Inverse

variable {tables : PageTables} {frames : FrameTable} {live : Population}

/-- A page in a frame is in memory. -/
theorem valid_of_frame (h : Inverse tables frames live) {id : PageId} {e : PageEntry} {f : Nat}
    (he : tables.find? id = some e) (hf : e.frame = some f) : e.valid = true := by
  rw [h.valid_eq id e he, hf]
  rfl

/-- A page without a frame is not. -/
theorem not_valid_of_none (h : Inverse tables frames live) {id : PageId} {e : PageEntry}
    (he : tables.find? id = some e) (hf : e.frame = none) : ¬ e.valid = true := by
  rw [h.valid_eq id e he, hf]
  exact Bool.false_ne_true

/-- A page with an entry is a page of a live process, inside its address space. -/
theorem live_of_find? (h : Inverse tables frames live) {id : PageId} {e : PageEntry}
    (he : tables.find? id = some e) : ∃ u, live id.pid = some u ∧ id.page < u.numPages := by
  obtain ⟨n, hn, hlt⟩ := PageTables.exists_find?_iff.1 ⟨e, he⟩
  rw [h.sizeOf_eq, Option.map_eq_some_iff] at hn
  obtain ⟨u, hu, rfl⟩ := hn
  exact ⟨u, hu, hlt⟩

/-- A page inside the address space of a live process has an entry. -/
theorem find?_of_live (h : Inverse tables frames live) {pid : Pid} {page : Nat} {u : UserProcess}
    (hu : live pid = some u) (hlt : page < u.numPages) :
    ∃ e, tables.find? ⟨pid, page⟩ = some e := by
  refine PageTables.exists_find?_iff.2 ⟨u.numPages, ?_, hlt⟩
  rw [h.sizeOf_eq, hu]
  rfl

/-- A live process has a page table, of the size of its address space. -/
theorem table_of_live (h : Inverse tables frames live) {pid : Pid} {u : UserProcess}
    (hu : live pid = some u) :
    ∃ table, tables[pid]? = some table ∧ table.numPages = u.numPages := by
  have := h.sizeOf_eq pid
  rw [hu, PageTables.sizeOf?, Option.map_some, Option.map_eq_some_iff] at this
  exact this

/-- A process that is not alive has no page table. -/
theorem table_eq_none (h : Inverse tables frames live) {pid : Pid} (hu : live pid = none) :
    tables[pid]? = none := by
  have := h.sizeOf_eq pid
  rw [hu, PageTables.sizeOf?] at this
  exact Option.map_eq_none_iff.1 this

/-- A frame holds one page. -/
theorem frame_inj (h : Inverse tables frames live) {id id' : PageId} {e e' : PageEntry} {f : Nat}
    (he : tables.find? id = some e) (hf : e.frame = some f) (he' : tables.find? id' = some e')
    (hf' : e'.frame = some f) : id = id' := by
  have h1 := (h.owner_iff f id).2 ⟨e, he, hf⟩
  have h2 := (h.owner_iff f id').2 ⟨e', he', hf'⟩
  exact Option.some.inj (h1.symm.trans h2)

end Inverse

namespace Coherent

variable {cache : List Mapping} {tables : PageTables} {running : Option Pid}

/-- A cache that no process runs with is empty. -/
theorem empty_of_none (h : Coherent cache tables none) {c : Mapping} (hc : c ∈ cache) :
    c.valid = false := by
  rw [← Bool.not_eq_true]
  intro hvalid
  obtain ⟨pid, e, hpid, -⟩ := h.agrees c hc hvalid
  cases hpid

/-- A cache without valid entries is coherent whatever the tables are. -/
theorem of_empty (h : ∀ c ∈ cache, c.valid = false) : Coherent cache tables running := by
  refine ⟨fun c hc hvalid => ?_, ?_⟩
  · rw [h c hc] at hvalid
    exact Bool.noConfusion hvalid
  · rw [MappingCache.Distinct, List.pairwise_iff_forall_sublist]
    intro a b hab ha
    rw [h a (hab.subset List.mem_cons_self)] at ha
    exact Bool.noConfusion ha

/-- The cache of the running process agrees with its page table. -/
theorem agrees_table {pid : Pid} (h : Coherent cache tables (some pid)) {table : PageTable}
    (ht : tables[pid]? = some table)
    (hvalid : ∀ id e, tables.find? id = some e → e.valid = e.frame.isSome) :
    MappingCache.Agrees cache table := by
  intro c hc hv
  obtain ⟨pid', e, hpid, he, hf, -⟩ := h.agrees c hc hv
  obtain rfl := Option.some.inj hpid
  refine ⟨e, (PageTables.find?_of_table ht c.page).symm.trans he, ?_, hf⟩
  rw [hvalid _ _ he, hf]
  rfl

end Coherent

/-- Without valid cache entries only the page tables mark pages. -/
theorem marked_iff_of_empty {cache : List Mapping} {tables : PageTables} {running : Option Pid}
    (h : ∀ c ∈ cache, c.valid = false) (id : PageId) :
    Marked cache tables running id ↔ ∃ e, tables.find? id = some e ∧ e.dirty = true := by
  refine ⟨fun hm => hm.resolve_right ?_, .inl⟩
  rintro ⟨-, c, hc, hvalid, -⟩
  rw [h c hc] at hvalid
  exact Bool.noConfusion hvalid

namespace Sound

variable [Extent σ] [Extent.Reliable σ] {s : Paging σ} {live : Population}
  {running : Option Pid} {pins : Multiset Nat} {mem : PageId → List UInt8}

/-- With an empty cache it does not matter which process runs. -/
theorem switch (h : s.Sound live running pins mem)
    (hempty : ∀ c ∈ s.processor.cache, c.valid = false) (running' : Option Pid) :
    s.Sound live running' pins mem := by
  have hiff : ∀ id, Marked s.processor.cache s.tables running' id ↔
      Marked s.processor.cache s.tables running id := fun id =>
    (marked_iff_of_empty hempty id).trans (marked_iff_of_empty hempty id).symm
  refine ⟨h.sized, h.frames, h.swap, h.inverse, .of_empty hempty, h.keeps.resident, h.keeps.saved,
    h.keeps.absent, ?_, ?_⟩
  · intro id e u he hf hm
    exact h.keeps.clean id e u he hf (fun hm' => hm ((hiff id).2 hm'))
  · intro id u hu hro
    exact ⟨(h.keeps.readOnly id u hu hro).1, fun hm =>
      (h.keeps.readOnly id u hu hro).2 ((hiff id).1 hm)⟩

theorem empty_of_none (h : s.Sound live none pins mem) {c : Mapping}
    (hc : c ∈ s.processor.cache) : c.valid = false := h.coherent.empty_of_none hc

/-- What holds while no process runs holds when any process begins to. -/
theorem switch_of_none (h : s.Sound live none pins mem) (running' : Option Pid) :
    s.Sound live running' pins mem := h.switch (fun _ hc => h.empty_of_none hc) running'

/-- A resident page owns its frame, which is there and holds its contents. -/
theorem frame_of_resident (h : s.Sound live running pins mem) {id : PageId} {e : PageEntry}
    {f : Nat} (he : s.tables.find? id = some e) (hf : e.frame = some f) :
    s.frameTable.owner f = some id ∧ f < s.processor.numFrames ∧
      s.processor.memory[f]? = some (mem id) := by
  have howner := (h.inverse.owner_iff f id).2 ⟨e, he, hf⟩
  refine ⟨howner, ?_, h.keeps.resident id e f he hf⟩
  rw [h.sized.numFrames_eq]
  exact h.frames.lt_size_of_owner howner

/-- A frame that is there has the bytes of one page. -/
theorem frame_eq (h : s.Sound live running pins mem) {f : Nat} (hf : f < s.processor.numFrames) :
    ∃ bytes, s.processor.frame f = .ok bytes ∧ s.processor.memory[f]? = some bytes ∧
      bytes.length = s.processor.pageSize := by
  have hbytes : s.processor.memory[f]? = some s.processor.memory[f] :=
    Array.getElem?_eq_getElem hf
  refine ⟨s.processor.memory[f], ?_, hbytes, h.sized.length_frame f _ hbytes⟩
  rw [Processor.frame, Processor.hasFrame, if_pos]
  · rw [Array.getD_eq_getD_getElem?, hbytes]
    rfl
  · exact decide_eq_true (Nat.mul_le_mul_right _ hf)

omit [Extent σ] [Extent.Reliable σ] in
/-- What is in memory once a frame that is there has new bytes. -/
theorem getElem?_setFrame {f : Nat} (hf : f < s.processor.numFrames) (bytes : List UInt8)
    (g : Nat) : (s.processor.memory.setIfInBounds f bytes)[g]? =
      if g = f then some bytes else s.processor.memory[g]? := by
  rw [Array.getElem?_setIfInBounds]
  by_cases hg : f = g
  · rw [if_pos hg, if_pos hg.symm, if_pos (show f < s.processor.memory.size from hf)]
  · rw [if_neg hg, if_neg (Ne.symm hg)]

/-- A frame that is there takes new bytes. -/
theorem setFrame_eq (h : s.Sound live running pins mem) {f : Nat}
    (hf : f < s.processor.numFrames) (bytes : List UInt8) :
    s.processor.setFrame f bytes =
      .ok { s.processor with memory := s.processor.memory.setIfInBounds f bytes } := by
  obtain ⟨_, hframe, -, -⟩ := h.frame_eq hf
  rw [Processor.frame] at hframe
  split at hframe
  · rename_i hhas
    rw [Processor.setFrame, if_pos hhas]
  · cases hframe

/-- Pins may come and go, as long as every frame keeps its owner. -/
theorem repinned (h : s.Sound live running pins mem) {frameTable : FrameTable}
    {pins' : Multiset Nat} (hframes : frameTable.Sound pins')
    (hsize : frameTable.size = s.frameTable.size)
    (howner : ∀ f, frameTable.owner f = s.frameTable.owner f) :
    Sound { s with frameTable } live running pins' mem := by
  refine ⟨⟨h.sized.pageSize_pos, h.sized.length_frame, h.sized.numFrames_eq.trans hsize.symm,
    h.sized.numFrames_pos, h.sized.numFrames_le, h.sized.cache_pos, h.sized.swap_pageSize⟩,
    hframes, h.swap, ⟨h.inverse.sizeOf_eq, h.inverse.numPages_le, h.inverse.valid_eq,
      fun f id => ?_, h.inverse.readOnly_eq⟩, h.coherent, h.keeps⟩
  rw [howner]
  exact h.inverse.owner_iff f id

/-- What nothing is said of may change. -/
theorem reset (h : s.Sound live running pins mem) (policy : Policy) (rng : Random)
    (counters : Counters) : Sound { s with policy, rng, counters } live running pins mem :=
  ⟨h.sized, h.frames, h.swap, h.inverse, h.coherent, h.keeps⟩

/-- Entries of page tables may get other bits. What was marked as dirty has to stay so, in the table
or in the cache, and only pages that may be written become so. -/
theorem retag (h : s.Sound live running pins mem) (cache : List Mapping) (tables : PageTables)
    {running' : Option Pid} (hcache : 0 < cache.length)
    (hsize : ∀ pid, tables.sizeOf? pid = s.tables.sizeOf? pid)
    (hfind : ∀ id e', tables.find? id = some e' → ∃ e, s.tables.find? id = some e ∧
      e'.frame = e.frame ∧ e'.valid = e.valid ∧ e'.readOnly = e.readOnly)
    (hcoherent : Coherent cache tables running')
    (hkept : ∀ id, Marked s.processor.cache s.tables running id → Marked cache tables running' id)
    (hnew : ∀ id, Marked cache tables running' id →
      Marked s.processor.cache s.tables running id ∨
        ∀ u, live id.pid = some u → u.image.isReadOnly id.page = false) :
    Sound { s with processor := { s.processor with cache }, tables } live running' pins mem := by
  -- the tables have the same sizes, so no page has lost its entry
  have hback : ∀ id e, s.tables.find? id = some e →
      ∃ e', tables.find? id = some e' ∧ e'.frame = e.frame := by
    intro id e he
    obtain ⟨e', he'⟩ : ∃ e', tables.find? id = some e' := by
      rw [PageTables.exists_find?_iff, hsize, ← PageTables.exists_find?_iff]
      exact ⟨e, he⟩
    obtain ⟨e0, he0, hf, -⟩ := hfind id e' he'
    rw [he] at he0
    obtain rfl := Option.some.inj he0
    exact ⟨e', he', hf⟩
  refine ⟨⟨h.sized.pageSize_pos, h.sized.length_frame, h.sized.numFrames_eq,
    h.sized.numFrames_pos, h.sized.numFrames_le, hcache, h.sized.swap_pageSize⟩, h.frames, h.swap,
    ⟨?_, h.inverse.numPages_le, ?_, ?_, ?_⟩, hcoherent, ⟨?_, ?_, ?_, ?_, ?_⟩⟩
  · exact fun pid => (hsize pid).trans (h.inverse.sizeOf_eq pid)
  · intro id e' he'
    obtain ⟨e, he, hf, hv, -⟩ := hfind id e' he'
    rw [hv, hf]
    exact h.inverse.valid_eq id e he
  · intro f id
    refine (h.inverse.owner_iff f id).trans ⟨?_, ?_⟩
    · rintro ⟨e, he, hf⟩
      obtain ⟨e', he', hf'⟩ := hback id e he
      exact ⟨e', he', hf'.trans hf⟩
    · rintro ⟨e', he', hf'⟩
      obtain ⟨e, he, hf, -⟩ := hfind id e' he'
      exact ⟨e, he, hf.symm.trans hf'⟩
  · intro id e' u he' hf' hu
    obtain ⟨e, he, hf, -, hr⟩ := hfind id e' he'
    rw [hr]
    exact h.inverse.readOnly_eq id e u he (hf ▸ hf') hu
  · intro id e' f he' hf'
    obtain ⟨e, he, hf, -⟩ := hfind id e' he'
    exact h.keeps.resident id e f he (hf.symm.trans hf')
  · intro id bytes hsaved
    obtain ⟨hbytes, e, he, hf⟩ := h.keeps.saved id bytes hsaved
    obtain ⟨e', he', hf'⟩ := hback id e he
    exact ⟨hbytes, e', he', hf'.trans hf⟩
  · intro id e' u he' hf' hsaved hu
    obtain ⟨e, he, hf, -⟩ := hfind id e' he'
    exact h.keeps.absent id e u he (hf.symm.trans hf') hsaved hu
  · intro id e' u he' hf' hm hu
    obtain ⟨e, he, hf, -⟩ := hfind id e' he'
    exact h.keeps.clean id e u he (hf ▸ hf') (fun hm' => hm (hkept id hm')) hu
  · intro id u hu hro
    obtain ⟨h1, h2⟩ := h.keeps.readOnly id u hu hro
    refine ⟨h1, fun hm => ?_⟩
    rcases hnew id hm with hm' | hw
    · exact h2 hm'
    · rw [hw u hu] at hro
      exact Bool.noConfusion hro

end Sound

end DemandPaging.Paging
