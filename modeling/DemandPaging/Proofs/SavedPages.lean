import DemandPaging.Proofs.Kernel.Halts
import DemandPaging.Proofs.Kernel.Searches
import DemandPaging.Proofs.Kernel.Standstill

/-!
# A page is in memory or in swap, never in both

Every slot that is in use has the contents of one page of a live process, and this page is in no
frame. So a page that leaves memory never has a slot already, and a page that comes back always
finds its slot to be its own (`CallerRun.saved_apart`). Callers may pin frames all the while.
-/

namespace DemandPaging

namespace Paging.Sound

variable {σ : Type} [Extent σ] [Extent.Reliable σ] {s : Paging σ} {live : Population}
  {running : Option Pid} {pins : Multiset Nat} {mem : PageId → List UInt8} {id : PageId}
  {slot : Nat}

/-- A page that has a slot has its contents there, and is in no frame. -/
theorem slot_of_lookup (h : s.Sound live running pins mem) (hslot : s.swap.lookup id = some slot) :
    s.swap.bytesAt slot = mem id ∧ s.swap.owner slot = some id.pid ∧
      ∃ e, s.tables.find? id = some e ∧ e.frame = none := by
  have hsaved : s.swap.saved? id = some (s.swap.bytesAt slot) := by
    rw [SwapArea.saved?, hslot]
    rfl
  obtain ⟨hmem, hentry⟩ := h.keeps.saved id _ hsaved
  exact ⟨hmem, (h.swap.owner_iff slot id.pid).2 ⟨id.page, hslot⟩, hentry⟩

/-- A page that has a slot can be fetched from it. -/
theorem fetch_of_lookup (h : s.Sound live running pins mem)
    (hslot : s.swap.lookup id = some slot) :
    ∃ swap, s.swap.fetch id slot s.processor.pageSize = .ok (.ok (mem id), swap) := by
  have hsaved : s.swap.saved? id = some (mem id) := by
    rw [SwapArea.saved?, hslot, ← (h.slot_of_lookup hslot).1]
    rfl
  obtain ⟨swap, hfetch, -⟩ := h.swap.fetch_eq hslot hsaved h.sized.swap_pageSize.symm
  exact ⟨swap, hfetch⟩

end Paging.Sound

namespace Kernel

variable {σ : Type} [Extent σ] [Extent.Reliable σ]

/-- A slot is in use: there is such a slot, and it is not free. -/
def InUse (k : Kernel σ) (slot : Nat) : Prop :=
  slot < k.paging.swap.numSlots ∧ slot ∉ k.paging.swap.free

instance (k : Kernel σ) (slot : Nat) : Decidable (k.InUse slot) :=
  inferInstanceAs (Decidable (slot < k.paging.swap.numSlots ∧ slot ∉ k.paging.swap.free))

/-- The page `v` of a process is swapped out to a slot: the process is alive and has the page, which
is in no frame; and the slot has what the flat machine has in this page, and belongs to the
process. -/
structure SwappedOut (k : Kernel σ) (m : FlatMachine) (i : Nat) (q : FlatProcess) (v slot : Nat) :
    Prop where
  process : m.processes[i]? = some q
  alive : q.process.exited = false
  inside : v < q.process.numPages
  lookup : k.paging.swap.lookup ⟨q.process.pid, v⟩ = some slot
  owner : k.paging.swap.owner slot = some q.process.pid
  absent : ∃ e, k.paging.tables.find? ⟨q.process.pid, v⟩ = some e ∧ e.valid = false ∧ e.frame = none
  contents : k.paging.swap.bytesAt slot = q.load (v * k.config.pageSize) k.config.pageSize

variable {k : Kernel σ} {m : FlatMachine} {callers : Multiset Nat}

namespace Sound

/-- A page that has a slot is swapped out. -/
theorem swappedOut (h : k.Sound m callers) {id : PageId} {slot : Nat}
    (hslot : k.paging.swap.lookup id = some slot) :
    ∃ i q, id.pid = q.process.pid ∧ k.SwappedOut m i q id.page slot := by
  obtain ⟨running, -, hpaging⟩ := h.paging
  obtain ⟨hbytes, howner, e, he, hf⟩ := hpaging.slot_of_lookup hslot
  obtain ⟨u, hu, hlt⟩ := hpaging.inverse.live_of_find? he
  obtain ⟨hpid, halive, i, hi⟩ := h.live_eq_some_iff.1 hu
  obtain ⟨q, hq, rfl⟩ := h.flat_of_process hi
  obtain ⟨pid, v⟩ := id
  obtain rfl : q.process.pid = pid := hpid
  refine ⟨i, q, rfl, hq, halive, hlt, hslot, howner, ⟨e, he, ?_, hf⟩, ?_⟩
  · rw [hpaging.inverse.valid_eq _ e he, hf]
    rfl
  · rw [hbytes, h.numbered.page_eq hq, h.config_eq]

/-- A slot in use is that of one page. -/
theorem exists_swappedOut (h : k.Sound m callers) {slot : Nat} (huse : k.InUse slot) :
    ∃ i q v, k.SwappedOut m i q v slot ∧
      ∀ id, k.paging.swap.lookup id = some slot → id = ⟨q.process.pid, v⟩ := by
  obtain ⟨running, -, hpaging⟩ := h.paging
  obtain ⟨id, hid⟩ := ((hpaging.swap.lt_numSlots_iff slot).1 huse.1).resolve_left huse.2
  obtain ⟨i, q, hpid, hout⟩ := h.swappedOut hid
  refine ⟨i, q, id.page, hout, fun id' hid' => ?_⟩
  exact hpaging.swap.lookup_inj slot _ _ hid' hout.lookup

/-- What a search does for a page, it does right: it never meets a slot of the page that it pushes
out, and the slot of the page that it is for is the page's own. -/
theorem search_saved (h : k.Sound m callers) {n page : Nat} {p : UserProcess}
    {search : PagingM σ Paging.FrameSearch} (hsearch : k.Searches n p page search)
    (counters : Counters) :
    (∀ slot s', search { k.paging with counters } ≠ .ok (.error (.swapTableCorrupt slot), s')) ∧
    ∀ f passOn s' slot bytes, search { k.paging with counters } = .ok (.ok (.found f passOn), s') →
      s'.swap.lookup ⟨p.pid, page⟩ = some slot → s'.processor.frame f = .ok bytes →
        ∃ swap, s'.swap.fetch ⟨p.pid, page⟩ slot bytes.length =
          .ok (.ok (m.page ⟨p.pid, page⟩), swap) := by
  rcases h.search_run hsearch counters with
    ⟨found, s', hrun, hsearched, -⟩ | ⟨⟨s', hrun⟩, -⟩
  · refine ⟨fun slot s'' => ?_, fun f passOn s'' slot bytes hrun' hslot hbytes => ?_⟩
    · rw [hrun]
      exact nofun
    · obtain ⟨rfl, rfl⟩ : found = .found f passOn ∧ s' = s'' := by
        obtain ⟨hfound, hstate⟩ := Prod.mk.inj (Except.ok.inj (hrun.symm.trans hrun'))
        exact ⟨Except.ok.inj hfound, hstate⟩
      obtain ⟨hsound, -, -⟩ := hsearched
      -- the frame that was found is there, so it has the bytes of a page
      have hframe : f < s'.processor.numFrames := by
        rw [hsound.sized.numFrames_eq]
        exact FrameTable.lt_size_of_isAllocated
          (hsound.frames.allocated_of_mem (Multiset.mem_cons_self f _))
      obtain ⟨bytes', hbytes', -, hlength⟩ := hsound.frame_eq hframe
      obtain rfl := Except.ok.inj (hbytes.symm.trans hbytes')
      rw [hlength]
      exact hsound.fetch_of_lookup hslot
  · refine ⟨fun slot s'' => ?_, fun f passOn s'' slot bytes hrun' => ?_⟩
    · rw [hrun]
      exact nofun
    · rw [hrun] at hrun'
      cases hrun'

end Sound

/-- After every run, with whatever frames pinned by callers, each slot in use is that of one page,
which is swapped out there; a page has at most one slot, and it is in use; and a page in memory has
none. Whatever thread looks for a frame next, the page that it pushes out has no slot yet, and the
page that it brings in is fetched from its own slot, with its contents. So no step stops the machine
for a slot that is both free and in use. -/
theorem CallerRun.saved_apart {c : Config} {extent : σ} (hintact : Extent.Reliable.Intact extent)
    {k₀ k : Kernel σ} (hboot : boot c extent = .ok (.ok k₀))
    {trace : List (Event × Option (Response σ))} {callers : Multiset Nat}
    (hrun : CallerRun (fun _ => True) k₀ 0 trace callers k) :
    ∃ m, FlatMachine.Run c trace m ∧ m.processes.map FlatProcess.process = k.processes ∧
      (∀ slot, k.InUse slot → ∃ i q v, k.SwappedOut m i q v slot ∧
        ∀ id, k.paging.swap.lookup id = some slot → id = ⟨q.process.pid, v⟩) ∧
      (∀ i q v slot slot', k.SwappedOut m i q v slot → k.SwappedOut m i q v slot' → slot = slot') ∧
      (∀ id slot, k.paging.swap.lookup id = some slot → k.InUse slot) ∧
      (∀ id e, k.paging.tables.find? id = some e → e.valid = true ∨ e.frame.isSome →
        k.paging.swap.lookup id = none) ∧
      (∀ n p page search, k.Searches n p page search → ∀ counters,
        (∀ slot s', search { k.paging with counters } ≠ .ok (.error (.swapTableCorrupt slot), s')) ∧
        ∀ f passOn s' slot bytes,
          search { k.paging with counters } = .ok (.ok (.found f passOn), s') →
          s'.swap.lookup ⟨p.pid, page⟩ = some slot → s'.processor.frame f = .ok bytes →
          ∃ swap, s'.swap.fetch ⟨p.pid, page⟩ slot bytes.length =
            .ok (.ok (m.page ⟨p.pid, page⟩), swap)) ∧
      ∀ e slot, e.isOrdinary = true →
        k.perform e ≠ some (.error (.fatal (.swapTableCorrupt slot))) := by
  obtain ⟨m, hflat, hsound⟩ := hrun.simulated hintact hboot
  obtain ⟨running, -, hpaging⟩ := hsound.paging
  refine ⟨m, hflat, hsound.processes_eq, fun slot => hsound.exists_swappedOut, ?_, ?_, ?_,
    fun n p page search hsearch => hsound.search_saved hsearch, ?_⟩
  · intro i q v slot slot' hout hout'
    exact Option.some.inj (hout.lookup.symm.trans hout'.lookup)
  · intro id slot hslot
    exact ⟨(hpaging.swap.lt_numSlots_iff slot).2 (.inr ⟨id, hslot⟩),
      fun hfree => hpaging.swap.lookup_ne_of_free slot id hfree hslot⟩
  · intro id e he hresident
    cases hslot : k.paging.swap.lookup id with
    | none => rfl
    | some slot =>
        obtain ⟨-, -, e', he', hf⟩ := hpaging.slot_of_lookup hslot
        obtain rfl := Option.some.inj (he.symm.trans he')
        rw [hpaging.inverse.valid_eq id e he, hf] at hresident
        simp at hresident
  · intro e slot he hhalt
    obtain ⟨hcause, -⟩ := hsound.fatal_run (hrun.slotWaits hintact hboot) he hhalt
    cases hcause

/-- The page of the stack is in the only slot with the byte that was stored, while the page of the
image is in the only frame, which the console has pinned. -/
theorem saved_apart_small : ∃ (k₀ k k' : Kernel MemoryExtent)
    (trace : List (Event × Option (Response MemoryExtent))) (m : FlatMachine) (i : Nat)
    (q : FlatProcess),
    boot smallConfig (⟨.zeros 1⟩ : MemoryExtent) = .ok (.ok k₀) ∧
      k₀.performAll savedEvents = some (trace, k) ∧ k.CallerStep 0 {0} k' ∧
      CallerRun (fun _ => True) k₀ 0 trace {0} k' ∧ FlatMachine.Run smallConfig trace m ∧
      k'.InUse 0 ∧ k'.SwappedOut m i q 1 0 ∧ q.process.pid = 1 ∧
      q.load (1 * k'.config.pageSize) k'.config.pageSize = [5] ∧
      k'.paging.frameTable.owner 0 = some ⟨1, 0⟩ ∧ k'.paging.swap.lookup ⟨1, 0⟩ = none := by
  have hlast : holdsAfter smallConfig savedEvents (holdsPinned 0 fun k =>
      decide (k.InUse 0 ∧ k.paging.swap.lookup ⟨1, 1⟩ = some 0 ∧ k.paging.swap.bytesAt 0 = [5] ∧
        k.paging.frameTable.owner 0 = some ⟨1, 0⟩) &&
          (k.paging.tables.find? ⟨1, 0⟩).any PageEntry.valid) = true := by
    decide +kernel
  obtain ⟨k₀, k, k', trace, hboot, hall, hcall, hrun, hk⟩ :=
    callerRun_of_holdsAfter (by decide) hlast
  rw [Bool.and_eq_true, decide_eq_true_iff, Option.any_eq_true] at hk
  obtain ⟨⟨huse, hlookup, hbytes, howner⟩, e, he, hvalid⟩ := hk
  obtain ⟨m, hflat, -, hslots, -, -, hresident, -⟩ :=
    hrun.saved_apart (MemoryExtent.intact_zeros (by decide)) hboot
  obtain ⟨i, q, v, hout, hunique⟩ := hslots 0 huse
  obtain ⟨hpid, rfl⟩ := PageId.mk.inj (hunique _ hlookup)
  exact ⟨k₀, k, k', trace, m, i, q, hboot, hall, hcall, hrun, hflat, huse, hout, hpid.symm,
    hout.contents.symm.trans hbytes, howner, hresident _ e he (.inl hvalid)⟩

end Kernel

end DemandPaging
