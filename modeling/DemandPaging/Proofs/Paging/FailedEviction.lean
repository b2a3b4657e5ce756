import DemandPaging.Proofs.CoveredRuns
import DemandPaging.Proofs.Paging.Audit
import DemandPaging.Proofs.Paging.Eviction

/-!
# Evictions whose write fails

A search for a frame may have to push out a page that only its frame has, and the write of the page
may fail. Until then the cache has been synced, the policy has moved on, the victim has been pinned
and a slot has been chosen. All of this is undone or means nothing (`Unharmed`), so what the search
leaves behind is what it found.

The extent here is any one that a reliable extent covers: what has been done so far would have been
done on the reliable one, so the invariant is that one's.
-/

namespace DemandPaging

/-- Where a page is, and whether it may be written there. -/
def PageEntry.placement (e : PageEntry) : Bool × Option Nat × Bool := (e.valid, e.frame, e.readOnly)

/-- Referenced bits say nothing about where pages are. -/
theorem PageTables.Retouched.placement_eq {t t' : PageTables} (h : Retouched t t') (id : PageId) :
    (PageTables.find? t' id).map PageEntry.placement =
      (PageTables.find? t id).map PageEntry.placement := by
  cases he : PageTables.find? t id with
  | some e =>
      obtain ⟨e', he', heq⟩ := h.find? he
      rw [he', heq]
      rfl
  | none =>
      cases he' : PageTables.find? t' id with
      | none => rfl
      | some e' =>
          obtain ⟨e, he'', -⟩ := h.of_find? id e' he'
          rw [he] at he''
          cases he''

namespace Paging

variable {σ : Type}

/-- Nothing that matters is different but for pins: who owns the frames and which ones are free,
where pages are and whether they may be written, which pages are marked as dirty, the bytes of all
frames, and what is recorded about the slots. -/
structure Unharmed (running : Option Pid) (s s' : Paging σ) : Prop where
  owner_eq : ∀ f, s'.frameTable.owner f = s.frameTable.owner f
  free_eq : s'.frameTable.free = s.frameTable.free
  placement_eq : ∀ id, (s'.tables.find? id).map PageEntry.placement =
    (s.tables.find? id).map PageEntry.placement
  marked_iff : ∀ id, Marked s'.processor.cache s'.tables running id ↔
    Marked s.processor.cache s.tables running id
  memory_eq : s'.processor.memory = s.processor.memory
  slots_eq : s'.swap.slots = s.swap.slots
  owners_eq : s'.swap.owners = s.swap.owners
  freeSlots_eq : s'.swap.free = s.swap.free
  numSlots_eq : s'.swap.numSlots = s.swap.numSlots

/-- An eviction has failed and nothing has come of it, but that the evictor has released its pins:
the victim is in its frame, no pin is on it, and the audit finds nothing wrong. -/
structure Undone (running : Option Pid) (released : Multiset Nat) (victim : Nat) (id : PageId)
    (s s' : Paging σ) : Prop extends Unharmed running s s' where
  pins_eq : ∀ f, s'.frameTable.pins f + released.count f = s.frameTable.pins f
  resident : ∃ e, s'.tables.find? id = some e ∧ e.valid = true ∧ e.frame = some victim
  owner_victim : s'.frameTable.owner victim = some id
  pins_victim : s'.frameTable.pins victim = 0
  audit_eq : s'.audit = .ok ()

/-- A page has to be written to the extent before memory has a free frame, and the write fails. -/
structure FailsToSave [Extent σ] (s : Paging σ) (running : Option Pid) (victim : Nat) (id : PageId)
    (cause : IoError) : Prop where
  full : s.frameTable.free = []
  owner_eq : s.frameTable.owner victim = some id
  marked : Marked s.processor.cache s.tables running id
  write_eq : ∃ slot rest bytes extent, s.swap.free = slot :: rest ∧
    s.processor.memory[victim]? = some bytes ∧
    Extent.write s.swap.extent (slot * s.swap.pageSize) bytes = (.error cause, extent)

namespace Unharmed

variable {s s₁ : Paging σ} {running : Option Pid}

theorem refl (running : Option Pid) (s : Paging σ) : Unharmed running s s :=
  ⟨fun _ => rfl, rfl, fun _ => rfl, fun _ => Iff.rfl, rfl, rfl, rfl, rfl, rfl⟩

theorem trans {s₂ : Paging σ} (h : Unharmed running s s₁) (h' : Unharmed running s₁ s₂) :
    Unharmed running s s₂ :=
  ⟨fun f => (h'.owner_eq f).trans (h.owner_eq f), h'.free_eq.trans h.free_eq,
    fun id => (h'.placement_eq id).trans (h.placement_eq id),
    fun id => (h'.marked_iff id).trans (h.marked_iff id), h'.memory_eq.trans h.memory_eq,
    h'.slots_eq.trans h.slots_eq, h'.owners_eq.trans h.owners_eq,
    h'.freeSlots_eq.trans h.freeSlots_eq, h'.numSlots_eq.trans h.numSlots_eq⟩

/-- The policy may move on, and referenced bits may be cleared. -/
theorem retouched (h : Unharmed running s s₁) {tables : PageTables}
    (htouch : PageTables.Retouched s₁.tables tables) (policy : Policy) :
    Unharmed running s { s₁ with policy, tables } := by
  refine ⟨h.owner_eq, h.free_eq, fun id => ?_, fun id => ?_, h.memory_eq, h.slots_eq, h.owners_eq,
    h.freeSlots_eq, h.numSlots_eq⟩
  · exact (htouch.placement_eq id).trans (h.placement_eq id)
  · exact (or_congr_left (htouch.dirty_iff id)).trans (h.marked_iff id)

/-- Pins may come and go. -/
theorem repinned (h : Unharmed running s s₁) {t : FrameTable}
    (howner : ∀ f, t.owner f = s₁.frameTable.owner f) (hfree : t.free = s₁.frameTable.free) :
    Unharmed running s { s₁ with frameTable := t } :=
  ⟨fun f => (howner f).trans (h.owner_eq f), hfree.trans h.free_eq, h.placement_eq, h.marked_iff,
    h.memory_eq, h.slots_eq, h.owners_eq, h.freeSlots_eq, h.numSlots_eq⟩

/-- The same write fails. -/
theorem failsToSave_iff {E : Extent σ} (h : Unharmed running s s₁) (hswap : s₁.swap = s.swap)
    {victim : Nat} {id : PageId} {cause : IoError} :
    s₁.FailsToSave running victim id cause ↔ s.FailsToSave running victim id cause := by
  constructor
  · rintro ⟨hfull, howner, hmarked, hwrite⟩
    refine ⟨h.free_eq ▸ hfull, (h.owner_eq victim) ▸ howner, (h.marked_iff id).1 hmarked, ?_⟩
    rwa [hswap, h.memory_eq] at hwrite
  · rintro ⟨hfull, howner, hmarked, hwrite⟩
    refine ⟨h.free_eq.trans hfull, (h.owner_eq victim).trans howner, (h.marked_iff id).2 hmarked,
      ?_⟩
    rwa [hswap, h.memory_eq]

end Unharmed

/-! ## The choice of a victim -/

section Choice

variable {s : Paging σ} [Extent σ] [Extent.Reliable σ] {live : Population} {pid : Pid}
  {pins : Multiset Nat} {mem : PageId → List UInt8}

namespace Sound

/-- A sync of the cache harms nothing. -/
theorem syncCache_unharmed (h : s.Sound live (some pid) pins mem) {u : UserProcess}
    (hu : live pid = some u) : ∃ processor tables,
    syncCache pid false s = .ok (.ok (), { s with processor, tables }) ∧
      Unharmed (some pid) s { s with processor, tables } := by
  obtain ⟨table, ht, -⟩ := h.inverse.table_of_live hu
  obtain ⟨table', hsync, -, hentries⟩ := MappingCache.sync_eq (p := s.processor) false
    (h.coherent.agrees_table ht h.inverse.valid_eq) h.coherent.distinct
  refine ⟨{ s.processor with
      cache := s.processor.cache.map (MappingCache.leftover false table') },
    s.tables.insert pid table', ?_, fun _ => rfl, rfl, fun id => ?_, fun id => ?_, rfl, rfl, rfl,
    rfl, rfl⟩
  · rw [syncCache, bind_ok (tableOf_ok ht), bind_ok (get_run s), hsync]
    rfl
  · -- folding bits into an entry leaves its page where it is
    by_cases hid : id.pid = pid
    · obtain ⟨q, page⟩ := id
      obtain rfl : q = pid := hid
      rw [find?_folded ht hentries, Option.map_map]
      rfl
    · rw [PageTables.find?_insert, if_neg hid]
  · -- the table knows after the sync what the cache and the table knew before
    rw [marked_iff_folded ht hentries h.coherent]
    exact ⟨synced_leftover ht hentries h.coherent false id, .inl⟩

/-- The choice of a victim harms nothing, and leaves frames and slots alone. -/
theorem chooseVictim_unharmed (h : s.Sound live (some pid) pins mem) {process u : UserProcess}
    (hpid : process.pid = pid) (hu : live pid = some u) {r : Except PagingError Nat}
    {s' : Paging σ} (hrun : chooseVictim process s = .ok (r, s')) :
    ∃ processor policy tables, s' = { s with processor, policy, tables } ∧
      Unharmed (some pid) s s' := by
  subst hpid
  obtain ⟨processor, tables, hsync, hunharmed⟩ := h.syncCache_unharmed hu
  obtain ⟨s₁, hsync', h₁, -⟩ := h.syncCache_run hu false
  obtain ⟨-, rfl⟩ := Prod.mk.inj (Except.ok.inj (hsync.symm.trans hsync'))
  obtain ⟨r', policy, tables', hselect, -, htouch⟩ := s.policy.select_eq h₁.backed
  rw [chooseVictim, bind_ok hsync, bind_ok (get_run _), hselect] at hrun
  obtain ⟨-, rfl⟩ := Prod.mk.inj (Except.ok.inj hrun)
  exact ⟨processor, policy, tables', rfl, hunharmed.retouched htouch policy⟩

end Sound

end Choice

/-! ## The write fails -/

section Failure

variable {s : Paging σ} {E : Extent σ} [Extent σ] [Extent.Reliable σ] {live : Population}
  {running : Option Pid} {pins : Multiset Nat} {mem : PageId → List UInt8} {victim : Nat}
  {id : PageId} {cause : IoError}

namespace Sound

/-- What is left behind is in order: a sound state, but for what the extent is. -/
theorem undone {s₁ : Paging σ} {released : Multiset Nat} (h : s₁.Sound live running pins mem)
    (hunharmed : Unharmed running s s₁) (howner : s₁.frameTable.owner victim = some id)
    (hv : victim ∉ pins)
    (hpins : ∀ f, s₁.frameTable.pins f + released.count f = s.frameTable.pins f) (extent : σ) :
    Undone running released victim id s { s₁ with swap := { s₁.swap with extent } } := by
  obtain ⟨e, he, hf⟩ := (h.inverse.owner_iff victim id).1 howner
  have hvalid := h.inverse.valid_of_frame he hf
  have hunpinned : s₁.frameTable.pins victim = 0 := by
    rw [h.frames.pins_eq, Multiset.count_eq_zero.2 hv]
  exact ⟨⟨hunharmed.owner_eq, hunharmed.free_eq, hunharmed.placement_eq, hunharmed.marked_iff,
    hunharmed.memory_eq, hunharmed.slots_eq, hunharmed.owners_eq, hunharmed.freeSlots_eq,
    hunharmed.numSlots_eq⟩, hpins, ⟨e, he, hvalid, hf⟩, howner, hunpinned, h.audit_eq_ok⟩

/-- The slot whose write fails stays free. -/
theorem save_failed (h : s.Sound live running pins mem) {e : PageEntry}
    (he : s.tables.find? id = some e) (hf : e.frame = some victim) (hdirty : e.dirty = true)
    {slot : Nat} {rest : List Nat} {extent : σ} (hfree : s.swap.free = slot :: rest)
    (hwrite : E.write s.swap.extent (slot * s.swap.pageSize) (mem id) = (.error cause, extent)) :
    @save σ E victim id e s = .ok (.error (.swapIo cause), { s with
      swap := { s.swap with extent } }) := by
  obtain ⟨hbytes, hdata⟩ := h.bytes_of_resident he hf
  have hstore : @SwapArea.store σ E s.swap id (mem id) =
      .ok (.error (.swapIo cause), { s.swap with extent }) := by
    unfold SwapArea.store
    rw [if_neg (not_not_intro hdata), h.lookup_eq_none_of_resident he hf, hfree]
    dsimp only
    rw [hwrite, ← hfree]
  unfold save
  rw [if_pos hdirty, bind_ok (frameBytes_ok hbytes)]
  refine bind_error ?_
  rw [@swapOut_run σ E, hstore]
  rfl

/-- The victim is let go again, and the error goes on. -/
theorem evictOrWait_failed (h : s.Sound live running (victim ::ₘ pins) mem)
    (hkept : Extent.KeepsBytes E) (hsynced : Synced s.processor.cache s.tables running)
    (hv : victim ∉ pins) (hfails : @FailsToSave σ E s running victim id cause)
    (process : UserProcess) :
    ∃ s', @evictOrWait σ E process victim s = .ok (.error (.swapIo cause), s') ∧
      Undone running {victim} victim id s s' ∧
      Extent.Reliable.content s'.swap.extent = Extent.Reliable.content s.swap.extent := by
  obtain ⟨-, howner, hmarked, slot, rest, bytes, extent, hfree, hmem, hwrite⟩ := hfails
  obtain ⟨e, he, hf⟩ := (h.inverse.owner_iff victim id).1 howner
  have hvalid := h.inverse.valid_of_frame he hf
  -- the table knows that the page is dirty
  obtain ⟨e', he', hdirty⟩ := hsynced id hmarked
  obtain rfl := Option.some.inj (he.symm.trans he')
  obtain ⟨-, -, hmem'⟩ := h.frame_of_resident he hf
  obtain rfl := Option.some.inj (hmem.symm.trans hmem')
  obtain ⟨t, hunpin, hframes, hsize, hfreed, howners⟩ := h.frames.unpin_eq
  refine ⟨{ s with frameTable := t, swap := { s.swap with extent } }, ?_, ?_, ?_⟩
  · have hevict : @evict σ E victim s = .ok (.error (.swapIo cause), { s with
        swap := { s.swap with extent } }) := by
      unfold evict
      rw [bind_ok (get_run s), howner]
      show (residentEntry victim id >>= _) s = _
      rw [bind_ok (residentEntry_ok he hvalid hf)]
      exact bind_error (h.save_failed he hf hdirty hfree hwrite)
    unfold evictOrWait
    rw [tryCatch_error (bind_error hevict)]
    show (changeFrames (·.unpin victim) >>= fun _ => throw (.swapIo cause)) _ = _
    rw [bind_ok (changeFrames_ok (t := t) hunpin)]
    rfl
  · -- the victim has an owner, so it does not become free
    have hfrees : t.free = s.frameTable.free := by
      rw [hfreed, if_neg]
      rintro ⟨-, hnone⟩
      rw [howner] at hnone
      cases hnone
    refine (h.repinned hframes hsize howners).undone ((Unharmed.refl running s).repinned howners
      hfrees) ((howners victim).trans howner) hv (fun f => ?_) extent
    show t.pins f + _ = _
    rw [hframes.pins_eq, h.frames.pins_eq, ← Multiset.singleton_add, Multiset.count_add,
      Nat.add_comm]
  · have hslot : slot < s.swap.numSlots :=
      (h.swap.lt_numSlots_iff slot).2 (.inl (hfree ▸ List.mem_cons_self))
    obtain ⟨-, hdata⟩ := h.bytes_of_resident he hf
    exact hkept h.swap.intact (hdata ▸ h.swap.slot_fits hslot) hwrite

/-- A page is saved as on the reliable extent, unless its write fails. -/
theorem save_eq (h : s.Sound live running pins mem) (hcovers : Extent.Covers E ‹Extent σ›)
    (hfull : s.frameTable.free = [])
    (hworks : ∀ cause, ¬ @FailsToSave σ E s running victim id cause) {e : PageEntry}
    (he : s.tables.find? id = some e) (hf : e.frame = some victim) :
    @save σ E victim id e s = save victim id e s := by
  obtain ⟨howner, -, hmem⟩ := h.frame_of_resident he hf
  obtain ⟨hbytes, -⟩ := h.bytes_of_resident he hf
  unfold save
  split
  · rename_i hdirty
    -- the two extents may differ in the write alone, and that one succeeds
    have hstore : @SwapArea.store σ E s.swap id (mem id) = s.swap.store id (mem id) := by
      unfold SwapArea.store
      split
      · rfl
      · split
        · rfl
        · split
          · rfl
          · rename_i slot rest hfree
            rcases hwrite : E.write s.swap.extent (slot * s.swap.pageSize) (mem id) with
              ⟨cause | _, extent⟩
            · have hfails := @FailsToSave.mk σ E s running victim id cause hfull howner
                (.inl ⟨e, he, hdirty⟩) ⟨slot, rest, mem id, extent, hfree, hmem, hwrite⟩
              exact absurd hfails (hworks cause)
            · rw [hcovers.write_eq hwrite]
    rw [bind_ok (frameBytes_ok hbytes), bind_ok (frameBytes_ok hbytes), bind_run, bind_run,
      @swapOut_run σ E, swapOut_run, hstore]
  · rfl

/-- A victim leaves or has to wait as on the reliable extent, unless a write fails. -/
theorem evictOrWait_works {pid : Pid} (h : s.Sound live (some pid) (victim ::ₘ pins) mem)
    (hcovers : Extent.Covers E ‹Extent σ›)
    (hsynced : Synced s.processor.cache s.tables (some pid)) (hv : victim ∉ pins)
    (hfull : s.frameTable.free = []) {process : UserProcess} (hpid : process.pid = pid)
    (hworks : ∀ id cause, ¬ @FailsToSave σ E s (some pid) victim id cause) :
    ∃ found s', @evictOrWait σ E process victim s = .ok (.ok found, s') := by
  have hevict : @evict σ E victim s = evict victim s := by
    unfold evict
    rw [bind_ok (get_run s), bind_ok (get_run s)]
    cases howner : s.frameTable.owner victim with
    | none => rfl
    | some id =>
        obtain ⟨e, he, hf⟩ := (h.inverse.owner_iff victim id).1 howner
        have hvalid := h.inverse.valid_of_frame he hf
        show (residentEntry victim id >>= _) s = (residentEntry victim id >>= _) s
        rw [bind_ok (residentEntry_ok he hvalid hf), bind_ok (residentEntry_ok he hvalid hf),
          bind_run, bind_run, h.save_eq hcovers hfull (hworks id) he hf]
  have hsame : @evictOrWait σ E process victim s = evictOrWait process victim s := by
    unfold evictOrWait
    rw [tryCatch_run, tryCatch_run, bind_run, bind_run, hevict]
  obtain ⟨found, s', hrun, -⟩ := h.evictOrWait_run hsynced hv hfull hpid
  exact ⟨found, s', hsame.trans hrun⟩

end Sound

end Failure

/-! ## Searches -/

section Searches

variable {s : Paging σ} {E : Extent σ} [Extent σ] [Extent.Reliable σ] {live : Population}
  {pid : Pid} {pins : Multiset Nat} {mem : PageId → List UInt8} {victim : Nat}
  {id : PageId} {cause : IoError} {process u : UserProcess}

namespace Sound

/-- The victim that was chosen has one pin, and the search goes on with it. -/
theorem chosen (h : s.Sound live (some pid) pins mem) (hpid : process.pid = pid)
    (hu : live pid = some u) (hfull : s.frameTable.free = []) {s₁ : Paging σ}
    (hchoose : chooseVictim process s = .ok (.ok victim, s₁)) :
    ∃ s₂, s₂.Sound live (some pid) (victim ::ₘ pins) mem ∧
      Synced s₂.processor.cache s₂.tables (some pid) ∧ victim ∉ pins ∧ Unharmed (some pid) s s₂ ∧
      (∀ f, s₂.frameTable.pins f = s.frameTable.pins f + Multiset.count f {victim}) ∧
      s₂.swap = s.swap ∧ @findFrame σ E process s = @evictOrWait σ E process victim s₂ := by
  obtain ⟨processor, policy, tables, rfl, hunharmed⟩ := h.chooseVictim_unharmed hpid hu hchoose
  rcases h.chooseVictim_run hpid hu with
    ⟨victim', id', s₁, hchoose', h₁, hsynced, -, -, howner, hv⟩ | ⟨⟨s₁, hnone⟩, -⟩
  · obtain ⟨hvictim, rfl⟩ := Prod.mk.inj (Except.ok.inj (hchoose.symm.trans hchoose'))
    obtain rfl := Except.ok.inj hvictim
    -- the pin on the victim is all that is added to what the choice has done
    obtain ⟨t, hpin, h₂, hfrees, howners⟩ := h₁.pin_victim howner hv
    refine ⟨_, h₂, hsynced, hv, hunharmed.repinned howners hfrees, fun f => ?_, rfl, ?_⟩
    · show t.pins f = _
      rw [h₂.frames.pins_eq, h.frames.pins_eq, ← Multiset.singleton_add, Multiset.count_add,
        Nat.add_comm]
    · unfold findFrame
      rw [bind_ok (reserveFrame_ok (FrameTable.Sound.reserve_none hfull))]
      show (chooseVictim process >>= _) s = _
      rw [bind_ok hchoose, bind_ok (changeFrames_ok hpin)]
  · cases hchoose.symm.trans hnone

/-- The first try: the victim that was chosen is let go again. -/
theorem findFrame_failed (h : s.Sound live (some pid) pins mem) (hkept : Extent.KeepsBytes E)
    (hpid : process.pid = pid) (hu : live pid = some u) {s₁ : Paging σ}
    (hchoose : chooseVictim process s = .ok (.ok victim, s₁))
    (hfails : @FailsToSave σ E s (some pid) victim id cause) :
    ∃ s', @findFrame σ E process s = .ok (.error (.swapIo cause), s') ∧
      Undone (some pid) 0 victim id s s' ∧
      Extent.Reliable.content s'.swap.extent = Extent.Reliable.content s.swap.extent := by
  have hfull : s.frameTable.free = [] := @FailsToSave.full σ E _ _ _ _ _ hfails
  obtain ⟨s₂, h₂, hsynced, hv, hunharmed, hpins, hswap, hfind⟩ := h.chosen hpid hu hfull hchoose
  obtain ⟨s', hrun, hundone, hcontent⟩ := h₂.evictOrWait_failed hkept hsynced hv
    ((hunharmed.failsToSave_iff hswap).2 hfails) process
  refine ⟨s', hfind.trans hrun, ⟨hunharmed.trans hundone.toUnharmed, fun f => ?_, hundone.resident,
    hundone.owner_victim, hundone.pins_victim, hundone.audit_eq⟩, hswap ▸ hcontent⟩
  have := hundone.pins_eq f
  rw [hpins] at this
  rw [Multiset.count_zero]
  omega

/-- The retry: the victim that was kept is let go. -/
theorem resumeSearch_failed (h : s.Sound live none (victim ::ₘ pins) mem)
    (hkept : Extent.KeepsBytes E) (hv : victim ∉ pins) (process : UserProcess)
    (hfails : @FailsToSave σ E s (some pid) victim id cause) :
    ∃ s', @resumeSearch σ E process victim s = .ok (.error (.swapIo cause), s') ∧
      Undone (some pid) {victim} victim id s s' ∧
      Extent.Reliable.content s'.swap.extent = Extent.Reliable.content s.swap.extent := by
  have hfull : s.frameTable.free = [] := @FailsToSave.full σ E _ _ _ _ _ hfails
  obtain ⟨s', hrun, hundone, hcontent⟩ := (h.switch_of_none (some pid)).evictOrWait_failed hkept
    (h.synced_of_none (some pid)) hv hfails process
  refine ⟨s', ?_, hundone, hcontent⟩
  unfold resumeSearch
  rw [bind_ok (reserveFrame_ok (FrameTable.Sound.reserve_none hfull))]
  exact hrun

/-! ### Nothing else fails with the extent -/

/-- The first try, unless the write of a victim fails. -/
theorem findFrame_works (h : s.Sound live (some pid) pins mem)
    (hcovers : Extent.Covers E ‹Extent σ›) (hpid : process.pid = pid) (hu : live pid = some u)
    (hworks : ∀ victim s₁ id cause, chooseVictim process s = .ok (.ok victim, s₁) →
      ¬ @FailsToSave σ E s (some pid) victim id cause) (cause : IoError) (s' : Paging σ) :
    @findFrame σ E process s ≠ .ok (.error (.swapIo cause), s') := by
  cases hfree : s.frameTable.free with
  | cons f rest =>
      obtain ⟨t, hreserve, -⟩ := h.frames.reserve_some hfree
      unfold findFrame
      rw [bind_ok (reserveFrame_ok hreserve)]
      exact nofun
  | nil =>
      rcases h.chooseVictim_run hpid hu with
        ⟨victim, id, s₁, hchoose, -⟩ | ⟨⟨s₁, hchoose⟩, -⟩
      · obtain ⟨s₂, h₂, hsynced, hv, hunharmed, -, hswap, hfind⟩ := h.chosen hpid hu hfree hchoose
        obtain ⟨found, s₃, hrun⟩ := h₂.evictOrWait_works hcovers hsynced hv
          (hunharmed.free_eq.trans hfree) hpid fun id cause hfails =>
            hworks victim s₁ id cause hchoose ((hunharmed.failsToSave_iff hswap).1 hfails)
        rw [hfind, hrun]
        exact nofun
      · unfold findFrame
        rw [bind_ok (reserveFrame_ok (FrameTable.Sound.reserve_none hfree))]
        show (chooseVictim process >>= _) s ≠ _
        rw [bind_error hchoose]
        exact nofun

/-- The retry, unless the write of the victim fails. -/
theorem resumeSearch_works (h : s.Sound live none (victim ::ₘ pins) mem)
    (hcovers : Extent.Covers E ‹Extent σ›) (hv : victim ∉ pins) (hpid : process.pid = pid)
    (hworks : ∀ id cause, ¬ @FailsToSave σ E s (some pid) victim id cause) (cause : IoError)
    (s' : Paging σ) : @resumeSearch σ E process victim s ≠ .ok (.error (.swapIo cause), s') := by
  cases hfree : s.frameTable.free with
  | cons f rest =>
      obtain ⟨t, hreserve, hframes, -⟩ := h.frames.reserve_some hfree
      rw [Multiset.cons_swap] at hframes
      obtain ⟨t', hunpin, -⟩ := hframes.unpin_eq
      unfold resumeSearch
      rw [bind_ok (reserveFrame_ok hreserve)]
      show (changeFrames (·.unpin victim) >>= _) _ ≠ _
      rw [bind_ok (changeFrames_ok (t := t') hunpin)]
      exact nofun
  | nil =>
      obtain ⟨found, s₃, hrun⟩ := (h.switch_of_none (some pid)).evictOrWait_works hcovers
        (h.synced_of_none (some pid)) hv hfree hpid hworks
      unfold resumeSearch
      rw [bind_ok (reserveFrame_ok (FrameTable.Sound.reserve_none hfree))]
      show @evictOrWait σ E process victim s ≠ _
      rw [hrun]
      exact nofun

end Sound

end Searches

end Paging

end DemandPaging
