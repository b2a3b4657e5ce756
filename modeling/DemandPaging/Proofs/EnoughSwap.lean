import DemandPaging.Proofs.SavedPages
import Mathlib.Data.List.FinRange

/-!
# Enough swap

While nobody waits for a swap slot every frame that is not free holds a page, and every slot that is
not free holds another one. So when neither a frame nor a slot is free there are as many pages as
there are frames and slots together. A machine whose live processes always have fewer pages never
gets there: whoever pushes a page out finds a slot for it, and nobody begins to wait.
-/

namespace DemandPaging

/-- The pages of some processes. -/
def pagesOf (processes : List UserProcess) : List PageId :=
  processes.flatMap fun u => (List.range u.numPages).map (PageId.mk u.pid)

theorem length_pagesOf (processes : List UserProcess) :
    (pagesOf processes).length = (processes.map UserProcess.numPages).sum := by
  simp [pagesOf, List.length_flatMap]

theorem mem_pagesOf {processes : List UserProcess} {u : UserProcess} (hu : u ∈ processes)
    {page : Nat} (hlt : page < u.numPages) : ⟨u.pid, page⟩ ∈ pagesOf processes :=
  List.mem_flatMap.2 ⟨u, hu, List.mem_map_of_mem (List.mem_range.2 hlt)⟩

/-- As many different pages as there are places, when each place has a page and no two places have
the same. -/
theorem exists_different_pages {n : Nat} {Holds : Nat → PageId → Prop}
    (hall : ∀ i < n, ∃ id, Holds i id) (hinj : ∀ i j id, Holds i id → Holds j id → i = j) :
    ∃ ids : List PageId, ids.Nodup ∧ ids.length = n ∧ ∀ id ∈ ids, ∃ i, Holds i id := by
  choose page hpage using hall
  refine ⟨List.ofFn fun i : Fin n => page i i.2, ?_, List.length_ofFn, fun id hid => ?_⟩
  · refine List.nodup_ofFn.2 fun i j heq => Fin.ext (hinj i j _ (hpage i i.2) ?_)
    have heq : page i i.2 = page j j.2 := heq
    exact heq ▸ hpage j j.2
  · obtain ⟨i, rfl⟩ := List.mem_ofFn.1 hid
    exact ⟨i, hpage i i.2⟩

namespace Paging.Sound

variable {σ : Type} [Extent σ] [Extent.Reliable σ] {s : Paging σ} {live : Population}
  {running : Option Pid} {pins : Multiset Nat} {mem : PageId → List UInt8}

/-- When no frame is free each one has an owner, unless it is pinned without one. -/
theorem owned_of_full (h : s.Sound live running pins mem) (hfree : s.frameTable.free = [])
    (howned : ∀ f ∈ pins, (s.frameTable.owner f).isSome = true) {f : Nat}
    (hf : f < s.frameTable.size) : ∃ id, s.frameTable.owner f = some id := by
  by_cases hpinned : f ∈ pins
  · exact Option.isSome_iff_exists.1 (howned f hpinned)
  · rcases h.frames.free_or_owned hf hpinned with ⟨hcount, -⟩ | ⟨-, howner⟩
    · rw [hfree] at hcount
      cases hcount
    · exact howner

/-- The pages in all frames, when each one has an owner. -/
theorem pages_in_frames (h : s.Sound live running pins mem)
    (howned : ∀ f < s.frameTable.size, ∃ id, s.frameTable.owner f = some id) :
    ∃ ids : List PageId, ids.Nodup ∧ ids.length = s.frameTable.size ∧
      ∀ id ∈ ids, ∃ e, s.tables.find? id = some e ∧ e.frame.isSome = true := by
  have hentry : ∀ {f id}, s.frameTable.owner f = some id →
      ∃ e, s.tables.find? id = some e ∧ e.frame = some f := (h.inverse.owner_iff _ _).1
  obtain ⟨ids, hnodup, hlength, hids⟩ := exists_different_pages howned fun f g id hf hg => by
    obtain ⟨e, he, hef⟩ := hentry hf
    obtain ⟨e', he', heg⟩ := hentry hg
    obtain rfl := Option.some.inj (he.symm.trans he')
    exact Option.some.inj (hef.symm.trans heg)
  refine ⟨ids, hnodup, hlength, fun id hid => ?_⟩
  obtain ⟨f, hf⟩ := hids id hid
  obtain ⟨e, he, hef⟩ := hentry hf
  exact ⟨e, he, by rw [hef]; rfl⟩

/-- The pages in all slots, when none is free. -/
theorem pages_in_slots (h : s.Sound live running pins mem) (hfree : s.swap.free = []) :
    ∃ ids : List PageId, ids.Nodup ∧ ids.length = s.swap.numSlots ∧
      ∀ id ∈ ids, ∃ e, s.tables.find? id = some e ∧ e.frame = none := by
  have hused : ∀ slot < s.swap.numSlots, ∃ id, s.swap.lookup id = some slot := by
    intro slot hlt
    rcases (h.swap.lt_numSlots_iff slot).1 hlt with hmem | hid
    · rw [hfree] at hmem
      cases hmem
    · exact hid
  obtain ⟨ids, hnodup, hlength, hids⟩ := exists_different_pages hused fun i j id hi hj =>
    Option.some.inj (hi.symm.trans hj)
  refine ⟨ids, hnodup, hlength, fun id hid => ?_⟩
  obtain ⟨slot, hslot⟩ := hids id hid
  exact (h.slot_of_lookup hslot).2.2

/-- When no frame and no slot is free, the live processes have at least as many pages as there are
frames and slots. -/
theorem full_le (h : s.Sound live running pins mem) (processes : List UserProcess)
    (hlive : ∀ pid u, live pid = some u → u ∈ processes ∧ u.pid = pid)
    (howned : ∀ f ∈ pins, (s.frameTable.owner f).isSome = true)
    (hframes : s.frameTable.free = []) (hslots : s.swap.free = []) :
    s.frameTable.size + s.swap.numSlots ≤ (processes.map UserProcess.numPages).sum := by
  obtain ⟨inFrames, hnodup, hlength, hresident⟩ :=
    h.pages_in_frames fun f hf => h.owned_of_full hframes howned hf
  obtain ⟨inSlots, hnodup', hlength', hsaved⟩ := h.pages_in_slots hslots
  have hentry : ∀ id e, s.tables.find? id = some e → id ∈ pagesOf processes := by
    intro id e he
    obtain ⟨u, hu, hlt⟩ := h.inverse.live_of_find? he
    obtain ⟨hmem, hpid⟩ := hlive _ u hu
    have := mem_pagesOf hmem hlt
    rwa [hpid] at this
  have hall : (inFrames ++ inSlots).Nodup := by
    refine List.nodup_append'.2 ⟨hnodup, hnodup', fun id hid hid' => ?_⟩
    -- a page in a slot is in no frame
    obtain ⟨e, he, hframe⟩ := hresident id hid
    obtain ⟨e', he', hnone⟩ := hsaved id hid'
    obtain rfl := Option.some.inj (he.symm.trans he')
    rw [hnone] at hframe
    cases hframe
  have hsubset : inFrames ++ inSlots ⊆ pagesOf processes := by
    intro id hid
    rcases List.mem_append.1 hid with hid | hid
    · obtain ⟨e, he, -⟩ := hresident id hid
      exact hentry id e he
    · obtain ⟨e, he, -⟩ := hsaved id hid
      exact hentry id e he
  calc s.frameTable.size + s.swap.numSlots
      = (inFrames ++ inSlots).length := by rw [List.length_append, hlength, hlength']
    _ ≤ (pagesOf processes).length := (hall.subperm hsubset).length_le
    _ = (processes.map UserProcess.numPages).sum := length_pagesOf processes

end Paging.Sound

namespace Kernel

variable {σ : Type}

/-- How many pages the live processes have. -/
def livePages (k : Kernel σ) : Nat :=
  ((k.processes.filter fun p => !p.exited).map UserProcess.numPages).sum

/-- The pages of the live processes fit into the swap slots and all frames but one. -/
def Roomy (k : Kernel σ) : Prop :=
  k.livePages ≤ k.paging.swap.numSlots + k.paging.frameTable.size - 1

instance (k : Kernel σ) : Decidable k.Roomy := inferInstanceAs (Decidable (_ ≤ _))

/-- Nobody waits for a swap slot. -/
def Unhindered (k : Kernel σ) : Prop := ∀ n f, ¬ k.WaitsWith n f

variable [Extent σ] [Extent.Reliable σ] {k k' k₀ : Kernel σ} {m : FlatMachine}

theorem Sound.numFrames_pos (h : k.Sound m) : 0 < k.paging.frameTable.size := by
  obtain ⟨running, -, hpaging⟩ := h.paging
  exact hpaging.sized.numFrames_pos.trans_eq hpaging.sized.numFrames_eq

omit [Extent σ] [Extent.Reliable σ] in
theorem Unhindered.othersVictims_eq (h : k.Unhindered) (n : Nat) : k.othersVictims n = 0 :=
  Multiset.eq_zero_of_forall_notMem fun f hf =>
    have ⟨i, _, hwaits⟩ := mem_othersVictims_iff.1 hf
    h i f hwaits

/-- While nobody waits only frames with a page are pinned. -/
theorem Sound.owned_of_pinned (h : k.Sound m) (hnone : k.Unhindered) {f : Nat}
    (hf : f ∈ k.pins) : (k.paging.frameTable.owner f).isSome = true := by
  obtain ⟨s, hs, hf⟩ := mem_sum_map_iff.1 hf
  obtain ⟨n, hs⟩ := List.mem_iff_getElem?.1 hs
  rcases Multiset.mem_add.1 hf with hvictim | hcopied
  · exact absurd ⟨s, hs, Phase.mem_victims_iff.1 hvictim⟩ (hnone n f)
  · obtain ⟨place, phase⟩ := s
    obtain ⟨p, hp, -⟩ := h.fits n _ hs
    cases phase with
    | busy call =>
        have hcalling := h.calling hs hp
        obtain ⟨request, stage, moved⟩ := call
        cases stage with
        | moving frame =>
            obtain rfl := Multiset.mem_singleton.1 hcopied
            exact hcalling.moving_owned
        | unpinning frame =>
            obtain rfl := Multiset.mem_singleton.1 hcopied
            exact hcalling.holds rfl
        | _ => exact absurd hcopied (Multiset.notMem_zero f)
    | _ => exact absurd hcopied (Multiset.notMem_zero f)

/-- When there is enough swap, and nobody waits, a slot is free whenever no frame is. -/
theorem Sound.slot_free (h : k.Sound m) (hnone : k.Unhindered) (hroomy : k.Roomy)
    (hframes : k.paging.frameTable.free = []) : k.paging.swap.free ≠ [] := by
  intro hslots
  obtain ⟨running, -, hpaging⟩ := h.paging
  have hfull := hpaging.full_le (k.processes.filter fun p => !p.exited)
    (fun pid u hu => ?_) (fun f hf => h.owned_of_pinned hnone (add_zero k.pins ▸ hf)) hframes hslots
  · have hpos := h.numFrames_pos
    have hle : k.livePages ≤ _ := hroomy
    have hfull : _ ≤ k.livePages := hfull
    omega
  · obtain ⟨hpid, halive, i, hi⟩ := h.live_eq_some_iff.1 hu
    exact ⟨List.mem_filter.2 ⟨List.mem_of_getElem? hi, by rw [halive]; rfl⟩, hpid⟩

/-- Nobody begins to wait while there is enough swap. -/
theorem Unhindered.step (h : k.Unhindered) (hsound : k.Sound m) (hroomy : k.Roomy)
    {gone back : Prop} (hstep : Ledger.Step gone back k.ledger k'.ledger) : k'.Unhindered := by
  rintro n f ⟨s, hs, hvictim⟩
  have hnone : ∀ y ∈ k.ledger.standings, y.victim? = none := by
    intro y hy
    obtain ⟨t, ht, rfl⟩ := mem_standings_iff.1 hy
    obtain ⟨i, ht⟩ := List.mem_iff_getElem?.1 ht
    rw [SlotPart.victim?_standing, Phase.victim?_slotPart, Option.eq_none_iff_forall_ne_some]
    exact fun g hg => h i g ⟨t, ht, hg⟩
  have hy : (s.phase.slotPart.standing k'.woken).victim? = some f := by
    rw [SlotPart.victim?_standing, Phase.victim?_slotPart]
    exact hvictim
  obtain ⟨hslots, hframes⟩ := hstep.starved hnone
    (mem_standings_iff.2 ⟨s, List.mem_of_getElem? hs, rfl⟩) hy
  exact hsound.slot_free h hroomy (List.length_eq_zero_iff.1 hframes)
    (List.length_eq_zero_iff.1 hslots)

variable {c : Config} {extent : σ} {trace : List (Event × Option (Response σ))}

/-- Without processes there is room for all their pages. -/
theorem boot_roomy (hintact : Extent.Reliable.Intact extent)
    (hboot : boot c extent = .ok (.ok k₀)) : k₀.Roomy := by
  have hprocesses : [] = k₀.processes := (boot_sound hintact hboot).processes_eq
  have hnone : k₀.livePages = 0 := by rw [livePages, ← hprocesses]; rfl
  rw [Roomy, hnone]
  exact Nat.zero_le _

theorem RunWith.unhindered (hintact : Extent.Reliable.Intact extent)
    (hboot : boot c extent = .ok (.ok k₀)) (hrun : RunWith (fun _ _ k' => k'.Roomy) k₀ trace k) :
    ∃ m, k.Sound m ∧ k.Unhindered ∧ k.Roomy := by
  obtain ⟨⟨m, hsound⟩, -, hnone, hroomy⟩ := hrun.invariant hintact hboot
    (I := fun k => k.Unhindered ∧ k.Roomy)
    (fun hempty => ⟨fun _ _ => not_waitsWith_of_nil hempty, boot_roomy hintact hboot⟩)
    (fun hsound _ _ _ haccounted hroomy' h => ⟨h.1.step hsound h.2 haccounted.step, hroomy'⟩)
  exact ⟨m, hsound, hnone, hroomy⟩

/-- As long as the pages of the live processes fit into the swap slots and all frames but one,
nobody waits for a slot. A page is only pushed out when no frame is free, and then there is a slot
for it; every search for a frame ends with a frame; and no error stops the machine. -/
theorem RunWith.nobody_waits (hintact : Extent.Reliable.Intact extent)
    (hboot : boot c extent = .ok (.ok k₀)) (hrun : RunWith (fun _ _ k' => k'.Roomy) k₀ trace k) :
    (∀ n f, ¬ k.WaitsWith n f) ∧
      (k.paging.frameTable.free = [] → ∀ id data swap,
        k.paging.swap.store id data ≠ .ok (.error .swapExhausted, swap)) ∧
      (∀ n p page search, k.Searches n p page search → ∀ counters, ∃ f passOn s',
        search { k.paging with counters } = .ok (.ok (.found f passOn), s')) ∧
      ∀ e cause, e.isOrdinary = true → k.perform e ≠ some (.error (.fatal cause)) := by
  obtain ⟨m, hsound, hnone, hroomy⟩ := hrun.unhindered hintact hboot
  have hpos := hsound.numFrames_pos
  -- there is always a victim, for nobody keeps one
  have hkept : ∀ n, ¬ ∀ f < k.paging.frameTable.size, f ∈ k.othersVictims n + 0 := by
    intro n hall
    have := hall 0 hpos
    rw [hnone.othersVictims_eq, add_zero] at this
    exact absurd this (Multiset.notMem_zero 0)
  refine ⟨hnone, fun hframes id data swap hstore => ?_, fun n p page search hsearch counters => ?_,
    fun e cause he hhalt => ?_⟩
  · exact SwapArea.Sound.store_ne_exhausted (hsound.slot_free hnone hroomy hframes) swap hstore
  · rcases hsound.search_run hsearch counters with ⟨found, s', hrun, -, hstarved⟩ | ⟨-, hall⟩
    · cases found with
      | found f passOn => exact ⟨f, passOn, s', hrun⟩
      | needsSlot victim =>
          obtain ⟨hframes, hslots⟩ := hstarved victim rfl
          exact absurd hslots (hsound.slot_free hnone hroomy hframes)
    · exact absurd hall (hkept n)
  · obtain ⟨-, n, -, hall⟩ :=
      hsound.fatal_run (hrun.run.slotWaits hintact hboot) he hhalt
    exact hkept n hall

/-- One frame and three slots, for the two pages of the stack and the page of the image. -/
def roomyConfig : Config := { smallConfig with swapSlots := 3 }

theorem nobody_waits_small : ∃ (k₀ k : Kernel MemoryExtent)
    (trace : List (Event × Option (Response MemoryExtent))),
    boot roomyConfig (⟨.zeros 3⟩ : MemoryExtent) = .ok (.ok k₀) ∧
      k₀.performAll smallEvents = some (trace, k) ∧
      RunWith (fun _ _ k' => k'.Roomy) k₀ trace k ∧ k.livePages = 3 ∧ ∀ n f, ¬ k.WaitsWith n f := by
  have hpass : passesAlong roomyConfig smallEvents (fun _ _ k' => decide k'.Roomy) = true := by
    decide +kernel
  have hlast : holdsAfter roomyConfig smallEvents (fun k => decide (k.livePages = 3)) = true := by
    decide +kernel
  obtain ⟨k₀, k, trace, hboot, hall, hrun, hpages⟩ :=
    runWith_of_passesAlong (by decide) (fun _ _ _ => of_decide_eq_true) hpass hlast
  exact ⟨k₀, k, trace, hboot, hall, hrun, of_decide_eq_true hpages,
    (hrun.nobody_waits (MemoryExtent.intact_zeros (by decide)) hboot).1⟩

end Kernel

end DemandPaging
