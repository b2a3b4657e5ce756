import DemandPaging.Proofs.Kernel.EventKinds
import DemandPaging.Proofs.Kernel.Standstill

/-!
# A process that ends gives everything back

A process ends in a single step of one of its threads. After the step it has no page table, no frame
and no swap slot, and it never gets any again, although threads of it may sleep in the middle of a
fault and go on later: whoever has a page has a page table, and only a live process has one
(`Sound.hasNothing`). Its frames are free, but for those that are the victims of threads that wait;
those stay reserved until their threads go on. Other processes keep everything they have. The thread
then wakes all who wait for a swap slot before it does anything else (`Sound.mourns_or`).
-/

namespace DemandPaging

variable {σ : Type}

/-- A frame is kept for whoever has pinned it. -/
structure FrameTable.Reserved (t : FrameTable) (f : Nat) : Prop where
  allocated : t.isAllocated f = true
  owner_eq : t.owner f = none
  pinned : 0 < t.pins f
  notMem_free : f ∉ t.free

/-- A pinned frame without an owner is kept for whoever has pinned it. -/
theorem FrameTable.Sound.reserved {t : FrameTable} {pins : Multiset Nat} {f : Nat}
    (h : t.Sound pins) (hf : f ∈ pins) (howner : t.owner f = none) : t.Reserved f := by
  refine ⟨h.allocated_of_mem hf, howner, ?_, fun hfree => (h.blank_of_mem_free hfree).2 hf⟩
  rw [h.pins_eq]
  exact Multiset.count_pos.2 hf

/-- A frame that nobody owns and nobody has pinned is on the free list, once. -/
theorem FrameTable.Sound.count_free {t : FrameTable} {pins : Multiset Nat} {f : Nat}
    (h : t.Sound pins) (hlt : f < t.size) (howner : t.owner f = none) (hpins : f ∉ pins) :
    t.free.count f = 1 := by
  refine List.count_eq_one_of_mem h.free_nodup ((h.mem_free f).2 ⟨hlt, ?_⟩)
  rw [← Bool.not_eq_true]
  intro hallocated
  have hpinned := h.pins_of_reserved f hallocated howner
  rw [h.pins_eq] at hpinned
  exact hpins (Multiset.count_pos.1 hpinned)

namespace Kernel

variable {k k' : Kernel σ} {n i f : Nat} {p : UserProcess} {pid : Pid}

/-! ## Nothing is left -/

/-- No page table, no frame and no swap slot belongs to a process of this number. -/
structure HasNothing (k : Kernel σ) (pid : Pid) : Prop where
  table : k.paging.tables[pid]? = none
  frames : ∀ f page, k.paging.frameTable.owner f ≠ some ⟨pid, page⟩
  slots : ∀ slot, k.paging.swap.owner slot ≠ some pid
  pages : ∀ page, k.paging.swap.lookup ⟨pid, page⟩ = none

section Kinds

variable [Extent σ] [Extent.Reliable σ] {m : FlatMachine} {callers : Multiset Nat}

/-- A number that no live process has is one to which nothing belongs. -/
theorem Sound.hasNothing (h : k.Sound m callers) (hlive : k.live pid = none) :
    k.HasNothing pid := by
  obtain ⟨running, -, hpaging⟩ := h.paging
  have hnone : ∀ page e, k.paging.tables.find? ⟨pid, page⟩ ≠ some e := by
    intro page e he
    obtain ⟨u, hu, -⟩ := hpaging.inverse.live_of_find? he
    rw [hlive] at hu
    cases hu
  have hpages : ∀ page, k.paging.swap.lookup ⟨pid, page⟩ = none := by
    intro page
    rw [← SwapArea.saved?_eq_none_iff, Option.eq_none_iff_forall_ne_some]
    intro bytes hsaved
    obtain ⟨-, e, he, -⟩ := hpaging.keeps.saved _ bytes hsaved
    exact hnone page e he
  refine ⟨hpaging.inverse.table_eq_none hlive, fun f page howner => ?_, fun slot howner => ?_,
    hpages⟩
  · obtain ⟨e, he, -⟩ := (hpaging.inverse.owner_iff f _).1 howner
    exact hnone page e he
  · obtain ⟨page, hpage⟩ := (hpaging.swap.owner_iff slot pid).1 howner
    rw [hpages page] at hpage
    cases hpage

end Kinds

/-- A thread that waits has its victim pinned. -/
theorem WaitsWith.mem_pins (h : k.WaitsWith n f) : f ∈ k.pins := by
  obtain ⟨s, hs, hf⟩ := h
  exact mem_sum_map_iff.2 ⟨s, List.mem_of_getElem? hs, Phase.mem_pins_of_victim hf⟩

/-! ## Everyone is woken -/

/-- A thread has ended its process, and is about to wake everyone who waits for a swap slot. -/
def Mourns (k : Kernel σ) (n : Nat) : Prop :=
  ∃ s notice, k.session n = some s ∧ s.phase.slotPart = .waking none notice ∧
    notice.isAhead = true

theorem Mourns.mem_standings (h : k.Mourns n) : .mourning ∈ k.ledger.standings := by
  obtain ⟨s, notice, hs, hpart, hahead⟩ := h
  refine mem_standings_iff.2 ⟨s, List.mem_of_getElem? hs, ?_⟩
  rw [hpart]
  exact if_pos hahead

theorem exists_mourns (h : .mourning ∈ k.ledger.standings) : ∃ n, k.Mourns n := by
  obtain ⟨s, hs, hmourning⟩ := mem_standings_iff.1 h
  obtain ⟨n, hs⟩ := List.mem_iff_getElem?.1 hs
  cases hpart : s.phase.slotPart with
  | waking left notice =>
      rw [hpart] at hmourning
      cases left with
      | some left => cases hmourning
      | none =>
          refine ⟨n, s, notice, hs, hpart, ?_⟩
          by_contra hahead
          rw [SlotPart.standing, if_neg hahead] at hmourning
          cases hmourning
  | waiting victim phase =>
      rw [hpart, SlotPart.standing] at hmourning
      split at hmourning <;> cases hmourning
  | apart | resuming _ =>
      rw [hpart] at hmourning
      cases hmourning

theorem WaitsUnwoken.waited (h : k.WaitsUnwoken n) : k.ledger.Waited := by
  obtain ⟨s, victim, waiting, hs, hpart, hroused⟩ := h
  refine ⟨victim, mem_standings_iff.2 ⟨s, List.mem_of_getElem? hs, ?_⟩⟩
  rw [hpart]
  exact if_neg (Bool.eq_false_iff.1 hroused)

variable [Extent σ] [Extent.Reliable σ] {m : FlatMachine} {e : Event} {r : Option (Response σ)}

/-- A thread that is about to wake everyone still is after a step, or nobody waits unwoken. -/
theorem Sound.mourns_or (h : k.Sound m) (hwaits : k.SlotWaits) (he : e.isOrdinary = true)
    (hrun : k.perform e = some (.ok (r, k'))) (hmourns : k.Mourns n) :
    k'.Mourns n ∨ ∀ i, ¬ k'.WaitsUnwoken i := by
  have hkind := h.perform_event he hrun
  have hmem := hmourns.mem_standings
  obtain ⟨s, notice, hs, hpart, hahead⟩ := hmourns
  by_cases hn : e = .advance n
  · subst hn
    rcases (h.perform_accounted hwaits he hrun).step.mourning hmem with hmem' | hnone
    · -- only one thread has the processor, so no other one mourns
      obtain ⟨i, t, notice', ht, hpart', hahead'⟩ := exists_mourns hmem'
      by_cases hi : i = n
      · subst hi
        exact .inl ⟨t, notice', ht, hpart', hahead'⟩
      · rw [hkind.session_eq hi] at ht
        exact absurd (Phase.cpuUse_of_waking hpart')
          (h.others_away hs (Phase.cpuUse_of_waking hpart) hi ht)
    · exact .inr fun i hi => hnone hi.waited
  · refine .inl ⟨s, notice, hkind.session_kept hs ?_ hn, hpart, hahead⟩
    intro hready
    rw [hready] at hpart
    cases hpart

/-! ## What is given back, and what is left alone -/

/-- What the end of the process with some place and number does, and what it leaves alone. -/
structure Returns (k k' : Kernel σ) (i : Nat) (pid : Pid) : Prop where
  nothing : k'.HasNothing pid
  cache : ∀ c ∈ k'.paging.processor.cache, c.valid = false
  -- frames of the process
  freed : ∀ f page, k.paging.frameTable.owner f = some ⟨pid, page⟩ →
    k.paging.frameTable.pins f = 0 → k'.paging.frameTable.free.count f = 1
  kept : ∀ f page, k.paging.frameTable.owner f = some ⟨pid, page⟩ →
    0 < k.paging.frameTable.pins f → k'.paging.frameTable.Reserved f ∧ ∃ n, k.WaitsWith n f
  -- threads that wait, be they of the process or not
  waits : ∀ n f, k.WaitsWith n f → k'.WaitsWith n f
  -- other processes
  processes : ∀ j, j ≠ i → k'.process j = k.process j
  tables : ∀ q, q ≠ pid → k'.paging.tables[q]? = k.paging.tables[q]?
  frames : ∀ f id, id.pid ≠ pid →
    (k'.paging.frameTable.owner f = some id ↔ k.paging.frameTable.owner f = some id)
  memory : k'.paging.processor.memory = k.paging.processor.memory
  slots : ∀ id, id.pid ≠ pid → k'.paging.swap.lookup id = k.paging.swap.lookup id
  bytes : ∀ slot, k'.paging.swap.bytesAt slot = k.paging.swap.bytesAt slot

namespace Ends

variable {m' : FlatMachine} {place page : Nat} {call : Call} {cause : Option PagingError}
  {paging : Paging σ} (h : k.Ends n place p call paging) (hsound : k.Sound m)
  (hsound' : (k.afterEnding n place call cause paging).Sound m')
include h

include hsound in
/-- Before the end of a process only threads that wait have pinned anything. -/
theorem pins_eq (f : Nat) : k.paging.frameTable.pins f = (k.othersVictims n).count f := by
  have hpaging := (hsound.holder h.session h.process h.holding).1
  rw [hpaging.frames.pins_eq, h.bare, zero_add, add_zero]

include hsound' in
/-- They keep these pins. -/
theorem frames_sound : paging.frameTable.Sound (k.othersVictims n) := by
  have hpaging := (hsound'.holder h.session_eq h.process_eq rfl).1
  rw [othersVictims_afterEnding, add_zero] at hpaging
  exact (zero_add (k.othersVictims n)) ▸ hpaging.frames

include hsound hsound' in
/-- A frame of the process that nobody has pinned is free. -/
theorem freed (howner : k.paging.frameTable.owner f = some ⟨p.pid, page⟩)
    (hpins : k.paging.frameTable.pins f = 0) : paging.frameTable.free.count f = 1 := by
  rw [h.pins_eq hsound] at hpins
  refine (h.frames_sound hsound').count_free ?_ (h.reclaimed.owner_eq_none howner)
    (Multiset.count_eq_zero.1 hpins)
  -- there are as many frames as before
  obtain ⟨_, -, hpaging⟩ := hsound.paging
  obtain ⟨_, -, hpaging'⟩ := hsound'.paging
  have hsize : paging.processor.numFrames = paging.frameTable.size := hpaging'.sized.numFrames_eq
  rw [← hsize, Processor.numFrames, h.reclaimed.memory_eq]
  exact (hpaging.frames.lt_size_of_owner howner).trans_eq hpaging.sized.numFrames_eq.symm

include hsound hsound' in
/-- A frame of the process that is pinned is the victim of a thread that waits, and is kept for
it. -/
theorem kept (howner : k.paging.frameTable.owner f = some ⟨p.pid, page⟩)
    (hpins : 0 < k.paging.frameTable.pins f) :
    paging.frameTable.Reserved f ∧ ∃ j, k.WaitsWith j f := by
  rw [h.pins_eq hsound] at hpins
  have hmem := Multiset.count_pos.1 hpins
  obtain ⟨j, -, hwaits⟩ := mem_othersVictims_iff.1 hmem
  exact ⟨(h.frames_sound hsound').reserved hmem (h.reclaimed.owner_eq_none howner), j, hwaits⟩

/-- Threads that wait go on to wait. -/
theorem waits {j : Nat} (hwaits : k.WaitsWith j f) :
    (k.afterEnding n place call cause paging).WaitsWith j f := by
  obtain ⟨t, ht, hvictim⟩ := hwaits
  refine ⟨t, (session_afterEnding ?_).trans ht, hvictim⟩
  -- the thread that ends the process has no victim
  rintro rfl
  obtain rfl := Option.some.inj (h.session.symm.trans ht)
  have hmem : f ∈ (Phase.busy call).pins := Phase.mem_pins_of_victim hvictim
  rw [h.bare] at hmem
  exact Multiset.notMem_zero f hmem

include hsound hsound' in
/-- The step that ends a process gives back all that it had, and leaves the others alone. -/
theorem returns : k.Returns (k.afterEnding n place call cause paging) place p.pid where
  nothing := hsound'.hasNothing ((hsound'.live_eq h.process_eq).trans (if_pos rfl))
  cache := h.reclaimed.flushed
  freed _ _ := h.freed hsound hsound'
  kept _ _ := h.kept hsound hsound'
  waits _ _ := h.waits
  processes _ := process_afterEnding
  tables q hq := by
    show paging.tables[q]? = _
    rw [h.reclaimed.tables_eq, Std.TreeMap.getElem?_erase, if_neg]
    rw [Std.LawfulEqOrd.compare_eq_iff_eq]
    exact hq.symm
  frames f id hid := (h.reclaimed.owner_iff f id).trans (and_iff_right hid)
  memory := h.reclaimed.memory_eq
  slots id hid := (h.reclaimed.lookup_eq id).trans (if_neg hid)
  bytes := h.reclaimed.bytesAt_eq

end Ends

/-! ## Runs -/

variable {c : Config} {extent : σ} {k₀ k₂ : Kernel σ}
  {trace later : List (Event × Option (Response σ))}

section Runs

variable (hintact : Extent.Reliable.Intact extent) (hboot : boot c extent = .ok (.ok k₀))
  (hrun : Run k₀ trace k)
include hintact hboot hrun

/-- A process that has ended stays so. -/
theorem Run.exited_later (hp : k.process i = some p) (hexited : p.exited = true)
    (hlater : Run k later k₂) : k₂.process i = some p := by
  induction hlater with
  | nil => exact hp
  | step hlater he hstep ih =>
      obtain ⟨m, -, hsound⟩ := (hrun.trans hlater).simulated hintact hboot
      exact (hsound.perform_event he hstep).exited ih hexited

/-- Nothing belongs ever again to a process that has ended. -/
theorem Run.nothing_later (hp : k.process i = some p) (hexited : p.exited = true)
    (hlater : Run k later k₂) : k₂.HasNothing p.pid := by
  have hkept := hrun.exited_later hintact hboot hp hexited hlater
  obtain ⟨m, -, hsound⟩ := (hrun.trans hlater).simulated hintact hboot
  exact hsound.hasNothing ((hsound.live_eq hkept).trans (if_pos hexited))

/-- A frame without an owner that a thread waits with is kept for it until it goes on. -/
theorem Run.reserved_while (hwaits : k.WaitsWith n f) (howner : k.paging.frameTable.owner f = none)
    (hlater : RunWith (fun _ _ k' => k'.WaitsWith n f) k later k₂) :
    k₂.paging.frameTable.Reserved f := by
  have hkept : k₂.WaitsWith n f ∧ k₂.paging.frameTable.owner f = none := by
    induction hlater with
    | nil => exact ⟨hwaits, howner⟩
    | step hlater he hstep hwaits' ih =>
        obtain ⟨m, -, hsound⟩ := (hrun.trans hlater.run).simulated hintact hboot
        refine ⟨hwaits', ?_⟩
        rcases (hsound.perform_event he hstep).owner_eq_or ih.1 hwaits' with heq | hnone
        · exact heq.trans ih.2
        · exact hnone
  obtain ⟨m, -, hsound⟩ := (hrun.trans hlater.run).simulated hintact hboot
  obtain ⟨_, -, hpaging⟩ := hsound.paging
  exact hpaging.frames.reserved (Multiset.mem_add.2 (.inl hkept.1.mem_pins)) hkept.2

/-- A thread that has ended its process wakes everyone who waits before it does anything else: later
it is still about to, or there was a moment at which nobody waited unwoken. -/
theorem Run.woken_later (hmourns : k.Mourns n) (hlater : Run k later k₂) :
    k₂.Mourns n ∨ ∃ trace₁ k₁ trace₂, later = trace₁ ++ trace₂ ∧ Run k trace₁ k₁ ∧
      Run k₁ trace₂ k₂ ∧ ∀ i, ¬ k₁.WaitsUnwoken i := by
  induction hlater with
  | nil => exact .inl hmourns
  | @step before k₁ k₂ e r hlater he hstep ih =>
      rcases ih with hmourns | ⟨trace₁, k', trace₂, rfl, hbefore, hafter, hnone⟩
      · have hrun' := hrun.trans hlater
        obtain ⟨m, -, hsound⟩ := hrun'.simulated hintact hboot
        rcases hsound.mourns_or (hrun'.slotWaits hintact hboot) he hstep hmourns with
          hmourns | hnone
        · exact .inl hmourns
        · exact .inr ⟨before ++ [(e, r)], k₂, [], (List.append_nil _).symm, hlater.step he hstep,
            .nil, hnone⟩
      · exact .inr ⟨trace₁, k', trace₂ ++ [(e, r)], List.append_assoc .., hbefore,
          hafter.step he hstep, hnone⟩

/-- When a process ends, by its own will or by an error, nothing belongs to it from then on; its
frames are free, or kept for threads that wait with them for as long as they do; other processes
keep all they have; and the thread that has ended it wakes everyone who waits. -/
theorem Run.exit_returns (he : e.isOrdinary = true) (hperform : k.perform e = some (.ok (r, k')))
    {p' : UserProcess} (hp : k.process i = some p) (hlive : p.exited = false)
    (hp' : k'.process i = some p') (hexited : p'.exited = true) :
    k.Returns k' i p.pid ∧
      (∀ later k₂, Run k' later k₂ → k₂.HasNothing p.pid) ∧
      (∀ n f page later k₂, k.WaitsWith n f →
        k.paging.frameTable.owner f = some ⟨p.pid, page⟩ →
        RunWith (fun _ _ k' => k'.WaitsWith n f) k' later k₂ →
        k₂.paging.frameTable.Reserved f) ∧
      ∃ n, e = .advance n ∧ ∀ later k₂, Run k' later k₂ → k₂.Mourns n ∨
        ∃ trace₁ k₁ trace₂, later = trace₁ ++ trace₂ ∧ Run k' trace₁ k₁ ∧ Run k₁ trace₂ k₂ ∧
          ∀ i, ¬ k₁.WaitsUnwoken i := by
  obtain ⟨m, -, hsound⟩ := hrun.simulated hintact hboot
  have hrun' := hrun.step he hperform
  obtain ⟨m', -, hsound'⟩ := hrun'.simulated hintact hboot
  rcases (hsound.perform_event he hperform).process_eq_or hp with
    hsame | ⟨n, call, cause, paging, rfl, hends, rfl⟩
  · -- the process is alive after the step
    obtain rfl := Option.some.inj (hp'.symm.trans hsame)
    exact Bool.noConfusion (hexited.symm.trans hlive)
  · have hreturns := hends.returns hsound hsound'
    have hmourns : (k.afterEnding n i call cause paging).Mourns n :=
      ⟨_, .checking, hends.session_eq, rfl, rfl⟩
    refine ⟨hreturns, fun later k₂ hlater => ?_,
      fun j f page later k₂ hwaits howner hlater => ?_, n, rfl, fun later k₂ =>
        hrun'.woken_later hintact hboot hmourns⟩
    · exact hrun'.nothing_later (p := { p with exited := true }) hintact hboot
        hends.process_eq rfl hlater
    · have hpinned : 0 < k.paging.frameTable.pins f := by
        obtain ⟨_, -, hpaging⟩ := hsound.paging
        rw [hpaging.frames.pins_eq, add_zero]
        exact Multiset.count_pos.2 hwaits.mem_pins
      exact hrun'.reserved_while hintact hboot (hreturns.waits j f hwaits)
        (hreturns.kept f page howner hpinned).1.owner_eq hlater

end Runs

/-- A thread sleeps with the only frame as its victim, and another thread of the same process is
about to end the process. -/
def orphanEvents : List Event :=
  sleeperEvents ++ [.start 0, .advance 1, .advance 1, .ask 1 .exit]

/-- Whether a step of the second thread ends the first process, while the first thread waits with
the frame of its last page. -/
def endsNext (k : Kernel MemoryExtent) : Bool :=
  match k.perform (.advance 1), k.process 0, k.session 0 with
  | some (.ok (_, k')), some p, some s =>
      !p.exited && (k'.process 0).any UserProcess.exited && decide (s.phase.victim? = some 0) &&
        decide (k.paging.frameTable.owner 0 = some ⟨p.pid, 2⟩)
  | _, _, _ => false

/-- The frame is kept for the thread that sleeps, since it waits with it. -/
theorem exit_returns_small : ∃ (k₀ k k' : Kernel MemoryExtent)
    (trace : List (Event × Option (Response MemoryExtent))) (p : UserProcess),
    boot smallConfig (⟨.zeros 1⟩ : MemoryExtent) = .ok (.ok k₀) ∧
      k₀.performAll orphanEvents = some (trace, k) ∧ Run k₀ trace k ∧ k.process 0 = some p ∧
      k.WaitsWith 0 0 ∧ k.Returns k' 0 p.pid ∧ k'.paging.frameTable.Reserved 0 := by
  have hlast : holdsAfter smallConfig orphanEvents endsNext = true := by decide +kernel
  obtain ⟨k₀, k, trace, hboot, hall, hrun, hends⟩ := run_of_holdsAfter (by decide) hlast
  rw [endsNext] at hends
  split at hends
  · rename_i r k' p s hperform hp hs
    simp only [Bool.and_eq_true, Bool.not_eq_true', decide_eq_true_eq, Option.any_eq_true] at hends
    obtain ⟨⟨⟨hlive, p', hp', hexited⟩, hvictim⟩, howner⟩ := hends
    have hintact : Extent.Reliable.Intact (⟨.zeros 1⟩ : MemoryExtent) :=
      MemoryExtent.intact_zeros (by decide)
    obtain ⟨hreturns, -, hreserved, -⟩ :=
      hrun.exit_returns hintact hboot rfl hperform hp hlive hp' hexited
    have hwaits : k.WaitsWith 0 0 := ⟨s, hs, hvictim⟩
    exact ⟨k₀, k, k', trace, p, hboot, hall, hrun, hp, hwaits, hreturns,
      hreserved 0 0 2 [] k' hwaits howner .nil⟩
  · cases hends

end Kernel

end DemandPaging
