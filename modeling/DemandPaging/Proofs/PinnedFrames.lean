import DemandPaging.Proofs.ByteValues
import DemandPaging.Proofs.CallersPins

/-!
# Pinned frames

A thread pins a frame for one of two reasons. It copies from or to the frame, and takes the pin off
within the same request; or the frame is its victim, and stays pinned until the thread goes on after
its wait. So between copies the pins are those of the threads that wait, one each. A frame that is
not pinned is free or has a page (`FrameTable.Sound.free_or_owned`), and no frame is ever lost.
-/

namespace DemandPaging.Kernel

variable {σ : Type} {k k₀ : Kernel σ}

/-- No thread keeps a frame pinned for a copy. -/
def BetweenCopies (k : Kernel σ) : Prop :=
  ∀ n s, k.session n = some s → s.phase.copied = 0

/-- Whoever has the processor has yet to be given a request. All requests under way wait, be it for
the processor or for a swap slot. -/
def BetweenRequests (k : Kernel σ) : Prop :=
  ∀ s ∈ k.sessions, s.phase.cpuUse = .holding → s.phase = .entering ∨ s.phase = .ready

instance (k : Kernel σ) : Decidable k.BetweenRequests := inferInstanceAs (Decidable (∀ s ∈ _, _))

theorem BetweenRequests.betweenCopies (h : k.BetweenRequests) : k.BetweenCopies := by
  intro n s hs
  by_cases hholding : s.phase.cpuUse = .holding
  · rcases h s (List.mem_of_getElem? hs) hholding with hphase | hphase <;> rw [hphase] <;> rfl
  · exact Phase.copied_eq_zero hholding

/-- Between copies all pins are on victims. -/
theorem BetweenCopies.pins_eq (h : k.BetweenCopies) : k.pins = k.victims := by
  rw [pins, victims]
  refine congrArg List.sum (List.map_congr_left fun s hs => ?_)
  obtain ⟨n, hn⟩ := List.mem_iff_getElem?.1 hs
  rw [Phase.pins, h n s hn, add_zero]

/-- A thread waits with one frame. -/
theorem WaitsWith.frame_eq {n f g : Nat} (h : k.WaitsWith n f) (h' : k.WaitsWith n g) : g = f := by
  obtain ⟨s, hs, hf⟩ := h
  obtain ⟨t, ht, hg⟩ := h'
  obtain rfl := Option.some.inj (hs.symm.trans ht)
  exact Option.some.inj (hg.symm.trans hf)

/-- No two threads wait with the same frame. -/
theorem WaitsWith.thread_eq {n i f : Nat} (hnodup : k.victims.Nodup) (h : k.WaitsWith n f)
    (h' : k.WaitsWith i f) : i = n := by
  by_contra hi
  obtain ⟨s, hs, hf⟩ := h
  rw [victims_eq hs, Multiset.nodup_add] at hnodup
  exact Multiset.disjoint_left.1 hnodup.2.2 (Phase.mem_victims_iff.2 hf)
    (mem_othersVictims_iff.2 ⟨i, hi, h'⟩)

variable [Extent σ] [Extent.Reliable σ]

/-- Along a run no frame comes or goes. -/
theorem Run.whole {c : Config} {extent : σ} (hintact : Extent.Reliable.Intact extent)
    (hboot : boot c extent = .ok (.ok k₀)) {trace : List (Event × Option (Response σ))}
    (h : Run k₀ trace k) : k.paging.Whole c.frames := by
  induction h with
  | nil => exact boot_whole hintact hboot
  | step _ _ hrun ih => exact (perform_erased ih _).2 _ _ hrun

/-- Between copies the pinned frames are those that threads wait with. Each of these threads has one
frame for itself, pinned once. All other frames are either free, and on the free list once, or have
a page; so when nobody waits, those that are free and those with a page are all there are. -/
theorem Run.pins_accounted {c : Config} {extent : σ} (hintact : Extent.Reliable.Intact extent)
    (hboot : boot c extent = .ok (.ok k₀)) {trace : List (Event × Option (Response σ))}
    (hrun : Run k₀ trace k) (hbetween : k.BetweenCopies) :
    (∀ f, 0 < k.paging.frameTable.pins f ↔ ∃ n, k.WaitsWith n f) ∧
      (∀ n f, k.WaitsWith n f → f < c.frames ∧ k.paging.frameTable.pins f = 1 ∧
        (∀ g, k.WaitsWith n g → g = f) ∧ ∀ i, k.WaitsWith i f → i = n) ∧
      (∀ f < c.frames, (∀ n, ¬ k.WaitsWith n f) →
        (k.paging.frameTable.free.count f = 1 ∧ k.paging.frameTable.owner f = none) ∨
          (f ∉ k.paging.frameTable.free ∧ ∃ id, k.paging.frameTable.owner f = some id)) ∧
      ((∀ n f, ¬ k.WaitsWith n f) →
        k.paging.frameTable.free.length + k.paging.frameTable.numOwned = c.frames) := by
  obtain ⟨m, -, hsound⟩ := hrun.simulated hintact hboot
  obtain ⟨running, -, hpaging⟩ := hsound.paging
  have hframes : k.paging.frameTable.Sound k.victims := by
    rw [← hbetween.pins_eq, ← add_zero k.pins]
    exact hpaging.frames
  have hsize : k.paging.frameTable.size = c.frames :=
    hpaging.sized.numFrames_eq.symm.trans (hrun.whole hintact hboot).frames_eq
  have hnodup : k.victims.Nodup := hsound.exclusive.nodup
  refine ⟨fun f => ?_, fun n f hf => ⟨?_, ?_, ?_, ?_⟩, fun f hlt hf => ?_, fun hnone => ?_⟩
  · rw [hframes.pins_eq, Multiset.count_pos, mem_victims_iff]
  · rw [← hsize]
    exact FrameTable.lt_size_of_isAllocated (hframes.allocated_of_mem (mem_victims_iff.2 ⟨n, hf⟩))
  · rw [hframes.pins_eq]
    exact Multiset.count_eq_one_of_mem hnodup (mem_victims_iff.2 ⟨n, hf⟩)
  · exact fun g hg => hf.frame_eq hg
  · exact fun i hi => hf.thread_eq hnodup hi
  · refine hframes.free_or_owned (hlt.trans_eq hsize.symm) fun hmem => ?_
    obtain ⟨n, hn⟩ := mem_victims_iff.1 hmem
    exact hf n hn
  · have hzero : k.victims = 0 := by
      refine Multiset.eq_zero_of_forall_notMem fun f hmem => ?_
      obtain ⟨n, hn⟩ := mem_victims_iff.1 hmem
      exact hnone n f hn
    rw [hzero] at hframes
    rw [hframes.length_free_add_numOwned, hsize]

/-- A thread sleeps with the second of two frames as its victim, and the first frame has a page. -/
theorem pins_accounted_pair : ∃ (k₀ k : Kernel MemoryExtent)
    (trace : List (Event × Option (Response MemoryExtent))),
    boot pairConfig (⟨.zeros 1⟩ : MemoryExtent) = .ok (.ok k₀) ∧
      k₀.performAll fullEvents = some (trace, k) ∧ Run k₀ trace k ∧ k.BetweenCopies ∧
      k.WaitsWith 0 1 ∧ k.paging.frameTable.pins 1 = 1 ∧ (∀ i, k.WaitsWith i 1 → i = 0) ∧
      0 ∉ k.paging.frameTable.free ∧ k.paging.frameTable.owner 0 = some ⟨1, 0⟩ := by
  have hlast : holdsAfter pairConfig fullEvents (fun k => decide
      (k.BetweenRequests ∧ 0 ∉ k.victims ∧
        (k.session 0).map (fun s => s.phase.victim?) = some (some 1) ∧
        k.paging.frameTable.owner 0 = some ⟨1, 0⟩)) = true := by
    decide +kernel
  obtain ⟨k₀, k, trace, hboot, hall, hrun, hlast⟩ := run_of_holdsAfter (by decide) hlast
  obtain ⟨hbetween, hnot, hvictim, howner⟩ := of_decide_eq_true hlast
  obtain ⟨s, hs, hvictim⟩ := Option.map_eq_some_iff.1 hvictim
  have hwaits : k.WaitsWith 0 1 := ⟨s, hs, hvictim⟩
  have hintact : Extent.Reliable.Intact (⟨.zeros 1⟩ : MemoryExtent) :=
    MemoryExtent.intact_zeros (by decide)
  obtain ⟨-, hvictims, hothers, -⟩ := hrun.pins_accounted hintact hboot hbetween.betweenCopies
  obtain ⟨-, hpins, -, hthread⟩ := hvictims 0 1 hwaits
  have hfree : 0 ∉ k.paging.frameTable.free := by
    rcases hothers 0 (by decide) fun n hn => hnot (mem_victims_iff.2 ⟨n, hn⟩) with ⟨-, hnone⟩ | h
    · rw [hnone] at howner
      cases howner
    · exact h.1
  exact ⟨k₀, k, trace, hboot, hall, hrun, hbetween.betweenCopies, hwaits, hpins, hthread, hfree,
    howner⟩

end DemandPaging.Kernel
