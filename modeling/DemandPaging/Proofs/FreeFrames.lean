import DemandPaging.Proofs.Kernel.Standstill

/-!
# Frames that are free while a thread sleeps

A thread only goes to sleep for a swap slot when no frame is free, and a process that ends wakes
everyone, since its frames become free. But a thread that was woken may find that it does not need
its frame any more: its process has ended, or another thread has brought the page in. It gives the
frame back then and wakes nobody, so a thread that sleeps may miss the free frame
(`frame_free_beside_sleeper`). This is the only way for a sleeper to miss one.
-/

namespace DemandPaging.Kernel

variable {σ : Type}

/-- A step by which no frame is given back while a thread waits unwoken. -/
def Withholding (k : Kernel σ) (e : Event) (k' : Kernel σ) : Prop :=
  k.GivesBack e k' → ∀ n, ¬ k.WaitsUnwoken n

/-- The only thread of a machine cheats nobody. -/
theorem withholding_of_lone {k : Kernel σ} (hlone : k.sessions.length ≤ 1) (e : Event)
    (k' : Kernel σ) : Withholding k e k' := by
  rintro ⟨n, p, page, -, ⟨place, call, victim, hs, -, hstage⟩, -⟩ i ⟨s, f, waiting, hi, hpart, -⟩
  have hn := (List.getElem?_eq_some_iff.1 hs).1
  have hi' := (List.getElem?_eq_some_iff.1 hi).1
  obtain rfl : i = n := by omega
  obtain rfl := Option.some.inj (hi.symm.trans hs)
  -- a thread that goes on does not wait
  have hresuming : call.stage.slotPart = .resuming victim := by
    rw [hstage]
    rfl
  exact absurd (hresuming.symm.trans hpart) nofun

variable [Extent σ] [Extent.Reliable σ] {k₀ k : Kernel σ} {c : Config} {extent : σ}
  {trace : List (Event × Option (Response σ))}

/-- While a thread waits unwoken no frame is free, or everyone is about to be woken. -/
theorem RunWith.exhausted (hintact : Extent.Reliable.Intact extent)
    (hboot : boot c extent = .ok (.ok k₀)) (hrun : RunWith Withholding k₀ trace k) :
    k.ledger.Exhausted := by
  have hinvariant := hrun.invariant hintact hboot (I := fun k => k.ledger.Exhausted)
    (fun hnone hwaited => absurd hwaited (not_waited_of_nil hnone)) ?_
  · exact hinvariant.2.2
  · intro k k' m m' e r _ _ _ _ haccounted hkind hexhausted
    refine haccounted.step.exhausted (fun hback hwaited => ?_) hexhausted
    obtain ⟨n, hn⟩ := exists_of_waited hwaited
    exact hkind hback n hn

/-- When no thread can go on, and one of them sleeps for a swap slot, no frame is free: in every run
in which no woken thread gives its frame back while another thread waits unwoken. -/
theorem RunWith.frames_taken (hintact : Extent.Reliable.Intact extent)
    (hboot : boot c extent = .ok (.ok k₀)) (hrun : RunWith Withholding k₀ trace k)
    (hstill : k.StandsStill) (hsleeper : k.HasSleeper) : k.paging.frameTable.free = [] := by
  rcases hrun.exhausted hintact hboot hsleeper.waited with hmourning | hframes
  · exact absurd hmourning hstill.not_mourning
  · exact List.length_eq_zero_iff.1 hframes

theorem frames_taken_small : ∃ (k₀ k : Kernel MemoryExtent)
    (trace : List (Event × Option (Response MemoryExtent))),
    boot smallConfig (⟨.zeros 1⟩ : MemoryExtent) = .ok (.ok k₀) ∧
      k₀.performAll sleeperEvents = some (trace, k) ∧ RunWith Withholding k₀ trace k ∧
      k.StandsStill ∧ k.HasSleeper ∧ k.paging.frameTable.free = [] := by
  have hpass : passesAlong smallConfig sleeperEvents
      (fun k _ _ => decide (k.sessions.length ≤ 1)) = true := by
    decide +kernel
  obtain ⟨k₀, k, trace, hboot, hall, hrun, hlast⟩ :=
    runWith_of_passesAlong (by decide)
      (fun k e k' hlone => withholding_of_lone (of_decide_eq_true hlone) e k') hpass
      sleeper_stands_still
  obtain ⟨hstill, hsleeper⟩ := of_decide_eq_true hlast
  exact ⟨k₀, k, trace, hboot, hall, hrun, hstill, hsleeper,
    hrun.frames_taken (MemoryExtent.intact_zeros (by decide)) hboot hstill hsleeper⟩

/-! ## Three threads of one process -/

/-- A machine with three frames and one slot. -/
def sharedConfig : Config :=
  { frames := 3, cacheSize := 1, pageSize := 1, swapSlots := 1, stackPages := 3 }

/-- A thread fills all frames, and a page goes to the only slot. Two more threads wait for a slot to
load this page. Then the first thread loads it itself, which frees the slot, and the second thread
is woken. It pushes its victim out to the slot, finds that the page is there, and gives its frame
back. Nobody wakes the third thread. -/
def sharedEvents : List Event :=
  [.spawn smallImage, .start 0, .start 0, .start 0,
    .advance 0, .advance 1, .advance 2, .advance 0] ++
    turn 0 (.write 1 5) 4 ++ turn 0 (.write 2 5) 4 ++ turn 0 (.write 3 5) 4 ++
    turn 0 (.read 0) 4 ++ turn 0 .yield 3 ++ List.replicate 2 (.advance 1) ++
    turn 1 (.read 1) 8 ++ List.replicate 2 (.advance 2) ++ turn 2 (.read 1) 8 ++
    List.replicate 2 (.advance 0) ++ turn 0 (.read 1) 8 ++ turn 0 .leave 3 ++
    List.replicate 8 (.advance 1) ++ turn 1 .leave 3

/-- A frame may be free while a thread sleeps for a swap slot, and no thread can go on. -/
theorem frame_free_beside_sleeper : ∃ (k₀ k : Kernel MemoryExtent)
    (trace : List (Event × Option (Response MemoryExtent))),
    boot sharedConfig (⟨.zeros 1⟩ : MemoryExtent) = .ok (.ok k₀) ∧
      k₀.performAll sharedEvents = some (trace, k) ∧ Run k₀ trace k ∧
      k.StandsStill ∧ k.HasSleeper ∧ k.paging.frameTable.free ≠ [] := by
  have hfree : holdsAfter sharedConfig sharedEvents (fun k => decide
      (k.StandsStill ∧ k.HasSleeper ∧ k.paging.frameTable.free ≠ [])) = true := by
    decide +kernel
  obtain ⟨k₀, k, trace, hboot, hall, hrun, hlast⟩ := run_of_holdsAfter (by decide) hfree
  exact ⟨k₀, k, trace, hboot, hall, hrun, of_decide_eq_true hlast⟩

end DemandPaging.Kernel
