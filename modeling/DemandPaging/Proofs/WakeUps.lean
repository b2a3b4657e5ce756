import DemandPaging.Proofs.Kernel.Standstill

/-!
# No wake-up is lost

Whoever frees a swap slot wakes one thread for it, and a woken thread that does not use its slot
wakes the next one. So while a thread waits unwoken all free slots are spoken for: by threads that
were woken and still need a slot, or by threads that are about to wake others. A process must not
end while a thread of its own waits, for then the thread may take a slot's wake-up with it.
-/

namespace DemandPaging.Kernel

variable {σ : Type}

/-- A step by which no process ends that has a thread waiting for a swap slot, or woken and yet to
go on. -/
def Considerate (k : Kernel σ) (_ : Event) (k' : Kernel σ) : Prop :=
  ∀ place p p', k.process place = some p → k'.process place = some p' → p.exited = false →
    p'.exited = true → ∀ n s, k.session n = some s → s.process = place → s.phase.victim? = none

/-- Every thread that waits has a process. -/
def Staffed (k : Kernel σ) : Prop := ∀ n f, k.WaitsWith n f → k.HasProcess n

variable [Extent σ] [Extent.Reliable σ] {k k' k₀ : Kernel σ} {m m' : FlatMachine} {e : Event}

/-- A thread that waits has its process as long as none ends that has a waiting thread. -/
theorem Staffed.step (h : k.Staffed) (hsound : k.Sound m) {r : Option (Response σ)}
    (hflat : FlatMachine.Step m e r m') (hsound' : k'.Sound m')
    (hbegins : ∀ i f, k'.WaitsWith i f → (∃ f', k.WaitsWith i f') ∨ k'.HasProcess i)
    (hconsiderate : Considerate k e k') : k'.Staffed := by
  intro n f hf
  rcases hbegins n f hf with ⟨f', hwaits⟩ | hprocess
  · obtain ⟨s, p, hs, hp, halive⟩ := h n f' hwaits
    obtain ⟨t, ht, hprocess⟩ := hflat.thread_process (hsound.thread hs)
    rw [hsound'.threads_eq, List.getElem?_map, Option.map_eq_some_iff] at ht
    obtain ⟨s', hs', rfl⟩ := ht
    have hplace : s'.process = s.process := hprocess
    -- no process is forgotten, so this one is still there
    have hlt : s.process < k'.processes.length := by
      rw [← hsound'.processes_eq, List.length_map]
      refine Nat.lt_of_lt_of_le ?_ hflat.length_le
      rw [← List.length_map, hsound.processes_eq]
      exact (List.getElem?_eq_some_iff.1 hp).1
    have hp' := List.getElem?_eq_getElem hlt
    refine ⟨s', _, hs', by rw [hplace]; exact hp', ?_⟩
    rw [← Bool.not_eq_true]
    intro hexited
    have hnone := hconsiderate _ p _ hp hp' halive hexited n s hs rfl
    obtain ⟨t, ht, hvictim⟩ := hwaits
    obtain rfl := Option.some.inj (hs.symm.trans ht)
    rw [hnone] at hvictim
    cases hvictim
  · exact hprocess

omit [Extent σ] [Extent.Reliable σ] in
/-- Nobody finds its process gone when it goes on after its wait. -/
theorem Staffed.not_findsGone (h : k.Staffed) : ¬ k.FindsGone e := by
  rintro ⟨n, p, page, -, ⟨place, call, victim, hs, hp, hstage⟩, hexited⟩
  have hwaits : k.WaitsWith n victim := by
    obtain ⟨request, stage, moved⟩ := call
    obtain rfl : stage = _ := hstage
    exact ⟨_, hs, rfl⟩
  obtain ⟨s, p', hs', hp', halive⟩ := h n victim hwaits
  obtain rfl := Option.some.inj (hs.symm.trans hs')
  obtain rfl := Option.some.inj (hp.symm.trans hp')
  rw [hexited] at halive
  cases halive

variable {c : Config} {extent : σ} {trace : List (Event × Option (Response σ))}

/-- While a thread waits unwoken all free slots are spoken for, or everyone is about to be woken. -/
theorem RunWith.balanced (hintact : Extent.Reliable.Intact extent)
    (hboot : boot c extent = .ok (.ok k₀)) (hrun : RunWith Considerate k₀ trace k) :
    k.ledger.Balanced := by
  have hinvariant := hrun.invariant hintact hboot
    (I := fun k => k.Staffed ∧ k.ledger.Balanced) (fun hnone =>
      ⟨fun _ _ hwaits => absurd hwaits (not_waitsWith_of_nil hnone),
        fun hwaited => absurd hwaited (not_waited_of_nil hnone)⟩) ?_
  · exact hinvariant.2.2.2
  · rintro k k' m m' e r hsound hflat hsound' hwaits haccounted hkind ⟨hstaffed, hbalanced⟩
    exact ⟨hstaffed.step hsound hflat hsound' haccounted.begins hkind,
      haccounted.step.balanced (fun hgone => absurd hgone hstaffed.not_findsGone) hbalanced⟩

/-- When no thread can go on, and one of them sleeps for a swap slot, no slot is free: in every run
in which no process ends while a thread of it waits. -/
theorem RunWith.slots_taken (hintact : Extent.Reliable.Intact extent)
    (hboot : boot c extent = .ok (.ok k₀)) (hrun : RunWith Considerate k₀ trace k)
    (hstill : k.StandsStill) (hsleeper : k.HasSleeper) : k.paging.swap.free = [] := by
  rcases hrun.balanced hintact hboot hsleeper.waited with hmourning | ⟨hle, -⟩
  · exact absurd hmourning hstill.not_mourning
  · rw [hstill.credit_eq] at hle
    exact List.length_eq_zero_iff.1 (Nat.le_zero.1 hle)

theorem slots_taken_small : ∃ (k₀ k : Kernel MemoryExtent)
    (trace : List (Event × Option (Response MemoryExtent))),
    boot smallConfig (⟨.zeros 1⟩ : MemoryExtent) = .ok (.ok k₀) ∧
      k₀.performAll sleeperEvents = some (trace, k) ∧ RunWith Considerate k₀ trace k ∧
      k.StandsStill ∧ k.HasSleeper ∧ k.paging.swap.free = [] := by
  -- the process of the small machine never ends
  have hpass : passesAlong smallConfig sleeperEvents
      (fun _ _ k' => k'.processes.all fun p => !p.exited) = true := by
    decide +kernel
  have hconsiderate : ∀ (k : Kernel MemoryExtent) (e : Event) (k' : Kernel MemoryExtent),
      (k'.processes.all fun p => !p.exited) = true → Considerate k e k' := by
    intro k e k' halive place p p' _ hp' _ hexited
    have := List.all_eq_true.1 halive p' (List.mem_of_getElem? hp')
    rw [hexited] at this
    cases this
  obtain ⟨k₀, k, trace, hboot, hall, hrun, hlast⟩ :=
    runWith_of_passesAlong (by decide) hconsiderate hpass sleeper_stands_still
  obtain ⟨hstill, hsleeper⟩ := of_decide_eq_true hlast
  exact ⟨k₀, k, trace, hboot, hall, hrun, hstill, hsleeper,
    hrun.slots_taken (MemoryExtent.intact_zeros (by decide)) hboot hstill hsleeper⟩

end DemandPaging.Kernel
