import DemandPaging.Proofs.LackOfVictims

/-!
# No assumption is broken

The machine halts when it finds that something it relies on is not so: a free frame that is marked
as allocated, a lock given back by someone who does not hold it, a page table that disagrees with
the frame table. After every run none of this can be found by whatever happens next. What can stop
the machine is only the lack of a victim, and the end of the process numbers.
-/

namespace DemandPaging.Kernel

variable {σ : Type} [Extent σ] [Extent.Reliable σ]

/-- After every run the next event halts the machine only if a thread finds no victim, or if a
process is to be added and all numbers have been given out. A step of a fault ends with no other
errors than that there is no victim, that the page is none of the process, or that the process is
gone. -/
theorem Run.assumptions_kept {c : Config} {extent : σ} (hintact : Extent.Reliable.Intact extent)
    {k₀ k : Kernel σ} (hboot : boot c extent = .ok (.ok k₀))
    {trace : List (Event × Option (Response σ))} (hrun : Run k₀ trace k) :
    (∀ e halt, e.isOrdinary = true → k.perform e = some (.error halt) →
      halt = .fatal .noVictim ∨
        halt = .pidsExhausted ∧ (∃ image, e = .spawn image) ∧ k.processes.length + 1 = 2 ^ 16) ∧
      ∀ n place p call phase, k.session n = some ⟨place, .busy call⟩ →
        k.process place = some p → call.stage = .faulting phase →
        ∀ result, k.faultStep (threadOf n) p phase = some result →
          ∃ r k', result = .ok (r, k') ∧
            ∀ cause, r = .error cause → EndsFault p cause ∨ cause = .noVictim := by
  obtain ⟨m, -, hsound⟩ := hrun.simulated hintact hboot
  have hwaits := hrun.slotWaits hintact hboot
  constructor
  · intro e halt he hhalt
    rcases hsound.halt_run hwaits he hhalt with ⟨n, -, hstops⟩ | hnumbers
    · cases hstops with
      | noVictim => exact .inl rfl
      | tooManyPins hfull =>
          -- nobody calls, and no two threads wait with the same frame
          have hnodup := (hsound.exclusive.mono (othersVictims_le k n)).nodup
          rw [add_zero] at hfull
          exact absurd (hfull.trans (Multiset.nodup_iff_count_le_one.1 hnodup _)) (by decide)
    · exact .inr hnumbers
  · intro n place p call phase hs hp hstage result hfault
    have hcalling := hsound.calling hs hp
    obtain ⟨request, stage, moved⟩ := call
    obtain rfl : stage = .faulting phase := hstage
    obtain ⟨r, k', rfl, hr⟩ := hcalling.fault_survives hwaits hfault
    exact ⟨r, k', rfl, fun cause hcause => (hr cause hcause).imp_right And.left⟩

/-- Two threads and one frame: the second thread halts the machine, and it is for the lack of a
victim. -/
theorem assumptions_kept_small : ∃ (k₀ k : Kernel MemoryExtent)
    (trace : List (Event × Option (Response MemoryExtent))) (halt : Halt),
    boot smallConfig (⟨.zeros 1⟩ : MemoryExtent) = .ok (.ok k₀) ∧
      k₀.performAll keptEvents = some (trace, k) ∧ Run k₀ trace k ∧
      k.perform (.advance 1) = some (.error halt) ∧ k.processes.length = 1 ∧
      halt = .fatal .noVictim := by
  have hlast : holdsAfter smallConfig keptEvents (fun k =>
      (k.perform (.advance 1)).any (fun x => !x.toBool) && decide (k.processes.length = 1)) =
        true := by
    decide +kernel
  obtain ⟨k₀, k, trace, hboot, hall, hrun, hk⟩ := run_of_holdsAfter (by decide) hlast
  rw [Bool.and_eq_true, Option.any_eq_true] at hk
  obtain ⟨⟨x, hperform, hx⟩, hlength⟩ := hk
  cases x with
  | ok result => cases hx
  | error halt =>
      refine ⟨k₀, k, trace, halt, hboot, hall, hrun, hperform, of_decide_eq_true hlength, ?_⟩
      have hkept := hrun.assumptions_kept (MemoryExtent.intact_zeros (by decide)) hboot
      rcases hkept.1 (.advance 1) halt rfl hperform with hvictim | ⟨-, ⟨image, hspawn⟩, -⟩
      · exact hvictim
      · cases hspawn

end DemandPaging.Kernel
