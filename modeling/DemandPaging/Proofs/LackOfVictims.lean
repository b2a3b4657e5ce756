import DemandPaging.Proofs.Kernel.Halts
import DemandPaging.Proofs.Kernel.Searches
import DemandPaging.Proofs.Kernel.Standstill

/-!
# The lack of a victim

A thread that sleeps for a swap slot keeps its victim pinned, so nobody else may choose it. When
every frame is kept like this there is nothing left to push out, and a thread that needs a frame
stops the machine. There is no other reason for it to stop by an error: as long as one frame is not
the victim of another thread, every search for a frame ends well, whatever the swap area is like.
-/

namespace DemandPaging.Kernel

variable {σ : Type} [Extent σ] [Extent.Reliable σ]

/-- After every run a search for a frame ends with a frame, or with a victim that has to wait for a
slot, unless every frame is kept by other threads that wait for a slot. Only then can an error stop
the machine at the next step, and the error says that there is no victim. -/
theorem Run.victim_unless_kept {c : Config} {extent : σ}
    (hintact : Extent.Reliable.Intact extent) {k₀ k : Kernel σ}
    (hboot : boot c extent = .ok (.ok k₀)) {trace : List (Event × Option (Response σ))}
    (hrun : Run k₀ trace k) :
    (∀ n p page search, k.Searches n p page search → ∀ counters,
      (∃ found s', search { k.paging with counters } = .ok (.ok found, s')) ∨
        (∃ s', search { k.paging with counters } = .ok (.error .noVictim, s')) ∧
          ∀ f < k.paging.frameTable.size, ∃ i, i ≠ n ∧ k.WaitsWith i f) ∧
      ∀ e cause, e.isOrdinary = true → k.perform e = some (.error (.fatal cause)) →
        cause = .noVictim ∧ ∃ n, e = .advance n ∧
          ∀ f < k.paging.frameTable.size, ∃ i, i ≠ n ∧ k.WaitsWith i f := by
  obtain ⟨m, -, hsound⟩ := hrun.simulated hintact hboot
  -- nobody calls, so every pin that is in the way is on the victim of another thread
  have hwaited : ∀ {n f}, f ∈ k.othersVictims n + 0 → ∃ i, i ≠ n ∧ k.WaitsWith i f := by
    intro n f hf
    rw [add_zero] at hf
    exact mem_othersVictims_iff.1 hf
  constructor
  · intro n p page search hsearch counters
    rcases hsound.search_run hsearch counters with ⟨found, s', hfind, -⟩ | ⟨hnone, hkept⟩
    · exact .inl ⟨found, s', hfind⟩
    · exact .inr ⟨hnone, fun f hf => hwaited (hkept f hf)⟩
  · intro e cause he hhalt
    obtain ⟨rfl, n, rfl, hkept⟩ := hsound.fatal_run (hrun.slotWaits hintact hboot) he hhalt
    exact ⟨rfl, n, rfl, fun f hf => hwaited (hkept f hf)⟩

/-! ## Two threads and one frame -/

/-- A thread fills the only frame and the only slot, and sleeps for another slot with the frame as
its victim. Then a second thread is about to load a byte. -/
def keptEvents : List Event :=
  [.spawn smallImage, .start 0, .start 0, .advance 0, .advance 0, .ask 0 (.write 1 5)] ++
    List.replicate 4 (.advance 0) ++ [.ask 0 (.write 2 6)] ++ List.replicate 4 (.advance 0) ++
    [.ask 0 (.read 0)] ++ List.replicate 8 (.advance 0) ++
    [.advance 1, .advance 1, .ask 1 (.read 0), .advance 1, .advance 1]

/-- Whether the next step of a session stops the machine for the lack of a victim. -/
def lacksVictim (k : Kernel σ) (n : Nat) : Bool :=
  match k.perform (.advance n) with
  | some (.error (.fatal .noVictim)) => true
  | _ => false

/-- A full swap area may stop the machine: the only frame is kept by a thread that sleeps, so the
other thread finds no victim. -/
theorem kept_lacks_victim : ∃ (k₀ k : Kernel MemoryExtent)
    (trace : List (Event × Option (Response MemoryExtent))),
    boot smallConfig (⟨.zeros 1⟩ : MemoryExtent) = .ok (.ok k₀) ∧ Run k₀ trace k ∧
      k.perform (.advance 1) = some (.error (.fatal .noVictim)) := by
  have hlacks : holdsAfter smallConfig keptEvents (fun k => k.lacksVictim 1) = true := by
    decide +kernel
  obtain ⟨k₀, k, trace, hboot, -, hrun, hlast⟩ := run_of_holdsAfter (by decide) hlacks
  refine ⟨k₀, k, trace, hboot, hrun, ?_⟩
  rw [lacksVictim] at hlast
  split at hlast
  · assumption
  · cases hlast

theorem victim_unless_kept_small : ∃ (k₀ k : Kernel MemoryExtent)
    (trace : List (Event × Option (Response MemoryExtent))),
    boot smallConfig (⟨.zeros 1⟩ : MemoryExtent) = .ok (.ok k₀) ∧
      k₀.performAll smallEvents = some (trace, k) ∧ Run k₀ trace k ∧
      ∀ n p page search, k.Searches n p page search → ∀ counters,
        (∃ found s', search { k.paging with counters } = .ok (.ok found, s')) ∨
          (∃ s', search { k.paging with counters } = .ok (.error .noVictim, s')) ∧
            ∀ f < k.paging.frameTable.size, ∃ i, i ≠ n ∧ k.WaitsWith i f := by
  obtain ⟨k₀, k, trace, hboot, hall, hrun⟩ := small_run
  have hkept := hrun.victim_unless_kept (MemoryExtent.intact_zeros (by decide)) hboot
  exact ⟨k₀, k, trace, hboot, hall, hrun, hkept.1⟩

end DemandPaging.Kernel
