import DemandPaging.Proofs.Kernel.Runs

/-!
# Paged memory is flat memory

Whatever the threads of a machine do, in whatever order, each process sees an array of bytes of its
own: with pages in frames, in swap, or not yet made; with dirty bits in the mapping cache and in the
page tables; and with threads that sleep in the middle of a fault while others run.
-/

namespace DemandPaging.Kernel

variable {σ : Type} [Extent σ] [Extent.Reliable σ]

/-- Every run of a kernel that was booted on a reliable extent is a run of the flat machine, with
the same events, the same answers, the same processes, and threads that are about the same. -/
theorem Run.refines_flat {c : Config} {extent : σ} (hintact : Extent.Reliable.Intact extent)
    {k₀ k : Kernel σ} (hboot : boot c extent = .ok (.ok k₀))
    {trace : List (Event × Option (Response σ))} (hrun : Run k₀ trace k) :
    ∃ m, FlatMachine.Run c trace m ∧ m.processes.map FlatProcess.process = k.processes ∧
      m.threads = k.sessions.map Session.flat := by
  obtain ⟨m, hflat, hsound⟩ := hrun.simulated hintact hboot
  exact ⟨m, hflat, hsound.processes_eq, hsound.threads_eq⟩

/-- Whether the last answer is the byte that was stored, and the thread is ready for another
request. -/
def answersStored (result : List (Event × Option (Response MemoryExtent)) × Kernel MemoryExtent) :
    Bool :=
  match result.1.getLast?, result.2.sessions with
  | some (.advance 0, some (.byte 5)), [⟨0, .ready⟩] => true
  | _, _ => false

/-- The byte is stored, goes to swap, and comes back. On the flat machine it is there all the time,
and the thread of the process is idle in the end. -/
theorem refines_flat_small : ∃ (k₀ k : Kernel MemoryExtent)
    (trace : List (Event × Option (Response MemoryExtent))) (m : FlatMachine),
    boot smallConfig (⟨.zeros 1⟩ : MemoryExtent) = .ok (.ok k₀) ∧
      k₀.performAll smallEvents = some (trace, k) ∧ Run k₀ trace k ∧
      trace.getLast? = some (.advance 0, some (.byte 5)) ∧ FlatMachine.Run smallConfig trace m ∧
      m.processes.map FlatProcess.process = k.processes ∧ m.threads = [⟨0, .idle⟩] := by
  have hlast : bootsTo smallConfig (⟨.zeros 1⟩ : MemoryExtent) (fun k =>
      (k.performAll smallEvents).any answersStored) = true := by decide +kernel
  obtain ⟨k₀, hboot, hall⟩ := exists_of_bootsTo hlast
  obtain ⟨⟨trace, k⟩, hall, hanswers⟩ := (Option.any_eq_true ..).1 hall
  have hrun : Run k₀ trace k := .of_performAll (by decide) hall
  obtain ⟨m, hflat, hprocesses, hthreads⟩ :=
    hrun.refines_flat (MemoryExtent.intact_zeros (by decide)) hboot
  rw [answersStored] at hanswers
  split at hanswers
  · rename_i htrace hsessions
    have hsessions : k.sessions = [⟨0, .ready⟩] := hsessions
    rw [hsessions] at hthreads
    exact ⟨k₀, k, trace, m, hboot, hall, hrun, htrace, hflat, hprocesses, hthreads⟩
  · cases hanswers

end DemandPaging.Kernel
