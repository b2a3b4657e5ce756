import DemandPaging.Proofs.Kernel.Accesses
import DemandPaging.Proofs.Kernel.Arrivals
import DemandPaging.Proofs.Kernel.Copies
import DemandPaging.Proofs.Kernel.Endings

/-!
# Every step is a step of the flat machine

Whatever a program can bring about keeps the agreement with the flat machine: processes and threads
are added, threads are given requests, and threads take steps (`Sound.perform_run`).
-/

namespace DemandPaging

/-- Whether an event is one that programs bring about. The console is not a program. -/
def Event.isOrdinary : Event → Bool
  | spawn _ | start _ | advance _ => true
  | ask _ request => request.isOrdinary
  | pin _ | unpin _ => false

namespace Kernel

variable {σ : Type} [Extent σ] [Extent.Reliable σ] {k k' : Kernel σ} {m : FlatMachine}
  {n : Nat} {p : UserProcess} {callers : Multiset Nat}

/-! ## Steps of threads -/

/-- A step of a thread inside a request. -/
theorem Calling.step_run {place : Nat} {call : Call} {result : After σ}
    (h : k.Calling m n place p call callers)
    (hrun : k.callStep (threadOf n) place p call = some (.ok result)) :
    k.Reaches m n result callers := by
  obtain ⟨request, stage, moved⟩ := call
  cases stage with
  | begun => exact h.begin_run hrun
  | accessing => exact h.access_run (Option.some.inj hrun)
  | faulting phase =>
      obtain ⟨⟨r, k1⟩, hfault, hrun⟩ := step_of_map hrun fun halt => ⟨halt, rfl⟩
      exact h.fault_run hfault hrun
  | pinning => exact h.pin_run hrun
  | moving frame => exact h.move_run (Option.some.inj hrun)
  | unpinning frame => exact h.unpin_run hrun
  | killing cause => exact h.end_run rfl rfl rfl (some cause) ⟨rfl, nofun⟩ nofun hrun
  | mourning cause phase =>
      obtain ⟨⟨next, k1⟩, hnotify, hrun⟩ := step_of_map hrun fun halt => ⟨halt, rfl⟩
      exact h.mourn_run hnotify hrun
  | yielding =>
      obtain ⟨k1, hleave, hrun⟩ := ok_of_bind (Option.some.inj hrun)
      exact h.yield_run hleave hrun
  | returning phase =>
      obtain ⟨⟨stage, k1⟩, htake, hrun⟩ := step_of_map hrun fun halt => ⟨halt, rfl⟩
      exact h.return_run htake hrun
  | flushing =>
      obtain rfl := Except.ok.inj (Option.some.inj hrun)
      exact h.flush_run
  | parting => exact h.part_run hrun
  | leaving failure =>
      obtain ⟨k1, hleave, hrun⟩ := ok_of_bind (Option.some.inj hrun)
      cases failure with
      | none =>
          obtain rfl := Except.ok.inj hrun
          exact h.leave_run hleave
      | some cause => cases hrun

namespace Sound

/-- A thread takes the processor for the first time. -/
theorem start_run (h : k.Sound m callers) {place : Nat} {phase : Acquiring}
    (hs : k.sessions[n]? = some ⟨place, .starting phase⟩) (hp : k.processes[place]? = some p)
    {next : Phase}
    (htake : k.takeCpu (threadOf n) phase Phase.starting .entering = some (.ok (next, k'))) :
    k.Simulated m (.advance n) none (k'.setPhase n next) callers := by
  obtain ⟨next', cpu, hacquire, rfl, rfl⟩ := takeCpu_ok htake
  have hcpu := h.cpu.acquire (cpuUse_eq hs) hacquire
  have hself : m.setErrand n .arriving = m := FlatMachine.setErrand_self (h.thread hs)
  have hstep : FlatMachine.Step m (.advance n) (none : Option (Response σ))
      (m.setErrand n .arriving) := by
    rw [hself]
    exact .unnoticed
  refine .of_step hstep ?_
  cases next' with
  | some phase' =>
      exact h.advance_aside (.starting phase') hs (.withCpu k cpu) rfl hp trivial hcpu rfl rfl rfl
        rfl
  | none =>
      exact h.advance_aside .entering hs (.withCpu k cpu) rfl hp trivial hcpu rfl rfl rfl rfl

/-- A thread that has the processor for the first time empties the cache. -/
theorem enter_run (h : k.Sound m callers) {place : Nat}
    (hs : k.sessions[n]? = some ⟨place, .entering⟩) (hp : k.processes[place]? = some p) :
    k.Simulated m (.advance n) (none : Option (Response σ)) (k.flush.setPhase n .ready)
      callers := by
  obtain ⟨hsound, -⟩ := h.holder hs hp rfl
  have hempty := fun c (hc : c ∈ k.paging.processor.cache) => hsound.empty_of_none hc
  obtain ⟨hflushed, hnarrow⟩ := hsound.flushed hempty (some p.pid)
  refine .of_step (.arrive (h.thread hs)) ?_
  have hsame := SameThreads.flush k
  refine h.advance_holder .ready hs rfl hsame.follows (hsame.shows h.toShows) hp trivial ?_
    (h.serves_same hs rfl rfl) hnarrow.pageSize_eq hflushed (fun _ => trivial)
  -- the thread keeps no victim, so those of the others stay apart
  have hexclusive := h.exclusive
  rw [victims_eq hs] at hexclusive
  exact hexclusive

/-- A step of a thread. -/
theorem advance_run (h : k.Sound m callers) {r : Option (Response σ)}
    (hrun : k.step n = some (.ok (r, k'))) :
    k.Simulated m (.advance n) r k' callers := by
  cases advances_of_step hrun with
  | starts hs hp htake => exact h.start_run hs hp htake
  | enters hs hp => exact h.enter_run hs hp
  | calls hs hp hcall => exact (h.calling hs hp).step_run hcall

/-- What programs can bring about. -/
theorem perform_run (h : k.Sound m callers) {e : Event} (he : e.isOrdinary = true)
    {r : Option (Response σ)} (hrun : k.perform e = some (.ok (r, k'))) :
    k.Simulated m e r k' callers := by
  cases e with
  | spawn image =>
      rw [perform] at hrun
      split at hrun
      · rename_i place k1 hspawn
        obtain ⟨rfl, rfl⟩ := Prod.mk.inj (Except.ok.inj (Option.some.inj hrun))
        obtain ⟨hfault, hnext, rfl, rfl⟩ := spawn_ok hspawn
        exact h.spawn_run hfault hnext
      · rename_i cause k1 hspawn
        obtain ⟨rfl, rfl⟩ := Prod.mk.inj (Except.ok.inj (Option.some.inj hrun))
        obtain ⟨hfault, rfl⟩ := spawn_refused hspawn
        exact ⟨m, .spawnRefused (h.config_eq ▸ hfault), h, .inr rfl⟩
      · cases hrun
  | start i =>
      rw [perform] at hrun
      split at hrun
      · rename_i hsome
        obtain ⟨p, hp⟩ := Option.isSome_iff_exists.1 hsome
        obtain ⟨rfl, rfl⟩ := Prod.mk.inj (Except.ok.inj (Option.some.inj hrun))
        exact h.add_run hp
      · cases hrun
  | ask n request =>
      rw [perform] at hrun
      split at hrun
      · rename_i hready
        obtain ⟨s, hs, hready⟩ := Option.map_eq_some_iff.1 hready
        obtain ⟨rfl, rfl⟩ := Prod.mk.inj (Except.ok.inj (Option.some.inj hrun))
        exact h.ask_run hs hready he
      · cases hrun
  | advance n => exact h.advance_run hrun
  | pin frame => cases he
  | unpin frame => cases he

end Sound

end Kernel

end DemandPaging
