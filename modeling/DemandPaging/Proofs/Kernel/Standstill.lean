import DemandPaging.Proofs.Kernel.Accounts
import DemandPaging.Proofs.Kernel.Callers

/-!
# When no thread can go on

A machine stands still when every thread has ended or sleeps for a swap slot. What it comes to then
depends on what its threads did before, so runs are considered here all of whose steps are of some
kind (`RunWith`). Whatever the steps are like, the wait for swap slots is in order after every run,
and all of it was a run of the ledger (`RunWith.invariant`).
-/

namespace DemandPaging

/-- Whether a thread sleeps for a swap slot, and nobody has woken it. -/
def Phase.isAsleep (woken : Ticket → Bool) : Phase → Bool
  | busy ⟨_, .faulting (.waiting _ _ (.sleeping (.asleep ticket))), _⟩ => !woken ticket
  | _ => false

theorem Phase.slotPart_of_isAsleep {phase : Phase} {woken : Ticket → Bool}
    (h : phase.isAsleep woken = true) :
    ∃ victim, phase.slotPart.standing woken = .dormant victim := by
  unfold isAsleep at h
  split at h
  · rename_i victim ticket _
    refine ⟨victim, if_neg ?_⟩
    rw [Bool.not_eq_true'] at h
    exact Bool.eq_false_iff.1 h
  · cases h

namespace Kernel

variable {σ : Type}

/-- Some thread sleeps for a swap slot, and nobody has woken it. -/
def HasSleeper (k : Kernel σ) : Prop := ∃ s ∈ k.sessions, s.phase.isAsleep k.woken = true

/-- No thread can go on: each one has ended or sleeps for a swap slot. -/
def StandsStill (k : Kernel σ) : Prop :=
  ∀ s ∈ k.sessions, s.phase = .ended ∨ s.phase.isAsleep k.woken = true

instance (k : Kernel σ) : Decidable k.HasSleeper :=
  inferInstanceAs (Decidable (∃ s ∈ k.sessions, s.phase.isAsleep k.woken = true))

instance (k : Kernel σ) : Decidable k.StandsStill :=
  inferInstanceAs (Decidable (∀ s ∈ k.sessions, s.phase = .ended ∨ s.phase.isAsleep k.woken = true))

/-- A thread waits for a swap slot, and nobody has woken it. -/
def WaitsUnwoken (k : Kernel σ) (n : Nat) : Prop :=
  ∃ s victim waiting, k.session n = some s ∧ s.phase.slotPart = .waiting victim waiting ∧
    waiting.isRoused k.woken = false

variable {k : Kernel σ}

theorem mem_standings_iff {x : Standing} : x ∈ k.ledger.standings ↔
    ∃ s ∈ k.sessions, s.phase.slotPart.standing k.woken = x := by
  show x ∈ (Multiset.range k.sessions.length).map (k.standing k.woken) ↔ _
  rw [Multiset.mem_map]
  constructor
  · rintro ⟨n, hn, rfl⟩
    have hs := List.getElem?_eq_getElem (Multiset.mem_range.1 hn)
    exact ⟨_, List.getElem_mem _, (standing_eq _ hs).symm⟩
  · rintro ⟨s, hs, rfl⟩
    obtain ⟨n, hs⟩ := List.mem_iff_getElem?.1 hs
    exact ⟨n, Multiset.mem_range.2 (List.getElem?_eq_some_iff.1 hs).1, standing_eq _ hs⟩

/-- Whoever waits unwoken is one whom the ledger has as dormant. -/
theorem exists_of_waited (h : k.ledger.Waited) : ∃ n, k.WaitsUnwoken n := by
  obtain ⟨victim, hmem⟩ := h
  obtain ⟨s, hs, hdormant⟩ := mem_standings_iff.1 hmem
  obtain ⟨n, hs⟩ := List.mem_iff_getElem?.1 hs
  obtain ⟨waiting, hpart, hroused⟩ := SlotPart.of_dormant hdormant
  exact ⟨n, s, victim, waiting, hs, hpart, hroused⟩

/-- Without threads no victim is kept. -/
theorem not_waitsWith_of_nil (h : k.sessions = []) {n f : Nat} : ¬ k.WaitsWith n f := by
  rintro ⟨s, hs, -⟩
  have hs : k.sessions[n]? = some s := hs
  rw [h] at hs
  cases hs

/-- Without threads nobody waits. -/
theorem not_waited_of_nil (h : k.sessions = []) : ¬ k.ledger.Waited := by
  rintro ⟨victim, hmem⟩
  obtain ⟨s, hs, -⟩ := mem_standings_iff.1 hmem
  rw [h] at hs
  cases hs

theorem HasSleeper.waited (h : k.HasSleeper) : k.ledger.Waited := by
  obtain ⟨s, hs, hasleep⟩ := h
  obtain ⟨victim, hdormant⟩ := Phase.slotPart_of_isAsleep hasleep
  exact ⟨victim, mem_standings_iff.2 ⟨s, hs, hdormant⟩⟩

namespace StandsStill

/-- A thread that has ended or sleeps speaks for no slot, and will wake nobody. -/
theorem standing (h : k.StandsStill) {x : Standing} (hx : x ∈ k.ledger.standings) :
    x = .owing 0 ∨ ∃ victim, x = .dormant victim := by
  obtain ⟨s, hs, rfl⟩ := mem_standings_iff.1 hx
  rcases h s hs with hended | hasleep
  · rw [hended]
    exact .inl rfl
  · exact .inr (Phase.slotPart_of_isAsleep hasleep)

theorem not_mourning (h : k.StandsStill) : .mourning ∉ k.ledger.standings := by
  intro hmem
  rcases h.standing hmem with heq | ⟨victim, heq⟩ <;> cases heq

theorem credit_eq (h : k.StandsStill) : k.ledger.credit = 0 := by
  refine Multiset.sum_eq_zero fun c hc => ?_
  obtain ⟨x, hx, rfl⟩ := Multiset.mem_map.1 hc
  rcases h.standing hx with rfl | ⟨victim, rfl⟩ <;> rfl

end StandsStill

/-! ## Runs of some kind -/

section Runs

variable [Extent σ]

/-- A run all of whose steps are of some kind. -/
inductive RunWith (P : Kernel σ → Event → Kernel σ → Prop) (k₀ : Kernel σ) :
    List (Event × Option (Response σ)) → Kernel σ → Prop where
  | nil : RunWith P k₀ [] k₀
  | step {trace : List (Event × Option (Response σ))} {k k' : Kernel σ} {e : Event}
      {r : Option (Response σ)} (h : RunWith P k₀ trace k) (he : e.isOrdinary = true)
      (hrun : k.perform e = some (.ok (r, k'))) (hstep : P k e k') :
      RunWith P k₀ (trace ++ [(e, r)]) k'

variable {P : Kernel σ → Event → Kernel σ → Prop} {k₀ k' : Kernel σ}
  {trace : List (Event × Option (Response σ))}

theorem RunWith.run (h : RunWith P k₀ trace k) : Run k₀ trace k := by
  induction h with
  | nil => exact .nil
  | step _ he hrun _ ih => exact ih.step he hrun

/-- In a kernel that has just been booted nobody waits. -/
theorem boot_slotWaits {c : Config} {extent : σ} (hboot : boot c extent = .ok (.ok k)) :
    k.SlotWaits ∧ k.sessions = [] := by
  obtain ⟨-, paging, -, rfl⟩ := exists_of_boot hboot
  have hnone : ∀ {α : Type} (f : Phase → α) (away : α),
      byThread { config := c, paging } f away = fun _ => away := by
    intro α f away
    funext t
    cases t <;> rfl
  refine ⟨⟨?_, ?_, rfl, ?_⟩, rfl⟩
  · rw [swapUse, hnone]
    exact .fresh
  · rw [tickets, hnone]
    exact .fresh
  · rintro n f ⟨s, hs, -⟩
    cases hs

omit [Extent σ] in
/-- Another frame table makes no difference to the wait, as long as every frame keeps its owner. -/
theorem SlotWaits.withFrames (h : k.SlotWaits) {frameTable : FrameTable}
    (howner : ∀ f, frameTable.owner f = k.paging.frameTable.owner f) :
    (k.withFrames frameTable).SlotWaits :=
  ⟨h.swap, h.queue, h.waiting_eq, fun n f hwaits id hid =>
    h.laden n f hwaits id ((howner f).symm.trans hid)⟩

/-- After every run with callers the wait for swap slots is in order. -/
theorem CallerRun.slotWaits [Extent.Reliable σ] {c : Config} {extent : σ}
    (hintact : Extent.Reliable.Intact extent) (hboot : boot c extent = .ok (.ok k₀))
    {check : Multiset Nat → Prop} {callers : Multiset Nat}
    (h : CallerRun check k₀ 0 trace callers k) : k.SlotWaits := by
  induction h with
  | nil => exact (boot_slotWaits hboot).1
  | step h he hrun ih =>
      obtain ⟨m, -, hsound⟩ := h.simulated hintact hboot
      exact (hsound.perform_accounted ih he hrun).waits
  | call h hcall _ ih =>
      obtain ⟨m, -, hsound⟩ := h.simulated hintact hboot
      obtain ⟨t, rfl, -, howner⟩ := hsound.callerStep_run hcall
      exact ih.withFrames howner

/-- After every run the wait for swap slots is in order. -/
theorem Run.slotWaits [Extent.Reliable σ] {c : Config} {extent : σ}
    (hintact : Extent.Reliable.Intact extent) (hboot : boot c extent = .ok (.ok k₀))
    (h : Run k₀ trace k) : k.SlotWaits :=
  CallerRun.slotWaits hintact hboot (h.uncalled (P := fun _ => True))

/-- What holds after the boot, and after every step that is of the kind and accounted for, holds
after every run of the kind. -/
theorem RunWith.invariant [Extent.Reliable σ] {c : Config} {extent : σ}
    (hintact : Extent.Reliable.Intact extent) (hboot : boot c extent = .ok (.ok k₀))
    {I : Kernel σ → Prop} (hinit : k₀.sessions = [] → I k₀)
    (hstep : ∀ {k k' m m' e r}, k.Sound m → FlatMachine.Step (σ := σ) m e r m' → k'.Sound m' →
      k.SlotWaits → Accounted (k.FindsGone e) (k.GivesBack e k') k k' → P k e k' → I k → I k')
    (h : RunWith P k₀ trace k) : (∃ m, k.Sound m) ∧ k.SlotWaits ∧ I k := by
  obtain ⟨m, -, hsound⟩ := h.run.simulated hintact hboot
  refine ⟨⟨m, hsound⟩, h.run.slotWaits hintact hboot, ?_⟩
  clear hsound
  induction h with
  | nil => exact hinit (boot_slotWaits hboot).2
  | step h he hrun hkind ih =>
      obtain ⟨m, -, hsound⟩ := h.run.simulated hintact hboot
      have hwaits := h.run.slotWaits hintact hboot
      obtain ⟨m', hflat, hsound', -⟩ := hsound.perform_run he hrun
      exact hstep hsound hflat hsound' hwaits (hsound.perform_accounted hwaits he hrun) hkind ih

/-! ## Small machines -/

variable {check : Kernel σ → Event → Kernel σ → Bool}

theorem RunWith.append {events : List Event} {done : List (Event × Option (Response σ))}
    (h : RunWith P k₀ done k) (he : ∀ e ∈ events, e.isOrdinary = true)
    (hcheck : ∀ k e k', check k e k' = true → P k e k')
    (hrun : k.performPassing check events = some (trace, k')) :
    RunWith P k₀ (done ++ trace) k' := by
  induction events generalizing k done trace with
  | nil =>
      obtain ⟨rfl, rfl⟩ := Prod.mk.inj (Option.some.inj hrun)
      rw [List.append_nil]
      exact h
  | cons e rest ih =>
      obtain ⟨r, k₁, trace₁, hperform, hpass, hrest, rfl⟩ := exists_of_performPassing_cons hrun
      have hstep := h.step (he e List.mem_cons_self) hperform (hcheck k e k₁ hpass)
      have hall := ih hstep (fun e he' => he e (List.mem_cons_of_mem _ he')) hrest
      rw [List.append_assoc] at hall
      exact hall

end Runs

/-- Whether a machine can be booted on an extent of zeros, and the events of a list are possible
there, in steps that pass a check. -/
def passesAlong (c : Config) (events : List Event)
    (check : Kernel MemoryExtent → Event → Kernel MemoryExtent → Bool) : Bool :=
  bootsTo c (⟨.zeros c.swapLength⟩ : MemoryExtent) fun k =>
    (k.performPassing check events).isSome

/-- What is found to hold along a list of events, and after it, holds of a run. -/
theorem runWith_of_passesAlong {c : Config} {events : List Event}
    {P : Kernel MemoryExtent → Event → Kernel MemoryExtent → Prop}
    {check : Kernel MemoryExtent → Event → Kernel MemoryExtent → Bool}
    {last : Kernel MemoryExtent → Bool} (he : ∀ e ∈ events, e.isOrdinary = true)
    (hcheck : ∀ k e k', check k e k' = true → P k e k')
    (hpass : passesAlong c events check = true) (hlast : holdsAfter c events last = true) :
    ∃ (k₀ k : Kernel MemoryExtent) (trace : List (Event × Option (Response MemoryExtent))),
      boot c (⟨.zeros c.swapLength⟩ : MemoryExtent) = .ok (.ok k₀) ∧
        k₀.performAll events = some (trace, k) ∧ RunWith P k₀ trace k ∧ last k = true := by
  obtain ⟨k₀, k, trace, hboot, hall, -, hk⟩ := run_of_holdsAfter he hlast
  obtain ⟨k₀', hboot', hpass⟩ := exists_of_bootsTo hpass
  obtain rfl := Except.ok.inj (Except.ok.inj (hboot.symm.trans hboot'))
  obtain ⟨result, hpassing⟩ := Option.isSome_iff_exists.1 hpass
  obtain rfl := Option.some.inj ((performAll_of_passing hpassing).symm.trans hall)
  exact ⟨k₀, k, trace, hboot, hall, RunWith.nil.append he hcheck hpassing, hk⟩

/-- A thread fills the only frame and the only slot of the small machine, and sleeps for another
slot. -/
def sleeperEvents : List Event :=
  [.spawn smallImage, .start 0, .advance 0, .advance 0, .ask 0 (.write 1 5)] ++
    List.replicate 4 (.advance 0) ++ [.ask 0 (.write 2 6)] ++ List.replicate 4 (.advance 0) ++
    [.ask 0 (.read 0)] ++ List.replicate 8 (.advance 0)

theorem sleeper_stands_still : holdsAfter smallConfig sleeperEvents
    (fun k => decide (k.StandsStill ∧ k.HasSleeper)) = true := by
  decide +kernel

end Kernel

end DemandPaging
