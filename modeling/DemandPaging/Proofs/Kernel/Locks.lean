import DemandPaging.Kernel.MissHandling
import DemandPaging.Proofs.Kernel.Sound
import DemandPaging.Proofs.Results

/-!
# Steps that only take and give back locks

What a thread does with the processor, the swap lock and the condition for free slots leaves the
tables and the other threads alone, and the processor's lock goes on to serve everybody. What it
does to the tables, it does while they are locked.
-/

namespace DemandPaging.Kernel

/-! ## Locks -/

variable {σ α : Type} {k k' : Kernel σ} {thread : ThreadId}

/-- An action on the tables, with the tables locked. Nobody is inside the region before or
after. -/
theorem locked_eq (hfree : k.region = {}) (act : PagingM σ α) :
    k.locked thread act = some ((act k.paging).map fun x => (x.1, { k with paging := x.2 })) := by
  have hleave : CriticalRegion.leave ⟨⟨some thread, 1⟩, true⟩ thread = (.ok (), {}) := by
    simp [CriticalRegion.leave, Interrupts.enable, Interrupts.areOff]
  have henter : CriticalRegion.enter {} thread = some (.ok (), ⟨⟨some thread, 1⟩, true⟩) := rfl
  rw [locked, hfree, henter, ← hfree]
  cases act k.paging with
  | error halt => rfl
  | ok x =>
      rw [Option.map_some]
      simp only [bind, Except.bind, hleave, hfree]
      rfl

theorem locked_ok (hfree : k.region = {}) {act : PagingM σ α} {r : Except PagingError α}
    (h : k.locked thread act = some (.ok (r, k'))) :
    ∃ paging, act k.paging = .ok (r, paging) ∧ k' = { k with paging } := by
  rw [locked_eq hfree] at h
  obtain ⟨⟨r', paging⟩, hact, h⟩ := ok_of_map (Option.some.inj h)
  obtain ⟨rfl, rfl⟩ := Prod.mk.inj h
  exact ⟨paging, hact, rfl⟩

theorem takeCpu_ok {phase : Acquiring} {during : Acquiring → α} {whenTaken x : α}
    (h : k.takeCpu thread phase during whenTaken = some (.ok (x, k'))) :
    ∃ next cpu, k.cpu.acquire thread phase = some (.ok (next, cpu)) ∧
      x = next.elim whenTaken during ∧ k' = { k with cpu } := by
  obtain ⟨⟨next, cpu⟩, hacquire, h⟩ := step_of_map h fun halt => ⟨halt, rfl⟩
  obtain ⟨rfl, rfl⟩ := Prod.mk.inj (Except.ok.inj h)
  exact ⟨next, cpu, hacquire, rfl, rfl⟩

theorem takeSwapLock_ok {phase : Acquiring} {during : Acquiring → α} {whenTaken x : α}
    (h : k.takeSwapLock thread phase during whenTaken = some (.ok (x, k'))) :
    ∃ next swapLock, k.swapLock.acquire thread phase = some (.ok (next, swapLock)) ∧
      x = next.elim whenTaken during ∧ k' = { k with swapLock } := by
  obtain ⟨⟨next, swapLock⟩, hacquire, h⟩ := step_of_map h fun halt => ⟨halt, rfl⟩
  obtain ⟨rfl, rfl⟩ := Prod.mk.inj (Except.ok.inj h)
  exact ⟨next, swapLock, hacquire, rfl, rfl⟩

theorem leaveCpu_ok (h : k.leaveCpu thread = .ok k') :
    ∃ cpu, k.cpu.release thread = .ok cpu ∧ k' = { k with cpu } := by
  obtain ⟨cpu, hrelease, rfl⟩ := ok_of_map h
  exact ⟨cpu, hrelease, rfl⟩

theorem leaveSwapLock_ok (h : k.leaveSwapLock thread = .ok k') :
    ∃ swapLock, k.swapLock.release thread = .ok swapLock ∧ k' = { k with swapLock } := by
  obtain ⟨swapLock, hrelease, rfl⟩ := ok_of_map h
  exact ⟨swapLock, hrelease, rfl⟩

theorem whileHolding_ok {lock : SleepLock} {act : Except Halt α} {x : α}
    (h : Condition.whileHolding lock thread act = .ok x) : act = .ok x := by
  rw [Condition.whileHolding] at h
  split at h
  · exact h
  · cases h

theorem wakeSleepers_ok {everyone : Bool} (h : k.wakeSleepers thread everyone = .ok k') :
    k' = { k with slotFreed := ⟨if everyone then k.slotFreed.queue.wakeAll.2
      else k.slotFreed.queue.wakeOne.2⟩ } := by
  cases everyone with
  | true =>
      obtain ⟨⟨_, slotFreed⟩, hwake, rfl⟩ := ok_of_map h
      obtain ⟨-, rfl⟩ := Prod.mk.inj (Except.ok.inj (whileHolding_ok hwake))
      rfl
  | false =>
      obtain ⟨⟨_, slotFreed⟩, hwake, rfl⟩ := ok_of_map h
      obtain ⟨-, rfl⟩ := Prod.mk.inj (Except.ok.inj (whileHolding_ok hwake))
      rfl

/-- A thread wakes others: nothing but locks. -/
theorem notifyStep_ok {everyone : Bool} {phase : Notifying} {next : Option Notifying}
    (h : k.notifyStep thread everyone phase = some (.ok (next, k'))) :
    k.SameThreads k' ∧ k'.paging = k.paging ∧ k'.cpu = k.cpu := by
  cases phase with
  | checking =>
      obtain ⟨-, rfl⟩ := Prod.mk.inj (Except.ok.inj (Option.some.inj h))
      exact ⟨⟨rfl, rfl, rfl, rfl, rfl⟩, rfl, rfl⟩
  | locking phase =>
      obtain ⟨_, _, -, -, rfl⟩ := takeSwapLock_ok h
      exact ⟨⟨rfl, rfl, rfl, rfl, rfl⟩, rfl, rfl⟩
  | waking =>
      obtain ⟨k1, hwake, h⟩ := ok_of_map (Option.some.inj h)
      obtain ⟨-, rfl⟩ := Prod.mk.inj h
      obtain rfl := wakeSleepers_ok hwake
      exact ⟨⟨rfl, rfl, rfl, rfl, rfl⟩, rfl, rfl⟩
  | unlocking =>
      obtain ⟨k1, hleave, h⟩ := ok_of_map (Option.some.inj h)
      obtain ⟨-, rfl⟩ := Prod.mk.inj h
      obtain ⟨_, -, rfl⟩ := leaveSwapLock_ok hleave
      exact ⟨⟨rfl, rfl, rfl, rfl, rfl⟩, rfl, rfl⟩

/-- A thread that waits for a slot takes and gives back locks, until at last it empties the
cache. -/
theorem waitStep_ok {use : ThreadId → LockUse} (hserves : k.cpu.Serves use) {phase : Waiting}
    (huse : use thread = phase.cpuUse) {next : Option Waiting}
    (h : k.waitStep thread phase = some (.ok (next, k'))) :
    phase = .flushing ∧ next = none ∧ k' = k.flush ∨
      ∃ phase', next = some phase' ∧ k.SameThreads k' ∧ k'.paging = k.paging ∧
        k'.cpu.Serves (Function.update use thread phase'.cpuUse) := by
  -- the processor's lock stays as it is while the thread's use of it does
  have hstay : ∀ {u : LockUse}, use thread = u →
      k.cpu.Serves (Function.update use thread u) := by
    rintro u rfl
    rw [Function.update_eq_self]
    exact hserves
  cases phase with
  | counting =>
      obtain ⟨rfl, rfl⟩ := Prod.mk.inj (Except.ok.inj (Option.some.inj h))
      exact .inr ⟨_, rfl, ⟨rfl, rfl, rfl, rfl, rfl⟩, rfl, hstay huse⟩
  | locking phase =>
      obtain ⟨next, swapLock, -, rfl, rfl⟩ := takeSwapLock_ok h
      cases next with
      | none => exact .inr ⟨_, rfl, ⟨rfl, rfl, rfl, rfl, rfl⟩, rfl, hstay huse⟩
      | some phase' => exact .inr ⟨_, rfl, ⟨rfl, rfl, rfl, rfl, rfl⟩, rfl, hstay huse⟩
  | leaving =>
      obtain ⟨k1, hleave, h⟩ := ok_of_map (Option.some.inj h)
      obtain ⟨rfl, rfl⟩ := Prod.mk.inj h
      obtain ⟨cpu, hrelease, rfl⟩ := leaveCpu_ok hleave
      exact .inr ⟨_, rfl, ⟨rfl, rfl, rfl, rfl, rfl⟩, rfl, hserves.release huse hrelease⟩
  | sleeping phase =>
      obtain ⟨⟨next, slotFreed, swapLock⟩, -, h⟩ := step_of_map h fun halt => ⟨halt, rfl⟩
      obtain ⟨rfl, rfl⟩ := Prod.mk.inj (Except.ok.inj h)
      cases next with
      | none => exact .inr ⟨_, rfl, ⟨rfl, rfl, rfl, rfl, rfl⟩, rfl, hstay huse⟩
      | some phase' => exact .inr ⟨_, rfl, ⟨rfl, rfl, rfl, rfl, rfl⟩, rfl, hstay huse⟩
  | unlocking =>
      obtain ⟨k1, hleave, h⟩ := ok_of_map (Option.some.inj h)
      obtain ⟨rfl, rfl⟩ := Prod.mk.inj h
      obtain ⟨swapLock, -, rfl⟩ := leaveSwapLock_ok hleave
      exact .inr ⟨_, rfl, ⟨rfl, rfl, rfl, rfl, rfl⟩, rfl, hstay huse⟩
  | uncounting =>
      obtain ⟨rfl, rfl⟩ := Prod.mk.inj (Except.ok.inj (Option.some.inj h))
      exact .inr ⟨_, rfl, ⟨rfl, rfl, rfl, rfl, rfl⟩, rfl, hstay huse⟩
  | returning phase =>
      obtain ⟨next, cpu, hacquire, rfl, rfl⟩ := takeCpu_ok h
      have hcpu := hserves.acquire huse hacquire
      cases next with
      | none => exact .inr ⟨_, rfl, ⟨rfl, rfl, rfl, rfl, rfl⟩, rfl, hcpu⟩
      | some phase' => exact .inr ⟨_, rfl, ⟨rfl, rfl, rfl, rfl, rfl⟩, rfl, hcpu⟩
  | flushing =>
      obtain ⟨rfl, rfl⟩ := Prod.mk.inj (Except.ok.inj (Option.some.inj h))
      exact .inl ⟨rfl, rfl, rfl⟩

/-! ## Parts of a miss -/

section Parts

variable [Extent σ] {p : UserProcess} {r : Except PagingError (Option Faulting)}

theorem missing_ok {a : Nat} (hfree : k.region = {})
    (hfault : k.faultStep thread p (.missing a) = some (.ok (r, k'))) :
    ∃ outcome paging, Paging.handleMiss p a k.paging = .ok (outcome, paging) ∧
      r = outcome.map (Faulting.after (Address.page k.config.pageSize a)) ∧
      k' = { k with paging } := by
  obtain ⟨⟨outcome, k1⟩, hlocked, heq⟩ := step_of_map hfault fun halt => ⟨halt, rfl⟩
  obtain ⟨rfl, rfl⟩ := Prod.mk.inj (Except.ok.inj heq)
  obtain ⟨paging, hact, rfl⟩ := locked_ok hfree hlocked
  exact ⟨outcome, paging, hact, rfl, rfl⟩

theorem resuming_ok {page victim : Nat} (hfree : k.region = {})
    (hfault : k.faultStep thread p (.resuming page victim) = some (.ok (r, k'))) :
    ∃ outcome paging, Paging.resumeFault p page victim k.paging = .ok (outcome, paging) ∧
      r = outcome.map (Faulting.after page) ∧ k' = { k with paging } := by
  obtain ⟨⟨outcome, k1⟩, hlocked, heq⟩ := step_of_map hfault fun halt => ⟨halt, rfl⟩
  obtain ⟨rfl, rfl⟩ := Prod.mk.inj (Except.ok.inj heq)
  obtain ⟨paging, hact, rfl⟩ := locked_ok hfree hlocked
  exact ⟨outcome, paging, hact, rfl, rfl⟩

theorem waiting_ok {page victim : Nat} {phase : Waiting}
    (hfault : k.faultStep thread p (.waiting page victim phase) = some (.ok (r, k'))) :
    ∃ next, k.waitStep thread phase = some (.ok (next, k')) ∧
      r = .ok (some (next.elim (.resuming page victim) (.waiting page victim))) := by
  obtain ⟨⟨next, k1⟩, hwait, heq⟩ := step_of_map hfault fun halt => ⟨halt, rfl⟩
  obtain ⟨rfl, rfl⟩ := Prod.mk.inj (Except.ok.inj heq)
  exact ⟨next, hwait, rfl⟩

theorem notifying_ok {left : Nat} {phase : Notifying}
    (hfault : k.faultStep thread p (.notifying left phase) = some (.ok (r, k'))) :
    ∃ next, k.notifyStep thread false phase = some (.ok (next, k')) ∧
      r = .ok (next.elim (Faulting.afterNotice left) (some ∘ .notifying left)) := by
  obtain ⟨⟨next, k1⟩, hnotify, heq⟩ := step_of_map hfault fun halt => ⟨halt, rfl⟩
  obtain ⟨rfl, rfl⟩ := Prod.mk.inj (Except.ok.inj heq)
  exact ⟨next, hnotify, rfl⟩

end Parts

end DemandPaging.Kernel
