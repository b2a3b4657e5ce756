import DemandPaging.Proofs.Kernel.Locks
import DemandPaging.Proofs.Kernel.Waits

/-!
# Steps of a thread, as those who wait see them

`Kernel.Accounted` says that a step keeps the wait for swap slots in order, and is a step of the
ledger. Of the steps of a thread most are not noticed by anyone who waits (`SlotWaits.quiet`). The
others settle a miss, end a process, or wake sleepers.
-/

namespace DemandPaging

namespace SlotPart

/-- What a thread has to do with the wait after a locked step of a miss. -/
def after : Except PagingError Paging.MissResult → SlotPart
  | .ok (.loaded 0) | .error _ => apart
  | .ok (.loaded (wakeUps + 1)) => waking (some wakeUps) .checking
  | .ok (.needsSlot victim) => waiting victim .counting

/-- What a thread has to do with the wait when it has woken whom it was to wake now. -/
def afterNotice : Option Nat → SlotPart
  | none | some 0 => apart
  | some (left + 1) => waking (some left) .checking

/-- Whether a thread has nothing to do with the swap lock and the queue, and is not counted. -/
def isIdle (part : SlotPart) : Bool :=
  part.swapUse = .away && part.ticket? = none && !part.isCounted

theorem isIdle_iff {part : SlotPart} : part.isIdle = true ↔
    part.swapUse = .away ∧ part.ticket? = none ∧ part.isCounted = false := by
  simp [isIdle, and_assoc]

variable {r : Except PagingError Paging.MissResult}

theorem isIdle_after : (after r).isIdle = true := by
  cases r with
  | error cause => rfl
  | ok result =>
      cases result with
      | loaded wakeUps => cases wakeUps <;> rfl
      | needsSlot victim => rfl

/-- Only a search that needs a slot leaves a victim behind. -/
theorem eq_of_victim?_after {f : Nat} (h : (after r).victim? = some f) :
    r = .ok (.needsSlot f) := by
  cases r with
  | error cause => cases h
  | ok result =>
      cases result with
      | loaded wakeUps => cases wakeUps <;> cases h
      | needsSlot victim =>
          obtain rfl := Option.some.inj h
          rfl

theorem standing_after_loaded (wakeUps : Nat) (woken : Ticket → Bool) :
    (after (.ok (.loaded wakeUps))).standing woken = .owing wakeUps := by
  cases wakeUps <;> rfl

theorem standing_afterNotice (left : Option Nat) (woken : Ticket → Bool) :
    (afterNotice left).standing woken = .owing (left.getD 0) := by
  cases left with
  | none => rfl
  | some left => cases left <;> rfl

theorem isIdle_afterNotice (left : Option Nat) : (afterNotice left).isIdle = true := by
  cases left with
  | none => rfl
  | some left => cases left <;> rfl

theorem victim?_afterNotice (left : Option Nat) : (afterNotice left).victim? = none := by
  cases left with
  | none => rfl
  | some left => cases left <;> rfl

end SlotPart

/-- What the handling of a miss has spent is a step of the ledger: what was meant for the thread, or
is left over for those whom it is to wake. -/
theorem Paging.Settled.step {σ : Type} {s s' : Paging σ} {wanted gone back : Prop}
    {pins : Multiset Nat} {r : Except PagingError MissResult} {x : Standing}
    {rest : Multiset Standing}
    (h : Settled wanted pins (x.credit fun f => (s.frameTable.owner f).isSome) s s' r)
    (hx : x.isSearching = true)
    (hspared : Ledger.Spared rest (fun f => (s.frameTable.owner f).isSome)
      fun f => (s'.frameTable.owner f).isSome)
    (hgone : ∀ cause, r = .error cause → x = .owing 0 ∧ wanted ∨ gone)
    (hback : (SlotPart.after r).victim? = none → ¬ wanted → back) (woken : Ticket → Bool) :
    Ledger.Step gone back (s.ledger (x ::ₘ rest))
      (s'.ledger ((SlotPart.after r).standing woken ::ₘ rest)) := by
  cases r with
  | error cause =>
      refine .settle hx hspared (fun hkept => ?_) fun hkept hframes => ?_
      · obtain ⟨rfl, hwanted⟩ := (hgone cause rfl).resolve_right hkept
        exact Nat.le_of_eq (congrArg List.length (h.2 hwanted).slots_eq)
      · have hwanted := not_not.1 fun hw => hkept (hback rfl hw)
        rw [(h.2 hwanted).frames_eq]
        exact hframes
  | ok result =>
      cases result with
      | loaded wakeUps =>
          obtain ⟨-, hslots, hfull⟩ := h
          have hnone : (SlotPart.after (.ok (.loaded wakeUps))).victim? = none := by
            cases wakeUps <;> rfl
          rw [SlotPart.standing_after_loaded]
          refine .settle hx hspared (fun _ => hslots) fun hkept hframes => ?_
          have hwanted := not_not.1 fun hw => hkept (hback hnone hw)
          exact List.length_eq_zero_iff.2 (hfull hwanted (List.length_eq_zero_iff.1 hframes))
      | needsSlot victim =>
          obtain ⟨hstill, hblocked⟩ := h
          rw [ledger, ledger, ← hstill.slots_eq, ← hstill.frames_eq, hblocked.slots_eq,
            hblocked.frames_eq]
          exact .sleep hx hspared hblocked.owned

namespace Kernel

variable {σ : Type}

/-- The process of a thread is alive. -/
def HasProcess (k : Kernel σ) (n : Nat) : Prop :=
  ∃ s p, k.session n = some s ∧ k.process s.process = some p ∧ p.exited = false

/-- A step is accounted for: after it the wait is in order, it is a step of the ledger, and nobody
has begun to wait whose process had ended. -/
structure Accounted (gone back : Prop) (k k' : Kernel σ) : Prop where
  waits : k'.SlotWaits
  step : Ledger.Step gone back k.ledger k'.ledger
  begins : ∀ i f, k'.WaitsWith i f → (∃ f', k.WaitsWith i f') ∨ k'.HasProcess i

/-- A thread comes from one phase into another. The swap lock and the queue serve it in its new
phase, and it is counted as it should be there. -/
structure Moves (k k' : Kernel σ) (n : Nat) (s : Session) (phase : Phase) (old new : SlotPart) :
    Prop where
  session : k.sessions[n]? = some s
  sessions_eq : k'.sessions = k.sessions
  old_eq : s.phase.slotPart = old
  new_eq : phase.slotPart = new
  swap : k'.swapLock.Serves (Function.update k.swapUse (threadOf n) new.swapUse)
  queue : k'.slotFreed.queue.Serves (Function.update k.tickets (threadOf n) new.ticket?)
  waiting_eq : k'.waiting + old.isCounted.toNat = k.waiting + new.isCounted.toNat

/-- Nobody has queued, or was woken or counted. -/
structure SameWaits (k k' : Kernel σ) : Prop where
  sessions_eq : k'.sessions = k.sessions
  swapLock_eq : k'.swapLock = k.swapLock
  slotFreed_eq : k'.slotFreed = k.slotFreed
  waiting_eq : k'.waiting = k.waiting

theorem SameWaits.refl (k : Kernel σ) : k.SameWaits k := ⟨rfl, rfl, rfl, rfl⟩

variable {k k' : Kernel σ} {n : Nat} {s : Session} {phase : Phase} {old new : SlotPart}
  {gone back : Prop}

theorem SameWaits.woken_eq (h : k.SameWaits k') : k'.woken = k.woken := by
  rw [woken, woken, h.slotFreed_eq]

/-- The victims of other threads have an owner after a step if they had one before. -/
theorem spared_others {paging : Paging σ} {woken : Ticket → Bool}
    (h : Paging.Spares (k.othersVictims n) k.paging paging) :
    Ledger.Spared (k.others woken n) (fun f => (k.paging.frameTable.owner f).isSome)
      fun f => (paging.frameTable.owner f).isSome := by
  intro x hx victim hvictim
  obtain ⟨i, t, hi, ht, rfl⟩ := mem_others_iff.1 hx
  rw [SlotPart.victim?_standing, Phase.victim?_slotPart] at hvictim
  exact congrArg Option.isSome
    (h.owner_eq victim (mem_othersVictims_iff.2 ⟨i, hi, t, ht, hvictim⟩))

namespace Moves

variable (hm : Moves k k' n s phase old new)
include hm

theorem session_eq : k'.sessions[n]? = some s := by
  rw [hm.sessions_eq]
  exact hm.session

/-- Who waits after a thread has come into another phase. -/
theorem waitsWith {i f : Nat} (h : (k'.setPhase n phase).WaitsWith i f) :
    i = n ∧ new.victim? = some f ∨ i ≠ n ∧ k.WaitsWith i f := by
  obtain ⟨t, ht, hf⟩ := h
  have ht : (k'.setPhase n phase).sessions[i]? = some t := ht
  rw [getElem?_setPhase, hm.sessions_eq] at ht
  by_cases hi : i = n
  · rw [if_pos hi, hm.session] at ht
    obtain rfl := Option.some.inj ht
    rw [← Phase.victim?_slotPart, hm.new_eq] at hf
    exact .inl ⟨hi, hf⟩
  · rw [if_neg hi] at ht
    exact .inr ⟨hi, t, ht, hf⟩

/-- Who waited has its victim until it goes on. -/
theorem waitsWith_old {f : Nat} (h : old.victim? = some f) : k.WaitsWith n f := by
  rw [← hm.old_eq, Phase.victim?_slotPart] at h
  exact ⟨s, hm.session, h⟩

/-- Who waits is queued and counted after a thread has come into another phase. -/
theorem slotWaits (h : k.SlotWaits)
    (hothers : ∀ f ∈ k.othersVictims n, k.paging.Laden f → k'.paging.Laden f)
    (hself : ∀ f, new.victim? = some f → k'.paging.Laden f) : (k'.setPhase n phase).SlotWaits := by
  refine ⟨?_, ?_, ?_, fun i f hf => ?_⟩
  · rw [swapUse, byThread_setPhase _ _ hm.session_eq, byThread_congr _ _ hm.sessions_eq, hm.new_eq]
    exact hm.swap
  · rw [tickets, byThread_setPhase _ _ hm.session_eq, byThread_congr _ _ hm.sessions_eq, hm.new_eq]
    exact hm.queue
  · -- the others are counted as before
    have hsum := h.waiting_eq
    have hwaiting := hm.waiting_eq
    rw [sum_map_eq _ hm.session, hm.old_eq] at hsum
    rw [sum_map_eq _ (getElem?_setPhase_self hm.session_eq phase), setPhase, eraseIdx_modify,
      hm.sessions_eq, hm.new_eq]
    show k'.waiting = new.isCounted.toNat + _
    omega
  · rcases hm.waitsWith hf with ⟨-, hf⟩ | ⟨hi, hf⟩
    · exact hself f hf
    · exact hothers f (mem_othersVictims_iff.2 ⟨i, hi, hf⟩) (h.laden i f hf)

/-- What is left to be shown of a step of a thread. -/
theorem accounted (h : k.SlotWaits)
    (hothers : ∀ f ∈ k.othersVictims n, k.paging.Laden f → k'.paging.Laden f)
    (hself : ∀ f, new.victim? = some f → k'.paging.Laden f)
    (hbegins : ∀ f, new.victim? = some f → old.victim? = none → (k'.setPhase n phase).HasProcess n)
    (hstep : Ledger.Step gone back (k.paging.ledger (old.standing k.woken ::ₘ k.others k.woken n))
      (k'.paging.ledger (new.standing k'.woken ::ₘ k.others k'.woken n))) :
    Accounted gone back k (k'.setPhase n phase) := by
  refine ⟨hm.slotWaits h hothers hself, ?_, fun i f hf => ?_⟩
  · rw [ledger_eq hm.session, hm.old_eq, ledger_setPhase hm.session_eq, hm.new_eq,
      others_congr hm.sessions_eq fun _ _ _ _ => rfl]
    exact hstep
  · rcases hm.waitsWith hf with ⟨rfl, hvictim⟩ | ⟨-, hf⟩
    · cases hnone : old.victim? with
      | none => exact .inr (hbegins f hvictim hnone)
      | some f' => exact .inl ⟨f', hm.waitsWith_old hnone⟩
    · exact .inl ⟨f, hf⟩

/-- A step that nobody who waits can notice. -/
theorem quiet (h : k.SlotWaits) (hstill : k.paging.Still k'.paging) (hwoken : k'.woken = k.woken)
    (hstanding : new.standing k.woken = old.standing k.woken) :
    Accounted gone back k (k'.setPhase n phase) := by
  have hvictim : new.victim? = old.victim? := by
    rw [← SlotPart.victim?_standing new k.woken, hstanding, SlotPart.victim?_standing]
  refine hm.accounted h (fun f _ => hstill.laden) (fun f hf => ?_) (fun f hf hnone => ?_) ?_
  · rw [hvictim] at hf
    exact hstill.laden (h.laden n f (hm.waitsWith_old hf))
  · rw [hvictim, hnone] at hf
    cases hf
  · rw [hwoken, hstanding, hstill.ledger_eq]
    exact .still _

end Moves

namespace SlotWaits

theorem swapUse_eq (hs : k.sessions[n]? = some s) (hold : s.phase.slotPart = old) :
    k.swapUse (threadOf n) = old.swapUse := by
  rw [← hold]
  exact byThread_eq _ _ hs

theorem tickets_eq (hs : k.sessions[n]? = some s) (hold : s.phase.slotPart = old) :
    k.tickets (threadOf n) = old.ticket? := by
  rw [← hold]
  exact byThread_eq _ _ hs

/-- The swap lock serves a thread that goes on as before. -/
theorem swap_same (h : k.SlotWaits) (hs : k.sessions[n]? = some s) (hold : s.phase.slotPart = old)
    (huse : new.swapUse = old.swapUse) (hlock : k'.swapLock = k.swapLock) :
    k'.swapLock.Serves (Function.update k.swapUse (threadOf n) new.swapUse) := by
  rw [huse, ← swapUse_eq hs hold, Function.update_eq_self, hlock]
  exact h.swap

/-- The queue of the sleepers serves a thread that goes on as before. -/
theorem queue_same (h : k.SlotWaits) (hs : k.sessions[n]? = some s) (hold : s.phase.slotPart = old)
    (hticket : new.ticket? = old.ticket?) (hqueue : k'.slotFreed = k.slotFreed) :
    k'.slotFreed.queue.Serves (Function.update k.tickets (threadOf n) new.ticket?) := by
  rw [hticket, ← tickets_eq hs hold, Function.update_eq_self, hqueue]
  exact h.queue

/-- A thread that does not use the swap lock and the queue moves on. -/
theorem moves (h : k.SlotWaits) (hs : k.sessions[n]? = some s)
    (hsessions : k'.sessions = k.sessions) (hlock : k'.swapLock = k.swapLock)
    (hqueue : k'.slotFreed = k.slotFreed) (hold : s.phase.slotPart = old)
    (hnew : phase.slotPart = new) (huse : new.swapUse = old.swapUse)
    (hticket : new.ticket? = old.ticket?)
    (hwaiting : k'.waiting + old.isCounted.toNat = k.waiting + new.isCounted.toNat) :
    Moves k k' n s phase old new :=
  ⟨hs, hsessions, hold, hnew, h.swap_same hs hold huse hlock, h.queue_same hs hold hticket hqueue,
    hwaiting⟩

/-- A thread moves on that has neither queued nor been counted. -/
theorem moves_idle (h : k.SlotWaits) (hs : k.sessions[n]? = some s) (hsame : k.SameWaits k')
    (hold : s.phase.slotPart = old) (hnew : phase.slotPart = new) (hidle : old.isIdle = true)
    (hidle' : new.isIdle = true) : Moves k k' n s phase old new := by
  obtain ⟨huse, hticket, hcounted⟩ := SlotPart.isIdle_iff.1 hidle
  obtain ⟨huse', hticket', hcounted'⟩ := SlotPart.isIdle_iff.1 hidle'
  refine h.moves hs hsame.sessions_eq hsame.swapLock_eq hsame.slotFreed_eq hold hnew
    (huse'.trans huse.symm) (hticket'.trans hticket.symm) ?_
  rw [hcounted, hcounted', hsame.waiting_eq]

/-- A thread that has nothing to do with the wait goes on like this. -/
theorem aside (h : k.SlotWaits) (hs : k.sessions[n]? = some s) (hsame : k.SameWaits k')
    (hold : s.phase.slotPart = .apart) (hnew : phase.slotPart = .apart)
    (hstill : k.paging.Still k'.paging) : Accounted gone back k (k'.setPhase n phase) :=
  (h.moves_idle hs hsame hold hnew rfl rfl).quiet h hstill hsame.woken_eq rfl

/-! ## The tables -/

/-- A search for a frame is over. What it has spent is what was meant for the thread, or left over
for those whom the thread is to wake. -/
theorem settled (h : k.SlotWaits) (hs : k.sessions[n]? = some s) (hsame : k.SameWaits k')
    (hold : s.phase.slotPart = old) (hwas : old = .apart ∨ ∃ victim, old = .resuming victim)
    {r : Except PagingError Paging.MissResult} (hnew : phase.slotPart = .after r) {wanted : Prop}
    {callers : Multiset Nat}
    (hsettled : Paging.Settled wanted (k.othersVictims n + callers)
      (old.victim?.elim 0 k.paging.due) k.paging k'.paging r)
    (hgone : ∀ cause, r = .error cause → old = .apart ∧ wanted ∨ gone)
    (hback : (SlotPart.after r).victim? = none → ¬ wanted → back)
    (hbegins : ∀ victim, r = .ok (.needsSlot victim) → old = .apart →
      (k'.setPhase n phase).HasProcess n) :
    Accounted gone back k (k'.setPhase n phase) := by
  -- the thread speaks for a slot if it was woken for one, and its victim still needs it
  obtain ⟨hidle, hsearching, hcredit⟩ : old.isIdle = true ∧
      (old.standing k.woken).isSearching = true ∧
      (old.standing k.woken).credit (fun f => (k.paging.frameTable.owner f).isSome) =
        old.victim?.elim 0 k.paging.due := by
    rcases hwas with rfl | ⟨victim, rfl⟩
    · exact ⟨rfl, rfl, rfl⟩
    · have hvictim : s.phase.victim? = some victim := by
        rw [← Phase.victim?_slotPart, hold]
        rfl
      exact ⟨rfl, rfl, ((h.laden n victim ⟨s, hs, hvictim⟩).due_eq).symm⟩
  have hspares := hsettled.spares.mono fun f (hf : f ∈ k.othersVictims n) =>
    Multiset.mem_add.2 (.inl hf)
  have hm := h.moves_idle hs hsame hold hnew hidle SlotPart.isIdle_after
  refine hm.accounted h hspares.laden (fun f hf => ?_) (fun f hf hnone => ?_) ?_
  · obtain rfl := SlotPart.eq_of_victim?_after hf
    exact hsettled.2.laden
  · refine hbegins f (SlotPart.eq_of_victim?_after hf) (hwas.resolve_right ?_)
    rintro ⟨victim, rfl⟩
    cases hnone
  · rw [← hcredit] at hsettled
    rw [hsame.woken_eq]
    refine hsettled.step hsearching (spared_others hspares) (fun cause hr => ?_) hback k.woken
    refine (hgone cause hr).imp_left ?_
    rintro ⟨rfl, hwanted⟩
    exact ⟨rfl, hwanted⟩

/-- A thread has ended its process, and is about to wake everyone. -/
theorem mourned (h : k.SlotWaits) (hs : k.sessions[n]? = some s) (hsame : k.SameWaits k')
    (hold : s.phase.slotPart = .apart) (hnew : phase.slotPart = .waking none .checking)
    (hladen : ∀ f, k.paging.Laden f → k'.paging.Laden f) :
    Accounted gone back k (k'.setPhase n phase) := by
  refine (h.moves_idle hs hsame hold hnew rfl rfl).accounted h (fun f _ => hladen f) nofun nofun ?_
  rw [hsame.woken_eq]
  exact .mourn

/-! ## Waiting -/

/-- A step that has to do with neither the swap lock nor the queue of the sleepers. -/
theorem unlocked (h : k.SlotWaits) (hs : k.sessions[n]? = some s)
    (hsessions : k'.sessions = k.sessions) (hlock : k'.swapLock = k.swapLock)
    (hqueue : k'.slotFreed = k.slotFreed) (hold : s.phase.slotPart = old)
    (hnew : phase.slotPart = new) (hstill : k.paging.Still k'.paging)
    (huse : new.swapUse = old.swapUse) (hticket : new.ticket? = old.ticket?)
    (hwaiting : k'.waiting + old.isCounted.toNat = k.waiting + new.isCounted.toNat)
    (hstanding : new.standing k.woken = old.standing k.woken) :
    Accounted gone back k (k'.setPhase n phase) := by
  refine (h.moves hs hsessions hlock hqueue hold hnew huse hticket hwaiting).quiet h hstill ?_
    hstanding
  rw [woken, woken, hqueue]

/-- A thread that takes the swap lock, or has it now. -/
theorem acquire (h : k.SlotWaits) (hs : k.sessions[n]? = some s) (hold : s.phase.slotPart = old)
    {taking : Acquiring} {next : Option Acquiring} {swapLock : SleepLock}
    (huse : old.swapUse = .of (some taking))
    (hacquire : k.swapLock.acquire (threadOf n) taking = some (.ok (next, swapLock)))
    (hnew : phase.slotPart = new) (huse' : new.swapUse = .of next)
    (hticket : new.ticket? = old.ticket?) (hcounted : new.isCounted = old.isCounted)
    (hstanding : new.standing k.woken = old.standing k.woken) :
    Accounted gone back k (Kernel.setPhase { k with swapLock } n phase) := by
  have hswap := h.swap.acquire ((swapUse_eq hs hold).trans huse) hacquire
  rw [← huse'] at hswap
  have hm : Moves k { k with swapLock } n s phase old new :=
    ⟨hs, rfl, hold, hnew, hswap, h.queue_same hs hold hticket rfl, by rw [hcounted]⟩
  exact hm.quiet h (.refl _) rfl hstanding

/-- A thread that gives the swap lock back. -/
theorem release (h : k.SlotWaits) (hs : k.sessions[n]? = some s) (hold : s.phase.slotPart = old)
    {swapLock : SleepLock} (huse : old.swapUse = .holding)
    (hrelease : k.swapLock.release (threadOf n) = .ok swapLock)
    (hnew : phase.slotPart = new) (huse' : new.swapUse = .away)
    (hticket : new.ticket? = old.ticket?) (hcounted : new.isCounted = old.isCounted)
    (hstanding : new.standing k.woken = old.standing k.woken) :
    Accounted gone back k (Kernel.setPhase { k with swapLock } n phase) := by
  have hswap := h.swap.release ((swapUse_eq hs hold).trans huse) hrelease
  rw [← huse'] at hswap
  have hm : Moves k { k with swapLock } n s phase old new :=
    ⟨hs, rfl, hold, hnew, hswap, h.queue_same hs hold hticket rfl, by rw [hcounted]⟩
  exact hm.quiet h (.refl _) rfl hstanding

/-- A thread that sleeps is queued before it gives the swap lock back, and leaves the queue when it
is woken. -/
theorem sleep (h : k.SlotWaits) (hs : k.sessions[n]? = some s) {victim : Nat} {sleeping : Sleeping}
    (hold : s.phase.slotPart = .waiting victim (.sleeping sleeping)) {next : Option Sleeping}
    {slotFreed : Condition} {swapLock : SleepLock}
    (hsleep : k.slotFreed.sleep k.swapLock (threadOf n) sleeping =
      some (.ok (next, slotFreed, swapLock)))
    (hnew : phase.slotPart = .waiting victim (next.elim .unlocking .sleeping)) :
    Accounted gone back k (Kernel.setPhase { k with slotFreed, swapLock } n phase) := by
  cases sleeping with
  | entering =>
      obtain ⟨⟨ticket, queue⟩, hpush, heq⟩ := ok_of_bind (whileHolding_ok (Option.some.inj hsleep))
      obtain ⟨rfl, hrest⟩ := Prod.mk.inj (Except.ok.inj heq)
      obtain ⟨rfl, rfl⟩ := Prod.mk.inj hrest
      obtain ⟨hqueue, hwoken, hnot⟩ := h.queue.push (tickets_eq hs hold) hpush
      have hm : Moves k { k with slotFreed := ⟨queue⟩ } n s phase _ _ :=
        ⟨hs, rfl, hold, hnew, h.swap_same hs hold rfl rfl, hqueue, rfl⟩
      -- its ticket is new, so nobody can have woken it
      exact hm.quiet h (.refl _) hwoken (if_neg (Bool.eq_false_iff.1 hnot))
  | leaving ticket =>
      obtain ⟨lock, hrelease, heq⟩ := ok_of_bind (Option.some.inj hsleep)
      obtain ⟨rfl, hrest⟩ := Prod.mk.inj (Except.ok.inj heq)
      obtain ⟨rfl, rfl⟩ := Prod.mk.inj hrest
      exact h.release hs hold rfl hrelease hnew rfl rfl rfl rfl
  | asleep ticket =>
      rw [Condition.sleep] at hsleep
      split at hsleep
      · rename_i hwoken
        obtain ⟨rfl, hrest⟩ := Prod.mk.inj (Except.ok.inj (Option.some.inj hsleep))
        obtain ⟨rfl, rfl⟩ := Prod.mk.inj hrest
        have hm : Moves k k n s phase _ _ := ⟨hs, rfl, hold, hnew, h.swap_same hs hold rfl rfl,
          h.queue.leave (tickets_eq hs hold) hwoken, rfl⟩
        exact hm.quiet h (.refl _) rfl (if_pos hwoken).symm
      · cases hsleep
  | returning taking =>
      obtain ⟨⟨next', lock⟩, hacquire, heq⟩ := step_of_map hsleep fun halt => ⟨halt, rfl⟩
      obtain ⟨rfl, hrest⟩ := Prod.mk.inj (Except.ok.inj heq)
      obtain ⟨rfl, rfl⟩ := Prod.mk.inj hrest
      cases next' with
      | none => exact h.acquire hs hold rfl hacquire hnew rfl rfl rfl rfl
      | some taking' => exact h.acquire hs hold rfl hacquire hnew rfl rfl rfl rfl

/-- No step of a thread that waits is noticed by others: it is counted before it sleeps, and goes on
only when it was woken. -/
theorem wait (h : k.SlotWaits) (hs : k.sessions[n]? = some s) {victim : Nat} {waiting : Waiting}
    (hold : s.phase.slotPart = .waiting victim waiting) {next : Option Waiting}
    (hstep : k.waitStep (threadOf n) waiting = some (.ok (next, k')))
    (hnew : phase.slotPart = next.elim (.resuming victim) (.waiting victim)) :
    Accounted gone back k (k'.setPhase n phase) := by
  cases waiting with
  | counting =>
      obtain ⟨rfl, rfl⟩ := Prod.mk.inj (Except.ok.inj (Option.some.inj hstep))
      exact h.unlocked hs rfl rfl rfl hold hnew (.refl _) rfl rfl rfl rfl
  | locking taking =>
      obtain ⟨next', swapLock, hacquire, rfl, rfl⟩ := takeSwapLock_ok hstep
      cases next' with
      | none => exact h.acquire hs hold rfl hacquire hnew rfl rfl rfl rfl
      | some taking' => exact h.acquire hs hold rfl hacquire hnew rfl rfl rfl rfl
  | leaving =>
      obtain ⟨k1, hleave, heq⟩ := ok_of_map (Option.some.inj hstep)
      obtain ⟨rfl, rfl⟩ := Prod.mk.inj heq
      obtain ⟨cpu, -, rfl⟩ := leaveCpu_ok hleave
      exact h.unlocked hs rfl rfl rfl hold hnew (.refl _) rfl rfl rfl rfl
  | sleeping sleeping =>
      obtain ⟨⟨next', slotFreed, swapLock⟩, hsleep, heq⟩ :=
        step_of_map hstep fun halt => ⟨halt, rfl⟩
      obtain ⟨rfl, rfl⟩ := Prod.mk.inj (Except.ok.inj heq)
      refine h.sleep hs hold hsleep ?_
      rw [hnew]
      cases next' <;> rfl
  | unlocking =>
      obtain ⟨k1, hleave, heq⟩ := ok_of_map (Option.some.inj hstep)
      obtain ⟨rfl, rfl⟩ := Prod.mk.inj heq
      obtain ⟨swapLock, hrelease, rfl⟩ := leaveSwapLock_ok hleave
      exact h.release hs hold rfl hrelease hnew rfl rfl rfl rfl
  | uncounting =>
      obtain ⟨rfl, rfl⟩ := Prod.mk.inj (Except.ok.inj (Option.some.inj hstep))
      refine h.unlocked hs rfl rfl rfl hold hnew (.refl _) rfl rfl ?_ rfl
      -- the thread is one of those that are counted
      have hsum := h.waiting_eq
      rw [sum_map_eq _ hs, hold] at hsum
      have hone : (SlotPart.waiting victim .uncounting).isCounted.toNat = 1 := rfl
      show k.waiting - 1 + 1 = k.waiting + 0
      omega
  | returning taking =>
      obtain ⟨next', cpu, -, rfl, rfl⟩ := takeCpu_ok hstep
      cases next' with
      | none => exact h.unlocked hs rfl rfl rfl hold hnew (.refl _) rfl rfl rfl rfl
      | some taking' => exact h.unlocked hs rfl rfl rfl hold hnew (.refl _) rfl rfl rfl rfl
  | flushing =>
      obtain ⟨rfl, rfl⟩ := Prod.mk.inj (Except.ok.inj (Option.some.inj hstep))
      exact h.unlocked hs rfl rfl rfl hold hnew (.of_eq rfl rfl rfl) rfl rfl rfl rfl

end SlotWaits

end Kernel

end DemandPaging
