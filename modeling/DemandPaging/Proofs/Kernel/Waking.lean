import DemandPaging.Proofs.Kernel.Turns

/-!
# Waking those who wait

A thread that wakes others has the processor, so whoever waits and was not woken is inside the call
that sleeps. It has been counted there (`SlotWaits.not_dormant`), and once the thread has the swap
lock too it sleeps in the queue (`SlotWaits.asleep`). So a thread never wakes in vain while another
one waits (`SlotWaits.notify`).
-/

namespace DemandPaging.Kernel.SlotWaits

variable {σ : Type} {k k' : Kernel σ} {n i victim : Nat} {s t : Session} {phase : Phase}
  {old : SlotPart} {gone back : Prop}

/-! ## Who waits while another thread has the processor -/

/-- Whoever waits unwoken, while another thread has the processor, is about to sleep or sleeps. -/
theorem sleeping (hcpu : k.cpu.Serves k.cpuUse) (hs : k.sessions[n]? = some s)
    (hhold : s.phase.cpuUse = .holding) (hi : i ≠ n) (ht : k.sessions[i]? = some t)
    (hdormant : t.phase.slotPart.standing k.woken = .dormant victim) :
    ∃ sleeping, t.phase.slotPart = .waiting victim (.sleeping sleeping) ∧
      (Waiting.sleeping sleeping).isRoused k.woken = false := by
  obtain ⟨waiting, hpart, hroused⟩ := SlotPart.of_dormant hdormant
  have haway : waiting.cpuUse ≠ .holding := by
    rw [← Phase.cpuUse_of_waiting hpart, ← cpuUse_eq ht]
    intro hhold'
    have := hcpu.holder_unique hhold' ((cpuUse_eq hs).trans hhold)
    exact hi (Nat.succ.inj this)
  cases waiting with
  | sleeping sleeping => exact ⟨sleeping, hpart, hroused⟩
  | counting | locking _ | leaving => exact absurd rfl haway
  | unlocking | uncounting | returning _ | flushing => cases hroused

/-- When nobody is counted nobody waits unwoken. -/
theorem not_dormant (h : k.SlotWaits) (hcpu : k.cpu.Serves k.cpuUse)
    (hs : k.sessions[n]? = some s) (hhold : s.phase.cpuUse = .holding) (hzero : k.waiting = 0)
    (victim : Nat) : .dormant victim ∉ k.others k.woken n := by
  intro hmem
  obtain ⟨i, t, hi, ht, hdormant⟩ := mem_others_iff.1 hmem
  obtain ⟨sleeping, hpart, -⟩ := SlotWaits.sleeping hcpu hs hhold hi ht hdormant
  have hsum := h.waiting_eq
  rw [sum_map_eq _ ht, hpart] at hsum
  have hone : (SlotPart.waiting victim (.sleeping sleeping)).isCounted.toNat = 1 := rfl
  omega

/-- Whoever waits unwoken while another thread wakes, with the processor and the swap lock, sleeps
in the queue. -/
theorem asleep (h : k.SlotWaits) (hcpu : k.cpu.Serves k.cpuUse) (hs : k.sessions[n]? = some s)
    {left : Option Nat} (hold : s.phase.slotPart = .waking left .waking) (hi : i ≠ n)
    (ht : k.sessions[i]? = some t)
    (hdormant : t.phase.slotPart.standing k.woken = .dormant victim) :
    ∃ ticket, t.phase.slotPart = .waiting victim (.sleeping (.asleep ticket)) ∧
      ⟨threadOf i, ticket⟩ ∈ k.slotFreed.queue.waiters := by
  obtain ⟨sleeping, hpart, hroused⟩ :=
    SlotWaits.sleeping hcpu hs (Phase.cpuUse_of_waking hold) hi ht hdormant
  have haway : (SlotPart.waiting victim (.sleeping sleeping)).swapUse ≠ .holding := by
    rw [← swapUse_eq ht hpart]
    intro hhold'
    have := h.swap.holder_unique hhold' (swapUse_eq hs hold)
    exact hi (Nat.succ.inj this)
  cases sleeping with
  | asleep ticket =>
      refine ⟨ticket, hpart, (h.queue.placed _ ticket (tickets_eq ht hpart)).resolve_right ?_⟩
      intro hwoken
      have hroused : k.slotFreed.queue.isWoken ticket = false := hroused
      rw [TicketQueue.isWoken_iff.2 hwoken] at hroused
      cases hroused
  | entering | leaving _ => exact absurd rfl haway
  | returning _ => cases hroused

/-! ## Waking -/

/-- A thread in the queue waits unwoken, and goes on when its ticket is woken. -/
theorem standing_of_ticket {part : SlotPart} {ticket : Ticket} (h : part.ticket? = some ticket) :
    ∃ victim, ∀ woken : Ticket → Bool,
      part.standing woken = if woken ticket then .roused victim else .dormant victim := by
  cases part with
  | waiting victim waiting =>
      refine ⟨victim, fun woken => ?_⟩
      cases waiting with
      | sleeping sleeping =>
          cases sleeping with
          | leaving ticket' | asleep ticket' =>
              obtain rfl := Option.some.inj h
              rfl
          | _ => cases h
      | _ => cases h
  | _ => cases h

/-- Waking the thread that has slept longest: nobody waits, or one thread less. -/
theorem others_wakeOne (h : k.SlotWaits) (hcpu : k.cpu.Serves k.cpuUse)
    (hs : k.sessions[n]? = some s) {left : Option Nat}
    (hold : s.phase.slotPart = .waking left .waking) :
    k.slotFreed.queue.wakeOne.2.Serves k.tickets ∧
      ((∀ victim, .dormant victim ∉ k.others k.woken n) ∧
          k.others k.slotFreed.queue.wakeOne.2.isWoken n = k.others k.woken n ∨
        ∃ victim rest, k.others k.woken n = .dormant victim ::ₘ rest ∧
          k.others k.slotFreed.queue.wakeOne.2.isWoken n = .roused victim ::ₘ rest) := by
  rcases h.queue.wakeOne with ⟨hnone, hsame⟩ | ⟨w, hw, hheld, hnot, hserves, hwoken⟩
  · rw [hsame]
    refine ⟨h.queue, .inl ⟨fun victim hmem => ?_, rfl⟩⟩
    obtain ⟨i, t, hi, ht, hdormant⟩ := mem_others_iff.1 hmem
    obtain ⟨ticket, -, hqueued⟩ := h.asleep hcpu hs hold hi ht hdormant
    rw [hnone] at hqueued
    cases hqueued
  · refine ⟨hserves, .inr ?_⟩
    obtain ⟨i, t, hthread, ht, hticket⟩ := exists_of_byThread hheld nofun
    obtain ⟨victim, hstanding⟩ := standing_of_ticket hticket
    -- the thread that wakes another one is not in the queue itself
    have hi : i ≠ n := by
      rintro rfl
      obtain rfl := Option.some.inj (hs.symm.trans ht)
      rw [hold] at hticket
      cases hticket
    obtain ⟨rest, hrest⟩ := Multiset.exists_cons_of_mem (mem_erase_range_iff.2 ⟨hi, t, ht⟩)
    have hnodup := (Multiset.nodup_range k.sessions.length).erase n
    rw [hrest, Multiset.nodup_cons] at hnodup
    have hasleep : k.woken w.ticket = false := by
      rw [← Bool.not_eq_true]
      exact fun hw => hnot (TicketQueue.isWoken_iff.1 hw)
    refine ⟨victim, rest.map (k.standing k.woken), ?_, ?_⟩
    · rw [others, hrest, Multiset.map_cons, standing_eq _ ht, hstanding, hasleep]
      rfl
    · rw [others, hrest, Multiset.map_cons, standing_eq _ ht, hstanding, hwoken, decide_eq_true rfl]
      refine congrArg _ (Multiset.map_congr rfl fun j hj => ?_)
      -- nobody else has the ticket that was woken
      obtain ⟨-, u, hu⟩ := mem_erase_range_iff.1 (hrest ▸ Multiset.mem_cons_of_mem hj)
      rw [standing_eq _ hu, standing_eq _ hu]
      refine SlotPart.standing_congr fun ticket hj' => ?_
      have hne : ticket ≠ w.ticket := by
        rintro rfl
        have heq := h.queue.eq_of_held hw ((tickets_eq hu rfl).trans hj')
        rw [hthread] at heq
        obtain rfl : j = i := Nat.succ.inj heq
        exact hnodup.1 hj
      rw [hwoken, decide_eq_false hne]
      rfl

/-- Waking everyone. -/
theorem others_wakeAll (h : k.SlotWaits) (hcpu : k.cpu.Serves k.cpuUse)
    (hs : k.sessions[n]? = some s) {left : Option Nat}
    (hold : s.phase.slotPart = .waking left .waking) :
    k.slotFreed.queue.wakeAll.2.Serves k.tickets ∧
      k.others k.slotFreed.queue.wakeAll.2.isWoken n =
        (k.others k.woken n).map Standing.rouse := by
  obtain ⟨hserves, hwoken⟩ := h.queue.wakeAll
  refine ⟨hserves, ?_⟩
  rw [others, others, Multiset.map_map]
  refine Multiset.map_congr rfl fun i hi => ?_
  obtain ⟨hi, t, ht⟩ := mem_erase_range_iff.1 hi
  rw [Function.comp_apply, standing_eq _ ht, standing_eq _ ht]
  cases hticket : t.phase.slotPart.ticket? with
  | none =>
      have hsame : t.phase.slotPart.standing k.slotFreed.queue.wakeAll.2.isWoken =
          t.phase.slotPart.standing k.woken :=
        SlotPart.standing_congr fun ticket hsome => by cases hticket.symm.trans hsome
      rw [hsame]
      cases hstanding : t.phase.slotPart.standing k.woken with
      | dormant victim =>
          obtain ⟨ticket, hpart, -⟩ := h.asleep hcpu hs hold hi ht hstanding
          rw [hpart] at hticket
          cases hticket
      | _ => rfl
  | some ticket =>
      obtain ⟨victim, hstanding⟩ := standing_of_ticket hticket
      have hrouse : k.slotFreed.queue.wakeAll.2.isWoken ticket = true := by
        rw [hwoken, Bool.or_eq_true, decide_eq_true_eq]
        exact (h.queue.placed _ ticket ((tickets_eq ht rfl).trans hticket)).imp List.mem_map_of_mem
          TicketQueue.isWoken_iff.2
      rw [hstanding, hstanding, if_pos hrouse]
      split <;> rfl

/-! ## Steps of a thread that wakes others -/

/-- A thread wakes others, and they are the only ones for whom something changes. -/
theorem woke (h : k.SlotWaits) (hs : k.sessions[n]? = some s) {left : Option Nat}
    (hold : s.phase.slotPart = .waking left .waking)
    (hnew : phase.slotPart = .waking left .unlocking) {queue : TicketQueue}
    (hserves : queue.Serves k.tickets) {others : Multiset Standing}
    (hothers : k.others queue.isWoken n = others)
    (hstep : Ledger.Step gone back
      (k.paging.ledger ((SlotPart.waking left .waking).standing k.woken ::ₘ k.others k.woken n))
      (k.paging.ledger ((SlotPart.waking left .unlocking).standing queue.isWoken ::ₘ others))) :
    Accounted gone back k (Kernel.setPhase { k with slotFreed := ⟨queue⟩ } n phase) := by
  have hself : Function.update k.tickets (threadOf n) none = k.tickets :=
    Function.update_eq_self_iff.2 (tickets_eq hs hold).symm
  have hm : Moves k { k with slotFreed := ⟨queue⟩ } n s phase _ _ :=
    ⟨hs, rfl, hold, hnew, h.swap_same hs hold rfl rfl, hself.symm ▸ hserves, rfl⟩
  exact hm.accounted h (fun _ _ => id) nofun nofun (hothers.symm ▸ hstep)

/-- A thread that wakes one sleeper, or everyone, wakes whom it can: nobody is left waiting unwoken
whom it should have woken. -/
theorem notify (h : k.SlotWaits) (hcpu : k.cpu.Serves k.cpuUse) (hs : k.sessions[n]? = some s)
    {left : Option Nat} {notice : Notifying} (hold : s.phase.slotPart = .waking left notice)
    {next : Option Notifying}
    (hstep : k.notifyStep (threadOf n) left.isNone notice = some (.ok (next, k')))
    (hnew : phase.slotPart = next.elim (.afterNotice left) (.waking left)) :
    Accounted gone back k (k'.setPhase n phase) := by
  have hhold := Phase.cpuUse_of_waking hold
  have hidle := SlotPart.isIdle_afterNotice left
  cases notice with
  | checking =>
      obtain ⟨rfl, rfl⟩ := Prod.mk.inj (Except.ok.inj (Option.some.inj hstep))
      by_cases hzero : k.waiting = 0
      · rw [if_pos hzero] at hnew
        have hnone := h.not_dormant hcpu hs hhold hzero
        have hvictim := SlotPart.victim?_afterNotice left
        refine (h.moves_idle hs (.refl k) hold hnew rfl hidle).accounted h (fun _ _ => id)
          (fun f hf => nomatch hvictim.symm.trans hf) (fun f hf => nomatch hvictim.symm.trans hf) ?_
        show Ledger.Step gone back _
          (k.paging.ledger ((SlotPart.afterNotice left).standing _ ::ₘ _))
        rw [SlotPart.standing_afterNotice]
        cases left with
        | none =>
            have hstep : Ledger.Step gone back
                (k.paging.ledger (.mourning ::ₘ k.others k.woken n)) _ := .wakeAll
            rw [Standing.map_rouse hnone] at hstep
            exact hstep
        | some left => exact .vain hnone
      · rw [if_neg hzero] at hnew
        exact h.unlocked hs rfl rfl rfl hold hnew (.refl _) rfl rfl rfl (by cases left <;> rfl)
  | locking taking =>
      obtain ⟨next', swapLock, hacquire, rfl, rfl⟩ := takeSwapLock_ok hstep
      cases next' with
      | none =>
          exact h.acquire hs hold rfl hacquire hnew rfl rfl rfl (by cases left <;> rfl)
      | some taking' =>
          exact h.acquire hs hold rfl hacquire hnew rfl rfl rfl (by cases left <;> rfl)
  | waking =>
      obtain ⟨k1, hwake, heq⟩ := ok_of_map (Option.some.inj hstep)
      obtain ⟨rfl, rfl⟩ := Prod.mk.inj heq
      obtain rfl := wakeSleepers_ok hwake
      cases left with
      | none =>
          obtain ⟨hserves, hothers⟩ := h.others_wakeAll hcpu hs hold
          exact h.woke hs hold hnew hserves hothers .wakeAll
      | some left =>
          obtain ⟨hserves, ⟨hnone, hothers⟩ | ⟨victim, rest, hothers, hothers'⟩⟩ :=
            h.others_wakeOne hcpu hs hold
          · exact h.woke hs hold hnew hserves hothers (.vain hnone)
          · refine h.woke hs hold hnew hserves hothers' ?_
            rw [hothers]
            exact .wake
  | unlocking =>
      obtain ⟨k1, hleave, heq⟩ := ok_of_map (Option.some.inj hstep)
      obtain ⟨rfl, rfl⟩ := Prod.mk.inj heq
      obtain ⟨swapLock, hrelease, rfl⟩ := leaveSwapLock_ok hleave
      obtain ⟨huse, hticket, hcounted⟩ := SlotPart.isIdle_iff.1 hidle
      refine h.release hs hold rfl hrelease hnew huse hticket hcounted ?_
      show (SlotPart.afterNotice left).standing _ = _
      rw [SlotPart.standing_afterNotice]
      cases left <;> rfl

end DemandPaging.Kernel.SlotWaits
