import DemandPaging.Sync.TicketQueue
import Mathlib.Data.List.Nodup
import Mathlib.Logic.Function.Basic

/-!
# Who has a ticket waits, or was woken

`TicketQueue.Serves` ties a queue to the tickets that threads hold: a thread with a ticket stands in
the queue until it is woken, and the queue has nobody else in it. Waking the first thread, or all of
them, moves tickets from the queue to those that are woken, and changes nothing else.
-/

namespace DemandPaging.TicketQueue

/-- The queue agrees with the tickets that threads hold. -/
structure Serves (q : TicketQueue) (held : ThreadId → Option Ticket) : Prop where
  placed : ∀ t ticket, held t = some ticket → ⟨t, ticket⟩ ∈ q.waiters ∨ ticket ∈ q.woken
  held_of_waiter : ∀ w ∈ q.waiters, held w.thread = some w.ticket
  -- a ticket is waited with or woken, never both
  asleep : ∀ w ∈ q.waiters, w.ticket ∉ q.woken
  tickets_nodup : (q.waiters.map Waiter.ticket).Nodup
  waiting_lt : ∀ w ∈ q.waiters, w.ticket < q.issued
  woken_lt : ∀ ticket ∈ q.woken, ticket < q.issued

theorem isWoken_iff {q : TicketQueue} {ticket : Ticket} :
    q.isWoken ticket = true ↔ ticket ∈ q.woken := by
  simp [isWoken]

theorem contains_iff {q : TicketQueue} {t : ThreadId} :
    q.contains t = true ↔ ∃ w ∈ q.waiters, w.thread = t := by
  simp [contains]

theorem push_ok {q q' : TicketQueue} {t : ThreadId} {ticket : Ticket}
    (h : q.push t = .ok (ticket, q')) :
    ticket = q.issued ∧ q' = { q with
      waiters := q.waiters ++ [⟨t, q.issued⟩], issued := q.issued + 1 } := by
  rw [push] at h
  split at h
  · cases h
  · obtain ⟨rfl, rfl⟩ := Prod.mk.inj (Except.ok.inj h)
    exact ⟨rfl, rfl⟩

/-- Waking some threads adds their tickets to those that are woken. -/
theorem foldl_wake (waiters : List Waiter) (q : TicketQueue) :
    (waiters.foldl wake q).waiters = q.waiters ∧ (waiters.foldl wake q).issued = q.issued ∧
      ∀ ticket, ticket ∈ (waiters.foldl wake q).woken ↔
        ticket ∈ waiters.map Waiter.ticket ∨ ticket ∈ q.woken := by
  induction waiters generalizing q with
  | nil => simp
  | cons w rest ih =>
      obtain ⟨hwaiters, hissued, hwoken⟩ := ih (q.wake w)
      refine ⟨hwaiters, hissued, fun ticket => ?_⟩
      rw [List.foldl_cons, hwoken, wake, List.mem_cons, List.map_cons, List.mem_cons]
      tauto

/-- Who has a ticket of its own stands in the queue once. -/
theorem nodup_threads {q : TicketQueue} {held : ThreadId → Option Ticket}
    (hheld : ∀ w ∈ q.waiters, held w.thread = some w.ticket)
    (htickets : (q.waiters.map Waiter.ticket).Nodup) : (q.waiters.map Waiter.thread).Nodup := by
  refine List.Nodup.map_on (fun x hx y hy hthread => ?_) (.of_map _ htickets)
  have hticket := hheld x hx
  rw [hthread, hheld y hy] at hticket
  cases x
  cases y
  cases hticket
  cases hthread
  rfl

/-- Some threads leave the front of a queue, and their tickets are woken. -/
structure Wakes (q q' : TicketQueue) (taken : List Waiter) : Prop where
  waiters_eq : q.waiters = taken ++ q'.waiters
  issued_eq : q'.issued = q.issued
  woken_iff : ∀ ticket, ticket ∈ q'.woken ↔ ticket ∈ taken.map Waiter.ticket ∨ ticket ∈ q.woken

theorem wakes_wakeOne (q : TicketQueue) : q.Wakes q.wakeOne.2 (q.waiters.take 1) := by
  obtain ⟨waiters, issued, woken⟩ := q
  cases waiters with
  | nil => exact ⟨rfl, rfl, fun ticket => by simp [wakeOne, pop]⟩
  | cons w rest => exact ⟨rfl, rfl, fun ticket => by simp [wakeOne, pop, wake]⟩

theorem wakes_wakeAll (q : TicketQueue) : q.Wakes q.wakeAll.2 q.waiters := by
  obtain ⟨hwaiters, hissued, hwoken⟩ := foldl_wake q.waiters { q with waiters := [] }
  have hwaiters : q.wakeAll.2.waiters = [] := hwaiters
  exact ⟨by rw [hwaiters, List.append_nil], hissued, hwoken⟩

/-- What can happen to a queue: a thread comes to its end, or some leave from its front, or
nothing. -/
inductive Turn (q q' : TicketQueue) (t : ThreadId) : Option Waiter → List Waiter → Prop where
  | stays (queue_eq : q' = q) : Turn q q' t none []
  | comes (ticket : Ticket) (push : q.push t = .ok (ticket, q')) : Turn q q' t (some ⟨t, ticket⟩) []
  | leave (taken : List Waiter) (wakes : q.Wakes q' taken) : Turn q q' t none taken

/-- Nobody leaves a queue out of turn. -/
theorem Turn.waiters_append {q q' : TicketQueue} {t : ThreadId} {joined : Option Waiter}
    {taken : List Waiter} (h : q.Turn q' t joined taken) :
    q.waiters ++ joined.toList = taken ++ q'.waiters := by
  cases h with
  | stays queue_eq =>
      rw [queue_eq]
      exact List.append_nil _
  | comes ticket push =>
      obtain ⟨rfl, rfl⟩ := push_ok push
      rfl
  | leave _ wakes =>
      rw [wakes.waiters_eq]
      exact List.append_nil _

/-- Tickets are numbered. -/
theorem Turn.tickets_append {q q' : TicketQueue} {t : ThreadId} {joined : Option Waiter}
    {taken : List Waiter} (h : q.Turn q' t joined taken) :
    List.range q.issued ++ joined.toList.map Waiter.ticket = List.range q'.issued := by
  cases h with
  | stays queue_eq =>
      rw [queue_eq]
      exact List.append_nil _
  | comes ticket push =>
      obtain ⟨rfl, rfl⟩ := push_ok push
      exact List.range_succ.symm
  | leave _ wakes =>
      rw [wakes.issued_eq]
      exact List.append_nil _

theorem wakeOne_fst (q : TicketQueue) : q.wakeOne.1 = decide (0 < q.length) := by
  obtain ⟨waiters, issued, woken⟩ := q
  cases waiters with
  | nil => rfl
  | cons w rest => exact (decide_eq_true (Nat.succ_pos rest.length)).symm

@[simp] theorem waiters_wakeOne (q : TicketQueue) : q.wakeOne.2.waiters = q.waiters.tail := by
  obtain ⟨waiters, issued, woken⟩ := q
  cases waiters <;> rfl

namespace Serves

variable {q q' : TicketQueue} {held : ThreadId → Option Ticket} {t : ThreadId} {ticket : Ticket}

/-- A queue that nobody has used. -/
theorem fresh : Serves {} fun _ => none :=
  ⟨nofun, by simp, by simp, by simp, by simp, by simp⟩

/-- A thread without a ticket does not stand in the queue. -/
theorem not_waiter (h : q.Serves held) (hnone : held t = none) :
    ∀ w ∈ q.waiters, w.thread ≠ t := by
  rintro w hw rfl
  have := h.held_of_waiter w hw
  rw [hnone] at this
  cases this

theorem not_contains (h : q.Serves held) (hnone : held t = none) : q.contains t ≠ true := by
  rw [ne_eq, contains_iff]
  rintro ⟨w, hw, hthread⟩
  exact h.not_waiter hnone w hw hthread

/-- A thread queues, and is not woken yet. -/
theorem push (h : q.Serves held) (hnone : held t = none)
    (hpush : q.push t = .ok (ticket, q')) :
    q'.Serves (Function.update held t (some ticket)) ∧ q'.isWoken = q.isWoken ∧
      q.isWoken ticket = false := by
  obtain ⟨rfl, rfl⟩ := push_ok hpush
  have hmem : ∀ w, w ∈ q.waiters ++ [⟨t, q.issued⟩] ↔ w ∈ q.waiters ∨ w = ⟨t, q.issued⟩ := by
    intro w
    rw [List.mem_append, List.mem_singleton]
  have hother := h.not_waiter hnone
  -- tickets are given out in order, so the new one was never woken
  have hnew : q.issued ∉ q.woken := fun hw => Nat.lt_irrefl _ (h.woken_lt _ hw)
  refine ⟨⟨fun t' ticket ht => ?_, fun w hw => ?_, fun w hw => ?_, ?_, fun w hw => ?_,
    fun ticket hticket => Nat.lt_succ_of_lt (h.woken_lt ticket hticket)⟩, rfl, ?_⟩
  · by_cases heq : t' = t
    · rw [heq, Function.update_self] at ht
      obtain rfl := Option.some.inj ht
      exact .inl ((hmem _).2 (.inr (by rw [heq])))
    · rw [Function.update_of_ne heq] at ht
      exact (h.placed t' ticket ht).imp_left fun hw => (hmem _).2 (.inl hw)
  · rcases (hmem w).1 hw with hw | rfl
    · rw [Function.update_of_ne (hother w hw)]
      exact h.held_of_waiter w hw
    · exact Function.update_self _ _ _
  · rcases (hmem w).1 hw with hw | rfl
    · exact h.asleep w hw
    · exact hnew
  · rw [List.map_append, List.nodup_append]
    refine ⟨h.tickets_nodup, List.nodup_singleton _, ?_⟩
    rintro a ha b hb rfl
    obtain ⟨w, hw, rfl⟩ := List.mem_map.1 ha
    rw [List.map_singleton, List.mem_singleton] at hb
    exact Nat.ne_of_lt (h.waiting_lt w hw) hb
  · rcases (hmem w).1 hw with hw | rfl
    · exact Nat.lt_succ_of_lt (h.waiting_lt w hw)
    · exact Nat.lt_succ_self _
  · rw [← Bool.not_eq_true, isWoken_iff]
    exact hnew

/-- A thread that was woken throws its ticket away. -/
theorem leave (h : q.Serves held) (hheld : held t = some ticket)
    (hwoken : q.isWoken ticket = true) : q.Serves (Function.update held t none) := by
  rw [isWoken_iff] at hwoken
  refine ⟨fun t' ticket' ht => ?_, fun w hw => ?_, h.asleep, h.tickets_nodup, h.waiting_lt,
    h.woken_lt⟩
  · by_cases heq : t' = t
    · rw [heq, Function.update_self] at ht
      cases ht
    · rw [Function.update_of_ne heq] at ht
      exact h.placed t' ticket' ht
  · -- its ticket is no longer in the queue, so neither is the thread
    rw [Function.update_of_ne, h.held_of_waiter w hw]
    rintro rfl
    have hsame := (h.held_of_waiter w hw).symm.trans hheld
    obtain rfl := Option.some.inj hsame
    exact h.asleep w hw hwoken

/-- A ticket that is waited with is that of one thread. -/
theorem eq_of_held (h : q.Serves held) {w : Waiter} (hw : w ∈ q.waiters)
    (ht : held t = some w.ticket) : t = w.thread := by
  rcases h.placed t w.ticket ht with hmem | hwoken
  · exact congrArg Waiter.thread (List.inj_on_of_nodup_map h.tickets_nodup hmem hw rfl)
  · exact absurd hwoken (h.asleep w hw)

/-- No thread waits twice. -/
theorem threads_nodup (h : q.Serves held) : (q.waiters.map Waiter.thread).Nodup :=
  nodup_threads h.held_of_waiter h.tickets_nodup

/-- A queue some of whose threads are woken. -/
theorem wakes (h : q.Serves held) {taken : List Waiter} (hwakes : q.Wakes q' taken) :
    q'.Serves held := by
  have hmem : ∀ w ∈ q'.waiters, w ∈ q.waiters := by
    intro w hw
    rw [hwakes.waiters_eq]
    exact List.mem_append_right _ hw
  have htaken : ∀ w ∈ taken, w ∈ q.waiters := by
    intro w hw
    rw [hwakes.waiters_eq]
    exact List.mem_append_left _ hw
  have hnodup := h.tickets_nodup
  rw [hwakes.waiters_eq, List.map_append, List.nodup_append] at hnodup
  obtain ⟨-, hrest, hdisjoint⟩ := hnodup
  refine ⟨fun t ticket ht => ?_, fun w hw => h.held_of_waiter w (hmem w hw), fun w hw hwoken => ?_,
    hrest, fun w hw => ?_, fun ticket hticket => ?_⟩
  · rw [hwakes.woken_iff]
    rcases h.placed t ticket ht with hw | hwoken
    · rw [hwakes.waiters_eq] at hw
      rcases List.mem_append.1 hw with hw | hw
      · exact .inr (.inl (List.mem_map_of_mem hw))
      · exact .inl hw
    · exact .inr (.inr hwoken)
  · rcases (hwakes.woken_iff _).1 hwoken with hticket | hwoken
    · exact hdisjoint _ hticket _ (List.mem_map_of_mem hw) rfl
    · exact h.asleep w (hmem w hw) hwoken
  · rw [hwakes.issued_eq]
    exact h.waiting_lt w (hmem w hw)
  · rw [hwakes.issued_eq]
    rcases (hwakes.woken_iff _).1 hticket with hticket | hwoken
    · obtain ⟨w, hw, rfl⟩ := List.mem_map.1 hticket
      exact h.waiting_lt w (htaken w hw)
    · exact h.woken_lt ticket hwoken

/-- A thread without a ticket is not woken. -/
theorem count_taken_eq_zero (h : q.Serves held) {taken : List Waiter} (hwakes : q.Wakes q' taken)
    (hnone : held t = none) : (taken.map Waiter.thread).count t = 0 := by
  rw [List.count_eq_zero]
  intro hmem
  obtain ⟨w, hw, hthread⟩ := List.mem_map.1 hmem
  refine h.not_waiter hnone w ?_ hthread
  rw [hwakes.waiters_eq]
  exact List.mem_append_left _ hw

/-- A ticket is woken when its thread is taken out of the queue, which happens once. -/
theorem count_taken (h : q.Serves held) {taken : List Waiter} (hwakes : q.Wakes q' taken)
    (hheld : held t = some ticket) :
    (q.isWoken ticket).toNat + (taken.map Waiter.thread).count t = (q'.isWoken ticket).toNat := by
  have htaken : ∀ w ∈ taken, w ∈ q.waiters := by
    intro w hw
    rw [hwakes.waiters_eq]
    exact List.mem_append_left _ hw
  have hwoken : ∀ q : TicketQueue, (q.isWoken ticket).toNat =
      if ticket ∈ q.woken then 1 else 0 := by
    intro q
    simp only [← isWoken_iff]
    cases q.isWoken ticket <;> rfl
  rw [hwoken, hwoken]
  simp only [hwakes.woken_iff]
  by_cases hmem : ⟨t, ticket⟩ ∈ taken
  · have hnodup := h.threads_nodup
    rw [hwakes.waiters_eq, List.map_append] at hnodup
    have hbefore : ticket ∉ q.woken := h.asleep _ (htaken _ hmem)
    have hafter : ticket ∈ taken.map Waiter.ticket := List.mem_map_of_mem hmem
    rw [List.count_eq_one_of_mem (List.nodup_append.1 hnodup).1 (List.mem_map_of_mem hmem),
      if_neg hbefore, if_pos (.inl hafter)]
  · have hthread : t ∉ taken.map Waiter.thread := by
      intro ht
      obtain ⟨w, hw, rfl⟩ := List.mem_map.1 ht
      have hsame := (h.held_of_waiter w (htaken w hw)).symm.trans hheld
      exact hmem (Option.some.inj hsame ▸ hw)
    have hticket : ticket ∉ taken.map Waiter.ticket := by
      intro ht
      obtain ⟨w, hw, rfl⟩ := List.mem_map.1 ht
      exact hthread (h.eq_of_held (htaken w hw) hheld ▸ List.mem_map_of_mem hw)
    rw [List.count_eq_zero.2 hthread]
    simp only [hticket, false_or, Nat.add_zero]

/-- Waking one thread, which is the first in the queue, if there is one. -/
theorem wakeOne (h : q.Serves held) :
    q.waiters = [] ∧ q.wakeOne.2 = q ∨
      ∃ w, w ∈ q.waiters ∧ held w.thread = some w.ticket ∧ w.ticket ∉ q.woken ∧
        q.wakeOne.2.Serves held ∧
        ∀ ticket,
          q.wakeOne.2.isWoken ticket = (decide (ticket = w.ticket) || q.isWoken ticket) := by
  have hserves := h.wakes q.wakes_wakeOne
  have hwoken := q.wakes_wakeOne.woken_iff
  cases hwaiters : q.waiters with
  | nil =>
      obtain ⟨waiters, issued, woken⟩ := q
      obtain rfl : waiters = [] := hwaiters
      exact .inl ⟨rfl, rfl⟩
  | cons w rest =>
      have hw : w ∈ q.waiters := by
        rw [hwaiters]
        exact List.mem_cons_self
      rw [hwaiters] at hwoken
      refine .inr ⟨w, List.mem_cons_self, h.held_of_waiter w hw, h.asleep w hw, hserves,
        fun ticket => ?_⟩
      rw [Bool.eq_iff_iff, isWoken_iff, hwoken, Bool.or_eq_true, decide_eq_true_eq, isWoken_iff]
      exact or_congr_left List.mem_singleton

/-- Waking everyone. -/
theorem wakeAll (h : q.Serves held) :
    q.wakeAll.2.Serves held ∧ ∀ ticket, q.wakeAll.2.isWoken ticket =
      (decide (ticket ∈ q.waiters.map Waiter.ticket) || q.isWoken ticket) := by
  refine ⟨h.wakes q.wakes_wakeAll, fun ticket => ?_⟩
  rw [Bool.eq_iff_iff, isWoken_iff, q.wakes_wakeAll.woken_iff, Bool.or_eq_true, decide_eq_true_eq,
    isWoken_iff]

end Serves

end DemandPaging.TicketQueue
