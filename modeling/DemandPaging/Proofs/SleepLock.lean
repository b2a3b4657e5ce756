import DemandPaging.Sync.SleepLock
import Mathlib.Data.List.Nodup
import Mathlib.Logic.Function.Basic

/-!
# A lock has one holder

Threads use a lock in three ways: they are away from it, they stand in its queue with a ticket, or
they go on as its holder. `SleepLock.Serves` ties the lock to what each thread is doing with it. A
thread whose ticket was woken is the holder even before it takes its next step, so nobody else can
be one.
-/

namespace DemandPaging

/-- What a thread is doing with a lock. -/
inductive LockUse where
  | away
  | queued (ticket : Ticket)
  | holding
deriving DecidableEq

/-- What a thread is doing in a phase of a call that takes the lock; after it the lock is held. -/
def LockUse.of : Option Acquiring → LockUse
  | some .asking => .away
  | some (.queued ticket) => .queued ticket
  | none => .holding

namespace SleepLock

theorem isHeldBy_iff {l : SleepLock} {t : ThreadId} : l.isHeldBy t = true ↔ l.holder = some t :=
  decide_eq_true_iff

/-- A woken thread that holds the lock goes on with it. -/
theorem resume_of_held {l : SleepLock} {t : ThreadId} (h : l.holder = some t) :
    l.resume t = .ok (none, l) := if_pos (isHeldBy_iff.2 h)

/-- A thread whose ticket was woken takes its step as the holder of the lock. -/
theorem acquire_of_woken {l : SleepLock} {t : ThreadId} {ticket : Ticket}
    (hwoken : l.queue.isWoken ticket = true) (h : l.holder = some t) :
    l.acquire t (.queued ticket) = some (.ok (none, l)) := by
  rw [acquire, if_pos hwoken, resume_of_held h]

/-- The lock agrees with what all threads are doing with it. -/
structure Serves (l : SleepLock) (use : ThreadId → LockUse) : Prop where
  -- a thread that goes on holds the lock; the holder need not have gone on yet
  holder_eq : ∀ t, use t = .holding → l.holder = some t
  used : ∀ t, l.holder = some t → use t ≠ .away
  queued_iff : ∀ t ticket, use t = .queued ticket →
    ⟨t, ticket⟩ ∈ l.queue.waiters ∨ ticket ∈ l.queue.woken ∧ l.holder = some t
  use_waiter : ∀ w ∈ l.queue.waiters, use w.thread = .queued w.ticket
  -- a ticket is waited with or woken, never both
  asleep : ∀ w ∈ l.queue.waiters, w.ticket ∉ l.queue.woken
  tickets_nodup : (l.queue.waiters.map Waiter.ticket).Nodup
  waiting_lt : ∀ w ∈ l.queue.waiters, w.ticket < l.queue.issued
  woken_lt : ∀ ticket ∈ l.queue.woken, ticket < l.queue.issued

namespace Serves

variable {l l' : SleepLock} {use : ThreadId → LockUse} {t t' : ThreadId}

/-- A lock that nobody has used. -/
theorem fresh : Serves {} fun _ => .away :=
  ⟨nofun, nofun, nofun, by simp, by simp, by simp, by simp, by simp⟩

/-- There is one holder at most. -/
theorem holder_unique (h : l.Serves use) (ht : use t = .holding) (ht' : use t' = .holding) :
    t = t' :=
  Option.some.inj ((h.holder_eq t ht).symm.trans (h.holder_eq t' ht'))

/-- A woken ticket is not in the queue any more. -/
theorem ticket_ne (h : l.Serves use) {ticket : Ticket} (hwoken : l.queue.isWoken ticket = true) :
    ∀ w ∈ l.queue.waiters, w.ticket ≠ ticket := by
  rintro w hw rfl
  exact h.asleep w hw (by simpa [TicketQueue.isWoken] using hwoken)

/-- Whoever was woken has been made the holder. -/
theorem holder_of_woken (h : l.Serves use) {ticket : Ticket} (hu : use t = .queued ticket)
    (hwoken : l.queue.isWoken ticket = true) : l.holder = some t :=
  ((h.queued_iff t ticket hu).resolve_left fun hw => h.ticket_ne hwoken _ hw rfl).2

/-- A thread goes on as the holder, when the lock is free or was handed to it. -/
theorem hold (h : l.Serves use) (hwaiter : ∀ w ∈ l.queue.waiters, w.thread ≠ t)
    (hown : ∀ t', l.holder = some t' → t' = t) :
    Serves { l with holder := some t } (Function.update use t .holding) := by
  refine ⟨fun t' hu => ?_, fun t' ht' => ?_, fun t' ticket hu => ?_, fun w hw => ?_, h.asleep,
    h.tickets_nodup, h.waiting_lt, h.woken_lt⟩
  · by_cases ht : t' = t
    · rw [ht]
    · rw [Function.update_of_ne ht] at hu
      exact absurd (hown t' (h.holder_eq t' hu)) ht
  · obtain rfl := Option.some.inj ht'
    rw [Function.update_self]
    exact nofun
  · by_cases ht : t' = t
    · rw [ht, Function.update_self] at hu
      cases hu
    · rw [Function.update_of_ne ht] at hu
      exact .inl ((h.queued_iff t' ticket hu).resolve_right fun hw => ht (hown t' hw.2))
  · rw [Function.update_of_ne (hwaiter w hw)]
    exact h.use_waiter w hw

/-- A thread that is not in the queue as it sees itself does not stand there. -/
theorem not_waiter (h : l.Serves use) (hu : ∀ ticket, use t ≠ .queued ticket) :
    ∀ w ∈ l.queue.waiters, w.thread ≠ t := by
  rintro w hw rfl
  exact hu w.ticket (h.use_waiter w hw)

/-- A thread queues, with a ticket that nobody else has. -/
theorem push (h : l.Serves use) (hnot : ∀ w ∈ l.queue.waiters, w.thread ≠ t) {ticket : Ticket}
    {queue : TicketQueue} (hpush : l.queue.push t = .ok (ticket, queue)) :
    Serves { l with queue } (Function.update use t (.queued ticket)) := by
  rw [TicketQueue.push] at hpush
  split at hpush
  · cases hpush
  · obtain ⟨rfl, rfl⟩ := Prod.mk.inj (Except.ok.inj hpush)
    have hmem : ∀ w, w ∈ l.queue.waiters ++ [⟨t, l.queue.issued⟩] ↔
        w ∈ l.queue.waiters ∨ w = ⟨t, l.queue.issued⟩ := by
      intro w
      rw [List.mem_append, List.mem_singleton]
    -- tickets are given out in order, so the new one is different from all the others
    refine ⟨fun t' ht' => ?_, fun t' ht' => ?_, fun t' ticket ht' => ?_, fun w hw => ?_,
      fun w hw hwoken => ?_, ?_, fun w hw => ?_,
      fun ticket hticket => Nat.lt_succ_of_lt (h.woken_lt ticket hticket)⟩
    · by_cases heq : t' = t
      · rw [heq, Function.update_self] at ht'
        cases ht'
      · rw [Function.update_of_ne heq] at ht'
        exact h.holder_eq t' ht'
    · by_cases heq : t' = t
      · rw [heq, Function.update_self]
        exact nofun
      · rw [Function.update_of_ne heq]
        exact h.used t' ht'
    · by_cases heq : t' = t
      · rw [heq, Function.update_self] at ht'
        obtain rfl := LockUse.queued.inj ht'
        exact .inl ((hmem _).2 (.inr (by rw [heq])))
      · rw [Function.update_of_ne heq] at ht'
        exact (h.queued_iff t' ticket ht').imp_left fun hw => (hmem _).2 (.inl hw)
    · rcases (hmem w).1 hw with hw | rfl
      · rw [Function.update_of_ne (hnot w hw)]
        exact h.use_waiter w hw
      · exact Function.update_self _ _ _
    · rcases (hmem w).1 hw with hw | rfl
      · exact h.asleep w hw hwoken
      · exact Nat.lt_irrefl _ (h.woken_lt _ hwoken)
    · rw [List.map_append, List.nodup_append]
      refine ⟨h.tickets_nodup, List.nodup_singleton _, ?_⟩
      rintro a ha b hb rfl
      obtain ⟨w, hw, rfl⟩ := List.mem_map.1 ha
      have hlt := h.waiting_lt w hw
      rw [List.map_singleton, List.mem_singleton] at hb
      exact Nat.ne_of_lt hlt hb
    · rcases (hmem w).1 hw with hw | rfl
      · exact Nat.lt_succ_of_lt (h.waiting_lt w hw)
      · exact Nat.lt_succ_self _

/-- A step of a call that takes the lock. -/
theorem acquire (h : l.Serves use) {phase : Acquiring} {next : Option Acquiring}
    (hu : use t = .of (some phase)) (hrun : l.acquire t phase = some (.ok (next, l'))) :
    l'.Serves (Function.update use t (.of next)) := by
  cases phase with
  | asking =>
      have hnot := h.not_waiter (t := t) (by rw [hu]; exact fun _ => nofun)
      have hask : l.ask t = .ok (next, l') := Option.some.inj hrun
      rw [ask] at hask
      split at hask
      · cases hask
      · cases hholder : l.holder with
        | none =>
            rw [hholder] at hask
            obtain ⟨rfl, rfl⟩ := Prod.mk.inj (Except.ok.inj hask)
            exact h.hold hnot fun t' ht' => by rw [hholder] at ht'; cases ht'
        | some holder =>
            rw [hholder] at hask
            cases hpush : l.queue.push t with
            | error halt =>
                rw [hpush] at hask
                cases hask
            | ok result =>
                obtain ⟨ticket, queue⟩ := result
                rw [hpush] at hask
                obtain ⟨rfl, rfl⟩ := Prod.mk.inj (Except.ok.inj hask)
                have hpushed := h.push hnot hpush
                rw [hholder] at hpushed
                exact hpushed
  | queued ticket =>
      rw [SleepLock.acquire] at hrun
      split at hrun
      · rename_i hwoken
        have hholder := h.holder_of_woken hu hwoken
        rw [resume_of_held hholder] at hrun
        obtain ⟨rfl, rfl⟩ := Prod.mk.inj (Except.ok.inj (Option.some.inj hrun))
        have hheld := h.hold (t := t) (fun w hw hthread => ?_)
          (fun t' ht' => Option.some.inj (ht'.symm.trans hholder))
        · rw [← hholder] at hheld
          exact hheld
        · have huse := h.use_waiter w hw
          rw [hthread, hu] at huse
          exact h.ticket_ne hwoken w hw (LockUse.queued.inj huse).symm
      · cases hrun

/-- The holder gives the lock back. Whoever has waited longest is the holder then. -/
theorem release (h : l.Serves use) (hu : use t = .holding) (hrun : l.release t = .ok l') :
    l'.Serves (Function.update use t .away) := by
  have hnot := h.not_waiter (t := t) (by rw [hu]; exact fun _ => nofun)
  have hholder := h.holder_eq t hu
  -- this thread holds the lock, so no woken thread does: who has a ticket still waits
  have honly : ∀ t' ticket, use t' = .queued ticket → ⟨t', ticket⟩ ∈ l.queue.waiters := by
    intro t' ticket ht'
    refine (h.queued_iff t' ticket ht').resolve_right fun hw => ?_
    obtain rfl := Option.some.inj (hholder.symm.trans hw.2)
    rw [hu] at ht'
    cases ht'
  have hlone : ∀ t', use t' = .holding → t' = t := fun t' ht' => h.holder_unique ht' hu
  have huse : ∀ t' u, Function.update use t .away t' = u → u ≠ .away → t' ≠ t ∧ use t' = u := by
    intro t' u ht' hne
    by_cases heq : t' = t
    · rw [heq, Function.update_self] at ht'
      exact absurd ht'.symm hne
    · rw [Function.update_of_ne heq] at ht'
      exact ⟨heq, ht'⟩
  rw [SleepLock.release] at hrun
  split at hrun
  · obtain rfl := Except.ok.inj hrun
    rw [handOver]
    cases hwaiters : l.queue.waiters with
    | nil =>
        simp only [TicketQueue.pop, hwaiters, List.head?_nil, List.tail_nil]
        refine ⟨fun t' ht' => ?_, nofun, fun t' ticket ht' => ?_, by simp, by simp, by simp,
          by simp, h.woken_lt⟩
        · obtain ⟨hne, ht'⟩ := huse t' _ ht' nofun
          exact absurd (hlone t' ht') hne
        · have := honly t' ticket (huse t' _ ht' nofun).2
          rw [hwaiters] at this
          cases this
    | cons first rest =>
        simp only [TicketQueue.pop, hwaiters, List.head?_cons, List.tail_cons]
        have hmem : ∀ w ∈ rest, w ∈ l.queue.waiters := by
          intro w hw
          rw [hwaiters]
          exact List.mem_cons_of_mem _ hw
        have hnodup := h.tickets_nodup
        rw [hwaiters, List.map_cons, List.nodup_cons] at hnodup
        have hfirst : first ∈ l.queue.waiters := by
          rw [hwaiters]
          exact List.mem_cons_self
        refine ⟨fun t' ht' => ?_, fun t' ht' => ?_, fun t' ticket ht' => ?_, fun w hw => ?_,
          fun w hw hwoken => ?_, hnodup.2, fun w hw => h.waiting_lt w (hmem w hw),
          fun ticket hticket => ?_⟩
        · -- nobody is left that goes on as the holder
          obtain ⟨hne, ht'⟩ := huse t' _ ht' nofun
          exact absurd (hlone t' ht') hne
        · obtain rfl := Option.some.inj ht'
          rw [Function.update_of_ne (hnot first hfirst), h.use_waiter first hfirst]
          exact nofun
        · have hw := honly t' ticket (huse t' _ ht' nofun).2
          rw [hwaiters] at hw
          -- the first in the queue is woken and holds the lock, the others wait on
          rcases List.mem_cons.1 hw with heq | hw
          · refine .inr ⟨?_, ?_⟩
            · rw [← heq]
              exact List.mem_cons_self
            · rw [← heq]
          · exact .inl hw
        · rw [Function.update_of_ne (hnot w (hmem w hw))]
          exact h.use_waiter w (hmem w hw)
        · rcases List.mem_cons.1 hwoken with heq | hwoken
          · exact hnodup.1 (heq ▸ List.mem_map_of_mem hw)
          · exact h.asleep w (hmem w hw) hwoken
        · rcases List.mem_cons.1 hticket with rfl | hticket
          · exact h.waiting_lt first hfirst
          · exact h.woken_lt ticket hticket
  · cases hrun

end Serves

end SleepLock

end DemandPaging
