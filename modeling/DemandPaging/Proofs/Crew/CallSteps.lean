import DemandPaging.Proofs.SleepLock
import DemandPaging.Sync.Condition

/-!
# The steps of calls that wait

A call that takes a lock, or sleeps on a condition, goes through phases. `AcquireStep` and
`SleepStep` list everything that a step of it can do, with the reason. Giving a lock back hands it
to whoever has waited longest.
-/

namespace DemandPaging

theorem TicketQueue.push_eq_error_iff {q : TicketQueue} {t : ThreadId} {halt : Halt} :
    q.push t = .error halt ↔ q.contains t = true ∧ halt = .alreadyQueued := by
  rw [push]
  split
  · rename_i h
    exact ⟨fun hq => ⟨h, (Except.error.inj hq).symm⟩, fun hq => congrArg _ hq.2.symm⟩
  · rename_i h
    exact ⟨fun hq => (by cases hq), fun hq => absurd hq.1 h⟩

namespace SleepLock

variable {l l' : SleepLock} {t : ThreadId} {phase : Acquiring}

/-- What a step of a call that takes a lock can do. -/
inductive AcquireStep (l : SleepLock) (t : ThreadId) :
    Acquiring → Except Halt (Option Acquiring × SleepLock) → Prop where
  /-- the lock is free -/
  | grabs (free : l.holder = none) :
      AcquireStep l t .asking (.ok (none, { l with holder := some t }))
  /-- another thread has the lock -/
  | queues (u : ThreadId) (ticket : Ticket) (queue : TicketQueue) (held : l.holder = some u)
      (other : u ≠ t) (push : l.queue.push t = .ok (ticket, queue)) :
      AcquireStep l t .asking (.ok (some (.queued ticket), { l with queue }))
  /-- the lock was handed to the thread -/
  | resumes (ticket : Ticket) (woken : l.queue.isWoken ticket = true) (held : l.holder = some t) :
      AcquireStep l t (.queued ticket) (.ok (none, l))
  /-- the thread has the lock already -/
  | nested (held : l.holder = some t) : AcquireStep l t .asking (.error .lockHeld)
  /-- the thread waits for the lock already -/
  | doubled (other : l.holder ≠ some t) (waits : l.queue.contains t = true) :
      AcquireStep l t .asking (.error .alreadyQueued)
  /-- the thread was woken without the lock -/
  | ungranted (ticket : Ticket) (woken : l.queue.isWoken ticket = true)
      (other : l.holder ≠ some t) : AcquireStep l t (.queued ticket) (.error .lockNotGranted)

theorem acquire_step {result : Except Halt (Option Acquiring × SleepLock)}
    (h : l.acquire t phase = some result) : l.AcquireStep t phase result := by
  cases phase with
  | asking =>
      obtain rfl : l.ask t = result := Option.some.inj h
      rw [ask]
      by_cases hheld : l.holder = some t
      · rw [if_pos (isHeldBy_iff.2 hheld)]
        exact .nested hheld
      rw [if_neg fun h => hheld (isHeldBy_iff.1 h)]
      split
      · rename_i hfree
        exact .grabs hfree
      · rename_i u hholder
        have hne : u ≠ t := fun hu => hheld (hholder.trans (congrArg some hu))
        cases hpush : l.queue.push t with
        | ok pushed => exact .queues u pushed.1 pushed.2 hholder hne hpush
        | error halt =>
            obtain ⟨hcontains, rfl⟩ := TicketQueue.push_eq_error_iff.1 hpush
            exact .doubled hheld hcontains
  | queued ticket =>
      rw [acquire] at h
      split at h
      · rename_i hwoken
        obtain rfl := Option.some.inj h
        by_cases hheld : l.holder = some t
        · rw [resume_of_held hheld]
          exact .resumes ticket hwoken hheld
        · rw [resume, if_neg fun h => hheld (isHeldBy_iff.1 h)]
          exact .ungranted ticket hwoken hheld
      · cases h

theorem release_eq_ok_iff : l.release t = .ok l' ↔ l.holder = some t ∧ l' = l.handOver := by
  rw [release, ← isHeldBy_iff]
  split
  · rename_i h
    exact ⟨fun hl => ⟨h, (Except.ok.inj hl).symm⟩, fun hl => congrArg _ hl.2.symm⟩
  · rename_i h
    exact ⟨fun hl => (by cases hl), fun hl => absurd hl.1 h⟩

theorem release_eq_error_iff {halt : Halt} :
    l.release t = .error halt ↔ l.holder ≠ some t ∧ halt = .lockNotHeld := by
  rw [release, ne_eq, ← isHeldBy_iff]
  split
  · rename_i h
    exact ⟨fun hl => (by cases hl), fun hl => absurd h hl.1⟩
  · rename_i h
    exact ⟨fun hl => ⟨h, (Except.error.inj hl).symm⟩, fun hl => congrArg _ hl.2.symm⟩

theorem tryAcquire_of_free (h : l.holder = none) :
    l.tryAcquire t = (true, { l with holder := some t }) :=
  if_neg (by rw [isLocked, h]; exact Bool.false_ne_true)

theorem tryAcquire_of_held {u : ThreadId} (h : l.holder = some u) : l.tryAcquire t = (false, l) :=
  if_pos (by rw [isLocked, h]; rfl)

/-- Who has waited longest is the next holder, and its ticket is woken. -/
theorem handOver_eq (l : SleepLock) : l.handOver =
    { holder := l.queue.waiters.head?.map Waiter.thread, queue := l.queue.wakeOne.2 } := by
  obtain ⟨holder, waiters, issued, woken⟩ := l
  cases waiters <;> rfl

end SleepLock

namespace Condition

variable {c : Condition} {l : SleepLock} {t : ThreadId} {phase : Sleeping}

theorem whileHolding_of_held {α : Type} (h : l.holder = some t) (act : Except Halt α) :
    whileHolding l t act = act := if_pos (SleepLock.isHeldBy_iff.2 h)

theorem whileHolding_of_not_held {α : Type} (h : l.holder ≠ some t) (act : Except Halt α) :
    whileHolding l t act = .error .conditionUnlocked :=
  if_neg fun hheld => h (SleepLock.isHeldBy_iff.1 hheld)

/-- What a step of a call that sleeps can do. -/
inductive SleepStep (c : Condition) (l : SleepLock) (t : ThreadId) :
    Sleeping → Except Halt (Option Sleeping × Condition × SleepLock) → Prop where
  /-- the thread queues, and still has the lock -/
  | enters (ticket : Ticket) (queue : TicketQueue) (held : l.holder = some t)
      (push : c.queue.push t = .ok (ticket, queue)) :
      SleepStep c l t .entering (.ok (some (.leaving ticket), ⟨queue⟩, l))
  /-- the thread does not have the lock -/
  | unlocked (other : l.holder ≠ some t) : SleepStep c l t .entering (.error .conditionUnlocked)
  /-- the thread sleeps already -/
  | doubled (held : l.holder = some t) (sleeps : c.queue.contains t = true) :
      SleepStep c l t .entering (.error .alreadyQueued)
  /-- the thread gives the lock back -/
  | leaves (ticket : Ticket) (held : l.holder = some t) :
      SleepStep c l t (.leaving ticket) (.ok (some (.asleep ticket), c, l.handOver))
  /-- the thread has no lock to give back -/
  | lost (ticket : Ticket) (other : l.holder ≠ some t) :
      SleepStep c l t (.leaving ticket) (.error .lockNotHeld)
  /-- the thread was woken -/
  | awakens (ticket : Ticket) (woken : c.queue.isWoken ticket = true) :
      SleepStep c l t (.asleep ticket) (.ok (some (.returning .asking), c, l))
  /-- the thread takes the lock again -/
  | returns (phase : Acquiring) (result : Except Halt (Option Acquiring × SleepLock))
      (acquires : l.acquire t phase = some result) :
      SleepStep c l t (.returning phase)
        (result.map fun (phase, l) => (phase.map .returning, c, l))

theorem sleep_step {result : Except Halt (Option Sleeping × Condition × SleepLock)}
    (h : c.sleep l t phase = some result) : c.SleepStep l t phase result := by
  cases phase with
  | entering =>
      obtain rfl := Option.some.inj h
      by_cases hheld : l.holder = some t
      · rw [whileHolding_of_held hheld]
        cases hpush : c.queue.push t with
        | ok pushed => exact .enters pushed.1 pushed.2 hheld hpush
        | error halt =>
            obtain ⟨hcontains, rfl⟩ := TicketQueue.push_eq_error_iff.1 hpush
            exact .doubled hheld hcontains
      · rw [whileHolding_of_not_held hheld]
        exact .unlocked hheld
  | leaving ticket =>
      obtain rfl := Option.some.inj h
      by_cases hheld : l.holder = some t
      · rw [SleepLock.release_eq_ok_iff.2 ⟨hheld, rfl⟩]
        exact .leaves ticket hheld
      · rw [SleepLock.release_eq_error_iff.2 ⟨hheld, rfl⟩]
        exact .lost ticket hheld
  | asleep ticket =>
      rw [sleep] at h
      split at h
      · rename_i hwoken
        obtain rfl := Option.some.inj h
        exact .awakens ticket hwoken
      · cases h
  | returning phase =>
      obtain ⟨x, hacquire, rfl⟩ := Option.map_eq_some_iff.1 h
      exact .returns phase x hacquire

end Condition

end DemandPaging
