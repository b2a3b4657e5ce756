import DemandPaging.Proofs.Crew.CallSteps
import DemandPaging.Proofs.Crew.Runs
import DemandPaging.Proofs.SleepLock
import DemandPaging.Proofs.TicketQueue

/-!
# What a moment does to the lock

A worker deals with the lock in four ways: it takes a free one, it stands in the queue of a held
one, it goes on when the lock was handed to it, and it gives the lock back. Everything else leaves
the lock alone (`Moment.Happens.lockKind`), whatever command it is part of.
-/

namespace DemandPaging

/-- The ticket with which a thread waits in a phase of a call that takes a lock. -/
def Acquiring.ticket : Acquiring → Option Ticket
  | .asking => none
  | .queued ticket => some ticket

theorem Acquiring.ticket_eq_some_iff {phase : Acquiring} {ticket : Ticket} :
    phase.ticket = some ticket ↔ phase = .queued ticket := by
  cases phase <;> simp [Acquiring.ticket]

/-- The ticket with which a worker waits for the lock. -/
def Activity.lockTicket : Activity → Option Ticket
  | .acquiring phase | .sleeping (.returning phase) => phase.ticket
  | _ => none

namespace Crew

variable {c c' : Crew} {w : ThreadId} {command : Command} {answer : Answer}

/-- The ticket with which a worker waits for the lock. -/
def lockTicket (c : Crew) (w : ThreadId) : Option Ticket := (c.activity w).bind Activity.lockTicket

/-- What a worker is doing with the lock. -/
def lockUse (c : Crew) (w : ThreadId) : LockUse :=
  match c.lockTicket w with
  | some ticket => .queued ticket
  | none => if c.lock.holder = some w then .holding else .away

theorem lockUse_eq_queued_iff {ticket : Ticket} :
    c.lockUse w = .queued ticket ↔ c.lockTicket w = some ticket := by
  rw [lockUse]
  cases c.lockTicket w with
  | none => by_cases h : c.lock.holder = some w <;> simp [h]
  | some _ => simp

theorem lockUse_eq_holding_iff :
    c.lockUse w = .holding ↔ c.lock.holder = some w ∧ c.lockTicket w = none := by
  rw [lockUse]
  cases c.lockTicket w with
  | none => by_cases h : c.lock.holder = some w <;> simp [h]
  | some _ => simp

theorem lockUse_eq_away_iff :
    c.lockUse w = .away ↔ c.lock.holder ≠ some w ∧ c.lockTicket w = none := by
  rw [lockUse]
  cases c.lockTicket w with
  | none => by_cases h : c.lock.holder = some w <;> simp [h]
  | some _ => simp

/-- At first nobody uses the lock. -/
theorem lockUse_ofSize (workers value : Nat) (w : ThreadId) :
    (ofSize workers value).lockUse w = .away := by
  rw [lockUse, lockTicket, activity, worker_ofSize]
  rfl

/-- A worker that waits as before, or holds the lock as before. -/
theorem lockUse_congr (hticket : c'.lockTicket w = c.lockTicket w)
    (hholder : c.lockTicket w = none → (c'.lock.holder = some w ↔ c.lock.holder = some w)) :
    c'.lockUse w = c.lockUse w := by
  rw [lockUse, lockUse, hticket]
  cases h : c.lockTicket w with
  | none => simp only [hholder h]
  | some _ => rfl

/-- The lock of a crew agrees with what all workers are doing with it. Nobody waits for it when it
is free, and its holder does not wait. -/
structure LockSound (c : Crew) : Prop where
  serves : c.lock.Serves c.lockUse
  vacant : c.lock.holder = none → c.lock.queue.waiters = []
  absent : ∀ x ∈ c.lock.queue.waiters, c.lock.holder ≠ some x.thread

namespace LockSound

theorem ofSize (workers value : Nat) : (Crew.ofSize workers value).LockSound := by
  refine ⟨?_, fun _ => rfl, nofun⟩
  rw [funext (lockUse_ofSize workers value)]
  exact .fresh

/-- A woken ticket is that of the holder. -/
theorem holder_of_woken (h : c.LockSound) {ticket : Ticket} (hticket : c.lockTicket w = some ticket)
    (hwoken : c.lock.queue.isWoken ticket = true) : c.lock.holder = some w :=
  h.serves.holder_of_woken (lockUse_eq_queued_iff.2 hticket) hwoken

theorem lockTicket_of_waiter (h : c.LockSound) {x : Waiter} (hx : x ∈ c.lock.queue.waiters) :
    c.lockTicket x.thread = some x.ticket :=
  lockUse_eq_queued_iff.1 (h.serves.use_waiter x hx)

/-- No worker waits twice. -/
theorem threads_nodup (h : c.LockSound) : (c.lock.queue.waiters.map Waiter.thread).Nodup := by
  have hheld : ∀ x ∈ c.lock.queue.waiters, c.lockTicket x.thread = some x.ticket :=
    fun _ => h.lockTicket_of_waiter
  exact TicketQueue.nodup_threads hheld h.serves.tickets_nodup

/-- Whoever is handed the lock waits for it. -/
theorem holder_handOver_ne (h : c.LockSound) (hnone : c.lockTicket w = none) :
    c.lock.handOver.holder ≠ some w := by
  rw [SleepLock.handOver_eq]
  intro heq
  obtain ⟨x, hx, rfl⟩ := Option.map_eq_some_iff.1 heq
  rw [h.lockTicket_of_waiter (List.mem_of_head? hx)] at hnone
  cases hnone

end LockSound

namespace Moment

/-- The worker goes on with the lock: a call that takes it is over. -/
def takes (m : Moment) : Bool :=
  match m.command, m.before.activity m.worker with
  | some .tryAcquire, _ => m.answer = some (.flag true)
  | none, some (.acquiring _) => m.answer = some .done
  | none, some (.sleeping _) => m.answer = some .done
  | _, _ => false

/-- The worker gives the lock back, for good or while it sleeps. -/
def gives (m : Moment) : Bool :=
  match m.command, m.before.activity m.worker with
  | some .release, _ => m.answer = some .done
  | none, some (.sleeping (.leaving _)) => m.answer = none
  | _, _ => false

/-- What a moment does to the lock. -/
inductive LockKind (m : Moment) : Prop where
  /-- nothing -/
  | stays (lock_eq : m.after.lock = m.before.lock)
      (ticket_eq : m.after.lockTicket m.worker = m.before.lockTicket m.worker)
      (takes_eq : m.takes = false) (gives_eq : m.gives = false)
  /-- the lock is free, and the worker takes it -/
  | grabs (free : m.before.lock.holder = none)
      (lock_eq : m.after.lock = { m.before.lock with holder := some m.worker })
      (before_eq : m.before.lockTicket m.worker = none)
      (after_eq : m.after.lockTicket m.worker = none)
      (takes_eq : m.takes = true) (gives_eq : m.gives = false)
  /-- another worker holds the lock, and the worker queues -/
  | queues (u : ThreadId) (ticket : Ticket) (queue : TicketQueue)
      (held : m.before.lock.holder = some u) (other : u ≠ m.worker)
      (push : m.before.lock.queue.push m.worker = .ok (ticket, queue))
      (lock_eq : m.after.lock = { m.before.lock with queue })
      (before_eq : m.before.lockTicket m.worker = none)
      (after_eq : m.after.lockTicket m.worker = some ticket)
      (takes_eq : m.takes = false) (gives_eq : m.gives = false)
  /-- the worker's ticket was woken, and it goes on -/
  | resumes (ticket : Ticket) (lock_eq : m.after.lock = m.before.lock)
      (before_eq : m.before.lockTicket m.worker = some ticket)
      (woken : m.before.lock.queue.isWoken ticket = true)
      (held : m.before.lock.holder = some m.worker)
      (after_eq : m.after.lockTicket m.worker = none)
      (takes_eq : m.takes = true) (gives_eq : m.gives = false)
  /-- the worker gives the lock back -/
  | frees (held : m.before.lock.holder = some m.worker)
      (lock_eq : m.after.lock = m.before.lock.handOver)
      (before_eq : m.before.lockTicket m.worker = none)
      (after_eq : m.after.lockTicket m.worker = none)
      (takes_eq : m.takes = false) (gives_eq : m.gives = true)

variable {m : Moment}

/-- A step of a call that takes the lock, whichever command it is part of. -/
theorem LockKind.of_acquire (h : m.before.LockSound) {phase : Acquiring}
    {result : Except Halt (Option Acquiring × SleepLock)}
    (hacquire : m.before.lock.acquire m.worker phase = some result)
    (hbefore : m.before.lockTicket m.worker = phase.ticket) (hgives : m.gives = false)
    (hok : ∀ next l, result = .ok (next, l) → m.after.lock = l ∧
      m.after.lockTicket m.worker = next.bind Acquiring.ticket ∧ m.takes = next.isNone)
    (herror : ∀ halt, result = .error halt → m.after.lock = m.before.lock ∧
      m.after.lockTicket m.worker = none ∧ m.takes = false) : m.LockKind := by
  cases SleepLock.acquire_step hacquire with
  | grabs free =>
      obtain ⟨hlock, hafter, htakes⟩ := hok _ _ rfl
      exact .grabs free hlock hbefore hafter htakes hgives
  | queues u ticket queue held other push =>
      obtain ⟨hlock, hafter, htakes⟩ := hok _ _ rfl
      exact .queues u ticket queue held other push hlock hbefore hafter htakes hgives
  | resumes ticket woken held =>
      obtain ⟨hlock, hafter, htakes⟩ := hok _ _ rfl
      exact .resumes ticket hlock hbefore woken held hafter htakes hgives
  | nested | doubled =>
      obtain ⟨hlock, hafter, htakes⟩ := herror _ rfl
      exact .stays hlock (hafter.trans hbefore.symm) htakes hgives
  | ungranted ticket woken other => exact absurd (h.holder_of_woken hbefore woken) other

end Moment

theorem perform_tryAcquire_of_free (h : c.lock.holder = none) : c.perform w .tryAcquire =
    .inr (.flag true, { c with lock := { c.lock with holder := some w } }) := by
  rw [perform, SleepLock.tryAcquire_of_free h]
  rfl

theorem perform_tryAcquire_of_held {u : ThreadId} (h : c.lock.holder = some u) :
    c.perform w .tryAcquire = .inr (.flag false, c) := by
  rw [perform, SleepLock.tryAcquire_of_held h]
  rfl

theorem perform_release_of_held (h : c.lock.holder = some w) :
    c.perform w .release = .inr (.done, { c with lock := c.lock.handOver }) := by
  rw [perform, SleepLock.release_eq_ok_iff.2 ⟨h, rfl⟩]
  rfl

theorem perform_release_of_not_held (h : c.lock.holder ≠ some w) :
    c.perform w .release = .inr (.halted .lockNotHeld, c) := by
  rw [perform, SleepLock.release_eq_error_iff.2 ⟨h, rfl⟩]
  rfl

/-- A command that takes steps begins without a ticket for the lock. -/
theorem Starts.lockTicket_eq {phase : Activity} (h : Starts phase) : phase.lockTicket = none := by
  cases h <;> rfl

/-- An idle worker waits for no lock. -/
theorem lockTicket_of_idle (h : c.activity w = none) : c.lockTicket w = none := by
  rw [lockTicket, h]
  rfl

theorem lockTicket_of_activity {phase : Activity} (h : c.activity w = some phase) :
    c.lockTicket w = phase.lockTicket := by
  rw [lockTicket, h]
  rfl

namespace Moment

variable {m : Moment}

/-- A step inside a command. -/
theorem LockKind.of_move (h : m.before.LockSound) {phase : Activity} {result : StepResult}
    (hcommand : m.command = none) (hbusy : m.before.activity m.worker = some phase)
    (hmoves : m.before.move m.worker phase = some (result, c))
    (hanswer : m.answer = result.getRight?) (hlock : m.after.lock = c.lock)
    (hafter : m.after.lockTicket m.worker = result.getLeft?.bind Activity.lockTicket) :
    m.LockKind := by
  have hbefore := lockTicket_of_activity hbusy
  cases phase with
  | acquiring phase =>
      obtain ⟨x, hacquire, heq⟩ := Option.map_eq_some_iff.1 hmoves
      refine .of_acquire h hacquire hbefore (by simp [gives, hcommand, hbusy]) ?_ ?_
      · rintro next l rfl
        cases next with
        | none | some next =>
            obtain ⟨rfl, rfl⟩ := Prod.mk.inj heq
            exact ⟨hlock, hafter, by simp [takes, hcommand, hbusy, hanswer]⟩
      · rintro halt rfl
        obtain ⟨rfl, rfl⟩ := Prod.mk.inj heq
        exact ⟨hlock, hafter, by simp [takes, hcommand, hbusy, hanswer]⟩
  | sleeping phase =>
      obtain ⟨x, hsleep, heq⟩ := Option.map_eq_some_iff.1 hmoves
      have htakes : m.takes = decide (m.answer = some .done) := by simp [takes, hcommand, hbusy]
      cases Condition.sleep_step hsleep with
      | enters | awakens =>
          obtain ⟨rfl, rfl⟩ := Prod.mk.inj heq
          exact .stays hlock (hafter.trans hbefore.symm) (by simp [htakes, hanswer])
            (by simp [gives, hcommand, hbusy])
      | unlocked | doubled =>
          obtain ⟨rfl, rfl⟩ := Prod.mk.inj heq
          exact .stays hlock (hafter.trans hbefore.symm) (by simp [htakes, hanswer])
            (by simp [gives, hcommand, hbusy])
      | leaves ticket held =>
          obtain ⟨rfl, rfl⟩ := Prod.mk.inj heq
          exact .frees held hlock hbefore hafter (by simp [htakes, hanswer])
            (by simp [gives, hcommand, hbusy, hanswer])
      | lost ticket other =>
          obtain ⟨rfl, rfl⟩ := Prod.mk.inj heq
          exact .stays hlock (hafter.trans hbefore.symm) (by simp [htakes, hanswer])
            (by simp [gives, hcommand, hbusy, hanswer])
      | returns phase result' acquires =>
          refine .of_acquire h acquires hbefore (by simp [gives, hcommand, hbusy]) ?_ ?_
          · rintro next l rfl
            cases next with
            | none | some next =>
                obtain ⟨rfl, rfl⟩ := Prod.mk.inj heq
                exact ⟨hlock, hafter, by simp [htakes, hanswer]⟩
          · rintro halt rfl
            obtain ⟨rfl, rfl⟩ := Prod.mk.inj heq
            exact ⟨hlock, hafter, by simp [htakes, hanswer]⟩
  | disabling | holding | enteringRegion | waiting =>
      have hkeeps := move_keeps hmoves
      refine .stays (hlock.trans (hkeeps.lock_eq nofun nofun)) ?_
        (by simp [takes, hcommand, hbusy]) (by simp [gives, hcommand, hbusy])
      rw [hafter, hkeeps.ends nofun nofun, hbefore]
      rfl

/-- The worker is told to give the lock back. -/
theorem LockKind.of_release (hm : m.Happens) (hcommand : m.command = some .release) :
    m.LockKind := by
  have hnone := lockTicket_of_idle (hm.idle hcommand)
  have htakes : m.takes = false := by rw [takes, hcommand]
  by_cases hheld : m.before.lock.holder = some m.worker
  · obtain ⟨hanswer, hafter⟩ := hm.performed hcommand (perform_release_of_held hheld)
    have hticket : m.after.lockTicket m.worker = m.before.lockTicket m.worker := by
      rw [hafter]
      rfl
    exact .frees hheld (by rw [hafter]) hnone (hticket.trans hnone) htakes
      (by rw [gives, hcommand, hanswer]; rfl)
  · obtain ⟨hanswer, hafter⟩ := hm.performed hcommand (perform_release_of_not_held hheld)
    exact .stays (by rw [hafter]) (by rw [hafter]) htakes
      (by rw [gives, hcommand, hanswer]; rfl)

/-- The worker tries to take the lock. -/
theorem LockKind.of_tryAcquire (hm : m.Happens) (hcommand : m.command = some .tryAcquire) :
    m.LockKind := by
  have hnone := lockTicket_of_idle (hm.idle hcommand)
  have hgives : m.gives = false := by rw [gives, hcommand]
  cases hholder : m.before.lock.holder with
  | none =>
      obtain ⟨hanswer, hafter⟩ := hm.performed hcommand (perform_tryAcquire_of_free hholder)
      have hticket : m.after.lockTicket m.worker = m.before.lockTicket m.worker := by
        rw [hafter]
        rfl
      exact .grabs hholder (by rw [hafter]) hnone (hticket.trans hnone)
        (by simp [takes, hcommand, hanswer]) hgives
  | some u =>
      obtain ⟨hanswer, hafter⟩ := hm.performed hcommand (perform_tryAcquire_of_held hholder)
      exact .stays (by rw [hafter]) (by rw [hafter]) (by simp [takes, hcommand, hanswer]) hgives

/-- Whatever happens to a crew, it deals with the lock in one of the five ways. -/
theorem Happens.lockKind (h : m.Happens) (hlock : m.before.LockSound) : m.LockKind := by
  have hlt := h.1
  cases h.form with
  | begins command phase hcommand hidle hperforms hanswer hafter =>
      refine .stays ?_ ?_ ?_ ?_
      · rw [hafter]
        rfl
      · rw [lockTicket_of_idle hidle, hafter, lockTicket, activity_update_self hlt]
        exact (perform_starts hperforms).lockTicket_eq
      · rw [takes, hcommand, hanswer]
        cases command <;> rfl
      · rw [gives, hcommand, hanswer]
        cases command <;> rfl
  | answers command answer hcommand hidle hperforms hanswer =>
      by_cases hrelease : command = .release
      · exact .of_release h (hcommand.trans (congrArg some hrelease))
      by_cases htry : command = .tryAcquire
      · exact .of_tryAcquire h (hcommand.trans (congrArg some htry))
      have hkeeps := perform_keeps hperforms
      refine .stays (hkeeps.lock_eq hrelease htry) ?_ ?_ ?_
      · rw [lockTicket, lockTicket, hkeeps.workers.activity_eq]
      · rw [takes, hcommand]
        cases command <;> first | rfl | exact absurd rfl htry
      · rw [gives, hcommand]
        cases command <;> first | rfl | exact absurd rfl hrelease
  | goes phase result c hcommand hbusy hmoves hanswer hafter =>
      refine .of_move hlock hcommand hbusy hmoves hanswer (by rw [hafter]; rfl) ?_
      rw [lockTicket, h.activity_moved hcommand hbusy hmoves]
  | stirs hcommand hblocked hanswer hafter =>
      refine .stays (by rw [hafter]) (by rw [hafter]) ?_ ?_
      · rw [takes, hcommand, hanswer]
        cases m.before.activity m.worker with
        | none => rfl
        | some phase => cases phase <;> rfl
      · rw [gives, hcommand]
        split
        · rename_i heq
          cases heq
        · rename_i hbusy
          -- a worker that gives the lock back never waits
          cases step_eq_none_iff.1 hblocked _ hbusy
        · rfl

/-- The other workers wait for the lock as they did. -/
theorem Happens.lockTicket_of_ne {u : ThreadId} (h : m.Happens) (hu : u ≠ m.worker) :
    m.after.lockTicket u = m.before.lockTicket u := by
  rw [lockTicket, lockTicket, h.activity_of_ne hu]

end Moment

/-- Nobody changes what another worker is doing with the lock. -/
theorem Moment.Happens.lockUse_of_ne {m : Moment} (hm : m.Happens) (h : m.before.LockSound)
    {u : ThreadId} (hu : u ≠ m.worker) : m.after.lockUse u = m.before.lockUse u := by
  refine lockUse_congr (hm.lockTicket_of_ne hu) fun hnone => ?_
  cases hm.lockKind h with
  | stays lock_eq _ _ _ | resumes _ lock_eq _ _ _ _ _ _ => rw [lock_eq]
  | queues _ _ _ _ _ _ lock_eq _ _ _ _ => rw [lock_eq]
  | grabs free lock_eq _ _ _ _ =>
      rw [lock_eq, free]
      exact ⟨fun heq => absurd (Option.some.inj heq).symm hu, nofun⟩
  | frees held lock_eq _ _ _ _ =>
      rw [lock_eq, held]
      exact ⟨fun heq => absurd heq (h.holder_handOver_ne hnone),
        fun heq => absurd (Option.some.inj heq).symm hu⟩

/-- Who goes on with the lock holds it. -/
theorem Moment.Happens.holding_of_takes {m : Moment} (hm : m.Happens) (h : m.before.LockSound)
    (htakes : m.takes = true) : m.after.lockUse m.worker = .holding := by
  cases hm.lockKind h with
  | stays _ _ takes_eq _ => cases htakes.symm.trans takes_eq
  | queues _ _ _ _ _ _ _ _ _ takes_eq _ => cases htakes.symm.trans takes_eq
  | frees _ _ _ _ takes_eq _ => cases htakes.symm.trans takes_eq
  | grabs _ lock_eq _ after_eq _ _ => exact lockUse_eq_holding_iff.2 ⟨by rw [lock_eq], after_eq⟩
  | resumes _ lock_eq _ _ held after_eq _ _ =>
      exact lockUse_eq_holding_iff.2 ⟨by rw [lock_eq, held], after_eq⟩

/-- Nobody takes the lock away from its holder. -/
theorem Moment.Happens.holder_of_ne {m : Moment} (hm : m.Happens) (h : m.before.LockSound)
    {u : ThreadId} (hu : u ≠ m.worker) (hholder : m.before.lock.holder = some u) :
    m.after.lock.holder = some u := by
  cases hm.lockKind h with
  | stays lock_eq _ _ _ | resumes _ lock_eq _ _ _ _ _ _ => rw [lock_eq, hholder]
  | queues _ _ _ _ _ _ lock_eq _ _ _ _ => rw [lock_eq, hholder]
  | grabs free _ _ _ _ _ => cases free.symm.trans hholder
  | frees held _ _ _ _ _ => exact absurd (Option.some.inj (hholder.symm.trans held)) hu

namespace LockSound

/-- What a moment does to the lock keeps it in order. -/
theorem moment {m : Moment} (h : m.before.LockSound) (hm : m.Happens) : m.after.LockSound := by
  have huse : m.after.lockUse =
      Function.update m.before.lockUse m.worker (m.after.lockUse m.worker) :=
    Function.eq_update_iff.2 ⟨rfl, fun u hu => hm.lockUse_of_ne h hu⟩
  cases hm.lockKind h with
  | stays lock_eq ticket_eq _ _ =>
      have hown : m.after.lockUse m.worker = m.before.lockUse m.worker :=
        lockUse_congr ticket_eq fun _ => by rw [lock_eq]
      rw [hown, Function.update_eq_self] at huse
      refine ⟨?_, ?_, ?_⟩ <;> rw [lock_eq]
      · rw [huse]
        exact h.serves
      · exact h.vacant
      · exact h.absent
  | grabs free lock_eq _ after_eq _ _ =>
      rw [lockUse_eq_holding_iff.2 ⟨by rw [lock_eq], after_eq⟩] at huse
      refine ⟨?_, ?_, ?_⟩ <;> rw [lock_eq]
      · rw [huse]
        exact h.serves.hold (by rw [h.vacant free]; exact nofun) (by rw [free]; exact nofun)
      · exact nofun
      · rw [h.vacant free]
        exact nofun
  | queues u ticket queue held other push lock_eq before_eq after_eq _ _ =>
      rw [lockUse_eq_queued_iff.2 after_eq] at huse
      refine ⟨?_, ?_, ?_⟩ <;> rw [lock_eq]
      · rw [huse]
        refine h.serves.push (h.serves.not_waiter fun ticket' hqueued => ?_) push
        rw [lockUse_eq_queued_iff.1 hqueued] at before_eq
        cases before_eq
      · intro hnone
        rw [held] at hnone
        cases hnone
      · obtain ⟨rfl, rfl⟩ := TicketQueue.push_ok push
        intro x hx
        rcases List.mem_append.1 hx with hx | hx
        · exact h.absent x hx
        · rw [List.mem_singleton.1 hx, held]
          exact fun heq => other (Option.some.inj heq)
  | resumes ticket lock_eq before_eq woken held after_eq _ _ =>
      -- the worker has been the holder since its ticket was woken, and now it knows
      rw [lockUse_eq_holding_iff.2 ⟨by rw [lock_eq, held], after_eq⟩] at huse
      refine ⟨?_, ?_, ?_⟩ <;> rw [lock_eq]
      · rw [huse]
        exact h.serves.acquire (lockUse_eq_queued_iff.2 before_eq)
          (SleepLock.acquire_of_woken woken held)
      · exact h.vacant
      · exact h.absent
  | frees held lock_eq before_eq after_eq _ _ =>
      have hother : m.after.lock.holder ≠ some m.worker := by
        rw [lock_eq]
        exact h.holder_handOver_ne before_eq
      rw [lockUse_eq_away_iff.2 ⟨hother, after_eq⟩] at huse
      refine ⟨?_, ?_, ?_⟩
      · rw [huse, lock_eq]
        exact h.serves.release (lockUse_eq_holding_iff.2 ⟨held, before_eq⟩)
          (SleepLock.release_eq_ok_iff.2 ⟨held, rfl⟩)
      · rw [lock_eq, SleepLock.handOver_eq, TicketQueue.waiters_wakeOne]
        intro hfree
        rw [List.head?_eq_none_iff.1 (Option.map_eq_none_iff.1 hfree)]
        rfl
      · rw [lock_eq, SleepLock.handOver_eq, TicketQueue.waiters_wakeOne]
        intro x hx hfirst
        -- the new holder was the first in the queue, and stood there once
        obtain ⟨y, hy, hthread⟩ := Option.map_eq_some_iff.1 hfirst
        obtain ⟨rest, hwaiters⟩ := List.head?_eq_some_iff.1 hy
        have hnodup := h.threads_nodup
        rw [hwaiters, List.map_cons, List.nodup_cons, hthread] at hnodup
        rw [hwaiters] at hx
        exact hnodup.1 (List.mem_map_of_mem hx)

end LockSound

theorem Run.lockSound {workers value : Nat} {history : List Moment}
    (h : Run workers value history c) : c.LockSound :=
  h.invariant (I := fun _ c => c.LockSound) (.ofSize workers value)
    fun _ _ _ hm ih => LockSound.moment ih hm

end Crew

end DemandPaging
