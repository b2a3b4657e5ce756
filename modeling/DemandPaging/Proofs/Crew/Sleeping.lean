import DemandPaging.Proofs.Crew.Locking

/-!
# What a moment does to the condition

A worker that sleeps stands in the queue of the condition, gives the lock back, waits to be woken
and takes the lock again. `Moment.Happens.sleepKind` lists everything that a moment can do to the
sleepers. In order (`SleepSound`), a worker that has queued but still has the lock cannot be woken,
for only the holder of the lock wakes; and a sleeper that asks for the lock again does not have it.
-/

namespace DemandPaging

/-- Where a worker is with the condition. -/
inductive SleepUse where
  | away
  /-- it has queued, and still has the lock -/
  | leaving (ticket : Ticket)
  /-- it has given the lock back -/
  | asleep (ticket : Ticket)
  /-- it was woken, and has yet to ask for the lock -/
  | woken
  /-- it waits for the lock -/
  | returning
deriving DecidableEq

namespace SleepUse

/-- The ticket with which a worker stands in the queue of the condition, or has stood there. -/
def ticket : SleepUse → Option Ticket
  | .leaving ticket | .asleep ticket => some ticket
  | .away | .woken | .returning => none

/-- Where a worker is with the condition inside a command. -/
def of : Activity → SleepUse
  | .sleeping (.leaving ticket) => .leaving ticket
  | .sleeping (.asleep ticket) => .asleep ticket
  | .sleeping (.returning .asking) => .woken
  | .sleeping (.returning (.queued _)) => .returning
  | _ => .away

end SleepUse

namespace Crew

variable {c c' : Crew} {w u : ThreadId} {command : Command} {answer : Answer}

def sleepUse (c : Crew) (w : ThreadId) : SleepUse := ((c.activity w).map SleepUse.of).getD .away

theorem sleepUse_of_activity {activity : Option Activity} (h : c.activity w = activity) :
    c.sleepUse w = (activity.map SleepUse.of).getD .away := by
  rw [sleepUse, h]

theorem sleepUse_eq_asleep_iff {ticket : Ticket} :
    c.sleepUse w = .asleep ticket ↔ c.activity w = some (.sleeping (.asleep ticket)) := by
  cases hactivity : c.activity w with
  | none => simp [sleepUse_of_activity hactivity]
  | some phase =>
      rw [sleepUse_of_activity hactivity]
      cases phase with
      | sleeping phase =>
          cases phase with
          | returning phase => cases phase <;> simp [SleepUse.of]
          | entering | leaving | asleep => simp [SleepUse.of]
      | acquiring | disabling | holding | enteringRegion | waiting => simp [SleepUse.of]

/-- A sleeper that was not woken, or has yet to ask for the lock, does not wait for it. -/
theorem lockTicket_of_sleepUse (haway : c.sleepUse w ≠ .away) (hback : c.sleepUse w ≠ .returning) :
    c.lockTicket w = none := by
  cases hactivity : c.activity w with
  | none => exact lockTicket_of_idle hactivity
  | some phase =>
      rw [sleepUse_of_activity hactivity] at haway hback
      rw [lockTicket_of_activity hactivity]
      cases phase with
      | sleeping phase =>
          cases phase with
          | returning phase =>
              cases phase with
              | asking => rfl
              | queued _ => exact absurd rfl hback
          | entering | leaving | asleep => rfl
      | acquiring | disabling | holding | enteringRegion | waiting => exact absurd rfl haway

/-- A command that takes steps begins outside the queue of the condition. -/
theorem Starts.sleepUse_eq {phase : Activity} (h : Starts phase) : SleepUse.of phase = .away := by
  cases h <;> rfl

theorem perform_wake_of_held (h : c.lock.holder = some w) : c.perform w .wake =
    .inr (.flag c.condition.queue.wakeOne.1,
      { c with condition := ⟨c.condition.queue.wakeOne.2⟩ }) := by
  rw [perform, Condition.wake, Condition.whileHolding_of_held h]
  rfl

theorem perform_wake_of_not_held (h : c.lock.holder ≠ some w) :
    c.perform w .wake = .inr (.halted .conditionUnlocked, c) := by
  rw [perform, Condition.wake, Condition.whileHolding_of_not_held h]
  rfl

theorem perform_wakeAll_of_held (h : c.lock.holder = some w) : c.perform w .wakeAll =
    .inr (.count c.condition.queue.wakeAll.1,
      { c with condition := ⟨c.condition.queue.wakeAll.2⟩ }) := by
  rw [perform, Condition.wakeAll, Condition.whileHolding_of_held h]
  rfl

theorem perform_wakeAll_of_not_held (h : c.lock.holder ≠ some w) :
    c.perform w .wakeAll = .inr (.halted .conditionUnlocked, c) := by
  rw [perform, Condition.wakeAll, Condition.whileHolding_of_not_held h]
  rfl

/-- The condition agrees with what all workers are doing with it and with the lock. -/
structure SleepSound (c : Crew) : Prop where
  serves : c.condition.queue.Serves fun w => (c.sleepUse w).ticket
  -- nobody else has the lock, so nobody has woken the worker
  leaving : ∀ w ticket, c.sleepUse w = .leaving ticket →
    c.lock.holder = some w ∧ ⟨w, ticket⟩ ∈ c.condition.queue.waiters
  asleep : ∀ w ticket, c.sleepUse w = .asleep ticket → c.lock.holder ≠ some w
  woken : ∀ w, c.sleepUse w = .woken → c.lock.holder ≠ some w

namespace Moment

/-- A sleep of the worker is over. -/
def returns (m : Moment) : Bool :=
  match m.command, m.before.activity m.worker with
  | none, some (.sleeping _) => m.answer = some .done
  | _, _ => false

/-- What a moment does to the condition and to its sleepers. -/
inductive SleepKind (m : Moment) : Prop where
  /-- nothing at all -/
  | stirs (after_eq : m.after = m.before) (answer_eq : m.answer = none)
      (returns_eq : m.returns = false)
  /-- nothing, and the worker has nothing to do with the condition -/
  | apart (condition_eq : m.after.condition = m.before.condition)
      (before_eq : m.before.sleepUse m.worker = .away)
      (after_eq : m.after.sleepUse m.worker = .away) (returns_eq : m.returns = false)
  /-- the worker queues, and still has the lock -/
  | enters (ticket : Ticket) (queue : TicketQueue) (held : m.before.lock.holder = some m.worker)
      (push : m.before.condition.queue.push m.worker = .ok (ticket, queue))
      (condition_eq : m.after.condition = ⟨queue⟩) (lock_eq : m.after.lock = m.before.lock)
      (before_eq : m.before.sleepUse m.worker = .away)
      (after_eq : m.after.sleepUse m.worker = .leaving ticket) (answer_eq : m.answer = none)
      (returns_eq : m.returns = false)
  /-- the worker gives the lock back -/
  | leaves (ticket : Ticket) (condition_eq : m.after.condition = m.before.condition)
      (lock_eq : m.after.lock = m.before.lock.handOver)
      (before_eq : m.before.sleepUse m.worker = .leaving ticket)
      (after_eq : m.after.sleepUse m.worker = .asleep ticket) (answer_eq : m.answer = none)
      (returns_eq : m.returns = false)
  /-- the worker was woken -/
  | awakens (ticket : Ticket) (woken : m.before.condition.queue.isWoken ticket = true)
      (condition_eq : m.after.condition = m.before.condition)
      (lock_eq : m.after.lock = m.before.lock)
      (before_eq : m.before.sleepUse m.worker = .asleep ticket)
      (after_eq : m.after.sleepUse m.worker = .woken) (answer_eq : m.answer = none)
      (returns_eq : m.returns = false)
  /-- the worker queues for the lock -/
  | requeues (condition_eq : m.after.condition = m.before.condition)
      (before_eq : m.before.sleepUse m.worker = .woken)
      (after_eq : m.after.sleepUse m.worker = .returning) (answer_eq : m.answer = none)
      (returns_eq : m.returns = false)
  /-- the worker has the lock again -/
  | returns (condition_eq : m.after.condition = m.before.condition)
      (before_eq : m.before.sleepUse m.worker = .woken ∨
        m.before.sleepUse m.worker = .returning)
      (after_eq : m.after.sleepUse m.worker = .away) (answer_eq : m.answer = some .done)
      (takes_eq : m.takes = true) (returns_eq : m.returns = true)
  /-- the worker, which holds the lock, wakes others -/
  | wakes (hcommand : m.command = some .wake ∨ m.command = some .wakeAll)
      (held : m.before.lock.holder = some m.worker)
      (before_eq : m.before.sleepUse m.worker = .away) (taken : List Waiter) (queue : TicketQueue)
      (wakes : m.before.condition.queue.Wakes queue taken)
      (after_eq : m.after = { m.before with condition := ⟨queue⟩ }) (returns_eq : m.returns = false)

variable {m : Moment}

/-- A step of a sleep. -/
theorem SleepKind.of_sleep {phase : Sleeping}
    {result : Except Halt (Option Sleeping × Condition × SleepLock)} (hlock : m.before.LockSound)
    (h : m.before.SleepSound) (hcommand : m.command = none)
    (hbusy : m.before.activity m.worker = some (.sleeping phase))
    (hsleep : m.before.condition.sleep m.before.lock m.worker phase = some result)
    (hok : ∀ next condition lock, result = .ok (next, condition, lock) →
      m.after.condition = condition ∧ m.after.lock = lock ∧
        m.after.activity m.worker = next.map .sleeping ∧
        m.answer = if next = none then some .done else none)
    (herror : ∀ halt, result = .error halt → m.after.condition = m.before.condition ∧
      m.after.activity m.worker = none ∧ m.answer = some (.halted halt)) : m.SleepKind := by
  have hbefore := sleepUse_of_activity hbusy
  have hreturns : m.returns = decide (m.answer = some .done) := by
    simp [Moment.returns, hcommand, hbusy]
  have htakes : m.takes = decide (m.answer = some .done) := by simp [takes, hcommand, hbusy]
  cases Condition.sleep_step hsleep with
  | enters ticket queue held push =>
      obtain ⟨hcondition, hlock, hafter, hanswer⟩ := hok _ _ _ rfl
      exact .enters ticket queue held push hcondition hlock hbefore (sleepUse_of_activity hafter)
        hanswer (by rw [hreturns, hanswer]; rfl)
  | unlocked other =>
      obtain ⟨hcondition, hafter, hanswer⟩ := herror _ rfl
      exact .apart hcondition hbefore (sleepUse_of_activity hafter) (by rw [hreturns, hanswer]; rfl)
  | doubled held sleeps =>
      exact absurd sleeps (h.serves.not_contains (by rw [hbefore]; rfl))
  | leaves ticket held =>
      obtain ⟨hcondition, hlock, hafter, hanswer⟩ := hok _ _ _ rfl
      exact .leaves ticket hcondition hlock hbefore (sleepUse_of_activity hafter) hanswer
        (by rw [hreturns, hanswer]; rfl)
  | lost ticket other => exact absurd (h.leaving _ _ hbefore).1 other
  | awakens ticket woken =>
      obtain ⟨hcondition, hlock, hafter, hanswer⟩ := hok _ _ _ rfl
      exact .awakens ticket woken hcondition hlock hbefore (sleepUse_of_activity hafter) hanswer
        (by rw [hreturns, hanswer]; rfl)
  | returns phase result acquires =>
      cases SleepLock.acquire_step acquires with
      | grabs free =>
          obtain ⟨hcondition, -, hafter, hanswer⟩ := hok _ _ _ rfl
          exact .returns hcondition (.inl hbefore) (sleepUse_of_activity hafter) hanswer
            (by rw [htakes, hanswer]; rfl) (by rw [hreturns, hanswer]; rfl)
      | queues u ticket queue held other push =>
          obtain ⟨hcondition, -, hafter, hanswer⟩ := hok _ _ _ rfl
          exact .requeues hcondition hbefore (sleepUse_of_activity hafter) hanswer
            (by rw [hreturns, hanswer]; rfl)
      | resumes ticket woken held =>
          obtain ⟨hcondition, -, hafter, hanswer⟩ := hok _ _ _ rfl
          exact .returns hcondition (.inr hbefore) (sleepUse_of_activity hafter) hanswer
            (by rw [htakes, hanswer]; rfl) (by rw [hreturns, hanswer]; rfl)
      | nested held => exact absurd held (h.woken _ hbefore)
      | doubled other waits =>
          obtain ⟨x, hx, hthread⟩ := TicketQueue.contains_iff.1 waits
          have hticket := hlock.lockTicket_of_waiter hx
          rw [hthread, lockTicket_of_activity hbusy] at hticket
          cases hticket
      | ungranted ticket woken other =>
          exact absurd (hlock.holder_of_woken (lockTicket_of_activity hbusy) woken) other

/-- Whatever happens to a crew, it deals with the sleepers in one of the eight ways. -/
theorem Happens.sleepKind (hm : m.Happens) (hlock : m.before.LockSound)
    (h : m.before.SleepSound) : m.SleepKind := by
  cases hm.form with
  | begins command phase hcommand hidle hperforms hanswer hafter =>
      refine .apart (by rw [hafter]; rfl) (sleepUse_of_activity hidle) ?_ ?_
      · rw [hafter, sleepUse, activity_update_self hm.1]
        exact (perform_starts hperforms).sleepUse_eq
      · rw [Moment.returns, hcommand]
  | answers command answer hcommand hidle hperforms hanswer =>
      have hreturns : m.returns = false := by rw [Moment.returns, hcommand]
      have hkeeps := perform_keeps hperforms
      have hbefore : m.before.sleepUse m.worker = .away := sleepUse_of_activity hidle
      have hafter : m.after.sleepUse m.worker = .away :=
        sleepUse_of_activity ((hkeeps.workers.activity_eq m.worker).trans hidle)
      by_cases hwake : command = .wake
      · subst hwake
        by_cases held : m.before.lock.holder = some m.worker
        · have hafter := (hm.performed hcommand (perform_wake_of_held held)).2
          exact .wakes (.inl hcommand) held hbefore _ _ (TicketQueue.wakes_wakeOne _) hafter
            hreturns
        · have hsame := (hm.performed hcommand (perform_wake_of_not_held held)).2
          exact .apart (by rw [hsame]) hbefore hafter hreturns
      by_cases hwakeAll : command = .wakeAll
      · subst hwakeAll
        by_cases held : m.before.lock.holder = some m.worker
        · have hafter := (hm.performed hcommand (perform_wakeAll_of_held held)).2
          exact .wakes (.inr hcommand) held hbefore _ _ (TicketQueue.wakes_wakeAll _) hafter
            hreturns
        · have hsame := (hm.performed hcommand (perform_wakeAll_of_not_held held)).2
          exact .apart (by rw [hsame]) hbefore hafter hreturns
      exact .apart (hkeeps.condition_eq hwake hwakeAll) hbefore hafter hreturns
  | goes phase result c hcommand hbusy hmoves hanswer hafter =>
      have hactivity := hm.activity_moved hcommand hbusy hmoves
      have hkeeps := move_keeps hmoves
      cases phase with
      | sleeping phase =>
          obtain ⟨x, hsleep, heq⟩ := Option.map_eq_some_iff.1 hmoves
          refine .of_sleep hlock h hcommand hbusy hsleep ?_ ?_
          · rintro next condition lock rfl
            cases next with
            | none | some next =>
                obtain ⟨rfl, rfl⟩ := Prod.mk.inj heq
                rw [hafter]
                exact ⟨rfl, rfl, hafter ▸ hactivity, hanswer⟩
          · rintro halt rfl
            obtain ⟨rfl, rfl⟩ := Prod.mk.inj heq
            exact ⟨by rw [hafter]; rfl, hactivity, hanswer⟩
      | acquiring phase =>
          refine .apart (by rw [hafter]; exact hkeeps.condition_eq nofun)
            (sleepUse_of_activity hbusy) ?_ (by simp [Moment.returns, hcommand, hbusy])
          rw [sleepUse_of_activity hactivity]
          obtain ⟨x, -, heq⟩ := Option.map_eq_some_iff.1 hmoves
          rcases phaseOr_cases heq with ⟨_, _, -, rfl, -⟩ | ⟨_, -, rfl, -⟩ | ⟨_, -, rfl, -⟩ <;> rfl
      | disabling | holding | enteringRegion | waiting =>
          refine .apart (by rw [hafter]; exact hkeeps.condition_eq nofun)
            (sleepUse_of_activity hbusy) ?_ (by simp [Moment.returns, hcommand, hbusy])
          rw [sleepUse_of_activity hactivity, hkeeps.ends nofun nofun]
          rfl
  | stirs hcommand hblocked hanswer hafter =>
      refine .stirs hafter hanswer ?_
      rw [Moment.returns, hcommand, hanswer]
      split <;> rfl

theorem Happens.sleepUse_of_ne {u : ThreadId} (hm : m.Happens) (hu : u ≠ m.worker) :
    m.after.sleepUse u = m.before.sleepUse u := by
  rw [sleepUse, sleepUse, hm.activity_of_ne hu]

end Moment

namespace SleepSound

variable {m : Moment}

theorem ofSize (workers value : Nat) : (Crew.ofSize workers value).SleepSound := by
  have haway : ∀ w, (Crew.ofSize workers value).sleepUse w = .away := by
    intro w
    rw [sleepUse, activity, worker_ofSize]
    rfl
  refine ⟨?_, fun w _ hw => ?_, fun w _ hw => ?_, fun w hw => ?_⟩
  · simp only [haway]
    exact .fresh
  all_goals
    rw [haway] at hw
    cases hw

/-- What the other workers are doing with the lock does not change, so it is enough to look at the
worker itself. -/
theorem of_own (h : m.before.SleepSound) (hlock : m.before.LockSound) (hm : m.Happens)
    (serves : m.after.condition.queue.Serves fun w => (m.after.sleepUse w).ticket)
    (kept : ∀ x ∈ m.before.condition.queue.waiters, x ∈ m.after.condition.queue.waiters)
    (leaving : ∀ ticket, m.after.sleepUse m.worker = .leaving ticket →
      m.after.lock.holder = some m.worker ∧
        ⟨m.worker, ticket⟩ ∈ m.after.condition.queue.waiters)
    (asleep : ∀ ticket, m.after.sleepUse m.worker = .asleep ticket →
      m.after.lock.holder ≠ some m.worker)
    (woken : m.after.sleepUse m.worker = .woken → m.after.lock.holder ≠ some m.worker) :
    m.after.SleepSound := by
  have haway : ∀ u, u ≠ m.worker → m.before.lock.holder ≠ some u → m.before.lockTicket u = none →
      m.after.lock.holder ≠ some u := by
    intro u hu hholder hnone
    have huse := hm.lockUse_of_ne hlock hu
    rw [lockUse_eq_away_iff.2 ⟨hholder, hnone⟩] at huse
    exact (lockUse_eq_away_iff.1 huse).1
  -- twice for each clause: the worker itself, and any other
  refine ⟨serves, fun u ticket hu => ?_, fun u ticket hu => ?_, fun u hu => ?_⟩ <;>
    by_cases hworker : u = m.worker
  · subst hworker
    exact leaving ticket hu
  · rw [hm.sleepUse_of_ne hworker] at hu
    obtain ⟨hholder, hwaits⟩ := h.leaving u ticket hu
    exact ⟨hm.holder_of_ne hlock hworker hholder, kept _ hwaits⟩
  · subst hworker
    exact asleep ticket hu
  · rw [hm.sleepUse_of_ne hworker] at hu
    refine haway u hworker (h.asleep u ticket hu) (lockTicket_of_sleepUse ?_ ?_) <;>
      rw [hu] <;> exact nofun
  · subst hworker
    exact woken hu
  · rw [hm.sleepUse_of_ne hworker] at hu
    refine haway u hworker (h.woken u hu) (lockTicket_of_sleepUse ?_ ?_) <;>
      rw [hu] <;> exact nofun

/-- What a moment does to the sleepers keeps them in order. -/
theorem moment (h : m.before.SleepSound) (hlock : m.before.LockSound) (hm : m.Happens) :
    m.after.SleepSound := by
  have htickets : (fun w => (m.after.sleepUse w).ticket) = Function.update
      (fun w => (m.before.sleepUse w).ticket) m.worker (m.after.sleepUse m.worker).ticket := by
    refine Function.eq_update_iff.2 ⟨rfl, fun u hu => ?_⟩
    rw [hm.sleepUse_of_ne hu]
  have hsame : (m.after.sleepUse m.worker).ticket = (m.before.sleepUse m.worker).ticket →
      m.after.condition = m.before.condition →
      m.after.condition.queue.Serves fun w => (m.after.sleepUse w).ticket := by
    intro hticket hcondition
    rw [htickets, hticket, Function.update_eq_self, hcondition]
    exact h.serves
  cases hm.sleepKind hlock h with
  | stirs after_eq _ _ =>
      rw [after_eq]
      exact h
  | apart condition_eq before_eq after_eq _ =>
      refine h.of_own hlock hm (hsame (by rw [before_eq, after_eq]) condition_eq) ?_ ?_ ?_ ?_
      · rw [condition_eq]
        exact fun _ hx => hx
      all_goals
        rw [after_eq]
        exact nofun
  | enters ticket queue held push condition_eq lock_eq before_eq after_eq _ _ =>
      obtain ⟨hserves, -, -⟩ := h.serves.push (by rw [before_eq]; rfl) push
      obtain ⟨rfl, rfl⟩ := TicketQueue.push_ok push
      refine h.of_own hlock hm ?_ ?_ (fun ticket hticket => ?_) ?_ ?_
      · rw [htickets, after_eq, condition_eq]
        exact hserves
      · rw [condition_eq]
        exact fun x hx => List.mem_append_left _ hx
      · rw [after_eq] at hticket
        obtain rfl := SleepUse.leaving.inj hticket
        rw [lock_eq, condition_eq]
        exact ⟨held, List.mem_append_right _ (List.mem_singleton_self _)⟩
      all_goals
        rw [after_eq]
        exact nofun
  | leaves ticket condition_eq lock_eq before_eq after_eq _ _ =>
      refine h.of_own hlock hm (hsame (by rw [before_eq, after_eq]; rfl) condition_eq) ?_ ?_ ?_ ?_
      · rw [condition_eq]
        exact fun _ hx => hx
      · rw [after_eq]
        exact nofun
      · intro _ _
        rw [lock_eq]
        -- the lock goes to someone who waits for it, and the worker does not
        refine hlock.holder_handOver_ne (lockTicket_of_sleepUse ?_ ?_) <;>
          rw [before_eq] <;> exact nofun
      · rw [after_eq]
        exact nofun
  | awakens ticket woken condition_eq lock_eq before_eq after_eq _ _ =>
      refine h.of_own hlock hm ?_ ?_ ?_ ?_ ?_
      · rw [htickets, after_eq, condition_eq]
        exact h.serves.leave (by rw [before_eq]; rfl) woken
      · rw [condition_eq]
        exact fun _ hx => hx
      · rw [after_eq]
        exact nofun
      · rw [after_eq]
        exact nofun
      · intro _
        rw [lock_eq]
        exact h.asleep _ _ before_eq
  | requeues condition_eq before_eq after_eq _ _ =>
      refine h.of_own hlock hm (hsame (by rw [before_eq, after_eq]; rfl) condition_eq) ?_ ?_ ?_ ?_
      · rw [condition_eq]
        exact fun _ hx => hx
      all_goals
        rw [after_eq]
        exact nofun
  | returns condition_eq before_eq after_eq _ _ _ =>
      refine h.of_own hlock hm (hsame ?_ condition_eq) ?_ ?_ ?_ ?_
      · rcases before_eq with before_eq | before_eq <;> rw [before_eq, after_eq] <;> rfl
      · rw [condition_eq]
        exact fun _ hx => hx
      all_goals
        rw [after_eq]
        exact nofun
  | wakes _ held before_eq taken queue wakes after_eq _ =>
      rw [after_eq]
      refine ⟨h.serves.wakes wakes, fun w ticket hw => ?_, h.asleep, h.woken⟩
      -- whoever still has the lock is the worker that wakes, which does not sleep
      have hholder := (h.leaving w ticket hw).1
      obtain rfl := Option.some.inj (hholder.symm.trans held)
      cases before_eq.symm.trans hw

end SleepSound

theorem Run.sleepSound {workers value : Nat} {history : List Moment}
    (h : Run workers value history c) : c.SleepSound :=
  h.invariant (I := fun _ c => c.SleepSound) (.ofSize workers value)
    fun _ _ hrun hm ih => SleepSound.moment ih hrun.lockSound hm

end Crew

end DemandPaging
