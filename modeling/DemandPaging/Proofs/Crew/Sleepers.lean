import DemandPaging.Proofs.Crew.Sleeping

/-!
# No wake-up is lost or made up

A worker that sleeps on the condition is taken out of its queue by one `wake` or `wakeAll`, and
comes back from its sleep after that, with the lock. What comes into the queue comes out of it in
order (`Moment.Happens.sleepTurn`), and a worker that was taken out is on its way back until
its sleep is over (`Moment.Happens.count_woken`). `Run.sleepHistory` adds this up over a whole run.
-/

namespace DemandPaging

/-- A worker was taken out of the queue of the condition and is on its way back. -/
def SleepUse.wasWoken (q : TicketQueue) : SleepUse → Bool
  | .asleep ticket => q.isWoken ticket
  | .woken | .returning => true
  | .away | .leaving _ => false

theorem SleepUse.wasWoken_congr {q q' : TicketQueue} (h : q'.isWoken = q.isWoken)
    (use : SleepUse) : use.wasWoken q' = use.wasWoken q := by
  cases use <;> simp only [wasWoken, h]

namespace Crew

variable {c c' : Crew} {w u : ThreadId}

/-- A worker was woken from its sleep, which is not over. -/
def wasWoken (c : Crew) (w : ThreadId) : Bool := (c.sleepUse w).wasWoken c.condition.queue

namespace Moment

variable {m : Moment}

/-- The worker that comes to stand in the queue of the condition, with its ticket. -/
def entersSleep (m : Moment) : Option Waiter :=
  newTicket m.worker (m.before.sleepUse m.worker).ticket (m.after.sleepUse m.worker).ticket

/-- The workers that are taken out of the queue of the condition. -/
def woken (m : Moment) : List Waiter :=
  m.before.condition.queue.waiters.filter (· ∉ m.after.condition.queue.waiters)

theorem woken_eq_nil (h : ∀ x ∈ m.before.condition.queue.waiters,
    x ∈ m.after.condition.queue.waiters) : m.woken = [] := by
  rw [woken, List.filter_eq_nil_iff]
  intro x hx
  rw [decide_eq_true_eq, not_not]
  exact h x hx

theorem woken_of_condition_eq (h : m.after.condition = m.before.condition) : m.woken = [] :=
  woken_eq_nil (by rw [h]; exact fun _ hx => hx)

/-- Who was in front of those that still wait is taken out. -/
theorem woken_eq_of_append (h : m.before.SleepSound) {taken : List Waiter}
    (hsplit : m.before.condition.queue.waiters = taken ++ m.after.condition.queue.waiters) :
    m.woken = taken := by
  have hnodup := h.serves.tickets_nodup.of_map
  rw [hsplit] at hnodup
  have hdisjoint := (List.nodup_append.1 hnodup).2.2
  have htaken : taken.filter (· ∉ m.after.condition.queue.waiters) = taken := by
    rw [List.filter_eq_self]
    intro x hx
    rw [decide_eq_true_eq]
    exact fun hx' => hdisjoint x hx x hx' rfl
  have hrest : m.after.condition.queue.waiters.filter
      (· ∉ m.after.condition.queue.waiters) = [] := by
    rw [List.filter_eq_nil_iff]
    intro x hx
    rw [decide_eq_true_eq, not_not]
    exact hx
  rw [woken, hsplit, List.filter_append, htaken, hrest, List.append_nil]

/-- What a moment does to the queue of the condition. Only `wake` and `wakeAll` take workers out. -/
theorem Happens.sleepTurn (hm : m.Happens) (hlock : m.before.LockSound)
    (h : m.before.SleepSound) :
    m.before.condition.queue.Turn m.after.condition.queue m.worker m.entersSleep m.woken ∧
      (m.woken = [] ∨ m.command = some .wake ∨ m.command = some .wakeAll) := by
  have hstays : m.after.condition = m.before.condition →
      ((m.before.sleepUse m.worker).ticket = none → (m.after.sleepUse m.worker).ticket = none) →
      m.before.condition.queue.Turn m.after.condition.queue m.worker m.entersSleep m.woken ∧
        (m.woken = [] ∨ m.command = some .wake ∨ m.command = some .wakeAll) := by
    intro hcondition htickets
    rw [entersSleep, newTicket_eq_none htickets, woken_of_condition_eq hcondition, hcondition]
    exact ⟨.stays rfl, .inl rfl⟩
  cases hm.sleepKind hlock h with
  | stirs after_eq _ _ => exact hstays (by rw [after_eq]) fun hnone => by rw [after_eq, hnone]
  | apart condition_eq _ after_eq _ => exact hstays condition_eq fun _ => by rw [after_eq]; rfl
  | enters ticket queue _ push condition_eq _ before_eq after_eq _ _ =>
      have hwoken : m.woken = [] := by
        obtain ⟨rfl, rfl⟩ := TicketQueue.push_ok push
        refine woken_eq_nil ?_
        rw [condition_eq]
        exact fun x hx => List.mem_append_left _ hx
      rw [entersSleep, before_eq, after_eq, hwoken, condition_eq]
      exact ⟨.comes ticket push, .inl rfl⟩
  | leaves ticket condition_eq _ before_eq after_eq _ _ =>
      exact hstays condition_eq fun hnone => by rw [after_eq]; rw [before_eq] at hnone; exact hnone
  | awakens ticket _ condition_eq _ _ after_eq _ _ =>
      exact hstays condition_eq fun _ => by rw [after_eq]; rfl
  | requeues condition_eq _ after_eq _ _ =>
      exact hstays condition_eq fun _ => by rw [after_eq]; rfl
  | returns condition_eq _ after_eq _ _ _ =>
      exact hstays condition_eq fun _ => by rw [after_eq]; rfl
  | wakes hcommand _ before_eq taken queue wakes after_eq _ =>
      have hcondition : m.after.condition = ⟨queue⟩ := by rw [after_eq]
      have huse : m.after.sleepUse m.worker = m.before.sleepUse m.worker := by rw [after_eq]; rfl
      have htaken : m.woken = taken :=
        woken_eq_of_append h (by rw [hcondition]; exact wakes.waiters_eq)
      rw [entersSleep, newTicket_eq_none fun hnone => by rw [huse, hnone], htaken, hcondition]
      exact ⟨.leave taken wakes, .inr hcommand⟩

/-- When nobody is taken out, it is enough to look at the worker itself. -/
theorem Happens.count_woken_of_own (hm : m.Happens) (hwoken : m.woken = [])
    (hqueue : m.after.condition.queue.isWoken = m.before.condition.queue.isWoken)
    (hown : (m.before.wasWoken m.worker).toNat =
      (if m.returns then 1 else 0) + (m.after.wasWoken m.worker).toNat) (w : ThreadId) :
    (m.before.wasWoken w).toNat + (m.woken.map Waiter.thread).count w =
      (if m.worker = w ∧ m.returns then 1 else 0) + (m.after.wasWoken w).toNat := by
  rw [hwoken]
  by_cases hw : m.worker = w
  · subst hw
    simp only [true_and]
    exact hown
  · have hsame : m.after.wasWoken w = m.before.wasWoken w := by
      rw [wasWoken, wasWoken, hm.sleepUse_of_ne (Ne.symm hw), SleepUse.wasWoken_congr hqueue]
    simp only [hsame, hw, false_and, if_false, Nat.zero_add]
    rfl

/-- A worker that was taken out is on its way back until its sleep is over. -/
theorem Happens.count_woken (hm : m.Happens) (hlock : m.before.LockSound)
    (h : m.before.SleepSound) (w : ThreadId) :
    (m.before.wasWoken w).toNat + (m.woken.map Waiter.thread).count w =
      (if m.worker = w ∧ m.returns then 1 else 0) + (m.after.wasWoken w).toNat := by
  cases hm.sleepKind hlock h with
  | stirs after_eq _ returns_eq =>
      have hcondition : m.after.condition = m.before.condition := by rw [after_eq]
      refine hm.count_woken_of_own (woken_of_condition_eq hcondition) (by rw [after_eq]) ?_ w
      rw [after_eq, returns_eq]
      exact (Nat.zero_add _).symm
  | apart condition_eq before_eq after_eq returns_eq =>
      refine hm.count_woken_of_own (woken_of_condition_eq condition_eq) (by rw [condition_eq]) ?_ w
      rw [wasWoken, wasWoken, before_eq, after_eq, returns_eq]
      rfl
  | enters ticket queue _ push condition_eq _ before_eq after_eq _ returns_eq =>
      obtain ⟨rfl, rfl⟩ := TicketQueue.push_ok push
      refine hm.count_woken_of_own (woken_eq_nil ?_) (by rw [condition_eq]; rfl) ?_ w
      · rw [condition_eq]
        exact fun x hx => List.mem_append_left _ hx
      · rw [wasWoken, wasWoken, before_eq, after_eq, returns_eq]
        rfl
  | leaves ticket condition_eq _ before_eq after_eq _ returns_eq =>
      have hasleep : m.after.condition.queue.isWoken ticket = false := by
        rw [← Bool.not_eq_true, TicketQueue.isWoken_iff, condition_eq]
        exact h.serves.asleep _ (h.leaving _ _ before_eq).2
      refine hm.count_woken_of_own (woken_of_condition_eq condition_eq) (by rw [condition_eq]) ?_ w
      have hafter : m.after.wasWoken m.worker = false := by
        rw [wasWoken, after_eq]
        exact hasleep
      rw [hafter, returns_eq, wasWoken, before_eq]
      rfl
  | awakens ticket woken condition_eq _ before_eq after_eq _ returns_eq =>
      refine hm.count_woken_of_own (woken_of_condition_eq condition_eq) (by rw [condition_eq]) ?_ w
      have hbefore : m.before.wasWoken m.worker = true := by
        rw [wasWoken, before_eq]
        exact woken
      rw [hbefore, returns_eq, wasWoken, after_eq]
      rfl
  | requeues condition_eq before_eq after_eq _ returns_eq =>
      refine hm.count_woken_of_own (woken_of_condition_eq condition_eq) (by rw [condition_eq]) ?_ w
      rw [wasWoken, wasWoken, before_eq, after_eq, returns_eq]
      rfl
  | returns condition_eq before_eq after_eq _ _ returns_eq =>
      refine hm.count_woken_of_own (woken_of_condition_eq condition_eq) (by rw [condition_eq]) ?_ w
      rcases before_eq with before_eq | before_eq <;>
        rw [wasWoken, wasWoken, before_eq, after_eq, returns_eq] <;> rfl
  | wakes _ held before_eq taken queue wakes after_eq returns_eq =>
      have hcondition : m.after.condition = ⟨queue⟩ := by rw [after_eq]
      have htaken : m.woken = taken :=
        woken_eq_of_append h (by rw [hcondition]; exact wakes.waiters_eq)
      have huse : m.after.sleepUse w = m.before.sleepUse w := by rw [after_eq]; rfl
      simp only [wasWoken, huse, returns_eq, Bool.false_eq_true, and_false, if_false, Nat.zero_add,
        htaken, hcondition]
      cases hw : m.before.sleepUse w with
      | asleep ticket =>
          exact h.serves.count_taken wakes (by rw [hw]; rfl)
      | leaving ticket =>
          -- it would have the lock, which the worker has that wakes
          obtain rfl := Option.some.inj ((h.leaving w ticket hw).1.symm.trans held)
          cases before_eq.symm.trans hw
      | away | woken | returning =>
          rw [h.serves.count_taken_eq_zero wakes (by rw [hw]; rfl)]
          rfl

/-- Who has a ticket for the condition had it before, or has just queued. -/
theorem Happens.sleepTicket_cases (hm : m.Happens) (hlock : m.before.LockSound)
    (h : m.before.SleepSound) {ticket : Ticket}
    (hticket : (m.after.sleepUse w).ticket = some ticket) :
    (m.before.sleepUse w).ticket = some ticket ∨ m.entersSleep = some ⟨w, ticket⟩ := by
  by_cases hw : w = m.worker
  · subst hw
    cases hm.sleepKind hlock h with
    | stirs after_eq _ _ => exact .inl (after_eq ▸ hticket)
    | leaves ticket' _ _ before_eq after_eq _ _ =>
        rw [after_eq] at hticket
        exact .inl (by rw [before_eq]; exact hticket)
    | enters ticket' _ _ _ _ _ before_eq after_eq _ _ =>
        refine .inr ?_
        rw [entersSleep, before_eq, hticket]
        rfl
    | wakes _ _ _ _ _ _ after_eq _ => exact .inl (by rw [after_eq] at hticket; exact hticket)
    | apart _ _ after_eq _ | requeues _ _ after_eq _ _ | returns _ _ after_eq _ _ _ =>
        rw [after_eq] at hticket
        cases hticket
    | awakens _ _ _ _ _ after_eq _ _ =>
        rw [after_eq] at hticket
        cases hticket
  · exact .inl (by rw [← hm.sleepUse_of_ne hw]; exact hticket)

/-- What the calls that sleep and wake may do. -/
structure SleepRules (m : Moment) : Prop where
  /-- the holder of the lock takes out the longest sleeper and is told whether there was one; anyone
  else is halted, and changes nothing -/
  wakes : m.command = some .wake →
    m.before.lock.holder = some m.worker ∧
        m.answer = some (.flag (decide (0 < m.before.condition.sleepers))) ∧
        m.woken = m.before.condition.queue.waiters.take 1 ∧
        m.after = { m.before with condition := m.after.condition } ∨
      m.before.lock.holder ≠ some m.worker ∧ m.answer = some (.halted .conditionUnlocked) ∧
        m.after = m.before
  /-- the holder of the lock takes out every sleeper and is told how many there were -/
  wakesAll : m.command = some .wakeAll →
    m.before.lock.holder = some m.worker ∧
        m.answer = some (.count m.before.condition.sleepers) ∧
        m.woken = m.before.condition.queue.waiters ∧
        m.after = { m.before with condition := m.after.condition } ∨
      m.before.lock.holder ≠ some m.worker ∧ m.answer = some (.halted .conditionUnlocked) ∧
        m.after = m.before
  /-- all that the holder of the lock can take out have given the lock back -/
  gaveBack : m.command = some .wake ∨ m.command = some .wakeAll →
    m.before.lock.holder = some m.worker → ∀ x ∈ m.before.condition.queue.waiters,
      m.before.activity x.thread = some (.sleeping (.asleep x.ticket))
  /-- nothing else takes anyone out -/
  others : m.command ≠ some .wake → m.command ≠ some .wakeAll → m.woken = []
  /-- the holder of the lock queues; anyone else is halted, and changes nothing -/
  enters : m.command = none → m.before.activity m.worker = some (.sleeping .entering) →
    (∃ ticket, m.before.lock.holder = some m.worker ∧ m.answer = none ∧
        m.entersSleep = some ⟨m.worker, ticket⟩ ∧ m.after.lock = m.before.lock) ∨
      m.before.lock.holder ≠ some m.worker ∧ m.answer = some (.halted .conditionUnlocked) ∧
        m.after = m.before.withActivity m.worker none
  /-- who has queued gives the lock back -/
  leaves : ∀ ticket, m.command = none →
    m.before.activity m.worker = some (.sleeping (.leaving ticket)) →
    m.before.lock.holder = some m.worker ∧ m.answer = none ∧
      m.after.lock = m.before.lock.handOver ∧ m.after.condition = m.before.condition ∧
      m.after.activity m.worker = some (.sleeping (.asleep ticket))
  /-- who sleeps may stir, but goes on only when it was taken out -/
  sleeps : ∀ ticket, m.command = none →
    m.before.activity m.worker = some (.sleeping (.asleep ticket)) →
    ⟨m.worker, ticket⟩ ∈ m.before.condition.queue.waiters ∧ m.answer = none ∧
        m.after = m.before ∨
      ⟨m.worker, ticket⟩ ∉ m.before.condition.queue.waiters ∧ m.answer = none ∧
        m.after = m.before.withActivity m.worker (some (.sleeping (.returning .asking)))
  /-- a sleep is over when the worker was taken out and has the lock again -/
  returns : m.returns = true →
    m.before.wasWoken m.worker = true ∧ m.after.lockUse m.worker = .holding
  /-- nothing but the missing lock halts a sleep -/
  halts : ∀ phase halt, m.command = none → m.before.activity m.worker = some (.sleeping phase) →
    m.answer = some (.halted halt) → phase = .entering

end Moment

/-- Who sleeps and still stands in the queue has to wait, and who was taken out does not. -/
theorem SleepSound.waits_or_woken (h : c.SleepSound) {ticket : Ticket}
    (hasleep : c.activity w = some (.sleeping (.asleep ticket))) :
    ⟨w, ticket⟩ ∈ c.condition.queue.waiters ∧ c.move w (.sleeping (.asleep ticket)) = none ∨
      ⟨w, ticket⟩ ∉ c.condition.queue.waiters ∧ c.wasWoken w = true ∧
        c.move w (.sleeping (.asleep ticket)) =
          some (.inl (.sleeping (.returning .asking)), c) := by
  have huse := sleepUse_eq_asleep_iff.2 hasleep
  have hmove : c.move w (.sleeping (.asleep ticket)) = if c.condition.queue.isWoken ticket
      then some (.inl (.sleeping (.returning .asking)), c) else none := by
    rw [move, Condition.sleep]
    split <;> rfl
  cases hwoken : c.condition.queue.isWoken ticket with
  | false =>
      rcases h.serves.placed w ticket (by rw [huse]; rfl) with hwaits | hmem
      · exact .inl ⟨hwaits, by rw [hmove, hwoken]; rfl⟩
      · rw [TicketQueue.isWoken_iff.2 hmem] at hwoken
        cases hwoken
  | true =>
      refine .inr ⟨fun hwaits => ?_, ?_, by rw [hmove, hwoken]; rfl⟩
      · exact h.serves.asleep _ hwaits (TicketQueue.isWoken_iff.1 hwoken)
      · rw [wasWoken, huse]
        exact hwoken

/-- When an idle worker has the lock, everyone in the queue has given it back. -/
theorem SleepSound.asleep_of_waiter (h : c.SleepSound) (held : c.lock.holder = some w)
    (hidle : c.activity w = none) {x : Waiter} (hx : x ∈ c.condition.queue.waiters) :
    c.activity x.thread = some (.sleeping (.asleep x.ticket)) := by
  have hticket := h.serves.held_of_waiter x hx
  rw [← sleepUse_eq_asleep_iff]
  cases huse : c.sleepUse x.thread with
  | asleep ticket =>
      rw [huse] at hticket
      rw [Option.some.inj hticket]
  | leaving ticket =>
      -- it would have the lock itself, and it is not idle
      have hsame := Option.some.inj ((h.leaving _ ticket huse).1.symm.trans held)
      rw [hsame, sleepUse_of_activity hidle] at huse
      cases huse
  | away | woken | returning =>
      rw [huse] at hticket
      cases hticket

/-- Who enters a sleep does not sleep already, so only the lock can be missing. -/
theorem SleepSound.move_entering (h : c.SleepSound)
    (henters : c.activity w = some (.sleeping .entering)) :
    (∃ ticket queue, c.lock.holder = some w ∧ c.move w (.sleeping .entering) =
        some (.inl (.sleeping (.leaving ticket)), { c with condition := ⟨queue⟩ })) ∨
      c.lock.holder ≠ some w ∧
        c.move w (.sleeping .entering) = some (.inr (.halted .conditionUnlocked), c) := by
  obtain ⟨result, hsleep⟩ : ∃ result, c.condition.sleep c.lock w .entering = some result :=
    ⟨_, rfl⟩
  rw [move, hsleep]
  cases Condition.sleep_step hsleep with
  | enters ticket queue held push => exact .inl ⟨ticket, queue, held, rfl⟩
  | unlocked other => exact .inr ⟨other, rfl⟩
  | doubled _ sleeps =>
      exact absurd sleeps (h.serves.not_contains (by rw [sleepUse_of_activity henters]; rfl))

/-- The only phase of a sleep in which the worker is not with the condition. -/
theorem entering_of_sleepUse {phase : Sleeping} (hbusy : c.activity w = some (.sleeping phase))
    (haway : c.sleepUse w = .away) : phase = .entering := by
  rw [sleepUse_of_activity hbusy] at haway
  cases phase with
  | entering => rfl
  | leaving | asleep => cases haway
  | returning phase => cases phase <;> cases haway

theorem SleepSound.sleepRules {m : Moment} (h : m.before.SleepSound) (hlock : m.before.LockSound)
    (hm : m.Happens) : m.SleepRules where
  wakes hcommand := by
    by_cases held : m.before.lock.holder = some m.worker
    · obtain ⟨hanswer, hafter⟩ := hm.performed hcommand (perform_wake_of_held held)
      rw [TicketQueue.wakeOne_fst] at hanswer
      refine .inl ⟨held, hanswer, Moment.woken_eq_of_append h ?_, by rw [hafter]⟩
      rw [hafter]
      exact (TicketQueue.wakes_wakeOne _).waiters_eq
    · exact .inr ⟨held, hm.performed hcommand (perform_wake_of_not_held held)⟩
  wakesAll hcommand := by
    by_cases held : m.before.lock.holder = some m.worker
    · obtain ⟨hanswer, hafter⟩ := hm.performed hcommand (perform_wakeAll_of_held held)
      refine .inl ⟨held, hanswer, Moment.woken_eq_of_append h ?_, by rw [hafter]⟩
      rw [hafter]
      exact (TicketQueue.wakes_wakeAll _).waiters_eq
    · exact .inr ⟨held, hm.performed hcommand (perform_wakeAll_of_not_held held)⟩
  gaveBack hcommand held x hx := by
    have hidle : m.before.activity m.worker = none := by
      rcases hcommand with hcommand | hcommand <;> exact hm.idle hcommand
    exact h.asleep_of_waiter held hidle hx
  others hwake hwakeAll := (hm.sleepTurn hlock h).2.resolve_right (not_or.2 ⟨hwake, hwakeAll⟩)
  enters hcommand hbusy := by
    rcases h.move_entering hbusy with ⟨ticket, queue, held, hmoves⟩ | ⟨other, hmoves⟩
    · obtain ⟨hanswer, hafter⟩ := hm.moved hcommand hbusy hmoves
      refine .inl ⟨ticket, held, hanswer, ?_, by rw [hafter]; rfl⟩
      rw [Moment.entersSleep, sleepUse_of_activity hbusy,
        sleepUse_of_activity (hm.activity_moved hcommand hbusy hmoves)]
      rfl
    · exact .inr ⟨other, hm.moved hcommand hbusy hmoves⟩
  leaves ticket hcommand hbusy := by
    have held := (h.leaving m.worker ticket (sleepUse_of_activity hbusy)).1
    have hmoves : m.before.move m.worker (.sleeping (.leaving ticket)) =
        some (.inl (.sleeping (.asleep ticket)),
          { m.before with lock := m.before.lock.handOver }) := by
      rw [move, Condition.sleep, SleepLock.release_eq_ok_iff.2 ⟨held, rfl⟩]
      rfl
    obtain ⟨hanswer, hafter⟩ := hm.moved hcommand hbusy hmoves
    exact ⟨held, hanswer, by rw [hafter]; rfl, by rw [hafter]; rfl,
      hm.activity_moved hcommand hbusy hmoves⟩
  sleeps ticket hcommand hbusy := by
    rcases h.waits_or_woken hbusy with ⟨hwaits, hblocked⟩ | ⟨hgone, -, hmoves⟩
    · refine .inl ⟨hwaits, hm.waited hcommand (step_eq_none_iff.2 fun phase hphase => ?_)⟩
      obtain rfl := Option.some.inj (hbusy.symm.trans hphase)
      exact hblocked
    · exact .inr ⟨hgone, hm.moved hcommand hbusy hmoves⟩
  returns hreturns := by
    cases hm.sleepKind hlock h with
    | returns _ before_eq _ _ takes_eq _ =>
        refine ⟨?_, hm.holding_of_takes hlock takes_eq⟩
        rcases before_eq with before_eq | before_eq <;> rw [wasWoken, before_eq] <;> rfl
    | stirs _ _ returns_eq | apart _ _ _ returns_eq | requeues _ _ _ _ returns_eq =>
        cases hreturns.symm.trans returns_eq
    | enters _ _ _ _ _ _ _ _ _ returns_eq | leaves _ _ _ _ _ _ returns_eq =>
        cases hreturns.symm.trans returns_eq
    | awakens _ _ _ _ _ _ _ returns_eq | wakes _ _ _ _ _ _ _ returns_eq =>
        cases hreturns.symm.trans returns_eq
  halts phase halt hcommand hbusy hanswer := by
    cases hm.sleepKind hlock h with
    | apart _ before_eq _ _ => exact entering_of_sleepUse hbusy before_eq
    | enters _ _ _ _ _ _ before_eq _ _ _ => exact entering_of_sleepUse hbusy before_eq
    | wakes _ _ before_eq _ _ _ _ _ => exact entering_of_sleepUse hbusy before_eq
    | stirs _ answer_eq _ | requeues _ _ _ answer_eq _ => cases hanswer.symm.trans answer_eq
    | leaves _ _ _ _ _ answer_eq _ => cases hanswer.symm.trans answer_eq
    | awakens _ _ _ _ _ _ answer_eq _ => cases hanswer.symm.trans answer_eq
    | returns _ _ _ answer_eq _ _ => cases hanswer.symm.trans answer_eq

/-- Who slept and was woken in which order, over all that has happened to a crew. -/
structure SleepHistory (history : List Moment) (c : Crew) : Prop where
  /-- workers were taken out of the queue of the condition in the order in which they came into it,
  up to those who still stand there -/
  entered : history.filterMap Moment.entersSleep =
    history.flatMap Moment.woken ++ c.condition.queue.waiters
  sleepers : c.condition.sleepers + (history.flatMap Moment.woken).length =
    (history.filterMap Moment.entersSleep).length
  /-- each sleep has a ticket of its own -/
  tickets : (history.filterMap Moment.entersSleep).map Waiter.ticket =
    List.range c.condition.queue.issued
  /-- a worker was taken out once for each of its sleeps that are over, and once more when it is on
  its way back -/
  returned : ∀ w, ((history.flatMap Moment.woken).map Waiter.thread).count w =
    history.countP (fun m => m.worker = w ∧ m.returns) + (c.wasWoken w).toNat
  /-- who sleeps has not been taken out and has to wait, or was taken out and has not -/
  asleep : ∀ w ticket, c.activity w = some (.sleeping (.asleep ticket)) →
    ⟨w, ticket⟩ ∈ c.condition.queue.waiters ∧ c.step w = none ∨
      ⟨w, ticket⟩ ∈ history.flatMap Moment.woken ∧ c.step w ≠ none

/-- Who has a ticket for the condition once queued with it. -/
theorem Run.entered_of_ticket {workers value : Nat} {history : List Moment}
    (h : Run workers value history c) {ticket : Ticket}
    (hticket : (c.sleepUse w).ticket = some ticket) :
    ⟨w, ticket⟩ ∈ history.filterMap Moment.entersSleep := by
  induction h generalizing w with
  | nil =>
      rw [sleepUse, activity, worker_ofSize] at hticket
      cases hticket
  | @step history m hrun hm ih =>
      rw [filterMap_concat, List.mem_append, Option.mem_toList]
      exact (hm.sleepTicket_cases hrun.lockSound hrun.sleepSound hticket).imp_left fun h => ih h

/-- What has happened to the sleepers of a crew adds up. -/
theorem Run.sleepHistory {workers value : Nat} {history : List Moment}
    (h : Run workers value history c) : SleepHistory history c := by
  have hsum : history.filterMap Moment.entersSleep =
        history.flatMap Moment.woken ++ c.condition.queue.waiters ∧
      (history.filterMap Moment.entersSleep).map Waiter.ticket =
        List.range c.condition.queue.issued ∧
      ∀ w, ((history.flatMap Moment.woken).map Waiter.thread).count w =
        history.countP (fun m => m.worker = w ∧ m.returns) + (c.wasWoken w).toNat := by
    induction h with
    | nil =>
        refine ⟨rfl, rfl, fun w => ?_⟩
        rw [wasWoken, sleepUse, activity, worker_ofSize]
        rfl
    | @step history m hrun hm ih =>
        obtain ⟨hentered, htickets, hreturned⟩ := ih
        have hlock := hrun.lockSound
        have hsound := hrun.sleepSound
        refine ⟨?_, ?_, fun w => ?_⟩
        · rw [filterMap_concat, List.flatMap_append, List.flatMap_singleton]
          exact append_conserved hentered (hm.sleepTurn hlock hsound).1.waiters_append
        · rw [filterMap_concat, List.map_append, htickets]
          exact (hm.sleepTurn hlock hsound).1.tickets_append
        · have hcount := hm.count_woken hlock hsound w
          have hbefore := hreturned w
          rw [List.flatMap_append, List.flatMap_singleton, List.map_append, List.count_append,
            List.countP_append, List.countP_singleton]
          simp only [decide_eq_true_eq]
          omega
  obtain ⟨hentered, htickets, hreturned⟩ := hsum
  refine ⟨hentered, ?_, htickets, hreturned, fun w ticket hasleep => ?_⟩
  · rw [hentered, List.length_append, Nat.add_comm]
    rfl
  · have hmem : ⟨w, ticket⟩ ∈ history.filterMap Moment.entersSleep :=
      h.entered_of_ticket (by rw [sleepUse_eq_asleep_iff.2 hasleep]; rfl)
    rcases h.sleepSound.waits_or_woken hasleep with ⟨hwaits, hblocked⟩ | ⟨hgone, -, hmoves⟩
    · refine .inl ⟨hwaits, step_eq_none_iff.2 fun phase hphase => ?_⟩
      obtain rfl := Option.some.inj (hasleep.symm.trans hphase)
      exact hblocked
    · rw [hentered, List.mem_append] at hmem
      refine .inr ⟨hmem.resolve_right hgone, fun hblocked => ?_⟩
      cases (step_eq_none_iff.1 hblocked _ hasleep).symm.trans hmoves

/-- A wake-up is neither lost nor made up: over all that has happened to a crew, and whatever
happens next. -/
theorem Run.sleep_woken_once {workers value : Nat} {history : List Moment}
    (h : Run workers value history c) :
    SleepHistory history c ∧ ∀ m : Moment, m.before = c → m.Happens → m.SleepRules := by
  refine ⟨h.sleepHistory, ?_⟩
  rintro m rfl hm
  exact h.sleepSound.sleepRules h.lockSound hm

/-- Two workers sleep, one of them stirs in vain, and a third one wakes them: the first on its own,
the second with all others. The first asks for the lock while the third still has it. -/
def sleepyOrders : List (ThreadId × Option Command) :=
  [(0, some .acquire), (0, none), (0, some .sleep), (0, none), (0, none), (0, none),
    (1, some .acquire), (1, none), (1, some .sleep), (1, none), (2, some .wake), (1, none),
    (2, some .acquire), (2, none), (2, some .wake), (0, none), (0, none), (2, some .wakeAll),
    (2, some .wake), (2, some .release), (0, none), (0, some .release), (1, none), (1, none)]

theorem sleep_woken_once_sleepy : ∃ history c,
    (ofSize 3 0).play sleepyOrders = some (history, c) ∧ Run 3 0 history c ∧
    history.flatMap Moment.woken = [⟨0, 0⟩, ⟨1, 1⟩] ∧
    history.filterMap Moment.answer = [.done, .done, .halted .conditionUnlocked, .done, .flag true,
      .count 1, .flag false, .done, .done, .done, .done] ∧
    SleepHistory history c ∧ ∀ m : Moment, m.before = c → m.Happens → m.SleepRules := by
  have hplay : ((ofSize 3 0).play sleepyOrders).map (fun played =>
      (played.1.flatMap Moment.woken, played.1.filterMap Moment.answer)) =
      some ([⟨0, 0⟩, ⟨1, 1⟩], [.done, .done, .halted .conditionUnlocked, .done, .flag true,
        .count 1, .flag false, .done, .done, .done, .done]) := by
    decide +kernel
  obtain ⟨⟨history, c⟩, hplay, heq⟩ := Option.map_eq_some_iff.1 hplay
  obtain ⟨hwoken, hanswers⟩ := Prod.mk.inj heq
  have hrun : Run 3 0 history c := Run.nil.play hplay
  exact ⟨history, c, hplay, hrun, hwoken, hanswers, Run.sleep_woken_once hrun⟩

end Crew

end DemandPaging
