import DemandPaging.Proofs.Crew.Locking

/-!
# The lock is given to one worker at a time, in order

A worker that finds the lock held stands in its queue and is granted the lock later, by the holder
that gives it back. What comes into the queue comes out of it in order
(`Moment.Happens.lockTurn`), a grant is pending until its worker goes on
(`Moment.Happens.granted_append`), and who takes the lock holds it until it gives it back
(`Moment.Happens.count_holding`). `Run.lockHistory` adds this up over a whole run.
-/

namespace DemandPaging.Crew

variable {c c' : Crew} {w u : ThreadId} {x : Waiter}

/-- The worker that was granted the lock and has yet to go on, with its ticket. -/
def granted (c : Crew) : Option Waiter :=
  c.lock.holder.bind fun w => (c.lockTicket w).map (Waiter.mk w)

theorem granted_eq_some_iff :
    c.granted = some x ↔ c.lock.holder = some x.thread ∧ c.lockTicket x.thread = some x.ticket := by
  rw [granted, Option.bind_eq_some_iff]
  constructor
  · rintro ⟨w, hholder, hwaits⟩
    obtain ⟨ticket, hticket, rfl⟩ := Option.map_eq_some_iff.1 hwaits
    exact ⟨hholder, hticket⟩
  · rintro ⟨hholder, hticket⟩
    exact ⟨x.thread, hholder, Option.map_eq_some_iff.2 ⟨x.ticket, hticket, rfl⟩⟩

theorem granted_eq_none (h : ∀ w, c.lock.holder = some w → c.lockTicket w = none) :
    c.granted = none := by
  rw [Option.eq_none_iff_forall_ne_some]
  intro x hx
  obtain ⟨hholder, hticket⟩ := granted_eq_some_iff.1 hx
  rw [h _ hholder] at hticket
  cases hticket

theorem granted_congr (hholder : c'.lock.holder = c.lock.holder)
    (hticket : ∀ w, c.lock.holder = some w → c'.lockTicket w = c.lockTicket w) :
    c'.granted = c.granted := by
  rw [granted, granted, hholder]
  cases h : c.lock.holder with
  | none => rfl
  | some w => simp only [Option.bind_some, hticket w h]

namespace Moment

variable {m : Moment}

/-- The worker that comes to stand in the queue of the lock, with its ticket. -/
def queuesUp (m : Moment) : Option Waiter :=
  newTicket m.worker (m.before.lockTicket m.worker) (m.after.lockTicket m.worker)

/-- The worker that waited for the lock and goes on with it, with its ticket. -/
def goesOn (m : Moment) : Option Waiter :=
  newTicket m.worker (m.after.lockTicket m.worker) (m.before.lockTicket m.worker)

/-- The worker that is granted the lock by the one that gives it back, with its ticket. -/
def grants (m : Moment) : Option Waiter := if m.gives then m.after.granted else none

theorem grants_eq_none (h : m.gives = false) : m.grants = none := by
  rw [grants, h]
  rfl

/-- Who gives the lock back grants it to the first of the queue. -/
theorem Happens.grants_eq_head (hm : m.Happens) (h : m.before.LockSound)
    (lock_eq : m.after.lock = m.before.lock.handOver)
    (before_eq : m.before.lockTicket m.worker = none) :
    m.after.granted = m.before.lock.queue.waiters.head? := by
  have hholder : m.after.lock.holder = m.before.lock.queue.waiters.head?.map Waiter.thread := by
    rw [lock_eq, SleepLock.handOver_eq]
  cases hhead : m.before.lock.queue.waiters.head? with
  | none =>
      rw [granted, hholder, hhead]
      rfl
  | some x =>
      have hticket := h.lockTicket_of_waiter (List.mem_of_head? hhead)
      have hne : x.thread ≠ m.worker := by
        intro heq
        rw [heq, before_eq] at hticket
        cases hticket
      rw [granted_eq_some_iff, hholder, hhead, hm.lockTicket_of_ne hne]
      exact ⟨rfl, hticket⟩

/-- What a moment does to the queue of the lock. -/
theorem Happens.lockTurn (hm : m.Happens) (h : m.before.LockSound) :
    m.before.lock.queue.Turn m.after.lock.queue m.worker m.queuesUp m.grants.toList := by
  have hstays : m.after.lock.queue = m.before.lock.queue →
      (m.before.lockTicket m.worker = none → m.after.lockTicket m.worker = none) →
      m.gives = false →
      m.before.lock.queue.Turn m.after.lock.queue m.worker m.queuesUp m.grants.toList := by
    intro hqueue hticket hgives
    rw [queuesUp, newTicket_eq_none hticket, grants_eq_none hgives]
    exact .stays hqueue
  cases hm.lockKind h with
  | stays lock_eq ticket_eq _ gives_eq =>
      exact hstays (by rw [lock_eq]) (fun hnone => ticket_eq.trans hnone) gives_eq
  | grabs _ lock_eq _ after_eq _ gives_eq =>
      exact hstays (by rw [lock_eq]) (fun _ => after_eq) gives_eq
  | queues u ticket queue _ _ push lock_eq before_eq after_eq _ gives_eq =>
      rw [queuesUp, before_eq, after_eq, grants_eq_none gives_eq, lock_eq]
      exact .comes ticket push
  | resumes _ lock_eq _ _ _ after_eq _ gives_eq =>
      exact hstays (by rw [lock_eq]) (fun _ => after_eq) gives_eq
  | frees _ lock_eq before_eq after_eq _ gives_eq =>
      have hgrants : m.grants.toList = m.before.lock.queue.waiters.take 1 := by
        rw [grants, if_pos gives_eq, hm.grants_eq_head h lock_eq before_eq, List.take_one]
      rw [queuesUp, newTicket_eq_none fun _ => after_eq, hgrants, lock_eq, SleepLock.handOver_eq]
      exact .leave _ (TicketQueue.wakes_wakeOne _)

/-- A grant is pending until its worker goes on. -/
theorem Happens.granted_append (hm : m.Happens) (h : m.before.LockSound) :
    m.before.granted.toList ++ m.grants.toList = m.goesOn.toList ++ m.after.granted.toList := by
  cases hm.lockKind h with
  | stays lock_eq ticket_eq _ gives_eq =>
      have hgranted : m.after.granted = m.before.granted := by
        refine granted_congr (by rw [lock_eq]) fun w _ => ?_
        by_cases hw : w = m.worker
        · rw [hw, ticket_eq]
        · exact hm.lockTicket_of_ne hw
      rw [goesOn, newTicket_eq_none fun hnone => ticket_eq.symm.trans hnone,
        grants_eq_none gives_eq, hgranted]
      exact List.append_nil _
  | grabs free lock_eq before_eq after_eq _ gives_eq =>
      have hbefore : m.before.granted = none := by rw [granted, free]; rfl
      have hafter : m.after.granted = none := granted_eq_none fun w hw => by
        rw [lock_eq] at hw
        rw [← Option.some.inj hw, after_eq]
      rw [goesOn, newTicket_eq_none fun _ => before_eq, grants_eq_none gives_eq, hbefore, hafter]
  | queues u ticket queue held other _ lock_eq before_eq after_eq _ gives_eq =>
      have hgranted : m.after.granted = m.before.granted := by
        refine granted_congr (by rw [lock_eq]) fun w hw => hm.lockTicket_of_ne ?_
        rw [← Option.some.inj (held.symm.trans hw)]
        exact other
      rw [goesOn, newTicket_eq_none fun _ => before_eq, grants_eq_none gives_eq, hgranted]
      exact List.append_nil _
  | resumes ticket lock_eq before_eq _ held after_eq _ gives_eq =>
      have hbefore : m.before.granted = some ⟨m.worker, ticket⟩ :=
        granted_eq_some_iff.2 ⟨held, before_eq⟩
      have hafter : m.after.granted = none := granted_eq_none fun w hw => by
        rw [lock_eq, held] at hw
        rw [← Option.some.inj hw, after_eq]
      rw [goesOn, after_eq, before_eq, grants_eq_none gives_eq, hbefore, hafter]
      rfl
  | frees held _ before_eq _ _ gives_eq =>
      have hbefore : m.before.granted = none := granted_eq_none fun w hw => by
        rw [← Option.some.inj (held.symm.trans hw), before_eq]
      rw [goesOn, newTicket_eq_none fun _ => before_eq, grants, if_pos gives_eq, hbefore]

/-- Who takes the lock has it until it gives it back. -/
theorem Happens.count_holding (hm : m.Happens) (h : m.before.LockSound) (w : ThreadId) :
    (if m.before.lockUse w = .holding then 1 else 0) + (if m.worker = w ∧ m.takes then 1 else 0) =
      (if m.worker = w ∧ m.gives then 1 else 0) +
        if m.after.lockUse w = .holding then 1 else 0 := by
  by_cases hw : m.worker = w
  · subst hw
    simp only [lockUse_eq_holding_iff, true_and]
    cases hm.lockKind h with
    | stays lock_eq ticket_eq takes_eq gives_eq =>
        simp only [lock_eq, ticket_eq, takes_eq, gives_eq, Bool.false_eq_true, if_false,
          Nat.add_zero, Nat.zero_add]
    | grabs free lock_eq before_eq after_eq takes_eq gives_eq =>
        simp [free, lock_eq, after_eq, takes_eq, gives_eq]
    | queues u ticket queue held other push lock_eq before_eq after_eq takes_eq gives_eq =>
        simp [held, other, after_eq, takes_eq, gives_eq]
    | resumes ticket lock_eq before_eq _ held after_eq takes_eq gives_eq =>
        simp [before_eq, after_eq, lock_eq, held, takes_eq, gives_eq]
    | frees held lock_eq before_eq after_eq takes_eq gives_eq =>
        simp [held, before_eq, lock_eq, h.holder_handOver_ne before_eq, takes_eq, gives_eq]
  · rw [hm.lockUse_of_ne h (Ne.symm hw)]
    simp only [hw, false_and, if_false, Nat.add_zero, Nat.zero_add]

/-- What the calls for a lock may do to it. -/
structure LockRules (m : Moment) : Prop where
  /-- who only tries takes a free lock, for which nobody waits, and otherwise changes nothing -/
  tries : m.command = some .tryAcquire →
    m.before.lock.holder = none ∧ m.before.lock.queue.waiters = [] ∧ m.answer = some (.flag true) ∧
        m.after = { m.before with lock := { m.before.lock with holder := some m.worker } } ∨
      m.before.lock.holder ≠ none ∧ m.answer = some (.flag false) ∧ m.after = m.before
  /-- the holder gives the lock back; anyone else is halted, and changes nothing -/
  releases : m.command = some .release →
    m.before.lock.holder = some m.worker ∧ m.answer = some .done ∧
        m.after = { m.before with lock := m.before.lock.handOver } ∨
      m.before.lock.holder ≠ some m.worker ∧ m.answer = some (.halted .lockNotHeld) ∧
        m.after = m.before
  /-- who asks for the lock takes it when it is free and queues when another worker has it; the
  holder is halted, and changes nothing -/
  asks : m.command = none → m.before.activity m.worker = some (.acquiring .asking) →
    m.before.lock.holder = none ∧ m.before.lock.queue.waiters = [] ∧ m.answer = some .done ∧
        m.after.lock = { m.before.lock with holder := some m.worker } ∨
      (∃ u ticket, m.before.lock.holder = some u ∧ u ≠ m.worker ∧ m.answer = none ∧
        m.after.lock.holder = some u ∧ m.queuesUp = some ⟨m.worker, ticket⟩) ∨
      m.before.lock.holder = some m.worker ∧ m.answer = some (.halted .lockHeld) ∧
        m.after = m.before.withActivity m.worker none
  /-- who waits for the lock goes on when it was granted the lock, and not before -/
  waits : ∀ ticket, m.command = none →
    m.before.activity m.worker = some (.acquiring (.queued ticket)) →
    ⟨m.worker, ticket⟩ ∈ m.before.lock.queue.waiters ∧ m.answer = none ∧ m.after = m.before ∨
      m.before.granted = some ⟨m.worker, ticket⟩ ∧ m.answer = some .done ∧
        m.after = m.before.withActivity m.worker none
  /-- nobody takes the lock away from its holder -/
  persists : ∀ u, u ≠ m.worker → m.before.lock.holder = some u → m.after.lock.holder = some u

end Moment

/-- A ticket for the lock is waited with, or it was granted the lock. -/
theorem LockSound.waits_or_granted (h : c.LockSound) {ticket : Ticket}
    (hticket : c.lockTicket w = some ticket) :
    ⟨w, ticket⟩ ∈ c.lock.queue.waiters ∧ c.lock.queue.isWoken ticket = false ∨
      c.granted = some ⟨w, ticket⟩ ∧ c.lock.queue.isWoken ticket = true := by
  rcases h.serves.queued_iff w ticket (lockUse_eq_queued_iff.2 hticket) with
    hwaits | ⟨hwoken, hholder⟩
  · refine .inl ⟨hwaits, ?_⟩
    rw [← Bool.not_eq_true, TicketQueue.isWoken_iff]
    exact h.serves.asleep _ hwaits
  · exact .inr ⟨granted_eq_some_iff.2 ⟨hholder, hticket⟩, TicketQueue.isWoken_iff.2 hwoken⟩

/-- Who stands in the queue of the lock has to wait, and who was granted the lock does not. -/
theorem step_eq_none_of_lockTicket {ticket : Ticket} (hticket : c.lockTicket w = some ticket) :
    c.step w = none ↔ c.lock.queue.isWoken ticket = false := by
  obtain ⟨phase, hbusy, hphase⟩ := Option.bind_eq_some_iff.1 hticket
  have hmove : c.move w phase = none ↔ c.lock.queue.isWoken ticket = false := by
    have hphase : phase = .acquiring (.queued ticket) ∨
        phase = .sleeping (.returning (.queued ticket)) := by
      unfold Activity.lockTicket at hphase
      split at hphase
      · exact .inl (congrArg _ (Acquiring.ticket_eq_some_iff.1 hphase))
      · exact .inr (congrArg _ (congrArg _ (Acquiring.ticket_eq_some_iff.1 hphase)))
      · cases hphase
    rcases hphase with rfl | rfl
    all_goals
      simp only [move, Condition.sleep, SleepLock.acquire, Option.map_eq_none_iff,
        ite_eq_right_iff, reduceCtorEq, imp_false, Bool.not_eq_true]
  rw [step_eq_none_iff, ← hmove]
  refine ⟨fun h => h phase hbusy, fun h phase' hbusy' => ?_⟩
  rw [← Option.some.inj (hbusy.symm.trans hbusy')]
  exact h

/-- Who asks for the lock does not wait for it, so one of three things happens. -/
theorem LockSound.move_asking (h : c.LockSound) (hasks : c.activity w = some (.acquiring .asking)) :
    (c.lock.holder = none ∧ c.move w (.acquiring .asking) =
        some (.inr .done, { c with lock := { c.lock with holder := some w } })) ∨
      (∃ u ticket queue, c.lock.holder = some u ∧ u ≠ w ∧ c.move w (.acquiring .asking) =
        some (.inl (.acquiring (.queued ticket)), { c with lock := { c.lock with queue } })) ∨
      c.lock.holder = some w ∧
        c.move w (.acquiring .asking) = some (.inr (.halted .lockHeld), c) := by
  obtain ⟨result, hacquire⟩ : ∃ result, c.lock.acquire w .asking = some result := ⟨_, rfl⟩
  rw [move, hacquire]
  cases SleepLock.acquire_step hacquire with
  | grabs free => exact .inl ⟨free, rfl⟩
  | queues u ticket queue held other push =>
      exact .inr (.inl ⟨u, ticket, queue, held, other, rfl⟩)
  | nested held => exact .inr (.inr ⟨held, rfl⟩)
  | doubled other waits =>
      obtain ⟨x, hx, rfl⟩ := TicketQueue.contains_iff.1 waits
      cases (h.lockTicket_of_waiter hx).symm.trans (lockTicket_of_activity hasks)

theorem LockSound.lockRules {m : Moment} (h : m.before.LockSound) (hm : m.Happens) :
    m.LockRules where
  tries hcommand := by
    cases hholder : m.before.lock.holder with
    | none =>
        obtain ⟨hanswer, hafter⟩ := hm.performed hcommand (perform_tryAcquire_of_free hholder)
        exact .inl ⟨rfl, h.vacant hholder, hanswer, hafter⟩
    | some u =>
        obtain ⟨hanswer, hafter⟩ := hm.performed hcommand (perform_tryAcquire_of_held hholder)
        exact .inr ⟨nofun, hanswer, hafter⟩
  releases hcommand := by
    by_cases hheld : m.before.lock.holder = some m.worker
    · exact .inl ⟨hheld, hm.performed hcommand (perform_release_of_held hheld)⟩
    · exact .inr ⟨hheld, hm.performed hcommand (perform_release_of_not_held hheld)⟩
  asks hcommand hbusy := by
    rcases h.move_asking hbusy with
      ⟨free, hmoves⟩ | ⟨u, ticket, queue, held, other, hmoves⟩ | ⟨held, hmoves⟩
    · obtain ⟨hanswer, hafter⟩ := hm.moved hcommand hbusy hmoves
      exact .inl ⟨free, h.vacant free, hanswer, congrArg Crew.lock hafter⟩
    · obtain ⟨hanswer, hafter⟩ := hm.moved hcommand hbusy hmoves
      have hbefore : m.before.lockTicket m.worker = none := lockTicket_of_activity hbusy
      have hticket : m.after.lockTicket m.worker = some ticket :=
        lockTicket_of_activity (hm.activity_moved hcommand hbusy hmoves)
      refine .inr (.inl ⟨u, ticket, held, other, hanswer, ?_, ?_⟩)
      · rw [hafter]
        exact held
      · rw [Moment.queuesUp, hbefore, hticket]
        rfl
    · exact .inr (.inr ⟨held, hm.moved hcommand hbusy hmoves⟩)
  waits ticket hcommand hbusy := by
    have hticket : m.before.lockTicket m.worker = some ticket := by
      rw [lockTicket, hbusy]
      rfl
    rcases h.waits_or_granted hticket with ⟨hwaits, hasleep⟩ | ⟨hgranted, hwoken⟩
    · exact .inl ⟨hwaits, hm.waited hcommand ((step_eq_none_of_lockTicket hticket).2 hasleep)⟩
    · have hmoves : m.before.move m.worker (.acquiring (.queued ticket)) =
          some (.inr .done, m.before) := by
        rw [move, SleepLock.acquire_of_woken hwoken (granted_eq_some_iff.1 hgranted).1]
        rfl
      exact .inr ⟨hgranted, hm.moved hcommand hbusy hmoves⟩
  persists _ hu hholder := hm.holder_of_ne h hu hholder

/-- How often the lock was taken and given back, and who waited for it in which order, over all that
has happened to a crew. -/
structure LockHistory (history : List Moment) (c : Crew) : Prop where
  /-- who has the lock took it once more than it gave it back, and everyone else as often -/
  holding : ∀ w, history.countP (fun m => m.worker = w ∧ m.takes) =
    history.countP (fun m => m.worker = w ∧ m.gives) + if c.lockUse w = .holding then 1 else 0
  /-- the lock was granted to those who queued, in their order, up to those who still wait -/
  queued : history.filterMap Moment.queuesUp =
    history.filterMap Moment.grants ++ c.lock.queue.waiters
  /-- who was granted the lock went on with it, in order, but for one who has yet to -/
  granted : history.filterMap Moment.grants =
    history.filterMap Moment.goesOn ++ c.granted.toList
  /-- each time that a worker queued has a ticket of its own -/
  tickets : (history.filterMap Moment.queuesUp).map Waiter.ticket =
    List.range c.lock.queue.issued

/-- The lock in a state of the crew: one worker has it, and the others wait. -/
structure LockState (c : Crew) : Prop where
  exclusive : ∀ w u, c.lockUse w = .holding → c.lockUse u = .holding → w = u
  /-- the holder goes on with the lock, or was granted it and has yet to go on -/
  holder : ∀ w, c.lock.holder = some w ↔
    c.lockUse w = .holding ∨ ∃ ticket, c.granted = some ⟨w, ticket⟩
  vacant : c.lock.holder = none → c.lock.queue.waiters = []
  threads_nodup : (c.lock.queue.waiters.map Waiter.thread).Nodup
  holder_absent : ∀ w, c.lock.holder = some w → w ∉ c.lock.queue.waiters.map Waiter.thread
  /-- who has a ticket stands in the queue and has to wait, or was granted the lock and has not -/
  waits : ∀ w ticket, c.lockTicket w = some ticket →
    ⟨w, ticket⟩ ∈ c.lock.queue.waiters ∧ c.step w = none ∨
      c.granted = some ⟨w, ticket⟩ ∧ c.step w ≠ none

theorem LockSound.lockState (h : c.LockSound) : c.LockState where
  exclusive w u hw hu := h.serves.holder_unique hw hu
  holder w := by
    constructor
    · intro hholder
      cases hticket : c.lockTicket w with
      | none => exact .inl (lockUse_eq_holding_iff.2 ⟨hholder, hticket⟩)
      | some ticket => exact .inr ⟨ticket, granted_eq_some_iff.2 ⟨hholder, hticket⟩⟩
    · rintro (hw | ⟨ticket, hw⟩)
      · exact (lockUse_eq_holding_iff.1 hw).1
      · exact (granted_eq_some_iff.1 hw).1
  vacant := h.vacant
  threads_nodup := h.threads_nodup
  holder_absent w hholder hw := by
    obtain ⟨x, hx, rfl⟩ := List.mem_map.1 hw
    exact h.absent x hx hholder
  waits w ticket hticket := by
    rcases h.waits_or_granted hticket with ⟨hwaits, hasleep⟩ | ⟨hgranted, hwoken⟩
    · exact .inl ⟨hwaits, (step_eq_none_of_lockTicket hticket).2 hasleep⟩
    · refine .inr ⟨hgranted, fun hnone => ?_⟩
      rw [(step_eq_none_of_lockTicket hticket).1 hnone] at hwoken
      cases hwoken

/-- What has happened to a crew adds up. -/
theorem Run.lockHistory {workers value : Nat} {history : List Moment}
    (h : Run workers value history c) : LockHistory history c := by
  induction h with
  | nil =>
      refine ⟨fun w => ?_, rfl, rfl, rfl⟩
      rw [lockUse_ofSize]
      rfl
  | @step history m hrun hm ih =>
      have hsound := hrun.lockSound
      refine ⟨fun w => ?_, ?_, ?_, ?_⟩
      · have hcount := hm.count_holding hsound w
        have hbefore := ih.holding w
        rw [List.countP_append, List.countP_append, List.countP_singleton, List.countP_singleton]
        simp only [decide_eq_true_eq]
        omega
      · rw [filterMap_concat, filterMap_concat]
        exact append_conserved ih.queued ((hm.lockTurn hsound).waiters_append)
      · rw [filterMap_concat, filterMap_concat]
        exact append_conserved ih.granted (hm.granted_append hsound)
      · rw [filterMap_concat, List.map_append, ih.tickets]
        exact (hm.lockTurn hsound).tickets_append

/-- The lock is given to one worker at a time, in the order in which they queued: in every state
that a crew can get to, over all that has happened before, and whatever happens next. -/
theorem Run.lock_fair {workers value : Nat} {history : List Moment}
    (h : Run workers value history c) :
    c.LockState ∧ LockHistory history c ∧ ∀ m : Moment, m.before = c → m.Happens → m.LockRules := by
  refine ⟨h.lockSound.lockState, h.lockHistory, ?_⟩
  rintro m rfl hm
  exact h.lockSound.lockRules hm

/-- Two workers wait for a third one, while a fourth tries to take the lock and to give it back. The
lock is handed over, tried again before the next holder goes on, and asked for by its holder. -/
def contendedOrders : List (ThreadId × Option Command) :=
  [(0, some .acquire), (0, none), (1, some .acquire), (1, none), (2, some .acquire), (2, none),
    (1, none), (3, some .tryAcquire), (3, some .release), (0, some .release),
    (3, some .tryAcquire), (1, none), (1, some .acquire), (1, none), (1, some .release), (2, none)]

theorem lock_fair_contended : ∃ history c, (ofSize 4 0).play contendedOrders = some (history, c) ∧
    Run 4 0 history c ∧ history.filterMap Moment.queuesUp = [⟨1, 0⟩, ⟨2, 1⟩] ∧
    history.filterMap Moment.answer = [.done, .flag false, .halted .lockNotHeld, .done, .flag false,
      .done, .halted .lockHeld, .done, .done] ∧
    c.LockState ∧ LockHistory history c ∧
    ∀ m : Moment, m.before = c → m.Happens → m.LockRules := by
  have hplay : ((ofSize 4 0).play contendedOrders).map (fun played =>
      (played.1.filterMap Moment.queuesUp, played.1.filterMap Moment.answer)) =
      some ([⟨1, 0⟩, ⟨2, 1⟩], [.done, .flag false, .halted .lockNotHeld, .done, .flag false,
        .done, .halted .lockHeld, .done, .done]) := by
    decide +kernel
  obtain ⟨⟨history, c⟩, hplay, heq⟩ := Option.map_eq_some_iff.1 hplay
  obtain ⟨hqueued, hanswers⟩ := Prod.mk.inj heq
  have hrun : Run 4 0 history c := Run.nil.play hplay
  exact ⟨history, c, hplay, hrun, hqueued, hanswers, Run.lock_fair hrun⟩

end DemandPaging.Crew
