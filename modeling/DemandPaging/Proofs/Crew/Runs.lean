import DemandPaging.Sync.Crew

/-!
# What can happen to a crew

A run of a crew is any interleaving of its workers: again and again an idle worker is given a
command, a busy one takes a step, or a waiting one stirs, finds that it still has to wait and waits
on. `Moment.Form` lists the ways in which a moment can go, and every other worker stays as it is
(`Moment.Happens.worker_of_ne`).
-/

namespace DemandPaging.Crew

variable {c c' : Crew} {w u : ThreadId} {command : Command} {change : Worker → Worker}

/-- The command that a worker is inside of, with its phase. -/
def activity (c : Crew) (w : ThreadId) : Option Activity := (c.worker w).activity

@[simp] theorem length_update (c : Crew) (w : ThreadId) (change : Worker → Worker) :
    (c.update w change).workers.length = c.workers.length := List.length_modify ..

@[simp] theorem region_update (c : Crew) (w : ThreadId) (change : Worker → Worker) :
    (c.update w change).region = c.region := rfl

theorem worker_eq (c : Crew) (w : ThreadId) : c.worker w = c.workers[w]?.getD {} :=
  List.getD_eq_getElem?_getD ..

theorem worker_update_self (h : w < c.workers.length) (change : Worker → Worker) :
    (c.update w change).worker w = change (c.worker w) := by
  rw [worker_eq, worker_eq, update, List.getElem?_modify_eq, List.getElem?_eq_getElem h]
  rfl

theorem worker_update_of_ne (h : u ≠ w) (change : Worker → Worker) :
    (c.update w change).worker u = c.worker u := by
  rw [worker_eq, worker_eq, update]
  exact congrArg (fun own : Option Worker => own.getD {}) (List.getElem?_modify_ne _ _ h.symm)

/-- How many `hold`s a worker has not ended, and how often it is inside the critical region. -/
def guards (c : Crew) (w : ThreadId) : Nat × Nat := ((c.worker w).holds, (c.worker w).entries)

theorem guards_of_modify (hworkers : c'.workers = c.workers.modify w change)
    (hchange : ∀ own, (change own).holds = own.holds ∧ (change own).entries = own.entries)
    (u : ThreadId) : c'.guards u = c.guards u := by
  rw [guards, guards, worker_eq, worker_eq, hworkers]
  by_cases hu : w = u
  · rw [hu, List.getElem?_modify_eq]
    cases c.workers[u]? with
    | none => rfl
    | some own => exact Prod.ext (hchange own).1 (hchange own).2
  · rw [List.getElem?_modify_ne _ _ hu]

theorem guards_update
    (hchange : ∀ own, (change own).holds = own.holds ∧ (change own).entries = own.entries)
    (u : ThreadId) : (c.update w change).guards u = c.guards u :=
  guards_of_modify rfl hchange u

theorem guards_update_self (h : w < c.workers.length) (change : Worker → Worker) :
    (c.update w change).guards w =
      ((change (c.worker w)).holds, (change (c.worker w)).entries) := by
  rw [guards, worker_update_self h]

/-- A worker takes no step when it is idle, or has to wait inside its command. -/
theorem step_eq_none_iff :
    c.step w = none ↔ ∀ phase, c.activity w = some phase → c.move w phase = none := by
  rw [step, Option.map_eq_none_iff, Option.bind_eq_none_iff]
  rfl

/-- One thing that happens to a crew: a worker is given a command, or goes on with the one it is
inside of. -/
structure Moment where
  before : Crew
  worker : ThreadId
  /-- the command that the worker is given, if it is given one -/
  command : Option Command
  /-- the answer to the worker's command, if it is over -/
  answer : Option Answer
  after : Crew

/-- What a moment of a run can be. A worker that has to wait may stir without a reason. -/
def Moment.Happens (m : Moment) : Prop :=
  m.worker < m.before.workers.length ∧
    match m.command with
    | some command => m.before.isIdle m.worker = true ∧
        m.before.begin m.worker command = (m.answer, m.after)
    | none => m.before.step m.worker = some (m.answer, m.after) ∨
        m.before.step m.worker = none ∧ m.answer = none ∧ m.after = m.before

/-- A run of a crew from its start, moment by moment, and the crew after it. -/
inductive Run (workers value : Nat) : List Moment → Crew → Prop where
  | nil : Run workers value [] (ofSize workers value)
  | step {history : List Moment} {m : Moment} (h : Run workers value history m.before)
      (hm : m.Happens) : Run workers value (history ++ [m]) m.after

/-- The crew with a worker in a phase of its command, or idle. -/
def withActivity (c : Crew) (w : ThreadId) (activity : Option Activity) : Crew :=
  c.update w fun own => { own with activity }

/-- The ways in which a moment can go. -/
inductive Moment.Form (m : Moment) : Prop where
  /-- the worker enters a command that takes steps -/
  | begins (command : Command) (phase : Activity) (hcommand : m.command = some command)
      (idle : m.before.activity m.worker = none)
      (performs : m.before.perform m.worker command = .inl phase) (answer_eq : m.answer = none)
      (after_eq : m.after = m.before.update m.worker fun own =>
        { own with activity := some phase
                   ticket := if command = .wait then none else (m.before.worker m.worker).ticket })
  /-- the worker's command is answered at once -/
  | answers (command : Command) (answer : Answer) (hcommand : m.command = some command)
      (idle : m.before.activity m.worker = none)
      (performs : m.before.perform m.worker command = .inr (answer, m.after))
      (answer_eq : m.answer = some answer)
  /-- the worker takes a step inside its command, which is over then or in a later phase -/
  | goes (phase : Activity) (result : StepResult) (c : Crew) (hcommand : m.command = none)
      (busy : m.before.activity m.worker = some phase)
      (moves : m.before.move m.worker phase = some (result, c))
      (answer_eq : m.answer = result.getRight?)
      (after_eq : m.after = c.withActivity m.worker result.getLeft?)
  /-- the worker stirs and waits on -/
  | stirs (hcommand : m.command = none) (blocked : m.before.step m.worker = none)
      (answer_eq : m.answer = none) (after_eq : m.after = m.before)

theorem Moment.Happens.form {m : Moment} (h : m.Happens) : m.Form := by
  obtain ⟨before, w, command, answer, after⟩ := m
  obtain ⟨-, h⟩ := h
  cases command with
  | some command =>
      obtain ⟨hidle, h⟩ := h
      have hnone : before.activity w = none := Option.isNone_iff_eq_none.1 hidle
      simp only [begin] at h
      split at h
      · rename_i answer' c' hperform
        obtain ⟨rfl, rfl⟩ := Prod.mk.inj h
        exact .answers command answer' rfl hnone hperform rfl
      · rename_i phase hperform
        obtain ⟨rfl, rfl⟩ := Prod.mk.inj h
        exact .begins command phase rfl hnone hperform rfl rfl
  | none =>
      rcases h with h | ⟨hblocked, hanswer, hafter⟩
      · obtain ⟨⟨result, c'⟩, hmove, heq⟩ := Option.map_eq_some_iff.1 h
        obtain ⟨phase, hphase, hmove⟩ := Option.bind_eq_some_iff.1 hmove
        cases result with
        | inl phase' =>
            obtain ⟨hanswer, hafter⟩ := Prod.mk.inj heq
            exact .goes phase (.inl phase') c' rfl hphase hmove hanswer.symm hafter.symm
        | inr answer' =>
            obtain ⟨hanswer, hafter⟩ := Prod.mk.inj heq
            exact .goes phase (.inr answer') c' rfl hphase hmove hanswer.symm hafter.symm
      · exact .stirs rfl hblocked hanswer hafter

/-- What a worker does outside its own record: all other workers are as they were, and it is itself
where it was inside its command. -/
inductive OnlyChanges (w : ThreadId) (c c' : Crew) : Prop where
  | nothing (workers_eq : c'.workers = c.workers)
  | own (change : Worker → Worker) (workers_eq : c'.workers = c.workers.modify w change)
      (activity_eq : ∀ own, (change own).activity = own.activity)

theorem answerOr_cases {α : Type} {result : Except Halt α} {f : α → Answer × Crew} {answer : Answer}
    (h : c.answerOr result f = (answer, c')) : (∃ x, result = .ok x ∧ f x = (answer, c')) ∨
      ∃ halt, result = .error halt ∧ answer = .halted halt ∧ c' = c := by
  cases result with
  | ok x => exact .inl ⟨x, rfl, h⟩
  | error halt =>
      obtain ⟨rfl, rfl⟩ := Prod.mk.inj h
      exact .inr ⟨halt, rfl, rfl, rfl⟩

/-- What a command that is answered at once leaves as it is. -/
structure PerformKeeps (command : Command) (w : ThreadId) (c c' : Crew) : Prop where
  workers : OnlyChanges w c c'
  lock_eq : command ≠ .release → command ≠ .tryAcquire → c'.lock = c.lock
  condition_eq : command ≠ .wake → command ≠ .wakeAll → c'.condition = c.condition
  region_eq : command ≠ .enable → command ≠ .unhold → command ≠ .leave → c'.region = c.region
  guards_eq : command ≠ .unhold → command ≠ .leave → ∀ u, c'.guards u = c.guards u

theorem perform_keeps {answer : Answer} (h : c.perform w command = .inr (answer, c')) :
    PerformKeeps command w c c' := by
  have hsame : PerformKeeps command w c c :=
    ⟨.nothing rfl, fun _ _ => rfl, fun _ _ => rfl, fun _ _ _ => rfl, fun _ _ _ => rfl⟩
  cases command with
  | acquire | sleep | disable | hold | enter => cases h
  | release =>
      rcases answerOr_cases (Sum.inr.inj h) with ⟨x, -, heq⟩ | ⟨halt, -, -, rfl⟩
      · obtain ⟨-, rfl⟩ := Prod.mk.inj heq
        exact ⟨.nothing rfl, fun h => absurd rfl h, fun _ _ => rfl, fun _ _ _ => rfl,
          fun _ _ _ => rfl⟩
      · exact hsame
  | wake | wakeAll =>
      rcases answerOr_cases (Sum.inr.inj h) with ⟨x, -, heq⟩ | ⟨halt, -, -, rfl⟩
      · obtain ⟨-, rfl⟩ := Prod.mk.inj heq
        exact ⟨.nothing rfl, fun _ _ => rfl, fun _ _ => by contradiction, fun _ _ _ => rfl,
          fun _ _ _ => rfl⟩
      · exact hsame
  | enable =>
      rcases answerOr_cases (Sum.inr.inj h) with ⟨x, -, heq⟩ | ⟨halt, -, -, rfl⟩
      · obtain ⟨-, rfl⟩ := Prod.mk.inj heq
        exact ⟨.nothing rfl, fun _ _ => rfl, fun _ _ => rfl, fun h => absurd rfl h,
          fun _ _ _ => rfl⟩
      · exact hsame
  | tryAcquire =>
      obtain ⟨-, rfl⟩ := Prod.mk.inj (Sum.inr.inj h)
      exact ⟨.nothing rfl, fun _ h => absurd rfl h, fun _ _ => rfl, fun _ _ _ => rfl,
        fun _ _ _ => rfl⟩
  | held | describe | level | get | contains | queueLength | wakeOne | queueWakeAll | pop =>
      obtain ⟨-, rfl⟩ := Prod.mk.inj (Sum.inr.inj h)
      exact ⟨.nothing rfl, fun _ _ => rfl, fun _ _ => rfl, fun _ _ _ => rfl, fun _ _ _ => rfl⟩
  | wait | wakePopped | set =>
      rw [perform] at h
      split at h <;> cases h <;>
        exact ⟨.nothing rfl, fun _ _ => rfl, fun _ _ => rfl, fun _ _ _ => rfl, fun _ _ _ => rfl⟩
  | push =>
      rcases answerOr_cases (Sum.inr.inj h) with ⟨x, -, heq⟩ | ⟨halt, -, -, rfl⟩
      · obtain ⟨-, rfl⟩ := Prod.mk.inj heq
        exact ⟨.own _ rfl fun _ => rfl, fun _ _ => rfl, fun _ _ => rfl, fun _ _ _ => rfl,
          fun _ _ => guards_of_modify rfl fun _ => ⟨rfl, rfl⟩⟩
      · exact hsame
  | unhold | leave =>
      rw [perform] at h
      split at h
      · cases h
        exact hsame
      · rcases answerOr_cases (Sum.inr.inj h) with ⟨x, -, heq⟩ | ⟨halt, -, -, rfl⟩
        · obtain ⟨-, rfl⟩ := Prod.mk.inj heq
          exact ⟨.own _ rfl fun _ => rfl, fun _ _ => rfl, fun _ _ => rfl,
            fun _ _ _ => by contradiction, fun _ _ => by contradiction⟩
        · exact ⟨.own _ rfl fun _ => rfl, fun _ _ => rfl, fun _ _ => rfl,
            fun _ _ _ => by contradiction, fun _ _ => by contradiction⟩

/-- A command that takes steps begins with the first of them. -/
inductive Starts : Activity → Prop where
  | acquiring : Starts (.acquiring .asking)
  | sleeping : Starts (.sleeping .entering)
  | disabling : Starts .disabling
  | holding : Starts .holding
  | enteringRegion : Starts .enteringRegion
  | waiting (ticket : Ticket) : Starts (.waiting ticket)

theorem perform_starts {phase : Activity} (h : c.perform w command = .inl phase) :
    Starts phase := by
  cases command with
  | acquire | sleep | disable | hold | enter =>
      obtain rfl := Sum.inl.inj h
      constructor
  | wait =>
      rw [perform] at h
      split at h <;> cases h
      exact .waiting _
  | unhold | set | leave | wakePopped =>
      rw [perform] at h
      split at h <;> cases h
  | _ => cases h

theorem phaseOr_cases {α β : Type} {result : Except Halt (Option α × β)} {phase : α → Activity}
    {keep : β → Crew} {r : StepResult} (h : c.phaseOr result phase keep = (r, c')) :
    (∃ x shared, result = .ok (some x, shared) ∧ r = .inl (phase x) ∧ c' = keep shared) ∨
      (∃ shared, result = .ok (none, shared) ∧ r = .inr .done ∧ c' = keep shared) ∨
      ∃ halt, result = .error halt ∧ r = .inr (.halted halt) ∧ c' = c := by
  unfold phaseOr at h
  split at h
  · obtain ⟨rfl, rfl⟩ := Prod.mk.inj h
    exact .inl ⟨_, _, rfl, rfl, rfl⟩
  · obtain ⟨rfl, rfl⟩ := Prod.mk.inj h
    exact .inr (.inl ⟨_, rfl, rfl, rfl⟩)
  · obtain ⟨rfl, rfl⟩ := Prod.mk.inj h
    exact .inr (.inr ⟨_, rfl, rfl, rfl⟩)

/-- What a step inside a command leaves as it is. -/
structure MoveKeeps (phase : Activity) (w : ThreadId) (result : StepResult) (c c' : Crew) :
    Prop where
  workers : OnlyChanges w c c'
  lock_eq : (∀ own, phase ≠ .acquiring own) → (∀ own, phase ≠ .sleeping own) → c'.lock = c.lock
  condition_eq : (∀ own, phase ≠ .sleeping own) → c'.condition = c.condition
  region_eq : phase ≠ .disabling → phase ≠ .holding → phase ≠ .enteringRegion →
    c'.region = c.region
  guards_eq : phase ≠ .holding → phase ≠ .enteringRegion → ∀ u, c'.guards u = c.guards u
  -- all other commands take one step
  ends : (∀ own, phase ≠ .acquiring own) → (∀ own, phase ≠ .sleeping own) →
    result.getLeft? = none

theorem move_keeps {phase : Activity} {result : StepResult}
    (h : c.move w phase = some (result, c')) : MoveKeeps phase w result c c' := by
  cases phase with
  | acquiring phase =>
      obtain ⟨x, -, heq⟩ := Option.map_eq_some_iff.1 h
      rcases phaseOr_cases heq with ⟨_, _, -, -, rfl⟩ | ⟨_, -, -, rfl⟩ | ⟨_, -, -, rfl⟩ <;>
        exact ⟨.nothing rfl, fun h => absurd rfl (h phase), fun _ => rfl, fun _ _ _ => rfl,
          fun _ _ _ => rfl, fun h => absurd rfl (h phase)⟩
  | sleeping phase =>
      obtain ⟨x, -, heq⟩ := Option.map_eq_some_iff.1 h
      rcases phaseOr_cases heq with ⟨_, _, -, -, rfl⟩ | ⟨_, -, -, rfl⟩ | ⟨_, -, -, rfl⟩ <;>
        exact ⟨.nothing rfl, fun _ h => absurd rfl (h phase), fun h => absurd rfl (h phase),
          fun _ _ _ => rfl, fun _ _ _ => rfl, fun _ h => absurd rfl (h phase)⟩
  | disabling =>
      obtain ⟨x, -, heq⟩ := Option.map_eq_some_iff.1 h
      obtain ⟨rfl, rfl⟩ := Prod.mk.inj heq
      exact ⟨.nothing rfl, fun _ _ => rfl, fun _ => rfl, fun h => absurd rfl h,
        fun _ _ _ => rfl, fun _ _ => rfl⟩
  | holding =>
      obtain ⟨x, -, heq⟩ := Option.map_eq_some_iff.1 h
      obtain ⟨rfl, rfl⟩ := Prod.mk.inj heq
      exact ⟨.own _ rfl fun _ => rfl, fun _ _ => rfl, fun _ => rfl, fun _ h => absurd rfl h,
        fun h => absurd rfl h, fun _ _ => rfl⟩
  | enteringRegion =>
      obtain ⟨⟨x, region⟩, -, heq⟩ := Option.map_eq_some_iff.1 h
      cases x with
      | ok _ =>
          obtain ⟨rfl, rfl⟩ := Prod.mk.inj heq
          exact ⟨.own _ rfl fun _ => rfl, fun _ _ => rfl, fun _ => rfl, fun _ _ h => absurd rfl h,
            fun _ h => absurd rfl h, fun _ _ => rfl⟩
      | error _ =>
          obtain ⟨rfl, rfl⟩ := Prod.mk.inj heq
          exact ⟨.nothing rfl, fun _ _ => rfl, fun _ => rfl, fun _ _ h => absurd rfl h,
            fun _ h => absurd rfl h, fun _ _ => rfl⟩
  | waiting ticket =>
      rw [move] at h
      split at h
      · obtain ⟨rfl, rfl⟩ := Prod.mk.inj (Option.some.inj h)
        exact ⟨.nothing rfl, fun _ _ => rfl, fun _ => rfl, fun _ _ _ => rfl, fun _ _ _ => rfl,
          fun _ _ => rfl⟩
      · cases h

namespace OnlyChanges

theorem length_eq (h : OnlyChanges w c c') : c'.workers.length = c.workers.length := by
  cases h with
  | nothing hworkers => rw [hworkers]
  | own change hworkers _ => rw [hworkers, List.length_modify]

theorem worker_of_ne (h : OnlyChanges w c c') (hu : u ≠ w) : c'.worker u = c.worker u := by
  rw [worker_eq, worker_eq]
  cases h with
  | nothing hworkers => rw [hworkers]
  | own change hworkers _ => rw [hworkers, List.getElem?_modify_ne _ _ hu.symm]

theorem activity_eq (h : OnlyChanges w c c') (u : ThreadId) : c'.activity u = c.activity u := by
  by_cases hu : u = w
  · rw [activity, activity, worker_eq, worker_eq]
    cases h with
    | nothing hworkers => rw [hworkers]
    | own change hworkers hactivity =>
        rw [hworkers, hu, List.getElem?_modify_eq]
        cases c.workers[w]? with
        | none => rfl
        | some own => exact hactivity own
  · rw [activity, activity, h.worker_of_ne hu]

end OnlyChanges

theorem activity_update_self (h : w < c.workers.length) (change : Worker → Worker) :
    (c.update w change).activity w = (change (c.worker w)).activity := by
  rw [activity, worker_update_self h]

theorem guards_withActivity (c : Crew) (w : ThreadId) (activity : Option Activity) (u : ThreadId) :
    (c.withActivity w activity).guards u = c.guards u := by
  refine guards_update ?_ u
  exact fun _ => ⟨rfl, rfl⟩

theorem activity_withActivity_self (h : w < c.workers.length) (activity : Option Activity) :
    (c.withActivity w activity).activity w = activity :=
  activity_update_self h _

namespace Moment

variable {m : Moment}

/-- Only an idle worker is given a command. -/
theorem Happens.idle (h : m.Happens) (hcommand : m.command = some command) :
    m.before.activity m.worker = none := by
  cases h.form with
  | begins _ _ _ hidle _ _ _ | answers _ _ _ hidle _ _ => exact hidle
  | goes _ _ _ hcommand' _ _ _ _ | stirs hcommand' _ _ _ => cases hcommand'.symm.trans hcommand

/-- A command that is answered at once. -/
theorem Happens.performed (h : m.Happens) (hcommand : m.command = some command) {answer : Answer}
    (hperforms : m.before.perform m.worker command = .inr (answer, c)) :
    m.answer = some answer ∧ m.after = c := by
  cases h.form with
  | begins command' _ hcommand' _ hperforms' _ _ =>
      obtain rfl := Option.some.inj (hcommand'.symm.trans hcommand)
      cases hperforms'.symm.trans hperforms
  | answers command' _ hcommand' _ hperforms' hanswer =>
      obtain rfl := Option.some.inj (hcommand'.symm.trans hcommand)
      obtain ⟨rfl, rfl⟩ := Prod.mk.inj (Sum.inr.inj (hperforms'.symm.trans hperforms))
      exact ⟨hanswer, rfl⟩
  | goes _ _ _ hcommand' _ _ _ _ | stirs hcommand' _ _ _ => cases hcommand'.symm.trans hcommand

/-- A worker goes on with its command. -/
theorem Happens.moved (h : m.Happens) (hcommand : m.command = none) {phase : Activity}
    (hbusy : m.before.activity m.worker = some phase) {result : StepResult}
    (hmoves : m.before.move m.worker phase = some (result, c)) :
    m.answer = result.getRight? ∧ m.after = c.withActivity m.worker result.getLeft? := by
  cases h.form with
  | begins _ _ hcommand' _ _ _ _ | answers _ _ hcommand' _ _ _ =>
      cases hcommand'.symm.trans hcommand
  | goes phase' _ _ _ hbusy' hmoves' hanswer hafter =>
      obtain rfl := Option.some.inj (hbusy'.symm.trans hbusy)
      obtain ⟨rfl, rfl⟩ := Prod.mk.inj (Option.some.inj (hmoves'.symm.trans hmoves))
      exact ⟨hanswer, hafter⟩
  | stirs _ hblocked _ _ => cases (step_eq_none_iff.1 hblocked _ hbusy).symm.trans hmoves

theorem Happens.activity_moved (h : m.Happens) (hcommand : m.command = none) {phase : Activity}
    (hbusy : m.before.activity m.worker = some phase) {result : StepResult}
    (hmoves : m.before.move m.worker phase = some (result, c)) :
    m.after.activity m.worker = result.getLeft? := by
  rw [(h.moved hcommand hbusy hmoves).2]
  refine activity_withActivity_self ?_ _
  rw [(move_keeps hmoves).workers.length_eq]
  exact h.1

/-- A worker that has to wait waits on. -/
theorem Happens.waited (h : m.Happens) (hcommand : m.command = none)
    (hblocked : m.before.step m.worker = none) : m.answer = none ∧ m.after = m.before := by
  cases h.form with
  | begins _ _ hcommand' _ _ _ _ | answers _ _ hcommand' _ _ _ =>
      cases hcommand'.symm.trans hcommand
  | goes phase _ _ _ hbusy hmoves _ _ =>
      cases (step_eq_none_iff.1 hblocked _ hbusy).symm.trans hmoves
  | stirs _ _ hanswer hafter => exact ⟨hanswer, hafter⟩

/-- Every other worker stays as it is. -/
theorem Happens.worker_of_ne (h : m.Happens) (hu : u ≠ m.worker) :
    m.after.worker u = m.before.worker u := by
  cases h.form with
  | begins command phase _ _ _ _ hafter => rw [hafter, worker_update_of_ne hu]
  | answers command answer _ _ hperforms _ =>
      exact (perform_keeps hperforms).workers.worker_of_ne hu
  | goes phase result c _ _ hmoves _ hafter =>
      rw [hafter, withActivity, worker_update_of_ne hu, (move_keeps hmoves).workers.worker_of_ne hu]
  | stirs _ _ _ hafter => rw [hafter]

theorem Happens.activity_of_ne (h : m.Happens) (hu : u ≠ m.worker) :
    m.after.activity u = m.before.activity u := by
  rw [activity, activity, h.worker_of_ne hu]

theorem Happens.guards_of_ne (h : m.Happens) (hu : u ≠ m.worker) :
    m.after.guards u = m.before.guards u := by
  rw [guards, guards, h.worker_of_ne hu]

end Moment

/-- The ticket that a worker has later and did not have earlier, with the worker. -/
def newTicket (w : ThreadId) (earlier later : Option Ticket) : Option Waiter :=
  if earlier = none then later.map (Waiter.mk w) else none

theorem newTicket_eq_none {earlier later : Option Ticket} (h : earlier = none → later = none) :
    newTicket w earlier later = none := by
  rw [newTicket]
  split
  · rename_i hnone
    rw [h hnone]
    rfl
  · rfl

/-- What went into something is what came out of it, in order, and then what is still inside. -/
theorem append_conserved {α : Type} {ins outs inside i o inside' : List α}
    (h : ins = outs ++ inside) (hstep : inside ++ i = o ++ inside') :
    ins ++ i = (outs ++ o) ++ inside' := by
  rw [h, List.append_assoc, hstep, List.append_assoc]

theorem filterMap_concat {α β : Type} (f : α → Option β) (l : List α) (a : α) :
    (l ++ [a]).filterMap f = l.filterMap f ++ (f a).toList := by
  rw [List.filterMap_append]
  cases h : f a <;> simp [h]

/-- What holds of a crew at the start, and stays true in every moment, holds after every run. -/
theorem Run.invariant {workers value : Nat} {I : List Moment → Crew → Prop}
    (hnil : I [] (ofSize workers value))
    (hstep : ∀ history m, Run workers value history m.before → m.Happens → I history m.before →
      I (history ++ [m]) m.after)
    {history : List Moment} (h : Run workers value history c) : I history c := by
  induction h with
  | nil => exact hnil
  | step h hm ih => exact hstep _ _ h hm ih

/-- No worker of a new crew is inside a command. -/
theorem worker_ofSize (workers value : Nat) (w : ThreadId) :
    (ofSize workers value).worker w = {} := by
  rw [worker_eq, ofSize, List.getElem?_replicate]
  split <;> rfl

/-- The moment in which a worker is given a command, or goes on with the one it is inside of. -/
def moment (c : Crew) (w : ThreadId) : Option Command → Moment
  | some command =>
      { before := c, worker := w, command, answer := (c.begin w command).1
        after := (c.begin w command).2 }
  | none =>
      { before := c, worker := w, command := none, answer := (c.step w).bind Prod.fst
        after := ((c.step w).map Prod.snd).getD c }

/-- What happens to a crew when its workers are given commands, or go on, in some order. A busy
worker is given no command. -/
def play (c : Crew) : List (ThreadId × Option Command) → Option (List Moment × Crew)
  | [] => some ([], c)
  | (w, command) :: rest =>
      if w < c.workers.length ∧ (command.isSome → c.isIdle w = true) then
        ((c.moment w command).after.play rest).map fun (later, after) =>
          (c.moment w command :: later, after)
      else none

theorem moment_happens (hlt : w < c.workers.length) {order : Option Command}
    (hidle : order.isSome → c.isIdle w = true) : (c.moment w order).Happens := by
  cases order with
  | some command => exact ⟨hlt, hidle rfl, rfl⟩
  | none =>
      refine ⟨hlt, ?_⟩
      cases h : c.step w with
      | some result => exact .inl (by simp [moment, h])
      | none => exact .inr (by simp [moment, h])

/-- What is played is a run. -/
theorem Run.play {workers value : Nat} {events : List (ThreadId × Option Command)}
    {history later : List Moment} (h : Run workers value history c)
    (hplay : c.play events = some (later, c')) : Run workers value (history ++ later) c' := by
  -- the history grows at its end while the events are used up from their front
  induction events generalizing c history later with
  | nil =>
      obtain ⟨rfl, rfl⟩ := Prod.mk.inj (Option.some.inj hplay)
      rw [List.append_nil]
      exact h
  | cons event rest ih =>
      obtain ⟨w, order⟩ := event
      rw [Crew.play] at hplay
      split at hplay
      · rename_i hlegal
        obtain ⟨⟨later, after⟩, hrest, heq⟩ := Option.map_eq_some_iff.1 hplay
        obtain ⟨rfl, rfl⟩ := Prod.mk.inj heq
        have hm := moment_happens hlegal.1 hlegal.2
        have hbefore : (c.moment w order).before = c := by cases order <;> rfl
        rw [List.append_cons]
        exact ih (.step (hbefore.symm ▸ h) hm) hrest
      · cases hplay

end DemandPaging.Crew
