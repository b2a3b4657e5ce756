import DemandPaging.Sync.Condition
import DemandPaging.Sync.CriticalRegion

/-!
# A crew of workers

Threads that share one lock with its condition, one critical region with a number that is only
touched inside, and one queue, and run the commands they are given. A command that has to wait is
kept as the phase it is in, and `step` moves one worker one phase on. Any interleaving of the
workers is a sequence of commands and such steps; `settle` is the one that lets every worker run
until it has to wait.
-/

namespace DemandPaging

/-- What a worker can be told to do. -/
inductive Command where
  /-- take the lock -/
  | acquire
  /-- give the lock back -/
  | release
  /-- take the lock if nobody has it -/
  | tryAcquire
  /-- ask whether the lock is held by the worker, and by anyone -/
  | held
  /-- describe the lock in words -/
  | describe
  /-- sleep on the condition -/
  | sleep
  /-- wake one sleeper of the condition -/
  | wake
  /-- wake every sleeper of the condition -/
  | wakeAll
  /-- disable interrupts -/
  | disable
  /-- enable interrupts -/
  | enable
  /-- disable interrupts until the matching `unhold` -/
  | hold
  /-- end the last `hold` -/
  | unhold
  /-- ask for the interrupt level -/
  | level
  /-- enter the critical region -/
  | enter
  /-- read the guarded number -/
  | get
  /-- replace the guarded number -/
  | set (value : Nat)
  /-- leave the critical region -/
  | leave
  /-- stand in the queue, and keep the ticket -/
  | push
  /-- wait until the kept ticket is woken -/
  | wait
  /-- ask whether a worker stands in the queue -/
  | contains (worker : ThreadId)
  /-- ask for the length of the queue -/
  | queueLength
  /-- wake the first worker of the queue -/
  | wakeOne
  /-- wake every worker of the queue -/
  | queueWakeAll
  /-- take the first worker out of the queue and keep it in the crew's hands -/
  | pop
  /-- wake the worker in the crew's hands -/
  | wakePopped
deriving DecidableEq

/-- What came of a command. -/
inductive Answer where
  | done
  /-- there was nothing to do it with -/
  | nothing
  | flag (value : Bool)
  | count (value : Nat)
  | text (value : String)
  /-- whether the worker holds the lock, and whether anyone does -/
  | held (byWorker byAnyone : Bool)
  | level (off : Bool)
  | halted (halt : Halt)
deriving DecidableEq

/-- Where a worker is inside a command that may have to wait. -/
inductive Activity where
  | acquiring (phase : Acquiring)
  | sleeping (phase : Sleeping)
  | disabling
  | holding
  | enteringRegion
  | waiting (ticket : Ticket)
deriving DecidableEq

/-- What a worker has, and the command it is inside of. -/
structure Worker where
  activity : Option Activity := none
  /-- how many `hold`s it has not ended -/
  holds : Nat := 0
  /-- how often it is inside the critical region -/
  entries : Nat := 0
  /-- the ticket it keeps -/
  ticket : Option Ticket := none
deriving DecidableEq

/-- The workers and what they share. -/
structure Crew where
  workers : List Worker
  lock : SleepLock := {}
  condition : Condition := {}
  region : CriticalRegion := {}
  /-- the guarded number -/
  value : Nat := 0
  queue : TicketQueue := {}
  /-- the worker that was taken out of the queue last -/
  popped : Option Waiter := none

namespace Crew

/-- A crew of idle workers. -/
def ofSize (workers value : Nat) : Crew :=
  { workers := List.replicate workers {}, value }

def worker (c : Crew) (w : ThreadId) : Worker := c.workers.getD w {}

/-- The crew with a worker changed. -/
def update (c : Crew) (w : ThreadId) (change : Worker → Worker) : Crew :=
  { c with workers := c.workers.modify w change }

/-- The answer to something that may halt, and the crew after it. -/
def answerOr {α : Type} (c : Crew) (result : Except Halt α) (f : α → Answer × Crew) :
    Answer × Crew :=
  match result with
  | .ok x => f x
  | .error halt => (.halted halt, c)

/-- What a worker does for a command: it answers at once, or it enters the command. -/
def perform (c : Crew) (w : ThreadId) : Command → Activity ⊕ Answer × Crew
  | .acquire => .inl (.acquiring .asking)
  | .sleep => .inl (.sleeping .entering)
  | .disable => .inl .disabling
  | .hold => .inl .holding
  | .enter => .inl .enteringRegion
  | .wait =>
      match (c.worker w).ticket with
      | some ticket => .inl (.waiting ticket)
      | none => .inr (.nothing, c)
  | .release => .inr (c.answerOr (c.lock.release w) fun lock => (.done, { c with lock }))
  | .tryAcquire => .inr ((c.lock.tryAcquire w).map .flag fun lock => { c with lock })
  | .held => .inr (.held (c.lock.isHeldBy w) c.lock.isLocked, c)
  | .describe => .inr (.text (c.lock.describe fun holder => s!"w{holder}"), c)
  | .wake => .inr (c.answerOr (c.condition.wake c.lock w) fun (woken, condition) =>
      (.flag woken, { c with condition }))
  | .wakeAll => .inr (c.answerOr (c.condition.wakeAll c.lock w) fun (woken, condition) =>
      (.count woken, { c with condition }))
  | .enable => .inr (c.answerOr (c.region.interrupts.enable w) fun interrupts =>
      (.done, { c with region := { c.region with interrupts } }))
  | .unhold =>
      if (c.worker w).holds = 0 then .inr (.flag false, c)
      else
        -- the hold is over even when interrupts turn out to belong to someone else
        let c := c.update w fun own => { own with holds := own.holds - 1 }
        .inr (c.answerOr (c.region.interrupts.enable w) fun interrupts =>
          (.flag true, { c with region := { c.region with interrupts } }))
  | .level => .inr (.level (c.region.interrupts.areOff w), c)
  | .get => .inr (if (c.worker w).entries = 0 then .nothing else .count c.value, c)
  | .set value =>
      if (c.worker w).entries = 0 then .inr (.nothing, c) else .inr (.done, { c with value })
  | .leave =>
      if (c.worker w).entries = 0 then .inr (.flag false, c)
      else
        let (result, region) := c.region.leave w
        let c := { c with region }.update w fun own => { own with entries := own.entries - 1 }
        .inr (c.answerOr result fun () => (.flag true, c))
  | .push => .inr (c.answerOr (c.queue.push w) fun (ticket, queue) =>
      (.done, { c with queue }.update w fun own => { own with ticket := some ticket }))
  | .contains other => .inr (.flag (c.queue.contains other), c)
  | .queueLength => .inr (.count c.queue.length, c)
  | .wakeOne => .inr (c.queue.wakeOne.map .flag fun queue => { c with queue })
  | .queueWakeAll => .inr (c.queue.wakeAll.map .count fun queue => { c with queue })
  | .pop =>
      let (popped, queue) := c.queue.pop
      .inr (match popped with
        | some waiter => .count waiter.thread
        | none => .nothing, { c with queue, popped })
  | .wakePopped =>
      match c.popped with
      | some waiter => .inr (.flag true, { c with queue := c.queue.wake waiter, popped := none })
      | none => .inr (.flag false, c)

/-- Whether a worker is idle; a busy one is given no command. -/
def isIdle (c : Crew) (w : ThreadId) : Bool := (c.worker w).activity.isNone

/-- A command is given to an idle worker. The answer, if there is one at once, and the crew. -/
def begin (c : Crew) (w : ThreadId) (command : Command) : Option Answer × Crew :=
  match c.perform w command with
  | .inr (answer, c) => (some answer, c)
  | .inl activity =>
      -- a ticket can be waited on once
      let ticket := if command = .wait then none else (c.worker w).ticket
      (none, c.update w fun own => { own with activity := some activity, ticket })

/-- What a step of a worker leads to: a later phase of its command, or the answer. -/
abbrev StepResult := Activity ⊕ Answer

/-- The answer or the next phase after a step that may halt. -/
def phaseOr {α β : Type} (c : Crew) (result : Except Halt (Option α × β)) (phase : α → Activity)
    (keep : β → Crew) : StepResult × Crew :=
  match result with
  | .ok (some x, shared) => (.inl (phase x), keep shared)
  | .ok (none, shared) => (.inr .done, keep shared)
  | .error halt => (.inr (.halted halt), c)

/-- The next step of a worker inside a command, unless it has to wait. -/
def move (c : Crew) (w : ThreadId) : Activity → Option (StepResult × Crew)
  | .acquiring phase => (c.lock.acquire w phase).map fun result =>
      c.phaseOr result .acquiring fun lock => { c with lock }
  | .sleeping phase => (c.condition.sleep c.lock w phase).map fun result =>
      c.phaseOr result .sleeping fun (condition, lock) => { c with condition, lock }
  | .disabling => (c.region.interrupts.disable w).map fun interrupts =>
      (.inr .done, { c with region := { c.region with interrupts } })
  | .holding => (c.region.interrupts.disable w).map fun interrupts =>
      (.inr .done, { c with region := { c.region with interrupts } }.update w fun own =>
        { own with holds := own.holds + 1 })
  | .enteringRegion => (c.region.enter w).map fun (result, region) =>
      match result with
      | .ok () => (.inr .done, { c with region }.update w fun own =>
          { own with entries := own.entries + 1 })
      | .error halt => (.inr (.halted halt), { c with region })
  | .waiting ticket =>
      if c.queue.isWoken ticket then some (.inr .done, c) else none

/-- One step of a worker, with the answer if its command is over. An idle worker takes no step, and
neither does one that has to wait. -/
def step (c : Crew) (w : ThreadId) : Option (Option Answer × Crew) :=
  ((c.worker w).activity.bind (c.move w)).map fun
    | (.inl phase, c) => (none, c.update w fun own => { own with activity := some phase })
    | (.inr answer, c) => (some answer, c.update w fun own => { own with activity := none })

/-- The first worker that can take a step, and the crew after it. -/
def firstStep (c : Crew) : Option (ThreadId × Option Answer × Crew) :=
  (List.range c.workers.length).findSome? fun w => (c.step w).map fun result => (w, result)

/-- How many steps are left in a phase at most. -/
def stepsLeft : Activity → Nat
  | .sleeping .entering => 5
  | .sleeping (.leaving _) => 4
  | .sleeping (.asleep _) => 3
  | .sleeping (.returning .asking) | .acquiring .asking => 2
  | _ => 1

/-- How many steps are left in all commands at most. -/
def allStepsLeft (c : Crew) : Nat :=
  c.workers.foldl (fun left own => left + (own.activity.map stepsLeft).getD 0) 0

/-- Lets workers step, the first that can each time. Gives the answers of the commands that end. -/
def run : Nat → Crew → List (ThreadId × Answer) × Crew
  | 0, c => ([], c)
  | fuel + 1, c =>
      match c.firstStep with
      | none => ([], c)
      | some (w, answer, c) =>
          let (answers, c) := run fuel c
          ((answer.map fun a => (w, a)).toList ++ answers, c)

/-- Lets every worker run until it has to wait. -/
def settle (c : Crew) : List (ThreadId × Answer) × Crew := run c.allStepsLeft c

/-- What is known of a command when every worker has run until it has to wait. -/
inductive Reply where
  | answered (answer : Answer)
  /-- the worker waits inside the command -/
  | blocked
  /-- the worker still waits inside an earlier command, and was not told -/
  | busy

/-- Gives a worker a command and lets everyone run. The reply, the answers of earlier commands of
the others, and the crew. -/
def order (c : Crew) (w : ThreadId) (command : Command) :
    Reply × List (ThreadId × Answer) × Crew :=
  if ¬ c.isIdle w then (.busy, [], c)
  else
    let (atOnce, c) := c.begin w command
    let (answers, c) := c.settle
    let own := (answers.filter (·.1 = w)).map (·.2)
    let reply := match (atOnce.toList ++ own).head? with
      | some answer => Reply.answered answer
      | none => .blocked
    (reply, answers.filter (·.1 ≠ w), c)

/-- Lets every holder of the lock give it back, as long as there is one and it is idle. Gives the
answers of all commands that end, the releases among them. -/
def drainUpTo : Nat → Crew → List (ThreadId × Answer) × Crew
  | 0, c => ([], c)
  | fuel + 1, c =>
      match c.lock.holder with
      | none => ([], c)
      | some holder =>
          match c.order holder .release with
          | (.answered answer, answers, c) =>
              let (later, c) := drainUpTo fuel c
              ((holder, answer) :: answers ++ later, c)
          | (_, answers, c) => (answers, c)

/-- Empties the lock: at most everyone who waits for it, or sleeps on its condition, has it once. -/
def drain (c : Crew) : List (ThreadId × Answer) × Crew := drainUpTo (c.workers.length + 1) c

end Crew

end DemandPaging
