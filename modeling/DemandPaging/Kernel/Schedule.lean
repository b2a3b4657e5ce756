import DemandPaging.Kernel.Event

/-!
# Scripts and their schedule

A schedule is one interleaving of the events of a run, chosen so that nothing is left to chance.
Sessions follow scripts. A session that does not hold the processor steps as soon as it can, so a
thread that starts, yields or is woken is in the queue for the processor before the one that holds
it goes on; among several the one with the lowest number is first. The holder of the processor takes
the next request of its script, and leaves when there is none. The schedule goes on until nobody has
a step: then every session has ended or sleeps for a swap slot.
-/

namespace DemandPaging

/-- A session's script. -/
structure Script (σ : Type) where
  /-- what it has yet to ask for -/
  requests : List Request
  /-- what was answered so far, the last answer first -/
  answers : List (Response σ) := []

/-- The kernel and the scripts of its sessions. -/
structure Play (σ : Type) where
  kernel : Kernel σ
  scripts : List (Script σ) := []

/-- A halt, and the session that met it. -/
structure Stop where
  session : Nat
  halt : Halt

namespace Play

variable {σ : Type} [Extent σ]

/-- Adds sessions, each of which runs a process by a script. -/
def add (p : Play σ) (sessions : List (Nat × List Request)) : Play σ :=
  { kernel := sessions.foldl (fun k s => k.start s.1) p.kernel
    scripts := p.scripts ++ sessions.map fun s => { requests := s.2 } }

/-- The play with a session's script changed. -/
def setScript (p : Play σ) (session : Nat) (change : Script σ → Script σ) : Play σ :=
  { p with scripts := p.scripts.modify session change }

/-- Lets an event happen if it is possible. An answer is written down as the session's. -/
def happen (p : Play σ) (session : Nat) (event : Event) : Option (Except Stop (Play σ)) :=
  (p.kernel.perform event).map fun
    | .error halt => .error ⟨session, halt⟩
    | .ok (none, kernel) => .ok { p with kernel }
    | .ok (some response, kernel) =>
        let write := fun (s : Script σ) => { s with answers := response :: s.answers }
        .ok ({ p with kernel }.setScript session write)

/-- A step of a session, unless it is blocked. -/
def stepOf (p : Play σ) (session : Nat) : Option (Except Stop (Play σ)) :=
  p.happen session (.advance session)

/-- What a session still has to ask for. -/
def requestsOf (p : Play σ) (session : Nat) : List Request :=
  (p.scripts[session]?.map Script.requests).getD []

/-- A session asks for the next thing in its script, or leaves at the end of it. -/
def prompt (p : Play σ) (session : Nat) : Option (Except Stop (Play σ)) :=
  let request := (p.requestsOf session).headD .leave
  let p := p.setScript session fun s => { s with requests := s.requests.tail }
  p.happen session (.ask session request)

/-- The session that holds the processor. -/
def holder (p : Play σ) : Option Nat := p.kernel.cpu.holder.map (· - 1)

/-- A step of the first session that can take one without holding the processor. -/
def stepAside (p : Play σ) : Option (Except Stop (Play σ)) :=
  ((List.range p.kernel.sessions.length).filter fun s => p.holder ≠ some s).findSome? p.stepOf

/-- A step of the session that holds the processor. -/
def stepHolder (p : Play σ) : Option (Except Stop (Play σ)) := do
  let session ← p.holder
  match (p.kernel.session session).map Session.phase with
  | some .ready => p.prompt session
  | _ => p.stepOf session

/-- The next step of the schedule. -/
def next (p : Play σ) : Option (Except Stop (Play σ)) :=
  match p.stepAside with
  | some result => some result
  | none => p.stepHolder

/-- The schedule, for so many steps at most. What has come of it, and the halt that ended it. -/
def runFor : Nat → Play σ → Play σ × Option Stop
  | 0, p => (p, none)
  | fuel + 1, p =>
      match p.next with
      | none => (p, none)
      | some (.ok p) => runFor fuel p
      | some (.error stop) => (p, some stop)

/-- How much work a request can be: a unit for every byte, and one more. -/
def workOf (request : Request) : Nat := request.count + 1

/-- How much work a session can still have with the request it is inside of. -/
def workInside (session : Session) : Nat :=
  match session.phase with
  | .busy call => workOf call.request
  | _ => 0

/-- More steps than all sessions can take. A unit of work takes few steps and wakes few sleepers,
and a process that ends wakes every session at most. -/
def patience (p : Play σ) : Nat :=
  let sessions := p.kernel.sessions.length + 1
  let scripted := (p.scripts.flatMap Script.requests).foldl (fun work r => work + workOf r) 0
  let begun := p.kernel.sessions.foldl (fun work s => work + workInside s) 0
  1000 * sessions * sessions * (scripted + begun + 1)

/-- The schedule to its end. -/
def run (p : Play σ) : Play σ × Option Stop := runFor p.patience p

/-- Whether a session has ended. -/
def hasEnded (p : Play σ) (session : Nat) : Bool :=
  (p.kernel.session session).map Session.phase = some .ended

/-- The answers that a session got, the first answer first. -/
def answersOf (p : Play σ) (session : Nat) : List (Response σ) :=
  ((p.scripts[session]?.map Script.answers).getD []).reverse

end Play

end DemandPaging
