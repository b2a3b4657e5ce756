import DemandPaging.Kernel.Step

/-!
# Events

A run of the machine is a sequence of events: processes and threads are added, idle sessions are
given requests, sessions take steps, and the console pins frames. Any sequence of events that are
possible one after the other is an interleaving of the threads; `Kernel.perform` says what one event
does.
-/

namespace DemandPaging

/-- What can happen next. -/
inductive Event where
  /-- a process is added for an image -/
  | spawn (image : Image)
  /-- a thread is added that runs a process -/
  | start (process : Nat)
  /-- an idle session is given a request -/
  | ask (session : Nat) (request : Request)
  /-- a session takes its next step -/
  | advance (session : Nat)
  /-- the console pins a frame -/
  | pin (frame : Nat)
  /-- the console takes a pin off a frame -/
  | unpin (frame : Nat)

namespace Kernel

variable {σ : Type} [Extent σ]

/-- Something that the console does to the frame table. -/
def changeFromConsole (k : Kernel σ) (change : FrameTable → Except Halt FrameTable) :
    Option (Except Halt (Option (Response σ) × Kernel σ)) :=
  (k.locked console (Paging.changeFrames change)).map fun result =>
    result.map fun
      | (.ok (), k) => (some .done, k)
      | (.error cause, k) => (some (.failed cause), k)

/-- What an event does, with the answer if it ended something. There is nothing for an event that is
not possible: a step of a blocked session, a request to a busy one, a thread without a process. -/
def perform (k : Kernel σ) : Event → Option (Except Halt (Option (Response σ) × Kernel σ))
  | .spawn image =>
      match k.spawn image with
      | (.ok (.ok place), k) => some (.ok (some (.spawned place), k))
      | (.ok (.error cause), k) => some (.ok (some (.failed cause), k))
      | (.error halt, _) => some (.error halt)
  | .start process =>
      if (k.process process).isSome then some (.ok (none, k.start process)) else none
  | .ask session request =>
      if (k.session session).map Session.phase = some .ready then
        some (.ok (none, k.accept session request))
      else none
  | .advance session => k.step session
  | .pin frame => k.changeFromConsole (·.pin frame)
  | .unpin frame => k.changeFromConsole (·.unpin frame)

end Kernel

end DemandPaging
