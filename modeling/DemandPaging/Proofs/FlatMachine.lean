import DemandPaging.Kernel.Event
import DemandPaging.Proofs.Image
import Mathlib.Logic.Function.Basic

/-!
# The flat machine

What a user is promised: every process has an array of bytes of its own, which starts with what its
image stores and changes only where a thread of the process stores something. There are no pages,
frames, slots or caches here, and no locks. `FlatMachine.Step` says which answers are right: a load
is answered with the byte of the array, an access outside the array or a store into a read-only
section is refused and ends the process, and everything else that a thread does on its way to an
answer goes unnoticed.
-/

namespace DemandPaging

/-- Whether a request is about the memory of the process. -/
def Request.isAccess : Request → Bool
  | .read _ | .write .. | .copyOut .. | .copyIn .. => true
  | _ => false

/-- A process and its memory. -/
structure FlatProcess where
  process : UserProcess
  byteAt : Nat → UInt8

namespace FlatProcess

/-- How many bytes the array has. -/
def size (p : FlatProcess) (pageSize : Nat) : Nat := p.process.numPages * pageSize

/-- A process whose memory holds what the image stores, and zeros. -/
def fresh (process : UserProcess) (pageSize : Nat) : FlatProcess :=
  ⟨process, process.image.initialByte pageSize⟩

/-- Whether an address lies in a read-only section. -/
def Protected (p : FlatProcess) (pageSize address : Nat) : Prop :=
  ∃ s ∈ p.process.image.sections, s.readOnly = true ∧ s.Covers pageSize address

/-- The bytes from an address on. -/
def load (p : FlatProcess) (address count : Nat) : List UInt8 :=
  (List.range count).map fun i => p.byteAt (address + i)

/-- The process with bytes stored from an address on. -/
def store (p : FlatProcess) (address : Nat) (bytes : List UInt8) : FlatProcess :=
  { p with byteAt := fun a =>
      if address ≤ a ∧ a < address + bytes.length then bytes.getD (a - address) 0 else p.byteAt a }

/-- The process after its end. -/
def ended (p : FlatProcess) : FlatProcess := { p with process := { p.process with exited := true } }

end FlatProcess

/-- What a thread is about. -/
inductive Errand where
  /-- it has not begun yet -/
  | arriving
  /-- it has nothing to do -/
  | idle
  /-- it was asked for something, and has moved these bytes if it is a copy -/
  | asked (request : Request) (moved : List UInt8)
  /-- its access was refused -/
  | refused (cause : PagingError)
  /-- it has ended -/
  | over
deriving DecidableEq

/-- A thread that runs a process. -/
structure FlatThread where
  process : Nat
  errand : Errand

/-- Processes with their memories, and threads. -/
structure FlatMachine where
  config : Config
  processes : List FlatProcess := []
  threads : List FlatThread := []

namespace FlatMachine

/-- The machine with a thread about something else. -/
def setErrand (m : FlatMachine) (n : Nat) (errand : Errand) : FlatMachine :=
  { m with threads := m.threads.modify n fun t => { t with errand } }

/-- The machine with a process replaced. -/
def setProcess (m : FlatMachine) (i : Nat) (p : FlatProcess) : FlatMachine :=
  { m with processes := m.processes.set i p }

/-- The process that an image becomes. -/
def newProcess (m : FlatMachine) (image : Image) : UserProcess :=
  { pid := UInt16.ofNat (m.processes.length + 1)
    image
    numPages := UserProcess.addressSpace image m.config.stackPages }

/-- The access of a process that a request begins is refused, for a cause: the process has ended,
the address is outside its array, or it is not to be written. -/
inductive Refuses (pageSize : Nat) (p : FlatProcess) : Request → PagingError → Prop where
  | gone {request : Request} (haccess : request.isAccess = true) (h : p.process.exited = true) :
      Refuses pageSize p request (.noSuchProcess p.process.pid)
  | loadOutside {a : Nat} (hlive : p.process.exited = false) (h : p.size pageSize ≤ a) :
      Refuses pageSize p (.read a) (.segmentationFault a)
  | storeOutside {a : Nat} {v : UInt8} (hlive : p.process.exited = false)
      (h : p.size pageSize ≤ a) : Refuses pageSize p (.write a v) (.segmentationFault a)
  | readOnly {a : Nat} {v : UInt8} (hlive : p.process.exited = false) (h : a < p.size pageSize)
      (hro : p.Protected pageSize a) : Refuses pageSize p (.write a v) (.readOnlyViolation a)

/-- What an event may do, with the answer if it gives one. -/
inductive Step {σ : Type} (m : FlatMachine) : Event → Option (Response σ) → FlatMachine → Prop where
  /-- a process is added -/
  | spawn {image : Image} (h : Kernel.imageFault m.config image = none) :
      Step m (.spawn image) (some (.spawned m.processes.length))
        { m with processes :=
            m.processes ++ [.fresh (m.newProcess image) m.config.pageSize] }
  /-- an image that does not fit the machine -/
  | spawnRefused {image : Image} {cause : PagingError}
      (h : Kernel.imageFault m.config image = some cause) :
      Step m (.spawn image) (some (.failed cause)) m
  /-- a thread is added -/
  | start {i : Nat} (h : i < m.processes.length) :
      Step m (.start i) none { m with threads := m.threads ++ [⟨i, .arriving⟩] }
  /-- a thread gets something to do -/
  | ask {n i : Nat} {request : Request} (h : m.threads[n]? = some ⟨i, .idle⟩) :
      Step m (.ask n request) none (m.setErrand n (.asked request []))
  /-- something that nobody notices -/
  | unnoticed {n : Nat} : Step m (.advance n) none m
  /-- a thread is ready for its first request -/
  | arrive {n i : Nat} (h : m.threads[n]? = some ⟨i, .arriving⟩) :
      Step m (.advance n) none (m.setErrand n .idle)
  /-- a byte is loaded -/
  | load {n i a : Nat} {p : FlatProcess} (h : m.threads[n]? = some ⟨i, .asked (.read a) []⟩)
      (hp : m.processes[i]? = some p) (hlive : p.process.exited = false)
      (hsize : a < p.size m.config.pageSize) :
      Step m (.advance n) (some (.byte (p.byteAt a))) (m.setErrand n .idle)
  /-- a byte is stored -/
  | store {n i a : Nat} {v : UInt8} {p : FlatProcess}
      (h : m.threads[n]? = some ⟨i, .asked (.write a v) []⟩) (hp : m.processes[i]? = some p)
      (hlive : p.process.exited = false) (hsize : a < p.size m.config.pageSize)
      (hfree : ¬ p.Protected m.config.pageSize a) :
      Step m (.advance n) (some .done) ((m.setProcess i (p.store a [v])).setErrand n .idle)
  /-- a copy out of memory moves some more bytes -/
  | loadPart {n i a count part : Nat} {moved : List UInt8} {p : FlatProcess}
      (h : m.threads[n]? = some ⟨i, .asked (.copyOut a count) moved⟩)
      (hp : m.processes[i]? = some p) (hlive : p.process.exited = false)
      (hcount : moved.length + part ≤ count)
      (hsize : a + moved.length + part ≤ p.size m.config.pageSize) :
      Step m (.advance n) none
        (m.setErrand n (.asked (.copyOut a count) (moved ++ p.load (a + moved.length) part)))
  /-- a copy into memory moves some more bytes -/
  | storePart {n i a : Nat} {data moved part : List UInt8} {p : FlatProcess}
      (h : m.threads[n]? = some ⟨i, .asked (.copyIn a data) moved⟩)
      (hp : m.processes[i]? = some p) (hlive : p.process.exited = false)
      (hpart : part <+: data.drop moved.length)
      (hsize : a + moved.length + part.length ≤ p.size m.config.pageSize)
      (hfree : ∀ i < part.length, ¬ p.Protected m.config.pageSize (a + moved.length + i)) :
      Step m (.advance n) none ((m.setProcess i (p.store (a + moved.length) part)).setErrand n
        (.asked (.copyIn a data) (moved ++ part)))
  /-- a copy out of memory is complete, or has come to the end of memory -/
  | copied {n i a count : Nat} {moved : List UInt8} {p : FlatProcess}
      (h : m.threads[n]? = some ⟨i, .asked (.copyOut a count) moved⟩)
      (hp : m.processes[i]? = some p)
      (hdone : moved.length = count ∨ p.size m.config.pageSize ≤ a + moved.length) :
      Step m (.advance n) (some (.copied moved)) (m.setErrand n .idle)
  /-- a copy into memory is complete, or has come to the end of memory or to a read-only section -/
  | stored {n i a : Nat} {data moved : List UInt8} {p : FlatProcess}
      (h : m.threads[n]? = some ⟨i, .asked (.copyIn a data) moved⟩)
      (hp : m.processes[i]? = some p)
      (hdone : moved.length = data.length ∨ p.size m.config.pageSize ≤ a + moved.length ∨
        p.Protected m.config.pageSize (a + moved.length)) :
      Step m (.advance n) (some (.stored moved.length)) (m.setErrand n .idle)
  /-- an access is refused -/
  | refuse {n i : Nat} {request : Request} {moved : List UInt8} {p : FlatProcess}
      {cause : PagingError} (h : m.threads[n]? = some ⟨i, .asked request moved⟩)
      (hp : m.processes[i]? = some p) (hrefuse : Refuses m.config.pageSize p request cause) :
      Step m (.advance n) none (m.setErrand n (.refused cause))
  /-- a process ends because an access was refused -/
  | die {n i : Nat} {p : FlatProcess} {cause : PagingError}
      (h : m.threads[n]? = some ⟨i, .refused cause⟩) (hp : m.processes[i]? = some p) :
      Step m (.advance n) none (m.setProcess i p.ended)
  /-- the refusal is answered once the process has ended -/
  | failed {n i : Nat} {p : FlatProcess} {cause : PagingError}
      (h : m.threads[n]? = some ⟨i, .refused cause⟩) (hp : m.processes[i]? = some p)
      (hend : p.process.exited = true) :
      Step m (.advance n) (some (.failed cause)) (m.setErrand n .idle)
  /-- there is no access to a process that has ended already -/
  | gone {n i : Nat} {request : Request} {moved : List UInt8} {p : FlatProcess}
      (h : m.threads[n]? = some ⟨i, .asked request moved⟩) (haccess : request.isAccess = true)
      (hp : m.processes[i]? = some p) (hend : p.process.exited = true) :
      Step m (.advance n) (some (.failed (.noSuchProcess p.process.pid))) (m.setErrand n .idle)
  /-- a process ends by its own will -/
  | exit {n i : Nat} {p : FlatProcess} (h : m.threads[n]? = some ⟨i, .asked .exit []⟩)
      (hp : m.processes[i]? = some p) : Step m (.advance n) none (m.setProcess i p.ended)
  /-- the processor was given to others and came back -/
  | yielded {n i : Nat} (h : m.threads[n]? = some ⟨i, .asked .yield []⟩) :
      Step m (.advance n) (some .done) (m.setErrand n .idle)
  /-- a thread ends with its process -/
  | exited {n i : Nat} {p : FlatProcess} (h : m.threads[n]? = some ⟨i, .asked .exit []⟩)
      (hp : m.processes[i]? = some p) (hend : p.process.exited = true) :
      Step m (.advance n) (some .done) (m.setErrand n .over)
  /-- a thread ends -/
  | left {n i : Nat} (h : m.threads[n]? = some ⟨i, .asked .leave []⟩) :
      Step m (.advance n) none (m.setErrand n .over)

/-- A run from a machine without processes and threads: the events with their answers, and the
machine after them. -/
inductive Run {σ : Type} (c : Config) :
    List (Event × Option (Response σ)) → FlatMachine → Prop where
  | nil : Run c [] { config := c }
  | step {trace : List (Event × Option (Response σ))} {m m' : FlatMachine} {e : Event}
      {r : Option (Response σ)} (h : Run c trace m) (hs : Step m e r m') :
      Run c (trace ++ [(e, r)]) m'

end FlatMachine

end DemandPaging
