import DemandPaging.Kernel.MissHandling
import DemandPaging.Paging.Copy

/-!
# Steps of a session

`Kernel.step` moves one session one step on, and says whether that ended a request and with what
answer. A blocked session has no step. `accept` gives a request to a session that has nothing to do.

An error of the memory manager that ends a process is the answer to the request that met it. Any
other error that comes this far halts the machine.
-/

namespace DemandPaging

/-- The answer to a request. -/
inductive Response (σ : Type) where
  | done
  /-- the byte at the address -/
  | byte (value : UInt8)
  /-- the bytes copied out -/
  | copied (data : List UInt8)
  /-- how many bytes were copied in -/
  | stored (count : Nat)
  /-- the bytes of a frame -/
  | contents (data : List UInt8)
  | failed (cause : PagingError)
  /-- the place of a new process -/
  | spawned (place : Nat)
  /-- everything there was to see -/
  | seen (kernel : Kernel σ)

/-- What a step inside a request leads to. -/
inductive CallResult (σ : Type) where
  /-- the request goes on -/
  | continues (call : Call)
  /-- the request is over -/
  | answered (response : Response σ)
  /-- the thread has ended; `exit` has an answer even so -/
  | ended (response : Option (Response σ))

namespace Kernel

variable {σ : Type} [Extent σ]

/-- What a step inside a request leads to, and the kernel after it. -/
abbrev After (σ : Type) := CallResult σ × Kernel σ

/-- The request goes on at another stage. -/
def proceed (k : Kernel σ) (call : Call) (stage : Stage) : Except Halt (After σ) :=
  .ok (.continues { call with stage }, k)

/-- The request is over. -/
def reply (k : Kernel σ) (response : Response σ) : Except Halt (After σ) :=
  .ok (.answered response, k)

/-- What an error leads to: the end of the process, or a halt. -/
def fail (k : Kernel σ) (call : Call) (cause : PagingError) : Except Halt (After σ) :=
  if cause.reach = .endsProcess then k.proceed call (.killing cause)
  else .error (.fatal cause)

/-- What a trap leads to, with the address that the processor kept. -/
def trapped (k : Kernel σ) (call : Call) : Trap → Except Halt (After σ)
  | .miss => k.proceed call (.faulting (.missing k.paging.processor.badAddress))
  | .readOnly => k.fail call (.readOnlyViolation k.paging.processor.badAddress)
  | .badFrame => k.fail call (.frameTableCorrupt k.paging.processor.trappedFrame)

/-- One step of a thread that locks the tables. After an error that is no answer the machine
halts. -/
def lockedOrHalt (k : Kernel σ) (thread : ThreadId) (act : PagingM σ Unit)
    (next : Kernel σ → Except Halt (After σ)) : Option (Except Halt (After σ)) :=
  (k.locked thread act).map fun result => do
    match ← result with
    | (.ok (), k) => next k
    | (.error cause, _) => .error (.fatal cause)

/-! ## Accesses -/

/-- The processor makes the access of a request. -/
def access (k : Kernel σ) (call : Call) : Except Halt (After σ) :=
  match call.request with
  | .read address => do
      match ← k.paging.processor.loadByte address with
      | (.ok value, processor) => (k.withProcessor processor).reply (.byte value)
      | (.error trap, processor) => (k.withProcessor processor).trapped call trap
  | .write address value => do
      match ← k.paging.processor.storeByte address value with
      | (.ok (), processor) => (k.withProcessor processor).reply .done
      | (.error trap, processor) => (k.withProcessor processor).trapped call trap
  | _ => k.reply .done

/-- What follows when a miss is handled: the access or the copy goes on. -/
def afterMiss (k : Kernel σ) (call : Call) : Except Halt (After σ) :=
  match call.request with
  | .read _ | .write .. => k.proceed call .accessing
  | .copyOut .. | .copyIn .. => k.proceed call .pinning
  | _ => k.reply .done

/-! ## Copies -/

/-- The address that a copy has come to. -/
def copyAddress (call : Call) : Nat := call.request.address + call.moved.length

/-- The answer of a copy that has moved what it can. -/
def copyAnswer (call : Call) : Response σ :=
  if call.request.isWriting then .stored call.moved.length else .copied call.moved

/-- The next page of a copy is pinned, unless the copy has come to its end, to the end of the
address space, or to a page that may not be written. -/
def pinNext (k : Kernel σ) (thread : ThreadId) (process : UserProcess) (call : Call) :
    Option (Except Halt (After σ)) :=
  let page := Address.page k.config.pageSize (copyAddress call)
  if call.request.count ≤ call.moved.length ∨ process.numPages ≤ page then
    some (k.reply (copyAnswer call))
  else
    let act := Paging.pinForCopy ⟨process.pid, page⟩ call.request.isWriting
    (k.locked thread act).map fun result => do
      match ← result with
      | (.error cause, k) => k.reply (.failed cause)
      | (.ok .readOnly, k) => k.reply (copyAnswer call)
      | (.ok (.pinned frame), k) => k.proceed call (.moving frame)
      | (.ok .absent, k) =>
          k.proceed call (.faulting (.missing (Address.join k.config.pageSize page 0)))

/-- The part of a pinned frame that a copy has come to is moved. -/
def moveBytes (k : Kernel σ) (call : Call) (frame : Nat) : Except Halt (After σ) := do
  let offset := Address.offset k.config.pageSize (copyAddress call)
  let amount := min (k.config.pageSize - offset) (call.request.count - call.moved.length)
  let bytes ← k.paging.processor.frame frame
  match call.request with
  | .copyIn _ data =>
      let part := (data.drop call.moved.length).take amount
      let processor ← k.paging.processor.setFrame frame (Extent.patch bytes offset part)
      (k.withProcessor processor).proceed { call with moved := call.moved ++ part }
        (.unpinning frame)
  | _ =>
      let part := (bytes.drop offset).take amount
      k.proceed { call with moved := call.moved ++ part } (.unpinning frame)

/-! ## The end of a process -/

/-- What follows when the process has ended: the error is answered, or the thread ends too. -/
def afterEnd (k : Kernel σ) (call : Call) : Option PagingError → Except Halt (After σ)
  | some cause => k.reply (.failed cause)
  | none => k.proceed call .parting

/-- Ends the process, once, and takes everything from it. -/
def endProcess (k : Kernel σ) (thread : ThreadId) (place : Nat) (process : UserProcess)
    (call : Call) (cause : Option PagingError) : Option (Except Halt (After σ)) :=
  if process.exited then some (k.afterEnd call cause)
  else k.lockedOrHalt thread (Paging.reclaim process.pid) fun k =>
    (k.markExited place).proceed call (.mourning cause .checking)

/-- The answer of the request that ends a thread. -/
def lastAnswer (call : Call) : Option (Response σ) :=
  if call.request = .exit then some .done else none

/-! ## Requests -/

/-- The first step of a request. -/
def beginCall (k : Kernel σ) (thread : ThreadId) (place : Nat) (process : UserProcess)
    (call : Call) : Option (Except Halt (After σ)) :=
  match call.request with
  | .read _ | .write .. =>
      some (if process.exited then k.reply (.failed (.noSuchProcess process.pid))
        else k.proceed call .accessing)
  | .copyOut .. | .copyIn .. =>
      some (if process.exited then k.reply (.failed (.noSuchProcess process.pid))
        else k.proceed call .pinning)
  | .handle trap => some (k.trapped call trap)
  | .save => k.lockedOrHalt thread (Paging.saveCache process.pid) (·.reply .done)
  | .restore => some (k.flush.reply .done)
  | .yield => k.lockedOrHalt thread (Paging.saveCache process.pid) (·.proceed call .yielding)
  | .pin frame => k.lockedOrHalt thread (Paging.changeFrames (·.pin frame)) (·.reply .done)
  | .unpin frame => k.lockedOrHalt thread (Paging.changeFrames (·.unpin frame)) (·.reply .done)
  | .inspect frame => some do
      let bytes ← k.paging.processor.frame frame
      k.reply (.contents bytes)
  | .poke slot page frame flags => some do
      let entry ← Mapping.ofParts page frame flags
      let processor ← k.paging.processor.setCacheEntry slot entry
      (k.withProcessor processor).reply .done
  | .look => some (k.reply (.seen k))
  | .exit => k.endProcess thread place process call none
  | .leave => some (k.proceed call .parting)

/-- The next step of a thread inside a request. -/
def callStep (k : Kernel σ) (thread : ThreadId) (place : Nat) (process : UserProcess)
    (call : Call) : Option (Except Halt (After σ)) :=
  match call.stage with
  | .begun => k.beginCall thread place process call
  | .accessing => some (k.access call)
  | .faulting phase => (k.faultStep thread process phase).map fun result => do
      match ← result with
      | (.ok (some phase), k) => k.proceed call (.faulting phase)
      | (.ok none, k) => k.afterMiss call
      | (.error cause, k) => k.fail call cause
  | .pinning => k.pinNext thread process call
  | .moving frame => some (k.moveBytes call frame)
  | .unpinning frame =>
      k.lockedOrHalt thread (Paging.changeFrames (·.unpin frame)) (·.proceed call .pinning)
  -- another thread may have ended the process already; then there is nothing to take
  | .killing cause => k.endProcess thread place process call (some cause)
  | .mourning cause phase => (k.notifyStep thread true phase).map fun result => do
      match ← result with
      | (some phase, k) => k.proceed call (.mourning cause phase)
      | (none, k) => k.afterEnd call cause
  | .yielding => some do (← k.leaveCpu thread).proceed call (.returning .asking)
  | .returning phase => (k.takeCpu thread phase Stage.returning .flushing).map fun result => do
      let (stage, k) ← result
      k.proceed call stage
  | .flushing => some (k.flush.reply .done)
  | .parting =>
      if process.exited then some (k.proceed call (.leaving none))
      else (k.locked thread (Paging.saveCache process.pid)).map fun result => do
        match ← result with
        | (.ok (), k) => k.proceed call (.leaving none)
        | (.error cause, k) => k.proceed call (.leaving (some cause))
  | .leaving failure => some do
      -- the processor is free for the others even if the machine halts now
      let k ← k.leaveCpu thread
      match failure with
      | none => .ok (.ended (lastAnswer call), k)
      | some cause => .error (.fatal cause)

/-- The next step of a session, with the answer if it ended a request. A session that is blocked,
that has ended, or that has nothing to do has no step. -/
def step (k : Kernel σ) (number : Nat) : Option (Except Halt (Option (Response σ) × Kernel σ)) := do
  let session ← k.session number
  let process ← k.process session.process
  let thread := threadOf number
  match session.phase with
  | .starting phase =>
      (k.takeCpu thread phase Phase.starting .entering).map fun result =>
        result.map fun (phase, k) => (none, k.setPhase number phase)
  | .entering => some (.ok (none, k.flush.setPhase number .ready))
  | .busy call =>
      (k.callStep thread session.process process call).map fun result =>
        result.map fun
          | (.continues call, k) => (none, k.setPhase number (.busy call))
          | (.answered response, k) => (some response, k.setPhase number .ready)
          | (.ended response, k) => (response, k.setPhase number .ended)
  | .ready | .ended => none

/-- Gives a request to a session that has nothing to do. -/
def accept (k : Kernel σ) (number : Nat) (request : Request) : Kernel σ :=
  k.setPhase number (.busy { request })

end Kernel

end DemandPaging
