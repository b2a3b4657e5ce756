import DemandPaging.Config
import DemandPaging.Extent.Choice
import DemandPaging.Kernel.Phase
import DemandPaging.Paging.Reclaim
import DemandPaging.Pid
import DemandPaging.Sync.CriticalRegion

/-!
# The kernel

The processor and the tables, the locks that threads share them by, the processes, and the threads
that run them. `boot` builds the kernel for a configuration, `spawn` adds a process, `start` a
thread that runs one.
-/

namespace DemandPaging

/-- The kernel with its processes and threads. -/
structure Kernel (σ : Type) where
  config : Config
  paging : Paging σ
  /-- the tables are only used inside -/
  region : CriticalRegion := {}
  /-- held by the thread whose process runs -/
  cpu : SleepLock := {}
  /-- guards `slotFreed` -/
  swapLock : SleepLock := {}
  /-- where threads sleep until a swap slot is free -/
  slotFreed : Condition := {}
  /-- how many threads wait for a swap slot -/
  waiting : Nat := 0
  pids : PidCounter := .fresh
  processes : List UserProcess := []
  sessions : List Session := []

namespace Kernel

variable {σ : Type}

/-- The thread of whoever is not a session. -/
def console : ThreadId := 0

/-- The thread of a session. -/
def threadOf (session : Nat) : ThreadId := session + 1

/-- The process with this place among all processes. -/
def process (k : Kernel σ) (place : Nat) : Option UserProcess := k.processes[place]?

/-- The session with this number. -/
def session (k : Kernel σ) (number : Nat) : Option Session := k.sessions[number]?

/-- The kernel with a session in another phase. -/
def setPhase (k : Kernel σ) (number : Nat) (phase : Phase) : Kernel σ :=
  { k with sessions := k.sessions.modify number fun s => { s with phase } }

/-- The kernel with the processor changed. -/
def withProcessor (k : Kernel σ) (processor : Processor) : Kernel σ :=
  { k with paging := { k.paging with processor } }

/-- The kernel with the mapping cache empty. -/
def flush (k : Kernel σ) : Kernel σ := k.withProcessor (MappingCache.flush k.paging.processor)

/-- A thread locks the tables, acts, and unlocks them: one step, since nobody else can get at the
tables meanwhile. The thread has to wait while another one is inside. -/
def locked {α : Type} (k : Kernel σ) (thread : ThreadId) (act : PagingM σ α) :
    Option (Except Halt (Except PagingError α × Kernel σ)) :=
  (k.region.enter thread).map fun (entered, region) => do
    entered
    let (result, paging) ← act k.paging
    let (left, region) := region.leave thread
    left
    .ok (result, { k with paging, region })

/-! ## Building -/

variable [Extent σ]

/-- The policy of a configuration. -/
def policyOf (c : Config) : Policy :=
  match c.replacement with
  | .clock => .clock 0
  | .random => .random (Random.ofSeed c.seed)

/-- The processor and the tables of a configuration, with nothing in them. -/
def freshPaging (c : Config) (extent : σ) : Except Halt (Paging σ) := do
  let processor ← Processor.create c.frames c.pageSize c.cacheSize
  let frameTable ← FrameTable.create c.frames
  let swap ← SwapArea.create extent c.pageSize
  .ok { processor
        frameTable
        policy := policyOf c
        swap
        rng := Random.ofSeed (c.seed.rotateLeft 32) }

/-- The kernel of a configuration, with swap in an extent that has to be large enough. -/
def boot (c : Config) (extent : σ) : Except Halt (Except ConfigError (Kernel σ)) :=
  match c.validate with
  | .error e => .ok (.error e)
  | .ok () =>
      if Extent.length extent < c.swapLength then .ok (.error (.impossible .extentTooSmall))
      else (freshPaging c extent).map fun paging => .ok { config := c, paging }

/-- The extent that a configuration asks for. -/
def openExtent (c : Config) : Except Halt (Except ConfigError ExtentChoice) :=
  match c.swapPath with
  | none => (MemoryExtent.zeros c.swapLength).map fun e => .ok (.memory e)
  | some path =>
      match FileExtent.create path c.swapLength with
      | .ok e => .ok (.ok (.file e))
      | .error cause => .ok (.error (.io cause))

/-- The kernel of a configuration, with the extent it asks for. -/
def ofConfig (c : Config) : Except Halt (Except ConfigError (Kernel ExtentChoice)) :=
  match c.validate with
  | .error e => .ok (.error e)
  | .ok () => do
      match ← openExtent c with
      | .error e => .ok (.error e)
      | .ok extent => boot c extent

/-- Deletes the swap extent. -/
def shutDown (k : Kernel σ) : Except IoError Unit := k.paging.swap.remove.1

/-! ## Processes and threads -/

/-- Why an image cannot become a process. -/
def imageFault (c : Config) (image : Image) : Option PagingError :=
  if image.pageSize ≠ c.pageSize then some (.pageSizeMismatch image.pageSize c.pageSize)
  else
    let numPages := UserProcess.addressSpace image c.stackPages
    if Address.maxPageNumber + 1 < numPages then some (.addressSpaceTooLarge numPages) else none

/-- Adds a process with none of its pages in memory. Gives its place among all processes. A number
that was drawn is gone even when the machine stops. -/
def spawn (k : Kernel σ) (image : Image) :
    Except Halt (Except PagingError Nat) × Kernel σ :=
  match imageFault k.config image with
  | some cause => (.ok (.error cause), k)
  | none =>
      let (drawn, pids) := k.pids.allocate
      let k := { k with pids }
      let numPages := UserProcess.addressSpace image k.config.stackPages
      match drawn with
      | .error halt => (.error halt, k)
      | .ok pid =>
          match PageTables.add k.paging.tables pid numPages with
          | .error halt => (.error halt, k)
          | .ok tables =>
              (.ok (.ok k.processes.length), { k with
                paging := { k.paging with tables }
                processes := k.processes ++ [{ pid, image, numPages }] })

/-- Adds a thread that runs a process. -/
def start (k : Kernel σ) (process : Nat) : Kernel σ :=
  { k with sessions := k.sessions ++ [{ process }] }

/-- Marks a process as ended. -/
def markExited (k : Kernel σ) (process : Nat) : Kernel σ :=
  { k with processes := k.processes.modify process fun p => { p with exited := true } }

end Kernel

end DemandPaging
