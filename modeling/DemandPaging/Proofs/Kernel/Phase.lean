import DemandPaging.Proofs.FlatMachine
import DemandPaging.Proofs.Paging.Cache
import DemandPaging.Proofs.SleepLock
import Mathlib.Algebra.Order.Group.Multiset

/-!
# What a phase says of its thread

For every phase: what the thread is doing with the processor's lock, which frames it keeps pinned,
whether the mapping cache may hold entries of its process, and what a user knows it to be about. A
thread that uses the cache or pins a frame for a copy has the processor.

`Phase.Fits` says which stages belong to which requests, and `Phase.Holds` what a thread relies on
between two of its steps.
-/

namespace DemandPaging

namespace Request

/-- Whether a request loads or stores a single byte. -/
def isByte : Request → Bool
  | read _ | write .. => true
  | _ => false

/-- Whether a request moves many bytes. -/
def isCopy : Request → Bool
  | copyOut .. | copyIn .. => true
  | _ => false

theorem isAccess_of_isByte {request : Request} (h : request.isByte = true) :
    request.isAccess = true := by
  cases request <;> first | rfl | cases h

theorem isAccess_of_isCopy {request : Request} (h : request.isCopy = true) :
    request.isAccess = true := by
  cases request <;> first | rfl | cases h

/-- Whether a request is one of those that programs make. The others look behind the scenes. -/
def isOrdinary : Request → Bool
  | read _ | write .. | copyOut .. | copyIn .. | yield | exit | leave => true
  | _ => false

end Request

/-! ## The processor -/

/-- What a thread that waits for a slot is doing with the processor. -/
def Waiting.cpuUse : Waiting → LockUse
  | counting | locking _ | leaving | flushing => .holding
  | sleeping _ | unlocking | uncounting => .away
  | returning phase => .of (some phase)

def Faulting.cpuUse : Faulting → LockUse
  | waiting _ _ phase => phase.cpuUse
  | missing _ | resuming .. | notifying .. => .holding

def Stage.cpuUse : Stage → LockUse
  | faulting phase => phase.cpuUse
  | returning phase => .of (some phase)
  | _ => .holding

/-- What a thread is doing with the processor. -/
def Phase.cpuUse : Phase → LockUse
  | starting phase => .of (some phase)
  | entering | ready => .holding
  | busy call => call.stage.cpuUse
  | ended => .away

/-! ## Pins -/

def Faulting.victims : Faulting → Multiset Nat
  | waiting _ victim _ | resuming _ victim => {victim}
  | missing _ | notifying .. => 0

def Stage.victims : Stage → Multiset Nat
  | faulting phase => phase.victims
  | _ => 0

/-- The frame whose page a thread wants to push out. -/
def Phase.victims : Phase → Multiset Nat
  | busy call => call.stage.victims
  | _ => 0

/-- The frame whose page a thread wants to push out, while it waits for a slot or goes on after the
wait. -/
def Phase.victim? : Phase → Option Nat
  | busy ⟨_, .faulting (.waiting _ victim _), _⟩ => some victim
  | busy ⟨_, .faulting (.resuming _ victim), _⟩ => some victim
  | _ => none

theorem Phase.victims_eq (phase : Phase) : phase.victims = phase.victim?.elim 0 singleton := by
  cases phase with
  | busy call =>
      obtain ⟨request, stage, moved⟩ := call
      cases stage with
      | faulting fault => cases fault <;> rfl
      | _ => rfl
  | _ => rfl

theorem Phase.mem_victims_iff {phase : Phase} {f : Nat} :
    f ∈ phase.victims ↔ phase.victim? = some f := by
  rw [victims_eq]
  cases phase.victim? with
  | none => exact ⟨fun h => absurd h (Multiset.notMem_zero f), nofun⟩
  | some victim => simp [eq_comm]

def Stage.copied : Stage → Multiset Nat
  | moving frame | unpinning frame => {frame}
  | _ => 0

/-- The frame that a thread copies from or to. -/
def Phase.copied : Phase → Multiset Nat
  | busy call => call.stage.copied
  | _ => 0

/-- The frames that a thread keeps pinned. -/
def Phase.pins (phase : Phase) : Multiset Nat := phase.victims + phase.copied

/-- A thread keeps its victim pinned. -/
theorem Phase.mem_pins_of_victim {phase : Phase} {f : Nat} (h : phase.victim? = some f) :
    f ∈ phase.pins := Multiset.mem_add.2 (.inl (mem_victims_iff.2 h))

/-! ## The mapping cache -/

def Faulting.usesCache : Faulting → Bool
  | missing _ | notifying .. => true
  | waiting .. | resuming .. => false

def Stage.usesCache : Stage → Bool
  | faulting phase => phase.usesCache
  | yielding | returning _ | flushing | leaving _ => false
  | _ => true

/-- Whether the cache may hold entries of the thread's process. -/
def Phase.usesCache : Phase → Bool
  | ready => true
  | busy call => call.stage.usesCache
  | _ => false

theorem Phase.holding_of_usesCache {phase : Phase} (h : phase.usesCache = true) :
    phase.cpuUse = .holding := by
  cases phase with
  | busy call =>
      obtain ⟨request, stage, moved⟩ := call
      cases stage with
      | faulting phase => cases phase <;> first | rfl | exact Bool.noConfusion h
      | returning phase => exact Bool.noConfusion h
      | _ => rfl
  | ready => rfl
  | _ => exact Bool.noConfusion h

/-- A thread copies only while it has the processor. -/
theorem Phase.copied_eq_zero {phase : Phase} (h : phase.cpuUse ≠ .holding) : phase.copied = 0 := by
  cases phase with
  | busy call =>
      obtain ⟨request, stage, moved⟩ := call
      cases stage with
      | moving frame => exact absurd rfl h
      | unpinning frame => exact absurd rfl h
      | _ => rfl
  | _ => rfl

/-- A thread without the processor has no frame pinned but a victim. -/
theorem Phase.pins_eq_victims {phase : Phase} (h : phase.cpuUse ≠ .holding) :
    phase.pins = phase.victims := by
  rw [pins, copied_eq_zero h, add_zero]

/-! ## Requests and stages -/

/-- Which stages a call can be at, for a process and pages of a size. -/
def Stage.Fits (pageSize : Nat) (p : UserProcess) (call : Call) : Stage → Prop
  | begun => True
  -- only loads and stores of single bytes go through the mapping cache
  | accessing => call.request.isByte = true
  -- a fault is about the request's own address, or about a page inside the address space
  | faulting (.missing address) =>
      call.request.isByte = true ∧ address = call.request.address ∨
        call.request.isCopy = true ∧ Address.page pageSize address < p.numPages
  | faulting (.waiting page _ _) | faulting (.resuming page _) =>
      call.request.isAccess = true ∧ page < p.numPages
  | faulting (.notifying ..) => call.request.isAccess = true
  | pinning => call.request.isCopy = true
  | moving _ => call.request.isCopy = true ∧ call.moved.length < call.request.count
  | unpinning _ => call.request.isCopy = true
  | killing _ => True
  -- without a cause it was the process itself that wanted to end
  | mourning cause _ => p.exited = true ∧ (cause = none → call.request = .exit)
  | yielding | returning _ | flushing => call.request = .yield
  | parting => call.request = .exit ∧ p.exited = true ∨ call.request = .leave
  -- saving the cache never fails
  | leaving failure => failure = none ∧
      (call.request = .exit ∧ p.exited = true ∨ call.request = .leave)

/-- Which calls there can be. -/
structure Call.Fits (pageSize : Nat) (p : UserProcess) (call : Call) : Prop where
  ordinary : call.request.isOrdinary = true
  moved_le : call.moved.length ≤ call.request.count
  moved_nil : call.request.isCopy = false → call.moved = []
  stage : call.stage.Fits pageSize p call

/-- Which phases a thread of a process can be in. -/
def Phase.Fits (pageSize : Nat) (p : UserProcess) : Phase → Prop
  | busy call => call.Fits pageSize p
  | _ => True

/-- What fits a process fits it after its end. -/
theorem Phase.Fits.ended {pageSize : Nat} {p : UserProcess} {phase : Phase}
    (h : phase.Fits pageSize p) : phase.Fits pageSize { p with exited := true } := by
  cases phase with
  | busy call =>
      refine ⟨h.ordinary, h.moved_le, h.moved_nil, ?_⟩
      have hstage := h.stage
      cases hcall : call.stage with
      | faulting phase =>
          rw [hcall] at hstage
          cases phase <;> exact hstage
      | mourning cause phase =>
          rw [hcall] at hstage
          exact ⟨rfl, hstage.2⟩
      | parting =>
          rw [hcall] at hstage
          exact hstage.imp_left fun h => ⟨h.1, rfl⟩
      | leaving failure =>
          rw [hcall] at hstage
          exact ⟨hstage.1, hstage.2.imp_left fun h => ⟨h.1, rfl⟩⟩
      | _ =>
          rw [hcall] at hstage
          exact hstage
  | _ => trivial

/-- What a thread relies on between two of its steps: a page that it misses is not in the cache, and
a page that it copies is in its frame, and dirty if it is to be written. The frame is still that of
a page when the pin is taken off. -/
def Stage.Holds {σ : Type} (s : Paging σ) (p : UserProcess) (call : Call) : Stage → Prop
  | faulting (.missing address) => s.Uncached (Address.page s.processor.pageSize address)
  | moving frame => ∃ e,
      s.tables.find? ⟨p.pid, Address.page s.processor.pageSize (Kernel.copyAddress call)⟩ = some e ∧
        e.frame = some frame ∧ (call.request.isWriting = true → e.dirty = true ∧
          p.image.isReadOnly (Address.page s.processor.pageSize (Kernel.copyAddress call)) = false)
  | unpinning frame => (s.frameTable.owner frame).isSome = true
  | _ => True

def Phase.Holds {σ : Type} (s : Paging σ) (p : UserProcess) : Phase → Prop
  | busy call => call.stage.Holds s p call
  | _ => True

/-- What a thread relies on is about the processor, the owners of frames, and the pages of its
process. -/
theorem Phase.Holds.congr {σ : Type} {s s' : Paging σ} {p : UserProcess} {phase : Phase}
    (h : phase.Holds s p) (hprocessor : s'.processor = s.processor)
    (howner : ∀ f, s'.frameTable.owner f = s.frameTable.owner f)
    (hfind : ∀ page, s'.tables.find? ⟨p.pid, page⟩ = s.tables.find? ⟨p.pid, page⟩) :
    phase.Holds s' p := by
  cases phase with
  | busy call =>
      obtain ⟨request, stage, moved⟩ := call
      cases stage with
      | faulting fault =>
          cases fault with
          | missing address =>
              show s'.Uncached (Address.page s'.processor.pageSize address)
              rw [Paging.Uncached, hprocessor]
              exact h
          | _ => trivial
      | moving frame =>
          obtain ⟨e, he, hf, hw⟩ := h
          refine ⟨e, ?_, hf, ?_⟩
          · rw [hprocessor, hfind]
            exact he
          · rw [hprocessor]
            exact hw
      | unpinning frame =>
          show (s'.frameTable.owner frame).isSome = true
          rw [howner]
          exact h
      | _ => trivial
  | _ => trivial

/-! ## What a user sees -/

/-- What a thread is about in the flat machine. -/
def Phase.errand : Phase → Errand
  | starting _ | entering => .arriving
  | ready => .idle
  | busy call =>
      match call.stage with
      | .killing cause | .mourning (some cause) _ => .refused cause
      | _ => .asked call.request call.moved
  | ended => .over

/-- The thread of the flat machine that a session is. -/
def Session.flat (s : Session) : FlatThread := ⟨s.process, s.phase.errand⟩

end DemandPaging
