import DemandPaging.Proofs.Kernel.Ledger
import DemandPaging.Proofs.Kernel.Sound
import DemandPaging.Proofs.TicketQueue
import Mathlib.Algebra.GroupWithZero.Nat
import Mathlib.Data.Multiset.Range

/-!
# What holds of those who wait for a swap slot

`Kernel.SlotWaits` is the invariant of the wait: the swap lock and the queue of the sleepers serve
all threads, as many are counted as there are, and the page in the frame of a victim is dirty, so it
cannot leave without a slot. `Kernel.ledger` is what the kernel amounts to for those who wait.

Only a few phases of a thread have to do with the wait (`SlotPart`), and what is said of a thread
here depends on nothing else.
-/

namespace DemandPaging

/-! ## Phases of the wait -/

/-- What a phase has to do with the wait for swap slots. -/
inductive SlotPart where
  /-- nothing -/
  | apart
  /-- the thread waits with a victim -/
  | waiting (victim : Nat) (phase : Waiting)
  /-- it is about to go on with its victim -/
  | resuming (victim : Nat)
  /-- it wakes one thread now and `left` more afterwards, or else everyone -/
  | waking (left : Option Nat) (phase : Notifying)

def Stage.slotPart : Stage → SlotPart
  | faulting (.waiting _ victim phase) => .waiting victim phase
  | faulting (.resuming _ victim) => .resuming victim
  | faulting (.notifying left phase) => .waking (some left) phase
  | mourning _ phase => .waking none phase
  | _ => .apart

def Phase.slotPart : Phase → SlotPart
  | busy call => call.stage.slotPart
  | _ => .apart

namespace Waiting

/-- What a thread that waits is doing with the swap lock. -/
def swapUse : Waiting → LockUse
  | locking phase | sleeping (.returning phase) => .of (some phase)
  | leaving | sleeping .entering | sleeping (.leaving _) | unlocking => .holding
  | counting | sleeping (.asleep _) | uncounting | returning _ | flushing => .away

/-- The ticket of a thread that sleeps. -/
def ticket? : Waiting → Option Ticket
  | sleeping (.leaving ticket) | sleeping (.asleep ticket) => some ticket
  | _ => none

/-- Whether a thread is counted among those who wait. -/
def isCounted : Waiting → Bool
  | counting | returning _ | flushing => false
  | _ => true

/-- Whether a thread that waits has been woken. -/
def isRoused (woken : Ticket → Bool) : Waiting → Bool
  | counting | locking _ | leaving | sleeping .entering => false
  | sleeping (.leaving ticket) | sleeping (.asleep ticket) => woken ticket
  | _ => true

end Waiting

/-- What a thread that wakes others is doing with the swap lock. -/
def Notifying.swapUse : Notifying → LockUse
  | checking => .away
  | locking phase => .of (some phase)
  | waking | unlocking => .holding

/-- Whether a thread has yet to wake those whom it is to wake now. -/
def Notifying.isAhead : Notifying → Bool
  | unlocking => false
  | _ => true

namespace SlotPart

def swapUse : SlotPart → LockUse
  | waiting _ phase => phase.swapUse
  | waking _ phase => phase.swapUse
  | apart | resuming _ => .away

def ticket? : SlotPart → Option Ticket
  | waiting _ phase => phase.ticket?
  | _ => none

def isCounted : SlotPart → Bool
  | waiting _ phase => phase.isCounted
  | _ => false

/-- The frame that a thread keeps while it waits, and until it goes on. -/
def victim? : SlotPart → Option Nat
  | waiting victim _ | resuming victim => some victim
  | _ => none

/-- How a thread stands to those who wait, given the tickets that are woken. -/
def standing (woken : Ticket → Bool) : SlotPart → Standing
  | apart => .owing 0
  | waiting victim phase => if phase.isRoused woken then .roused victim else .dormant victim
  | resuming victim => .roused victim
  | waking (some left) phase => .owing (left + phase.isAhead.toNat)
  | waking none phase => if phase.isAhead then .mourning else .owing 0

theorem victim?_standing (part : SlotPart) (woken : Ticket → Bool) :
    (part.standing woken).victim? = part.victim? := by
  cases part with
  | apart => rfl
  | resuming victim => rfl
  | waiting victim phase =>
      rw [standing]
      split <;> rfl
  | waking left phase =>
      cases left with
      | some left => rfl
      | none =>
          rw [standing]
          split <;> rfl

/-- A thread stands as its own ticket says. -/
theorem standing_congr {part : SlotPart} {woken woken' : Ticket → Bool}
    (h : ∀ ticket, part.ticket? = some ticket → woken' ticket = woken ticket) :
    part.standing woken' = part.standing woken := by
  cases part with
  | waiting victim phase =>
      have hroused : phase.isRoused woken' = phase.isRoused woken := by
        cases phase with
        | sleeping phase =>
            cases phase with
            | leaving ticket => exact h ticket rfl
            | asleep ticket => exact h ticket rfl
            | _ => rfl
        | _ => rfl
      rw [standing, standing, hroused]
  | waking left phase => cases left <;> rfl
  | _ => rfl

/-- A thread that nobody has woken waits. -/
theorem of_dormant {part : SlotPart} {woken : Ticket → Bool} {victim : Nat}
    (h : part.standing woken = .dormant victim) :
    ∃ phase, part = .waiting victim phase ∧ phase.isRoused woken = false := by
  cases part with
  | waiting victim' phase =>
      rw [standing] at h
      split at h
      · cases h
      · rename_i hroused
        obtain rfl := Standing.dormant.inj h
        exact ⟨phase, rfl, Bool.not_eq_true _ ▸ hroused⟩
  | waking left phase =>
      cases left with
      | some left => cases h
      | none =>
          rw [standing] at h
          split at h <;> cases h
  | apart => cases h
  | resuming _ => cases h

end SlotPart

namespace Phase

theorem victim?_slotPart (phase : Phase) : phase.slotPart.victim? = phase.victim? := by
  cases phase with
  | busy call =>
      obtain ⟨request, stage, moved⟩ := call
      cases stage with
      | faulting fault => cases fault <;> rfl
      | _ => rfl
  | _ => rfl

/-- A thread that waits does with the processor what its wait says. -/
theorem cpuUse_of_waiting {phase : Phase} {victim : Nat} {wait : Waiting}
    (h : phase.slotPart = .waiting victim wait) : phase.cpuUse = wait.cpuUse := by
  cases phase with
  | busy call =>
      obtain ⟨request, stage, moved⟩ := call
      cases stage with
      | faulting fault =>
          cases fault with
          | waiting page victim' wait' =>
              obtain ⟨rfl, rfl⟩ := SlotPart.waiting.inj h
              rfl
          | _ => cases h
      | _ => cases h
  | _ => cases h

/-- A thread that wakes others has the processor. -/
theorem cpuUse_of_waking {phase : Phase} {left : Option Nat} {notice : Notifying}
    (h : phase.slotPart = .waking left notice) : phase.cpuUse = .holding := by
  cases phase with
  | busy call =>
      obtain ⟨request, stage, moved⟩ := call
      cases stage with
      | faulting fault => cases fault <;> first | rfl | cases h
      | mourning => rfl
      | _ => cases h
  | _ => cases h

end Phase

/-! ## The ledger -/

/-- The ledger of threads that stand in some way, with the frames and slots that there are. -/
def Paging.ledger {σ : Type} (s : Paging σ) (standings : Multiset Standing) : Ledger where
  standings
  slots := s.swap.free.length
  frames := s.frameTable.free.length
  owned f := (s.frameTable.owner f).isSome

theorem Paging.Still.ledger_eq {σ : Type} {s s' : Paging σ} (h : Still s s')
    (standings : Multiset Standing) : s'.ledger standings = s.ledger standings := by
  simp only [ledger, h.slots_eq, h.frames_eq, h.owner_eq]

namespace Kernel

variable {σ : Type}

/-- The tickets of the sleepers that have been woken. -/
def woken (k : Kernel σ) : Ticket → Bool := k.slotFreed.queue.isWoken

/-- How a thread stands, given the tickets that are woken. -/
def standing (k : Kernel σ) (woken : Ticket → Bool) (n : Nat) : Standing :=
  k.byThread (fun phase => phase.slotPart.standing woken) (.owing 0) (threadOf n)

/-- How the threads stand other than `n`. -/
def others (k : Kernel σ) (woken : Ticket → Bool) (n : Nat) : Multiset Standing :=
  ((Multiset.range k.sessions.length).erase n).map (k.standing woken)

/-- What the kernel amounts to for those who wait for a swap slot. -/
def ledger (k : Kernel σ) : Ledger :=
  k.paging.ledger ((Multiset.range k.sessions.length).map (k.standing k.woken))

/-- What every thread is doing with the swap lock. -/
def swapUse (k : Kernel σ) : ThreadId → LockUse :=
  k.byThread (fun phase => phase.slotPart.swapUse) .away

/-- The tickets of the threads that sleep. -/
def tickets (k : Kernel σ) : ThreadId → Option Ticket :=
  k.byThread (fun phase => phase.slotPart.ticket?) none

/-- The wait for swap slots is in order. -/
structure SlotWaits (k : Kernel σ) : Prop where
  swap : k.swapLock.Serves k.swapUse
  queue : k.slotFreed.queue.Serves k.tickets
  waiting_eq : k.waiting = (k.sessions.map fun s => s.phase.slotPart.isCounted.toNat).sum
  laden : ∀ n f, k.WaitsWith n f → k.paging.Laden f

variable {k k' : Kernel σ} {n i : Nat} {s : Session} {woken woken' : Ticket → Bool}

theorem standing_eq (woken : Ticket → Bool) (hs : k.sessions[n]? = some s) :
    k.standing woken n = s.phase.slotPart.standing woken := byThread_eq _ _ hs

theorem standing_setPhase_of_ne (hs : k.sessions[n]? = some s) (phase : Phase) (hi : i ≠ n) :
    (k.setPhase n phase).standing woken i = k.standing woken i := by
  rw [standing, byThread_setPhase _ _ hs, Function.update_of_ne (by simpa [threadOf] using hi)]
  rfl

theorem range_eq (hs : k.sessions[n]? = some s) : Multiset.range k.sessions.length =
    n ::ₘ (Multiset.range k.sessions.length).erase n :=
  (Multiset.cons_erase (Multiset.mem_range.2 (List.getElem?_eq_some_iff.1 hs).1)).symm

theorem mem_erase_range_iff :
    i ∈ (Multiset.range k.sessions.length).erase n ↔ i ≠ n ∧ ∃ t, k.sessions[i]? = some t := by
  rw [(Multiset.nodup_range _).mem_erase_iff, Multiset.mem_range]
  refine and_congr_right fun _ => ⟨fun hlt => ⟨_, List.getElem?_eq_getElem hlt⟩, ?_⟩
  rintro ⟨t, ht⟩
  exact (List.getElem?_eq_some_iff.1 ht).1

theorem mem_others_iff {x : Standing} :
    x ∈ k.others woken n ↔
      ∃ i t, i ≠ n ∧ k.sessions[i]? = some t ∧ t.phase.slotPart.standing woken = x := by
  rw [others, Multiset.mem_map]
  constructor
  · rintro ⟨i, hi, rfl⟩
    obtain ⟨hne, t, ht⟩ := mem_erase_range_iff.1 hi
    exact ⟨i, t, hne, ht, (standing_eq woken ht).symm⟩
  · rintro ⟨i, t, hne, ht, rfl⟩
    exact ⟨i, mem_erase_range_iff.2 ⟨hne, t, ht⟩, standing_eq woken ht⟩

/-- One thread and the others. -/
theorem ledger_eq (hs : k.sessions[n]? = some s) :
    k.ledger = k.paging.ledger (s.phase.slotPart.standing k.woken ::ₘ k.others k.woken n) := by
  rw [ledger, range_eq hs, Multiset.map_cons, standing_eq _ hs, others]

theorem others_congr (hsessions : k'.sessions = k.sessions)
    (h : ∀ i t, i ≠ n → k.sessions[i]? = some t →
      t.phase.slotPart.standing woken' = t.phase.slotPart.standing woken) :
    k'.others woken' n = k.others woken n := by
  rw [others, others, hsessions]
  refine Multiset.map_congr rfl fun i hi => ?_
  obtain ⟨hne, t, ht⟩ := mem_erase_range_iff.1 hi
  rw [standing_eq _ ht, standing_eq _ (hsessions ▸ ht), h i t hne ht]

theorem others_setPhase (hs : k.sessions[n]? = some s) (phase : Phase) :
    (k.setPhase n phase).others woken n = k.others woken n := by
  have hlength : (k.setPhase n phase).sessions.length = k.sessions.length :=
    List.length_modify ..
  rw [others, others, hlength]
  refine Multiset.map_congr rfl fun i hi => ?_
  obtain ⟨hne, -⟩ := mem_erase_range_iff.1 hi
  exact standing_setPhase_of_ne hs phase hne

/-- The ledger after a thread has come into another phase. -/
theorem ledger_setPhase (hs : k.sessions[n]? = some s) (phase : Phase) :
    (k.setPhase n phase).ledger =
      k.paging.ledger (phase.slotPart.standing k.woken ::ₘ k.others k.woken n) := by
  rw [ledger_eq (getElem?_setPhase_self hs phase)]
  exact congrArg (fun others => k.paging.ledger (_ ::ₘ others)) (others_setPhase hs phase)

end Kernel

end DemandPaging
