import DemandPaging.FrameTable
import Mathlib.Data.List.Nodup

/-!
# Frames in three states

Each frame is free, reserved or owned (`FrameState`), and the free ones wait in a queue: that is the
machine that a frame table is meant to be. Every allowed call keeps it proper
(`FrameMachine.Proper.call`): a reserved frame is pinned, and the queue has the free frames, each
once. A call that halts changes nothing (`FrameMachine.call_eq_error`), and after any sequence of
calls the owner of a frame is the page that last occupied it (`FrameMachine.of_calls`).
-/

namespace DemandPaging

/-! ## The machine -/

/-- The state of a frame. -/
inductive FrameState where
  | free
  /-- allocated and pinned, but without an owner -/
  | reserved (pins : Nat)
  | owned (id : PageId) (pins : Nat)
deriving DecidableEq

/-- A call of a frame table. -/
inductive FrameCall where
  | reserve
  | occupy (frame : Nat) (id : PageId)
  | vacate (frame : Nat)
  | giveBack (frame : Nat)
  | pin (frame : Nat)
  | unpin (frame : Nat)
deriving DecidableEq

/-- The halts of the checks that a table makes of itself, and not of its callers. -/
def Halt.blamesTable : Halt → Bool
  | freeFrameAllocated _ => true
  | alreadyListed => true
  | _ => false

/-- What a call gives: the frame that was reserved, if it reserved one, unless it halts. -/
abbrev FrameAnswer := Except Halt (Option Nat)

namespace FrameState

def pins : FrameState → Nat
  | free => 0
  | reserved pins => pins
  | owned _ pins => pins

def owner : FrameState → Option PageId
  | owned id _ => some id
  | _ => none

def withPins : FrameState → Nat → FrameState
  | free, _ => free
  | reserved _, n => reserved n
  | owned id _, n => owned id n

/-- A reserved frame is pinned, and all numbers fit into the word. -/
def Proper : FrameState → Prop
  | free => True
  | reserved pins => 0 < pins ∧ pins ≤ FrameTable.maxPins
  | owned id pins => id.page ≤ Address.maxPageNumber ∧ pins ≤ FrameTable.maxPins

def occupy (frame : Nat) (id : PageId) (s : FrameState) : Except Halt FrameState :=
  if s = free then .error (.occupyFree frame) else .ok (owned id 0)

def vacate (frame : Nat) (s : FrameState) : Except Halt FrameState :=
  if s = free then .error (.vacateFree frame) else .ok (reserved s.pins)

def giveBack (frame : Nat) (s : FrameState) : Except Halt FrameState :=
  if s = free then .error (.giveBackFree frame)
  else if 0 < s.pins then .ok (reserved s.pins)
  else .ok free

def pin (frame : Nat) (s : FrameState) : Except Halt FrameState :=
  if s = free then .error (.pinFree frame)
  else if s.pins < FrameTable.maxPins then .ok (s.withPins (s.pins + 1))
  else .error (.tooManyPins frame)

def unpin (frame : Nat) (s : FrameState) : Except Halt FrameState :=
  if s.pins = 0 then .error (.notPinned frame)
  else if s = reserved 1 then .ok free
  else .ok (s.withPins (s.pins - 1))

end FrameState

/-- The states of all frames, and the free ones, next to be used first. -/
structure FrameMachine where
  states : Array FrameState
  queue : List Nat

namespace FrameMachine

/-- Every frame is free. -/
def create (frames : Nat) : FrameMachine :=
  ⟨Array.replicate frames .free, List.range frames⟩

/-- A frame is in another state, and waits at the end of the queue if that is the free one. -/
def put (m : FrameMachine) (frame : Nat) (s : FrameState) : FrameMachine :=
  ⟨m.states.setIfInBounds frame s, if s = .free then m.queue ++ [frame] else m.queue⟩

/-- What becomes of a frame in a call that is about that frame. -/
def move (m : FrameMachine) (frame : Nat) (step : FrameState → Except Halt FrameState) :
    FrameAnswer × FrameMachine :=
  match m.states[frame]? with
  | none => (.error .indexOutOfBounds, m)
  | some s =>
      match step s with
      | .error halt => (.error halt, m)
      | .ok s' => (.ok none, m.put frame s')

/-- A call changes the state of one frame, or halts and changes nothing. -/
def call (m : FrameMachine) : FrameCall → FrameAnswer × FrameMachine
  | .reserve =>
      match m.queue with
      | [] => (.ok none, m)
      | frame :: queue => (.ok (some frame), { m.put frame (.reserved 1) with queue })
  | .occupy frame id =>
      if Address.maxPageNumber < id.page then (.error (.ownerTooWide id.page), m)
      else m.move frame (FrameState.occupy frame id)
  | .vacate frame => m.move frame (FrameState.vacate frame)
  | .giveBack frame => m.move frame (FrameState.giveBack frame)
  | .pin frame => m.move frame (FrameState.pin frame)
  | .unpin frame => m.move frame (FrameState.unpin frame)

/-- Only pinned frames are parted from their owners. -/
def Allows (m : FrameMachine) (c : FrameCall) : Prop :=
  ∀ f, c = .vacate f → ∃ s, m.states[f]? = some s ∧ 0 < s.pins

/-- The states are proper, and the queue has the free frames, each once. -/
structure Proper (m : FrameMachine) : Prop where
  state : ∀ (f : Nat) (s : FrameState), m.states[f]? = some s → s.Proper
  queue_nodup : m.queue.Nodup
  mem_queue : ∀ f, f ∈ m.queue ↔ m.states[f]? = some .free

end FrameMachine

/-- A sequence of allowed calls, the newest first, with their answers, and the state after it. -/
inductive FrameCalls {σ : Type} (call : σ → FrameCall → FrameAnswer × σ)
    (allows : σ → FrameCall → Prop) (s₀ : σ) : List (FrameCall × FrameAnswer) → σ → Prop where
  | nil : FrameCalls call allows s₀ [] s₀
  | call {trace : List (FrameCall × FrameAnswer)} {s : σ} (h : FrameCalls call allows s₀ trace s)
      (c : FrameCall) (hc : allows s c) :
      FrameCalls call allows s₀ ((c, (call s c).1) :: trace) (call s c).2

/-- The owner of a frame after a call that did not halt. -/
def FrameCall.ownerAfter (c : FrameCall) (f : Nat) (before : Option PageId) : Option PageId :=
  match c with
  | occupy g id => if g = f then some id else before
  | vacate g => if g = f then none else before
  | giveBack g => if g = f then none else before
  | _ => before

/-- The page that a frame was last occupied by, unless it was vacated or given back since. Calls
that halted do not count. -/
def lastOwner : List (FrameCall × FrameAnswer) → Nat → Option PageId
  | [], _ => none
  | (c, .ok _) :: trace, f => c.ownerAfter f (lastOwner trace f)
  | (_, .error _) :: trace, f => lastOwner trace f

/-! ## The states that exist -/

namespace FrameState

variable {s s' : FrameState}

theorem Proper.pins_le (h : s.Proper) : s.pins ≤ FrameTable.maxPins := by
  cases s with
  | free => exact Nat.zero_le _
  | reserved pins => exact h.2
  | owned id pins => exact h.2

theorem Proper.withPins (h : s.Proper) {n : Nat} (hmax : n ≤ FrameTable.maxPins)
    (hpos : s.owner = none → 0 < n) : (s.withPins n).Proper := by
  cases s with
  | free => trivial
  | reserved pins => exact ⟨hpos rfl, hmax⟩
  | owned id pins => exact ⟨h.1, hmax⟩

theorem withPins_ne_free (hs : s ≠ free) (n : Nat) : s.withPins n ≠ free := by
  cases s with
  | free => exact absurd rfl hs
  | reserved pins => exact nofun
  | owned id pins => exact nofun

/-- Without an owner, one pin keeps a frame from being free. -/
theorem eq_reserved_one_iff : s = reserved 1 ↔ s.pins = 1 ∧ s.owner = none := by
  cases s with
  | free => simp [pins]
  | reserved pins => simp [FrameState.pins, owner]
  | owned id pins => simp [owner]

@[simp] theorem owner_withPins (s : FrameState) (n : Nat) : (s.withPins n).owner = s.owner := by
  cases s <;> rfl

/-- What a call makes of the state of the frame it is about. -/
structure Change (c : FrameCall) (frame : Nat) (s s' : FrameState) : Prop where
  ne_free : s ≠ free
  owner : s'.owner = c.ownerAfter frame s.owner
  ownerAfter_ne : ∀ g o, g ≠ frame → c.ownerAfter g o = o
  proper : s.Proper → (c = .vacate frame → 0 < s.pins) → s'.Proper

/-- A call about one frame changes the frame's state, or else it is the caller that is to blame. -/
def Answers (c : FrameCall) (frame : Nat) (s : FrameState) : Except Halt FrameState → Prop
  | .error halt => halt.blamesTable = false
  | .ok s' => Change c frame s s'

variable (frame : Nat)

theorem occupy_answers {id : PageId} (h : id.page ≤ Address.maxPageNumber) :
    Answers (.occupy frame id) frame s (occupy frame id s) := by
  rw [occupy]
  split
  · rfl
  · rename_i hfree
    exact ⟨hfree, (if_pos rfl).symm, fun g o hg => if_neg (Ne.symm hg),
      fun _ _ => ⟨h, Nat.zero_le _⟩⟩

theorem vacate_answers : Answers (.vacate frame) frame s (vacate frame s) := by
  rw [vacate]
  split
  · rfl
  · rename_i hfree
    exact ⟨hfree, (if_pos rfl).symm, fun g o hg => if_neg (Ne.symm hg),
      fun hproper hpinned => ⟨hpinned rfl, hproper.pins_le⟩⟩

theorem giveBack_answers : Answers (.giveBack frame) frame s (giveBack frame s) := by
  rw [giveBack]
  split
  · rfl
  · rename_i hfree
    split
    · rename_i hpos
      exact ⟨hfree, (if_pos rfl).symm, fun g o hg => if_neg (Ne.symm hg),
        fun hproper _ => ⟨hpos, hproper.pins_le⟩⟩
    · exact ⟨hfree, (if_pos rfl).symm, fun g o hg => if_neg (Ne.symm hg), fun _ _ => trivial⟩

theorem pin_answers : Answers (.pin frame) frame s (pin frame s) := by
  rw [pin]
  split
  · rfl
  · rename_i hfree
    split
    · rename_i hmax
      exact ⟨hfree, owner_withPins s _, fun _ _ _ => rfl,
        fun hproper _ => hproper.withPins hmax fun _ => Nat.succ_pos _⟩
    · rfl

theorem unpin_answers : Answers (.unpin frame) frame s (unpin frame s) := by
  rw [unpin]
  split
  · rfl
  · rename_i hpins
    have hfree : s ≠ free := fun hfree => hpins (by rw [hfree]; rfl)
    split
    · rename_i hlast
      exact ⟨hfree, by rw [hlast]; rfl, fun _ _ _ => rfl, fun _ _ => trivial⟩
    · rename_i hlast
      refine ⟨hfree, owner_withPins s _, fun _ _ _ => rfl, fun hproper _ => ?_⟩
      refine hproper.withPins (Nat.le_trans (Nat.sub_le _ _) hproper.pins_le) fun howner => ?_
      -- without an owner it would have been free with the last pin off
      have hone : s.pins ≠ 1 := fun hone => hlast (eq_reserved_one_iff.2 ⟨hone, howner⟩)
      omega

end FrameState

namespace FrameMachine

variable {m : FrameMachine} {c : FrameCall} {f : Nat} {s : FrameState}

/-! ## One call -/

/-- What a call that does not reserve a frame can do: halt and change nothing, or change the state
of one frame. -/
def Changes (m : FrameMachine) (c : FrameCall) (r : FrameAnswer × FrameMachine) : Prop :=
  (∃ halt, r = (.error halt, m) ∧ halt.blamesTable = false) ∨
    ∃ f s s', m.states[f]? = some s ∧ r = (.ok none, m.put f s') ∧ FrameState.Change c f s s'

theorem move_changes {step : FrameState → Except Halt FrameState}
    (hstep : ∀ s, FrameState.Answers c f s (step s)) : m.Changes c (m.move f step) := by
  rw [move]
  cases hs : m.states[f]? with
  | none => exact .inl ⟨_, rfl, rfl⟩
  | some s =>
      have hanswers := hstep s
      cases hresult : step s with
      | error halt =>
          rw [hresult] at hanswers
          exact .inl ⟨halt, by simp only [hresult], hanswers⟩
      | ok s' =>
          rw [hresult] at hanswers
          exact .inr ⟨f, s, s', hs, by simp only [hresult], hanswers⟩

/-- What any call can do. -/
theorem call_cases (m : FrameMachine) (c : FrameCall) :
    (c = .reserve ∧ m.queue = [] ∧ m.call c = (.ok none, m)) ∨
    (∃ f queue, c = .reserve ∧ m.queue = f :: queue ∧
      m.call c = (.ok (some f), { m.put f (.reserved 1) with queue })) ∨
    m.Changes c (m.call c) := by
  cases c with
  | reserve =>
      rw [call]
      cases hqueue : m.queue with
      | nil => exact .inl ⟨rfl, rfl, rfl⟩
      | cons f queue => exact .inr (.inl ⟨f, queue, rfl, rfl, rfl⟩)
  | occupy f id =>
      refine .inr (.inr ?_)
      rw [call]
      split
      · exact .inl ⟨_, rfl, rfl⟩
      · rename_i hpage
        exact move_changes fun _ => FrameState.occupy_answers f (Nat.le_of_not_lt hpage)
  | vacate f => exact .inr (.inr (move_changes fun _ => FrameState.vacate_answers f))
  | giveBack f => exact .inr (.inr (move_changes fun _ => FrameState.giveBack_answers f))
  | pin f => exact .inr (.inr (move_changes fun _ => FrameState.pin_answers f))
  | unpin f => exact .inr (.inr (move_changes fun _ => FrameState.unpin_answers f))

/-- A call that halts changes nothing, and it is the caller that is to blame. -/
theorem call_eq_error (m : FrameMachine) (c : FrameCall) {halt : Halt}
    (h : (m.call c).1 = .error halt) : (m.call c).2 = m ∧ halt.blamesTable = false := by
  rcases call_cases m c with ⟨-, -, hcall⟩ | ⟨f, queue, -, -, hcall⟩ |
    ⟨halt', hcall, hblames⟩ | ⟨f, s, s', -, hcall, -⟩
  · rw [hcall] at h
    cases h
  · rw [hcall] at h
    cases h
  · rw [hcall] at h ⊢
    cases h
    exact ⟨rfl, hblames⟩
  · rw [hcall] at h
    cases h

theorem getElem?_put {s' : FrameState} (hs : m.states[f]? = some s) (g : Nat) :
    (m.put f s').states[g]? = if g = f then some s' else m.states[g]? := by
  obtain ⟨hlt, -⟩ := Array.getElem?_eq_some_iff.1 hs
  rw [put, Array.getElem?_setIfInBounds]
  by_cases hg : f = g
  · rw [if_pos hg, if_pos (hg ▸ hlt), if_pos hg.symm]
  · rw [if_neg hg, if_neg (Ne.symm hg)]

namespace Proper

theorem put (h : m.Proper) (hs : m.states[f]? = some s) (hfree : s ≠ .free) {s' : FrameState}
    (hs' : s'.Proper) : (m.put f s').Proper := by
  -- the frame is not free, so it does not come into the queue a second time
  have hnot : f ∉ m.queue := by
    intro hmem
    rw [(h.mem_queue f).1 hmem] at hs
    exact hfree (Option.some.inj hs).symm
  refine ⟨fun g s₁ hs₁ => ?_, ?_, fun g => ?_⟩
  · rw [getElem?_put hs] at hs₁
    split at hs₁
    · cases hs₁
      exact hs'
    · exact h.state g s₁ hs₁
  · rw [FrameMachine.put]
    split
    · refine List.nodup_append.2 ⟨h.queue_nodup, List.nodup_singleton f, ?_⟩
      intro a ha b hb hab
      exact hnot (List.mem_singleton.1 hb ▸ hab ▸ ha)
    · exact h.queue_nodup
  · rw [getElem?_put hs, FrameMachine.put]
    by_cases hg : g = f
    · subst hg
      rw [if_pos rfl, Option.some.injEq]
      split
      · rename_i hfree'
        simp [hfree']
      · rename_i hfree'
        exact ⟨fun hmem => absurd hmem hnot, fun heq => absurd heq hfree'⟩
    · rw [if_neg hg, ← h.mem_queue]
      split
      · rw [List.mem_append, List.mem_singleton, or_iff_left hg]
      · rfl

theorem reserve (h : m.Proper) {queue : List Nat} (hqueue : m.queue = f :: queue) :
    FrameMachine.Proper { m.put f (.reserved 1) with queue } := by
  have hs : m.states[f]? = some .free := (h.mem_queue f).1 (hqueue ▸ List.mem_cons_self)
  have hnodup := h.queue_nodup
  rw [hqueue, List.nodup_cons] at hnodup
  refine ⟨fun g s₁ hs₁ => ?_, hnodup.2, fun g => ?_⟩
  · replace hs₁ : (m.put f (.reserved 1)).states[g]? = some s₁ := hs₁
    rw [getElem?_put hs] at hs₁
    split at hs₁
    · cases hs₁
      exact ⟨Nat.one_pos, by decide⟩
    · exact h.state g s₁ hs₁
  · show g ∈ queue ↔ (m.put f (.reserved 1)).states[g]? = some .free
    rw [getElem?_put hs]
    by_cases hg : g = f
    · subst hg
      rw [if_pos rfl]
      exact ⟨fun hmem => absurd hmem hnodup.1, nofun⟩
    · rw [if_neg hg, ← h.mem_queue, hqueue, List.mem_cons, or_iff_right hg]

/-- Every allowed call keeps the machine proper. -/
theorem call (h : m.Proper) (c : FrameCall) (hc : m.Allows c) : (m.call c).2.Proper := by
  rcases call_cases m c with ⟨-, -, hcall⟩ | ⟨f, queue, -, hqueue, hcall⟩ |
    ⟨halt, hcall, -⟩ | ⟨f, s, s', hs, hcall, hchange⟩
  · rw [hcall]
    exact h
  · rw [hcall]
    exact h.reserve hqueue
  · rw [hcall]
    exact h
  · rw [hcall]
    refine h.put hs hchange.ne_free (hchange.proper (h.state f s hs) fun hvacate => ?_)
    obtain ⟨s₁, hs₁, hpos⟩ := hc f hvacate
    obtain rfl := Option.some.inj (hs.symm.trans hs₁)
    exact hpos

end Proper

/-! ## Owners -/

/-- The page that lives in a frame. -/
def owner (m : FrameMachine) (frame : Nat) : Option PageId :=
  m.states[frame]?.bind FrameState.owner

theorem owner_put (hs : m.states[f]? = some s) (s' : FrameState) (g : Nat) :
    (m.put f s').owner g = if f = g then s'.owner else m.owner g := by
  rw [owner, getElem?_put hs]
  by_cases hg : g = f
  · rw [if_pos hg, if_pos hg.symm, Option.bind_some]
  · rw [if_neg hg, if_neg (Ne.symm hg), owner]

theorem owner_eq (hs : m.states[f]? = some s) : m.owner f = s.owner := by
  rw [owner, hs, Option.bind_some]

/-- A reserved frame has had no owner since it was free. -/
theorem owner_reserve (h : m.Proper) {queue : List Nat} (hqueue : m.queue = f :: queue) (g : Nat) :
    (m.put f (.reserved 1)).owner g = m.owner g := by
  have hs : m.states[f]? = some .free := (h.mem_queue f).1 (hqueue ▸ List.mem_cons_self)
  rw [owner_put hs]
  split
  · rename_i hg
    rw [← hg, owner_eq hs]
    rfl
  · rfl

theorem owner_call (h : m.Proper) (c : FrameCall) {answer : Option Nat}
    (hok : (m.call c).1 = .ok answer) (g : Nat) :
    (m.call c).2.owner g = c.ownerAfter g (m.owner g) := by
  rcases call_cases m c with ⟨rfl, -, hcall⟩ | ⟨f, queue, rfl, hqueue, hcall⟩ |
    ⟨halt, hcall, -⟩ | ⟨f, s, s', hs, hcall, hchange⟩
  · rw [hcall]
    rfl
  · rw [hcall]
    exact owner_reserve h hqueue g
  · rw [hcall] at hok
    cases hok
  · rw [hcall]
    show (m.put f s').owner g = _
    rw [owner_put hs]
    split
    · rename_i hg
      rw [← hg, hchange.owner, owner_eq hs]
    · rename_i hg
      rw [hchange.ownerAfter_ne g _ (Ne.symm hg)]

/-! ## Sequences of calls -/

theorem create_proper (frames : Nat) : (create frames).Proper := by
  have hstate : ∀ f, (create frames).states[f]? = if f < frames then some .free else none :=
    fun _ => Array.getElem?_replicate
  refine ⟨fun f s hs => ?_, List.nodup_range, fun f => ?_⟩
  · rw [hstate] at hs
    split at hs <;> cases hs
    trivial
  · rw [hstate, create, List.mem_range]
    split
    · rename_i hlt
      exact iff_of_true hlt rfl
    · rename_i hlt
      exact iff_of_false hlt nofun

@[simp] theorem size_put (m : FrameMachine) (f : Nat) (s : FrameState) :
    (m.put f s).states.size = m.states.size :=
  Array.size_setIfInBounds

theorem size_call (m : FrameMachine) (c : FrameCall) :
    (m.call c).2.states.size = m.states.size := by
  rcases call_cases m c with ⟨-, -, hcall⟩ | ⟨f, queue, -, -, hcall⟩ |
    ⟨halt, hcall, -⟩ | ⟨f, s, s', -, hcall, -⟩
  · rw [hcall]
  · rw [hcall]
    exact size_put m f _
  · rw [hcall]
  · rw [hcall]
    exact size_put m f s'

/-- Whatever the machine went through, it is proper, and the owners are those of the last calls. -/
theorem of_calls {frames : Nat} {trace : List (FrameCall × FrameAnswer)}
    (h : FrameCalls call Allows (create frames) trace m) :
    m.Proper ∧ m.states.size = frames ∧ ∀ f, m.owner f = lastOwner trace f := by
  induction h with
  | nil =>
      refine ⟨create_proper frames, Array.size_replicate, fun f => ?_⟩
      rw [owner, create, Array.getElem?_replicate, lastOwner]
      split <;> rfl
  | @call trace m _ c hc ih =>
      obtain ⟨hproper, hsize, howner⟩ := ih
      refine ⟨hproper.call c hc, (size_call m c).trans hsize, fun f => ?_⟩
      -- a call that halts counts for nothing in the sequence, and changed no owner
      cases hanswer : (m.call c).1 with
      | ok answer => rw [owner_call hproper c hanswer, lastOwner, howner]
      | error halt => rw [(call_eq_error m c hanswer).1, lastOwner, howner]

end FrameMachine

end DemandPaging
