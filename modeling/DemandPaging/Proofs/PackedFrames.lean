import DemandPaging.Proofs.FrameMachine
import DemandPaging.Proofs.FrameTable
import Mathlib.Algebra.Group.Nat.Defs

/-!
# The frame table is a machine of three states

Packed into words, the machine of three states answers every call as the frame table does, and goes
on to the states whose words the table then has (`FrameMachine.call_table`). So whatever is called,
and whichever of the calls halt, the table shows of every frame its state, its checks of itself
never fail, and a call that halts leaves it as it was (`frameTable_refines_machine`).
-/

namespace DemandPaging

/-! ## States packed into words -/

namespace FrameState

/-- The word of a frame in this state. -/
def record : FrameState → FrameRecord
  | free => .empty
  | reserved pins => .reserved pins
  | owned id pins => (FrameRecord.ownedBy id).withPins pins

end FrameState

namespace FrameMachine

/-- The table with the words of these states. -/
def table (m : FrameMachine) : FrameTable := ⟨m.states.map FrameState.record, m.queue⟩

end FrameMachine

namespace FrameTable

/-- The answer of an operation that checks before it changes anything, with the table after it. -/
def settle (t : FrameTable) : Except Halt FrameTable → FrameAnswer × FrameTable
  | .ok t' => (.ok none, t')
  | .error halt => (.error halt, t)

/-- A call whose halt is caught, with the table that it leaves. Two operations check again when they
have already changed something: to reserve a frame takes it off the free list first, and to free a
frame clears its record before it looks for it on the list. -/
def call (t : FrameTable) : FrameCall → FrameAnswer × FrameTable
  | .reserve =>
      match t.reserve with
      | .ok (frame, t') => (.ok frame, t')
      | .error halt => (.error halt, { t with free := t.free.tail })
  | .occupy frame id => t.settle (t.occupy frame id)
  | .vacate frame => t.settle (t.vacate frame)
  | .giveBack frame =>
      match t.giveBack frame with
      | .error .alreadyListed => (.error .alreadyListed, t.put frame .empty)
      | result => t.settle result
  | .pin frame => t.settle (t.pin frame)
  | .unpin frame => t.settle (t.unpin frame)

/-- Only pinned frames are parted from their owners. -/
def Allows (t : FrameTable) (c : FrameCall) : Prop :=
  ∀ f, c = .vacate f → t.isPinned f = true

end FrameTable

/-- What a table says of a frame in some state. -/
structure FrameTable.Shows (t : FrameTable) (f : Nat) (s : FrameState) : Prop where
  isFree : t.isFree f = true ↔ s = .free
  isAllocated : t.isAllocated f = true ↔ s ≠ .free
  owner : t.owner f = s.owner
  pins : t.pins f = s.pins
  pinned : ∀ pins, s = .reserved pins → 0 < pins

namespace FrameState

variable {s : FrameState}

theorem allocated_record (s : FrameState) : s.record.allocated = decide (s ≠ free) := by
  cases s with
  | free => rfl
  | reserved pins => exact FrameRecord.allocated_reserved pins
  | owned id pins => simp [record]

theorem pins_record (h : s.Proper) : s.record.pins = s.pins := by
  cases s with
  | free => rfl
  | reserved pins => exact FrameRecord.pins_reserved h.2
  | owned id pins => exact FrameRecord.pins_withPins _ h.2

theorem owner_record (h : s.Proper) : s.record.owner = s.owner := by
  cases s with
  | free => rfl
  | reserved pins => exact FrameRecord.owner_reserved pins
  | owned id pins =>
      rw [record, FrameRecord.owner_withPins, FrameRecord.owner_ownedBy id h.1, owner]

theorem owned_record (h : s.Proper) : s.record.owned = s.owner.isSome := by
  rw [FrameRecord.owned_eq_isSome_owner, owner_record h]

theorem record_withPins (hs : s ≠ free) (n : Nat) :
    s.record.withPins n = (s.withPins n).record := by
  cases s with
  | free => exact absurd rfl hs
  | reserved pins => exact FrameRecord.withPins_withPins _ pins n
  | owned id pins => exact FrameRecord.withPins_withPins _ pins n

theorem record_owned_zero (id : PageId) : (owned id 0).record = FrameRecord.ownedBy id := by
  rw [record]
  conv => lhs; arg 2; rw [← FrameRecord.pins_ownedBy id]
  exact FrameRecord.withPins_pins _

end FrameState

namespace FrameMachine

variable {m : FrameMachine} {f : Nat} {s : FrameState}

/-! ## One call -/

theorem getElem?_table (m : FrameMachine) (f : Nat) :
    m.table.entries[f]? = m.states[f]?.map FrameState.record := by
  rw [table, Array.getElem?_map]

theorem put_table (m : FrameMachine) (f : Nat) (s : FrameState) :
    m.table.put f s.record = ⟨(m.states.setIfInBounds f s).map FrameState.record, m.queue⟩ := by
  rw [table, FrameTable.put, Array.map_setIfInBounds]

theorem table_put_of_ne (hs : s ≠ .free) : (m.put f s).table = m.table.put f s.record := by
  rw [put_table, table, put, if_neg hs]

theorem table_put_free (m : FrameMachine) (f : Nat) :
    (m.put f .free).table =
      { m.table.put f .empty with free := m.table.free ++ [f] } := by
  have hput := congrArg FrameTable.entries (put_table m f .free)
  rw [table, put, if_pos rfl]
  exact congrArg (FrameTable.mk · (m.queue ++ [f])) hput.symm

/-- An operation that does with the word of a frame what a step does with its state. -/
theorem settle_table {step : FrameState → Except Halt FrameState}
    {operation : FrameRecord → Except Halt FrameTable}
    (h : ∀ s, m.states[f]? = some s →
      operation s.record = (step s).map fun s' => (m.put f s').table) :
    m.table.settle ((m.table.entry f).bind operation) = Prod.map id table (m.move f step) := by
  rw [FrameTable.entry, getElem?_table, move]
  cases hs : m.states[f]? with
  | none => rfl
  | some s =>
      show m.table.settle (operation s.record) = _
      rw [h s hs]
      cases hstep : step s with
      | error halt => simp only [hstep]; rfl
      | ok s' => simp only [hstep]; rfl

theorem occupy_table (m : FrameMachine) (f : Nat) {id : PageId}
    (h : id.page ≤ Address.maxPageNumber) :
    m.table.settle (m.table.occupy f id) =
      Prod.map (·) table (m.move f (FrameState.occupy f id)) := by
  rw [FrameTable.occupy, if_neg (Nat.not_lt.2 h)]
  refine settle_table fun s _ => ?_
  rw [FrameState.occupy, FrameState.allocated_record]
  by_cases hs : s = .free
  · rw [if_pos hs, if_neg (by simpa using hs)]
    rfl
  · rw [if_neg hs, if_pos (by simpa using hs), ← FrameState.record_owned_zero, Except.map,
      table_put_of_ne (s := .owned id 0) (by simp)]

theorem vacate_eq_ok (h : m.Proper) (hs : m.states[f]? = some s) (hfree : s ≠ .free) :
    m.table.vacate f = .ok (m.put f (.reserved s.pins)).table := by
  have hallocated : s.record.allocated = true := by
    rw [FrameState.allocated_record, decide_eq_true hfree]
  rw [FrameTable.vacate, FrameTable.entry, getElem?_table, hs]
  show (if s.record.allocated = true then _ else _) = _
  rw [if_pos hallocated, FrameState.pins_record (h.state f s hs),
    table_put_of_ne (s := .reserved s.pins) (by simp)]
  rfl

theorem vacate_table (h : m.Proper) (f : Nat) :
    m.table.settle (m.table.vacate f) = Prod.map id table (m.move f (FrameState.vacate f)) := by
  rw [move]
  cases hs : m.states[f]? with
  | none => rw [FrameTable.vacate, FrameTable.entry, getElem?_table, hs]; rfl
  | some s =>
      by_cases hfree : s = .free
      · rw [FrameTable.vacate, FrameTable.entry, getElem?_table, hs, hfree]
        rfl
      · rw [vacate_eq_ok h hs hfree]
        simp only [FrameState.vacate, if_neg hfree]
        rfl

theorem pin_table (h : m.Proper) (f : Nat) :
    m.table.settle (m.table.pin f) = Prod.map id table (m.move f (FrameState.pin f)) := by
  refine settle_table fun s hs => ?_
  rw [FrameState.pin, FrameState.allocated_record, FrameState.pins_record (h.state f s hs)]
  by_cases hfree : s = .free
  · rw [if_pos hfree, if_pos (by simpa using hfree)]
    rfl
  · rw [if_neg hfree, if_neg (by simpa using hfree), FrameState.record_withPins hfree]
    split
    · rw [Except.map, table_put_of_ne (FrameState.withPins_ne_free hfree _)]
    · rfl

theorem unpin_table (h : m.Proper) (f : Nat) :
    m.table.settle (m.table.unpin f) = Prod.map id table (m.move f (FrameState.unpin f)) := by
  refine settle_table fun s hs => ?_
  have hproper := h.state f s hs
  rw [FrameState.unpin, FrameState.pins_record hproper, FrameState.owned_record hproper]
  split
  · rfl
  · rename_i hpins
    by_cases hlast : s = .reserved 1
    · rw [if_pos hlast, if_pos (by rw [hlast]; decide), Except.map, table_put_free]
    · have hfree : s ≠ .free := fun hfree => hpins (by rw [hfree]; rfl)
      have hkeeps : ¬ (s.pins = 1 ∧ ¬ s.owner.isSome = true) := by
        rw [Option.not_isSome_iff_eq_none, ← FrameState.eq_reserved_one_iff]
        exact hlast
      rw [if_neg hlast, if_neg hkeeps, FrameState.record_withPins hfree, Except.map,
        table_put_of_ne (FrameState.withPins_ne_free hfree _)]

theorem giveBack_table (h : m.Proper) (f : Nat) :
    m.table.settle (m.table.giveBack f) = Prod.map id table (m.move f (FrameState.giveBack f)) := by
  refine settle_table fun s hs => ?_
  have hproper := h.state f s hs
  rw [FrameState.giveBack, FrameState.allocated_record, FrameState.pins_record hproper]
  by_cases hfree : s = .free
  · rw [if_pos hfree, if_pos (by simpa using hfree)]
    rfl
  · rw [if_neg hfree, if_neg (by simpa using hfree)]
    split
    · exact vacate_eq_ok h hs hfree
    · -- a frame that is not free is not on the list, so the check after its word is cleared passes
      have hlisted : m.table.isFree f = false := by
        rw [FrameTable.isFree, List.contains_eq_mem, decide_eq_false]
        intro hmem
        rw [(h.mem_queue f).1 hmem] at hs
        exact hfree (Option.some.inj hs).symm
      rw [if_neg (by rw [hlisted]; decide), Except.map, table_put_free]

theorem reserve_table (h : m.Proper) {queue : List Nat} (hqueue : m.queue = f :: queue) :
    m.table.reserve = .ok (some f, table { m.put f (.reserved 1) with queue }) := by
  -- the first frame of the list is free, so the check after it has been taken off passes
  have hs : m.states[f]? = some .free := (h.mem_queue f).1 (hqueue ▸ List.mem_cons_self)
  have hput := congrArg FrameTable.entries (put_table m f (.reserved 1))
  have hfree : m.table.free = f :: queue := hqueue
  rw [FrameTable.reserve, hfree]
  show (m.table.entry f).bind _ = _
  rw [FrameTable.entry, getElem?_table, hs]
  exact congrArg (fun entries => Except.ok (some f, FrameTable.mk entries queue)) hput

/-- The table with the words of the states answers every call as the machine does, and has the words
of the machine's states afterwards. -/
theorem call_table (h : m.Proper) (c : FrameCall) :
    m.table.call c = Prod.map id table (m.call c) := by
  cases c with
  | reserve =>
      rw [FrameTable.call, call]
      cases hqueue : m.queue with
      | nil => rw [FrameTable.Sound.reserve_none hqueue]; rfl
      | cons f queue => rw [reserve_table h hqueue]; rfl
  | occupy f id =>
      rw [FrameTable.call, call]
      split
      · rename_i hpage
        rw [FrameTable.occupy, if_pos hpage]
        rfl
      · rename_i hpage
        exact occupy_table m f (Nat.le_of_not_lt hpage)
  | vacate f => exact vacate_table h f
  | giveBack f =>
      have hsame := giveBack_table h f
      rw [FrameTable.call]
      split
      · -- the second check would blame the table, which no call of the machine does
        rename_i hlisted
        rw [hlisted] at hsame
        have herror : (m.call (.giveBack f)).1 = .error .alreadyListed :=
          (congrArg Prod.fst hsame).symm
        cases (call_eq_error m _ herror).2
      · exact hsame
  | pin f => exact pin_table h f
  | unpin f => exact unpin_table h f

/-! ## What the table says -/

theorem isFree_table (h : m.Proper) (hs : m.states[f]? = some s) :
    m.table.isFree f = true ↔ s = .free := by
  rw [FrameTable.isFree, List.contains_iff_mem]
  show f ∈ m.queue ↔ _
  rw [h.mem_queue, hs, Option.some.injEq]

theorem pins_table (h : m.Proper) (hs : m.states[f]? = some s) : m.table.pins f = s.pins := by
  rw [FrameTable.pins, getElem?_table, hs]
  exact FrameState.pins_record (h.state f s hs)

theorem owner_table (h : m.Proper) (f : Nat) : m.table.owner f = m.owner f := by
  rw [FrameTable.owner, getElem?_table, owner]
  cases hs : m.states[f]? with
  | none => rfl
  | some s => exact FrameState.owner_record (h.state f s hs)

/-- What the table says of a frame is read off the frame's state. -/
theorem shows_table (h : m.Proper) (hs : m.states[f]? = some s) : m.table.Shows f s := by
  refine ⟨isFree_table h hs, ?_, (owner_table h f).trans (owner_eq hs), pins_table h hs, ?_⟩
  · rw [FrameTable.isAllocated, getElem?_table, hs]
    show s.record.allocated = true ↔ _
    rw [FrameState.allocated_record, decide_eq_true_iff]
  · rintro pins rfl
    exact (h.state f _ hs).1

theorem allows_of_table (h : m.Proper) {c : FrameCall} (hc : m.table.Allows c) : m.Allows c := by
  intro f hf
  have hpinned := hc f hf
  cases hs : m.states[f]? with
  | none =>
      rw [FrameTable.isPinned, FrameTable.pins, getElem?_table, hs] at hpinned
      cases hpinned
  | some s =>
      rw [FrameTable.isPinned, pins_table h hs, decide_eq_true_iff] at hpinned
      exact ⟨s, rfl, hpinned⟩

/-- Every sequence of calls of a table is one of the machine, with the same answers, and the table
has the words of the machine's states. -/
theorem exists_calls {frames : Nat} {trace : List (FrameCall × FrameAnswer)} {t : FrameTable}
    (h : FrameCalls FrameTable.call FrameTable.Allows (create frames).table trace t) :
    ∃ m, FrameCalls call Allows (create frames) trace m ∧ t = m.table := by
  -- one more call of the table is one more call of a machine that is proper by then
  induction h with
  | nil => exact ⟨create frames, .nil, rfl⟩
  | @call trace t _ c hc ih =>
      obtain ⟨m, hm, rfl⟩ := ih
      have hproper := (of_calls hm).1
      rw [call_table hproper c]
      exact ⟨(m.call c).2, .call hm c (allows_of_table hproper hc), rfl⟩

end FrameMachine

/-- The frame table is the machine packed into words. From a table of free frames, whatever is
called, as long as only pinned frames are parted from their owners: the answers are the machine's,
and what the table says of each frame, and of the free ones, is the machine's state; the owner of a
frame is the page that last occupied it and has not been parted from it since. No check that the
table makes of itself fails, and a call that halts leaves the whole table as it was. -/
theorem frameTable_refines_machine {frames : Nat} (hpos : 1 ≤ frames) (hmax : frames ≤ 2 ^ 24) :
    ∃ t₀, FrameTable.create frames = .ok t₀ ∧
      ∀ trace t, FrameCalls FrameTable.call FrameTable.Allows t₀ trace t →
        ∃ m, FrameCalls FrameMachine.call FrameMachine.Allows (.create frames) trace m ∧
          t = m.table ∧
          (∀ f < frames, ∃ s, m.states[f]? = some s ∧ t.Shows f s) ∧
          t.free.Nodup ∧ (∀ f, f ∈ t.free ↔ m.states[f]? = some .free) ∧
          (∀ f, t.owner f = lastOwner trace f) ∧
          ∀ c, (∀ f, (t.call c).1 ≠ .error (.freeFrameAllocated f)) ∧
            (t.call c).1 ≠ .error .alreadyListed ∧
            ∀ halt, (t.call c).1 = .error halt → (t.call c).2 = t := by
  have hcreate : FrameTable.create frames = .ok (FrameMachine.create frames).table := by
    rw [FrameTable.create, if_neg (by omega), if_neg (by rw [Address.maxPageNumber]; omega),
      FrameMachine.table, FrameMachine.create, Array.map_replicate]
    rfl
  refine ⟨_, hcreate, fun trace t ht => ?_⟩
  obtain ⟨m, hm, rfl⟩ := FrameMachine.exists_calls ht
  obtain ⟨hproper, hsize, howner⟩ := FrameMachine.of_calls hm
  refine ⟨m, hm, rfl, fun f hf => ?_, hproper.queue_nodup, hproper.mem_queue, fun f => ?_,
    fun c => ?_⟩
  · have hs : m.states[f]? = some m.states[f] := Array.getElem?_eq_getElem (hsize ▸ hf)
    exact ⟨_, hs, FrameMachine.shows_table hproper hs⟩
  · rw [FrameMachine.owner_table hproper, howner]
  · have hcall := FrameMachine.call_table hproper c
    have hanswer : (m.table.call c).1 = (m.call c).1 := congrArg Prod.fst hcall
    refine ⟨fun f herror => ?_, fun herror => ?_, fun halt herror => ?_⟩
    · cases (m.call_eq_error c (hanswer.symm.trans herror)).2
    · cases (m.call_eq_error c (hanswer.symm.trans herror)).2
    · exact (congrArg Prod.snd hcall).trans
        (congrArg FrameMachine.table (m.call_eq_error c (hanswer.symm.trans herror)).1)

/-- Of two frames the first is reserved, occupied, pinned, parted from its owner and, after a call
that halts, occupied again. -/
theorem frameTable_refines_machine_twoFrames : 1 ≤ 2 ∧ 2 ≤ 2 ^ 24 ∧
    ∃ t₀ trace t, FrameTable.create 2 = .ok t₀ ∧
      FrameCalls FrameTable.call FrameTable.Allows t₀ trace t ∧
      trace.map Prod.snd = [.ok none, .error (.ownerTooWide (2 ^ 24)), .ok none, .ok none, .ok none,
        .ok (some 0)] ∧
      t.owner 0 = some ⟨2, 7⟩ ∧ t.free = [1] := by
  obtain ⟨t₀, hcreate, hall⟩ := frameTable_refines_machine (by decide : 1 ≤ 2) (by decide)
  obtain rfl : (⟨#[.empty, .empty], [0, 1]⟩ : FrameTable) = t₀ := Except.ok.inj hcreate
  have hstart : FrameCalls FrameTable.call FrameTable.Allows ⟨#[.empty, .empty], [0, 1]⟩ []
    ⟨#[.empty, .empty], [0, 1]⟩ := .nil
  have hoccupied := ((hstart.call .reserve (by simp [FrameTable.Allows])).call (.occupy 0 ⟨1, 3⟩)
    (by simp [FrameTable.Allows])).call (.pin 0) (by simp [FrameTable.Allows])
  have hvacated := hoccupied.call (.vacate 0) (by intro f hf; cases hf; decide +kernel)
  have hagain := (hvacated.call (.occupy 0 ⟨2, 2 ^ 24⟩) (by simp [FrameTable.Allows])).call
    (.occupy 0 ⟨2, 7⟩) (by simp [FrameTable.Allows])
  obtain ⟨m, -, -, -, -, -, howner, -⟩ := hall _ _ hagain
  refine ⟨by decide, by decide, _, _, _, hcreate, hagain, by decide +kernel, ?_, by decide +kernel⟩
  rw [howner]
  decide +kernel

end DemandPaging
