import DemandPaging.Paging.Fault
import DemandPaging.Proofs.FrameTable
import DemandPaging.Proofs.PageTables

/-!
# Frames and slots that are spent

Threads that wait for a swap slot rely on what the others leave alone: the pages in their victims'
frames, and how many slots and frames are free. `Still` is said of a change that touches none of
this, and `Spares` of one that leaves the frames of other threads alone.

A page that is dirty in its page table cannot leave its frame without a slot. A thread that waits
keeps such a victim (`Blocked`), so the slot that it is woken for is one that it needs.
-/

namespace DemandPaging.Paging

variable {σ : Type} {s s' s'' : Paging σ} {f : Nat} {pins : Multiset Nat}

/-- The page in a frame, if there is one, is dirty in its page table. -/
def Laden (s : Paging σ) (f : Nat) : Prop :=
  ∀ id, s.frameTable.owner f = some id →
    ∃ e, s.tables.find? id = some e ∧ e.frame = some f ∧ e.dirty = true

/-- How many slots it takes to push the page in a frame out. -/
def due (s : Paging σ) (f : Nat) : Nat :=
  match s.frameTable.owner f with
  | none => 0
  | some id => ((s.tables.find? id).elim false PageEntry.dirty).toNat

/-- A page is in no frame. -/
def Absent (s : Paging σ) (id : PageId) : Prop := ∀ f, s.frameTable.owner f ≠ some id

/-- Nobody can tell from frames and slots that there was a change: pages may have become dirty, and
frames may have been pinned. -/
structure Still (s s' : Paging σ) : Prop where
  owner_eq : ∀ f, s'.frameTable.owner f = s.frameTable.owner f
  frames_eq : s'.frameTable.free = s.frameTable.free
  slots_eq : s'.swap.free = s.swap.free
  entries : ∀ id e, s.tables.find? id = some e → ∃ e', s'.tables.find? id = some e' ∧
    e'.frame = e.frame ∧ (e.dirty = true → e'.dirty = true)

/-- Pages in the frames of `pins` stay there, and dirty. -/
structure Spares (pins : Multiset Nat) (s s' : Paging σ) : Prop where
  owner_eq : ∀ f ∈ pins, s'.frameTable.owner f = s.frameTable.owner f
  laden : ∀ f ∈ pins, s.Laden f → s'.Laden f

/-- The page in a frame, if there is one, has left it, for as many slots as were due. All other
pages are where they were. -/
structure Evicts (victim : Nat) (s s' : Paging σ) : Prop where
  owner_eq : ∀ f, s'.frameTable.owner f = if f = victim then none else s.frameTable.owner f
  frames_eq : s'.frameTable.free = s.frameTable.free
  slots_eq : s'.swap.free.length + s.due victim = s.swap.free.length
  entries : ∀ id e f, s.tables.find? id = some e → e.frame = some f → f ≠ victim →
    s'.tables.find? id = some e

/-- A thread has to wait with a victim: no frame is free, and no slot for the page of the victim,
which is dirty. -/
structure Blocked (s : Paging σ) (victim : Nat) : Prop where
  slots_eq : s.swap.free = []
  frames_eq : s.frameTable.free = []
  owned : (s.frameTable.owner victim).isSome = true
  laden : s.Laden victim

theorem due_le_one (s : Paging σ) (f : Nat) : s.due f ≤ 1 := by
  rw [due]
  split
  · exact Nat.zero_le 1
  · exact Bool.toNat_le _

theorem due_of_owner {id : PageId} {e : PageEntry} (howner : s.frameTable.owner f = some id)
    (he : s.tables.find? id = some e) : s.due f = e.dirty.toNat := by
  rw [due, howner]
  show ((s.tables.find? id).elim false PageEntry.dirty).toNat = _
  rw [he]
  rfl

/-- It takes one slot to push out a page that is dirty. -/
theorem Laden.due_eq (h : s.Laden f) : s.due f = (s.frameTable.owner f).isSome.toNat := by
  cases howner : s.frameTable.owner f with
  | none =>
      rw [due, howner]
      rfl
  | some id =>
      obtain ⟨e, he, -, hd⟩ := h id howner
      rw [due_of_owner howner he, hd]
      rfl

namespace Still

theorem of_eq (hframes : s'.frameTable = s.frameTable) (hswap : s'.swap = s.swap)
    (htables : s'.tables = s.tables) : Still s s' := by
  refine ⟨fun f => by rw [hframes], by rw [hframes], by rw [hswap], fun page e he => ?_⟩
  rw [← htables] at he
  exact ⟨e, he, rfl, id⟩

theorem refl (s : Paging σ) : Still s s := .of_eq rfl rfl rfl

theorem trans (h : Still s s') (h' : Still s' s'') : Still s s'' := by
  refine ⟨fun f => (h'.owner_eq f).trans (h.owner_eq f), h'.frames_eq.trans h.frames_eq,
    h'.slots_eq.trans h.slots_eq, fun id e he => ?_⟩
  obtain ⟨e', he', hframe, hdirty⟩ := h.entries id e he
  obtain ⟨e'', he'', hframe', hdirty'⟩ := h'.entries id e' he'
  exact ⟨e'', he'', hframe'.trans hframe, fun hd => hdirty' (hdirty hd)⟩

theorem laden (h : Still s s') (hladen : s.Laden f) : s'.Laden f := by
  intro id howner
  rw [h.owner_eq] at howner
  obtain ⟨e, he, hframe, hd⟩ := hladen id howner
  obtain ⟨e', he', hframe', hdirty⟩ := h.entries id e he
  exact ⟨e', he', hframe'.trans hframe, hdirty hd⟩

theorem absent (h : Still s s') {id : PageId} (habsent : s.Absent id) : s'.Absent id :=
  fun f hf => habsent f ((h.owner_eq f).symm.trans hf)

theorem spares (h : Still s s') (pins : Multiset Nat) : Spares pins s s' :=
  ⟨fun f _ => h.owner_eq f, fun _ _ => h.laden⟩

theorem blocked {victim : Nat} (h : Still s s') (hblocked : s.Blocked victim) :
    s'.Blocked victim :=
  ⟨h.slots_eq.trans hblocked.slots_eq, h.frames_eq.trans hblocked.frames_eq,
    (h.owner_eq victim).symm ▸ hblocked.owned, h.laden hblocked.laden⟩

end Still

namespace Spares

theorem trans (h : Spares pins s s') (h' : Spares pins s' s'') : Spares pins s s'' :=
  ⟨fun f hf => (h'.owner_eq f hf).trans (h.owner_eq f hf),
    fun f hf hladen => h'.laden f hf (h.laden f hf hladen)⟩

/-- Fewer frames are spared as well. -/
theorem mono {pins' : Multiset Nat} (h : Spares pins s s') (hsub : ∀ f ∈ pins', f ∈ pins) :
    Spares pins' s s' :=
  ⟨fun f hf => h.owner_eq f (hsub f hf), fun f hf => h.laden f (hsub f hf)⟩

/-- Frames with the same owners, whose pages have the same entries. -/
theorem of_entries (howner : ∀ f ∈ pins, s'.frameTable.owner f = s.frameTable.owner f)
    (hfind : ∀ f ∈ pins, ∀ id e, s.tables.find? id = some e → e.frame = some f →
      s'.tables.find? id = some e) : Spares pins s s' := by
  refine ⟨howner, fun f hf hladen id hid => ?_⟩
  rw [howner f hf] at hid
  obtain ⟨e, he, hframe, hd⟩ := hladen id hid
  exact ⟨e, hfind f hf id e he hframe, hframe, hd⟩

end Spares

namespace Evicts

variable {victim : Nat}

theorem absent (h : Evicts victim s s') {id : PageId} (habsent : s.Absent id) : s'.Absent id := by
  intro f hf
  rw [h.owner_eq] at hf
  split at hf
  · cases hf
  · exact habsent f hf

/-- A victim that nobody else has pinned is no concern of the others. -/
theorem spares (h : Evicts victim s s') (hv : victim ∉ pins) : Spares pins s s' := by
  have hne : ∀ f ∈ pins, f ≠ victim := by
    rintro f hf rfl
    exact hv hf
  refine .of_entries (fun f hf => ?_) fun f hf id e he hframe => ?_
  · rw [h.owner_eq, if_neg (hne f hf)]
  · exact h.entries id e f he hframe (hne f hf)

end Evicts

/-- What a search for a frame has spent, for which `meant` slots were meant: a slot is left for
everyone else, or somebody else is to be woken for it. No page has come into memory, and no frame
has become free. A search that needs a slot has spent nothing. -/
def Spent (pins : Multiset Nat) (meant : Nat) (s s' : Paging σ) : FrameSearch → Prop
  | .found _ passOn => Spares pins s s' ∧
      s'.swap.free.length ≤ s.swap.free.length - meant + passOn.toNat ∧
      (s.frameTable.free = [] → s'.frameTable.free = []) ∧ ∀ id, s.Absent id → s'.Absent id
  | .needsSlot victim => Still s s' ∧ s'.Blocked victim

namespace Spent

variable {meant : Nat} {found : FrameSearch}

theorem of_still (h : Still s s') (h' : Spent pins meant s' s'' found) :
    Spent pins meant s s'' found := by
  cases found with
  | found f passOn =>
      obtain ⟨hspares, hslots, hframes, habsent⟩ := h'
      rw [h.slots_eq] at hslots
      rw [h.frames_eq] at hframes
      exact ⟨(h.spares pins).trans hspares, hslots, hframes,
        fun id hid => habsent id (h.absent hid)⟩
  | needsSlot victim => exact ⟨h.trans h'.1, h'.2⟩

/-- A frame was free, and has been taken. -/
theorem of_free {rest : List Nat} {passOn : Bool} {t : FrameTable}
    (hfree : s.frameTable.free = f :: rest)
    (howner : ∀ g, t.owner g = s.frameTable.owner g)
    (hslots : s.swap.free.length ≤ s.swap.free.length - meant + passOn.toNat) :
    Spent pins meant s { s with frameTable := t } (.found f passOn) := by
  refine ⟨.of_entries (fun g _ => howner g) fun _ _ _ _ he _ => he, hslots, fun hfull => ?_,
    fun id hid g hg => hid g ((howner g).symm.trans hg)⟩
  rw [hfree] at hfull
  cases hfull

/-- A search needs a slot only when there is neither a free frame nor a free slot. -/
theorem starved {victim : Nat} (h : Spent pins meant s s' (.needsSlot victim)) :
    s.frameTable.free = [] ∧ s.swap.free = [] := by
  obtain ⟨hstill, hblocked⟩ := h
  exact ⟨hstill.frames_eq.symm.trans hblocked.frames_eq,
    hstill.slots_eq.symm.trans hblocked.slots_eq⟩

/-- Slots that were not meant for a thread may be spent all the same. -/
theorem unmeant (h : Spent pins meant s s' found) : Spent pins 0 s s' found := by
  cases found with
  | found f passOn =>
      obtain ⟨hspares, hslots, hframes, habsent⟩ := h
      exact ⟨hspares, by omega, hframes, habsent⟩
  | needsSlot victim => exact h

end Spent

/-- What the handling of a miss has spent, for which `meant` slots were meant. The slots that are
free then are left for everyone else, or as many threads are to be woken. If the page was `wanted`
no frame has become free, and an error has changed nothing. -/
def Settled (wanted : Prop) (pins : Multiset Nat) (meant : Nat) (s s' : Paging σ) :
    Except PagingError MissResult → Prop
  | .ok (.loaded wakeUps) => Spares pins s s' ∧
      s'.swap.free.length ≤ s.swap.free.length - meant + wakeUps ∧
      (wanted → s.frameTable.free = [] → s'.frameTable.free = [])
  | .ok (.needsSlot victim) => Still s s' ∧ s'.Blocked victim
  | .error _ => Spares pins s s' ∧ (wanted → Still s s')

theorem Settled.spares {wanted : Prop} {meant : Nat} {r : Except PagingError MissResult}
    (h : Settled wanted pins meant s s' r) : Spares pins s s' := by
  cases r with
  | error => exact h.1
  | ok result =>
      cases result with
      | loaded wakeUps => exact h.1
      | needsSlot victim => exact h.1.spares pins

/-- A page that is known to be wanted need not be asked for. -/
theorem Settled.wanted {wanted : Prop} {meant : Nat} {r : Except PagingError MissResult}
    (h : Settled wanted pins meant s s' r) (hwanted : wanted) : Settled True pins meant s s' r := by
  rw [eq_true hwanted] at h
  exact h

end DemandPaging.Paging
