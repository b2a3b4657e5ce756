import DemandPaging.Proofs.FrameRecords
import Mathlib.Data.Multiset.Count

/-!
# The frame table as three states and a count of pins

`FrameTable.Sound` says that every frame is free, reserved or owned: the free list holds exactly the
frames that are not allocated, a frame without an owner that is allocated is pinned, and a pin
belongs to somebody. The pins are given as a multiset of frames, one member for each pin. Each
operation on a sound table succeeds where its callers use it, and the lemma about it says who owns
which frame afterwards.
-/

namespace DemandPaging.FrameTable

/-- The table is consistent, and its pins are those of `pins`. -/
structure Sound (t : FrameTable) (pins : Multiset Nat) : Prop where
  free_nodup : t.free.Nodup
  mem_free : ∀ f, f ∈ t.free ↔ f < t.size ∧ t.isAllocated f = false
  allocated_of_owner : ∀ f id, t.owner f = some id → t.isAllocated f = true
  pins_eq : ∀ f, t.pins f = pins.count f
  allocated_of_pins : ∀ f, 0 < t.pins f → t.isAllocated f = true
  pins_of_reserved : ∀ f, t.isAllocated f = true → t.owner f = none → 0 < t.pins f

/-- How many frames pages live in. -/
def numOwned (t : FrameTable) : Nat := (List.range t.size).countP fun f => (t.owner f).isSome

/-! ## What a replaced record shows -/

section Put

variable {t : FrameTable} {f : Nat} (h : f < t.size) (e : FrameRecord) (g : Nat)
include h

theorem getElem?_put : (t.put f e).entries[g]? = if g = f then some e else t.entries[g]? := by
  simp only [put, Array.getElem?_setIfInBounds]
  by_cases hg : f = g
  · subst hg
    rw [if_pos rfl, if_pos rfl]
    exact if_pos h
  · rw [if_neg hg, if_neg (Ne.symm hg)]

theorem owner_put : (t.put f e).owner g = if g = f then e.owner else t.owner g := by
  rw [owner, getElem?_put h]
  split <;> rfl

theorem pins_put : (t.put f e).pins g = if g = f then e.pins else t.pins g := by
  rw [pins, getElem?_put h]
  split <;> rfl

theorem isAllocated_put :
    (t.put f e).isAllocated g = if g = f then e.allocated else t.isAllocated g := by
  rw [isAllocated, getElem?_put h]
  split <;> rfl

end Put

@[simp] theorem size_put (t : FrameTable) (f : Nat) (e : FrameRecord) :
    (t.put f e).size = t.size := by
  simp [put, size]

theorem lt_size_of_isAllocated {t : FrameTable} {f : Nat} (h : t.isAllocated f = true) :
    f < t.size := by
  by_contra hf
  rw [isAllocated, Array.getElem?_eq_none (Nat.le_of_not_lt hf)] at h
  exact Bool.noConfusion h

/-- The record of a frame that is there, with what the table says of the frame. -/
theorem exists_entry {t : FrameTable} {f : Nat} (h : f < t.size) :
    ∃ e, t.entry f = .ok e ∧ e.owner = t.owner f ∧ e.pins = t.pins f ∧
      e.allocated = t.isAllocated f := by
  have he : t.entries[f]? = some t.entries[f] := Array.getElem?_eq_getElem h
  exact ⟨t.entries[f], by rw [entry, he], by rw [owner, he]; rfl, by rw [pins, he]; rfl,
    by rw [isAllocated, he]; rfl⟩

/-- Only an allocated frame can be pinned, and only so often. -/
theorem of_pin {t t' : FrameTable} {f : Nat} (h : t.pin f = .ok t') :
    t.isAllocated f = true ∧ t.pins f < maxPins := by
  by_cases hlt : f < t.size
  · obtain ⟨e, hentry, -, hpins, hallocated⟩ := exists_entry hlt
    rw [pin, hentry] at h
    change (if ¬ e.allocated = true then _ else if e.pins < maxPins then _ else _) = _ at h
    split at h
    · cases h
    · rename_i ha
      split at h
      · rename_i hmax
        rw [not_not] at ha
        exact ⟨hallocated.symm.trans ha, hpins ▸ hmax⟩
      · cases h
  · rw [pin, entry, Array.getElem?_eq_none (Nat.le_of_not_lt hlt)] at h
    cases h

/-! ## A fresh table -/

/-- A table of free frames is sound, and nobody owns a frame. -/
theorem create_sound {frames : Nat} {t : FrameTable} (h : create frames = .ok t) :
    t.Sound 0 ∧ t.size = frames ∧ ∀ f, t.owner f = none := by
  have ht : t = ⟨Array.replicate frames FrameRecord.empty, List.range frames⟩ := by
    rw [create] at h
    split at h
    · cases h
    · split at h
      · cases h
      · exact (Except.ok.inj h).symm
  have hentry : ∀ f, t.entries[f]? = if f < frames then some FrameRecord.empty else none := by
    intro f
    rw [ht]
    exact Array.getElem?_replicate
  have howner : ∀ f, t.owner f = none := by
    intro f
    rw [owner, hentry]
    split <;> rfl
  have hpins : ∀ f, t.pins f = 0 := by
    intro f
    rw [pins, hentry]
    split <;> rfl
  have halloc : ∀ f, t.isAllocated f = false := by
    intro f
    rw [isAllocated, hentry]
    split <;> rfl
  have hsize : t.size = frames := by rw [ht]; exact Array.size_replicate
  refine ⟨⟨?_, ?_, ?_, ?_, ?_, ?_⟩, hsize, howner⟩
  · rw [ht]
    exact List.nodup_range
  · intro f
    rw [hsize, halloc, ht]
    simp
  · intro f id hf
    rw [howner] at hf
    cases hf
  · intro f
    rw [hpins, Multiset.count_zero]
  · intro f hf
    rw [hpins] at hf
    exact absurd hf (Nat.lt_irrefl 0)
  · intro f hf
    rw [halloc] at hf
    exact Bool.noConfusion hf

namespace Sound

variable {t : FrameTable} {pins : Multiset Nat} {f : Nat} {id : PageId}

theorem lt_size_of_owner (h : t.Sound pins) (hf : t.owner f = some id) : f < t.size :=
  lt_size_of_isAllocated (h.allocated_of_owner f id hf)

theorem allocated_of_mem (h : t.Sound pins) (hf : f ∈ pins) : t.isAllocated f = true :=
  h.allocated_of_pins f (by rw [h.pins_eq]; exact Multiset.count_pos.2 hf)

theorem not_mem_free (h : t.Sound pins) (hf : t.isAllocated f = true) : f ∉ t.free := by
  intro hm
  rw [((h.mem_free f).1 hm).2] at hf
  exact Bool.noConfusion hf

theorem not_mem_of_not_isPinned (h : t.Sound pins) (hf : t.isPinned f = false) : f ∉ pins := by
  intro hm
  rw [isPinned, h.pins_eq, decide_eq_false_iff_not] at hf
  exact hf (Multiset.count_pos.2 hm)

theorem isPinned_of_not_mem (h : t.Sound pins) (hf : f ∉ pins) : t.isPinned f = false := by
  rw [isPinned, h.pins_eq, Multiset.count_eq_zero.2 hf]
  rfl

/-- A frame that nobody has pinned is free, or a page lives in it. -/
theorem free_or_owned (h : t.Sound pins) (hlt : f < t.size) (hf : f ∉ pins) :
    (t.free.count f = 1 ∧ t.owner f = none) ∨ (f ∉ t.free ∧ ∃ id, t.owner f = some id) := by
  cases hallocated : t.isAllocated f with
  | false =>
      have hmem := (h.mem_free f).2 ⟨hlt, hallocated⟩
      refine .inl ⟨List.count_eq_one_of_mem h.free_nodup hmem, ?_⟩
      cases howner : t.owner f with
      | none => rfl
      | some id =>
          rw [h.allocated_of_owner f id howner] at hallocated
          cases hallocated
  | true =>
      refine .inr ⟨fun hmem => ?_, ?_⟩
      · rw [((h.mem_free f).1 hmem).2] at hallocated
        cases hallocated
      · cases howner : t.owner f with
        | some id => exact ⟨id, rfl⟩
        | none =>
            -- whoever reserves a frame has it pinned
            have hpinned := h.pins_of_reserved f hallocated howner
            rw [h.pins_eq] at hpinned
            exact absurd (Multiset.count_pos.1 hpinned) hf

/-- When no frame is free, and every page keeps its frame because of a pin, every frame is
pinned. -/
theorem mem_pins_of_full (h : t.Sound pins) (hfree : t.free = [])
    (howned : ∀ f id, t.owner f = some id → f ∈ pins) (hlt : f < t.size) : f ∈ pins := by
  by_contra hf
  rcases h.free_or_owned hlt hf with ⟨hcount, -⟩ | ⟨-, id, hid⟩
  · rw [hfree] at hcount
    cases hcount
  · exact hf (howned f id hid)

/-- When nothing is pinned, the free frames and those with pages are all frames. -/
theorem length_free_add_numOwned (h : t.Sound 0) : t.free.length + t.numOwned = t.size := by
  -- the free frames are those without an owner
  have hperm : t.free.Perm ((List.range t.size).filter fun f => ¬(t.owner f).isSome) := by
    refine (List.perm_ext_iff_of_nodup h.free_nodup (List.nodup_range.filter _)).2 fun f => ?_
    rw [List.mem_filter, List.mem_range]
    constructor
    · intro hmem
      have hlt := ((h.mem_free f).1 hmem).1
      rcases h.free_or_owned hlt (Multiset.notMem_zero f) with ⟨-, hnone⟩ | ⟨hfree, -⟩
      · exact ⟨hlt, by rw [hnone]; rfl⟩
      · exact absurd hmem hfree
    · rintro ⟨hlt, hnone⟩
      rcases h.free_or_owned hlt (Multiset.notMem_zero f) with ⟨hcount, -⟩ | ⟨-, id, hid⟩
      · exact List.count_pos_iff.1 (hcount ▸ Nat.one_pos)
      · rw [hid] at hnone
        cases hnone
  calc t.free.length + t.numOwned
      = (List.range t.size).countP (fun f => ¬(t.owner f).isSome) + t.numOwned := by
        rw [hperm.length_eq, List.countP_eq_length_filter]
    _ = (List.range t.size).length := by
        rw [numOwned, Nat.add_comm]
        exact (List.length_eq_countP_add_countP _).symm
    _ = t.size := List.length_range

/-- A frame that leaves the free list was unpinned and without an owner. -/
theorem blank_of_mem_free (h : t.Sound pins) (hf : f ∈ t.free) :
    t.owner f = none ∧ f ∉ pins := by
  have ha := ((h.mem_free f).1 hf).2
  constructor
  · cases ho : t.owner f with
    | none => rfl
    | some id =>
        rw [h.allocated_of_owner f id ho] at ha
        exact Bool.noConfusion ha
  · intro hm
    rw [h.allocated_of_mem hm] at ha
    exact Bool.noConfusion ha

/-! ## The operations

The record of one frame is replaced, and the free list and the pins follow. `replaced` is what all
of them share: what is left to be shown is about the frame alone. -/

theorem replaced (h : t.Sound pins) (hlt : f < t.size) {e : FrameRecord} {free : List Nat}
    {pins' : Multiset Nat} (hnodup : free.Nodup)
    (hfree : ∀ g, g ∈ free ↔ if g = f then e.allocated = false else g ∈ t.free)
    (howned : ∀ id, e.owner = some id → e.allocated = true) (hpins : e.pins = pins'.count f)
    (hothers : ∀ g, g ≠ f → pins'.count g = pins.count g)
    (hpinned : 0 < e.pins → e.allocated = true)
    (hreserved : e.allocated = true → e.owner = none → 0 < e.pins) :
    FrameTable.Sound { t.put f e with free } pins' := by
  have howner : ∀ g, FrameTable.owner { t.put f e with free } g =
      if g = f then e.owner else t.owner g := owner_put hlt e
  have hcount : ∀ g, FrameTable.pins { t.put f e with free } g =
      if g = f then e.pins else t.pins g := pins_put hlt e
  have halloc : ∀ g, FrameTable.isAllocated { t.put f e with free } g =
      if g = f then e.allocated else t.isAllocated g := isAllocated_put hlt e
  have hsize : FrameTable.size { t.put f e with free } = t.size := size_put t f e
  -- every part is known of the other frames, so `f` is the only case with something in it
  refine ⟨hnodup, fun g => ?_, fun g id hg => ?_, fun g => ?_, fun g hg => ?_, fun g hg ho => ?_⟩
  · rw [hsize, halloc, hfree]
    by_cases hgf : g = f
    · rw [if_pos hgf, if_pos hgf, hgf]
      exact (and_iff_right hlt).symm
    · rw [if_neg hgf, if_neg hgf]
      exact h.mem_free g
  · rw [howner] at hg
    rw [halloc]
    by_cases hgf : g = f
    · rw [if_pos hgf] at hg ⊢
      exact howned id hg
    · rw [if_neg hgf] at hg ⊢
      exact h.allocated_of_owner g id hg
  · rw [hcount]
    by_cases hgf : g = f
    · rw [if_pos hgf, hgf, hpins]
    · rw [if_neg hgf, hothers g hgf, h.pins_eq]
  · rw [hcount] at hg
    rw [halloc]
    by_cases hgf : g = f
    · rw [if_pos hgf] at hg ⊢
      exact hpinned hg
    · rw [if_neg hgf] at hg ⊢
      exact h.allocated_of_pins g hg
  · rw [halloc] at hg
    rw [howner] at ho
    rw [hcount]
    by_cases hgf : g = f
    · rw [if_pos hgf] at hg ho ⊢
      exact hreserved hg ho
    · rw [if_neg hgf] at hg ho ⊢
      exact h.pins_of_reserved g hg ho

/-- The record of an allocated frame is replaced by an allocated one, and the free list stays. -/
theorem put (h : t.Sound pins) {pins' : Multiset Nat} (hf : t.isAllocated f = true)
    {e : FrameRecord} (he : e.allocated = true) (hpins : e.pins = pins'.count f)
    (hothers : ∀ g, g ≠ f → pins'.count g = pins.count g)
    (hreserved : e.owner = none → 0 < e.pins) : (t.put f e).Sound pins' := by
  refine h.replaced (lt_size_of_isAllocated hf) h.free_nodup (fun g => ?_) (fun _ _ => he) hpins
    hothers (fun _ => he) (fun _ => hreserved)
  by_cases hg : g = f
  · rw [if_pos hg, he, hg, h.mem_free, hf]
    exact and_iff_right_of_imp fun hfalse => absurd hfalse (by decide)
  · rw [if_neg hg]

/-- An allocated frame goes to the end of the free list. -/
theorem free (h : t.Sound pins) {pins' : Multiset Nat} (hf : t.isAllocated f = true)
    (hpins : pins'.count f = 0) (hothers : ∀ g, g ≠ f → pins'.count g = pins.count g) :
    FrameTable.Sound { t.put f FrameRecord.empty with free := t.free ++ [f] } pins' := by
  have hnot := h.not_mem_free hf
  have hnodup : (t.free ++ [f]).Nodup := by
    refine List.nodup_append.2 ⟨h.free_nodup, List.nodup_singleton f, ?_⟩
    intro a ha b hb hab
    rw [List.mem_singleton] at hb
    exact hnot (hb ▸ hab ▸ ha)
  refine h.replaced (lt_size_of_isAllocated hf) hnodup (fun g => ?_) ?_ ?_ hothers ?_ ?_
  · rw [List.mem_append, List.mem_singleton]
    by_cases hg : g = f
    · rw [if_pos hg]
      exact ⟨fun _ => rfl, fun _ => .inr hg⟩
    · rw [if_neg hg]
      exact or_iff_left hg
  · intro id hid
    rw [FrameRecord.owner_empty] at hid
    cases hid
  · rw [FrameRecord.pins_empty, hpins]
  · intro hpos
    rw [FrameRecord.pins_empty] at hpos
    exact absurd hpos (Nat.lt_irrefl 0)
  · intro ha
    rw [FrameRecord.allocated_empty] at ha
    exact Bool.noConfusion ha

/-- Without a free frame nothing is reserved. -/
theorem reserve_none (hfree : t.free = []) : t.reserve = .ok (none, t) := by
  rw [reserve, hfree]

/-- The first free frame comes reserved, with one pin. -/
theorem reserve_some (h : t.Sound pins) {rest : List Nat} (hfree : t.free = f :: rest) :
    ∃ t', t.reserve = .ok (some f, t') ∧ t'.Sound (f ::ₘ pins) ∧ t'.size = t.size ∧
      t'.free = rest ∧ ∀ g, t'.owner g = t.owner g := by
  have hmem : f ∈ t.free := by rw [hfree]; exact List.mem_cons_self
  obtain ⟨hlt, hfresh⟩ := (h.mem_free f).1 hmem
  obtain ⟨howner, hpins⟩ := h.blank_of_mem_free hmem
  obtain ⟨e, hentry, -, -, hea⟩ := exists_entry hlt
  have hnodup := h.free_nodup
  rw [hfree, List.nodup_cons] at hnodup
  have hone : (FrameRecord.reserved 1).pins = 1 := FrameRecord.pins_reserved (by decide)
  have hallocated := FrameRecord.allocated_reserved 1
  refine ⟨{ t.put f (FrameRecord.reserved 1) with free := rest }, ?_,
    h.replaced hlt hnodup.2 (fun g => ?_) (fun _ _ => hallocated) ?_ (fun g hg => ?_)
      (fun _ => hallocated) (fun _ _ => ?_), size_put _ _ _, rfl, fun g => ?_⟩
  · rw [reserve, hfree]
    show (t.entry f).bind _ = _
    rw [hentry]
    show (if e.allocated = true then _ else _) = _
    rw [hea, hfresh]
    rfl
  · by_cases hg : g = f
    · rw [if_pos hg, hallocated, hg]
      exact ⟨fun hm => absurd hm hnodup.1, fun hfalse => Bool.noConfusion hfalse⟩
    · rw [if_neg hg, hfree, List.mem_cons]
      exact (or_iff_right hg).symm
  · rw [hone, Multiset.count_cons_self, Multiset.count_eq_zero.2 hpins]
  · exact Multiset.count_cons_of_ne hg pins
  · rw [hone]
    exact Nat.one_pos
  · show (t.put f _).owner g = _
    rw [owner_put hlt, FrameRecord.owner_reserved]
    by_cases hgf : g = f
    · rw [if_pos hgf, hgf, howner]
    · rw [if_neg hgf]

/-- A reserved frame that only one thread pins is given an owner, and loses its pin. -/
theorem occupy_eq (h : t.Sound (f ::ₘ pins)) (id : PageId) (hf : f ∉ pins)
    (hpage : id.page ≤ Address.maxPageNumber) :
    ∃ t', t.occupy f id = .ok t' ∧ t'.Sound pins ∧ t'.size = t.size ∧ t'.free = t.free ∧
      ∀ g, t'.owner g = if g = f then some id else t.owner g := by
  have ha := h.allocated_of_mem (Multiset.mem_cons_self f pins)
  have hlt := lt_size_of_isAllocated ha
  obtain ⟨e, hentry, -, -, hea⟩ := exists_entry hlt
  refine ⟨t.put f (FrameRecord.ownedBy id), ?_, ?_, size_put _ _ _, rfl, ?_⟩
  · rw [occupy, if_neg (Nat.not_lt.2 hpage)]
    show (t.entry f).bind _ = _
    rw [hentry]
    show (if e.allocated = true then _ else _) = _
    rw [hea, ha]
    rfl
  · refine h.put ha (FrameRecord.allocated_ownedBy id) ?_ ?_ ?_
    · rw [FrameRecord.pins_ownedBy, Multiset.count_eq_zero.2 hf]
    · intro g hg
      rw [Multiset.count_cons_of_ne hg]
    · intro ho
      rw [FrameRecord.owner_ownedBy id hpage] at ho
      cases ho
  · intro g
    rw [owner_put hlt, FrameRecord.owner_ownedBy id hpage]

/-- A pinned frame is parted from its owner and keeps its pins. -/
theorem vacate_eq (h : t.Sound pins) (hf : f ∈ pins) :
    ∃ t', t.vacate f = .ok t' ∧ t'.Sound pins ∧ t'.size = t.size ∧ t'.free = t.free ∧
      ∀ g, t'.owner g = if g = f then none else t.owner g := by
  have ha := h.allocated_of_mem hf
  have hlt := lt_size_of_isAllocated ha
  obtain ⟨e, hentry, -, hep, hea⟩ := exists_entry hlt
  have hpins : (FrameRecord.reserved e.pins).pins = pins.count f := by
    rw [FrameRecord.pins_reserved (FrameRecord.pins_le e), hep, h.pins_eq]
  refine ⟨t.put f (FrameRecord.reserved e.pins), ?_, ?_, size_put _ _ _, rfl, ?_⟩
  · rw [vacate]
    show (t.entry f).bind _ = _
    rw [hentry]
    show (if e.allocated = true then _ else _) = _
    rw [hea, ha]
    rfl
  · refine h.put ha (FrameRecord.allocated_reserved _) hpins (fun g _ => rfl) (fun _ => ?_)
    rw [hpins]
    exact Multiset.count_pos.2 hf
  · intro g
    rw [owner_put hlt, FrameRecord.owner_reserved]

/-- A frame that a page owned is given back. It is free, or reserved for whoever pins it. -/
theorem giveBack_eq (h : t.Sound pins) (hf : t.owner f = some id) :
    ∃ t', t.giveBack f = .ok t' ∧ t'.Sound pins ∧ t'.size = t.size ∧
      t'.free = (if f ∈ pins then t.free else t.free ++ [f]) ∧
      ∀ g, t'.owner g = if g = f then none else t.owner g := by
  have ha := h.allocated_of_owner f id hf
  have hlt := lt_size_of_isAllocated ha
  obtain ⟨e, hentry, -, hep, hea⟩ := exists_entry hlt
  have hlisted : t.isFree f = false := by
    rw [isFree, List.contains_eq_mem, decide_eq_false (h.not_mem_free ha)]
  have hgive : t.giveBack f = if 0 < e.pins then t.vacate f
      else .ok { t.put f FrameRecord.empty with free := t.free ++ [f] } := by
    rw [giveBack]
    show (t.entry f).bind _ = _
    rw [hentry]
    show (if ¬ e.allocated = true then _ else if 0 < e.pins then _ else if t.isFree f = true then _
      else _) = _
    rw [hea, ha, hlisted]
    rfl
  by_cases hp : f ∈ pins
  · obtain ⟨t', hv, hs, hsize, hfree, howner⟩ := h.vacate_eq hp
    refine ⟨t', ?_, hs, hsize, by rw [if_pos hp, hfree], howner⟩
    rw [hgive, if_pos, hv]
    rw [hep, h.pins_eq]
    exact Multiset.count_pos.2 hp
  · have hzero := Multiset.count_eq_zero.2 hp
    refine ⟨_, ?_, h.free ha hzero (fun g _ => rfl), size_put _ _ _, by rw [if_neg hp], ?_⟩
    · rw [hgive, if_neg]
      rw [hep, h.pins_eq, hzero]
      exact Nat.lt_irrefl 0
    · intro g
      show (t.put f _).owner g = _
      rw [owner_put hlt, FrameRecord.owner_empty]

/-- An allocated frame that can take another pin is pinned. -/
theorem pin_eq (h : t.Sound pins) (hf : t.isAllocated f = true) (hmax : pins.count f < maxPins) :
    ∃ t', t.pin f = .ok t' ∧ t'.Sound (f ::ₘ pins) ∧ t'.size = t.size ∧ t'.free = t.free ∧
      ∀ g, t'.owner g = t.owner g := by
  have hlt := lt_size_of_isAllocated hf
  obtain ⟨e, hentry, heo, hep, hea⟩ := exists_entry hlt
  have hpe : e.pins = pins.count f := by rw [hep, h.pins_eq]
  have hpins : (e.withPins (e.pins + 1)).pins = (f ::ₘ pins).count f := by
    rw [FrameRecord.pins_withPins _ (by omega), hpe, Multiset.count_cons_self]
  refine ⟨t.put f (e.withPins (e.pins + 1)), ?_, ?_, size_put _ _ _, rfl, ?_⟩
  · rw [pin]
    show (t.entry f).bind _ = _
    rw [hentry]
    show (if ¬ e.allocated = true then _ else if e.pins < maxPins then _ else _) = _
    rw [hea, hf, if_neg (by decide), if_pos (by omega)]
  · refine h.put hf ?_ hpins ?_ ?_
    · rw [FrameRecord.allocated_withPins, hea, hf]
    · intro g hg
      rw [Multiset.count_cons_of_ne hg]
    · intro _
      rw [hpins, Multiset.count_cons_self]
      exact Nat.succ_pos _
  · intro g
    rw [owner_put hlt, FrameRecord.owner_withPins, heo]
    by_cases hg : g = f
    · rw [if_pos hg, hg]
    · rw [if_neg hg]

/-- A frame that has as many pins as can be counted is not pinned once more. -/
theorem pin_full (h : t.Sound pins) (hf : t.isAllocated f = true)
    (hmax : ¬ pins.count f < maxPins) : t.pin f = .error (.tooManyPins f) := by
  obtain ⟨e, hentry, -, hep, hea⟩ := exists_entry (lt_size_of_isAllocated hf)
  rw [h.pins_eq] at hep
  rw [pin, hentry]
  show (if ¬ e.allocated = true then _ else if e.pins < maxPins then _ else _) = _
  rw [if_neg (by rw [hea, hf]; simp), if_neg (by rw [hep]; exact hmax)]

/-- A pin is taken off. A frame that is left without pins and owner is free again. -/
theorem unpin_eq (h : t.Sound (f ::ₘ pins)) :
    ∃ t', t.unpin f = .ok t' ∧ t'.Sound pins ∧ t'.size = t.size ∧
      t'.free = (if f ∉ pins ∧ t.owner f = none then t.free ++ [f] else t.free) ∧
      ∀ g, t'.owner g = t.owner g := by
  have ha := h.allocated_of_mem (Multiset.mem_cons_self f pins)
  have hlt := lt_size_of_isAllocated ha
  obtain ⟨e, hentry, heo, hep, hea⟩ := exists_entry hlt
  have hpe : e.pins = pins.count f + 1 := by rw [hep, h.pins_eq, Multiset.count_cons_self]
  have howned : e.owned = (t.owner f).isSome := by rw [FrameRecord.owned_eq_isSome_owner, heo]
  have hothers : ∀ g, g ≠ f → pins.count g = (f ::ₘ pins).count g := by
    intro g hg
    rw [Multiset.count_cons_of_ne hg]
  have hunpin : t.unpin f = if e.pins = 0 then .error (.notPinned f)
      else if e.pins = 1 ∧ ¬ e.owned = true then
        .ok { t.put f FrameRecord.empty with free := t.free ++ [f] }
      else .ok (t.put f (e.withPins (e.pins - 1))) := by
    rw [unpin]
    show (t.entry f).bind _ = _
    rw [hentry]
    rfl
  rw [hunpin, if_neg (by omega)]
  -- the last pin frees the frame only if no page owns it
  by_cases hlast : f ∉ pins ∧ t.owner f = none
  · have hzero := Multiset.count_eq_zero.2 hlast.1
    rw [if_pos ⟨by omega, by rw [howned, hlast.2]; decide⟩, if_pos hlast]
    refine ⟨_, rfl, h.free ha hzero hothers, size_put _ _ _, rfl, ?_⟩
    intro g
    show (t.put f _).owner g = _
    rw [owner_put hlt, FrameRecord.owner_empty]
    by_cases hg : g = f
    · rw [if_pos hg, hg, hlast.2]
    · rw [if_neg hg]
  · have hcount : pins.count f = 0 → ∃ id, t.owner f = some id := by
      intro hzero
      apply Option.ne_none_iff_exists'.1
      exact fun ho => hlast ⟨Multiset.count_eq_zero.1 hzero, ho⟩
    have hpins : (e.withPins (e.pins - 1)).pins = pins.count f := by
      rw [FrameRecord.pins_withPins _ (by have := FrameRecord.pins_le e; omega), hpe]
      rfl
    rw [if_neg, if_neg hlast]
    · refine ⟨_, rfl, h.put ha ?_ hpins hothers ?_, size_put _ _ _, rfl, ?_⟩
      · rw [FrameRecord.allocated_withPins, hea, ha]
      · intro ho
        rw [hpins]
        refine Nat.pos_of_ne_zero fun hzero => ?_
        obtain ⟨id, hid⟩ := hcount hzero
        rw [FrameRecord.owner_withPins, heo, hid] at ho
        cases ho
      · intro g
        rw [owner_put hlt, FrameRecord.owner_withPins, heo]
        by_cases hg : g = f
        · rw [if_pos hg, hg]
        · rw [if_neg hg]
    · rintro ⟨h1, h2⟩
      obtain ⟨id, hid⟩ := hcount (by omega)
      rw [howned, hid] at h2
      exact h2 rfl

end Sound

end DemandPaging.FrameTable
