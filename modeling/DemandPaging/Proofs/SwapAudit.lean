import DemandPaging.Proofs.SwapArea
import Mathlib.Data.List.Perm.Subperm

/-!
# The audit of the swap area is sound and complete

The audit marks the free slots and then the slots of pages, each at most once, looks for a slot
without a mark, and in the end compares no more than the sizes of the two maps. That is enough for
every swap area, reached or not: it passes exactly if the area is consistent, and the slot that it
names otherwise has something wrong with it (`audit_sound_complete`). One lemma says what a pass
comes to (`foldlM_marks`), and both passes are instances of it.
-/

namespace DemandPaging.SwapArea

variable {σ : Type}

/-- What can be wrong with a slot. -/
inductive Faulty (s : SwapArea σ) (slot : Nat) : Prop where
  /-- it is listed as free or as the slot of a page, and there is no such slot -/
  | outOfRange (hlisted : slot ∈ s.free ∨ ∃ id, s.lookup id = some slot)
      (hout : s.numSlots ≤ slot)
  /-- it is on the free list more than once -/
  | freeTwice (hcount : 1 < s.free.count slot)
  /-- it is free, and a page is in it -/
  | freeAndUsed {id : PageId} (hfree : slot ∈ s.free) (hused : s.lookup id = some slot)
  /-- two pages are in it -/
  | usedTwice {id id' : PageId} (hne : id ≠ id') (hused : s.lookup id = some slot)
      (hused' : s.lookup id' = some slot)
  /-- it is not free, and no page is in it -/
  | neither (hlt : slot < s.numSlots) (hfree : slot ∉ s.free)
      (hunused : ∀ id, s.lookup id ≠ some slot)
  /-- a page is in it, and its owner is not the process of the page, or it has none -/
  | wrongOwner {id : PageId} (hused : s.lookup id = some slot)
      (howner : s.owner slot ≠ some id.pid)
  /-- it has an owner, and no page is in it -/
  | surplusOwner {pid : Pid} (howner : s.owner slot = some pid)
      (hunused : ∀ id, s.lookup id ≠ some slot)

/-- A consistent area has no slot that is at fault. -/
theorem Faulty.not_consistent {s : SwapArea σ} {slot : Nat} (h : s.Faulty slot) :
    ¬ s.Consistent := by
  intro hs
  cases h with
  | outOfRange hlisted hout => exact Nat.not_lt.2 hout ((hs.lt_numSlots_iff slot).2 hlisted)
  | freeTwice hcount =>
      exact Nat.not_lt.2 (List.nodup_iff_count_le_one.1 hs.free_nodup slot) hcount
  | freeAndUsed hfree hused => exact hs.lookup_ne_of_free slot _ hfree hused
  | usedTwice hne hused hused' => exact hne (hs.lookup_inj slot _ _ hused hused')
  | neither hlt hfree hunused =>
      rcases (hs.lt_numSlots_iff slot).1 hlt with hmem | ⟨id, hid⟩
      · exact hfree hmem
      · exact hunused id hid
  | wrongOwner hused howner => exact howner ((hs.owner_iff slot _).2 ⟨_, hused⟩)
  | surplusOwner howner hunused =>
      obtain ⟨page, hpage⟩ := (hs.owner_iff slot _).1 howner
      exact hunused _ hpage

/-! ## A pass over a list -/

/-- What a pass that marks the slots of items comes to, from the marks `seen`: the slots are new and
different from each other, the items are good, and all slots are marked; or it stops at the first
item for which that fails, and names its slot. -/
inductive Pass {α : Type} (slotOf : α → Nat) (good : α → Prop) (items : List α)
    (seen : Array Bool) : Except PagingError (Array Bool) → Prop where
  | passed {seen' : Array Bool} (hnodup : (items.map slotOf).Nodup)
      (hnew : ∀ a ∈ items, seen[slotOf a]? = some false) (hgood : ∀ a ∈ items, good a)
      (hmarked : ∀ i, seen'[i]? = if i ∈ items.map slotOf then some true else seen[i]?) :
      Pass slotOf good items seen (.ok seen')
  | stopped {before after : List α} {a : α} (hsplit : items = before ++ a :: after)
      (hbad : slotOf a ∈ before.map slotOf ∨ seen[slotOf a]? ≠ some false ∨ ¬ good a) :
      Pass slotOf good items seen (.error (.swapTableCorrupt (slotOf a)))

/-- A slot that is not marked yet is marked, and no other mark changes. -/
theorem markSeen_eq {seen : Array Bool} {slot : Nat} (h : seen[slot]? = some false) :
    ∃ seen', markSeen seen slot = .ok seen' ∧
      ∀ i, seen'[i]? = if i = slot then some true else seen[i]? := by
  have hlt : slot < seen.size := by
    rw [Array.getElem?_eq_some_iff] at h
    exact h.1
  refine ⟨seen.setIfInBounds slot true, if_pos h, ?_⟩
  intro i
  rw [Array.getElem?_setIfInBounds]
  by_cases hi : slot = i
  · rw [if_pos hi, if_pos hlt, if_pos hi.symm]
  · rw [if_neg hi, if_neg (Ne.symm hi)]

/-- A pass comes to what it should, if each of its steps marks the slot of a good item that is not
marked yet, and names the slot otherwise. -/
theorem foldlM_marks {α : Type} {slotOf : α → Nat} {good : α → Prop}
    {step : Array Bool → α → Except PagingError (Array Bool)}
    (hmarks : ∀ seen a, good a → step seen a = markSeen seen (slotOf a))
    (hnames : ∀ seen a, ¬ good a → step seen a = .error (.swapTableCorrupt (slotOf a)))
    (items : List α) :
    ∀ seen, Pass slotOf good items seen (items.foldlM step seen) := by
  induction items with
  | nil =>
      intro seen
      apply Pass.passed
      · simp
      · simp
      · simp
      · simp
  | cons a rest ih =>
      intro seen
      rw [List.foldlM_cons]
      by_cases hgood : good a
      · by_cases hnew : seen[slotOf a]? = some false
        · obtain ⟨seen₁, hmark, hseen₁⟩ := markSeen_eq hnew
          rw [hmarks seen a hgood, hmark]
          show Pass slotOf good (a :: rest) seen (rest.foldlM step seen₁)
          -- a slot is new after the first step if it is new before it and not the first one
          have hiff : ∀ i, seen₁[i]? = some false ↔ i ≠ slotOf a ∧ seen[i]? = some false := by
            intro i
            rw [hseen₁]
            split
            · rename_i hi
              simp [hi]
            · rename_i hi
              simp [hi]
          generalize hresult : rest.foldlM step seen₁ = result
          have hpass := ih seen₁
          rw [hresult] at hpass
          cases hpass with
          | passed hnodup hnew' hgood' hmarked =>
              apply Pass.passed
              · rw [List.map_cons, List.nodup_cons]
                refine ⟨?_, hnodup⟩
                intro hmem
                obtain ⟨b, hb, heq⟩ := List.mem_map.1 hmem
                exact ((hiff _).1 (hnew' b hb)).1 heq
              · intro b hb
                rcases List.mem_cons.1 hb with rfl | hb
                · exact hnew
                · exact ((hiff _).1 (hnew' b hb)).2
              · intro b hb
                rcases List.mem_cons.1 hb with rfl | hb
                · exact hgood
                · exact hgood' b hb
              · intro i
                rw [hmarked, hseen₁, List.map_cons]
                by_cases hi : i = slotOf a
                · simp [hi]
                · simp [hi]
          | @stopped before after b hsplit hbad =>
              refine @Pass.stopped _ _ _ _ _ (a :: before) after b ?_ ?_
              · rw [hsplit, List.cons_append]
              · rw [Ne, hiff] at hbad
                rw [List.map_cons, List.mem_cons]
                by_cases hb : slotOf b = slotOf a
                · exact .inl (.inl hb)
                · rcases hbad with hbefore | hold | hbad
                  · exact .inl (.inr hbefore)
                  · exact .inr (.inl fun hseen => hold ⟨hb, hseen⟩)
                  · exact .inr (.inr hbad)
        · rw [hmarks seen a hgood, markSeen, if_neg hnew]
          exact @Pass.stopped _ _ _ _ _ [] rest a rfl (.inr (.inl hnew))
      · rw [hnames seen a hgood]
        exact @Pass.stopped _ _ _ _ _ [] rest a rfl (.inr (.inr hgood))

variable (s : SwapArea σ)

/-- The pass over the free list. -/
theorem pass_free (seen : Array Bool) :
    Pass id (fun _ => True) s.free seen (s.free.foldlM markSeen seen) := by
  apply foldlM_marks
  · intro seen slot _
    rfl
  · intro seen slot hbad
    exact absurd trivial hbad

/-- The pass over the pages in slots. A page is good if its process owns its slot. -/
theorem pass_used (seen : Array Bool) :
    Pass Prod.snd (fun entry : PageId × Nat => s.owner entry.2 = some entry.1.pid)
      s.slots.toList seen (s.slots.toList.foldlM s.markUsed seen) := by
  refine foldlM_marks ?_ ?_ _ seen
  · intro seen entry howner
    rw [markUsed]
    cases markSeen seen entry.2 with
    | error cause => rfl
    | ok seen' => exact if_pos howner
  · intro seen entry howner
    simp only [markUsed, if_neg howner]
    rw [markSeen]
    split
    · rfl
    · rfl

/-! ## The sizes of the two maps -/

/-- The first slot that has an owner, and that no page is in. -/
def surplus : Option Nat := s.owners.keys.find? fun slot => !s.slots.values.contains slot

/-- The slots of pages, in page order. -/
theorem values_slots : s.slots.values = s.slots.toList.map Prod.snd := by
  show s.slots.foldr (fun _ slot slots => slot :: slots) [] = _
  rw [Std.TreeMap.foldr_eq_foldr_toList, List.map_eq_foldr]

theorem mem_values_iff {slot : Nat} : slot ∈ s.slots.values ↔ ∃ id, s.lookup id = some slot := by
  rw [s.values_slots, List.mem_map]
  constructor
  · rintro ⟨entry, hentry, rfl⟩
    exact ⟨entry.1, Consistent.mem_toList_iff.1 hentry⟩
  · rintro ⟨id, hid⟩
    exact ⟨(id, slot), Consistent.mem_toList_iff.2 hid, rfl⟩

theorem mem_keys_iff {slot : Nat} : slot ∈ s.owners.keys ↔ ∃ pid, s.owner slot = some pid := by
  rw [Std.TreeMap.mem_keys, Std.TreeMap.mem_iff_isSome_getElem?, Option.isSome_iff_exists]
  rfl

theorem surplus_eq_some {slot : Nat} (h : s.surplus = some slot) :
    (∃ pid, s.owner slot = some pid) ∧ ∀ id, s.lookup id ≠ some slot := by
  refine ⟨s.mem_keys_iff.1 (List.mem_of_find?_eq_some h), ?_⟩
  intro id hid
  have hunused := List.find?_some h
  rw [Bool.not_eq_true', List.contains_eq_mem, decide_eq_false_iff_not, s.mem_values_iff] at hunused
  exact hunused ⟨id, hid⟩

theorem surplus_eq_none_iff :
    s.surplus = none ↔ ∀ slot pid, s.owner slot = some pid → ∃ id, s.lookup id = some slot := by
  rw [surplus, List.find?_eq_none]
  constructor
  · intro h slot pid howner
    have hused := h slot (s.mem_keys_iff.2 ⟨pid, howner⟩)
    rw [Bool.not_eq_true', List.contains_eq_mem, decide_eq_false_iff_not, not_not,
      s.mem_values_iff] at hused
    exact hused
  · intro h slot hslot
    obtain ⟨pid, howner⟩ := s.mem_keys_iff.1 hslot
    rw [Bool.not_eq_true', List.contains_eq_mem, decide_eq_false_iff_not, not_not,
      s.mem_values_iff]
    exact h slot pid howner

/-- Where every slot of a page has an owner, and no slot has two pages, the two maps have the same
size exactly if no slot has an owner without a page. So the size tells whether there is one. -/
theorem owners_size_iff (hnodup : (s.slots.toList.map Prod.snd).Nodup)
    (howner : ∀ id slot, s.lookup id = some slot → ∃ pid, s.owner slot = some pid) :
    s.owners.size = s.slots.size ↔ s.surplus = none := by
  rw [← s.values_slots] at hnodup
  have hsubset : s.slots.values ⊆ s.owners.keys := by
    intro slot hslot
    obtain ⟨id, hid⟩ := s.mem_values_iff.1 hslot
    exact s.mem_keys_iff.2 (howner id slot hid)
  have hsubperm : s.slots.values.Subperm s.owners.keys := hnodup.subperm hsubset
  have hlength : s.owners.size = s.slots.size ↔ s.owners.keys.length = s.slots.values.length := by
    rw [Std.TreeMap.length_keys, s.values_slots, List.length_map, Std.TreeMap.length_toList]
  rw [hlength, s.surplus_eq_none_iff]
  constructor
  · intro hsize slot pid hpid
    have hperm := hsubperm.perm_of_length_le (Nat.le_of_eq hsize)
    exact s.mem_values_iff.1 (hperm.mem_iff.2 (s.mem_keys_iff.2 ⟨pid, hpid⟩))
  · intro hnone
    have hback : s.owners.keys ⊆ s.slots.values := by
      intro slot hslot
      obtain ⟨pid, hpid⟩ := s.mem_keys_iff.1 hslot
      exact s.mem_values_iff.2 (hnone slot pid hpid)
    exact Nat.le_antisymm (s.owners.nodup_keys.subperm hback).length_le hsubperm.length_le

/-! ## The whole audit -/

variable {s}

/-- The free list is at fault where the pass over it stops. -/
theorem faulty_of_free {before after : List Nat} {slot : Nat}
    (hsplit : s.free = before ++ slot :: after)
    (hbad : slot ∈ before ∨ (Array.replicate s.numSlots false)[slot]? ≠ some false) :
    s.Faulty slot := by
  rcases hbad with hbefore | hseen
  · apply Faulty.freeTwice
    have hcount : 0 < before.count slot := List.count_pos_iff.2 hbefore
    rw [hsplit, List.count_append, List.count_cons_self]
    omega
  · apply Faulty.outOfRange
    · rw [hsplit]
      exact .inl (List.mem_append_right before List.mem_cons_self)
    · by_contra hlt
      rw [Array.getElem?_replicate, if_pos (Nat.not_le.1 hlt)] at hseen
      exact hseen rfl

/-- The slot of a page is at fault where the pass over the pages stops. -/
theorem faulty_of_used {before after : List (PageId × Nat)} {entry : PageId × Nat}
    {seen : Array Bool} (hsplit : s.slots.toList = before ++ entry :: after)
    (hseen : ∀ i, seen[i]? = if i ∈ s.free then some true
      else (Array.replicate s.numSlots false)[i]?)
    (hbad : entry.2 ∈ before.map Prod.snd ∨ seen[entry.2]? ≠ some false ∨
      s.owner entry.2 ≠ some entry.1.pid) : s.Faulty entry.2 := by
  have hmem : ∀ e ∈ before ++ entry :: after, s.lookup e.1 = some e.2 := by
    intro e he
    rw [← hsplit] at he
    exact Consistent.mem_toList_iff.1 he
  have hused := hmem entry (List.mem_append_right before List.mem_cons_self)
  rcases hbad with hbefore | hmarked | howner
  · obtain ⟨other, hother, heq⟩ := List.mem_map.1 hbefore
    have hused' := hmem other (List.mem_append_left _ hother)
    -- the two entries are of different pages, because a map lists each page once
    have hne : other.1 ≠ entry.1 := by
      intro h
      have hkeys := s.slots.nodup_keys
      rw [← Std.TreeMap.map_fst_toList_eq_keys, hsplit, List.map_append, List.map_cons] at hkeys
      exact (List.nodup_append.1 hkeys).2.2 other.1 (List.mem_map_of_mem hother) entry.1
        List.mem_cons_self h
    exact .usedTwice hne (heq ▸ hused') hused
  · rw [hseen] at hmarked
    by_cases hfree : entry.2 ∈ s.free
    · exact .freeAndUsed hfree hused
    · apply Faulty.outOfRange (.inr ⟨entry.1, hused⟩)
      by_contra hlt
      rw [if_neg hfree, Array.getElem?_replicate, if_pos (Nat.not_le.1 hlt)] at hmarked
      exact hmarked rfl
  · exact .wrongOwner hused howner

/-- What both passes make of the marks: a slot has one exactly if it is free or a page is in it. -/
theorem marked_iff {seen seen' : Array Bool}
    (hseen : ∀ i, seen[i]? = if i ∈ s.free then some true
      else (Array.replicate s.numSlots false)[i]?)
    (hseen' : ∀ i, seen'[i]? = if i ∈ s.slots.toList.map Prod.snd then some true else seen[i]?)
    (slot : Nat) :
    seen'[slot]? = some false ↔
      slot < s.numSlots ∧ slot ∉ s.free ∧ ∀ id, s.lookup id ≠ some slot := by
  have hlisted : slot ∈ s.slots.toList.map Prod.snd ↔ ∃ id, s.lookup id = some slot := by
    rw [← s.values_slots, s.mem_values_iff]
  rw [hseen', hseen]
  by_cases hused : slot ∈ s.slots.toList.map Prod.snd
  · rw [if_pos hused]
    obtain ⟨id, hid⟩ := hlisted.1 hused
    exact ⟨fun h => (by cases h), fun h => absurd hid (h.2.2 id)⟩
  · rw [if_neg hused]
    rw [hlisted, not_exists] at hused
    by_cases hfree : slot ∈ s.free
    · rw [if_pos hfree]
      exact ⟨fun h => (by cases h), fun h => absurd hfree h.2.1⟩
    · rw [if_neg hfree, Array.getElem?_replicate]
      by_cases hlt : slot < s.numSlots
      · rw [if_pos hlt]
        exact ⟨fun _ => ⟨hlt, hfree, hused⟩, fun _ => rfl⟩
      · rw [if_neg hlt]
        exact ⟨fun h => (by cases h), fun h => absurd h.1 hlt⟩

/-- The first slot without a mark has none, and if there is no first one then there is none. -/
theorem findIdx?_unmarked (seen : Array Bool) :
    (∀ slot, seen.toList.findIdx? (· = false) = some slot → seen[slot]? = some false) ∧
      (seen.toList.findIdx? (· = false) = none → ∀ slot : Nat, seen[slot]? ≠ some false) := by
  constructor
  · intro slot hfind
    obtain ⟨hlt, hmark, -⟩ := List.findIdx?_eq_some_iff_getElem.1 hfind
    rw [← Array.getElem?_toList, List.getElem?_eq_getElem hlt, of_decide_eq_true hmark]
  · intro hfind slot hslot
    rw [← Array.getElem?_toList] at hslot
    have hmark := List.findIdx?_eq_none_iff.1 hfind false (List.mem_of_getElem? hslot)
    exact absurd hmark (by decide)

/-- The end of the audit, once both passes are made. -/
theorem audit_of_passes {seen seen' : Array Bool}
    (hfree : s.free.foldlM markSeen (Array.replicate s.numSlots false) = .ok seen)
    (hused : s.slots.toList.foldlM s.markUsed seen = .ok seen') :
    s.audit = match seen'.toList.findIdx? (· = false) with
      | some slot => .error (.swapTableCorrupt slot)
      | none =>
          if s.owners.size = s.slots.size then .ok ()
          else .error (.swapTableCorrupt (s.surplus.getD 0)) := by
  rw [audit, hfree]
  show (s.slots.toList.foldlM s.markUsed seen).bind _ = _
  rw [hused]
  rfl

/-- What is left to check after two passes that do not stop is that every slot has a mark and that
no owner is surplus. -/
theorem consistent_of_passes {seen : Array Bool}
    (hseen : ∀ i, seen[i]? = if i ∈ s.free then some true
      else (Array.replicate s.numSlots false)[i]?)
    (hfree : s.free.Nodup) (hrange : ∀ slot ∈ s.free, slot < s.numSlots)
    (hslots : (s.slots.toList.map Prod.snd).Nodup)
    (hnew : ∀ entry ∈ s.slots.toList, seen[entry.2]? = some false)
    (howner : ∀ entry ∈ s.slots.toList, s.owner entry.2 = some entry.1.pid)
    (hall : ∀ slot < s.numSlots, slot ∈ s.free ∨ ∃ id, s.lookup id = some slot)
    (hsurplus : s.surplus = none) : s.Consistent := by
  have hmem : ∀ id slot, s.lookup id = some slot → (id, slot) ∈ s.slots.toList :=
    fun id slot hid => Consistent.mem_toList_iff.2 hid
  -- a page is in a slot that the first pass has not marked, so the slot is in range and not free
  have hused : ∀ id slot, s.lookup id = some slot → slot ∉ s.free ∧ slot < s.numSlots := by
    intro id slot hid
    have hnot := hnew _ (hmem id slot hid)
    rw [hseen] at hnot
    split at hnot
    · cases hnot
    · rename_i hfree
      rw [Array.getElem?_replicate] at hnot
      split at hnot
      · rename_i hlt
        exact ⟨hfree, hlt⟩
      · cases hnot
  refine ⟨hfree, ?_, ?_, ?_, ?_⟩
  · intro slot
    constructor
    · exact hall slot
    · rintro (hslot | ⟨id, hid⟩)
      · exact hrange slot hslot
      · exact (hused id slot hid).2
  · intro slot id hslot hid
    exact (hused id slot hid).1 hslot
  · intro slot id id' hid hid'
    have heq := List.inj_on_of_nodup_map hslots (hmem id slot hid) (hmem id' slot hid') rfl
    exact congrArg Prod.fst heq
  · intro slot pid
    constructor
    · intro h
      -- the page that is in the slot is of the process that owns it
      obtain ⟨id, hid⟩ := s.surplus_eq_none_iff.1 hsurplus slot pid h
      have hpid : pid = id.pid := Option.some.inj (h.symm.trans (howner _ (hmem id slot hid)))
      subst hpid
      exact ⟨id.page, hid⟩
    · rintro ⟨page, hpage⟩
      exact howner _ (hmem _ slot hpage)

/-- The audit after the pass over the free list. -/
theorem audit_cases_of_free {seen : Array Bool}
    (hfirst : s.free.foldlM markSeen (Array.replicate s.numSlots false) = .ok seen)
    (hfree : s.free.Nodup) (hrange : ∀ slot ∈ s.free, slot < s.numSlots)
    (hseen : ∀ i, seen[i]? = if i ∈ s.free then some true
      else (Array.replicate s.numSlots false)[i]?) :
    (s.audit = .ok () ∧ s.Consistent) ∨
      ∃ slot, s.audit = .error (.swapTableCorrupt slot) ∧ s.Faulty slot := by
  generalize hsecond : s.slots.toList.foldlM s.markUsed seen = second
  have hpass := s.pass_used seen
  rw [hsecond] at hpass
  cases hpass with
  | @stopped before after entry hsplit hbad =>
      refine .inr ⟨entry.2, ?_, faulty_of_used hsplit hseen hbad⟩
      rw [audit, hfirst]
      show (s.slots.toList.foldlM s.markUsed seen).bind _ = _
      rw [hsecond]
      rfl
  | @passed seen' hslots hnew howner hmarked =>
      have hiff := marked_iff hseen hmarked
      obtain ⟨hfind, hnone⟩ := findIdx?_unmarked seen'
      rw [audit_of_passes hfirst hsecond]
      split
      · rename_i slot hslot
        obtain ⟨hlt, hfree, hunused⟩ := (hiff slot).1 (hfind slot hslot)
        exact .inr ⟨slot, rfl, .neither hlt hfree hunused⟩
      · rename_i hslot
        have hsize := s.owners_size_iff hslots fun id slot hid =>
          ⟨id.pid, howner (id, slot) (Consistent.mem_toList_iff.2 hid)⟩
        split
        · rename_i heq
          refine .inl ⟨rfl, consistent_of_passes hseen hfree hrange hslots hnew howner ?_
            (hsize.1 heq)⟩
          intro slot hlt
          by_contra h
          rw [not_or, not_exists] at h
          exact hnone hslot slot ((hiff slot).2 ⟨hlt, h.1, h.2⟩)
        · rename_i hne
          -- the sizes differ, so there is a surplus owner, and its slot is the one that is named
          obtain ⟨slot, hslot⟩ := Option.ne_none_iff_exists'.1 fun h => hne (hsize.2 h)
          obtain ⟨⟨pid, howner⟩, hunused⟩ := s.surplus_eq_some hslot
          exact .inr ⟨slot, by rw [hslot]; rfl, .surplusOwner howner hunused⟩

/-- The audit passes on a consistent area, or names a slot that is at fault. -/
theorem audit_cases (s : SwapArea σ) :
    (s.audit = .ok () ∧ s.Consistent) ∨
      ∃ slot, s.audit = .error (.swapTableCorrupt slot) ∧ s.Faulty slot := by
  generalize hfirst : s.free.foldlM markSeen (Array.replicate s.numSlots false) = first
  have hpass := s.pass_free (Array.replicate s.numSlots false)
  rw [hfirst] at hpass
  cases hpass with
  | @stopped before after slot hsplit hbad =>
      refine .inr ⟨slot, by rw [audit, hfirst]; rfl, faulty_of_free hsplit ?_⟩
      rcases hbad with hbefore | hseen | hgood
      · rw [List.map_id] at hbefore
        exact .inl hbefore
      · exact .inr hseen
      · exact absurd trivial hgood
  | @passed seen hfree hnew _ hmarked =>
      simp only [List.map_id] at hfree hmarked
      apply audit_cases_of_free hfirst hfree ?_ hmarked
      intro slot hslot
      have hlt := hnew slot hslot
      rw [id, Array.getElem?_replicate] at hlt
      split at hlt
      · assumption
      · cases hlt

/-- The audit is right about every swap area, reached or not. It passes exactly if the area is
consistent; if it fails, then it names a slot that is at fault. Where no slot is left unmarked and
the sizes of the two maps differ, there is a surplus owner, so the default that would stand in for
its slot is never used. -/
theorem audit_sound_complete (s : SwapArea σ) :
    (s.audit = .ok () ↔ s.Consistent) ∧
      (∀ cause, s.audit = .error cause → ∃ slot, cause = .swapTableCorrupt slot ∧ s.Faulty slot) ∧
      ∀ seen seen', s.free.foldlM markSeen (Array.replicate s.numSlots false) = .ok seen →
        s.slots.toList.foldlM s.markUsed seen = .ok seen' →
        seen'.toList.findIdx? (· = false) = none → s.owners.size ≠ s.slots.size →
          ∃ slot, s.surplus = some slot ∧ s.audit = .error (.swapTableCorrupt slot) := by
  refine ⟨?_, ?_, ?_⟩
  · rcases audit_cases s with ⟨haudit, hs⟩ | ⟨slot, haudit, hfault⟩
    · exact ⟨fun _ => hs, fun _ => haudit⟩
    · rw [haudit]
      exact ⟨fun h => (by cases h), fun hs => absurd hs hfault.not_consistent⟩
  · intro cause hcause
    rcases audit_cases s with ⟨haudit, -⟩ | ⟨slot, haudit, hfault⟩
    · rw [haudit] at hcause
      cases hcause
    · rw [haudit] at hcause
      cases hcause
      exact ⟨slot, rfl, hfault⟩
  · intro seen seen' hfree hused hmarked hne
    have hpass := s.pass_used seen
    rw [hused] at hpass
    cases hpass with
    | passed hslots _ howner _ =>
        have hsize := s.owners_size_iff hslots fun id slot hid =>
          ⟨id.pid, howner (id, slot) (Consistent.mem_toList_iff.2 hid)⟩
        obtain ⟨slot, hslot⟩ := Option.ne_none_iff_exists'.1 fun h => hne (hsize.2 h)
        refine ⟨slot, hslot, ?_⟩
        simp only [audit_of_passes hfree hused, hmarked, if_neg hne, hslot, Option.getD_some]

/-- Two free slots, and an owner for the second. -/
def ownedFree : SwapArea Unit :=
  { extent := (), pageSize := 4, numSlots := 2, free := [0, 1], slots := ∅,
    owners := Std.TreeMap.empty.insert 1 7 }

/-- Both passes accept the free list, every slot is marked, and the owner of slot 1 is found. -/
theorem audit_ownedFree : ownedFree.audit = .error (.swapTableCorrupt 1) ∧ ownedFree.Faulty 1 := by
  have hsurplus : ownedFree.surplus = some 1 := by decide +kernel
  obtain ⟨slot, hslot, haudit⟩ := (audit_sound_complete ownedFree).2.2 #[true, true] #[true, true]
    (by decide +kernel) (by decide +kernel) (by decide +kernel) (by decide +kernel)
  cases hsurplus.symm.trans hslot
  obtain ⟨slot', hcause, hfaulty⟩ := (audit_sound_complete ownedFree).2.1 _ haudit
  cases hcause
  exact ⟨haudit, hfaulty⟩

end DemandPaging.SwapArea
