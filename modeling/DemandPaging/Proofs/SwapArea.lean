import DemandPaging.Proofs.Extent
import DemandPaging.Proofs.Results
import DemandPaging.SwapArea
import Mathlib.Data.List.Nodup

/-!
# The swap area as a map from pages to bytes

`SwapArea.Consistent` says that every slot is either free or holds one page, and that the two maps
agree; the audit accepts every consistent area (`Consistent.audit_eq_ok`). On a reliable extent the
area is then a map from pages to their bytes, `saved?`: storing a page adds it, fetching and
releasing take pages out, and no operation touches the bytes of another page.
-/

namespace DemandPaging.SwapArea

variable {σ : Type}

/-- Every slot is free or holds one page, and the owner of a slot is the process of its page. -/
structure Consistent (s : SwapArea σ) : Prop where
  free_nodup : s.free.Nodup
  lt_numSlots_iff : ∀ slot, slot < s.numSlots ↔ slot ∈ s.free ∨ ∃ id, s.lookup id = some slot
  lookup_ne_of_free : ∀ slot id, slot ∈ s.free → s.lookup id ≠ some slot
  lookup_inj : ∀ slot id id', s.lookup id = some slot → s.lookup id' = some slot → id = id'
  owner_iff : ∀ slot pid, s.owner slot = some pid ↔ ∃ page, s.lookup ⟨pid, page⟩ = some slot

/-! ## The audit -/

/-- Marking distinct slots that were not seen yet marks exactly those. -/
theorem foldlM_markSeen {slots : List Nat} (hnodup : slots.Nodup) :
    ∀ seen : Array Bool, (∀ slot ∈ slots, seen[slot]? = some false) →
      ∃ seen', slots.foldlM markSeen seen = .ok seen' ∧
        ∀ i, seen'[i]? = if i ∈ slots then some true else seen[i]? := by
  induction slots with
  | nil => exact fun _ _ => ⟨_, rfl, fun i => by rw [if_neg List.not_mem_nil]⟩
  | cons slot rest ih =>
      intro seen hseen
      obtain ⟨hnot, hrest⟩ := List.nodup_cons.1 hnodup
      have hslot := hseen slot List.mem_cons_self
      have hlt : slot < seen.size := by
        by_contra h
        rw [Array.getElem?_eq_none (Nat.le_of_not_lt h)] at hslot
        cases hslot
      -- marking one slot leaves the marks of the others
      have hset : ∀ i, (seen.setIfInBounds slot true)[i]? =
          if i = slot then some true else seen[i]? := by
        intro i
        rw [Array.getElem?_setIfInBounds]
        by_cases hi : slot = i
        · subst hi
          rw [if_pos rfl, if_pos hlt, if_pos rfl]
        · rw [if_neg hi, if_neg (Ne.symm hi)]
      obtain ⟨seen', hfold, hseen'⟩ := ih hrest (seen.setIfInBounds slot true) (by
        intro i hi
        rw [hset, if_neg (by rintro rfl; exact hnot hi)]
        exact hseen i (List.mem_cons_of_mem _ hi))
      refine ⟨seen', ?_, ?_⟩
      · rw [List.foldlM_cons, markSeen, if_pos hslot]
        exact hfold
      · intro i
        rw [hseen', hset]
        by_cases hi : i = slot
        · subst hi
          rw [if_neg hnot, if_pos rfl, if_pos List.mem_cons_self]
        · simp only [List.mem_cons, hi, false_or, if_false]

/-- Where every page has its process as the owner of its slot, marking pages is marking slots. -/
theorem foldlM_markUsed (s : SwapArea σ) {pages : List (PageId × Nat)}
    (howner : ∀ entry ∈ pages, s.owner entry.2 = some entry.1.pid) (seen : Array Bool) :
    pages.foldlM s.markUsed seen = (pages.map Prod.snd).foldlM markSeen seen := by
  induction pages generalizing seen with
  | nil => rfl
  | cons entry rest ih =>
      have hmark : s.markUsed seen entry = markSeen seen entry.2 := by
        rw [markUsed]
        cases markSeen seen entry.2 with
        | error cause => rfl
        | ok seen' => exact if_pos (howner entry List.mem_cons_self)
      rw [List.map_cons, List.foldlM_cons, List.foldlM_cons, hmark]
      congr 1
      funext seen'
      exact ih (fun e he => howner e (List.mem_cons_of_mem _ he)) seen'

namespace Consistent

variable {s : SwapArea σ}

theorem mem_toList_iff {entry : PageId × Nat} :
    entry ∈ s.slots.toList ↔ s.lookup entry.1 = some entry.2 :=
  Std.TreeMap.mem_toList_iff_getElem?_eq_some

/-- No slot is listed for two pages. -/
theorem slots_nodup (h : s.Consistent) : (s.slots.toList.map Prod.snd).Nodup := by
  have hkeys : s.slots.toList.Nodup := by
    have := s.slots.nodup_keys
    rw [← Std.TreeMap.map_fst_toList_eq_keys] at this
    exact List.Nodup.of_map _ this
  refine List.Nodup.map_on ?_ hkeys
  rintro ⟨id, slot⟩ hx ⟨id', slot'⟩ hy heq
  obtain rfl : slot = slot' := heq
  rw [h.lookup_inj slot id id' (mem_toList_iff.1 hx) (mem_toList_iff.1 hy)]

/-- As many slots have an owner as pages have a slot. -/
theorem owners_size (h : s.Consistent) : s.owners.size = s.slots.size := by
  have hperm : s.owners.keys.Perm (s.slots.toList.map Prod.snd) := by
    refine (List.perm_ext_iff_of_nodup s.owners.nodup_keys h.slots_nodup).2 fun slot => ?_
    rw [Std.TreeMap.mem_keys, Std.TreeMap.mem_iff_isSome_getElem?, Option.isSome_iff_exists,
      List.mem_map]
    constructor
    · rintro ⟨pid, hpid⟩
      obtain ⟨page, hpage⟩ := (h.owner_iff slot pid).1 hpid
      exact ⟨(⟨pid, page⟩, slot), mem_toList_iff.2 hpage, rfl⟩
    · rintro ⟨⟨id, slot'⟩, hmem, rfl⟩
      exact ⟨id.pid, (h.owner_iff _ _).2 ⟨id.page, mem_toList_iff.1 hmem⟩⟩
  rw [← Std.TreeMap.length_keys, hperm.length_eq, List.length_map, Std.TreeMap.length_toList]

/-- The audit finds nothing wrong with a consistent area. -/
theorem audit_eq_ok (h : s.Consistent) : s.audit = .ok () := by
  -- the free slots are marked first, and no slot of a page is among them
  have hfree : ∀ slot ∈ s.free, (Array.replicate s.numSlots false)[slot]? = some false := by
    intro slot hslot
    rw [Array.getElem?_replicate, if_pos ((h.lt_numSlots_iff slot).2 (.inl hslot))]
  obtain ⟨seen, hseen, hmarked⟩ := foldlM_markSeen h.free_nodup _ hfree
  have hused : ∀ slot ∈ s.slots.toList.map Prod.snd, seen[slot]? = some false := by
    intro slot hslot
    obtain ⟨⟨id, slot'⟩, hmem, rfl⟩ := List.mem_map.1 hslot
    have hid := mem_toList_iff.1 hmem
    have hlt := (h.lt_numSlots_iff slot').2 (.inr ⟨id, hid⟩)
    rw [hmarked, if_neg fun hf => h.lookup_ne_of_free slot' id hf hid,
      Array.getElem?_replicate, if_pos hlt]
  obtain ⟨seen', hseen', hmarked'⟩ := foldlM_markSeen h.slots_nodup _ hused
  have hpages : s.slots.toList.foldlM s.markUsed seen = .ok seen' := by
    rw [foldlM_markUsed s _ seen, hseen']
    exact fun entry hentry => (h.owner_iff _ _).2 ⟨_, mem_toList_iff.1 hentry⟩
  -- every slot is free or has a page, so none is left without a mark
  have hall : seen'.toList.findIdx? (· = false) = none := by
    rw [List.findIdx?_eq_none_iff]
    intro b hb
    obtain ⟨i, hi⟩ := List.mem_iff_getElem?.1 hb
    rw [Array.getElem?_toList, hmarked', hmarked, Array.getElem?_replicate] at hi
    split at hi
    · cases hi; rfl
    · rename_i hnot
      split at hi
      · cases hi; rfl
      · rename_i hnot'
        split at hi
        · rename_i hlt
          rcases (h.lt_numSlots_iff i).1 hlt with hf | ⟨id, hid⟩
          · exact absurd hf hnot'
          · exact absurd (List.mem_map.2 ⟨(id, i), mem_toList_iff.2 hid, rfl⟩) hnot
        · cases hi
  rw [audit, hseen]
  show (s.slots.toList.foldlM s.markUsed seen).bind _ = _
  rw [hpages]
  simp only [Except.bind, hall]
  exact if_pos h.owners_size

/-! ## Slots change hands -/

variable {s' : SwapArea σ} {id : PageId} {slot : Nat}

/-- The first free slot is given to a page without one. -/
theorem claimed (h : s.Consistent) {rest : List Nat} (hfree : s.free = slot :: rest)
    (hid : s.lookup id = none) (hnum : s'.numSlots = s.numSlots) (hfree' : s'.free = rest)
    (hlookup : ∀ a i, s'.lookup a = some i ↔ a = id ∧ i = slot ∨ s.lookup a = some i)
    (howner : ∀ i pid, s'.owner i = some pid ↔ i = slot ∧ pid = id.pid ∨ s.owner i = some pid) :
    s'.Consistent := by
  have hmem : slot ∈ s.free := by rw [hfree]; exact List.mem_cons_self
  have hnodup := h.free_nodup
  rw [hfree, List.nodup_cons] at hnodup
  refine ⟨hfree' ▸ hnodup.2, fun i => ?_, fun i a hi ha => ?_, fun i a b ha hb => ?_,
    fun i pid => ?_⟩
  · rw [hnum, h.lt_numSlots_iff i, hfree', hfree, List.mem_cons]
    constructor
    · rintro ((rfl | hi) | ⟨a, ha⟩)
      · exact .inr ⟨id, (hlookup id i).2 (.inl ⟨rfl, rfl⟩)⟩
      · exact .inl hi
      · exact .inr ⟨a, (hlookup a i).2 (.inr ha)⟩
    · rintro (hi | ⟨a, ha⟩)
      · exact .inl (.inr hi)
      · rcases (hlookup a i).1 ha with ⟨-, rfl⟩ | ha
        · exact .inl (.inl rfl)
        · exact .inr ⟨a, ha⟩
  · rw [hfree'] at hi
    rcases (hlookup a i).1 ha with ⟨-, rfl⟩ | ha
    · exact hnodup.1 hi
    · exact h.lookup_ne_of_free i a (by rw [hfree]; exact List.mem_cons_of_mem _ hi) ha
  · -- nobody else has the slot, since it was free
    rcases (hlookup a i).1 ha with ⟨rfl, rfl⟩ | ha
    · rcases (hlookup b i).1 hb with ⟨rfl, -⟩ | hb
      · rfl
      · exact absurd hb (h.lookup_ne_of_free i b hmem)
    · rcases (hlookup b i).1 hb with ⟨-, rfl⟩ | hb
      · exact absurd ha (h.lookup_ne_of_free i a hmem)
      · exact h.lookup_inj i a b ha hb
  · rw [howner, h.owner_iff]
    constructor
    · rintro (⟨rfl, rfl⟩ | ⟨page, hpage⟩)
      · exact ⟨id.page, (hlookup id i).2 (.inl ⟨rfl, rfl⟩)⟩
      · exact ⟨page, (hlookup _ i).2 (.inr hpage)⟩
    · rintro ⟨page, hpage⟩
      rcases (hlookup _ i).1 hpage with ⟨rfl, rfl⟩ | hpage
      · exact .inl ⟨rfl, rfl⟩
      · exact .inr ⟨page, hpage⟩

/-- The slot of a page becomes free. -/
theorem freed (h : s.Consistent) (hid : s.lookup id = some slot) (hnum : s'.numSlots = s.numSlots)
    (hfree' : s'.free = s.free ++ [slot])
    (hlookup : ∀ a i, s'.lookup a = some i ↔ i ≠ slot ∧ s.lookup a = some i)
    (howner : ∀ i pid, s'.owner i = some pid ↔ i ≠ slot ∧ s.owner i = some pid) :
    s'.Consistent := by
  refine ⟨?_, fun i => ?_, fun i a hi ha => ?_, fun i a b ha hb => ?_, fun i pid => ?_⟩
  · rw [hfree']
    refine List.nodup_append.2 ⟨h.free_nodup, List.nodup_singleton slot, ?_⟩
    intro a ha b hb hab
    rw [List.mem_singleton] at hb
    subst hab hb
    exact h.lookup_ne_of_free _ id ha hid
  · rw [hnum, h.lt_numSlots_iff i, hfree', List.mem_append, List.mem_singleton]
    constructor
    · rintro (hi | ⟨a, ha⟩)
      · exact .inl (.inl hi)
      · by_cases hi : i = slot
        · exact .inl (.inr hi)
        · exact .inr ⟨a, (hlookup a i).2 ⟨hi, ha⟩⟩
    · rintro ((hi | rfl) | ⟨a, ha⟩)
      · exact .inl hi
      · exact .inr ⟨id, hid⟩
      · exact .inr ⟨a, ((hlookup a i).1 ha).2⟩
  · obtain ⟨hne, ha⟩ := (hlookup a i).1 ha
    rw [hfree', List.mem_append, List.mem_singleton] at hi
    rcases hi with hi | hi
    · exact h.lookup_ne_of_free i a hi ha
    · exact hne hi
  · exact h.lookup_inj i a b ((hlookup a i).1 ha).2 ((hlookup b i).1 hb).2
  · rw [howner, h.owner_iff]
    constructor
    · rintro ⟨hne, page, hpage⟩
      exact ⟨page, (hlookup _ i).2 ⟨hne, hpage⟩⟩
    · rintro ⟨page, hpage⟩
      obtain ⟨hne, hpage⟩ := (hlookup _ i).1 hpage
      exact ⟨hne, page, hpage⟩

end Consistent

/-- The area after its next free slot was given to a page and the page written there. -/
def claim (s : SwapArea σ) (extent : σ) (id : PageId) (slot : Nat) (rest : List Nat) : SwapArea σ :=
  { s with
    extent
    free := rest
    slots := s.slots.insert id slot
    owners := s.owners.insert slot id.pid }

section Claim

variable (s : SwapArea σ) (extent : σ) (id : PageId) (slot : Nat) (rest : List Nat)

theorem lookup_claim (id' : PageId) :
    (s.claim extent id slot rest).lookup id' = if id' = id then some slot else s.lookup id' := by
  show (s.slots.insert id slot)[id']? = _
  rw [Std.TreeMap.getElem?_insert]
  simp only [Std.LawfulEqOrd.compare_eq_iff_eq, eq_comm (a := id)]
  rfl

theorem owner_claim (i : Nat) :
    (s.claim extent id slot rest).owner i = if i = slot then some id.pid else s.owner i := by
  show (s.owners.insert slot id.pid)[i]? = _
  rw [Std.TreeMap.getElem?_insert]
  simp only [Std.LawfulEqOrd.compare_eq_iff_eq, eq_comm (a := slot)]
  rfl

/-- A page is taken out of its slot, and no other one. -/
theorem lookup_vacate (id' : PageId) :
    (s.vacate id slot).lookup id' = if id' = id then none else s.lookup id' := by
  show (s.slots.erase id)[id']? = _
  rw [Std.TreeMap.getElem?_erase]
  simp only [Std.LawfulEqOrd.compare_eq_iff_eq, eq_comm (a := id)]
  rfl

theorem owner_vacate (i : Nat) :
    (s.vacate id slot).owner i = if i = slot then none else s.owner i := by
  show (s.owners.erase slot)[i]? = _
  rw [Std.TreeMap.getElem?_erase]
  simp only [Std.LawfulEqOrd.compare_eq_iff_eq, eq_comm (a := slot)]
  rfl

end Claim

namespace Consistent

variable {s : SwapArea σ} {id : PageId} {slot : Nat}

theorem claim (h : s.Consistent) {rest : List Nat} (hfree : s.free = slot :: rest)
    (hid : s.lookup id = none) (extent : σ) : (s.claim extent id slot rest).Consistent := by
  have hmem : slot ∈ s.free := by rw [hfree]; exact List.mem_cons_self
  refine h.claimed hfree hid rfl rfl (fun a i => ?_) (fun i pid => ?_)
  · rw [lookup_claim]
    split
    · rename_i ha
      simp [ha, hid, eq_comm]
    · rename_i ha
      simp [ha]
  · rw [owner_claim]
    split
    · rename_i hi
      -- a free slot has no owner
      have hnone : s.owner slot ≠ some pid := by
        rw [Ne, h.owner_iff]
        rintro ⟨page, hpage⟩
        exact h.lookup_ne_of_free slot _ hmem hpage
      simp [hi, hnone, eq_comm]
    · rename_i hi
      simp [hi]

theorem vacate (h : s.Consistent) (hid : s.lookup id = some slot) :
    (s.vacate id slot).Consistent := by
  refine h.freed hid rfl rfl (fun a i => ?_) (fun i pid => ?_)
  · rw [lookup_vacate]
    split
    · rename_i ha
      simp [ha, hid, eq_comm]
    · rename_i ha
      refine ⟨fun hi => ⟨?_, hi⟩, fun hi => hi.2⟩
      rintro rfl
      exact ha (h.lookup_inj i a id hi hid)
  · rw [owner_vacate]
    split
    · rename_i hi
      simp [hi]
    · rename_i hi
      simp [hi]

/-- Reading and writing an extent changes nothing about whose page is where. -/
theorem withExtent (h : s.Consistent) (extent : σ) : Consistent { s with extent } :=
  ⟨h.free_nodup, h.lt_numSlots_iff, h.lookup_ne_of_free, h.lookup_inj, h.owner_iff⟩

/-- Taking listed pages out of their slots, one after the other. -/
theorem foldl_vacate (pages : List (PageId × Nat)) :
    ∀ {s : SwapArea σ}, s.Consistent → (pages.map Prod.fst).Nodup →
      (∀ entry ∈ pages, s.lookup entry.1 = some entry.2) →
      ∃ s', pages.foldl (fun s entry => s.vacate entry.1 entry.2) s = s' ∧ s'.Consistent ∧
        s'.extent = s.extent ∧ s'.pageSize = s.pageSize ∧ s'.numSlots = s.numSlots ∧
        s'.free = s.free ++ pages.map Prod.snd ∧
        ∀ id', s'.lookup id' = if id' ∈ pages.map Prod.fst then none else s.lookup id' := by
  induction pages with
  | nil =>
      intro s h _ _
      refine ⟨s, rfl, h, rfl, rfl, rfl, (List.append_nil _).symm, fun id' => ?_⟩
      rw [List.map_nil, if_neg List.not_mem_nil]
  | cons entry rest ih =>
      intro s h hnodup hlookup
      rw [List.map_cons, List.nodup_cons] at hnodup
      have hvacated := h.vacate (hlookup entry List.mem_cons_self)
      -- the pages are different, so the others are still in their slots
      have hrest : ∀ e ∈ rest, (s.vacate entry.1 entry.2).lookup e.1 = some e.2 := by
        intro e he
        rw [lookup_vacate, if_neg, hlookup e (List.mem_cons_of_mem _ he)]
        intro heq
        exact hnodup.1 (heq ▸ List.mem_map_of_mem he)
      obtain ⟨s', hfold, hconsistent, hextent, hsize, hnum, hfree, hlookup'⟩ :=
        ih hvacated hnodup.2 hrest
      refine ⟨s', hfold, hconsistent, hextent, hsize, hnum, ?_, fun id' => ?_⟩
      · rw [hfree, List.map_cons]
        exact List.append_assoc s.free [entry.2] _
      · rw [hlookup', lookup_vacate, List.map_cons]
        by_cases hid' : id' = entry.1
        · have hin : id' ∈ entry.1 :: rest.map Prod.fst := by rw [hid']; exact List.mem_cons_self
          rw [if_pos hid', ite_self, if_pos hin]
        · simp only [List.mem_cons, hid', false_or, if_false]

theorem mem_pagesOf_iff {pid : Pid} {entry : PageId × Nat} :
    entry ∈ s.pagesOf pid ↔ s.lookup entry.1 = some entry.2 ∧ entry.1.pid = pid := by
  rw [pagesOf, List.mem_filter, mem_toList_iff, decide_eq_true_iff]

/-- A process that gives its slots back has no page in a slot any more; the others keep their slots,
and nothing is written. -/
theorem releaseAll (h : s.Consistent) (pid : Pid) :
    (s.releaseAll pid).2.Consistent ∧ (s.releaseAll pid).2.extent = s.extent ∧
      (s.releaseAll pid).2.pageSize = s.pageSize ∧ (s.releaseAll pid).2.numSlots = s.numSlots ∧
      (s.releaseAll pid).2.free = s.free ++ (s.pagesOf pid).map Prod.snd ∧
      ∀ id', (s.releaseAll pid).2.lookup id' =
        if id'.pid = pid then none else s.lookup id' := by
  have hnodup : ((s.pagesOf pid).map Prod.fst).Nodup := by
    have hkeys := s.slots.nodup_keys
    rw [← Std.TreeMap.map_fst_toList_eq_keys] at hkeys
    exact hkeys.sublist (List.filter_sublist.map Prod.fst)
  obtain ⟨s', hfold, hconsistent, hextent, hsize, hnum, hfree, hlookup⟩ :=
    foldl_vacate (s.pagesOf pid) h hnodup fun entry hentry => (mem_pagesOf_iff.1 hentry).1
  have hrelease : (s.releaseAll pid).2 = s' := hfold
  rw [hrelease]
  refine ⟨hconsistent, hextent, hsize, hnum, hfree, fun id' => (hlookup id').trans ?_⟩
  by_cases hpid : id'.pid = pid
  · rw [if_pos hpid]
    cases hl : s.lookup id' with
    | none => rw [ite_self]
    | some slot =>
        rw [if_pos]
        exact List.mem_map.2 ⟨(id', slot), mem_pagesOf_iff.2 ⟨hl, hpid⟩, rfl⟩
  · rw [if_neg hpid, if_neg]
    rintro hin
    obtain ⟨entry, hentry, rfl⟩ := List.mem_map.1 hin
    exact hpid (mem_pagesOf_iff.1 hentry).2

end Consistent

@[simp] theorem lookup_unused (extent : σ) (pageSize numSlots : Nat) (id : PageId) :
    (unused extent pageSize numSlots).lookup id = none := Std.TreeMap.getElem?_emptyc

@[simp] theorem owner_unused (extent : σ) (pageSize numSlots slot : Nat) :
    (unused extent pageSize numSlots).owner slot = none := Std.TreeMap.getElem?_emptyc

/-- Where no slot is in use, all of them are free. -/
theorem unused_consistent (extent : σ) (pageSize numSlots : Nat) :
    (unused extent pageSize numSlots).Consistent := by
  refine ⟨List.nodup_range, fun slot => ?_, by simp, by simp, by simp⟩
  show slot < numSlots ↔ slot ∈ List.range numSlots ∨ _
  simp [List.mem_range]

section Creation

variable [Extent σ] {extent : σ} {pageSize : Nat} {s : SwapArea σ}

/-- An area that has just been created is not in use. -/
theorem eq_of_create (h : create extent pageSize = .ok s) :
    s = unused extent pageSize (Extent.length extent / pageSize) := by
  rw [create] at h
  split at h
  · cases h
  · obtain ⟨-, -, rfl⟩ := ok_of_map h
    rfl

/-- An area is created, unless the host has no block of memory for the numbers of its slots. -/
theorem create_outcome (extent : σ) {pageSize : Nat} (hsize : pageSize ≠ 0) :
    (∃ s, create extent pageSize = .ok s) ∨ create extent pageSize = .error .blockTooLarge ∧
      Address.maxBlock < Extent.length extent / pageSize * slotNumberBytes := by
  rw [create, if_neg hsize, Address.refuseBlock]
  by_cases hblock : Extent.length extent / pageSize * slotNumberBytes ≤ Address.maxBlock
  · rw [if_pos hblock]
    exact .inl ⟨_, rfl⟩
  · rw [if_neg hblock]
    exact .inr ⟨rfl, Nat.lt_of_not_le hblock⟩

/-- A fresh area has every slot free. -/
theorem create_consistent (h : create extent pageSize = .ok s) :
    s.Consistent ∧ s.extent = extent ∧ s.pageSize = pageSize ∧
      s.numSlots = Extent.length extent / pageSize ∧ ∀ id, s.lookup id = none := by
  obtain rfl := eq_of_create h
  exact ⟨unused_consistent .., rfl, rfl, rfl, fun _ => lookup_unused ..⟩

end Creation

/-! ## The map from pages to bytes -/

variable [Extent σ] [Extent.Reliable σ]

/-- The bytes in a slot. -/
def bytesAt (s : SwapArea σ) (slot : Nat) : List UInt8 :=
  ((Extent.Reliable.content s.extent).drop (slot * s.pageSize)).take s.pageSize

/-- The bytes that a page was swapped out with. -/
def saved? (s : SwapArea σ) (id : PageId) : Option (List UInt8) := (s.lookup id).map s.bytesAt

/-- The area is consistent, and its extent is reliable and has room for all slots. -/
structure Sound (s : SwapArea σ) : Prop extends s.Consistent where
  intact : Extent.Reliable.Intact s.extent
  slots_fit : s.numSlots * s.pageSize ≤ Extent.length s.extent

theorem saved?_eq_none_iff {s : SwapArea σ} {id : PageId} :
    s.saved? id = none ↔ s.lookup id = none := Option.map_eq_none_iff

/-- A slot ends before the next one begins. -/
theorem slot_end_le {i j : Nat} (size : Nat) (h : i < j) : i * size + size ≤ j * size := by
  rw [← Nat.succ_mul]
  exact Nat.mul_le_mul_right size h

/-- Writing one slot gives it the new bytes and leaves the others as they are. -/
theorem slot_patch {bytes data : List UInt8} {size slot : Nat} (hdata : data.length = size)
    (hfit : slot * size + size ≤ bytes.length) (i : Nat) :
    ((Extent.patch bytes (slot * size) data).drop (i * size)).take size =
      if i = slot then data else (bytes.drop (i * size)).take size := by
  apply List.ext_getElem?
  intro j
  by_cases hj : j < size
  · rw [List.getElem?_take_of_lt hj, List.getElem?_drop,
      Extent.getElem?_patch (by rw [hdata]; exact hfit)]
    -- a slot ends before the next one begins, so a patch of one is none of another
    rcases Nat.lt_trichotomy i slot with h | h | h
    · have := slot_end_le size h
      rw [if_neg (by omega), if_neg (by omega), List.getElem?_take_of_lt hj, List.getElem?_drop]
    · subst h
      rw [if_pos (by omega), if_pos rfl, Nat.add_sub_cancel_left]
    · have := slot_end_le size h
      rw [if_neg (by omega), if_neg (by omega), List.getElem?_take_of_lt hj, List.getElem?_drop]
  · rw [List.getElem?_eq_none (by rw [List.length_take]; omega)]
    by_cases h : i = slot
    · rw [if_pos h, List.getElem?_eq_none (by omega)]
    · rw [if_neg h, List.getElem?_eq_none (by rw [List.length_take]; omega)]

/-- A fresh area has every slot free and holds no page. -/
theorem create_sound {extent : σ} {pageSize : Nat} (hintact : Extent.Reliable.Intact extent)
    {s : SwapArea σ} (h : create extent pageSize = .ok s) :
    s.Sound ∧ s.pageSize = pageSize ∧ ∀ id, s.lookup id = none := by
  obtain ⟨hconsistent, hextent, hsize, hnum, hlookup⟩ := create_consistent h
  refine ⟨⟨hconsistent, hextent ▸ hintact, ?_⟩, hsize, hlookup⟩
  rw [hnum, hsize, hextent]
  exact Nat.div_mul_le_self _ _

namespace Sound

variable {s : SwapArea σ} {id : PageId} {data : List UInt8}

theorem slot_fits (h : s.Sound) {slot : Nat} (hslot : slot < s.numSlots) :
    slot * s.pageSize + s.pageSize ≤ Extent.length s.extent :=
  Nat.le_trans (slot_end_le _ hslot) h.slots_fit

/-- A saved page is a whole page. -/
theorem length_saved (h : s.Sound) (hsaved : s.saved? id = some data) :
    data.length = s.pageSize := by
  obtain ⟨slot, hid, rfl⟩ := Option.map_eq_some_iff.1 hsaved
  have hfit := h.slot_fits ((h.lt_numSlots_iff slot).2 (.inr ⟨id, hid⟩))
  rw [← Extent.Reliable.length_content h.intact] at hfit
  rw [bytesAt, List.length_take, List.length_drop]
  omega

omit [Extent.Reliable σ] in
/-- Without a free slot a page cannot be stored, and nothing changes. -/
theorem store_exhausted (hfree : s.free = []) (hid : s.lookup id = none)
    (hdata : data.length = s.pageSize) : s.store id data = .ok (.error .swapExhausted, s) := by
  rw [store, if_neg (not_not.2 hdata), hid, hfree]

omit [Extent.Reliable σ] in
/-- With a free slot there is a place for every page. -/
theorem store_ne_exhausted (hfree : s.free ≠ []) (swap : SwapArea σ) :
    s.store id data ≠ .ok (.error .swapExhausted, swap) := by
  obtain ⟨slot, free, hfree⟩ := List.exists_cons_of_ne_nil hfree
  intro hstore
  rw [store, hfree] at hstore
  split at hstore
  · cases hstore
  · split at hstore
    · cases hstore
    · -- the page is written into the slot, or the write fails
      split at hstore
      · rename_i hnil
        cases hnil
      · split at hstore <;> cases hstore

/-- A page without a slot is stored in the first free one, and every other page stays saved. -/
theorem store_claim (h : s.Sound) {slot : Nat} {rest : List Nat} (hfree : s.free = slot :: rest)
    (hid : s.lookup id = none) (hdata : data.length = s.pageSize) :
    ∃ extent, s.store id data = .ok (.ok slot, s.claim extent id slot rest) ∧
      (s.claim extent id slot rest).Sound ∧ ∀ id', (s.claim extent id slot rest).saved? id' =
        if id' = id then some data else s.saved? id' := by
  have hmem : slot ∈ s.free := by rw [hfree]; exact List.mem_cons_self
  have hlt : slot < s.numSlots := (h.lt_numSlots_iff slot).2 (.inl hmem)
  have hfit := h.slot_fits hlt
  obtain ⟨extent, hwrite, hintact, hcontent⟩ :=
    Extent.Reliable.write_intact h.intact
      (show slot * s.pageSize + data.length ≤ Extent.length s.extent by rw [hdata]; exact hfit)
  have hlen : Extent.length extent = Extent.length s.extent := by
    rw [← Extent.Reliable.length_content hintact, ← Extent.Reliable.length_content h.intact,
      hcontent, Extent.length_patch]
    rw [hdata, Extent.Reliable.length_content h.intact]
    exact hfit
  refine ⟨extent, ?_, ⟨h.toConsistent.claim hfree hid extent, hintact, hlen ▸ h.slots_fit⟩,
    fun id' => ?_⟩
  · rw [store, if_neg (not_not.2 hdata), hid, hfree]
    simp only [hwrite]
    rfl
  · have hbytes : ∀ i, ((Extent.Reliable.content extent).drop (i * s.pageSize)).take s.pageSize =
        if i = slot then data else s.bytesAt i := by
      intro i
      rw [hcontent, slot_patch hdata (by rw [Extent.Reliable.length_content h.intact]; exact hfit)]
      rfl
    rw [saved?, lookup_claim]
    by_cases hid' : id' = id
    · rw [if_pos hid', if_pos hid', Option.map_some]
      exact congrArg some ((hbytes slot).trans (if_pos rfl))
    · rw [if_neg hid', if_neg hid', saved?]
      cases hl : s.lookup id' with
      | none => rfl
      | some i =>
          refine congrArg some ((hbytes i).trans (if_neg ?_))
          rintro rfl
          exact h.lookup_ne_of_free i id' hmem hl

/-- A page without a slot can be stored. -/
theorem store_eq (h : s.Sound) {slot : Nat} {rest : List Nat} (hfree : s.free = slot :: rest)
    (hid : s.lookup id = none) (hdata : data.length = s.pageSize) :
    ∃ s', s.store id data = .ok (.ok slot, s') ∧ s'.Sound ∧ s'.pageSize = s.pageSize ∧
      s'.free = rest ∧ ∀ id', s'.saved? id' = if id' = id then some data else s.saved? id' := by
  obtain ⟨extent, hstore, hsound, hsaved⟩ := h.store_claim hfree hid hdata
  exact ⟨_, hstore, hsound, rfl, rfl, hsaved⟩

/-- A page taken out of its slot leaves the slot free and every other page saved. -/
theorem vacate_sound (h : s.Sound) {slot : Nat} (hid : s.lookup id = some slot) :
    (s.vacate id slot).Sound ∧
      ∀ id', (s.vacate id slot).saved? id' = if id' = id then none else s.saved? id' := by
  refine ⟨⟨h.toConsistent.vacate hid, h.intact, h.slots_fit⟩, fun id' => ?_⟩
  rw [saved?, lookup_vacate]
  split
  · rfl
  · rfl

/-- A page is fetched from its slot with the bytes it was stored with, and every other page stays
saved. -/
theorem fetch_vacate (h : s.Sound) {slot frameSize : Nat} {bytes : List UInt8}
    (hid : s.lookup id = some slot) (hsaved : s.saved? id = some bytes)
    (hsize : frameSize = s.pageSize) :
    ∃ extent, s.fetch id slot frameSize = .ok (.ok bytes, { s with extent }.vacate id slot) ∧
      ({ s with extent }.vacate id slot).Sound ∧ ∀ id',
        ({ s with extent }.vacate id slot).saved? id' =
          if id' = id then none else s.saved? id' := by
  have hlt : slot < s.numSlots := (h.lt_numSlots_iff slot).2 (.inr ⟨id, hid⟩)
  have howner : s.owner slot = some id.pid := (h.owner_iff slot id.pid).2 ⟨id.page, hid⟩
  obtain ⟨extent, hread, hintact, hcontent⟩ :=
    Extent.Reliable.read_intact h.intact (h.slot_fits hlt)
  have hbytes : bytes = s.bytesAt slot := by
    rw [saved?, hid] at hsaved
    exact (Option.some.inj hsaved).symm
  have hlen : Extent.length extent = Extent.length s.extent := by
    rw [← Extent.Reliable.length_content hintact, ← Extent.Reliable.length_content h.intact,
      hcontent]
  -- reading changes the device's state and none of its bytes
  have hsound : Sound { s with extent } :=
    ⟨h.toConsistent.withExtent extent, hintact, by
      show _ ≤ Extent.length extent
      rw [hlen]
      exact h.slots_fit⟩
  have hsame : ∀ id', saved? { s with extent } id' = s.saved? id' := by
    intro id'
    show (s.lookup id').map _ = _
    rw [saved?]
    congr 1
    funext i
    show ((Extent.Reliable.content extent).drop _).take _ = _
    rw [hcontent]
    rfl
  obtain ⟨hvacated, hsaved'⟩ := hsound.vacate_sound (show SwapArea.lookup _ id = some slot from hid)
  refine ⟨extent, ?_, hvacated, fun id' => by rw [hsaved', hsame]⟩
  rw [fetch, if_neg (not_not.2 hsize), if_pos ⟨howner, hid⟩, hread, hbytes]
  rfl

/-- A page can be fetched from its slot. -/
theorem fetch_eq (h : s.Sound) {slot frameSize : Nat} {bytes : List UInt8}
    (hid : s.lookup id = some slot) (hsaved : s.saved? id = some bytes)
    (hsize : frameSize = s.pageSize) :
    ∃ s', s.fetch id slot frameSize = .ok (.ok bytes, s') ∧ s'.Sound ∧ s'.pageSize = s.pageSize ∧
      s'.free = s.free ++ [slot] ∧
      ∀ id', s'.saved? id' = if id' = id then none else s.saved? id' := by
  obtain ⟨extent, hfetch, hsound, hsaved'⟩ := h.fetch_vacate hid hsaved hsize
  exact ⟨_, hfetch, hsound, rfl, rfl, hsaved'⟩

/-- A process that gives its slots back has no page in a slot any more; the others keep their slots,
and nothing is written. -/
theorem releaseAll_sound (h : s.Sound) (pid : Pid) :
    (s.releaseAll pid).2.Sound ∧ (s.releaseAll pid).2.extent = s.extent ∧
      (s.releaseAll pid).2.pageSize = s.pageSize ∧
      ∀ id', (s.releaseAll pid).2.lookup id' =
        if id'.pid = pid then none else s.lookup id' := by
  obtain ⟨hconsistent, hextent, hsize, hnum, -, hlookup⟩ := h.toConsistent.releaseAll pid
  refine ⟨⟨hconsistent, hextent ▸ h.intact, ?_⟩, hextent, hsize, hlookup⟩
  rw [hnum, hsize, hextent]
  exact h.slots_fit

end Sound

end DemandPaging.SwapArea
