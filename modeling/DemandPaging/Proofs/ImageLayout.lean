import DemandPaging.Proofs.Image
import DemandPaging.WordArithmetic
import Mathlib.Algebra.Group.Nat.Defs

/-!
# Which lists of sections are images

A list of sections is laid out if every section ends in the address space, holds no more data than
its pages, and shares no page with another one (`LaidOut`). The order of the list does not matter
for that. Sections of an image are laid out, and the bytes that the pages of each can hold fit a
word; the other way round such a list is an image, unless a section without pages begins strictly
inside another one (`ofSections_accepts`). The checks compare the ends of runs and not their pages,
which comes to the same for runs that have pages (`overlaps_iff`), and never overflow a word
(`layoutFault?_eq`): an end is formed only once the section is known to end in the address space.
-/

namespace DemandPaging

open Checked

/-! ## Runs of pages -/

namespace PageRun

variable {s t : PageRun}

theorem overlaps_comm (s t : PageRun) : s.overlaps t = t.overlaps s :=
  Bool.and_comm _ _

/-- A run without pages begins strictly inside another one. -/
def Splits (s t : PageRun) : Prop :=
  s.numPages = 0 ∧ t.firstPage < s.firstPage ∧ s.firstPage < t.endPage

/-- Two runs overlap if they have a page in common, or if one of them is without pages and begins
strictly inside the other. -/
theorem overlaps_iff : s.overlaps t = true ↔
    (∃ page, s.contains page = true ∧ t.contains page = true) ∨ s.Splits t ∨ t.Splits s := by
  rw [overlaps_iff_lt]
  simp only [contains_iff, Splits, endPage]
  constructor
  · rintro ⟨hts, hst⟩
    by_cases hs : s.numPages = 0
    · exact .inr (.inl ⟨hs, by omega, hst⟩)
    · by_cases ht : t.numPages = 0
      · exact .inr (.inr ⟨ht, by omega, hts⟩)
      · -- the later of the two first pages is in both
        exact .inl ⟨max s.firstPage t.firstPage, by omega, by omega⟩
  · rintro (⟨page, hs, ht⟩ | h | h)
    · omega
    · omega
    · omega

end PageRun

namespace Image

variable {pageSize : Nat} {sections : List Section}

/-! ## What the checks ask of a list of sections -/

/-- Every section ends in the address space and holds no more data than its pages, its data have
fewer than `2 ^ 32` bytes, and no page is in two sections. -/
structure LaidOut (pageSize : Nat) (sections : List Section) : Prop where
  inRange : ∀ s ∈ sections, s.endPage ≤ Address.maxPageNumber + 1
  data_le : ∀ s ∈ sections, s.data.length ≤ s.numPages * pageSize
  data_lt : ∀ s ∈ sections, s.data.length < UInt32.size
  apart : sections.Pairwise fun s t => ∀ page, ¬ (s.contains page = true ∧ t.contains page = true)

/-- The bytes that the pages of each section can hold fit a word. -/
def PagesFitWord (pageSize : Nat) (sections : List Section) : Prop :=
  ∀ s ∈ sections, s.numPages * pageSize < UInt64.size

/-- A list without a fault is made an image, and no other list. -/
theorem ofSections_eq_error_iff {fault : ImageError} :
    ofSections pageSize sections = .error fault ↔ layoutFault pageSize sections = some fault := by
  rw [ofSections]
  split
  · rename_i h
    simp only [h, reduceCtorEq]
  · rename_i fault' h
    simp only [h]
    constructor
    · rintro ⟨rfl⟩
      rfl
    · rintro ⟨rfl⟩
      rfl

theorem exists_ofSections_iff : (∃ image, ofSections pageSize sections = .ok image) ↔
    layoutFault pageSize sections = none := by
  constructor
  · rintro ⟨image, h⟩
    obtain ⟨rfl, rfl⟩ := ofSections_eq_ok_iff.1 h
    exact image.sound
  · intro h
    exact ⟨⟨sections, pageSize, h⟩, ofSections_eq_ok_iff.2 ⟨rfl, rfl⟩⟩

/-! ## The order of the sections -/

/-- The checks pass on a list in any order. -/
theorem layoutFault_eq_none_of_perm {sections' : List Section} (hperm : sections'.Perm sections)
    (h : layoutFault pageSize sections = none) : layoutFault pageSize sections' = none := by
  obtain ⟨hfits, hapart, hlength⟩ := layoutFault_eq_none_iff.1 h
  apply layoutFault_eq_none_iff.2
  refine ⟨?_, ?_, ?_⟩
  · intro s hs
    exact hfits s (hperm.mem_iff.1 hs)
  · refine hperm.symm.pairwise hapart ?_
    intro s t hst
    rw [PageRun.overlaps_comm]
    exact hst
  · rw [hperm.length_eq]
    exact hlength

/-! ## The overlap that is reported -/

theorem firstFault_eq_overlap {sections : List Section} {first second : Nat} :
    ∀ {earlier : List Section},
      firstFault pageSize earlier sections = some (.overlap first second) →
      ∃ s t, (earlier ++ sections)[first]? = some s ∧ (earlier ++ sections)[second]? = some t ∧
        first < second ∧ t.overlaps s.toPageRun = true := by
  induction sections with
  | nil =>
      intro earlier h
      cases h
  | cons t rest ih =>
      intro earlier h
      rw [firstFault] at h
      cases hfault : sectionFault pageSize earlier t with
      | none =>
          rw [hfault] at h
          obtain ⟨s, t', hs, ht', hlt, hover⟩ := ih h
          rw [List.append_assoc, List.singleton_append] at hs ht'
          exact ⟨s, t', hs, ht', hlt, hover⟩
      | some fault =>
          rw [hfault] at h
          cases h
          -- the section at fault comes right after the earlier ones
          rw [sectionFault] at hfault
          split at hfault
          · cases hfault
          · split at hfault
            · cases hfault
            · obtain ⟨place, hplace, heq⟩ := Option.map_eq_some_iff.1 hfault
              cases heq
              obtain ⟨hlt, hover, -⟩ := List.findIdx?_eq_some_iff_getElem.1 hplace
              refine ⟨earlier[first], t, ?_, ?_, hlt, hover⟩
              · rw [List.getElem?_append_left hlt, List.getElem?_eq_getElem hlt]
              · rw [List.getElem?_append_right (Nat.le_refl _), Nat.sub_self]
                rfl

theorem layoutFault_eq_overlap {first second : Nat}
    (h : layoutFault pageSize sections = some (.overlap first second)) :
    ∃ s t, sections[first]? = some s ∧ sections[second]? = some t ∧ first < second ∧
      t.overlaps s.toPageRun = true := by
  rw [layoutFault] at h
  cases hfirst : firstFault pageSize [] sections with
  | some fault =>
      rw [hfirst] at h
      cases h
      exact firstFault_eq_overlap hfirst
  | none =>
      rw [hfirst] at h
      simp only [Option.ite_none_right_eq_some, Option.some.injEq, reduceCtorEq, and_false] at h

/-! ## The checks in words -/

/-- Whether each of two runs starts before the other ends. The second end is formed only if it is
needed. -/
def overlaps? (s t : PageRun) : Option Bool := do
  if t.firstPage < (← sum? s.firstPage s.numPages) then
    some (s.firstPage < (← sum? t.firstPage t.numPages))
  else some false

/-- The place of the first of some sections that a section overlaps. -/
def overlapped? (s : Section) : List Section → Option (Option Nat)
  | [] => some none
  | t :: rest => do
      if ← overlaps? s.toPageRun t.toPageRun then some (some 0)
      else some ((← overlapped? s rest).map (· + 1))

/-- What is wrong with a section that comes after the sections `earlier`, computed in words. -/
def sectionFault? (pageSize : Nat) (earlier : List Section) (s : Section) :
    Option (Option ImageError) :=
  if Address.maxPageNumber + 1 < saturatingSum s.firstPage s.numPages then
    some (some (.tooLarge earlier.length))
  else if ((product? s.numPages pageSize).all fun capacity => capacity < s.data.length) ∨
      UInt32.size ≤ s.data.length then
    some (some (.dataTooLong earlier.length))
  else do
    some ((← overlapped? s earlier).map fun first => .overlap first earlier.length)

/-- What is wrong with the first faulty section, computed in words. -/
def firstFault? (pageSize : Nat) (earlier : List Section) :
    List Section → Option (Option ImageError)
  | [] => some none
  | s :: rest => do
      match ← sectionFault? pageSize earlier s with
      | some fault => some (some fault)
      | none => firstFault? pageSize (earlier ++ [s]) rest

/-- What keeps a list of sections from being an image, computed in words. -/
def layoutFault? (pageSize : Nat) (sections : List Section) : Option (Option ImageError) := do
  match ← firstFault? pageSize [] sections with
  | some fault => some (some fault)
  | none => some (if UInt16.size ≤ sections.length then some .malformed else none)

theorem overlaps?_eq {s t : PageRun} (hs : s.endPage ≤ Address.maxPageNumber + 1)
    (ht : t.endPage ≤ Address.maxPageNumber + 1) : overlaps? s t = some (s.overlaps t) := by
  have hword : Address.maxPageNumber + 1 < UInt64.size := by decide
  have hend : sum? s.firstPage s.numPages = some s.endPage := sum?_eq (Nat.lt_of_le_of_lt hs hword)
  have hend' : sum? t.firstPage t.numPages = some t.endPage := sum?_eq (Nat.lt_of_le_of_lt ht hword)
  rw [overlaps?, hend, hend', PageRun.overlaps]
  by_cases h : t.firstPage < s.endPage
  · simp [h]
  · simp [h]

theorem overlapped?_eq {s : Section} (hs : s.endPage ≤ Address.maxPageNumber + 1) :
    ∀ {earlier : List Section}, (∀ t ∈ earlier, t.endPage ≤ Address.maxPageNumber + 1) →
      overlapped? s earlier = some (earlier.findIdx? fun t => s.overlaps t.toPageRun) := by
  intro earlier
  induction earlier with
  | nil => exact fun _ => rfl
  | cons t rest ih =>
      intro hearlier
      have hover := overlaps?_eq hs (hearlier t List.mem_cons_self)
      have hrest := ih fun u hu => hearlier u (List.mem_cons_of_mem _ hu)
      rw [overlapped?, hover, hrest, List.findIdx?_cons]
      cases s.overlaps t.toPageRun with
      | true => rfl
      | false => rfl

theorem sectionFault?_eq {earlier : List Section} (s : Section)
    (hearlier : ∀ t ∈ earlier, t.endPage ≤ Address.maxPageNumber + 1) :
    sectionFault? pageSize earlier s = some (sectionFault pageSize earlier s) := by
  have hrange : Address.maxPageNumber + 1 < saturatingSum s.firstPage s.numPages ↔
      Address.maxPageNumber + 1 < s.endPage := by
    have hword : Address.maxPageNumber + 1 < UInt64.size - 1 := by decide
    rw [saturatingSum, PageRun.endPage]
    omega
  have hdata : (((product? s.numPages pageSize).all fun capacity => capacity < s.data.length) ∨
        UInt32.size ≤ s.data.length) ↔
      (UInt64.size ≤ s.numPages * pageSize ∨ s.numPages * pageSize < s.data.length ∨
        UInt32.size ≤ s.data.length) := by
    rw [← or_assoc]
    apply or_congr_left
    by_cases h : s.numPages * pageSize < UInt64.size
    · simp [product?, h, Nat.not_le.2 h]
    · simp [product?, h, Nat.not_lt.1 h]
  rw [sectionFault?, sectionFault]
  simp only [hrange, hdata]
  split
  · rfl
  · rename_i hend
    split
    · rfl
    · rw [overlapped?_eq (Nat.not_lt.1 hend) hearlier]
      rfl

theorem firstFault?_eq {sections : List Section} :
    ∀ {earlier : List Section}, (∀ t ∈ earlier, t.endPage ≤ Address.maxPageNumber + 1) →
      firstFault? pageSize earlier sections = some (firstFault pageSize earlier sections) := by
  induction sections with
  | nil => exact fun _ => rfl
  | cons s rest ih =>
      intro earlier hearlier
      rw [firstFault?, sectionFault?_eq s hearlier, firstFault]
      cases hfault : sectionFault pageSize earlier s with
      | some fault => rfl
      | none =>
          -- a section without a fault ends in the address space, so its end may be formed later on
          apply ih
          intro t ht
          rcases List.mem_append.1 ht with ht | ht
          · exact hearlier t ht
          · rw [List.mem_singleton.1 ht]
            exact (sectionFault_eq_none_iff.1 hfault).1.1

/-- No check overflows a word, whatever the sections are and whatever the page size is. -/
theorem layoutFault?_eq (pageSize : Nat) (sections : List Section) :
    layoutFault? pageSize sections = some (layoutFault pageSize sections) := by
  rw [layoutFault?, firstFault?_eq (by simp), layoutFault]
  cases firstFault pageSize [] sections with
  | some fault => rfl
  | none => rfl

/-! ## What acceptance means -/

/-- Sections without a fault are laid out, and the bytes of their pages fit a word. -/
theorem laidOut_of_layoutFault (h : layoutFault pageSize sections = none) :
    LaidOut pageSize sections ∧ PagesFitWord pageSize sections := by
  obtain ⟨hfits, hapart, -⟩ := layoutFault_eq_none_iff.1 h
  refine ⟨⟨?_, ?_, ?_, ?_⟩, ?_⟩
  · exact fun s hs => (hfits s hs).1
  · exact fun s hs => (hfits s hs).2.2.1
  · exact fun s hs => (hfits s hs).2.2.2
  · refine hapart.imp fun {s t} hst page hpage => ?_
    rw [PageRun.overlaps_of_contains hpage.2 hpage.1] at hst
    cases hst
  · exact fun s hs => (hfits s hs).2.1

/-- Sections that are laid out have no fault if none without pages begins inside another one. -/
theorem LaidOut.layoutFault_eq_none (h : LaidOut pageSize sections)
    (hword : PagesFitWord pageSize sections)
    (hsplits : ∀ s ∈ sections, ∀ t ∈ sections, ¬ s.Splits t.toPageRun)
    (hlength : sections.length < UInt16.size) : layoutFault pageSize sections = none := by
  apply layoutFault_eq_none_iff.2
  refine ⟨?_, ?_, hlength⟩
  · intro s hs
    exact ⟨h.inRange s hs, hword s hs, h.data_le s hs, h.data_lt s hs⟩
  · refine h.apart.imp_of_mem fun {s t} hs ht hst => ?_
    rw [← Bool.not_eq_true, PageRun.overlaps_iff]
    rintro (⟨page, hpage⟩ | hsplit | hsplit)
    · exact hst page hpage.symm
    · exact hsplits t ht s hs hsplit
    · exact hsplits s hs t ht hsplit

/-- Which lists of fewer than `2 ^ 16` sections are made an image. An image is laid out, and the
bytes of its pages fit a word; a list of which both are true is made an image if no section without
pages begins strictly inside another one. The order of the list does not matter. Two sections that
are reported to overlap have a page in common, if both of them have pages. None of this overflows a
word. -/
theorem ofSections_accepts (pageSize : Nat) (sections : List Section)
    (hlength : sections.length < UInt16.size) :
    ((∃ image, ofSections pageSize sections = .ok image) →
      LaidOut pageSize sections ∧ PagesFitWord pageSize sections) ∧
    (LaidOut pageSize sections → PagesFitWord pageSize sections →
      (∀ s ∈ sections, ∀ t ∈ sections, ¬ s.Splits t.toPageRun) →
        ∃ image, ofSections pageSize sections = .ok image) ∧
    (∀ sections', sections'.Perm sections →
      ((∃ image, ofSections pageSize sections' = .ok image) ↔
        ∃ image, ofSections pageSize sections = .ok image)) ∧
    (∀ first second, ofSections pageSize sections = .error (.overlap first second) →
      ∃ s t, sections[first]? = some s ∧ sections[second]? = some t ∧ first < second ∧
        (0 < s.numPages → 0 < t.numPages →
          ∃ page, s.contains page = true ∧ t.contains page = true)) ∧
    layoutFault? pageSize sections = some (layoutFault pageSize sections) := by
  refine ⟨?_, ?_, ?_, ?_, layoutFault?_eq pageSize sections⟩
  · intro h
    exact laidOut_of_layoutFault (exists_ofSections_iff.1 h)
  · intro h hword hsplits
    exact exists_ofSections_iff.2 (h.layoutFault_eq_none hword hsplits hlength)
  · intro sections' hperm
    rw [exists_ofSections_iff, exists_ofSections_iff]
    exact ⟨layoutFault_eq_none_of_perm hperm.symm, layoutFault_eq_none_of_perm hperm⟩
  · intro first second h
    obtain ⟨s, t, hs, ht, hlt, hover⟩ := layoutFault_eq_overlap (ofSections_eq_error_iff.1 h)
    refine ⟨s, t, hs, ht, hlt, ?_⟩
    intro hspages htpages
    rcases PageRun.overlaps_iff.1 hover with ⟨page, htp, hsp⟩ | hsplit | hsplit
    · exact ⟨page, hsp, htp⟩
    · exact absurd hsplit.1 (Nat.ne_of_gt htpages)
    · exact absurd hsplit.1 (Nat.ne_of_gt hspages)

/-- A section of two pages, and one without pages that begins where it ends. -/
def touchingSections : List Section :=
  [⟨⟨0, 2, true⟩, [1, 2, 3, 4, 5]⟩, ⟨⟨2, 0, false⟩, []⟩]

/-- Runs that only touch do not overlap, in either order. -/
theorem touchingSections_accepted : touchingSections.length < UInt16.size ∧
    (∃ image, ofSections 4 touchingSections = .ok image) ∧
    ∃ image, ofSections 4 touchingSections.reverse = .ok image := by
  have haccepts := ofSections_accepts 4 touchingSections (by decide)
  have haccepted : ∃ image, ofSections 4 touchingSections = .ok image := by
    refine haccepts.2.1 ⟨by decide, by decide, by decide, ?_⟩ (by unfold PagesFitWord; decide) ?_
    · refine .cons ?_ (.cons ?_ .nil)
      · intro t ht page
        rw [List.mem_singleton.1 ht, PageRun.contains_iff, PageRun.contains_iff]
        simp only [PageRun.endPage]
        omega
      · intro t ht
        cases ht
    · simp [touchingSections, PageRun.Splits, PageRun.endPage]
  exact ⟨by decide, haccepted, (haccepts.2.2.1 _ (List.reverse_perm _)).2 haccepted⟩

/-- Two lists that are laid out and not made images. The pages of the one section of the first can
hold `2 ^ 64` bytes, which fit no word, so it is refused for its data, though it has none. In the
second a section without pages begins in the middle of another one, so the two are said to overlap,
though they have no page in common. -/
theorem ofSections_refuses_laidOut :
    (LaidOut (2 ^ 63) [⟨⟨0, 2, false⟩, []⟩] ∧
      ofSections (2 ^ 63) [⟨⟨0, 2, false⟩, []⟩] = .error (.dataTooLong 0)) ∧
    (LaidOut 4 [⟨⟨0, 4, false⟩, []⟩, ⟨⟨2, 0, false⟩, []⟩] ∧
      ofSections 4 [⟨⟨0, 4, false⟩, []⟩, ⟨⟨2, 0, false⟩, []⟩] = .error (.overlap 0 1)) := by
  refine ⟨⟨⟨by decide, by decide, by decide, by simp⟩, ofSections_eq_error_iff.2 (by decide)⟩,
    ⟨⟨by decide, by decide, by decide, ?_⟩, ofSections_eq_error_iff.2 (by decide)⟩⟩
  refine .cons ?_ (.cons ?_ .nil)
  · intro t ht page
    rw [List.mem_singleton.1 ht, PageRun.contains_iff, PageRun.contains_iff]
    simp only [PageRun.endPage]
    omega
  · intro t ht
    cases ht

end Image

end DemandPaging
