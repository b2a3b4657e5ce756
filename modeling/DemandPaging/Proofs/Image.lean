import DemandPaging.Image
import Mathlib.Data.List.Pairwise

/-!
# What an image puts into an address space

Seen without pages, an image stores the data of each section from the section's first address on,
and everything else is zero (`initialByte`). Since no two sections have a page in common and no
section has more data than its pages, the pages that the kernel fills are the pages of that array,
and the section that it finds for a page is the only one (`getElem?_initialPage`,
`isReadOnly_iff`).
-/

namespace DemandPaging

/-- The byte that a section stores at an address. -/
def Section.storedAt (s : Section) (pageSize address : Nat) : Option UInt8 :=
  if s.firstPage * pageSize ≤ address then s.data[address - s.firstPage * pageSize]? else none

/-- Whether an address lies in a section. -/
def PageRun.Covers (s : PageRun) (pageSize address : Nat) : Prop :=
  s.firstPage * pageSize ≤ address ∧ address < s.endPage * pageSize

theorem PageRun.contains_iff {s : PageRun} {page : Nat} :
    s.contains page = true ↔ s.firstPage ≤ page ∧ page < s.endPage := by
  rw [contains, Bool.and_eq_true, decide_eq_true_iff, decide_eq_true_iff]

theorem PageRun.overlaps_iff_lt {s t : PageRun} :
    s.overlaps t = true ↔ t.firstPage < s.endPage ∧ s.firstPage < t.endPage := by
  rw [overlaps, Bool.and_eq_true, decide_eq_true_iff, decide_eq_true_iff]

/-- Two runs with a page in common overlap. -/
theorem PageRun.overlaps_of_contains {s t : PageRun} {page : Nat} (hs : s.contains page = true)
    (ht : t.contains page = true) : s.overlaps t = true := by
  rw [contains_iff] at hs ht
  rw [overlaps_iff_lt]
  omega

/-- An address lies in a section when its page does. -/
theorem PageRun.covers_iff {s : PageRun} {pageSize address : Nat} (h : 0 < pageSize) :
    s.Covers pageSize address ↔ s.contains (Address.page pageSize address) = true := by
  rw [contains_iff, Covers, Address.page, Nat.le_div_iff_mul_le h, Nat.div_lt_iff_lt_mul h]

@[simp] theorem Section.length_pageBytes (s : Section) (nth size : Nat) :
    (s.pageBytes nth size).length = size := by
  simp only [pageBytes, List.length_append, List.length_take, List.length_drop,
    List.length_replicate]
  omega

/-- The bytes of a page of a section are its data, and zeros after it. -/
theorem Section.getElem?_pageBytes (s : Section) (nth : Nat) {size i : Nat} (h : i < size) :
    (s.pageBytes nth size)[i]? = some (s.data[nth * size + i]?.getD 0) := by
  rw [pageBytes]
  by_cases hi : i < ((s.data.drop (nth * size)).take size).length
  · rw [List.getElem?_append_left hi, List.getElem?_take_of_lt h, List.getElem?_drop]
    rw [List.length_take, List.length_drop] at hi
    rw [List.getElem?_eq_getElem (by omega)]
    rfl
  · rw [List.getElem?_append_right (by omega)]
    rw [List.length_take, List.length_drop] at hi
    rw [List.getElem?_replicate, if_pos (by rw [List.length_take, List.length_drop]; omega),
      List.getElem?_eq_none (by omega)]
    rfl

namespace Image

/-- The byte that an image starts an address with. -/
def initialByte (image : Image) (pageSize address : Nat) : UInt8 :=
  (image.sections.findSome? fun s => s.storedAt pageSize address).getD 0

/-- What the checks ask of a section by itself. -/
def Fits (pageSize : Nat) (s : Section) : Prop :=
  s.endPage ≤ Address.maxPageNumber + 1 ∧ s.numPages * pageSize < UInt64.size ∧
    s.data.length ≤ s.numPages * pageSize ∧ s.data.length < UInt32.size

theorem sectionFault_eq_none_iff {pageSize : Nat} {earlier : List Section} {s : Section} :
    sectionFault pageSize earlier s = none ↔
      Fits pageSize s ∧ ∀ other ∈ earlier, s.overlaps other.toPageRun = false := by
  rw [sectionFault, Fits]
  split
  · rename_i h
    exact ⟨fun h' => (by cases h'), fun h' => absurd h (Nat.not_lt.2 h'.1.1)⟩
  · rename_i hrange
    split
    · rename_i h
      refine ⟨fun h' => (by cases h'), fun h' => ?_⟩
      obtain ⟨-, hword, hdata, hlt⟩ := h'.1
      omega
    · rename_i hdata
      rw [not_or, not_or] at hdata
      rw [Option.map_eq_none_iff, List.findIdx?_eq_none_iff]
      constructor
      · intro h
        exact ⟨⟨by omega, by omega, by omega, by omega⟩, h⟩
      · exact fun h => h.2

/-- Sections without a fault fit, and none of them overlaps an earlier one. -/
theorem firstFault_eq_none_iff {pageSize : Nat} {sections : List Section} :
    ∀ {earlier : List Section}, firstFault pageSize earlier sections = none ↔
      (∀ s ∈ sections, Fits pageSize s) ∧
      (∀ s ∈ sections, ∀ other ∈ earlier, s.overlaps other.toPageRun = false) ∧
      sections.Pairwise fun s t => t.overlaps s.toPageRun = false := by
  induction sections with
  | nil => exact fun {_} => ⟨fun _ => ⟨by simp, by simp, .nil⟩, fun _ => rfl⟩
  | cons s rest ih =>
      intro earlier
      have hcons : firstFault pageSize earlier (s :: rest) = none ↔
          sectionFault pageSize earlier s = none ∧
            firstFault pageSize (earlier ++ [s]) rest = none := by
        rw [firstFault]
        cases sectionFault pageSize earlier s with
        | none => simp
        | some fault => simp
      -- a section is compared with the earlier ones, and each later one with it
      have hsplit : (∀ t ∈ rest, ∀ other ∈ earlier ++ [s], t.overlaps other.toPageRun = false) ↔
          (∀ t ∈ rest, ∀ other ∈ earlier, t.overlaps other.toPageRun = false) ∧
            ∀ t ∈ rest, t.overlaps s.toPageRun = false := by
        simp only [List.mem_append, List.mem_singleton, or_imp, forall_and, forall_eq]
      rw [hcons, sectionFault_eq_none_iff, ih, hsplit, List.forall_mem_cons, List.forall_mem_cons,
        List.pairwise_cons]
      constructor
      · rintro ⟨⟨hs, hearlier⟩, hrest, ⟨hbefore, hwith⟩, hapart⟩
        exact ⟨⟨hs, hrest⟩, ⟨hearlier, hbefore⟩, hwith, hapart⟩
      · rintro ⟨⟨hs, hrest⟩, ⟨hearlier, hbefore⟩, hwith, hapart⟩
        exact ⟨⟨hs, hearlier⟩, hrest, ⟨hbefore, hwith⟩, hapart⟩

theorem layoutFault_eq_none_iff {pageSize : Nat} {sections : List Section} :
    layoutFault pageSize sections = none ↔ (∀ s ∈ sections, Fits pageSize s) ∧
      (sections.Pairwise fun s t => t.overlaps s.toPageRun = false) ∧
      sections.length < UInt16.size := by
  have hfirst := @firstFault_eq_none_iff pageSize sections []
  rw [layoutFault]
  cases h : firstFault pageSize [] sections with
  | some fault =>
      refine ⟨fun h' => (by cases h'), fun h' => ?_⟩
      rw [hfirst.2 ⟨h'.1, by simp, h'.2.1⟩] at h
      cases h
  | none =>
      obtain ⟨hfits, -, hapart⟩ := hfirst.1 h
      simp only [ite_eq_right_iff, reduceCtorEq, imp_false, Nat.not_le]
      exact ⟨fun hlt => ⟨hfits, hapart, hlt⟩, fun h' => h'.2.2⟩

theorem ofSections_eq_ok_iff {pageSize : Nat} {sections : List Section} {image : Image} :
    ofSections pageSize sections = .ok image ↔
      image.sections = sections ∧ image.pageSize = pageSize := by
  rw [ofSections]
  constructor
  · intro h
    split at h
    · cases h
      exact ⟨rfl, rfl⟩
    · cases h
  · rintro ⟨rfl, rfl⟩
    split
    · rfl
    · rename_i fault hfault
      rw [image.sound] at hfault
      cases hfault

variable (image : Image) {s t : Section} {page : Nat}

theorem fits_of_mem (hs : s ∈ image.sections) : Fits image.pageSize s :=
  (layoutFault_eq_none_iff.1 image.sound).1 s hs

theorem length_data_le (hs : s ∈ image.sections) :
    s.data.length ≤ s.numPages * image.pageSize := by
  exact (fits_of_mem image hs).2.2.1

/-- No page is in two sections. -/
theorem section_unique (hs : s ∈ image.sections) (ht : t ∈ image.sections)
    (hsp : s.contains page = true) (htp : t.contains page = true) : s = t := by
  have hpairwise := (layoutFault_eq_none_iff.1 image.sound).2.1
  let apart (a b : Section) : Prop := ¬ (a.contains page = true ∧ b.contains page = true)
  have hapart : image.sections.Pairwise apart := by
    refine hpairwise.imp fun {a b} hab hboth => ?_
    rw [PageRun.overlaps_of_contains hboth.2 hboth.1] at hab
    exact Bool.noConfusion hab
  have : Std.Symm apart := ⟨fun a b h h' => h h'.symm⟩
  by_contra hne
  exact hapart.forall hs ht hne ⟨hsp, htp⟩

/-- The section that the kernel finds for a page is the one that has it. -/
theorem sectionAt_eq_some_iff : (image.sectionAt page).map Prod.snd = some s ↔
    s ∈ image.sections ∧ s.contains page = true := by
  have hmem : ∀ {x : Section × Nat}, x ∈ image.sections.zipIdx → x.1 ∈ image.sections :=
    fun hx => (List.mem_zipIdx' hx).2 ▸ List.getElem_mem _
  rw [sectionAt, Option.map_map]
  constructor
  · intro h
    obtain ⟨x, hx, rfl⟩ := Option.map_eq_some_iff.1 h
    exact ⟨hmem (List.mem_of_find?_eq_some hx),
      List.find?_some (p := fun s : Section × Nat => s.1.contains page) hx⟩
  · rintro ⟨hs, hpage⟩
    cases hfind : image.sections.zipIdx.find? fun s => s.1.contains page with
    | some x =>
        have hx : x.1 = s := image.section_unique (hmem (List.mem_of_find?_eq_some hfind)) hs
          (List.find?_some (p := fun s : Section × Nat => s.1.contains page) hfind) hpage
        rw [← hx]
        rfl
    | none =>
        obtain ⟨i, hi⟩ := List.mem_iff_getElem?.1 hs
        have := List.find?_eq_none.1 hfind (s, i) (List.mk_mem_zipIdx_iff_getElem?.2 hi)
        exact absurd hpage this

theorem sectionAt_eq_none_iff :
    image.sectionAt page = none ↔ ∀ s ∈ image.sections, ¬ s.contains page = true := by
  rw [← Option.map_eq_none_iff (f := Prod.snd), Option.eq_none_iff_forall_ne_some]
  refine forall_congr' fun s => ?_
  rw [Ne, sectionAt_eq_some_iff, not_and]

@[simp] theorem length_initialPage (size : Nat) : (image.initialPage page size).length = size := by
  rw [initialPage]
  cases image.sectionAt page with
  | none => exact List.length_replicate
  | some x => exact x.2.length_pageBytes _ _

/-- A byte that a section stores lies in the section. -/
theorem covers_of_storedAt {address : Nat} {byte : UInt8} (hs : s ∈ image.sections)
    (h : s.storedAt image.pageSize address = some byte) : s.Covers image.pageSize address := by
  rw [Section.storedAt] at h
  split at h
  · rename_i hle
    obtain ⟨hlt, -⟩ := List.getElem?_eq_some_iff.1 h
    have hdata := image.length_data_le hs
    refine ⟨hle, ?_⟩
    rw [PageRun.endPage, Nat.add_mul]
    omega
  · cases h

/-- Outside all sections there are zeros. -/
theorem initialByte_of_uncovered {address : Nat}
    (h : ∀ s ∈ image.sections, ¬ s.Covers image.pageSize address) :
    image.initialByte image.pageSize address = 0 := by
  have hnone : (image.sections.findSome? fun s => s.storedAt image.pageSize address) = none := by
    refine List.findSome?_eq_none_iff.2 fun s hs => ?_
    cases hb : s.storedAt image.pageSize address with
    | none => rfl
    | some byte => exact absurd (image.covers_of_storedAt hs hb) (h s hs)
  rw [initialByte, hnone]
  rfl

/-- Inside a section there are its data, and zeros after them. -/
theorem initialByte_of_covers {address : Nat} (hpos : 0 < image.pageSize)
    (hs : s ∈ image.sections) (h : s.Covers image.pageSize address) :
    image.initialByte image.pageSize address = (s.storedAt image.pageSize address).getD 0 := by
  -- another section that stores a byte here would have the same page
  have honly : ∀ t ∈ image.sections, ∀ byte, t.storedAt image.pageSize address = some byte →
      t = s := by
    intro t ht byte hb
    have htcovers := image.covers_of_storedAt ht hb
    rw [PageRun.covers_iff hpos] at h htcovers
    exact image.section_unique ht hs htcovers h
  rw [initialByte]
  cases hfind : image.sections.findSome? fun s => s.storedAt image.pageSize address with
  | none => rw [List.findSome?_eq_none_iff.1 hfind s hs]
  | some byte =>
      obtain ⟨t, ht, hb⟩ := List.exists_of_findSome?_eq_some hfind
      rw [← honly t ht byte hb, hb]

/-- The pages that the kernel fills are those of the array of bytes. -/
theorem getElem?_initialPage (page : Nat) {offset : Nat} (h : offset < image.pageSize) :
    (image.initialPage page image.pageSize)[offset]? =
      some (image.initialByte image.pageSize (Address.join image.pageSize page offset)) := by
  have hpos : 0 < image.pageSize := by omega
  have hpage : Address.page image.pageSize (Address.join image.pageSize page offset) = page := by
    rw [Address.page, Address.join, Nat.mul_comm, Nat.mul_add_div hpos, Nat.div_eq_of_lt h,
      Nat.add_zero]
  rw [initialPage]
  cases hat : image.sectionAt page with
  | none =>
      rw [initialByte_of_uncovered]
      · exact (List.getElem?_replicate).trans (if_pos h)
      · intro s hs hcovers
        rw [PageRun.covers_iff hpos, hpage] at hcovers
        exact image.sectionAt_eq_none_iff.1 hat s hs hcovers
  | some x =>
      obtain ⟨i, s⟩ := x
      obtain ⟨hs, hcontains⟩ := image.sectionAt_eq_some_iff.1 (congrArg (Option.map Prod.snd) hat)
      have hcontains : s.contains page = true := hcontains
      have hcovers : s.Covers image.pageSize (Address.join image.pageSize page offset) := by
        rw [PageRun.covers_iff hpos, hpage]
        exact hcontains
      have hle := Nat.mul_le_mul_right image.pageSize (PageRun.contains_iff.1 hcontains).1
      have hoff : Address.join image.pageSize page offset - s.firstPage * image.pageSize =
          (page - s.firstPage) * image.pageSize + offset := by
        rw [Address.join, Nat.sub_mul]
        omega
      rw [image.initialByte_of_covers hpos hs hcovers, Section.storedAt, if_pos hcovers.1, hoff]
      exact s.getElem?_pageBytes _ h

/-- A page may not be written when it is in a read-only section. -/
theorem isReadOnly_iff : image.isReadOnly page = true ↔
    ∃ s ∈ image.sections, s.readOnly = true ∧ s.contains page = true := by
  rw [isReadOnly]
  cases hat : image.sectionAt page with
  | none =>
      refine ⟨fun h => Bool.noConfusion h, ?_⟩
      rintro ⟨s, hs, -, hpage⟩
      exact absurd hpage (image.sectionAt_eq_none_iff.1 hat s hs)
  | some x =>
      obtain ⟨hs, hpage⟩ := image.sectionAt_eq_some_iff.1 (congrArg (Option.map Prod.snd) hat)
      refine ⟨fun h => ⟨x.2, hs, h, hpage⟩, ?_⟩
      rintro ⟨t, ht, hro, htp⟩
      rw [image.section_unique ht hs htp hpage] at hro
      exact hro

end Image

end DemandPaging
