import DemandPaging.Kernel.State
import DemandPaging.Paging.Fault
import DemandPaging.Proofs.ImageLayout

/-!
# The pages of a section

The pages of a section, one after the other, are its data and zeros after them
(`Section.flatten_pageBytes`), and to load one into a frame neither overflows a word nor leaves a
slice (`Section.loadPage?_eq`), since the bytes of all its pages fit a word. A page is in one
section at most, by place and not only by value (`Image.place_unique`). So the section that is found
for it does not depend on the order of the list, and neither does what a process starts with
(`Image.initialPage_of_perm`).
-/

namespace DemandPaging

open Checked

/-! ## The data of a section, page by page -/

namespace Section

variable (s : Section)

/-- Fills a frame with page number `nth` of the section, in words and by slices: the front of the
frame takes a slice of the data, the rest takes zeros. Of what was in the frame nothing is used. -/
def loadPage? (nth : Nat) (frame : List UInt8) : Option (List UInt8) := do
  let start := min (← product? nth frame.length) s.data.length
  let stop := min (← sum? start frame.length) s.data.length
  let amount ← difference? stop start
  let loaded ← slice? frame 0 amount
  let rest ← slice? frame amount frame.length
  let bytes ← slice? s.data start stop
  if bytes.length = loaded.length then some (bytes ++ rest.map fun _ => 0) else none

/-- A page is loaded as it should be, whatever was in the frame, if its last byte has a number that
fits a word. -/
theorem loadPage?_eq {nth : Nat} {frame : List UInt8}
    (h : (nth + 1) * frame.length < UInt64.size) :
    s.loadPage? nth frame = some (s.pageBytes nth frame.length) := by
  rw [Nat.add_mul, Nat.one_mul] at h
  have hproduct : product? nth frame.length = some (nth * frame.length) := product?_eq (by omega)
  simp only [loadPage?, hproduct, Option.bind_eq_bind, Option.bind_some]
  generalize hstart : min (nth * frame.length) s.data.length = start
  have hsum : sum? start frame.length = some (start + frame.length) := sum?_eq (by omega)
  simp only [hsum, Option.bind_some]
  generalize hstop : min (start + frame.length) s.data.length = stop
  have hle : start ≤ stop := by omega
  have hdata : stop ≤ s.data.length := by omega
  have hroom : stop - start ≤ frame.length := by omega
  simp only [difference?_eq hle, slice?_eq (Nat.zero_le _) hroom, slice?_eq hroom (Nat.le_refl _),
    slice?_eq hle hdata, Option.bind_some]
  -- past the data there is nothing to take, with or without the bound
  have hbytes : (s.data.drop start).take (stop - start) =
      (s.data.drop (nth * frame.length)).take frame.length := by
    by_cases hdata : nth * frame.length ≤ s.data.length
    · rw [← hstart, Nat.min_eq_left hdata, List.take_eq_take_iff, List.length_drop]
      omega
    · rw [List.drop_eq_nil_of_le (by omega), List.drop_eq_nil_of_le (by omega)]
      simp
  have hlength : ((s.data.drop start).take (stop - start)).length = stop - start := by
    rw [List.length_take, List.length_drop]
    omega
  rw [if_pos (by rw [hlength, List.length_take]; simp; omega), pageBytes, ← hbytes, hlength]
  simp only [List.map_const', List.length_take, List.length_drop, Nat.min_self]

/-- The first pages of a section are the front of its data, filled up with zeros. -/
theorem flatten_pageBytes (size n : Nat) :
    ((List.range n).map fun nth => s.pageBytes nth size).flatten =
      s.data.take (n * size) ++ List.replicate (n * size - s.data.length) 0 := by
  induction n with
  | zero => simp
  | succ n ih =>
      rw [List.range_succ, List.map_append, List.flatten_append, ih, List.map_singleton,
        List.flatten_singleton, pageBytes, Nat.add_mul, Nat.one_mul]
      by_cases hdata : n * size ≤ s.data.length
      · -- the data go on in this page
        rw [Nat.sub_eq_zero_of_le hdata, List.replicate_zero, List.append_nil, ← List.append_assoc,
          ← List.take_add, List.length_take, List.length_drop]
        congr 2
        omega
      · -- the data have ended before it
        rw [List.drop_eq_nil_of_le (by omega), List.take_nil, List.nil_append,
          List.take_of_length_le (by omega), List.take_of_length_le (by omega), List.append_assoc,
          List.replicate_append_replicate]
        congr 2
        simp only [List.length_nil]
        omega

end Section

namespace Image

variable (image : Image) {s t : Section} {page : Nat}

/-- Fills a frame with page number `nth` of a section, in words and by slices. -/
def loadPage? (index nth : Nat) (frame : List UInt8) : Option (List UInt8) := do
  let s ← image.sections[index]?
  s.loadPage? nth frame

/-- The pages of a section, one after the other, are its data and zeros after them. -/
theorem flatten_pages (hs : s ∈ image.sections) :
    ((List.range s.numPages).map fun nth => s.pageBytes nth image.pageSize).flatten =
      s.data ++ List.replicate (s.numPages * image.pageSize - s.data.length) 0 := by
  rw [Section.flatten_pageBytes, List.take_of_length_le (image.length_data_le hs)]

/-- Each page of a section is loaded into a frame without overflow. -/
theorem loadPage?_eq {index nth : Nat} {frame : List UInt8} (hs : image.sections[index]? = some s)
    (hnth : nth < s.numPages) (hframe : frame.length = image.pageSize) :
    image.loadPage? index nth frame = some (s.pageBytes nth image.pageSize) := by
  have hword := (image.fits_of_mem (List.mem_of_getElem? hs)).2.1
  have hle : (nth + 1) * image.pageSize ≤ s.numPages * image.pageSize :=
    Nat.mul_le_mul_right _ hnth
  rw [loadPage?, hs, Option.bind_eq_bind, Option.bind_some, Section.loadPage?_eq, hframe]
  rw [hframe]
  exact Nat.lt_of_le_of_lt hle hword

/-! ## The section of a page -/

/-- No page is in the sections at two places of the list. -/
theorem place_unique {i j : Nat} (hs : image.sections[i]? = some s)
    (ht : image.sections[j]? = some t) (hsp : s.contains page = true)
    (htp : t.contains page = true) : i = j := by
  have hapart := List.pairwise_iff_getElem.1 (layoutFault_eq_none_iff.1 image.sound).2.1
  obtain ⟨hi, rfl⟩ := List.getElem?_eq_some_iff.1 hs
  obtain ⟨hj, rfl⟩ := List.getElem?_eq_some_iff.1 ht
  rcases Nat.lt_trichotomy i j with h | h | h
  · have hover := PageRun.overlaps_of_contains htp hsp
    rw [hapart i j hi hj h] at hover
    cases hover
  · exact h
  · have hover := PageRun.overlaps_of_contains hsp htp
    rw [hapart j i hj hi h] at hover
    cases hover

/-- What is found for a page is the section that has it, with its place in the list. -/
theorem sectionAt_eq_some_place_iff {i : Nat} : image.sectionAt page = some (i, s) ↔
    image.sections[i]? = some s ∧ s.contains page = true := by
  have hfound : ∀ x : Section × Nat,
      image.sections.zipIdx.find? (fun s => s.1.contains page) = some x →
        image.sections[x.2]? = some x.1 ∧ x.1.contains page = true := by
    intro x hx
    refine ⟨List.mk_mem_zipIdx_iff_getElem?.1 (List.mem_of_find?_eq_some hx), ?_⟩
    exact List.find?_some (p := fun s : Section × Nat => s.1.contains page) hx
  rw [sectionAt]
  constructor
  · intro h
    obtain ⟨x, hx, heq⟩ := Option.map_eq_some_iff.1 h
    cases heq
    exact hfound x hx
  · rintro ⟨hs, hpage⟩
    cases hfind : image.sections.zipIdx.find? fun s => s.1.contains page with
    | none =>
        have hnot := List.find?_eq_none.1 hfind (s, i) (List.mk_mem_zipIdx_iff_getElem?.2 hs)
        exact absurd hpage hnot
    | some x =>
        obtain ⟨hx, hxpage⟩ := hfound x hfind
        obtain rfl := image.place_unique hx hs hxpage hpage
        rw [hx] at hs
        cases hs
        rfl

theorem le_foldl_endPage (sections : List Section) :
    ∀ last, (last ≤ sections.foldl (fun last s => max last s.endPage) last) ∧
      ∀ s ∈ sections, s.endPage ≤ sections.foldl (fun last s => max last s.endPage) last := by
  induction sections with
  | nil => exact fun last => ⟨Nat.le_refl _, by simp⟩
  | cons t rest ih =>
      intro last
      obtain ⟨hlast, hrest⟩ := ih (max last t.endPage)
      rw [List.foldl_cons]
      refine ⟨Nat.le_trans (Nat.le_max_left _ _) hlast, ?_⟩
      intro s hs
      rcases List.mem_cons.1 hs with rfl | hs
      · exact Nat.le_trans (Nat.le_max_right _ _) hlast
      · exact hrest s hs

/-- No section ends after the last one of all. -/
theorem endPage_le (hs : s ∈ image.sections) : s.endPage ≤ image.endPage :=
  (le_foldl_endPage image.sections 0).2 s hs

/-! ## The order of the sections -/

variable {image} {image' : Image}

/-- The same section is found for a page, whatever the order. -/
theorem sectionAt_of_perm (hperm : image'.sections.Perm image.sections) (page : Nat) :
    (image'.sectionAt page).map Prod.snd = (image.sectionAt page).map Prod.snd := by
  apply Option.ext
  intro s
  rw [sectionAt_eq_some_iff, sectionAt_eq_some_iff, hperm.mem_iff]

/-- A page starts with the same bytes, whatever the order. -/
theorem initialPage_of_perm (hperm : image'.sections.Perm image.sections) (page size : Nat) :
    image'.initialPage page size = image.initialPage page size := by
  have hsame := sectionAt_of_perm hperm page
  rw [initialPage, initialPage]
  cases hfound' : image'.sectionAt page with
  | none =>
      rw [hfound', Option.map_none, eq_comm, Option.map_eq_none_iff] at hsame
      rw [hsame]
  | some found' =>
      rw [hfound', Option.map_some, eq_comm, Option.map_eq_some_iff] at hsame
      obtain ⟨found, hfound, heq⟩ := hsame
      rw [hfound]
      show found'.2.pageBytes _ _ = found.2.pageBytes _ _
      rw [heq]

/-- The same pages may not be written, whatever the order. -/
theorem isReadOnly_of_perm (hperm : image'.sections.Perm image.sections) (page : Nat) :
    image'.isReadOnly page = image.isReadOnly page := by
  rw [Bool.eq_iff_iff, isReadOnly_iff, isReadOnly_iff]
  simp only [hperm.mem_iff]

theorem endPage_of_perm (hperm : image'.sections.Perm image.sections) :
    image'.endPage = image.endPage := by
  apply hperm.foldl_eq'
  intro s _ t _ last
  omega

end Image

/-! ## What a process starts with -/

variable {σ : Type} [Extent σ]

/-- A process made from a list of sections in another order does not know the difference: each of
its misses and faults is handled in the same way. -/
theorem Paging.handling_of_perm (p : UserProcess) {image' : Image}
    (hperm : image'.sections.Perm p.image.sections) :
    (∀ address, handleMiss (σ := σ) { p with image := image' } address = handleMiss p address) ∧
      ∀ page victim,
        resumeFault (σ := σ) { p with image := image' } page victim =
          resumeFault p page victim := by
  have hfill : ∀ page frame,
      fill (σ := σ) { p with image := image' } page frame = fill p page frame := by
    intro page frame
    simp only [fill, fillAfresh, Image.initialPage_of_perm hperm]
  have henter : ∀ page frame dirty,
      enter (σ := σ) { p with image := image' } page frame dirty = enter p page frame dirty := by
    intro page frame dirty
    simp only [enter, Image.isReadOnly_of_perm hperm]
  have hbring : ∀ page frame,
      bringIn (σ := σ) { p with image := image' } page frame = bringIn p page frame := by
    intro page frame
    simp only [bringIn, hfill, henter]
  have hsettle : ∀ page search,
      settleFault (σ := σ) { p with image := image' } page search = settleFault p page search := by
    intro page search
    cases search with
    | found frame passOn => simp only [settleFault, hbring]
    | needsSlot victim => rfl
  constructor
  · intro address
    -- the search for a frame looks at the number of the process only
    have hfind : findFrame (σ := σ) { p with image := image' } = findFrame p := rfl
    simp only [handleMiss, hsettle, hfind]
  · intro page victim
    have hresume : resumeSearch (σ := σ) { p with image := image' } victim =
        resumeSearch p victim := rfl
    simp only [resumeFault, hsettle, hresume]

omit [Extent σ] in
/-- A list of sections in another order makes a process of the same size with the same number, or is
refused for the same reason. -/
theorem Kernel.spawn_of_perm (k : Kernel σ) {image image' : Image}
    (hperm : image'.sections.Perm image.sections) (hsize : image'.pageSize = image.pageSize) :
    (k.spawn image').1 = (k.spawn image).1 ∧
      (k.spawn image').2 = { (k.spawn image).2 with
        processes := k.processes ++
          ((k.spawn image).2.processes.drop k.processes.length).map fun p =>
            { p with image := image' } } := by
  have hspace : UserProcess.addressSpace image' k.config.stackPages =
      UserProcess.addressSpace image k.config.stackPages := by
    rw [UserProcess.addressSpace, UserProcess.addressSpace, Image.endPage_of_perm hperm]
  have hfault : imageFault k.config image' = imageFault k.config image := by
    rw [imageFault, imageFault, hsize, hspace]
  simp only [spawn, hfault, hspace]
  cases imageFault k.config image with
  | some cause => simp
  | none =>
      obtain ⟨drawn, pids⟩ := k.pids.allocate
      cases drawn with
      | error halt => simp
      | ok pid =>
          simp only
          cases PageTables.add k.paging.tables pid
              (UserProcess.addressSpace image k.config.stackPages) with
          | error halt => simp
          | ok tables => simp

/-- The pages of the sections of an image. Loaded one after the other into frames of the page size,
with whatever was in these, the pages of a section are its data and zeros after them; no number on
the way overflows a word, and no slice is outside. A page is in one section at most, which is the
one that is found for it; if it is in none then none is found, and from the end of the image on it
is in none. The sections in another order are an image too, and a process that is made of that has
the same size, starts with the same bytes, and has its misses handled in the same way. -/
theorem Image.section_pages (image : Image) :
    (∀ (i : Nat) (s : Section), image.sections[i]? = some s → ∀ frame : Nat → List UInt8,
      (∀ nth < s.numPages, (frame nth).length = image.pageSize) →
        sum? s.firstPage s.numPages = some s.endPage ∧
        ∃ pages : List (List UInt8), pages.length = s.numPages ∧
          (∀ nth < s.numPages, ∃ bytes, pages[nth]? = some bytes ∧
            image.loadPage? i nth (frame nth) = some bytes ∧
            image.pageOf i nth image.pageSize = .ok bytes) ∧
          pages.flatten = s.data ++
            List.replicate (s.numPages * image.pageSize - s.data.length) 0) ∧
    (∀ (page i j : Nat) (s t : Section), image.sections[i]? = some s → image.sections[j]? = some t →
      s.contains page = true → t.contains page = true → i = j) ∧
    (∀ page i s, image.sectionAt page = some (i, s) ↔
      image.sections[i]? = some s ∧ s.contains page = true) ∧
    (∀ page, image.sectionAt page = none ↔
      ∀ s ∈ image.sections, s.contains page = false) ∧
    (∀ page, image.endPage ≤ page → ∀ s ∈ image.sections, s.contains page = false) ∧
    ∀ sections : List Section, sections.Perm image.sections →
      ∃ image', ofSections image.pageSize sections = .ok image' ∧ image'.sections = sections ∧
        (∀ page size, image'.initialPage page size = image.initialPage page size) ∧
        (∀ page, image'.isReadOnly page = image.isReadOnly page) ∧
        (∀ p : UserProcess, p.image = image →
          (∀ address, Paging.handleMiss (σ := σ) { p with image := image' } address =
            Paging.handleMiss p address) ∧
          ∀ page victim, Paging.resumeFault (σ := σ) { p with image := image' } page victim =
            Paging.resumeFault p page victim) ∧
        ∀ k : Kernel σ, (k.spawn image').1 = (k.spawn image).1 ∧
          (k.spawn image').2 = { (k.spawn image).2 with
            processes := k.processes ++
              ((k.spawn image).2.processes.drop k.processes.length).map fun p =>
                { p with image := image' } } := by
  refine ⟨?_, ?_, ?_, ?_, ?_, ?_⟩
  · intro i s hs frame hframe
    have hmem := List.mem_of_getElem? hs
    have hend := (image.fits_of_mem hmem).1
    refine ⟨sum?_eq (Nat.lt_of_le_of_lt hend (by decide)),
      (List.range s.numPages).map fun nth => s.pageBytes nth image.pageSize, by simp, ?_,
      image.flatten_pages hmem⟩
    intro nth hnth
    refine ⟨s.pageBytes nth image.pageSize, ?_, image.loadPage?_eq hs hnth (hframe nth hnth), ?_⟩
    · rw [List.getElem?_map, List.getElem?_range hnth, Option.map_some]
    · rw [pageOf, hs]
  · intro page i j s t hs ht hsp htp
    exact image.place_unique hs ht hsp htp
  · intro page i s
    exact image.sectionAt_eq_some_place_iff
  · intro page
    simp only [image.sectionAt_eq_none_iff, Bool.not_eq_true]
  · intro page hpage s hs
    rw [← Bool.not_eq_true, PageRun.contains_iff]
    have hle := image.endPage_le hs
    omega
  · intro sections hperm
    have hfault := layoutFault_eq_none_of_perm hperm image.sound
    refine ⟨⟨sections, image.pageSize, hfault⟩, ofSections_eq_ok_iff.2 ⟨rfl, rfl⟩, rfl,
      initialPage_of_perm hperm, isReadOnly_of_perm hperm, ?_, ?_⟩
    · rintro p rfl
      exact Paging.handling_of_perm p hperm
    · intro k
      exact k.spawn_of_perm hperm rfl

/-- A read-only section of two pages of four bytes, and a page of zeros after it. -/
def twoSections : Image where
  sections := [⟨⟨0, 2, true⟩, [1, 2, 3, 4, 5]⟩, ⟨⟨2, 1, false⟩, []⟩]
  pageSize := 4
  sound := by decide

/-- The second page of the first section is loaded into a frame that is full of other bytes. -/
theorem twoSections_loaded : twoSections.sections[0]? = some ⟨⟨0, 2, true⟩, [1, 2, 3, 4, 5]⟩ ∧
    (∃ bytes, twoSections.loadPage? 0 1 [0xee, 0xee, 0xee, 0xee] = some bytes ∧
      twoSections.pageOf 0 1 4 = .ok bytes) ∧
    twoSections.sectionAt 2 = some (1, ⟨⟨2, 1, false⟩, []⟩) ∧
    ∃ image', Image.ofSections 4 twoSections.sections.reverse = .ok image' ∧
      image'.initialPage 1 4 = twoSections.initialPage 1 4 := by
  obtain ⟨hpages, -, hfound, -, -, horder⟩ := twoSections.section_pages (σ := MemoryExtent)
  obtain ⟨-, pages, -, hload, -⟩ := hpages 0 ⟨⟨0, 2, true⟩, [1, 2, 3, 4, 5]⟩ rfl
    (fun _ => [0xee, 0xee, 0xee, 0xee]) (by decide)
  obtain ⟨bytes, -, hloaded, hpage⟩ := hload 1 (by decide)
  obtain ⟨image', haccepted, -, hinitial, -⟩ := horder _ (List.reverse_perm _)
  exact ⟨rfl, ⟨bytes, hloaded, hpage⟩, (hfound 2 1 _).2 ⟨rfl, by decide⟩, image', haccepted,
    hinitial 1 4⟩

end DemandPaging
