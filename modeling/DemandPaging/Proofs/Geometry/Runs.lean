import DemandPaging.Proofs.Geometry.Steps
import DemandPaging.Proofs.SectionPages

/-!
# Runs of a validated machine

A machine that is valid has a geometry, with as many slots as its extent has room for
(`Config.Sound.geometry`), and a kernel that is booted on it fits that geometry
(`Kernel.boot_suits`). So does the kernel after every run (`Kernel.Suits.performAll`), and then
whatever it computes from its sizes can be computed in words: no sum and no product is too large,
the bytes of a frame are inside memory, and those of a slot inside the extent (`Kernel.InWords`).

The sizes may be extreme. A page may have half as many bytes as a word can count, there may be as
many frames as a mapping can name, and a stack may have more pages than any address space.
-/

namespace DemandPaging

open Checked

/-! ## What is computed from the sizes -/

/-- What a copy computes for the page that it has come to, in words. The copy is at the address
where it began and the bytes moved so far; the page starts at an address of its own; of the page the
copy takes what is left of it, or what is left to move. The result is the start of the page, the
part of it that is moved, and the number of bytes moved afterwards. -/
def Call.piece? (pageSize : Nat) (call : Call) : Option (Nat × (Nat × Nat) × Nat) := do
  let address ← sum? call.request.address call.moved.length
  let start ← address? pageSize (Address.page pageSize address) 0
  let offset := Address.offset pageSize address
  let amount := min (← difference? pageSize offset)
    (← difference? call.request.count call.moved.length)
  let stop ← sum? offset amount
  let moved ← sum? call.moved.length amount
  some (start, (offset, stop), moved)

/-- The bytes that a page starts with, as they are loaded into a frame, in words and by slices. The
place of the page in its section is what is left of its number. -/
def Image.loadInto? (image : Image) (page : Nat) (frame : List UInt8) : Option (List UInt8) :=
  match image.sectionAt page with
  | some (index, s) => do image.loadPage? index (← difference? page s.firstPage) frame
  | none => some (frame.map fun _ => 0)

/-- The number of pages of an address space, in words. Every section is looked at on the way. -/
def Image.addressSpace? (image : Image) (stackPages : Nat) : Option Nat := do
  let last ← image.sections.foldlM (fun last s => return max last (← sum? s.firstPage s.numPages)) 0
  some (saturatingSum last stackPages)

/-- The frames that a thread has come to. -/
def Stage.frame? : Stage → Option Nat
  | faulting (.waiting _ victim _) | faulting (.resuming _ victim) => some victim
  | moving frame | unpinning frame => some frame
  | _ => none

namespace Kernel

variable {σ : Type}

/-- The frames that a kernel has written down: free ones, those that pages are in, and those that
threads have come to. -/
def Knows (k : Kernel σ) (frame : Nat) : Prop :=
  frame ∈ k.paging.frameTable.free ∨
    (∃ (pid : Pid) (table : PageTable) (page : Nat) (e : PageEntry),
      k.paging.tables[pid]? = some table ∧ table.entries[page]? = some e ∧ e.frame = some frame) ∨
    ∃ s ∈ k.sessions, ∃ call, s.phase = .busy call ∧ call.stage.frame? = some frame

/-- The slots that a swap area has written down: free ones, and those that pages are in. -/
def KnowsSlot (k : Kernel σ) (slot : Nat) : Prop :=
  slot ∈ k.paging.swap.free ∨ ∃ id, k.paging.swap.lookup id = some slot

/-- Whatever a kernel computes from the sizes of its machine, with swap in so many bytes, can be
computed in words, and stays inside. -/
structure InWords (k : Kernel σ) (c : Config) (swapBytes : Nat) : Prop where
  /-- the frames that are known are there, and a mapping can name them -/
  frame_lt : ∀ f, k.Knows f → f < c.frames ∧ f ≤ Address.maxPageNumber
  /-- a mapping can name the pages that have an entry -/
  page_le : ∀ (pid : Pid) (table : PageTable) (page : Nat) (e : PageEntry),
    k.paging.tables[pid]? = some table → table.entries[page]? = some e →
      page ≤ Address.maxPageNumber
  /-- the bytes of a frame are a slice of memory, and a whole page -/
  frame_bounds : ∀ f < c.frames, ∃ start stop, bounds? c.pageSize f = some (start, stop) ∧
    stop ≤ c.frames * c.pageSize ∧
      ∃ bytes, k.paging.processor.frame f = .ok bytes ∧ bytes.length = c.pageSize
  /-- what an address is translated to is the number of a byte in memory -/
  address_lt : ∀ (address : Nat) (writing : Bool) (l : Location) (p : Processor),
    address < UInt64.size → k.paging.processor.locate address writing = .ok (.ok l, p) →
      ∃ n, address? c.pageSize l.frame l.offset = some n ∧ n < c.frames * c.pageSize
  /-- the bytes of a slot are a slice of the extent -/
  slot_bounds : ∀ slot, k.KnowsSlot slot →
    ∃ start stop, bounds? c.pageSize slot = some (start, stop) ∧ stop ≤ swapBytes
  /-- a process has the pages of its image and its stack, and a mapping can name them -/
  addressSpace : ∀ p ∈ k.processes,
    p.image.addressSpace? c.stackPages = some p.numPages ∧ p.numPages ≤ Address.maxPageNumber + 1
  /-- every page can be loaded into a frame, whatever was there -/
  load : ∀ p ∈ k.processes, ∀ page frame, frame.length = c.pageSize →
    p.image.loadInto? page frame = some (p.image.initialPage page c.pageSize)
  /-- a copy moves a part of its page, and no more bytes than it is to move -/
  copy : ∀ s ∈ k.sessions, ∀ call, s.phase = .busy call →
    ∃ start offset stop moved, call.piece? c.pageSize = some (start, (offset, stop), moved) ∧
      offset ≤ stop ∧ stop ≤ c.pageSize ∧ moved ≤ call.request.count

end Kernel

/-! ## Images and copies -/

namespace Image

variable (image : Image)

/-- No section ends where a word does, for the end of its pages is a page number. -/
theorem addressSpace?_eq (stackPages : Nat) :
    image.addressSpace? stackPages = some (UserProcess.addressSpace image stackPages) := by
  have hfold : ∀ (sections : List Section), (∀ s ∈ sections, s.endPage < UInt64.size) → ∀ last,
      sections.foldlM (fun last s => do return max last (← sum? s.firstPage s.numPages)) last =
        some (sections.foldl (fun last s => max last s.endPage) last) := by
    intro sections
    induction sections with
    | nil => exact fun _ _ => rfl
    | cons s rest ih =>
        intro hsections last
        have hsum : sum? s.firstPage s.numPages = some s.endPage :=
          sum?_eq (hsections s List.mem_cons_self)
        rw [List.foldlM_cons, hsum]
        exact ih (fun t ht => hsections t (List.mem_cons_of_mem s ht)) _
  have hends : ∀ s ∈ image.sections, s.endPage < UInt64.size := by
    intro s hs
    exact Nat.lt_of_le_of_lt (image.fits_of_mem hs).1 (by decide)
  rw [addressSpace?, hfold image.sections hends]
  rfl

/-- The page is loaded from the section that is found for it, at a place inside that section. -/
theorem loadInto?_eq (page : Nat) {frame : List UInt8} (hframe : frame.length = image.pageSize) :
    image.loadInto? page frame = some (image.initialPage page image.pageSize) := by
  rw [loadInto?, initialPage]
  cases hfound : image.sectionAt page with
  | none => simp only [List.map_const', hframe]
  | some found =>
      obtain ⟨index, s⟩ := found
      obtain ⟨hs, hpage⟩ := image.sectionAt_eq_some_place_iff.1 hfound
      rw [PageRun.contains, Bool.and_eq_true, decide_eq_true_iff, decide_eq_true_iff,
        PageRun.endPage] at hpage
      simp only [difference?_eq hpage.1, Option.bind_eq_bind, Option.bind_some]
      exact image.loadPage?_eq hs (by omega) hframe

end Image

variable {g : Geometry}

/-- The page that a copy has come to begins no later than the copy, and the part that is moved ends
with the page, or with the copy. -/
theorem Call.Suits.piece {call : Call} (h : call.Suits g) :
    ∃ start offset stop moved, call.piece? g.pageSize = some (start, (offset, stop), moved) ∧
      offset ≤ stop ∧ stop ≤ g.pageSize ∧ moved ≤ call.request.count := by
  have haddressed := h.addressed
  have hmoved := h.moved_le
  rw [Request.Addressed] at haddressed
  generalize haddress : call.request.address + call.moved.length = address
  have hsum : sum? call.request.address call.moved.length = some address := by
    rw [sum?_eq (by omega), haddress]
  obtain ⟨start, hstart⟩ : ∃ start,
      address? g.pageSize (Address.page g.pageSize address) 0 = some start := by
    refine ⟨_, address?_eq ?_⟩
    rw [Address.join, Nat.add_zero, Address.page]
    exact Nat.lt_of_le_of_lt (Nat.div_mul_le_self _ _) (by omega)
  have hoffset : Address.offset g.pageSize address < g.pageSize := Nat.mod_lt _ g.pageSize_pos
  have hword : g.pageSize < UInt64.size :=
    Nat.lt_of_le_of_lt (Nat.le_mul_of_pos_left _ g.frames_pos) g.memory_lt
  generalize hamount : min (g.pageSize - Address.offset g.pageSize address)
    (call.request.count - call.moved.length) = amount
  have hend : Address.offset g.pageSize address + amount ≤ g.pageSize := by omega
  have hcount : call.moved.length + amount ≤ call.request.count := by omega
  have hstop : sum? (Address.offset g.pageSize address) amount =
      some (Address.offset g.pageSize address + amount) := sum?_eq (by omega)
  have htotal : sum? call.moved.length amount = some (call.moved.length + amount) :=
    sum?_eq (by omega)
  refine ⟨start, _, _, _, ?_, Nat.le_add_right _ amount, hend, hcount⟩
  simp only [piece?, hsum, hstart, difference?_eq (Nat.le_of_lt hoffset), difference?_eq hmoved,
    Option.bind_eq_bind, Option.bind_some, hamount, hstop, htotal]

/-! ## Kernels that fit -/

namespace Kernel

variable {σ : Type} {k : Kernel σ}

/-- The frames that are known are there. -/
theorem Suits.knows_lt (h : k.Suits g) {f : Nat} (hf : k.Knows f) : f < g.frames := by
  rcases hf with hfree | ⟨pid, table, page, e, htable, he, hframe⟩ | ⟨s, hs, call, hphase, hstage⟩
  · exact h.paging.frameTable.free_lt f hfree
  · exact (h.paging.tables pid table htable).frame_lt page e f he hframe
  · have hcall := h.sessions s hs
    rw [hphase] at hcall
    have hsuits := hcall.stage
    generalize call.stage = stage at hstage hsuits
    cases stage with
    | moving frame | unpinning frame =>
        cases hstage
        exact hsuits
    | faulting phase =>
        cases phase with
        | waiting page victim phase | resuming page victim =>
            cases hstage
            exact hsuits
        | missing | notifying => cases hstage
    | _ => cases hstage

/-- A kernel that fits computes in words, in an extent that has room for its slots. -/
theorem Suits.inWords (h : k.Suits g) {c : Config} (hc : c.Suits g) (hframes : c.frames = g.frames)
    {swapBytes : Nat} (hswap : g.numSlots * g.pageSize ≤ swapBytes) : k.InWords c swapBytes := by
  have hpageSize := hc.pageSize_eq
  refine ⟨?_, ?_, ?_, ?_, ?_, ?_, ?_, ?_⟩
  · -- a mapping can name as many frames as there can be
    intro f hf
    have hlt := h.knows_lt hf
    have hle := g.frames_le
    exact ⟨hframes ▸ hlt, by omega⟩
  · intro pid table page e htable he
    have hlt := PageTable.lt_numPages_iff.2 ⟨e, he⟩
    have hle := (h.paging.tables pid table htable).numPages_le
    omega
  · intro f hf
    rw [hframes] at hf
    rw [hframes, hpageSize]
    obtain ⟨start, stop, hbounds, hstop⟩ := exists_bounds? hf g.memory_lt
    obtain ⟨bytes, hget, hlength⟩ := h.paging.processor.exists_frame hf
    refine ⟨start, stop, hbounds, hstop, bytes, ?_, hlength⟩
    rw [Processor.frame, if_pos (h.paging.processor.hasFrame hf), Array.getD_eq_getD_getElem?,
      hget, Option.getD_some]
  · -- the last byte of a frame is before the first of the next one, or at the end of memory
    intro address writing l p haddress hlocate
    have hlocated := (h.paging.processor.locate_safely haddress writing).of_ok hlocate
    obtain ⟨hframe, hoffset⟩ := hlocated.2 l rfl
    have hlt : Address.join g.pageSize l.frame l.offset < g.frames * g.pageSize := by
      have hle : (l.frame + 1) * g.pageSize ≤ g.frames * g.pageSize := Nat.mul_le_mul_right _ hframe
      rw [Nat.succ_mul] at hle
      rw [Address.join]
      omega
    rw [hframes, hpageSize]
    exact ⟨_, address?_eq (Nat.lt_trans hlt g.memory_lt), hlt⟩
  · -- slots are cut from the extent page by page, and what is left at its end is not used
    intro slot hslot
    have hlt : slot < g.numSlots := by
      rcases hslot with hfree | ⟨id, hlookup⟩
      · exact h.paging.swap.free_lt slot hfree
      · exact h.paging.swap.slot_lt id slot hlookup
    rw [hpageSize]
    obtain ⟨start, stop, hbounds, hstop⟩ := exists_bounds? hlt g.swap_lt
    exact ⟨start, stop, hbounds, Nat.le_trans hstop hswap⟩
  · intro p hp
    have hprocess := h.processes p hp
    refine ⟨?_, hprocess.numPages_le⟩
    rw [p.image.addressSpace?_eq, hprocess.numPages_eq, hc.stackPages_eq]
  · intro p hp page frame hframe
    have hsize := (h.processes p hp).pageSize_eq
    rw [hpageSize] at hframe ⊢
    rw [← hsize] at hframe ⊢
    exact p.image.loadInto?_eq page hframe
  · intro s hs call hphase
    have hcall := h.sessions s hs
    rw [hphase] at hcall
    rw [hpageSize]
    exact hcall.piece

end Kernel

/-! ## Validated machines -/

namespace Config

variable {c : Config}

/-- The geometry of a machine that can be built, with swap in an extent of so many bytes. What is
left of the extent after the last whole page is not used. -/
def Sound.geometry (h : c.Sound) {swapBytes : Nat} (hword : swapBytes < UInt64.size) :
    Geometry where
  frames := c.frames
  pageSize := c.pageSize
  cacheSize := c.cacheSize
  numSlots := swapBytes / c.pageSize
  stackPages := c.stackPages
  frames_pos := h.frames_pos
  frames_le := h.frames_le
  pageSize_pos := Nat.pos_of_isPowerOfTwo h.pageSize_pow
  cacheSize_pos := h.cacheSize_pos
  memory_lt := h.memory_lt
  swap_lt := Nat.lt_of_le_of_lt (Nat.div_mul_le_self _ _) hword

end Config

namespace Kernel

variable {σ : Type} [Extent σ] {c : Config} {extent : σ}

/-- The host has no block of memory that is large enough for the memory of a machine, its cache, or
the numbers of its slots, with swap in so many bytes. -/
def LacksBlocks (c : Config) (swapBytes : Nat) : Prop :=
  Address.maxBlock < c.frames * c.pageSize ∨
    Address.maxBlock < c.cacheSize * Mapping.numBytes ∨
    Address.maxBlock < swapBytes / c.pageSize * SwapArea.slotNumberBytes

/-- Nothing but the host keeps the processor and the tables of a machine that can be built from
being built: memory, the cache and the list of free slots are blocks of memory there. -/
theorem freshPaging_outcome (h : c.Sound) (extent : σ) :
    (∃ s, freshPaging c extent = .ok s ∧ s.swap.numSlots = Extent.length extent / c.pageSize) ∨
      freshPaging c extent = .error .blockTooLarge ∧ LacksBlocks c (Extent.length extent) := by
  have hpageSize : c.pageSize ≠ 0 := Nat.ne_of_gt (Nat.pos_of_isPowerOfTwo h.pageSize_pow)
  have hframes : FrameTable.create c.frames =
      .ok ⟨Array.replicate c.frames FrameRecord.empty, List.range c.frames⟩ := by
    have hle := h.frames_le
    rw [FrameTable.create, if_neg (Nat.ne_of_gt h.frames_pos), if_neg (by omega)]
  rw [freshPaging, Processor.create, Address.refuseBlock, Address.refuseBlock, hframes]
  by_cases hmemory : c.frames * c.pageSize ≤ Address.maxBlock
  · by_cases hcache : c.cacheSize * Mapping.numBytes ≤ Address.maxBlock
    · rw [if_pos hmemory, if_pos hcache]
      rcases SwapArea.create_outcome extent hpageSize with ⟨swap, hswap⟩ | ⟨hswap, hslots⟩
      · rw [hswap]
        exact .inl ⟨_, rfl, (SwapArea.create_consistent hswap).2.2.2.1⟩
      · rw [hswap]
        exact .inr ⟨rfl, .inr (.inr hslots)⟩
    · rw [if_pos hmemory, if_neg hcache]
      exact .inr ⟨rfl, .inr (.inl (Nat.lt_of_not_le hcache))⟩
  · rw [if_neg hmemory]
    exact .inr ⟨rfl, .inl (Nat.lt_of_not_le hmemory)⟩

/-- The processor and the tables of a configuration fit its geometry. -/
theorem freshPaging_suits (h : c.Sound) (hword : Extent.length extent < UInt64.size)
    {s : Paging σ} (hfresh : freshPaging c extent = .ok s) : s.Suits (h.geometry hword) := by
  obtain ⟨frameTable, swap, hframes, hswap, rfl⟩ := exists_of_freshPaging hfresh
  refine ⟨⟨rfl, Array.size_replicate, ?_, List.length_replicate, Nat.two_pow_pos 64⟩,
    ?_, ?_, ?_⟩
  · -- each frame is a page of zeros
    intro f bytes hget
    rw [Array.getElem?_replicate] at hget
    split at hget
    · rw [← Option.some.inj hget]
      exact List.length_replicate
    · cases hget
  · -- all frames are free
    rw [FrameTable.create] at hframes
    split at hframes
    · cases hframes
    · split at hframes
      · cases hframes
      · obtain rfl := Except.ok.inj hframes
        exact ⟨Array.size_replicate, fun f hf => List.mem_range.1 hf⟩
  · -- no process has a table
    intro pid table htable
    rw [Std.TreeMap.getElem?_emptyc] at htable
    cases htable
  · -- all slots are free, and no page is in one
    obtain rfl := SwapArea.eq_of_create hswap
    refine ⟨rfl, rfl, fun slot hslot => List.mem_range.1 hslot, ?_⟩
    intro id slot hlookup
    cases (SwapArea.lookup_unused extent c.pageSize _ id).symm.trans hlookup

/-- A machine that is valid is booted, unless the host has no block of memory that is large
enough. -/
theorem boot_outcome (hvalid : c.validate = .ok ())
    (hlength : c.swapLength ≤ Extent.length extent) :
    (∃ k, boot c extent = .ok (.ok k) ∧ c.swapSlots ≤ k.paging.swap.numSlots) ∨
      boot c extent = .error .blockTooLarge ∧ LacksBlocks c (Extent.length extent) := by
  have hsound := Config.sound_of_validate hvalid
  have hboot : boot c extent =
      (freshPaging c extent).map fun paging => .ok { config := c, paging } := by
    rw [boot, hvalid]
    exact if_neg (Nat.not_lt.2 hlength)
  rcases freshPaging_outcome hsound extent with ⟨s, hfresh, hslots⟩ | ⟨hfresh, hlarge⟩
  · refine .inl ⟨{ config := c, paging := s }, by rw [hboot, hfresh]; rfl, ?_⟩
    show c.swapSlots ≤ s.swap.numSlots
    rw [hslots, Nat.le_div_iff_mul_le (Nat.pos_of_isPowerOfTwo hsound.pageSize_pow)]
    exact hlength
  · exact .inr ⟨by rw [hboot, hfresh]; rfl, hlarge⟩

/-- The kernel of a valid machine fits its geometry. -/
theorem boot_suits (h : c.Sound) (hword : Extent.length extent < UInt64.size) {k : Kernel σ}
    (hboot : boot c extent = .ok (.ok k)) : k.Suits (h.geometry hword) := by
  obtain ⟨-, paging, hfresh, rfl⟩ := exists_of_boot hboot
  refine ⟨⟨rfl, rfl⟩, freshPaging_suits h hword hfresh, ?_, ?_⟩
  · intro p hp
    cases hp
  · intro s hs
    cases hs

/-- A machine that is valid, with swap in an extent that has room for its slots, has no number that
is too large. It is booted with all its slots, unless the host lacks the memory. After every run the
kernel computes in words, and no next step halts because of the sizes. All this needs is that a
request ends inside the range of a word, and that a frame or a slot of the cache that is asked for
by number is there. -/
theorem validated_runs_in_words [Extent.Filling σ] (c : Config) (extent : σ)
    (hvalid : c.validate = .ok ()) (hlength : c.swapLength ≤ Extent.length extent)
    (hword : Extent.length extent < UInt64.size) :
    (product? c.swapSlots c.pageSize = some c.swapLength ∧
      product? c.frames c.pageSize = some (c.frames * c.pageSize)) ∧
    ((∃ k, boot c extent = .ok (.ok k) ∧ c.swapSlots ≤ k.paging.swap.numSlots) ∨
      boot c extent = .error .blockTooLarge ∧ LacksBlocks c (Extent.length extent)) ∧
    ∀ (k₀ k : Kernel σ) (events : List Event) (trace : List (Event × Option (Response σ))),
      boot c extent = .ok (.ok k₀) → (∀ e ∈ events, e.Addressed) →
        k₀.performAll events = some (trace, k) →
          k.InWords c (Extent.length extent) ∧
            ∀ event halt, event.Addressed → k.Names c.frames c.cacheSize event →
              k.perform event = some (.error halt) → halt.isGeometric = false := by
  have hsound := Config.sound_of_validate hvalid
  refine ⟨⟨product?_eq hsound.swapLength_lt, product?_eq hsound.memory_lt⟩,
    boot_outcome hvalid hlength, ?_⟩
  intro k₀ k events trace hboot haddressed hrun
  have hsuits : k.Suits (hsound.geometry hword) :=
    (boot_suits hsound hword hboot).performAll haddressed hrun
  refine ⟨?_, ?_⟩
  · exact hsuits.inWords ⟨rfl, rfl⟩ rfl (Nat.div_mul_le_self _ _)
  · intro event halt hevent hnames hhalt
    exact hsuits.perform_safely event hevent hnames _ hhalt

/-- The small machine computes in words while its pages push each other out. A pin that nobody has
taken cannot be taken off, and that it halts then has nothing to do with its sizes. -/
theorem smallMachine_in_words :
    ∃ (k₀ k : Kernel MemoryExtent) (trace : List (Event × Option (Response MemoryExtent)))
      (halt : Halt),
      boot smallConfig (⟨.zeros 1⟩ : MemoryExtent) = .ok (.ok k₀) ∧
        k₀.performAll savedEvents = some (trace, k) ∧ k.InWords smallConfig 1 ∧
          k.perform (.unpin 0) = some (.error halt) ∧ halt.isGeometric = false := by
  have hlast : holdsAfter smallConfig savedEvents (fun k =>
      (k.perform (.unpin 0)).any fun result => !result.toBool) = true := by decide +kernel
  obtain ⟨k₀, k, trace, hboot, hrun, -, hk⟩ := run_of_holdsAfter (by decide) hlast
  obtain ⟨-, -, hruns⟩ := validated_runs_in_words smallConfig (⟨.zeros 1⟩ : MemoryExtent)
    (by decide) (by decide) (by decide)
  obtain ⟨hwords, hhalts⟩ := hruns k₀ k savedEvents trace hboot (by decide) hrun
  obtain ⟨result, hperform, hresult⟩ := (Option.any_eq_true ..).1 hk
  cases result with
  | ok next => cases hresult
  | error halt =>
      exact ⟨k₀, k, trace, halt, hboot, hrun, hwords, hperform,
        hhalts (.unpin 0) halt (by decide) Nat.one_pos hperform⟩

end Kernel

end DemandPaging
