import DemandPaging.MappingCache
import DemandPaging.Proofs.Extent
import DemandPaging.Proofs.PageTables
import DemandPaging.Proofs.Results
import DemandPaging.Replacement
import DemandPaging.SwapArea

/-!
# The geometry of a machine

A geometry says how many frames, bytes in a page, cache slots and swap slots there are, and that all
addresses made of them fit a word. The processor and the tables fit it when every number in them
that names a frame, a page or a slot names one that is there. An operation on them that is given
such numbers leaves them fitting, and if it halts then not because of the geometry (`Safely`): no
number is too large for the place it goes to, and no access is outside.

Nothing is said here of what the tables mean. They may contradict each other, and the swap extent
may answer what it likes, as long as it answers with as many bytes as it was asked for.
-/

namespace DemandPaging

/-- The halt is about a number that is too large for its place, or an access that is outside. -/
def Halt.isGeometric : Halt → Bool
  | indexOutOfBounds | divisionByZero | blockTooLarge | emptyRange | pageTooWide _
  | frameTooWide _ | noFrames | tooManyFrames | ownerTooWide _ | emptyPages | partialPageOut
  | partialPageIn => true
  | _ => false

/-- An operation either has a result of this kind, or halts for another reason than the geometry. -/
def Safely {α : Type} (results : α → Prop) : Except Halt α → Prop
  | .ok x => results x
  | .error halt => halt.isGeometric = false

namespace Safely

variable {α β : Type} {results results' : α → Prop} {x : Except Halt α}

theorem mono (h : Safely results x) (himp : ∀ a, results a → results' a) : Safely results' x := by
  cases x with
  | ok a => exact himp a h
  | error halt => exact h

theorem bind {next : α → Except Halt β} {final : β → Prop} (h : Safely results x)
    (hnext : ∀ a, results a → Safely final (next a)) : Safely final (x >>= next) := by
  cases x with
  | ok a => exact hnext a h
  | error halt => exact h

theorem map {f : α → β} {final : β → Prop} (h : Safely results x)
    (hf : ∀ a, results a → final (f a)) : Safely final (x.map f) := by
  cases x with
  | ok a => exact hf a h
  | error halt => exact h

/-- A safe operation that has a result has one of its kind. -/
theorem of_ok {a : α} (h : Safely results x) (hx : x = .ok a) : results a := by
  subst hx
  exact h

end Safely

/-- How many frames, bytes in a page, slots of the cache and slots of the swap area there are, and
how many pages a stack has. -/
structure Geometry where
  frames : Nat
  pageSize : Nat
  cacheSize : Nat
  numSlots : Nat
  stackPages : Nat
  frames_pos : 0 < frames
  frames_le : frames ≤ Address.maxPageNumber + 1
  pageSize_pos : 0 < pageSize
  cacheSize_pos : 0 < cacheSize
  memory_lt : frames * pageSize < UInt64.size
  swap_lt : numSlots * pageSize < UInt64.size

variable {g : Geometry}

/-! ## The processor -/

/-- The processor has the memory and the cache of the geometry, and keeps a word as the address of
the last trap. -/
structure Processor.Suits (g : Geometry) (p : Processor) : Prop where
  pageSize_eq : p.pageSize = g.pageSize
  memory_size : p.memory.size = g.frames
  frame_length : ∀ (f : Nat) (bytes : List UInt8), p.memory[f]? = some bytes →
    bytes.length = g.pageSize
  cache_length : p.cache.length = g.cacheSize
  badAddress_lt : p.badAddress < UInt64.size

/-- The location is inside memory. -/
def Location.Suits (g : Geometry) (l : Location) : Prop :=
  l.frame < g.frames ∧ l.offset < g.pageSize

namespace Processor.Suits

variable {p : Processor} {f : Nat} {bytes : List UInt8}

theorem withCache (h : p.Suits g) {cache : List Mapping} (hlength : cache.length = g.cacheSize) :
    Processor.Suits g { p with cache } :=
  ⟨h.pageSize_eq, h.memory_size, h.frame_length, hlength, h.badAddress_lt⟩

theorem exists_frame (h : p.Suits g) (hf : f < g.frames) :
    ∃ bytes, p.memory[f]? = some bytes ∧ bytes.length = g.pageSize := by
  have hlt : f < p.memory.size := h.memory_size ▸ hf
  have hget : p.memory[f]? = some p.memory[f] := Array.getElem?_eq_getElem hlt
  exact ⟨_, hget, h.frame_length f _ hget⟩

theorem hasFrame (h : p.Suits g) (hf : f < g.frames) : p.hasFrame f = true := by
  rw [Processor.hasFrame, numFrames, h.memory_size, decide_eq_true_iff]
  exact Nat.mul_le_mul_right _ hf

/-- The bytes of a frame are a whole page. -/
theorem frame_safely (h : p.Suits g) (hf : f < g.frames) :
    Safely (fun bytes => bytes.length = g.pageSize) (p.frame f) := by
  obtain ⟨bytes, hget, hlength⟩ := h.exists_frame hf
  rw [Processor.frame, if_pos (h.hasFrame hf)]
  show (p.memory.getD f []).length = _
  rw [Array.getD_eq_getD_getElem?, hget, Option.getD_some, hlength]

theorem setFrame_safely (h : p.Suits g) (hf : f < g.frames) (hbytes : bytes.length = g.pageSize) :
    Safely (Processor.Suits g) (p.setFrame f bytes) := by
  rw [setFrame, if_pos (h.hasFrame hf)]
  refine ⟨h.pageSize_eq, ?_, ?_, h.cache_length, h.badAddress_lt⟩
  · rw [Array.size_setIfInBounds, h.memory_size]
  · intro f' bytes' hget
    rw [Array.getElem?_setIfInBounds] at hget
    split at hget
    · split at hget
      · rw [← Option.some.inj hget, hbytes]
      · cases hget
    · exact h.frame_length f' bytes' hget

theorem cacheEntry_safely (h : p.Suits g) {slot : Nat} (hslot : slot < g.cacheSize) :
    Safely (fun _ => True) (p.cacheEntry slot) := by
  rw [cacheEntry, List.getElem?_eq_getElem (h.cache_length ▸ hslot)]
  trivial

theorem setCacheEntry_safely (h : p.Suits g) {slot : Nat} (hslot : slot < g.cacheSize)
    (e : Mapping) : Safely (Processor.Suits g) (p.setCacheEntry slot e) := by
  rw [setCacheEntry, if_pos (h.cache_length ▸ hslot)]
  exact h.withCache (by rw [List.length_set, h.cache_length])

theorem raise (h : p.Suits g) {address : Nat} (haddress : address < UInt64.size) :
    Processor.Suits g { p with badAddress := address } :=
  ⟨h.pageSize_eq, h.memory_size, h.frame_length, h.cache_length, haddress⟩

/-- What is found for an address is a location inside memory. -/
theorem locate_safely (h : p.Suits g) {address : Nat} (haddress : address < UInt64.size)
    (writing : Bool) :
    Safely (fun x => x.2.Suits g ∧ ∀ l, x.1 = .ok l → l.Suits g) (p.locate address writing) := by
  have hpos : p.pageSize ≠ 0 := by
    rw [h.pageSize_eq]
    exact Nat.ne_of_gt g.pageSize_pos
  have hraise : ∀ trap : Trap, Safely
      (fun x : Except Trap Location × Processor => x.2.Suits g ∧ ∀ l, x.1 = .ok l → l.Suits g)
      (.ok (p.raise address trap)) := by
    intro trap
    exact ⟨h.raise haddress, fun l hl => by cases hl⟩
  have hsplit : Safely (fun x => x.2 < g.pageSize) (Address.split p.pageSize address) := by
    rw [Address.split, if_neg hpos, h.pageSize_eq]
    exact Nat.mod_lt _ g.pageSize_pos
  refine hsplit.bind ?_
  rintro ⟨page, offset⟩ hoffset
  simp only
  split
  · exact hraise .miss
  · rename_i slot hslot
    -- the slot was found in the cache, so it is there
    have hlt : slot < g.cacheSize := by
      rw [← h.cache_length]
      exact (List.findIdx?_eq_some_iff_getElem.1 hslot).1
    refine (h.cacheEntry_safely hlt).bind fun e _ => ?_
    split
    · exact hraise .readOnly
    · split
      · exact hraise .badFrame
      · rename_i hframe
        refine ⟨h.withCache (by rw [List.length_set, h.cache_length]), fun l hl => ?_⟩
        rw [← Except.ok.inj hl]
        exact ⟨h.memory_size ▸ Nat.not_le.1 hframe, hoffset⟩

theorem byteAt_safely (h : p.Suits g) {l : Location} (hl : l.Suits g) :
    Safely (fun _ => True) (p.byteAt l) := by
  obtain ⟨bytes, hget, hlength⟩ := h.exists_frame hl.1
  rw [byteAt, hget, Option.bind_some, List.getElem?_eq_getElem (hlength ▸ hl.2)]
  trivial

theorem setByteAt (h : p.Suits g) (l : Location) (byte : UInt8) : (p.setByteAt l byte).Suits g := by
  refine ⟨h.pageSize_eq, ?_, ?_, h.cache_length, h.badAddress_lt⟩
  · show (p.memory.modify _ _).size = _
    rw [Array.size_modify, h.memory_size]
  · intro f bytes hget
    change (p.memory.modify _ _)[f]? = _ at hget
    rw [Array.getElem?_modify] at hget
    split at hget
    · obtain ⟨bytes', hget', rfl⟩ := Option.map_eq_some_iff.1 hget
      rw [List.length_set]
      exact h.frame_length f bytes' hget'
    · exact h.frame_length f bytes hget

theorem loadByte_safely (h : p.Suits g) {address : Nat} (haddress : address < UInt64.size) :
    Safely (fun x => x.2.Suits g) (p.loadByte address) := by
  refine (h.locate_safely haddress false).bind ?_
  rintro ⟨result, p'⟩ ⟨hp', hl⟩
  cases result with
  | error trap => exact hp'
  | ok l => exact (hp'.byteAt_safely (hl l rfl)).bind fun _ _ => hp'

theorem storeByte_safely (h : p.Suits g) {address : Nat} (haddress : address < UInt64.size)
    (byte : UInt8) : Safely (fun x => x.2.Suits g) (p.storeByte address byte) := by
  refine (h.locate_safely haddress true).bind ?_
  rintro ⟨result, p'⟩ ⟨hp', -⟩
  cases result with
  | error trap => exact hp'
  | ok l => exact hp'.setByteAt l byte

end Processor.Suits

/-! ## Page tables -/

/-- The pages of the table have numbers that a mapping can hold, and their frames are there. -/
structure PageTable.Suits (g : Geometry) (t : PageTable) : Prop where
  numPages_le : t.numPages ≤ Address.maxPageNumber + 1
  frame_lt : ∀ (page : Nat) (e : PageEntry) (f : Nat), t.entries[page]? = some e →
    e.frame = some f → f < g.frames

/-- The frame of the entry, if it has one, is there. -/
def PageEntry.Suits (g : Geometry) (e : PageEntry) : Prop := ∀ f, e.frame = some f → f < g.frames

namespace PageTable.Suits

variable {t : PageTable} {page : Nat} {e : PageEntry}

theorem put (h : t.Suits g) (page : Nat) (he : e.Suits g) : (t.put page e).Suits g := by
  refine ⟨?_, ?_⟩
  · rw [numPages_put]
    exact h.numPages_le
  · intro page' e' f hget hf
    rw [PageTable.put, Array.getElem?_setIfInBounds] at hget
    split at hget
    · split at hget
      · rw [← Option.some.inj hget] at hf
        exact he f hf
      · cases hget
    · exact h.frame_lt page' e' f hget hf

/-- A page that has an entry has a number that a mapping can hold. -/
theorem lookup (h : t.Suits g) (he : t.lookup page = .ok e) :
    page ≤ Address.maxPageNumber ∧ e.Suits g := by
  have hget := lookup_eq_ok_iff.1 he
  have hlt : page < t.numPages := lt_numPages_iff.2 ⟨e, hget⟩
  refine ⟨?_, fun f hf => h.frame_lt page e f hget hf⟩
  exact Nat.le_of_lt_succ (Nat.lt_of_lt_of_le hlt h.numPages_le)

theorem forget (h : t.Suits g) {t' : PageTable} (ht' : t.forget page = .ok t') : t'.Suits g := by
  rw [PageTable.forget] at ht'
  cases hlookup : t.lookup page with
  | error cause =>
      rw [hlookup] at ht'
      cases ht'
  | ok e =>
      rw [hlookup] at ht'
      rw [← Except.ok.inj ht']
      exact h.put page fun f hf => by cases hf

theorem place (h : t.Suits g) {f : Nat} (hf : f < g.frames) {readOnly : Bool} {t' : PageTable}
    (ht' : t.place page f readOnly = .ok t') : t'.Suits g := by
  rw [PageTable.place] at ht'
  cases hlookup : t.lookup page with
  | error cause =>
      rw [hlookup] at ht'
      cases ht'
  | ok e =>
      rw [hlookup] at ht'
      rw [← Except.ok.inj ht']
      refine h.put page fun f' hf' => ?_
      rw [← Option.some.inj hf']
      exact hf

/-- The frames of pages in memory are there. -/
theorem inMemory (h : t.Suits g) : ∀ x ∈ t.inMemory, x.2 < g.frames := by
  intro x hx
  rw [PageTable.inMemory, collect_eq, List.mem_filterMap] at hx
  obtain ⟨page, -, hx⟩ := hx
  obtain ⟨e, hget, hx⟩ := Option.bind_eq_some_iff.1 hx
  split at hx
  · obtain ⟨f, hf, rfl⟩ := Option.map_eq_some_iff.1 hx
    exact h.frame_lt page e f hget hf
  · cases hx

theorem create {numPages : Nat} (h : numPages ≤ Address.maxPageNumber + 1) :
    (PageTable.create numPages).Suits g := by
  refine ⟨?_, ?_⟩
  · rw [PageTable.create, PageTable.numPages, Array.size_replicate]
    exact h
  · intro page e f hget hf
    rw [PageTable.create, Array.getElem?_replicate] at hget
    split at hget
    · rw [← Option.some.inj hget] at hf
      cases hf
    · cases hget

end PageTable.Suits

/-- All page tables fit. -/
def PageTables.Suits (g : Geometry) (t : PageTables) : Prop :=
  ∀ (pid : Pid) (table : PageTable), t[pid]? = some table → table.Suits g

namespace PageTables.Suits

variable {t : PageTables}

theorem insert (h : PageTables.Suits g t) (pid : Pid) {table : PageTable} (htable : table.Suits g) :
    PageTables.Suits g (t.insert pid table) := by
  intro pid' table' hget
  rw [Std.TreeMap.getElem?_insert] at hget
  split at hget
  · rw [← Option.some.inj hget]
    exact htable
  · exact h pid' table' hget

theorem add_safely (h : PageTables.Suits g t) (pid : Pid) {numPages : Nat}
    (hnumPages : numPages ≤ Address.maxPageNumber + 1) :
    Safely (PageTables.Suits g) (PageTables.add t pid numPages) := by
  rw [PageTables.add, PageTables.refuseBlock_eq_ok hnumPages]
  show Safely _ (if _ then _ else _)
  split
  · rfl
  · exact h.insert pid (.create hnumPages)

theorem erase (h : PageTables.Suits g t) (pid : Pid) : PageTables.Suits g (t.erase pid) := by
  intro pid' table' hget
  rw [Std.TreeMap.getElem?_erase] at hget
  split at hget
  · cases hget
  · exact h pid' table' hget

theorem lookup (h : PageTables.Suits g t) {id : PageId} {e : PageEntry}
    (he : PageTables.lookup t id = .ok e) : e.Suits g := by
  obtain ⟨table, htable, hentry⟩ : ∃ table, PageTables.table t id.pid = .ok table ∧
      table.lookup id.page = .ok e := by
    rw [PageTables.lookup] at he
    cases htable : PageTables.table t id.pid with
    | error cause =>
        rw [htable] at he
        cases he
    | ok table =>
        rw [htable] at he
        exact ⟨table, rfl, he⟩
  exact ((h id.pid table (table_eq_ok_iff.1 htable)).lookup hentry).2

theorem put (h : PageTables.Suits g t) (id : PageId) {e : PageEntry} (he : e.Suits g) :
    PageTables.Suits g (PageTables.put t id e) := by
  intro pid table hget
  rw [PageTables.put, Std.TreeMap.getElem?_modify] at hget
  split at hget
  · obtain ⟨table', htable', rfl⟩ := Option.map_eq_some_iff.1 hget
    exact (h _ table' htable').put id.page he
  · exact h pid table hget

end PageTables.Suits

/-! ## The frame table -/

/-- The table has a record for each frame, and every free frame is there. -/
structure FrameTable.Suits (g : Geometry) (t : FrameTable) : Prop where
  size_eq : t.size = g.frames
  free_lt : ∀ f ∈ t.free, f < g.frames

namespace FrameTable.Suits

variable {t : FrameTable} {f : Nat}

theorem put (h : t.Suits g) (f : Nat) (e : FrameRecord) : (t.put f e).Suits g := by
  refine ⟨?_, h.free_lt⟩
  show (t.entries.setIfInBounds f e).size = _
  rw [Array.size_setIfInBounds]
  exact h.size_eq

/-- A frame that is given back can be used again. -/
theorem withFree (h : t.Suits g) (hf : f < g.frames) :
    FrameTable.Suits g { t with free := t.free ++ [f] } := by
  refine ⟨h.size_eq, ?_⟩
  intro f' hf'
  rcases List.mem_append.1 hf' with hf' | hf'
  · exact h.free_lt f' hf'
  · rw [List.mem_singleton.1 hf']
    exact hf

theorem entry_safely (h : t.Suits g) (hf : f < g.frames) :
    Safely (fun _ => True) (t.entry f) := by
  have hlt : f < t.entries.size := Nat.lt_of_lt_of_eq hf h.size_eq.symm
  rw [entry, Array.getElem?_eq_getElem hlt]
  trivial

theorem reserve_safely (h : t.Suits g) :
    Safely (fun x => x.2.Suits g ∧ ∀ f, x.1 = some f → f < g.frames) t.reserve := by
  rw [reserve]
  split
  · exact ⟨h, fun f hf => by cases hf⟩
  · rename_i f free hfree
    have hf : f < g.frames := h.free_lt f (by rw [hfree]; exact List.mem_cons_self)
    have hrest : FrameTable.Suits g { t with free } := by
      refine ⟨h.size_eq, fun f' hf' => h.free_lt f' ?_⟩
      rw [hfree]
      exact List.mem_cons_of_mem f hf'
    refine (h.entry_safely hf).bind fun e _ => ?_
    split
    · rfl
    · refine ⟨hrest.put f _, fun f' hf' => ?_⟩
      rw [← Option.some.inj hf']
      exact hf

theorem occupy_safely (h : t.Suits g) (hf : f < g.frames) {id : PageId}
    (hpage : id.page ≤ Address.maxPageNumber) : Safely (FrameTable.Suits g) (t.occupy f id) := by
  rw [occupy, if_neg (Nat.not_lt.2 hpage)]
  refine (h.entry_safely hf).bind fun e _ => ?_
  split
  · exact h.put f _
  · rfl

theorem vacate_safely (h : t.Suits g) (hf : f < g.frames) :
    Safely (FrameTable.Suits g) (t.vacate f) := by
  refine (h.entry_safely hf).bind fun e _ => ?_
  split
  · exact h.put f _
  · rfl

theorem giveBack_safely (h : t.Suits g) (hf : f < g.frames) :
    Safely (FrameTable.Suits g) (t.giveBack f) := by
  refine (h.entry_safely hf).bind fun e _ => ?_
  split
  · rfl
  · split
    · exact h.vacate_safely hf
    · split
      · rfl
      · exact (h.put f FrameRecord.empty).withFree hf

theorem pin_safely (h : t.Suits g) (hf : f < g.frames) : Safely (FrameTable.Suits g) (t.pin f) := by
  refine (h.entry_safely hf).bind fun e _ => ?_
  split
  · rfl
  · split
    · exact h.put f _
    · rfl

theorem unpin_safely (h : t.Suits g) (hf : f < g.frames) :
    Safely (FrameTable.Suits g) (t.unpin f) := by
  refine (h.entry_safely hf).bind fun e _ => ?_
  split
  · rfl
  · split
    · exact (h.put f FrameRecord.empty).withFree hf
    · exact h.put f _

end FrameTable.Suits

/-! ## The choice of a victim -/

/-- The hand stays on frames that are there, and so does what it finds. -/
theorem Policy.sweep_suits {m : FrameTable} (hm : m.Suits g) (steps : Nat) :
    ∀ (hand : Nat) (t : PageTables), PageTables.Suits g t →
      PageTables.Suits g (sweep m steps hand t).2.2 ∧
        ∀ f, (sweep m steps hand t).1 = .ok f → f < g.frames := by
  induction steps with
  | zero => exact fun hand t ht => ⟨ht, fun f hf => by cases hf⟩
  | succ steps ih =>
      intro hand t ht
      have hframe : hand % m.size < g.frames := by
        rw [hm.size_eq]
        exact Nat.mod_lt _ g.frames_pos
      simp only [sweep]
      split
      · exact ih _ t ht
      · split
        · exact ih _ t ht
        · split
          · exact ⟨ht, fun f hf => by cases hf⟩
          · rename_i e he
            split
            · exact ⟨ht, fun f hf => by cases hf⟩
            · split
              · -- the entry loses its bit and keeps its frame
                exact ih _ _ (ht.put _ fun f hf => ht.lookup he f hf)
              · refine ⟨ht, fun f hf => ?_⟩
                rw [← Except.ok.inj hf]
                exact hframe

theorem Policy.select_suits {m : FrameTable} (hm : m.Suits g) (policy : Policy) {t : PageTables}
    (ht : PageTables.Suits g t) : PageTables.Suits g (policy.select m t).2.2 ∧
      ∀ f, (policy.select m t).1 = .ok f → f < g.frames := by
  cases policy with
  | clock hand => exact sweep_suits hm _ hand t ht
  | random generator =>
      refine ⟨ht, fun f hf => ?_⟩
      change (draw generator m).1 = _ at hf
      rw [draw] at hf
      split at hf
      · rename_i f' hget
        rw [← Except.ok.inj hf, ← hm.size_eq]
        have hmem := List.mem_of_getElem? hget
        rw [candidates, List.mem_filter, List.mem_range] at hmem
        exact hmem.1
      · cases hf

/-! ## The mapping cache -/

namespace MappingCache

variable {p : Processor} {table : PageTable}

/-- Syncing the cache changes bits of entries, and neither their frames nor how many there are. -/
theorem syncSlots_suits (invalidate : Bool) (cache : List Mapping) :
    ∀ {table : PageTable}, table.Suits g →
      (syncSlots invalidate cache table).2.1.length = cache.length ∧
        (syncSlots invalidate cache table).2.2.Suits g := by
  induction cache with
  | nil => exact fun ht => ⟨rfl, ht⟩
  | cons c rest ih =>
      intro table ht
      rw [syncSlots]
      split
      · exact ⟨rfl, ht⟩
      · rename_i c' table' hslot
        have htable' : table'.Suits g := by
          rw [syncSlot] at hslot
          split at hslot
          · obtain ⟨-, rfl⟩ := Prod.mk.inj (Except.ok.inj hslot)
            exact ht
          · split at hslot
            · cases hslot
            · rename_i e he
              split at hslot
              · cases hslot
              · obtain ⟨-, rfl⟩ := Prod.mk.inj (Except.ok.inj hslot)
                exact ht.put _ fun f hf => (ht.lookup he).2 f hf
        obtain ⟨hlength, hfits⟩ := ih htable'
        exact ⟨by simp only [List.length_cons, hlength], hfits⟩

theorem sync_suits (hp : p.Suits g) (ht : table.Suits g) (invalidate : Bool) :
    (sync p table invalidate).2.1.Suits g ∧ (sync p table invalidate).2.2.Suits g := by
  obtain ⟨hlength, hfits⟩ := syncSlots_suits invalidate p.cache ht
  exact ⟨hp.withCache (hlength.trans hp.cache_length), hfits⟩

theorem dropFrame_suits (hp : p.Suits g) (f : Nat) : (dropFrame p f).Suits g :=
  hp.withCache (by rw [List.length_map, hp.cache_length])

theorem flush_suits (hp : p.Suits g) : (flush p).Suits g :=
  hp.withCache (by rw [List.length_map, hp.cache_length])

/-- The slot to be overwritten is one of the cache. -/
theorem slotToFill_safely (hp : p.Suits g) (ht : table.Suits g) (r : Random) :
    Safely (fun x => x.2.1.Suits g ∧ x.2.2.1.Suits g ∧ ∀ slot, x.1 = .ok slot → slot < g.cacheSize)
      (slotToFill p table r) := by
  rw [slotToFill]
  split
  · rename_i slot hslot
    refine ⟨hp, ht, fun slot' hslot' => ?_⟩
    rw [← Except.ok.inj hslot', ← hp.cache_length]
    exact (List.findIdx?_eq_some_iff_getElem.1 hslot).1
  · obtain ⟨hp', ht'⟩ := sync_suits hp ht false
    split
    · rename_i cause p' table' hsync
      rw [hsync] at hp' ht'
      exact ⟨hp', ht', fun slot hslot => by cases hslot⟩
    · rename_i p' table' hsync
      rw [hsync] at hp' ht'
      have hbelow : Safely (fun x => x.1 < g.cacheSize) (r.below p'.cache.length) := by
        rw [hp'.cache_length, Random.below, if_neg (Nat.ne_of_gt g.cacheSize_pos)]
        exact Nat.mod_lt _ g.cacheSize_pos
      refine hbelow.bind fun x hx => ⟨hp', ht', fun slot hslot => ?_⟩
      rw [← Except.ok.inj hslot]
      exact hx

/-- Both numbers of a mapping that is loaded fit it. -/
theorem load_safely (hp : p.Suits g) {slot page : Nat} {e : PageEntry} (hslot : slot < g.cacheSize)
    (hpage : page ≤ Address.maxPageNumber) (he : e.Suits g) :
    Safely (Processor.Suits g) (load p slot page e) := by
  rw [load]
  split
  · rename_i f _ hf
    have hframe : f ≤ Address.maxPageNumber :=
      Nat.le_of_lt_succ (Nat.lt_of_lt_of_le (he f hf) g.frames_le)
    rw [Mapping.create, if_neg (Nat.not_lt.2 hpage), if_neg (Nat.not_lt.2 hframe)]
    exact hp.setCacheEntry_safely hslot _
  · rfl

end MappingCache

/-! ## The swap area -/

/-- The area has the slots of the geometry, and every slot that is free or that a page is in is one
of them. -/
structure SwapArea.Suits {σ : Type} (g : Geometry) (s : SwapArea σ) : Prop where
  pageSize_eq : s.pageSize = g.pageSize
  numSlots_eq : s.numSlots = g.numSlots
  free_lt : ∀ slot ∈ s.free, slot < g.numSlots
  slot_lt : ∀ id slot, s.lookup id = some slot → slot < g.numSlots

namespace SwapArea.Suits

variable {σ : Type} {s : SwapArea σ} {id : PageId} {slot : Nat}

theorem withExtent (h : s.Suits g) (extent : σ) : SwapArea.Suits g { s with extent } :=
  ⟨h.pageSize_eq, h.numSlots_eq, h.free_lt, h.slot_lt⟩

theorem vacate (h : s.Suits g) (hslot : slot < g.numSlots) (id : PageId) :
    (s.vacate id slot).Suits g := by
  refine ⟨h.pageSize_eq, h.numSlots_eq, ?_, ?_⟩
  · intro slot' hslot'
    rcases List.mem_append.1 hslot' with hslot' | hslot'
    · exact h.free_lt slot' hslot'
    · rw [List.mem_singleton.1 hslot']
      exact hslot
  · intro id' slot' hlookup
    rw [lookup, SwapArea.vacate, Std.TreeMap.getElem?_erase] at hlookup
    split at hlookup
    · cases hlookup
    · exact h.slot_lt id' slot' hlookup

theorem vacateAll (pages : List (PageId × Nat)) :
    ∀ {s : SwapArea σ}, s.Suits g → (∀ x ∈ pages, x.2 < g.numSlots) →
      (pages.foldl (fun s x => s.vacate x.1 x.2) s).Suits g := by
  induction pages with
  | nil => exact fun hs _ => hs
  | cons x rest ih =>
      intro s hs hpages
      rw [List.foldl_cons]
      apply ih (hs.vacate (hpages x List.mem_cons_self) x.1)
      exact fun y hy => hpages y (List.mem_cons_of_mem _ hy)

theorem releaseAll (h : s.Suits g) (pid : Pid) : (s.releaseAll pid).2.Suits g := by
  apply vacateAll (s.pagesOf pid) h
  intro x hx
  have hmem : (x.1, x.2) ∈ s.slots.toList := (List.mem_filter.1 hx).1
  exact h.slot_lt x.1 x.2 (Std.TreeMap.mem_toList_iff_getElem?_eq_some.1 hmem)

variable [Extent σ]

theorem store_safely (h : s.Suits g) {data : List UInt8} (hdata : data.length = g.pageSize) :
    Safely (fun x => x.2.Suits g) (s.store id data) := by
  rw [store, if_neg (not_not.2 (hdata.trans h.pageSize_eq.symm))]
  split
  · exact h
  · split
    · exact h
    · rename_i slot free hfree
      split
      · exact h.withExtent _
      · refine ⟨h.pageSize_eq, h.numSlots_eq, ?_, ?_⟩
        · intro slot' hslot'
          refine h.free_lt slot' ?_
          rw [hfree]
          exact List.mem_cons_of_mem slot hslot'
        · intro id' slot' hlookup
          rw [lookup, Std.TreeMap.getElem?_insert] at hlookup
          split at hlookup
          · rw [← Option.some.inj hlookup]
            exact h.free_lt slot (by rw [hfree]; exact List.mem_cons_self)
          · exact h.slot_lt id' slot' hlookup

theorem fetch_safely [Extent.Filling σ] (h : s.Suits g) {frameSize : Nat}
    (hsize : frameSize = g.pageSize) :
    Safely (fun x => x.2.Suits g ∧ ∀ data, x.1 = .ok data → data.length = g.pageSize)
      (s.fetch id slot frameSize) := by
  rw [fetch, if_neg (not_not.2 (hsize.trans h.pageSize_eq.symm))]
  split
  · rename_i hslot
    split
    · exact ⟨h.withExtent _, fun data hdata => by cases hdata⟩
    · rename_i data extent hread
      refine ⟨(h.withExtent extent).vacate (h.slot_lt id slot hslot.2) id, fun data' hdata' => ?_⟩
      rw [← Except.ok.inj hdata', Extent.Filling.length_read hread, h.pageSize_eq]
  · exact ⟨h, fun data hdata => by cases hdata⟩

end SwapArea.Suits

end DemandPaging
