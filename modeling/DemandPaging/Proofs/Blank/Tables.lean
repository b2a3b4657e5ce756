import DemandPaging.Proofs.Blank.Mirror

/-!
# The processor and the swap area without byte values

What the processor, its mapping cache and the swap area do is decided without a look at a byte: each
of their operations is mirrored by itself on memory and slots that hold no values.
-/

namespace DemandPaging

/-! ## The processor -/

namespace Processor

variable (p : Processor)

@[simp] theorem numFrames_erased : p.erased.numFrames = p.numFrames := Array.size_map

theorem hasFrame_erased (frame : Nat) : p.erased.hasFrame frame = p.hasFrame frame := by
  rw [hasFrame, numFrames_erased]
  rfl

theorem frame_erased (frame : Nat) : p.erased.frame frame = (p.frame frame).map blank := by
  rw [Processor.frame, hasFrame_erased, Processor.frame]
  split
  · refine congrArg Except.ok ?_
    show (p.memory.map blank).getD frame [] = _
    rw [Array.getD_eq_getD_getElem?, Array.getElem?_map, Array.getD_eq_getD_getElem?]
    cases p.memory[frame]? <;> rfl
  · rfl

theorem frame_mirrors (frame : Nat) :
    Mirrors blank (fun _ => True) (p.frame frame) (p.erased.frame frame) :=
  ⟨p.frame_erased frame, fun _ _ => trivial⟩

/-- As many frames as another processor has. -/
def FramesOf (p' : Processor) : Prop := p'.memory.size = p.memory.size

theorem setFrame_mirrors (frame : Nat) (bytes : List UInt8) :
    Mirrors erased p.FramesOf (p.setFrame frame bytes) (p.erased.setFrame frame (blank bytes)) := by
  rw [setFrame, setFrame, hasFrame_erased]
  split
  · refine ⟨congrArg Except.ok ?_, fun p' hp => ?_⟩
    · simp [erased, Array.map_setIfInBounds]
    · obtain rfl := Except.ok.inj hp
      exact Array.size_setIfInBounds
  · exact .error _

theorem setCacheEntry_mirrors (slot : Nat) (e : Mapping) :
    Mirrors erased p.FramesOf (p.setCacheEntry slot e) (p.erased.setCacheEntry slot e) := by
  rw [setCacheEntry, setCacheEntry]
  show Mirrors _ _ _ (if slot < p.cache.length then _ else _)
  split
  · exact .ok rfl
  · exact .error _

theorem locate_mirrors (address : Nat) (writing : Bool) :
    Mirrors (Prod.map id erased) (fun x => p.FramesOf x.2) (p.locate address writing)
      (p.erased.locate address writing) := by
  rw [locate, locate]
  refine (Mirrors.refl (Address.split p.pageSize address)).bind fun x _ => ?_
  obtain ⟨page, offset⟩ := x
  have hslot : p.erased.cacheSlot page = p.cacheSlot page := rfl
  simp only [id_eq, hslot]
  cases p.cacheSlot page with
  | none => exact .ok rfl
  | some slot =>
      refine (Mirrors.refl (p.cacheEntry slot)).bind fun e _ => ?_
      simp only [id_eq, numFrames_erased]
      split
      · exact .ok rfl
      · split
        · exact .ok rfl
        · exact .ok rfl

theorem byteAt_mirrors (l : Location) :
    Mirrors (fun _ => 0) (fun _ => True) (p.byteAt l) (p.erased.byteAt l) := by
  have hbyte : p.erased.memory[l.frame]?.bind (·[l.offset]?) =
      (p.memory[l.frame]?.bind (·[l.offset]?)).map fun _ => 0 := by
    rw [show p.erased.memory[l.frame]? = p.memory[l.frame]?.map blank from Array.getElem?_map ..]
    cases p.memory[l.frame]? with
    | none => rfl
    | some bytes => exact List.getElem?_map ..
  rw [byteAt, byteAt, hbyte]
  cases p.memory[l.frame]?.bind (·[l.offset]?) with
  | none => exact .error _
  | some byte => exact .ok trivial

theorem setByteAt_erased (l : Location) (byte : UInt8) :
    p.erased.setByteAt l 0 = (p.setByteAt l byte).erased := by
  have hmemory : (p.memory.map blank).modify l.frame (·.set l.offset 0) =
      (p.memory.modify l.frame (·.set l.offset byte)).map blank := by
    refine Array.ext_getElem? fun i => ?_
    rw [Array.getElem?_map, Array.getElem?_modify, Array.getElem?_modify, Array.getElem?_map]
    split
    · cases p.memory[i]? with
      | none => rfl
      | some bytes => exact congrArg some (blank_set l.offset byte).symm
    · rfl
  rw [setByteAt, setByteAt, erased, erased]
  exact congrArg (fun memory => { p with memory := memory }) hmemory

/-- Loading a byte answers and traps in the same way whatever the byte is. -/
theorem loadByte_mirrors (address : Nat) :
    Mirrors (fun x => (x.1.map fun _ => 0, erased x.2)) (fun x => p.FramesOf x.2)
      (p.loadByte address) (p.erased.loadByte address) := by
  rw [loadByte, loadByte]
  refine (p.locate_mirrors address false).bind fun x hx => ?_
  obtain ⟨result, p'⟩ := x
  cases result with
  | error trap => exact .ok hx
  | ok l => exact (p'.byteAt_mirrors l).bind fun byte _ => .ok hx

theorem storeByte_mirrors (address : Nat) (byte : UInt8) :
    Mirrors (Prod.map id erased) (fun x => p.FramesOf x.2) (p.storeByte address byte)
      (p.erased.storeByte address 0) := by
  rw [storeByte, storeByte]
  refine (p.locate_mirrors address true).bind fun x hx => ?_
  obtain ⟨result, p'⟩ := x
  cases result with
  | error trap => exact .ok hx
  | ok l =>
      show Mirrors _ _ _ (Except.ok (Except.ok (), p'.erased.setByteAt l 0))
      rw [p'.setByteAt_erased l byte]
      exact .ok ((Array.size_modify ..).trans hx)

end Processor

/-! ## The mapping cache -/

namespace MappingCache

variable (p : Processor)

theorem sync_erased (table : PageTable) (invalidate : Bool) :
    sync p.erased table invalidate = ((sync p table invalidate).1,
      (sync p table invalidate).2.1.erased, (sync p table invalidate).2.2) := rfl

theorem framesOf_sync (table : PageTable) (invalidate : Bool) :
    p.FramesOf (sync p table invalidate).2.1 := rfl

theorem slotToFill_mirrors (table : PageTable) (r : Random) :
    Mirrors (fun x => (x.1, x.2.1.erased, x.2.2)) (fun x => p.FramesOf x.2.1)
      (slotToFill p table r) (slotToFill p.erased table r) := by
  have hempty : emptySlot p.erased = emptySlot p := rfl
  rw [slotToFill, slotToFill, hempty, sync_erased]
  cases emptySlot p with
  | some slot => exact .ok rfl
  | none =>
      have hframes := framesOf_sync p table false
      generalize sync p table false = synced at hframes ⊢
      obtain ⟨result, p', table'⟩ := synced
      cases result with
      | error cause => exact .ok hframes
      | ok _ => exact (Mirrors.refl (r.below p'.cache.length)).bind fun x _ => .ok hframes

theorem load_mirrors (slot page : Nat) (e : PageEntry) :
    Mirrors Processor.erased p.FramesOf (load p slot page e) (load p.erased slot page e) := by
  rw [load, load]
  cases e.valid with
  | false => exact .error _
  | true =>
      cases e.frame with
      | none => exact .error _
      | some frame =>
          exact (Mirrors.refl (Mapping.create page frame e.readOnly)).bind fun c _ =>
            p.setCacheEntry_mirrors slot (c.withDirty e.dirty)

end MappingCache

/-! ## The swap area -/

namespace SwapArea

variable {σ : Type}

/-- Freeing the slots of a process needs none of the bytes in them. -/
theorem releaseAll_erased (s : SwapArea σ) (pid : Pid) :
    s.erased.releaseAll pid = ((s.releaseAll pid).1, (s.releaseAll pid).2.erased) := by
  refine Prod.ext rfl ?_
  show (s.pagesOf pid).foldl _ s.erased = erased ((s.pagesOf pid).foldl _ s)
  exact List.foldl_hom erased fun _ _ => rfl

variable [Extent σ] [Extent.Reliable σ] {s : SwapArea σ}

theorem store_mirrors (h : s.Sound) (page : PageId) (data : List UInt8) :
    Mirrors (Prod.map id erased) (fun x => x.2.Sound) (s.store page data)
      (s.erased.store page (blank data)) := by
  have hlookup : s.erased.lookup page = s.lookup page := rfl
  by_cases hdata : data.length = s.pageSize
  · have hdata' : (blank data).length = s.erased.pageSize := length_blank.trans hdata
    cases hid : s.lookup page with
    | some slot =>
        rw [store, store, if_neg (not_not.2 hdata), if_neg (not_not.2 hdata'), hlookup, hid]
        exact .ok h
    | none =>
        cases hfree : s.free with
        | nil =>
            rw [Sound.store_exhausted hfree hid hdata,
              Sound.store_exhausted (s := s.erased) hfree (hlookup.trans hid) hdata']
            exact .ok h
        | cons slot rest =>
            obtain ⟨extent, hstore, hsound, -⟩ := h.store_claim hfree hid hdata
            have hstore' : s.erased.store page (blank data) =
                .ok (.ok slot, (s.claim extent page slot rest).erased) := by
              have hfree' : s.erased.free = slot :: rest := hfree
              rw [store, if_neg (not_not.2 hdata'), hlookup, hid, hfree']
              rfl
            rw [hstore, hstore']
            exact .ok hsound
  · have hdata' : (blank data).length ≠ s.erased.pageSize := fun heq =>
      hdata (length_blank.symm.trans heq)
    rw [store, store, if_pos hdata, if_pos hdata']
    exact .error _

theorem fetch_mirrors (h : s.Sound) (id : PageId) (slot frameSize : Nat) :
    Mirrors (fun x => (x.1.map blank, x.2.erased)) (fun x => x.2.Sound)
      (s.fetch id slot frameSize) (s.erased.fetch id slot frameSize) := by
  have hlookup : s.erased.lookup id = s.lookup id := rfl
  have howner : s.erased.owner slot = s.owner slot := rfl
  by_cases hsize : frameSize = s.pageSize
  · have hsize' : frameSize = s.erased.pageSize := hsize
    by_cases hid : s.lookup id = some slot
    · have hown : s.owner slot = some id.pid := (h.owner_iff slot id.pid).2 ⟨id.page, hid⟩
      have hsaved : s.saved? id = some (s.bytesAt slot) := by rw [saved?, hid]; rfl
      obtain ⟨extent, hfetch, hsound, -⟩ := h.fetch_vacate hid hsaved hsize
      have hfetch' : s.erased.fetch id slot frameSize =
          .ok (.ok (blank (s.bytesAt slot)), ({ s with extent }.vacate id slot).erased) := by
        rw [fetch, if_neg (not_not.2 hsize'), if_pos ⟨howner.trans hown, hlookup.trans hid⟩,
          blank_eq_replicate, h.length_saved hsaved]
        rfl
      rw [hfetch, hfetch']
      exact .ok hsound
    · rw [fetch, fetch, if_neg (not_not.2 hsize), if_neg (not_not.2 hsize'),
        if_neg fun hboth => hid hboth.2, if_neg fun hboth => hid (hlookup.symm.trans hboth.2)]
      exact .ok h
  · have hsize' : frameSize ≠ s.erased.pageSize := hsize
    rw [fetch, fetch, if_pos hsize, if_pos hsize']
    exact .error _

end SwapArea

end DemandPaging
