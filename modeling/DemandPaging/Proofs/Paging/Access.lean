import DemandPaging.Proofs.Paging.Cache
import Mathlib.Logic.Function.Basic

/-!
# Accesses keep the invariant

The processor finds the frame of the running process's own page, or misses, or meets a page that may
not be written; it never meets an entry whose frame is not there (`locate_run`). A load gives the
byte that the page is to have, and a store changes that byte of that page and nothing else.
-/

namespace DemandPaging

namespace Processor

variable {p p' : Processor} {address : Nat} {trap : Trap} {l : Location}

theorem loadByte_trap (h : p.locate address false = .ok (.error trap, p')) :
    p.loadByte address = .ok (.error trap, p') := by
  rw [loadByte, h]
  rfl

theorem loadByte_ok (h : p.locate address false = .ok (.ok l, p')) {byte : UInt8}
    (hbyte : p'.byteAt l = .ok byte) : p.loadByte address = .ok (.ok byte, p') := by
  rw [loadByte, h]
  show (p'.byteAt l).bind _ = _
  rw [hbyte]
  rfl

theorem storeByte_trap {byte : UInt8} (h : p.locate address true = .ok (.error trap, p')) :
    p.storeByte address byte = .ok (.error trap, p') := by
  rw [storeByte, h]
  rfl

theorem storeByte_ok {byte : UInt8} (h : p.locate address true = .ok (.ok l, p')) :
    p.storeByte address byte = .ok (.ok (), p'.setByteAt l byte) := by
  rw [storeByte, h]
  rfl

end Processor

namespace Paging

variable {σ : Type} {s : Paging σ} [Extent σ] [Extent.Reliable σ] {live : Population}
  {running : Option Pid} {pid : Pid} {pins : Multiset Nat} {mem : PageId → List UInt8}

namespace Sound

/-- A trap changes nothing but the trap register. -/
theorem raised (h : s.Sound live running pins mem) (address : Nat) :
    Sound { s with processor := { s.processor with badAddress := address } } live running pins
      mem :=
  ⟨⟨h.sized.pageSize_pos, h.sized.length_frame, h.sized.numFrames_eq, h.sized.numFrames_pos,
    h.sized.numFrames_le, h.sized.cache_pos, h.sized.swap_pageSize⟩, h.frames, h.swap, h.inverse,
    h.coherent, ⟨h.keeps.resident, h.keeps.saved, h.keeps.absent, h.keeps.clean, h.keeps.readOnly⟩⟩

/-- The bytes of a page that is in memory and marked as dirty may change. -/
theorem stored (h : s.Sound live running pins mem) {id : PageId} {e : PageEntry} {f : Nat}
    (he : s.tables.find? id = some e) (hf : e.frame = some f)
    (hm : Marked s.processor.cache s.tables running id) {bytes : List UInt8}
    (hlength : bytes.length = s.processor.pageSize) {memory : Array (List UInt8)}
    (hmemory : ∀ g, memory[g]? = if g = f then some bytes else s.processor.memory[g]?)
    (hsize : memory.size = s.processor.memory.size) :
    Sound { s with processor := { s.processor with memory } } live running pins
      (Function.update mem id bytes) := by
  -- only the page itself is in the frame, so pages out of memory are other pages
  have hother : ∀ id' e', s.tables.find? id' = some e' → e'.frame = none → id' ≠ id := by
    rintro id' e' he' hf' rfl
    rw [he] at he'
    obtain rfl := Option.some.inj he'
    rw [hf] at hf'
    cases hf'
  refine ⟨⟨h.sized.pageSize_pos, ?_, hsize.trans h.sized.numFrames_eq,
    h.sized.numFrames_pos.trans_eq hsize.symm, hsize.trans_le h.sized.numFrames_le,
    h.sized.cache_pos, h.sized.swap_pageSize⟩, h.frames, h.swap, h.inverse, h.coherent,
    ⟨?_, ?_, ?_, ?_, h.keeps.readOnly⟩⟩
  · intro g old hg
    have hg : memory[g]? = some old := hg
    rw [hmemory] at hg
    split at hg
    · obtain rfl := Option.some.inj hg
      exact hlength
    · exact h.sized.length_frame g old hg
  · intro id' e' g he' hg
    show memory[g]? = _
    rw [hmemory]
    by_cases hid : id' = id
    · subst hid
      rw [he] at he'
      obtain rfl := Option.some.inj he'
      rw [hf] at hg
      rw [if_pos (Option.some.inj hg).symm, Function.update_self]
    · rw [if_neg, Function.update_of_ne hid]
      · exact h.keeps.resident id' e' g he' hg
      · rintro rfl
        exact hid (h.inverse.frame_inj he' hg he hf)
  · intro id' old hold
    obtain ⟨hmem, e', he', hf'⟩ := h.keeps.saved id' old hold
    rw [Function.update_of_ne (hother id' e' he' hf')]
    exact ⟨hmem, e', he', hf'⟩
  · intro id' e' u he' hf' hnone hu
    rw [Function.update_of_ne (hother id' e' he' hf')]
    exact h.keeps.absent id' e' u he' hf' hnone hu
  · intro id' e' u he' hsome hclean hu
    rw [Function.update_of_ne]
    · exact h.keeps.clean id' e' u he' hsome hclean hu
    · rintro rfl
      exact hclean hm

/-- The used bit of a cache entry may be set, and its dirty bit if its page may be written. -/
theorem touched (h : s.Sound live (some pid) pins mem) {slot : Nat} {c : Mapping}
    (hslot : s.processor.cache[slot]? = some c) (hvalid : c.valid = true) (writing : Bool)
    (hro : writing = true → c.readOnly = false) :
    Sound { s with processor := { s.processor with
      cache := s.processor.cache.set slot ((c.withUsed true).withDirty (c.dirty || writing)) } }
      live (some pid) pins mem := by
  have hmem := List.mem_of_getElem? hslot
  obtain ⟨q, e, hq, he, hf, hr⟩ := h.coherent.agrees c hmem hvalid
  obtain rfl := Option.some.inj hq
  refine h.retag
    (s.processor.cache.set slot ((c.withUsed true).withDirty (c.dirty || writing))) s.tables
    (by rw [List.length_set]; exact h.sized.cache_pos) (fun _ => rfl)
    (fun _ e he => ⟨e, he, rfl, rfl, rfl⟩)
    ⟨fun c' hc' hvalid' => ?_, h.coherent.distinct.replace hslot hvalid (by simp)⟩ ?_ ?_
  · rcases List.mem_or_eq_of_mem_set hc' with hmem' | rfl
    · exact h.coherent.agrees c' hmem' hvalid'
    · exact ⟨pid, e, rfl, by simpa using he, by simpa using hf, by simpa using hr⟩
  · -- what was marked stays marked: the entry keeps a dirty bit that it has
    rintro id (htable | ⟨hrun, c', hc', hvalid', hpage, hd⟩)
    · exact .inl htable
    · obtain ⟨i, hi⟩ := List.mem_iff_getElem?.1 hc'
      by_cases his : i = slot
      · subst his
        rw [hslot] at hi
        obtain rfl := Option.some.inj hi
        have hlt := (List.getElem?_eq_some_iff.1 hslot).1
        exact .inr ⟨hrun, _, List.mem_of_getElem? (List.getElem?_set_self hlt),
          by simpa using hvalid, by simpa using hpage, by simp [hd]⟩
      · refine .inr ⟨hrun, c', List.mem_of_getElem? (i := i) ?_, hvalid', hpage, hd⟩
        rw [List.getElem?_set_ne (Ne.symm his)]
        exact hi
  · -- what is marked now was so before, or is the page of the entry, which may be written
    rintro id (htable | ⟨hrun, c', hc', hvalid', hpage, hd⟩)
    · exact .inl (.inl htable)
    · rcases List.mem_or_eq_of_mem_set hc' with hmem' | rfl
      · exact .inl (.inr ⟨hrun, c', hmem', hvalid', hpage, hd⟩)
      · obtain ⟨q, v⟩ := id
        obtain rfl := Option.some.inj hrun
        obtain rfl : c.page = v := by simpa using hpage
        rw [Mapping.dirty_withDirty, Bool.or_eq_true] at hd
        rcases hd with hd | hw
        · exact .inl (.inr ⟨rfl, c, hmem, hvalid, rfl, hd⟩)
        · refine .inr fun u hu => ?_
          rw [← h.inverse.readOnly_eq _ e u he (by rw [hf]; rfl) hu, hr]
          exact hro hw

end Sound

/-- What comes of looking an address up in the cache of the running process. -/
inductive Located (s : Paging σ) (live : Population) (pid : Pid) (pins : Multiset Nat)
    (mem : PageId → List UInt8) (address : Nat) (writing : Bool) :
    Except Trap Location → Processor → Prop where
  /-- no valid entry is for the page -/
  | miss (h : s.Uncached (Address.page s.processor.pageSize address)) :
      Located s live pid pins mem address writing (.error .miss)
        { s.processor with badAddress := address }
  /-- the entry of a page that may not be written -/
  | readOnly {e : PageEntry} (hw : writing = true)
      (he : s.tables.find? ⟨pid, Address.page s.processor.pageSize address⟩ = some e)
      (hf : e.frame.isSome = true) (hr : e.readOnly = true) :
      Located s live pid pins mem address writing (.error .readOnly)
        { s.processor with badAddress := address }
  /-- the frame of the process's own page -/
  | hit {e : PageEntry} {f : Nat} {cache : List Mapping}
      (he : s.tables.find? ⟨pid, Address.page s.processor.pageSize address⟩ = some e)
      (hf : e.frame = some f) (hr : writing = true → e.readOnly = false)
      (hm : writing = true → Marked cache s.tables (some pid)
        ⟨pid, Address.page s.processor.pageSize address⟩)
      (hs : Sound { s with processor := { s.processor with cache } } live (some pid) pins mem) :
      Located s live pid pins mem address writing
        (.ok ⟨f, Address.offset s.processor.pageSize address⟩) { s.processor with cache }

namespace Sound

/-- The processor misses, or stops at a page that may not be written, or finds the frame. An entry
whose frame is not there does not occur. -/
theorem locate_run (h : s.Sound live (some pid) pins mem) (address : Nat) (writing : Bool) :
    ∃ r p, s.processor.locate address writing = .ok (r, p) ∧
      Located s live pid pins mem address writing r p := by
  have hsplit : Address.split s.processor.pageSize address =
      .ok (Address.page s.processor.pageSize address,
        Address.offset s.processor.pageSize address) := by
    rw [Address.split, if_neg (Nat.ne_of_gt h.sized.pageSize_pos)]
  simp only [Processor.locate, hsplit, bind, Except.bind]
  cases hslot : s.processor.cacheSlot (Address.page s.processor.pageSize address) with
  | none =>
      refine ⟨_, _, rfl, .miss fun c hc hvalid hpage => ?_⟩
      have := List.findIdx?_eq_none_iff.1 hslot c hc
      rw [hvalid, hpage] at this
      simp at this
  | some slot =>
      obtain ⟨hlt, hfound, -⟩ := List.findIdx?_eq_some_iff_getElem.1 hslot
      rw [Bool.and_eq_true, decide_eq_true_iff] at hfound
      obtain ⟨hvalid, hpage⟩ := hfound
      have hget : s.processor.cache[slot]? = some s.processor.cache[slot] :=
        List.getElem?_eq_getElem hlt
      have hentry : s.processor.cacheEntry slot = .ok s.processor.cache[slot] := by
        rw [Processor.cacheEntry, hget]
      obtain ⟨q, e, hq, he, hf, hr⟩ :=
        h.coherent.agrees _ (List.getElem_mem hlt) hvalid
      obtain rfl := Option.some.inj hq
      rw [hpage] at he
      -- the entry's frame has an owner, so it is there
      have hframe : ¬ s.processor.numFrames ≤ s.processor.cache[slot].frame := by
        have := (h.frame_of_resident he hf).2.1
        omega
      simp only [hentry, if_neg hframe]
      by_cases hdenied : (writing && s.processor.cache[slot].readOnly) = true
      · rw [if_pos hdenied]
        rw [Bool.and_eq_true] at hdenied
        exact ⟨_, _, rfl, .readOnly hdenied.1 he (by rw [hf]; rfl) (hr.trans hdenied.2)⟩
      · rw [if_neg hdenied]
        have hro : writing = true → s.processor.cache[slot].readOnly = false := by
          intro hw
          rw [hw, Bool.true_and, Bool.not_eq_true] at hdenied
          exact hdenied
        refine ⟨_, _, rfl, .hit he hf (fun hw => hr.trans (hro hw)) (fun hw => ?_)
          (h.touched hget hvalid writing hro)⟩
        exact .inr ⟨rfl, _, List.mem_of_getElem? (List.getElem?_set_self hlt),
          by simpa using hvalid, by simpa using hpage, by simp [hw]⟩

/-- The page of an entry belongs to a live process, which may write it as the entry says. -/
theorem live_of_resident (h : s.Sound live running pins mem) {id : PageId} {e : PageEntry}
    (he : s.tables.find? id = some e) (hf : e.frame.isSome = true) :
    ∃ u, live id.pid = some u ∧ id.page < u.numPages ∧ e.readOnly = u.image.isReadOnly id.page := by
  obtain ⟨u, hu, hlt⟩ := h.inverse.live_of_find? he
  exact ⟨u, hu, hlt, h.inverse.readOnly_eq id e u he hf hu⟩

/-- A load misses, or gives the byte of the running process's page. -/
theorem loadByte_run (h : s.Sound live (some pid) pins mem) (address : Nat) :
    ∃ r p, s.processor.loadByte address = .ok (r, p) ∧ p.pageSize = s.processor.pageSize ∧
      Sound { s with processor := p } live (some pid) pins mem ∧
      (r = .error .miss ∧ p.badAddress = address ∧
          s.Uncached (Address.page s.processor.pageSize address) ∧ p.cache = s.processor.cache ∨
        ∃ byte u, r = .ok byte ∧ live pid = some u ∧
          Address.page s.processor.pageSize address < u.numPages ∧
          (mem ⟨pid, Address.page s.processor.pageSize address⟩)[
            Address.offset s.processor.pageSize address]? = some byte) := by
  obtain ⟨r, p, hrun, hlocated⟩ := h.locate_run address false
  cases hlocated with
  | miss hun =>
      exact ⟨_, _, Processor.loadByte_trap hrun, rfl, h.raised address, .inl ⟨rfl, rfl, hun, rfl⟩⟩
  | readOnly hw => exact Bool.noConfusion hw
  | @hit e f cache he hf hr hm hs =>
      obtain ⟨u, hu, hlt, -⟩ := h.live_of_resident he (by rw [hf]; rfl)
      obtain ⟨-, -, hbytes⟩ := h.frame_of_resident he hf
      have hlength := h.sized.length_frame _ _ hbytes
      have hoff : Address.offset s.processor.pageSize address <
          (mem ⟨pid, Address.page s.processor.pageSize address⟩).length := by
        rw [hlength]
        exact Nat.mod_lt _ h.sized.pageSize_pos
      have hget := List.getElem?_eq_getElem hoff
      refine ⟨_, { s.processor with cache }, Processor.loadByte_ok hrun ?_, rfl, hs,
        .inr ⟨_, u, rfl, hu, hlt, hget⟩⟩
      simp only [Processor.byteAt, hbytes, Option.bind_some, hget]

/-- A store misses, or stops at a page that may not be written, or changes one byte of the running
process's page. -/
theorem storeByte_run (h : s.Sound live (some pid) pins mem) (address : Nat) (byte : UInt8) :
    ∃ r p, s.processor.storeByte address byte = .ok (r, p) ∧
      p.pageSize = s.processor.pageSize ∧
      (r = .error .miss ∧ p.badAddress = address ∧
          s.Uncached (Address.page s.processor.pageSize address) ∧ p.cache = s.processor.cache ∧
          Sound { s with processor := p } live (some pid) pins mem ∨
        ∃ u, live pid = some u ∧ Address.page s.processor.pageSize address < u.numPages ∧
          (r = .error .readOnly ∧ p.badAddress = address ∧
              u.image.isReadOnly (Address.page s.processor.pageSize address) = true ∧
              Sound { s with processor := p } live (some pid) pins mem ∨
            r = .ok () ∧ u.image.isReadOnly (Address.page s.processor.pageSize address) = false ∧
              Sound { s with processor := p } live (some pid) pins
                (Function.update mem ⟨pid, Address.page s.processor.pageSize address⟩
                  ((mem ⟨pid, Address.page s.processor.pageSize address⟩).set
                    (Address.offset s.processor.pageSize address) byte)))) := by
  obtain ⟨r, p, hrun, hlocated⟩ := h.locate_run address true
  cases hlocated with
  | miss hun =>
      exact ⟨_, _, Processor.storeByte_trap hrun, rfl, .inl ⟨rfl, rfl, hun, rfl, h.raised address⟩⟩
  | readOnly hw he hf hr =>
      obtain ⟨u, hu, hlt, hro⟩ := h.live_of_resident he hf
      exact ⟨_, _, Processor.storeByte_trap hrun, rfl,
        .inr ⟨u, hu, hlt, .inl ⟨rfl, rfl, hro.symm.trans hr, h.raised address⟩⟩⟩
  | @hit e f cache he hf hr hm hs =>
      obtain ⟨u, hu, hlt, hro⟩ := h.live_of_resident he (by rw [hf]; rfl)
      obtain ⟨-, -, hbytes⟩ := h.frame_of_resident he hf
      have hlength := h.sized.length_frame _ _ hbytes
      refine ⟨_, _, Processor.storeByte_ok hrun, rfl,
        .inr ⟨u, hu, hlt, .inr ⟨rfl, hro.symm.trans (hr rfl), ?_⟩⟩⟩
      refine hs.stored he hf (hm rfl) (by rw [List.length_set]; exact hlength) (fun g => ?_)
        Array.size_modify
      rw [Array.getElem?_modify]
      by_cases hg : f = g
      · rw [if_pos hg, if_pos hg.symm, ← hg]
        show (s.processor.memory[f]?).map _ = _
        rw [hbytes]
        rfl
      · rw [if_neg hg, if_neg (Ne.symm hg)]

end Sound

end Paging

end DemandPaging
