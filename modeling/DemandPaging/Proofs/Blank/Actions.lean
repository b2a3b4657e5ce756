import DemandPaging.Paging.Copy
import DemandPaging.Paging.Fault
import DemandPaging.Paging.Reclaim
import DemandPaging.Proofs.Blank.Tables

/-!
# Actions that are blind to byte values

Every action on the tables is blind, from the small ones up to the handling of a whole miss: bytes
are moved between frames, slots and images, and counted, but nothing is decided by their values.
-/

namespace DemandPaging.Paging

variable {σ : Type} [Extent σ] [Extent.Reliable σ] {frames : Nat}

theorem count_blind (change : Counters → Counters) :
    Blind (σ := σ) frames id (count change) (count change) :=
  .of_modify fun _ hs => ⟨rfl, hs.swap, hs.frames_eq⟩

/-! ## Small actions -/

theorem changeFrames_blind (change : FrameTable → Except Halt FrameTable) :
    Blind (σ := σ) frames id (changeFrames change) (changeFrames change) :=
  .get_bind fun _ _ => .orHalt_bind (.refl _) fun _ _ =>
    .of_modify fun _ hs => ⟨rfl, hs.swap, hs.frames_eq⟩

theorem reserveFrame_blind : Blind (σ := σ) frames id reserveFrame reserveFrame :=
  .get_bind fun _ _ => .orHalt_bind (.refl _) fun (found, _) _ =>
    Blind.bind (.of_modify fun _ hs => ⟨rfl, hs.swap, hs.frames_eq⟩) fun _ => .of_pure found

theorem frameBytes_blind (frame : Nat) :
    Blind (σ := σ) frames blank (frameBytes frame) (frameBytes frame) :=
  .get_bind fun s _ => .of_orHalt (s.processor.frame_erased frame)

theorem setFrameBytes_blind (frame : Nat) (bytes : List UInt8) :
    Blind (σ := σ) frames id (setFrameBytes frame bytes) (setFrameBytes frame (blank bytes)) :=
  .get_bind fun s hs => .orHalt_bind (s.processor.setFrame_mirrors frame bytes) fun _ hp =>
    .of_modify fun _ hs' => ⟨rfl, hs'.swap, hp.trans hs.frames_eq⟩

theorem tableOf_blind (pid : Pid) : Blind (σ := σ) frames id (tableOf pid) (tableOf pid) :=
  .get_bind fun _ _ => .of_orFail _

theorem setTable_blind (pid : Pid) (table : PageTable) :
    Blind (σ := σ) frames id (setTable pid table) (setTable pid table) :=
  .of_modify fun _ hs => ⟨rfl, hs.swap, hs.frames_eq⟩

theorem putEntry_blind (page : PageId) (entry : PageEntry) :
    Blind (σ := σ) frames id
      (modify fun s => { s with tables := PageTables.put s.tables page entry })
      (modify fun s => { s with tables := PageTables.put s.tables page entry }) :=
  .of_modify fun _ hs => ⟨rfl, hs.swap, hs.frames_eq⟩

theorem entryOf_blind (page : PageId) :
    Blind (σ := σ) frames id (entryOf page) (entryOf page) :=
  (tableOf_blind page.pid).bind fun _ => .of_orFail _

theorem flush_blind : Blind (σ := σ) frames id flush flush :=
  .of_modify fun _ hs => ⟨rfl, hs.swap, hs.frames_eq⟩

theorem syncCache_blind (pid : Pid) (invalidate : Bool) :
    Blind (σ := σ) frames id (syncCache pid invalidate) (syncCache pid invalidate) :=
  (tableOf_blind pid).bind fun table => .get_bind fun s hs =>
    Blind.bind (.of_modify fun _ hs' => ⟨rfl, hs'.swap,
      (MappingCache.framesOf_sync s.processor table invalidate).trans hs.frames_eq⟩) fun _ =>
    (setTable_blind pid _).bind fun _ => .of_orFail _

theorem saveCache_blind (pid : Pid) :
    Blind (σ := σ) frames id (saveCache pid) (saveCache pid) := by
  refine .get_bind fun s _ => ?_
  rw [tables_erased]
  split
  · exact syncCache_blind pid true
  · exact flush_blind

theorem loadMapping_blind (page : PageId) :
    Blind (σ := σ) frames id (loadMapping page) (loadMapping page) := by
  refine (tableOf_blind page.pid).bind fun table => (Blind.of_orFail _).bind fun entry =>
    .get_bind fun s hs => ?_
  refine .orHalt_bind (MappingCache.slotToFill_mirrors s.processor table s.rng) fun x hx => ?_
  obtain ⟨result, processor, table', rng⟩ := x
  have hprocessor : processor.memory.size = frames := hx.trans hs.frames_eq
  refine Blind.bind (.of_modify fun _ hs' => ⟨rfl, hs'.swap, hprocessor⟩) fun _ =>
    (setTable_blind page.pid table').bind fun _ => (Blind.of_orFail result).bind fun slot => ?_
  exact .orHalt_bind (MappingCache.load_mirrors processor slot page.page entry) fun p hp =>
    .of_modify fun _ hs' => ⟨rfl, hs'.swap, hp.trans hprocessor⟩

theorem swapOut_blind (page : PageId) (bytes : List UInt8) :
    Blind (σ := σ) frames id (swapOut page bytes) (swapOut page (blank bytes)) := by
  refine .get_bind fun s hs => .orHalt_bind (SwapArea.store_mirrors hs.swap page bytes)
    fun x hx => ?_
  obtain ⟨result, swap⟩ := x
  exact Blind.bind (.of_modify fun _ hs' => ⟨rfl, hx, hs'.frames_eq⟩) fun _ =>
    (Blind.of_orFail result).bind fun _ => .of_pure ()

theorem swapIn_blind (page : PageId) (slot frameSize : Nat) :
    Blind (σ := σ) frames blank (swapIn page slot frameSize) (swapIn page slot frameSize) := by
  refine .get_bind fun s hs =>
    .orHalt_bind (SwapArea.fetch_mirrors hs.swap page slot frameSize) fun x hx => ?_
  obtain ⟨result, swap⟩ := x
  exact Blind.bind (.of_modify fun _ hs' => ⟨rfl, hx, hs'.frames_eq⟩) fun _ =>
    fun s hs => ⟨rfl, fun _ h => Except.ok.inj h ▸ hs⟩

theorem pinForCopy_blind (page : PageId) (writing : Bool) :
    Blind (σ := σ) frames id (pinForCopy page writing) (pinForCopy page writing) := by
  refine (entryOf_blind page).bind fun entry => ?_
  rw [id_eq]
  split
  · split
    · exact .of_pure _
    · exact (putEntry_blind page _).bind fun _ => (changeFrames_blind _).bind fun _ => .of_pure _
  · exact .of_pure _

/-! ## Eviction -/

theorem residentEntry_blind (frame : Nat) (page : PageId) :
    Blind (σ := σ) frames id (residentEntry frame page) (residentEntry frame page) := by
  refine .get_bind fun s _ => ?_
  rw [tables_erased]
  split
  · split
    · exact .of_pure _
    · exact .of_throw _
  · exact .of_throw _

theorem invalidate_blind (frame : Nat) (page : PageId) :
    Blind (σ := σ) frames id (invalidate frame page) (invalidate frame page) := by
  refine (tableOf_blind page.pid).bind fun table => .get_bind fun s hs => ?_
  exact Blind.bind (.of_modify fun _ hs' => ⟨rfl, hs'.swap, hs.frames_eq⟩) fun _ =>
    (Blind.of_orFail _).bind fun table' => setTable_blind page.pid table'

theorem save_blind (frame : Nat) (page : PageId) (entry : PageEntry) :
    Blind (σ := σ) frames id (save frame page entry) (save frame page entry) := by
  rw [save, save]
  split
  · exact (frameBytes_blind frame).bind fun bytes => (swapOut_blind page bytes).bind fun _ =>
      count_blind _
  · exact .of_pure ()

theorem evict_blind (victim : Nat) : Blind (σ := σ) frames id (evict victim) (evict victim) := by
  refine .get_bind fun s _ => ?_
  rw [frameTable_erased]
  split
  · exact .of_pure ()
  · rename_i page _
    exact (residentEntry_blind victim page).bind fun entry =>
      (save_blind victim page entry).bind fun _ => (invalidate_blind victim page).bind fun _ =>
        (changeFrames_blind _).bind fun _ => count_blind _

/-- Whether a page has to wait for a slot, or why it cannot leave, does not hang on its bytes. -/
theorem evictOrWait_blind (process : UserProcess) (victim : Nat) :
    Blind (σ := σ) frames id (evictOrWait process victim) (evictOrWait process.erased victim) := by
  refine Blind.catching ((evict_blind victim).bind fun _ => .of_pure _) fun cause => ?_
  cases cause with
  | swapExhausted => exact (saveCache_blind process.pid).bind fun _ => .of_pure _
  | _ => exact (changeFrames_blind _).bind fun _ => .of_throw _

theorem chooseVictim_blind (process : UserProcess) :
    Blind (σ := σ) frames id (chooseVictim process) (chooseVictim process.erased) :=
  (syncCache_blind process.pid false).bind fun _ => .get_bind fun _ hs =>
    Blind.bind (.of_set ⟨hs.swap, hs.frames_eq⟩) fun _ => .of_orFail _

theorem findFrame_blind (process : UserProcess) :
    Blind (σ := σ) frames id (findFrame process) (findFrame process.erased) := by
  refine reserveFrame_blind.bind fun found => ?_
  cases found with
  | some frame => exact .of_pure _
  | none =>
      exact (chooseVictim_blind process).bind fun victim => (changeFrames_blind _).bind fun _ =>
        evictOrWait_blind process victim

theorem resumeSearch_blind (process : UserProcess) (victim : Nat) :
    Blind (σ := σ) frames id (resumeSearch process victim)
      (resumeSearch process.erased victim) := by
  refine reserveFrame_blind.bind fun found => ?_
  cases found with
  | some frame => exact (changeFrames_blind _).bind fun _ => .get_bind fun _ _ => .of_pure _
  | none => exact evictOrWait_blind process victim

/-! ## Misses -/

theorem fillAfresh_blind (process : UserProcess) (page frame frameSize : Nat) :
    Blind (σ := σ) frames id (fillAfresh process page frame frameSize)
      (fillAfresh process.erased page frame frameSize) := by
  rw [fillAfresh, fillAfresh,
    show process.erased.image.initialPage page frameSize = _ from
      process.image.initialPage_erased page frameSize]
  exact setFrameBytes_blind frame _

theorem fillFromSwap_blind (page : PageId) (slot frame frameSize : Nat) :
    Blind (σ := σ) frames id (fillFromSwap page slot frame frameSize)
      (fillFromSwap page slot frame frameSize) :=
  (swapIn_blind page slot frameSize).bind fun bytes => (setFrameBytes_blind frame bytes).bind
    fun _ => count_blind _

theorem fill_blind (process : UserProcess) (page frame : Nat) :
    Blind (σ := σ) frames id (fill process page frame) (fill process.erased page frame) := by
  refine (frameBytes_blind frame).bind fun bytes => ?_
  rw [length_blank]
  refine .get_bind fun s _ => ?_
  have hlookup : s.erased.swap.lookup ⟨process.erased.pid, page⟩ =
      s.swap.lookup ⟨process.pid, page⟩ := rfl
  rw [hlookup]
  have hafresh : Blind (σ := σ) frames id
      (do fillAfresh process page frame bytes.length; pure false)
      (do fillAfresh process.erased page frame bytes.length; pure false) :=
    (fillAfresh_blind process page frame bytes.length).bind fun _ => .of_pure false
  cases s.swap.lookup ⟨process.pid, page⟩ with
  | none => exact hafresh
  | some slot =>
      refine Blind.catching ((fillFromSwap_blind _ slot frame bytes.length).bind fun _ =>
        .of_pure true) fun cause => ?_
      cases cause with
      | slotOwnerMismatch => exact hafresh
      | _ => exact .of_throw _

theorem enter_blind (process : UserProcess) (page frame : Nat) (dirty : Bool) :
    Blind (σ := σ) frames id (enter process page frame dirty)
      (enter process.erased page frame dirty) := by
  have hreadOnly : process.erased.image.isReadOnly page = process.image.isReadOnly page :=
    process.image.isReadOnly_erased page
  rw [enter, enter, hreadOnly]
  exact (tableOf_blind process.pid).bind fun table => (Blind.of_orFail _).bind fun table' =>
    (Blind.of_orFail _).bind fun entry => (setTable_blind process.pid _).bind fun _ =>
      changeFrames_blind _

theorem bringIn_blind (process : UserProcess) (page frame : Nat) :
    Blind (σ := σ) frames id (bringIn process page frame) (bringIn process.erased page frame) := by
  refine .get_bind fun s _ => ?_
  have htable : PageTables.table s.erased.tables process.erased.pid =
      PageTables.table s.tables process.pid := rfl
  rw [htable]
  cases PageTables.table s.tables process.pid with
  | error cause => exact (changeFrames_blind _).bind fun _ => .of_throw cause
  | ok table =>
      refine (Blind.of_orFail (table.lookup page)).bind fun entry => ?_
      rw [id_eq]
      split
      · exact (changeFrames_blind _).bind fun _ => .of_pure false
      · exact (fill_blind process page frame).bind fun fromSwap =>
          (enter_blind process page frame fromSwap).bind fun _ => .of_pure fromSwap

theorem settleFault_blind (process : UserProcess) (page : Nat) (found : FrameSearch) :
    Blind (σ := σ) frames id (settleFault process page found)
      (settleFault process.erased page found) := by
  cases found with
  | needsSlot victim => exact .of_pure _
  | found frame passOn =>
      exact (bringIn_blind process page frame).bind fun slotFreed =>
        (loadMapping_blind ⟨process.pid, page⟩).bind fun _ => .of_pure _

/-- How a miss is handled is decided without a look at a byte. -/
theorem handleMiss_blind (process : UserProcess) (address : Nat) :
    Blind (σ := σ) frames id (handleMiss process address) (handleMiss process.erased address) := by
  refine (count_blind _).bind fun _ => .get_bind fun s _ =>
    (tableOf_blind process.pid).bind fun table => ?_
  have hpageSize : s.erased.processor.pageSize = s.processor.pageSize := rfl
  rw [id_eq, hpageSize]
  split
  · exact .of_throw _
  · split
    · exact (loadMapping_blind _).bind fun _ => .of_pure _
    · exact (count_blind _).bind fun _ => (findFrame_blind process).bind fun found =>
        settleFault_blind process _ found

theorem resumeFault_blind (process : UserProcess) (page victim : Nat) :
    Blind (σ := σ) frames id (resumeFault process page victim)
      (resumeFault process.erased page victim) :=
  (resumeSearch_blind process victim).bind fun found => settleFault_blind process page found

/-! ## The end of a process -/

/-- Giving back frames, one after the other. -/
theorem giveBackAll_blind (pages : List (Nat × Nat)) :
    Blind (σ := σ) frames id (pages.forM fun (_, frame) => changeFrames (·.giveBack frame))
      (pages.forM fun (_, frame) => changeFrames (·.giveBack frame)) := by
  induction pages with
  | nil => exact .of_pure _
  | cons entry rest ih => exact (changeFrames_blind _).bind fun _ => ih

theorem reclaim_blind (pid : Pid) :
    Blind (σ := σ) frames id (reclaim pid) (reclaim pid) := by
  have hrelease : Blind (σ := σ) frames id
      (modify fun s => { s with swap := (s.swap.releaseAll pid).2 })
      (modify fun s => { s with swap := (s.swap.releaseAll pid).2 }) :=
    .of_modify fun s hs => ⟨by rw [show s.erased.swap.releaseAll pid = _ from
      s.swap.releaseAll_erased pid]; rfl, (hs.swap.releaseAll_sound pid).1, hs.frames_eq⟩
  refine flush_blind.bind fun _ => .get_bind fun s _ => ?_
  simp only [tables_erased]
  cases s.tables[pid]? with
  | none => exact hrelease
  | some table =>
      have herase : Blind (σ := σ) frames id
          (modify fun s => { s with tables := s.tables.erase pid })
          (modify fun s => { s with tables := s.tables.erase pid }) :=
        .of_modify fun _ hs => ⟨rfl, hs.swap, hs.frames_eq⟩
      exact herase.bind fun _ => (giveBackAll_blind table.inMemory).bind fun _ => hrelease


end DemandPaging.Paging
