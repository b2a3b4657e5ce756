import DemandPaging.Paging.Copy
import DemandPaging.Paging.Fault
import DemandPaging.Paging.Reclaim
import DemandPaging.Proofs.Geometry.Machine
import DemandPaging.Proofs.Image

/-!
# Actions on tables that fit

An action is safe (`Paging.Safe`) if on a processor and tables that fit the geometry it either halts
for another reason, or leaves them fitting, whether it fails or not. Safety is put together from the
parts of an action: there is one lemma for each way of putting actions together, and then one for
each action.
-/

namespace DemandPaging

variable {σ α β : Type} {g : Geometry}

/-- The processor and all tables fit the geometry. -/
structure Paging.Suits (g : Geometry) (s : Paging σ) : Prop where
  processor : s.processor.Suits g
  frameTable : s.frameTable.Suits g
  tables : PageTables.Suits g s.tables
  swap : s.swap.Suits g

namespace Paging.Suits

variable {s : Paging σ}

theorem withProcessor (h : s.Suits g) {processor : Processor} (hp : processor.Suits g) :
    Paging.Suits g { s with processor } := ⟨hp, h.frameTable, h.tables, h.swap⟩

theorem withFrameTable (h : s.Suits g) {frameTable : FrameTable} (hf : frameTable.Suits g) :
    Paging.Suits g { s with frameTable } := ⟨h.processor, hf, h.tables, h.swap⟩

theorem withTables (h : s.Suits g) {tables : PageTables} (ht : PageTables.Suits g tables) :
    Paging.Suits g { s with tables } := ⟨h.processor, h.frameTable, ht, h.swap⟩

theorem withSwap (h : s.Suits g) {swap : SwapArea σ} (hs : swap.Suits g) :
    Paging.Suits g { s with swap } := ⟨h.processor, h.frameTable, h.tables, hs⟩

end Paging.Suits

namespace Paging

/-- On tables that fit, the action halts for no reason of geometry. It leaves the tables fitting,
and whatever it results in is among these. -/
def Safe (g : Geometry) (results : α → Prop) (act : PagingM σ α) : Prop :=
  ∀ s : Paging σ, s.Suits g →
    Safely (fun x => x.2.Suits g ∧ ∀ a, x.1 = .ok a → results a) (act s)

namespace Safe

variable {results : α → Prop} {act : PagingM σ α}

theorem of_pure {x : α} (h : results x) : Safe (σ := σ) g results (pure x) := by
  intro s hs
  refine ⟨hs, fun a ha => ?_⟩
  cases ha
  exact h

theorem of_throw (cause : PagingError) : Safe (σ := σ) g results (throw cause) := by
  intro s hs
  exact ⟨hs, fun a ha => by cases ha⟩

theorem of_orFail {x : Except PagingError α} (h : ∀ a, x = .ok a → results a) :
    Safe (σ := σ) g results (orFail x) :=
  fun _ hs => ⟨hs, h⟩

theorem of_modify {f : Paging σ → Paging σ} (h : ∀ s, s.Suits g → (f s).Suits g) :
    Safe g (fun _ => True) (modify f : PagingM σ PUnit) :=
  fun s hs => ⟨h s hs, fun _ _ => trivial⟩

theorem of_set {s : Paging σ} (h : s.Suits g) :
    Safe g (fun _ => True) (set s : PagingM σ PUnit) :=
  fun _ _ => ⟨h, fun _ _ => trivial⟩

theorem bind {next : α → PagingM σ β} {final : β → Prop} (h : Safe g results act)
    (hnext : ∀ a, results a → Safe g final (next a)) : Safe g final (act >>= next) := by
  intro s hs
  rw [bind_run]
  refine (h s hs).bind ?_
  rintro ⟨result, s'⟩ ⟨hs', hresult⟩
  cases result with
  | error cause => exact ⟨hs', fun b hb => by cases hb⟩
  | ok a => exact hnext a (hresult a rfl) s' hs'

/-- An action that looks at the tables first. -/
theorem get_bind {next : Paging σ → PagingM σ β} {final : β → Prop}
    (h : ∀ s, s.Suits g → Safe g final (next s)) : Safe g final (get >>= next) :=
  fun s hs => h s hs s hs

/-- An action that may halt first. -/
theorem orHalt_bind {x : Except Halt α} {next : α → PagingM σ β} {final : β → Prop}
    (h : Safely results x) (hnext : ∀ a, results a → Safe g final (next a)) :
    Safe g final (orHalt x >>= next) := by
  intro s hs
  rw [bind_run]
  cases x with
  | error halt => exact h
  | ok a => exact hnext a h s hs

/-- An action whose errors are handled. -/
theorem catching {handle : PagingError → PagingM σ α} (h : Safe g results act)
    (hhandle : ∀ cause, Safe g results (handle cause)) :
    Safe g results (tryCatch act handle) := by
  intro s hs
  rw [tryCatch_run]
  refine (h s hs).bind ?_
  rintro ⟨result, s'⟩ ⟨hs', hresult⟩
  cases result with
  | error cause => exact hhandle cause s' hs'
  | ok a => exact ⟨hs', hresult⟩

end Safe

/-! ## Frames and tables -/

theorem count_safe (change : Counters → Counters) :
    Safe (σ := σ) g (fun _ => True) (count change) :=
  .of_modify fun _ hs => ⟨hs.processor, hs.frameTable, hs.tables, hs.swap⟩

theorem changeFrames_safe {change : FrameTable → Except Halt FrameTable}
    (h : ∀ t : FrameTable, t.Suits g → Safely (FrameTable.Suits g) (change t)) :
    Safe (σ := σ) g (fun _ => True) (changeFrames change) := by
  apply Safe.get_bind
  intro s hs
  apply Safe.orHalt_bind (h _ hs.frameTable)
  intro frameTable hframeTable
  apply Safe.of_modify
  exact fun s' hs' => hs'.withFrameTable hframeTable

theorem unpin_safe {f : Nat} (hf : f < g.frames) :
    Safe (σ := σ) g (fun _ => True) (changeFrames (·.unpin f)) :=
  changeFrames_safe fun _ ht => ht.unpin_safely hf

theorem pin_safe {f : Nat} (hf : f < g.frames) :
    Safe (σ := σ) g (fun _ => True) (changeFrames (·.pin f)) :=
  changeFrames_safe fun _ ht => ht.pin_safely hf

theorem reserveFrame_safe :
    Safe (σ := σ) g (fun found => ∀ f, found = some f → f < g.frames) reserveFrame := by
  apply Safe.get_bind
  intro s hs
  apply Safe.orHalt_bind hs.frameTable.reserve_safely
  rintro ⟨found, frameTable⟩ ⟨hframeTable, hfound⟩
  apply Safe.bind (Safe.of_modify fun s' hs' => hs'.withFrameTable hframeTable)
  exact fun _ _ => .of_pure hfound

theorem frameBytes_safe {f : Nat} (hf : f < g.frames) :
    Safe (σ := σ) g (fun bytes => bytes.length = g.pageSize) (frameBytes f) := by
  apply Safe.get_bind
  intro s hs
  rw [← bind_pure (orHalt _)]
  apply Safe.orHalt_bind (hs.processor.frame_safely hf)
  exact fun _ hbytes => .of_pure hbytes

theorem setFrameBytes_safe {f : Nat} {bytes : List UInt8} (hf : f < g.frames)
    (hbytes : bytes.length = g.pageSize) :
    Safe (σ := σ) g (fun _ => True) (setFrameBytes f bytes) := by
  apply Safe.get_bind
  intro s hs
  apply Safe.orHalt_bind (hs.processor.setFrame_safely hf hbytes)
  intro processor hprocessor
  apply Safe.of_modify
  exact fun s' hs' => hs'.withProcessor hprocessor

theorem tableOf_safe (pid : Pid) : Safe (σ := σ) g (PageTable.Suits g) (tableOf pid) := by
  apply Safe.get_bind
  intro s hs
  apply Safe.of_orFail
  exact fun table htable => hs.tables pid table (PageTables.table_eq_ok_iff.1 htable)

theorem setTable_safe (pid : Pid) {table : PageTable} (ht : table.Suits g) :
    Safe (σ := σ) g (fun _ => True) (setTable pid table) :=
  .of_modify fun _ hs => hs.withTables (hs.tables.insert pid ht)

/-- A page that has an entry has a number that a mapping can hold, and so has its frame. -/
theorem lookup_safe {table : PageTable} (ht : table.Suits g) (page : Nat) :
    Safe (σ := σ) g (fun e => page ≤ Address.maxPageNumber ∧ e.Suits g)
      (orFail (table.lookup page)) :=
  .of_orFail fun _ he => ht.lookup he

theorem entryOf_safe (id : PageId) :
    Safe (σ := σ) g (fun e => id.page ≤ Address.maxPageNumber ∧ e.Suits g) (entryOf id) :=
  (tableOf_safe id.pid).bind fun _ ht => lookup_safe ht id.page

/-! ## The mapping cache -/

theorem flush_safe : Safe (σ := σ) g (fun _ => True) flush :=
  .of_modify fun _ hs => hs.withProcessor (MappingCache.flush_suits hs.processor)

theorem syncCache_safe (pid : Pid) (invalidate : Bool) :
    Safe (σ := σ) g (fun _ => True) (syncCache pid invalidate) := by
  apply (tableOf_safe pid).bind
  intro table ht
  apply Safe.get_bind
  intro s hs
  obtain ⟨hprocessor, htable⟩ := MappingCache.sync_suits hs.processor ht invalidate
  apply Safe.bind (Safe.of_modify fun s' hs' => hs'.withProcessor hprocessor)
  intro _ _
  apply (setTable_safe pid htable).bind
  exact fun _ _ => .of_orFail fun _ _ => trivial

theorem saveCache_safe (pid : Pid) : Safe (σ := σ) g (fun _ => True) (saveCache pid) := by
  apply Safe.get_bind
  intro s hs
  split
  · exact syncCache_safe pid true
  · exact flush_safe

theorem loadMapping_safe (id : PageId) : Safe (σ := σ) g (fun _ => True) (loadMapping id) := by
  apply (tableOf_safe id.pid).bind
  intro table ht
  apply (lookup_safe ht id.page).bind
  rintro entry ⟨hpage, hentry⟩
  apply Safe.get_bind
  intro s hs
  apply Safe.orHalt_bind (MappingCache.slotToFill_safely hs.processor ht s.rng)
  rintro ⟨result, processor, table', rng⟩ ⟨hprocessor, htable', hslot⟩
  refine Safe.bind (.of_modify fun s' hs' => ?_) fun _ _ => ?_
  · exact ⟨hprocessor, hs'.frameTable, hs'.tables, hs'.swap⟩
  apply (setTable_safe id.pid htable').bind
  intro _ _
  apply Safe.bind (Safe.of_orFail hslot)
  intro slot hslot
  apply Safe.orHalt_bind (MappingCache.load_safely hprocessor hslot hpage hentry)
  intro processor' hprocessor'
  apply Safe.of_modify
  exact fun s' hs' => hs'.withProcessor hprocessor'

theorem pinForCopy_safe (id : PageId) (writing : Bool) :
    Safe (σ := σ) g (fun r => ∀ f, r = .pinned f → f < g.frames) (pinForCopy id writing) := by
  apply (entryOf_safe id).bind
  rintro entry ⟨-, hentry⟩
  split
  · rename_i f _ hframe
    split
    · exact .of_pure fun f' hf' => by cases hf'
    · apply Safe.bind (Safe.of_modify fun s hs => hs.withTables (hs.tables.put id ?_))
      · intro _ _
        apply (pin_safe (hentry f hframe)).bind
        intro _ _
        apply Safe.of_pure
        intro f' hf'
        cases hf'
        exact hentry f hframe
      · exact fun f' hf' => hentry f' hf'
  · exact .of_pure fun f' hf' => by cases hf'

/-! ## The end of a process -/

/-- Frames of a page table are given back, one after the other. -/
theorem giveBackAll_safe {pages : List (Nat × Nat)} (h : ∀ x ∈ pages, x.2 < g.frames) :
    Safe (σ := σ) g (fun _ => True)
      (pages.forM fun (_, frame) => changeFrames (·.giveBack frame)) := by
  induction pages with
  | nil => exact .of_pure trivial
  | cons x rest ih =>
      have hx := h x List.mem_cons_self
      apply Safe.bind (changeFrames_safe fun _ ht => ht.giveBack_safely hx)
      exact fun _ _ => ih fun y hy => h y (List.mem_cons_of_mem x hy)

theorem reclaim_safe (pid : Pid) : Safe (σ := σ) g (fun _ => True) (reclaim pid) := by
  have hrelease : Safe (σ := σ) g (fun _ => True)
      (modify fun s => { s with swap := (s.swap.releaseAll pid).2 }) :=
    .of_modify fun _ hs => hs.withSwap (hs.swap.releaseAll pid)
  apply flush_safe.bind
  intro _ _
  apply Safe.get_bind
  intro s hs
  split
  · exact hrelease
  · rename_i table htable
    apply Safe.bind (Safe.of_modify fun s' hs' => hs'.withTables (hs'.tables.erase pid))
    intro _ _
    apply (giveBackAll_safe (hs.tables pid table htable).inMemory).bind
    exact fun _ _ => hrelease

/-! ## Victims -/

theorem residentEntry_safe (frame : Nat) (id : PageId) :
    Safe (σ := σ) g (fun _ => True) (residentEntry frame id) := by
  apply Safe.get_bind
  intro s hs
  split
  · split
    · exact .of_pure trivial
    · exact .of_throw _
  · exact .of_throw _

theorem invalidate_safe (frame : Nat) (id : PageId) :
    Safe (σ := σ) g (fun _ => True) (invalidate frame id) := by
  apply (tableOf_safe id.pid).bind
  intro table ht
  apply Safe.get_bind
  intro s hs
  apply Safe.bind (Safe.of_modify fun s' hs' =>
    hs'.withProcessor (MappingCache.dropFrame_suits hs.processor frame))
  intro _ _
  apply Safe.bind (Safe.of_orFail fun table' htable' => ht.forget htable')
  exact fun _ htable' => setTable_safe id.pid htable'

theorem chooseVictim_safe (process : UserProcess) :
    Safe (σ := σ) g (· < g.frames) (chooseVictim process) := by
  apply (syncCache_safe process.pid false).bind
  intro _ _
  apply Safe.get_bind
  intro s hs
  obtain ⟨htables, hvictim⟩ := Policy.select_suits hs.frameTable s.policy hs.tables
  refine Safe.bind (.of_set ?_) fun _ _ => .of_orFail hvictim
  exact ⟨hs.processor, hs.frameTable, htables, hs.swap⟩

/-- The page that is entered has a number that the frame table can hold, for it has an entry. -/
theorem enter_safe (process : UserProcess) (page : Nat) {frame : Nat} (hf : frame < g.frames)
    (dirty : Bool) : Safe (σ := σ) g (fun _ => True) (enter process page frame dirty) := by
  apply (tableOf_safe process.pid).bind
  intro table ht
  apply Safe.bind (Safe.of_orFail fun table' htable' => ht.place hf htable')
  intro table' ht'
  apply (lookup_safe ht' page).bind
  rintro entry ⟨hpage, hentry⟩
  have hentered : PageEntry.Suits g { entry with dirty } := fun f hframe => hentry f hframe
  apply (setTable_safe process.pid (ht'.put page hentered)).bind
  intro _ _
  apply changeFrames_safe
  exact fun _ hframes => hframes.occupy_safely hf hpage

variable [Extent σ]

/-! ## Swap -/

theorem swapOut_safe (id : PageId) {bytes : List UInt8} (h : bytes.length = g.pageSize) :
    Safe (σ := σ) g (fun _ => True) (swapOut id bytes) := by
  apply Safe.get_bind
  intro s hs
  apply Safe.orHalt_bind (hs.swap.store_safely h)
  rintro ⟨result, swap⟩ hswap
  apply Safe.bind (Safe.of_modify fun s' hs' => hs'.withSwap hswap)
  intro _ _
  have hstored : Safe (σ := σ) g (fun _ => True) (orFail result) := .of_orFail fun _ _ => trivial
  exact hstored.bind fun _ _ => .of_pure trivial

theorem save_safe {frame : Nat} (hf : frame < g.frames) (id : PageId) (entry : PageEntry) :
    Safe (σ := σ) g (fun _ => True) (save frame id entry) := by
  rw [save]
  split
  · apply (frameBytes_safe hf).bind
    intro bytes hbytes
    apply (swapOut_safe id hbytes).bind
    exact fun _ _ => count_safe _
  · exact .of_pure trivial

theorem evict_safe {victim : Nat} (hv : victim < g.frames) :
    Safe (σ := σ) g (fun _ => True) (evict victim) := by
  apply Safe.get_bind
  intro s hs
  split
  · exact .of_pure trivial
  · rename_i id _
    apply (residentEntry_safe victim id).bind
    intro entry _
    apply (save_safe hv id entry).bind
    intro _ _
    apply (invalidate_safe victim id).bind
    intro _ _
    apply Safe.bind (changeFrames_safe fun _ ht => ht.vacate_safely hv)
    exact fun _ _ => count_safe _

/-- Whatever was found for a page, its frame is there. -/
def FrameSearch.Suits (g : Geometry) : FrameSearch → Prop
  | found frame _ => frame < g.frames
  | needsSlot victim => victim < g.frames

theorem evictOrWait_safe (process : UserProcess) {victim : Nat} (hv : victim < g.frames) :
    Safe (σ := σ) g (FrameSearch.Suits g) (evictOrWait process victim) := by
  apply Safe.catching
  · exact (evict_safe hv).bind fun _ _ => .of_pure hv
  · intro cause
    have hthrow : Safe (σ := σ) g (FrameSearch.Suits g)
        (do changeFrames (·.unpin victim); throw cause) :=
      (unpin_safe hv).bind fun _ _ => .of_throw cause
    cases cause with
    | swapExhausted => exact (saveCache_safe process.pid).bind fun _ _ => .of_pure hv
    | _ => exact hthrow

theorem findFrame_safe (process : UserProcess) :
    Safe (σ := σ) g (FrameSearch.Suits g) (findFrame process) := by
  apply reserveFrame_safe.bind
  intro found hfound
  cases found with
  | some frame => exact .of_pure (hfound frame rfl)
  | none =>
      apply (chooseVictim_safe process).bind
      intro victim hv
      apply (pin_safe hv).bind
      exact fun _ _ => evictOrWait_safe process hv

theorem resumeSearch_safe (process : UserProcess) {victim : Nat} (hv : victim < g.frames) :
    Safe (σ := σ) g (FrameSearch.Suits g) (resumeSearch process victim) := by
  apply reserveFrame_safe.bind
  intro found hfound
  cases found with
  | some frame =>
      apply (unpin_safe hv).bind
      intro _ _
      exact .get_bind fun s _ => .of_pure (hfound frame rfl)
  | none => exact evictOrWait_safe process hv

/-! ## Misses -/

omit [Extent σ] in
theorem fillAfresh_safe (process : UserProcess) (page : Nat) {frame : Nat}
    (hf : frame < g.frames) :
    Safe (σ := σ) g (fun _ => True) (fillAfresh process page frame g.pageSize) :=
  setFrameBytes_safe hf (Image.length_initialPage _ _)

variable [Extent.Filling σ]

theorem swapIn_safe (id : PageId) (slot : Nat) :
    Safe (σ := σ) g (fun bytes => bytes.length = g.pageSize) (swapIn id slot g.pageSize) := by
  apply Safe.get_bind
  intro s hs
  apply Safe.orHalt_bind (hs.swap.fetch_safely rfl)
  rintro ⟨result, swap⟩ ⟨hswap, hresult⟩
  apply Safe.bind (Safe.of_modify fun s' hs' => hs'.withSwap hswap)
  exact fun _ _ => .of_orFail hresult

theorem fillFromSwap_safe (id : PageId) (slot : Nat) {frame : Nat} (hf : frame < g.frames) :
    Safe (σ := σ) g (fun _ => True) (fillFromSwap id slot frame g.pageSize) := by
  apply (swapIn_safe id slot).bind
  intro bytes hbytes
  apply (setFrameBytes_safe hf hbytes).bind
  exact fun _ _ => count_safe _

theorem fill_safe (process : UserProcess) (page : Nat) {frame : Nat} (hf : frame < g.frames) :
    Safe (σ := σ) g (fun _ => True) (fill process page frame) := by
  apply (frameBytes_safe hf).bind
  intro bytes hbytes
  rw [hbytes]
  have hafresh : Safe (σ := σ) g (fun _ : Bool => True)
      (do fillAfresh process page frame g.pageSize; pure false) :=
    (fillAfresh_safe process page hf).bind fun _ _ => .of_pure trivial
  apply Safe.get_bind
  intro s hs
  split
  · exact hafresh
  · apply Safe.catching
    · exact (fillFromSwap_safe _ _ hf).bind fun _ _ => .of_pure trivial
    · intro cause
      have hthrow : Safe (σ := σ) g (fun _ : Bool => True) (throw cause) := .of_throw cause
      cases cause with
      | slotOwnerMismatch => exact hafresh
      | _ => exact hthrow

theorem bringIn_safe (process : UserProcess) (page : Nat) {frame : Nat} (hf : frame < g.frames) :
    Safe (σ := σ) g (fun _ => True) (bringIn process page frame) := by
  apply Safe.get_bind
  intro s hs
  split
  · exact (unpin_safe hf).bind fun _ _ => .of_throw _
  · rename_i table htable
    have ht := hs.tables process.pid table (PageTables.table_eq_ok_iff.1 htable)
    apply (lookup_safe ht page).bind
    intro entry _
    split
    · exact (unpin_safe hf).bind fun _ _ => .of_pure trivial
    · apply (fill_safe process page hf).bind
      intro fromSwap _
      apply (enter_safe process page hf fromSwap).bind
      exact fun _ _ => .of_pure trivial

/-- Whatever a miss came to, a victim that it waits for is there. -/
def MissResult.Suits (g : Geometry) : MissResult → Prop
  | loaded _ => True
  | needsSlot victim => victim < g.frames

theorem settleFault_safe (process : UserProcess) (page : Nat) {search : FrameSearch}
    (h : search.Suits g) :
    Safe (σ := σ) g (MissResult.Suits g) (settleFault process page search) := by
  cases search with
  | needsSlot victim => exact .of_pure h
  | found frame passOn =>
      apply (bringIn_safe process page h).bind
      intro slotFreed _
      apply (loadMapping_safe ⟨process.pid, page⟩).bind
      exact fun _ _ => .of_pure trivial

theorem handleMiss_safe (process : UserProcess) (address : Nat) :
    Safe (σ := σ) g (MissResult.Suits g) (handleMiss process address) := by
  apply (count_safe _).bind
  intro _ _
  apply Safe.get_bind
  intro s hs
  apply (tableOf_safe process.pid).bind
  intro table ht
  split
  · exact .of_throw _
  · split
    · exact (loadMapping_safe _).bind fun _ _ => .of_pure trivial
    · apply (count_safe _).bind
      intro _ _
      apply (findFrame_safe process).bind
      exact fun _ hsearch => settleFault_safe process _ hsearch

theorem resumeFault_safe (process : UserProcess) (page : Nat) {victim : Nat}
    (hv : victim < g.frames) :
    Safe (σ := σ) g (MissResult.Suits g) (resumeFault process page victim) :=
  (resumeSearch_safe process hv).bind fun _ hsearch => settleFault_safe process page hsearch

end Paging

end DemandPaging
