import DemandPaging.Paging.Copy
import DemandPaging.Paging.Fault
import DemandPaging.Paging.Reclaim
import DemandPaging.Proofs.PageTables
import DemandPaging.Proofs.Paging.Run
import DemandPaging.Proofs.Results

/-!
# The errors of actions

How large pages are, and which processes have page tables of how many pages, is changed by no action
but the end of a process (`reclaim_layout`). That is enough to tell which errors an action can fail
with, whatever the tables may say otherwise and whatever becomes of the swap extent: those that the
kernel cannot survive, and the lack of a page table. `Paging.Within` says so of an action, and is
put together from its parts.
-/

namespace DemandPaging

/-- How large pages are, and how many pages the page tables have. -/
structure Layout where
  pageSize : Nat
  numPages : Pid → Option Nat

namespace Layout

/-- The page is inside an address space. -/
def Has (l : Layout) (id : PageId) : Prop := ∃ n, l.numPages id.pid = some n ∧ id.page < n

/-- The page is inside the address space of its process, if the process has one. -/
def Spans (l : Layout) (id : PageId) : Prop := ∀ n, l.numPages id.pid = some n → id.page < n

/-- The layout after the end of a process. -/
def without (l : Layout) (pid : Pid) : Layout :=
  { l with numPages := Function.update l.numPages pid none }

/-- What an action for a process can fail with: an error that the kernel cannot survive, or the lack
of a page table. -/
inductive Meets (l : Layout) (pid : Pid) : PagingError → Prop where
  | fatal {cause : PagingError} (h : cause.reach = .stopsMachine) : Meets l pid cause
  | gone (h : l.numPages pid = none) : Meets l pid (.noSuchProcess pid)

variable {l : Layout} {id : PageId} {pid : Pid} {cause : PagingError}

theorem Has.spans (h : l.Has id) : l.Spans id := by
  intro n hn
  obtain ⟨n', hn', hlt⟩ := h
  obtain rfl := Option.some.inj (hn.symm.trans hn')
  exact hlt

theorem Has.ne_none (h : l.Has id) : l.numPages id.pid ≠ none := by
  obtain ⟨n, hn, -⟩ := h
  exact hn ▸ Option.some_ne_none n

/-- A process with a page table meets fatal errors only. -/
theorem Meets.reach_eq (h : l.Meets pid cause) (hpid : l.numPages pid ≠ none) :
    cause.reach = .stopsMachine := by
  cases h with
  | fatal h => exact h
  | gone h => exact absurd h hpid

end Layout

namespace Paging

variable {σ α β : Type} {l : Layout} {errors errors' : PagingError → Prop} {results : α → Prop}
  {results' : β → Prop} {act : PagingM σ α}

/-- The layout of the tables. -/
def layout (s : Paging σ) : Layout := ⟨s.processor.pageSize, PageTables.sizeOf? s.tables⟩

/-- An action on tables of this layout leaves the layout as it is. Whatever it results in or fails
with is among these. -/
def Within (l : Layout) (errors : PagingError → Prop) (results : α → Prop) (act : PagingM σ α) :
    Prop :=
  ∀ s r s', s.layout = l → act s = .ok (r, s') →
    s'.layout = l ∧ (∀ x, r = .ok x → results x) ∧ ∀ cause, r = .error cause → errors cause

namespace Within

theorem mono {results' : α → Prop} (h : Within l errors results act)
    (herrors : ∀ cause, errors cause → errors' cause) (hresults : ∀ x, results x → results' x) :
    Within l errors' results' act := by
  intro s r s' hs hrun
  obtain ⟨hs', hok, herror⟩ := h s r s' hs hrun
  exact ⟨hs', fun x hx => hresults x (hok x hx), fun cause hc => herrors cause (herror cause hc)⟩

theorem mono_errors (h : Within l errors results act)
    (herrors : ∀ cause, errors cause → errors' cause) : Within l errors' results act :=
  h.mono herrors fun _ hx => hx

theorem of_pure {x : α} (h : results x) : Within (σ := σ) l errors results (pure x) := by
  intro s r s' hs hrun
  obtain ⟨rfl, rfl⟩ := Prod.mk.inj (Except.ok.inj hrun)
  exact ⟨hs, fun _ hx => Except.ok.inj hx ▸ h, fun _ hc => by cases hc⟩

theorem of_throw {cause : PagingError} (h : errors cause) :
    Within (σ := σ) l errors results (throw cause) := by
  intro s r s' hs hrun
  obtain ⟨rfl, rfl⟩ := Prod.mk.inj (Except.ok.inj hrun)
  refine ⟨hs, ?_, fun _ hc => Except.error.inj hc ▸ h⟩
  intro _ hx
  cases hx

theorem of_orFail {x : Except PagingError α} (hok : ∀ a, x = .ok a → results a)
    (herror : ∀ cause, x = .error cause → errors cause) :
    Within (σ := σ) l errors results (orFail x) := by
  intro s r s' hs hrun
  obtain ⟨rfl, rfl⟩ := Prod.mk.inj (Except.ok.inj hrun)
  exact ⟨hs, hok, herror⟩

theorem of_modify {f : Paging σ → Paging σ} (h : ∀ s, s.layout = l → (f s).layout = l) :
    Within l errors (fun _ => True) (modify f : PagingM σ PUnit) := by
  intro s r s' hs hrun
  obtain ⟨rfl, rfl⟩ := Prod.mk.inj (Except.ok.inj hrun)
  exact ⟨h s hs, fun _ _ => trivial, fun _ hc => by cases hc⟩

theorem of_set {s : Paging σ} (h : s.layout = l) :
    Within l errors (fun _ => True) (set s : PagingM σ PUnit) := by
  intro s₀ r s' hs hrun
  obtain ⟨rfl, rfl⟩ := Prod.mk.inj (Except.ok.inj hrun)
  exact ⟨h, fun _ _ => trivial, fun _ hc => by cases hc⟩

theorem bind {next : α → PagingM σ β} (h : Within l errors results act)
    (hnext : ∀ x, results x → Within l errors results' (next x)) :
    Within l errors results' (act >>= next) := by
  intro s r s' hs hrun
  rw [bind_run] at hrun
  cases hact : act s with
  | error halt =>
      rw [hact] at hrun
      cases hrun
  | ok x =>
      obtain ⟨result, s₁⟩ := x
      obtain ⟨hs₁, hok, herror⟩ := h s result s₁ hs hact
      rw [hact] at hrun
      cases result with
      | error cause =>
          obtain ⟨rfl, rfl⟩ := Prod.mk.inj (Except.ok.inj hrun)
          refine ⟨hs₁, ?_, fun _ hc => Except.error.inj hc ▸ herror cause rfl⟩
          intro _ hx
          cases hx
      | ok x => exact hnext x (hok x rfl) s₁ r s' hs₁ hrun

/-- An action that looks at the tables first. -/
theorem get_bind {next : Paging σ → PagingM σ β}
    (h : ∀ s, s.layout = l → Within l errors results' (next s)) :
    Within l errors results' (get >>= next) :=
  fun s r s' hs hrun => h s hs s r s' hs hrun

/-- An action that may halt first. -/
theorem orHalt_bind {x : Except Halt α} {next : α → PagingM σ β}
    (h : ∀ a, x = .ok a → Within l errors results' (next a)) :
    Within l errors results' (orHalt x >>= next) := by
  intro s r s' hs hrun
  rw [bind_run] at hrun
  cases x with
  | error halt => cases hrun
  | ok a => exact h a rfl s r s' hs hrun

/-- An action whose errors are handled. -/
theorem catching {handle : PagingError → PagingM σ α} (h : Within l errors results act)
    (hhandle : ∀ cause, errors cause → Within l errors' results (handle cause)) :
    Within l errors' results (tryCatch act handle) := by
  intro s r s' hs hrun
  rw [tryCatch_run] at hrun
  cases hact : act s with
  | error halt =>
      rw [hact] at hrun
      cases hrun
  | ok x =>
      obtain ⟨result, s₁⟩ := x
      obtain ⟨hs₁, hok, herror⟩ := h s result s₁ hs hact
      rw [hact] at hrun
      cases result with
      | error cause => exact hhandle cause (herror cause rfl) s₁ r s' hs₁ hrun
      | ok x =>
          obtain ⟨rfl, rfl⟩ := Prod.mk.inj (Except.ok.inj hrun)
          exact ⟨hs₁, hok, fun _ hc => by cases hc⟩

end Within

/-! ## Accesses -/

/-- The processor keeps the address of an access that traps, and only a store traps at a page that
may not be written. -/
theorem locate_trap {p p' : Processor} {address : Nat} {writing : Bool}
    {r : Except Trap Location} (h : p.locate address writing = .ok (r, p')) :
    p'.pageSize = p.pageSize ∧ ∀ trap, r = .error trap →
      p'.badAddress = address ∧ (trap = .readOnly → writing = true) := by
  obtain ⟨⟨page, offset⟩, -, h⟩ := ok_of_bind h
  dsimp only at h
  split at h
  · obtain ⟨rfl, rfl⟩ := Prod.mk.inj (Except.ok.inj h)
    exact ⟨rfl, fun _ h => ⟨rfl, fun hread => by cases hread ▸ h⟩⟩
  · obtain ⟨mapping, -, h⟩ := ok_of_bind h
    split at h
    · rename_i hreadOnly
      obtain ⟨rfl, rfl⟩ := Prod.mk.inj (Except.ok.inj h)
      exact ⟨rfl, fun _ _ => ⟨rfl, fun _ => (Bool.and_eq_true_iff.1 hreadOnly).1⟩⟩
    · split at h
      · obtain ⟨rfl, rfl⟩ := Prod.mk.inj (Except.ok.inj h)
        exact ⟨rfl, fun _ h => ⟨rfl, fun hread => by cases hread ▸ h⟩⟩
      · obtain ⟨rfl, rfl⟩ := Prod.mk.inj (Except.ok.inj h)
        exact ⟨rfl, fun _ h => by cases h⟩

theorem loadByte_result {p p' : Processor} {address : Nat} {r : Except Trap UInt8}
    (h : p.loadByte address = .ok (r, p')) :
    p'.pageSize = p.pageSize ∧ ∀ trap, r = .error trap →
      p'.badAddress = address ∧ trap ≠ .readOnly := by
  obtain ⟨⟨result, p₁⟩, hlocate, h⟩ := ok_of_bind h
  obtain ⟨hsize, htrap⟩ := locate_trap hlocate
  cases result with
  | error trap =>
      obtain ⟨rfl, rfl⟩ := Prod.mk.inj (Except.ok.inj h)
      refine ⟨hsize, fun trap' heq => ?_⟩
      obtain ⟨haddress, hread⟩ := htrap trap rfl
      obtain rfl := Except.error.inj heq
      exact ⟨haddress, fun h => Bool.noConfusion (hread h)⟩
  | ok location =>
      obtain ⟨byte, -, h⟩ := ok_of_bind h
      obtain ⟨rfl, rfl⟩ := Prod.mk.inj (Except.ok.inj h)
      exact ⟨hsize, fun _ h => by cases h⟩

theorem storeByte_result {p p' : Processor} {address : Nat} {value : UInt8}
    {r : Except Trap Unit} (h : p.storeByte address value = .ok (r, p')) :
    p'.pageSize = p.pageSize ∧ ∀ trap, r = .error trap → p'.badAddress = address := by
  obtain ⟨⟨result, p₁⟩, hlocate, h⟩ := ok_of_bind h
  obtain ⟨hsize, htrap⟩ := locate_trap hlocate
  cases result with
  | error trap =>
      obtain ⟨rfl, rfl⟩ := Prod.mk.inj (Except.ok.inj h)
      exact ⟨hsize, fun _ h => (htrap trap rfl).1⟩
  | ok location =>
      obtain ⟨rfl, rfl⟩ := Prod.mk.inj (Except.ok.inj h)
      exact ⟨hsize, fun _ h => by cases h⟩

/-! ## Small actions -/

variable {pid : Pid} {id : PageId} {table : PageTable}

theorem layout_withProcessor {s : Paging σ} {processor : Processor} (hs : s.layout = l)
    (hsize : processor.pageSize = s.processor.pageSize) :
    { s with processor }.layout = l := by
  subst hs
  exact congrArg (Layout.mk · (PageTables.sizeOf? s.tables)) hsize

theorem layout_setTable {s : Paging σ} (hs : s.layout = l)
    (htable : l.numPages pid = some table.numPages) :
    { s with tables := s.tables.insert pid table }.layout = l := by
  subst hs
  refine congrArg (Layout.mk s.processor.pageSize) (funext fun q => ?_)
  rw [PageTables.sizeOf?_insert]
  by_cases hq : q = pid
  · rw [if_pos hq, hq]
    exact htable.symm
  · rw [if_neg hq]

theorem layout_put {s : Paging σ} (hs : s.layout = l) (id : PageId) (entry : PageEntry) :
    { s with tables := PageTables.put s.tables id entry }.layout = l := by
  subst hs
  exact congrArg (Layout.mk s.processor.pageSize)
    (funext fun q => PageTables.sizeOf?_put s.tables id entry q)

theorem count_within (change : Counters → Counters) :
    Within (σ := σ) l errors (fun _ => True) (count change) :=
  .of_modify fun _ hs => hs

theorem changeFrames_within (change : FrameTable → Except Halt FrameTable) :
    Within (σ := σ) l errors (fun _ => True) (changeFrames change) :=
  .get_bind fun _ _ => .orHalt_bind fun _ _ => .of_modify fun _ hs => hs

theorem reserveFrame_within : Within (σ := σ) l errors (fun _ => True) reserveFrame :=
  .get_bind fun _ _ => .orHalt_bind fun _ _ =>
    Within.bind (.of_modify fun _ hs => hs) fun _ _ => .of_pure trivial

theorem frameBytes_within (frame : Nat) :
    Within (σ := σ) l errors (fun _ => True) (frameBytes frame) := by
  refine .get_bind fun s _ => ?_
  rw [← bind_pure (orHalt _)]
  exact .orHalt_bind fun _ _ => .of_pure trivial

theorem setFrame_pageSize {p p' : Processor} {frame : Nat} {bytes : List UInt8}
    (h : p.setFrame frame bytes = .ok p') : p'.pageSize = p.pageSize := by
  rw [Processor.setFrame] at h
  split at h
  · rw [← Except.ok.inj h]
  · cases h

theorem setFrameBytes_within (frame : Nat) (bytes : List UInt8) :
    Within (σ := σ) l errors (fun _ => True) (setFrameBytes frame bytes) := by
  refine .get_bind fun s hs => .orHalt_bind fun processor hset => .of_modify fun s' hs' => ?_
  exact layout_withProcessor hs'
    ((setFrame_pageSize hset).trans (congrArg Layout.pageSize (hs.trans hs'.symm)))

theorem tableOf_within (herror : l.numPages pid = none → errors (.noSuchProcess pid)) :
    Within (σ := σ) l errors (fun table => l.numPages pid = some table.numPages)
      (tableOf pid) := by
  refine .get_bind fun s hs => ?_
  subst hs
  refine .of_orFail (fun table htable => ?_) fun cause hcause => ?_
  · show (s.tables[pid]?).map _ = _
    rw [PageTables.table_eq_ok_iff.1 htable]
    rfl
  · rw [PageTables.table] at hcause
    split at hcause
    · cases hcause
    · rename_i hnone
      obtain rfl := Except.error.inj hcause
      exact herror (congrArg (Option.map _) hnone)

theorem setTable_within (htable : l.numPages pid = some table.numPages) :
    Within (σ := σ) l errors (fun _ => True) (setTable pid table) :=
  .of_modify fun _ hs => layout_setTable hs htable

/-- A page inside the address space has an entry. -/
theorem lookup_within {page : Nat} (hpage : page < table.numPages) :
    Within (σ := σ) l errors (fun _ => True) (orFail (table.lookup page)) := by
  obtain ⟨entry, hentry⟩ := PageTable.lt_numPages_iff.1 hpage
  rw [PageTable.lookup_eq_ok_iff.2 hentry]
  exact .of_orFail (fun _ _ => trivial) fun _ h => by cases h

/-- An entry inside the address space can be replaced. -/
theorem replace_within {page : Nat} (hpage : page < table.numPages)
    (change : PageEntry → PageEntry) :
    Within (σ := σ) l errors (fun table' => table'.numPages = table.numPages)
      (orFail ((table.lookup page).map fun entry => table.put page (change entry))) := by
  obtain ⟨entry, hentry⟩ := PageTable.lt_numPages_iff.1 hpage
  rw [PageTable.lookup_eq_ok_iff.2 hentry]
  exact .of_orFail (fun _ h => Except.ok.inj h ▸ PageTable.numPages_put ..) fun _ h => by cases h

theorem entryOf_within (hid : l.Has id) :
    Within (σ := σ) l errors (fun _ => True) (entryOf id) :=
  (tableOf_within fun hnone => absurd hnone hid.ne_none).bind fun _ htable =>
    lookup_within (hid.spans _ htable)

/-! ## The mapping cache -/

/-- Syncing the cache changes no sizes, and goes wrong only when it disagrees with the table. -/
theorem syncSlots_within (invalidate : Bool) (cache : List Mapping) (table : PageTable) :
    (MappingCache.syncSlots invalidate cache table).2.2.numPages = table.numPages ∧
      ∀ cause, (MappingCache.syncSlots invalidate cache table).1 = .error cause →
        cause.reach = .stopsMachine := by
  induction cache generalizing table with
  | nil => exact ⟨rfl, fun _ h => by cases h⟩
  | cons c rest ih =>
      rw [MappingCache.syncSlots, MappingCache.syncSlot]
      split
      · rename_i cause herror
        refine ⟨rfl, fun _ h => ?_⟩
        obtain rfl := Except.error.inj h
        split at herror
        · cases herror
        · split at herror
          · rw [← Except.error.inj herror]
            rfl
          · split at herror
            · rw [← Except.error.inj herror]
              rfl
            · cases herror
      · rename_i c' table' hok
        have hsize : table'.numPages = table.numPages := by
          split at hok
          · obtain ⟨-, rfl⟩ := Prod.mk.inj (Except.ok.inj hok)
            rfl
          · split at hok
            · cases hok
            · split at hok
              · cases hok
              · obtain ⟨-, rfl⟩ := Prod.mk.inj (Except.ok.inj hok)
                exact PageTable.numPages_put ..
        exact ⟨(ih table').1.trans hsize, (ih table').2⟩

theorem flush_within : Within (σ := σ) l errors (fun _ => True) flush :=
  .of_modify fun _ hs => layout_withProcessor hs rfl

theorem syncCache_within (invalidate : Bool) :
    Within (σ := σ) l (l.Meets pid) (fun _ => True) (syncCache pid invalidate) := by
  refine (tableOf_within .gone).bind fun table htable => .get_bind fun s hs => ?_
  obtain ⟨hsize, hfatal⟩ := syncSlots_within invalidate s.processor.cache table
  refine Within.bind (.of_modify fun s' hs' => layout_withProcessor hs' ?_) fun _ _ => ?_
  · exact congrArg Layout.pageSize (hs.trans hs'.symm)
  · refine (setTable_within (htable.trans (congrArg some hsize.symm))).bind fun _ _ => ?_
    exact .of_orFail (fun _ _ => trivial) fun cause hcause => .fatal (hfatal cause hcause)

/-- A process without page tables has nothing to save, and one that has them is not missing. -/
theorem saveCache_within :
    Within (σ := σ) l (·.reach = .stopsMachine) (fun _ => True) (saveCache pid) := by
  refine .get_bind fun s hs => ?_
  split
  · rename_i hcontains
    refine (syncCache_within true).mono_errors fun cause h => h.reach_eq ?_
    subst hs
    intro hnone
    rw [Std.TreeMap.contains_eq_isSome_getElem?, Option.map_eq_none_iff.1 hnone] at hcontains
    cases hcontains
  · exact flush_within

theorem slotToFill_within {p : Processor} {r : Random}
    {x : Except PagingError Nat × Processor × PageTable × Random}
    (h : MappingCache.slotToFill p table r = .ok x) :
    x.2.1.pageSize = p.pageSize ∧ x.2.2.1.numPages = table.numPages ∧
      ∀ cause, x.1 = .error cause → cause.reach = .stopsMachine := by
  obtain ⟨hsize, hfatal⟩ := syncSlots_within false p.cache table
  rw [MappingCache.slotToFill] at h
  split at h
  · obtain rfl := Except.ok.inj h
    exact ⟨rfl, rfl, fun _ h => by cases h⟩
  · rw [MappingCache.sync] at h
    revert hsize hfatal h
    generalize MappingCache.syncSlots false p.cache table = synced
    obtain ⟨result, cache, table'⟩ := synced
    intro hsize hfatal h
    cases result with
    | error cause =>
        obtain rfl := Except.ok.inj h
        exact ⟨rfl, hsize, fun _ h => Except.error.inj h ▸ hfatal cause rfl⟩
    | ok _ =>
        obtain ⟨⟨slot, r'⟩, -, h⟩ := ok_of_bind h
        obtain rfl := Except.ok.inj h
        exact ⟨rfl, hsize, fun _ h => by cases h⟩

theorem setCacheEntry_pageSize {p p' : Processor} {slot : Nat} {mapping : Mapping}
    (h : p.setCacheEntry slot mapping = .ok p') : p'.pageSize = p.pageSize := by
  rw [Processor.setCacheEntry] at h
  split at h
  · rw [← Except.ok.inj h]
  · cases h

theorem load_pageSize {p p' : Processor} {slot page : Nat} {entry : PageEntry}
    (h : MappingCache.load p slot page entry = .ok p') : p'.pageSize = p.pageSize := by
  rw [MappingCache.load] at h
  split at h
  · obtain ⟨mapping, -, h⟩ := ok_of_bind h
    exact setCacheEntry_pageSize h
  · cases h

theorem loadMapping_within (hid : l.Spans id) :
    Within (σ := σ) l (l.Meets id.pid) (fun _ => True) (loadMapping id) := by
  refine (tableOf_within .gone).bind fun table htable =>
    (lookup_within (hid _ htable)).bind fun entry _ => .get_bind fun s hs => ?_
  refine .orHalt_bind fun x hx => ?_
  obtain ⟨hpageSize, hsize, hfatal⟩ := slotToFill_within hx
  obtain ⟨result, processor, table', rng⟩ := x
  have hprocessor : ∀ s' : Paging σ, s'.layout = l → processor.pageSize = s'.processor.pageSize :=
    fun s' hs' => hpageSize.trans (congrArg Layout.pageSize (hs.trans hs'.symm))
  refine Within.bind (.of_modify fun s' hs' => ?_) fun _ _ => ?_
  · exact layout_withProcessor hs' (hprocessor s' hs')
  · refine (setTable_within (htable.trans (congrArg some hsize.symm))).bind fun _ _ =>
      (Within.of_orFail (fun _ _ => trivial) fun cause h => .fatal (hfatal cause h)).bind
        fun slot _ => .orHalt_bind fun processor' hload => .of_modify fun s' hs' => ?_
    exact layout_withProcessor hs' ((load_pageSize hload).trans (hprocessor s' hs'))

theorem pinForCopy_within (hid : l.Has id) (writing : Bool) :
    Within (σ := σ) l errors (fun _ => True) (pinForCopy id writing) := by
  refine (entryOf_within hid).bind fun entry _ => ?_
  split
  · split
    · exact .of_pure trivial
    · exact Within.bind (.of_modify fun s hs => layout_put hs id _) fun _ _ =>
        (changeFrames_within _).bind fun _ _ => .of_pure trivial
  · exact .of_pure trivial

/-! ## Victims -/

theorem residentEntry_within (frame : Nat) (id : PageId) :
    Within (σ := σ) l (·.reach = .stopsMachine) (fun _ => l.Has id) (residentEntry frame id) := by
  refine .get_bind fun s hs => ?_
  split
  · rename_i entry hentry
    subst hs
    have hid : s.layout.Has id :=
      PageTables.exists_find?_iff.1 ⟨entry, PageTables.lookup_eq_ok_iff.1 hentry⟩
    split
    · exact .of_pure hid
    · exact .of_throw rfl
  · exact .of_throw rfl

theorem invalidate_within (frame : Nat) (hid : l.Has id) :
    Within (σ := σ) l errors (fun _ => True) (invalidate frame id) := by
  refine (tableOf_within fun hnone => absurd hnone hid.ne_none).bind fun table htable =>
    .get_bind fun s hs => ?_
  refine Within.bind (.of_modify fun s' hs' => layout_withProcessor hs' ?_) fun _ _ => ?_
  · exact congrArg Layout.pageSize (hs.trans hs'.symm)
  · exact (replace_within (hid.spans _ htable) fun entry => { readOnly := entry.readOnly }).bind
      fun table' hsize => setTable_within (htable.trans (congrArg some hsize.symm))

/-- The hand changes no sizes. It finds no victim, or tables that disagree, or a frame. -/
theorem sweep_within (frameTable : FrameTable) (steps hand : Nat) (tables : PageTables) :
    PageTables.sizeOf? (Policy.sweep frameTable steps hand tables).2.2 =
        PageTables.sizeOf? tables ∧
      ∀ cause, (Policy.sweep frameTable steps hand tables).1 = .error cause →
        cause.reach = .stopsMachine := by
  induction steps generalizing hand tables with
  | zero => exact ⟨rfl, fun _ h => Except.error.inj h ▸ rfl⟩
  | succ steps ih =>
      rw [Policy.sweep]
      split
      · exact ih _ _
      · split
        · exact ih _ _
        · split
          · exact ⟨rfl, fun _ h => Except.error.inj h ▸ rfl⟩
          · split
            · exact ⟨rfl, fun _ h => Except.error.inj h ▸ rfl⟩
            · split
              · obtain ⟨hsize, hfatal⟩ := ih _ _
                exact ⟨hsize.trans (funext fun q => PageTables.sizeOf?_put ..), hfatal⟩
              · exact ⟨rfl, fun _ h => by cases h⟩

theorem select_within (policy : Policy) (frameTable : FrameTable) (tables : PageTables) :
    PageTables.sizeOf? (policy.select frameTable tables).2.2 = PageTables.sizeOf? tables ∧
      ∀ cause, (policy.select frameTable tables).1 = .error cause →
        cause.reach = .stopsMachine := by
  cases policy with
  | clock hand => exact sweep_within frameTable _ hand tables
  | random generator =>
      refine ⟨rfl, fun cause h => ?_⟩
      change (Policy.draw generator frameTable).1 = _ at h
      rw [Policy.draw] at h
      split at h
      · cases h
      · exact Except.error.inj h ▸ rfl

theorem chooseVictim_within (process : UserProcess) :
    Within (σ := σ) l (l.Meets process.pid) (fun _ => True) (chooseVictim process) := by
  refine (syncCache_within false).bind fun _ _ => .get_bind fun s hs => ?_
  obtain ⟨hsize, hfatal⟩ := select_within s.policy s.frameTable s.tables
  refine Within.bind (.of_set ?_) fun _ _ =>
    .of_orFail (fun _ _ => trivial) fun cause h => .fatal (hfatal cause h)
  subst hs
  exact congrArg (Layout.mk s.processor.pageSize) hsize

theorem enter_within (process : UserProcess) {page : Nat} (hid : l.Spans ⟨process.pid, page⟩)
    (frame : Nat) (dirty : Bool) :
    Within (σ := σ) l (l.Meets process.pid) (fun _ => True) (enter process page frame dirty) := by
  refine (tableOf_within .gone).bind fun table htable =>
    (replace_within (hid _ htable) fun _ =>
      { frame := some frame, valid := true, readOnly := process.image.isReadOnly page }).bind
    fun table' hsize => ?_
  rw [← hsize] at htable
  refine (lookup_within (hid _ htable)).bind fun entry _ => (setTable_within ?_).bind fun _ _ =>
    changeFrames_within _
  rw [PageTable.numPages_put]
  exact htable

/-! ## The end of a process -/

/-- Giving back frames, one after the other. -/
theorem giveBackAll_within (pages : List (Nat × Nat)) :
    Within (σ := σ) l errors (fun _ => True)
      (pages.forM fun (_, frame) => changeFrames (·.giveBack frame)) := by
  induction pages with
  | nil => exact .of_pure trivial
  | cons entry rest ih => exact (changeFrames_within _).bind fun _ _ => ih

/-- The end of a process takes its page tables away and no others, and never fails. -/
theorem reclaim_layout {s s' : Paging σ} {pid : Pid} {r : Except PagingError Unit}
    (h : reclaim pid s = .ok (r, s')) : r = .ok () ∧ s'.layout = s.layout.without pid := by
  have hrelease : Within (σ := σ) (s.layout.without pid) (fun _ => False) (fun _ => True)
      (modify fun s => { s with swap := (s.swap.releaseAll pid).2 }) :=
    .of_modify fun _ hs => hs
  have hdone : ∀ (s₁ : Paging σ) {act : PagingM σ Unit}, s₁.layout = s.layout.without pid →
      Within (s.layout.without pid) (fun _ => False) (fun _ => True) act →
      act s₁ = .ok (r, s') → r = .ok () ∧ s'.layout = s.layout.without pid := by
    intro s₁ act hs₁ hact hrun
    obtain ⟨hlayout, -, herror⟩ := hact s₁ r s' hs₁ hrun
    cases r with
    | error cause => exact (herror cause rfl).elim
    | ok _ => exact ⟨rfl, hlayout⟩
  rw [reclaim, flush, bind_ok (modify_run ..), bind_ok (get_run _)] at h
  simp only at h
  cases htable : s.tables[pid]? with
  | none =>
      rw [htable] at h
      refine hdone { s with processor := MappingCache.flush s.processor } ?_ hrelease h
      -- there is nothing to take away
      refine congrArg (Layout.mk s.processor.pageSize) (Function.update_eq_self_iff.2 ?_).symm
      exact (congrArg (Option.map PageTable.numPages) htable).symm
  | some table =>
      rw [htable] at h
      refine hdone { s with
        processor := MappingCache.flush s.processor
        tables := s.tables.erase pid } ?_
        ((giveBackAll_within table.inMemory).bind fun _ _ => hrelease) h
      refine congrArg (Layout.mk s.processor.pageSize) (funext fun q => ?_)
      rw [PageTables.sizeOf?_erase, Function.update_apply]
      rfl

/-! ## Swap -/

/-- The error stops the machine, or is handled in this way. -/
def FatalOr (handled : Reach) (cause : PagingError) : Prop :=
  cause.reach = .stopsMachine ∨ cause.reach = handled

variable [Extent σ]

theorem swapOut_within (id : PageId) (bytes : List UInt8) :
    Within (σ := σ) l (FatalOr .waitsOut) (fun _ => True) (swapOut id bytes) := by
  refine .get_bind fun s _ => .orHalt_bind fun x hx => ?_
  obtain ⟨result, swap⟩ := x
  refine Within.bind (.of_modify fun _ hs => hs) fun _ _ =>
    (Within.of_orFail (fun _ _ => trivial) fun cause hcause => ?_).bind fun _ _ => .of_pure trivial
  subst hcause
  rw [SwapArea.store] at hx
  split at hx
  · cases hx
  · split at hx
    · obtain ⟨h, -⟩ := Prod.mk.inj (Except.ok.inj hx)
      exact Except.error.inj h ▸ .inl rfl
    · split at hx
      · obtain ⟨h, -⟩ := Prod.mk.inj (Except.ok.inj hx)
        exact Except.error.inj h ▸ .inr rfl
      · split at hx
        · obtain ⟨h, -⟩ := Prod.mk.inj (Except.ok.inj hx)
          exact Except.error.inj h ▸ .inl rfl
        · obtain ⟨h, -⟩ := Prod.mk.inj (Except.ok.inj hx)
          cases h

theorem swapIn_within (id : PageId) (slot frameSize : Nat) :
    Within (σ := σ) l (FatalOr .worksAround) (fun _ => True) (swapIn id slot frameSize) := by
  refine .get_bind fun s _ => .orHalt_bind fun x hx => ?_
  obtain ⟨result, swap⟩ := x
  refine Within.bind (.of_modify fun _ hs => hs) fun _ _ =>
    .of_orFail (fun _ _ => trivial) fun cause hcause => ?_
  subst hcause
  rw [SwapArea.fetch] at hx
  split at hx
  · cases hx
  · split at hx
    · split at hx
      · obtain ⟨h, -⟩ := Prod.mk.inj (Except.ok.inj hx)
        exact Except.error.inj h ▸ .inl rfl
      · obtain ⟨h, -⟩ := Prod.mk.inj (Except.ok.inj hx)
        cases h
    · obtain ⟨h, -⟩ := Prod.mk.inj (Except.ok.inj hx)
      exact Except.error.inj h ▸ .inr rfl

/-! ## Eviction -/

theorem save_within (frame : Nat) (id : PageId) (entry : PageEntry) :
    Within (σ := σ) l (FatalOr .waitsOut) (fun _ => True) (save frame id entry) := by
  rw [save]
  split
  · exact (frameBytes_within frame).bind fun bytes _ => (swapOut_within id bytes).bind fun _ _ =>
      count_within _
  · exact .of_pure trivial

theorem evict_within (victim : Nat) :
    Within (σ := σ) l (FatalOr .waitsOut) (fun _ => True) (evict victim) := by
  refine .get_bind fun s _ => ?_
  split
  · exact .of_pure trivial
  · rename_i id _
    refine ((residentEntry_within victim id).mono_errors fun _ => .inl).bind
      fun entry hid => (save_within victim id entry).bind fun _ _ =>
        (invalidate_within victim hid).bind fun _ _ => (changeFrames_within _).bind fun _ _ =>
          count_within _

/-- The lack of a slot is waited out. -/
theorem evictOrWait_within (process : UserProcess) (victim : Nat) :
    Within (σ := σ) l (·.reach = .stopsMachine) (fun _ => True) (evictOrWait process victim) := by
  refine Within.catching ((evict_within victim).bind fun _ _ => .of_pure trivial)
    fun cause hcause => ?_
  have hthrow : cause.reach = .stopsMachine → Within (σ := σ) l (·.reach = .stopsMachine)
      (fun _ : FrameSearch => True) (do changeFrames (·.unpin victim); throw cause) :=
    fun hfatal => (changeFrames_within _).bind fun _ _ => .of_throw hfatal
  cases cause with
  | swapExhausted => exact saveCache_within.bind fun _ _ => .of_pure trivial
  | _ => exact hthrow (hcause.resolve_right fun h => by cases h)

theorem findFrame_within (process : UserProcess) :
    Within (σ := σ) l (l.Meets process.pid) (fun _ => True) (findFrame process) := by
  refine reserveFrame_within.bind fun found _ => ?_
  cases found with
  | some frame => exact .of_pure trivial
  | none =>
      exact (chooseVictim_within process).bind fun victim _ =>
        (changeFrames_within _).bind fun _ _ =>
          (evictOrWait_within process victim).mono_errors fun _ => .fatal

theorem resumeSearch_within (process : UserProcess) (victim : Nat) :
    Within (σ := σ) l (·.reach = .stopsMachine) (fun _ => True) (resumeSearch process victim) := by
  refine reserveFrame_within.bind fun found _ => ?_
  cases found with
  | some frame =>
      exact (changeFrames_within _).bind fun _ _ => .get_bind fun _ _ => .of_pure trivial
  | none => exact evictOrWait_within process victim

/-! ## Misses -/

theorem fillFromSwap_within (id : PageId) (slot frame frameSize : Nat) :
    Within (σ := σ) l (FatalOr .worksAround) (fun _ => True)
      (fillFromSwap id slot frame frameSize) :=
  (swapIn_within id slot frameSize).bind fun bytes _ => (setFrameBytes_within frame bytes).bind
    fun _ _ => count_within _

/-- A slot that is not the page's own is worked around. -/
theorem fill_within (process : UserProcess) (page frame : Nat) :
    Within (σ := σ) l (·.reach = .stopsMachine) (fun _ => True) (fill process page frame) := by
  refine (frameBytes_within frame).bind fun bytes _ => .get_bind fun s _ => ?_
  have hafresh : ∀ {errors}, Within (σ := σ) l errors (fun _ : Bool => True)
      (do fillAfresh process page frame bytes.length; pure false) :=
    (setFrameBytes_within frame _).bind fun _ _ => .of_pure trivial
  split
  · exact hafresh
  · rename_i slot _
    refine Within.catching ((fillFromSwap_within _ slot frame bytes.length).bind fun _ _ =>
      .of_pure trivial) fun cause hcause => ?_
    have hthrow : cause.reach = .stopsMachine → Within (σ := σ) l (·.reach = .stopsMachine)
        (fun _ : Bool => True) (throw cause) := fun hfatal => .of_throw hfatal
    cases cause with
    | slotOwnerMismatch => exact hafresh
    | _ => exact hthrow (hcause.resolve_right fun h => by cases h)

/-- A page is brought in only for a process that has page tables. -/
theorem bringIn_within (process : UserProcess) {page : Nat} (hid : l.Spans ⟨process.pid, page⟩)
    (frame : Nat) :
    Within (σ := σ) l (l.Meets process.pid) (fun _ => l.numPages process.pid ≠ none)
      (bringIn process page frame) := by
  refine .get_bind fun s hs => ?_
  subst hs
  cases htable : s.tables[process.pid]? with
  | none =>
      rw [PageTables.table_eq_error htable]
      exact (changeFrames_within _).bind fun _ _ =>
        .of_throw (.gone (congrArg (Option.map _) htable))
  | some table =>
      have hpages : s.layout.numPages process.pid = some table.numPages :=
        congrArg (Option.map _) htable
      have hpid : s.layout.numPages process.pid ≠ none := hpages ▸ Option.some_ne_none _
      rw [PageTables.table_eq_ok_iff.2 htable]
      refine (lookup_within (hid _ hpages)).bind fun entry _ => ?_
      split
      · exact (changeFrames_within _).bind fun _ _ => .of_pure hpid
      · exact ((fill_within process page frame).mono_errors fun _ => .fatal).bind
          fun fromSwap _ => (enter_within process hid frame fromSwap).bind fun _ _ =>
            .of_pure hpid

theorem settleFault_within (process : UserProcess) {page : Nat}
    (hid : l.Spans ⟨process.pid, page⟩) (found : FrameSearch) :
    Within (σ := σ) l (l.Meets process.pid)
      (fun r => ∀ wakeUps, r = .loaded wakeUps → l.numPages process.pid ≠ none)
      (settleFault process page found) := by
  cases found with
  | needsSlot victim => exact .of_pure fun _ h => by cases h
  | found frame passOn =>
      exact (bringIn_within process hid frame).bind fun slotFreed hpid =>
        (loadMapping_within hid).bind fun _ _ => .of_pure fun _ _ => hpid

/-- What a miss at an address can fail with: what an action for the process can, and that the
address is outside. -/
inductive MissFails (l : Layout) (pid : Pid) (address : Nat) : PagingError → Prop where
  | meets {cause : PagingError} (h : l.Meets pid cause) : MissFails l pid address cause
  | outside (h : ¬ l.Has ⟨pid, Address.page l.pageSize address⟩) :
      MissFails l pid address (.segmentationFault address)

/-- A miss that is handled, or waits for a slot, is about a page inside the address space. -/
theorem handleMiss_within (process : UserProcess) (address : Nat) :
    Within (σ := σ) l (MissFails l process.pid address)
      (fun _ => l.Has ⟨process.pid, Address.page l.pageSize address⟩)
      (handleMiss process address) := by
  refine (count_within _).bind fun _ _ => .get_bind fun s hs =>
    (tableOf_within fun hnone => .meets (.gone hnone)).bind fun table htable => ?_
  have hpage : Address.page s.processor.pageSize address = Address.page l.pageSize address :=
    congrArg (Address.page · address) (congrArg Layout.pageSize hs)
  rw [hpage]
  split
  · rename_i cause herror
    refine .of_throw (.outside fun hhas => ?_)
    obtain ⟨entry, hentry⟩ := PageTable.lt_numPages_iff.1 (hhas.spans _ htable)
    cases (PageTable.lookup_eq_ok_iff.2 hentry).symm.trans herror
  · rename_i entry hentry
    have hhas : l.Has ⟨process.pid, Address.page l.pageSize address⟩ :=
      ⟨_, htable, PageTable.lt_numPages_iff.2 ⟨entry, PageTable.lookup_eq_ok_iff.1 hentry⟩⟩
    split
    · exact ((loadMapping_within hhas.spans).mono_errors fun _ => .meets).bind
        fun _ _ => .of_pure hhas
    · exact (count_within _).bind fun _ _ =>
        ((findFrame_within process).mono_errors fun _ => .meets).bind fun found _ =>
          (settleFault_within process hhas.spans found).mono (fun _ h => .meets h) fun _ _ => hhas

/-- After a sleep a page is brought in only if the process still has page tables. -/
theorem resumeFault_within (process : UserProcess) {page : Nat}
    (hid : l.Spans ⟨process.pid, page⟩) (victim : Nat) :
    Within (σ := σ) l (l.Meets process.pid)
      (fun r => ∀ wakeUps, r = .loaded wakeUps → l.numPages process.pid ≠ none)
      (resumeFault process page victim) :=
  ((resumeSearch_within process victim).mono_errors fun _ => .fatal).bind
    fun found _ => settleFault_within process hid found

end Paging

end DemandPaging
