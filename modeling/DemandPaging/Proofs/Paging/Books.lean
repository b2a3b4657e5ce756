import DemandPaging.Paging.Copy
import DemandPaging.Paging.Fault
import DemandPaging.Paging.Reclaim
import DemandPaging.Proofs.Paging.Eviction
import DemandPaging.Proofs.Results

/-!
# Counters and slots

Every action either leaves the counters and the swap area alone (`Paging.Quiet`), or what it adds to
the counters is what it does to the slots (`Paging.Posted`). A fault that has found no frame yet
still owes the eviction that it may come to, and a process that ends frees slots that no counter
counts.

Nothing has to be known of the tables before an action, so all this holds of any tables and of any
extent.
-/

namespace DemandPaging

variable {σ : Type}

/-! ## Slots -/

namespace SwapArea

/-- Between two states of the area so many pages were stored, and so many taken out of their
slots. -/
structure Exchanged (stored taken : Nat) (s s' : SwapArea σ) : Prop where
  numSlots_eq : s'.numSlots = s.numSlots
  free_eq : s'.free.length + stored = s.free.length + taken
  size_eq : s'.slots.size + taken = s.slots.size + stored

theorem Exchanged.of_eq {s s' : SwapArea σ} (hnum : s'.numSlots = s.numSlots)
    (hfree : s'.free = s.free) (hslots : s'.slots = s.slots) : Exchanged 0 0 s s' :=
  ⟨hnum, by rw [hfree], by rw [hslots]⟩

variable {s s' : SwapArea σ} {id : PageId} {slot : Nat}

/-- A page that is in a slot is taken out of it. -/
theorem vacate_exchanged (h : s.lookup id = some slot) (i : Nat) :
    Exchanged 0 1 s (s.vacate id i) := by
  have hmem : id ∈ s.slots := Std.TreeMap.mem_iff_isSome_getElem?.2 (by rw [← lookup, h]; rfl)
  have hpos : 0 < s.slots.size := by
    rw [Nat.pos_iff_ne_zero, Ne, ← beq_iff_eq, ← Std.TreeMap.isEmpty_eq_size_eq_zero]
    intro hempty
    exact absurd hmem (Std.TreeMap.not_mem_of_isEmpty hempty)
  refine ⟨rfl, ?_, ?_⟩
  · show (s.free ++ [i]).length + 0 = _
    rw [List.length_append, List.length_singleton]
  · show (s.slots.erase id).size + 1 = _
    rw [Std.TreeMap.size_erase, if_pos (Std.TreeMap.mem_iff_contains.1 hmem)]
    omega

/-- Every page of a process is taken out of its slot. -/
theorem releaseAll_exchanged (s : SwapArea σ) (pid : Pid) :
    Exchanged 0 (s.releaseAll pid).1 s (s.releaseAll pid).2 := by
  have hfold : ∀ (pages : List (PageId × Nat)) (s : SwapArea σ), (pages.map Prod.fst).Nodup →
      (∀ entry ∈ pages, s.lookup entry.1 = some entry.2) →
        Exchanged 0 pages.length s (pages.foldl (fun s entry => s.vacate entry.1 entry.2) s) := by
    intro pages
    induction pages with
    | nil => exact fun s _ _ => .of_eq rfl rfl rfl
    | cons entry rest ih =>
        intro s hnodup hlookup
        rw [List.map_cons, List.nodup_cons] at hnodup
        have hvacate := vacate_exchanged (hlookup entry List.mem_cons_self) entry.2
        have hrest := ih (s.vacate entry.1 entry.2) hnodup.2 fun e he => by
          -- the pages are different, so the others are still in their slots
          rw [lookup_vacate, if_neg, hlookup e (List.mem_cons_of_mem _ he)]
          intro heq
          exact hnodup.1 (heq ▸ List.mem_map_of_mem he)
        obtain ⟨hnum₁, hfree₁, hsize₁⟩ := hvacate
        obtain ⟨hnum₂, hfree₂, hsize₂⟩ := hrest
        refine ⟨hnum₂.trans hnum₁, ?_, ?_⟩
        · simp only [List.foldl_cons, List.length_cons]
          omega
        · simp only [List.foldl_cons, List.length_cons]
          omega
  apply hfold
  · have hkeys := s.slots.nodup_keys
    rw [← Std.TreeMap.map_fst_toList_eq_keys] at hkeys
    exact hkeys.sublist (List.filter_sublist.map Prod.fst)
  · intro entry hentry
    exact (Consistent.mem_pagesOf_iff.1 hentry).1

variable [Extent σ]

theorem store_exchanged {data : List UInt8} {r : Except PagingError Nat}
    (h : s.store id data = .ok (r, s')) : Exchanged r.toOption.toList.length 0 s s' := by
  rw [store] at h
  split at h
  · cases h
  · split at h
    · obtain ⟨rfl, rfl⟩ := Prod.mk.inj (Except.ok.inj h)
      exact .of_eq rfl rfl rfl
    · rename_i hid
      split at h
      · obtain ⟨rfl, rfl⟩ := Prod.mk.inj (Except.ok.inj h)
        exact .of_eq rfl rfl rfl
      · rename_i slot rest hfree
        split at h
        · obtain ⟨rfl, rfl⟩ := Prod.mk.inj (Except.ok.inj h)
          exact .of_eq rfl rfl rfl
        · obtain ⟨rfl, rfl⟩ := Prod.mk.inj (Except.ok.inj h)
          have hnot : id ∉ s.slots := by
            rw [Std.TreeMap.mem_iff_isSome_getElem?, ← lookup, hid]
            exact Bool.noConfusion
          refine ⟨rfl, by rw [hfree]; rfl, ?_⟩
          show (s.slots.insert id slot).size + 0 = _
          rw [Std.TreeMap.size_insert, if_neg (mt Std.TreeMap.mem_iff_contains.2 hnot)]
          rfl

theorem fetch_exchanged {frameSize : Nat} {r : Except PagingError (List UInt8)}
    (h : s.fetch id slot frameSize = .ok (r, s')) : Exchanged 0 r.toOption.toList.length s s' := by
  rw [fetch] at h
  split at h
  · cases h
  · split at h
    · rename_i hown
      split at h
      · obtain ⟨rfl, rfl⟩ := Prod.mk.inj (Except.ok.inj h)
        exact .of_eq rfl rfl rfl
      · rename_i bytes extent _
        obtain ⟨rfl, rfl⟩ := Prod.mk.inj (Except.ok.inj h)
        have hlookup : SwapArea.lookup { s with extent } id = some slot := hown.2
        obtain ⟨hnum, hfree, hsize⟩ := vacate_exchanged hlookup slot
        exact ⟨hnum, hfree, hsize⟩
    · obtain ⟨rfl, rfl⟩ := Prod.mk.inj (Except.ok.inj h)
      exact .of_eq rfl rfl rfl

end SwapArea

namespace Paging

variable {α β : Type}

/-! ## Actions that neither count nor use swap -/

/-- Whatever comes of the action, it leaves the counters and the swap area alone. -/
def Quiet (act : PagingM σ α) : Prop :=
  ∀ s r s', act s = .ok (r, s') → s'.counters = s.counters ∧ s'.swap = s.swap

namespace Quiet

theorem of_pure (x : α) : Quiet (σ := σ) (pure x) := by
  rintro s r s' ⟨⟩
  exact ⟨rfl, rfl⟩

theorem of_throw (cause : PagingError) : Quiet (σ := σ) (α := α) (throw cause) := by
  rintro s r s' ⟨⟩
  exact ⟨rfl, rfl⟩

theorem of_orFail (x : Except PagingError α) : Quiet (σ := σ) (orFail x) := by
  rintro s r s' ⟨⟩
  exact ⟨rfl, rfl⟩

theorem of_orHalt (x : Except Halt α) : Quiet (σ := σ) (orHalt x) := by
  intro s r s' h
  obtain ⟨a, -, h⟩ := ok_of_map h
  obtain ⟨rfl, rfl⟩ := Prod.mk.inj h
  exact ⟨rfl, rfl⟩

theorem of_modify {f : Paging σ → Paging σ}
    (h : ∀ s, (f s).counters = s.counters ∧ (f s).swap = s.swap) :
    Quiet (modify f : PagingM σ PUnit) := by
  rintro s r s' ⟨⟩
  exact h s

theorem of_get : Quiet (σ := σ) get := by
  rintro s r s' ⟨⟩
  exact ⟨rfl, rfl⟩

theorem bind {act : PagingM σ α} {next : α → PagingM σ β} (h : Quiet act)
    (hnext : ∀ a, Quiet (next a)) : Quiet (act >>= next) := by
  intro s r s' hrun
  rw [bind_run] at hrun
  obtain ⟨⟨result, s₁⟩, hact, hrun⟩ := ok_of_bind hrun
  obtain ⟨hcounters, hswap⟩ := h s _ s₁ hact
  cases result with
  | error cause =>
      obtain ⟨-, rfl⟩ := Prod.mk.inj (Except.ok.inj hrun)
      exact ⟨hcounters, hswap⟩
  | ok a =>
      obtain ⟨hcounters', hswap'⟩ := hnext a s₁ r s' hrun
      exact ⟨hcounters'.trans hcounters, hswap'.trans hswap⟩

theorem modify_bind {f : Paging σ → Paging σ} {next : PUnit → PagingM σ β}
    (h : ∀ s, (f s).counters = s.counters ∧ (f s).swap = s.swap) (hnext : ∀ a, Quiet (next a)) :
    Quiet (modify f >>= next) := (of_modify h).bind hnext

end Quiet

theorem changeFrames_quiet (change : FrameTable → Except Halt FrameTable) :
    Quiet (σ := σ) (changeFrames change) := by
  apply Quiet.of_get.bind
  intro s
  apply (Quiet.of_orHalt _).bind
  exact fun t => .of_modify fun _ => ⟨rfl, rfl⟩

theorem reserveFrame_quiet : Quiet (σ := σ) reserveFrame := by
  apply Quiet.of_get.bind
  intro s
  apply (Quiet.of_orHalt _).bind
  rintro ⟨found, t⟩
  exact .modify_bind (fun _ => ⟨rfl, rfl⟩) fun _ => .of_pure _

theorem frameBytes_quiet (frame : Nat) : Quiet (σ := σ) (frameBytes frame) :=
  Quiet.of_get.bind fun _ => .of_orHalt _

theorem setFrameBytes_quiet (frame : Nat) (bytes : List UInt8) :
    Quiet (σ := σ) (setFrameBytes frame bytes) := by
  apply Quiet.of_get.bind
  intro s
  exact (Quiet.of_orHalt _).bind fun _ => .of_modify fun _ => ⟨rfl, rfl⟩

theorem tableOf_quiet (pid : Pid) : Quiet (σ := σ) (tableOf pid) :=
  Quiet.of_get.bind fun _ => .of_orFail _

theorem setTable_quiet (pid : Pid) (table : PageTable) : Quiet (σ := σ) (setTable pid table) :=
  .of_modify fun _ => ⟨rfl, rfl⟩

theorem flush_quiet : Quiet (σ := σ) flush := .of_modify fun _ => ⟨rfl, rfl⟩

theorem syncCache_quiet (pid : Pid) (invalidate : Bool) :
    Quiet (σ := σ) (syncCache pid invalidate) := by
  apply (tableOf_quiet pid).bind
  intro table
  apply Quiet.of_get.bind
  intro s
  refine .modify_bind (fun _ => ⟨rfl, rfl⟩) fun _ => ?_
  exact (setTable_quiet pid _).bind fun _ => .of_orFail _

theorem saveCache_quiet (pid : Pid) : Quiet (σ := σ) (saveCache pid) := by
  apply Quiet.of_get.bind
  intro s
  split
  · exact syncCache_quiet pid true
  · exact flush_quiet

theorem loadMapping_quiet (id : PageId) : Quiet (σ := σ) (loadMapping id) := by
  apply (tableOf_quiet id.pid).bind
  intro table
  apply (Quiet.of_orFail _).bind
  intro entry
  apply Quiet.of_get.bind
  intro s
  apply (Quiet.of_orHalt _).bind
  rintro ⟨result, processor, table', rng⟩
  refine .modify_bind (fun _ => ⟨rfl, rfl⟩) fun _ => ?_
  apply (setTable_quiet id.pid table').bind
  intro _
  apply (Quiet.of_orFail _).bind
  intro slot
  exact (Quiet.of_orHalt _).bind fun _ => .of_modify fun _ => ⟨rfl, rfl⟩

theorem pinForCopy_quiet (id : PageId) (writing : Bool) :
    Quiet (σ := σ) (pinForCopy id writing) := by
  apply ((tableOf_quiet id.pid).bind fun _ => .of_orFail _).bind
  intro entry
  split
  · split
    · exact .of_pure _
    · refine .modify_bind (fun _ => ⟨rfl, rfl⟩) fun _ => ?_
      exact (changeFrames_quiet _).bind fun _ => .of_pure _
  · exact .of_pure _

/-- The tables are replaced by some with the bits that the policy has taken off. -/
theorem chooseVictim_quiet (process : UserProcess) : Quiet (σ := σ) (chooseVictim process) := by
  apply (syncCache_quiet process.pid false).bind
  rintro _ s r s' ⟨⟩
  exact ⟨rfl, rfl⟩

theorem enter_quiet (process : UserProcess) (page frame : Nat) (dirty : Bool) :
    Quiet (σ := σ) (enter process page frame dirty) := by
  apply (tableOf_quiet process.pid).bind
  intro table
  apply (Quiet.of_orFail _).bind
  intro table'
  apply (Quiet.of_orFail _).bind
  intro entry
  exact (setTable_quiet process.pid _).bind fun _ => changeFrames_quiet _

/-! ## Actions that count -/

/-- What has been counted between two states of the tables. No more faults than misses were added.
Every eviction was one that a fault owed, and what is still owed comes out of the faults as well. No
more pages were swapped out than evicted. The slots in use are more by those that were swapped out,
and less by those that were swapped in or released. -/
structure Posted (owed owing released : Nat) (s s' : Paging σ) : Prop where
  misses : s'.counters.faults + s.counters.misses ≤ s'.counters.misses + s.counters.faults
  faults : s'.counters.evictions + owing + s.counters.faults ≤
    s'.counters.faults + s.counters.evictions + owed
  evictions : s'.counters.swapOuts + s.counters.evictions ≤
    s'.counters.evictions + s.counters.swapOuts
  used : s'.swap.slots.size + s'.counters.swapIns + released + s.counters.swapOuts =
    s.swap.slots.size + s.counters.swapIns + s'.counters.swapOuts
  slots : s'.swap.free.length + s'.swap.slots.size = s.swap.free.length + s.swap.slots.size
  numSlots : s'.swap.numSlots = s.swap.numSlots

namespace Posted

variable {s s' s'' : Paging σ} {owed owing owing' released released' : Nat}

theorem of_eq (h : owing ≤ owed) (hcounters : s'.counters = s.counters) (hswap : s'.swap = s.swap) :
    Posted owed owing 0 s s' := by
  constructor
  · rw [hcounters, Nat.add_comm]
  · rw [hcounters]
    omega
  · rw [hcounters, Nat.add_comm]
  · rw [hcounters, hswap, Nat.add_zero]
  · rw [hswap]
  · rw [hswap]

theorem trans (h : Posted owed owing released s s') (h' : Posted owing owing' released' s' s'') :
    Posted owed owing' (released + released') s s'' := by
  obtain ⟨hmisses, hfaults, hevictions, hused, hslots, hnum⟩ := h
  obtain ⟨hmisses', hfaults', hevictions', hused', hslots', hnum'⟩ := h'
  exact ⟨by omega, by omega, by omega, by omega, by omega, hnum'.trans hnum⟩

/-- What was counted is what has happened to the slots, but for those that were released. -/
theorem of_counted (evicted stored taken : Nat) (hstored : stored ≤ evicted)
    (howed : evicted + owing ≤ owed)
    (hcounters : s'.counters = { s.counters with
      evictions := s.counters.evictions + evicted
      swapOuts := s.counters.swapOuts + stored
      swapIns := s.counters.swapIns + taken })
    (hswap : SwapArea.Exchanged stored (taken + released) s.swap s'.swap) :
    Posted owed owing released s s' := by
  obtain ⟨hnum, hfree, hsize⟩ := hswap
  refine ⟨?_, ?_, ?_, ?_, by omega, hnum⟩
  · simp only [hcounters]
    omega
  · simp only [hcounters]
    omega
  · simp only [hcounters]
    omega
  · simp only [hcounters]
    omega

/-- A miss that may be a fault, and a fault may come to an eviction. -/
theorem of_missed (faulted : Nat) (hfaulted : faulted ≤ 1) (howing : owing ≤ owed + faulted)
    (hcounters : s'.counters = { s.counters with
      misses := s.counters.misses + 1, faults := s.counters.faults + faulted })
    (hswap : s'.swap = s.swap) : Posted owed owing 0 s s' := by
  refine ⟨?_, ?_, ?_, ?_, by rw [hswap], by rw [hswap]⟩
  · simp only [hcounters]
    omega
  · simp only [hcounters]
    omega
  · simp only [hcounters]
    omega
  · simp only [hcounters, hswap]
    omega

/-- What others owe is owed as before. -/
theorem beside (h : Posted owed owing released s s') (others : Nat) :
    Posted (owed + others) (owing + others) released s s' := by
  obtain ⟨hmisses, hfaults, hevictions, hused, hslots, hnum⟩ := h
  exact ⟨hmisses, by omega, hevictions, hused, hslots, hnum⟩

end Posted

/-- What is owed after an action, if its result says so. After an error nothing is. -/
def owingAfter (owing : α → Nat) : Except PagingError α → Nat
  | .ok a => owing a
  | .error _ => 0

/-- The action settles so much that is owed, up to what its result says. -/
def Posts (owed : Nat) (owing : α → Nat) (act : PagingM σ α) : Prop :=
  ∀ s r s', act s = .ok (r, s') → Posted owed (owingAfter owing r) 0 s s'

namespace Posts

variable {owed : Nat} {owing : α → Nat} {settled : β → Nat} {act : PagingM σ α}

theorem of_quiet (h : Quiet act) (howing : ∀ a, owing a ≤ owed) : Posts owed owing act := by
  intro s r s' hrun
  obtain ⟨hcounters, hswap⟩ := h s r s' hrun
  refine .of_eq ?_ hcounters hswap
  cases r with
  | ok a => exact howing a
  | error cause => exact Nat.zero_le _

theorem of_pure {x : α} (h : owing x ≤ owed) : Posts (σ := σ) owed owing (pure x) := by
  intro s r s' hrun
  obtain ⟨rfl, rfl⟩ := Prod.mk.inj (Except.ok.inj hrun)
  exact .of_eq h rfl rfl

theorem bind {next : α → PagingM σ β} (h : Posts owed owing act)
    (hnext : ∀ a, Posts (owing a) settled (next a)) : Posts owed settled (act >>= next) := by
  intro s r s' hrun
  rw [bind_run] at hrun
  obtain ⟨⟨result, s₁⟩, hact, hrun⟩ := ok_of_bind hrun
  have hposted := h s _ s₁ hact
  cases result with
  | error cause =>
      obtain ⟨rfl, rfl⟩ := Prod.mk.inj (Except.ok.inj hrun)
      exact hposted
  | ok a => exact hposted.trans (hnext a s₁ r s' hrun)

theorem quiet_bind {next : α → PagingM σ β} (h : Quiet act)
    (hnext : ∀ a, Posts owed settled (next a)) : Posts owed settled (act >>= next) := by
  have hact : Posts owed (fun _ => owed) act := of_quiet h fun _ => le_rfl
  exact hact.bind hnext

end Posts

variable {s s' : Paging σ}

theorem frameBytes_run (frame : Nat) (s : Paging σ) :
    frameBytes frame s = (s.processor.frame frame).map fun bytes => (.ok bytes, s) := by
  rw [frameBytes, bind_ok (get_run s)]
  rfl

theorem residentEntry_cases (frame : Nat) (id : PageId) (s : Paging σ) :
    (∃ e, s.tables.find? id = some e ∧ residentEntry frame id s = .ok (.ok e, s)) ∨
      residentEntry frame id s = .ok (.error (.frameTableCorrupt frame), s) := by
  rw [residentEntry, bind_ok (get_run s)]
  cases hlookup : PageTables.lookup s.tables id with
  | error cause => exact .inr rfl
  | ok e =>
      by_cases hlives : (e.valid && decide (e.frame = some frame)) = true
      · refine .inl ⟨e, PageTables.lookup_eq_ok_iff.1 hlookup, ?_⟩
        simp only [if_pos hlives, pure_run]
      · refine .inr ?_
        simp only [if_neg hlives, throw_run]

theorem setFrameBytes_run (frame : Nat) (bytes : List UInt8) (s : Paging σ) :
    setFrameBytes frame bytes s =
      (s.processor.setFrame frame bytes).map fun processor => (.ok (), { s with processor }) := by
  rw [setFrameBytes, bind_ok (get_run s), bind_run, orHalt]
  cases s.processor.setFrame frame bytes <;> rfl

/-! ## The end of a process -/

/-- Frames are given back without fail, and nothing is counted. -/
theorem giveBackAll_ok {pages : List (Nat × Nat)} {r : Except PagingError Unit}
    (h : (pages.forM fun (_, frame) => changeFrames (·.giveBack frame) : PagingM σ Unit) s =
      .ok (r, s')) : r = .ok () ∧ s'.counters = s.counters ∧ s'.swap = s.swap := by
  induction pages generalizing s with
  | nil =>
      obtain ⟨rfl, rfl⟩ := Prod.mk.inj (Except.ok.inj h)
      exact ⟨rfl, rfl, rfl⟩
  | cons x rest ih =>
      change (changeFrames (·.giveBack x.2) >>= fun _ => rest.forM _) s = _ at h
      rw [bind_run, changeFrames_run] at h
      obtain ⟨⟨result, s₁⟩, hgive, h⟩ := ok_of_bind h
      obtain ⟨t, -, hgive⟩ := ok_of_map hgive
      obtain ⟨rfl, rfl⟩ := Prod.mk.inj hgive
      exact ih (s := { s with frameTable := t }) h

/-- A process that ends gives its slots back. No counter tells. -/
theorem reclaim_posted {pid : Pid} {r : Except PagingError Unit}
    (h : reclaim pid s = .ok (r, s')) : Posted 0 0 (s.swap.releaseAll pid).1 s s' := by
  have hrelease : ∀ s₁ : Paging σ, s₁.counters = s.counters → s₁.swap = s.swap →
      (modify fun s => { s with swap := (s.swap.releaseAll pid).2 } : PagingM σ PUnit) s₁ =
        .ok (r, s') → Posted 0 0 (s.swap.releaseAll pid).1 s s' := by
    intro s₁ hcounters hswap hrun
    obtain ⟨rfl, rfl⟩ := Prod.mk.inj (Except.ok.inj hrun)
    rw [← hswap]
    refine .of_counted 0 0 0 le_rfl le_rfl hcounters ?_
    rw [Nat.zero_add, ← hswap]
    exact s₁.swap.releaseAll_exchanged pid
  have hflush : flush s =
      .ok (.ok (), { s with processor := MappingCache.flush s.processor }) := rfl
  rw [reclaim, bind_ok hflush, bind_ok (get_run _)] at h
  cases htable : s.tables[pid]? with
  | none =>
      simp only [htable] at h
      exact hrelease { s with processor := MappingCache.flush s.processor } rfl rfl h
  | some table =>
      simp only [htable] at h
      rw [bind_ok (modify_run _ _), bind_run] at h
      obtain ⟨⟨given, s₁⟩, hgive, h⟩ := ok_of_bind h
      obtain ⟨rfl, hcounters, hswap⟩ := giveBackAll_ok hgive
      exact hrelease _ hcounters hswap h

/-! ## Evictions -/

variable [Extent σ]

/-- A page that is saved may have been swapped out, and then it is counted. -/
theorem save_posted {frame : Nat} {id : PageId} {entry : PageEntry} {r : Except PagingError Unit}
    (h : save frame id entry s = .ok (r, s')) :
    s'.tables = s.tables ∧ ∃ n, n ≤ 1 ∧
      s'.counters = { s.counters with swapOuts := s.counters.swapOuts + n } ∧
      SwapArea.Exchanged n 0 s.swap s'.swap ∧ ∀ cause, r = .error cause → n = 0 := by
  rw [save] at h
  split at h
  · rw [bind_run, frameBytes_run] at h
    obtain ⟨⟨result, s₁⟩, hbytes, h⟩ := ok_of_bind h
    obtain ⟨bytes, -, hbytes⟩ := ok_of_map hbytes
    obtain ⟨rfl, rfl⟩ := Prod.mk.inj hbytes
    simp only at h
    rw [bind_run, swapOut_run] at h
    obtain ⟨⟨result, s₁⟩, hout, h⟩ := ok_of_bind h
    obtain ⟨⟨stored, swap⟩, hstore, hout⟩ := ok_of_map hout
    obtain ⟨rfl, rfl⟩ := Prod.mk.inj hout
    have hexchanged := SwapArea.store_exchanged hstore
    cases stored with
    | error cause =>
        obtain ⟨rfl, rfl⟩ := Prod.mk.inj (Except.ok.inj h)
        exact ⟨rfl, 0, Nat.zero_le 1, rfl, hexchanged, fun _ _ => rfl⟩
    | ok slot =>
        obtain ⟨rfl, rfl⟩ := Prod.mk.inj (Except.ok.inj h)
        refine ⟨rfl, 1, le_rfl, rfl, hexchanged, ?_⟩
        intro cause h
        cases h
  · obtain ⟨rfl, rfl⟩ := Prod.mk.inj (Except.ok.inj h)
    exact ⟨rfl, 0, Nat.zero_le 1, rfl, .of_eq rfl rfl rfl, fun _ _ => rfl⟩

/-- An eviction settles what the fault owes, unless it fails; then nothing has come of it. Once a
page is saved nothing fails any more, so no page is swapped out that is not evicted. -/
theorem evict_posted {victim : Nat} {r : Except PagingError Unit}
    (h : evict victim s = .ok (r, s')) :
    r = .ok () ∧ Posted 1 0 0 s s' ∨ (∃ cause, r = .error cause) ∧ Posted 1 1 0 s s' := by
  rw [evict, bind_ok (get_run s)] at h
  cases howner : s.frameTable.owner victim with
  | none =>
      simp only [howner] at h
      obtain ⟨rfl, rfl⟩ := Prod.mk.inj (Except.ok.inj h)
      exact .inl ⟨rfl, .of_eq (Nat.zero_le 1) rfl rfl⟩
  | some id =>
      simp only [howner] at h
      rcases residentEntry_cases victim id s with ⟨e, he, hentry⟩ | hentry
      · rw [bind_ok hentry, bind_run] at h
        obtain ⟨⟨saved, s₁⟩, hsave, h⟩ := ok_of_bind h
        obtain ⟨htables, n, hn, hcounters, hswap, hfailed⟩ := save_posted hsave
        cases saved with
        | error cause =>
            obtain ⟨rfl, rfl⟩ := Prod.mk.inj (Except.ok.inj h)
            obtain rfl := hfailed cause rfl
            exact .inr ⟨⟨cause, rfl⟩, .of_counted 0 0 0 le_rfl le_rfl hcounters hswap⟩
        | ok _ =>
            -- the page has an entry, so it can be taken out of its table
            rw [← htables] at he
            obtain ⟨table, ht, he⟩ := Option.bind_eq_some_iff.1 he
            simp only at h
            rw [bind_ok (invalidate_ok ht he), bind_run, changeFrames_run] at h
            obtain ⟨⟨result, s₂⟩, hvacate, h⟩ := ok_of_bind h
            obtain ⟨t, -, hvacate⟩ := ok_of_map hvacate
            obtain ⟨rfl, rfl⟩ := Prod.mk.inj hvacate
            obtain ⟨rfl, rfl⟩ := Prod.mk.inj (Except.ok.inj h)
            refine .inl ⟨rfl, .of_counted 1 n 0 hn le_rfl ?_ hswap⟩
            exact congrArg (fun c => { c with evictions := c.evictions + 1 }) hcounters
      · rw [bind_error hentry] at h
        obtain ⟨rfl, rfl⟩ := Prod.mk.inj (Except.ok.inj h)
        exact .inr ⟨⟨_, rfl⟩, .of_eq le_rfl rfl rfl⟩

/-- What is owed after a search for a frame: an eviction that waits for a swap slot. -/
def FrameSearch.owing : FrameSearch → Nat
  | found .. => 0
  | needsSlot _ => 1

theorem FrameSearch.owing_le (search : FrameSearch) : search.owing ≤ 1 := by
  cases search with
  | found frame passOn => exact Nat.zero_le 1
  | needsSlot victim => exact le_rfl

theorem evictOrWait_posts (process : UserProcess) (victim : Nat) :
    Posts (σ := σ) 1 FrameSearch.owing (evictOrWait process victim) := by
  intro s r s' h
  rw [evictOrWait, tryCatch_run] at h
  obtain ⟨⟨result, s₁⟩, htry, h⟩ := ok_of_bind h
  rw [bind_run] at htry
  obtain ⟨⟨evicted, s₂⟩, hevict, htry⟩ := ok_of_bind htry
  rcases evict_posted hevict with ⟨rfl, hposted⟩ | ⟨⟨cause, rfl⟩, hposted⟩
  · obtain ⟨rfl, rfl⟩ := Prod.mk.inj (Except.ok.inj htry)
    obtain ⟨rfl, rfl⟩ := Prod.mk.inj (Except.ok.inj h)
    exact hposted
  · obtain ⟨rfl, rfl⟩ := Prod.mk.inj (Except.ok.inj htry)
    have hgo : ∀ {act : PagingM σ FrameSearch}, Quiet act → act s₂ = .ok (r, s') →
        Posted 1 (owingAfter FrameSearch.owing r) 0 s s' := fun hquiet hrun =>
      hposted.trans (Posts.of_quiet hquiet FrameSearch.owing_le _ _ _ hrun)
    have hthrow : Quiet (σ := σ) (α := FrameSearch)
        (do changeFrames (·.unpin victim); throw cause) :=
      (changeFrames_quiet _).bind fun _ => .of_throw cause
    cases cause with
    | swapExhausted => exact hgo ((saveCache_quiet process.pid).bind fun _ => .of_pure _) h
    | _ => exact hgo hthrow h

theorem findFrame_posts (process : UserProcess) :
    Posts (σ := σ) 1 FrameSearch.owing (findFrame process) := by
  apply Posts.quiet_bind reserveFrame_quiet
  intro found
  cases found with
  | some frame => exact .of_quiet (.of_pure _) FrameSearch.owing_le
  | none =>
      apply Posts.quiet_bind (chooseVictim_quiet process)
      intro victim
      exact .quiet_bind (changeFrames_quiet _) fun _ => evictOrWait_posts process victim

theorem resumeSearch_posts (process : UserProcess) (victim : Nat) :
    Posts (σ := σ) 1 FrameSearch.owing (resumeSearch process victim) := by
  apply Posts.quiet_bind reserveFrame_quiet
  intro found
  cases found with
  | some frame =>
      refine .of_quiet ?_ FrameSearch.owing_le
      exact (changeFrames_quiet _).bind fun _ => Quiet.of_get.bind fun _ => .of_pure _
  | none => exact evictOrWait_posts process victim

/-! ## Faults -/

/-- A page that comes back from swap is counted, for its frame is there. -/
theorem fillFromSwap_posts (id : PageId) (slot frame frameSize : Nat) :
    Posts (σ := σ) 0 (fun _ => 0) (fillFromSwap id slot frame frameSize) := by
  intro s r s' h
  rw [fillFromSwap, bind_run, swapIn_run] at h
  obtain ⟨⟨result, s₁⟩, hin, h⟩ := ok_of_bind h
  obtain ⟨⟨fetched, swap⟩, hfetch, hin⟩ := ok_of_map hin
  obtain ⟨rfl, rfl⟩ := Prod.mk.inj hin
  have hswap := SwapArea.fetch_exchanged hfetch
  cases fetched with
  | error cause =>
      obtain ⟨rfl, rfl⟩ := Prod.mk.inj (Except.ok.inj h)
      exact .of_counted 0 0 0 le_rfl le_rfl rfl hswap
  | ok bytes =>
      simp only at h
      rw [bind_run, setFrameBytes_run] at h
      obtain ⟨⟨written, s₁⟩, hwrite, h⟩ := ok_of_bind h
      obtain ⟨processor, -, hwrite⟩ := ok_of_map hwrite
      obtain ⟨rfl, rfl⟩ := Prod.mk.inj hwrite
      obtain ⟨rfl, rfl⟩ := Prod.mk.inj (Except.ok.inj h)
      exact .of_counted 0 0 1 le_rfl le_rfl rfl hswap

theorem fill_posts (process : UserProcess) (page frame : Nat) :
    Posts (σ := σ) 0 (fun _ => 0) (fill process page frame) := by
  have hafresh : ∀ frameSize, Quiet (σ := σ)
      (do fillAfresh process page frame frameSize; pure false) := fun frameSize =>
    (setFrameBytes_quiet frame _).bind fun _ => .of_pure false
  apply Posts.quiet_bind (frameBytes_quiet frame)
  intro bytes
  apply Posts.quiet_bind .of_get
  intro t
  split
  · exact .of_quiet (hafresh _) fun _ => le_rfl
  · rename_i slot _
    intro s r s' h
    rw [tryCatch_run] at h
    obtain ⟨⟨result, s₁⟩, htry, h⟩ := ok_of_bind h
    have hfill : Posts (σ := σ) 0 (fun _ => 0)
        (do fillFromSwap ⟨process.pid, page⟩ slot frame bytes.length; pure true) :=
      (fillFromSwap_posts _ _ _ _).bind fun _ => .of_quiet (.of_pure true) fun _ => le_rfl
    have hposted := hfill s result s₁ htry
    cases result with
    | ok fromSwap =>
        obtain ⟨rfl, rfl⟩ := Prod.mk.inj (Except.ok.inj h)
        exact hposted
    | error cause =>
        have hgo : ∀ {act : PagingM σ Bool}, Quiet act → act s₁ = .ok (r, s') →
            Posted 0 (owingAfter (fun _ => 0) r) 0 s s' := fun hquiet hrun =>
          hposted.trans (Posts.of_quiet hquiet (fun _ => le_rfl) _ _ _ hrun)
        cases cause with
        | slotOwnerMismatch => exact hgo (hafresh _) h
        | _ => exact hgo (.of_throw _) h

theorem bringIn_posts (process : UserProcess) (page frame : Nat) :
    Posts (σ := σ) 0 (fun _ => 0) (bringIn process page frame) := by
  apply Posts.quiet_bind .of_get
  intro t
  split
  · exact .of_quiet ((changeFrames_quiet _).bind fun _ => .of_throw _) fun _ => le_rfl
  · apply Posts.quiet_bind (.of_orFail _)
    intro entry
    split
    · exact .of_quiet ((changeFrames_quiet _).bind fun _ => .of_pure _) fun _ => le_rfl
    · apply (fill_posts process page frame).bind
      intro fromSwap
      refine .of_quiet ?_ fun _ => le_rfl
      exact (enter_quiet process page frame fromSwap).bind fun _ => .of_pure _

/-- What is owed after a miss: an eviction that waits for a swap slot. -/
def MissResult.owing : MissResult → Nat
  | loaded _ => 0
  | needsSlot _ => 1

theorem MissResult.owing_le (result : MissResult) : result.owing ≤ 1 := by
  cases result with
  | loaded wakeUps => exact Nat.zero_le 1
  | needsSlot victim => exact le_rfl

theorem settleFault_posts (process : UserProcess) (page : Nat) (search : FrameSearch) :
    Posts (σ := σ) search.owing MissResult.owing (settleFault process page search) := by
  cases search with
  | needsSlot victim => exact .of_quiet (.of_pure _) MissResult.owing_le
  | found frame passOn =>
      apply (bringIn_posts process page frame).bind
      intro slotFreed
      exact .quiet_bind (loadMapping_quiet ⟨process.pid, page⟩) fun _ => .of_pure le_rfl

/-- A miss is counted before anything else is done, and so is the fault that it may come to. -/
theorem handleMiss_posts (process : UserProcess) (address : Nat) :
    Posts (σ := σ) 0 MissResult.owing (handleMiss process address) := by
  have hload : ∀ page, Posts (σ := σ) 0 MissResult.owing
      (do loadMapping ⟨process.pid, page⟩; pure (.loaded 0)) := fun page =>
    .quiet_bind (loadMapping_quiet ⟨process.pid, page⟩) fun _ => .of_pure le_rfl
  have hfault : ∀ page, Posts (σ := σ) 1 MissResult.owing
      (do settleFault process page (← findFrame process)) := fun page =>
    (findFrame_posts process).bind (settleFault_posts process page)
  intro s r s' h
  rw [handleMiss, bind_ok (count_run _ s), bind_ok (get_run _)] at h
  generalize hmissed : ({ s with counters := _ } : Paging σ) = s₁ at h
  have hcounters : s₁.counters = { s.counters with misses := s.counters.misses + 1 } := by
    rw [← hmissed]
  have hswap : s₁.swap = s.swap := by rw [← hmissed]
  rw [bind_run] at h
  obtain ⟨⟨result, s₂⟩, htable, h⟩ := ok_of_bind h
  obtain ⟨hcounters₂, hswap₂⟩ := tableOf_quiet _ _ _ _ htable
  rw [hcounters] at hcounters₂
  rw [hswap] at hswap₂
  have hmiss : Posted 0 0 0 s s₂ := .of_missed 0 (Nat.zero_le 1) le_rfl hcounters₂ hswap₂
  cases result with
  | error cause =>
      obtain ⟨rfl, rfl⟩ := Prod.mk.inj (Except.ok.inj h)
      exact hmiss
  | ok table =>
      simp only at h
      generalize Address.page s₁.processor.pageSize address = page at h
      cases hlookup : table.lookup page with
      | error cause =>
          simp only [hlookup] at h
          obtain ⟨rfl, rfl⟩ := Prod.mk.inj (Except.ok.inj h)
          exact hmiss
      | ok entry =>
          simp only [hlookup] at h
          by_cases hvalid : entry.valid = true
          · rw [if_pos hvalid] at h
            exact hmiss.trans (hload page _ _ _ h)
          · rw [if_neg hvalid, bind_ok (count_run _ s₂)] at h
            refine Posted.trans ?_ (hfault page _ _ _ h)
            refine .of_missed 1 le_rfl le_rfl ?_ hswap₂
            exact congrArg (fun c => { c with faults := c.faults + 1 }) hcounters₂

theorem resumeFault_posts (process : UserProcess) (page victim : Nat) :
    Posts (σ := σ) 1 MissResult.owing (resumeFault process page victim) :=
  (resumeSearch_posts process victim).bind fun search => settleFault_posts process page search

end Paging

end DemandPaging
