import DemandPaging.Proofs.MappingCache
import DemandPaging.Proofs.Results

/-!
# Syncing loses no bit

A sync stops at the first entry that the page table disputes. If there is none, every page has the
bits that it had in the table or in the cache, and a second sync finds nothing to do. So the slot
that is filled next may be overwritten: without its entry, all pages still have all their bits
(`sync_keeps_bits`).
-/

namespace DemandPaging.MappingCache

/-- The entry is valid, but the table has no such page, or not in memory, or in another frame. -/
def Disputed (table : PageTable) (c : Mapping) : Prop :=
  c.valid = true ∧ ∀ e ∈ table.entries[c.page]?, e.valid = false ∨ e.frame ≠ some c.frame

instance (table : PageTable) (c : Mapping) : Decidable (Disputed table c) :=
  inferInstanceAs (Decidable (_ ∧ ∀ e ∈ table.entries[c.page]?, _))

variable {p : Processor} {cache : List Mapping} {table table' : PageTable} {c : Mapping}
  {page : Nat}

theorem not_disputed_iff : ¬ Disputed table c ↔ (c.valid = true →
    ∃ e, table.entries[c.page]? = some e ∧ e.valid = true ∧ e.frame = some c.frame) := by
  simp only [Disputed, Option.mem_def, not_and, not_forall, not_or, Bool.not_eq_false, not_not,
    exists_prop]

theorem agrees_iff : Agrees cache table ↔ ∀ c ∈ cache, ¬ Disputed table c := by
  simp only [Agrees, not_disputed_iff]

/-! ## Where a sync stops -/

theorem syncSlot_of_disputed (invalidate : Bool) (h : Disputed table c) :
    syncSlot invalidate table c = .error (.frameTableCorrupt c.frame) := by
  obtain ⟨hvalid, he⟩ := h
  rw [syncSlot, if_neg (by rw [hvalid]; decide)]
  cases hlookup : table.lookup c.page with
  | error _ => rfl
  | ok e =>
      refine if_pos ?_
      rw [Bool.not_eq_true]
      exact he e (PageTable.lookup_eq_ok_iff.1 hlookup)

/-- Syncing an entry that is not disputed makes no difference to which other entries are. -/
theorem syncSlot_of_not_disputed (invalidate : Bool) (h : ¬ Disputed table c) :
    ∃ c' table', syncSlot invalidate table c = .ok (c', table') ∧
      ∀ d, Disputed table' d ↔ Disputed table d := by
  cases hvalid : c.valid with
  | false => exact ⟨c, table, by rw [syncSlot, if_pos (by rw [hvalid]; decide)], fun _ => .rfl⟩
  | true =>
      obtain ⟨e, he, hevalid, hframe⟩ := not_disputed_iff.1 h hvalid
      refine ⟨_, _, syncSlot_eq_ok invalidate hvalid he hevalid hframe, fun d => ?_⟩
      rw [Disputed, Disputed, PageTable.getElem?_put]
      by_cases hpage : d.page = c.page
      · simp [hpage, he]
      · rw [if_neg hpage]

/-- A sync fails at the first entry that is disputed, and names the frame of that entry. -/
theorem syncSlots_of_first_disputed (invalidate : Bool) {before after : List Mapping}
    (hbefore : ∀ c' ∈ before, ¬ Disputed table c') (h : Disputed table c) :
    (syncSlots invalidate (before ++ c :: after) table).1 =
      .error (.frameTableCorrupt c.frame) := by
  induction before generalizing table with
  | nil => rw [List.nil_append, syncSlots, syncSlot_of_disputed invalidate h]
  | cons first before ih =>
      -- the entries before it are synced, so the table is another one when its turn comes
      obtain ⟨first', table', hslot, hsame⟩ :=
        syncSlot_of_not_disputed invalidate (hbefore first List.mem_cons_self)
      rw [List.cons_append, syncSlots, hslot]
      exact ih (fun c' hc' => (hsame c').not.2 (hbefore c' (List.mem_cons_of_mem _ hc')))
        ((hsame c).2 h)

/-- Of entries that are not all undisputed, there is a first one that is. -/
theorem exists_first_disputed (h : ¬ ∀ c ∈ cache, ¬ Disputed table c) :
    ∃ before c after, cache = before ++ c :: after ∧ (∀ c' ∈ before, ¬ Disputed table c') ∧
      Disputed table c := by
  obtain ⟨c', hmem, hc'⟩ : ∃ c ∈ cache, Disputed table c := by
    by_contra hnone
    exact h fun c hc hdisputed => hnone ⟨c, hc, hdisputed⟩
  obtain ⟨c, before, after, hbefore, hc, hcache, -⟩ :=
    List.exists_of_eraseP (p := fun c => decide (Disputed table c)) hmem (decide_eq_true hc')
  exact ⟨before, c, after, hcache, fun c' hc' => by simpa using hbefore c' hc',
    of_decide_eq_true hc⟩

/-- A sync fails just when an entry is disputed, and then names the frame of the first one. -/
theorem sync_eq_error_iff (invalidate : Bool) (hdistinct : Distinct p.cache)
    {cause : PagingError} : (sync p table invalidate).1 = .error cause ↔
      ∃ before c after, p.cache = before ++ c :: after ∧ (∀ c' ∈ before, ¬ Disputed table c') ∧
        Disputed table c ∧ cause = .frameTableCorrupt c.frame := by
  have hfails : ∀ before c after, p.cache = before ++ c :: after →
      (∀ c' ∈ before, ¬ Disputed table c') → Disputed table c →
      (sync p table invalidate).1 = .error (.frameTableCorrupt c.frame) := by
    intro before c after hcache hbefore hc
    rw [sync, hcache]
    exact syncSlots_of_first_disputed invalidate hbefore hc
  constructor
  · intro hsync
    by_cases hall : ∀ c ∈ p.cache, ¬ Disputed table c
    · obtain ⟨table', hok, -⟩ := sync_eq invalidate (agrees_iff.2 hall) hdistinct
      rw [hok] at hsync
      cases hsync
    · obtain ⟨before, c, after, hcache, hbefore, hc⟩ := exists_first_disputed hall
      rw [hfails before c after hcache hbefore hc] at hsync
      exact ⟨before, c, after, hcache, hbefore, hc, (Except.error.inj hsync).symm⟩
  · rintro ⟨before, c, after, hcache, hbefore, hc, rfl⟩
    exact hfails before c after hcache hbefore hc

/-! ## After a sync -/

/-- The entry of a page already has every bit that the cache has for the page. -/
def Synced (cache : List Mapping) (table : PageTable) : Prop :=
  ∀ c ∈ cache, c.valid = true → c.used = false ∧
    ∀ e, table.entries[c.page]? = some e → c.dirty = e.dirty

theorem folded_of_synced (h : Synced cache table) {e : PageEntry}
    (he : table.entries[page]? = some e) : folded cache page e = e := by
  have hused : bitAt Mapping.used cache page = false := by
    rw [← Bool.not_eq_true, bitAt_eq_true_iff]
    rintro ⟨c, hc, hvalid, -, hused⟩
    rw [(h c hc hvalid).1] at hused
    cases hused
  have hdirty : bitAt Mapping.dirty cache page = true → e.dirty = true := by
    rw [bitAt_eq_true_iff]
    rintro ⟨c, hc, hvalid, rfl, hdirty⟩
    rw [← (h c hc hvalid).2 e he, hdirty]
  rw [folded, hused, Bool.or_false, Bool.or_eq_left_iff_imp.2 hdirty]

theorem entries_map_folded_of_synced (h : Synced cache table) (page : Nat) :
    table.entries[page]?.map (folded cache page) = table.entries[page]? := by
  cases he : table.entries[page]? with
  | none => rfl
  | some e => rw [Option.map_some, folded_of_synced h he]

theorem synced_map_leftover (invalidate : Bool) (cache : List Mapping) (table : PageTable) :
    Synced (cache.map (leftover invalidate table)) table := by
  intro c' hc' hvalid
  obtain ⟨c, hc, rfl⟩ := List.mem_map.1 hc'
  obtain ⟨rfl, hcvalid, hpage, -, -, hdirty⟩ := valid_leftover hvalid
  refine ⟨by simp [leftover, hcvalid], fun e he => ?_⟩
  rw [hpage] at he
  rw [hdirty, he]
  rfl

/-- A synced entry is what a sync leaves. -/
theorem leftover_of_synced (h : Synced cache table) (hagrees : Agrees cache table)
    (hc : c ∈ cache) : leftover false table c = c := by
  cases hvalid : c.valid with
  | false => simp [leftover, hvalid]
  | true =>
      obtain ⟨hused, hdirty⟩ := h c hc hvalid
      obtain ⟨e, he, -, -⟩ := hagrees c hc hvalid
      rw [leftover, hvalid, if_pos rfl, if_neg Bool.false_ne_true, he, Option.map_some,
        Option.getD_some, ← hdirty e he, ← hused]
      exact (congrArg (·.withDirty c.dirty) c.withUsed_used).trans c.withDirty_dirty

/-- A sync of a synced cache changes no entry of the table, and none of the cache unless it is told
to empty it. -/
theorem sync_of_synced (again : Bool) (h : Synced p.cache table) (hagrees : Agrees p.cache table)
    (hdistinct : Distinct p.cache) :
    ∃ p', sync p table again = (.ok (), p', table) ∧ (again = false → p' = p) := by
  obtain ⟨table', hsync, -, hentries⟩ := sync_eq again hagrees hdistinct
  -- tables are equal when they have the same entries
  have hsame : table' = table := congrArg PageTable.mk <| Array.ext_getElem? fun page => by
    rw [hentries, entries_map_folded_of_synced h]
  subst hsame
  refine ⟨_, hsync, ?_⟩
  rintro rfl
  rw [List.map_congr_left fun c hc => leftover_of_synced h hagrees hc, List.map_id']

/-- A sync that finds nothing disputed folds in every bit, and leaves the cache synced. -/
theorem sync_eq_ok (invalidate : Bool) (hdistinct : Distinct p.cache)
    (hall : ∀ c ∈ p.cache, ¬ Disputed table c) :
    ∃ p' table', sync p table invalidate = (.ok (), p', table') ∧
      p' = { p with cache := p.cache.map (leftover invalidate table') } ∧
      table'.numPages = table.numPages ∧
      (∀ page, table'.entries[page]? = table.entries[page]?.map (folded p.cache page)) ∧
      Synced p'.cache table' ∧ Agrees p'.cache table' ∧ Distinct p'.cache := by
  obtain ⟨table', hsync, hsize, hentries⟩ := sync_eq invalidate (agrees_iff.2 hall) hdistinct
  refine ⟨_, table', hsync, rfl, hsize, hentries, synced_map_leftover _ _ _, ?_,
    hdistinct.map fun c hc => ⟨(valid_leftover hc).2.1, (valid_leftover hc).2.2.1⟩⟩
  intro c' hc' hvalid
  obtain ⟨c, hc, rfl⟩ := List.mem_map.1 hc'
  obtain ⟨-, hcvalid, hpage, hframe, -, -⟩ := valid_leftover hvalid
  obtain ⟨e, he, hevalid, heframe⟩ := agrees_iff.2 hall c hc hcvalid
  rw [hpage, hframe]
  exact ⟨folded p.cache c.page e, by rw [hentries, he]; rfl, hevalid, heframe⟩

/-! ## The slot to be filled -/

/-- The bits of a cache are those of one slot and of the others. -/
theorem bitAt_eraseIdx {slot : Nat} (hslot : cache[slot]? = some c) (bit : Mapping → Bool)
    (page : Nat) : bitAt bit cache page =
      (bitAt bit (cache.eraseIdx slot) page || (c.valid && decide (c.page = page) && bit c)) := by
  induction cache generalizing slot with
  | nil => cases hslot
  | cons first rest ih =>
      cases slot with
      | zero =>
          obtain rfl := Option.some.inj hslot
          rw [bitAt_cons, List.eraseIdx_cons_zero, Bool.or_comm]
      | succ slot =>
          rw [List.eraseIdx_cons_succ, bitAt_cons, bitAt_cons, ih hslot, Bool.or_assoc]

theorem folded_eraseIdx {slot : Nat} (hslot : cache[slot]? = some c) (hc : c.valid = false)
    (page : Nat) : folded (cache.eraseIdx slot) page = folded cache page := by
  funext e
  rw [folded, folded, bitAt_eraseIdx hslot Mapping.dirty, bitAt_eraseIdx hslot Mapping.used, hc]
  simp

/-- Without the entry of the slot to be filled, all pages still have the bits that they had in the
table or in the cache. -/
theorem slotToFill_keeps_bits (hdistinct : Distinct p.cache) {r r' : Random} {slot : Nat}
    {p' : Processor} (h : slotToFill p table r = .ok (.ok slot, p', table', r')) :
    slot < p'.cache.length ∧ table'.numPages = table.numPages ∧
      ∀ page, table'.entries[page]?.map (folded (p'.cache.eraseIdx slot) page) =
        table.entries[page]?.map (folded p.cache page) := by
  rw [slotToFill] at h
  cases hempty : emptySlot p with
  | some slot' =>
      -- what is overwritten was not valid, so no page has bits there
      rw [hempty] at h
      cases h
      obtain ⟨hlt, hinvalid, -⟩ := List.findIdx?_eq_some_iff_getElem.1 hempty
      refine ⟨hlt, rfl, fun page => ?_⟩
      rw [folded_eraseIdx (List.getElem?_eq_getElem hlt) (by simpa using hinvalid)]
  | none =>
      rw [hempty] at h
      rcases hsync : sync p table false with ⟨_ | ⟨⟩, p₁, table₁⟩
      · rw [hsync] at h
        cases h
      · have hall : ∀ c ∈ p.cache, ¬ Disputed table c := by
          by_contra hnot
          obtain ⟨before, c, after, hcache, hbefore, hc⟩ := exists_first_disputed hnot
          have herror := (sync_eq_error_iff false hdistinct).2
            ⟨before, c, after, hcache, hbefore, hc, rfl⟩
          rw [hsync] at herror
          cases herror
        obtain ⟨p₂, table₂, hsync', -, hsize, hentries, hsynced, -, -⟩ :=
          sync_eq_ok false hdistinct hall
        rw [hsync] at hsync' h
        cases hsync'
        -- the sync put all bits into the table, so any slot will do
        obtain ⟨⟨slot₁, r₁⟩, hbelow, hresult⟩ := ok_of_bind h
        cases hresult
        refine ⟨Random.below_lt hbelow, hsize, fun page => ?_⟩
        rw [entries_map_folded_of_synced
          (fun c hc => hsynced c (List.mem_of_mem_eraseIdx hc)), hentries]

/-- A sync fails just when some entry is disputed, and names the frame of the first such entry. If
it does not fail, each page has the bits it had in the table or in the cache and is otherwise as it
was, each valid slot is emptied or keeps its mapping with the page's bits, and another sync finds
nothing to do. So a slot that is to be filled may be overwritten without loss. -/
theorem sync_keeps_bits (hdistinct : Distinct p.cache) (table : PageTable) (invalidate : Bool) :
    (∀ cause, (sync p table invalidate).1 = .error cause ↔
      ∃ before c after, p.cache = before ++ c :: after ∧ (∀ c' ∈ before, ¬ Disputed table c') ∧
        Disputed table c ∧ cause = .frameTableCorrupt c.frame) ∧
    ((∀ c ∈ p.cache, ¬ Disputed table c) → ∃ p' table',
      sync p table invalidate = (.ok (), p', table') ∧
      p' = { p with cache := p.cache.map (leftover invalidate table') } ∧
      table'.numPages = table.numPages ∧
      (∀ page, table'.entries[page]? = table.entries[page]?.map (folded p.cache page)) ∧
      (∀ again, ∃ p'', sync p' table' again = (.ok (), p'', table') ∧ (again = false → p'' = p')) ∧
      (0 < p.cache.length → ∀ r, ∃ slot p' table' r',
        slotToFill p table r = .ok (.ok slot, p', table', r'))) ∧
    ∀ r slot p' table' r', slotToFill p table r = .ok (.ok slot, p', table', r') →
      slot < p'.cache.length ∧ table'.numPages = table.numPages ∧
      ∀ page, table'.entries[page]?.map (folded (p'.cache.eraseIdx slot) page) =
        table.entries[page]?.map (folded p.cache page) := by
  refine ⟨fun cause => sync_eq_error_iff invalidate hdistinct, fun hall => ?_,
    fun r slot p' table' r' => slotToFill_keeps_bits hdistinct⟩
  obtain ⟨p', table', hsync, hp', hsize, hentries, hsynced, hagrees, hdistinct'⟩ :=
    sync_eq_ok invalidate hdistinct hall
  refine ⟨p', table', hsync, hp', hsize, hentries,
    fun again => sync_of_synced again hsynced hagrees hdistinct', fun hpos r => ?_⟩
  rcases slotToFill_eq r (agrees_iff.2 hall) hdistinct hpos with
    ⟨slot, -, hslot, -⟩ | ⟨slot, table', r', hslot, -⟩
  · exact ⟨slot, _, _, _, hslot⟩
  · exact ⟨slot, _, _, _, hslot⟩

/-- A full cache: the first page was read through it, and the second written. -/
def twoMappings : Processor where
  pageSize := 1
  memory := #[[7], [8]]
  cache := [(((Mapping.empty.withFrame 1).withValid true).withUsed true),
    ((((Mapping.empty.withPage 1).withValid true).withUsed true).withDirty true)]
  badAddress := 0

/-- The table to go with it. -/
def twoPages : PageTable :=
  ⟨#[{ frame := some 1, valid := true, readOnly := true }, { frame := some 0, valid := true }]⟩

/-- The table after the second page has left memory. -/
def onePage : PageTable :=
  ⟨#[{ frame := some 1, valid := true, readOnly := true }, {}]⟩

/-- Both pages get their bits, also when a slot is to be filled; and once the second page has left
memory, its entry is disputed. -/
theorem sync_keeps_bits_twoMappings : Distinct twoMappings.cache ∧
    (∃ p' table', sync twoMappings twoPages false = (.ok (), p', table') ∧
      table'.entries[0]? =
        some { frame := some 1, valid := true, readOnly := true, referenced := true } ∧
      table'.entries[1]? =
        some { frame := some 0, valid := true, dirty := true, referenced := true }) ∧
    (∃ slot p' table' r',
      slotToFill twoMappings twoPages (.ofSeed 5) = .ok (.ok slot, p', table', r') ∧
      table'.entries[1]?.map (folded (p'.cache.eraseIdx slot) 1) =
        some { frame := some 0, valid := true, dirty := true, referenced := true }) ∧
    (sync twoMappings onePage true).1 = .error (.frameTableCorrupt 0) := by
  have hdistinct : Distinct twoMappings.cache := by
    refine List.pairwise_pair.2 ?_
    decide +kernel
  have hall : ∀ c ∈ twoMappings.cache, ¬ Disputed twoPages c := by decide +kernel
  obtain ⟨-, hok, hslot⟩ := sync_keeps_bits hdistinct twoPages false
  obtain ⟨p', table', hsync, -, -, hentries, -, hfill⟩ := hok hall
  obtain ⟨slot, p₁, table₁, r', hfilled⟩ := hfill (by decide) (.ofSeed 5)
  refine ⟨hdistinct, ⟨p', table', hsync, ?_, ?_⟩, ⟨slot, p₁, table₁, r', hfilled, ?_⟩, ?_⟩
  · rw [hentries]
    decide +kernel
  · rw [hentries]
    decide +kernel
  · rw [(hslot _ _ _ _ _ hfilled).2.2]
    decide +kernel
  · refine ((sync_keeps_bits hdistinct onePage true).1 _).2
      ⟨[twoMappings.cache[0]], twoMappings.cache[1], [], rfl, ?_, ?_, ?_⟩
    · decide +kernel
    · decide +kernel
    · decide +kernel

end DemandPaging.MappingCache
