import DemandPaging.MappingCache
import DemandPaging.Proofs.PageTables
import DemandPaging.Proofs.MappingFields

/-!
# Syncing and loading the mapping cache

When every valid entry of the cache agrees with a page table, and no two of them are for one page, a
sync cannot fail: each entry of the table gets the bits that the cache has for its page, and the
cache entries keep their mappings or are emptied (`syncSlots_eq`). The slot to be filled next is an
empty one, or any one after a sync (`slotToFill_eq`), so filling it loses no bit.
-/

namespace DemandPaging.MappingCache

/-- Every valid entry maps a page that the table has in memory to the frame it has it in. -/
def Agrees (cache : List Mapping) (table : PageTable) : Prop :=
  ∀ c ∈ cache, c.valid = true →
    ∃ e, table.entries[c.page]? = some e ∧ e.valid = true ∧ e.frame = some c.frame

/-- No two valid entries are for one page. -/
def Distinct (cache : List Mapping) : Prop :=
  cache.Pairwise fun a b => a.valid = true → b.valid = true → a.page ≠ b.page

/-- Two valid entries for the same page are one entry. -/
theorem Distinct.eq_of_page {cache : List Mapping} (h : Distinct cache) {a b : Nat}
    {c c' : Mapping} (ha : cache[a]? = some c) (hb : cache[b]? = some c') (hv : c.valid = true)
    (hv' : c'.valid = true) (hpage : c.page = c'.page) : a = b := by
  obtain ⟨hlta, rfl⟩ := List.getElem?_eq_some_iff.1 ha
  obtain ⟨hltb, rfl⟩ := List.getElem?_eq_some_iff.1 hb
  rcases Nat.lt_trichotomy a b with hlt | heq | hlt
  · exact absurd hpage (List.pairwise_iff_getElem.1 h a b hlta hltb hlt hv hv')
  · exact heq
  · exact absurd hpage.symm (List.pairwise_iff_getElem.1 h b a hltb hlta hlt hv' hv)

/-- Whether the cache has a bit set for a page. -/
def bitAt (bit : Mapping → Bool) (cache : List Mapping) (page : Nat) : Bool :=
  cache.any fun c => c.valid && decide (c.page = page) && bit c

/-- An entry of a page table with the bits that the cache has for its page. -/
def folded (cache : List Mapping) (page : Nat) (e : PageEntry) : PageEntry :=
  { e with
    dirty := e.dirty || bitAt Mapping.dirty cache page
    referenced := e.referenced || bitAt Mapping.used cache page }

/-- What a sync leaves in a slot, given the table after it. -/
def leftover (invalidate : Bool) (table : PageTable) (c : Mapping) : Mapping :=
  if c.valid then
    if invalidate then Mapping.empty
    else (c.withUsed false).withDirty ((table.entries[c.page]?.map PageEntry.dirty).getD false)
  else c

theorem bitAt_eq_true_iff {bit : Mapping → Bool} {cache : List Mapping} {page : Nat} :
    bitAt bit cache page = true ↔ ∃ c ∈ cache, c.valid = true ∧ c.page = page ∧ bit c = true := by
  simp [bitAt, and_assoc]

theorem bitAt_cons (bit : Mapping → Bool) (c : Mapping) (rest : List Mapping) (page : Nat) :
    bitAt bit (c :: rest) page =
      ((c.valid && decide (c.page = page) && bit c) || bitAt bit rest page) := rfl

/-- A map that makes no entry valid and moves none keeps the pages distinct. -/
theorem Distinct.map {cache : List Mapping} (h : Distinct cache) {f : Mapping → Mapping}
    (hf : ∀ c, (f c).valid = true → c.valid = true ∧ (f c).page = c.page) :
    Distinct (cache.map f) := by
  rw [Distinct, List.pairwise_map]
  refine List.Pairwise.imp ?_ h
  intro a b hab ha hb
  rw [(hf a ha).2, (hf b hb).2]
  exact hab (hf a ha).1 (hf b hb).1

/-- Entries for distinct pages stay so when one of them is replaced by an entry for another page. -/
theorem Distinct.set {cache : List Mapping} (h : Distinct cache) {c : Mapping}
    (hc : ∀ c' ∈ cache, c'.valid = true → c'.page ≠ c.page) (slot : Nat) :
    Distinct (cache.set slot c) := by
  induction cache generalizing slot with
  | nil => exact h
  | cons first rest ih =>
      obtain ⟨hfirst, hrest⟩ := List.pairwise_cons.1 h
      cases slot with
      | zero =>
          refine List.pairwise_cons.2 ⟨fun c' hc' _ hvalid heq => ?_, hrest⟩
          exact hc c' (List.mem_cons_of_mem _ hc') hvalid heq.symm
      | succ slot =>
          refine List.pairwise_cons.2 ⟨fun c' hc' hvalid hvalid' => ?_,
            ih hrest (fun c' hc' => hc c' (List.mem_cons_of_mem _ hc')) slot⟩
          rcases List.mem_or_eq_of_mem_set hc' with hmem | rfl
          · exact hfirst c' hmem hvalid hvalid'
          · exact hc first List.mem_cons_self hvalid

/-- Entries for distinct pages stay so when a valid one gets other bits. -/
theorem Distinct.replace {cache : List Mapping} (h : Distinct cache) {slot : Nat} {c c' : Mapping}
    (hslot : cache[slot]? = some c) (hvalid : c.valid = true) (hpage : c'.page = c.page) :
    Distinct (cache.set slot c') := by
  induction cache generalizing slot with
  | nil => exact h
  | cons first rest ih =>
      obtain ⟨hfirst, hrest⟩ := List.pairwise_cons.1 h
      cases slot with
      | zero =>
          obtain rfl := Option.some.inj hslot
          refine List.pairwise_cons.2 ⟨fun d hd _ hdvalid => ?_, hrest⟩
          rw [hpage]
          exact hfirst d hd hvalid hdvalid
      | succ slot =>
          have hslot : rest[slot]? = some c := hslot
          refine List.pairwise_cons.2 ⟨fun d hd hfvalid hdvalid => ?_, ih hrest hslot⟩
          rcases List.mem_or_eq_of_mem_set hd with hmem | rfl
          · exact hfirst d hmem hfvalid hdvalid
          · rw [hpage]
            exact hfirst c (List.mem_of_getElem? hslot) hfvalid hvalid

theorem valid_leftover {invalidate : Bool} {table : PageTable} {c : Mapping}
    (h : (leftover invalidate table c).valid = true) :
    invalidate = false ∧ c.valid = true ∧ (leftover invalidate table c).page = c.page ∧
      (leftover invalidate table c).frame = c.frame ∧
      (leftover invalidate table c).readOnly = c.readOnly ∧
      (leftover invalidate table c).dirty =
        (table.entries[c.page]?.map PageEntry.dirty).getD false := by
  unfold leftover at h ⊢
  cases hc : c.valid with
  | false =>
      rw [hc, if_neg Bool.false_ne_true, hc] at h
      exact Bool.noConfusion h
  | true =>
      cases invalidate with
      | true =>
          rw [hc, if_pos rfl, if_pos rfl, Mapping.valid_empty] at h
          exact Bool.noConfusion h
      | false => simp

/-- A valid entry that agrees with the table has its bits folded in. -/
theorem syncSlot_eq_ok (invalidate : Bool) {table : PageTable} {c : Mapping} {e : PageEntry}
    (hc : c.valid = true) (he : table.entries[c.page]? = some e) (hvalid : e.valid = true)
    (hframe : e.frame = some c.frame) :
    syncSlot invalidate table c = .ok
      (if invalidate then Mapping.empty
        else (c.withUsed false).withDirty (e.dirty || c.dirty),
      table.put c.page { e with
        dirty := e.dirty || c.dirty
        referenced := e.referenced || c.used }) := by
  have hok : ¬ (¬ e.valid = true ∨ e.frame ≠ some c.frame) := by
    rw [hvalid, hframe]
    simp
  rw [syncSlot, if_neg (by rw [hc]; decide), PageTable.lookup_eq_ok_iff.2 he]
  exact if_neg hok

/-- A sync of a cache that agrees with the table succeeds, and folds in every bit. -/
theorem syncSlots_eq (invalidate : Bool) {cache : List Mapping} :
    ∀ {table : PageTable}, Agrees cache table → Distinct cache →
      ∃ table', syncSlots invalidate cache table =
          (.ok (), cache.map (leftover invalidate table'), table') ∧
        table'.numPages = table.numPages ∧
        ∀ page, table'.entries[page]? = table.entries[page]?.map (folded cache page) := by
  induction cache with
  | nil =>
      intro table _ _
      refine ⟨table, rfl, rfl, fun page => ?_⟩
      cases table.entries[page]? with
      | none => rfl
      | some e => simp [folded, bitAt]
  | cons c rest ih =>
      intro table hagrees hdistinct
      obtain ⟨hfirst, hrest⟩ := List.pairwise_cons.1 hdistinct
      cases hc : c.valid with
      | false =>
          obtain ⟨table', hsync, hsize, hentries⟩ :=
            ih (fun c' hc' => hagrees c' (List.mem_cons_of_mem _ hc')) hrest
          refine ⟨table', ?_, hsize, fun page => ?_⟩
          · rw [syncSlots, syncSlot, if_pos (by rw [hc]; decide)]
            simp only [hsync, List.map_cons, leftover, hc, Bool.false_eq_true, if_false]
          · rw [hentries]
            congr 1
            funext e
            simp [folded, bitAt_cons, hc]
      | true =>
          obtain ⟨e, he, hvalid, hframe⟩ := hagrees c List.mem_cons_self hc
          let e' : PageEntry :=
            { e with dirty := e.dirty || c.dirty, referenced := e.referenced || c.used }
          -- the other entries are for other pages, which the table has as before
          have hagrees' : Agrees rest (table.put c.page e') := by
            intro c' hmem hvalid'
            have hne := hfirst c' hmem hc hvalid'
            rw [PageTable.getElem?_put, if_neg (Ne.symm hne)]
            exact hagrees c' (List.mem_cons_of_mem _ hmem) hvalid'
          obtain ⟨table', hsync, hsize, hentries⟩ := ih hagrees' hrest
          -- no other entry has bits for this page
          have hnone : ∀ bit, bitAt bit rest c.page = false := by
            intro bit
            rw [← Bool.not_eq_true, bitAt_eq_true_iff]
            rintro ⟨c', hmem, hvalid', hpage, -⟩
            exact hfirst c' hmem hc hvalid' hpage.symm
          have hput : (table.put c.page e').entries[c.page]? = some e' := by
            rw [PageTable.getElem?_put, if_pos rfl, he]
            rfl
          -- so what the sync leaves in the slot depends on the table at its end alone
          have hdirty : (table'.entries[c.page]?.map PageEntry.dirty).getD false = e'.dirty := by
            rw [hentries, hput]
            simp [folded, hnone]
          refine ⟨table', ?_, by rw [hsize, PageTable.numPages_put], fun page => ?_⟩
          · have hslot : syncSlot invalidate table c =
                .ok (leftover invalidate table' c, table.put c.page e') := by
              rw [syncSlot_eq_ok invalidate hc he hvalid hframe, leftover, if_pos hc, hdirty]
            rw [syncSlots, hslot]
            simp only [hsync, List.map_cons]
          · rw [hentries, PageTable.getElem?_put]
            by_cases hpage : page = c.page
            · rw [if_pos hpage, hpage, he]
              simp [folded, bitAt_cons, hc, e', Bool.or_assoc]
            · rw [if_neg hpage]
              congr 1
              funext x
              simp [folded, bitAt_cons, hc, Ne.symm hpage]

/-- A sync of the processor's cache, in the same terms. -/
theorem sync_eq {p : Processor} {table : PageTable} (invalidate : Bool)
    (hagrees : Agrees p.cache table) (hdistinct : Distinct p.cache) :
    ∃ table', sync p table invalidate =
        (.ok (), { p with cache := p.cache.map (leftover invalidate table') }, table') ∧
      table'.numPages = table.numPages ∧
      ∀ page, table'.entries[page]? = table.entries[page]?.map (folded p.cache page) := by
  obtain ⟨table', hsync, hsize, hentries⟩ := syncSlots_eq invalidate hagrees hdistinct
  exact ⟨table', by rw [sync, hsync], hsize, hentries⟩

/-- The slot to be filled next is one without a valid entry, and then nothing changes; or else the
cache has been synced. -/
theorem slotToFill_eq {p : Processor} {table : PageTable} (r : Random)
    (hagrees : Agrees p.cache table) (hdistinct : Distinct p.cache) (hpos : 0 < p.cache.length) :
    (∃ slot c, slotToFill p table r = .ok (.ok slot, p, table, r) ∧ p.cache[slot]? = some c ∧
        c.valid = false) ∨
      ∃ slot table' r', slotToFill p table r =
          .ok (.ok slot, { p with cache := p.cache.map (leftover false table') }, table', r') ∧
        slot < p.cache.length ∧ table'.numPages = table.numPages ∧
        ∀ page, table'.entries[page]? = table.entries[page]?.map (folded p.cache page) := by
  cases hslot : emptySlot p with
  | some slot =>
      obtain ⟨hlt, hvalid, -⟩ := List.findIdx?_eq_some_iff_getElem.1 hslot
      refine .inl ⟨slot, p.cache[slot], by rw [slotToFill, hslot], List.getElem?_eq_getElem hlt, ?_⟩
      simpa using hvalid
  | none =>
      obtain ⟨table', hsync, hsize, hentries⟩ := sync_eq false hagrees hdistinct
      refine .inr ⟨r.next.1.toNat % p.cache.length, table', r.next.2, ?_, Nat.mod_lt _ hpos, hsize,
        hentries⟩
      rw [slotToFill, hslot]
      simp only [hsync]
      rw [Random.below, List.length_map, if_neg (Nat.ne_of_gt hpos)]
      rfl

/-- The mapping of a page in memory is put into a slot. -/
theorem load_eq {p : Processor} {slot page frame : Nat} {e : PageEntry}
    (hslot : slot < p.cache.length) (hvalid : e.valid = true) (hframe : e.frame = some frame)
    (hp : page ≤ Address.maxPageNumber) (hf : frame ≤ Address.maxPageNumber) :
    ∃ c, load p slot page e = .ok { p with cache := p.cache.set slot c } ∧ c.valid = true ∧
      c.page = page ∧ c.frame = frame ∧ c.readOnly = e.readOnly ∧ c.dirty = e.dirty := by
  obtain ⟨c, hc⟩ := Mapping.exists_create e.readOnly hp hf
  obtain ⟨hcpage, hcframe, hcreadOnly, hcvalid, -⟩ := Mapping.fields_of_create hc
  refine ⟨c.withDirty e.dirty, ?_, by simpa using hcvalid, by simpa using hcpage,
    by simpa using hcframe, by simpa using hcreadOnly, by simp⟩
  rw [load, hvalid, hframe]
  show (Mapping.create page frame e.readOnly).bind _ = _
  rw [hc]
  exact if_pos hslot

/-- The entries that stay valid are those of the other frames. -/
theorem mem_dropFrame_iff {p : Processor} {frame : Nat} {c : Mapping} (hc : c.valid = true) :
    c ∈ (dropFrame p frame).cache ↔ c ∈ p.cache ∧ c.frame ≠ frame := by
  rw [dropFrame, List.mem_map]
  constructor
  · rintro ⟨c0, hc0, heq⟩
    by_cases hdrop : (c0.valid && decide (c0.frame = frame)) = true
    · rw [if_pos hdrop] at heq
      rw [← heq, Mapping.valid_empty] at hc
      exact Bool.noConfusion hc
    · rw [if_neg hdrop] at heq
      subst heq
      refine ⟨hc0, fun hf => hdrop ?_⟩
      rw [hc, decide_eq_true hf]
      rfl
  · rintro ⟨hmem, hne⟩
    exact ⟨c, hmem, by rw [decide_eq_false hne, Bool.and_false]; rfl⟩

/-- Dropping a frame makes no entry valid and moves none. -/
theorem valid_drop {frame : Nat} {c : Mapping}
    (h : (if c.valid && c.frame = frame then Mapping.empty else c).valid = true) :
    c.valid = true ∧ (if c.valid && c.frame = frame then Mapping.empty else c).page = c.page := by
  split at h
  · rw [Mapping.valid_empty] at h
    exact Bool.noConfusion h
  · rename_i hdrop
    rw [if_neg hdrop]
    exact ⟨h, rfl⟩

end DemandPaging.MappingCache
