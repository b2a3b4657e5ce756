import DemandPaging.Paging.Copy
import DemandPaging.Proofs.Paging.Fault

/-!
# Copies keep the invariant

A page that is about to be copied is pinned in its frame, and marked as dirty before the first byte
is written. The only way to fail is a frame that has as many pins as can be counted.
-/

namespace DemandPaging.Paging

variable {σ : Type} {s : Paging σ}

/-- What comes of pinning a page of a process for a copy. -/
inductive Pinning [Extent σ] [Extent.Reliable σ] (s : Paging σ) (live : Population)
    (process : UserProcess) (pins : Multiset Nat) (mem : PageId → List UInt8) (page : Nat)
    (writing : Bool) : Except PagingError PinResult → Paging σ → Prop where
  /-- the page is pinned, and dirty if it is to be written -/
  | pinned {frame : Nat} {e : PageEntry} {s' : Paging σ} (hlive : live process.pid = some process)
      (hs : s'.Sound live (some process.pid) (frame ::ₘ pins) mem)
      (hp : s'.processor = s.processor) (he : s'.tables.find? ⟨process.pid, page⟩ = some e)
      (hf : e.frame = some frame)
      (hw : writing = true → e.dirty = true ∧ process.image.isReadOnly page = false)
      (hstill : Still s s') :
      Pinning s live process pins mem page writing (.ok (.pinned frame)) s'
  /-- the page may not be written -/
  | readOnly (hlive : live process.pid = some process) (hw : writing = true)
      (hr : process.image.isReadOnly page = true) :
      Pinning s live process pins mem page writing (.ok .readOnly) s
  /-- the page is not in memory -/
  | absent (hlive : live process.pid = some process) (hun : s.Uncached page) :
      Pinning s live process pins mem page writing (.ok .absent) s
  /-- the process has ended -/
  | ended (hlive : live process.pid = none) :
      Pinning s live process pins mem page writing (.error (.noSuchProcess process.pid)) s

theorem entryOf_ok {id : PageId} {table : PageTable} {e : PageEntry}
    (ht : s.tables[id.pid]? = some table) (he : table.entries[id.page]? = some e) :
    entryOf id s = .ok (.ok e, s) := by
  rw [entryOf, bind_ok (tableOf_ok ht)]
  exact orFail_ok (PageTable.lookup_eq_ok_iff.2 he)

namespace Sound

variable [Extent σ] [Extent.Reliable σ] {live : Population} {running : Option Pid}
  {pins : Multiset Nat} {mem : PageId → List UInt8}

/-- The entry of a page after the kernel has used it, perhaps to write. -/
def used (e : PageEntry) (writing : Bool) : PageEntry :=
  { e with referenced := true, dirty := e.dirty || writing }

/-- A page that may be written may be marked as dirty. -/
theorem marked (h : s.Sound live running pins mem) {id : PageId} {e : PageEntry}
    (he : s.tables.find? id = some e) (hf : e.frame.isSome = true) (writing : Bool)
    (hro : writing = true → e.readOnly = false) :
    Sound { s with tables := PageTables.put s.tables id (used e writing) } live running pins
      mem := by
  have htables := PageTables.Replaced.of_put he (used e writing)
  refine h.retag s.processor.cache _ h.sized.cache_pos htables.sizeOf_eq ?_
    ⟨?_, h.coherent.distinct⟩ ?_ ?_
  · intro id' e' he'
    rcases htables.eq_or_find? he' with ⟨rfl, rfl⟩ | ⟨-, he'⟩
    · exact ⟨e, he, rfl, rfl, rfl⟩
    · exact ⟨e', he', rfl, rfl, rfl⟩
  · -- cache entries are for pages in memory, and these keep frame and permission
    intro c hc hvalid
    obtain ⟨pid, e', hpid, he', hf', hr'⟩ := h.coherent.agrees c hc hvalid
    by_cases hid : (⟨pid, c.page⟩ : PageId) = id
    · subst hid
      rw [he] at he'
      obtain rfl := Option.some.inj he'
      exact ⟨pid, _, hpid, htables.self, hf', hr'⟩
    · exact ⟨pid, e', hpid, (htables.other hid).trans he', hf', hr'⟩
  · -- what was dirty stays dirty
    rintro id' (⟨e', he', hd⟩ | hcache)
    · refine .inl ?_
      by_cases hid : id' = id
      · subst hid
        rw [he] at he'
        obtain rfl := Option.some.inj he'
        exact ⟨_, htables.self, by simp [used, hd]⟩
      · exact ⟨e', (htables.other hid).trans he', hd⟩
    · exact .inr hcache
  · -- what is dirty now was so before, or may be written
    rintro id' (⟨e', he', hd⟩ | hcache)
    · rcases htables.eq_or_find? he' with ⟨rfl, rfl⟩ | ⟨-, he'⟩
      · rcases Bool.or_eq_true_iff.1 hd with hd | hw
        · exact .inl (.inl ⟨e, he, hd⟩)
        · refine .inr fun u hu => ?_
          rw [← h.inverse.readOnly_eq id' e u he hf hu]
          exact hro hw
      · exact .inl (.inl ⟨e', he', hd⟩)
    · exact .inl (.inr hcache)

/-- A page in the address space is pinned, or found absent or not to be written, or its process has
ended. Only a frame that is pinned as often as can be counted stands in the way. -/
theorem pinForCopy_run {process : UserProcess} (h : s.Sound live (some process.pid) pins mem)
    (hlive : live process.pid = some process ∨ live process.pid = none) {page : Nat}
    (hpage : page < process.numPages) (writing : Bool) :
    (∃ r s', pinForCopy ⟨process.pid, page⟩ writing s = .ok (r, s') ∧
        Pinning s live process pins mem page writing r s') ∨
      ∃ frame, pinForCopy ⟨process.pid, page⟩ writing s = .error (.tooManyPins frame) ∧
        FrameTable.maxPins ≤ pins.count frame := by
  rcases hlive with hlive | hlive
  · obtain ⟨e, he⟩ := h.inverse.find?_of_live hlive hpage
    obtain ⟨table, ht, -⟩ := h.inverse.table_of_live hlive
    have hentry : table.entries[page]? = some e :=
      (PageTables.find?_of_table ht page).symm.trans he
    have hentryOf : entryOf ⟨process.pid, page⟩ s = .ok (.ok e, s) := entryOf_ok ht hentry
    obtain ⟨frame, valid, dirty, referenced, readOnly⟩ := e
    obtain rfl : valid = frame.isSome := h.inverse.valid_eq _ _ he
    rw [pinForCopy, bind_ok hentryOf]
    cases frame with
    | none => exact .inl ⟨_, s, pure_run _ _, .absent hlive (h.uncached_of_absent he rfl)⟩
    | some f =>
        have hro : readOnly = process.image.isReadOnly page :=
          h.inverse.readOnly_eq _ _ process he rfl hlive
        by_cases hdenied : (writing && readOnly) = true
        · rw [Bool.and_eq_true] at hdenied
          refine .inl ⟨.ok .readOnly, s, ?_,
            .readOnly hlive hdenied.1 (hro.symm.trans hdenied.2)⟩
          simp only [hdenied, Bool.and_self, if_true]
          exact pure_run _ _
        · have hwrite : writing = true → readOnly = false := by
            intro hw
            rw [hw, Bool.true_and, Bool.not_eq_true] at hdenied
            exact hdenied
          have hmarked := h.marked he rfl writing hwrite
          have howner := (h.inverse.owner_iff f _).2 ⟨_, he, rfl⟩
          have hallocated := h.frames.allocated_of_owner f _ howner
          let e' : PageEntry :=
            used { frame := some f, valid := true, dirty, referenced, readOnly } writing
          -- the page is marked before its frame is pinned, so the pin may still fail
          have hnext : (if (writing && readOnly) = true then pure PinResult.readOnly
              else modify (fun s : Paging σ => { s with
                  tables := PageTables.put s.tables ⟨process.pid, page⟩ e' }) >>= fun _ =>
                changeFrames (·.pin f) >>= fun _ => pure (PinResult.pinned f) : PagingM σ _) s =
              (changeFrames (·.pin f) >>= fun _ => pure (PinResult.pinned f)) { s with
                tables := PageTables.put s.tables ⟨process.pid, page⟩ e' } := by
            rw [if_neg hdenied]
            rfl
          by_cases hmax : pins.count f < FrameTable.maxPins
          · obtain ⟨t, hpin, hframes, hsize, hfrees, howners⟩ := h.frames.pin_eq hallocated hmax
            have htables := PageTables.Replaced.of_put he e'
            refine .inl ⟨.ok (.pinned f), _,
              hnext.trans (bind_ok (changeFrames_ok (t := t) hpin)),
              .pinned (e := e') hlive (hmarked.repinned hframes hsize howners) rfl htables.self rfl
                (fun hw => ?_) ⟨howners, hfrees, rfl, fun id e₀ he₀ => ?_⟩⟩
            · exact ⟨by simp [e', used, hw], hro.symm.trans (hwrite hw)⟩
            · -- the page is where it was, and so are the others
              by_cases hid : id = ⟨process.pid, page⟩
              · subst hid
                rw [he] at he₀
                obtain rfl := Option.some.inj he₀
                exact ⟨e', htables.self, rfl,
                  fun hd => by simp [e', used, show dirty = true from hd]⟩
              · exact ⟨e₀, (htables.other hid).trans he₀, rfl, fun hd => hd⟩
          · refine .inr ⟨f, hnext.trans ?_, Nat.not_lt.1 hmax⟩
            rw [bind_run, changeFrames_run, h.frames.pin_full hallocated hmax]
            rfl
  · refine .inl ⟨_, s, ?_, .ended hlive⟩
    rw [pinForCopy]
    exact bind_error (bind_error (tableOf_error (h.inverse.table_eq_none hlive)))

/-- A pin that was taken is given back. The frame does not become free if a page owns it. -/
theorem unpin_run {f : Nat} (h : s.Sound live running (f ::ₘ pins) mem) :
    ∃ s', changeFrames (·.unpin f) s = .ok (.ok (), s') ∧ s'.Sound live running pins mem ∧
      s'.processor = s.processor ∧ s'.tables = s.tables ∧
      ((s.frameTable.owner f).isSome = true → Still s s') := by
  obtain ⟨t, hunpin, hframes, hsize, hfrees, howners⟩ := h.frames.unpin_eq
  refine ⟨_, changeFrames_ok (t := t) hunpin, h.repinned hframes hsize howners, rfl, rfl,
    fun howned => ⟨howners, ?_, rfl, fun _ e he => ⟨e, he, rfl, fun hd => hd⟩⟩⟩
  show t.free = _
  rw [hfrees, if_neg]
  rintro ⟨-, hnone⟩
  rw [hnone] at howned
  cases howned

end Sound

end DemandPaging.Paging
