import DemandPaging.Paging.Fault
import DemandPaging.Proofs.Paging.Run
import DemandPaging.Proofs.Results
import DemandPaging.Proofs.SwapArea

/-!
# What a swap area remembers

A swap area on a fail-safe extent, called in any order and with any pages and slots, is a map from
pages to bytes. `lastStored` reads off a history of calls what a page was last stored with, and
`SwapArea.Keeps` is what every call preserves: the slots are consistent, and the slot of a page
holds the bytes of its last store. `SwapArea.run_faithful` says what each call answers and does
after any history: a page is fetched from its own slot alone and with those bytes, the slots run
out exactly when all are used, and a call that fails changes nothing.
-/

namespace DemandPaging

/-- What a swap area can be called for. -/
inductive SwapCall where
  /-- put a page into a slot -/
  | store (id : PageId) (data : List UInt8)
  /-- take a page out of a slot, for a frame of so many bytes -/
  | fetch (id : PageId) (slot frameSize : Nat)
  /-- free the slots of a process -/
  | release (pid : Pid)
deriving DecidableEq

/-- What a call answers. -/
inductive SwapAnswer where
  /-- the slot that a page was put into -/
  | stored (slot : Nat)
  /-- the bytes that came out of a slot -/
  | fetched (data : List UInt8)
  /-- how many slots were freed -/
  | released (count : Nat)
  | failed (cause : PagingError)
deriving DecidableEq

/-- Whether the buffer of a call has the size of a page. -/
def SwapCall.isWhole (pageSize : Nat) : SwapCall → Bool
  | store _ data => data.length = pageSize
  | fetch _ _ frameSize => frameSize = pageSize
  | release _ => true

/-- What a page was last stored with, by a history of calls of which the last one is first. -/
def lastStored : List (SwapCall × SwapAnswer) → PageId → Option (List UInt8)
  | [], _ => none
  | (.store id data, .stored _) :: before, id' =>
      if id' = id then some data else lastStored before id'
  | _ :: before, id' => lastStored before id'

namespace SwapArea

variable {σ : Type} [Extent σ]

/-- What a call does, and its answer. -/
def serve (s : SwapArea σ) : SwapCall → Except Halt (SwapAnswer × SwapArea σ)
  | .store id data => (s.store id data).map fun
      | (.ok slot, s) => (.stored slot, s)
      | (.error cause, s) => (.failed cause, s)
  | .fetch id slot frameSize => (s.fetch id slot frameSize).map fun
      | (.ok data, s) => (.fetched data, s)
      | (.error cause, s) => (.failed cause, s)
  | .release pid => .ok (.released (s.releaseAll pid).1, (s.releaseAll pid).2)

/-- A swap area after calls with whole pages, with the calls and their answers. -/
inductive Run (fresh : SwapArea σ) : List (SwapCall × SwapAnswer) → SwapArea σ → Prop where
  | nil : Run fresh [] fresh
  | cons {history : List (SwapCall × SwapAnswer)} {s s' : SwapArea σ} {call : SwapCall}
      {answer : SwapAnswer} (h : Run fresh history s) (hwhole : call.isWhole fresh.pageSize = true)
      (hserve : s.serve call = .ok (answer, s')) : Run fresh ((call, answer) :: history) s'

/-- Calls one after the other, after a history of others. -/
def serveAll (s : SwapArea σ) (history : List (SwapCall × SwapAnswer)) :
    List SwapCall → Except Halt (List (SwapCall × SwapAnswer) × SwapArea σ)
  | [] => .ok (history, s)
  | call :: rest => (s.serve call).bind fun (answer, s) =>
      s.serveAll ((call, answer) :: history) rest

/-- What comes of a list of calls is a run. -/
theorem Run.serveAll {fresh s s' : SwapArea σ} {history history' : List (SwapCall × SwapAnswer)}
    {calls : List SwapCall} (h : Run fresh history s)
    (hwhole : ∀ call ∈ calls, call.isWhole fresh.pageSize = true)
    (hserve : s.serveAll history calls = .ok (history', s')) : Run fresh history' s' := by
  induction calls generalizing s history with
  | nil =>
      obtain ⟨rfl, rfl⟩ := Prod.mk.inj (Except.ok.inj hserve)
      exact h
  | cons call rest ih =>
      rw [SwapArea.serveAll] at hserve
      cases hcall : s.serve call with
      | error halt =>
          rw [hcall] at hserve
          cases hserve
      | ok result =>
          rw [hcall] at hserve
          exact ih (h.cons (hwhole call List.mem_cons_self) hcall)
            (fun c hc => hwhole c (List.mem_cons_of_mem _ hc)) hserve

variable [Extent.FailSafe σ]

/-- The bytes in a slot of a fail-safe extent. -/
def pageAt (s : SwapArea σ) (slot : Nat) : List UInt8 :=
  ((Extent.FailSafe.content s.extent).drop (slot * s.pageSize)).take s.pageSize

/-- After a history of calls the area is consistent, and the slot of a page holds the bytes of its
last store. -/
structure Keeps (history : List (SwapCall × SwapAnswer)) (s : SwapArea σ) : Prop
    extends s.Consistent where
  intact : Extent.FailSafe.Intact s.extent
  slots_fit : s.numSlots * s.pageSize ≤ Extent.length s.extent
  kept : ∀ id slot, s.lookup id = some slot → lastStored history id = some (s.pageAt slot)

/-- Nothing but the state of the device is different. -/
structure Unchanged (s s' : SwapArea σ) : Prop where
  slots_eq : s'.slots = s.slots
  owners_eq : s'.owners = s.owners
  free_eq : s'.free = s.free
  content_eq : Extent.FailSafe.content s'.extent = Extent.FailSafe.content s.extent
  pageSize_eq : s'.pageSize = s.pageSize
  numSlots_eq : s'.numSlots = s.numSlots

/-- What storing a page comes to: it fails exactly then for lack of a slot when the page has none
and all are used, and else puts the page into the next free slot, unless the device fails. -/
structure Stores (s : SwapArea σ) (id : PageId) (data : List UInt8) (answer : SwapAnswer)
    (s' : SwapArea σ) : Prop where
  exhausted_iff : answer = .failed .swapExhausted ↔
    s.lookup id = none ∧ ∀ slot < s.numSlots, ∃ id', s.lookup id' = some slot
  of_lookup : ∀ slot, s.lookup id = some slot → answer = .failed (.swapTableCorrupt slot)
  of_free : ∀ slot rest, s.lookup id = none → s.free = slot :: rest →
    (answer = .stored slot ∧ s'.free = rest ∧
      ∀ id', s'.lookup id' = if id' = id then some slot else s.lookup id') ∨
    ∃ cause, answer = .failed (.swapIo cause) ∧
      (Extent.write s.extent (slot * s.pageSize) data).1 = .error cause

/-- What fetching a page comes to: it succeeds only from the page's own slot, with the bytes of its
last store, and from any other slot it is refused before a frame is touched. -/
structure Fetches (history : List (SwapCall × SwapAnswer)) (s : SwapArea σ) (id : PageId)
    (slot : Nat) (answer : SwapAnswer) (s' : SwapArea σ) : Prop where
  fetched : ∀ data, answer = .fetched data →
    s.lookup id = some slot ∧ lastStored history id = some data ∧ s'.free = s.free ++ [slot] ∧
      ∀ id', s'.lookup id' = if id' = id then none else s.lookup id'
  of_own_slot : s.lookup id = some slot →
    (∃ data, answer = .fetched data) ∨
      ∃ cause, answer = .failed (.swapIo cause) ∧
        (Extent.read s.extent (slot * s.pageSize) s.pageSize).1 = .error cause
  of_other_slot : s.lookup id ≠ some slot →
    answer = .failed (.slotOwnerMismatch slot id.pid (s.owner slot)) ∧
      ∀ (p : Paging σ) (frame : Nat), p.swap = s →
        Paging.fillFromSwap id slot frame s.pageSize p =
          .ok (.error (.slotOwnerMismatch slot id.pid (s.owner slot)), p)

/-- What releasing a process comes to: its slots, and no others, become free and are counted. -/
structure Releases (s : SwapArea σ) (pid : Pid) (answer : SwapAnswer) (s' : SwapArea σ) :
    Prop where
  counted : answer =
    .released ((List.range s.numSlots).countP fun slot => s.owner slot = some pid)
  mem_free_iff : ∀ slot, slot ∈ s'.free ↔ slot ∈ s.free ∨ s.owner slot = some pid
  lookup_eq : ∀ id, s'.lookup id = if id.pid = pid then none else s.lookup id
  content_eq : Extent.FailSafe.content s'.extent = Extent.FailSafe.content s.extent

/-- What a call comes to after a history of calls. -/
def Serves (history : List (SwapCall × SwapAnswer)) (s : SwapArea σ) (call : SwapCall)
    (answer : SwapAnswer) (s' : SwapArea σ) : Prop :=
  match call with
  | .store id data => Stores s id data answer s'
  | .fetch id slot _ => Fetches history s id slot answer s'
  | .release pid => Releases s pid answer s'

/-- A call does what it is for or changes nothing, and leaves every slot free or used by one
page. -/
structure Faithful (history : List (SwapCall × SwapAnswer)) (s : SwapArea σ) (call : SwapCall)
    (answer : SwapAnswer) (s' : SwapArea σ) : Prop where
  serves : Serves history s call answer s'
  unchanged : ∀ cause, answer = .failed cause → Unchanged s s'
  consistent : s'.Consistent
  audit_eq : s'.audit = .ok ()
  numSlots_eq : s'.numSlots = s.numSlots
  pageSize_eq : s'.pageSize = s.pageSize

namespace Keeps

variable {history : List (SwapCall × SwapAnswer)} {s s' : SwapArea σ} {id : PageId}
  {data : List UInt8}

theorem slot_fits (h : s.Keeps history) {slot : Nat} (hslot : slot < s.numSlots) :
    slot * s.pageSize + s.pageSize ≤ Extent.length s.extent :=
  Nat.le_trans (slot_end_le _ hslot) h.slots_fit

/-- Two extents with the same bytes are equally long. -/
theorem length_eq {e e' : σ} (he : Extent.FailSafe.Intact e) (he' : Extent.FailSafe.Intact e')
    (hlength : (Extent.FailSafe.content e').length = (Extent.FailSafe.content e).length) :
    Extent.length e' = Extent.length e := by
  rw [← Extent.FailSafe.length_content he', ← Extent.FailSafe.length_content he, hlength]

/-- The ways a store can go. -/
theorem store_cases (h : s.Keeps history) (id : PageId) (hdata : data.length = s.pageSize) :
    (∃ slot, s.lookup id = some slot ∧
      s.store id data = .ok (.error (.swapTableCorrupt slot), s)) ∨
    (s.lookup id = none ∧ s.free = [] ∧ s.store id data = .ok (.error .swapExhausted, s)) ∨
    ∃ slot rest extent, s.lookup id = none ∧ s.free = slot :: rest ∧
      Extent.FailSafe.Intact extent ∧
      ((∃ cause, s.store id data = .ok (.error (.swapIo cause), { s with extent }) ∧
          (Extent.write s.extent (slot * s.pageSize) data).1 = .error cause ∧
          Extent.FailSafe.content extent = Extent.FailSafe.content s.extent) ∨
        s.store id data = .ok (.ok slot, s.claim extent id slot rest) ∧
          Extent.FailSafe.content extent =
            Extent.patch (Extent.FailSafe.content s.extent) (slot * s.pageSize) data) := by
  cases hid : s.lookup id with
  | some slot =>
      refine .inl ⟨slot, rfl, ?_⟩
      rw [store, if_neg (not_not.2 hdata), hid]
  | none =>
      refine .inr ?_
      cases hfree : s.free with
      | nil => exact .inl ⟨rfl, rfl, Sound.store_exhausted hfree hid hdata⟩
      | cons slot rest =>
          have hlt : slot < s.numSlots :=
            (h.lt_numSlots_iff slot).2 (.inl (by rw [hfree]; exact List.mem_cons_self))
          obtain ⟨result, extent, hwrite, hintact, hdone, hfailed⟩ :=
            Extent.FailSafe.write_intact h.intact
              (show slot * s.pageSize + data.length ≤ _ by rw [hdata]; exact h.slot_fits hlt)
          refine .inr ⟨slot, rest, extent, rfl, rfl, hintact, ?_⟩
          rw [store, if_neg (not_not.2 hdata), hid, hfree]
          simp only [hwrite]
          cases result with
          | ok _ => exact .inr ⟨rfl, hdone rfl⟩
          | error cause => exact .inl ⟨cause, rfl, rfl, hfailed cause rfl⟩

/-- The ways a fetch can go. -/
theorem fetch_cases (h : s.Keeps history) (id : PageId) (slot : Nat) :
    (s.lookup id ≠ some slot ∧ s.fetch id slot s.pageSize =
      .ok (.error (.slotOwnerMismatch slot id.pid (s.owner slot)), s)) ∨
    ∃ extent, s.lookup id = some slot ∧ Extent.FailSafe.Intact extent ∧
      Extent.FailSafe.content extent = Extent.FailSafe.content s.extent ∧
      ((∃ cause, s.fetch id slot s.pageSize = .ok (.error (.swapIo cause), { s with extent }) ∧
          (Extent.read s.extent (slot * s.pageSize) s.pageSize).1 = .error cause) ∨
        s.fetch id slot s.pageSize =
          .ok (.ok (s.pageAt slot), { s with extent }.vacate id slot)) := by
  by_cases hid : s.lookup id = some slot
  · have howner : s.owner slot = some id.pid := (h.owner_iff slot id.pid).2 ⟨id.page, hid⟩
    obtain ⟨result, extent, hread, hintact, hcontent, hbytes⟩ :=
      Extent.FailSafe.read_intact h.intact
        (h.slot_fits ((h.lt_numSlots_iff slot).2 (.inr ⟨id, hid⟩)))
    refine .inr ⟨extent, hid, hintact, hcontent, ?_⟩
    rw [fetch, if_neg (not_not.2 rfl), if_pos ⟨howner, hid⟩]
    simp only [hread]
    cases result with
    | ok bytes =>
        obtain rfl := hbytes bytes rfl
        exact .inr rfl
    | error cause => exact .inl ⟨cause, rfl, rfl⟩
  · refine .inl ⟨hid, ?_⟩
    rw [fetch, if_neg (not_not.2 rfl), if_neg fun hown => hid hown.2]

/-- A page that was stored is in its slot, and every other page is where it was. -/
theorem claim (h : s.Keeps history) {slot : Nat} {rest : List Nat} {extent : σ}
    (hfree : s.free = slot :: rest) (hid : s.lookup id = none) (hdata : data.length = s.pageSize)
    (hintact : Extent.FailSafe.Intact extent)
    (hcontent : Extent.FailSafe.content extent =
      Extent.patch (Extent.FailSafe.content s.extent) (slot * s.pageSize) data) :
    (s.claim extent id slot rest).Keeps ((.store id data, .stored slot) :: history) := by
  have hmem : slot ∈ s.free := by rw [hfree]; exact List.mem_cons_self
  have hfit : slot * s.pageSize + s.pageSize ≤ (Extent.FailSafe.content s.extent).length := by
    rw [Extent.FailSafe.length_content h.intact]
    exact h.slot_fits ((h.lt_numSlots_iff slot).2 (.inl hmem))
  have hlength : Extent.length extent = Extent.length s.extent := by
    refine length_eq h.intact hintact ?_
    rw [hcontent, Extent.length_patch]
    rw [hdata]
    exact hfit
  have hpage : ∀ i, (s.claim extent id slot rest).pageAt i =
      if i = slot then data else s.pageAt i := by
    intro i
    show ((Extent.FailSafe.content extent).drop (i * s.pageSize)).take s.pageSize = _
    rw [hcontent, slot_patch hdata hfit]
    rfl
  refine ⟨h.toConsistent.claim hfree hid extent, hintact, hlength ▸ h.slots_fit,
    fun id' i hid' => ?_⟩
  rw [lookup_claim] at hid'
  rw [lastStored, hpage]
  by_cases heq : id' = id
  · rw [if_pos heq] at hid' ⊢
    rw [if_pos (Option.some.inj hid').symm]
  · rw [if_neg heq] at hid' ⊢
    rw [if_neg, h.kept id' i hid']
    rintro rfl
    exact h.lookup_ne_of_free i id' hmem hid'

/-- Taking pages out of their slots touches no other page. -/
theorem of_lookup (h : s.Keeps history) (hconsistent : s'.Consistent)
    (hintact : Extent.FailSafe.Intact s'.extent)
    (hcontent : Extent.FailSafe.content s'.extent = Extent.FailSafe.content s.extent)
    (hsize : s'.pageSize = s.pageSize) (hnum : s'.numSlots = s.numSlots)
    (hlookup : ∀ id slot, s'.lookup id = some slot → s.lookup id = some slot)
    {history' : List (SwapCall × SwapAnswer)}
    (hlast : ∀ id, lastStored history' id = lastStored history id) : s'.Keeps history' := by
  refine ⟨hconsistent, hintact, ?_, fun id slot hid => ?_⟩
  · rw [hnum, hsize, length_eq h.intact hintact (congrArg List.length hcontent)]
    exact h.slots_fit
  · rw [hlast, h.kept id slot (hlookup id slot hid), pageAt, pageAt, hcontent, hsize]

/-- A call that fails leaves what the area remembers, whatever became of the device. -/
theorem failed (h : s.Keeps history) {extent : σ} (hintact : Extent.FailSafe.Intact extent)
    (hcontent : Extent.FailSafe.content extent = Extent.FailSafe.content s.extent)
    (call : SwapCall) (cause : PagingError) :
    Keeps ((call, .failed cause) :: history) { s with extent } :=
  h.of_lookup (h.toConsistent.withExtent extent) hintact hcontent rfl rfl (fun _ _ hid => hid)
    fun _ => by cases call <;> rfl

/-- What a call that fails has done, where it was right to fail. -/
theorem faithful_failed (h : s.Keeps history) {extent : σ}
    (hcontent : Extent.FailSafe.content extent = Extent.FailSafe.content s.extent)
    {call : SwapCall} {cause : PagingError}
    (hserves : Serves history s call (.failed cause) { s with extent }) :
    Faithful history s call (.failed cause) { s with extent } :=
  ⟨hserves, fun _ _ => ⟨rfl, rfl, rfl, hcontent, rfl, rfl⟩, h.toConsistent.withExtent extent,
    (h.toConsistent.withExtent extent).audit_eq_ok, rfl, rfl⟩

/-- Where no slot is free, every slot is used. -/
theorem free_eq_nil_iff (h : s.Keeps history) :
    s.free = [] ↔ ∀ slot < s.numSlots, ∃ id, s.lookup id = some slot := by
  constructor
  · intro hfree slot hslot
    refine ((h.lt_numSlots_iff slot).1 hslot).resolve_left ?_
    rw [hfree]
    exact List.not_mem_nil
  · intro hused
    refine List.eq_nil_iff_forall_not_mem.2 fun slot hslot => ?_
    obtain ⟨id, hid⟩ := hused slot ((h.lt_numSlots_iff slot).2 (.inl hslot))
    exact h.lookup_ne_of_free slot id hslot hid

/-- The slots that a process owns are those of its pages. -/
theorem length_pagesOf (h : s.Keeps history) (pid : Pid) :
    (s.pagesOf pid).length =
      (List.range s.numSlots).countP fun slot => s.owner slot = some pid := by
  have hperm : ((s.pagesOf pid).map Prod.snd).Perm
      ((List.range s.numSlots).filter fun slot => s.owner slot = some pid) := by
    refine (List.perm_ext_iff_of_nodup ?_ (List.nodup_range.filter _)).2 fun slot => ?_
    · exact h.slots_nodup.sublist (List.filter_sublist.map Prod.snd)
    · rw [List.mem_map, List.mem_filter, List.mem_range, decide_eq_true_iff]
      constructor
      · rintro ⟨⟨id, slot⟩, hmem, rfl⟩
        obtain ⟨hid, rfl⟩ := Consistent.mem_pagesOf_iff.1 hmem
        exact ⟨(h.lt_numSlots_iff _).2 (.inr ⟨id, hid⟩), (h.owner_iff _ _).2 ⟨id.page, hid⟩⟩
      · rintro ⟨-, howner⟩
        obtain ⟨page, hpage⟩ := (h.owner_iff slot pid).1 howner
        exact ⟨(⟨pid, page⟩, slot), Consistent.mem_pagesOf_iff.2 ⟨hpage, rfl⟩, rfl⟩
  rw [List.countP_eq_length_filter, ← hperm.length_eq, List.length_map]

/-- Storing a whole page. -/
theorem serve_store (h : s.Keeps history) (id : PageId) (hdata : data.length = s.pageSize) :
    ∃ answer s', s.serve (.store id data) = .ok (answer, s') ∧
      s'.Keeps ((.store id data, answer) :: history) ∧
      Faithful history s (.store id data) answer s' := by
  rcases h.store_cases id hdata with ⟨slot, hid, hstore⟩ | ⟨hid, hfree, hstore⟩ |
    ⟨slot, rest, extent, hid, hfree, hintact, ⟨cause, hstore, hfails, hcontent⟩ |
      ⟨hstore, hcontent⟩⟩
  · -- the page has a slot
    refine ⟨.failed (.swapTableCorrupt slot), s, by rw [serve, hstore]; rfl,
      h.failed h.intact rfl _ _, h.faithful_failed rfl ⟨⟨nofun, fun hnone => ?_⟩, ?_, ?_⟩⟩
    · exact absurd (hid.symm.trans hnone.1) (Option.some_ne_none slot)
    · intro slot' hid'
      rw [Option.some.inj (hid.symm.trans hid')]
    · intro slot' rest hnone
      exact absurd (hid.symm.trans hnone) (Option.some_ne_none slot)
  · -- every slot is used
    refine ⟨.failed .swapExhausted, s, by rw [serve, hstore]; rfl, h.failed h.intact rfl _ _,
      h.faithful_failed rfl ⟨⟨fun _ => ⟨hid, h.free_eq_nil_iff.1 hfree⟩, fun _ => rfl⟩, ?_, ?_⟩⟩
    · intro slot hsome
      exact absurd (hsome.symm.trans hid) (Option.some_ne_none slot)
    · intro slot rest _ hcons
      exact absurd (hcons.symm.trans hfree) (List.cons_ne_nil slot rest)
  · -- the device fails
    refine ⟨.failed (.swapIo cause), { s with extent }, by rw [serve, hstore]; rfl,
      h.failed hintact hcontent _ _,
      h.faithful_failed hcontent ⟨⟨nofun, fun hused => ?_⟩, ?_, fun slot' rest' _ hfree' => ?_⟩⟩
    · exact absurd (hfree.symm.trans (h.free_eq_nil_iff.2 hused.2)) (List.cons_ne_nil slot rest)
    · intro slot' hsome
      exact absurd (hsome.symm.trans hid) (Option.some_ne_none slot')
    · obtain ⟨rfl, rfl⟩ := List.cons.inj (hfree.symm.trans hfree')
      exact .inr ⟨cause, rfl, hfails⟩
  · have hkeeps := h.claim hfree hid hdata hintact hcontent
    refine ⟨.stored slot, s.claim extent id slot rest, by rw [serve, hstore]; rfl, hkeeps,
      ⟨⟨nofun, fun hused => ?_⟩, ?_, ?_⟩, nofun, hkeeps.toConsistent,
      hkeeps.toConsistent.audit_eq_ok, rfl, rfl⟩
    · exact absurd (hfree.symm.trans (h.free_eq_nil_iff.2 hused.2)) (List.cons_ne_nil slot rest)
    · intro slot' hsome
      exact absurd (hsome.symm.trans hid) (Option.some_ne_none slot')
    · intro slot' rest' _ hfree'
      obtain ⟨rfl, rfl⟩ := List.cons.inj (hfree.symm.trans hfree')
      exact .inl ⟨rfl, rfl, fun id' => lookup_claim s extent id slot rest id'⟩

/-- Fetching a page into a frame of its size. -/
theorem serve_fetch (h : s.Keeps history) (id : PageId) (slot : Nat) :
    ∃ answer s', s.serve (.fetch id slot s.pageSize) = .ok (answer, s') ∧
      s'.Keeps ((.fetch id slot s.pageSize, answer) :: history) ∧
      Faithful history s (.fetch id slot s.pageSize) answer s' := by
  rcases h.fetch_cases id slot with ⟨hid, hfetch⟩ |
    ⟨extent, hid, hintact, hcontent, ⟨cause, hfetch, hfails⟩ | hfetch⟩
  · -- the slot is not the page's
    refine ⟨.failed (.slotOwnerMismatch slot id.pid (s.owner slot)), s,
      by rw [serve, hfetch]; rfl, h.failed h.intact rfl _ _, h.faithful_failed rfl
      ⟨fun _ hfetched => SwapAnswer.noConfusion hfetched, fun hown => absurd hown hid,
        fun _ => ⟨rfl, fun p frame hp => ?_⟩⟩⟩
    subst hp
    refine Paging.bind_error ?_
    rw [Paging.swapIn_run, hfetch]
    rfl
  · -- the device fails
    exact ⟨.failed (.swapIo cause), { s with extent }, by rw [serve, hfetch]; rfl,
      h.failed hintact hcontent _ _, h.faithful_failed hcontent
      ⟨fun _ hfetched => SwapAnswer.noConfusion hfetched, fun _ => .inr ⟨cause, rfl, hfails⟩,
        fun hother => absurd hid hother⟩⟩
  · have hconsistent : ({ s with extent }.vacate id slot).Consistent :=
      (h.toConsistent.withExtent extent).vacate hid
    have hlookup := lookup_vacate { s with extent } id slot
    have hkeeps : ({ s with extent }.vacate id slot).Keeps
        ((.fetch id slot s.pageSize, .fetched (s.pageAt slot)) :: history) := by
      refine h.of_lookup hconsistent hintact hcontent rfl rfl (fun id' i hid' => ?_) fun _ => rfl
      rw [hlookup] at hid'
      split at hid'
      · cases hid'
      · exact hid'
    refine ⟨.fetched (s.pageAt slot), { s with extent }.vacate id slot,
      by rw [serve, hfetch]; rfl, hkeeps,
      ⟨⟨fun data hdata => ?_, fun _ => .inl ⟨_, rfl⟩, fun hother => absurd hid hother⟩,
        fun _ hfailed => SwapAnswer.noConfusion hfailed, hconsistent, hconsistent.audit_eq_ok,
        rfl, rfl⟩⟩
    obtain rfl := SwapAnswer.fetched.inj hdata
    exact ⟨hid, h.kept id slot hid, rfl, hlookup⟩

/-- Releasing a process. -/
theorem serve_release (h : s.Keeps history) (pid : Pid) :
    ∃ answer s', s.serve (.release pid) = .ok (answer, s') ∧
      s'.Keeps ((.release pid, answer) :: history) ∧
      Faithful history s (.release pid) answer s' := by
  obtain ⟨hconsistent, hextent, hsize, hnum, hfree, hlookup⟩ := h.toConsistent.releaseAll pid
  have hcontent := congrArg Extent.FailSafe.content hextent
  refine ⟨.released (s.releaseAll pid).1, (s.releaseAll pid).2, rfl,
    h.of_lookup hconsistent (hextent ▸ h.intact) hcontent hsize hnum (fun id slot hid => ?_)
      (fun _ => rfl),
    ⟨⟨congrArg SwapAnswer.released (h.length_pagesOf pid), fun slot => ?_, hlookup, hcontent⟩,
      nofun, hconsistent, hconsistent.audit_eq_ok, hnum, hsize⟩⟩
  · rw [hlookup] at hid
    split at hid
    · cases hid
    · exact hid
  · rw [hfree, List.mem_append, List.mem_map, h.owner_iff]
    refine or_congr_right ⟨?_, ?_⟩
    · rintro ⟨⟨id, slot⟩, hmem, rfl⟩
      obtain ⟨hid, rfl⟩ := Consistent.mem_pagesOf_iff.1 hmem
      exact ⟨id.page, hid⟩
    · rintro ⟨page, hpage⟩
      exact ⟨(⟨pid, page⟩, slot), Consistent.mem_pagesOf_iff.2 ⟨hpage, rfl⟩, rfl⟩

/-- Every call with whole pages is answered, and the area remembers it. -/
theorem serve (h : s.Keeps history) {call : SwapCall} (hwhole : call.isWhole s.pageSize = true) :
    ∃ answer s', s.serve call = .ok (answer, s') ∧ s'.Keeps ((call, answer) :: history) ∧
      Faithful history s call answer s' := by
  cases call with
  | store id data => exact h.serve_store id (of_decide_eq_true hwhole)
  | fetch id slot frameSize =>
      obtain rfl : frameSize = s.pageSize := of_decide_eq_true hwhole
      exact h.serve_fetch id slot
  | release pid => exact h.serve_release pid

end Keeps

/-- After any calls the area keeps what it was told. -/
theorem Run.keeps {fresh s : SwapArea σ} {history : List (SwapCall × SwapAnswer)}
    (hfresh : fresh.Keeps []) (h : Run fresh history s) :
    s.Keeps history ∧ s.numSlots = fresh.numSlots ∧ s.pageSize = fresh.pageSize := by
  induction h with
  | nil => exact ⟨hfresh, rfl, rfl⟩
  | cons _ hwhole hserve ih =>
      obtain ⟨hkeeps, hnum, hsize⟩ := ih
      obtain ⟨answer, s', hserve', hkeeps', hfaithful⟩ := hkeeps.serve (hsize ▸ hwhole)
      obtain ⟨rfl, rfl⟩ := Prod.mk.inj (Except.ok.inj (hserve.symm.trans hserve'))
      exact ⟨hkeeps', hfaithful.numSlots_eq.trans hnum, hfaithful.pageSize_eq.trans hsize⟩

/-- A swap area on a fail-safe extent is a map from pages to what they were last stored with. It can
be built for every page size, unless the host has no block of memory for the numbers of the slots,
and whatever calls with whole pages were made, every further one is answered faithfully. -/
theorem run_faithful {extent : σ} (hintact : Extent.FailSafe.Intact extent) {pageSize : Nat}
    (hsize : 0 < pageSize) :
    ((∃ fresh, create extent pageSize = .ok fresh) ∨
      create extent pageSize = .error .blockTooLarge ∧
        Address.maxBlock < Extent.length extent / pageSize * slotNumberBytes) ∧
    ∀ fresh, create extent pageSize = .ok fresh → fresh.Consistent ∧ fresh.audit = .ok () ∧
      fresh.numSlots = Extent.length extent / pageSize ∧ (∀ id, fresh.lookup id = none) ∧
      ∀ {history : List (SwapCall × SwapAnswer)} {s : SwapArea σ}, Run fresh history s →
        s.numSlots = fresh.numSlots ∧
          ∀ call, SwapCall.isWhole pageSize call = true →
            ∃ answer s', s.serve call = .ok (answer, s') ∧
              Run fresh ((call, answer) :: history) s' ∧ Faithful history s call answer s' := by
  refine ⟨create_outcome extent (Nat.ne_of_gt hsize), fun fresh hcreate => ?_⟩
  obtain ⟨hconsistent, hextent, hpageSize, hnum, hlookup⟩ := create_consistent hcreate
  have hfresh : fresh.Keeps [] := by
    refine ⟨hconsistent, hextent ▸ hintact, ?_, fun id slot hid => ?_⟩
    · rw [hnum, hpageSize, hextent]
      exact Nat.div_mul_le_self _ _
    · rw [hlookup] at hid
      cases hid
  refine ⟨hconsistent, hconsistent.audit_eq_ok, hnum, hlookup, fun {history s} hrun => ?_⟩
  obtain ⟨hkeeps, hnum', hsize'⟩ := hrun.keeps hfresh
  refine ⟨hnum', fun call hwhole => ?_⟩
  have hwhole' : call.isWhole fresh.pageSize = true := hpageSize ▸ hwhole
  obtain ⟨answer, s', hserve, -, hfaithful⟩ := hkeeps.serve (hsize' ▸ hwhole')
  exact ⟨answer, s', hserve, hrun.cons hwhole' hserve, hfaithful⟩

/-- Two slots of two bytes each, on a device that fails its first read and its second write. -/
def flaky : UnreliableExtent MemoryExtent :=
  { inner := ⟨.zeros 4⟩, failingReads := [0], failingWrites := [1], failsRemoval := false }

/-- Two pages of process 1 and one of process 2 compete for the two slots. -/
def flakyCalls : List SwapCall :=
  [.store ⟨1, 0⟩ [1, 2], .store ⟨1, 1⟩ [3, 4], .store ⟨2, 0⟩ [5, 6], .store ⟨1, 1⟩ [3, 4],
    .fetch ⟨1, 0⟩ 1 2, .fetch ⟨1, 0⟩ 0 2, .release 2, .store ⟨1, 1⟩ [3, 4]]

/-- What the calls answer, the last answer first: the device fails twice, the slots run out once,
and one slot is not the page's. -/
def flakyAnswers : List SwapAnswer :=
  [.stored 1, .released 1, .failed (.swapIo (.device "read failed")),
    .failed (.slotOwnerMismatch 1 1 (some 2)), .failed .swapExhausted, .stored 1,
    .failed (.swapIo (.device "write failed")), .stored 0]

/-- After all this the page that was stored first is still in its slot and comes back as it was. -/
theorem run_faithful_flaky :
    Extent.FailSafe.Intact flaky ∧ 0 < 2 ∧ ∃ fresh history s, create flaky 2 = .ok fresh ∧
      Run fresh history s ∧ history.map Prod.snd = flakyAnswers ∧
        SwapCall.isWhole 2 (.fetch ⟨1, 0⟩ 0 2) = true ∧
          ∃ s', s.serve (.fetch ⟨1, 0⟩ 0 2) = .ok (.fetched [1, 2], s') ∧
            Faithful history s (.fetch ⟨1, 0⟩ 0 2) (.fetched [1, 2]) s' := by
  have hintact : Extent.FailSafe.Intact flaky := MemoryExtent.intact_zeros (by decide)
  refine ⟨hintact, by decide, ?_⟩
  obtain ⟨-, hfaithful⟩ := run_faithful hintact (show 0 < 2 by decide)
  have hall : ((create flaky 2).bind fun fresh =>
      (fresh.serveAll [] flakyCalls).bind fun result =>
        (result.2.serve (.fetch ⟨1, 0⟩ 0 2)).map fun last =>
          (result.1.map Prod.snd, last.1)) = .ok (flakyAnswers, .fetched [1, 2]) := by
    rfl
  obtain ⟨fresh, hcreate, hall⟩ := ok_of_bind hall
  obtain ⟨-, -, -, -, hfaithful⟩ := hfaithful fresh hcreate
  obtain ⟨⟨history, s⟩, hserve, hlast⟩ := ok_of_bind hall
  obtain ⟨⟨answer, s'⟩, hfetch, heq⟩ := ok_of_map hlast
  obtain ⟨hanswers, rfl⟩ := Prod.mk.inj heq
  have hsize : fresh.pageSize = 2 := (create_consistent hcreate).2.2.1
  have hrun : Run fresh history s := by
    refine Run.nil.serveAll ?_ hserve
    rw [hsize]
    decide
  obtain ⟨-, hcalls⟩ := hfaithful hrun
  obtain ⟨answer, s', hfetch', -, hserved⟩ := hcalls (.fetch ⟨1, 0⟩ 0 2) rfl
  obtain ⟨rfl, rfl⟩ := Prod.mk.inj (Except.ok.inj (hfetch.symm.trans hfetch'))
  exact ⟨fresh, history, s, hcreate, hrun, hanswers, rfl, s', hfetch, hserved⟩

end SwapArea

end DemandPaging
