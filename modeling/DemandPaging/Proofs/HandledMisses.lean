import DemandPaging.Proofs.Kernel.Answers
import DemandPaging.Proofs.Kernel.Stages

/-!
# A handled miss stays handled

Between the end of a miss and the next try nothing takes the mapping out of the cache again,
whatever other threads do and however often the thread slept. So an access is tried twice at most,
and a copy handles one miss at most before it finds its page in memory (`CallerRun.misses_handled`).
Nor does it matter what callers pin meanwhile. What carries this is `Tried`: since a thread handled
a miss of the page that it has come to, it is asleep, or has the page in the cache, or has been
refused (`Stage.PastMiss`).
-/

namespace DemandPaging

variable {σ : Type}

/-- A miss of a page is behind a thread: the page is in the cache if the thread goes on with it. -/
def Stage.PastMiss (s : Paging σ) (page : Nat) : Stage → Prop
  | begun | faulting (.missing _) | unpinning _ => False
  | accessing | pinning | faulting (.notifying ..) => s.Cached page
  | _ => True

/-- How many tries there have been at a stage that no miss accounts for. -/
def Stage.tryAhead : Stage → Nat
  | faulting (.missing _) | killing _ | mourning .. => 1
  | _ => 0

namespace Stage

variable {pageSize page : Nat} {s s' : Paging σ} {stage next : Stage}

theorem goesOn_of_tries (h : next.tries = true) : next.goesOn = true := by
  cases next with
  | accessing | pinning => rfl
  | _ => cases h

theorem about_of_goesOn (h : next.goesOn = true) : next.About pageSize page := by
  cases next with
  | faulting fault =>
      cases fault with
      | notifying => trivial
      | _ => cases h
  | _ => trivial

theorem usesCache_of_goesOn (h : next.goesOn = true) : next.usesCache = true := by
  cases next with
  | faulting fault =>
      cases fault with
      | notifying => rfl
      | _ => cases h
  | accessing | pinning => rfl
  | _ => cases h

theorem pastMiss_of_goesOn (h : next.goesOn = true) (hcached : s.Cached page) :
    next.PastMiss s page := by
  cases next with
  | faulting fault =>
      cases fault with
      | notifying => exact hcached
      | _ => cases h
  | accessing | pinning => exact hcached
  | _ => cases h

theorem PastMiss.isMiss_eq (h : stage.PastMiss s page) : stage.isMiss = false := by
  cases stage with
  | faulting fault =>
      cases fault with
      | missing => cases h
      | _ => rfl
  | _ => rfl

/-- A thread that tries its page has no other try that a miss is still to account for. -/
theorem count_add_tryAhead_le (stage : Stage) : [stage].count .accessing + stage.tryAhead ≤ 1 := by
  cases stage with
  | faulting fault =>
      cases fault with
      | missing => exact Nat.le_refl 1
      | _ => exact Nat.zero_le 1
  | accessing | killing | mourning => exact Nat.le_refl 1
  | _ => exact Nat.zero_le 1

/-- Whoever goes on with a page needs it in the cache, and nobody else does. -/
theorem PastMiss.mono (h : stage.PastMiss s page)
    (hkept : stage.goesOn = true → s.Cached page → s'.Cached page) : stage.PastMiss s' page := by
  cases stage with
  | faulting fault =>
      cases fault with
      | notifying => exact hkept rfl h
      | _ => exact h
  | accessing | pinning => exact hkept rfl h
  | _ => exact h

namespace Follows

theorem about (h : Follows pageSize page s s' stage next) : next.About pageSize page := by
  cases h with
  | begins hnext => exact about_of_goesOn (goesOn_of_tries hnext)
  | misses _ hpage => exact hpage
  | waits | resumes => rfl
  | loaded hnext | notifies hnext => exact about_of_goesOn hnext
  | _ => trivial

/-- A copy that has moved bytes takes the pin off. -/
theorem of_moving {f : Nat} (h : Follows pageSize page s s' (.moving f) next) :
    ∃ g, next = .unpinning g := by
  cases h with
  | moved => exact ⟨f, rfl⟩
  | misses hstage => cases hstage

/-- Once a miss is behind a thread it does not come back, until the thread comes to another page. -/
theorem pastMiss (h : Follows pageSize page s s' stage next)
    (hstage : stage.isMiss = true ∨ stage.PastMiss s page) (hmoving : ∀ f, stage ≠ .moving f) :
    next.PastMiss s' page := by
  cases h with
  | begins | unpinned =>
      rcases hstage with hmiss | hpast
      · cases hmiss
      · cases hpast
  | @misses _ address htries _ hun =>
      cases stage with
      | accessing | pinning =>
          rcases hstage with hmiss | hcached
          · cases hmiss
          · exact absurd hcached hun
      | _ => cases htries
  | @moved f => exact absurd rfl (hmoving f)
  | loaded hnext hcached => exact pastMiss_of_goesOn hnext hcached
  | notifies hnext hs =>
      subst hs
      rcases hstage with hmiss | hcached
      · cases hmiss
      · exact pastMiss_of_goesOn hnext hcached
  | _ => trivial

/-- After a try comes a miss, or the try was the last one. -/
theorem tryAhead_le (h : Follows pageSize page s s' stage next) :
    [stage].count .accessing + stage.tryAhead ≤ [stage].countP isMiss + next.tryAhead := by
  -- a part of a miss is no try, and only the first part has one ahead of it
  have hfault : ∀ fault : Faulting, [faulting fault].count .accessing +
      (faulting fault).tryAhead ≤ [faulting fault].countP isMiss := fun fault => by
    cases fault <;> exact Nat.le_refl _
  cases h with
  | misses htries =>
      cases stage with
      | accessing => exact Nat.le_refl 1
      | pinning => exact Nat.zero_le _
      | _ => cases htries
  | refused | ends | mourns => exact Nat.le_refl 1
  | waits | resumes | loaded | notifies | fails => exact Nat.le_add_right_of_le (hfault _)
  | begins | pinned | moved | unpinned => exact Nat.zero_le _

end Follows

end Stage

namespace Kernel

variable {k k' : Kernel σ} {n i : Nat} {request : Request} {call call' : Call}
  {stages : List Stage}

/-- What is known of an access after steps at these stages: it handled a miss for every try but the
last one, and one miss at most since it last came to another page. -/
structure Tried (k : Kernel σ) (request : Request) (stages : List Stage) (call : Call) : Prop where
  request_eq : call.request = request
  about : call.stage.About k.config.pageSize (k.pageOf call)
  count_le : stages.count .accessing ≤ stages.countP Stage.isMiss + call.stage.tryAhead
  moving : ∀ f, .moving f ∈ stages → request.isCopy = true
  past : ∀ before since, stages = before ++ since → (∀ f, .moving f ∉ since) →
    since.countP Stage.isMiss ≤ 1 ∧
      (0 < since.countP Stage.isMiss → call.stage.PastMiss k.paging (k.pageOf call))

namespace Tried

theorem begun : k.Tried request [] { request } := by
  refine ⟨rfl, trivial, Nat.le_refl 0, nofun, fun before since heq _ => ?_⟩
  obtain ⟨-, rfl⟩ := List.nil_eq_append_iff.1 heq
  exact ⟨Nat.zero_le 1, fun h => absurd h (Nat.lt_irrefl 0)⟩

/-- Something happens beside the thread, which leaves the page in the cache that it goes on with. -/
theorem other (h : k.Tried request stages call) (hconfig : k'.config = k.config)
    (hkept : call.stage.goesOn = true → ∀ page, k.paging.Cached page → k'.paging.Cached page) :
    k'.Tried request stages call := by
  have hpage : k'.pageOf call = k.pageOf call := by rw [pageOf, hconfig, pageOf]
  refine ⟨h.request_eq, ?_, h.count_le, h.moving, fun before since heq hmoving => ?_⟩
  · rw [hpage, hconfig]
    exact h.about
  · obtain ⟨hle, hpast⟩ := h.past before since heq hmoving
    rw [hpage]
    exact ⟨hle, fun hmissed => (hpast hmissed).mono fun hgoes => hkept hgoes _⟩

/-- The thread takes a step that is not the answer. -/
theorem own (h : k.Tried request stages call) (hgoes : k.GoesOn call k' call')
    (hconfig : k'.config = k.config)
    (hcopy : ∀ f, call.stage = .moving f → request.isCopy = true) :
    k'.Tried request (stages ++ [call.stage]) call' := by
  obtain ⟨hrequest, hmoved, hfollows⟩ := hgoes
  -- the access is still about the same page unless it has moved bytes
  have hpage : (∀ f, call.stage ≠ .moving f) → k'.pageOf call' = k.pageOf call := by
    intro hne
    rw [pageOf, pageOf, copyAddress, copyAddress, hrequest, hmoved hne, hconfig]
  refine ⟨hrequest.trans h.request_eq, ?_, ?_, fun f hf => ?_, fun before since heq hmoving => ?_⟩
  · by_cases hmove : ∃ f, call.stage = .moving f
    · obtain ⟨f, hf⟩ := hmove
      rw [hf] at hfollows
      obtain ⟨g, hg⟩ := hfollows.of_moving
      rw [hg]
      trivial
    · rw [hpage fun f hf => hmove ⟨f, hf⟩, hconfig]
      exact hfollows.about
  · have hcount := h.count_le
    have hahead := hfollows.tryAhead_le
    rw [List.count_append, List.countP_append]
    omega
  · rcases List.mem_append.1 hf with hold | hnew
    · exact h.moving f hold
    · exact hcopy f (List.mem_singleton.1 hnew).symm
  · -- the part that counts is empty, or the stage that is left now is its last one
    rcases List.eq_nil_or_concat since with rfl | ⟨since, last, rfl⟩
    · exact ⟨Nat.zero_le 1, fun h => absurd h (Nat.lt_irrefl 0)⟩
    · rw [List.concat_eq_append, ← List.append_assoc] at heq
      rw [List.concat_eq_append] at hmoving ⊢
      obtain ⟨rfl, hlast⟩ := List.append_inj' heq rfl
      obtain rfl := List.singleton_inj.1 hlast
      have hne : ∀ f, call.stage ≠ .moving f := fun f hf =>
        hmoving f (List.mem_append_right _ (by rw [hf]; exact List.mem_singleton_self _))
      obtain ⟨hle, hpast⟩ := h.past before since rfl fun f hf =>
        hmoving f (List.mem_append_left _ hf)
      rw [List.countP_append, hpage hne]
      by_cases hmiss : call.stage.isMiss = true
      · -- a miss is the first one, for it is behind nobody whom it is ahead of
        have hfirst : since.countP Stage.isMiss = 0 := by
          by_contra hne
          rw [(hpast (Nat.pos_of_ne_zero hne)).isMiss_eq] at hmiss
          cases hmiss
        rw [hfirst, List.countP_singleton, if_pos hmiss]
        exact ⟨Nat.le_refl 1, fun _ => hfollows.pastMiss (.inl hmiss) hne⟩
      · rw [List.countP_singleton, if_neg hmiss, Nat.add_zero]
        exact ⟨hle, fun hmissed => hfollows.pastMiss (.inr (hpast hmissed)) hne⟩

/-- Since the access came to its page it has handled one miss at most. -/
theorem misses_le (h : k.Tried request stages call) {before since : List Stage}
    (heq : stages = before ++ since) (hmoving : ∀ f, .moving f ∉ since) :
    (since ++ [call.stage]).countP Stage.isMiss ≤ 1 := by
  obtain ⟨hle, hpast⟩ := h.past before since heq hmoving
  rw [List.countP_append, List.countP_singleton]
  by_cases hmissed : 0 < since.countP Stage.isMiss
  · rw [(hpast hmissed).isMiss_eq, if_neg Bool.false_ne_true]
    exact hle
  · rw [Nat.eq_zero_of_not_pos hmissed]
    split <;> omega

/-- A load or a store moves no bytes on the way. -/
theorem moving_notMem (h : k.Tried request stages call) (hbyte : request.isByte = true) (f : Nat) :
    .moving f ∉ stages := by
  intro hf
  have hcopy := h.moving f hf
  cases request with
  | read | write => cases hcopy
  | _ => cases hbyte

theorem tries_le (h : k.Tried request stages call) (hbyte : request.isByte = true) :
    (stages ++ [call.stage]).count .accessing ≤ 2 := by
  have hmisses := (h.past [] stages rfl (h.moving_notMem hbyte)).1
  have hcount := h.count_le
  have hahead := call.stage.count_add_tryAhead_le
  rw [List.count_append]
  omega

end Tried

/-! ## While a request is under way -/

/-- A load or a store finds the frame of its page in the cache, or it is a store and finds that the
page may not be written. -/
def Finds (k : Kernel σ) (i address : Nat) (writing : Bool) : Prop :=
  ∃ u e r processor, k.process i = some u ∧ u.exited = false ∧
    k.paging.tables.find? ⟨u.pid, Address.page k.config.pageSize address⟩ = some e ∧
    e.valid = true ∧ k.paging.processor.locate address writing = .ok (r, processor) ∧
    ((∃ l, r = .ok l ∧ e.frame = some l.frame) ∨
      r = .error .readOnly ∧ writing = true ∧
        u.image.isReadOnly (Address.page k.config.pageSize address) = true)

/-- A page of a live process is in memory. -/
def HasPage (k : Kernel σ) (i page : Nat) : Prop :=
  ∃ u e, k.process i = some u ∧ u.exited = false ∧ k.paging.tables.find? ⟨u.pid, page⟩ = some e ∧
    e.valid = true

variable [Extent σ] [Extent.Reliable σ] {m : FlatMachine} {p : FlatProcess}
  {callers callers' : Multiset Nat} {P : Aloof σ}

/-- What is known of an access while it is under way. -/
theorem During.tried (h : During P n k callers stages callers' k') (hsound : k.Sound m callers)
    (haccess : request.isAccess = true) (hpending : m.Pending n i p request)
    (hs : k.session n = some ⟨i, .busy { request }⟩) :
    ∃ m' call, k'.Sound m' callers' ∧ m'.Pending n i p request ∧
      k'.session n = some ⟨i, .busy call⟩ ∧ k'.Tried request stages call := by
  induction h with
  | start => exact ⟨m, _, hsound, hpending, hs, .begun⟩
  | @own stages callers place call₁ k₁ k' _ hs₁ hrun ih =>
      obtain ⟨m₁, call, hsound₁, hpending₁, hs₁', htried⟩ := ih
      obtain ⟨rfl, hbusy⟩ := Session.mk.inj (Option.some.inj (hs₁'.symm.trans hs₁))
      obtain rfl := Phase.busy.inj hbusy
      obtain ⟨m', hstep, hsound', -⟩ := hsound₁.perform_run rfl hrun
      have hpending' := hpending₁.own_step haccess hstep
      obtain ⟨call', hs'⟩ := hsound'.toShows.busy_of_pending hpending'
      have hconfig : k'.config = k₁.config :=
        hsound'.config_eq.symm.trans (hstep.config_eq.trans hsound₁.config_eq)
      have hgoes := hsound₁.goesOn hs₁ (htried.request_eq.symm ▸ haccess) htried.about hrun hs'
      refine ⟨m', call', hsound', hpending', hs', htried.own hgoes hconfig fun f hf => ?_⟩
      -- only copies move bytes
      obtain ⟨u, -, hfits⟩ := hsound₁.fits n _ hs₁
      have hstage := hfits.stage
      rw [hf] at hstage
      rw [← htried.request_eq]
      exact hstage.1
  | @other stages callers e r k₁ k' _ he hne hrun _ ih =>
      obtain ⟨m₁, call, hsound₁, hpending₁, hs₁, htried⟩ := ih
      obtain ⟨m', hstep, hsound', -⟩ := hsound₁.perform_run he hrun
      have hs' := (hsound₁.perform_event he hrun).session_kept hs₁ nofun hne
      have hconfig : k'.config = k₁.config :=
        hsound'.config_eq.symm.trans (hstep.config_eq.trans hsound₁.config_eq)
      refine ⟨m', call, hsound', hpending₁.other_step hstep hne, hs',
        htried.other hconfig fun hgoes page hcached => ?_⟩
      -- a thread that goes on with a page has the processor, and so the cache, for itself
      have huses : (Phase.busy call).usesCache = true := Stage.usesCache_of_goesOn hgoes
      have hprocessor := hsound₁.processor_kept hs₁ (Phase.holding_of_usesCache huses) he hne hrun
      rw [Paging.Cached, hprocessor]
      exact hcached
  | call _ hcall ih =>
      -- callers leave the cache and the threads alone
      obtain ⟨m₁, call, hsound₁, hpending₁, hs₁, htried⟩ := ih
      obtain ⟨t, rfl, hsound', -⟩ := hsound₁.callerStep_run hcall
      exact ⟨m₁, call, hsound', hpending₁, hs₁, htried.other rfl fun _ _ hcached => hcached⟩

/-- Whoever tries a page again finds it in the cache. -/
theorem Sound.finds (h : k.Sound m callers) (hs : k.session n = some ⟨i, .busy call⟩)
    (hstage : call.stage = .accessing) (hcached : k.paging.Cached (k.pageOf call)) :
    k.Finds i call.request.address call.request.isWriting := by
  obtain ⟨u, hu, -⟩ := h.fits n _ hs
  have hcalling := h.calling hs hu
  obtain ⟨request, stage, moved⟩ := call
  obtain rfl : stage = .accessing := hstage
  have hbyte : request.isByte = true := hcalling.fits.stage
  obtain rfl : moved = [] := by
    refine hcalling.fits.moved_nil ?_
    cases request with
    | read | write => rfl
    | _ => cases hbyte
  have hcached : k.paging.Cached (Address.page k.config.pageSize request.address) := hcached
  rw [← h.pageSize_eq] at hcached
  obtain ⟨u', e, r, processor, hlive, he, hvalid, hlocate, hfound⟩ :=
    (hcalling.paging_bare rfl rfl rfl).locate_cached hcached request.isWriting
  obtain ⟨rfl, hexited⟩ := hcalling.eq_of_live hlive
  rw [h.pageSize_eq] at he hfound
  exact ⟨u', e, r, processor, hu, hexited, he, hvalid, hlocate, hfound⟩

/-- A copy whose page is in the cache has it in memory. -/
theorem Sound.hasPage (h : k.Sound m callers) (hs : k.session n = some ⟨i, .busy call⟩)
    (hstage : call.stage = .pinning) (hcached : k.paging.Cached (k.pageOf call)) :
    k.HasPage i (k.pageOf call) := by
  obtain ⟨u, hu, -⟩ := h.fits n _ hs
  have hcalling := h.calling hs hu
  obtain ⟨request, stage, moved⟩ := call
  obtain rfl : stage = .pinning := hstage
  obtain ⟨u', e, hlive, he, hvalid⟩ :=
    (hcalling.paging_bare rfl rfl rfl).resident_of_cached hcached
  obtain ⟨rfl, hexited⟩ := hcalling.eq_of_live hlive
  exact ⟨u', e, hu, hexited, he, hvalid⟩

/-- A handled miss stays handled. A load or a store is tried twice at most, and the second time the
page is found; and a copy handles one miss at most between the frames that it moves bytes from or
to, and then has its page in memory. -/
theorem CallerRun.misses_handled {c : Config} {extent : σ}
    (hintact : Extent.Reliable.Intact extent) {k₀ k₁ : Kernel σ}
    (hboot : boot c extent = .ok (.ok k₀)) {trace : List (Event × Option (Response σ))}
    (hrun : CallerRun (fun _ => True) k₀ 0 trace callers k) (hs : k.session n = some ⟨i, .ready⟩)
    (haccess : request.isAccess = true) (hask : k.perform (.ask n request) = some (.ok (none, k₁)))
    (hduring : During P n k₁ callers stages callers' k') :
    ∃ call, k'.session n = some ⟨i, .busy call⟩ ∧ call.request = request ∧
      (request.isByte = true →
        (stages ++ [call.stage]).count .accessing ≤ 2 ∧
        (stages ++ [call.stage]).countP Stage.isMiss ≤ 1 ∧
        (call.stage = .accessing → .accessing ∈ stages →
          k'.Finds i request.address request.isWriting)) ∧
      (request.isCopy = true →
        ∀ before since, stages = before ++ since → (∀ f, .moving f ∉ since) →
          (since ++ [call.stage]).countP Stage.isMiss ≤ 1 ∧
          (call.stage = .pinning → since.any Stage.isMiss = true →
            k'.HasPage i (k'.pageOf call))) := by
  obtain ⟨m, -, hsound⟩ := hrun.simulated hintact hboot
  obtain ⟨u, hu, -⟩ := hsound.fits n _ hs
  obtain ⟨p, hp, rfl⟩ := hsound.toShows.flat_of_process hu
  have hordinary : request.isOrdinary = true := by
    cases request <;> first | rfl | cases haccess
  obtain ⟨m₁, hsound₁, hpending₁, -, -⟩ := hsound.asked hordinary hs hp hask
  have hs₁ : k₁.session n = some ⟨i, .busy { request }⟩ := by
    rw [perform] at hask
    split at hask
    · obtain ⟨-, rfl⟩ := Prod.mk.inj (Except.ok.inj (Option.some.inj hask))
      exact getElem?_setPhase_self hs _
    · cases hask
  obtain ⟨m', call, hsound', -, hs', htried⟩ := hduring.tried hsound₁ haccess hpending₁ hs₁
  obtain rfl := htried.request_eq
  refine ⟨call, hs', rfl, fun hbyte => ?_, fun hcopy before since heq hmoving => ?_⟩
  · have hmoving := htried.moving_notMem hbyte
    refine ⟨htried.tries_le hbyte, htried.misses_le (List.nil_append stages).symm hmoving,
      fun hstage htry => ?_⟩
    -- every try before this one was a miss
    have hmissed : 0 < stages.countP Stage.isMiss := by
      have hcount := htried.count_le
      rw [hstage] at hcount
      exact Nat.lt_of_lt_of_le (List.count_pos_iff.2 htry) hcount
    have hpast := (htried.past [] stages rfl hmoving).2 hmissed
    rw [hstage] at hpast
    exact hsound'.finds hs' hstage hpast
  · refine ⟨htried.misses_le heq hmoving, fun hstage hany => ?_⟩
    have hmissed : 0 < since.countP Stage.isMiss := by
      rw [List.countP_pos_iff]
      exact List.any_eq_true.1 hany
    have hpast := (htried.past before since heq hmoving).2 hmissed
    rw [hstage] at hpast
    exact hsound'.hasPage hs' hstage hpast

/-- A machine with three frames and one swap slot. -/
def tightConfig : Config :=
  { frames := 3, cacheSize := 1, pageSize := 1, swapSlots := 1, stackPages := 4 }

/-- Two threads run a process, and the first one loads the last page. -/
def loadedEvents : List Event :=
  [.spawn smallImage, .start 0, .start 0, .advance 0, .advance 1, .advance 0] ++
    turn 0 (.read 4) 4

/-- Other pages of the process fill the two frames that are left and the slot, and the first thread
is ready for its next request. -/
def tightEvents : List Event :=
  turn 0 (.write 1 5) 4 ++ turn 0 (.write 2 5) 4 ++ turn 0 (.read 0) 4

/-- The first thread has to sleep. The second one loads the page in the slot, so that the first one
is woken, and goes on. -/
def wokenEvents : List Event :=
  List.replicate 8 (.advance 0) ++ List.replicate 2 (.advance 1) ++ turn 1 (.read 1) 8 ++
    turn 1 .leave 3 ++ List.replicate 10 (.advance 0)

/-- Whether a thread sleeps at a stage until a slot is free. -/
def sleeps : Stage → Bool
  | .faulting (.waiting _ _ (.sleeping _)) => true
  | _ => false

/-- Whether the first thread sleeps on the way to the byte, and tries twice. -/
def triesTwice (k : Kernel MemoryExtent) : Bool :=
  match k.answered (fun _ _ _ _ => true) 0 (.read 3) wokenEvents with
  | some (stages, .byte _, _) =>
      decide (k.session 0 = some ⟨0, .ready⟩ ∧ stages.any sleeps = true ∧
        stages.count .accessing = 2 ∧ stages.getLast? = some .accessing)
  | _ => false

/-- While the console has the last page pinned, a load that sleeps on the way to its page is tried
twice, and finds the page the second time. -/
theorem misses_handled_woken : ∃ (k₀ k k₁ k' : Kernel MemoryExtent)
    (trace : List (Event × Option (Response MemoryExtent))) (stages : List Stage) (call : Call),
    boot tightConfig (⟨.zeros 1⟩ : MemoryExtent) = .ok (.ok k₀) ∧
      CallerRun (fun _ => True) k₀ 0 trace {0} k ∧
      k.session 0 = some ⟨0, .ready⟩ ∧ (Request.read 3).isAccess = true ∧
      k.perform (.ask 0 (.read 3)) = some (.ok (none, k₁)) ∧
      During (fun _ _ _ _ => True) 0 k₁ {0} stages {0} k' ∧
      k'.session 0 = some ⟨0, .busy call⟩ ∧ (stages ++ [call.stage]).any sleeps = true ∧
      (stages ++ [call.stage]).count .accessing = 2 ∧ call.stage = .accessing ∧
      k'.Finds 0 3 false := by
  have hlast : holdsAfter tightConfig loadedEvents (holdsPinned 0 fun k =>
      (k.performAll tightEvents).any fun result => triesTwice result.2) = true := by
    decide +kernel
  obtain ⟨k₀, -, k₂, done, hboot, -, -, hpinned, hfills⟩ :=
    callerRun_of_holdsAfter (by decide) hlast
  obtain ⟨⟨later, k⟩, hall, htwice⟩ := (Option.any_eq_true ..).1 hfills
  have hrun := hpinned.trans_run (.of_performAll (by decide) hall)
  rw [triesTwice] at htwice
  split at htwice
  · rename_i stages value k₃ hanswered
    obtain ⟨hs, hsleeps, hcount, hstage⟩ := of_decide_eq_true htwice
    have hanswers : k.Answers (fun _ _ _ _ => True) 0 {0} (.read 3) stages (.byte value) {0} k₃ :=
      .of_answered (fun _ _ _ _ _ => trivial) hanswered
    cases hanswers with
    | @intro stages' callers place call' _ k₁ k' _ hask hduring hsession _ =>
        obtain ⟨call, hs', -, hbyte, -⟩ :=
          hrun.misses_handled (MemoryExtent.intact_zeros (by decide)) hboot hs rfl hask hduring
        obtain ⟨-, hcall⟩ := Session.mk.inj (Option.some.inj (hs'.symm.trans hsession))
        obtain rfl := Phase.busy.inj hcall
        have hstage : call.stage = .accessing := by
          rw [List.getLast?_concat] at hstage
          exact Option.some.inj hstage
        have htry : .accessing ∈ stages' := by
          rw [List.count_append, hstage, List.count_singleton_self] at hcount
          exact List.count_pos_iff.1 (by omega)
        exact ⟨k₀, k, k₁, k', done ++ later, stages', call, hboot, hrun, hs, rfl, hask, hduring,
          hs', hsleeps, hcount, hstage, (hbyte rfl).2.2 hstage htry⟩
  · cases htwice

end Kernel

end DemandPaging
