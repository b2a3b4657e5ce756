import DemandPaging.Proofs.Kernel.Runs

/-!
# Clean pages can be made again

A page in memory that is not dirty, neither in its page table nor in the mapping cache, has the
bytes that it started with; and a page of a read-only section is never dirty and never in swap. So a
page that leaves memory can be had again, from its slot or from its image.
-/

namespace DemandPaging.Kernel

variable {σ : Type} [Extent σ] [Extent.Reliable σ] {k k' : Kernel σ} {m : FlatMachine} {i : Nat}
  {p : UserProcess}

/-- The page of a process is dirty in the mapping cache: the process is on the processor, and a
valid entry for the page is dirty. -/
def DirtyInCache (k : Kernel σ) (i v : Nat) : Prop :=
  k.OnProcessor i ∧ ∃ c ∈ k.paging.processor.cache, c.valid = true ∧ c.page = v ∧ c.dirty = true

namespace Sound

/-- What the memory manager takes for dirty is dirty in the page table or in the cache. -/
theorem dirty_iff {callers : Multiset Nat} (h : k.Sound m callers)
    (hp : k.processes[i]? = some p) : ∃ running,
    k.paging.Sound k.live running (k.pins + callers) m.page ∧ ∀ v,
      Paging.Marked k.paging.processor.cache k.paging.tables running ⟨p.pid, v⟩ ↔
        (∃ e, k.paging.tables.find? ⟨p.pid, v⟩ = some e ∧ e.dirty = true) ∨ k.DirtyInCache i v := by
  by_cases hon : k.OnProcessor i
  · refine ⟨some p.pid, h.on_processor hon hp, fun v => ?_⟩
    exact or_congr_right ⟨fun ⟨_, hc⟩ => ⟨hon, hc⟩, fun ⟨_, hc⟩ => ⟨rfl, hc⟩⟩
  · obtain ⟨running, hpaging, hrunning⟩ := h.running
    refine ⟨running, hpaging, fun v => or_congr_right ⟨fun ⟨heq, _⟩ => ?_, fun ⟨hon', _⟩ => ?_⟩⟩
    · obtain ⟨j, q, hq, hpid, hon'⟩ := hrunning p.pid heq
      -- numbers are places, so it is the process itself that is on the processor
      have h1 := h.pid_toNat hp
      have h2 := h.pid_toNat hq
      rw [hpid] at h2
      obtain rfl : i = j := by omega
      exact absurd hon' hon
    · exact absurd hon' hon

/-- A page that is in memory before a step and not after it keeps its bytes in swap, or has those
that it started with. -/
theorem leaving_page (h : k.Sound m) {e : Event} {r : Option (Response σ)}
    (hstep : k.Simulated m e r k') (hp : k'.processes[i]? = some p) (hlive : p.exited = false)
    {v f : Nat} {e₀ e₁ : PageEntry} (hbefore : k.paging.tables.find? ⟨p.pid, v⟩ = some e₀)
    (hframe : e₀.frame = some f) (hafter : k'.paging.tables.find? ⟨p.pid, v⟩ = some e₁)
    (hgone : e₁.frame = none) :
    ∃ bytes, k.paging.processor.memory[f]? = some bytes ∧
      (k'.paging.swap.saved? ⟨p.pid, v⟩ = some bytes ∨
        k'.paging.swap.lookup ⟨p.pid, v⟩ = none ∧
          bytes = p.image.initialPage v k'.config.pageSize) := by
  obtain ⟨m', -, hsound', hpages⟩ := hstep
  obtain ⟨running, -, hpaging⟩ := h.paging
  obtain ⟨running', -, hpaging'⟩ := hsound'.paging
  -- a step that changes memory moves no page, so this one's bytes are as they were
  have hsame : m'.page ⟨p.pid, v⟩ = m.page ⟨p.pid, v⟩ := by
    rcases hpages with hpages | htables
    · exact hpages _ e₀ hbefore
    · rw [htables, hbefore] at hafter
      rw [Option.some.inj hafter, hgone] at hframe
      cases hframe
  refine ⟨m.page ⟨p.pid, v⟩, hpaging.keeps.resident _ e₀ f hbefore hframe, ?_⟩
  cases hsaved : k'.paging.swap.saved? ⟨p.pid, v⟩ with
  | some bytes =>
      obtain ⟨hbytes, -⟩ := hpaging'.keeps.saved _ bytes hsaved
      rw [hbytes, hsame]
      exact .inl rfl
  | none =>
      have halive : k'.live p.pid = some p := by
        rw [hsound'.live_eq hp, hlive]
        rfl
      have hinitial := hpaging'.keeps.absent _ e₁ p hafter hgone hsaved halive
      rw [hsame, hsound'.pageSize_eq] at hinitial
      exact .inr ⟨SwapArea.saved?_eq_none_iff.1 hsaved, hinitial⟩

end Sound

/-- After every run, pages of live processes that are not dirty have the bytes that they started
with, and pages of read-only sections are not dirty and have no slot. Whatever happens next, a page
that leaves memory has its bytes in swap, or started with them. -/
theorem Run.clean_pages_initial {c : Config} {extent : σ}
    (hintact : Extent.Reliable.Intact extent) {k₀ k : Kernel σ}
    (hboot : boot c extent = .ok (.ok k₀)) {trace : List (Event × Option (Response σ))}
    (hrun : Run k₀ trace k) :
    (∀ (i : Nat) (p : UserProcess), k.processes[i]? = some p → p.exited = false →
      (∀ (v f : Nat) (e : PageEntry), k.paging.tables.find? ⟨p.pid, v⟩ = some e →
        e.frame = some f → e.dirty = false → ¬ k.DirtyInCache i v →
          k.paging.processor.memory[f]? = some (p.image.initialPage v k.config.pageSize)) ∧
      ∀ (v : Nat) (s : Section), s ∈ p.image.sections → s.readOnly = true → s.contains v = true →
        (∀ e, k.paging.tables.find? ⟨p.pid, v⟩ = some e → e.dirty = false) ∧
          ¬ k.DirtyInCache i v ∧ k.paging.swap.lookup ⟨p.pid, v⟩ = none) ∧
    ∀ (e : Event) (r : Option (Response σ)) (k' : Kernel σ), e.isOrdinary = true →
      k.perform e = some (.ok (r, k')) →
      ∀ (i : Nat) (p : UserProcess), k'.processes[i]? = some p → p.exited = false →
      ∀ (v f : Nat) (e₀ e₁ : PageEntry), k.paging.tables.find? ⟨p.pid, v⟩ = some e₀ →
        e₀.frame = some f → k'.paging.tables.find? ⟨p.pid, v⟩ = some e₁ → e₁.frame = none →
        ∃ bytes, k.paging.processor.memory[f]? = some bytes ∧
          (k'.paging.swap.saved? ⟨p.pid, v⟩ = some bytes ∨
            k'.paging.swap.lookup ⟨p.pid, v⟩ = none ∧
              bytes = p.image.initialPage v k'.config.pageSize) := by
  obtain ⟨m, -, hsound⟩ := hrun.simulated hintact hboot
  refine ⟨fun i p hp hlive => ?_, fun e r k' he hperform i p hp hlive v f e₀ e₁ h₀ hf h₁ hgone =>
    hsound.leaving_page (hsound.perform_run he hperform) hp hlive h₀ hf h₁ hgone⟩
  obtain ⟨running, hpaging, hdirty⟩ := hsound.dirty_iff hp
  have halive : k.live p.pid = some p := by
    rw [hsound.live_eq hp, hlive]
    rfl
  constructor
  · intro v f e he hf hclean hcache
    have hunmarked :
        ¬ Paging.Marked k.paging.processor.cache k.paging.tables running ⟨p.pid, v⟩ := by
      rw [hdirty]
      rintro (⟨e', he', hd⟩ | hd)
      · obtain rfl := Option.some.inj (he.symm.trans he')
        rw [hclean] at hd
        exact Bool.noConfusion hd
      · exact hcache hd
    rw [hpaging.keeps.resident _ e f he hf,
      hpaging.keeps.clean _ e p he (by rw [hf]; rfl) hunmarked halive, hsound.pageSize_eq]
  · intro v s hs hro hcontains
    obtain ⟨hslot, hunmarked⟩ := hpaging.keeps.readOnly ⟨p.pid, v⟩ p halive
      (p.image.isReadOnly_iff.2 ⟨s, hs, hro, hcontains⟩)
    rw [hdirty, not_or] at hunmarked
    refine ⟨fun e he => ?_, hunmarked.2, SwapArea.saved?_eq_none_iff.1 hslot⟩
    rw [← Bool.not_eq_true]
    exact fun hd => hunmarked.1 ⟨e, he, hd⟩

/-- A thread stores a byte into its stack, and has found that the page of the image is not in
memory. -/
def missedEvents : List Event :=
  [.spawn smallImage, .start 0, .advance 0, .advance 0] ++ turn 0 (.write 1 5) 4 ++
    turn 0 (.read 0) 2

/-- Whether the page of the stack is in the only frame, and that of the image after the next step.
-/
def exchangesPages (k : Kernel MemoryExtent) : Bool :=
  match k.perform (.advance 0) with
  | some (.ok (_, k')) =>
      match k.paging.tables.find? ⟨1, 1⟩, k'.paging.tables.find? ⟨1, 1⟩,
          k'.paging.tables.find? ⟨1, 0⟩, k'.processes[0]? with
      | some e₀, some e₁, some e, some p =>
          decide (e₀.frame = some 0 ∧ e₁.frame = none ∧ e.frame = some 0 ∧ p.pid = 1 ∧
            p.exited = false ∧ p.image = smallImage ∧ k.paging.processor.memory[0]? = some [5] ∧
            k'.config.pageSize = 1)
      | _, _, _, _ => false
  | _ => false

/-- The page of the stack leaves memory for that of the image. Its bytes are in the slot then, and
the page of the image is clean, has no slot, and has the byte that it started with. -/
theorem clean_pages_initial_small : ∃ (k₀ k k' : Kernel MemoryExtent)
    (trace : List (Event × Option (Response MemoryExtent))) (r : Option (Response MemoryExtent))
    (p : UserProcess) (e : PageEntry),
    boot smallConfig (⟨.zeros 1⟩ : MemoryExtent) = .ok (.ok k₀) ∧
      k₀.performAll missedEvents = some (trace, k) ∧ Run k₀ trace k ∧
      k.perform (.advance 0) = some (.ok (r, k')) ∧
      k.paging.processor.memory[0]? = some [5] ∧ k'.paging.swap.saved? ⟨1, 1⟩ = some [5] ∧
      k'.processes[0]? = some p ∧ p.exited = false ∧
      k'.paging.tables.find? ⟨1, 0⟩ = some e ∧ e.frame = some 0 ∧ e.dirty = false ∧
      ¬ k'.DirtyInCache 0 0 ∧ k'.paging.swap.lookup ⟨1, 0⟩ = none ∧
      k'.paging.processor.memory[0]? = some [7] := by
  have hlast : holdsAfter smallConfig missedEvents exchangesPages = true := by decide +kernel
  obtain ⟨k₀, k, trace, hboot, hall, hrun, hk⟩ := run_of_holdsAfter (by decide) hlast
  rw [exchangesPages] at hk
  split at hk
  · rename_i r k' hperform
    split at hk
    · rename_i e₀ e₁ e p he₀ he₁ he hp
      obtain ⟨hf₀, hf₁, hf, hpid, hlive, himage, hmem, hsize⟩ := of_decide_eq_true hk
      have hintact : Extent.Reliable.Intact (⟨.zeros 1⟩ : MemoryExtent) :=
        MemoryExtent.intact_zeros (by decide)
      -- the page of the stack has not what it started with, so it must be in the slot
      obtain ⟨bytes, hbytes, hsaved⟩ := (hrun.clean_pages_initial hintact hboot).2 (.advance 0) r k'
        rfl hperform 0 p hp hlive 1 0 e₀ e₁ (hpid ▸ he₀) hf₀ (hpid ▸ he₁) hf₁
      obtain rfl := Option.some.inj (hmem.symm.trans hbytes)
      rw [hpid, himage, hsize] at hsaved
      have hstack : k'.paging.swap.saved? ⟨1, 1⟩ = some [5] :=
        hsaved.resolve_right fun hinitial => absurd hinitial.2 (by decide)
      -- the page of the image is in a read-only section
      obtain ⟨hclean, hreadOnly⟩ :=
        ((hrun.step rfl hperform).clean_pages_initial hintact hboot).1 0 p hp hlive
      obtain ⟨hdirty, hcache, hslot⟩ := hreadOnly 0
        { firstPage := 0, numPages := 1, readOnly := true, data := [7] }
        (himage ▸ List.mem_singleton_self _) rfl (by decide)
      have hpage := hclean 0 0 e (hpid ▸ he) hf (hdirty e (hpid ▸ he)) hcache
      rw [himage, hsize] at hpage
      exact ⟨k₀, k, k', trace, r, p, e, hboot, hall, hrun, hperform, hmem, hstack, hp, hlive, he,
        hf, hdirty e (hpid ▸ he), hcache, hpid ▸ hslot, hpage⟩
    · cases hk
  · cases hk

end DemandPaging.Kernel
