import DemandPaging.Proofs.Kernel.Runs
import DemandPaging.Proofs.Paging.Access

/-!
# The mapping cache agrees with the page tables

While a thread has the processor, every valid entry of the cache is for a page of its process that
is in memory, in the frame and with the permission that the page table has for it. So an access
never reaches another process's frame, and no entry ever has a frame that is not there.
-/

namespace DemandPaging.Kernel

variable {σ : Type} [Extent σ] [Extent.Reliable σ]

/-- After every run the cache is empty if nobody has the processor. While a process is on the
processor the entries of the cache are those of its page table, no two are for the same page, and
there is none if the process has ended; and an access of the process misses, or is refused because
of a read-only entry, or finds the frame of its own page. -/
theorem Run.cache_agrees {c : Config} {extent : σ} (hintact : Extent.Reliable.Intact extent)
    {k₀ k : Kernel σ} (hboot : boot c extent = .ok (.ok k₀))
    {trace : List (Event × Option (Response σ))} (hrun : Run k₀ trace k) :
    (k.cpu.holder = none → ∀ e ∈ k.paging.processor.cache, e.valid = false) ∧
    ∀ (i : Nat) (p : UserProcess), k.OnProcessor i → k.processes[i]? = some p →
      (∀ e ∈ k.paging.processor.cache, e.valid = true →
        ∃ entry, k.paging.tables.find? ⟨p.pid, e.page⟩ = some entry ∧ entry.valid = true ∧
          entry.frame = some e.frame ∧ entry.readOnly = e.readOnly ∧
          e.frame < k.paging.processor.numFrames) ∧
      (∀ (a b : Nat) (e e' : Mapping), k.paging.processor.cache[a]? = some e →
        k.paging.processor.cache[b]? = some e' → e.valid = true → e'.valid = true →
          e.page = e'.page → a = b) ∧
      (p.exited = true → ∀ e ∈ k.paging.processor.cache, e.valid = false) ∧
      ∀ (address : Nat) (writing : Bool), ∃ r processor,
        k.paging.processor.locate address writing = .ok (r, processor) ∧
          (r = .error .miss ∨ r = .error .readOnly ∨
            ∃ l entry, r = .ok l ∧
              k.paging.tables.find? ⟨p.pid, Address.page k.config.pageSize address⟩ = some entry ∧
              entry.valid = true ∧ entry.frame = some l.frame) := by
  obtain ⟨m, -, hsound⟩ := hrun.simulated hintact hboot
  refine ⟨fun hnobody e he => ?_, fun i p hon hp => ?_⟩
  · obtain ⟨running, hpaging, hrunning⟩ := hsound.running
    cases running with
    | none => exact hpaging.empty_of_none he
    | some pid =>
        obtain ⟨-, -, -, -, n, s, hholder, -⟩ := hrunning pid rfl
        rw [hnobody] at hholder
        cases hholder
  · have hpaging := hsound.on_processor hon hp
    have hvalid : ∀ (v f : Nat) (entry : PageEntry), k.paging.tables.find? ⟨p.pid, v⟩ = some entry →
        entry.frame = some f → entry.valid = true := by
      intro v f entry hentry hframe
      rw [hpaging.inverse.valid_eq _ entry hentry, hframe]
      rfl
    refine ⟨fun e he hv => ?_, fun a b e e' ha hb hv hv' hpage => ?_, fun hexited => ?_,
      fun address writing => ?_⟩
    · obtain ⟨q, entry, hq, hentry, hframe, hro⟩ := hpaging.coherent.agrees e he hv
      obtain rfl := Option.some.inj hq
      exact ⟨entry, hentry, hvalid _ _ _ hentry hframe, hframe, hro,
        (hpaging.frame_of_resident hentry hframe).2.1⟩
    · exact hpaging.coherent.distinct.eq_of_page ha hb hv hv' hpage
    · have hend : k.live p.pid = none := by
        rw [hsound.live_eq hp, hexited]
        rfl
      exact hpaging.empty_of_ended hend
    · obtain ⟨r, processor, hlocate, hlocated⟩ := hpaging.locate_run address writing
      refine ⟨r, processor, hlocate, ?_⟩
      cases hlocated with
      | miss => exact .inl rfl
      | readOnly => exact .inr (.inl rfl)
      | hit hentry hframe =>
          rw [hsound.pageSize_eq] at hentry
          exact .inr (.inr ⟨_, _, rfl, hentry, hvalid _ _ _ hentry hframe, hframe⟩)

/-- A machine with two frames and two cache entries. -/
def twinConfig : Config := { smallConfig with frames := 2, cacheSize := 2 }

/-- Whether the page of the stack is in the first cache entry and that of the image in the second,
and the thread has the processor. -/
def cachesBoth (k : Kernel MemoryExtent) : Bool :=
  match k.session 0, k.processes[0]?, k.paging.processor.cache with
  | some s, some p, [a, b] =>
      decide (k.cpu.holder = some (threadOf 0) ∧ s.process = 0 ∧ p.pid = 1 ∧ a.valid = true ∧
        b.valid = true ∧ a.page = 1 ∧ b.page = 0)
  | _, _, _ => false

/-- Before there is a thread the cache is empty. After a store and a load on a machine with two
frames the pages of both are in the cache, and in the frames that the page table has. -/
theorem cache_agrees_small : ∃ (k₀ k : Kernel MemoryExtent)
    (trace : List (Event × Option (Response MemoryExtent))) (a b : Mapping),
    boot twinConfig (⟨.zeros 1⟩ : MemoryExtent) = .ok (.ok k₀) ∧
      (∀ e ∈ k₀.paging.processor.cache, e.valid = false) ∧
      k₀.performAll savedEvents = some (trace, k) ∧ Run k₀ trace k ∧ k.OnProcessor 0 ∧
      k.paging.processor.cache = [a, b] ∧
      (∃ entry, k.paging.tables.find? ⟨1, 1⟩ = some entry ∧ entry.valid = true ∧
        entry.frame = some a.frame ∧ entry.readOnly = a.readOnly ∧
        a.frame < k.paging.processor.numFrames) ∧
      (∃ entry, k.paging.tables.find? ⟨1, 0⟩ = some entry ∧ entry.valid = true ∧
        entry.frame = some b.frame ∧ entry.readOnly = b.readOnly ∧
        b.frame < k.paging.processor.numFrames) ∧
      a.page ≠ b.page ∧
      ∀ address writing, ∃ r processor,
        k.paging.processor.locate address writing = .ok (r, processor) ∧
          (r = .error .miss ∨ r = .error .readOnly ∨
            ∃ l entry, r = .ok l ∧
              k.paging.tables.find? ⟨1, Address.page k.config.pageSize address⟩ = some entry ∧
              entry.valid = true ∧ entry.frame = some l.frame) := by
  have hlast : holdsAfter twinConfig savedEvents cachesBoth = true := by decide +kernel
  obtain ⟨k₀, k, trace, hboot, hall, hrun, hk⟩ := run_of_holdsAfter (by decide) hlast
  have hintact : Extent.Reliable.Intact (⟨.zeros 1⟩ : MemoryExtent) :=
    MemoryExtent.intact_zeros (by decide)
  rw [cachesBoth] at hk
  split at hk
  · rename_i s p a b hs hp hcache
    obtain ⟨hholder, hplace, hpid, ha, hb, hpage, hpage'⟩ := of_decide_eq_true hk
    have hempty := (Run.nil.cache_agrees hintact hboot).1
    have hon : k.OnProcessor 0 := ⟨0, s, hholder, hs, hplace⟩
    obtain ⟨hagrees, hdistinct, -, hlocate⟩ := (hrun.cache_agrees hintact hboot).2 0 p hon hp
    rw [hcache] at hagrees hdistinct
    rw [hpid] at hagrees hlocate
    refine ⟨k₀, k, trace, a, b, hboot, hempty ?_, hall, hrun, hon, hcache, ?_, ?_,
      fun heq => absurd (hdistinct 0 1 a b rfl rfl ha hb heq) (by decide), hlocate⟩
    · obtain ⟨-, paging, -, rfl⟩ := exists_of_boot hboot
      rfl
    · have hfirst := hagrees a List.mem_cons_self ha
      rwa [hpage] at hfirst
    · have hsecond := hagrees b (List.mem_cons_of_mem _ List.mem_cons_self) hb
      rwa [hpage'] at hsecond
  · cases hk

end DemandPaging.Kernel
