import DemandPaging.Proofs.Kernel.Simulation

/-!
# Searches for a frame

A thread looks for a frame when it misses a page that is not in memory, and once more whenever it
has waited for a swap slot. `Searches` says which threads are about to, and `Sound.search_run` what
comes of it.
-/

namespace DemandPaging.Kernel

variable {σ : Type} [Extent σ]

/-- A thread of a process is about to look for a frame for a page, in this way. -/
inductive Searches (k : Kernel σ) (n : Nat) (p : UserProcess) :
    Nat → PagingM σ Paging.FrameSearch → Prop where
  /-- it misses a page that is not in memory -/
  | missing {place address : Nat} {call : Call} {e : PageEntry}
      (hs : k.session n = some ⟨place, .busy call⟩) (hp : k.process place = some p)
      (hstage : call.stage = .faulting (.missing address))
      (he : k.paging.tables.find? ⟨p.pid, Address.page k.config.pageSize address⟩ = some e)
      (hvalid : e.valid = false) :
      Searches k n p (Address.page k.config.pageSize address) (Paging.findFrame p)
  /-- it goes on after it has waited for a slot -/
  | resuming {place page victim : Nat} {call : Call}
      (hs : k.session n = some ⟨place, .busy call⟩) (hp : k.process place = some p)
      (hstage : call.stage = .faulting (.resuming page victim)) :
      Searches k n p page (Paging.resumeSearch p victim)

variable [Extent.Reliable σ] {k : Kernel σ} {m : FlatMachine} {n page : Nat} {p : UserProcess}
  {search : PagingM σ Paging.FrameSearch} {callers : Multiset Nat}

namespace Sound

/-- A search ends with a frame; or with a victim that can only leave when a slot is free, and then
there was no free frame and no free slot. It fails only if every frame is pinned, be it the victim
of another thread that waits for a slot or pinned by a caller. -/
theorem search_run (h : k.Sound m callers) (hsearch : k.Searches n p page search)
    (counters : Counters) :
    (∃ found s', search { k.paging with counters } = .ok (.ok found, s') ∧
        s'.Searched k.live p.pid (k.othersVictims n + callers) m.page found ∧
        ∀ victim, found = .needsSlot victim →
          k.paging.frameTable.free = [] ∧ k.paging.swap.free = []) ∨
      (∃ s', search { k.paging with counters } = .ok (.error .noVictim, s')) ∧
        ∀ f < k.paging.frameTable.size, f ∈ k.othersVictims n + callers := by
  cases hsearch with
  | @missing place address call e hs hp hstage he hvalid =>
      have hcalling := h.calling hs hp
      obtain ⟨request, stage, moved⟩ := call
      obtain rfl : stage = .faulting (.missing address) := hstage
      have hpaging := (hcalling.paging_bare rfl rfl rfl).reset k.paging.policy k.paging.rng counters
      -- the page has an entry, so its process is alive
      obtain ⟨u, hu, -⟩ := hpaging.inverse.live_of_find? he
      obtain ⟨rfl, -⟩ := hcalling.eq_of_live hu
      rcases hpaging.findFrame_run rfl hu with ⟨found, s', hfind, hsearched, -, hspent⟩ | hnone
      · exact .inl ⟨found, s', hfind, hsearched, fun _ hfound => (hfound ▸ hspent).starved⟩
      · exact .inr hnone
  | @resuming place _ victim call hs hp hstage =>
      have hcalling := h.calling hs hp
      obtain ⟨request, stage, moved⟩ := call
      obtain rfl : stage = .faulting (.resuming page victim) := hstage
      have hpaging := (hcalling.paging_apart rfl rfl).reset k.paging.policy k.paging.rng counters
      obtain ⟨found, s', hresume, hsearched, -, hspent⟩ :=
        hpaging.resumeSearch_run (hcalling.victim_notMem rfl) (rfl : p.pid = p.pid)
      exact .inl ⟨found, s', hresume, hsearched, fun _ hfound => (hfound ▸ hspent).starved⟩

end Sound

end DemandPaging.Kernel
