import Mathlib.Algebra.BigOperators.Group.Multiset.Basic
import Mathlib.Algebra.Order.Group.Multiset

/-!
# Who waits, who was woken, and what is free

All that matters for the wait for swap slots is how many slots and frames are free, how every thread
stands, and which victims still have an owner. `Ledger.Step` says what one step of the kernel can do
to this. Two things hold as long as somebody waits and nobody is about to wake everyone: the free
slots are spoken for (`Ledger.Balanced`), and no frame is free (`Ledger.Exhausted`).

The threads form a multiset, for it does not matter which of them stands how.
-/

namespace DemandPaging

/-- How a thread stands to those who wait for a swap slot. -/
inductive Standing where
  /-- it waits with this victim, and nobody has woken it -/
  | dormant (victim : Nat)
  /-- it was woken, and is about to go on with this victim -/
  | roused (victim : Nat)
  /-- it has to wake so many others; none, if it has nothing to do with the wait -/
  | owing (left : Nat)
  /-- it has ended its process, and has to wake everyone -/
  | mourning
deriving DecidableEq

namespace Standing

/-- The frame that a thread keeps while it waits, and until it goes on. -/
def victim? : Standing → Option Nat
  | dormant victim | roused victim => some victim
  | owing _ | mourning => none

/-- How many of the free slots a thread speaks for: the one that it was woken for, if its victim
still needs one, or those for which it wakes others. -/
def credit (owned : Nat → Bool) : Standing → Nat
  | roused victim => (owned victim).toNat
  | owing left => left
  | dormant _ | mourning => 0

/-- How a thread stands after everyone was woken. -/
def rouse : Standing → Standing
  | dormant victim => roused victim
  | x => x

theorem rouse_ne_dormant (x : Standing) (victim : Nat) : x.rouse ≠ dormant victim := by
  cases x <;> exact nofun

theorem victim?_rouse (x : Standing) : x.rouse.victim? = x.victim? := by
  cases x <;> rfl

/-- Waking everyone does nothing when nobody waits. -/
theorem map_rouse {threads : Multiset Standing} (h : ∀ victim, dormant victim ∉ threads) :
    threads.map rouse = threads := by
  refine (Multiset.map_congr rfl fun x hx => ?_).trans threads.map_id
  cases x with
  | dormant victim => exact absurd hx (h victim)
  | _ => rfl

/-- Whether a thread may be looking for a frame: it has nothing to do with the wait, or it was
woken. -/
def isSearching : Standing → Bool
  | owing 0 | roused _ => true
  | _ => false

end Standing

/-- What matters for the wait for swap slots. -/
structure Ledger where
  standings : Multiset Standing
  /-- how many swap slots are free -/
  slots : Nat
  /-- how many frames are free -/
  frames : Nat
  /-- whether a frame has a page -/
  owned : Nat → Bool

namespace Ledger

/-- The free slots that threads speak for. -/
def credit (l : Ledger) : Nat := (l.standings.map (Standing.credit l.owned)).sum

/-- A thread waits that nobody has woken. -/
def Waited (l : Ledger) : Prop := ∃ victim, .dormant victim ∈ l.standings

/-- The victims of some threads are as they were. -/
def Spared (threads : Multiset Standing) (owned owned' : Nat → Bool) : Prop :=
  ∀ x ∈ threads, ∀ victim, x.victim? = some victim → owned' victim = owned victim

/-- What one step of the kernel can do. A thread that goes on after its wait may find its process
`gone`, or give its frame `back` since another thread has brought the page in. -/
inductive Step (gone back : Prop) : Ledger → Ledger → Prop where
  /-- nothing happens that anyone could notice -/
  | still (l : Ledger) : Step gone back l l
  /-- a thread is added -/
  | arrive (l : Ledger) : Step gone back l { l with standings := .owing 0 ::ₘ l.standings }
  /-- a search for a frame is over; the thread now has to wake `left` others -/
  | settle {x : Standing} {rest : Multiset Standing} {slots slots' frames frames' left : Nat}
      {owned owned' : Nat → Bool} (hx : x.isSearching = true)
      (hspared : Spared rest owned owned')
      (hslots : ¬ gone → slots' ≤ slots - x.credit owned + left)
      (hframes : ¬ back → frames = 0 → frames' = 0) :
      Step gone back ⟨x ::ₘ rest, slots, frames, owned⟩
        ⟨.owing left ::ₘ rest, slots', frames', owned'⟩
  /-- a search for a frame needs a slot, and there is none -/
  | sleep {x : Standing} {rest : Multiset Standing} {victim : Nat} {owned owned' : Nat → Bool}
      (hx : x.isSearching = true) (hspared : Spared rest owned owned')
      (howned : owned' victim = true) :
      Step gone back ⟨x ::ₘ rest, 0, 0, owned⟩ ⟨.dormant victim ::ₘ rest, 0, 0, owned'⟩
  /-- one thread wakes another one -/
  | wake {rest : Multiset Standing} {left victim slots frames : Nat} {owned : Nat → Bool} :
      Step gone back ⟨.owing (left + 1) ::ₘ .dormant victim ::ₘ rest, slots, frames, owned⟩
        ⟨.owing left ::ₘ .roused victim ::ₘ rest, slots, frames, owned⟩
  /-- a thread is to wake another one, and nobody waits -/
  | vain {rest : Multiset Standing} {left slots frames : Nat} {owned : Nat → Bool}
      (hnone : ∀ victim, .dormant victim ∉ rest) :
      Step gone back ⟨.owing (left + 1) ::ₘ rest, slots, frames, owned⟩
        ⟨.owing left ::ₘ rest, slots, frames, owned⟩
  /-- a thread ends its process -/
  | mourn {rest : Multiset Standing} {slots slots' frames frames' : Nat}
      {owned owned' : Nat → Bool} :
      Step gone back ⟨.owing 0 ::ₘ rest, slots, frames, owned⟩
        ⟨.mourning ::ₘ rest, slots', frames', owned'⟩
  /-- a thread that has ended its process wakes everyone -/
  | wakeAll {rest : Multiset Standing} {slots frames : Nat} {owned : Nat → Bool} :
      Step gone back ⟨.mourning ::ₘ rest, slots, frames, owned⟩
        ⟨.owing 0 ::ₘ rest.map Standing.rouse, slots, frames, owned⟩

variable {l l' : Ledger} {x : Standing} {rest : Multiset Standing} {slots frames : Nat}
  {owned owned' : Nat → Bool} {gone back : Prop}

/-! ## Who waits -/

/-- A thread that is to wake others is not one that waits. -/
theorem waited_owing {left : Nat} (h : Waited ⟨.owing left ::ₘ rest, slots, frames, owned⟩) :
    ∃ victim, .dormant victim ∈ rest := by
  obtain ⟨victim, hmem⟩ := h
  rcases Multiset.mem_cons.1 hmem with heq | hmem
  · cases heq
  · exact ⟨victim, hmem⟩

/-- Nobody waits after everyone was woken. -/
theorem not_waited_rouse {left : Nat} :
    ¬ Waited ⟨.owing left ::ₘ rest.map Standing.rouse, slots, frames, owned⟩ := by
  intro h
  obtain ⟨victim, hmem⟩ := waited_owing h
  obtain ⟨y, -, heq⟩ := Multiset.mem_map.1 hmem
  exact y.rouse_ne_dormant victim heq

theorem mourning_of_searching (hx : x.isSearching = true) (h : .mourning ∈ x ::ₘ rest) :
    .mourning ∈ rest := by
  rcases Multiset.mem_cons.1 h with rfl | h
  · cases hx
  · exact h

/-- Whoever is to wake everyone does so before anyone goes on without it. -/
theorem Step.mourning (h : Step gone back l l') (hl : .mourning ∈ l.standings) :
    .mourning ∈ l'.standings ∨ ¬ l'.Waited := by
  cases h with
  | still => exact .inl hl
  | arrive => exact .inl (Multiset.mem_cons_of_mem hl)
  | settle hx | sleep hx =>
      exact .inl (Multiset.mem_cons_of_mem (mourning_of_searching hx hl))
  | wake => exact .inl (by simpa using hl)
  | vain => exact .inl (by simpa using hl)
  | mourn => exact .inl (Multiset.mem_cons_self _ _)
  | wakeAll => exact .inr not_waited_rouse

theorem Spared.sum_credit (h : Spared rest owned owned') :
    (rest.map (Standing.credit owned')).sum = (rest.map (Standing.credit owned)).sum := by
  refine congrArg Multiset.sum (Multiset.map_congr rfl fun y hy => ?_)
  cases y with
  | roused victim => exact congrArg Bool.toNat (h _ hy victim rfl)
  | _ => rfl

/-- When nobody waits, a thread begins to wait only if no slot and no frame is free. -/
theorem Step.starved (h : Step gone back l l') (hnone : ∀ y ∈ l.standings, y.victim? = none)
    {y : Standing} {victim : Nat} (hy : y ∈ l'.standings) (hvictim : y.victim? = some victim) :
    l.slots = 0 ∧ l.frames = 0 := by
  have hold : ∀ z ∈ l.standings, z.victim? ≠ some victim := fun z hz heq => by
    rw [hnone z hz] at heq
    cases heq
  -- whoever waits afterwards is the one that the step is about
  have hself : ∀ {z : Standing} {others : Multiset Standing}, z.victim? = none →
      y ∈ z ::ₘ others → y ∈ others := by
    intro z others hz hmem
    refine (Multiset.mem_cons.1 hmem).resolve_left ?_
    rintro rfl
    rw [hz] at hvictim
    cases hvictim
  cases h with
  | still => exact absurd hvictim (hold y hy)
  | arrive => exact absurd hvictim (hold y (hself rfl hy))
  | settle => exact absurd hvictim (hold y (Multiset.mem_cons_of_mem (hself rfl hy)))
  | sleep => exact ⟨rfl, rfl⟩
  | @wake rest left other =>
      have hmem : Standing.dormant other ∈ Standing.owing (left + 1) ::ₘ .dormant other ::ₘ rest :=
        Multiset.mem_cons_of_mem (Multiset.mem_cons_self _ _)
      exact absurd (hnone _ hmem) nofun
  | vain => exact absurd hvictim (hold y (Multiset.mem_cons_of_mem (hself rfl hy)))
  | mourn => exact absurd hvictim (hold y (Multiset.mem_cons_of_mem (hself rfl hy)))
  | wakeAll =>
      obtain ⟨z, hz, rfl⟩ := Multiset.mem_map.1 (hself rfl hy)
      have hz := hold z (Multiset.mem_cons_of_mem hz)
      exact absurd (z.victim?_rouse ▸ hvictim) hz

/-! ## The free slots are spoken for -/

theorem credit_cons : credit ⟨x ::ₘ rest, slots, frames, owned⟩ =
    x.credit owned + (rest.map (Standing.credit owned)).sum := by
  rw [credit, Multiset.map_cons, Multiset.sum_cons]

/-- Threads speak for all free slots, and whoever waits still needs a slot. -/
structure Covered (l : Ledger) : Prop where
  slots_le : l.slots ≤ l.credit
  owned : ∀ victim, .dormant victim ∈ l.standings → l.owned victim = true

/-- While a thread waits all free slots are spoken for, unless everyone is about to be woken. -/
def Balanced (l : Ledger) : Prop := l.Waited → .mourning ∈ l.standings ∨ l.Covered

namespace Balanced

theorem settle {slots' frames' left : Nat}
    (h : Balanced ⟨x ::ₘ rest, slots, frames, owned⟩) (hx : x.isSearching = true)
    (hspared : Spared rest owned owned') (hslots : slots' ≤ slots - x.credit owned + left) :
    Balanced ⟨.owing left ::ₘ rest, slots', frames', owned'⟩ := by
  intro hwaited
  obtain ⟨victim, hmem⟩ := waited_owing hwaited
  rcases h ⟨victim, Multiset.mem_cons_of_mem hmem⟩ with hmourning | ⟨hle, hneeds⟩
  · exact .inl (Multiset.mem_cons_of_mem (mourning_of_searching hx hmourning))
  · refine .inr ⟨?_, fun victim' hmem' => ?_⟩
    · -- what the thread spoke for is spent, and for the rest there are those it wakes
      rw [credit_cons] at hle
      rw [credit_cons, hspared.sum_credit]
      have hleft : Standing.credit owned' (.owing left) = left := rfl
      have hle : slots ≤ _ := hle
      show slots' ≤ _
      omega
    · rcases Multiset.mem_cons.1 hmem' with heq | hmem'
      · cases heq
      · exact (hspared _ hmem' victim' rfl).trans
          (hneeds victim' (Multiset.mem_cons_of_mem hmem'))

theorem sleep {victim : Nat} (h : Balanced ⟨x ::ₘ rest, slots, frames, owned⟩)
    (hx : x.isSearching = true) (hspared : Spared rest owned owned')
    (howned : owned' victim = true) :
    Balanced ⟨.dormant victim ::ₘ rest, 0, 0, owned'⟩ := by
  intro _
  by_cases hmourning : Standing.mourning ∈ rest
  · exact .inl (Multiset.mem_cons_of_mem hmourning)
  · refine .inr ⟨Nat.zero_le _, fun victim' hmem => ?_⟩
    rcases Multiset.mem_cons.1 hmem with heq | hmem
    · obtain rfl := Standing.dormant.inj heq
      exact howned
    · refine (hspared _ hmem victim' rfl).trans ?_
      rcases h ⟨victim', Multiset.mem_cons_of_mem hmem⟩ with hmourning' | hcovered
      · exact absurd (mourning_of_searching hx hmourning') hmourning
      · exact hcovered.owned victim' (Multiset.mem_cons_of_mem hmem)

/-- The slot that the one thread spoke for is the one that the other thread was woken for. -/
theorem wake {left victim : Nat}
    (h : Balanced ⟨.owing (left + 1) ::ₘ .dormant victim ::ₘ rest, slots, frames, owned⟩) :
    Balanced ⟨.owing left ::ₘ .roused victim ::ₘ rest, slots, frames, owned⟩ := by
  have hwaits : Standing.dormant victim ∈ Standing.owing (left + 1) ::ₘ .dormant victim ::ₘ rest :=
    Multiset.mem_cons_of_mem (Multiset.mem_cons_self _ _)
  intro _
  rcases h ⟨victim, hwaits⟩ with hmourning | ⟨hle, hneeds⟩
  · refine .inl ?_
    simpa using hmourning
  · refine .inr ⟨?_, fun victim' hmem => hneeds victim' ?_⟩
    · have howned : owned victim = true := hneeds victim hwaits
      rw [credit_cons, Multiset.map_cons, Multiset.sum_cons] at hle ⊢
      simp only [Standing.credit, howned, Bool.toNat_true] at hle ⊢
      omega
    · simp only [Multiset.mem_cons, reduceCtorEq, false_or] at hmem ⊢
      exact .inr hmem

end Balanced

/-- Unless a thread finds its process gone while others wait, the free slots stay spoken for. -/
theorem Step.balanced (h : Step gone back l l') (hgone : gone → ¬ l.Waited) (hl : l.Balanced) :
    l'.Balanced := by
  cases h with
  | still => exact hl
  | arrive =>
      intro hwaited
      obtain ⟨victim, hmem⟩ := waited_owing hwaited
      rcases hl ⟨victim, hmem⟩ with hmourning | ⟨hle, hneeds⟩
      · exact .inl (Multiset.mem_cons_of_mem hmourning)
      · refine .inr ⟨?_, fun victim' hmem' => hneeds victim' (by simpa using hmem')⟩
        rw [credit_cons]
        exact Nat.le_add_left_of_le hle
  | settle hx hspared hslots _ =>
      by_cases hg : gone
      · -- nobody waits, so there is nobody to lose a slot
        intro hwaited
        obtain ⟨victim, hmem⟩ := waited_owing hwaited
        exact absurd ⟨victim, Multiset.mem_cons_of_mem hmem⟩ (hgone hg)
      · exact hl.settle hx hspared (hslots hg)
  | sleep hx hspared howned => exact hl.sleep hx hspared howned
  | wake => exact hl.wake
  | vain hnone =>
      intro hwaited
      obtain ⟨victim, hmem⟩ := waited_owing hwaited
      exact absurd hmem (hnone victim)
  | mourn => exact fun _ => .inl (Multiset.mem_cons_self _ _)
  | wakeAll => exact fun hwaited => absurd hwaited not_waited_rouse

/-! ## No frame is free -/

/-- While a thread waits no frame is free, unless everyone is about to be woken. -/
def Exhausted (l : Ledger) : Prop := l.Waited → .mourning ∈ l.standings ∨ l.frames = 0

/-- Unless a thread gives its frame back while others wait, no frame becomes free. -/
theorem Step.exhausted (h : Step gone back l l') (hback : back → ¬ l.Waited) (hl : l.Exhausted) :
    l'.Exhausted := by
  cases h with
  | still => exact hl
  | arrive =>
      intro hwaited
      obtain ⟨victim, hmem⟩ := waited_owing hwaited
      exact (hl ⟨victim, hmem⟩).imp_left Multiset.mem_cons_of_mem
  | @settle x rest _ _ _ _ _ _ _ hx _ _ hframes =>
      intro hwaited
      obtain ⟨victim, hmem⟩ := waited_owing hwaited
      have hmem : .dormant victim ∈ x ::ₘ rest := Multiset.mem_cons_of_mem hmem
      have hkept : ¬ back := fun hb => hback hb ⟨victim, hmem⟩
      exact (hl ⟨victim, hmem⟩).imp
        (fun hm => Multiset.mem_cons_of_mem (mourning_of_searching hx hm)) (hframes hkept)
  | sleep => exact fun _ => .inr rfl
  | @wake rest left victim =>
      intro _
      have hwaits :
          Standing.dormant victim ∈ Standing.owing (left + 1) ::ₘ .dormant victim ::ₘ rest :=
        Multiset.mem_cons_of_mem (Multiset.mem_cons_self _ _)
      refine (hl ⟨victim, hwaits⟩).imp_left fun hm => ?_
      simpa using hm
  | vain hnone =>
      intro hwaited
      obtain ⟨victim, hmem⟩ := waited_owing hwaited
      exact absurd hmem (hnone victim)
  | mourn => exact fun _ => .inl (Multiset.mem_cons_self _ _)
  | wakeAll => exact fun hwaited => absurd hwaited not_waited_rouse

end Ledger

end DemandPaging
