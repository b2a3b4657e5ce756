import DemandPaging.Sync.CriticalRegion

/-!
# Disabling and enabling interrupts

As long as the interrupts belong to someone just when they are disabled (`Interrupts.Sound`), what a
thread disables and enables adds up in its share of them, and in nobody else's. A thread enters an
empty region; from an occupied one it comes away with the interrupts as they were.
-/

namespace DemandPaging

namespace Interrupts

variable {i i' : Interrupts} {t u : ThreadId}

/-- Interrupts belong to someone as long as they are disabled. -/
def Sound (i : Interrupts) : Prop := i.owner = none ↔ i.depth = 0

/-- How often a thread has interrupts disabled. -/
def share (i : Interrupts) (t : ThreadId) : Nat := if i.owner = some t then i.depth else 0

theorem areOff_iff : i.areOff t = true ↔ i.owner = some t := decide_eq_true_iff

theorem disable_eq_none_iff : i.disable t = none ↔ ∃ u, i.owner = some u ∧ u ≠ t := by
  rw [disable]
  split
  · rename_i hfree
    exact ⟨nofun, fun ⟨_, hu, _⟩ => by rw [hfree] at hu; cases hu⟩
  · rename_i u hu
    split
    · rename_i hself
      refine ⟨nofun, fun ⟨v, hv, hne⟩ => absurd ?_ hne⟩
      exact Option.some.inj (hv.symm.trans (hu.trans (congrArg some hself)))
    · rename_i hother
      exact ⟨fun _ => ⟨u, hu, hother⟩, fun _ => rfl⟩

theorem disable_eq_some (h : i.disable t = some i') (hsound : i.Sound) :
    (i.owner = none ∨ i.owner = some t) ∧ i' = ⟨some t, i.depth + 1⟩ := by
  rw [disable] at h
  split at h
  · rename_i hfree
    obtain rfl := Option.some.inj h
    rw [hsound.1 hfree]
    exact ⟨.inl hfree, rfl⟩
  · rename_i u hu
    split at h
    · rename_i hself
      obtain rfl := Option.some.inj h
      rw [hu, hself]
      exact ⟨.inr rfl, rfl⟩
    · cases h

theorem enable_of_owner (h : i.owner = some t) :
    i.enable t = .ok ⟨if i.depth = 1 then none else some t, i.depth - 1⟩ := by
  rw [enable, if_pos (areOff_iff.2 h), h]

theorem enable_of_not_owner (h : i.owner ≠ some t) : i.enable t = .error .interruptsNotHeld :=
  if_neg fun hoff => h (areOff_iff.1 hoff)

theorem owner_of_enable (h : i.enable t = .ok i') : i.owner = some t := by
  by_cases howner : i.owner = some t
  · exact howner
  · rw [enable_of_not_owner howner] at h
    cases h

/-- Disabling and enabling again changes nothing. -/
theorem enable_disable (h : i.disable t = some i') (hsound : i.Sound) : i'.enable t = .ok i := by
  obtain ⟨howner, rfl⟩ := disable_eq_some h hsound
  rw [enable_of_owner rfl]
  obtain ⟨owner, depth⟩ := i
  rcases howner with rfl | rfl
  · obtain rfl : depth = 0 := hsound.1 rfl
    rfl
  · have hdepth : depth ≠ 0 := fun h => Option.some_ne_none t (hsound.2 h)
    rw [if_neg fun h => hdepth (Nat.succ.inj h)]
    rfl

theorem share_of_owner (h : i.owner = some t) : i.share t = i.depth := if_pos h

theorem share_of_not_owner (h : i.owner ≠ some t) : i.share t = 0 := if_neg h

theorem share_pos_iff (hsound : i.Sound) : 0 < i.share t ↔ i.owner = some t := by
  by_cases h : i.owner = some t
  · rw [share_of_owner h]
    refine ⟨fun _ => h, fun _ => Nat.pos_of_ne_zero fun hdepth => ?_⟩
    rw [hsound.2 hdepth] at h
    cases h
  · rw [share_of_not_owner h]
    exact ⟨nofun, fun howner => absurd howner h⟩

/-- Disabling deepens the share of the thread that disables. -/
theorem share_disable (h : i.disable t = some i') (hsound : i.Sound) (u : ThreadId) :
    i'.share u = i.share u + if t = u then 1 else 0 := by
  obtain ⟨howner, rfl⟩ := disable_eq_some h hsound
  by_cases hu : t = u
  · subst hu
    rw [if_pos rfl, share_of_owner rfl]
    rcases howner with hfree | hself
    · rw [share_of_not_owner (by rw [hfree]; exact nofun), hsound.1 hfree]
    · rw [share_of_owner hself]
  · have hne : some t ≠ some u := fun h => hu (Option.some.inj h)
    rw [if_neg hu, share_of_not_owner hne]
    rcases howner with hfree | hself
    · rw [share_of_not_owner (by rw [hfree]; exact nofun)]
    · rw [share_of_not_owner (by rw [hself]; exact hne)]

/-- Enabling eases the share of the thread that enables. -/
theorem share_enable (h : i.enable t = .ok i') (hsound : i.Sound) (u : ThreadId) :
    (i'.share u + if t = u then 1 else 0) = i.share u := by
  have howner := owner_of_enable h
  have hpos : 0 < i.depth := share_of_owner howner ▸ (share_pos_iff hsound).2 howner
  rw [enable_of_owner howner] at h
  obtain rfl := Except.ok.inj h
  by_cases hu : t = u
  · subst hu
    rw [if_pos rfl, share_of_owner howner]
    by_cases hlast : i.depth = 1
    · simp [share, hlast]
    · simp only [share, if_neg hlast]
      exact Nat.sub_add_cancel hpos
  · have hne : some t ≠ some u := fun h => hu (Option.some.inj h)
    have hafter : (if i.depth = 1 then none else some t) ≠ some u := by
      split
      · exact nofun
      · exact hne
    have hbefore : i.owner ≠ some u := by
      rw [howner]
      exact hne
    rw [if_neg hu, share_of_not_owner hbefore, share_of_not_owner hafter]

theorem Sound.disable (hsound : i.Sound) (h : i.disable t = some i') : i'.Sound := by
  obtain ⟨-, rfl⟩ := disable_eq_some h hsound
  exact ⟨nofun, nofun⟩

theorem Sound.enable (hsound : i.Sound) (h : i.enable t = .ok i') : i'.Sound := by
  have howner := owner_of_enable h
  have hpos : 0 < i.depth := share_of_owner howner ▸ (share_pos_iff hsound).2 howner
  rw [enable_of_owner howner] at h
  obtain rfl := Except.ok.inj h
  rw [Sound]
  split
  · rename_i hlast
    rw [hlast]
    exact ⟨fun _ => rfl, fun _ => rfl⟩
  · rename_i hmore
    exact ⟨nofun, fun hzero =>
      absurd (Nat.le_antisymm (Nat.sub_eq_zero_iff_le.1 hzero) hpos) hmore⟩

end Interrupts

namespace CriticalRegion

variable {r r' : CriticalRegion} {t : ThreadId}

/-- The region is entered when it is empty. Otherwise nothing happens to it. -/
theorem enter_cases {result : Except Halt Unit} (h : r.enter t = some (result, r'))
    (hsound : r.interrupts.Sound) :
    (∃ i, r.interrupts.disable t = some i ∧ r.occupied = false ∧ result = .ok () ∧
        r' = ⟨i, true⟩) ∨
      r.occupied = true ∧ result = .error .regionReentered ∧ r' = r := by
  obtain ⟨i, hdisable, heq⟩ := Option.map_eq_some_iff.1 h
  cases hoccupied : r.occupied with
  | false =>
      rw [hoccupied] at heq
      obtain ⟨rfl, rfl⟩ := Prod.mk.inj heq
      exact .inl ⟨i, hdisable, rfl, rfl, rfl⟩
  | true =>
      rw [hoccupied, Interrupts.enable_disable hdisable hsound] at heq
      obtain ⟨rfl, rfl⟩ := Prod.mk.inj heq
      exact .inr ⟨rfl, rfl, by rw [← hoccupied]⟩

end CriticalRegion

end DemandPaging
