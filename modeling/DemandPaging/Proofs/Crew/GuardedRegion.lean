import DemandPaging.Proofs.Crew.Guarding

/-!
# Interrupts guard the region

Interrupts belong to the worker that disabled them until it has taken back each of its disablings,
in whatever order, and meanwhile nobody else disables them or enters the region. Inside the region
there is one worker at most, which owns the interrupts; when it enters again it is halted, and
nothing has happened to the region. All this holds as long as no worker enables interrupts that it
has not disabled (`Run.region_guarded`).
-/

namespace DemandPaging.Crew

variable {c : Crew} {w u : ThreadId} {history : List Moment} {m : Moment}

/-- The interrupts and the region after what has happened to a crew. -/
structure GuardState (history : List Moment) (c : Crew) : Prop where
  owned : c.region.interrupts.owner.isSome = true ↔ 0 < c.region.interrupts.depth
  /-- the depth counts what the owner has yet to take back: its own disablings and its guards -/
  depth : ∀ w, c.region.interrupts.owner = some w →
    c.region.interrupts.depth + enablesOf history w =
      disablesOf history w + (c.guards w).1 + (c.guards w).2
  /-- nobody else has anything to take back -/
  others : ∀ w, c.region.interrupts.owner ≠ some w →
    enablesOf history w = disablesOf history w ∧ c.guards w = (0, 0)
  areOff : ∀ w, c.region.interrupts.areOff w = true ↔ c.region.interrupts.owner = some w
  /-- the owner is inside the region once at most, and nobody else is -/
  inside : ∀ w, 0 < (c.guards w).2 → (c.guards w).2 = 1 ∧ c.region.interrupts.owner = some w
  occupied : c.region.occupied = true ↔ ∃ w, 0 < (c.guards w).2

/-- What the calls that disable and enable interrupts may do. -/
structure Moment.GuardRules (m : Moment) : Prop where
  /-- interrupts are off for their owner, and for nobody else -/
  levels : m.command = some .level →
    m.answer = some (.level (m.before.region.interrupts.owner = some m.worker)) ∧
      m.after = m.before
  /-- who disables interrupts waits for another owner, or is the owner afterwards -/
  disables : ∀ phase, phase = .disabling ∨ phase = .holding → m.command = none →
    m.before.activity m.worker = some phase →
    (∃ u, m.before.region.interrupts.owner = some u ∧ u ≠ m.worker ∧ m.answer = none ∧
        m.after = m.before) ∨
      m.answer = some .done ∧ m.after.region.interrupts =
        ⟨some m.worker, m.before.region.interrupts.depth + 1⟩
  /-- who enters the region waits for another owner, or is inside afterwards; when it was inside
  before, it is halted, and nothing has happened to the region -/
  enters : m.command = none → m.before.activity m.worker = some .enteringRegion →
    (∃ u, m.before.region.interrupts.owner = some u ∧ u ≠ m.worker ∧ m.answer = none ∧
        m.after = m.before) ∨
      (m.before.region.occupied = false ∧ m.answer = some .done ∧ m.after.region =
        ⟨⟨some m.worker, m.before.region.interrupts.depth + 1⟩, true⟩ ∧
        (m.after.guards m.worker).2 = 1) ∨
      (m.before.guards m.worker).2 = 1 ∧ m.answer = some (.halted .regionReentered) ∧
        m.after = m.before.withActivity m.worker none
  /-- the interrupts are taken from their owner only when it takes its last disabling back, and then
  nobody owns them -/
  opens : ∀ w, m.before.region.interrupts.owner = some w →
    m.after.region.interrupts.owner ≠ some w →
    m.worker = w ∧ m.before.region.interrupts.depth = 1 ∧ m.after.region.interrupts = {} ∧
      ∃ guard : Guard, m.command = some guard.ending
  /-- who does not own the interrupts is halted when it enables them, and changes nothing -/
  refuses : m.command = some .enable → m.before.region.interrupts.owner ≠ some m.worker →
    m.answer = some (.halted .interruptsNotHeld) ∧ m.after = m.before
  /-- guards are given up in any order, and nobody is halted for it -/
  drops : m.command = some .unhold ∨ m.command = some .leave → ∀ halt,
    m.answer ≠ some (.halted halt)

namespace GuardSound

theorem guardState (h : GuardSound history c) : GuardState history c where
  owned := by
    rw [Option.isSome_iff_ne_none, Nat.pos_iff_ne_zero]
    exact not_congr h.sound
  depth w howner := by
    rw [← Interrupts.share_of_owner howner, h.balance w, Nat.add_assoc]
  others w howner := by
    have hbalance := h.balance w
    have hmatched := h.matched w
    rw [Interrupts.share_of_not_owner howner] at hbalance
    refine ⟨by omega, ?_⟩
    by_cases hguards : c.guards w = (0, 0)
    · exact hguards
    · exact absurd (h.owner_of_guards hguards) howner
  areOff _ := Interrupts.areOff_iff
  inside w hw := ⟨Nat.le_antisymm (h.entered_once w) hw, h.owner_of_entries hw⟩
  occupied := h.occupied_iff

/-- A worker that needs the interrupts of another one waits. -/
theorem waits_of_disable_eq_none (hm : m.Happens) (hcommand : m.command = none) {phase : Activity}
    (hbusy : m.before.activity m.worker = some phase)
    (hdisable : m.before.region.interrupts.disable m.worker = none)
    (hmoves : m.before.move m.worker phase = none) :
    ∃ u, m.before.region.interrupts.owner = some u ∧ u ≠ m.worker ∧ m.answer = none ∧
      m.after = m.before := by
  obtain ⟨u, howner, hother⟩ := Interrupts.disable_eq_none_iff.1 hdisable
  refine ⟨u, howner, hother, hm.waited hcommand (step_eq_none_iff.2 fun phase' hphase => ?_)⟩
  obtain rfl := Option.some.inj (hbusy.symm.trans hphase)
  exact hmoves

/-- Who gets at the interrupts enters an empty region, or is inside already. -/
theorem move_enteringRegion (h : GuardSound history c) {i : Interrupts}
    (hdisable : c.region.interrupts.disable w = some i) :
    (c.region.occupied = false ∧ (c.guards w).2 = 0 ∧ c.move w .enteringRegion =
        some (.inr .done, { c with region := ⟨i, true⟩ }.update w fun own =>
          { own with entries := own.entries + 1 })) ∨
      (c.guards w).2 = 1 ∧
        c.move w .enteringRegion = some (.inr (.halted .regionReentered), c) := by
  obtain ⟨⟨result, region⟩, henter⟩ : ∃ x, c.region.enter w = some x := by
    rw [CriticalRegion.enter, hdisable]
    exact ⟨_, rfl⟩
  rw [move, henter]
  rcases CriticalRegion.enter_cases henter h.sound with
    ⟨i', hdisable', hvacant, rfl, rfl⟩ | ⟨hoccupied, rfl, rfl⟩
  · obtain rfl := Option.some.inj (hdisable.symm.trans hdisable')
    -- nobody is inside, so the worker is not
    have hout : (c.guards w).2 = 0 := by
      refine Nat.eq_zero_of_not_pos fun hpos => ?_
      rw [h.occupied_iff.2 ⟨_, hpos⟩] at hvacant
      cases hvacant
    exact .inl ⟨hvacant, hout, rfl⟩
  · -- whoever is inside owns the interrupts, which are the worker's
    obtain ⟨u, hu⟩ := h.occupied_iff.1 hoccupied
    have howner := h.owner_of_entries hu
    have hself : u = w := by
      rcases (Interrupts.disable_eq_some hdisable h.sound).1 with hfree | hself
      · cases howner.symm.trans hfree
      · exact Option.some.inj (howner.symm.trans hself)
    rw [hself] at hu
    exact .inr ⟨Nat.le_antisymm (h.entered_once _) hu, rfl⟩

theorem guardRules (h : GuardSound history m.before) (hm : m.Happens) : m.GuardRules where
  levels hcommand := hm.performed hcommand rfl
  disables phase hphase hcommand hbusy := by
    cases hdisable : m.before.region.interrupts.disable m.worker with
    | none =>
        refine .inl (waits_of_disable_eq_none hm hcommand hbusy hdisable ?_)
        rcases hphase with rfl | rfl <;> rw [move, hdisable] <;> rfl
    | some i =>
        obtain ⟨-, hi⟩ := Interrupts.disable_eq_some hdisable h.sound
        obtain ⟨c, hmoves, hregion⟩ : ∃ c, m.before.move m.worker phase = some (.inr .done, c) ∧
            c.region.interrupts = i := by
          rcases hphase with rfl | rfl <;> rw [move, hdisable] <;> exact ⟨_, rfl, rfl⟩
        obtain ⟨hanswer, hafter⟩ := hm.moved hcommand hbusy hmoves
        refine .inr ⟨hanswer, ?_⟩
        rw [hafter, ← hi, ← hregion]
        rfl
  enters hcommand hbusy := by
    cases hdisable : m.before.region.interrupts.disable m.worker with
    | none =>
        refine .inl (waits_of_disable_eq_none hm hcommand hbusy hdisable ?_)
        rw [move, CriticalRegion.enter, hdisable]
        rfl
    | some i =>
        have hi := (Interrupts.disable_eq_some hdisable h.sound).2
        rcases h.move_enteringRegion hdisable with ⟨hvacant, hout, hmoves⟩ | ⟨hinside, hmoves⟩
        · obtain ⟨hanswer, hafter⟩ := hm.moved hcommand hbusy hmoves
          refine .inr (.inl ⟨hvacant, hanswer, by rw [hafter, ← hi]; rfl, ?_⟩)
          rw [hafter, guards_withActivity]
          exact (congrArg Prod.snd (guards_update_self hm.1 _)).trans (congrArg Nat.succ hout)
        · exact .inr (.inr ⟨hinside, hm.moved hcommand hbusy hmoves⟩)
  opens w howner hafter := by
    cases h.guardKind hm with
    | stays region_eq _ _ _ =>
        rw [region_eq] at hafter
        exact absurd howner hafter
    | deepens guard i disable _ region_eq _ _ _ =>
        obtain ⟨hbefore, rfl⟩ := Interrupts.disable_eq_some disable h.sound
        rw [region_eq] at hafter
        rcases hbefore with hfree | hself
        · cases howner.symm.trans hfree
        · exact absurd (hself.symm.trans howner) hafter
    | eases guard i hcommand enable region_eq _ _ _ =>
        have hself := Interrupts.owner_of_enable enable
        obtain rfl := Option.some.inj (hself.symm.trans howner)
        rw [Interrupts.enable_of_owner hself] at enable
        obtain rfl := Except.ok.inj enable
        rw [region_eq] at hafter ⊢
        by_cases hlast : m.before.region.interrupts.depth = 1
        · exact ⟨rfl, hlast, by rw [if_pos hlast, hlast], guard, hcommand⟩
        · rw [if_neg hlast] at hafter
          exact absurd rfl hafter
  refuses hcommand howner := hm.performed hcommand (perform_enable_of_not_owner howner)
  drops hcommand halt hanswer := by
    obtain ⟨guard, hguard, hending⟩ :
        ∃ guard : Guard, guard ≠ .plain ∧ m.command = some guard.ending := by
      rcases hcommand with hcommand | hcommand
      · exact ⟨.hold, by decide, hcommand⟩
      · exact ⟨.stay, by decide, hcommand⟩
    rcases perform_drop hguard hm.1 h.owner_of_guards with hsame | ⟨_, _, -, hperforms, -, -⟩
    · cases hanswer.symm.trans (hm.performed hending hsame).1
    · cases hanswer.symm.trans (hm.performed hending hperforms).1

end GuardSound

/-- Interrupts guard the region, in every state that a crew can get to without enabling what was not
disabled, and whatever happens next. -/
theorem Run.region_guarded {workers value : Nat} (h : Run workers value history c)
    (hmatched : Matched history) :
    GuardState history c ∧ ∀ m : Moment, m.before = c → m.Happens → m.GuardRules := by
  have hsound := h.guardSound hmatched
  refine ⟨hsound.guardState, ?_⟩
  rintro m rfl hm
  exact hsound.guardRules hm

/-- One worker disables interrupts in three ways, enters the region twice, and takes everything back
in another order, while a second one waits to disable them. A third one enables what is not its
own. -/
def nestedOrders : List (ThreadId × Option Command) :=
  [(0, some .disable), (0, none), (0, some .hold), (0, none), (1, some .disable), (1, none),
    (0, some .enter), (0, none), (0, some .enter), (0, none), (0, some .unhold), (1, none),
    (0, some .enable), (2, some .enable), (2, some .level), (0, some .level), (1, none),
    (0, some .leave), (1, none), (1, some .enable), (2, some .enter), (2, none)]

theorem region_guarded_nested : ∃ history c, (ofSize 3 0).play nestedOrders = some (history, c) ∧
    Run 3 0 history c ∧ Matched history ∧
    history.filterMap Moment.answer = [.done, .done, .done, .halted .regionReentered, .flag true,
      .done, .halted .interruptsNotHeld, .level false, .level true, .flag true, .done, .done,
      .done] ∧
    c.region = ⟨⟨some 2, 1⟩, true⟩ ∧ GuardState history c ∧
    ∀ m : Moment, m.before = c → m.Happens → m.GuardRules := by
  have hplay : ((ofSize 3 0).play nestedOrders).map (fun played =>
      (decide (Matched played.1), played.1.filterMap Moment.answer, played.2.region)) =
      some (true, [.done, .done, .done, .halted .regionReentered, .flag true, .done,
        .halted .interruptsNotHeld, .level false, .level true, .flag true, .done, .done, .done],
        ⟨⟨some 2, 1⟩, true⟩) := by
    decide +kernel
  obtain ⟨⟨history, c⟩, hplay, heq⟩ := Option.map_eq_some_iff.1 hplay
  obtain ⟨hmatched, heq⟩ := Prod.mk.inj heq
  obtain ⟨hanswers, hregion⟩ := Prod.mk.inj heq
  have hmatched := of_decide_eq_true hmatched
  have hrun : Run 3 0 history c := Run.nil.play hplay
  exact ⟨history, c, hplay, hrun, hmatched, hanswers, hregion, Run.region_guarded hrun hmatched⟩

end DemandPaging.Crew
