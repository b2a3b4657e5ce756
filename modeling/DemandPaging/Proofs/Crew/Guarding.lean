import DemandPaging.Proofs.Crew.Runs
import DemandPaging.Proofs.CriticalRegion

/-!
# What a moment does to the critical region

Interrupts are disabled by `disable`, by `hold` and on the way into the region, and each has a
counterpart that enables them again. `Moment.Happens.guardKind` lists everything that a moment can
do to them, and `Moment.Happens.share_balance` says that the depth of the interrupts keeps count of
it, as long as no worker enables what it did not disable.
-/

namespace DemandPaging

/-- What keeps interrupts disabled. -/
inductive Guard where
  /-- a `disable` -/
  | plain
  /-- a `hold` -/
  | hold
  /-- a stay in the region -/
  | stay
deriving DecidableEq

/-- The command that takes a guard back. -/
def Guard.ending : Guard → Command
  | .plain => .enable
  | .hold => .unhold
  | .stay => .leave

/-- The `hold`s and stays of a worker with one guard more. -/
def Guard.addTo : Guard → Nat × Nat → Nat × Nat
  | .plain, guards => guards
  | .hold, (holds, entries) => (holds + 1, entries)
  | .stay, (holds, entries) => (holds, entries + 1)

theorem Guard.sum_addTo (guard : Guard) (guards : Nat × Nat) :
    (guard.addTo guards).1 + (guard.addTo guards).2 + (if guard = .plain then 1 else 0) =
      guards.1 + guards.2 + 1 := by
  cases guard with
  | plain => rfl
  | hold => exact Nat.add_right_comm guards.1 1 guards.2
  | stay => rfl

theorem Guard.entries_addTo (guard : Guard) (guards : Nat × Nat) :
    (guard.addTo guards).2 = guards.2 + if guard = .stay then 1 else 0 := by
  cases guard <;> rfl

namespace Crew

variable {c : Crew} {w : ThreadId}

/-- The worker ends its last `hold`, or one of its stays in the region. -/
theorem perform_unhold {i : Interrupts} (hholds : (c.worker w).holds ≠ 0)
    (henable : c.region.interrupts.enable w = .ok i) : c.perform w .unhold =
    .inr (.flag true, { c.update w fun own => { own with holds := own.holds - 1 } with
      region := { c.region with interrupts := i } }) := by
  rw [perform, if_neg hholds]
  show Sum.inr (answerOr _ (c.region.interrupts.enable w) _) = _
  rw [henable]
  rfl

theorem perform_leave {i : Interrupts} (hentries : (c.worker w).entries ≠ 0)
    (henable : c.region.interrupts.enable w = .ok i) : c.perform w .leave =
    .inr (.flag true, { c with region := ⟨i, false⟩ }.update w fun own =>
      { own with entries := own.entries - 1 }) := by
  rw [perform, if_neg hentries, CriticalRegion.leave, henable]
  rfl

theorem perform_enable_of_owner (h : c.region.interrupts.owner = some w) :
    c.perform w .enable = .inr (.done, { c with region := { c.region with interrupts :=
      ⟨if c.region.interrupts.depth = 1 then none else some w,
        c.region.interrupts.depth - 1⟩ } }) := by
  rw [perform, Interrupts.enable_of_owner h]
  rfl

theorem perform_enable_of_not_owner (h : c.region.interrupts.owner ≠ some w) :
    c.perform w .enable = .inr (.halted .interruptsNotHeld, c) := by
  rw [perform, Interrupts.enable_of_not_owner h]
  rfl

/-- A worker gives up a guard, if it has one of this kind. Whoever has guards owns the interrupts,
so it can. -/
theorem perform_drop {guard : Guard} (hguard : guard ≠ .plain) (hlt : w < c.workers.length)
    (howner : c.guards w ≠ (0, 0) → c.region.interrupts.owner = some w) :
    c.perform w guard.ending = .inr (.flag false, c) ∨
      ∃ i c', c.region.interrupts.enable w = .ok i ∧
        c.perform w guard.ending = .inr (.flag true, c') ∧
        c'.region = ⟨i, c.region.occupied && guard ≠ .stay⟩ ∧
        c.guards w = guard.addTo (c'.guards w) := by
  cases guard with
  | plain => exact absurd rfl hguard
  | hold =>
      by_cases hholds : (c.worker w).holds = 0
      · exact .inl (if_pos hholds)
      · have hok := Interrupts.enable_of_owner (howner fun h => hholds (congrArg Prod.fst h))
        refine .inr ⟨_, _, hok, perform_unhold hholds hok, by simp, ?_⟩
        refine .trans ?_ (congrArg _ (guards_update_self hlt _).symm)
        rw [Guard.addTo, Nat.sub_add_cancel (Nat.pos_of_ne_zero hholds)]
        rfl
  | stay =>
      by_cases hentries : (c.worker w).entries = 0
      · exact .inl (if_pos hentries)
      · have hok := Interrupts.enable_of_owner (howner fun h => hentries (congrArg Prod.snd h))
        refine .inr ⟨_, _, hok, perform_leave hentries hok, by simp, ?_⟩
        refine .trans ?_ (congrArg _ (guards_update_self hlt _).symm)
        rw [Guard.addTo, Nat.sub_add_cancel (Nat.pos_of_ne_zero hentries)]
        rfl

namespace Moment

variable {m : Moment}

/-- The worker has disabled interrupts on its own account. -/
def disables (m : Moment) : Bool :=
  match m.command, m.before.activity m.worker with
  | none, some .disabling => m.answer = some .done
  | _, _ => false

/-- The worker has enabled interrupts on its own account. -/
def enables (m : Moment) : Bool := m.command = some .enable ∧ m.answer = some .done

/-- What a moment does to the interrupts and the region. -/
inductive GuardKind (m : Moment) : Prop where
  /-- nothing -/
  | stays (region_eq : m.after.region = m.before.region)
      (guards_eq : m.after.guards m.worker = m.before.guards m.worker)
      (disables_eq : m.disables = false) (enables_eq : m.enables = false)
  /-- the worker disables interrupts once more -/
  | deepens (guard : Guard) (i : Interrupts)
      (disable : m.before.region.interrupts.disable m.worker = some i)
      (vacant : guard = .stay → m.before.region.occupied = false)
      (region_eq : m.after.region = ⟨i, m.before.region.occupied || guard = .stay⟩)
      (guards_eq : m.after.guards m.worker = guard.addTo (m.before.guards m.worker))
      (disables_eq : m.disables = decide (guard = .plain)) (enables_eq : m.enables = false)
  /-- the worker takes one disabling back -/
  | eases (guard : Guard) (i : Interrupts) (hcommand : m.command = some guard.ending)
      (enable : m.before.region.interrupts.enable m.worker = .ok i)
      (region_eq : m.after.region = ⟨i, m.before.region.occupied && guard ≠ .stay⟩)
      (guards_eq : m.before.guards m.worker = guard.addTo (m.after.guards m.worker))
      (disables_eq : m.disables = false) (enables_eq : m.enables = decide (guard = .plain))

/-- The worker is told to give up a guard. -/
theorem GuardKind.of_drop (hm : m.Happens) {guard : Guard} (hguard : guard ≠ .plain)
    (hcommand : m.command = some guard.ending)
    (howner : m.before.guards m.worker ≠ (0, 0) →
      m.before.region.interrupts.owner = some m.worker) : m.GuardKind := by
  have hdisables : m.disables = false := by rw [Moment.disables, hcommand]
  have henables : m.enables = false := by
    cases guard with
    | plain => exact absurd rfl hguard
    | hold | stay => simp [Moment.enables, hcommand, Guard.ending]
  rcases perform_drop hguard hm.1 howner with hsame | ⟨i, c', hok, hperforms, hregion, hguards⟩
  · have hafter := (hm.performed hcommand hsame).2
    exact .stays (by rw [hafter]) (by rw [hafter]) hdisables henables
  · obtain rfl := (hm.performed hcommand hperforms).2
    exact .eases guard i hcommand hok hregion hguards hdisables
      (henables.trans (decide_eq_false hguard).symm)

/-- The worker is told to enable interrupts on its own account. -/
theorem GuardKind.of_enable (hm : m.Happens) (hcommand : m.command = some .enable) :
    m.GuardKind := by
  have hdisables : m.disables = false := by rw [Moment.disables, hcommand]
  by_cases howner : m.before.region.interrupts.owner = some m.worker
  · obtain ⟨hanswer, hafter⟩ := hm.performed hcommand (perform_enable_of_owner howner)
    refine .eases .plain _ hcommand (Interrupts.enable_of_owner howner) (by rw [hafter]; simp) ?_
      hdisables (by simp [Moment.enables, hcommand, hanswer])
    rw [hafter]
    rfl
  · obtain ⟨hanswer, hafter⟩ := hm.performed hcommand (perform_enable_of_not_owner howner)
    exact .stays (by rw [hafter]) (by rw [hafter]) hdisables (by simp [Moment.enables, hanswer])

/-- Whatever happens to a crew, it deals with interrupts in one of the three ways, if only their
owner has a guard. -/
theorem Happens.guardKind (hm : m.Happens) (hsound : m.before.region.interrupts.Sound)
    (hguards : m.before.guards m.worker ≠ (0, 0) →
      m.before.region.interrupts.owner = some m.worker) : m.GuardKind := by
  have hlt := hm.1
  cases hm.form with
  | begins command phase hcommand hidle hperforms hanswer hafter =>
      refine .stays (by rw [hafter]; rfl) ?_ (by rw [Moment.disables, hcommand])
        (by simp [Moment.enables, hanswer])
      rw [hafter]
      refine guards_update ?_ _
      exact fun _ => ⟨rfl, rfl⟩
  | answers command answer hcommand hidle hperforms hanswer =>
      have hkeeps := perform_keeps hperforms
      by_cases henable : command = .enable
      · exact .of_enable hm (hcommand.trans (congrArg some henable))
      by_cases hunhold : command = .unhold
      · have hhold : Guard.hold ≠ .plain := by decide
        exact .of_drop hm hhold (hcommand.trans (congrArg some hunhold)) hguards
      by_cases hleave : command = .leave
      · have hstay : Guard.stay ≠ .plain := by decide
        exact .of_drop hm hstay (hcommand.trans (congrArg some hleave)) hguards
      have henables : m.enables = false := by simp [Moment.enables, hcommand, henable]
      have hdisables : m.disables = false := by rw [Moment.disables, hcommand]
      exact .stays (hkeeps.region_eq henable hunhold hleave) (hkeeps.guards_eq hunhold hleave _)
        hdisables henables
  | goes phase result c hcommand hbusy hmoves hanswer hafter =>
      have henables : m.enables = false := by simp [Moment.enables, hcommand]
      have hkeeps := move_keeps hmoves
      have hregion : m.after.region = c.region := by rw [hafter]; rfl
      have hown : m.after.guards m.worker = c.guards m.worker := by
        rw [hafter, guards_withActivity]
      cases phase with
      | disabling =>
          obtain ⟨i, hdisable, heq⟩ := Option.map_eq_some_iff.1 hmoves
          obtain ⟨rfl, rfl⟩ := Prod.mk.inj heq
          exact .deepens .plain i hdisable nofun (hregion.trans (by simp)) hown
            (by simp [Moment.disables, hcommand, hbusy, hanswer]) henables
      | holding =>
          obtain ⟨i, hdisable, heq⟩ := Option.map_eq_some_iff.1 hmoves
          obtain ⟨rfl, rfl⟩ := Prod.mk.inj heq
          exact .deepens .hold i hdisable nofun (hregion.trans (by simp))
            (hown.trans (guards_update_self hlt _))
            (by simp [Moment.disables, hcommand, hbusy]) henables
      | enteringRegion =>
          have hdisables : m.disables = false := by simp [Moment.disables, hcommand, hbusy]
          obtain ⟨⟨x, region⟩, henter, heq⟩ := Option.map_eq_some_iff.1 hmoves
          rcases CriticalRegion.enter_cases henter hsound with
            ⟨i, hdisable, hvacant, rfl, rfl⟩ | ⟨-, rfl, rfl⟩
          · obtain ⟨rfl, rfl⟩ := Prod.mk.inj heq
            exact .deepens .stay i hdisable (fun _ => hvacant) (hregion.trans (by simp))
              (hown.trans (guards_update_self hlt _)) hdisables henables
          · obtain ⟨rfl, rfl⟩ := Prod.mk.inj heq
            exact .stays hregion hown hdisables henables
      | acquiring | sleeping | waiting =>
          exact .stays (hregion.trans (hkeeps.region_eq nofun nofun nofun))
            (hown.trans (hkeeps.guards_eq nofun nofun _))
            (by simp [Moment.disables, hcommand, hbusy]) henables
  | stirs hcommand hblocked hanswer hafter =>
      refine .stays (by rw [hafter]) (by rw [hafter]) ?_ (by simp [Moment.enables, hcommand])
      rw [Moment.disables, hcommand, hanswer]
      split <;> rfl

/-- The share of a worker grows and shrinks with what it disables and enables, and with its guards,
and nobody else's does. -/
theorem Happens.share_balance (hm : m.Happens) (hkind : m.GuardKind)
    (hsound : m.before.region.interrupts.Sound) (w : ThreadId) :
    m.after.region.interrupts.share w + (if m.worker = w ∧ m.enables then 1 else 0) +
        ((m.before.guards w).1 + (m.before.guards w).2) =
      m.before.region.interrupts.share w + (if m.worker = w ∧ m.disables then 1 else 0) +
        ((m.after.guards w).1 + (m.after.guards w).2) := by
  have hothers : m.worker ≠ w → m.after.guards w = m.before.guards w :=
    fun hw => hm.guards_of_ne (Ne.symm hw)
  cases hkind with
  | stays region_eq guards_eq disables_eq enables_eq =>
      have hguards : m.after.guards w = m.before.guards w := by
        by_cases hw : m.worker = w
        · exact hw ▸ guards_eq
        · exact hothers hw
      rw [region_eq, hguards, disables_eq, enables_eq]
  | deepens guard i disable _ region_eq guards_eq disables_eq enables_eq =>
      rw [region_eq, Interrupts.share_disable disable hsound w, disables_eq, enables_eq]
      by_cases hw : m.worker = w
      · subst hw
        have hsum := guard.sum_addTo (m.before.guards m.worker)
        rw [guards_eq]
        simp only [true_and, decide_eq_true_eq, Bool.false_eq_true, if_true, if_false] at hsum ⊢
        omega
      · simp only [hw, hothers hw, false_and, if_false, Nat.add_zero]
  | eases guard i _ enable region_eq guards_eq disables_eq enables_eq =>
      have hshare := Interrupts.share_enable enable hsound w
      rw [region_eq, ← hshare, disables_eq, enables_eq]
      by_cases hw : m.worker = w
      · subst hw
        have hsum := guard.sum_addTo (m.after.guards m.worker)
        rw [guards_eq]
        simp only [true_and, decide_eq_true_eq, Bool.false_eq_true, if_true, if_false] at hsum ⊢
        omega
      · simp only [hw, hothers hw, false_and, if_false, Nat.add_zero]

end Moment

/-- How often a worker has disabled interrupts on its own account. -/
def disablesOf (history : List Moment) (w : ThreadId) : Nat :=
  history.countP fun m => m.worker = w ∧ m.disables

/-- How often a worker has enabled interrupts on its own account. -/
def enablesOf (history : List Moment) (w : ThreadId) : Nat :=
  history.countP fun m => m.worker = w ∧ m.enables

theorem disablesOf_concat (history : List Moment) (m : Moment) (w : ThreadId) :
    disablesOf (history ++ [m]) w =
      disablesOf history w + if m.worker = w ∧ m.disables then 1 else 0 := by
  rw [disablesOf, disablesOf, List.countP_append, List.countP_singleton]
  simp only [decide_eq_true_eq]

theorem enablesOf_concat (history : List Moment) (m : Moment) (w : ThreadId) :
    enablesOf (history ++ [m]) w =
      enablesOf history w + if m.worker = w ∧ m.enables then 1 else 0 := by
  rw [enablesOf, enablesOf, List.countP_append, List.countP_singleton]
  simp only [decide_eq_true_eq]

/-- Whenever a worker enables interrupts, it has disabled them more often than enabled before. -/
def Matched (history : List Moment) : Prop :=
  ∀ k (hk : k < history.length), history[k].enables = true →
    enablesOf (history.take k) history[k].worker < disablesOf (history.take k) history[k].worker

instance (history : List Moment) : Decidable (Matched history) :=
  inferInstanceAs (Decidable (∀ k (_ : k < history.length), _))

theorem Matched.of_concat {history : List Moment} {m : Moment} (h : Matched (history ++ [m])) :
    Matched history := by
  intro k hk henables
  have hlt : k < (history ++ [m]).length := by
    rw [List.length_append]
    exact Nat.lt_add_right _ hk
  have hbefore := h k hlt
  rw [List.getElem_append_left hk, List.take_append_of_le_length (Nat.le_of_lt hk)] at hbefore
  exact hbefore henables

theorem Matched.last {history : List Moment} {m : Moment} (h : Matched (history ++ [m]))
    (henables : m.enables = true) :
    enablesOf history m.worker < disablesOf history m.worker := by
  have hlt : history.length < (history ++ [m]).length := by
    rw [List.length_append]
    exact Nat.lt_succ_self _
  have hlast := h history.length hlt
  rw [List.getElem_concat_length rfl, List.take_left] at hlast
  exact hlast henables

/-- Interrupts agree with what all workers have disabled and enabled, and the region with who is
inside. -/
structure GuardSound (history : List Moment) (c : Crew) : Prop where
  sound : c.region.interrupts.Sound
  balance : ∀ w, c.region.interrupts.share w + enablesOf history w =
    disablesOf history w + ((c.guards w).1 + (c.guards w).2)
  matched : ∀ w, enablesOf history w ≤ disablesOf history w
  entered_once : ∀ w, (c.guards w).2 ≤ 1
  occupied_iff : c.region.occupied = true ↔ ∃ w, 0 < (c.guards w).2

namespace GuardSound

variable {history : List Moment} {m : Moment}

theorem ofSize (workers value : Nat) : GuardSound [] (Crew.ofSize workers value) := by
  have hnone : ∀ w, (Crew.ofSize workers value).guards w = (0, 0) := by
    intro w
    rw [guards, worker_ofSize]
  refine ⟨⟨fun _ => rfl, fun _ => rfl⟩, fun w => ?_, fun _ => Nat.le_refl _, fun w => ?_,
    fun htrue => Bool.noConfusion htrue, ?_⟩
  · rw [hnone]
    rfl
  · rw [hnone]
    exact Nat.zero_le 1
  · rintro ⟨w, hw⟩
    rw [hnone] at hw
    cases hw

/-- Only the owner of the interrupts has guards. -/
theorem owner_of_guards (h : GuardSound history c) (hguards : c.guards w ≠ (0, 0)) :
    c.region.interrupts.owner = some w := by
  have hpos : 0 < (c.guards w).1 + (c.guards w).2 := by
    rw [Nat.pos_iff_ne_zero]
    intro hzero
    obtain ⟨hholds, hentries⟩ := Nat.add_eq_zero_iff.1 hzero
    exact hguards (Prod.ext hholds hentries)
  have hbalance := h.balance w
  have hmatched := h.matched w
  exact (Interrupts.share_pos_iff h.sound).1 (by omega)

theorem owner_of_entries (h : GuardSound history c) (hentries : 0 < (c.guards w).2) :
    c.region.interrupts.owner = some w :=
  h.owner_of_guards fun hnone => by rw [hnone] at hentries; cases hentries

theorem guardKind (h : GuardSound history m.before) (hm : m.Happens) : m.GuardKind :=
  hm.guardKind h.sound h.owner_of_guards

/-- At most one worker is inside the region, once, and then it is occupied. -/
theorem entries_moment (h : GuardSound history m.before) (hm : m.Happens) :
    (∀ w, (m.after.guards w).2 ≤ 1) ∧
      (m.after.region.occupied = true ↔ ∃ w, 0 < (m.after.guards w).2) := by
  have hothers : ∀ w, w ≠ m.worker → m.after.guards w = m.before.guards w :=
    fun w hw => hm.guards_of_ne hw
  -- whatever does not concern the stays in the region leaves who is inside as it is
  have hsame : m.after.region.occupied = m.before.region.occupied →
      (m.after.guards m.worker).2 = (m.before.guards m.worker).2 →
      (∀ w, (m.after.guards w).2 ≤ 1) ∧
        (m.after.region.occupied = true ↔ ∃ w, 0 < (m.after.guards w).2) := by
    intro hoccupied hown
    have hentries : ∀ w, (m.after.guards w).2 = (m.before.guards w).2 := by
      intro w
      by_cases hw : w = m.worker
      · rw [hw, hown]
      · rw [hothers w hw]
    rw [hoccupied, h.occupied_iff]
    exact ⟨fun w => by rw [hentries]; exact h.entered_once w, by simp only [hentries]⟩
  cases h.guardKind hm with
  | stays region_eq guards_eq _ _ => exact hsame (by rw [region_eq]) (by rw [guards_eq])
  | deepens guard i _ vacant region_eq guards_eq _ _ =>
      have hown : (m.after.guards m.worker).2 =
          (m.before.guards m.worker).2 + if guard = .stay then 1 else 0 := by
        rw [guards_eq, guard.entries_addTo]
      by_cases hstay : guard = .stay
      · -- the region was empty, so the worker is the only one inside
        have hempty : ∀ w, (m.before.guards w).2 = 0 := by
          intro w
          refine Nat.eq_zero_of_not_pos fun hpos => ?_
          rw [h.occupied_iff.2 ⟨w, hpos⟩] at vacant
          cases vacant hstay
        rw [if_pos hstay, hempty] at hown
        refine ⟨fun w => ?_, fun _ => ⟨m.worker, by rw [hown]; exact Nat.one_pos⟩, fun _ => ?_⟩
        · by_cases hw : w = m.worker
          · rw [hw]
            exact Nat.le_of_eq hown
          · rw [hothers w hw, hempty]
            exact Nat.zero_le 1
        · rw [region_eq, decide_eq_true hstay, Bool.or_true]
      · rw [if_neg hstay] at hown
        exact hsame (by rw [region_eq, decide_eq_false hstay, Bool.or_false]) hown
  | eases guard i _ enable region_eq guards_eq _ _ =>
      have hown : (m.before.guards m.worker).2 =
          (m.after.guards m.worker).2 + if guard = .stay then 1 else 0 := by
        rw [guards_eq, guard.entries_addTo]
      by_cases hstay : guard = .stay
      · -- the worker was the only one inside
        have howner := Interrupts.owner_of_enable enable
        have hempty : ∀ w, (m.after.guards w).2 = 0 := by
          intro w
          by_cases hw : w = m.worker
          · have honce := h.entered_once m.worker
            rw [hown, if_pos hstay] at honce
            rw [hw]
            exact Nat.le_zero.1 (Nat.le_of_succ_le_succ honce)
          · rw [hothers w hw]
            refine Nat.eq_zero_of_not_pos fun hpos => hw ?_
            exact Option.some.inj ((h.owner_of_entries hpos).symm.trans howner)
        refine ⟨fun w => by rw [hempty]; exact Nat.zero_le 1, fun htrue => ?_, fun ⟨w, hw⟩ => ?_⟩
        · rw [region_eq] at htrue
          simp [hstay] at htrue
        · rw [hempty] at hw
          cases hw
      · rw [if_neg hstay] at hown
        exact hsame (by rw [region_eq, decide_eq_true hstay, Bool.and_true]) hown.symm

/-- What a moment does to the interrupts keeps them in order, if what it enables was disabled. -/
theorem moment (h : GuardSound history m.before) (hm : m.Happens)
    (hmatched : m.enables = true → enablesOf history m.worker < disablesOf history m.worker) :
    GuardSound (history ++ [m]) m.after := by
  have hkind := h.guardKind hm
  obtain ⟨hentered, hoccupied⟩ := h.entries_moment hm
  refine ⟨?_, fun w => ?_, fun w => ?_, hentered, hoccupied⟩
  · cases hkind with
    | stays region_eq _ _ _ =>
        rw [region_eq]
        exact h.sound
    | deepens _ _ disable _ region_eq _ _ _ =>
        rw [region_eq]
        exact h.sound.disable disable
    | eases _ _ _ enable region_eq _ _ _ =>
        rw [region_eq]
        exact h.sound.enable enable
  · have hshare := hm.share_balance hkind h.sound w
    have hbalance := h.balance w
    rw [enablesOf_concat, disablesOf_concat]
    omega
  · have hbefore := h.matched w
    rw [enablesOf_concat, disablesOf_concat]
    by_cases hw : m.worker = w ∧ m.enables = true
    · obtain ⟨rfl, henables⟩ := hw
      have hless := hmatched henables
      rw [if_pos ⟨rfl, henables⟩]
      omega
    · rw [if_neg hw]
      omega

end GuardSound

theorem Run.guardSound {workers value : Nat} {history : List Moment}
    (h : Run workers value history c) (hmatched : Matched history) : GuardSound history c := by
  induction h with
  | nil => exact .ofSize workers value
  | step _ hm ih => exact (ih hmatched.of_concat).moment hm hmatched.last

end Crew

end DemandPaging
