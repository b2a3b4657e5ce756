import DemandPaging.Proofs.Replacement
import Mathlib.Data.List.Rotate

/-!
# Second chance, exactly

The clock looks at the frames in a circle, from its hand on. The frames that may be chosen stand in
the order of that circle (`turn`). The first of them whose page is unreferenced is the victim, and
the referenced bits on the way to it are cleared; if there is no such page, a whole circle clears
all the bits, and the first frame of all is the victim (`clock_secondChance`).
-/

namespace DemandPaging

namespace Policy

/-- A page owns the frame and nobody pins it. -/
def isCandidate (m : FrameTable) (frame : Nat) : Bool :=
  !m.isPinned frame && (m.owner frame).isSome

/-- The frames that may be chosen, in the order in which the hand comes to them. -/
def turn (m : FrameTable) (hand : Nat) : List Nat :=
  ((List.range m.size).rotate hand).filter (isCandidate m)

/-- Whether the page that lives in a frame was accessed since its bit was last cleared. -/
def isReferenced (m : FrameTable) (tables : PageTables) (frame : Nat) : Bool :=
  ((m.owner frame).bind (PageTables.find? tables)).any PageEntry.referenced

/-- The page of every frame that may be chosen is in memory there. -/
def CandidatesBacked (m : FrameTable) (tables : PageTables) : Prop :=
  ∀ f id, m.isPinned f = false → m.owner f = some id →
    ∃ e, PageTables.find? tables id = some e ∧ e.valid = true ∧ e.frame = some f

/-- The second tables are the first with the referenced bits of the pages in `frames` cleared. -/
structure Cleared (m : FrameTable) (frames : List Nat) (t t' : PageTables) : Prop where
  sizeOf_eq : ∀ pid, PageTables.sizeOf? t' pid = PageTables.sizeOf? t pid
  of_mem : ∀ f ∈ frames, ∀ id, m.owner f = some id →
    PageTables.find? t' id = (PageTables.find? t id).map fun e => { e with referenced := false }
  of_notMem : ∀ id, (∀ f ∈ frames, m.owner f ≠ some id) →
    PageTables.find? t' id = PageTables.find? t id

variable {m : FrameTable} {t t' t'' : PageTables} {frames frames' : List Nat} {f hand : Nat}
  {id : PageId} {e : PageEntry}

theorem isCandidate_iff :
    isCandidate m f = true ↔ m.isPinned f = false ∧ ∃ id, m.owner f = some id := by
  rw [isCandidate, Bool.and_eq_true, Bool.not_eq_true', Option.isSome_iff_exists]

/-- Every frame that may be chosen is on the circle, wherever the hand is. -/
theorem mem_turn : f ∈ turn m hand ↔ isCandidate m f = true := by
  rw [turn, List.mem_filter, List.mem_rotate, List.mem_range, and_iff_right_iff_imp]
  intro hf
  obtain ⟨-, id, hid⟩ := isCandidate_iff.1 hf
  by_contra hlt
  rw [FrameTable.owner, Array.getElem?_eq_none (Nat.le_of_not_lt hlt)] at hid
  cases hid

theorem isReferenced_of_find? (howner : m.owner f = some id)
    (he : PageTables.find? t id = some e) : isReferenced m t f = e.referenced := by
  rw [isReferenced, howner, Option.bind_some, he, Option.any_some]

namespace Cleared

theorem nil (m : FrameTable) (t : PageTables) : Cleared m [] t t :=
  ⟨fun _ => rfl, nofun, fun _ _ => rfl⟩

/-- Clearing the bit of one page. -/
theorem put (howner : m.owner f = some id) (he : PageTables.find? t id = some e) :
    Cleared m [f] t (PageTables.put t id { e with referenced := false }) := by
  have hput := PageTables.Replaced.of_put he { e with referenced := false }
  refine ⟨hput.sizeOf_eq, fun f' hf' id' hid' => ?_, fun id' hid' => ?_⟩
  · obtain rfl := List.mem_singleton.1 hf'
    obtain rfl := Option.some.inj (howner.symm.trans hid')
    rw [hput.self, he]
    rfl
  · refine hput.other ?_
    rintro rfl
    exact hid' f (List.mem_singleton_self f) howner

/-- Bits cleared one list after the other. -/
theorem append (h : Cleared m frames t t') (h' : Cleared m frames' t' t'') :
    Cleared m (frames ++ frames') t t'' := by
  refine ⟨fun pid => (h'.sizeOf_eq pid).trans (h.sizeOf_eq pid), fun f hf id hid => ?_,
    fun id hid => ?_⟩
  · -- the page of a frame of either list: cleared by the first, the second, or both
    have hfirst : PageTables.find? t' id = PageTables.find? t id ∨
        PageTables.find? t' id =
          (PageTables.find? t id).map fun e => { e with referenced := false } := by
      by_cases hmem : ∃ g ∈ frames, m.owner g = some id
      · obtain ⟨g, hg, hgid⟩ := hmem
        exact .inr (h.of_mem g hg id hgid)
      · exact .inl (h.of_notMem id fun g hg hgid => hmem ⟨g, hg, hgid⟩)
    by_cases hmem' : ∃ g ∈ frames', m.owner g = some id
    · obtain ⟨g, hg, hgid⟩ := hmem'
      rw [h'.of_mem g hg id hgid]
      rcases hfirst with hfirst | hfirst
      · rw [hfirst]
      · rw [hfirst, Option.map_map]
        rfl
    · rw [h'.of_notMem id fun g hg hgid => hmem' ⟨g, hg, hgid⟩]
      rcases List.mem_append.1 hf with hf | hf
      · exact h.of_mem f hf id hid
      · exact absurd ⟨f, hf, hid⟩ hmem'
  · rw [h'.of_notMem id fun g hg => hid g (List.mem_append_right _ hg),
      h.of_notMem id fun g hg => hid g (List.mem_append_left _ hg)]

/-- The page of a frame is where it was. -/
theorem candidatesBacked (h : Cleared m frames t t') (hback : CandidatesBacked m t) :
    CandidatesBacked m t' := by
  intro f id hpin hid
  obtain ⟨e, he, hvalid, hframe⟩ := hback f id hpin hid
  by_cases hmem : ∃ g ∈ frames, m.owner g = some id
  · obtain ⟨g, hg, hgid⟩ := hmem
    exact ⟨{ e with referenced := false }, by rw [h.of_mem g hg id hgid, he]; rfl, hvalid, hframe⟩
  · exact ⟨e, (h.of_notMem id fun g hg hgid => hmem ⟨g, hg, hgid⟩).trans he, hvalid, hframe⟩

/-- The bit of a frame in the list is clear. -/
theorem isReferenced_eq_false (h : Cleared m frames t t') (hf : f ∈ frames) :
    isReferenced m t' f = false := by
  rw [isReferenced]
  cases hid : m.owner f with
  | none => rfl
  | some id =>
      rw [Option.bind_some, h.of_mem f hf id hid]
      cases PageTables.find? t id <;> rfl

/-- The bits of the other frames are what they were, for no page lives in two frames. -/
theorem isReferenced_eq (h : Cleared m frames t t') (hback : CandidatesBacked m t)
    (hframes : ∀ g ∈ frames, isCandidate m g = true) (hf : isCandidate m f = true)
    (hnot : f ∉ frames) : isReferenced m t' f = isReferenced m t f := by
  obtain ⟨hpin, id, hid⟩ := isCandidate_iff.1 hf
  obtain ⟨e, he, -, hframe⟩ := hback f id hpin hid
  have he' : PageTables.find? t' id = some e := by
    refine (h.of_notMem id fun g hg hgid => hnot ?_).trans he
    obtain ⟨e', he', -, hframe'⟩ := hback g id (isCandidate_iff.1 (hframes g hg)).1 hgid
    obtain rfl := Option.some.inj (he.symm.trans he')
    obtain rfl := Option.some.inj (hframe.symm.trans hframe')
    exact hg
  rw [isReferenced_of_find? hid he, isReferenced_of_find? hid he']

end Cleared

/-- The frames that the hand meets on its first `steps` steps. -/
def visited (frames hand steps : Nat) : List Nat :=
  (List.range steps).map fun i => (hand + i) % frames

theorem visited_succ (n hand steps : Nat) :
    visited n hand (steps + 1) = visited n hand steps ++ [(hand + steps) % n] := by
  rw [visited, List.range_succ, List.map_append]
  rfl

theorem take_visited {n k steps : Nat} (hk : k ≤ steps) :
    (visited n hand steps).take k = visited n hand k := by
  rw [visited, ← List.map_take, List.take_range, Nat.min_eq_left hk, visited]

/-- On a whole circle the hand meets the frames in cyclic order. -/
theorem visited_self (n hand : Nat) : visited n hand n = (List.range n).rotate hand := by
  refine List.ext_getElem (by simp [visited]) fun i _ _ => ?_
  rw [List.getElem_rotate]
  simp [visited, Nat.add_comm]

theorem nodup_visited (hand : Nat) {n k : Nat} (hk : k ≤ n) : (visited n hand k).Nodup := by
  rw [← take_visited hk, visited_self]
  exact (List.nodup_rotate.2 List.nodup_range).sublist (List.take_sublist _ _)

/-- The hand moves on from a frame that may not be chosen. -/
theorem sweep_skip (steps : Nat) (t : PageTables) (hlt : f < m.size)
    (hf : isCandidate m f = false) :
    sweep m (steps + 1) f t = sweep m steps ((f + 1) % m.size) t := by
  rw [sweep, Nat.mod_eq_of_lt hlt]
  cases hpin : m.isPinned f with
  | true => rfl
  | false =>
      cases hid : m.owner f with
      | none => rfl
      | some id => rw [isCandidate_iff.2 ⟨hpin, id, hid⟩] at hf; cases hf

/-- The hand moves on from a frame that may be chosen and whose page is referenced, and clears the
bit. -/
theorem sweep_clear (hback : CandidatesBacked m t) (hlt : f < m.size)
    (hf : isCandidate m f = true) (hset : isReferenced m t f = true) :
    ∃ t', Cleared m [f] t t' ∧
      ∀ steps, sweep m (steps + 1) f t = sweep m steps ((f + 1) % m.size) t' := by
  have hmod := Nat.mod_eq_of_lt hlt
  obtain ⟨hpin, id, hid⟩ := isCandidate_iff.1 hf
  obtain ⟨e, he, hvalid, hframe⟩ := hback f id hpin hid
  rw [isReferenced_of_find? hid he] at hset
  refine ⟨_, .put hid he, fun steps => ?_⟩
  rw [sweep_candidate steps (by rwa [hmod]) (by rwa [hmod]) he hvalid (by rwa [hmod]),
    if_pos hset, hmod]

/-- The hand stops at a frame that may be chosen and whose page is unreferenced. -/
theorem sweep_stop (steps : Nat) (hback : CandidatesBacked m t) (hlt : f < m.size)
    (hf : isCandidate m f = true) (hclear : isReferenced m t f = false) :
    sweep m (steps + 1) f t = (.ok f, (f + 1) % m.size, t) := by
  have hmod := Nat.mod_eq_of_lt hlt
  obtain ⟨hpin, id, hid⟩ := isCandidate_iff.1 hf
  obtain ⟨e, he, hvalid, hframe⟩ := hback f id hpin hid
  rw [isReferenced_of_find? hid he] at hclear
  rw [sweep_candidate steps (by rwa [hmod]) (by rwa [hmod]) he hvalid (by rwa [hmod]), hclear,
    hmod]
  rfl

/-- While every frame that may be chosen has its bit set, the hand clears these bits and moves
on. -/
theorem sweep_pass (k : Nat) (hhand : hand < m.size) (hk : k ≤ m.size)
    (hback : CandidatesBacked m t)
    (hset : ∀ f ∈ (visited m.size hand k).filter (isCandidate m), isReferenced m t f = true) :
    ∃ t', Cleared m ((visited m.size hand k).filter (isCandidate m)) t t' ∧
      ∀ rest, sweep m (k + rest) hand t = sweep m rest ((hand + k) % m.size) t' := by
  induction k with
  | zero =>
      refine ⟨t, .nil m t, fun rest => ?_⟩
      rw [Nat.zero_add, Nat.add_zero, Nat.mod_eq_of_lt hhand]
  | succ k ih =>
      have hnodup := nodup_visited hand hk
      rw [visited_succ] at hnodup hset ⊢
      rw [List.filter_append] at hset ⊢
      obtain ⟨t', hclear, hrun⟩ :=
        ih (Nat.le_of_succ_le hk) fun f hf => hset f (List.mem_append_left _ hf)
      have hlt : (hand + k) % m.size < m.size := Nat.mod_lt _ (Nat.zero_lt_of_lt hhand)
      have hnext : ((hand + k) % m.size + 1) % m.size = (hand + (k + 1)) % m.size := by
        rw [Nat.mod_add_mod, Nat.add_assoc]
      have hrun' : ∀ rest, sweep m (k + 1 + rest) hand t =
          sweep m (rest + 1) ((hand + k) % m.size) t' := by
        intro rest
        rw [Nat.add_assoc, Nat.add_comm 1 rest, hrun]
      by_cases hf : isCandidate m ((hand + k) % m.size) = true
      · rw [List.filter_singleton, hf, Bool.cond_true] at hset ⊢
        -- the bits cleared so far are those of other frames
        have hset' : isReferenced m t' ((hand + k) % m.size) = true := by
          rw [hclear.isReferenced_eq hback (fun g hg => (List.mem_filter.1 hg).2) hf
            fun hmem => List.disjoint_of_nodup_append hnodup (List.mem_filter.1 hmem).1
              (List.mem_singleton_self _)]
          exact hset _ (List.mem_append_right _ (List.mem_singleton_self _))
        obtain ⟨t'', hclear', hstep⟩ :=
          sweep_clear (hclear.candidatesBacked hback) hlt hf hset'
        exact ⟨t'', hclear.append hclear', fun rest => by rw [hrun', hstep, hnext]⟩
      · rw [Bool.not_eq_true] at hf
        rw [List.filter_singleton, hf, Bool.cond_false, List.append_nil]
        exact ⟨t', hclear, fun rest => by rw [hrun', sweep_skip rest t' hlt hf, hnext]⟩

/-- While the hand meets only frames that may not be chosen, it just moves on. -/
theorem sweep_skips (k : Nat) (hhand : hand < m.size) (t : PageTables)
    (hskip : ∀ f ∈ visited m.size hand k, isCandidate m f = false) (rest : Nat) :
    sweep m (k + rest) hand t = sweep m rest ((hand + k) % m.size) t := by
  induction k generalizing rest with
  | zero => rw [Nat.zero_add, Nat.add_zero, Nat.mod_eq_of_lt hhand]
  | succ k ih =>
      rw [visited_succ] at hskip
      have hlast : isCandidate m ((hand + k) % m.size) = false :=
        hskip _ (List.mem_append_right _ (List.mem_singleton_self _))
      rw [Nat.add_assoc, Nat.add_comm 1 rest,
        ih (fun f hf => hskip f (List.mem_append_left _ hf)),
        sweep_skip rest t (Nat.mod_lt _ (Nat.zero_lt_of_lt hhand)) hlast, Nat.mod_add_mod,
        Nat.add_assoc]

/-- The way to a frame of the circle: the steps to it, and what may be chosen before it. -/
theorem turn_split {before after : List Nat} (hturn : turn m hand = before ++ f :: after) :
    ∃ k < m.size, (visited m.size hand k).filter (isCandidate m) = before ∧
      (hand + k) % m.size = f ∧ isCandidate m f = true := by
  rw [turn, ← visited_self] at hturn
  obtain ⟨l, l', hl, hbefore, hafter⟩ := List.filter_eq_append_iff.1 hturn
  obtain ⟨skipped, l'', rfl, hskipped, hf, -⟩ := List.filter_eq_cons_iff.1 hafter
  have hlen := congrArg List.length hl
  simp only [visited, List.length_map, List.length_range, List.length_append,
    List.length_cons] at hlen
  have hk : l.length + skipped.length < m.size := by omega
  refine ⟨l.length + skipped.length, hk, ?_, ?_, hf⟩
  · rw [← take_visited (Nat.le_of_lt hk), hl, ← List.append_assoc, ← List.length_append,
      List.take_left, List.filter_append, hbefore, List.filter_eq_nil_iff.2 hskipped,
      List.append_nil]
  · have hget : (visited m.size hand m.size)[l.length + skipped.length]? = some f := by
      rw [hl, ← List.append_assoc, ← List.length_append, List.getElem?_append_right (Nat.le_refl _),
        Nat.sub_self]
      rfl
    rw [visited, List.getElem?_map, List.getElem?_range hk] at hget
    exact Option.some.inj hget

/-- If some page is unreferenced, the hand comes to a first one. -/
theorem exists_first_unreferenced (t : PageTables) (hand : Nat) {g : Nat}
    (hg : isCandidate m g = true) (hclear : isReferenced m t g = false) :
    ∃ before f after, turn m hand = before ++ f :: after ∧
      (∀ h ∈ before, isReferenced m t h = true) ∧ isReferenced m t f = false := by
  obtain ⟨f, before, after, hbefore, hf, hturn, -⟩ :=
    List.exists_of_eraseP (p := fun f => !isReferenced m t f) (mem_turn.2 hg) (by rw [hclear]; rfl)
  exact ⟨before, f, after, hturn, fun h hh => by simpa using hbefore h hh, by simpa using hf⟩

/-- With no frame to choose from, two circles lead back to where the hand was. -/
theorem select_of_turn_nil (hhand : hand < m.size) (t : PageTables) (hturn : turn m hand = []) :
    (clock hand).select m t = (.error .noVictim, clock hand, t) := by
  have hskip : ∀ f ∈ visited m.size hand (2 * m.size), isCandidate m f = false := by
    intro f _
    rw [← Bool.not_eq_true]
    intro hf
    have hmem : f ∈ turn m hand := mem_turn.2 hf
    rw [hturn] at hmem
    exact List.not_mem_nil hmem
  have hrun := sweep_skips (2 * m.size) hhand t hskip 0
  rw [Nat.add_zero, Nat.add_mul_mod_self_right, Nat.mod_eq_of_lt hhand] at hrun
  rw [select, hrun]
  rfl

/-- The first unreferenced page leaves, and the pages before it get their second chance. -/
theorem select_of_first_unreferenced (hback : CandidatesBacked m t) (hhand : hand < m.size)
    {before after : List Nat} (hturn : turn m hand = before ++ f :: after)
    (hbefore : ∀ g ∈ before, isReferenced m t g = true) (hclear : isReferenced m t f = false) :
    ∃ t', (clock hand).select m t = (.ok f, clock ((f + 1) % m.size), t') ∧
      Cleared m before t t' := by
  obtain ⟨k, hk, hvisited, hstop, hf⟩ := turn_split hturn
  obtain ⟨t', hcleared, hrun⟩ :=
    sweep_pass k hhand (Nat.le_of_lt hk) hback (hvisited.symm ▸ hbefore)
  rw [hvisited] at hcleared
  refine ⟨t', ?_, hcleared⟩
  have hclear' : isReferenced m t' f = false := by
    rw [hcleared.isReferenced_eq hback ?_ hf ?_]
    · exact hclear
    · exact fun g hg => (List.mem_filter.1 (hvisited.symm ▸ hg)).2
    · intro hmem
      rw [hbefore f hmem] at hclear
      cases hclear
  have hsteps : 2 * m.size = k + (2 * m.size - k - 1 + 1) := by omega
  rw [select, hsteps, hrun, hstop, sweep_stop _ (hcleared.candidatesBacked hback)
    (hstop ▸ Nat.mod_lt _ (Nat.zero_lt_of_lt hhand)) hf hclear']
  rfl

/-- If every page was referenced, all lose the bit, and the first one leaves. -/
theorem select_of_all_referenced (hback : CandidatesBacked m t) (hhand : hand < m.size)
    {after : List Nat} (hturn : turn m hand = f :: after)
    (hset : ∀ g ∈ turn m hand, isReferenced m t g = true) :
    ∃ t', (clock hand).select m t = (.ok f, clock ((f + 1) % m.size), t') ∧
      Cleared m (turn m hand) t t' := by
  have hcircle : (visited m.size hand m.size).filter (isCandidate m) = turn m hand := by
    rw [visited_self, turn]
  -- the first circle only clears bits, and the second stops at the first frame
  obtain ⟨t', hcleared, hrun⟩ :=
    sweep_pass m.size hhand (Nat.le_refl _) hback (hcircle.symm ▸ hset)
  rw [hcircle] at hcleared
  refine ⟨t', ?_, hcleared⟩
  have hfirst : turn m hand = [] ++ f :: after := hturn
  obtain ⟨k, hk, hvisited, hstop, hf⟩ := turn_split hfirst
  have hskip : ∀ g ∈ visited m.size hand k, isCandidate m g = false := by
    intro g hg
    rw [← Bool.not_eq_true]
    exact List.filter_eq_nil_iff.1 hvisited g hg
  have hclear : isReferenced m t' f = false :=
    hcleared.isReferenced_eq_false (hturn ▸ List.mem_cons_self)
  have hsteps : 2 * m.size = m.size + (k + (m.size - k - 1 + 1)) := by omega
  rw [select, hsteps, hrun, Nat.add_mod_right, Nat.mod_eq_of_lt hhand,
    sweep_skips k hhand t' hskip, hstop, sweep_stop _ (hcleared.candidatesBacked hback)
    (hstop ▸ Nat.mod_lt _ (Nat.zero_lt_of_lt hhand)) hf hclear]
  rfl

/-- What the clock does. With no frame to choose from it says so and changes nothing. Otherwise the
first frame leaves whose page is unreferenced, and the pages before it lose their referenced bits;
or, if all are referenced, the first frame of all, and all lose them. The hand ends behind the
victim, and the tables change in nothing else: so no referenced page leaves while there is an
unreferenced one. -/
theorem clock_secondChance (hback : CandidatesBacked m t) (hhand : hand < m.size) :
    (turn m hand = [] → (clock hand).select m t = (.error .noVictim, clock hand, t)) ∧
    (∀ before f after, turn m hand = before ++ f :: after →
      (∀ g ∈ before, isReferenced m t g = true) → isReferenced m t f = false →
      ∃ t', (clock hand).select m t = (.ok f, clock ((f + 1) % m.size), t') ∧
        Cleared m before t t') ∧
    (∀ f after, turn m hand = f :: after → (∀ g ∈ turn m hand, isReferenced m t g = true) →
      ∃ t', (clock hand).select m t = (.ok f, clock ((f + 1) % m.size), t') ∧
        Cleared m (turn m hand) t t') ∧
    ∀ f g, ((clock hand).select m t).1 = .ok f → isCandidate m g = true →
      isReferenced m t g = false → isReferenced m t f = false := by
  refine ⟨select_of_turn_nil hhand t,
    fun before f after => select_of_first_unreferenced hback hhand,
    fun f after => select_of_all_referenced hback hhand, fun f g hf hg hclear => ?_⟩
  obtain ⟨before, f', after, hturn, hbefore, hclear'⟩ := exists_first_unreferenced t hand hg hclear
  obtain ⟨t', hselect, -⟩ := select_of_first_unreferenced hback hhand hturn hbefore hclear'
  rw [hselect] at hf
  cases hf
  exact hclear'

/-- Four frames, all with owners, of which the second is pinned. -/
def fourFrames : FrameTable where
  entries := #[.ownedBy ⟨1, 0⟩, (FrameRecord.ownedBy ⟨1, 1⟩).withPins 1, .ownedBy ⟨1, 2⟩,
    .ownedBy ⟨2, 0⟩]
  free := []

/-- The tables to go with them: of the pages that may leave, one is unreferenced. -/
def fourPages : PageTables :=
  let first : PageTable := ⟨#[{ frame := some 0, valid := true, referenced := true },
    { frame := some 1, valid := true }, { frame := some 2, valid := true, dirty := true }]⟩
  let second : PageTable :=
    ⟨#[{ frame := some 3, valid := true, referenced := true, readOnly := true }]⟩
  (Std.TreeMap.empty.insert 1 first).insert 2 second

/-- The hand starts at the last frame, goes round the end, passes the pinned frame, and stops at the
third one. -/
theorem clock_secondChance_fourFrames : CandidatesBacked fourFrames fourPages ∧
    3 < fourFrames.size ∧
    ∃ t', (clock 3).select fourFrames fourPages = (.ok 2, clock 3, t') ∧
      Cleared fourFrames [3, 0] fourPages t' := by
  have hback : CandidatesBacked fourFrames fourPages := by
    intro f id hpin hid
    have hholds : ∀ f < 4, (fourFrames.owner f).all (PageTables.holds fourPages · f) = true := by
      decide +kernel
    have hlt : f < 4 := List.mem_range.1 (List.mem_rotate.1 (List.mem_filter.1
      (mem_turn.2 (isCandidate_iff.2 ⟨hpin, id, hid⟩) : f ∈ turn fourFrames 0)).1)
    have hid' := hholds f hlt
    rw [hid] at hid'
    exact PageTables.holds_iff.1 hid'
  exact ⟨hback, by decide, (clock_secondChance hback (by decide)).2.1 [3, 0] 2 []
    (by decide +kernel) (by decide +kernel) (by decide +kernel)⟩

end Policy

end DemandPaging
