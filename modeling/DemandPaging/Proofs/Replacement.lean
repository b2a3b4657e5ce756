import DemandPaging.Replacement
import DemandPaging.Proofs.FrameTable
import DemandPaging.Proofs.PageTables

/-!
# What the replacement policies choose

Both policies answer with a frame that a page owns and nobody pins, or with no victim at all, and
that only if there is no such frame (`select_ne_noVictim`). The clock clears referenced bits on its
way and nothing else (`Retouched`).
-/

namespace DemandPaging

namespace PageTables

/-- The second tables differ from the first in referenced bits only. -/
structure Retouched (t t' : PageTables) : Prop where
  sizeOf_eq : ∀ pid, sizeOf? t' pid = sizeOf? t pid
  of_find? : ∀ id e', find? t' id = some e' →
    ∃ e, find? t id = some e ∧ e' = { e with referenced := e'.referenced }

namespace Retouched

variable {t t' t'' : PageTables} {id : PageId} {e : PageEntry}

theorem refl (t : PageTables) : Retouched t t := ⟨fun _ => rfl, fun _ e he => ⟨e, he, rfl⟩⟩

theorem trans (h : Retouched t t') (h' : Retouched t' t'') : Retouched t t'' := by
  refine ⟨fun pid => (h'.sizeOf_eq pid).trans (h.sizeOf_eq pid), fun id e'' he'' => ?_⟩
  obtain ⟨e', he', heq'⟩ := h'.of_find? id e'' he''
  obtain ⟨e, he, heq⟩ := h.of_find? id e' he'
  refine ⟨e, he, ?_⟩
  rw [heq', heq]

/-- Every entry is still there, with another referenced bit at most. -/
theorem find? (h : Retouched t t') (he : PageTables.find? t id = some e) :
    ∃ e', PageTables.find? t' id = some e' ∧ e' = { e with referenced := e'.referenced } := by
  obtain ⟨e', he'⟩ : ∃ e', PageTables.find? t' id = some e' := by
    rw [exists_find?_iff, h.sizeOf_eq, ← exists_find?_iff]
    exact ⟨e, he⟩
  obtain ⟨e0, he0, heq⟩ := h.of_find? id e' he'
  rw [he] at he0
  obtain rfl := Option.some.inj he0
  exact ⟨e', he', heq⟩

/-- No dirty bit has changed. -/
theorem dirty_iff (h : Retouched t t') (id : PageId) :
    (∃ e, PageTables.find? t' id = some e ∧ e.dirty = true) ↔
      ∃ e, PageTables.find? t id = some e ∧ e.dirty = true := by
  constructor
  · rintro ⟨e', he', hd⟩
    obtain ⟨e, he, heq⟩ := h.of_find? id e' he'
    rw [heq] at hd
    exact ⟨e, he, hd⟩
  · rintro ⟨e, he, hd⟩
    obtain ⟨e', he', heq⟩ := h.find? he
    refine ⟨e', he', ?_⟩
    rw [heq]
    exact hd

/-- Clearing one referenced bit. -/
theorem put (he : PageTables.find? t id = some e) (b : Bool) :
    Retouched t (PageTables.put t id { e with referenced := b }) := by
  have hput := Replaced.of_put he { e with referenced := b }
  refine ⟨hput.sizeOf_eq, fun id' e' he' => ?_⟩
  rcases hput.eq_or_find? he' with ⟨rfl, rfl⟩ | ⟨-, he'⟩
  · exact ⟨e, he, rfl⟩
  · exact ⟨e', he', rfl⟩

end Retouched

end PageTables

namespace Policy

/-- The page of every owned frame is in memory there. -/
def Backed (m : FrameTable) (tables : PageTables) : Prop :=
  ∀ f id, m.owner f = some id →
    ∃ e, PageTables.find? tables id = some e ∧ e.valid = true ∧ e.frame = some f

theorem Backed.retouched {m : FrameTable} {t t' : PageTables} (h : Backed m t)
    (ht : PageTables.Retouched t t') : Backed m t' := by
  intro f id hid
  obtain ⟨e, he, hvalid, hf⟩ := h f id hid
  obtain ⟨e', he', heq⟩ := ht.find? he
  refine ⟨e', he', ?_, ?_⟩
  · rw [heq]
    exact hvalid
  · rw [heq]
    exact hf

/-- What a policy may answer: no victim, or an owned frame that nobody pins. -/
def Chosen (m : FrameTable) (r : Except PagingError Nat) : Prop :=
  r = .error .noVictim ∨ ∃ f id, r = .ok f ∧ m.owner f = some id ∧ m.isPinned f = false

/-- The hand is at a frame that may be chosen. The tables agree on who lives there, so the frame is
chosen unless its page was referenced. -/
theorem sweep_candidate {m : FrameTable} {tables : PageTables} (steps : Nat) {hand : Nat}
    {id : PageId} {e : PageEntry} (hpin : m.isPinned (hand % m.size) = false)
    (howner : m.owner (hand % m.size) = some id) (he : PageTables.find? tables id = some e)
    (hvalid : e.valid = true) (hframe : e.frame = some (hand % m.size)) :
    sweep m (steps + 1) hand tables =
      if e.referenced then sweep m steps ((hand % m.size + 1) % m.size)
        (PageTables.put tables id { e with referenced := false })
      else (.ok (hand % m.size), (hand % m.size + 1) % m.size, tables) := by
  have hok : ¬ (¬ e.valid = true ∨ e.frame ≠ some (hand % m.size)) := by
    rw [hvalid, hframe]
    simp
  rw [sweep]
  simp only [hpin, howner, PageTables.lookup_eq_ok_iff.2 he, Bool.false_eq_true, if_false,
    if_neg hok]

/-- However many frames the hand moves over. -/
theorem sweep_eq {m : FrameTable} (steps : Nat) :
    ∀ (hand : Nat) {tables : PageTables}, Backed m tables →
      ∃ r hand' tables', sweep m steps hand tables = (r, hand', tables') ∧ Chosen m r ∧
        PageTables.Retouched tables tables' := by
  induction steps with
  | zero => exact fun hand tables _ => ⟨_, _, _, rfl, .inl rfl, .refl tables⟩
  | succ steps ih =>
      intro hand tables hbacked
      cases hpin : m.isPinned (hand % m.size) with
      | true =>
          rw [sweep, if_pos hpin]
          exact ih _ hbacked
      | false =>
          cases howner : m.owner (hand % m.size) with
          | none =>
              rw [sweep, hpin, howner]
              exact ih _ hbacked
          | some id =>
              obtain ⟨e, he, hvalid, hframe⟩ := hbacked _ id howner
              rw [sweep_candidate steps hpin howner he hvalid hframe]
              cases e.referenced with
              | true =>
                  have htouch := PageTables.Retouched.put he false
                  obtain ⟨r, hand', tables', hrun, hr, htouch'⟩ := ih
                    ((hand % m.size + 1) % m.size) (hbacked.retouched htouch)
                  exact ⟨r, hand', tables', hrun, hr, htouch.trans htouch'⟩
              | false => exact ⟨_, _, _, rfl, .inr ⟨_, id, rfl, howner, hpin⟩, .refl tables⟩

/-- The hand finds a victim if it comes to a frame that may be chosen: once if the referenced bit of
its page is clear, and twice if not, for the first time clears the bit. -/
theorem sweep_ne_noVictim {m : FrameTable} {f : Nat} {id : PageId} (hlt : f < m.size)
    (howner : m.owner f = some id) (hpin : m.isPinned f = false) (steps : Nat) :
    ∀ (hand distance : Nat) {tables : PageTables} {e : PageEntry}, Backed m tables →
      PageTables.find? tables id = some e → (hand + distance) % m.size = f →
      distance + (if e.referenced then m.size else 0) < steps →
      (sweep m steps hand tables).1 ≠ .error .noVictim := by
  induction steps with
  | zero => exact fun _ _ _ _ _ _ _ hsteps => absurd hsteps (Nat.not_lt_zero _)
  | succ steps ih =>
      intro hand distance tables e hbacked he hdistance hsteps
      have hadvance : ∀ d, ((hand % m.size + 1) % m.size + d) % m.size =
          (hand + (d + 1)) % m.size := by
        intro d
        rw [Nat.mod_add_mod, Nat.add_assoc, Nat.mod_add_mod, Nat.add_comm 1 d]
      by_cases hf : hand % m.size = f
      · -- the hand is at the frame: it is chosen, or its bit is cleared
        obtain ⟨e₀, he₀, hvalid, hframe⟩ := hbacked f id howner
        obtain rfl := Option.some.inj (he.symm.trans he₀)
        rw [sweep_candidate steps (hf ▸ hpin) (hf ▸ howner) he hvalid (hf ▸ hframe)]
        cases hreferenced : e.referenced with
        | false => exact nofun
        | true =>
            rw [hreferenced, if_pos rfl] at hsteps
            have htouch := PageTables.Retouched.put he false
            refine ih _ (m.size - 1) (hbacked.retouched htouch)
              (PageTables.Replaced.of_put he _).self ?_ ?_
            · -- a whole turn leads back to the frame
              rw [hadvance, Nat.sub_add_cancel (Nat.zero_lt_of_lt hlt), Nat.add_mod_right, hf]
            · simp only [Bool.false_eq_true, if_false]
              omega
      · -- another frame: the hand goes on, and is one step nearer
        obtain ⟨d, rfl⟩ : ∃ d, distance = d + 1 := by
          refine Nat.exists_eq_succ_of_ne_zero ?_
          rintro rfl
          exact hf hdistance
        have hnearer : ((hand % m.size + 1) % m.size + d) % m.size = f :=
          (hadvance d).trans hdistance
        cases hpin' : m.isPinned (hand % m.size) with
        | true =>
            rw [sweep, if_pos hpin']
            exact ih _ d hbacked he hnearer (by omega)
        | false =>
            cases howner' : m.owner (hand % m.size) with
            | none =>
                rw [sweep, hpin', howner']
                exact ih _ d hbacked he hnearer (by omega)
            | some id' =>
                obtain ⟨e', he', hvalid', hframe'⟩ := hbacked _ id' howner'
                rw [sweep_candidate steps hpin' howner' he' hvalid' hframe']
                cases e'.referenced with
                | false => exact nofun
                | true =>
                    -- the page of the other frame is another page
                    have hne : id ≠ id' := by
                      rintro rfl
                      obtain ⟨e₀, he₀, -, hframe⟩ := hbacked f id howner
                      obtain rfl := Option.some.inj (he'.symm.trans he₀)
                      exact hf (Option.some.inj (hframe'.symm.trans hframe))
                    exact ih _ d (hbacked.retouched (PageTables.Retouched.put he' false))
                      (((PageTables.Replaced.of_put he' _).other hne).trans he) hnearer (by omega)

theorem draw_chosen (generator : Random) (m : FrameTable) : Chosen m (draw generator m).1 := by
  rw [draw]
  cases h : (candidates m)[(generator.next.1.toNat % (candidates m).length)]? with
  | none => exact .inl rfl
  | some f =>
      have hmem := List.mem_of_getElem? h
      rw [candidates, List.mem_filter, Bool.and_eq_true, Bool.not_eq_true',
        Option.isSome_iff_exists] at hmem
      obtain ⟨-, hpin, id, hid⟩ := hmem
      exact .inr ⟨f, id, rfl, hid, hpin⟩

/-- Either policy chooses a victim that may leave, and keeps all that the tables say of the pages
but for their referenced bits. -/
theorem select_eq (p : Policy) {m : FrameTable} {tables : PageTables} (h : Backed m tables) :
    ∃ r p' tables', p.select m tables = (r, p', tables') ∧ Chosen m r ∧
      PageTables.Retouched tables tables' := by
  cases p with
  | clock hand =>
      obtain ⟨r, hand', tables', hsweep, hr, htouch⟩ := sweep_eq (2 * m.size) hand h
      exact ⟨r, clock hand', tables', by rw [select, hsweep]; rfl, hr, htouch⟩
  | random generator => exact ⟨_, _, tables, rfl, draw_chosen generator m, .refl tables⟩

/-- Either policy finds a victim if there is a frame that a page owns and nobody pins. -/
theorem select_ne_noVictim (p : Policy) {m : FrameTable} {tables : PageTables}
    (h : Backed m tables) {f : Nat} {id : PageId} (howner : m.owner f = some id)
    (hpin : m.isPinned f = false) : (p.select m tables).1 ≠ .error .noVictim := by
  have hlt : f < m.size := by
    by_contra hf
    rw [FrameTable.owner, Array.getElem?_eq_none (Nat.le_of_not_lt hf)] at howner
    cases howner
  cases p with
  | clock hand =>
      obtain ⟨e, he, -⟩ := h f id howner
      have hhand : hand % m.size < m.size := Nat.mod_lt _ (Nat.zero_lt_of_lt hlt)
      -- the way from the hand to the frame, round the end if need be
      refine sweep_ne_noVictim hlt howner hpin (2 * m.size) hand
        ((f + (m.size - hand % m.size)) % m.size) h he ?_ ?_
      · rw [Nat.add_mod_mod, ← Nat.mod_add_mod]
        have : hand % m.size + (f + (m.size - hand % m.size)) = f + m.size := by omega
        rw [this, Nat.add_mod_right, Nat.mod_eq_of_lt hlt]
      · have := Nat.mod_lt (f + (m.size - hand % m.size)) (Nat.zero_lt_of_lt hlt)
        split <;> omega
  | random generator =>
      have hmem : f ∈ candidates m := by
        rw [candidates, List.mem_filter, hpin, howner]
        exact ⟨List.mem_range.2 hlt, rfl⟩
      have hplace := Nat.mod_lt generator.next.1.toNat (List.length_pos_of_mem hmem)
      rw [select, draw, List.getElem?_eq_getElem hplace]
      intro hselect
      cases hselect

end Policy

end DemandPaging
