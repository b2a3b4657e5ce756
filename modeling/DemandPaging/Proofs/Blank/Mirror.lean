import DemandPaging.Paging.Action
import DemandPaging.Proofs.Blank.Erasure
import DemandPaging.Proofs.SwapArea

/-!
# What is blind to byte values

A computation is mirrored by another one when that one gives the same without byte values: the same
halt, the same error, or the same result with bytes of value zero (`Mirrors`). An action on the
tables is blind when what it does without byte values mirrors what it does with them, wherever the
swap area is sound (`Paging.Blind`). Both are put together from their parts, so one lemma for each
small action is enough.

Along the way no frame comes or goes; `Paging.Whole` says so too.
-/

namespace DemandPaging

variable {α α' β β' : Type}

/-- The second computation gives what the first one gives, changed by `keep`, and the results of the
first one are `good`. -/
def Mirrors (keep : α → α') (good : α → Prop) (x : Except Halt α) (x' : Except Halt α') : Prop :=
  x' = x.map keep ∧ ∀ a, x = .ok a → good a

namespace Mirrors

variable {keep : α → α'} {keep' : β → β'} {good : α → Prop} {good' : β → Prop}
  {x : Except Halt α} {x' : Except Halt α'}

theorem ok {a : α} (h : good a) : Mirrors keep good (.ok a) (.ok (keep a)) :=
  ⟨rfl, fun _ ha => Except.ok.inj ha ▸ h⟩

theorem error (halt : Halt) : Mirrors keep good (.error halt) (.error halt) := ⟨rfl, nofun⟩

/-- What needs no bytes is its own mirror. -/
theorem refl (x : Except Halt α) : Mirrors id (fun _ => True) x x :=
  ⟨(congrFun Except.map_id x).symm, fun _ _ => trivial⟩

theorem bind {f : α → Except Halt β} {f' : α' → Except Halt β'} (h : Mirrors keep good x x')
    (hf : ∀ a, good a → Mirrors keep' good' (f a) (f' (keep a))) :
    Mirrors keep' good' (x >>= f) (x' >>= f') := by
  obtain ⟨rfl, hgood⟩ := h
  cases x with
  | error halt => exact .error halt
  | ok a => exact hf a (hgood a rfl)

theorem map {f : α → β} {f' : α' → β'} (h : Mirrors keep good x x')
    (hf : ∀ a, good a → f' (keep a) = keep' (f a) ∧ good' (f a)) :
    Mirrors keep' good' (x.map f) (x'.map f') := by
  obtain ⟨rfl, hgood⟩ := h
  cases x with
  | error halt => exact .error halt
  | ok a =>
      obtain ⟨heq, hgood'⟩ := hf a (hgood a rfl)
      exact ⟨congrArg Except.ok heq, fun _ hb => Except.ok.inj hb ▸ hgood'⟩

end Mirrors

/-! ## Actions on the tables -/

namespace Paging

variable {σ : Type} [Extent σ] [Extent.Reliable σ] {frames : Nat}

/-- The swap area is sound, and memory has so many frames. -/
structure Whole (frames : Nat) (s : Paging σ) : Prop where
  swap : s.swap.Sound
  frames_eq : s.processor.memory.size = frames

/-- Without byte values `act'` does what `act` does, and no frame comes or goes. -/
def Blind (frames : Nat) (keep : α → α') (act : PagingM σ α) (act' : PagingM BlankExtent α') :
    Prop :=
  ∀ s, s.Whole frames → Mirrors (fun x => (x.1.map keep, x.2.erased))
    (fun x => x.2.Whole frames) (act s) (act' s.erased)

namespace Blind

variable {keep : α → α'} {keep' : β → β'} {act : PagingM σ α} {act' : PagingM BlankExtent α'}

theorem of_pure (x : α) : Blind (σ := σ) frames keep (pure x) (pure (keep x)) := fun _ hs => .ok hs

theorem of_throw (cause : PagingError) :
    Blind (σ := σ) frames keep (throw cause) (throw cause) :=
  fun _ hs => .ok hs

theorem of_orHalt {x : Except Halt α} {x' : Except Halt α'} (h : x' = x.map keep) :
    Blind (σ := σ) frames keep (orHalt x) (orHalt x') := by
  intro s hs
  subst h
  cases x with
  | error halt => exact .error halt
  | ok a => exact .ok hs

theorem of_orFail (x : Except PagingError α) :
    Blind (σ := σ) frames id (orFail x) (orFail x) := by
  intro s hs
  refine ⟨congrArg (fun x => Except.ok (x, s.erased)) (congrFun Except.map_id x).symm,
    fun _ hx => ?_⟩
  exact Except.ok.inj hx ▸ hs

theorem bind {next : α → PagingM σ β} {next' : α' → PagingM BlankExtent β'}
    (h : Blind frames keep act act') (hnext : ∀ x, Blind frames keep' (next x) (next' (keep x))) :
    Blind frames keep' (act >>= next) (act' >>= next') := by
  intro s hs
  rw [bind_run, bind_run]
  refine (h s hs).bind fun x hx => ?_
  obtain ⟨result, s'⟩ := x
  cases result with
  | error cause => exact .ok hx
  | ok a => exact hnext a s' hx

/-- An action that may halt first. -/
theorem orHalt_bind {good : α → Prop} {x : Except Halt α} {x' : Except Halt α'}
    {next : α → PagingM σ β} {next' : α' → PagingM BlankExtent β'} (h : Mirrors keep good x x')
    (hnext : ∀ a, good a → Blind frames keep' (next a) (next' (keep a))) :
    Blind frames keep' (orHalt x >>= next) (orHalt x' >>= next') := by
  intro s hs
  obtain ⟨rfl, hgood⟩ := h
  rw [bind_run, bind_run]
  cases x with
  | error halt => exact .error halt
  | ok a => exact hnext a (hgood a rfl) s hs

/-- An action whose errors are handled. -/
theorem catching {handle : PagingError → PagingM σ α}
    {handle' : PagingError → PagingM BlankExtent α'} (h : Blind frames keep act act')
    (hhandle : ∀ cause, Blind frames keep (handle cause) (handle' cause)) :
    Blind frames keep (tryCatch act handle) (tryCatch act' handle') := by
  intro s hs
  rw [tryCatch_run, tryCatch_run]
  refine (h s hs).bind fun x hx => ?_
  obtain ⟨result, s'⟩ := x
  cases result with
  | error cause => exact hhandle cause s' hx
  | ok a => exact .ok hx

/-- An action that looks at the tables first. -/
theorem get_bind {next : Paging σ → PagingM σ β}
    {next' : Paging BlankExtent → PagingM BlankExtent β'}
    (h : ∀ s, s.Whole frames → Blind frames keep' (next s) (next' s.erased)) :
    Blind frames keep' (get >>= next) (get >>= next') := by
  intro s hs
  rw [bind_run, bind_run]
  exact h s hs s hs

theorem of_modify {f : Paging σ → Paging σ} {f' : Paging BlankExtent → Paging BlankExtent}
    (h : ∀ s, s.Whole frames → f' s.erased = (f s).erased ∧ (f s).Whole frames) :
    Blind frames id (modify f : PagingM σ PUnit) (modify f') := by
  intro s hs
  obtain ⟨heq, hwhole⟩ := h s hs
  rw [modify_run, modify_run, heq]
  exact .ok hwhole

theorem of_set {s : Paging σ} (hs : s.Whole frames) :
    Blind frames id (set s : PagingM σ PUnit) (set s.erased) :=
  fun _ _ => .ok hs

end Blind

end Paging

end DemandPaging
