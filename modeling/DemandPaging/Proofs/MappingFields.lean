import DemandPaging.Mapping
import Mathlib.Algebra.Group.Nat.Defs
import Mathlib.Data.Bool.Basic
import Mathlib.Data.Fin.Basic

/-!
# The fields of a mapping

A mapping is a word cut into six fields that share no bit. So what is stored in one of them is read
back from it (`Field.read_write_self`) and leaves the others alone (`Field.read_write_of_ne`), two
of them may be stored in either order (`Field.write_comm`), and whatever is stored, bits outside
those fields stay. From this comes what any sequence of setters leaves of a word, and that a
mapping is told apart from every other by what it was made of (`fields_independent`).
-/

namespace DemandPaging.Mapping

/-! ## Six fields -/

/-- The fields of a mapping. -/
inductive Field where
  | valid
  | readOnly
  | used
  | dirty
  | frame
  | page
deriving DecidableEq

namespace Field

/-- What a field holds: a flag, or a number of 24 bits. -/
abbrev Value : Field → Type
  | valid | readOnly | used | dirty => Bool
  | frame | page => Fin (2 ^ 24)

/-- The bits of a field. -/
def place : Field → BitField
  | valid => validField
  | readOnly => readOnlyField
  | used => usedField
  | dirty => dirtyField
  | frame => frameField
  | page => pageField

/-- The value of a field. -/
def read : (f : Field) → Mapping → f.Value
  | valid, e => e.valid
  | readOnly, e => e.readOnly
  | used, e => e.used
  | dirty, e => e.dirty
  | frame, e => ⟨e.frame, BitField.get_lt _ _⟩
  | page, e => ⟨e.page, BitField.get_lt _ _⟩

/-- The mapping with another value in a field. -/
def write : (f : Field) → f.Value → Mapping → Mapping
  | valid, b, e => e.withValid b
  | readOnly, b, e => e.withReadOnly b
  | used, b, e => e.withUsed b
  | dirty, b, e => e.withDirty b
  | frame, n, e => e.withFrame n
  | page, n, e => e.withPage n

/-- The number that stands in the bits of a field for a value. -/
def code : (f : Field) → f.Value → Nat
  | valid, b | readOnly, b | used, b | dirty, b => b.toNat
  | frame, n | page, n => n.val

variable {f g : Field}

theorem place_disjoint (h : f ≠ g) : f.place.Disjoint g.place := by
  revert h
  cases f <;> cases g <;> decide

theorem code_injective (f : Field) : Function.Injective f.code := by
  cases f with
  | valid | readOnly | used | dirty => exact Function.LeftInverse.injective Bool.ofNat_toNat
  | frame | page => exact Fin.val_injective

theorem code_lt (f : Field) (v : f.Value) : f.code v < 1 <<< f.place.width := by
  cases f with
  | valid | readOnly | used | dirty => exact Bool.toNat_lt v
  | frame | page => exact v.isLt

theorem code_read (f : Field) (e : Mapping) : f.code (f.read e) = f.place.get e.bits := by
  cases f with
  | valid | readOnly | used | dirty => exact BitField.toNat_test rfl e.bits
  | frame | page => rfl

theorem write_eq (f : Field) (v : f.Value) (e : Mapping) :
    f.write v e = ⟨f.place.set e.bits (f.code v)⟩ := by
  cases f <;> rfl

theorem read_write_self (f : Field) (v : f.Value) (e : Mapping) : f.read (f.write v e) = v := by
  refine f.code_injective ?_
  rw [code_read, write_eq, BitField.get_set_of_lt (f.code_lt v)]

theorem read_write_of_ne (h : f ≠ g) (v : g.Value) (e : Mapping) :
    f.read (g.write v e) = f.read e := by
  refine f.code_injective ?_
  rw [code_read, code_read, write_eq, BitField.get_set_of_disjoint (place_disjoint h)]

theorem write_read (f : Field) (e : Mapping) : f.write (f.read e) e = e := by
  rw [write_eq, code_read, BitField.set_get]

theorem write_comm (h : f ≠ g) (v : f.Value) (v' : g.Value) (e : Mapping) :
    f.write v (g.write v' e) = g.write v' (f.write v e) := by
  simp only [write_eq, BitField.set_comm (place_disjoint h)]

end Field

/-! ## The setters in use -/

section

variable (e : Mapping) (b : Bool)

@[simp] theorem valid_withUsed : (e.withUsed b).valid = e.valid :=
  Field.read_write_of_ne (f := .valid) (g := .used) (by decide) b e

@[simp] theorem readOnly_withUsed : (e.withUsed b).readOnly = e.readOnly :=
  Field.read_write_of_ne (f := .readOnly) (g := .used) (by decide) b e

@[simp] theorem used_withUsed : (e.withUsed b).used = b :=
  Field.read_write_self .used b e

@[simp] theorem dirty_withUsed : (e.withUsed b).dirty = e.dirty :=
  Field.read_write_of_ne (f := .dirty) (g := .used) (by decide) b e

@[simp] theorem frame_withUsed : (e.withUsed b).frame = e.frame :=
  congrArg Fin.val (Field.read_write_of_ne (f := .frame) (g := .used) (by decide) b e)

@[simp] theorem page_withUsed : (e.withUsed b).page = e.page :=
  congrArg Fin.val (Field.read_write_of_ne (f := .page) (g := .used) (by decide) b e)

@[simp] theorem valid_withDirty : (e.withDirty b).valid = e.valid :=
  Field.read_write_of_ne (f := .valid) (g := .dirty) (by decide) b e

@[simp] theorem readOnly_withDirty : (e.withDirty b).readOnly = e.readOnly :=
  Field.read_write_of_ne (f := .readOnly) (g := .dirty) (by decide) b e

@[simp] theorem used_withDirty : (e.withDirty b).used = e.used :=
  Field.read_write_of_ne (f := .used) (g := .dirty) (by decide) b e

@[simp] theorem dirty_withDirty : (e.withDirty b).dirty = b :=
  Field.read_write_self .dirty b e

@[simp] theorem frame_withDirty : (e.withDirty b).frame = e.frame :=
  congrArg Fin.val (Field.read_write_of_ne (f := .frame) (g := .dirty) (by decide) b e)

@[simp] theorem page_withDirty : (e.withDirty b).page = e.page :=
  congrArg Fin.val (Field.read_write_of_ne (f := .page) (g := .dirty) (by decide) b e)

@[simp] theorem valid_empty : empty.valid = false := rfl

theorem withUsed_used : e.withUsed e.used = e := Field.write_read .used e

theorem withDirty_dirty : e.withDirty e.dirty = e := Field.write_read .dirty e

end

/-! ## One setter after the other -/

/-- A setter and the value that it is given. -/
structure Setting where
  field : Field
  value : field.Value

namespace Setting

/-- The mapping after the setter. -/
def apply (s : Setting) (e : Mapping) : Mapping := s.field.write s.value e

/-- The value that is given to this field, if the setter is the field's. -/
def valueOf? (s : Setting) (f : Field) : Option f.Value :=
  if h : s.field = f then some (h ▸ s.value) else none

theorem read_apply (s : Setting) (f : Field) (e : Mapping) :
    f.read (s.apply e) = (s.valueOf? f).getD (f.read e) := by
  obtain ⟨g, v⟩ := s
  by_cases h : g = f
  · subst h
    rw [valueOf?, dif_pos rfl, Option.getD_some]
    exact g.read_write_self v e
  · rw [valueOf?, dif_neg h, Option.getD_none]
    exact Field.read_write_of_ne (Ne.symm h) v e

end Setting

/-- The values that setters give to a field, the first one first. -/
def given (settings : List Setting) (f : Field) : List f.Value := settings.filterMap (·.valueOf? f)

/-- The mapping after one setter after the other. -/
def setAll (e : Mapping) (settings : List Setting) : Mapping :=
  settings.foldl (fun e s => s.apply e) e

/-- The last value given to a field stays, and without one the field is left alone. -/
theorem read_setAll (e : Mapping) (settings : List Setting) (f : Field) :
    f.read (e.setAll settings) = (given settings f).getLast?.getD (f.read e) := by
  induction settings generalizing e with
  | nil => rfl
  | cons s rest ih =>
      have hrest : f.read (e.setAll (s :: rest)) =
          (given rest f).getLast?.getD (f.read (s.apply e)) := ih (s.apply e)
      rw [hrest, s.read_apply]
      -- what the first setter gives counts only if no later one is the field's
      cases hs : s.valueOf? f with
      | none => simp [given, hs]
      | some v => simp [given, hs, List.getLast?_cons]

/-! ## The bits of the word -/

namespace Field

/-- The lowest and the highest bit of a field. -/
def ends : Field → Nat × Nat
  | valid => (0, 0)
  | readOnly => (1, 1)
  | used => (2, 2)
  | dirty => (3, 3)
  | frame => (8, 31)
  | page => (32, 55)

/-- The bit of the word is in the field. -/
def Covers (f : Field) (i : Nat) : Prop := f.ends.1 ≤ i ∧ i ≤ f.ends.2

instance (f : Field) (i : Nat) : Decidable (f.Covers i) := inferInstanceAs (Decidable (_ ∧ _))

/-- What the word holds in the bits of a field. -/
def slice : (f : Field) → Word → f.Value
  | valid, w => w.getLsbD 0
  | readOnly, w => w.getLsbD 1
  | used, w => w.getLsbD 2
  | dirty, w => w.getLsbD 3
  | frame, w => (w.extractLsb 31 8).toFin
  | page, w => (w.extractLsb 55 32).toFin

theorem read_eq_slice (f : Field) (w : Word) : f.read ⟨w⟩ = f.slice w := by
  cases f <;> rfl

theorem covers_iff (f : Field) (i : Nat) :
    f.Covers i ↔ f.place.lowest ≤ i ∧ i < f.place.lowest + f.place.width := by
  cases f <;> exact and_congr_right fun _ => Nat.lt_succ_iff.symm

/-- A bit outside a field stays when the field is stored. -/
theorem getLsbD_write {f : Field} {i : Nat} (h : ¬ f.Covers i) (v : f.Value) (e : Mapping) :
    (f.write v e).bits.getLsbD i = e.bits.getLsbD i := by
  rw [write_eq, BitField.getLsbD_set, if_neg ((covers_iff f i).not.1 h)]

end Field

/-- A bit outside all the fields that are set stays. -/
theorem getLsbD_setAll {settings : List Setting} {i : Nat}
    (h : ∀ s ∈ settings, ¬ s.field.Covers i) (e : Mapping) :
    (e.setAll settings).bits.getLsbD i = e.bits.getLsbD i := by
  induction settings generalizing e with
  | nil => rfl
  | cons s rest ih =>
      obtain ⟨hs, hrest⟩ := List.forall_mem_cons.1 h
      exact (ih hrest (s.apply e)).trans (Field.getLsbD_write hs s.value e)

/-! ## New mappings -/

section

variable {page frame : Nat} {readOnly : Bool} {c : Mapping}

/-- A number that fits is one of 24 bits. -/
theorem le_maxPageNumber_iff {n : Nat} : n ≤ Address.maxPageNumber ↔ n < 2 ^ 24 :=
  Nat.lt_succ_iff.symm

/-- A mapping is made of numbers that fit. They are set in the empty word, then the flag is, and at
last the mapping is made valid. -/
theorem create_eq_ok_iff : create page frame readOnly = .ok c ↔
    ∃ (hp : page < 2 ^ 24) (hf : frame < 2 ^ 24),
      c = empty.setAll [⟨.page, ⟨page, hp⟩⟩, ⟨.frame, ⟨frame, hf⟩⟩, ⟨.readOnly, readOnly⟩,
        ⟨.valid, true⟩] := by
  have hpage := le_maxPageNumber_iff (n := page)
  have hframe := le_maxPageNumber_iff (n := frame)
  rw [create]
  split
  · exact iff_of_false nofun fun ⟨_, _, _⟩ => by omega
  · split
    · exact iff_of_false nofun fun ⟨_, _, _⟩ => by omega
    · rw [Except.ok.injEq]
      exact ⟨fun h => ⟨by omega, by omega, h.symm⟩, fun ⟨_, _, h⟩ => h.symm⟩

theorem exists_create (readOnly : Bool) (hp : page ≤ Address.maxPageNumber)
    (hf : frame ≤ Address.maxPageNumber) : ∃ c, create page frame readOnly = .ok c :=
  ⟨_, create_eq_ok_iff.2 ⟨le_maxPageNumber_iff.1 hp, le_maxPageNumber_iff.1 hf, rfl⟩⟩

/-- A mapping is refused for the first of its numbers that does not fit. -/
theorem create_eq_error_iff {halt : Halt} : create page frame readOnly = .error halt ↔
    2 ^ 24 ≤ page ∧ halt = .pageTooWide page ∨
      page < 2 ^ 24 ∧ 2 ^ 24 ≤ frame ∧ halt = .frameTooWide frame := by
  have hpage := le_maxPageNumber_iff (n := page)
  have hframe := le_maxPageNumber_iff (n := frame)
  rw [create]
  split
  · rw [Except.error.injEq]
    constructor
    · exact fun h => .inl ⟨by omega, h.symm⟩
    · rintro (⟨_, h⟩ | ⟨_, _⟩)
      · exact h.symm
      · omega
  · split
    · rw [Except.error.injEq]
      constructor
      · exact fun h => .inr ⟨by omega, by omega, h.symm⟩
      · rintro (⟨_, _⟩ | ⟨_, _, h⟩)
        · omega
        · exact h.symm
    · exact iff_of_false nofun (by omega)

/-- A new mapping has the numbers and the flag that it was made of, and is valid, unused and
clean. -/
theorem fields_of_create (h : create page frame readOnly = .ok c) :
    c.page = page ∧ c.frame = frame ∧ c.readOnly = readOnly ∧ c.valid = true ∧ c.used = false ∧
      c.dirty = false := by
  obtain ⟨hp, hf, rfl⟩ := create_eq_ok_iff.1 h
  -- each field is set at most once, and a flag that is not set is that of the empty word
  have hread := read_setAll empty [⟨.page, ⟨page, hp⟩⟩, ⟨.frame, ⟨frame, hf⟩⟩,
    ⟨.readOnly, readOnly⟩, ⟨.valid, true⟩]
  exact ⟨congrArg Fin.val (hread .page), congrArg Fin.val (hread .frame), hread .readOnly,
    hread .valid, hread .used, hread .dirty⟩

end

/-! ## Independence -/

/-- The fields of a mapping are independent. Whatever word it starts from and whichever setters are
called on it, each getter gives the last value that its field was given, or what the word holds in
the field's bits if there was none, and the bits outside the fields that were set are those of the
word. Setters of different fields may be called in either order. A mapping is made of a page, a
frame and a flag unless one of the numbers takes more than 24 bits. It gives all three back, is
valid, unused and clean, and is not made of any others. -/
theorem fields_independent :
    (∀ (w : Word) (settings : List Setting),
      (∀ f, f.read (setAll ⟨w⟩ settings) = (given settings f).getLast?.getD (f.slice w)) ∧
      ∀ i, (∀ s ∈ settings, ¬ s.field.Covers i) →
        (setAll ⟨w⟩ settings).bits.getLsbD i = w.getLsbD i) ∧
    (∀ s t : Setting, s.field ≠ t.field → ∀ e, s.apply (t.apply e) = t.apply (s.apply e)) ∧
    (∀ page frame readOnly, (∃ halt, create page frame readOnly = .error halt) ↔
      2 ^ 24 - 1 < page ∨ 2 ^ 24 - 1 < frame) ∧
    (∀ page frame readOnly c, create page frame readOnly = .ok c →
      c.page = page ∧ c.frame = frame ∧ c.readOnly = readOnly ∧ c.valid = true ∧
        c.used = false ∧ c.dirty = false) ∧
    ∀ page frame readOnly page' frame' readOnly' c, create page frame readOnly = .ok c →
      create page' frame' readOnly' = .ok c →
        page = page' ∧ frame = frame' ∧ readOnly = readOnly' := by
  refine ⟨fun w settings => ⟨fun f => ?_, fun i h => getLsbD_setAll h _⟩,
    fun s t h e => Field.write_comm h s.value t.value e, fun page frame readOnly => ?_,
    fun page frame readOnly c => fields_of_create, ?_⟩
  · rw [read_setAll, f.read_eq_slice]
  · constructor
    · rintro ⟨halt, h⟩
      rcases create_eq_error_iff.1 h with ⟨hpage, -⟩ | ⟨-, hframe, -⟩
      · exact .inl (by omega)
      · exact .inr (by omega)
    · intro h
      cases hcreate : create page frame readOnly with
      | error halt => exact ⟨halt, rfl⟩
      | ok c =>
          obtain ⟨hpage, hframe, -⟩ := create_eq_ok_iff.1 hcreate
          omega
  · intro page frame readOnly page' frame' readOnly' c h h'
    obtain ⟨hpage, hframe, hreadOnly, -⟩ := fields_of_create h
    obtain ⟨hpage', hframe', hreadOnly', -⟩ := fields_of_create h'
    exact ⟨hpage.symm.trans hpage', hframe.symm.trans hframe', hreadOnly.symm.trans hreadOnly'⟩

/-- The page is set twice, and a flag is cleared in between. -/
def pageTwice : List Setting :=
  [⟨.page, ⟨0x123456, by decide⟩⟩, ⟨.dirty, false⟩, ⟨.page, ⟨7, by decide⟩⟩]

/-- In a word of ones the second page is read, the flag is clear, and the frame and the bits of no
field are still ones. -/
theorem fields_independent_pageTwice :
    (setAll ⟨BitVec.allOnes 64⟩ pageTwice).page = 7 ∧
    (setAll ⟨BitVec.allOnes 64⟩ pageTwice).dirty = false ∧
    (setAll ⟨BitVec.allOnes 64⟩ pageTwice).frame = 0xffffff ∧
    (setAll ⟨BitVec.allOnes 64⟩ pageTwice).bits.getLsbD 63 = true ∧
    (empty.withPage 7).withFrame 3 = (empty.withFrame 3).withPage 7 ∧
    (∃ c, create 7 3 true = .ok c ∧ c.page = 7 ∧ c.frame = 3 ∧ create 7 3 false ≠ .ok c) ∧
    ∃ halt, create 7 0x1000000 true = .error halt := by
  obtain ⟨hset, hcomm, hrefused, hmade, hinjective⟩ := fields_independent
  obtain ⟨hread, hkept⟩ := hset (BitVec.allOnes 64) pageTwice
  obtain ⟨c, hc⟩ : ∃ c, create 7 3 true = .ok c := exists_create true (by decide) (by decide)
  obtain ⟨hpage, hframe, -⟩ := hmade _ _ _ _ hc
  refine ⟨congrArg Fin.val (hread .page), hread .dirty, congrArg Fin.val (hread .frame),
    hkept 63 (by decide), hcomm ⟨.frame, ⟨3, by decide⟩⟩ ⟨.page, ⟨7, by decide⟩⟩ (by decide) empty,
    ⟨c, hc, hpage, hframe, fun h => ?_⟩, (hrefused _ _ _).2 (.inr (by decide))⟩
  exact absurd (hinjective _ _ _ _ _ _ _ hc h).2.2 (by decide)

end DemandPaging.Mapping
