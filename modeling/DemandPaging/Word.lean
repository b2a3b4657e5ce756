/-!
# Bit fields of a machine word

The mapping cache and the frame table pack their records into 64-bit words. A `BitField`
names a run of neighbouring bits; `get` reads the number kept there and `set` replaces it. The
main statements are `testBit_get` and `getLsbD_set`, which give every bit of both results, and from
them `get_set_of_lt` (a number that fits is read back), `get_set_of_disjoint` (a field that shares
no bit with another is left alone) and `set_comm` (two such fields may be stored in either order).
-/

namespace DemandPaging

/-- The machine word: 64 bits. -/
abbrev Word := BitVec 64

/-- A run of `width` bits of a word, counted from bit `lowest`. -/
structure BitField where
  lowest : Nat
  width : Nat
  fits : lowest + width ≤ 64 := by decide

namespace BitField

/-- The word whose set bits are exactly those of the field. -/
def mask (f : BitField) : Word := BitVec.ofNat 64 (1 <<< f.width - 1) <<< f.lowest

/-- The number kept in the field. -/
def get (f : BitField) (w : Word) : Nat := (w >>> f.lowest).toNat % 1 <<< f.width

/-- The word with the field replaced by `n`, whose bits above the field's width are dropped. -/
def set (f : BitField) (w : Word) (n : Nat) : Word :=
  (w &&& ~~~f.mask) ||| (BitVec.ofNat 64 (n % 1 <<< f.width) <<< f.lowest)

/-- Whether a one-bit field is set. -/
def test (f : BitField) (w : Word) : Bool := w.getLsbD f.lowest

/-- The word with a one-bit field set to `b`. -/
def assign (f : BitField) (w : Word) (b : Bool) : Word := f.set w b.toNat

/-- The bit that says of a record whether it is in use. -/
abbrev inUse : BitField := { lowest := 0, width := 1 }

/-- Where a record keeps the number of a page. -/
abbrev pageNumber : BitField := { lowest := 32, width := 24 }

/-- Two fields that share no bit. -/
def Disjoint (f g : BitField) : Prop :=
  f.lowest + f.width ≤ g.lowest ∨ g.lowest + g.width ≤ f.lowest

instance (f g : BitField) : Decidable (f.Disjoint g) :=
  inferInstanceAs (Decidable (_ ∨ _))

/-- Bit `i` of the number in the field is bit `lowest + i` of the word. -/
theorem testBit_get (f : BitField) (w : Word) (i : Nat) :
    (f.get w).testBit i = (decide (i < f.width) && w.getLsbD (f.lowest + i)) := by
  simp only [get, Nat.one_shiftLeft, Nat.testBit_mod_two_pow, BitVec.toNat_ushiftRight,
    Nat.testBit_shiftRight, BitVec.testBit_toNat]

theorem getLsbD_mask (f : BitField) (i : Nat) :
    f.mask.getLsbD i = (decide (f.lowest ≤ i) && decide (i < f.lowest + f.width)) := by
  have h := f.fits
  simp only [mask, Nat.one_shiftLeft, BitVec.getLsbD_shiftLeft, BitVec.getLsbD_ofNat,
    Nat.testBit_two_pow_sub_one]
  by_cases h1 : i < f.lowest
  · have h3 : ¬ f.lowest ≤ i := by omega
    simp [h1, h3]
  · by_cases h2 : i < f.lowest + f.width
    · have h3 : i - f.lowest < f.width := by omega
      have h4 : f.lowest ≤ i := by omega
      simp [h1, h2, h3, h4]
      omega
    · have h3 : ¬ i - f.lowest < f.width := by omega
      simp [h2, h3]

/-- Inside the field a bit comes from the number stored, outside it from the old word. -/
theorem getLsbD_set (f : BitField) (w : Word) (n i : Nat) :
    (f.set w n).getLsbD i =
      if f.lowest ≤ i ∧ i < f.lowest + f.width then n.testBit (i - f.lowest) else w.getLsbD i := by
  have h := f.fits
  by_cases hi : i < 64
  · simp only [set, Nat.one_shiftLeft, BitVec.getLsbD_or, BitVec.getLsbD_and, BitVec.getLsbD_not,
      getLsbD_mask, BitVec.getLsbD_shiftLeft, BitVec.getLsbD_ofNat, Nat.testBit_mod_two_pow]
    by_cases h1 : i < f.lowest
    · have h3 : ¬ f.lowest ≤ i := by omega
      simp [h1, h3, hi]
    · by_cases h2 : i < f.lowest + f.width
      · have h3 : i - f.lowest < f.width := by omega
        have h4 : i - f.lowest < 64 := by omega
        have h5 : f.lowest ≤ i := by omega
        simp [h1, h2, h3, h4, h5, hi]
      · have h3 : ¬ i - f.lowest < f.width := by omega
        have h5 : f.lowest ≤ i := by omega
        simp [h1, h2, h3, hi]
  · have h3 : ¬ (f.lowest ≤ i ∧ i < f.lowest + f.width) := by omega
    rw [if_neg h3, BitVec.getLsbD_of_ge _ _ (by omega), BitVec.getLsbD_of_ge _ _ (by omega)]

/-- What was stored is read back, cut to the field's width. -/
theorem get_set_self (f : BitField) (w : Word) (n : Nat) :
    f.get (f.set w n) = n % 1 <<< f.width := by
  apply Nat.eq_of_testBit_eq
  intro i
  rw [testBit_get, getLsbD_set, Nat.one_shiftLeft, Nat.testBit_mod_two_pow]
  by_cases h : i < f.width <;> simp [h]

/-- A number that fits is read back. -/
theorem get_set_of_lt {f : BitField} {n : Nat} (h : n < 1 <<< f.width) (w : Word) :
    f.get (f.set w n) = n := by
  rw [get_set_self, Nat.mod_eq_of_lt h]

/-- Storing in one field leaves a disjoint one as it was. -/
theorem get_set_of_disjoint {f g : BitField} (h : f.Disjoint g) (w : Word) (n : Nat) :
    f.get (g.set w n) = f.get w := by
  apply Nat.eq_of_testBit_eq
  intro i
  rw [testBit_get, testBit_get, getLsbD_set]
  by_cases hi : i < f.width
  · have h' : ¬ (g.lowest ≤ f.lowest + i ∧ f.lowest + i < g.lowest + g.width) := by
      rcases h with h | h <;> omega
    simp [h']
  · simp [hi]

theorem get_lt (f : BitField) (w : Word) : f.get w < 1 <<< f.width := by
  apply Nat.mod_lt
  rw [Nat.one_shiftLeft]
  exact Nat.two_pow_pos _

/-- A bit outside a field is left alone when the field is stored. -/
theorem test_set_of_outside {f g : BitField}
    (h : f.lowest < g.lowest ∨ g.lowest + g.width ≤ f.lowest) (w : Word) (n : Nat) :
    f.test (g.set w n) = f.test w := by
  rw [test, getLsbD_set, if_neg (by omega)]
  rfl

/-- Storing what a field has changes nothing. -/
theorem set_get (f : BitField) (w : Word) : f.set w (f.get w) = w := by
  refine BitVec.eq_of_getLsbD_eq fun i _ => ?_
  rw [getLsbD_set]
  split
  · rename_i hi
    rw [testBit_get, decide_eq_true (by omega), Bool.true_and, Nat.add_sub_cancel' hi.1]
  · rfl

/-- What is stored last stays. -/
theorem set_set (f : BitField) (w : Word) (n k : Nat) : f.set (f.set w n) k = f.set w k := by
  refine BitVec.eq_of_getLsbD_eq fun i _ => ?_
  rw [getLsbD_set, getLsbD_set, getLsbD_set]
  split <;> rfl

/-- What is stored in two fields that share no bit may be stored in either order. -/
theorem set_comm {f g : BitField} (h : f.Disjoint g) (w : Word) (n k : Nat) :
    f.set (g.set w k) n = g.set (f.set w n) k := by
  refine BitVec.eq_of_getLsbD_eq fun i _ => ?_
  rw [getLsbD_set, getLsbD_set, getLsbD_set, getLsbD_set]
  by_cases hf : f.lowest ≤ i ∧ i < f.lowest + f.width
  · have hg : ¬ (g.lowest ≤ i ∧ i < g.lowest + g.width) := by
      rcases h with h | h <;> omega
    rw [if_pos hf, if_neg hg, if_pos hf]
  · rw [if_neg hf, if_neg hf]

/-- The bit of a one-bit field is the number kept in it. -/
theorem toNat_test {f : BitField} (hf : f.width = 1) (w : Word) : (f.test w).toNat = f.get w := by
  rw [get, hf, BitVec.toNat_ushiftRight, Nat.shiftRight_eq_div_pow]
  exact Nat.toNat_testBit _ _

end BitField

end DemandPaging
