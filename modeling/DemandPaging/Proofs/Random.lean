import DemandPaging.Random
import Mathlib.Data.BitVec
import Mathlib.Dynamics.PeriodicPts.Lemmas

/-!
# The states of a generator

A generator's step is three exclusive ors of a word with itself shifted. Shifting a word again and
again leaves zero, so each of the three can be undone (`xor_self_injective`), and the step permutes
the words. Zero goes to zero, and so nothing else does. A generator starts at another word than zero
and never gets there (`iterate_scramble_ne_zero`); since the words are finitely many it comes back
to where it started, again and again (`Random.never_stuck`).

Nor does any other word than zero stay where it is (`scramble_ne_self`). The step keeps exclusive
ors, so it has a characteristic polynomial over two elements, and the polynomial of the step gives
zero for every word (`polynomial_scramble`). On a word that stays where it is each of its terms
gives the word again. They are odd in number, so the word is zero.
-/

namespace DemandPaging

namespace Word

/-- A word that is its own image under a function is zero, if the function applied often enough
leaves zero. -/
theorem eq_zero_of_fixed {f : Word → Word} {k : Nat} (hzero : ∀ x, f^[k] x = 0#64) {x : Word}
    (hfixed : f x = x) : x = 0#64 := by
  rw [← hzero x]
  exact (Function.iterate_fixed hfixed k).symm

/-- The exclusive or of a word with its image keeps exclusive ors, if the function does. -/
theorem xor_self_xor {f : Word → Word} (hxor : ∀ x y, f (x ^^^ y) = f x ^^^ f y) (x y : Word) :
    (x ^^^ y) ^^^ f (x ^^^ y) = (x ^^^ f x) ^^^ (y ^^^ f y) := by
  rw [hxor]
  ac_rfl

/-- The exclusive or of a word with its image can be undone, for a function that keeps exclusive ors
and leaves zero when it is applied often enough. -/
theorem xor_self_injective {f : Word → Word} {k : Nat}
    (hxor : ∀ x y, f (x ^^^ y) = f x ^^^ f y) (hzero : ∀ x, f^[k] x = 0#64) :
    Function.Injective fun x => x ^^^ f x := by
  intro x y hxy
  have hxy : x ^^^ f x = y ^^^ f y := hxy
  -- the difference of the two words is its own image
  have hfixed : f (x ^^^ y) = x ^^^ y := by
    rw [← BitVec.xor_eq_zero_iff]
    calc f (x ^^^ y) ^^^ (x ^^^ y) = (x ^^^ y) ^^^ f (x ^^^ y) := BitVec.xor_comm _ _
      _ = (x ^^^ f x) ^^^ (y ^^^ f y) := xor_self_xor hxor x y
      _ = 0#64 := BitVec.xor_eq_zero_iff.2 hxy
  exact BitVec.xor_eq_zero_iff.1 (eq_zero_of_fixed hzero hfixed)

theorem iterate_ushiftRight (n k : Nat) (x : Word) :
    (fun w : Word => w >>> n)^[k] x = x >>> (k * n) := by
  induction k with
  | zero => rw [Nat.zero_mul, BitVec.ushiftRight_zero, Function.iterate_zero_apply]
  | succ k ih => rw [Function.iterate_succ_apply', ih, Nat.succ_mul, BitVec.shiftRight_add]

theorem iterate_shiftLeft (n k : Nat) (x : Word) :
    (fun w : Word => w <<< n)^[k] x = x <<< (k * n) := by
  induction k with
  | zero => rw [Nat.zero_mul, BitVec.shiftLeft_zero, Function.iterate_zero_apply]
  | succ k ih => rw [Function.iterate_succ_apply', ih, Nat.succ_mul, BitVec.shiftLeft_add]

/-- An exclusive or with the word shifted right can be undone. -/
theorem xor_ushiftRight_injective {n : Nat} (hn : 0 < n) :
    Function.Injective fun x : Word => x ^^^ (x >>> n) := by
  apply xor_self_injective (f := fun w => w >>> n) (k := 64)
  · exact fun x y => BitVec.ushiftRight_xor_distrib x y n
  · intro x
    rw [iterate_ushiftRight]
    exact BitVec.ushiftRight_eq_zero (Nat.le_mul_of_pos_right 64 hn)

/-- An exclusive or with the word shifted left can be undone. -/
theorem xor_shiftLeft_injective {n : Nat} (hn : 0 < n) :
    Function.Injective fun x : Word => x ^^^ (x <<< n) := by
  apply xor_self_injective (f := fun w => w <<< n) (k := 64)
  · exact fun x y => BitVec.shiftLeft_xor_distrib x y n
  · intro x
    rw [iterate_shiftLeft]
    exact BitVec.shiftLeft_eq_zero (Nat.le_mul_of_pos_right 64 hn)

/-! ## Polynomials -/

/-- The exclusive or of the words that a function comes to after as many steps as there are places
in the list with `true`: a polynomial over two elements, lowest term first, at the function. -/
def combine (f : Word → Word) : List Bool → Word → Word
  | [], _ => 0#64
  | c :: rest, x => (if c then x else 0#64) ^^^ combine f rest (f x)

/-- A polynomial at a function that keeps exclusive ors keeps them, too. -/
theorem combine_xor {f : Word → Word} (hxor : ∀ x y, f (x ^^^ y) = f x ^^^ f y)
    (coefficients : List Bool) (x y : Word) :
    combine f coefficients (x ^^^ y) = combine f coefficients x ^^^ combine f coefficients y := by
  induction coefficients generalizing x y with
  | nil => exact BitVec.xor_self.symm
  | cons c rest ih =>
      rw [combine, combine, combine, hxor, ih]
      cases c with
      | true =>
          rw [if_pos rfl, if_pos rfl, if_pos rfl]
          ac_rfl
      | false => simp only [Bool.false_eq_true, if_false, BitVec.zero_xor]

/-- On a word that stays where it is every term gives the word again. -/
theorem combine_of_fixed {f : Word → Word} {x : Word} (hfixed : f x = x)
    (coefficients : List Bool) :
    combine f coefficients x = if (coefficients.count true) % 2 = 1 then x else 0#64 := by
  induction coefficients with
  | nil => rfl
  | cons c rest ih =>
      rw [combine, hfixed, ih]
      cases c with
      | true =>
          rw [if_pos rfl, List.count_cons_self]
          split
          · rw [if_neg (by omega), BitVec.xor_self]
          · rw [if_pos (by omega), BitVec.xor_zero]
      | false => simp

/-- A function that keeps exclusive ors is zero if it is so at all words with one bit. -/
theorem eq_zero_of_twoPow {g : Word → Word} (hxor : ∀ x y, g (x ^^^ y) = g x ^^^ g y)
    (hpow : ∀ i : Fin 64, g (BitVec.twoPow 64 i) = 0#64) (x : Word) : g x = 0#64 := by
  -- by induction on how many of the low bits may be set
  have hlow : ∀ n ≤ 64, ∀ x : Word, (∀ i, n ≤ i → x.getLsbD i = false) → g x = 0#64 := by
    intro n hn
    induction n with
    | zero =>
        intro x hx
        obtain rfl : x = 0#64 := BitVec.eq_of_getLsbD_eq fun i _ => by
          rw [hx i (Nat.zero_le i), BitVec.getLsbD_zero]
        have hself := hxor 0#64 0#64
        rwa [BitVec.xor_self, BitVec.xor_self] at hself
    | succ n ih =>
        intro x hx
        have ih := ih (by omega)
        by_cases hbit : x.getLsbD n = true
        · -- without its top bit the word has fewer bits
          have hrest : g (x ^^^ BitVec.twoPow 64 n) = 0#64 := by
            refine ih _ fun i hi => ?_
            rw [BitVec.getLsbD_xor, BitVec.getLsbD_twoPow]
            rcases Nat.eq_or_lt_of_le hi with rfl | hlt
            · simp [hbit, show n < 64 by omega]
            · simp [hx i hlt, Nat.ne_of_lt hlt]
          have hpow := hpow ⟨n, by omega⟩
          rw [hxor, hpow, BitVec.xor_zero] at hrest
          exact hrest
        · refine ih x fun i hi => ?_
          rcases Nat.eq_or_lt_of_le hi with rfl | hlt
          · exact Bool.eq_false_iff.2 hbit
          · exact hx i hlt
  exact hlow 64 (Nat.le_refl 64) x fun i hi => BitVec.getLsbD_of_ge x i hi

end Word

namespace Random

/-! ## The step -/

theorem scramble_injective : Function.Injective scramble := by
  have hright : Function.Injective fun x : Word => x ^^^ (x >>> 27) :=
    Word.xor_ushiftRight_injective (by decide)
  have hleft : Function.Injective fun x : Word => x ^^^ (x <<< 25) :=
    Word.xor_shiftLeft_injective (by decide)
  exact hright.comp (hleft.comp (Word.xor_ushiftRight_injective (by decide)))

theorem scramble_bijective : Function.Bijective scramble := by
  have : Finite Word := Finite.of_injective BitVec.toFin BitVec.toFin_injective
  exact Finite.injective_iff_bijective.1 scramble_injective

theorem scramble_zero : scramble 0#64 = 0#64 := by decide

/-- Only zero goes to zero. -/
theorem scramble_ne_zero {x : Word} (h : x ≠ 0#64) : scramble x ≠ 0#64 := by
  intro hx
  exact h (scramble_injective (hx.trans scramble_zero.symm))

theorem scramble_xor (x y : Word) : scramble (x ^^^ y) = scramble x ^^^ scramble y := by
  have hright (n : Nat) := Word.xor_self_xor (f := (· >>> n))
    fun x y => BitVec.ushiftRight_xor_distrib x y n
  have hleft (n : Nat) := Word.xor_self_xor (f := (· <<< n))
    fun x y => BitVec.shiftLeft_xor_distrib x y n
  simp only [scramble, hright 12, hleft 25, hright 27]

/-- The characteristic polynomial of the step over two elements, lowest term first. -/
def polynomial : List Bool := (List.range 65).map (Nat.testBit 0x10018b73aa7cc9b71)

/-- The step satisfies its polynomial. -/
theorem polynomial_scramble (x : Word) : Word.combine scramble polynomial x = 0#64 := by
  refine Word.eq_zero_of_twoPow (Word.combine_xor scramble_xor polynomial) ?_ x
  decide +kernel

/-- No word but zero stays where it is. -/
theorem scramble_ne_self {x : Word} (h : x ≠ 0#64) : scramble x ≠ x := by
  intro hfixed
  have hodd := Word.combine_of_fixed hfixed polynomial
  rw [polynomial_scramble, if_pos (by decide)] at hodd
  exact h hodd.symm

/-- After some steps a word comes back, whatever it is. -/
theorem exists_period (x : Word) : ∃ n, 0 < n ∧ ∀ k, scramble^[k + n] x = scramble^[k] x := by
  have : Finite Word := Finite.of_injective BitVec.toFin BitVec.toFin_injective
  obtain ⟨n, hpos, hperiod⟩ := Function.mem_periodicPts.1 (scramble_injective.mem_periodicPts x)
  refine ⟨n, hpos, fun k => ?_⟩
  rw [Function.iterate_add_apply, hperiod.eq]

/-! ## Draws -/

/-- What a generator can be asked for. -/
inductive Draw where
  /-- the next word -/
  | word
  /-- a number below a bound -/
  | below (bound : Nat)
deriving DecidableEq

/-- Whether a draw has an answer. There is no number below zero. -/
def Draw.isAnswered : Draw → Bool
  | word => true
  | below bound => bound ≠ 0

/-- The generator after a draw. One that has no answer leaves it as it was. -/
def draw (r : Random) : Draw → Random
  | .word => r.next.2
  | .below bound =>
      match r.below bound with
      | .ok (_, r') => r'
      | .error _ => r

/-- The generator after one draw after the other. -/
def draws (r : Random) (asked : List Draw) : Random := asked.foldl draw r

/-- A draw with an answer takes one step, whatever is asked for. -/
theorem state_draw (r : Random) (d : Draw) :
    (r.draw d).state = if d.isAnswered then scramble r.state else r.state := by
  cases d with
  | word => rfl
  | below bound =>
      rw [draw, below, Draw.isAnswered]
      by_cases hbound : bound = 0
      · rw [if_pos hbound, hbound]
        rfl
      · rw [if_neg hbound, if_pos (decide_eq_true hbound)]
        rfl

/-- Draws take as many steps as have an answer. -/
theorem state_draws (r : Random) (asked : List Draw) :
    (r.draws asked).state = scramble^[asked.countP Draw.isAnswered] r.state := by
  induction asked generalizing r with
  | nil => rfl
  | cons d rest ih =>
      have hrest : (r.draws (d :: rest)).state =
          scramble^[rest.countP Draw.isAnswered] (r.draw d).state := ih (r.draw d)
      rw [hrest, state_draw, List.countP_cons]
      split
      · rw [Function.iterate_succ_apply]
      · rfl

theorem ofSeed_ne_zero (seed : Word) : (ofSeed seed).state ≠ 0#64 := by
  rw [ofSeed]
  by_cases hmixed : seed ^^^ mixer = 0#64
  · simp only [if_pos hmixed]
    decide
  · simpa only [if_neg hmixed] using hmixed

theorem iterate_scramble_ne_zero (n : Nat) {x : Word} (h : x ≠ 0#64) :
    scramble^[n] x ≠ 0#64 := by
  induction n with
  | zero => exact h
  | succ n ih =>
      rw [Function.iterate_succ_apply']
      exact scramble_ne_zero ih

/-- A generator never gets stuck. Whatever is drawn from it, its state is not zero, and is the one
that its seed gives it after as many steps as there were answers. A step permutes the words and
leaves zero where it is, and no other word, so the next state is always another one, and two
different states never become the same. And from every seed the states come round to the first one,
and then all over again. -/
theorem never_stuck (seed : Word) :
    (∀ asked, ((ofSeed seed).draws asked).state ≠ 0#64 ∧
      ((ofSeed seed).draws asked).state =
        scramble^[asked.countP Draw.isAnswered] (ofSeed seed).state) ∧
    Function.Bijective scramble ∧ scramble 0#64 = 0#64 ∧ (∀ x ≠ 0#64, scramble x ≠ x) ∧
    (∀ n, Function.Injective scramble^[n]) ∧
    ∃ n, 0 < n ∧
      ∀ k, scramble^[k + n] (ofSeed seed).state = scramble^[k] (ofSeed seed).state := by
  refine ⟨fun asked => ?_, scramble_bijective, scramble_zero, fun x => scramble_ne_self,
    scramble_injective.iterate, exists_period _⟩
  rw [state_draws]
  exact ⟨iterate_scramble_ne_zero _ (ofSeed_ne_zero seed), rfl⟩

end Random

end DemandPaging
