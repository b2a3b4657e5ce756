import DemandPaging.Word
import DemandPaging.Halt

/-!
# Pseudo-random choices

The machine has no source of chance, so a run repeats exactly from its seed. The generator keeps
one word, moves it by three exclusive-or shifts, and answers with a multiple of it. The all-zero
word is a fixed point of the shifts; `ofSeed` never starts there.
-/

namespace DemandPaging

/-- A generator of choices: one word of state. -/
structure Random where
  state : Word
deriving DecidableEq

namespace Random

/-- The word a seed is mixed with. -/
def mixer : Word := 0x9E3779B97F4A7C15#64

/-- The odd word that turns a state into an answer. -/
def multiplier : Word := 0x2545F4914F6CDD1D#64

/-- The generator for a seed. The one seed that would give the zero state gets another start. -/
def ofSeed (seed : Word) : Random :=
  let mixed := seed ^^^ mixer
  ⟨if mixed = 0#64 then multiplier else mixed⟩

/-- How the state moves: exclusive or with itself shifted right, left, and right again. -/
def scramble (x : Word) : Word :=
  let x := x ^^^ (x >>> 12)
  let x := x ^^^ (x <<< 25)
  x ^^^ (x >>> 27)

/-- The next word, and the generator after it. -/
def next (r : Random) : Word × Random :=
  let state := scramble r.state
  (state * multiplier, ⟨state⟩)

/-- A number below `bound`, and the generator after it. There is none below zero. -/
def below (r : Random) (bound : Nat) : Except Halt (Nat × Random) :=
  if bound = 0 then .error .emptyRange
  else .ok (r.next.1.toNat % bound, r.next.2)

theorem below_lt {r r' : Random} {bound n : Nat} (h : r.below bound = .ok (n, r')) : n < bound := by
  rw [below] at h
  split at h
  · cases h
  · cases h
    exact Nat.mod_lt _ (by omega)

end Random

end DemandPaging
