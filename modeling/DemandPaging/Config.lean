import DemandPaging.Address
import DemandPaging.Word

/-!
# The description of a machine

The sizes of the machine, where its swap extent is kept, and how it chooses. A configuration is
`Sound` when it describes a machine that can be built; `Config.flaw` names the first reason why
one does not.
-/

namespace DemandPaging

/-- How the page to be evicted is chosen. -/
inductive PolicyKind where
  /-- second chance -/
  | clock
  /-- any page with equal chance -/
  | random
deriving DecidableEq

/-- The description of a machine. -/
structure Config where
  /-- physical frames -/
  frames : Nat := 16
  /-- slots of the mapping cache -/
  cacheSize : Nat := 4
  /-- bytes in a page -/
  pageSize : Nat := 1024
  /-- pages that the swap extent holds -/
  swapSlots : Nat := 16
  /-- the host file that holds the swap extent; without one it is kept in memory -/
  swapPath : Option String := none
  /-- zero-filled pages after the sections of every address space -/
  stackPages : Nat := 8
  /-- how the page to be evicted is chosen -/
  replacement : PolicyKind := .clock
  /-- the seed of all choices -/
  seed : Word := 0#64
deriving DecidableEq

/-- Why a description fits no machine. -/
inductive Config.Flaw where
  | noFrames
  | tooManyFrames
  | noCacheSlots
  | pageSizeNotPowerOfTwo
  | noSwapSlots
  | sizesOverflow
  /-- the extent given for swap is smaller than its slots -/
  | extentTooSmall
deriving DecidableEq

/-- The reason in words. -/
def Config.Flaw.message : Config.Flaw → String
  | noFrames => "the machine needs at least one frame"
  | tooManyFrames => "too many frames for a translation entry"
  | noCacheSlots => "the translation cache needs at least one slot"
  | pageSizeNotPowerOfTwo => "the page size must be a power of two"
  | noSwapSlots => "swap needs at least one slot"
  | sizesOverflow => "memory sizes overflow"
  | extentTooSmall => "the swap store is smaller than the swap extent"

/-- Why a configuration was refused. -/
inductive ConfigError where
  /-- the file could not be read, or the swap file not be created -/
  | io (cause : IoError)
  /-- a line that is not a key, an equals sign and a value -/
  | malformedLine (line : Nat)
  /-- a line with a key that nothing is called by -/
  | unknownKey (line : Nat) (key : String)
  /-- a line with a value that its key cannot have -/
  | invalidValue (line : Nat) (key value : String)
  /-- the values fit no machine -/
  | impossible (flaw : Config.Flaw)
deriving DecidableEq

namespace ConfigError

/-- The text of an error. -/
def message : ConfigError → String
  | io cause => s!"could not read configuration: {cause.message}"
  | malformedLine line => s!"line {line}: expected `key = value`"
  | unknownKey line key => s!"line {line}: unknown key `{key}`"
  | invalidValue line key value => s!"line {line}: `{value}` is not a valid value for `{key}`"
  | impossible flaw => s!"invalid configuration: {flaw.message}"

/-- The line an error is about, counted from one. -/
def line : ConfigError → Option Nat
  | malformedLine line | unknownKey line _ | invalidValue line _ _ => some line
  | io _ | impossible _ => none

/-- The error underneath, where there is one. -/
def source : ConfigError → Option IoError
  | io cause => some cause
  | _ => none

end ConfigError

namespace Config

/-- The size of the swap extent in bytes. -/
def swapLength (c : Config) : Nat := c.swapSlots * c.pageSize

/-- The first reason why a description fits no machine. -/
def flaw (c : Config) : Option Flaw :=
  if c.frames = 0 then some .noFrames
  else if Address.maxPageNumber < c.frames - 1 then some .tooManyFrames
  else if c.cacheSize = 0 then some .noCacheSlots
  else if 1 <<< c.pageSize.log2 ≠ c.pageSize then some .pageSizeNotPowerOfTwo
  else if c.swapSlots = 0 then some .noSwapSlots
  else if UInt64.size ≤ c.swapSlots * c.pageSize ∨ UInt64.size ≤ c.frames * c.pageSize then
    some .sizesOverflow
  else none

/-- Refuses a description that fits no machine. -/
def validate (c : Config) : Except ConfigError Unit :=
  match c.flaw with
  | none => .ok ()
  | some flaw => .error (.impossible flaw)

/-- The descriptions of machines that can be built. -/
structure Sound (c : Config) : Prop where
  frames_pos : 0 < c.frames
  frames_le : c.frames ≤ Address.maxPageNumber + 1
  cacheSize_pos : 0 < c.cacheSize
  pageSize_pow : c.pageSize.isPowerOfTwo
  swapSlots_pos : 0 < c.swapSlots
  swapLength_lt : c.swapLength < UInt64.size
  memory_lt : c.frames * c.pageSize < UInt64.size

theorem flaw_eq_none_iff (c : Config) : c.flaw = none ↔ c.Sound := by
  have hpow : 1 <<< c.pageSize.log2 = c.pageSize ↔ c.pageSize.isPowerOfTwo := by
    rw [Nat.one_shiftLeft]
    constructor
    · exact fun h => ⟨_, h.symm⟩
    · rintro ⟨k, hk⟩
      rw [hk, Nat.log2_two_pow]
  constructor
  · intro h
    by_cases h1 : c.frames = 0
    · simp [flaw, h1] at h
    by_cases h2 : Address.maxPageNumber < c.frames - 1
    · simp [flaw, h1, h2] at h
    by_cases h3 : c.cacheSize = 0
    · simp [flaw, h1, h2, h3] at h
    by_cases h4 : 1 <<< c.pageSize.log2 = c.pageSize
    · by_cases h5 : c.swapSlots = 0
      · simp [flaw, h1, h2, h3, h4, h5] at h
      simp only [flaw, h1, h2, h3, h4, h5, if_false, ne_eq, not_true_eq_false, ite_eq_right_iff,
        reduceCtorEq, imp_false, not_or, Nat.not_le] at h
      exact ⟨by omega, by omega, by omega, hpow.1 h4, by omega, h.1, h.2⟩
    · simp [flaw, h1, h2, h3, h4] at h
  · intro h
    have h1 : ¬ c.frames = 0 := Nat.pos_iff_ne_zero.1 h.frames_pos
    have h2 : ¬ Address.maxPageNumber < c.frames - 1 := by
      have := h.frames_le
      omega
    have h3 : ¬ c.cacheSize = 0 := Nat.pos_iff_ne_zero.1 h.cacheSize_pos
    have h4 := hpow.2 h.pageSize_pow
    have h5 : ¬ c.swapSlots = 0 := Nat.pos_iff_ne_zero.1 h.swapSlots_pos
    have h6 : ¬ UInt64.size ≤ c.swapSlots * c.pageSize := Nat.not_le.2 h.swapLength_lt
    have h7 : ¬ UInt64.size ≤ c.frames * c.pageSize := Nat.not_le.2 h.memory_lt
    simp only [flaw, h1, h2, h3, h4, h5, h6, h7, if_false, ne_eq, not_true_eq_false, or_self]

/-- What is not refused describes a machine that can be built. -/
theorem sound_of_validate {c : Config} (h : c.validate = .ok ()) : c.Sound := by
  rw [← c.flaw_eq_none_iff]
  rw [validate] at h
  split at h
  · assumption
  · cases h

end Config

end DemandPaging
