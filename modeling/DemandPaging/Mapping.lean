import DemandPaging.Address
import DemandPaging.Word

/-!
# Mappings

One slot of the mapping cache: a word that holds a page number, the number of the frame the
page lives in, and four flags. The word's other bits are kept as they are.
-/

namespace DemandPaging

/-- A slot of the mapping cache. -/
structure Mapping where
  bits : Word
deriving DecidableEq

namespace Mapping

/-- The bytes that a mapping takes. -/
def numBytes : Nat := 8

/-- The mapping may be used. -/
abbrev validField : BitField := .inUse

/-- The page may not be written. -/
abbrev readOnlyField : BitField := { lowest := 1, width := 1 }

/-- The page has been accessed through the mapping. -/
abbrev usedField : BitField := { lowest := 2, width := 1 }

/-- The page has been written through the mapping. -/
abbrev dirtyField : BitField := { lowest := 3, width := 1 }

/-- The frame number. -/
abbrev frameField : BitField := { lowest := 8, width := 24 }

/-- The page number. -/
abbrev pageField : BitField := .pageNumber

/-- The mapping with every bit clear. It is not valid. -/
def empty : Mapping := ⟨0#64⟩

def valid (e : Mapping) : Bool := validField.test e.bits
def readOnly (e : Mapping) : Bool := readOnlyField.test e.bits
def used (e : Mapping) : Bool := usedField.test e.bits
def dirty (e : Mapping) : Bool := dirtyField.test e.bits
def frame (e : Mapping) : Nat := frameField.get e.bits
def page (e : Mapping) : Nat := pageField.get e.bits

def withValid (e : Mapping) (b : Bool) : Mapping := ⟨validField.assign e.bits b⟩
def withReadOnly (e : Mapping) (b : Bool) : Mapping :=
  ⟨readOnlyField.assign e.bits b⟩
def withUsed (e : Mapping) (b : Bool) : Mapping := ⟨usedField.assign e.bits b⟩
def withDirty (e : Mapping) (b : Bool) : Mapping := ⟨dirtyField.assign e.bits b⟩
def withFrame (e : Mapping) (n : Nat) : Mapping := ⟨frameField.set e.bits n⟩
def withPage (e : Mapping) (n : Nat) : Mapping := ⟨pageField.set e.bits n⟩

/-- A valid, unused and clean mapping of `page` to `frame`. Both numbers have to fit. -/
def create (page frame : Nat) (readOnly : Bool) : Except Halt Mapping :=
  if Address.maxPageNumber < page then .error (.pageTooWide page)
  else if Address.maxPageNumber < frame then .error (.frameTooWide frame)
  else .ok ((((empty.withPage page).withFrame frame).withReadOnly readOnly).withValid true)

/-- The flags of a mapping. -/
structure Flags where
  valid : Bool := false
  readOnly : Bool := false
  used : Bool := false
  dirty : Bool := false
deriving DecidableEq

/-- The mapping with these numbers and flags. Both numbers have to fit. -/
def ofParts (page frame : Nat) (flags : Flags) : Except Halt Mapping :=
  (create page frame flags.readOnly).map fun e =>
    ((e.withValid flags.valid).withUsed flags.used).withDirty flags.dirty

/-- The mapping's numbers and flags in words. -/
def describe (e : Mapping) : String :=
  s!"TranslationEntry \x7b vpn: {e.page}, ppn: {e.frame}, valid: {e.valid}, " ++
    s!"read_only: {e.readOnly}, used: {e.used}, dirty: {e.dirty} \x7d"

end Mapping

end DemandPaging
