import DemandPaging.Address

/-!
# Executable images

An image is a list of sections. A section is a run of pages with the bytes its first pages start
with; the rest of the run starts with zeros. `layoutFault` names the first section that does not
fit the address space, holds more bytes than its pages, or takes a page of an earlier one, and an
`Image` is a list of sections without such a fault.
-/

namespace DemandPaging

/-- A run of pages that a section covers. -/
structure PageRun where
  firstPage : Nat
  numPages : Nat
  readOnly : Bool
deriving DecidableEq

namespace PageRun

/-- The page after the last one. -/
def endPage (s : PageRun) : Nat := s.firstPage + s.numPages

/-- Whether the run covers a page. -/
def contains (s : PageRun) (page : Nat) : Bool := s.firstPage ≤ page && page < s.endPage

/-- Whether each of two runs starts before the other ends. -/
def overlaps (s t : PageRun) : Bool := t.firstPage < s.endPage && s.firstPage < t.endPage

end PageRun

/-- A run of pages with the bytes it starts with. -/
structure Section extends PageRun where
  data : List UInt8
deriving DecidableEq

/-- Why an image was refused. -/
inductive ImageError where
  /-- the bytes are no image -/
  | malformed
  /-- two sections have a page in common -/
  | overlap (first second : Nat)
  /-- a section has more bytes than its pages -/
  | dataTooLong (index : Nat)
  /-- a section reaches past the largest page number -/
  | tooLarge (index : Nat)
deriving DecidableEq

/-- The text of an error. -/
def ImageError.message : ImageError → String
  | malformed => "malformed executable image"
  | overlap first second => s!"sections {first} and {second} overlap"
  | dataTooLong index => s!"section {index} has more data than pages"
  | tooLarge index => s!"section {index} does not fit the address space"

namespace Image

/-- What is wrong with a section that comes after the sections `earlier`. -/
def sectionFault (pageSize : Nat) (earlier : List Section) (s : Section) : Option ImageError :=
  if Address.maxPageNumber + 1 < s.endPage then some (.tooLarge earlier.length)
  else if UInt64.size ≤ s.numPages * pageSize ∨ s.numPages * pageSize < s.data.length ∨
      UInt32.size ≤ s.data.length then
    some (.dataTooLong earlier.length)
  else (earlier.findIdx? fun other => s.overlaps other.toPageRun).map
    fun first => .overlap first earlier.length

/-- What is wrong with the first faulty section of `sections`, which come after `earlier`. -/
def firstFault (pageSize : Nat) (earlier : List Section) : List Section → Option ImageError
  | [] => none
  | s :: rest =>
      match sectionFault pageSize earlier s with
      | some fault => some fault
      | none => firstFault pageSize (earlier ++ [s]) rest

/-- What keeps a list of sections from being an image. A count of sections takes two bytes. -/
def layoutFault (pageSize : Nat) (sections : List Section) : Option ImageError :=
  match firstFault pageSize [] sections with
  | some fault => some fault
  | none => if UInt16.size ≤ sections.length then some .malformed else none

end Image

/-- An executable: sections laid out for a page size, without a fault. -/
structure Image where
  sections : List Section
  pageSize : Nat
  sound : Image.layoutFault pageSize sections = none
deriving DecidableEq

namespace Image

/-- The image with these sections, if they have no fault. -/
def ofSections (pageSize : Nat) (sections : List Section) : Except ImageError Image :=
  match h : layoutFault pageSize sections with
  | none => .ok ⟨sections, pageSize, h⟩
  | some fault => .error fault

/-- The run of pages of a section. -/
def pageRun (image : Image) (index : Nat) : Except Halt PageRun :=
  match image.sections[index]? with
  | some s => .ok s.toPageRun
  | none => .error .indexOutOfBounds

/-- The first section that covers a page, with its place in the list. -/
def sectionAt (image : Image) (page : Nat) : Option (Nat × Section) :=
  (image.sections.zipIdx.find? fun s => s.1.contains page).map fun s => (s.2, s.1)

/-- The page after the last one of all sections. -/
def endPage (image : Image) : Nat :=
  image.sections.foldl (fun last s => max last s.endPage) 0

end Image

/-- The bytes that page number `nth` of a section starts with, in pages of `size` bytes. -/
def Section.pageBytes (s : Section) (nth size : Nat) : List UInt8 :=
  let bytes := (s.data.drop (nth * size)).take size
  bytes ++ List.replicate (size - bytes.length) 0

namespace Image

/-- The bytes that page number `nth` of a section starts with, in a frame of `size` bytes. -/
def pageOf (image : Image) (index nth size : Nat) : Except Halt (List UInt8) :=
  match image.sections[index]? with
  | some s => .ok (s.pageBytes nth size)
  | none => .error .indexOutOfBounds

/-- The bytes a page starts with: those of its section, or zeros. -/
def initialPage (image : Image) (page size : Nat) : List UInt8 :=
  match image.sectionAt page with
  | some (_, s) => s.pageBytes (page - s.firstPage) size
  | none => List.replicate size 0

/-- Whether a page may not be written. -/
def isReadOnly (image : Image) (page : Nat) : Bool :=
  match image.sectionAt page with
  | some (_, s) => s.readOnly
  | none => false

end Image

end DemandPaging
