import DemandPaging.Image
import DemandPaging.Image.LittleEndian

/-!
# The bytes of an image

An image is stored as the four letters of its format, a two-byte count, and one record for each
section: first page and page count in four bytes each, a byte of flags, the length of the data in
four bytes, and the data. Bit 0 of the flags marks a read-only section. All numbers are
little-endian.
-/

namespace DemandPaging.Image

/-- The letters an image starts with. -/
def magic : List UInt8 := [0x56, 0x4D, 0x45, 0x58]

/-- The record of a section. -/
def encodeSection (s : Section) : List UInt8 :=
  LittleEndian.encode 4 s.firstPage ++ LittleEndian.encode 4 s.numPages ++
    [if s.readOnly then 1 else 0] ++ LittleEndian.encode 4 s.data.length ++ s.data

/-- The bytes of an image with these sections. -/
def encodeSections (sections : List Section) : List UInt8 :=
  magic ++ LittleEndian.encode 2 sections.length ++ sections.flatMap encodeSection

/-- The bytes of an image. -/
def encode (image : Image) : List UInt8 := encodeSections image.sections

/-- The first `count` bytes and those after them, if there are that many. -/
def takeBytes (count : Nat) (bytes : List UInt8) : Option (List UInt8 × List UInt8) :=
  let field := bytes.take count
  if field.length = count then some (field, bytes.drop count) else none

/-- The section whose record the bytes start with, and the bytes after the record. -/
def decodeSection (bytes : List UInt8) : Option (Section × List UInt8) := do
  let (firstPage, bytes) ← LittleEndian.take 4 bytes
  let (numPages, bytes) ← LittleEndian.take 4 bytes
  let (flags, bytes) ← LittleEndian.take 1 bytes
  let (length, bytes) ← LittleEndian.take 4 bytes
  let (data, bytes) ← takeBytes length bytes
  some (⟨⟨firstPage, numPages, flags % 2 = 1⟩, data⟩, bytes)

/-- The `count` sections whose records the bytes start with, and the bytes after them. -/
def decodeRecords : (count : Nat) → List UInt8 → Option (List Section × List UInt8)
  | 0, bytes => some ([], bytes)
  | count + 1, bytes => do
      let (s, bytes) ← decodeSection bytes
      let (sections, bytes) ← decodeRecords count bytes
      some (s :: sections, bytes)

/-- The sections stored in the bytes. Nothing may follow the last record. -/
def decodeSections (bytes : List UInt8) : Option (List Section) := do
  let (letters, bytes) ← takeBytes magic.length bytes
  if letters = magic then
    let (count, bytes) ← LittleEndian.take 2 bytes
    let (sections, rest) ← decodeRecords count bytes
    if rest.isEmpty then some sections else none
  else none

/-- The image stored in the bytes, laid out for pages of `pageSize` bytes. -/
def decode (pageSize : Nat) (bytes : List UInt8) : Except ImageError Image :=
  match decodeSections bytes with
  | none => .error .malformed
  | some sections => ofSections pageSize sections

end DemandPaging.Image
