import DemandPaging.Image.Codec
import DemandPaging.Proofs.Image
import Mathlib.Algebra.Group.Nat.Defs

/-!
# The format of a stored image

The format is written down here without the codec: a file is its letters, a count in two bytes and
that many records, and a `Record` is the numbers and bytes that one section takes in it
(`Record.bytes`, `fileBytes`). Reading accepts the files of this format and nothing else, and gives
the sections of their records to the layout check (`decodeSections_eq_some_iff`); writing gives back
the file that was read, with the unused bits of its flags cleared (`encodeSections_toSection`). So
the two directions are inverse to each other (`codec_round_trips`).
-/

namespace DemandPaging

namespace LittleEndian

theorem decode_lt (bytes : List UInt8) : decode bytes < 2 ^ (8 * bytes.length) := by
  induction bytes with
  | nil => exact Nat.one_pos
  | cons b bs ih =>
      have hb := b.toNat_lt
      rw [List.length_cons, Nat.mul_succ, Nat.pow_add, decode]
      omega

/-- A number is taken from the bytes that start with it. -/
theorem take_eq_some_iff {width n : Nat} {bytes rest : List UInt8} :
    take width bytes = some (n, rest) ↔ n < 2 ^ (8 * width) ∧ bytes = encode width n ++ rest := by
  rw [take]
  constructor
  · intro h
    split at h
    · rename_i hlength
      obtain ⟨rfl, rfl⟩ := Prod.mk.inj (Option.some.inj h)
      have hlt := decode_lt (bytes.take width)
      have hback := encode_decode (bytes.take width)
      rw [hlength] at hlt hback
      refine ⟨hlt, ?_⟩
      rw [hback, List.take_append_drop]
    · cases h
  · rintro ⟨hlt, rfl⟩
    have hlength := length_encode width n
    rw [List.take_left' hlength, List.drop_left' hlength, if_pos hlength, decode_encode,
      Nat.one_shiftLeft, Nat.mod_eq_of_lt hlt]

end LittleEndian

namespace Image

/-- The four bytes of a number, least significant first. -/
def wordBytes (n : UInt32) : List UInt8 :=
  [n.toUInt8, (n >>> 8).toUInt8, (n >>> 16).toUInt8, (n >>> 24).toUInt8]

/-- The two bytes of a number, least significant first. -/
def halfBytes (n : UInt16) : List UInt8 := [n.toUInt8, (n >>> 8).toUInt8]

theorem encode_four (n : Nat) : LittleEndian.encode 4 n = wordBytes (UInt32.ofNat n) := by
  simp only [LittleEndian.encode, wordBytes, List.cons.injEq, and_true]
  refine ⟨?_, ?_, ?_, ?_⟩ <;>
    apply UInt8.toNat_inj.1 <;>
    simp [Nat.shiftRight_eq_div_pow] <;>
    omega

theorem encode_two (n : Nat) : LittleEndian.encode 2 n = halfBytes (UInt16.ofNat n) := by
  simp only [LittleEndian.encode, halfBytes, List.cons.injEq, and_true]
  constructor
  · apply UInt8.toNat_inj.1
    simp
  · apply UInt8.toNat_inj.1
    simp [Nat.shiftRight_eq_div_pow]
    omega

theorem take_word_iff {n : Nat} {bytes rest : List UInt8} :
    LittleEndian.take 4 bytes = some (n, rest) ↔
      ∃ word : UInt32, word.toNat = n ∧ bytes = wordBytes word ++ rest := by
  rw [LittleEndian.take_eq_some_iff, encode_four]
  constructor
  · rintro ⟨hlt, rfl⟩
    exact ⟨UInt32.ofNat n, UInt32.toNat_ofNat_of_lt' hlt, rfl⟩
  · rintro ⟨word, rfl, rfl⟩
    exact ⟨word.toNat_lt, by rw [UInt32.ofNat_toNat]⟩

theorem take_half_iff {n : Nat} {bytes rest : List UInt8} :
    LittleEndian.take 2 bytes = some (n, rest) ↔
      ∃ half : UInt16, half.toNat = n ∧ bytes = halfBytes half ++ rest := by
  rw [LittleEndian.take_eq_some_iff, encode_two]
  constructor
  · rintro ⟨hlt, rfl⟩
    exact ⟨UInt16.ofNat n, UInt16.toNat_ofNat_of_lt' hlt, rfl⟩
  · rintro ⟨half, rfl, rfl⟩
    exact ⟨half.toNat_lt, by rw [UInt16.ofNat_toNat]⟩

theorem take_byte_iff {n : Nat} {bytes rest : List UInt8} :
    LittleEndian.take 1 bytes = some (n, rest) ↔
      ∃ byte : UInt8, byte.toNat = n ∧ bytes = byte :: rest := by
  rw [LittleEndian.take_eq_some_iff]
  constructor
  · rintro ⟨hlt, rfl⟩
    exact ⟨UInt8.ofNat n, UInt8.toNat_ofNat_of_lt' hlt, rfl⟩
  · rintro ⟨byte, rfl, rfl⟩
    refine ⟨byte.toNat_lt, ?_⟩
    rw [LittleEndian.encode, LittleEndian.encode, UInt8.ofNat_toNat]
    rfl

theorem takeBytes_eq_some_iff {count : Nat} {bytes field rest : List UInt8} :
    takeBytes count bytes = some (field, rest) ↔ field.length = count ∧ bytes = field ++ rest := by
  rw [takeBytes]
  constructor
  · intro h
    split at h
    · rename_i hlength
      obtain ⟨rfl, rfl⟩ := Prod.mk.inj (Option.some.inj h)
      exact ⟨hlength, (List.take_append_drop count bytes).symm⟩
    · cases h
  · rintro ⟨rfl, rfl⟩
    rw [List.take_left' rfl, List.drop_left' rfl, if_pos rfl]

/-- What a file holds of one section. -/
structure Record where
  firstPage : UInt32
  numPages : UInt32
  flags : UInt8
  data : List UInt8
  /-- The length of the data has to fit its field. -/
  length_lt : data.length < UInt32.size

namespace Record

/-- The bytes of a record. -/
def bytes (r : Record) : List UInt8 :=
  wordBytes r.firstPage ++ wordBytes r.numPages ++ [r.flags] ++
    wordBytes (UInt32.ofNat r.data.length) ++ r.data

/-- The section that a record describes. -/
def toSection (r : Record) : Section :=
  ⟨⟨r.firstPage.toNat, r.numPages.toNat, r.flags &&& 1 = 1⟩, r.data⟩

/-- The record with nothing but bit 0 in its flags. -/
def plain (r : Record) : Record := { r with flags := r.flags &&& 1 }

@[simp] theorem toSection_plain (r : Record) : r.plain.toSection = r.toSection := by
  rw [toSection, plain, UInt8.and_assoc]
  rfl

/-- Bit 0 is what the flags leave when they are divided by two. -/
theorem and_one_eq_one_iff {flags : UInt8} : flags &&& 1 = 1 ↔ flags.toNat % 2 = 1 := by
  rw [← UInt8.toNat_inj, UInt8.toNat_and, ← Nat.and_one_is_mod]
  rfl

end Record

theorem decodeSection_eq_some_iff {s : Section} {bytes rest : List UInt8} :
    decodeSection bytes = some (s, rest) ↔
      ∃ r : Record, r.toSection = s ∧ bytes = r.bytes ++ rest := by
  simp only [decodeSection, Option.bind_eq_bind, Option.bind_eq_some_iff, Prod.exists,
    take_word_iff, take_byte_iff, takeBytes_eq_some_iff, Option.some.injEq, Prod.mk.injEq]
  constructor
  · rintro ⟨_, _, ⟨first, rfl, rfl⟩, _, _, ⟨count, rfl, rfl⟩, _, _, ⟨flags, rfl, rfl⟩, _, _,
      ⟨length, rfl, rfl⟩, data, _, ⟨hlength, rfl⟩, rfl, rfl⟩
    have hofNat : UInt32.ofNat data.length = length := by rw [hlength, UInt32.ofNat_toNat]
    refine ⟨⟨first, count, flags, data, hlength ▸ length.toNat_lt⟩, ?_, ?_⟩
    · simp only [Record.toSection, Record.and_one_eq_one_iff]
    · simp only [Record.bytes, hofNat, List.append_assoc, List.cons_append, List.nil_append]
  · rintro ⟨r, rfl, rfl⟩
    refine ⟨_, _, ⟨r.firstPage, rfl, ?_⟩, _, _, ⟨r.numPages, rfl, rfl⟩, _, _, ⟨r.flags, rfl, rfl⟩,
      _, _, ⟨UInt32.ofNat r.data.length, rfl, rfl⟩, r.data, rest, ⟨?_, rfl⟩, ?_, rfl⟩
    · simp only [Record.bytes, List.append_assoc, List.cons_append, List.nil_append]
    · exact (UInt32.toNat_ofNat_of_lt' r.length_lt).symm
    · simp only [Record.toSection, Record.and_one_eq_one_iff]

theorem decodeRecords_eq_some_iff {count : Nat} {sections : List Section}
    {bytes rest : List UInt8} :
    decodeRecords count bytes = some (sections, rest) ↔
      ∃ records : List Record, records.length = count ∧ records.map Record.toSection = sections ∧
        bytes = records.flatMap Record.bytes ++ rest := by
  -- one record after the other is read, and each may be any
  induction count generalizing sections bytes rest with
  | zero =>
      rw [decodeRecords, Option.some.injEq, Prod.mk.injEq]
      constructor
      · rintro ⟨rfl, rfl⟩
        exact ⟨[], rfl, rfl, rfl⟩
      · rintro ⟨records, hlength, rfl, rfl⟩
        rw [List.length_eq_zero_iff.1 hlength]
        exact ⟨rfl, rfl⟩
  | succ count ih =>
      simp only [decodeRecords, Option.bind_eq_bind, Option.bind_eq_some_iff, Prod.exists,
        decodeSection_eq_some_iff, ih, Option.some.injEq, Prod.mk.injEq]
      constructor
      · rintro ⟨_, _, ⟨r, rfl, rfl⟩, _, _, ⟨records, rfl, rfl, rfl⟩, rfl, rfl⟩
        refine ⟨r :: records, rfl, rfl, ?_⟩
        rw [List.flatMap_cons, List.append_assoc]
      · rintro ⟨records, hlength, rfl, rfl⟩
        cases records with
        | nil => cases hlength
        | cons r records =>
            refine ⟨_, _, ⟨r, rfl, ?_⟩, _, rest,
              ⟨records, Nat.succ.inj hlength, rfl, rfl⟩, rfl, rfl⟩
            rw [List.flatMap_cons, List.append_assoc]

/-- The bytes of a file with these records. -/
def fileBytes (records : List Record) : List UInt8 :=
  "VMEX".toList.map (fun letter => UInt8.ofNat letter.toNat) ++
    halfBytes (UInt16.ofNat records.length) ++ records.flatMap Record.bytes

/-- The bytes are a file with these records. -/
def Stored (records : List Record) (bytes : List UInt8) : Prop :=
  records.length < UInt16.size ∧ bytes = fileBytes records

theorem letters_eq_magic :
    "VMEX".toList.map (fun letter => UInt8.ofNat letter.toNat) = magic := by
  decide

theorem decodeSections_eq_some_iff {sections : List Section} {bytes : List UInt8} :
    decodeSections bytes = some sections ↔
      ∃ records, Stored records bytes ∧ records.map Record.toSection = sections := by
  simp only [decodeSections, Option.bind_eq_bind, Option.bind_eq_some_iff, Prod.exists,
    takeBytes_eq_some_iff, Stored, fileBytes, letters_eq_magic]
  constructor
  · rintro ⟨letters, bytes, ⟨-, rfl⟩, h⟩
    split at h
    · rename_i hletters
      simp only [Option.bind_eq_some_iff, Prod.exists, take_half_iff,
        decodeRecords_eq_some_iff] at h
      obtain ⟨_, _, ⟨count, rfl, rfl⟩, _, rest, ⟨records, hlength, rfl, rfl⟩, h⟩ := h
      -- bytes after the last record are refused
      split at h
      · rename_i hrest
        rw [List.isEmpty_iff] at hrest
        refine ⟨records, ⟨hlength ▸ count.toNat_lt, ?_⟩, Option.some.inj h⟩
        rw [hletters, hrest, hlength, UInt16.ofNat_toNat, List.append_nil, List.append_assoc]
      · cases h
    · cases h
  · rintro ⟨records, ⟨hlength, rfl⟩, rfl⟩
    refine ⟨magic, _, ⟨rfl, List.append_assoc _ _ _⟩, ?_⟩
    rw [if_pos rfl]
    simp only [Option.bind_eq_some_iff, Prod.exists, take_half_iff, decodeRecords_eq_some_iff]
    refine ⟨records.length, _,
      ⟨UInt16.ofNat records.length, UInt16.toNat_ofNat_of_lt' hlength, rfl⟩, _, [],
      ⟨records, rfl, rfl, ?_⟩, ?_⟩
    · rw [List.append_nil]
    · rw [List.isEmpty_nil, if_pos rfl]

/-- Writing a section gives the record that it was read from, without the unused bits. -/
theorem encodeSection_toSection (r : Record) : encodeSection r.toSection = r.plain.bytes := by
  -- of the flags a section keeps only bit 0
  have hflags : (if r.toSection.readOnly then 1 else 0) = r.flags &&& 1 := by
    by_cases hset : r.flags &&& 1 = 1
    · rw [Record.toSection, hset]
      rfl
    · rw [Record.toSection, decide_eq_false hset, if_neg Bool.false_ne_true]
      rw [Record.and_one_eq_one_iff] at hset
      apply UInt8.toNat_inj.1
      rw [UInt8.toNat_and]
      change 0 = r.flags.toNat &&& 1
      rw [Nat.and_one_is_mod]
      omega
  rw [encodeSection, hflags]
  simp only [Record.toSection, Record.bytes, Record.plain, encode_four, UInt32.ofNat_toNat]

/-- Writing the sections of a file gives the file, without the unused bits of its flags. -/
theorem encodeSections_toSection (records : List Record) :
    encodeSections (records.map Record.toSection) = fileBytes (records.map Record.plain) := by
  rw [encodeSections, fileBytes, letters_eq_magic, encode_two, List.length_map, List.length_map,
    List.flatMap_map, List.flatMap_map]
  simp only [encodeSection_toSection]

/-- A section without a fault has a record. -/
theorem exists_record {pageSize : Nat} {earlier : List Section} {s : Section}
    (h : sectionFault pageSize earlier s = none) : ∃ r : Record, r.toSection = s := by
  rw [sectionFault] at h
  split at h
  · cases h
  · rename_i hend
    split at h
    · cases h
    · rename_i hdata
      -- the pages are checked against the largest page number, so both numbers fit their fields
      rw [PageRun.endPage, Address.maxPageNumber] at hend
      have hfirst : s.firstPage < UInt32.size := by
        change s.firstPage < 4294967296
        omega
      have hcount : s.numPages < UInt32.size := by
        change s.numPages < 4294967296
        omega
      refine ⟨⟨UInt32.ofNat s.firstPage, UInt32.ofNat s.numPages, if s.readOnly then 1 else 0,
        s.data, by omega⟩, ?_⟩
      have hreadOnly : decide ((if s.readOnly then 1 else 0) &&& (1 : UInt8) = 1) = s.readOnly := by
        cases s.readOnly <;> rfl
      simp only [Record.toSection, UInt32.toNat_ofNat_of_lt' hfirst,
        UInt32.toNat_ofNat_of_lt' hcount, hreadOnly]

theorem exists_records {pageSize : Nat} {sections : List Section} :
    ∀ {earlier : List Section}, firstFault pageSize earlier sections = none →
      ∃ records : List Record, records.map Record.toSection = sections := by
  induction sections with
  | nil => exact fun _ => ⟨[], rfl⟩
  | cons s rest ih =>
      intro earlier h
      rw [firstFault] at h
      cases hs : sectionFault pageSize earlier s with
      | some fault =>
          rw [hs] at h
          cases h
      | none =>
          rw [hs] at h
          obtain ⟨r, rfl⟩ := exists_record hs
          obtain ⟨records, rfl⟩ := ih h
          exact ⟨r :: records, rfl⟩

/-- An image has the file of records without unused bits. -/
theorem exists_stored (image : Image) : ∃ records, Stored records (encode image) ∧
    records.map Record.toSection = image.sections := by
  have h := image.sound
  rw [layoutFault] at h
  split at h
  · cases h
  · rename_i hnone
    split at h
    · cases h
    · rename_i hcount
      -- the count of the sections fits in two bytes
      obtain ⟨records, hrecords⟩ := exists_records hnone
      refine ⟨records.map Record.plain, ⟨?_, ?_⟩, ?_⟩
      · have hlength := congrArg List.length hrecords
        rw [List.length_map] at hlength ⊢
        omega
      · rw [encode, ← hrecords, encodeSections_toSection]
      · rw [← hrecords, List.map_map]
        exact List.map_congr_left fun r _ => r.toSection_plain

theorem decode_stored (pageSize : Nat) {records : List Record} {bytes : List UInt8}
    (h : Stored records bytes) :
    decode pageSize bytes = ofSections pageSize (records.map Record.toSection) := by
  rw [decode, decodeSections_eq_some_iff.2 ⟨records, h, rfl⟩]

theorem decode_not_stored (pageSize : Nat) {bytes : List UInt8}
    (h : ∀ records, ¬ Stored records bytes) : decode pageSize bytes = .error .malformed := by
  rw [decode]
  cases hsections : decodeSections bytes with
  | none => rfl
  | some sections =>
      obtain ⟨records, hstored, -⟩ := decodeSections_eq_some_iff.1 hsections
      exact absurd hstored (h records)

/-- Images and their files correspond. An image that the layout check accepts is read back from the
bytes it is written to. Bytes are read exactly when they are a file whose sections the layout check
accepts, and are then written back without the unused bits of the flags; a file that it refuses is
refused with the same error, and what is no file is malformed. -/
theorem codec_round_trips (pageSize : Nat) :
    (∀ sections image, ofSections pageSize sections = .ok image →
      decode pageSize (encode image) = .ok image) ∧
    ∀ bytes,
      (∀ image, decode pageSize bytes = .ok image ↔ ∃ records, Stored records bytes ∧
        ofSections pageSize (records.map Record.toSection) = .ok image) ∧
      (∀ records, Stored records bytes →
        (∀ image, decode pageSize bytes = .ok image →
          image.sections = records.map Record.toSection ∧
          encode image = fileBytes (records.map Record.plain)) ∧
        ∀ fault, decode pageSize bytes = .error fault ↔
          ofSections pageSize (records.map Record.toSection) = .error fault) ∧
      ((∀ records, ¬ Stored records bytes) → decode pageSize bytes = .error .malformed) := by
  refine ⟨?_, fun bytes => ⟨?_, ?_, decode_not_stored pageSize⟩⟩
  · intro sections image h
    obtain ⟨-, hsize⟩ := ofSections_eq_ok_iff.1 h
    obtain ⟨records, hstored, hrecords⟩ := image.exists_stored
    rw [decode_stored pageSize hstored, hrecords]
    exact ofSections_eq_ok_iff.2 ⟨rfl, hsize⟩
  · intro image
    constructor
    · intro h
      by_cases hstored : ∃ records, Stored records bytes
      · obtain ⟨records, hstored⟩ := hstored
        exact ⟨records, hstored, decode_stored pageSize hstored ▸ h⟩
      · rw [decode_not_stored pageSize fun records h => hstored ⟨records, h⟩] at h
        cases h
    · rintro ⟨records, hstored, h⟩
      rw [decode_stored pageSize hstored, h]
  · intro records hstored
    rw [decode_stored pageSize hstored]
    refine ⟨?_, fun fault => Iff.rfl⟩
    intro image h
    obtain ⟨hsections, -⟩ := ofSections_eq_ok_iff.1 h
    exact ⟨hsections, by rw [encode, hsections, encodeSections_toSection]⟩

/-- A file whose flags have all bits set is read, and written back with one bit. Two records for one
page are refused by the layout check. The letters alone are no file. -/
theorem codec_round_trips_one_page :
    let r : Record := ⟨3, 1, 0xFF, [0xAA, 0xBB], by decide⟩
    Stored [r] (fileBytes [r]) ∧ Stored [r, r] (fileBytes [r, r]) ∧
    (∀ records, ¬ Stored records magic) ∧
    (∃ image, decode 4 (fileBytes [r]) = .ok image ∧
      image.sections = [⟨⟨3, 1, true⟩, [0xAA, 0xBB]⟩] ∧ decode 4 (encode image) = .ok image ∧
      encode image = magic ++ [1, 0, 3, 0, 0, 0, 1, 0, 0, 0, 1, 2, 0, 0, 0, 0xAA, 0xBB]) ∧
    decode 4 (fileBytes [r, r]) = .error (.overlap 0 1) ∧
    decode 4 magic = .error .malformed := by
  intro r
  obtain ⟨hwritten, hread⟩ := codec_round_trips 4
  have hone : Stored [r] (fileBytes [r]) := ⟨by decide, rfl⟩
  have htwo : Stored [r, r] (fileBytes [r, r]) := ⟨by decide, rfl⟩
  have hnone : ∀ records, ¬ Stored records magic := by
    rintro records ⟨-, hbytes⟩
    have hlength := congrArg List.length hbytes
    rw [fileBytes, letters_eq_magic, List.length_append, List.length_append] at hlength
    have hcount : (halfBytes (UInt16.ofNat records.length)).length = 2 := rfl
    omega
  refine ⟨hone, htwo, hnone, ?_, ?_, (hread magic).2.2 hnone⟩
  · let image : Image := ⟨[r.toSection], 4, by decide⟩
    have himage : ofSections 4 [r.toSection] = .ok image := ofSections_eq_ok_iff.2 ⟨rfl, rfl⟩
    have hdecode := ((hread _).1 image).2 ⟨[r], hone, himage⟩
    obtain ⟨hsections, hbytes⟩ := ((hread _).2.1 [r] hone).1 image hdecode
    exact ⟨image, hdecode, hsections.trans (by decide), hwritten _ image himage,
      hbytes.trans (by decide)⟩
  · rw [((hread _).2.1 [r, r] htwo).2]
    rfl

end Image

end DemandPaging
