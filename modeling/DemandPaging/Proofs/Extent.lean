import DemandPaging.Extent.Choice

/-!
# Reliable and fail-safe extents

A reliable extent holds a run of bytes: reading gives them back, writing patches them, and a call
that stays inside the run never fails. `Extent.Reliable` says so of the states of an extent that are
`Intact`. An extent in memory is one if a word can hold its length, and an extent in a file as long
as the file is open and nobody else has resized it.

A refusing extent answers a call that would run past its end with an error, and does nothing else
(`Extent.Refusing`).

A fail-safe extent may fail any call, but a call that fails leaves the bytes as they are
(`Extent.FailSafe`). Every reliable extent is fail-safe, and it stays so when calls are made to fail
on a schedule.

A filling extent answers with as many bytes as it was asked for, whatever they are
(`Extent.Filling`). Every extent that a machine can be given is one.
-/

namespace DemandPaging

namespace Extent

/-- What the bytes are after a patch inside the run. -/
theorem getElem?_patch {bytes data : List UInt8} {offset : Nat}
    (h : offset + data.length ≤ bytes.length) (i : Nat) :
    (patch bytes offset data)[i]? =
      if offset ≤ i ∧ i < offset + data.length then data[i - offset]? else bytes[i]? := by
  have hb : (bytes.take offset).length = offset := by
    rw [List.length_take]
    omega
  simp only [patch, hb, Nat.sub_self, List.replicate_zero, List.append_nil]
  by_cases h1 : i < offset
  · rw [if_neg (by omega), List.append_assoc, List.getElem?_append_left (by omega),
      List.getElem?_take_of_lt h1]
  · by_cases h2 : i < offset + data.length
    · rw [if_pos (by omega), List.getElem?_append_left (by simp [hb]; omega),
        List.getElem?_append_right (by omega), hb]
    · have hi : offset + data.length + (i - (offset + data.length)) = i := by omega
      rw [if_neg (by omega), List.getElem?_append_right (by simp [hb]; omega),
        List.getElem?_drop, List.length_append, hb, hi]

/-- A patch of one byte. -/
theorem patch_singleton {bytes : List UInt8} {offset : Nat} (h : offset < bytes.length)
    (byte : UInt8) : patch bytes offset [byte] = bytes.set offset byte := by
  apply List.ext_getElem?
  intro i
  rw [getElem?_patch (by rw [List.length_singleton]; omega), List.getElem?_set,
    List.length_singleton]
  by_cases hi : offset = i
  · rw [if_pos (by omega), if_pos hi, if_pos (hi ▸ h), hi, Nat.sub_self]
    rfl
  · rw [if_neg (by omega), if_neg hi]

/-- Extents of which some states are a run of bytes that can be read and written without a
failure. -/
class Reliable (σ : Type) [Extent σ] where
  /-- the extent is open and its device works -/
  Intact : σ → Prop
  /-- the bytes it holds -/
  content : σ → List UInt8
  length_content : ∀ {e : σ}, Intact e → (content e).length = Extent.length e
  read_intact : ∀ {e : σ} {offset count : Nat}, Intact e → offset + count ≤ Extent.length e →
    ∃ e', Extent.read e offset count = (.ok (((content e).drop offset).take count), e') ∧
      Intact e' ∧ content e' = content e
  write_intact : ∀ {e : σ} {offset : Nat} {data : List UInt8}, Intact e →
    offset + data.length ≤ Extent.length e →
    ∃ e', Extent.write e offset data = (.ok (), e') ∧
      Intact e' ∧ content e' = patch (content e) offset data

/-- Extents that refuse a call that would run past their end, and are as before then. -/
class Refusing (σ : Type) [Extent σ] : Prop where
  read_past : ∀ {e : σ} {offset count : Nat}, Extent.length e < offset + count →
    Extent.read e offset count = (.error (.pastExtent count offset (Extent.length e)), e)
  write_past : ∀ {e : σ} {offset : Nat} {data : List UInt8},
    Extent.length e < offset + data.length →
    Extent.write e offset data = (.error (.pastExtent data.length offset (Extent.length e)), e)

/-- Extents of which some states are a run of bytes, and whose calls either do what they are for or
fail and leave the bytes alone. -/
class FailSafe (σ : Type) [Extent σ] where
  /-- the extent holds its bytes -/
  Intact : σ → Prop
  /-- the bytes it holds -/
  content : σ → List UInt8
  length_content : ∀ {e : σ}, Intact e → (content e).length = Extent.length e
  read_intact : ∀ {e : σ} {offset count : Nat}, Intact e → offset + count ≤ Extent.length e →
    ∃ result e', Extent.read e offset count = (result, e') ∧ Intact e' ∧ content e' = content e ∧
      ∀ bytes, result = .ok bytes → bytes = ((content e).drop offset).take count
  write_intact : ∀ {e : σ} {offset : Nat} {data : List UInt8}, Intact e →
    offset + data.length ≤ Extent.length e →
    ∃ result e', Extent.write e offset data = (result, e') ∧ Intact e' ∧
      (result = .ok () → content e' = patch (content e) offset data) ∧
      ∀ cause, result = .error cause → content e' = content e

/-- What never fails is fail-safe. -/
instance (σ : Type) [Extent σ] [Reliable σ] : FailSafe σ where
  Intact := Reliable.Intact
  content := Reliable.content
  length_content := Reliable.length_content
  read_intact hintact h := by
    obtain ⟨e', hread, hintact', hcontent⟩ := Reliable.read_intact hintact h
    exact ⟨_, e', hread, hintact', hcontent, fun bytes hbytes => (Except.ok.inj hbytes).symm⟩
  write_intact hintact h := by
    obtain ⟨e', hwrite, hintact', hcontent⟩ := Reliable.write_intact hintact h
    exact ⟨_, e', hwrite, hintact', fun _ => hcontent, fun _ h => nomatch h⟩

/-- Extents that answer, if they do not fail, with as many bytes as they were asked for. -/
class Filling (σ : Type) [Extent σ] : Prop where
  length_read : ∀ {e e' : σ} {offset count : Nat} {data : List UInt8},
    Extent.read e offset count = (.ok data, e') → data.length = count

theorem refusePastEnd_inside {offset count length : Nat} (hword : length < UInt64.size)
    (h : offset + count ≤ length) : refusePastEnd offset count length = .ok () :=
  if_pos (Checked.any_sum?_le_iff.2 ⟨Nat.lt_of_le_of_lt h hword, h⟩)

/-- A sum that is too large for a word is larger than any length. -/
theorem refusePastEnd_past {offset count length : Nat} (h : length < offset + count) :
    refusePastEnd offset count length = .error (.pastExtent count offset length) :=
  if_neg fun hfits => Nat.not_le_of_lt h (Checked.any_sum?_le_iff.1 hfits).2

theorem inside_of_refusePastEnd {offset count length : Nat}
    (h : refusePastEnd offset count length = .ok ()) : offset + count ≤ length := by
  refine Nat.le_of_not_lt fun hpast => ?_
  rw [refusePastEnd_past hpast] at h
  cases h

end Extent

/-- The bytes from an offset are a part of all bytes. -/
theorem SparseBytes.slice_eq_take_drop (b : SparseBytes) {offset count : Nat}
    (h : offset + count ≤ b.length) : b.slice offset count = (b.toList.drop offset).take count := by
  apply List.ext_getElem?
  intro i
  rw [slice, Nat.min_eq_left (by omega), List.getElem?_map]
  by_cases hi : i < count
  · rw [List.getElem?_range' hi, List.getElem?_take_of_lt hi, List.getElem?_drop, getElem?_toList,
      if_pos (by omega)]
    simp
  · rw [List.getElem?_eq_none (by simp; omega), List.getElem?_eq_none (by simp; omega)]
    rfl

theorem SparseBytes.length_toList (b : SparseBytes) : b.toList.length = b.length := by
  rw [toList, length_slice, Nat.sub_zero, Nat.min_self]

namespace MemoryExtent

variable {e : MemoryExtent} {offset count : Nat} {data : List UInt8}

theorem read_inside (hword : e.bytes.length < UInt64.size) (h : offset + count ≤ e.bytes.length) :
    Extent.read e offset count = (.ok ((e.bytes.toList.drop offset).take count), e) := by
  show MemoryExtent.read e offset count = _
  rw [MemoryExtent.read, Extent.refusePastEnd_inside hword h, SparseBytes.slice_eq_take_drop _ h]

theorem write_inside (hword : e.bytes.length < UInt64.size)
    (h : offset + data.length ≤ e.bytes.length) :
    Extent.write e offset data = (.ok (), ⟨e.bytes.put offset data⟩) := by
  show MemoryExtent.write e offset data = _
  rw [MemoryExtent.write, Extent.refusePastEnd_inside hword h]

theorem read_past (h : e.bytes.length < offset + count) :
    Extent.read e offset count = (.error (.pastExtent count offset e.bytes.length), e) := by
  show MemoryExtent.read e offset count = _
  rw [MemoryExtent.read, Extent.refusePastEnd_past h]

theorem write_past (h : e.bytes.length < offset + data.length) :
    Extent.write e offset data = (.error (.pastExtent data.length offset e.bytes.length), e) := by
  show MemoryExtent.write e offset data = _
  rw [MemoryExtent.write, Extent.refusePastEnd_past h]

end MemoryExtent

/-- Nothing can happen to an extent in memory. -/
instance : Extent.Reliable MemoryExtent where
  Intact e := e.bytes.length < UInt64.size
  content e := e.bytes.toList
  length_content _ := SparseBytes.length_toList _
  read_intact hword h := ⟨_, MemoryExtent.read_inside hword h, hword, rfl⟩
  write_intact hword h :=
    ⟨_, MemoryExtent.write_inside hword h, Nat.lt_of_le_of_lt (Nat.le_of_eq
      (SparseBytes.length_put h)) hword, SparseBytes.toList_put h⟩

theorem MemoryExtent.intact_zeros {length : Nat} (h : length < UInt64.size) :
    Extent.Reliable.Intact (⟨.zeros length⟩ : MemoryExtent) := h

instance : Extent.Refusing MemoryExtent where
  read_past := MemoryExtent.read_past
  write_past := MemoryExtent.write_past

namespace FileExtent

/-- The file is open, and it has the length that it was opened with. -/
structure Intact (e : FileExtent) : Prop where
  opened : e.opened = true
  length_eq : e.bytes.length = e.length
  length_lt : e.length < UInt64.size

variable {e : FileExtent} {offset count : Nat} {data : List UInt8}

theorem Intact.read_inside (hintact : e.Intact) (h : offset + count ≤ e.length) :
    Extent.read e offset count = (.ok ((e.bytes.toList.drop offset).take count), e) := by
  have hbytes : offset + count ≤ e.bytes.length := hintact.length_eq ▸ h
  have hfound : (e.bytes.slice offset count).length = count := by
    rw [SparseBytes.length_slice]
    omega
  show FileExtent.read e offset count = _
  rw [FileExtent.read, Extent.refusePastEnd_inside hintact.length_lt h, if_pos hintact.opened,
    readFile, if_pos hfound, SparseBytes.slice_eq_take_drop _ hbytes]

theorem Intact.write_inside (hintact : e.Intact) (h : offset + data.length ≤ e.length) :
    Extent.write e offset data = (.ok (), { e with bytes := e.bytes.put offset data }) := by
  show FileExtent.write e offset data = _
  rw [FileExtent.write, Extent.refusePastEnd_inside hintact.length_lt h, if_pos hintact.opened]

theorem read_past (h : e.length < offset + count) :
    Extent.read e offset count = (.error (.pastExtent count offset e.length), e) := by
  show FileExtent.read e offset count = _
  rw [FileExtent.read, Extent.refusePastEnd_past h]

theorem write_past (h : e.length < offset + data.length) :
    Extent.write e offset data = (.error (.pastExtent data.length offset e.length), e) := by
  show FileExtent.write e offset data = _
  rw [FileExtent.write, Extent.refusePastEnd_past h]

end FileExtent

/-- Nothing can happen to an open file that nobody else resizes. -/
instance : Extent.Reliable FileExtent where
  Intact := FileExtent.Intact
  content e := e.bytes.toList
  length_content hintact := (SparseBytes.length_toList _).trans hintact.length_eq
  read_intact hintact h := ⟨_, hintact.read_inside h, hintact, rfl⟩
  write_intact hintact h := by
    have hbytes := Nat.le_trans h (Nat.le_of_eq hintact.length_eq.symm)
    exact ⟨_, hintact.write_inside h,
      ⟨hintact.opened, (SparseBytes.length_put hbytes).trans hintact.length_eq, hintact.length_lt⟩,
      SparseBytes.toList_put hbytes⟩

/-- The length that counts is the one that the file was opened with. -/
instance : Extent.Refusing FileExtent where
  read_past := FileExtent.read_past
  write_past := FileExtent.write_past

/-- A scheduled failure happens before the extent inside is called. -/
instance (σ : Type) [Extent σ] [Extent.FailSafe σ] : Extent.FailSafe (UnreliableExtent σ) where
  Intact e := Extent.FailSafe.Intact e.inner
  content e := Extent.FailSafe.content e.inner
  length_content := Extent.FailSafe.length_content
  read_intact {e offset count} hintact h := by
    by_cases hfails : e.failingReads.contains e.reads = true
    · refine ⟨.error (.device "read failed"), { e with reads := e.reads + 1 }, ?_, hintact, rfl,
        fun _ h => nomatch h⟩
      show UnreliableExtent.read e offset count = _
      rw [UnreliableExtent.read, if_pos hfails]
    · obtain ⟨result, inner, hread, hinner, hcontent, hbytes⟩ :=
        Extent.FailSafe.read_intact hintact h
      refine ⟨result, { e with reads := e.reads + 1, inner }, ?_, hinner, hcontent, hbytes⟩
      show UnreliableExtent.read e offset count = _
      rw [UnreliableExtent.read, if_neg hfails, hread]
  write_intact {e offset data} hintact h := by
    by_cases hfails : e.failingWrites.contains e.writes = true
    · refine ⟨.error (.device "write failed"), { e with writes := e.writes + 1 }, ?_, hintact,
        (fun h => nomatch h), fun _ _ => rfl⟩
      show UnreliableExtent.write e offset data = _
      rw [UnreliableExtent.write, if_pos hfails]
    · obtain ⟨result, inner, hwrite, hinner, hcontent⟩ := Extent.FailSafe.write_intact hintact h
      refine ⟨result, { e with writes := e.writes + 1, inner }, ?_, hinner, hcontent⟩
      show UnreliableExtent.write e offset data = _
      rw [UnreliableExtent.write, if_neg hfails, hwrite]

/-! ## Filling extents -/

/-- A call that is not refused stays inside the bytes. -/
instance : Extent.Filling MemoryExtent where
  length_read {e e' offset count data} hread := by
    change MemoryExtent.read e offset count = _ at hread
    rw [MemoryExtent.read] at hread
    split at hread
    · cases hread
    · rename_i hinside
      have hle := Extent.inside_of_refusePastEnd hinside
      rw [← Except.ok.inj (Prod.mk.inj hread).1, SparseBytes.length_slice]
      omega

/-- A file that has become too short fails the call. -/
instance : Extent.Filling FileExtent where
  length_read {e e' offset count data} hread := by
    change FileExtent.read e offset count = _ at hread
    rw [FileExtent.read, FileExtent.readFile] at hread
    split at hread
    · cases hread
    · split at hread
      · have hread := (Prod.mk.inj hread).1
        split at hread
        · rename_i hfound
          rw [← Except.ok.inj hread, hfound]
        · cases hread
      · cases hread

instance (σ : Type) [Extent σ] [Extent.Filling σ] : Extent.Filling (UnreliableExtent σ) where
  length_read {e e' offset count data} hread := by
    change UnreliableExtent.read e offset count = _ at hread
    rw [UnreliableExtent.read] at hread
    simp only at hread
    split at hread
    · cases hread
    · obtain ⟨hresult, -⟩ := Prod.mk.inj hread
      exact Extent.Filling.length_read (Prod.ext hresult rfl)

instance : Extent.Filling ExtentChoice where
  length_read {c c' offset count data} hread := by
    change ExtentChoice.read c offset count = _ at hread
    cases c with
    | memory e =>
        obtain ⟨hresult, -⟩ := Prod.mk.inj hread
        exact Extent.Filling.length_read (Prod.ext hresult rfl)
    | file e =>
        obtain ⟨hresult, -⟩ := Prod.mk.inj hread
        exact Extent.Filling.length_read (Prod.ext hresult rfl)
    | unreliable e =>
        obtain ⟨hresult, -⟩ := Prod.mk.inj hread
        exact Extent.Filling.length_read (Prod.ext hresult rfl)

end DemandPaging
