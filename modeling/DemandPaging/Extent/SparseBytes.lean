import DemandPaging.Extent
import Std.Data.TreeMap

/-!
# Runs of bytes that start as zeros

A run of bytes of which only the written ones are kept, so that a long run that is hardly used is
cheap. `byteAt_zeros` and `byteAt_put` say what every byte is, and `toList_put` that a write is
`Extent.patch`.
-/

namespace DemandPaging

/-- A run of bytes. A byte that was never written is zero. -/
structure SparseBytes where
  length : Nat
  /-- the bytes that were written, by offset -/
  written : Std.TreeMap Nat UInt8

namespace SparseBytes

/-- A run of zeros. -/
def zeros (length : Nat) : SparseBytes := ⟨length, ∅⟩

/-- The byte at an offset. -/
def byteAt (b : SparseBytes) (offset : Nat) : UInt8 := b.written[offset]?.getD 0

/-- The bytes from an offset, up to `count` of them: fewer where the run ends before. -/
def slice (b : SparseBytes) (offset count : Nat) : List UInt8 :=
  (List.range' offset (min count (b.length - offset))).map b.byteAt

/-- All bytes of the run. -/
def toList (b : SparseBytes) : List UInt8 := b.slice 0 b.length

/-- The written bytes with `data` from an offset on. -/
def insertAll (written : Std.TreeMap Nat UInt8) (offset : Nat) :
    List UInt8 → Std.TreeMap Nat UInt8
  | [] => written
  | byte :: rest => insertAll (written.insert offset byte) (offset + 1) rest

/-- Puts bytes at an offset. The run grows when they reach past its end. -/
def put (b : SparseBytes) (offset : Nat) (data : List UInt8) : SparseBytes :=
  if data.isEmpty then b
  else ⟨max b.length (offset + data.length), insertAll b.written offset data⟩

/-- Cuts the run to a length, or lets it grow by zeros. -/
def resize (b : SparseBytes) (length : Nat) : SparseBytes :=
  { length
    written := if b.length ≤ length then b.written
      else b.written.filter fun offset _ => decide (offset < length) }

theorem length_slice (b : SparseBytes) (offset count : Nat) :
    (b.slice offset count).length = min count (b.length - offset) := by
  simp [slice]

theorem byteAt_zeros (length offset : Nat) : (zeros length).byteAt offset = 0 := by
  simp [zeros, byteAt]

theorem getElem?_insertAll (written : Std.TreeMap Nat UInt8) (offset i : Nat)
    (data : List UInt8) :
    (insertAll written offset data)[i]? =
      if offset ≤ i ∧ i < offset + data.length then data[i - offset]? else written[i]? := by
  induction data generalizing written offset with
  | nil =>
    rw [insertAll, if_neg]
    simp only [List.length_nil]
    omega
  | cons byte rest ih =>
    rw [insertAll, ih, Std.TreeMap.getElem?_insert]
    simp only [Std.LawfulEqOrd.compare_eq_iff_eq, List.length_cons]
    by_cases h : offset = i
    · subst h
      rw [if_neg (by omega), if_pos rfl, if_pos (by omega), Nat.sub_self, List.getElem?_cons_zero]
    · rw [if_neg h]
      by_cases hr : offset ≤ i ∧ i < offset + (rest.length + 1)
      · have hi : i - offset = i - (offset + 1) + 1 := by omega
        rw [if_pos (by omega), if_pos hr, hi, List.getElem?_cons_succ]
      · rw [if_neg (by omega), if_neg hr]

/-- After a write the bytes at its place are the new ones, and all others are as before. -/
theorem byteAt_put (b : SparseBytes) (offset i : Nat) (data : List UInt8) :
    (b.put offset data).byteAt i =
      if offset ≤ i ∧ i < offset + data.length then data[i - offset]?.getD 0 else b.byteAt i := by
  cases data with
  | nil =>
    rw [put, if_pos List.isEmpty_nil, if_neg]
    simp only [List.length_nil]
    omega
  | cons byte rest =>
    rw [put, if_neg (by simp), byteAt, getElem?_insertAll]
    split <;> rfl

/-- A write inside the run leaves its length as it was. -/
theorem length_put {b : SparseBytes} {offset : Nat} {data : List UInt8}
    (h : offset + data.length ≤ b.length) : (b.put offset data).length = b.length := by
  unfold put
  split
  · rfl
  · exact Nat.max_eq_left h

theorem getElem?_toList (b : SparseBytes) (i : Nat) :
    b.toList[i]? = if i < b.length then some (b.byteAt i) else none := by
  rw [toList, slice, Nat.sub_zero, Nat.min_self, List.getElem?_map]
  by_cases h : i < b.length
  · rw [if_pos h, List.getElem?_range' h]
    simp
  · rw [if_neg h, List.getElem?_eq_none (by simp; omega)]
    rfl

/-- Inside the run, a write is a patch of its bytes. -/
theorem toList_put {b : SparseBytes} {offset : Nat} {data : List UInt8}
    (h : offset + data.length ≤ b.length) :
    (b.put offset data).toList = Extent.patch b.toList offset data := by
  apply List.ext_getElem?
  intro i
  have hl : b.toList.length = b.length := by simp [toList, length_slice]
  have hb : (b.toList.take offset).length = offset := by
    rw [List.length_take]
    omega
  rw [getElem?_toList, length_put h, byteAt_put]
  simp only [Extent.patch, hb, Nat.sub_self, List.replicate_zero, List.append_nil]
  by_cases h1 : i < offset
  · rw [if_pos (by omega), if_neg (by omega), List.append_assoc,
      List.getElem?_append_left (by omega), List.getElem?_take_of_lt h1, getElem?_toList,
      if_pos (by omega)]
  · by_cases h2 : i < offset + data.length
    · rw [if_pos (by omega), if_pos (by omega),
        List.getElem?_append_left (by simp [hb]; omega), List.getElem?_append_right (by omega), hb,
        List.getElem?_eq_getElem (by omega)]
      rfl
    · have hi : offset + data.length + (i - (offset + data.length)) = i := by omega
      rw [if_neg (show ¬ (offset ≤ i ∧ i < offset + data.length) by omega),
        List.getElem?_append_right (by simp [hb]; omega), List.getElem?_drop, getElem?_toList,
        List.length_append, hb, hi]

end SparseBytes

end DemandPaging
