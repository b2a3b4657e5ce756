/-!
# Little-endian numbers

A number written as a fixed count of bytes, least significant first. `decode_encode` reads a
number that fits back.
-/

namespace DemandPaging.LittleEndian

/-- The number that the bytes denote, least significant first. -/
def decode : List UInt8 → Nat
  | [] => 0
  | b :: bs => b.toNat + 256 * decode bs

/-- The number in `width` bytes, least significant first; what does not fit is dropped. -/
def encode : (width : Nat) → Nat → List UInt8
  | 0, _ => []
  | width + 1, n => UInt8.ofNat n :: encode width (n / 256)

theorem length_encode (width n : Nat) : (encode width n).length = width := by
  induction width generalizing n with
  | zero => rfl
  | succ width ih => simp [encode, ih]

theorem decode_encode (width n : Nat) : decode (encode width n) = n % 1 <<< (8 * width) := by
  induction width generalizing n with
  | zero => simp [encode, decode, Nat.mod_one]
  | succ width ih =>
      have h : 1 <<< (8 * (width + 1)) = 256 * 1 <<< (8 * width) := by
        rw [Nat.one_shiftLeft, Nat.one_shiftLeft, Nat.mul_succ, Nat.pow_add, Nat.mul_comm]
      rw [h, Nat.mod_mul, encode, decode, ih, UInt8.toNat_ofNat']

/-- Bytes read as a number and written again are the same bytes. -/
theorem encode_decode (bytes : List UInt8) : encode bytes.length (decode bytes) = bytes := by
  induction bytes with
  | nil => rfl
  | cons b bs ih =>
      have hb := b.toNat_lt
      have h : (b.toNat + 256 * decode bs) / 256 = decode bs := by omega
      simp only [List.length_cons, decode, encode, h, ih, List.cons.injEq, and_true]
      apply UInt8.toNat_inj.1
      rw [UInt8.toNat_ofNat']
      omega

/-- The number in the first `width` bytes and the bytes after them, if there are that many. -/
def take (width : Nat) (bytes : List UInt8) : Option (Nat × List UInt8) :=
  let field := bytes.take width
  if field.length = width then some (decode field, bytes.drop width) else none

end DemandPaging.LittleEndian
