import Mathlib.Tactic.Ring
import Mathlib.Tactic.NormNum

/-!
# Base-128 varints

`Varint.encode` writes a number seven bits at a time, low bits first, with the high bit set on
every byte but the last.  `Varint.decode_encode`: reading back gives the number and the bytes that
followed it, whatever they are.  `Varint.encode_length`: the separate length function `size` agrees
with the writer.

Numbers are unbounded here.  A caller whose numbers fit `u64` never writes more than ten bytes.
-/

namespace Varint

/-- The base-128 varint of `n`. -/
def encode (n : Nat) : List UInt8 :=
  if n < 128 then [UInt8.ofNat n]
  else UInt8.ofNat (n % 128 + 128) :: encode (n / 128)

/-- How many bytes `encode n` takes, computed without writing them. -/
def size (n : Nat) : Nat :=
  if n < 128 then 1 else size (n / 128) + 1

/-- Read one varint off the front of `bs`. -/
def decode : List UInt8 → Option (Nat × List UInt8)
  | [] => none
  | b :: bs =>
    if b.toNat < 128 then some (b.toNat, bs)
    else (decode bs).map fun p => (b.toNat - 128 + 128 * p.1, p.2)

theorem encode_of_lt {n : Nat} (h : n < 128) : encode n = [UInt8.ofNat n] := by
  rw [encode, if_pos h]

theorem encode_of_le {n : Nat} (h : 128 ≤ n) :
    encode n = UInt8.ofNat (n % 128 + 128) :: encode (n / 128) := by
  rw [encode, if_neg (by omega)]

theorem size_of_lt {n : Nat} (h : n < 128) : size n = 1 := by
  rw [size, if_pos h]

theorem size_of_le {n : Nat} (h : 128 ≤ n) : size n = size (n / 128) + 1 := by
  rw [size, if_neg (by omega)]

/-- The length function agrees with the writer. -/
theorem encode_length (n : Nat) : (encode n).length = size n := by
  induction n using Nat.strong_induction_on with
  | _ n ih =>
    by_cases h : n < 128
    · rw [encode_of_lt h, size_of_lt h, List.length_singleton]
    · rw [encode_of_le (by omega), size_of_le (by omega), List.length_cons,
        ih (n / 128) (by omega)]

theorem size_pos (n : Nat) : 0 < size n := by
  by_cases h : n < 128
  · rw [size_of_lt h]; exact Nat.one_pos
  · rw [size_of_le (by omega)]; exact Nat.succ_pos _

theorem encode_ne_nil (n : Nat) : encode n ≠ [] := by
  intro h
  have := encode_length n
  rw [h, List.length_nil] at this
  have := size_pos n
  omega

/-- **Round trip**: reading a varint gives the number back and stops right after it. -/
theorem decode_encode (n : Nat) (rest : List UInt8) :
    decode (encode n ++ rest) = some (n, rest) := by
  induction n using Nat.strong_induction_on with
  | _ n ih =>
    by_cases h : n < 128
    · have hb : (UInt8.ofNat n).toNat = n := by
        rw [UInt8.toNat_ofNat']; omega
      rw [encode_of_lt h, List.singleton_append, decode, hb, if_pos h]
    · have hb : (UInt8.ofNat (n % 128 + 128)).toNat = n % 128 + 128 := by
        rw [UInt8.toNat_ofNat']; omega
      rw [encode_of_le (by omega), List.cons_append, decode, hb, if_neg (by omega),
        ih (n / 128) (by omega), Option.map_some]
      have hn : n % 128 + 128 - 128 + 128 * (n / 128) = n := by omega
      rw [hn]

/-! ### How long varints are -/

end Varint
