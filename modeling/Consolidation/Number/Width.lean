/-
# `Number.Width` — numbers of so many bytes
-/
namespace Consolidation

/-- The largest number of four bytes without sign. -/
def maxWord : Nat := 4294967295

/-- The largest number of eight bytes without sign. -/
def maxLong : Nat := 18446744073709551615

end Consolidation
