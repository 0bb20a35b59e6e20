/-!
# Indices of small tables

Registers, lines of shared memory and buffer slots are tables of a fixed size, and the code names
their entries by literal indices.
-/

namespace NanoKvm.Exec

instance pairs : @NeZero Nat Zero.ofOfNat0 2 := ⟨by decide⟩
instance quads : @NeZero Nat Zero.ofOfNat0 4 := ⟨by decide⟩
instance octets : @NeZero Nat Zero.ofOfNat0 8 := ⟨by decide⟩
instance lines : @NeZero Nat Zero.ofOfNat0 16 := ⟨by decide⟩

end NanoKvm.Exec
