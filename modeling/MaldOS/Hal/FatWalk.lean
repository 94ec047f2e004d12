import MaldOS.Hal.FatCache

/-!
The walk of a file on a table of any content. The chain of clusters bounds
nothing: it may be a cycle. What ends the walk is the number of the cluster that
is looked for, and what ends a read or a write is the rest of its length.
-/
namespace Fat
open Arch ByteMemory Slices Sd Runs

/-- A round that does not return: the bytes that it moves, and those that were to come. -/
structure Round where
  effectiveLen : Nat
  length : Nat

def moved (rounds : List Round) : Nat := (rounds.map Round.effectiveLen).sum

end Fat
