import Mathlib.Data.Vector.Basic

/-!
Data shared by the whole router model. `EtherAddr` is `struct ether_addr`,
six address bytes. `Fault` records how a call leaves the program instead of
returning: `exit` is a `printf` of the message followed by
`exit(EXIT_FAILURE)`, and `outOfBounds` is an access outside a static array
or an allocated block, which C leaves undefined.
-/

namespace DpdkRouter

/-- `struct ether_addr`. -/
structure EtherAddr where
  addrBytes : Vector UInt8 6
  deriving DecidableEq, Repr

/-- The all-zero address of a zero-initialised object. -/
def EtherAddr.zero : EtherAddr := ⟨Vector.replicate 6 0⟩

inductive Fault where
  | exit (msg : String)
  | outOfBounds
  deriving DecidableEq, Repr

end DpdkRouter
