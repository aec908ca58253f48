/-!
# Switches of the lowering
-/

set_option autoImplicit false
set_option relaxedAutoImplicit false

namespace IteratorLowering

/-- What the lowering may do. -/
structure LoweringConfig where
  /-- Copy the bodies of iterators into loops. Otherwise every loop goes through the iterator
  protocol, or through callbacks if it loops over a recursive iterator. -/
  inlineIterators : Bool := true
  /-- Check at run time that zippered iterators have equal lengths. -/
  boundsChecks : Bool := true
  /-- Forward copies in the bodies of iterators. -/
  copyPropagation : Bool := true
  /-- Remove dead code from the bodies of iterators. -/
  deadCodeElimination : Bool := true
  /-- How often the loops that are left are gathered and lowered before the lowering gives up.
  Only iterators that loop over themselves without a direct call can use this up. -/
  maxRounds : Nat := 1000000
  deriving DecidableEq, Repr, Inhabited

end IteratorLowering
