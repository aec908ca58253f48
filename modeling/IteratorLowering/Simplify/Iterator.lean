import IteratorLowering.Lowering.Config
import IteratorLowering.Simplify.Blocks
import IteratorLowering.Simplify.Copies
import IteratorLowering.Simplify.DeadCode

/-!
# Tidying the body of an iterator

`tidyIterator` runs the simplifications that the configuration allows on one function.
-/

set_option autoImplicit false
set_option relaxedAutoImplicit false

namespace IteratorLowering

/-- Collapse blocks and drop idle jumps in a function, and then forward copies and remove dead
code, as far as the configuration allows. -/
def tidyIterator (config : LoweringConfig) (function : FnId) : Pass Unit := do
  let _ ← collapseBlocks function
  let _ ← removeGotos function
  if config.copyPropagation then
    modify fun program => (program.forwardCopies function).2
  if config.deadCodeElimination then
    let _ ← removeDeadVariables function
    let _ ← removeDeadExpressions function

end IteratorLowering
