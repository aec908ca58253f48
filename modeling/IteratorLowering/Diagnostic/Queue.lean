import IteratorLowering.Diagnostic.Report

/-!
# The diagnostic queue

A `DiagnosticQueue` collects diagnostics. It counts the errors it accepts, stops accepting errors
at a limit, which it reports once, and can drop repeats of a report that is already queued.
`DiagnosticQueue.flush` hands the reports out in source order and starts afresh.

`ErrorsReported` is what a pass returns that stops because of user errors.
-/

set_option autoImplicit false
set_option relaxedAutoImplicit false

namespace IteratorLowering

/-- The token of a pass that has reported errors to a queue. -/
structure ErrorsReported where
  deriving DecidableEq, Repr, Inhabited

/-- The text of the token. -/
def ErrorsReported.text (_reported : ErrorsReported) : String := "error(s) emitted"

/-- The token for a number of errors, if there are any. -/
def ErrorsReported.ofCount? (count : Nat) : Option ErrorsReported :=
  if 0 < count then some {} else none

/-- How a queue filters. -/
structure QueueConfig where
  /-- How many errors are accepted; zero means any number. -/
  errorLimit : Nat := 10
  /-- Whether a report with the code, primary span and message of a queued one is dropped. -/
  deduplicate : Bool := true
  deriving DecidableEq, Repr, Inhabited

/-- A collection of diagnostics. -/
structure DiagnosticQueue where
  diagnostics : List Diagnostic := []
  /-- How many errors have been accepted. -/
  errorCount : Nat := 0
  /-- Whether the report on the limit has been queued. -/
  limitReported : Bool := false
  config : QueueConfig := {}
  deriving Repr, Inhabited

namespace DiagnosticQueue

/-- The empty queue that filters as told. -/
def withConfig (config : QueueConfig) : DiagnosticQueue := { config }

/-- Whether no more errors are accepted. -/
def limitReached (queue : DiagnosticQueue) : Bool :=
  decide (0 < queue.config.errorLimit) && decide (queue.config.errorLimit ≤ queue.errorCount)

/-- The token for the errors accepted, if there are any. -/
def hasErrors? (queue : DiagnosticQueue) : Option ErrorsReported :=
  ErrorsReported.ofCount? queue.errorCount

/-- Whether two reports say the same thing about the same place. -/
def sameReport (first second : Diagnostic) : Bool :=
  first.code == second.code && first.primarySpan? == second.primarySpan? &&
    first.message == second.message

/-- Whether a report like this one is queued. -/
def isDuplicate (queue : DiagnosticQueue) (diagnostic : Diagnostic) : Bool :=
  queue.diagnostics.any fun queued => sameReport queued diagnostic

/-- Queue a report at the end. -/
def push (queue : DiagnosticQueue) (diagnostic : Diagnostic) : DiagnosticQueue :=
  { queue with diagnostics := queue.diagnostics ++ [diagnostic] }

/-- Offer a report and tell whether it was accepted. An error beyond the limit is dropped, and
the first such error leaves a report on the limit at its place. -/
def add (queue : DiagnosticQueue) (diagnostic : Diagnostic) : Bool × DiagnosticQueue :=
  if diagnostic.isError && queue.limitReached then
    if queue.limitReported then (false, queue)
    else
      let report := Diagnostic.tooManyErrors queue.config.errorLimit
        (diagnostic.primarySpan?.getD .none)
      (false, { queue.push report with limitReported := true })
  else if queue.config.deduplicate && queue.isDuplicate diagnostic then (false, queue)
  else if diagnostic.isError then
    (true, { queue.push diagnostic with errorCount := queue.errorCount + 1 })
  else (true, queue.push diagnostic)

/-- Offer an error and get the token. It is given even if the report was dropped. -/
def emitError (queue : DiagnosticQueue) (diagnostic : Diagnostic) :
    ErrorsReported × DiagnosticQueue :=
  ({}, (queue.add diagnostic).2)

/-- Whether a report comes no later than another in source order. Reports without a place come
first. -/
def inSourceOrder (first second : Diagnostic) : Bool :=
  let firstSpan := first.primarySpan?.getD .none
  let secondSpan := second.primarySpan?.getD .none
  decide (firstSpan.start < secondSpan.start) ||
    (firstSpan.start == secondSpan.start && decide (firstSpan.stop ≤ secondSpan.stop))

/-- Hand out the queued reports in source order, those at one place in order of arrival, and
start afresh. -/
def flush (queue : DiagnosticQueue) : List Diagnostic × DiagnosticQueue :=
  (queue.diagnostics.mergeSort inSourceOrder, withConfig queue.config)

end DiagnosticQueue

end IteratorLowering
