import IteratorLowering.Analysis.CallGraph
import IteratorLowering.Diagnostic.Queue

/-!
# Parallel constructs in serial iterators

The body of a serial iterator may end up in the middle of any loop, so it must neither start
tasks nor move execution elsewhere. `Program.serialViolations` lists what breaks this rule, and
`Program.checkSerialIterators` reports all of it. Iterators marked for unconditional inlining are
exempt.
-/

set_option autoImplicit false
set_option relaxedAutoImplicit false

namespace IteratorLowering

namespace Program

/-- Whether the rule for serial iterators applies to a function. -/
def isSerialIterator (program : Program) (id : FnId) : Bool :=
  let flags := (program.function id).flags
  flags.iterator && !flags.inlineIterator

/-- What a statement does that no serial iterator may do: a parallel block, a call of a leader, or
an `on` block. -/
def serialViolation? (program : Program) (kind : StmtKind) : Option DiagnosticCode :=
  match kind.blockInfo? with
  | some (.parallel _) => some .parallelInSerial
  | some (.on _) => some .onInSerial
  | _ =>
    kind.directCallee?.bind fun callee =>
      if (program.function callee).flags.toLeader then some .parallelInSerial else none

/-- The report on a statement in a serial iterator. -/
def serialReport (program : Program) (iterator : FnId) (id : StmtId) (code : DiagnosticCode) :
    Diagnostic :=
  let construct := match code with
    | .onInSerial => "'on'"
    | .parallelInSerial | .internalFault | .tooManyErrors => "parallel construct"
  let report : Diagnostic :=
    { code, severity := .error
      message := "invalid use of " ++ construct ++ " in serial iterator" }
  (report.withLabel (program.span id) "not allowed here").withNote
    ("`" ++ program.functionName iterator ++ "` is a serial iterator")

/-- The reports on all serial iterators, in program order. -/
def serialViolations (program : Program) : List Diagnostic :=
  (program.functionIds.filter program.isSerialIterator).flatMap fun iterator =>
    (program.functionStmts iterator).filterMap fun id =>
      (program.serialViolation? (program.kind id)).map (program.serialReport iterator id)

/-- Report every violation, and give the token for them if there is any. -/
def checkSerialIterators (program : Program) (queue : DiagnosticQueue) :
    Option ErrorsReported × DiagnosticQueue :=
  program.serialViolations.foldl
    (fun (_, queue) report =>
      let (token, queue) := queue.emitError report
      (some token, queue)) (none, queue)

end Program

end IteratorLowering
