import IteratorLowering.Analysis.CallGraph
import IteratorLowering.Analysis.IteratorTypes
import IteratorLowering.Analysis.SerialIterators
import IteratorLowering.Diagnostic.Code
import IteratorLowering.Diagnostic.Queue
import IteratorLowering.Diagnostic.Report
import IteratorLowering.Evaluation.Failure
import IteratorLowering.Evaluation.Machine
import IteratorLowering.Evaluation.Run
import IteratorLowering.Evaluation.Value
import IteratorLowering.Exchange.Datum
import IteratorLowering.Exchange.Names
import IteratorLowering.Exchange.Read
import IteratorLowering.Exchange.Write
import IteratorLowering.Expr
import IteratorLowering.FiniteMap
import IteratorLowering.Function
import IteratorLowering.FunctionTable
import IteratorLowering.Ident
import IteratorLowering.Instance.HelperArgs
import IteratorLowering.Instance.Ordinals
import IteratorLowering.Instance.Routines
import IteratorLowering.Instance.SubtypeDispatch
import IteratorLowering.Interner
import IteratorLowering.Lowering.Callback
import IteratorLowering.Lowering.Config
import IteratorLowering.Lowering.Context
import IteratorLowering.Lowering.Fault
import IteratorLowering.Lowering.Inline
import IteratorLowering.Lowering.Loop
import IteratorLowering.Lowering.LoopBody
import IteratorLowering.Lowering.Pipeline
import IteratorLowering.Lowering.Protocol
import IteratorLowering.Lowering.Rounds
import IteratorLowering.Lowering.Strategy
import IteratorLowering.Lowering.Zip
import IteratorLowering.Program.Basic
import IteratorLowering.Program.Copy
import IteratorLowering.Program.Cursor
import IteratorLowering.Program.Edit
import IteratorLowering.Program.Tree
import IteratorLowering.Program.Walk
import IteratorLowering.Render
import IteratorLowering.Simplify.Blocks
import IteratorLowering.Simplify.Confined
import IteratorLowering.Simplify.Copies
import IteratorLowering.Simplify.DeadCode
import IteratorLowering.Simplify.Gotos
import IteratorLowering.Simplify.Iterator
import IteratorLowering.Span
import IteratorLowering.Stmt
import IteratorLowering.Symbol
import IteratorLowering.Text.Hidden
import IteratorLowering.Text.Quoted
import IteratorLowering.Types
import IteratorLowering.Proofs.Analysis.CallCycles
import IteratorLowering.Proofs.Callback.Closed
import IteratorLowering.Proofs.Forest.Arena
import IteratorLowering.Proofs.Forest.Links
import IteratorLowering.Proofs.Forest.Editing
import IteratorLowering.Proofs.Forest.Outcomes
import IteratorLowering.Proofs.Forest.Emitting
import IteratorLowering.Proofs.Forest.Enclosing
import IteratorLowering.Proofs.Forest.Handles
import IteratorLowering.Proofs.Forest.Navigation
import IteratorLowering.Proofs.Passes.Callback
import IteratorLowering.Proofs.Passes.Choosing
import IteratorLowering.Proofs.Passes.Cleanups
import IteratorLowering.Proofs.Passes.Expanding
import IteratorLowering.Proofs.Passes.Finishing
import IteratorLowering.Proofs.Passes.Operations
import IteratorLowering.Proofs.Passes.SkippedLoops
import IteratorLowering.Proofs.Passes.Switching
import IteratorLowering.Proofs.Evaluation.Budget
import IteratorLowering.Proofs.Evaluation.Dangling
import IteratorLowering.Proofs.Evaluation.Limits
import IteratorLowering.Proofs.Evaluation.IndexTuples
import IteratorLowering.Proofs.Evaluation.Discipline
import IteratorLowering.Proofs.Evaluation.Hiding
import IteratorLowering.Proofs.Diagnostic.History
import IteratorLowering.Proofs.DeadCode.Removal
import IteratorLowering.Proofs.ControlFlow.Blocks
import IteratorLowering.Proofs.ControlFlow.Gotos
import IteratorLowering.Proofs.Copying.Runs
import IteratorLowering.Proofs.Forwarding.Copies
import IteratorLowering.Proofs.Fragments.Behaviour
import IteratorLowering.Proofs.Fragments.Escapes
import IteratorLowering.Proofs.Dispatch.Protocol
import IteratorLowering.Proofs.Dispatch.SubtypeOrder
import IteratorLowering.Proofs.Instance.HelperArgs
import IteratorLowering.Proofs.Instance.Ordinals
import IteratorLowering.Proofs.Instance.RoutineCalls
import IteratorLowering.Proofs.Instance.SubtypeDispatch
import IteratorLowering.Proofs.Frame.Callback
import IteratorLowering.Proofs.Frame.Loops
import IteratorLowering.Proofs.Sharing.Runs
