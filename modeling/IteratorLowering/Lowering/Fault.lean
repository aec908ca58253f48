import IteratorLowering.Diagnostic.Queue
import IteratorLowering.Program.Edit

/-!
# Why a lowering stops

A lowering stops with a `LoweringError`. Most are faults: shapes of a program that the lowering
cannot handle, each with a `Fault` for its cause and the span that was being lowered. The other
causes are errors of the user that have been reported already, and loops that keep making new
loops.
-/

set_option autoImplicit false
set_option relaxedAutoImplicit false

namespace IteratorLowering

/-- A shape of a program that the lowering cannot handle. -/
inductive Fault where
  /-- The header of a for-loop is not an index and an iterator. -/
  | malformedHeader
  | loopOutsideFunction
  | inlinedNonIterator
  | recursiveNonIterator
  | zipperedNonIterator
  /-- The index of a zippered loop is no tuple with one field for each iterator. -/
  | zipArity (iterators indices : Nat)
  | emptyZip
  | noProtocol (type : String)
  | noInstanceClass
  | lostBundle
  | lostIndex
  | returnInLoopBody
  | gotoOutOfLoopBody
  | looseOrdinal
  | noOrdinalField (type : String) (ordinal : Nat)
  /-- A field address is assigned to something that is neither of the field's type nor a
  reference to it. -/
  | ordinalTypeMismatch
  | tooFewHelperFields
  | helperFieldMismatch (formal : String)
  | noRecordFormal
  | noDiscriminator
  | noSubtypeIterator
  | noSubtypeDiscriminator
  | noFieldNamed (record field : String)
  /-- An edit of the statement forest failed. -/
  | edit (error : EditError)
  /-- The hand-off of an iterator gave up with a message of its own. -/
  | handOff (message : String)
  deriving DecidableEq, Repr, Inhabited

/-- The text of a fault. -/
def Fault.text : Fault → String
  | .malformedHeader => "malformed for-loop header"
  | .loopOutsideFunction => "for-loop outside any function"
  | .inlinedNonIterator => "inlined loop does not iterate an iterator instance"
  | .recursiveNonIterator => "recursive loop does not iterate an iterator instance"
  | .zipperedNonIterator => "zippered component is not an iterator instance"
  | .zipArity iterators indices =>
    s!"zippered loop binds {iterators} iterators to an index of arity {indices}"
  | .emptyZip => "zippered loop without components"
  | .noProtocol type => "type `" ++ type ++ "` has no iterator protocol"
  | .noInstanceClass => "recursive iterator has no instance class"
  | .lostBundle => "generated recursive iterator lost its bundle formal"
  | .lostIndex => "loop body function without an index formal"
  | .returnInLoopBody => "return inside the body of a loop over a recursive iterator"
  | .gotoOutOfLoopBody => "goto leaves the body of a loop over a recursive iterator"
  | .looseOrdinal => "ordinal field address outside an assignment"
  | .noOrdinalField type ordinal =>
    "type `" ++ type ++ "` has no field for ordinal " ++ toString ordinal
  | .ordinalTypeMismatch => "unexpected case"
  | .tooFewHelperFields => "dispatch helper iterator has too few fields"
  | .helperFieldMismatch formal => "formal `" ++ formal ++ "` does not match its iterator field"
  | .noRecordFormal => "get_iterator without a record formal"
  | .noDiscriminator => "iterator record with subtypes has no fields"
  | .noSubtypeIterator => "record subtype has no get_iterator"
  | .noSubtypeDiscriminator => "record subtype has no discriminator field"
  | .noFieldNamed record field => "record `" ++ record ++ "` has no field `" ++ field ++ "`"
  | .edit error => error.message
  | .handOff message => message

/-- Why a lowering stopped. -/
inductive LoweringError where
  /-- A shape that the lowering cannot handle, at the span that was being lowered. -/
  | internal (fault : Fault) (span : Span)
  /-- Errors of the user have been reported. -/
  | stopped (reported : ErrorsReported)
  /-- Every round of lowering made new loops, for as many rounds as were granted. -/
  | roundLimit (rounds : Nat)
  deriving DecidableEq, Repr, Inhabited

namespace LoweringError

/-- The text of an error. -/
def message : LoweringError → String
  | .internal fault _ => "internal error: " ++ fault.text
  | .stopped reported => "iterator lowering stopped: " ++ reported.text
  | .roundLimit rounds => s!"loops are left after {rounds} rounds of lowering"

/-- The report on a fault. Errors of the user have been reported before. -/
def diagnostic? : LoweringError → Option Diagnostic
  | .internal fault span =>
    let report : Diagnostic :=
      { code := .internalFault, severity := .error, message := fault.text }
    some (report.withLabel span "while lowering this")
  | .stopped _ | .roundLimit _ => none

end LoweringError

/-- A change of a program that may find a fault, keeping what it had changed. -/
abbrev Pass := EStateM LoweringError Program

/-- An edit as a pass. A failed edit is a fault without a place. -/
def Edit.asPass {α : Type} (edit : Edit α) : Pass α := fun program =>
  match edit program with
  | .ok result program => .ok result program
  | .error error program => .error (.internal (.edit error) .none) program

instance : MonadLift Edit Pass := ⟨Edit.asPass⟩

namespace Pass

/-- Stop with a fault at a span. -/
def fault {α : Type} (fault : Fault) (span : Span) : Pass α := throw (.internal fault span)

/-- The value that must be there, or else a fault at a span. -/
def require {α : Type} (value : Option α) (absent : Fault) (span : Span) : Pass α :=
  match value with
  | some value => return value
  | none => fault absent span

end Pass

end IteratorLowering
