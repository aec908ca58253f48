import IteratorLowering.Diagnostic.Code
import IteratorLowering.Span

/-!
# Diagnostics

A `Diagnostic` is a structured report: a code, a severity, a message, labelled places in the
source and notes. Its place is the span of its first primary label. `Diagnostic.text` writes it
over several lines.
-/

set_option autoImplicit false
set_option relaxedAutoImplicit false

namespace IteratorLowering

/-- How grave a diagnostic is. -/
inductive Severity where
  | error
  | warning
  | note
  deriving DecidableEq, Repr, Inhabited

/-- The written form of a severity. -/
def Severity.text : Severity → String
  | .error => "error"
  | .warning => "warning"
  | .note => "note"

/-- The severity with the written form. -/
def Severity.ofText? (written : String) : Option Severity :=
  [Severity.error, .warning, .note].find? fun severity => severity.text == written

/-- A place in the source with a remark. -/
structure Label where
  span : Span
  message : String
  /-- Whether this is where the trouble is, and not only context. -/
  isPrimary : Bool
  deriving DecidableEq, Repr, Inhabited

/-- The line of a label. -/
def Label.text (label : Label) : String :=
  "\n  " ++ (if label.isPrimary then "-->" else "   ") ++ " " ++ label.span.text ++ ": " ++
    label.message

/-- A structured report. -/
structure Diagnostic where
  code : DiagnosticCode
  severity : Severity
  message : String := ""
  labels : List Label := []
  notes : List String := []
  deriving DecidableEq, Repr, Inhabited

namespace Diagnostic

/-- The same report with a primary label added at the end. -/
def withLabel (diagnostic : Diagnostic) (span : Span) (message : String) : Diagnostic :=
  { diagnostic with labels := diagnostic.labels ++ [{ span, message, isPrimary := true }] }

/-- The same report with a note added at the end. -/
def withNote (diagnostic : Diagnostic) (note : String) : Diagnostic :=
  { diagnostic with notes := diagnostic.notes ++ [note] }

/-- The span of the first primary label. -/
def primarySpan? (diagnostic : Diagnostic) : Option Span :=
  (diagnostic.labels.find? Label.isPrimary).map Label.span

/-- Whether the report is an error. -/
def isError (diagnostic : Diagnostic) : Bool := diagnostic.severity == .error

/-- The report over several lines, without a line end after the last. -/
def text (diagnostic : Diagnostic) : String :=
  diagnostic.severity.text ++ " [" ++ diagnostic.code.text ++ "]: " ++ diagnostic.message ++
    String.join (diagnostic.labels.map Label.text) ++
    String.join (diagnostic.notes.map fun note => "\n  = note: " ++ note)

/-- The report that closes a collection whose limit has been reached. -/
def tooManyErrors (limit : Nat) (span : Span) : Diagnostic :=
  { code := .tooManyErrors
    severity := .error
    message := s!"aborting due to {limit} previous errors"
    labels := [{ span, message := "error limit reached here", isPrimary := true }] }

end Diagnostic

end IteratorLowering
