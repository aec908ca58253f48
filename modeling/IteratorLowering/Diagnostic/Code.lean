/-!
# Diagnostic codes

Every diagnostic carries a code. Codes that begin with `E7` are about the user's iterators, and
codes that begin with `E9` are about the lowering itself. `DiagnosticCode.ofText?` reads a code
without regard to case.
-/

set_option autoImplicit false
set_option relaxedAutoImplicit false

namespace IteratorLowering

/-- What a diagnostic is about. -/
inductive DiagnosticCode where
  /-- A parallel construct inside a serial iterator. -/
  | parallelInSerial
  /-- An `on` block inside a serial iterator. -/
  | onInSerial
  /-- A fault of the lowering itself. -/
  | internalFault
  /-- So many errors that no more are collected. -/
  | tooManyErrors
  deriving DecidableEq, Repr, Inhabited

namespace DiagnosticCode

/-- Every code, in order. -/
def all : List DiagnosticCode := [.parallelInSerial, .onInSerial, .internalFault, .tooManyErrors]

/-- The written form of a code. -/
def text : DiagnosticCode → String
  | .parallelInSerial => "E7001"
  | .onInSerial => "E7002"
  | .internalFault => "E9001"
  | .tooManyErrors => "E9002"

/-- A short description of a code. -/
def description : DiagnosticCode → String
  | .parallelInSerial => "parallel construct in serial iterator"
  | .onInSerial => "'on' block in serial iterator"
  | .internalFault => "internal compiler error"
  | .tooManyErrors => "too many errors"

/-- Whether the code is about the user's iterators. -/
def isIteratorError : DiagnosticCode → Bool
  | .parallelInSerial | .onInSerial => true
  | .internalFault | .tooManyErrors => false

/-- Whether the code is about the lowering itself. -/
def isInternal : DiagnosticCode → Bool
  | .internalFault | .tooManyErrors => true
  | .parallelInSerial | .onInSerial => false

/-- The code with the written form, without regard to the case of ASCII letters. -/
def ofText? (written : String) : Option DiagnosticCode :=
  all.find? fun code => code.text.map Char.toLower == written.map Char.toLower

end DiagnosticCode

end IteratorLowering
