import LiveMarkup.Template.Blueprint

/-! # What can go wrong with one value

A failure to turn a value into output concerns the part of that value alone, which then renders
empty.  It is handed on as a diagnostic. -/

namespace LiveMarkup

/-- How a deferred computation ends if it yields no value. -/
inductive Fault where
  | failed (message : String)
  /-- It broke off.  There may be no message. -/
  | panicked (message : Option String)
  deriving DecidableEq, Repr

/-- Why a value has no output. -/
inductive ResolutionError where
  | fault (fault : Fault)
  /-- Deferred values kept yielding deferred values. -/
  | unresolved (limit : Nat)
  /-- Templates and lists nest too deeply. -/
  | tooDeep (limit : Nat)
  /-- A template can only be content. -/
  | templateInAttribute
  /-- The copy of a template lacks a node. -/
  | noNode (path : Path)
  /-- The host refused the value. -/
  | refused (message : String)
  deriving DecidableEq, Repr

def ResolutionError.message : ResolutionError → String
  | .fault (.failed message) => "deferred value failed: " ++ message
  | .fault (.panicked message) =>
    "deferred value panicked: " ++ message.getD "(non-string panic payload)"
  | .unresolved limit => s!"deferred value still unresolved after {limit} invocations"
  | .tooDeep limit => s!"nesting depth limit ({limit}) reached"
  | .templateInAttribute => "a template result can't be used as an attribute value"
  | .noNode path => "no node found at template path " ++ path.text
  | .refused message => "host rejected update: " ++ message

/-- A failure, with the part it happened in and the nesting depth of that part. -/
structure Diagnostic where
  part : Nat
  depth : Nat
  error : ResolutionError
  deriving DecidableEq, Repr

def Diagnostic.message (diagnostic : Diagnostic) : String :=
  s!"part {diagnostic.part} (nesting depth {diagnostic.depth}): {diagnostic.error.message}"

end LiveMarkup
