import TypedHeaders.Error

/-! # Kinds of errors

The errors that are peculiar to headers are of a kind of their own. A refused value is at the same
time an error of type, and a failed write an error of the system, so that callers who know only
those are told too.
-/

namespace TypedHeaders

/-- The kinds of errors that are peculiar to headers. -/
inductive ErrorKind where
  | any
  | invalidValue
  | notWritten
deriving DecidableEq, Repr

namespace ErrorKind

def all : List ErrorKind := [.any, .invalidValue, .notWritten]

def name : ErrorKind → String
  | .any => "HttpHeadersException"
  | .invalidValue => "InvalidHeaderValue"
  | .notWritten => "SinkWriteError"

def ofName? (wanted : String) : Option ErrorKind := all.find? fun kind => kind.name = wanted

def general : List String := ["Exception", "BaseException", "object"]

/-- The names of the kinds that an error of this kind belongs to, nearest first. -/
def lineage : ErrorKind → List String
  | .any => [any.name] ++ general
  | .invalidValue => [invalidValue.name, any.name, "TypeError"] ++ general
  | .notWritten => [notWritten.name, any.name, Fault.systemClass] ++ general

def text (kind : ErrorKind) (arguments : List Value) : String :=
  match kind with
  | .notWritten => Fault.systemText arguments
  | _ => Fault.argumentText arguments

end ErrorKind

end TypedHeaders
