import TypedHeaders.Value.Plain

/-! # Faults of a sink

What a sink reports when it cannot take any more data. A fault of the system is what a writer
accounts for; any other fault is none of its business. A fault says itself which of the two it is, as
anyone may derive further classes from that of the system's faults.
-/

namespace TypedHeaders

/-- A fault, by what a writer sees of it. -/
structure Fault where
  className : String
  /-- Whether the class is that of the faults of the system or derived from it. -/
  isSystem : Bool
  text : String

namespace Fault

/-- The classes of system faults that stand for particular causes, with the numbers of those. -/
def causes : List (String × List Int) :=
  [("BlockingIOError", [11, 114, 115]),
   ("BrokenPipeError", [32, 108]),
   ("ChildProcessError", [10]),
   ("ConnectionAbortedError", [103]),
   ("ConnectionRefusedError", [111]),
   ("ConnectionResetError", [104]),
   ("FileExistsError", [17]),
   ("FileNotFoundError", [2]),
   ("InterruptedError", [4]),
   ("IsADirectoryError", [21]),
   ("NotADirectoryError", [20]),
   ("PermissionError", [1, 13]),
   ("ProcessLookupError", [3]),
   ("TimeoutError", [110])]

def systemClass : String := "OSError"

/-- The classes of the language itself for faults of the system. -/
def systemClasses : List String := systemClass :: "ConnectionError" :: causes.map Prod.fst

/-- The class that a system fault of the given class really has: the general class gives way to
the one for the cause when the arguments begin with its number. -/
def classOf (className : String) (arguments : List Value) : String :=
  match arguments with
  | cause :: _ :: _ =>
    if className = systemClass ∧ arguments.length ≤ 5 then
      match cause.whole? with
      | some n => ((causes.find? fun entry => entry.2.contains n).map Prod.fst).getD className
      | none => className
    else className
  | _ => className

/-- The text of the arguments of any fault: nothing, the only one, or all of them as a tuple. -/
def argumentText : List Value → String
  | [] => ""
  | [argument] => argument.plain
  | arguments => (Value.tuple arguments).printed

/-- The text of the arguments of a system fault: number, reason, and the files concerned. -/
def systemText : List Value → String
  | [number, reason] => numbered number reason
  | number :: reason :: file :: rest =>
    if 5 < rest.length + 3 then argumentText (number :: reason :: file :: rest)
    else if isNull file then numbered number reason
    else
      numbered number reason ++ ": " ++ file.printed ++
        match rest with
        | [_, other] => if isNull other then "" else " -> " ++ other.printed
        | _ => ""
  | arguments => argumentText arguments
where
  /-- Number and reason. -/
  numbered (number reason : Value) : String :=
    "[Errno " ++ number.plain ++ "] " ++ reason.plain
  /-- Whether no file is named. -/
  isNull : Value → Bool
    | .null => true
    | _ => false

/-- The fault that raising a class of the language with some arguments makes. -/
def raised (className : String) (arguments : List Value) : Fault :=
  let className := classOf className arguments
  let isSystem := systemClasses.contains className
  let text := if isSystem then systemText arguments else argumentText arguments
  ⟨className, isSystem, text⟩

end Fault

end TypedHeaders
