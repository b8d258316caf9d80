import TypedHeaders.Value.Equality

/-! # The mark of an expired date

There is one mark that stands for an expiry date which has passed. It is known by its name, and a
copy or a restored form of it is the mark itself. A mark made anew is another one, whatever its
name.
-/

namespace TypedHeaders.Mark

def name : String := "PAST"

def names : List String := [name]

def ofName? (wanted : String) : Option Value := if wanted = name then some .past else none

/-- The name that a mark is stored as, if it is known by name. -/
def stored? : Value → Option String
  | .past => some name
  | _ => none

/-- What is stored as a name comes back as the mark of that name. -/
def restored? (value : Value) : Option Value := (stored? value).bind ofName?

def copy (value : Value) : Value := value

end TypedHeaders.Mark
