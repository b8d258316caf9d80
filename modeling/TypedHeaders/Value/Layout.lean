import TypedHeaders.Value.KeyOrder

/-! # Layout of values

A value that is too long for a line is spread over several: one item of a sequence to a line, long
text broken after blanks and long bytes broken every few bytes. What fits stays on its line, and
what cannot be broken is left too long.
-/

namespace TypedHeaders

def lineWidth : Nat := 80

namespace Text

def endsLine (c : Char) : Bool :=
  [10, 11, 12, 13, 28, 29, 30, 0x85, 0x2028, 0x2029].contains c.toNat

def isBlank (c : Char) : Bool :=
  covered c.toNat
    [(9, 13), (28, 32), (133, 133), (160, 160), (5760, 5760), (8192, 8202), (8232, 8233),
     (8239, 8239), (8287, 8287), (12288, 12288)]

/-- Text cut after every character that `breaks` before the rest. -/
def cutAfter (breaks : Char → List Char → Bool) : List Char → List (List Char)
  | [] => []
  | c :: rest =>
    match cutAfter breaks rest with
    | [] => [[c]]
    | piece :: pieces =>
      if breaks c rest then [c] :: piece :: pieces else (c :: piece) :: pieces

/-- The lines of a text, each with its end. A line feed after a carriage return ends no line of
its own. -/
def lines : List Char → List (List Char) :=
  cutAfter fun c rest => endsLine c && !(c = '\r' && rest.head? = some '\n')

def words : List Char → List (List Char) :=
  cutAfter fun c rest => isBlank c && !rest.head?.all isBlank

end Text

namespace Layout

def newLine (indent : Nat) : String := "\n" ++ String.ofList (List.replicate indent ' ')

/-- Pieces gathered into the longest runs whose `shown` form is not wider than `width`. The last
piece has only `width` less `reserved`, where `isLast` tells it from the others. -/
def gather {α : Type} (shown : List α → String) (isLast : List α → List (List α) → Bool)
    (width reserved : Int) (current : List α) : List (List α) → List String
  | [] => if current.isEmpty then [] else [shown current]
  | piece :: rest =>
    let width := if isLast piece rest then width - reserved else width
    if width < (shown (current ++ piece)).length then
      let done := if current.isEmpty then [] else [shown current]
      done ++ gather shown isLast width reserved piece rest
    else gather shown isLast width reserved (current ++ piece) rest

/-- Bytes in groups of four, the last of which may be shorter. -/
def groups : Octets → List Octets
  | a :: b :: c :: d :: rest => [a, b, c, d] :: groups rest
  | [] => []
  | rest => [rest]

/-- Bytes from a column on, with room for `reserved` more characters after them. Only a shorter
group at the end is held to that room. -/
def octets (indent reserved : Nat) (data : Octets) : String :=
  let shown := fun piece => String.ofList (Text.quotedOctets piece)
  if data.length ≤ 4 then shown data
  else
    (newLine indent).intercalate
      (gather shown (fun piece _ => piece.length < 4) (lineWidth - indent) reserved []
        (groups data))

/-- The pieces of the lines of a text, of which only the last line needs room after it. -/
def textPieces (width reserved : Int) : List (List Char) → List String
  | [] => []
  | line :: rest =>
    let shown := fun piece => String.ofList (Text.quoted piece)
    let reserved' := if rest.isEmpty then reserved else 0
    let pieces :=
      if (shown line).length ≤ width - reserved' then [shown line]
      else gather shown (fun _ others => others.isEmpty) width reserved' [] (Text.words line)
    pieces ++ textPieces width reserved rest

/-- Text from a column on, with room for `reserved` more characters after it. -/
def text (indent reserved : Nat) (s : String) : String :=
  (newLine indent).intercalate (textPieces (lineWidth - indent) reserved (Text.lines s.toList))

mutual

/-- A value from a column on, with room for `reserved` more characters after it. -/
def spread (indent reserved : Nat) (value : Value) : String :=
  if value.printed.length + indent + reserved ≤ lineWidth then value.printed
  else match value with
  | .list items => "[" ++ spreadItems (indent + 1) (reserved + 1) items ++ "]"
  | .tuple items =>
    let close := if items.length = 1 then ",)" else ")"
    "(" ++ spreadItems (indent + 1) (reserved + close.length) items ++ close
  | .mapping entries => "\x7b" ++ spreadEntries (indent + 1) (reserved + 1) entries ++ "\x7d"
  | .text s => text indent reserved s
  | .octets data => octets indent reserved data
  | .buffer data => "bytearray(" ++ octets (indent + 10) (reserved + 1) data ++ ")"
  | value => value.printed

def spreadItems (indent reserved : Nat) : List Value → String
  | [] => ""
  | [item] => spread indent reserved item
  | item :: rest =>
    spread indent 1 item ++ "," ++ newLine indent ++ spreadItems indent reserved rest

def spreadEntries (indent reserved : Nat) : List (Value × Value) → String
  | [] => ""
  | [(key, value)] =>
    key.printed ++ ": " ++ spread (indent + key.printed.length + 2) reserved value
  | (key, value) :: rest =>
    key.printed ++ ": " ++ spread (indent + key.printed.length + 2) 1 value ++ "," ++
      newLine indent ++ spreadEntries indent reserved rest

end

def layout (value : Value) : String := spread 0 0 value.ordered

end Layout

end TypedHeaders
