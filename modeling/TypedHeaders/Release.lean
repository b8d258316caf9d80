import TypedHeaders.Codec

/-! # The release

What a release of the library tells about itself: its version, its terms, and the names by which its
parts are offered.
-/

namespace TypedHeaders.Release

def major : Nat := 0

def minor : Nat := 3

def stage : String := "alpha"

def version : String := toString major ++ "." ++ toString minor ++ " " ++ stage

def terms : String := "MIT"

/-- The names of the shared codecs; delays in seconds go by a name of their own. -/
def codecNames : List String := "DELTA_SECONDS" :: Codec.shared.filterMap Codec.constant

/-- The names by which the parts are offered, in no particular order. -/
def names : List String :=
  ["Headers", "header_case", "HeaderField", "IntegerHeaderField", "SignedIntegerHeaderField",
   "DateHeaderField", "ExpiresHeaderField", "RetryAfterHeaderField", "ExpiresDate", "DateRA",
   "DeltaRA", "PAST", "HEADER_FIELDS", "lookup", "require_single_field", "fmt_header",
   "parse_http_date", "format_http_date", "const", "exc"] ++ codecNames

def sortedNames : List String := names.mergeSort fun a b => decide (a ≤ b)

end TypedHeaders.Release
