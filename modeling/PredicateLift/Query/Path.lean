import PredicateLift.Text.LetterCase

/-!
# Paths from the subject

A path reads fields, calls accessors and indexes arrays, starting at the subject of a predicate. Where every step of
it reads a property, the path has a dotted name.
-/

namespace PredicateLift

/-- One step of a path. -/
inductive Segment where
  | field (name : String)
  /-- A call without arguments. -/
  | method (name : String)
  | index (position : UInt32)
  | length
deriving DecidableEq

/-- Drops a marker from the front of a text. -/
def stripMarker? (marker text : List Char) : Option (List Char) :=
  if marker.isPrefixOf text then some (text.drop marker.length) else none

/-- The property that an accessor method reads: the name after `get` or `is`, with its first letter in lower case. -/
def accessorProperty? (method : String) : Option String :=
  match stripMarker? ['g', 'e', 't'] method.toList <|> stripMarker? ['i', 's'] method.toList with
  | some (first :: rest) => if Text.isUpper first then some (String.ofList (Text.toLower first ++ rest)) else none
  | _ => none

namespace Segment

/-- The property that a step reads. -/
def property? : Segment → Option String
  | field name => some name
  | method name => accessorProperty? name
  | index _ => none
  | length => none

/-- How a step is written. -/
def text : Segment → String
  | field name => "." ++ name
  | method name => "." ++ name ++ "()"
  | index position => "[" ++ toString position.toNat ++ "]"
  | length => ".length"

end Segment

/-- Steps from the subject, the first of them first. -/
structure Path where
  segments : List Segment := []
deriving DecidableEq

namespace Path

/-- The subject itself. -/
def root : Path := {}

/-- The path with one more step. -/
def child (path : Path) (segment : Segment) : Path :=
  ⟨path.segments ++ [segment]⟩

/-- The properties on the way, separated by dots. -/
def dotted? (path : Path) : Option String :=
  (path.segments.mapM Segment.property?).map ".".intercalate

/-- How a path is written; the subject is `it`. -/
def text (path : Path) : String :=
  "it" ++ String.join (path.segments.map Segment.text)

end Path

end PredicateLift
