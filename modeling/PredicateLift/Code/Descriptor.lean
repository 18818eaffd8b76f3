import PredicateLift.Value.Kind

/-!
# Descriptors

A field descriptor names a kind: one letter for a primitive, `L` and a class name up to a semicolon for a reference,
and a bracket before the element for an array. A method descriptor lists field descriptors in parentheses, followed
by the kind of the result.
-/

namespace PredicateLift

/-- The kind of references to a class. -/
def Kind.ofClass (name : String) : Kind :=
  if name = "java/lang/String" then .str else .object name

namespace Descriptor

/-- Reads one field descriptor from the front of a text, and gives the rest. -/
def field? : List Char → Option (Kind × List Char)
  | 'B' :: rest => some (.int, rest)
  | 'C' :: rest => some (.int, rest)
  | 'S' :: rest => some (.int, rest)
  | 'I' :: rest => some (.int, rest)
  | 'Z' :: rest => some (.bool, rest)
  | 'J' :: rest => some (.long, rest)
  | 'F' :: rest => some (.float, rest)
  | 'D' :: rest => some (.double, rest)
  | 'L' :: rest =>
    let name := rest.takeWhile (· != ';')
    match rest.dropWhile (· != ';') with
    | _ :: tail => if name.isEmpty then none else some (.ofClass (String.ofList name), tail)
    | [] => none
  | '[' :: rest => (field? rest).map fun (element, tail) => (.array element, tail)
  | _ => none

/-- Reads field descriptors up to a closing parenthesis, at most `count` of them, and gives the rest after it. -/
def parameters? : (count : Nat) → List Char → Option (List Kind × List Char)
  | _, ')' :: rest => some ([], rest)
  | 0, _ => none
  | count + 1, text => do
    let (kind, rest) ← field? text
    let (kinds, tail) ← parameters? count rest
    some (kind :: kinds, tail)

end Descriptor

/-- The kind that a field descriptor names. -/
def Kind.ofFieldDescriptor? (descriptor : String) : Option Kind :=
  match Descriptor.field? descriptor.toList with
  | some (kind, []) => some kind
  | _ => none

/-- The kinds of the parameters and of the result of a method. -/
structure Signature where
  parameters : List Kind
  result : Kind
deriving DecidableEq

/-- The signature that a method descriptor names. -/
def Signature.ofDescriptor? (descriptor : String) : Option Signature :=
  match descriptor.toList with
  | '(' :: rest => do
    let (parameters, tail) ← Descriptor.parameters? rest.length rest
    let result ← if tail = ['V'] then some .void else Kind.ofFieldDescriptor? (String.ofList tail)
    some ⟨parameters, result⟩
  | _ => none

end PredicateLift
