import SJava.Clause.Shape
import SJava.Scope.Variable

/-!
# Signatures

A method is known by its name and its parameters. A signature is read from a method header and
written as the header without its brace. A header is checked from the outside in: first the brace at
its end, then the name, then the parameters from left to right.
-/

namespace SJava

structure Param where
  name : Text
  type : ValueType
  final : Bool
deriving DecidableEq

namespace Param

/-- The variable that a parameter is in the body of its method: it holds a value from the start. -/
def asVariable (p : Param) : Variable := ⟨p.name, p.type, p.final, true⟩

def written (p : Param) : Text :=
  (if p.final then "final ".toList else []) ++ p.type.word.toList ++ ' ' :: p.name

/-- A type and a variable name, perhaps after `final`, with plain blanks between them. -/
def ofText? (t : Text) : Option Param := do
  let (final, rest) := Clause.finality Text.isPlainBlank t
  let (type, rest) ← ValueType.leading? rest
  let name ← Text.afterBlanks Text.isPlainBlank rest
  guard (Name.isVariable name)
  return ⟨name, type, final⟩

/-- Read parameters of `method` from left to right, given the names of those before them. -/
def readAll (method : Text) : List Text → List Text → Except Violation (List Param)
  | _, [] => .ok []
  | names, part :: parts => match ofText? (Text.trim part) with
      | none => .error .invalidParameters
      | some p =>
          if names.contains p.name then .error (.duplicateParameter p.name method)
          else (readAll method (p.name :: names) parts).map (p :: ·)

def readList (method : Text) (t : Text) : Except Violation (List Param) :=
  let list := Text.trim t
  if list.isEmpty then .ok []
  else if Text.endsIn ',' list then .error .invalidParameters
  else readAll method [] (Text.partsAt ',' list)

end Param

structure Signature where
  name : Text
  params : List Param
deriving DecidableEq

namespace Signature

def types (s : Signature) : List ValueType := s.params.map Param.type

def written (s : Signature) : Text :=
  "void ".toList ++ s.name ++ '(' :: [',', ' '].intercalate (s.params.map Param.written) ++ [')']

def ofHeader (t : Text) : Except Violation Signature :=
  if !t.endsIn '\x7b' then .error .headerWithoutBrace
  else match Clause.header? t with
    | none =>
        .error (if (Clause.headerName? t).any Name.isMethod then .invalidHeader
          else .invalidMethodName)
    | some (name, inner) =>
        if Name.isMethod name then (Param.readList name inner).map (⟨name, ·⟩)
        else .error .invalidMethodName

end Signature

structure Method extends Signature where
  line : Int
deriving DecidableEq

end SJava
