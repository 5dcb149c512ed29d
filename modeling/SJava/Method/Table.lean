import SJava.Attempt
import SJava.Listing
import SJava.Method.Signature
import SJava.Report

/-!
# Method tables

There is no overloading: a name stands for one method. The table of a program is collected from all
its header lines before any call is checked, so a call may stand above the method it calls.
-/

namespace SJava

structure MethodTable where
  methods : List Method
deriving DecidableEq

namespace MethodTable

def empty : MethodTable := ⟨[]⟩

def size (table : MethodTable) : Nat := table.methods.length

def find? (table : MethodTable) (name : Text) : Option Method :=
  table.methods.find? (·.name == name)

def contains (table : MethodTable) (name : Text) : Bool := table.methods.any (·.name == name)

def add (table : MethodTable) (m : Method) : Except Violation MethodTable :=
  if table.contains m.name then .error (.duplicateMethod m.name) else .ok ⟨table.methods ++ [m]⟩

def lookup (table : MethodTable) (name : Text) : Except Violation Method :=
  match table.find? name with
  | some m => .ok m
  | none => .error (.unknownMethod name)

/-- Compare parameters with the arguments in their places, the first of which has the number
`position`. -/
def checkTypes (position : Nat) : List ValueType → List ValueType → Except Violation Unit
  | expected :: params, given :: arguments =>
      if expected.accepts given then checkTypes (position + 1) params arguments
      else .error (.wrongArgument position expected given)
  | _, _ => .ok ()

def checkCall (table : MethodTable) (name : Text) (arguments : List ValueType) :
    Except Violation Method := do
  let m ← table.lookup name
  if m.params.length ≠ arguments.length then
    throw (.wrongCount name m.params.length arguments.length)
  checkTypes 1 m.types arguments
  return m

def register (table : MethodTable) (l : Line) : Except Violation (MethodTable × Method) := do
  let signature ← Signature.ofHeader l.text
  let m : Method := ⟨signature, l.number⟩
  let larger ← table.add m
  return (larger, m)

def declares (l : Line) : Bool := l.text.opensWith "void"

/-- Register the method that a header line declares; a failure bears the number of the line. -/
def take (table : MethodTable) (l : Line) : Attempt MethodTable Failure Method :=
  .ofExcept table ((table.register l).mapError (⟨·, l.number⟩))

/-- Register the methods of all header lines in the order given, up to the first failure. -/
def collect (lines : List Line) : Progress MethodTable Failure Method :=
  Attempt.inSequence take empty (lines.filter declares)

end MethodTable

end SJava
