import SJava.Violation

/-!
# Variables

A variable has a declared type, may be final, and is initialized once it holds a value. A final
variable takes its value where it is declared.
-/

namespace SJava

structure Variable where
  name : Text
  type : ValueType
  final : Bool
  initialized : Bool
deriving DecidableEq

namespace Variable

def store (v : Variable) (value : ValueType) : Except Violation Variable :=
  if v.type.accepts value then .ok { v with initialized := true }
  else .error (.unacceptedValue value v.name v.type)

def declared (name : Text) (type : ValueType) (final : Bool) :
    Option ValueType → Except Violation Variable
  | none => .ok ⟨name, type, final, false⟩
  | some value => store ⟨name, type, final, false⟩ value

def assigned (v : Variable) (value : ValueType) : Except Violation Variable :=
  if v.final then .error (.finalReassigned v.name) else v.store value

end Variable

end SJava
