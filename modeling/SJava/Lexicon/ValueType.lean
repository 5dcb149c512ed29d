import SJava.Text.Basic

/-!
# Value types

The five types of values. A variable accepts values of its own type; a `double` also accepts `int`,
and a `boolean` also accepts `int` and `double`.
-/

namespace SJava

inductive ValueType where
  | int
  | double
  | string
  | boolean
  | char
deriving DecidableEq

namespace ValueType

def all : List ValueType := [int, double, string, boolean, char]

theorem mem_all (t : ValueType) : t ∈ all := by cases t <;> decide

def word : ValueType → String
  | int => "int"
  | double => "double"
  | string => "String"
  | boolean => "boolean"
  | char => "char"

def ofText? (t : Text) : Option ValueType := all.find? fun type => type.word.toList == t

def leading? (t : Text) : Option (ValueType × Text) :=
  all.findSome? fun type => (t.afterWord type.word).map (type, ·)

/-- A variable of the type `declared` can hold a value of the type `value`. -/
def accepts : (declared value : ValueType) → Bool
  | int, int => true
  | double, double | double, int => true
  | string, string => true
  | boolean, boolean | boolean, int | boolean, double => true
  | char, char => true
  | _, _ => false

def isTruthValue (type : ValueType) : Bool := boolean.accepts type

theorem accepts_self (type : ValueType) : type.accepts type = true := by cases type <;> rfl

end ValueType

end SJava
