import SJava.Lexicon.Literal
import SJava.Lexicon.Name
import SJava.Scope.Stack

/-!
# Values

A value is a literal or the name of an initialized variable. It is read in three places: on the
right of an equals sign, as an operand of a condition, and as an argument of a call. The places
differ in what else they ask for and in their messages.
-/

namespace SJava.Value

def literal (t : Text) : Except Violation ValueType :=
  match Literal.type? t with
  | some type => .ok type
  | none => .error (.unknownValue t)

/-- The type of a value that is stored in the variable `target`, which may not be the value itself.
-/
def stored (stack : Stack) (target : Option Text) (t : Text) : Except Violation ValueType :=
  if Name.isVariable t then
    if target = some t then .error (.selfAssigned t)
    else do
      let v ← stack.resolve t
      if v.initialized then .ok v.type else .error (.uninitializedValue t)
  else literal t

/-- The type of an operand of a condition. The type of a variable is checked before its value. -/
def operand (stack : Stack) (position : Nat) (t : Text) : Except Violation ValueType :=
  match Literal.type? t with
  | some type => if type.isTruthValue then .ok type else .error (.noTruthValue position type)
  | none =>
      if Name.isVariable t then do
        let v ← stack.resolve t
        if !v.type.isTruthValue then .error (.noTruthValue position v.type)
        else if v.initialized then .ok v.type
        else .error (.uninitializedOperand t)
      else .error (.unknownValue t)

def argument (stack : Stack) (method : Text) (position : Nat) (t : Text) :
    Except Violation ValueType :=
  match Literal.type? t with
  | some type => .ok type
  | none =>
      if Name.isVariable t then
        match stack.lookup? t with
        | none => .error (.undeclaredArgument position method t)
        | some v =>
            if v.initialized then .ok v.type
            else .error (.uninitializedArgument position method t)
      else .error (.unknownValue t)

end SJava.Value
