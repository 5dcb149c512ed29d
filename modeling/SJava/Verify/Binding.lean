import SJava.Attempt
import SJava.Clause.Layout
import SJava.Verify.Value

/-!
# Declarations and assignments

Both are lists of binders, each a name with or without a value. The binders are taken one after the
other: when one fails, it has no effect itself, and the effects of those before it stay.
-/

namespace SJava.Binding

/-- The name in a binder, and its value if there is an equals sign. The first one counts. -/
def parts (binder : Text) : Text × Option Text :=
  match Text.cutAtFirst '=' binder with
  | none => (Text.trim binder, none)
  | some (name, value) => (Text.trim name, some (Text.trim value))

/-- The type of the initial value of a new variable, if it has one. A final variable must. -/
def initialValue (stack : Stack) (final : Bool) (name : Text) :
    Option Text → Except Violation (Option ValueType)
  | none => if final then .error (.finalWithoutValue name) else .ok none
  | some [] => .error (.missingValue name)
  | some value => (Value.stored stack (some name) value).map some

def declareOne (final : Bool) (type : ValueType) (stack : Stack) (binder : Text) :
    Except Violation (Stack × Variable) := do
  let (name, value) := parts binder
  if !Name.isVariable name then throw (.illegalVariableName name)
  let initial ← initialValue stack final name value
  let v ← Variable.declared name type final initial
  let larger ← stack.declare v
  return (larger, v)

def assignOne (stack : Stack) (binder : Text) : Except Violation (Stack × Variable) := do
  let (name, value) := parts binder
  if !Name.isVariable name then throw (.illegalTarget binder)
  match value with
  | none | some [] => throw (.missingValue name)
  | some value =>
      let type ← Value.stored stack (some name) value
      stack.assign name type

def takeAll (one : Stack → Text → Except Violation (Stack × Variable)) (stack : Stack)
    (list : Text) : Attempt Stack Violation (List Variable) :=
  match Clause.items list with
  | .error v => .test stack (.error v)
  | .ok binders =>
      (Attempt.inSequence (fun s binder => .ofExcept s (one s binder)) stack binders).attempt

def declare (stack : Stack) (t : Text) : Attempt Stack Violation (List Variable) :=
  if !Clause.isTerminated t then .test stack (.error .missingSemicolon)
  else match Clause.declaration? (Clause.body t) with
    | none => .test stack (.error (.missingVariable t))
    | some d => takeAll (declareOne d.final d.type) stack d.binders

def assign (stack : Stack) (t : Text) : Attempt Stack Violation (List Variable) :=
  if !Clause.isTerminated t then .test stack (.error .missingSemicolon)
  else takeAll assignOne stack (Clause.body t)

end SJava.Binding
