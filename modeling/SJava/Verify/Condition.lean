import SJava.Clause.Shape
import SJava.Verify.Value

/-!
# Conditions

A condition is a series of operands joined by `||` or `&&`. Every operand must be a truth value; the
operands are checked from left to right.
-/

namespace SJava.Condition

def operands : Text → List Text
  | [] => [[]]
  | '|' :: '|' :: t => [] :: operands t
  | '&' :: '&' :: t => [] :: operands t
  | c :: t => Text.prepend c (operands t)

def joints : List Text := [['|', '|'], ['&', '&']]

def checkOperands (stack : Stack) (position : Nat) : List Text → Except Violation Unit
  | [] => .ok ()
  | part :: rest => do
      let operand := Text.trim part
      if operand.isEmpty then throw (.emptyOperand position)
      let _ ← Value.operand stack position operand
      checkOperands stack (position + 1) rest

def checkInner (stack : Stack) (t : Text) : Except Violation Unit :=
  let inner := Text.trim t
  if inner.isEmpty then .error .emptyCondition
  else if joints.any (·.isPrefixOf inner) then .error .conditionStart
  else if joints.any (·.isSuffixOf inner) then .error .conditionEnd
  else checkOperands stack 1 (operands inner)

def check (stack : Stack) (t : Text) : Except Violation Clause.Block :=
  match Clause.condition? t with
  | some (block, inner) => (checkInner stack inner).map fun _ => block
  | none => .error (if t.endsIn '\x7b' then .invalidCondition t else .conditionWithoutBrace)

end SJava.Condition
