import SJava.Clause.Layout
import SJava.Method.Table
import SJava.Verify.Value

/-!
# Calls

A call names a method of the table. Its arguments are checked from left to right, then their number,
then their types against those of the parameters.
-/

namespace SJava.Call

def types (stack : Stack) (method : Text) (position : Nat) :
    List Text → Except Violation (List ValueType)
  | [] => .ok []
  | part :: rest => do
      let argument := Text.trim part
      if argument.isEmpty then throw (.emptyArgument position method)
      let type ← Value.argument stack method position argument
      let others ← types stack method (position + 1) rest
      return type :: others

def argumentTypes (stack : Stack) (method : Text) (t : Text) :
    Except Violation (List ValueType) :=
  let list := Text.trim t
  if list.isEmpty then .ok []
  else if Text.endsIn ',' list then .error (.trailingArgumentComma method)
  else types stack method 1 (Quotation.split [','] list)

def check (stack : Stack) (table : MethodTable) (t : Text) : Except Violation Method :=
  match Clause.call? t with
  | none => .error (.illegalLine t)
  | some call =>
      if !call.terminated then .error .missingSemicolon
      else do
        let _ ← table.lookup call.method
        let given ← argumentTypes stack call.method call.arguments
        table.checkCall call.method given

end SJava.Call
