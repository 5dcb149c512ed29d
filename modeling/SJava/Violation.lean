import SJava.Lexicon.ValueType

/-!
# Violations

Every way in which a program can break a rule, with the category it is reported under and its
wording.
-/

namespace SJava

/-- What sort of rule is broken. `general` stands for a rule of no particular sort. -/
inductive Category where
  | general
  | binding
  | typing
  | form
  | method
  | condition
deriving DecidableEq

namespace Category

def label : Category → String
  | general => "Verification"
  | binding => "Variable"
  | typing => "Type"
  | form => "Syntax"
  | method => "Method"
  | condition => "Condition"

def code : Category → String
  | general => "E000"
  | binding => "E100"
  | typing => "E200"
  | form => "E300"
  | method => "E400"
  | condition => "E500"

end Category

inductive Violation where
  -- variables
  | duplicateVariable (name : Text)
  | undeclared (name : Text)
  | finalReassigned (name : Text)
  | unacceptedValue (value : ValueType) (name : Text) (type : ValueType)
  | selfAssigned (name : Text)
  | uninitializedValue (name : Text)
  | illegalVariableName (name : Text)
  | finalWithoutValue (name : Text)
  | missingValue (name : Text)
  | illegalTarget (binder : Text)
  -- types
  | unknownType (text : Text)
  | unknownValue (text : Text)
  -- form of a line
  | repeatedSemicolon
  | severalStatements
  | repeatedBrace
  | missingSemicolon
  | trailingComma
  | emptyItem
  | missingVariable (line : Text)
  | headerWithoutBrace
  | conditionWithoutBrace
  | nestedMethod
  | strayClose
  | missingReturn (method : Text)
  | returnOutside
  | returnWithValue (line : Text)
  | illegalLine (line : Text)
  | missingClose
  -- methods and calls
  | invalidMethodName
  | invalidHeader
  | invalidParameters
  | duplicateParameter (name method : Text)
  | duplicateMethod (name : Text)
  | unknownMethod (name : Text)
  | wrongCount (method : Text) (expected given : Nat)
  | wrongArgument (position : Nat) (expected given : ValueType)
  | trailingArgumentComma (method : Text)
  | emptyArgument (position : Nat) (method : Text)
  | undeclaredArgument (position : Nat) (method name : Text)
  | uninitializedArgument (position : Nat) (method name : Text)
  | callOutside
  -- conditions
  | invalidCondition (line : Text)
  | emptyCondition
  | conditionStart
  | conditionEnd
  | emptyOperand (position : Nat)
  | noTruthValue (position : Nat) (type : ValueType)
  | uninitializedOperand (name : Text)
  | conditionOutside
deriving DecidableEq

namespace Violation

def category : Violation → Category
  | duplicateVariable _ | undeclared _ | finalReassigned _ | unacceptedValue .. | selfAssigned _
  | uninitializedValue _ | illegalVariableName _ | finalWithoutValue _ | missingValue _
  | illegalTarget _ => .binding
  | unknownType _ | unknownValue _ => .typing
  | repeatedSemicolon | severalStatements | repeatedBrace | missingSemicolon | trailingComma
  | emptyItem | missingVariable _ | headerWithoutBrace | conditionWithoutBrace | nestedMethod
  | strayClose | missingReturn _ | returnOutside | returnWithValue _ | illegalLine _
  | missingClose => .form
  | invalidMethodName | invalidHeader | invalidParameters | duplicateParameter ..
  | duplicateMethod _ | unknownMethod _ | wrongCount .. | wrongArgument ..
  | trailingArgumentComma _ | emptyArgument ..
  | undeclaredArgument .. | uninitializedArgument .. | callOutside => .method
  | invalidCondition _ | emptyCondition | conditionStart | conditionEnd | emptyOperand _
  | noTruthValue .. | uninitializedOperand _ | conditionOutside => .condition

def argumentPlace (position : Nat) (method : Text) : String :=
  "Argument " ++ toString position ++ " in call to " ++ method.shown

def message : Violation → String
  | duplicateVariable name =>
      "A variable named '" ++ name.shown ++ "' already exists in this scope."
  | undeclared name => "Variable " ++ name.shown ++ " was not declared."
  | finalReassigned name => "Trying to modify a final variable " ++ name.shown ++ "."
  | unacceptedValue value name type =>
      value.word ++ " is an illegal type for variable " ++ name.shown ++ " of type " ++ type.word
        ++ "."
  | selfAssigned name => "Cannot assign variable " ++ name.shown ++ " to itself."
  | uninitializedValue name => "Unable to use an uninitialized variable " ++ name.shown ++ "."
  | illegalVariableName name => "'" ++ name.shown ++ "' is an illegal variable name."
  | finalWithoutValue name => "final variable '" ++ name.shown ++ "' must be initialized."
  | missingValue name => "Illegal assignment to variable " ++ name.shown ++ "."
  | illegalTarget binder => "Illegal variable name in: " ++ binder.shown
  | unknownType text => "The type " ++ text.shown ++ " is not a legal type."
  | unknownValue text => "The type of " ++ text.shown ++ " is unknown."
  | repeatedSemicolon => "Multiple semicolons at the end of the line."
  | severalStatements => "Only one statement is allowed per line."
  | repeatedBrace => "Multiple opening braces."
  | missingSemicolon => "Missing semicolon (;) at the end of the line."
  | trailingComma => "Unexpected comma (,) at the end of the list."
  | emptyItem => "Unexpected comma (,) in the list."
  | missingVariable line => "Missing variable name in declaration: " ++ line.shown
  | headerWithoutBrace => "Method declaration does not end with a '\x7b'."
  | conditionWithoutBrace => "Missing opening brace (\x7b) at the end of the condition."
  | nestedMethod => "Nested method declarations are not allowed."
  | strayClose => "Unexpected closing brace (\x7d)."
  | missingReturn method =>
      "Missing return statement at the end of method " ++ method.shown ++ "."
  | returnOutside => "Return statement outside of a method."
  | returnWithValue line => "Methods are void; illegal return statement: " ++ line.shown
  | illegalLine line => "Illegal line of code: " ++ line.shown
  | missingClose => "Missing closing brace (\x7d)."
  | invalidMethodName => "Invalid method name."
  | invalidHeader => "Invalid method declaration."
  | invalidParameters => "Method declaration with an invalid parameter list."
  | duplicateParameter name method =>
      "Duplicate parameter name '" ++ name.shown ++ "' in method " ++ method.shown ++ "."
  | duplicateMethod name => "Method named " ++ name.shown ++ " already exists."
  | unknownMethod name => "Method named " ++ name.shown ++ " does not exist."
  | wrongCount method expected given =>
      "Wrong number of parameters. Method " ++ method.shown ++ " expected to get "
        ++ toString expected ++ " parameters, but got " ++ toString given ++ "."
  | wrongArgument position expected given =>
      "Wrong parameter type. Parameter number " ++ toString position ++ " is supposed to be "
        ++ expected.word ++ ", but got " ++ given.word ++ " instead."
  | trailingArgumentComma method =>
      "Unexpected comma (,) at the end of the arguments of " ++ method.shown ++ "."
  | emptyArgument position method => argumentPlace position method ++ " is empty."
  | undeclaredArgument position method name =>
      argumentPlace position method ++ ": variable " ++ name.shown ++ " was not declared."
  | uninitializedArgument position method name =>
      argumentPlace position method ++ ": variable " ++ name.shown ++ " is not initialized."
  | callOutside => "Calling a method from the global scope is illegal."
  | invalidCondition line => "Invalid condition statement: " ++ line.shown
  | emptyCondition => "Condition cannot be empty."
  | conditionStart => "Condition must start with a boolean value."
  | conditionEnd => "Condition must end with a boolean value."
  | emptyOperand position => "Condition " ++ toString position ++ " is empty."
  | noTruthValue position type =>
      "Conditions must be of boolean compatible type (boolean, int, double). Condition "
        ++ toString position ++ " is of type '" ++ type.word ++ "' instead."
  | uninitializedOperand name =>
      "Cannot use uninitialized variable '" ++ name.shown ++ "' in a condition."
  | conditionOutside => "Conditions are only allowed inside a method."

end Violation

def ValueType.named (t : Text) : Except Violation ValueType :=
  match ValueType.ofText? t with
  | some type => .ok type
  | none => .error (.unknownType t)

end SJava
