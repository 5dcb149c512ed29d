import SJava.Lexicon.Pattern
import SJava.Lexicon.ValueType

/-!
# Literals

Each type has one form of literal. A text is tried against the forms in a fixed order; no text has
two.
-/

namespace SJava.Literal

open Pattern

def sign : Pattern := optional (one fun c => c == '-' || c == '+')

def digits : Pattern := atLeastOne Char.isDigit

def point : Pattern := char '.'

def decimals : Pattern :=
  anyOf [inTurn [digits, point, digits], inTurn [point, digits], inTurn [digits, point]]

/-- Any character but a line feed. -/
def onLine : Char → Bool := (· != '\n')

def form : ValueType → Pattern
  | .int => seq sign digits
  | .double => seq sign decimals
  | .boolean => anyOf [literal "true".toList, literal "false".toList]
  | .string => inTurn [char '"', many onLine, char '"']
  | .char => inTurn [char '\'', one onLine, char '\'']

def hasForm (type : ValueType) (t : Text) : Bool := (form type).fullMatch t

def isInt (t : Text) : Bool := hasForm .int t

def isDouble (t : Text) : Bool := hasForm .double t

def isBoolean (t : Text) : Bool := hasForm .boolean t

def firstOf (order : List ValueType) (t : Text) : Option ValueType := order.find? (hasForm · t)

def precedence : List ValueType := [.int, .double, .boolean, .string, .char]

def type? (t : Text) : Option ValueType := firstOf precedence t

end SJava.Literal
