import SJava.Lexicon.Pattern
import SJava.Lexicon.ValueType

/-!
# Names

Names are ASCII words. A variable name starts with a letter or an underscore, but is neither a lone
underscore nor starts with two; a method name starts with a letter. Neither is a reserved word.
-/

namespace SJava.Name

open Pattern

def reserved : List Text :=
  (ValueType.all.map ValueType.word ++
    ["void", "if", "return", "final", "while", "true", "false"]).map String.toList

def isNameChar (c : Char) : Bool := c.isAlphanum || c == '_'

def wordEnd : Pattern := boundary isNameChar

/-- No reserved word stands here. A longer word may start with one. -/
def notReserved : Pattern := absent (seq (anyOf (reserved.map literal)) wordEnd)

def wordForm : Pattern := seq (one fun c => c.isAlpha || c == '_') (many isNameChar)

def variableForm : Pattern :=
  inTurn [notReserved, absent (seq (literal ['_']) wordEnd), absent (literal ['_', '_']), wordForm]

def methodForm : Pattern := inTurn [notReserved, one Char.isAlpha, many isNameChar]

/-- The text has the form of a name, reserved or not. -/
def isWord (t : Text) : Bool := wordForm.fullMatch t

def isVariable (t : Text) : Bool := variableForm.fullMatch t

def isMethod (t : Text) : Bool := methodForm.fullMatch t

def leading (t : Text) : Text × Text := (t.takeWhile isNameChar, t.dropWhile isNameChar)

end SJava.Name
