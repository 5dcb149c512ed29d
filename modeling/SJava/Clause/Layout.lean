import SJava.Clause.Shape
import SJava.Lexicon.Quotation
import SJava.Violation

/-!
# The layout of a line

A line holds one statement with at most one semicolon, at its end, and opens at most one brace at a
time. Quotations do not count. Lists inside a line are separated by commas outside quotations.
-/

namespace SJava.Clause

/-- The text ends in two semicolons, with nothing but blanks between and after them. -/
def endsInTwoSemicolons (t : Text) : Bool :=
  (Text.trimEnd t).endsIn ';' && (Text.trimEnd (Text.trimEnd t).dropLast).endsIn ';'

/-- A semicolon stands before those that end the text. -/
def hasInnerSemicolon (t : Text) : Bool := (t.reverse.dropWhile (· == ';')).contains ';'

/-- An opening brace follows another one with nothing but blanks between them. -/
def opensTwice : Text → Bool
  | [] => false
  | c :: cs => (c == '\x7b' && (Text.trimStart cs).head? == some '\x7b') || opensTwice cs

def checkLayout (t : Text) : Except Violation Unit :=
  let code := Quotation.mask t
  if endsInTwoSemicolons code then .error .repeatedSemicolon
  else if hasInnerSemicolon code then .error .severalStatements
  else if opensTwice code then .error .repeatedBrace
  else .ok ()

/-- The trimmed items of a list. None of them is empty. -/
def items (t : Text) : Except Violation (List Text) :=
  if (Text.trimEnd t).endsIn ',' then .error .trailingComma
  else
    let parts := (Quotation.split [','] t).map Text.trim
    if parts.any List.isEmpty then .error .emptyItem else .ok parts

end SJava.Clause
