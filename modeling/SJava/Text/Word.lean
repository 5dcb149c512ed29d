import SJava.Text.Alphanumeric

/-!
# Words

A line may open with a keyword. The keyword ends where no letter, digit or underscore of any script
follows, so `voidé` does not open with `void`.
-/

namespace SJava.Text

def isWordChar (c : Char) : Bool := c == '_' || isAlphanumeric c

def atWordEnd : Text → Bool
  | [] => true
  | c :: _ => !isWordChar c

/-- The text starts with the keyword `word`, and the keyword ends there. -/
def opensWith (word : String) (t : Text) : Bool := (t.afterWord word).any atWordEnd

end SJava.Text
