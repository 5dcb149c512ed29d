import SJava.Text.Basic

/-!
# Quotations

A quote opens a quotation that lasts to the next quote of the same sort. `mask` blots out what is
quoted, so that a search for a semicolon or a brace sees only the code; `split` cuts a list at the
separators that stand outside quotations.
-/

namespace SJava.Quotation

def isQuote (c : Char) : Bool := c == '"' || c == '\''

/-- The quote that is open after reading `c`, given the one that was open before. -/
def next : Option Char → Char → Option Char
  | none, c => if isQuote c then some c else none
  | some quote, c => if c = quote then none else some quote

/-- Replace each quotation, read with `quote` open, by as many underscores between double quotes. A
quote without a partner stays as it is. -/
def maskFrom : Option Char → Text → Text
  | _, [] => []
  | none, c :: cs =>
      if isQuote c && cs.contains c then '"' :: maskFrom (some c) cs else c :: maskFrom none cs
  | some quote, c :: cs =>
      if c = quote then '"' :: maskFrom none cs else '_' :: maskFrom (some quote) cs

def mask (t : Text) : Text := maskFrom none t

/-- Cut at the separators outside quotations, read with `quote` open. -/
def splitFrom (separator : Text) : Option Char → Text → List Text
  | _, [] => [[]]
  | none, c :: cs =>
      if !isQuote c && separator == [c] then [] :: splitFrom separator none cs
      else Text.prepend c (splitFrom separator (next none c) cs)
  | some quote, c :: cs => Text.prepend c (splitFrom separator (next (some quote) c) cs)

/-- The parts of a text between the separators outside quotations. The separator is compared with
one character at a time, so only a separator of one character ever cuts. -/
def split (separator : Text) (t : Text) : List Text := splitFrom separator none t

end SJava.Quotation
