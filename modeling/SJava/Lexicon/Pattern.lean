import SJava.Text.Basic

/-!
# Patterns

A pattern is matched at a place in a text. Alternatives are tried in order and repetitions from the
longest down; where the rest of the pattern fails, the next possibility is tried.
-/

namespace SJava

/-- A place in a text: the character before it, if there is one, and the text after it. -/
structure Place where
  before : Option Char
  rest : Text

inductive Pattern where
  | empty
  | one (among : Char → Bool)
  | many (among : Char → Bool)
  | seq (head tail : Pattern)
  | alt (left right : Pattern)
  /-- Reads nothing, and matches where the pattern does not. -/
  | absent (pattern : Pattern)
  /-- Reads nothing, and matches between a character of a word and what is none. -/
  | boundary (inWord : Char → Bool)

namespace Place

def start (t : Text) : Place := ⟨none, t⟩

def isBoundary (inWord : Char → Bool) (place : Place) : Bool :=
  place.before.any inWord != place.rest.head?.any inWord

end Place

namespace Pattern

/-- Read characters among the given ones, as many as `next` leaves possible. -/
def runMany (among : Char → Bool) (next : Place → Bool) : Option Char → Text → Bool
  | before, [] => next ⟨before, []⟩
  | before, c :: rest =>
      (among c && runMany among next (some c) rest) || next ⟨before, c :: rest⟩

/-- Match at a place so that `next` holds of the place where the match ends. -/
def run : Pattern → (Place → Bool) → Place → Bool
  | empty, next, place => next place
  | one _, _, ⟨_, []⟩ => false
  | one among, next, ⟨_, c :: rest⟩ => among c && next ⟨some c, rest⟩
  | many among, next, place => runMany among next place.before place.rest
  | seq head tail, next, place => head.run (tail.run next) place
  | alt left right, next, place => left.run next place || right.run next place
  | absent pattern, next, place => !pattern.run (fun _ => true) place && next place
  | boundary inWord, next, place => place.isBoundary inWord && next place

def fullMatch (pattern : Pattern) (t : Text) : Bool :=
  pattern.run (fun place => place.rest.isEmpty) (.start t)

def inTurn : List Pattern → Pattern
  | [] => empty
  | pattern :: patterns => seq pattern (inTurn patterns)

def anyOf : List Pattern → Pattern
  | [] => empty
  | [pattern] => pattern
  | pattern :: patterns => alt pattern (anyOf patterns)

def char (c : Char) : Pattern := one (· == c)

def literal (word : Text) : Pattern := inTurn (word.map char)

def optional (pattern : Pattern) : Pattern := alt pattern empty

def atLeastOne (among : Char → Bool) : Pattern := seq (one among) (many among)

end Pattern

end SJava
