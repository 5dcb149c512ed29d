/-!
# Text

Program text is a list of characters. This module holds the cuts that the rest of the library makes:
at the last occurrence of a character, at every occurrence of it, and at the end of a line.
-/

namespace SJava

abbrev Text := List Char

namespace Text

def shown (t : Text) : String := String.ofList t

def endsIn (c : Char) (t : Text) : Bool := t.getLast? == some c

def afterWord (word : String) (t : Text) : Option Text := word.toList.isPrefixOf? t

def prepend (c : Char) : List Text → List Text
  | [] => [[c]]
  | part :: parts => (c :: part) :: parts

/-- The parts between the occurrences of `c`: one more than there are occurrences. -/
def partsAt (c : Char) : Text → List Text
  | [] => [[]]
  | x :: xs => if x = c then [] :: partsAt c xs else prepend x (partsAt c xs)

def cutAtLast (c : Char) : Text → Option (Text × Text)
  | [] => none
  | x :: xs => match cutAtLast c xs with
      | some (before, after) => some (x :: before, after)
      | none => if x = c then some ([], xs) else none

def cutAtFirst (c : Char) : Text → Option (Text × Text)
  | [] => none
  | x :: xs => if x = c then some ([], xs)
      else (cutAtFirst c xs).map fun (before, after) => (x :: before, after)

/-- At the end of a line there is nothing left but perhaps one line feed. -/
def atLineEnd (t : Text) : Bool := t == [] || t == ['\n']

/-- The text up to its end or up to one final line feed; a line feed anywhere else leaves no line.
-/
def singleLine? : Text → Option Text
  | [] => some []
  | '\n' :: xs => if xs.isEmpty then some [] else none
  | x :: xs => (singleLine? xs).map (x :: ·)

def inRanges (ranges : List (Nat × Nat)) (c : Char) : Bool :=
  ranges.any fun (first, last) => first ≤ c.toNat && c.toNat ≤ last

end Text

end SJava
