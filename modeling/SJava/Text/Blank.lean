import SJava.Text.Basic

/-!
# Blanks

Two classes of blank characters: the blanks of every script, which are trimmed from the ends of a
line and may stand between the parts of a declaration or a header, and the six plain blanks, which
may stand around the name in an assignment, a parameter or a call.
-/

namespace SJava.Text

/-- A blank of any script. The separators from U+001C on count, the zero-width spaces do not. -/
def isBlank (c : Char) : Bool :=
  inRanges [(0x09, 0x0D), (0x1C, 0x20), (0x85, 0x85), (0xA0, 0xA0), (0x1680, 0x1680),
    (0x2000, 0x200A), (0x2028, 0x2029), (0x202F, 0x202F), (0x205F, 0x205F), (0x3000, 0x3000)] c

/-- A space, or one of the five control characters from tab to carriage return. -/
def isPlainBlank (c : Char) : Bool :=
  inRanges [(0x09, 0x0D), (0x20, 0x20)] c

theorem isBlank_of_isPlainBlank {c : Char} (h : isPlainBlank c = true) : isBlank c = true := by
  simp only [isPlainBlank, isBlank, inRanges, List.any_cons, List.any_nil, Bool.or_false,
    Bool.or_eq_true, Bool.and_eq_true, decide_eq_true_eq] at h ⊢
  omega

def trimStart (t : Text) : Text := t.dropWhile isBlank

def trimEnd : Text → Text
  | [] => []
  | c :: cs => match trimEnd cs with
      | [] => if isBlank c then [] else [c]
      | kept => c :: kept

def trim (t : Text) : Text := trimEnd (trimStart t)

def trimPlain (t : Text) : Text := t.dropWhile isPlainBlank

def afterBlanks (blank : Char → Bool) : Text → Option Text
  | [] => none
  | c :: cs => if blank c then some (cs.dropWhile blank) else none

end SJava.Text
