import SJava.Text.Blank
import SJava.Text.Word
import SJava.Lexicon.Name

/-!
# The shapes of a line

A line is cut into its parts before anything is checked about them. A parenthesis that opens a list
is closed by the last `)` of the line, and what it encloses stands on one line. A shape may be
followed by one line feed at the very end; only a method header ends strictly at its brace.
-/

namespace SJava.Clause

/-- The text enclosed by a leading `(` and the last `)`, and what follows. -/
def parenthesized? : Text → Option (Text × Text)
  | '(' :: t => (Text.cutAtLast ')' t).filter fun (inner, _) => !inner.contains '\n'
  | _ => none

/-- Whether the modifier `final` and blanks of the class `blank` stand in front, and what follows.
-/
def finality (blank : Char → Bool) (t : Text) : Bool × Text :=
  match (t.afterWord "final").bind (Text.afterBlanks blank) with
  | some rest => (true, rest)
  | none => (false, t)

structure Declaration where
  final : Bool
  type : ValueType
  binders : Text
deriving DecidableEq

def declaration? (t : Text) : Option Declaration := do
  let (final, rest) := finality Text.isBlank t
  let (type, rest) ← ValueType.leading? rest
  let rest ← Text.afterBlanks Text.isBlank rest
  let binders ← Text.singleLine? rest
  return ⟨final, type, binders⟩

def opensAssignment (t : Text) : Bool :=
  let (name, rest) := Name.leading t
  Name.isVariable name && (Text.trimPlain rest).head? == some '='

structure Call where
  method : Text
  arguments : Text
  terminated : Bool
deriving DecidableEq

def call? (t : Text) : Option Call := do
  let (name, rest) := Name.leading t
  guard (Name.isMethod name)
  let (inner, tail) ← parenthesized? (Text.trimPlain rest)
  match Text.trimPlain tail with
  | [] => some ⟨name, inner, false⟩
  | ';' :: r => if Text.atLineEnd r then some ⟨name, inner, true⟩ else none
  | _ => none

inductive Block where
  | branch
  | loop
deriving DecidableEq

namespace Block

def all : List Block := [branch, loop]

def word : Block → String
  | branch => "if"
  | loop => "while"

end Block

def condition? (t : Text) : Option (Block × Text) :=
  Block.all.findSome? fun block => do
    let rest ← t.afterWord block.word
    let (inner, tail) ← parenthesized? (Text.trimStart rest)
    match Text.trimStart tail with
    | '\x7b' :: r => if Text.atLineEnd r then some (block, inner) else none
    | _ => none

def parameters? (rest : Text) : Option Text := do
  let (inner, tail) ← parenthesized? (Text.trimStart rest)
  guard (Text.trimStart tail == ['\x7b'])
  return inner

/-- The shortest run of characters without blanks that a parameter list follows, and that list. -/
def nameAndParameters? : Text → Option (Text × Text)
  | [] => none
  | c :: cs =>
      if Text.isBlank c then none
      else match parameters? cs with
        | some inner => some ([c], inner)
        | none => (nameAndParameters? cs).map fun (name, inner) => (c :: name, inner)

/-- The name and the parameter list of a method header. The name need not be a legal one. -/
def header? (t : Text) : Option (Text × Text) :=
  ((t.afterWord "void").bind (Text.afterBlanks Text.isBlank)).bind nameAndParameters?

/-- The word after `void`, up to a parenthesis or a blank. -/
def headerName? (t : Text) : Option Text :=
  (t.afterWord "void").map fun rest =>
    (Text.trimStart rest).takeWhile fun c => c != '(' && !Text.isBlank c

def isReturn (t : Text) : Bool :=
  match (t.afterWord "return").map Text.trimStart with
  | some (';' :: r) => Text.atLineEnd r
  | _ => false

def isTerminated (t : Text) : Bool := t.endsIn ';'

def body (t : Text) : Text := if isTerminated t then Text.trimEnd t.dropLast else t

end SJava.Clause
