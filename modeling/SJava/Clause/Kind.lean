import SJava.Clause.Shape

/-!
# Kinds of lines

Every line has one kind. The kinds are told apart by how a line starts, and the first that fits in
the order of `Kind.shaped` is taken; a line that fits none is unrecognized.
-/

namespace SJava

inductive Kind where
  | methodHeader
  | conditionHeader
  | blockClose
  | declaration
  | assignment
  | returning
  | call
  | unrecognized
deriving DecidableEq

namespace Kind

def label : Kind → String
  | methodHeader => "method_header"
  | conditionHeader => "condition_header"
  | blockClose => "block_close"
  | declaration => "declaration"
  | assignment => "assignment"
  | returning => "return"
  | call => "call"
  | unrecognized => "unrecognized"

def fits : Kind → Text → Bool
  | methodHeader, t => t.opensWith "void"
  | conditionHeader, t => t.opensWith "if" || t.opensWith "while"
  | blockClose, t => t == ['\x7d']
  | declaration, t => (Clause.declaration? t).isSome
  | assignment, t => Clause.opensAssignment t
  | returning, t => t.opensWith "return"
  | call, t => (Clause.call? t).isSome
  | unrecognized, _ => false

/-- The kinds that have a form, in the order in which they are tried. -/
def shaped : List Kind :=
  [methodHeader, conditionHeader, blockClose, declaration, assignment, returning, call]

def firstOf (order : List Kind) (t : Text) : Kind := (order.find? (·.fits t)).getD unrecognized

def ofText (t : Text) : Kind := firstOf shaped t

end Kind

end SJava
