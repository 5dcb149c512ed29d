import SJava.Text.Utf8

/-!
# Paths

A path is kept without the parts that mean nothing: empty ones and single dots. A path from the root
starts with one slash, or with two if exactly two were written.
-/

namespace SJava

structure Path where
  root : Text
  parts : List Text
deriving DecidableEq

namespace Path

/-- The slashes that a path from the root keeps. -/
def rootOf (t : Text) : Text :=
  match (t.takeWhile (· == '/')).length with
  | 0 => []
  | 2 => ['/', '/']
  | _ => ['/']

def ofText (t : Text) : Path where
  root := rootOf t
  parts := (t.partsAt '/').filter fun part => part != [] && part != ['.']

def toText (p : Path) : Text :=
  if p.root = [] ∧ p.parts = [] then ['.'] else p.root ++ ['/'].intercalate p.parts

def up : Text := ['.', '.']

def longestPart : Nat := 255

def longest : Nat := 4095

end Path

end SJava
