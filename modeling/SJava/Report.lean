import SJava.Violation

/-!
# Reports

A report is a message of some category, at a line of the listing once that is known. The first line
attached to it counts. A diagnostic is the record of a report that a front end shows.
-/

namespace SJava

structure Failure where
  violation : Violation
  line : Int
deriving DecidableEq

structure Report where
  category : Category
  message : String
  line : Option Int
deriving DecidableEq

namespace Report

def atLine (r : Report) (line : Int) : Report :=
  match r.line with
  | none => { r with line := some line }
  | some _ => r

def render (r : Report) : String :=
  match r.line with
  | none => r.message
  | some line => r.category.label ++ " error in line " ++ toString line ++ " -> " ++ r.message

end Report

def Violation.report (v : Violation) : Report := ⟨v.category, v.message, none⟩

def Failure.report (f : Failure) : Report := f.violation.report.atLine f.line

/-- A report as a front end lists it. The line is 0 if none is known. -/
structure Diagnostic where
  category : Category
  message : String
  line : Int
deriving DecidableEq

namespace Diagnostic

def phase : String := "verify"

/-- Programs are verified by lines, so the column is always the same. -/
def column : Nat := 0

def ofReport (r : Report) : Diagnostic := ⟨r.category, r.message, r.line.getD 0⟩

end Diagnostic

end SJava
