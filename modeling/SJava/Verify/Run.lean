import SJava.Verify.State

/-!
# Runs

A program is verified in two passes over its lines by ascending number: the first collects the
signatures of all methods, the second takes line after line. The first failure ends the run. At the
end nothing may be open but the global scope.
-/

namespace SJava

structure Run where
  lines : List Line
  collected : Progress MethodTable Failure Method
  walked : Progress State Failure Step

namespace Run

def walk (table : MethodTable) (s : State) (lines : List Line) : Progress State Failure Step :=
  Attempt.inSequence (State.take table) s lines

/-- Run both passes. The second does not begin if the first fails. -/
def ofLines (lines : List Line) : Run :=
  let collected := MethodTable.collect lines
  { lines, collected
    walked := match collected.failure with
      | some _ => ⟨.initial, [], none⟩
      | none => walk collected.state .initial lines }

def ofListing (listing : Listing) : Run := ofLines listing.ascending

/-- The methods that the second pass knows: none if the first failed. -/
def table (run : Run) : MethodTable :=
  match run.collected.failure with
  | some _ => .empty
  | none => run.collected.state

def state (run : Run) : State := run.walked.state

/-- The number of the last line, or 0 if there is none. -/
def lastNumber (run : Run) : Int := (run.lines.getLast?.map Line.number).getD 0

def openEnd? (run : Run) : Option Failure :=
  if run.state.isClosed then none else some ⟨.missingClose, run.lastNumber⟩

def failure? (run : Run) : Option Failure :=
  run.collected.failure <|> run.walked.failure <|> run.openEnd?

def accepted (run : Run) : Bool := run.failure?.isNone

def failing? (run : Run) : Option Line :=
  if run.walked.failure.isSome then run.lines[run.walked.done.length]? else none

end Run

end SJava
