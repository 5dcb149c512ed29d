import SJava.CommandLine.Disk
import SJava.Text.Utf8
import SJava.Verify.Log

/-!
# The command line

The command takes the path of one file, which ends in `.sjava`. It prints nothing on standard
output; standard error gets the log and the first failure. The exit code is 0 for a program that
obeys the rules, 1 for one that does not, and 2 if there is nothing to verify.
-/

namespace SJava.CommandLine

structure Outcome where
  exit : Nat
  stdout : String
  stderr : String
deriving DecidableEq

inductive Refusal where
  | argumentCount (count : Nat)
  | fileFormat
  | unreadable (path : Path) (fault : ReadFault)
  | undecodable (fault : Utf8.Fault)

def readingFailed : String := "An error occurred while reading the file: "

def Refusal.message : Refusal → String
  | argumentCount count =>
      "Invalid number of arguments. Expected 1 argument but got: " ++ toString count ++
        ".\nUsage: sjavac <file.sjava>\n"
  | fileFormat => "Invalid file format.\n"
  | unreadable path fault =>
      readingFailed ++ "[Errno " ++ toString fault.code ++ "] " ++ fault.reason ++ ": " ++
        path.toText.quoted.shown ++ "\n"
  | undecodable fault => readingFailed ++ fault.message ++ "\n"

def extension : Text := ".sjava".toList

def target : List Text → Except Refusal Text
  | [path] => if extension.isSuffixOf path then .ok path else .error .fileFormat
  | args => .error (.argumentCount args.length)

def unifyLineEnds : Text → Text
  | [] => []
  | '\r' :: '\n' :: t => '\n' :: unifyLineEnds t
  | '\r' :: t => '\n' :: unifyLineEnds t
  | c :: t => c :: unifyLineEnds t

def load (read : Path → Except ReadFault (List UInt8)) (path : Text) : Except Refusal Listing := do
  let place := Path.ofText path
  let bytes ← (read place).mapError (.unreadable place)
  let t ← (Utf8.decode bytes).mapError .undecodable
  return .ofText (unifyLineEnds t)

def verify (least : Severity) (path : Text) (listing : Listing) : Outcome :=
  let run := Run.ofListing listing
  let log := Event.log least (.verifying path listing.lines.length :: run.events)
  match run.failure? with
  | none => ⟨0, "", log⟩
  | some failure => ⟨1, "", log ++ failure.report.render ++ "\n"⟩

/-- Run the command with a way to read files, the name of the log level if it is set, and the
arguments. -/
def run (read : Path → Except ReadFault (List UInt8)) (level : Option Text) (args : List Text) :
    Outcome :=
  match target args >>= fun path => (load read path).map (path, ·) with
  | .error refusal => ⟨2, "", refusal.message⟩
  | .ok (path, listing) => verify (.threshold level) path listing

end SJava.CommandLine
