import SJava.CommandLine.Basic

/-!
# The command

Reads the file that the arguments name and runs the command line on it.
-/

namespace SJava

/-- The fault of a given number. The number of a file that cannot be opened comes negated. -/
def ReadFault.ofCode (code : UInt32) (reason : String) : ReadFault :=
  match (min code (0 - code)).toNat with
  | 2 => .missing
  | 20 => .notDirectory
  | 21 => .isDirectory
  | 36 => .nameTooLong
  | n => .other n reason.capitalize

def ReadFault.ofError : IO.Error → ReadFault
  | .noFileOrDirectory _ code reason | .interrupted _ code reason
  | .inappropriateType _ code reason | .permissionDenied _ code reason
  | .alreadyExists _ code reason | .invalidArgument _ code reason
  | .resourceExhausted _ code reason | .noSuchThing _ code reason
  | .otherError code reason | .resourceBusy code reason | .resourceVanished code reason
  | .unsupportedOperation code reason | .hardwareFault code reason
  | .unsatisfiedConstraints code reason | .illegalOperation code reason
  | .protocolError code reason | .timeExpired code reason => ofCode code reason
  | .unexpectedEof | .userError _ => .other 5 "Input/output error"

def readFile (path : Path) : IO (Except ReadFault (List UInt8)) := do
  try
    let bytes ← IO.FS.readBinFile path.toText.shown
    return .ok bytes.toList
  catch e =>
    return .error (.ofError e)

end SJava

open SJava in
def main (arguments : List String) : IO UInt32 := do
  let args := arguments.map String.toList
  let level ← IO.getEnv "SJAVAC_LOG_LEVEL"
  let contents ← match CommandLine.target args with
    | .ok path => readFile (.ofText path)
    | .error _ => pure (.error .missing)
  let outcome := CommandLine.run (fun _ => contents) (level.map String.toList) args
  IO.print outcome.stdout
  IO.eprint outcome.stderr
  return outcome.exit.toUInt32
