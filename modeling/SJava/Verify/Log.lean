import SJava.Verify.Run

/-!
# Logs

What there is to tell about a run while it goes on. Each event has a severity, the part of the
program it comes from, and a message.
-/

namespace SJava

/-- How much an event matters. `unset` is below all others. -/
inductive Severity where
  | unset
  | debug
  | info
  | warning
  | error
  | critical
deriving DecidableEq

namespace Severity

def rank : Severity → Nat
  | unset => 0
  | debug => 10
  | info => 20
  | warning => 30
  | error => 40
  | critical => 50

/-- The names of the severities; two of them have a second name. -/
def names : List (String × Severity) :=
  [("NOTSET", unset), ("DEBUG", debug), ("INFO", info), ("WARNING", warning), ("WARN", warning),
    ("ERROR", error), ("CRITICAL", critical), ("FATAL", critical)]

def ofName? (t : Text) : Option Severity :=
  (names.find? fun (name, _) => name.toList == t).map Prod.snd

def label (s : Severity) : String := ((names.find? fun (_, t) => t == s).map Prod.fst).getD ""

/-- The capital of a letter, as far as it can occur in a name: besides the ASCII letters, the
dotless i and the long s have ASCII capitals. -/
def capital (c : Char) : Char :=
  if c = 'ı' then 'I' else if c = 'ſ' then 'S' else c.toUpper

/-- The least severity to log, by its name in any case. Without a name, or with an unknown one, only
warnings and worse are logged. -/
def threshold (name : Option Text) : Severity :=
  (name.bind fun t => ofName? (t.map capital)).getD warning

end Severity

inductive Event where
  | verifying (path : Text) (lines : Nat)
  | registered (m : Method)
  | collected (methods : Nat)
  | read (kind : Kind) (t : Text)
  | entered (method : Text) (depth : Nat)
  | opened (keyword : Text) (depth : Nat)
  | left (method : Text)
  | succeeded (lines : Nat)

namespace Event

def severity : Event → Severity
  | verifying .. | succeeded _ => .info
  | _ => .debug

def origin : Event → String
  | verifying .. => "cli"
  | registered _ => "semantic.method_verifier"
  | _ => "semantic.checker"

def message : Event → String
  | verifying path lines =>
      "Verifying " ++ path.shown ++ " (" ++ toString lines ++ " code lines)"
  | registered m =>
      "Registered method " ++ m.written.shown ++ " at line " ++ toString m.line
  | collected methods => "Collected " ++ toString methods ++ " method signature(s)"
  | read kind t => kind.label ++ ": " ++ t.shown
  | entered method depth => "Entered method " ++ method.shown ++ " (depth " ++ toString depth ++ ")"
  | opened keyword depth =>
      "Opened " ++ keyword.shown ++ " block (depth " ++ toString depth ++ ")"
  | left method => "Left method " ++ method.shown
  | succeeded lines => "Verification succeeded (" ++ toString lines ++ " code lines)"

def render (e : Event) : String := e.severity.label ++ " " ++ e.origin ++ ": " ++ e.message ++ "\n"

def log (least : Severity) (events : List Event) : String :=
  String.join ((events.filter fun e => least.rank ≤ e.severity.rank).map render)

end Event

def State.methodName (s : State) : Text := (s.method.map fun m => m.name).getD []

def Step.events (step : Step) : List Event :=
  .read step.kind step.line.text :: match step.kind with
    | .methodHeader => [.entered step.after.methodName step.after.stack.depth]
    | .conditionHeader => [.opened step.after.stack.current.name step.after.stack.depth]
    | .blockClose => if step.after.method.isNone then [.left step.before.methodName] else []
    | _ => []

/-- What happens at the line that ends a run: it is read if its layout is right. -/
def Line.failingEvents (l : Line) : List Event :=
  match Clause.checkLayout l.text with
  | .ok () => [.read (Kind.ofText l.text) l.text]
  | .error _ => []

def Run.events (run : Run) : List Event :=
  run.collected.done.map .registered ++
    match run.collected.failure with
    | some _ => []
    | none =>
        .collected run.table.size :: run.walked.done.flatMap Step.events ++
          run.failing?.toList.flatMap Line.failingEvents ++
          (if run.accepted then [.succeeded run.lines.length] else [])

end SJava
