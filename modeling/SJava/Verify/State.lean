import SJava.Clause.Kind
import SJava.Verify.Binding
import SJava.Verify.Call
import SJava.Verify.Condition

/-!
# Line by line

The state between two lines is the stack of scopes, the method whose body is open, and the text of
the last accepted line, which tells whether a method ends in a return. A line is first checked for
its layout, then by its kind. Methods are not nested; conditions, calls and returns stand in methods
only.
-/

namespace SJava

structure State where
  stack : Stack
  method : Option Method
  previous : Option Text

namespace State

def initial : State := ⟨.initial, none, none⟩

def isClosed (s : State) : Bool := s.method.isNone && s.stack.depth == 1

def refuse (s : State) (v : Violation) : Attempt State Violation Unit := .test s (.error v)

def declareParam (stack : Stack) (p : Param) : Attempt Stack Violation Param :=
  .ofExcept stack ((stack.declare p.asVariable).map (·, p))

/-- Open the scope of the method that a header names, with its parameters declared. -/
def enter (stack : Stack) (table : MethodTable) (t : Text) : Attempt Stack Violation Method :=
  match Signature.ofHeader t >>= fun signature => table.lookup signature.name with
  | .error v => .test stack (.error v)
  | .ok m =>
      let declared := Attempt.inSequence declareParam (stack.push (.empty .method m.name)) m.params
      ⟨declared.state, declared.attempt.result.map fun _ => m⟩

def openMethod (table : MethodTable) (s : State) (t : Text) : Attempt State Violation Unit :=
  if s.method.isSome then s.refuse .nestedMethod
  else match enter s.stack table t with
    | ⟨stack, .error v⟩ => ⟨{ s with stack }, .error v⟩
    | ⟨stack, .ok m⟩ => ⟨{ s with stack, method := some m }, .ok ()⟩

def openBlock (s : State) (t : Text) : Attempt State Violation Unit :=
  if s.method.isNone then s.refuse .conditionOutside
  else match Condition.check s.stack t with
    | .error v => s.refuse v
    | .ok block =>
        ⟨{ s with stack := s.stack.push (.empty .condition block.word.toList) }, .ok ()⟩

/-- A closing brace ends the innermost block, or the method if no block is open in it. A method ends
only after a return. While a method is open there is a scope above the global one, so in a run the
stack always has a scope to give up, and what stands here for a stack without one is never reached. -/
def closeBlock (s : State) : Attempt State Violation Unit :=
  match s.method with
  | none => s.refuse .strayClose
  | some m =>
      let popped := (s.stack.pop?.map Prod.snd).getD s.stack
      if s.stack.current.kind = .condition then ⟨{ s with stack := popped }, .ok ()⟩
      else if s.previous.any Clause.isReturn then
        ⟨{ s with stack := popped, method := none }, .ok ()⟩
      else s.refuse (.missingReturn m.name)

/-- A declaration or an assignment changes the stack, even if it fails in the middle. -/
def bindOn (s : State) (a : Attempt Stack Violation (List Variable)) :
    Attempt State Violation Unit :=
  ⟨{ s with stack := a.state }, a.result.map fun _ => ()⟩

def callOn (table : MethodTable) (s : State) (t : Text) : Attempt State Violation Unit :=
  if s.method.isNone then s.refuse .callOutside
  else .test s ((Call.check s.stack table t).map fun _ => ())

def returnOn (s : State) (t : Text) : Attempt State Violation Unit :=
  if s.method.isNone then s.refuse .returnOutside
  else if Clause.isReturn t then .test s (.ok ())
  else if Clause.isTerminated t then s.refuse (.returnWithValue t)
  else s.refuse .missingSemicolon

def handle (table : MethodTable) (s : State) (t : Text) : Kind → Attempt State Violation Unit
  | .methodHeader => s.openMethod table t
  | .conditionHeader => s.openBlock t
  | .blockClose => s.closeBlock
  | .declaration => s.bindOn (Binding.declare s.stack t)
  | .assignment => s.bindOn (Binding.assign s.stack t)
  | .call => s.callOn table t
  | .returning => s.returnOn t
  | .unrecognized => s.refuse (.illegalLine t)

def check (table : MethodTable) (s : State) (t : Text) : Attempt State Violation Unit :=
  match Clause.checkLayout t with
  | .error v => s.refuse v
  | .ok () => s.handle table t (Kind.ofText t)

end State

structure Step where
  line : Line
  before : State
  after : State

def Step.kind (step : Step) : Kind := Kind.ofText step.line.text

/-- Take a line. Only an accepted line becomes the previous one. -/
def State.take (table : MethodTable) (s : State) (l : Line) : Attempt State Failure Step :=
  match s.check table l.text with
  | ⟨left, .error v⟩ => ⟨left, .error ⟨v, l.number⟩⟩
  | ⟨left, .ok ()⟩ =>
      let after := { left with previous := some l.text }
      ⟨after, .ok ⟨l, s, after⟩⟩

end SJava
