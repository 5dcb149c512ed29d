import SJava.Proofs.Verify.Step

/-!
# The block grammar

The statements of a program as trees. A program is a sequence of declarations, assignments and
methods; a method is a header, statements, a return and a brace; a statement is a declaration, an
assignment, a call, a return, or a condition header with statements up to its brace. The terminals
are lines of the right kind, so every tree has a well-formed sequence of lines as its sentence.

`walk` checks a tree from the top down. A block is checked in a scope of its own on top of the scopes
around it, which is dropped at its end; a method in a scope that holds its parameters.
-/

namespace SJava

def LineOf (kind : Kind) : Type := { l : Line // Kind.ofText l.text = kind }

def ReturnLine : Type := { l : Line // Clause.isReturn l.text = true }

inductive Statement where
  | declaration (l : LineOf .declaration)
  | assignment (l : LineOf .assignment)
  | call (l : LineOf .call)
  | returning (l : ReturnLine)
  | block (header : LineOf .conditionHeader) (body : List Statement) (close : LineOf .blockClose)

inductive Item where
  | declaration (l : LineOf .declaration)
  | assignment (l : LineOf .assignment)
  | method (header : LineOf .methodHeader) (body : List Statement) (last : ReturnLine)
      (close : LineOf .blockClose)

/-! ## Sentences -/

mutual

def Statement.lines : Statement → List Line
  | .declaration l => [l.1]
  | .assignment l => [l.1]
  | .call l => [l.1]
  | .returning l => [l.1]
  | .block header body close => header.1 :: (Statement.sentence body ++ [close.1])

def Statement.sentence : List Statement → List Line
  | [] => []
  | s :: rest => s.lines ++ Statement.sentence rest

end

def Item.lines : Item → List Line
  | .declaration l => [l.1]
  | .assignment l => [l.1]
  | .method header body last close =>
      header.1 :: (Statement.sentence body ++ [last.1, close.1])

def Item.sentence (items : List Item) : List Line := items.flatMap Item.lines

/-! ## The walk over a tree -/

mutual

def Statement.walk (table : MethodTable) (env : Stack) : Statement → Option Stack
  | .declaration l => (Binding.declare env l.1.text).success?
  | .assignment l => (Binding.assign env l.1.text).success?
  | .call l => (Call.check env table l.1.text).toOption.map fun _ => env
  | .returning _ => some env
  | .block header body _ =>
      (Condition.check env header.1.text).toOption.bind fun block =>
        (Statement.walkAll table (env.push (.empty .condition block.word.toList)) body).bind
          fun inner => inner.pop?.map Prod.snd

def Statement.walkAll (table : MethodTable) (env : Stack) : List Statement → Option Stack
  | [] => some env
  | s :: rest => (s.walk table env).bind fun next => Statement.walkAll table next rest

end

def Item.walk (table : MethodTable) (env : Stack) : Item → Option Stack
  | .declaration l => (Binding.declare env l.1.text).success?
  | .assignment l => (Binding.assign env l.1.text).success?
  | .method header body _ _ =>
      (Signature.ofHeader header.1.text).toOption.bind fun signature =>
        signature.scope?.bind fun scope =>
          (Statement.walkAll table (env.push scope) body).bind fun inner =>
            inner.pop?.map Prod.snd

def Item.walkAll (table : MethodTable) (env : Stack) (items : List Item) : Option Stack :=
  items.foldlM (Item.walk table) env

/-! ## What a walk keeps -/

namespace Stack

def frames (s : Stack) : List (ScopeKind × Text) := s.scopes.map fun c => (c.kind, c.name)

theorem frames_push (s : Stack) (c : Scope) : (s.push c).frames = (c.kind, c.name) :: s.frames := rfl

theorem frames_declare {s t : Stack} {v : Variable} (h : s.declare v = .ok t) :
    t.frames = s.frames := by
  obtain ⟨c, declared, rfl⟩ := declare_ok h
  obtain ⟨-, kind, name, -⟩ := Scope.declare_ok declared
  simp [frames, scopes, kind, name]

theorem frames_assign {s t : Stack} {name : Text} {value : ValueType} {w : Variable}
    (h : s.assign name value = .ok (t, w)) : t.frames = s.frames := by
  obtain ⟨outer, c, inner, v, split, -, -, -, -, -, after⟩ := assign_ok h
  have layers : t.layers.map (fun c => (c.kind, c.name)) = s.layers.map fun c => (c.kind, c.name) := by
    simp [split, after, Scope.fill]
  simpa [Stack.layers, frames] using layers

theorem frames_of_pop? {s t u : Stack} {c d : Scope} (h : t.frames = (s.push c).frames)
    (popped : t.pop? = some (d, u)) : t.current.kind = c.kind ∧ u.frames = s.frames := by
  rw [eq_push_of_pop? popped, frames_push, frames_push, List.cons.injEq, Prod.mk.injEq] at h
  rw [← current_of_pop? popped]
  exact ⟨h.1.1, h.2⟩

theorem pop?_of_frames {s t : Stack} {c : Scope} (h : t.frames = (s.push c).frames) :
    ∃ d u, t.pop? = some (d, u) ∧ t.current.kind = c.kind := by
  have deep : 1 < t.depth := by
    have length := congrArg List.length h
    simp only [frames, List.length_map, push, scopes, List.length_cons] at length
    simp only [depth, scopes, List.length_cons]
    omega
  obtain ⟨d, u, popped⟩ := exists_pop? deep
  exact ⟨d, u, popped, (frames_of_pop? h popped).1⟩

end Stack

theorem Binding.frames_declare {s t : Stack} {text : Text}
    (h : (Binding.declare s text).success? = some t) : t.frames = s.frames := by
  obtain ⟨rfl, -⟩ := Attempt.success?_eq_some.1 h
  refine declare_state (P := fun t => t.frames = s.frames) text rfl ?_
  intro final type u t binder v declared same
  obtain ⟨_, _, -, -, -, -, declared, -⟩ := declareOne_ok declared
  exact (Stack.frames_declare declared).trans same

theorem Binding.frames_assign {s t : Stack} {text : Text}
    (h : (Binding.assign s text).success? = some t) : t.frames = s.frames := by
  obtain ⟨rfl, -⟩ := Attempt.success?_eq_some.1 h
  refine assign_state (P := fun t => t.frames = s.frames) text rfl ?_
  intro u t binder w assigned same
  obtain ⟨_, _, _, -, -, -, assigned⟩ := assignOne_ok assigned
  exact (Stack.frames_assign assigned).trans same

mutual

theorem Statement.frames_walk {table : MethodTable} {env after : Stack} (s : Statement)
    (h : s.walk table env = some after) : after.frames = env.frames := by
  match s with
  | .declaration l => exact Binding.frames_declare (by simpa [walk] using h)
  | .assignment l => exact Binding.frames_assign (by simpa [walk] using h)
  | .call l =>
      simp only [walk, Option.map_eq_some_iff] at h
      obtain ⟨_, _, rfl⟩ := h
      rfl
  | .returning l =>
      simp only [walk, Option.some.injEq] at h
      rw [h]
  | .block header body close =>
      simp only [walk, Option.bind_eq_some_iff, Option.map_eq_some_iff] at h
      obtain ⟨block, -, inner, walked, ⟨c, u⟩, popped, rfl⟩ := h
      exact (Stack.frames_of_pop? (Statement.frames_walkAll body walked) popped).2

theorem Statement.frames_walkAll {table : MethodTable} {env after : Stack} (body : List Statement)
    (h : Statement.walkAll table env body = some after) : after.frames = env.frames := by
  match body with
  | [] =>
      simp only [walkAll, Option.some.injEq] at h
      rw [h]
  | s :: rest =>
      simp only [walkAll, Option.bind_eq_some_iff] at h
      obtain ⟨next, first, later⟩ := h
      exact (Statement.frames_walkAll rest later).trans (Statement.frames_walk s first)

end

end SJava
