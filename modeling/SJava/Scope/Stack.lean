import SJava.Scope.Variable
import SJava.Text.Blank

/-!
# Scopes

Scopes are stacked: the innermost is on top, the global one at the bottom, and the stack is never
empty. A name stands for the variable of that name in the innermost scope that has one.
-/

namespace SJava

inductive ScopeKind where
  | global
  | method
  | condition
  | other (label : Text)
deriving DecidableEq

namespace ScopeKind

def label : ScopeKind → Text
  | global => "GLOBAL".toList
  | method => "METHOD".toList
  | condition => "CONDITION".toList
  | other label => label

def ofLabel (t : Text) : ScopeKind :=
  if t = global.label then global
  else if t = method.label then method
  else if t = condition.label then condition
  else other t

theorem label_ofLabel (t : Text) : (ofLabel t).label = t := by
  unfold ofLabel
  split
  · rename_i same
    exact same.symm
  split
  · rename_i same
    exact same.symm
  split
  · rename_i same
    exact same.symm
  · rfl

end ScopeKind

/-- A named scope and its variables in the order of their declaration. No two have the same name. -/
structure Scope where
  kind : ScopeKind
  name : Text
  vars : List Variable
  distinct : (vars.map Variable.name).Nodup
deriving DecidableEq

namespace Scope

def empty (kind : ScopeKind) (name : Text) : Scope := ⟨kind, name, [], List.nodup_nil⟩

def find? (s : Scope) (name : Text) : Option Variable := s.vars.find? (·.name == name)

def contains (s : Scope) (name : Text) : Bool := s.vars.any (·.name == name)

theorem contains_eq_true_iff {s : Scope} {name : Text} :
    s.contains name = true ↔ name ∈ s.vars.map Variable.name := by
  simp [contains]

theorem nodup_names_append {s : Scope} {v : Variable} (fresh : ¬s.contains v.name = true) :
    ((s.vars ++ [v]).map Variable.name).Nodup := by
  rw [contains_eq_true_iff] at fresh
  rw [List.map_append, List.nodup_append]
  refine ⟨s.distinct, by simp, ?_⟩
  intro name member other single same
  simp only [List.map_cons, List.map_nil, List.mem_singleton] at single
  exact fresh (single ▸ same ▸ member)

def declare (s : Scope) (v : Variable) : Except Violation Scope :=
  if known : s.contains v.name then .error (.duplicateVariable v.name)
  else .ok { s with vars := s.vars ++ [v], distinct := nodup_names_append known }

theorem names_replaced (vars : List Variable) (v : Variable) :
    (vars.map fun w => if w.name = v.name then v else w).map Variable.name =
      vars.map Variable.name := by
  rw [List.map_map]
  apply List.map_congr_left
  intro w _
  by_cases same : w.name = v.name <;> simp [same]

def replace (s : Scope) (v : Variable) : Scope where
  kind := s.kind
  name := s.name
  vars := s.vars.map fun w => if w.name = v.name then v else w
  distinct := by rw [names_replaced]; exact s.distinct

def heading (s : Scope) : Text := s.kind.label ++ ' ' :: s.name

def title (s : Scope) : Text := Text.trim s.heading

end Scope

/-- A stack of scopes: the innermost one, and those around it from the inside out. -/
structure Stack where
  current : Scope
  outer : List Scope
deriving DecidableEq

namespace Stack

def initial : Stack := ⟨.empty .global "__global__".toList, []⟩

def scopes (s : Stack) : List Scope := s.current :: s.outer

def depth (s : Stack) : Nat := s.scopes.length

def push (s : Stack) (scope : Scope) : Stack := ⟨scope, s.scopes⟩

/-- Close the innermost scope. The bottom scope cannot be closed. -/
def pop? (s : Stack) : Option (Scope × Stack) :=
  match s.outer with
  | [] => none
  | scope :: rest => some (s.current, ⟨scope, rest⟩)

def declare (s : Stack) (v : Variable) : Except Violation Stack :=
  (s.current.declare v).map fun scope => { s with current := scope }

def lookup? (s : Stack) (name : Text) : Option Variable := s.scopes.findSome? (·.find? name)

def resolve (s : Stack) (name : Text) : Except Violation Variable :=
  match s.lookup? name with
  | some v => .ok v
  | none => .error (.undeclared name)

def replaceIn (v : Variable) : List Scope → List Scope
  | [] => []
  | scope :: rest =>
      if scope.contains v.name then scope.replace v :: rest else scope :: replaceIn v rest

/-- Put `v` in the place of the variable that its name stands for. -/
def replace (s : Stack) (v : Variable) : Stack :=
  if s.current.contains v.name then { s with current := s.current.replace v }
  else { s with outer := replaceIn v s.outer }

def assign (s : Stack) (name : Text) (value : ValueType) : Except Violation (Stack × Variable) := do
  let v ← s.resolve name
  let w ← v.assigned value
  return (s.replace w, w)

end Stack

end SJava
