import Mathlib.Data.List.Lattice
import SJava.Proofs.Attempt
import SJava.Proofs.Scope.Layers

namespace SJava.Stack

def bottom (s : Stack) : Scope := s.layers.head s.layers_ne_nil

theorem single_or_push (s : Stack) : (∃ c, s = ⟨c, []⟩) ∨ ∃ t c, s = push t c := by
  obtain ⟨current, outer⟩ := s
  cases outer with
  | nil => exact .inl ⟨current, rfl⟩
  | cons scope rest => exact .inr ⟨⟨scope, rest⟩, current, rfl⟩

theorem bottom_of_layers {s : Stack} {c : Scope} {rest : List Scope} (h : s.layers = c :: rest) :
    s.bottom = c := by
  simp [bottom, h]

@[simp] theorem bottom_single (c : Scope) : (⟨c, []⟩ : Stack).bottom = c := rfl

@[simp] theorem bottom_push (s : Stack) (c : Scope) : (s.push c).bottom = s.bottom := by
  simp [bottom, layers_ne_nil]

@[simp] theorem closed_push (s : Stack) (c : Scope) : (s.push c).closed = s := rfl

theorem eq_single_of_depth {s : Stack} (h : s.depth = 1) : s = ⟨s.bottom, []⟩ := by
  rcases single_or_push s with ⟨c, rfl⟩ | ⟨t, c, rfl⟩
  · rfl
  · rw [depth_push] at h
    simp [depth, scopes] at h

/-! ## Operations on a pushed scope -/

theorem lookup?_push (s : Stack) (c : Scope) (name : Text) :
    (s.push c).lookup? name = (c.find? name).or (s.lookup? name) := by
  simp only [lookup?, push, scopes, List.findSome?_cons]
  cases c.find? name <;> rfl

theorem lookup?_single (c : Scope) (name : Text) :
    (⟨c, []⟩ : Stack).lookup? name = c.find? name := by
  simp only [lookup?, scopes, List.findSome?_cons, List.findSome?_nil]
  cases c.find? name <;> rfl

theorem declare_push (s : Stack) (c : Scope) (v : Variable) :
    (s.push c).declare v = (c.declare v).map s.push := rfl

theorem declare_single (c : Scope) (v : Variable) :
    (⟨c, []⟩ : Stack).declare v = (c.declare v).map (⟨·, []⟩) := rfl

theorem contains_of_assigned {c : Scope} {name : Text} {v w : Variable} {value : ValueType}
    (found : c.find? name = some v) (stored : v.assigned value = .ok w) :
    c.contains w.name = true := by
  obtain ⟨-, -, rfl⟩ := Variable.assigned_ok.1 stored
  rw [Variable.filled_name, Scope.name_of_find? found, ← Scope.find?_isSome, found]
  rfl

theorem assign_push (s : Stack) (c : Scope) (name : Text) (value : ValueType) :
    (s.push c).assign name value = match c.find? name with
      | some v => (v.assigned value).map fun w => (s.push (c.replace w), w)
      | none => (s.assign name value).map fun (t, w) => (t.push c, w) := by
  unfold assign resolve
  rw [lookup?_push]
  cases here : c.find? name with
  | some v =>
      simp only [Option.some_or, bind, Except.bind]
      cases stored : v.assigned value with
      | error e => rfl
      | ok w =>
          simp only [replace, push, contains_of_assigned here stored, ↓reduceIte]
          rfl
  | none =>
      simp only [Option.none_or, bind, Except.bind]
      cases found : s.lookup? name with
      | none => rfl
      | some v =>
          simp only
          cases stored : v.assigned value with
          | error e => rfl
          | ok w =>
              have absent : c.contains w.name = false := by
                obtain ⟨-, -, rfl⟩ := Variable.assigned_ok.1 stored
                obtain ⟨_, _, _, -, owned, -⟩ := lookup?_split found
                rw [Variable.filled_name, Scope.name_of_find? owned, ← Scope.find?_eq_none, here]
              have rest : (s.push c).replace w = (s.replace w).push c := by
                simp [replace, push, absent, ← replace_scopes]
              simp only [rest]
              rfl

theorem assign_single (c : Scope) (name : Text) (value : ValueType) :
    (⟨c, []⟩ : Stack).assign name value = match c.find? name with
      | some v => (v.assigned value).map fun w => (⟨c.replace w, []⟩, w)
      | none => .error (.undeclared name) := by
  unfold assign resolve
  rw [lookup?_single]
  cases here : c.find? name with
  | none => rfl
  | some v =>
      simp only [bind, Except.bind]
      cases stored : v.assigned value with
      | error e => rfl
      | ok w =>
          simp only [replace, contains_of_assigned here stored, ↓reduceIte]
          rfl

/-! ## Global names -/

def globalNames (s : Stack) : List Text := s.bottom.vars.map Variable.name

theorem globalNames_declare {s t : Stack} {v : Variable} (h : s.declare v = .ok t) :
    s.globalNames ⊆ t.globalNames := by
  rcases single_or_push s with ⟨c, rfl⟩ | ⟨u, c, rfl⟩
  · rw [declare_single] at h
    obtain ⟨d, declared, rfl⟩ := map_eq_ok.1 h
    obtain ⟨-, -, -, vars⟩ := Scope.declare_ok declared
    simp [globalNames, vars]
  · rw [declare_push] at h
    obtain ⟨d, -, rfl⟩ := map_eq_ok.1 h
    simp [globalNames]

theorem globalNames_assign {s t : Stack} {name : Text} {value : ValueType} {w : Variable}
    (h : s.assign name value = .ok (t, w)) : t.globalNames = s.globalNames := by
  obtain ⟨outer, c, inner, v, split, -, -, -, -, -, after⟩ := assign_ok h
  cases outer with
  | nil =>
      rw [globalNames, globalNames, bottom_of_layers split, bottom_of_layers after]
      exact Scope.names_filled c.vars name
  | cons first outer => rw [globalNames, globalNames, bottom_of_layers split, bottom_of_layers after]

@[simp] theorem globalNames_push (s : Stack) (c : Scope) :
    (s.push c).globalNames = s.globalNames := by
  rw [globalNames, bottom_push, globalNames]

@[simp] theorem globalNames_closed (s : Stack) : s.closed.globalNames = s.globalNames := by
  rcases single_or_push s with ⟨c, rfl⟩ | ⟨t, c, rfl⟩
  · rfl
  · rw [closed_push, globalNames_push]

/-! ## Simulations -/

def Avoids (names : List Text) (s : Stack) : Prop := s.globalNames.Disjoint names

theorem Avoids.mono {names : List Text} {s t : Stack} (h : t.Avoids names)
    (grows : s.globalNames ⊆ t.globalNames) : s.Avoids names :=
  List.disjoint_of_subset_left grows h

structure Simulation (names : List Text) (R : Stack → Stack → Prop) : Prop where
  kind {s s' : Stack} : R s s' → s'.current.kind = s.current.kind
  lookup {s s' : Stack} {name : Text} {v : Variable} : R s s' → s.lookup? name = some v →
    v.initialized = true →
    ∃ v', s'.lookup? name = some v' ∧ v'.initialized = true ∧ v'.type = v.type
  push {s s' : Stack} (c : Scope) : R s s' → R (s.push c) (s'.push c)
  closed {s s' : Stack} : R s s' → R s.closed s'.closed
  declare {s s' t : Stack} {v : Variable} : R s s' → s.declare v = .ok t → t.Avoids names →
    ∃ t', s'.declare v = .ok t' ∧ R t t'
  assign {s s' t : Stack} {name : Text} {value : ValueType} {w : Variable} : R s s' →
    s.assign name value = .ok (t, w) → ∃ t' w', s'.assign name value = .ok (t', w') ∧ R t t'

theorem simulation_eq : Simulation [] Eq where
  kind same := by rw [same]
  lookup same found filled := ⟨_, same ▸ found, filled, rfl⟩
  push _ same := by rw [same]
  closed same := by rw [same]
  declare same done _ := ⟨_, same ▸ done, rfl⟩
  assign same done := ⟨_, _, same ▸ done, rfl⟩

end SJava.Stack
