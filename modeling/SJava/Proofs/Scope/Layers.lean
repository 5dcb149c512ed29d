import Mathlib.Data.List.Nodup
import SJava.Scope.Stack

namespace SJava

theorem find?_key_of_mem {α : Type} {key : α → Text} {items : List α}
    (distinct : (items.map key).Nodup) {a : α} (member : a ∈ items) :
    items.find? (key · == key a) = some a := by
  cases found : items.find? (key · == key a) with
  | none =>
      have absent := List.find?_eq_none.1 found a member
      simp at absent
  | some b =>
      have same : key b = key a := by simpa using List.find?_some found
      rw [List.inj_on_of_nodup_map distinct (List.mem_of_find?_eq_some found) member same]

namespace Variable

def face (v : Variable) : Text × ValueType × Bool := (v.name, v.type, v.final)

def filled (v : Variable) : Variable := { v with initialized := true }

@[simp] theorem filled_name (v : Variable) : v.filled.name = v.name := rfl

@[simp] theorem filled_initialized (v : Variable) : v.filled.initialized = true := rfl

@[simp] theorem face_filled (v : Variable) : v.filled.face = v.face := rfl

theorem eq_of_face {v w : Variable} (face : w.face = v.face)
    (flag : w.initialized = v.initialized) : w = v := by
  cases v
  cases w
  simp_all [Variable.face]

theorem filled_of_initialized {v : Variable} (h : v.initialized = true) : v.filled = v := by
  cases v
  simp_all [filled]

theorem store_ok {v w : Variable} {value : ValueType} :
    v.store value = .ok w ↔ v.type.accepts value = true ∧ w = v.filled := by
  unfold store
  split
  · rename_i accepted
    simp [accepted, filled, eq_comm]
  · rename_i refused
    simp [refused]

theorem assigned_ok {v w : Variable} {value : ValueType} :
    v.assigned value = .ok w ↔ v.final = false ∧ v.type.accepts value = true ∧ w = v.filled := by
  unfold assigned
  cases final : v.final <;> simp [store_ok]

end Variable

namespace Scope

def outline (s : Scope) : ScopeKind × Text × List (Text × ValueType × Bool) :=
  (s.kind, s.name, s.vars.map Variable.face)

theorem ext_vars {s t : Scope} (kind : s.kind = t.kind) (name : s.name = t.name)
    (vars : s.vars = t.vars) : s = t := by
  cases s
  cases t
  simp_all

theorem name_of_find? {s : Scope} {name : Text} {v : Variable} (h : s.find? name = some v) :
    v.name = name := by
  have := List.find?_some h
  simpa using this

theorem mem_of_find? {s : Scope} {name : Text} {v : Variable} (h : s.find? name = some v) :
    v ∈ s.vars :=
  List.mem_of_find?_eq_some h

theorem find?_eq_none {s : Scope} {name : Text} : s.find? name = none ↔ s.contains name = false := by
  simp [find?, contains]

theorem find?_isSome {s : Scope} {name : Text} : (s.find? name).isSome = s.contains name := by
  rw [Bool.eq_iff_iff, contains_eq_true_iff]
  simp [find?]

theorem find?_of_mem {s : Scope} {v : Variable} (h : v ∈ s.vars) : s.find? v.name = some v :=
  find?_key_of_mem s.distinct h

theorem names_filled (vars : List Variable) (name : Text) :
    (vars.map fun w => if w.name = name then w.filled else w).map Variable.name =
      vars.map Variable.name := by
  rw [List.map_map]
  apply List.map_congr_left
  intro w _
  by_cases same : w.name = name <;> simp [same]

def fill (s : Scope) (name : Text) : Scope where
  kind := s.kind
  name := s.name
  vars := s.vars.map fun w => if w.name = name then w.filled else w
  distinct := by rw [names_filled]; exact s.distinct

@[simp] theorem outline_fill (s : Scope) (name : Text) : (s.fill name).outline = s.outline := by
  simp only [outline, fill, List.map_map]
  congr 2
  apply List.map_congr_left
  intro w _
  by_cases same : w.name = name <;> simp [same]

theorem find?_fill (s : Scope) (name other : Text) :
    (s.fill name).find? other =
      (s.find? other).map fun v => if other = name then v.filled else v := by
  have names : ((fun w : Variable => w.name == other) ∘
      fun w : Variable => if w.name = name then w.filled else w) = fun w => w.name == other := by
    funext w
    by_cases same : w.name = name <;> simp [same]
  unfold find? fill
  rw [List.find?_map, names]
  cases found : s.vars.find? (fun w => w.name == other) with
  | none => rfl
  | some v =>
      have := name_of_find? found
      simp [this]

theorem replace_filled {s : Scope} {name : Text} {v : Variable} (h : s.find? name = some v) :
    s.replace v.filled = s.fill name := by
  refine ext_vars rfl rfl ?_
  apply List.map_congr_left
  intro w member
  rw [Variable.filled_name, name_of_find? h]
  by_cases same : w.name = name
  · have found := find?_of_mem member
    rw [same, h, Option.some.injEq] at found
    simp [same, found]
  · simp [same]

theorem declare_ok {s t : Scope} {v : Variable} (h : s.declare v = .ok t) :
    s.contains v.name = false ∧ t.kind = s.kind ∧ t.name = s.name ∧ t.vars = s.vars ++ [v] := by
  unfold declare at h
  split at h
  · cases h
  · rename_i fresh
    cases h
    exact ⟨by simpa using fresh, rfl, rfl, rfl⟩

theorem declare_of_fresh {s : Scope} {v : Variable} (fresh : s.contains v.name = false) :
    ∃ t, s.declare v = .ok t ∧ t.kind = s.kind ∧ t.name = s.name ∧ t.vars = s.vars ++ [v] := by
  unfold declare
  rw [dif_neg (by simp [fresh])]
  exact ⟨_, rfl, rfl, rfl, rfl⟩

theorem find?_declare {s t : Scope} {v : Variable} (h : s.declare v = .ok t) (name : Text) :
    t.find? name = if name = v.name then some v else s.find? name := by
  obtain ⟨fresh, -, -, vars⟩ := declare_ok h
  unfold find?
  rw [vars, List.find?_append]
  by_cases same : name = v.name
  · subst same
    have none := find?_eq_none.2 fresh
    unfold find? at none
    simp [none]
  · have other : (v.name == name) = false := by simpa using Ne.symm same
    simp [same, other]

end Scope

namespace Stack

def layers (s : Stack) : List Scope := s.scopes.reverse

theorem layers_eq (s : Stack) : s.layers = s.outer.reverse ++ [s.current] := by
  simp [layers, scopes]

theorem layers_ne_nil (s : Stack) : s.layers ≠ [] := by simp [layers_eq]

theorem depth_eq (s : Stack) : s.depth = s.layers.length := by simp [depth, layers]

theorem eq_of_layers {s t : Stack} (h : s.layers = t.layers) : s = t := by
  have same := List.reverse_injective h
  cases s
  cases t
  simp_all [scopes]

@[simp] theorem layers_push (s : Stack) (c : Scope) : (s.push c).layers = s.layers ++ [c] := by
  simp [layers, scopes, push]

theorem pop?_eq_some {s t : Stack} {c : Scope} :
    s.pop? = some (c, t) ↔ s.layers = t.layers ++ [c] := by
  constructor
  · intro popped
    obtain ⟨current, outer⟩ := s
    cases outer with
    | nil => simp [pop?] at popped
    | cons scope rest =>
        simp only [pop?, Option.some.injEq, Prod.mk.injEq] at popped
        obtain ⟨rfl, rfl⟩ := popped
        simp [layers, scopes]
  · intro same
    have pushed : s = t.push c := eq_of_layers (by rw [same, layers_push])
    subst pushed
    rfl

theorem eq_push_of_pop? {s t : Stack} {c : Scope} (h : s.pop? = some (c, t)) : s = t.push c :=
  eq_of_layers (by rw [pop?_eq_some.1 h, layers_push])

theorem current_of_pop? {s t : Stack} {c : Scope} (h : s.pop? = some (c, t)) : c = s.current := by
  rw [eq_push_of_pop? h]
  rfl

def closed (s : Stack) : Stack := (s.pop?.map Prod.snd).getD s

theorem closed_of_pop? {s t : Stack} {c : Scope} (h : s.pop? = some (c, t)) : s.closed = t := by
  simp [closed, h]

theorem take_layers_push (s : Stack) (c : Scope) : (s.push c).layers.take s.depth = s.layers := by
  rw [layers_push, depth_eq, List.take_left]

theorem declare_ok {s t : Stack} {v : Variable} (h : s.declare v = .ok t) :
    ∃ c, s.current.declare v = .ok c ∧ t = { s with current := c } := by
  unfold declare at h
  cases declared : s.current.declare v with
  | error e => simp [declared, Except.map] at h
  | ok c =>
      simp only [declared, Except.map, Except.ok.injEq] at h
      exact ⟨c, rfl, h.symm⟩

theorem replace_scopes (s : Stack) (v : Variable) : (s.replace v).scopes = replaceIn v s.scopes := by
  by_cases here : s.current.contains v.name = true
  · simp [replace, scopes, replaceIn, here]
  · simp [replace, scopes, replaceIn, here]

theorem replaceIn_split (v : Variable) {inner outer : List Scope} {c : Scope}
    (hidden : ∀ p ∈ inner, p.contains v.name = false) (owner : c.contains v.name = true) :
    replaceIn v (inner ++ c :: outer) = inner ++ c.replace v :: outer := by
  induction inner with
  | nil => simp [replaceIn, owner]
  | cons p inner ih =>
      have absent := hidden p (by simp)
      simp only [List.cons_append, replaceIn, absent, Bool.false_eq_true, ↓reduceIte]
      rw [ih (fun q member => hidden q (by simp [member]))]

theorem lookup?_split {s : Stack} {name : Text} {v : Variable} (h : s.lookup? name = some v) :
    ∃ outer c inner, s.layers = outer ++ c :: inner ∧ c.find? name = some v ∧
      ∀ p ∈ inner, p.find? name = none := by
  obtain ⟨inner, c, outer, split, found, hidden⟩ := List.findSome?_eq_some_iff.1 h
  refine ⟨outer.reverse, c, inner.reverse, ?_, found, ?_⟩
  · rw [layers, split]
    simp
  · intro p member
    exact hidden p (List.mem_reverse.1 member)

theorem lookup?_of_split {s : Stack} {name : Text} {v : Variable} {outer inner : List Scope}
    {c : Scope} (split : s.layers = outer ++ c :: inner) (found : c.find? name = some v)
    (hidden : ∀ p ∈ inner, p.find? name = none) : s.lookup? name = some v := by
  apply List.findSome?_eq_some_iff.2
  refine ⟨inner.reverse, c, outer.reverse, ?_, found, ?_⟩
  · rw [← List.reverse_inj, ← layers, split]
    simp
  · intro p member
    exact hidden p (List.mem_reverse.1 member)

theorem resolve_ok {s : Stack} {name : Text} {v : Variable} :
    s.resolve name = .ok v ↔ s.lookup? name = some v := by
  unfold resolve
  cases s.lookup? name <;> simp

theorem assign_ok {s t : Stack} {name : Text} {value : ValueType} {w : Variable}
    (h : s.assign name value = .ok (t, w)) :
    ∃ outer c inner v, s.layers = outer ++ c :: inner ∧ c.find? name = some v ∧
      (∀ p ∈ inner, p.find? name = none) ∧ v.final = false ∧ v.type.accepts value = true ∧
      w = v.filled ∧ t.layers = outer ++ c.fill name :: inner := by
  unfold assign at h
  cases resolved : s.resolve name with
  | error e => simp [resolved, bind, Except.bind] at h
  | ok v =>
      cases stored : v.assigned value with
      | error e => simp [resolved, stored, bind, Except.bind] at h
      | ok u =>
          simp only [resolved, stored, bind, Except.bind, pure, Except.pure, Except.ok.injEq,
            Prod.mk.injEq] at h
          obtain ⟨rfl, rfl⟩ := h
          obtain ⟨notFinal, accepted, rfl⟩ := Variable.assigned_ok.1 stored
          obtain ⟨outer, c, inner, split, found, hidden⟩ := lookup?_split (resolve_ok.1 resolved)
          refine ⟨outer, c, inner, v, split, found, hidden, notFinal, accepted, rfl, ?_⟩
          have scopes : s.scopes = inner.reverse ++ c :: outer.reverse := by
            rw [← List.reverse_inj, ← layers, split]
            simp
          have named := Scope.name_of_find? found
          rw [layers, replace_scopes, scopes, replaceIn_split, Scope.replace_filled found]
          · simp
          · intro p member
            rw [Variable.filled_name, named, ← Scope.find?_eq_none]
            exact hidden p (List.mem_reverse.1 member)
          · rw [Variable.filled_name, named, ← Scope.find?_isSome, found]
            rfl

/-! ## Places -/

/-- The variable in the scope of a height, which is 0 for the global one, under a name. -/
def varAt? (s : Stack) (height : Nat) (name : Text) : Option Variable :=
  s.layers[height]?.bind (·.find? name)

def ownerIn (name : Text) : List Scope → Option Nat
  | [] => none
  | scope :: outer => if scope.contains name then some outer.length else ownerIn name outer

/-- The height of the scope in which a name finds its variable. -/
def owner? (s : Stack) (name : Text) : Option Nat := ownerIn name s.scopes

theorem ownerIn_eq_some {name : Text} {scopes : List Scope} {height : Nat} :
    ownerIn name scopes = some height ↔ ∃ inner c outer, scopes = inner ++ c :: outer ∧
      outer.length = height ∧ c.contains name = true ∧ ∀ p ∈ inner, p.contains name = false := by
  induction scopes with
  | nil => simp [ownerIn]
  | cons scope rest ih =>
      unfold ownerIn
      split
      · rename_i here
        constructor
        · intro same
          exact ⟨[], scope, rest, rfl, by simpa using same, here, by simp⟩
        · rintro ⟨inner, c, outer, split, rfl, -, hidden⟩
          cases inner with
          | nil => simp_all
          | cons p inner =>
              simp only [List.cons_append, List.cons.injEq] at split
              have absent := hidden p (by simp)
              rw [← split.1, here] at absent
              cases absent
      · rename_i absent
        rw [ih]
        constructor
        · rintro ⟨inner, c, outer, rfl, length, has, hidden⟩
          refine ⟨scope :: inner, c, outer, rfl, length, has, ?_⟩
          simpa using ⟨by simpa using absent, hidden⟩
        · rintro ⟨inner, c, outer, split, length, has, hidden⟩
          cases inner with
          | nil => simp_all
          | cons p inner =>
              simp only [List.cons_append, List.cons.injEq] at split
              exact ⟨inner, c, outer, split.2, length, has, fun q member => hidden q (by simp [member])⟩

theorem owner?_eq_some {s : Stack} {name : Text} {height : Nat} :
    s.owner? name = some height ↔ ∃ outer c inner, s.layers = outer ++ c :: inner ∧
      outer.length = height ∧ c.contains name = true ∧ ∀ p ∈ inner, p.find? name = none := by
  simp only [owner?, ownerIn_eq_some, Scope.find?_eq_none]
  constructor
  · rintro ⟨inner, c, outer, split, length, has, hidden⟩
    refine ⟨outer.reverse, c, inner.reverse, ?_, by simpa using length, has, by simpa using hidden⟩
    rw [layers, split]
    simp
  · rintro ⟨outer, c, inner, split, length, has, hidden⟩
    refine ⟨inner.reverse, c, outer.reverse, ?_, by simpa using length, has, by simpa using hidden⟩
    rw [← List.reverse_inj, ← layers, split]
    simp

theorem varAt?_split {s : Stack} {outer inner : List Scope} {c : Scope}
    (split : s.layers = outer ++ c :: inner) (name : Text) :
    s.varAt? outer.length name = c.find? name := by
  simp [varAt?, split]

theorem lookup?_eq_some {s : Stack} {name : Text} {v : Variable} :
    s.lookup? name = some v ↔
      ∃ height, s.owner? name = some height ∧ s.varAt? height name = some v := by
  constructor
  · intro found
    obtain ⟨outer, c, inner, split, here, hidden⟩ := lookup?_split found
    refine ⟨outer.length, owner?_eq_some.2 ⟨outer, c, inner, split, rfl, ?_, hidden⟩, ?_⟩
    · rw [← Scope.find?_isSome, here]
      rfl
    · rw [varAt?_split split, here]
  · rintro ⟨height, owned, found⟩
    obtain ⟨outer, c, inner, split, rfl, -, hidden⟩ := owner?_eq_some.1 owned
    rw [varAt?_split split] at found
    exact lookup?_of_split split found hidden

theorem varAt?_of_owner? {s : Stack} {name : Text} {height : Nat}
    (h : s.owner? name = some height) : ∃ v, s.varAt? height name = some v := by
  obtain ⟨outer, c, inner, split, rfl, has, -⟩ := owner?_eq_some.1 h
  rw [varAt?_split split]
  exact Option.isSome_iff_exists.1 (by rw [Scope.find?_isSome, has])

@[simp] theorem depth_push (s : Stack) (c : Scope) : (s.push c).depth = s.depth + 1 := rfl

theorem exists_pop? {s : Stack} (h : 1 < s.depth) : ∃ c t, s.pop? = some (c, t) := by
  obtain ⟨current, outer⟩ := s
  cases outer with
  | nil => simp [depth, scopes] at h
  | cons scope rest => exact ⟨current, ⟨scope, rest⟩, rfl⟩

theorem depth_pop {s t : Stack} {c : Scope} (h : s.pop? = some (c, t)) : s.depth = t.depth + 1 := by
  rw [depth_eq, depth_eq, pop?_eq_some.1 h]
  simp

theorem depth_declare {s t : Stack} {v : Variable} (h : s.declare v = .ok t) : t.depth = s.depth := by
  obtain ⟨c, -, rfl⟩ := declare_ok h
  rfl

theorem depth_assign {s t : Stack} {name : Text} {value : ValueType} {w : Variable}
    (h : s.assign name value = .ok (t, w)) : t.depth = s.depth := by
  obtain ⟨outer, c, inner, v, split, -, -, -, -, -, after⟩ := assign_ok h
  rw [depth_eq, depth_eq, split, after]
  simp

theorem lt_depth_of_varAt? {s : Stack} {height : Nat} {name : Text} {v : Variable}
    (h : s.varAt? height name = some v) : height < s.depth := by
  unfold varAt? at h
  cases layer : s.layers[height]? with
  | none => simp [layer] at h
  | some c =>
      rw [depth_eq]
      exact (List.getElem?_eq_some_iff.1 layer).1

theorem varAt?_push (s : Stack) (c : Scope) (height : Nat) (name : Text) :
    (s.push c).varAt? height name =
      if height = s.depth then c.find? name else s.varAt? height name := by
  rw [varAt?, layers_push, List.getElem?_append, ← depth_eq]
  by_cases below : height < s.depth
  · simp [below, Nat.ne_of_lt below, varAt?]
  · by_cases same : height = s.depth
    · simp [same]
    · have beyond : s.layers[height]? = none := by
        rw [List.getElem?_eq_none_iff, ← depth_eq]
        omega
      have positive : height - s.depth ≠ 0 := by omega
      simp [below, same, varAt?, beyond, positive]

theorem varAt?_pop {s t : Stack} {c : Scope} (h : s.pop? = some (c, t)) {height : Nat}
    (below : height < t.depth) (name : Text) : t.varAt? height name = s.varAt? height name := by
  rw [eq_push_of_pop? h, varAt?_push, if_neg (Nat.ne_of_lt below)]

theorem varAt?_declare {s t : Stack} {v : Variable} (h : s.declare v = .ok t) (height : Nat)
    (name : Text) :
    t.varAt? height name =
      if height + 1 = s.depth ∧ name = v.name then some v else s.varAt? height name := by
  obtain ⟨c, declared, rfl⟩ := declare_ok h
  have found := Scope.find?_declare declared name
  simp only [varAt?, depth_eq, layers_eq, List.getElem?_append, List.length_append,
    List.length_reverse, List.length_singleton]
  rcases Nat.lt_trichotomy height s.outer.length with below | rfl | above
  · have other : height ≠ s.outer.length := Nat.ne_of_lt below
    simp [below, other]
  · simp [found]
  · have other : height ≠ s.outer.length := Nat.ne_of_gt above
    have beyond : height - s.outer.length ≠ 0 := by omega
    simp [Nat.lt_asymm above, other, beyond]

theorem varAt?_eq_none_of_declare {s t : Stack} {v : Variable} (h : s.declare v = .ok t)
    {height : Nat} (innermost : height + 1 = s.depth) : s.varAt? height v.name = none := by
  obtain ⟨c, declared, -⟩ := declare_ok h
  have top : s.outer.reverse.length = height := by
    rw [depth_eq, layers_eq] at innermost
    simpa using innermost.symm
  rw [← top, varAt?_split (layers_eq s)]
  exact Scope.find?_eq_none.2 (Scope.declare_ok declared).1

theorem varAt?_assign {s t : Stack} {name : Text} {value : ValueType} {w : Variable}
    (h : s.assign name value = .ok (t, w)) (height : Nat) (other : Text) :
    t.varAt? height other = (s.varAt? height other).map fun v =>
      if other = name ∧ s.owner? name = some height then v.filled else v := by
  obtain ⟨outer, c, inner, v, split, found, hidden, -, -, -, after⟩ := assign_ok h
  have owned : s.owner? name = some outer.length := by
    refine owner?_eq_some.2 ⟨outer, c, inner, split, rfl, ?_, hidden⟩
    rw [← Scope.find?_isSome, found]
    rfl
  rw [owned]
  by_cases here : outer.length = height
  · subst here
    rw [varAt?_split split, varAt?_split after, Scope.find?_fill]
    simp
  · have same : t.layers[height]? = s.layers[height]? := by
      rw [split, after, List.getElem?_append, List.getElem?_append]
      by_cases below : height < outer.length
      · simp [below]
      · obtain ⟨n, rfl⟩ : ∃ n, height = outer.length + (n + 1) :=
          ⟨height - outer.length - 1, by omega⟩
        simp
    simp [varAt?, same, here]

end Stack

end SJava
