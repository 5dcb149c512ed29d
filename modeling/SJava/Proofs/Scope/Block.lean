import SJava.Proofs.Scope.Layers

/-!
# Blocks

What is left of a block once it is closed. A block is a scope that is opened, a well-nested sequence
of operations, and the closing of that scope. Operations may fail; one that does leaves the stack as
it was. The scopes around the block keep their variables with their types and finality, and the flags
change only from empty to filled, for the variables that an assignment of the block stands for.

The invariant of the sequence is its level: as long as the level is at least that of the block, every
operation works above the scopes that survive (`outline_perform`, `varAt?_perform`).
-/

namespace SJava.Stack

/-- What can be done to a stack. A declaration brings a fresh variable, which no other scope shares. -/
inductive Operation where
  | push (kind : ScopeKind) (name : Text)
  | pop
  | declare (v : Variable)
  | assign (name : Text) (value : ValueType)
deriving DecidableEq

def perform (s : Stack) : Operation → Stack
  | .push kind name => s.push (.empty kind name)
  | .pop => match s.pop? with
      | some (_, t) => t
      | none => s
  | .declare v => match s.declare v with
      | .ok t => t
      | .error _ => s
  | .assign name value => match s.assign name value with
      | .ok (t, _) => t
      | .error _ => s

def performAll (s : Stack) (ops : List Operation) : Stack := ops.foldl perform s

/-- The number of scopes that are open after a sequence, if `n` are before it. None of those that
were open earlier may be closed. -/
def level : Nat → List Operation → Option Nat
  | n, [] => some n
  | n, .push _ _ :: ops => level (n + 1) ops
  | 0, .pop :: _ => none
  | n + 1, .pop :: ops => level n ops
  | n, .declare _ :: ops => level n ops
  | n, .assign _ _ :: ops => level n ops

def WellNested (ops : List Operation) : Prop := level 0 ops = some 0

instance (ops : List Operation) : Decidable (WellNested ops) :=
  inferInstanceAs (Decidable (_ = _))

def FillsNow (s : Stack) (op : Operation) (height : Nat) (name : Text) : Prop :=
  ∃ value t w, op = .assign name value ∧ s.assign name value = .ok (t, w) ∧
    s.owner? name = some height

/-- Some assignment of the sequence succeeds and stands for the variable of this place: no scope
further in has the name then. -/
def Fills (s : Stack) (ops : List Operation) (height : Nat) (name : Text) : Prop :=
  ∃ before op after, ops = before ++ op :: after ∧ (s.performAll before).FillsNow op height name

theorem fills_nil {s : Stack} {height : Nat} {name : Text} : ¬s.Fills [] height name := by
  rintro ⟨before, op, after, split, -⟩
  simp at split

theorem fills_cons {s : Stack} {op : Operation} {ops : List Operation} {height : Nat} {name : Text} :
    s.Fills (op :: ops) height name ↔
      s.FillsNow op height name ∨ (s.perform op).Fills ops height name := by
  constructor
  · rintro ⟨before, next, after, split, fills⟩
    cases before with
    | nil =>
        simp only [List.nil_append, List.cons.injEq] at split
        obtain ⟨rfl, rfl⟩ := split
        exact .inl fills
    | cons first before =>
        simp only [List.cons_append, List.cons.injEq] at split
        obtain ⟨rfl, rfl⟩ := split
        exact .inr ⟨before, next, after, rfl, fills⟩
  · rintro (fills | ⟨before, next, after, rfl, fills⟩)
    · exact ⟨[], op, ops, rfl, fills⟩
    · exact ⟨op :: before, next, after, rfl, fills⟩

/-! ## One operation -/

theorem outline_assign {s t : Stack} {name : Text} {value : ValueType} {w : Variable}
    (h : s.assign name value = .ok (t, w)) :
    t.layers.map Scope.outline = s.layers.map Scope.outline := by
  obtain ⟨outer, c, inner, v, split, -, -, -, -, -, after⟩ := assign_ok h
  simp [split, after]

theorem level_cons {s : Stack} {d n : Nat} {op : Operation} {ops : List Operation}
    (nested : level n (op :: ops) = some 0) (depth : s.depth = d + 1 + n) :
    ∃ m, level m ops = some 0 ∧ (s.perform op).depth = d + 1 + m := by
  cases op with
  | push kind name =>
      refine ⟨n + 1, by simpa [level] using nested, ?_⟩
      simp [perform, depth]
      omega
  | pop =>
      cases n with
      | zero => simp [level] at nested
      | succ n =>
          refine ⟨n, by simpa [level] using nested, ?_⟩
          obtain ⟨c, t, popped⟩ := exists_pop? (s := s) (by omega)
          have shorter := depth_pop popped
          simp only [perform, popped]
          omega
  | declare v =>
      refine ⟨n, by cases n <;> simpa [level] using nested, ?_⟩
      cases declared : s.declare v with
      | error e => simpa [perform, declared] using depth
      | ok t => simpa [perform, declared, depth_declare declared] using depth
  | assign name value =>
      refine ⟨n, by cases n <;> simpa [level] using nested, ?_⟩
      cases assigned : s.assign name value with
      | error e => simpa [perform, assigned] using depth
      | ok pair => simpa [perform, assigned, depth_assign assigned] using depth

theorem outline_perform {s : Stack} {d : Nat} (op : Operation) (deep : d < s.depth) :
    ((s.perform op).layers.take d).map Scope.outline = (s.layers.take d).map Scope.outline := by
  cases op with
  | push kind name =>
      rw [perform, layers_push, List.take_append_of_le_length]
      rw [← depth_eq]
      exact Nat.le_of_lt deep
  | pop =>
      cases popped : s.pop? with
      | none => simp [perform, popped]
      | some pair =>
          obtain ⟨c, t⟩ := pair
          have shorter := depth_pop popped
          simp only [perform, popped]
          rw [pop?_eq_some.1 popped, List.take_append_of_le_length]
          rw [← depth_eq]
          omega
  | declare v =>
      cases declared : s.declare v with
      | error e => simp [perform, declared]
      | ok t =>
          obtain ⟨c, -, rfl⟩ := declare_ok declared
          have below : d ≤ s.outer.reverse.length := by
            rw [depth_eq, layers_eq] at deep
            simp at deep ⊢
            omega
          simp only [perform, declared, layers_eq]
          rw [List.take_append_of_le_length below, List.take_append_of_le_length below]
  | assign name value =>
      cases assigned : s.assign name value with
      | error e => simp [perform, assigned]
      | ok pair =>
          simp only [perform, assigned, List.map_take]
          rw [outline_assign (t := pair.1) (w := pair.2) assigned]

theorem not_final_of_fillsNow {s : Stack} {op : Operation} {height : Nat} {name : Text}
    {v : Variable} (fills : s.FillsNow op height name) (found : s.varAt? height name = some v) :
    v.final = false := by
  obtain ⟨value, t, w, -, assigned, owned⟩ := fills
  obtain ⟨outer, c, inner, u, split, here, hidden, notFinal, -⟩ := assign_ok assigned
  have looked := lookup?_of_split split here hidden
  rw [lookup?_eq_some.2 ⟨height, owned, found⟩, Option.some.injEq] at looked
  rw [looked, notFinal]

theorem varAt?_perform {s : Stack} {d height : Nat} {name : Text} {v : Variable} (op : Operation)
    (deep : d < s.depth) (below : height < d) (found : s.varAt? height name = some v) :
    ∃ w, (s.perform op).varAt? height name = some w ∧ w.face = v.face ∧
      (w.initialized = true ↔ v.initialized = true ∨ s.FillsNow op height name) := by
  have unfilled : (∀ value, op ≠ .assign name value) → ¬s.FillsNow op height name := by
    rintro other ⟨value, t, w, rfl, -⟩
    exact other value rfl
  cases op with
  | push kind label =>
      have other : height ≠ s.depth := by omega
      refine ⟨v, ?_, rfl, by simp [unfilled]⟩
      rw [perform, varAt?_push, if_neg other, found]
  | pop =>
      refine ⟨v, ?_, rfl, by simp [unfilled]⟩
      cases popped : s.pop? with
      | none => simpa [perform, popped] using found
      | some pair =>
          have shorter := depth_pop (c := pair.1) (t := pair.2) popped
          simp only [perform, popped]
          rw [varAt?_pop popped (by omega), found]
  | declare u =>
      refine ⟨v, ?_, rfl, by simp [unfilled]⟩
      cases declared : s.declare u with
      | error e => simpa [perform, declared] using found
      | ok t =>
          have other : height + 1 ≠ s.depth := by omega
          simp only [perform, declared]
          rw [varAt?_declare declared, if_neg (fun both => other both.1), found]
  | assign other value =>
      cases assigned : s.assign other value with
      | error e =>
          refine ⟨v, by simpa [perform, assigned] using found, rfl, ?_⟩
          have refused : ¬s.FillsNow (.assign other value) height name := by
            rintro ⟨_, t, w, same, accepted, -⟩
            cases same
            rw [assigned] at accepted
            cases accepted
          simp [refused]
      | ok pair =>
          have after := varAt?_assign (t := pair.1) (w := pair.2) assigned height name
          rw [found] at after
          by_cases here : name = other ∧ s.owner? other = some height
          · refine ⟨v.filled, by simpa [perform, assigned, here] using after, rfl, ?_⟩
            have fills : s.FillsNow (.assign other value) height name :=
              ⟨value, pair.1, pair.2, by rw [here.1], by rw [here.1, assigned], by rw [here.1, here.2]⟩
            simp [fills]
          · refine ⟨v, by simpa [perform, assigned, here] using after, rfl, ?_⟩
            have untouched : ¬s.FillsNow (.assign other value) height name := by
              rintro ⟨_, t, w, same, -, owned⟩
              cases same
              exact here ⟨rfl, owned⟩
            simp [untouched]

/-! ## A sequence of operations -/

theorem outline_performAll {d n : Nat} {ops : List Operation} {s : Stack}
    (nested : level n ops = some 0) (depth : s.depth = d + 1 + n) :
    (s.performAll ops).depth = d + 1 ∧
      ((s.performAll ops).layers.take d).map Scope.outline =
        (s.layers.take d).map Scope.outline := by
  induction ops generalizing s n with
  | nil =>
      have zero : n = 0 := by simpa [level] using nested
      subst zero
      exact ⟨depth, rfl⟩
  | cons op ops ih =>
      obtain ⟨m, rest, next⟩ := level_cons nested depth
      obtain ⟨final, same⟩ := ih rest next
      exact ⟨final, same.trans (outline_perform op (by omega))⟩

theorem varAt?_performAll {d n : Nat} {ops : List Operation} {s : Stack} {height : Nat}
    {name : Text} {v : Variable} (nested : level n ops = some 0) (depth : s.depth = d + 1 + n)
    (below : height < d) (found : s.varAt? height name = some v) :
    ∃ w, (s.performAll ops).varAt? height name = some w ∧ w.face = v.face ∧
      (w.initialized = true ↔ v.initialized = true ∨ s.Fills ops height name) ∧
      (s.Fills ops height name → v.final = false) := by
  induction ops generalizing s n v with
  | nil => exact ⟨v, found, rfl, by simp [fills_nil], fun fills => absurd fills fills_nil⟩
  | cons op ops ih =>
      obtain ⟨m, rest, next⟩ := level_cons nested depth
      obtain ⟨u, reached, face, flag⟩ := varAt?_perform op (by omega) below found
      obtain ⟨w, final, sameFace, sameFlag, unsealed⟩ := ih rest next reached
      refine ⟨w, final, sameFace.trans face, ?_, ?_⟩
      · rw [sameFlag, flag, fills_cons, or_assoc]
      · rw [fills_cons]
        rintro (now | later)
        · exact not_final_of_fillsNow now found
        · have sameFinal : u.final = v.final := congrArg (fun f => f.2.2) face
          rw [← sameFinal]
          exact unsealed later

/-! ## A block -/

theorem contains_outline (s : Scope) (name : Text) :
    s.contains name = s.outline.2.2.any fun face => face.1 == name := by
  simp [Scope.contains, Scope.outline, Variable.face, Function.comp_def]

theorem owner?_of_outline {s t : Stack}
    (same : t.layers.map Scope.outline = s.layers.map Scope.outline) (name : Text) :
    t.owner? name = s.owner? name := by
  have scopes : t.scopes.map Scope.outline = s.scopes.map Scope.outline := by
    simpa [layers] using same
  unfold owner?
  generalize t.scopes = inner at scopes
  generalize s.scopes = outer at scopes
  induction inner generalizing outer with
  | nil => simp_all [ownerIn]
  | cons c inner ih =>
      cases outer with
      | nil => simp at scopes
      | cons c' outer =>
          simp only [List.map_cons, List.cons.injEq] at scopes
          have lengths : inner.length = outer.length := by simpa using congrArg List.length scopes.2
          simp only [ownerIn, contains_outline, scopes.1, lengths, ih outer scopes.2]

theorem find?_face (s : Scope) (name : Text) :
    (s.find? name).map Variable.face = s.outline.2.2.find? fun face => face.1 == name := by
  simp only [Scope.find?, Scope.outline, List.find?_map]
  rfl

theorem lookup?_of_outline {s t : Stack}
    (same : t.layers.map Scope.outline = s.layers.map Scope.outline) (name : Text) :
    (t.lookup? name).map Variable.face = (s.lookup? name).map Variable.face := by
  have scopes : t.scopes.map Scope.outline = s.scopes.map Scope.outline := by
    simpa [layers] using same
  have faces (u : Stack) : (u.lookup? name).map Variable.face =
      (u.scopes.map Scope.outline).findSome? fun o => o.2.2.find? fun face => face.1 == name := by
    simp only [lookup?, List.map_findSome?, List.findSome?_map, Function.comp_def, find?_face]
  rw [faces t, faces s, scopes]

theorem performAll_block (s : Stack) (kind : ScopeKind) (label : Text) (ops : List Operation) :
    s.performAll (.push kind label :: ops ++ [.pop]) =
      ((s.push (.empty kind label)).performAll ops).perform .pop := by
  simp [performAll, perform]

/-- After a block the scopes around it have the same variables with the same types and finality. A
flag is set if it was set before, or if an assignment of the block succeeded on that variable, which
is not final then. Every name again stands for the variable that it stood for. -/
theorem block_keeps_outer_scopes (s : Stack) (kind : ScopeKind) (label : Text)
    (ops : List Operation) (nested : WellNested ops) :
    let t := s.performAll (.push kind label :: ops ++ [.pop])
    t.layers.map Scope.outline = s.layers.map Scope.outline ∧
    (∀ height name v, s.varAt? height name = some v →
      ∃ w, t.varAt? height name = some w ∧ w.face = v.face ∧ (v.final = true → w = v) ∧
        (w.initialized = true ↔ v.initialized = true ∨
          v.final = false ∧ (s.push (.empty kind label)).Fills ops height name)) ∧
    ∀ name, t.owner? name = s.owner? name ∧
      (t.lookup? name).map Variable.face = (s.lookup? name).map Variable.face := by
  intro t
  have start : (s.push (.empty kind label)).depth = s.depth + 1 + 0 := by simp
  obtain ⟨depth, outline⟩ := outline_performAll nested start
  obtain ⟨c, u, popped⟩ := exists_pop? (s := (s.push (.empty kind label)).performAll ops)
    (by rw [depth, depth_eq, layers_eq]; simp)
  have closed : t = u := by simp only [t, performAll_block, perform, popped]
  have shorter : u.depth = s.depth := by
    have := depth_pop popped
    omega
  -- What the sequence keeps of the lower scopes is all that is left after the block.
  have same : t.layers.map Scope.outline = s.layers.map Scope.outline := by
    rw [eq_push_of_pop? popped, take_layers_push, ← shorter, take_layers_push] at outline
    rw [closed, outline]
  refine ⟨same, ?_, fun name => ⟨owner?_of_outline same name, lookup?_of_outline same name⟩⟩
  intro height name v found
  have below := lt_depth_of_varAt? found
  have inside : (s.push (.empty kind label)).varAt? height name = some v := by
    rw [varAt?_push, if_neg (Nat.ne_of_lt below), found]
  obtain ⟨w, reached, face, flag, unsealed⟩ := varAt?_performAll nested start below inside
  rw [← varAt?_pop popped (by omega), ← closed] at reached
  have fills : (v.final = false ∧ (s.push (.empty kind label)).Fills ops height name) ↔
      (s.push (.empty kind label)).Fills ops height name :=
    ⟨fun both => both.2, fun fills => ⟨unsealed fills, fills⟩⟩
  refine ⟨w, reached, face, ?_, by rw [fills, flag]⟩
  intro final
  have untouched : ¬(s.push (.empty kind label)).Fills ops height name := by
    intro fills
    have := unsealed fills
    simp_all
  have sameFlag : w.initialized = v.initialized := by
    rw [Bool.eq_iff_iff, flag]
    simp [untouched]
  exact Variable.eq_of_face face sameFlag

def sampleStack : Stack where
  current := ⟨.global, "__global__".toList, [⟨"a".toList, .int, false, false⟩,
    ⟨"b".toList, .int, false, false⟩, ⟨"k".toList, .int, true, true⟩], by decide⟩
  outer := []

/-- `b` is shadowed before it is assigned, and the assignment to `k` is refused. -/
def sampleOperations : List Operation :=
  [.declare ⟨"b".toList, .int, false, false⟩, .push .condition "while".toList,
    .assign "b".toList .int, .assign "a".toList .int, .pop, .assign "k".toList .int]

theorem sampleOperations_keep_outer_scopes :
    let t := sampleStack.performAll (.push .method "f".toList :: sampleOperations ++ [.pop])
    WellNested sampleOperations ∧
    t.layers.map (fun c => c.vars.map fun v => (v.name, v.initialized)) =
      [[("a".toList, true), ("b".toList, false), ("k".toList, true)]] ∧
    t.layers.map Scope.outline = sampleStack.layers.map Scope.outline ∧
    (∀ height name v, sampleStack.varAt? height name = some v →
      ∃ w, t.varAt? height name = some w ∧ w.face = v.face ∧ (v.final = true → w = v) ∧
        (w.initialized = true ↔ v.initialized = true ∨ v.final = false ∧
          (sampleStack.push (.empty .method "f".toList)).Fills sampleOperations height name)) ∧
    ∀ name, t.owner? name = sampleStack.owner? name ∧
      (t.lookup? name).map Variable.face = (sampleStack.lookup? name).map Variable.face :=
  ⟨by decide, by decide,
    block_keeps_outer_scopes sampleStack .method "f".toList sampleOperations (by decide)⟩

end SJava.Stack
