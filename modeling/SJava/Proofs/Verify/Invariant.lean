import SJava.Proofs.Listing
import SJava.Proofs.Verify.Action

/-!
# The invariant of the pass

At every point of the second pass the stack has the shape that the open method says: the global scope
alone, or the global scope, the scope of the method with its parameters in front, and the scopes of
the open blocks (`Shaped`). Every variable has a legal name, and a final one holds a value
(`Scope.Lawful`). Every action keeps this (`apply_wellFormed`), so every line does, also one that is
refused in the middle (`take_wellFormed`). A brace that is accepted therefore finds a scope to close
(`closeBlock_pops`).
-/

namespace SJava

/-- The layers of a stack while the given method is open. -/
inductive Shaped : List Scope → Option Method → Prop where
  | outside {globals : Scope} (kind : globals.kind = .global) : Shaped [globals] none
  | inside {globals body : Scope} {blocks : List Scope} {m : Method}
      (kind : globals.kind = .global) (bodyKind : body.kind = .method) (name : body.name = m.name)
      (params : m.params.map Param.asVariable <+: body.vars)
      (conditions : ∀ b ∈ blocks, b.kind = .condition ∧
        (b.name = "if".toList ∨ b.name = "while".toList)) :
      Shaped (globals :: body :: blocks) (some m)

namespace Scope

def Lawful (c : Scope) : Prop :=
  ∀ v ∈ c.vars, Name.isVariable v.name = true ∧ (v.final = true → v.initialized = true)

structure Extends (c d : Scope) : Prop where
  kind : d.kind = c.kind
  name : d.name = c.name
  keeps : ∀ vs : List Variable, (∀ v ∈ vs, v.initialized = true) → vs <+: c.vars → vs <+: d.vars

theorem Extends.refl (c : Scope) : c.Extends c := ⟨rfl, rfl, fun _ _ front => front⟩

theorem extends_declare {c d : Scope} {v : Variable} (h : c.declare v = .ok d) : c.Extends d := by
  obtain ⟨-, kind, name, vars⟩ := declare_ok h
  refine ⟨kind, name, ?_⟩
  intro vs _ front
  rw [vars]
  exact front.trans (List.prefix_append _ _)

theorem extends_fill (c : Scope) (name : Text) : c.Extends (c.fill name) := by
  refine ⟨rfl, rfl, ?_⟩
  rintro vs filled ⟨rest, split⟩
  -- Variables that hold a value already are not changed.
  have same : vs.map (fun w => if w.name = name then w.filled else w) = vs := by
    rw [List.map_congr_left (g := id), List.map_id]
    intro w member
    by_cases named : w.name = name
    · simp [named, Variable.filled_of_initialized (filled w member)]
    · simp [named]
  refine ⟨rest.map fun w => if w.name = name then w.filled else w, ?_⟩
  change vs ++ _ = c.vars.map _
  rw [← split, List.map_append, same]

theorem lawful_declare {c d : Scope} {v : Variable} (h : c.declare v = .ok d) (lawful : c.Lawful)
    (legal : Name.isVariable v.name = true) (valued : v.final = true → v.initialized = true) :
    d.Lawful := by
  obtain ⟨-, -, -, vars⟩ := declare_ok h
  intro w member
  rw [vars, List.mem_append, List.mem_singleton] at member
  rcases member with old | rfl
  · exact lawful w old
  · exact ⟨legal, valued⟩

theorem lawful_fill {c : Scope} (name : Text) (lawful : c.Lawful) : (c.fill name).Lawful := by
  intro w member
  obtain ⟨v, old, rfl⟩ := List.mem_map.1 member
  by_cases named : v.name = name
  · rw [if_pos named]
    exact ⟨(lawful v old).1, fun _ => rfl⟩
  · simpa [named] using lawful v old

end Scope

theorem shaped_of_extends {layers larger : List Scope} {method : Option Method}
    (each : List.Forall₂ Scope.Extends layers larger) (shaped : Shaped layers method) :
    Shaped larger method := by
  cases shaped with
  | outside kind =>
      obtain ⟨_, _, first, rest, rfl⟩ := List.forall₂_cons_left_iff.1 each
      rw [List.forall₂_nil_left_iff.1 rest]
      exact .outside (first.kind.trans kind)
  | inside kind bodyKind name params conditions =>
      obtain ⟨_, _, first, rest, rfl⟩ := List.forall₂_cons_left_iff.1 each
      obtain ⟨_, _, second, others, rfl⟩ := List.forall₂_cons_left_iff.1 rest
      refine .inside (first.kind.trans kind) (second.kind.trans bodyKind) (second.name.trans name)
        (second.keeps _ ?_ params) ?_
      · intro v member
        obtain ⟨p, -, rfl⟩ := List.mem_map.1 member
        rfl
      · clear rest each
        induction others with
        | nil => simp
        | cons extended _ ih =>
            rw [List.forall_mem_cons] at conditions ⊢
            rw [extended.kind, extended.name]
            exact ⟨conditions.1, ih conditions.2⟩

namespace Stack

theorem extends_declare {s t : Stack} {v : Variable} (h : s.declare v = .ok t) :
    List.Forall₂ Scope.Extends s.layers t.layers := by
  obtain ⟨c, declared, rfl⟩ := declare_ok h
  rw [layers_eq, layers_eq]
  refine List.rel_append ?_ (.cons (Scope.extends_declare declared) .nil)
  exact List.forall₂_same.2 fun c _ => .refl c

theorem extends_assign {s t : Stack} {name : Text} {value : ValueType} {w : Variable}
    (h : s.assign name value = .ok (t, w)) : List.Forall₂ Scope.Extends s.layers t.layers := by
  obtain ⟨outer, c, inner, v, split, -, -, -, -, -, after⟩ := assign_ok h
  rw [split, after]
  refine List.rel_append ?_ (.cons (Scope.extends_fill c name) ?_)
  · exact List.forall₂_same.2 fun c _ => .refl c
  · exact List.forall₂_same.2 fun c _ => .refl c

def Lawful (s : Stack) : Prop := ∀ c ∈ s.layers, c.Lawful

theorem lawful_declare {s t : Stack} {v : Variable} (h : s.declare v = .ok t) (lawful : s.Lawful)
    (legal : Name.isVariable v.name = true) (valued : v.final = true → v.initialized = true) :
    t.Lawful := by
  obtain ⟨c, declared, rfl⟩ := declare_ok h
  unfold Lawful at lawful ⊢
  rw [layers_eq, List.forall_mem_append, List.forall_mem_singleton] at lawful ⊢
  exact ⟨lawful.1, Scope.lawful_declare declared lawful.2 legal valued⟩

theorem lawful_assign {s t : Stack} {name : Text} {value : ValueType} {w : Variable}
    (h : s.assign name value = .ok (t, w)) (lawful : s.Lawful) : t.Lawful := by
  obtain ⟨outer, c, inner, v, split, -, -, -, -, -, after⟩ := assign_ok h
  unfold Lawful at lawful ⊢
  rw [split, List.forall_mem_append, List.forall_mem_cons] at lawful
  rw [after, List.forall_mem_append, List.forall_mem_cons]
  exact ⟨lawful.1, Scope.lawful_fill name lawful.2.1, lawful.2.2⟩

theorem lawful_push {s : Stack} {c : Scope} (lawful : s.Lawful) (top : c.Lawful) :
    (s.push c).Lawful := by
  unfold Lawful
  rw [layers_push, List.forall_mem_append, List.forall_mem_singleton]
  exact ⟨lawful, top⟩

end Stack

namespace Shaped

theorem enter {layers : List Scope} {m : Method} {scope : Scope} (shaped : Shaped layers none)
    (seeded : m.toSignature.scope? = some scope) : Shaped (layers ++ [scope]) (some m) := by
  cases shaped with
  | outside kind =>
      obtain ⟨-, rfl⟩ := Signature.eq_of_scope? seeded
      exact .inside kind rfl rfl (List.prefix_refl _) (by simp)

theorem openBlock {layers : List Scope} {m : Method} (shaped : Shaped layers (some m))
    (block : Clause.Block) :
    Shaped (layers ++ [.empty .condition block.word.toList]) (some m) := by
  cases shaped with
  | inside kind bodyKind name params conditions =>
      rw [List.cons_append, List.cons_append]
      refine .inside kind bodyKind name params ?_
      rw [List.forall_mem_append, List.forall_mem_singleton]
      refine ⟨conditions, rfl, ?_⟩
      cases block with
      | branch => exact .inl rfl
      | loop => exact .inr rfl

theorem close {layers : List Scope} {c : Scope} {method : Option Method}
    (shaped : Shaped (layers ++ [c]) method) (nonempty : layers ≠ []) :
    Shaped layers (if c.kind = .condition then method else none) := by
  generalize all : layers ++ [c] = whole at shaped
  cases shaped with
  | outside kind =>
      obtain ⟨rfl, -⟩ | ⟨rest, rfl, single⟩ := List.append_eq_cons_iff.1 all
      · exact absurd rfl nonempty
      · simp at single
  | @inside globals body blocks m kind bodyKind name params conditions =>
      -- The scope that is closed is a block if there is one, and otherwise the body.
      obtain rfl | ⟨others, block, rfl⟩ := List.eq_nil_or_concat' blocks
      · have cut : layers ++ [c] = [globals] ++ [body] := all
        obtain ⟨rfl, same⟩ := List.append_inj' cut rfl
        cases same
        rw [bodyKind]
        exact .outside kind
      · have cut : layers ++ [c] = (globals :: body :: others) ++ [block] := all
        obtain ⟨rfl, same⟩ := List.append_inj' cut rfl
        cases same
        rw [List.forall_mem_append, List.forall_mem_singleton] at conditions
        rw [if_pos conditions.2.1]
        exact .inside kind bodyKind name params conditions.1

theorem length_eq_one {layers : List Scope} (shaped : Shaped layers none) : layers.length = 1 := by
  cases shaped with
  | outside => rfl

theorem one_lt_length {layers : List Scope} {m : Method} (shaped : Shaped layers (some m)) :
    1 < layers.length := by
  cases shaped with
  | inside => simp

end Shaped

namespace Point

structure WellFormed (p : Point) : Prop where
  shaped : Shaped p.stack.layers p.method
  lawful : p.stack.Lawful

theorem initial_wellFormed : State.initial.point.WellFormed where
  shaped := .outside rfl
  lawful := by
    intro c member
    obtain rfl : c = .empty .global "__global__".toList := List.mem_singleton.1 member
    exact fun v none => absurd none List.not_mem_nil

theorem apply_wellFormed {p q : Point} {e : Action} (h : p.apply e = some q) (good : p.WellFormed) :
    q.WellFormed := by
  obtain ⟨shaped, lawful⟩ := good
  cases takes_of_apply h with
  | entered legal seeded =>
      refine ⟨?_, Stack.lawful_push lawful ?_⟩
      · rw [Stack.layers_push]
        exact shaped.enter seeded
      · obtain ⟨-, rfl⟩ := Signature.eq_of_scope? seeded
        intro v member
        obtain ⟨q, param, rfl⟩ := List.mem_map.1 member
        exact ⟨legal q param, fun _ => rfl⟩
  | opened block =>
      refine ⟨?_, Stack.lawful_push lawful fun v none => absurd none List.not_mem_nil⟩
      rw [Stack.layers_push]
      exact shaped.openBlock block
  | closed popped =>
      have split := Stack.pop?_eq_some.1 popped
      rw [split] at shaped
      refine ⟨shaped.close (Stack.layers_ne_nil _), ?_⟩
      intro c member
      exact lawful c (split ▸ List.mem_append_left _ member)
  | declared legal valued done =>
      exact ⟨shaped_of_extends (Stack.extends_declare done) shaped,
        Stack.lawful_declare done lawful legal valued⟩
  | assigned stored done =>
      exact ⟨shaped_of_extends (Stack.extends_assign done) shaped, Stack.lawful_assign done lawful⟩
  | read found filled => exact ⟨shaped, lawful⟩

theorem replay_wellFormed {p q : Point} {actions : List Action} (h : p.replay actions = some q)
    (good : p.WellFormed) : q.WellFormed := by
  induction actions generalizing p with
  | nil =>
      cases h
      exact good
  | cons e actions ih =>
      obtain ⟨next, applied, rest⟩ := Option.bind_eq_some_iff.1 h
      exact ih rest (apply_wellFormed applied good)

theorem WellFormed.deep {p : Point} (good : p.WellFormed) (inside : p.method.isSome = true) :
    1 < p.stack.depth := by
  obtain ⟨m, current⟩ := Option.isSome_iff_exists.1 inside
  have shaped := good.shaped
  rw [current] at shaped
  rw [Stack.depth_eq]
  exact shaped.one_lt_length

theorem WellFormed.depth_of_outside {p : Point} (good : p.WellFormed) (outside : p.method = none) :
    p.stack.depth = 1 := by
  have shaped := good.shaped
  rw [outside] at shaped
  rw [Stack.depth_eq]
  exact shaped.length_eq_one

end Point

namespace State

structure WellFormed (table : MethodTable) (s : State) : Prop where
  point : s.point.WellFormed
  known : ∀ m, s.method = some m → m ∈ table.methods

theorem initial_wellFormed (table : MethodTable) : State.initial.WellFormed table :=
  ⟨Point.initial_wellFormed, fun _ none => by cases none⟩

theorem mem_of_enter {stack : Stack} {table : MethodTable} {t : Text} {m : Method}
    (h : (enter stack table t).result = .ok m) : m ∈ table.methods := by
  unfold enter at h
  cases known : Signature.ofHeader t >>= fun s => table.lookup s.name with
  | error v => simp [known, Attempt.test] at h
  | ok entered =>
      simp only [known] at h
      obtain ⟨_, -, rfl⟩ := map_eq_ok.1 h
      obtain ⟨signature, -, found⟩ := bind_eq_ok.1 known
      exact List.mem_of_find?_eq_some (MethodTable.lookup_ok.1 found)

theorem method_check {table : MethodTable} {s : State} {t : Text} {m : Method}
    (h : (s.check table t).state.method = some m) : s.method = some m ∨ m ∈ table.methods := by
  unfold check at h
  cases layout : Clause.checkLayout t with
  | error v =>
      rw [layout] at h
      exact .inl h
  | ok u =>
      simp only [layout] at h
      cases kind : Kind.ofText t with
      | methodHeader =>
          simp only [kind, handle, openMethod] at h
          split at h
          · exact .inl h
          · cases entered : enter s.stack table t with
            | mk stack result =>
                cases result with
                | error v => exact .inl (by simpa [entered] using h)
                | ok opened =>
                    obtain rfl : opened = m := by simpa [entered] using h
                    have result : (enter s.stack table t).result = .ok opened := by rw [entered]
                    exact .inr (mem_of_enter result)
      | conditionHeader =>
          simp only [kind, handle, openBlock] at h
          split at h
          · exact .inl h
          · split at h <;> exact .inl h
      | blockClose =>
          simp only [kind, handle, closeBlock] at h
          split at h
          · exact .inl h
          · split at h
            · exact .inl h
            · split at h
              · cases h
              · exact .inl h
      | call =>
          simp only [kind, handle, callOn] at h
          split at h <;> exact .inl h
      | returning =>
          simp only [kind, handle, returnOn] at h
          split at h
          · exact .inl h
          · split at h
            · exact .inl h
            · split at h <;> exact .inl h
      | declaration | assignment | unrecognized =>
          rw [kind] at h
          exact .inl h

@[simp] theorem point_take (table : MethodTable) (s : State) (l : Line) :
    (s.take table l).state.point = (s.check table l.text).state.point := by
  unfold take
  cases s.check table l.text with
  | mk left result => cases result <;> rfl

theorem take_wellFormed {table : MethodTable} {s : State}
    (lawful : ∀ m ∈ table.methods, m.toSignature.Lawful) (good : s.WellFormed table) (l : Line) :
    (s.take table l).state.WellFormed table := by
  refine ⟨?_, ?_⟩
  · rw [point_take]
    exact Point.replay_wellFormed (Point.replay_actions l.text lawful good.point.deep) good.point
  · intro m current
    have same : (s.check table l.text).state.method = some m :=
      (congrArg Point.method (point_take table s l)).symm.trans current
    exact (method_check same).elim (good.known m) id

theorem walk_wellFormed {table : MethodTable} {s : State}
    (lawful : ∀ m ∈ table.methods, m.toSignature.Lawful) (good : s.WellFormed table)
    (lines : List Line) : (Run.walk table s lines).state.WellFormed table :=
  Attempt.inSequence_state good fun _ holds l _ => take_wellFormed lawful holds l

theorem next?_wellFormed {table : MethodTable} {s t : State} {l : Line}
    (lawful : ∀ m ∈ table.methods, m.toSignature.Lawful) (good : s.WellFormed table)
    (taken : s.next? table l = some t) : t.WellFormed table := by
  obtain ⟨rfl, -⟩ := Attempt.success?_eq_some.1 taken
  exact take_wellFormed lawful good l

theorem run?_wellFormed {table : MethodTable} {s t : State} {lines : List Line}
    (lawful : ∀ m ∈ table.methods, m.toSignature.Lawful) (good : s.WellFormed table)
    (run : s.run? table lines = some t) : t.WellFormed table := by
  rw [← success?_walk, Progress.success?_eq_some] at run
  obtain ⟨rfl, -⟩ := run
  exact walk_wellFormed lawful good lines

theorem closeBlock_pops {s : State} (good : s.point.WellFormed) {m : Method}
    (current : s.method = some m) :
    ∃ c rest, s.stack.pop? = some (c, rest) ∧
      (s.closeBlock.result = .ok () → s.closeBlock.state.stack = rest) := by
  obtain ⟨c, rest, popped⟩ := Stack.exists_pop? (good.deep (Option.isSome_of_eq_some current))
  refine ⟨c, rest, popped, ?_⟩
  have popped : s.stack.pop? = some (c, rest) := popped
  intro accepted
  simp only [closeBlock, current, popped, Option.map_some, Option.getD_some] at accepted ⊢
  split
  · rfl
  · rename_i body
    rw [if_neg body] at accepted
    split
    · rfl
    · rename_i unreturned
      rw [if_neg unreturned] at accepted
      cases accepted

end State

namespace Run

def checkedLines (run : Run) : List Line :=
  match run.collected.failure with
  | some _ => []
  | none => run.lines

theorem walked_ofListing (listing : Listing) :
    (ofListing listing).walked =
      walk (ofListing listing).table .initial (ofListing listing).checkedLines := by
  unfold table checkedLines
  simp only [ofListing, ofLines]
  cases (MethodTable.collect listing.ascending).failure <;> rfl

theorem declaredBy_of_mem_table {listing : Listing} {m : Method}
    (member : m ∈ (ofListing listing).table.methods) : ∃ l ∈ listing.lines, m.DeclaredBy l := by
  unfold table at member
  simp only [ofListing, ofLines] at member
  cases collected : (MethodTable.collect listing.ascending).failure with
  | some failure =>
      rw [collected] at member
      cases member
  | none =>
      rw [collected] at member
      obtain ⟨l, header, declared⟩ := MethodTable.declaredBy_of_mem_collect collected member
      exact ⟨l, listing.perm_ascending.mem_iff.1 header, declared⟩

theorem lawful_table {listing : Listing} {m : Method}
    (member : m ∈ (ofListing listing).table.methods) : m.toSignature.Lawful := by
  obtain ⟨l, -, header, -⟩ := declaredBy_of_mem_table member
  exact Signature.ofHeader_ok header

end Run

/-- Every state of the second pass is well-formed, also the one that a refused line leaves: the
scopes are nested as the open method says, its parameters come first in its scope, names are distinct
and legal, final variables hold a value, and a closing brace always has a scope to close. -/
theorem states_of_pass_wellFormed (listing : Listing) (n : Nat) :
    let run := Run.ofListing listing
    let s := (Run.walk run.table .initial (run.checkedLines.take n)).state
    (run.checkedLines.length ≤ n → s = run.state) ∧
    Shaped s.stack.layers s.method ∧
    (∀ c ∈ s.stack.layers, (c.vars.map Variable.name).Nodup ∧
      ∀ v ∈ c.vars, Name.isVariable v.name = true ∧ (v.final = true → v.initialized = true)) ∧
    ∀ m, s.method = some m →
      (∃ l ∈ listing.lines, m.DeclaredBy l) ∧
      ∃ c rest, s.stack.pop? = some (c, rest) ∧
        (s.closeBlock.result = .ok () → s.closeBlock.state.stack = rest) := by
  intro run s
  have good : s.WellFormed run.table :=
    State.walk_wellFormed (fun m member => Run.lawful_table member)
      (State.initial_wellFormed run.table) (run.checkedLines.take n)
  refine ⟨?_, good.point.shaped, fun c member => ⟨c.distinct, good.point.lawful c member⟩, ?_⟩
  · intro all
    rw [Run.state, Run.walked_ofListing, ← List.take_of_length_le all]
  · intro m current
    exact ⟨Run.declaredBy_of_mem_table (good.known m current),
      State.closeBlock_pops good.point current⟩

-- The last line is refused at its third binder; the first two stay declared.
example :
    (Run.ofListing (.ofLines [⟨1, "int a = 1;".toList⟩,
      ⟨2, "void f(int x, final int y) \x7b".toList⟩, ⟨3, "if (x) \x7b".toList⟩,
      ⟨4, "int b, c = a, b;".toList⟩])).state.stack.layers.map
        (fun c => (c.kind, c.vars.map Variable.name)) =
      [(.global, ["a".toList]), (.method, ["x".toList, "y".toList]),
        (.condition, ["b".toList, "c".toList])] := by
  decide

end SJava
