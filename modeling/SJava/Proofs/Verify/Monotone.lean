import SJava.Proofs.Scope.Block
import SJava.Proofs.Verify.History
import SJava.Proofs.Verify.Simulation

namespace SJava

namespace Stack

/-- The same scopes and variables, of which the second stack may fill more. -/
structure LessFilled (s s' : Stack) : Prop where
  outline : s'.layers.map Scope.outline = s.layers.map Scope.outline
  holds {height : Nat} {name : Text} : s.Holds height name → s'.Holds height name

theorem assign_of_lookup? {s : Stack} {name : Text} {value : ValueType} {v : Variable}
    (found : s.lookup? name = some v) (free : v.final = false)
    (fits : v.type.accepts value = true) :
    s.assign name value = .ok (s.replace v.filled, v.filled) := by
  unfold assign
  rw [resolve_ok.2 found]
  simp only [bind, Except.bind, Variable.assigned_ok.2 ⟨free, fits, rfl⟩]
  rfl

namespace LessFilled

variable {s s' : Stack}

theorem depth (more : s.LessFilled s') : s'.depth = s.depth := by
  rw [depth_eq, depth_eq]
  simpa using congrArg List.length more.outline

theorem current_and_outer (more : s.LessFilled s') :
    s'.current.outline = s.current.outline ∧
      s'.outer.map Scope.outline = s.outer.map Scope.outline := by
  have scopes : s'.scopes.map Scope.outline = s.scopes.map Scope.outline := by
    simpa [layers] using more.outline
  exact List.cons.inj scopes

theorem lookup? (more : s.LessFilled s') {name : Text} {v : Variable}
    (found : s.lookup? name = some v) :
    ∃ v', s'.lookup? name = some v' ∧ v'.face = v.face ∧
      (v.initialized = true → v'.initialized = true) := by
  have faces := lookup?_of_outline more.outline name
  rw [found] at faces
  obtain ⟨v', found', face⟩ := Option.map_eq_some_iff.1 faces
  refine ⟨v', found', face, ?_⟩
  intro filled
  obtain ⟨height, owned, place⟩ := lookup?_eq_some.1 found
  obtain ⟨height', owned', place'⟩ := lookup?_eq_some.1 found'
  rw [owner?_of_outline more.outline, owned] at owned'
  cases owned'
  obtain ⟨u, held, filled'⟩ := more.holds ⟨v, place, filled⟩
  rw [place'] at held
  cases held
  exact filled'

theorem push (more : s.LessFilled s') (c : Scope) : (s.push c).LessFilled (s'.push c) where
  outline := by simp [more.outline]
  holds := by
    intro height name held
    rw [holds_push] at held ⊢
    rw [more.depth]
    exact held.imp_left more.holds

theorem of_push {c c' : Scope} (more : (s.push c).LessFilled (s'.push c')) : s.LessFilled s' where
  outline := by
    have outline := more.outline
    simp only [layers_push, List.map_append, List.map_singleton] at outline
    exact (List.append_inj' outline rfl).1
  holds := by
    intro height name held
    have depth : s'.depth = s.depth := by simpa using more.depth
    have popped : (s'.push c').pop? = some (c', s') := rfl
    rw [holds_pop popped, depth]
    exact ⟨more.holds (holds_push.2 (.inl held)), held.lt_depth⟩

theorem closed (more : s.LessFilled s') : s.closed.LessFilled s'.closed := by
  have depth := more.depth
  rcases single_or_push s with ⟨c, rfl⟩ | ⟨t, c, rfl⟩ <;>
    rcases single_or_push s' with ⟨c', rfl⟩ | ⟨t', c', rfl⟩
  · exact more
  · simp [Stack.depth, scopes, Stack.push] at depth
  · simp [Stack.depth, scopes, Stack.push] at depth
  · exact more.of_push

theorem declare (more : s.LessFilled s') {t : Stack} {v : Variable} (declared : s.declare v = .ok t) :
    ∃ t', s'.declare v = .ok t' ∧ t.LessFilled t' := by
  obtain ⟨d, inner, rfl⟩ := declare_ok declared
  obtain ⟨fresh, kind, name, vars⟩ := Scope.declare_ok inner
  obtain ⟨current, outer⟩ := more.current_and_outer
  have fresh' : s'.current.contains v.name = false := by
    rw [contains_outline, current, ← contains_outline]
    exact fresh
  obtain ⟨d', inner', kind', name', vars'⟩ := Scope.declare_of_fresh fresh'
  have declared' : s'.declare v = .ok { s' with current := d' } := by
    simp [Stack.declare, inner', Except.map]
  refine ⟨_, declared', ?_, ?_⟩
  · have top : d'.outline = d.outline := by
      simp only [Scope.outline, Prod.mk.injEq] at current
      simp [Scope.outline, kind, kind', name, name', vars, vars', current]
    simp [layers_eq, outer, top]
  · intro height name held
    rw [holds_declare declared] at held
    rw [holds_declare declared', more.depth]
    exact held.imp_left more.holds

theorem assign (more : s.LessFilled s') {t : Stack} {name : Text} {value : ValueType} {w : Variable}
    (assigned : s.assign name value = .ok (t, w)) :
    ∃ t' w', s'.assign name value = .ok (t', w') ∧ t.LessFilled t' := by
  obtain ⟨outer, c, inner, v, split, found, hidden, free, fits, -, -⟩ := assign_ok assigned
  obtain ⟨v', found', face, -⟩ := more.lookup? (lookup?_of_split split found hidden)
  simp only [Variable.face, Prod.mk.injEq] at face
  obtain ⟨-, type, final⟩ := face
  have assigned' := assign_of_lookup? found' (final.trans free) (type ▸ fits)
  refine ⟨_, _, assigned', ?_, ?_⟩
  · rw [outline_assign assigned', outline_assign assigned]
    exact more.outline
  · intro height name held
    rw [holds_assign assigned] at held
    rw [holds_assign assigned', owner?_of_outline more.outline]
    exact held.imp_left more.holds

theorem of_assign {t : Stack} {name : Text} {value : ValueType} {w : Variable}
    (assigned : s.assign name value = .ok (t, w)) : s.LessFilled t where
  outline := outline_assign assigned
  holds held := (holds_assign assigned).2 (.inl held)

end LessFilled

theorem simulation_lessFilled : Simulation [] LessFilled where
  kind more := congrArg Prod.fst more.current_and_outer.1
  lookup more found filled := by
    obtain ⟨v', found', face, kept⟩ := more.lookup? found
    exact ⟨v', found', kept filled, congrArg (·.2.1) face⟩
  push c more := more.push c
  closed more := more.closed
  declare more declared _ := more.declare declared
  assign more assigned := more.assign assigned

end Stack

theorem MethodTable.embeds_self (table : MethodTable) : table.Embeds Eq table where
  find found := ⟨_, found, rfl⟩
  signature same := by rw [same]

namespace State

structure LessFilled (s s' : State) : Prop where
  stack : s.stack.LessFilled s'.stack
  method : s'.method = s.method
  previous : s'.previous = s.previous

theorem LessFilled.related {s s' : State} (more : s.LessFilled s') :
    Related Eq Stack.LessFilled s s' where
  stack := more.stack
  method := by
    rw [more.method]
    cases s.method with
    | none => exact .none
    | some m => exact .some rfl
  previous _ := more.previous

theorem previous_of_next? {table : MethodTable} {s t : State} {l : Line}
    (taken : s.next? table l = some t) : t.previous = some l.text := by
  obtain ⟨-, step⟩ := next?_eq_some.1 taken
  cases step <;> rfl

theorem previous_of_run? {table : MethodTable} {s t : State} {lines : List Line}
    (run : s.run? table lines = some t) : t.previous = lastText s.previous lines := by
  induction lines generalizing s with
  | nil =>
      cases run
      rfl
  | cons l lines ih =>
      rw [run?_cons] at run
      obtain ⟨u, taken, rest⟩ := Option.bind_eq_some_iff.1 run
      rw [lastText_cons, ih rest, previous_of_next? taken]

theorem LessFilled.run? {table : MethodTable} {s s' t : State} {lines : List Line}
    (more : s.LessFilled s') (run : s.run? table lines = some t) :
    ∃ t', s'.run? table lines = some t' ∧ t.LessFilled t' := by
  obtain ⟨t', run', related⟩ := run?_simulation Stack.simulation_lessFilled table.embeds_self run
    (by simp [Stack.Avoids]) more.related
  refine ⟨t', run', related.stack, ?_, ?_⟩
  · have method := related.method
    generalize t.method = current, t'.method = current' at method
    cases method with
    | none => rfl
    | some same => rw [same]
  · rw [previous_of_run? run', previous_of_run? run, more.previous]

end State

/-- A sequence of lines that is accepted with some variables filled is accepted with more of them
filled, and at its end the two states differ in the same way; so a program that is closed at the end
of the one run is closed at the end of the other. -/
theorem accepted_with_more_values {s s' : State} (more : s.LessFilled s') (table : MethodTable)
    (lines : List Line) (accepted : (Run.walk table s lines).failure = none) :
    (Run.walk table s' lines).failure = none ∧
      (Run.walk table s lines).state.LessFilled (Run.walk table s' lines).state ∧
      (Run.walk table s' lines).state.isClosed = (Run.walk table s lines).state.isClosed := by
  have run : s.run? table lines = some (Run.walk table s lines).state := by
    rw [← State.success?_walk, Progress.success?_eq_some]
    exact ⟨rfl, accepted⟩
  obtain ⟨t', run', after⟩ := more.run? run
  rw [← State.success?_walk, Progress.success?_eq_some] at run'
  obtain ⟨rfl, accepted'⟩ := run'
  refine ⟨accepted', after, ?_⟩
  rw [State.isClosed, State.isClosed, after.method, after.stack.depth]

namespace Monotone

def globals : Scope where
  kind := .global
  name := "__global__".toList
  vars := [⟨"limit".toList, .int, true, true⟩, ⟨"count".toList, .int, false, false⟩]
  distinct := by decide

def unfilled : State := ⟨⟨globals, []⟩, none, none⟩

def filled : State := ⟨⟨globals.fill "count".toList, []⟩, none, none⟩

def lines : List Line :=
  [⟨1, "void work(int n) \x7b".toList⟩, ⟨2, "while (n || limit) \x7b".toList⟩,
    ⟨3, "int count;".toList⟩, ⟨4, "\x7d".toList⟩, ⟨5, "count = n;".toList⟩,
    ⟨6, "work(count);".toList⟩, ⟨7, "return;".toList⟩, ⟨8, "\x7d".toList⟩]

def table : MethodTable := (MethodTable.collect lines).state

theorem lessFilled : unfilled.LessFilled filled where
  stack := by
    have assigned : unfilled.stack.assign "count".toList .int =
        .ok (filled.stack, ⟨"count".toList, .int, false, true⟩) := by decide
    exact .of_assign assigned
  method := rfl
  previous := rfl

theorem lines_accepted_with_count :
    (Run.walk table unfilled lines).failure = none ∧ (Run.walk table filled lines).failure = none ∧
      (Run.walk table unfilled lines).state.LessFilled (Run.walk table filled lines).state ∧
      (Run.walk table filled lines).state.isClosed =
        (Run.walk table unfilled lines).state.isClosed := by
  have accepted : (Run.walk table unfilled lines).failure = none := by decide
  exact ⟨accepted, accepted_with_more_values lessFilled table lines accepted⟩

end Monotone

end SJava
