import SJava.Proofs.Verify.Entry
import SJava.Proofs.Verify.Invariant
import SJava.Proofs.Verify.Simulation

namespace SJava

namespace Stack

/-- The second stack is the first one with the variables `base` in front of its global scope. -/
inductive Beneath (base : List Variable) : Stack → Stack → Prop where
  | single {c c' : Scope} (kind : c'.kind = c.kind) (vars : c'.vars = base ++ c.vars) :
      Beneath base ⟨c, []⟩ ⟨c', []⟩
  | push {s s' : Stack} (c : Scope) (below : Beneath base s s') :
      Beneath base (s.push c) (s'.push c)

namespace Beneath

variable {base : List Variable}

theorem exists_single {c : Scope} {s : Stack} (h : Beneath base ⟨c, []⟩ s) :
    ∃ c' : Scope, s = ⟨c', []⟩ ∧ c'.vars = base ++ c.vars := by
  generalize alone : (⟨c, []⟩ : Stack) = t at h
  cases h with
  | single kind vars =>
      cases alone
      exact ⟨_, rfl, vars⟩
  | push d below =>
      have depth := congrArg depth alone
      rw [depth_push] at depth
      simp [Stack.depth, scopes] at depth

theorem find?_of_vars {c c' : Scope} (vars : c'.vars = base ++ c.vars) {name : Text} {v : Variable}
    (found : c.find? name = some v) : c'.find? name = some v := by
  have member : v ∈ c'.vars := by
    rw [vars]
    exact List.mem_append_right base (Scope.mem_of_find? found)
  rw [← Scope.name_of_find? found]
  exact Scope.find?_of_mem member

theorem lookup? {s s' : Stack} (h : Beneath base s s') {name : Text} {v : Variable}
    (found : s.lookup? name = some v) : s'.lookup? name = some v := by
  induction h with
  | single kind vars =>
      rw [lookup?_single] at found ⊢
      exact find?_of_vars vars found
  | push c below ih =>
      rw [lookup?_push] at found ⊢
      cases here : c.find? name with
      | some w => simpa [here] using found
      | none =>
          rw [here, Option.none_or] at found
          exact ih found

theorem declare {s s' t : Stack} {v : Variable} (h : Beneath base s s')
    (declared : s.declare v = .ok t) (clear : t.Avoids (base.map Variable.name)) :
    ∃ t', s'.declare v = .ok t' ∧ Beneath base t t' := by
  cases h with
  | push c below =>
      rw [declare_push] at declared
      obtain ⟨d, inner, rfl⟩ := map_eq_ok.1 declared
      exact ⟨_, by rw [declare_push, inner]; rfl, .push d below⟩
  | @single c c' kind vars =>
      rw [declare_single] at declared
      obtain ⟨d, inner, rfl⟩ := map_eq_ok.1 declared
      obtain ⟨fresh, kindOf, -, varsOf⟩ := Scope.declare_ok inner
      have fresh' : c'.contains v.name = false := by
        rw [Bool.eq_false_iff, Ne, Scope.contains_eq_true_iff] at fresh ⊢
        rw [vars, List.map_append, List.mem_append]
        rintro (inBase | inScope)
        · have known : v.name ∈ (⟨d, []⟩ : Stack).globalNames := by simp [globalNames, varsOf]
          exact clear known inBase
        · exact fresh inScope
      obtain ⟨d', inner', kindOf', -, varsOf'⟩ := Scope.declare_of_fresh fresh'
      refine ⟨⟨d', []⟩, by rw [declare_single, inner']; rfl, .single ?_ ?_⟩
      · rw [kindOf', kindOf, kind]
      · rw [varsOf', varsOf, vars, List.append_assoc]

theorem replace_vars {c c' : Scope} (vars : c'.vars = base ++ c.vars) {name : Text} {v w : Variable}
    {value : ValueType} (found : c.find? name = some v) (stored : v.assigned value = .ok w) :
    (c'.replace w).vars = base ++ (c.replace w).vars := by
  obtain ⟨-, -, rfl⟩ := Variable.assigned_ok.1 stored
  have apart : ∀ u ∈ base, u.name ≠ v.filled.name := by
    intro u inBase same
    have distinct := c'.distinct
    rw [vars, List.map_append, List.nodup_append] at distinct
    exact distinct.2.2 _ (List.mem_map_of_mem inBase) _
      (List.mem_map_of_mem (Scope.mem_of_find? found)) same
  change c'.vars.map _ = base ++ c.vars.map _
  rw [vars, List.map_append, List.map_congr_left (g := id) (l := base), List.map_id]
  intro u inBase
  exact if_neg (apart u inBase)

theorem assign {s s' t : Stack} {name : Text} {value : ValueType} {w : Variable}
    (h : Beneath base s s') (assigned : s.assign name value = .ok (t, w)) :
    ∃ t' w', s'.assign name value = .ok (t', w') ∧ Beneath base t t' := by
  induction h generalizing t with
  | @single c c' kind vars =>
      rw [assign_single] at assigned ⊢
      cases found : c.find? name with
      | none => simp [found] at assigned
      | some v =>
          rw [found] at assigned
          obtain ⟨u, stored, same⟩ := map_eq_ok.1 assigned
          cases same
          rw [find?_of_vars vars found]
          refine ⟨_, w, map_eq_ok.2 ⟨w, stored, rfl⟩, .single kind ?_⟩
          exact replace_vars vars found stored
  | @push s s' c below ih =>
      rw [assign_push] at assigned ⊢
      cases found : c.find? name with
      | some v =>
          rw [found] at assigned
          obtain ⟨u, stored, same⟩ := map_eq_ok.1 assigned
          cases same
          exact ⟨_, w, map_eq_ok.2 ⟨w, stored, rfl⟩, .push _ below⟩
      | none =>
          rw [found] at assigned
          obtain ⟨⟨u, x⟩, inner, same⟩ := map_eq_ok.1 assigned
          cases same
          obtain ⟨u', x', inner', after⟩ := ih inner
          exact ⟨_, x', map_eq_ok.2 ⟨(u', x'), inner', rfl⟩, .push c after⟩

end Beneath

theorem simulation_beneath (base : List Variable) :
    Simulation (base.map Variable.name) (Beneath base) where
  kind related := by
    cases related with
    | single kind vars => exact kind
    | push c below => rfl
  lookup related found filled := ⟨_, related.lookup? found, filled, rfl⟩
  push c related := .push c related
  closed related := by
    cases related with
    | single kind vars => exact .single kind vars
    | push c below => exact below
  declare related declared clear := related.declare declared clear
  assign related assigned := related.assign assigned

end Stack

theorem State.kind_of_run? {lines : List Line} {g : Scope} {previous : Option Text}
    (run : State.initial.run? (MethodTable.collect lines).state lines = some (.idle g previous)) :
    g.kind = .global := by
  have good := State.run?_wellFormed (MethodTable.lawful_collect lines)
    (State.initial_wellFormed _) run
  cases good.point.shaped with
  | outside kind => exact kind

/-- Two accepted programs that share no method name and no global name can be put one behind the
other, under any ascending numbers: the whole is accepted, and at its end the global scope holds the
variables of the first followed by those of the second. -/
theorem concatenation_accepted {first second whole : Listing}
    (accepted : (Run.ofListing first).accepted = true)
    (accepted' : (Run.ofListing second).accepted = true)
    (methods : ((Run.ofListing first).table.methods.map fun m => m.name).Disjoint
      ((Run.ofListing second).table.methods.map fun m => m.name))
    (globals : (Run.ofListing first).state.stack.globalNames.Disjoint
      (Run.ofListing second).state.stack.globalNames)
    (texts : whole.ascending.map Line.text =
      first.ascending.map Line.text ++ second.ascending.map Line.text) :
    (Run.ofListing whole).accepted = true ∧
      (Run.ofListing whole).state.stack.bottom.vars =
        (Run.ofListing first).state.stack.bottom.vars ++
          (Run.ofListing second).state.stack.bottom.vars := by
  obtain ⟨pass, last, run⟩ :=
    Run.accepted_with_iff.1 ⟨accepted, Run.stack_of_accepted accepted⟩
  obtain ⟨pass', last', run'⟩ :=
    Run.accepted_with_iff.1 ⟨accepted', Run.stack_of_accepted accepted'⟩
  have passes : (MethodTable.collect whole.ascending).failure = none := by
    have apart : (MethodTable.declaredNames first.ascending).Disjoint
        (MethodTable.declaredNames second.ascending) := by
      rw [← MethodTable.names_collect pass, ← MethodTable.names_collect pass']
      simpa [Run.table, Run.ofListing, Run.ofLines, pass, pass'] using methods
    refine MethodTable.collect_failure_eq_none.2 (((MethodTable.registrable_of_collect pass).append
      (MethodTable.registrable_of_collect pass') apart).of_texts ?_)
    rw [texts, List.map_append]
  have embeds := MethodTable.embeds_collect pass passes (by rw [texts]; simp)
  have embeds' := MethodTable.embeds_collect pass' passes (by rw [texts]; simp)
  obtain ⟨middle, opening⟩ := State.run?_idle embeds run none
  -- To the second program the variables of the first stand in front of its own.
  have beneath : Stack.Beneath (Run.ofListing first).state.stack.bottom.vars .initial
      ⟨(Run.ofListing first).state.stack.bottom, []⟩ :=
    .single (State.kind_of_run? run) (List.append_nil _).symm
  obtain ⟨⟨stack, method, previous⟩, closing, after, outside, -⟩ :=
    State.run?_simulation (Stack.simulation_beneath _) embeds' run' globals.symm
      (.outside beneath none middle)
  obtain ⟨g, rfl, vars⟩ := after.exists_single
  obtain rfl : method = none := by
    cases outside
    rfl
  have whole_run : State.initial.run? (MethodTable.collect whole.ascending).state whole.ascending =
      some (.idle g previous) := by
    rw [State.run?_congr _ _ (texts.trans List.map_append.symm), State.run?_append]
    exact Option.bind_eq_some_iff.2 ⟨_, opening, closing⟩
  obtain ⟨ends, left⟩ := Run.accepted_with_iff.2 ⟨passes, previous, whole_run⟩
  refine ⟨ends, ?_⟩
  change (Run.ofLines whole.ascending).state.stack.bottom.vars = _
  rw [left]
  exact vars

namespace Concatenation

def counter : Listing where
  lines := [⟨1, "int total = 1;".toList⟩, ⟨2, "void add(int x) \x7b".toList⟩,
    ⟨3, "total = x;".toList⟩, ⟨4, "return;".toList⟩, ⟨5, "\x7d".toList⟩]
  distinct := by decide

/-- The parameter has the name of a global variable of `counter`, and the local that of its method. -/
def greeter : Listing where
  lines := [⟨1, "final boolean ready = true;".toList⟩, ⟨2, "void start(String total) \x7b".toList⟩,
    ⟨3, "if (ready) \x7b".toList⟩, ⟨4, "String add = total;".toList⟩, ⟨5, "\x7d".toList⟩,
    ⟨6, "return;".toList⟩, ⟨7, "\x7d".toList⟩, ⟨8, "int count;".toList⟩]
  distinct := by decide

def both : Listing where
  lines := counter.lines ++ greeter.lines.map fun l => ⟨l.number + 5, l.text⟩
  distinct := by decide

theorem both_accepted :
    (Run.ofListing counter).accepted = true ∧ (Run.ofListing greeter).accepted = true ∧
      (Run.ofListing both).accepted = true ∧
      (Run.ofListing both).state.stack.bottom.vars =
        (Run.ofListing counter).state.stack.bottom.vars ++
          (Run.ofListing greeter).state.stack.bottom.vars := by
  have accepted : (Run.ofListing counter).accepted = true := by decide
  have accepted' : (Run.ofListing greeter).accepted = true := by decide
  have methods : ((Run.ofListing counter).table.methods.map fun m => m.name).Disjoint
      ((Run.ofListing greeter).table.methods.map fun m => m.name) := by
    rw [List.disjoint_iff_ne]
    decide
  have globals : (Run.ofListing counter).state.stack.globalNames.Disjoint
      (Run.ofListing greeter).state.stack.globalNames := by
    rw [List.disjoint_iff_ne]
    decide
  have texts : both.ascending.map Line.text =
      counter.ascending.map Line.text ++ greeter.ascending.map Line.text := by decide
  exact ⟨accepted, accepted', concatenation_accepted accepted accepted' methods globals texts⟩

end Concatenation

end SJava
