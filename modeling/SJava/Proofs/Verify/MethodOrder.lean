import SJava.Proofs.Verify.Acceptance
import SJava.Proofs.Verify.Entry
import SJava.Proofs.Verify.Invariant
import SJava.Proofs.Verify.Simulation

/-!
# The order of methods

A method leaves nothing behind. Its scopes are dropped at its end, and where every global variable
holds a value, an assignment to one of them changes nothing (`Stack.bottom_assign`). So each method
begins and ends with the same global scope and can be checked in any place.

A method is delimited by counting braces: it ends where the block that its header opens is closed
(`isMethod`). In an accepted run this count is the height of the stack (`run?_closes`).
-/

namespace SJava

/-! ## The global scope -/

namespace Stack

def GlobalsFilled (s : Stack) : Prop := ∀ v ∈ s.bottom.vars, v.initialized = true

theorem bottom_declare {s t : Stack} {v : Variable} (deep : 1 < s.depth)
    (h : s.declare v = .ok t) : t.bottom = s.bottom := by
  rcases single_or_push s with ⟨c, rfl⟩ | ⟨u, c, rfl⟩
  · exact absurd deep (by simp [depth, scopes])
  · rw [declare_push] at h
    obtain ⟨d, -, rfl⟩ := map_eq_ok.1 h
    rw [bottom_push, bottom_push]

theorem bottom_assign {s t : Stack} {name : Text} {value : ValueType} {w : Variable}
    (filled : s.GlobalsFilled) (h : s.assign name value = .ok (t, w)) : t.bottom = s.bottom := by
  obtain ⟨outer, c, inner, v, split, -, -, -, -, -, after⟩ := assign_ok h
  cases outer with
  | cons first outer => rw [bottom_of_layers split, bottom_of_layers after]
  | nil =>
      have bottom : s.bottom = c := bottom_of_layers split
      rw [bottom_of_layers after, bottom]
      refine Scope.ext_vars rfl rfl ?_
      change c.vars.map _ = c.vars
      rw [List.map_congr_left (g := id), List.map_id]
      intro u member
      have holds : u.initialized = true := filled u (bottom ▸ member)
      simp [Variable.filled_of_initialized holds]

theorem closed_of_deep {s : Stack} (deep : 1 < s.depth) :
    s.closed.bottom = s.bottom ∧ s.closed.depth + 1 = s.depth := by
  rcases single_or_push s with ⟨c, rfl⟩ | ⟨t, c, rfl⟩
  · exact absurd deep (by simp [depth, scopes])
  · rw [closed_push, bottom_push, depth_push]
    exact ⟨rfl, rfl⟩

end Stack

namespace Binding

variable {s t : Stack} {text : Text}

theorem bottom_declare (deep : 1 < s.depth) (h : (declare s text).success? = some t) :
    t.bottom = s.bottom ∧ t.depth = s.depth := by
  obtain ⟨rfl, -⟩ := Attempt.success?_eq_some.1 h
  refine declare_state (P := fun t => t.bottom = s.bottom ∧ t.depth = s.depth) text ⟨rfl, rfl⟩ ?_
  rintro final type u t binder v declared ⟨bottom, depth⟩
  obtain ⟨_, _, -, -, -, -, declared, -⟩ := declareOne_ok declared
  rw [Stack.bottom_declare (by rwa [depth]) declared, Stack.depth_declare declared]
  exact ⟨bottom, depth⟩

theorem bottom_assign (filled : s.GlobalsFilled) (h : (assign s text).success? = some t) :
    t.bottom = s.bottom ∧ t.depth = s.depth := by
  obtain ⟨rfl, -⟩ := Attempt.success?_eq_some.1 h
  refine assign_state (P := fun t => t.bottom = s.bottom ∧ t.depth = s.depth) text ⟨rfl, rfl⟩ ?_
  rintro u t binder w assigned ⟨bottom, depth⟩
  obtain ⟨_, _, _, -, -, -, assigned⟩ := assignOne_ok assigned
  have filled : u.GlobalsFilled := by rwa [Stack.GlobalsFilled, bottom]
  rw [Stack.bottom_assign filled assigned, Stack.depth_assign assigned]
  exact ⟨bottom, depth⟩

end Binding

/-! ## Blocks -/

def Kind.rise : Kind → Int
  | .methodHeader | .conditionHeader => 1
  | .blockClose => -1
  | _ => 0

/-- Of `height` open blocks the last is closed by the last line, and not before. -/
def closes (height : Int) : List Line → Bool
  | [] => false
  | l :: rest =>
      let after := height + (Kind.ofText l.text).rise
      if after = 0 then rest.isEmpty else closes after rest

/-- A method header with all lines up to its matching brace. -/
def isMethod : List Line → Bool
  | [] => false
  | header :: rest => Kind.ofText header.text == .methodHeader && closes 1 rest

namespace State

variable {table : MethodTable}

theorem next?_bottom (lawful : ∀ m ∈ table.methods, m.toSignature.Lawful) {s t : State} {l : Line}
    (good : s.WellFormed table) (filled : s.stack.GlobalsFilled)
    (within : s.method.isSome = true ∨ Kind.ofText l.text = .methodHeader)
    (taken : s.next? table l = some t) :
    t.stack.bottom = s.stack.bottom ∧
      (t.stack.depth : Int) = s.stack.depth + (Kind.ofText l.text).rise := by
  have deep (inside : s.method.isSome = true) : 1 < s.stack.depth := good.point.deep inside
  obtain ⟨-, step⟩ := next?_eq_some.1 taken
  cases step with
  | declaration kind bound =>
      have inside := within.resolve_right (by simp [kind])
      obtain ⟨bottom, depth⟩ := Binding.bottom_declare (deep inside) bound
      simp [kind, Kind.rise, bottom, depth]
  | assignment kind bound =>
      obtain ⟨bottom, depth⟩ := Binding.bottom_assign filled bound
      simp [kind, Kind.rise, bottom, depth]
  | @openMethod stack t m previous l kind entered =>
      rcases enter_cases stack l.text lawful with ⟨v, failed⟩ | ⟨m, scope, pushed⟩
      · rw [failed] at entered
        cases entered
      · rw [pushed] at entered
        cases entered
        simp [kind, Kind.rise]
  | openBlock kind checked => simp [kind, Kind.rise]
  | call kind checked => simp [kind, Kind.rise]
  | returning kind returns => simp [kind, Kind.rise]
  | closeBlock kind _ | closeMethod kind _ _ =>
      obtain ⟨bottom, depth⟩ := Stack.closed_of_deep (deep rfl)
      refine ⟨bottom, ?_⟩
      simp only [kind, Kind.rise] at depth ⊢
      omega

theorem eq_idle {s : State} (good : s.WellFormed table) (low : s.stack.depth = 1) :
    ∃ previous, s = idle s.stack.bottom previous := by
  obtain ⟨stack, method, previous⟩ := s
  refine ⟨previous, ?_⟩
  cases method with
  | none => rw [idle, ← Stack.eq_single_of_depth low]
  | some m =>
      have deep : 1 < stack.depth := good.point.deep rfl
      exact absurd low (Nat.ne_of_gt deep)

theorem run?_closes (lawful : ∀ m ∈ table.methods, m.toSignature.Lawful) {s t : State}
    {height : Int} {lines : List Line} (good : s.WellFormed table)
    (filled : s.stack.GlobalsFilled) (inside : 0 < height)
    (depth : (s.stack.depth : Int) = height + 1) (ends : closes height lines = true)
    (run : s.run? table lines = some t) : ∃ previous, t = idle s.stack.bottom previous := by
  -- The count of open blocks and the height of the stack move together.
  induction lines generalizing s height with
  | nil => cases ends
  | cons l lines ih =>
      rw [run?_cons, Option.bind_eq_some_iff] at run
      obtain ⟨u, taken, rest⟩ := run
      have current : s.method.isSome = true := by
        by_contra outside
        have low : s.stack.depth = 1 :=
          good.point.depth_of_outside (Option.not_isSome_iff_eq_none.1 outside)
        omega
      obtain ⟨bottom, rise⟩ := next?_bottom lawful good filled (.inl current) taken
      have good' := next?_wellFormed lawful good taken
      rw [← bottom]
      simp only [closes] at ends
      split at ends
      · rw [List.isEmpty_iff.1 ends] at rest
        cases rest
        exact eq_idle good' (by omega)
      · have filled' : u.stack.GlobalsFilled := by rwa [Stack.GlobalsFilled, bottom]
        have some : 0 < u.stack.depth := by simp [Stack.depth, Stack.scopes]
        exact ih good' filled' (by omega) (by omega) ends rest

theorem run?_isMethod (lawful : ∀ m ∈ table.methods, m.toSignature.Lawful) {g : Scope}
    {before : Option Text} {t : State} {lines : List Line}
    (good : (idle g before).WellFormed table) (filled : ∀ v ∈ g.vars, v.initialized = true)
    (method : isMethod lines = true) (run : (idle g before).run? table lines = some t) :
    ∃ after, t = idle g after := by
  cases lines with
  | nil => cases method
  | cons header rest =>
      simp only [isMethod, Bool.and_eq_true, beq_iff_eq] at method
      obtain ⟨kind, ends⟩ := method
      rw [run?_cons, Option.bind_eq_some_iff] at run
      obtain ⟨u, taken, run⟩ := run
      obtain ⟨bottom, rise⟩ := next?_bottom lawful good filled (.inr kind) taken
      have bottom : u.stack.bottom = g := bottom
      rw [kind] at rise
      have depth : (u.stack.depth : Int) = 1 + 1 := rise
      have filled' : u.stack.GlobalsFilled := by rwa [Stack.GlobalsFilled, bottom]
      rw [← bottom]
      exact run?_closes lawful (next?_wellFormed lawful good taken) filled' Int.zero_lt_one depth ends
        run

theorem run?_outside {s t : State} {lines : List Line}
    (plain : ∀ l ∈ lines, Kind.ofText l.text ≠ .methodHeader) (outside : s.method = none)
    (run : s.run? table lines = some t) : t.method = none := by
  induction lines generalizing s with
  | nil =>
      cases run
      exact outside
  | cons l lines ih =>
      rw [run?_cons, Option.bind_eq_some_iff] at run
      obtain ⟨u, taken, rest⟩ := run
      refine ih (fun k later => plain k (by simp [later])) ?_ rest
      obtain ⟨-, step⟩ := next?_eq_some.1 taken
      cases step with
      | declaration | assignment => exact outside
      | openMethod kind => exact absurd kind (plain l (by simp))
      | closeMethod => rfl
      | openBlock | call | returning | closeBlock => cases outside

/-! ## Sequences of methods -/

theorem run?_methods (lawful : ∀ m ∈ table.methods, m.toSignature.Lawful) {g : Scope}
    {before : Option Text} {t : State} {blocks : List (List Line)}
    (good : (idle g before).WellFormed table) (filled : ∀ v ∈ g.vars, v.initialized = true)
    (methods : ∀ b ∈ blocks, isMethod b = true)
    (run : (idle g before).run? table blocks.flatten = some t) :
    (∃ after, t = idle g after) ∧
      ∀ b ∈ blocks, ∃ first last, (idle g first).run? table b = some (idle g last) := by
  induction blocks generalizing before with
  | nil =>
      cases run
      exact ⟨⟨before, rfl⟩, by simp⟩
  | cons b blocks ih =>
      rw [List.forall_mem_cons] at methods
      rw [List.flatten_cons, run?_append, Option.bind_eq_some_iff] at run
      obtain ⟨u, first, rest⟩ := run
      obtain ⟨after, rfl⟩ := run?_isMethod lawful good filled methods.1 first
      have good' : (idle g after).WellFormed table := ⟨good.point, good.known⟩
      obtain ⟨ends, each⟩ := ih good' methods.2 rest
      exact ⟨ends, List.forall_mem_cons.2 ⟨⟨before, after, first⟩, each⟩⟩

theorem run?_flatten {g : Scope} {blocks : List (List Line)}
    (each : ∀ b ∈ blocks, ∀ first, ∃ last, (idle g first).run? table b = some (idle g last))
    (before : Option Text) :
    ∃ after, (idle g before).run? table blocks.flatten = some (idle g after) := by
  induction blocks generalizing before with
  | nil => exact ⟨before, rfl⟩
  | cons b blocks ih =>
      rw [List.forall_mem_cons] at each
      obtain ⟨middle, first⟩ := each.1 before
      obtain ⟨after, rest⟩ := ih each.2 middle
      refine ⟨after, ?_⟩
      rw [List.flatten_cons, run?_append, first]
      exact rest

theorem run?_parts (lawful : ∀ m ∈ table.methods, m.toSignature.Lawful) {globals : List Line}
    {blocks : List (List Line)} {t : State}
    (plain : ∀ l ∈ globals, Kind.ofText l.text ≠ .methodHeader)
    (methods : ∀ b ∈ blocks, isMethod b = true)
    (filled : (Run.walk table .initial globals).state.stack.GlobalsFilled)
    (run : State.initial.run? table (globals ++ blocks.flatten) = some t) :
    ∃ g middle after, State.initial.run? table globals = some (idle g middle) ∧ t = idle g after ∧
      ∀ b ∈ blocks, ∃ first last, (idle g first).run? table b = some (idle g last) := by
  rw [run?_append, Option.bind_eq_some_iff] at run
  obtain ⟨s, opening, rest⟩ := run
  have reached : (Run.walk table .initial globals).state = s := by
    rw [← success?_walk, Progress.success?_eq_some] at opening
    exact opening.1
  rw [reached] at filled
  have good := run?_wellFormed lawful (initial_wellFormed table) opening
  have outside := run?_outside plain rfl opening
  obtain ⟨middle, same⟩ := eq_idle good (good.point.depth_of_outside outside)
  rw [same] at good opening rest
  obtain ⟨⟨after, ends⟩, each⟩ := run?_methods lawful good filled methods rest
  exact ⟨_, middle, after, opening, ends, each⟩

end State

/-- Methods may be put in any order. Given an accepted program of global lines and methods in which
every global variable holds a value where the methods begin, the program with the methods in another
order, under any numbers, is accepted and ends with the same global scope. -/
theorem methods_accepted_in_any_order {listing other : Listing} {globals : List Line}
    {blocks permuted : List (List Line)}
    (accepted : (Run.ofListing listing).accepted = true)
    (form : listing.ascending = globals ++ blocks.flatten)
    (plain : ∀ l ∈ globals, Kind.ofText l.text ≠ .methodHeader)
    (methods : ∀ b ∈ blocks, isMethod b = true)
    (filled : (Run.walk (Run.ofListing listing).table .initial globals).state.stack.GlobalsFilled)
    (order : permuted.Perm blocks)
    (texts : other.ascending.map Line.text = (globals ++ permuted.flatten).map Line.text) :
    (Run.ofListing other).accepted = true ∧
      (Run.ofListing other).state.stack = (Run.ofListing listing).state.stack := by
  obtain ⟨pass, last, run⟩ :=
    Run.accepted_with_iff.1 ⟨accepted, Run.stack_of_accepted accepted⟩
  have table : (Run.ofListing listing).table = (MethodTable.collect listing.ascending).state := by
    simp [Run.table, Run.ofListing, Run.ofLines, pass]
  have same : (other.ascending.map Line.text).Perm (listing.ascending.map Line.text) := by
    rw [texts, form]
    exact (order.flatten.append_left globals).map Line.text
  have pass' := MethodTable.collect_failure_eq_none.2
    ((MethodTable.registrable_of_collect pass).of_texts same)
  have embeds := MethodTable.embeds_collect pass pass' same.symm.subset
  rw [table] at filled
  nth_rewrite 2 [form] at run
  obtain ⟨g, middle, after, opening, ends, each⟩ :=
    State.run?_parts (MethodTable.lawful_collect _) plain methods filled run
  -- The same parts are accepted with the new table, each from any previous line.
  obtain ⟨middle', opening'⟩ := State.run?_idle embeds opening none
  have each' : ∀ b ∈ permuted, ∀ first, ∃ last,
      (State.idle g first).run? (MethodTable.collect other.ascending).state b =
        some (.idle g last) := by
    intro b member
    obtain ⟨first, last, run⟩ := each b (order.mem_iff.1 member)
    exact State.run?_idle embeds run
  obtain ⟨last', rest'⟩ := State.run?_flatten each' middle'
  have run' : State.initial.run? (MethodTable.collect other.ascending).state other.ascending =
      some (.idle g last') := by
    rw [State.run?_congr _ _ texts, State.run?_append]
    exact Option.bind_eq_some_iff.2 ⟨_, opening', rest'⟩
  obtain ⟨accepted', left'⟩ := Run.accepted_with_iff.2 ⟨pass', last', run'⟩
  refine ⟨accepted', left'.trans ?_⟩
  rw [Run.stack_of_accepted accepted]
  exact (congrArg State.stack ends).symm

namespace MethodOrder

def globals : List Line := [⟨1, "int total = 1;".toList⟩]

def caller (n : Int) : List Line :=
  [⟨n, "void start(int x) \x7b".toList⟩, ⟨n + 1, "add(x);".toList⟩, ⟨n + 2, "return;".toList⟩,
    ⟨n + 3, "\x7d".toList⟩]

def callee (n : Int) : List Line :=
  [⟨n, "void add(double y) \x7b".toList⟩, ⟨n + 1, "if (y) \x7b".toList⟩,
    ⟨n + 2, "total = 2;".toList⟩, ⟨n + 3, "\x7d".toList⟩, ⟨n + 4, "return;".toList⟩,
    ⟨n + 5, "\x7d".toList⟩]

def callerFirst : Listing := ⟨globals ++ [caller 2, callee 6].flatten, by decide⟩

def calleeFirst : Listing := ⟨globals ++ [callee 2, caller 8].flatten, by decide⟩

theorem callee_first_as_caller_first :
    (Run.ofListing callerFirst).accepted = true ∧ (Run.ofListing calleeFirst).accepted = true ∧
      (Run.ofListing calleeFirst).state.stack = (Run.ofListing callerFirst).state.stack := by
  have accepted : (Run.ofListing callerFirst).accepted = true := by decide
  have form : callerFirst.ascending = globals ++ [caller 2, callee 6].flatten := by decide
  have methods : ∀ b ∈ [caller 2, callee 6], isMethod b = true := by decide
  have filled : (Run.walk (Run.ofListing callerFirst).table .initial
      globals).state.stack.GlobalsFilled := by
    unfold Stack.GlobalsFilled
    decide
  have texts : calleeFirst.ascending.map Line.text =
      (globals ++ [callee 6, caller 2].flatten).map Line.text := by decide
  exact ⟨accepted, methods_accepted_in_any_order accepted form (by decide) methods filled
    (.swap _ _ _) texts⟩

end MethodOrder

end SJava
