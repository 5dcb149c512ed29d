import SJava.Proofs.Verify.Invariant

/-!
# Where values come from

A variable holds a value exactly if its history says so: it is a parameter of the current method, or
was declared with a value, or an assignment that was accepted stood for it. The history is that of the
variable and not of its name, so its scope must have been open ever since (`GivenIn`). The flag and
the history change together with every action (`holds_apply`, `givenIn_concat`), hence agree at every
point of a run, and every read that is accepted finds a value that was given to it earlier.
-/

namespace SJava

def Stack.Holds (s : Stack) (height : Nat) (name : Text) : Prop :=
  ∃ v, s.varAt? height name = some v ∧ v.initialized = true

inductive Stack.AcceptsRead (s : Stack) (name : Text) : Prop where
  | stored {target : Option Text} {type : ValueType} (legal : Name.isVariable name = true)
      (accepted : Value.stored s target name = .ok type)
  | operand {position : Nat} {type : ValueType} (symbol : Literal.type? name = none)
      (accepted : Value.operand s position name = .ok type)
  | argument {method : Text} {position : Nat} {type : ValueType}
      (symbol : Literal.type? name = none)
      (accepted : Value.argument s method position name = .ok type)

namespace Stack

theorem AcceptsRead.readable {s : Stack} {name : Text} (h : s.AcceptsRead name) :
    s.Readable name := by
  cases h with
  | stored legal accepted => exact Value.readable_of_stored legal accepted
  | operand symbol accepted => exact Value.readable_of_operand symbol accepted
  | argument symbol accepted => exact Value.readable_of_argument symbol accepted

theorem Holds.lt_depth {s : Stack} {height : Nat} {name : Text} (h : s.Holds height name) :
    height < s.depth := by
  obtain ⟨v, found, -⟩ := h
  exact lt_depth_of_varAt? found

theorem holds_push {s : Stack} {c : Scope} {height : Nat} {name : Text} :
    (s.push c).Holds height name ↔ s.Holds height name ∨
      height = s.depth ∧ ∃ v, c.find? name = some v ∧ v.initialized = true := by
  unfold Holds
  rw [varAt?_push]
  by_cases top : height = s.depth
  · have unheld : ¬s.Holds height name := fun held => Nat.ne_of_lt held.lt_depth top
    rw [if_pos top]
    exact ⟨fun found => .inr ⟨top, found⟩, fun either => (either.resolve_left unheld).2⟩
  · simp [top]

theorem holds_pop {s t : Stack} {c : Scope} (h : s.pop? = some (c, t)) {height : Nat}
    {name : Text} : t.Holds height name ↔ s.Holds height name ∧ height < t.depth := by
  constructor
  · intro held
    refine ⟨?_, held.lt_depth⟩
    rwa [Holds, ← varAt?_pop h held.lt_depth]
  · rintro ⟨held, below⟩
    rwa [Holds, varAt?_pop h below]

theorem holds_declare {s t : Stack} {v : Variable} (h : s.declare v = .ok t) {height : Nat}
    {name : Text} : t.Holds height name ↔ s.Holds height name ∨
      s.depth = height + 1 ∧ v.name = name ∧ v.initialized = true := by
  unfold Holds
  rw [varAt?_declare h]
  by_cases here : height + 1 = s.depth ∧ name = v.name
  · obtain ⟨innermost, rfl⟩ := here
    simp [innermost, varAt?_eq_none_of_declare h innermost]
  · rw [if_neg here]
    have elsewhere : ¬(s.depth = height + 1 ∧ v.name = name ∧ v.initialized = true) :=
      fun there => here ⟨there.1.symm, there.2.1.symm⟩
    simp only [elsewhere, or_false]

theorem holds_assign {s t : Stack} {target : Text} {value : ValueType} {w : Variable}
    (h : s.assign target value = .ok (t, w)) {height : Nat} {name : Text} :
    t.Holds height name ↔ s.Holds height name ∨ target = name ∧ s.owner? target = some height := by
  unfold Holds
  rw [varAt?_assign h]
  by_cases here : name = target ∧ s.owner? target = some height
  · obtain ⟨rfl, owned⟩ := here
    obtain ⟨v, found⟩ := varAt?_of_owner? owned
    simp [found, owned]
  · have elsewhere : ¬(target = name ∧ s.owner? target = some height) :=
      fun there => here ⟨there.1.symm, there.2⟩
    simp [here, elsewhere]

end Stack

namespace Point

/-- The place is that of a parameter of the current method. -/
def HasParam (p : Point) (height : Nat) (name : Text) : Prop :=
  ∃ m, p.method = some m ∧ height = 1 ∧ ∃ q ∈ m.params, q.name = name

/-- The action, which happens at the point `p`, gives a value to the variable of this place. -/
def Gives (p : Point) (height : Nat) (name : Text) : Action → Prop
  | .declared x _ _ value => p.stack.depth = height + 1 ∧ x = name ∧ value.isSome = true
  | .assigned x _ => x = name ∧ p.stack.owner? x = some height
  | .entered _ | .opened _ | .closed | .read _ => False

/-! ## One action -/

theorem holds_apply {p q : Point} {e : Action} (h : p.apply e = some q) (height : Nat)
    (name : Text) :
    q.stack.Holds height name ↔
      (p.stack.Holds height name ∨ p.Gives height name e) ∧ height < q.stack.depth ∨
      ∃ m, e = .entered m ∧ height = p.stack.depth ∧ ∃ a ∈ m.params, a.name = name := by
  cases takes_of_apply h with
  | @entered stack m scope legal seeded =>
      obtain ⟨distinct, rfl⟩ := Signature.eq_of_scope? seeded
      have params : (∃ v, Scope.find? ⟨.method, m.name, m.params.map Param.asVariable, distinct⟩
          name = some v ∧ v.initialized = true) ↔ ∃ a ∈ m.params, a.name = name := by
        constructor
        · rintro ⟨v, found, -⟩
          obtain ⟨a, member, rfl⟩ := List.mem_map.1 (Scope.mem_of_find? found)
          exact ⟨a, member, Scope.name_of_find? found⟩
        · rintro ⟨a, member, rfl⟩
          have declared : a.asVariable ∈ m.params.map Param.asVariable := List.mem_map_of_mem member
          exact ⟨a.asVariable, Scope.find?_of_mem (v := a.asVariable) declared, rfl⟩
      have within : stack.Holds height name → height < stack.depth + 1 :=
        fun held => Nat.lt_succ_of_lt held.lt_depth
      simp only [Stack.holds_push, params, Gives, or_false, Stack.depth_push, Action.entered.injEq,
        exists_eq_left', and_iff_left_of_imp within]
  | @opened stack m block =>
      have within : stack.Holds height name → height < stack.depth + 1 :=
        fun held => Nat.lt_succ_of_lt held.lt_depth
      simpa [Stack.holds_push, Scope.find?, Scope.empty, Gives] using within
  | @closed stack rest c method popped => simp [Stack.holds_pop popped, Gives]
  | @declared stack larger method x type final value legal valued done =>
      have within : larger.Holds height name → height < larger.depth := Stack.Holds.lt_depth
      rw [Stack.holds_declare done] at within
      simp only [Stack.holds_declare done, Gives, reduceCtorEq, false_and, exists_false, or_false,
        and_iff_left_of_imp within]
  | @assigned stack filled method x value type w stored done =>
      have within : filled.Holds height name → height < filled.depth := Stack.Holds.lt_depth
      rw [Stack.holds_assign done] at within
      simp only [Stack.holds_assign done, Gives, reduceCtorEq, false_and, exists_false, or_false,
        and_iff_left_of_imp within]
  | @read stack method x v found filled =>
      have within : stack.Holds height name → height < stack.depth := Stack.Holds.lt_depth
      simpa [Gives] using within

theorem hasParam_apply {p q : Point} {e : Action} (h : p.apply e = some q) (good : p.WellFormed)
    (height : Nat) (name : Text) :
    q.HasParam height name ↔ p.HasParam height name ∧ height < q.stack.depth ∨
      ∃ m, e = .entered m ∧ height = p.stack.depth ∧ ∃ a ∈ m.params, a.name = name := by
  have after := apply_wellFormed h good
  have kept (same : q.method = p.method) :
      q.HasParam height name ↔ p.HasParam height name ∧ height < q.stack.depth := by
    unfold HasParam
    rw [same]
    refine (and_iff_left_of_imp ?_).symm
    rintro ⟨m, current, rfl, -⟩
    exact after.deep (by rw [same, current]; rfl)
  cases takes_of_apply h with
  | @entered stack m scope legal seeded =>
      have alone : stack.depth = 1 := good.depth_of_outside rfl
      simp [HasParam, alone]
  | opened | declared | assigned | read => simpa using kept rfl
  | @closed stack rest c method popped =>
      by_cases block : c.kind = .condition
      · simpa using kept (if_pos block)
      · have alone : rest.depth = 1 := after.depth_of_outside (if_neg block)
        have left : ¬HasParam ⟨rest, if c.kind = .condition then method else none⟩ height name := by
          simp [HasParam, block]
        have beyond : ¬(HasParam ⟨stack, method⟩ height name ∧ height < rest.depth) := by
          rintro ⟨⟨m, -, rfl, -⟩, below⟩
          omega
        simp [left, beyond]

end Point

/-! ## Histories -/

/-- The history has an action that gave a value to the variable of this place, whose scope stayed open
until the end. -/
def GivenIn (past : List Action) (height : Nat) (name : Text) : Prop :=
  ∃ before e after p, past = before ++ e :: after ∧ State.initial.point.replay before = some p ∧
    p.Gives height name e ∧
    ∀ seen : List Action, seen <+: after →
      ∃ q, State.initial.point.replay (before ++ e :: seen) = some q ∧ height < q.stack.depth

theorem not_givenIn_nil {height : Nat} {name : Text} : ¬GivenIn [] height name := by
  rintro ⟨before, e, after, p, split, -⟩
  simp at split

theorem Point.replay_concat {s p q : Point} {past : List Action} {e : Action}
    (reached : s.replay past = some p) (next : p.apply e = some q) :
    s.replay (past ++ [e]) = some q := by
  rw [replay_append, reached]
  simp [next]

theorem givenIn_concat {past : List Action} {e : Action} {p q : Point}
    (reached : State.initial.point.replay past = some p) (next : p.apply e = some q)
    (height : Nat) (name : Text) :
    GivenIn (past ++ [e]) height name ↔
      (GivenIn past height name ∨ p.Gives height name e) ∧ height < q.stack.depth := by
  have now := Point.replay_concat reached next
  constructor
  · rintro ⟨before, given, after, r, split, there, gives, stays⟩
    obtain rfl | ⟨first, last, rfl⟩ := List.eq_nil_or_concat' after
    · obtain ⟨rfl, same⟩ := List.append_inj' split rfl
      cases same
      obtain ⟨u, final, below⟩ := stays [] (List.prefix_refl _)
      rw [now] at final
      cases final
      rw [reached] at there
      cases there
      exact ⟨.inr gives, below⟩
    · have cut : past ++ [e] = (before ++ given :: first) ++ [last] := by simpa using split
      obtain ⟨rfl, same⟩ := List.append_inj' cut rfl
      cases same
      refine ⟨.inl ⟨before, given, first, r, rfl, there, gives, ?_⟩, ?_⟩
      · exact fun seen front => stays seen (front.trans (List.prefix_append _ _))
      · obtain ⟨u, final, below⟩ := stays _ (List.prefix_refl _)
        rw [← split, now] at final
        cases final
        exact below
  · rintro ⟨⟨before, given, after, r, rfl, there, gives, stays⟩ | gives, below⟩
    · refine ⟨before, given, after ++ [e], r, by simp, there, gives, ?_⟩
      intro seen front
      rcases List.prefix_concat_iff.1 front with rfl | front
      · exact ⟨q, by simpa using now, below⟩
      · exact stays seen front
    · refine ⟨past, e, [], p, rfl, reached, gives, ?_⟩
      intro seen front
      rw [List.prefix_nil.1 front]
      exact ⟨q, now, below⟩

/-- The variable of this place is a parameter of the current method, or was given a value earlier. -/
def GivenValue (past : List Action) (p : Point) (height : Nat) (name : Text) : Prop :=
  p.HasParam height name ∨ GivenIn past height name

theorem holds_iff_givenValue {past : List Action} {p : Point}
    (reached : State.initial.point.replay past = some p) (height : Nat) (name : Text) :
    p.stack.Holds height name ↔ GivenValue past p height name := by
  induction past using List.reverseRecOn generalizing p with
  | nil =>
      cases reached
      have unheld : ¬Stack.initial.Holds height name := by
        rintro ⟨v, found, -⟩
        obtain rfl : height = 0 := Nat.lt_one_iff.1 (Stack.lt_depth_of_varAt? found)
        cases found
      have outside : ¬State.initial.point.HasParam height name := by
        rintro ⟨m, current, -⟩
        cases current
      exact iff_of_false unheld fun given => given.elim outside not_givenIn_nil
  | append_singleton past e ih =>
      rw [Point.replay_append, Option.bind_eq_some_iff] at reached
      obtain ⟨q, earlier, last⟩ := reached
      have next : q.apply e = some p := by simpa using last
      have good := Point.replay_wellFormed earlier Point.initial_wellFormed
      rw [GivenValue, Point.holds_apply next, ih earlier, Point.hasParam_apply next good,
        givenIn_concat earlier next, GivenValue]
      -- Both sides keep what was there, as far as its scope is open, and add what the action gives.
      rw [or_assoc, or_and_right, or_right_comm]

/-! ## Runs -/

namespace State

def history (table : MethodTable) (s : State) : List Line → List Action
  | [] => []
  | l :: lines => s.actions table l.text ++ match s.take table l with
      | ⟨t, .ok _⟩ => t.history table lines
      | ⟨_, .error _⟩ => []

theorem replay_actions_take {table : MethodTable} {s : State}
    (lawful : ∀ m ∈ table.methods, m.toSignature.Lawful) (good : s.WellFormed table) (l : Line) :
    s.point.replay (s.actions table l.text) = some (s.take table l).state.point := by
  rw [point_take]
  exact Point.replay_actions l.text lawful good.point.deep

theorem replay_history {table : MethodTable} {s : State}
    (lawful : ∀ m ∈ table.methods, m.toSignature.Lawful) (good : s.WellFormed table)
    (lines : List Line) :
    s.point.replay (s.history table lines) = some (Run.walk table s lines).state.point := by
  induction lines generalizing s with
  | nil => rfl
  | cons l lines ih =>
      have after := take_wellFormed lawful good l
      rw [history, Point.replay_append, replay_actions_take lawful good, Option.bind_some, Run.walk,
        Attempt.inSequence]
      cases taken : s.take table l with
      | mk t result =>
          rw [taken] at after
          cases result with
          | error failure => rfl
          | ok step => exact ih after

theorem before_of_take {table : MethodTable} {s t : State} {l : Line} {step : Step}
    (h : s.take table l = ⟨t, .ok step⟩) : step = ⟨l, s, t⟩ := by
  unfold take at h
  cases checked : s.check table l.text with
  | mk left result =>
      cases result with
      | error v => simp [checked] at h
      | ok u =>
          simp only [checked, Attempt.mk.injEq, Except.ok.injEq] at h
          rw [← h.1, ← h.2]

theorem history_of_step {table : MethodTable} {s : State}
    (lawful : ∀ m ∈ table.methods, m.toSignature.Lawful) (good : s.WellFormed table)
    {lines : List Line} {step : Step} (done : step ∈ (Run.walk table s lines).done) :
    ∃ past future, s.history table lines =
        past ++ step.before.actions table step.line.text ++ future ∧
      s.point.replay past = some step.before.point ∧
      step.before.point.replay (step.before.actions table step.line.text) =
        some step.after.point := by
  induction lines generalizing s with
  | nil => cases done
  | cons l lines ih =>
      have first := replay_actions_take lawful good l
      have after := take_wellFormed lawful good l
      rw [Run.walk, Attempt.inSequence] at done
      rw [history]
      cases taken : s.take table l with
      | mk t result =>
          rw [taken] at first after done
          cases result with
          | error failure => cases done
          | ok accepted =>
              rcases List.mem_cons.1 done with rfl | later
              · rw [before_of_take taken]
                exact ⟨[], t.history table lines, rfl, rfl, first⟩
              · obtain ⟨past, future, split, reached, next⟩ := ih after later
                refine ⟨s.actions table l.text ++ past, future, ?_, ?_, next⟩
                · simp [split]
                · rw [Point.replay_append, first]
                  exact reached

end State

def Run.history (run : Run) : List Action := State.initial.history run.table run.checkedLines

/-- At every point of the second pass the variables that hold a value are those that were given one:
as a parameter of the current method, at their declaration, or by an assignment. So whatever is read
was given a value earlier. The points include the states before and after every accepted line and the
state in which the run ended. -/
theorem initialized_iff_given_in_history (listing : Listing) :
    let run := Run.ofListing listing
    (∀ past future, run.history = past ++ future →
      ∃ p, State.initial.point.replay past = some p ∧
        (∀ height name, (∃ v, p.stack.varAt? height name = some v ∧ v.initialized = true) ↔
          GivenValue past p height name) ∧
        ∀ name, p.stack.AcceptsRead name ∨ (∃ later, future = .read name :: later) →
          ∃ height v, p.stack.lookup? name = some v ∧ p.stack.owner? name = some height ∧
            GivenValue past p height name) ∧
    State.initial.point.replay run.history = some run.state.point ∧
    ∀ step ∈ run.walked.done, ∃ past future,
      run.history = past ++ step.before.actions run.table step.line.text ++ future ∧
      State.initial.point.replay past = some step.before.point ∧
      step.before.point.replay (step.before.actions run.table step.line.text) =
        some step.after.point := by
  intro run
  have lawful : ∀ m ∈ run.table.methods, m.toSignature.Lawful :=
    fun m member => Run.lawful_table member
  have start := State.initial_wellFormed run.table
  have whole : State.initial.point.replay run.history = some run.state.point := by
    rw [Run.state, Run.walked_ofListing]
    exact State.replay_history lawful start run.checkedLines
  refine ⟨?_, whole, ?_⟩
  · intro past future split
    rw [split, Point.replay_append, Option.bind_eq_some_iff] at whole
    obtain ⟨p, reached, rest⟩ := whole
    refine ⟨p, reached, fun height name => holds_iff_givenValue reached height name, ?_⟩
    intro name reads
    have readable : p.stack.Readable name := by
      rcases reads with accepted | ⟨later, rfl⟩
      · exact accepted.readable
      · obtain ⟨q, applied, -⟩ := Option.bind_eq_some_iff.1 rest
        cases Point.takes_of_apply applied with
        | read found filled => exact ⟨_, found, filled⟩
    obtain ⟨v, found, filled⟩ := readable
    obtain ⟨height, owned, there⟩ := Stack.lookup?_eq_some.1 found
    exact ⟨height, v, found, owned, (holds_iff_givenValue reached height name).1 ⟨v, there, filled⟩⟩
  · intro step done
    rw [Run.walked_ofListing] at done
    exact State.history_of_step lawful start done

end SJava
