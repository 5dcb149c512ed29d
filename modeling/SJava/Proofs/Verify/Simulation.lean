import SJava.Proofs.Scope.Simulation
import SJava.Proofs.Verify.Acceptance
import SJava.Proofs.Verify.Call

namespace SJava

theorem foldlM_simulation {σ τ β : Type} {f : σ → β → Option σ} {g : τ → β → Option τ}
    {R : σ → τ → Prop} {P : σ → Prop}
    (back : ∀ {s b t}, f s b = some t → P t → P s)
    (step : ∀ {s s' b t}, R s s' → f s b = some t → P t → ∃ t', g s' b = some t' ∧ R t t')
    {bs : List β} {s t : σ} (run : bs.foldlM f s = some t) (last : P t) :
    P s ∧ ∀ s', R s s' → ∃ t', bs.foldlM g s' = some t' ∧ R t t' := by
  induction bs generalizing s with
  | nil =>
      cases run
      exact ⟨last, fun s' related => ⟨s', rfl, related⟩⟩
  | cons b bs ih =>
      rw [List.foldlM_cons] at run
      obtain ⟨u, first, rest⟩ := Option.bind_eq_some_iff.1 run
      obtain ⟨middle, later⟩ := ih rest
      refine ⟨back first middle, ?_⟩
      intro s' related
      obtain ⟨u', first', related⟩ := step related first middle
      obtain ⟨t', rest', related⟩ := later u' related
      refine ⟨t', ?_, related⟩
      rw [List.foldlM_cons]
      exact Option.bind_eq_some_iff.2 ⟨u', first', rest'⟩

structure MethodTable.Embeds (K : Method → Method → Prop) (table larger : MethodTable) : Prop where
  find {name : Text} {m : Method} : table.find? name = some m →
    ∃ m', larger.find? name = some m' ∧ K m m'
  signature {m m' : Method} : K m m' → m'.toSignature = m.toSignature

/-! ## Values -/

namespace Stack.Simulation

variable {names : List Text} {R : Stack → Stack → Prop} {s s' t : Stack}

theorem hasType (sim : Simulation names R) (related : R s s') {x : Text} {type : ValueType}
    (h : Value.HasType s x type) : Value.HasType s' x type := by
  cases h with
  | literal form => exact .literal form
  | named legal found filled =>
      obtain ⟨v', found', filled', same⟩ := sim.lookup related found filled
      rw [← same]
      exact .named legal found' filled'

theorem stored (sim : Simulation names R) (related : R s s') {target : Option Text} {x : Text}
    {type : ValueType} (h : Value.stored s target x = .ok type) :
    Value.stored s' target x = .ok type := by
  obtain ⟨typed, other⟩ := Value.stored_ok.1 h
  exact Value.stored_ok.2 ⟨sim.hasType related typed, other⟩

theorem checkOperands (sim : Simulation names R) (related : R s s') {position : Nat}
    {parts : List Text} (h : Condition.checkOperands s position parts = .ok ()) :
    Condition.checkOperands s' position parts = .ok () := by
  induction parts generalizing position with
  | nil => rfl
  | cons part parts ih =>
      rw [Condition.checkOperands] at h ⊢
      cases empty : (Text.trim part).isEmpty with
      | true =>
          simp only [empty, ↓reduceIte] at h
          exact absurd (bind_eq_ok.1 h).choose_spec.1 throw_ne_ok
      | false =>
          simp only [empty, Bool.false_eq_true, ↓reduceIte] at h ⊢
          obtain ⟨type, operand, rest⟩ := bind_eq_ok.1 h
          obtain ⟨typed, truth⟩ := Value.operand_ok.1 operand
          exact bind_eq_ok.2
            ⟨type, Value.operand_ok.2 ⟨sim.hasType related typed, truth⟩, ih rest⟩

theorem condition (sim : Simulation names R) (related : R s s') {x : Text} {block : Clause.Block}
    (h : Condition.check s x = .ok block) : Condition.check s' x = .ok block := by
  unfold Condition.check at h ⊢
  cases shape : Clause.condition? x with
  | none =>
      rw [shape] at h
      cases h
  | some parts =>
      rw [shape] at h
      obtain ⟨_, inner, rfl⟩ := map_eq_ok.1 h
      refine map_eq_ok.2 ⟨(), ?_, rfl⟩
      simp only [Condition.checkInner] at inner ⊢
      split at inner
      · cases inner
      · split at inner
        · cases inner
        · split at inner
          · cases inner
          · simp only [*, Bool.false_eq_true, ↓reduceIte]
            exact sim.checkOperands related inner

theorem gives (sim : Simulation names R) (related : R s s') {x : Text} {given : List ValueType}
    (h : Call.Gives s x given) : Call.Gives s' x given := by
  obtain ⟨arguments, lists, typed⟩ := h
  exact ⟨arguments, lists, typed.imp fun _ _ => sim.hasType related⟩

theorem call (sim : Simulation names R) {K : Method → Method → Prop} {table larger : MethodTable}
    (embeds : table.Embeds K larger) (related : R s s') {x : Text} {m : Method}
    (h : Call.check s table x = .ok m) : ∃ m', Call.check s' larger x = .ok m' := by
  obtain ⟨call, given, shape, ended, found, gives, fits⟩ := Call.check_ok.1 h
  obtain ⟨m', found', counterpart⟩ := embeds.find found
  refine ⟨m', Call.check_ok.2 ⟨call, given, shape, ended, found', sim.gives related gives, ?_⟩⟩
  rwa [embeds.signature counterpart]

/-! ## Binders -/

theorem initialValue (sim : Simulation names R) (related : R s s') {final : Bool} {name : Text}
    {value : Option Text} {initial : Option ValueType}
    (h : Binding.initialValue s final name value = .ok initial) :
    Binding.initialValue s' final name value = .ok initial := by
  match value with
  | none => exact h
  | some [] => exact h
  | some (c :: cs) =>
      obtain ⟨type, stored, rfl⟩ := map_eq_ok.1 h
      exact map_eq_ok.2 ⟨type, sim.stored related stored, rfl⟩

theorem declareOne (sim : Simulation names R) (related : R s s') {final : Bool} {type : ValueType}
    {binder : Text} {v : Variable} (h : Binding.declareOne final type s binder = .ok (t, v))
    (clear : t.Avoids names) :
    ∃ t', Binding.declareOne final type s' binder = .ok (t', v) ∧ R t t' := by
  obtain ⟨name, value, initial, cut, legal, read, made, declared⟩ := Binding.declareOne_iff.1 h
  obtain ⟨t', declared', after⟩ := sim.declare related declared clear
  exact ⟨t', Binding.declareOne_iff.2
    ⟨name, value, initial, cut, legal, sim.initialValue related read, made, declared'⟩, after⟩

theorem assignOne (sim : Simulation names R) (related : R s s') {binder : Text} {w : Variable}
    (h : Binding.assignOne s binder = .ok (t, w)) :
    ∃ t' w', Binding.assignOne s' binder = .ok (t', w') ∧ R t t' := by
  obtain ⟨name, value, given, cut, filled, legal, stored, assigned⟩ := Binding.assignOne_iff.1 h
  obtain ⟨t', w', assigned', after⟩ := sim.assign related assigned
  exact ⟨t', w', Binding.assignOne_iff.2
    ⟨name, value, given, cut, filled, legal, sim.stored related stored, assigned'⟩, after⟩

theorem params (sim : Simulation names R) {params : List Param}
    (h : params.foldlM (fun s p => (s.declare p.asVariable).toOption) s = some t)
    (clear : t.Avoids names) :
    s.Avoids names ∧ ∀ s', R s s' →
      ∃ t', params.foldlM (fun s p => (s.declare p.asVariable).toOption) s' = some t' ∧ R t t' := by
  refine foldlM_simulation ?_ ?_ h clear
  · intro s p t declared clear
    exact clear.mono (globalNames_declare (toOption_eq_some.1 declared))
  · intro s s' p t related declared clear
    obtain ⟨t', declared', after⟩ := sim.declare related (toOption_eq_some.1 declared) clear
    exact ⟨t', toOption_eq_some.2 declared', after⟩

theorem takeAll {one : Stack → Text → Except Violation (Stack × Variable)}
    (grows : ∀ {s t binder v}, one s binder = .ok (t, v) → s.globalNames ⊆ t.globalNames)
    (step : ∀ {s s' t binder v}, R s s' → one s binder = .ok (t, v) → t.Avoids names →
      ∃ t' v', one s' binder = .ok (t', v') ∧ R t t')
    {list : Text} (h : (Binding.takeAll one s list).success? = some t) (clear : t.Avoids names) :
    s.Avoids names ∧
      ∀ s', R s s' → ∃ t', (Binding.takeAll one s' list).success? = some t' ∧ R t t' := by
  simp only [Binding.success?_takeAll] at h ⊢
  obtain ⟨binders, split, taken⟩ := Option.bind_eq_some_iff.1 h
  simp only [split, Option.bind_some]
  have read {s t : Stack} {binder : Text} :
      (one s binder).toOption.map Prod.fst = some t ↔ ∃ v, one s binder = .ok (t, v) := by
    simp [toOption_eq_some]
  refine foldlM_simulation ?_ ?_ taken clear
  · intro s binder t first clear
    obtain ⟨v, first⟩ := read.1 first
    exact clear.mono (grows first)
  · intro s s' binder t related first clear
    obtain ⟨v, first⟩ := read.1 first
    obtain ⟨t', v', first', after⟩ := step related first clear
    exact ⟨t', read.2 ⟨v', first'⟩, after⟩

theorem declaration (sim : Simulation names R) {x : Text}
    (h : (Binding.declare s x).success? = some t) (clear : t.Avoids names) :
    s.Avoids names ∧ ∀ s', R s s' → ∃ t', (Binding.declare s' x).success? = some t' ∧ R t t' := by
  simp only [Binding.success?_declare] at h ⊢
  split at h
  · obtain ⟨d, shape, taken⟩ := Option.bind_eq_some_iff.1 h
    simp only [Option.bind_some, *, ↓reduceIte]
    refine takeAll ?_ ?_ taken clear
    · intro s t binder v declared
      obtain ⟨_, _, -, -, -, -, declared, -⟩ := Binding.declareOne_ok declared
      exact globalNames_declare declared
    · intro s s' t binder v related declared clear
      obtain ⟨t', declared', after⟩ := sim.declareOne related declared clear
      exact ⟨t', v, declared', after⟩
  · cases h

theorem assignment (sim : Simulation names R) {x : Text}
    (h : (Binding.assign s x).success? = some t) (clear : t.Avoids names) :
    s.Avoids names ∧ ∀ s', R s s' → ∃ t', (Binding.assign s' x).success? = some t' ∧ R t t' := by
  simp only [Binding.success?_assign] at h ⊢
  split at h
  · simp only [*, ↓reduceIte]
    refine takeAll ?_ ?_ h clear
    · intro s t binder w assigned
      obtain ⟨_, _, _, -, -, -, assigned⟩ := Binding.assignOne_ok assigned
      rw [globalNames_assign assigned]
      exact List.Subset.refl _
    · intro s s' t binder w related assigned _
      exact sim.assignOne related assigned
  · cases h

end Stack.Simulation

/-! ## Lines -/

namespace State

structure Related (K : Method → Method → Prop) (R : Stack → Stack → Prop) (s s' : State) : Prop where
  stack : R s.stack s'.stack
  method : Option.Rel K s.method s'.method
  previous : s.method.isSome = true → s'.previous = s.previous

theorem Related.outside {K : Method → Method → Prop} {R : Stack → Stack → Prop} {s s' : Stack}
    (related : R s s') (previous previous' : Option Text) :
    Related K R ⟨s, none, previous⟩ ⟨s', none, previous'⟩ :=
  ⟨related, .none, fun inside => absurd inside Bool.false_ne_true⟩

section Simulation

variable {names : List Text} {R : Stack → Stack → Prop} {K : Method → Method → Prop}
  {table larger : MethodTable}

theorem enter_simulation (sim : Stack.Simulation names R) (embeds : table.Embeds K larger)
    {s t : Stack} {x : Text} {m : Method} (entered : enter s table x = ⟨t, .ok m⟩)
    (clear : t.Avoids names) :
    s.Avoids names ∧
      ∀ s', R s s' → ∃ t' m', enter s' larger x = ⟨t', .ok m'⟩ ∧ R t t' ∧ K m m' := by
  obtain ⟨signature, header, found, declared⟩ := enter_iff.1 entered
  obtain ⟨m', found', counterpart⟩ := embeds.find found
  obtain ⟨before, step⟩ := sim.params declared clear
  refine ⟨?_, ?_⟩
  · rwa [Stack.Avoids, Stack.globalNames_push] at before
  · intro s' related
    obtain ⟨t', declared', after⟩ := step _ (sim.push _ related)
    refine ⟨t', m', enter_iff.2 ⟨signature, header, found', ?_⟩, after, counterpart⟩
    rwa [embeds.signature counterpart]

theorem next?_simulation (sim : Stack.Simulation names R) (embeds : table.Embeds K larger)
    {s t : State} {l : Line} (taken : s.next? table l = some t) (clear : t.stack.Avoids names) :
    s.stack.Avoids names ∧
      ∀ s', Related K R s s' → ∃ t', s'.next? larger l = some t' ∧ Related K R t t' := by
  obtain ⟨layout, step⟩ := next?_eq_some.1 taken
  cases step with
  | declaration kind bound =>
      obtain ⟨before, step⟩ := sim.declaration bound clear
      refine ⟨before, ?_⟩
      rintro ⟨stack', method', previous'⟩ ⟨related, current, -⟩
      obtain ⟨t', bound', after⟩ := step stack' related
      exact ⟨_, next?_eq_some.2 ⟨layout, .declaration kind bound'⟩, after, current, fun _ => rfl⟩
  | assignment kind bound =>
      obtain ⟨before, step⟩ := sim.assignment bound clear
      refine ⟨before, ?_⟩
      rintro ⟨stack', method', previous'⟩ ⟨related, current, -⟩
      obtain ⟨t', bound', after⟩ := step stack' related
      exact ⟨_, next?_eq_some.2 ⟨layout, .assignment kind bound'⟩, after, current, fun _ => rfl⟩
  | openMethod kind entered =>
      obtain ⟨before, step⟩ := enter_simulation sim embeds entered clear
      refine ⟨before, ?_⟩
      rintro ⟨stack', _, previous'⟩ ⟨related, ⟨⟩, -⟩
      obtain ⟨t', m', entered', after, counterpart⟩ := step stack' related
      exact ⟨_, next?_eq_some.2 ⟨layout, .openMethod kind entered'⟩, after, .some counterpart,
        fun _ => rfl⟩
  | openBlock kind checked =>
      refine ⟨by rwa [Stack.Avoids, Stack.globalNames_push] at clear, ?_⟩
      rintro ⟨stack', _, previous'⟩ ⟨related, ⟨counterpart⟩, -⟩
      have checked' := sim.condition related checked
      exact ⟨_, next?_eq_some.2 ⟨layout, .openBlock kind checked'⟩, sim.push _ related,
        .some counterpart, fun _ => rfl⟩
  | call kind checked =>
      refine ⟨clear, ?_⟩
      rintro ⟨stack', _, previous'⟩ ⟨related, ⟨counterpart⟩, -⟩
      obtain ⟨callee', checked'⟩ := sim.call embeds related checked
      exact ⟨_, next?_eq_some.2 ⟨layout, .call kind checked'⟩, related, .some counterpart,
        fun _ => rfl⟩
  | returning kind returns =>
      refine ⟨clear, ?_⟩
      rintro ⟨stack', _, previous'⟩ ⟨related, ⟨counterpart⟩, -⟩
      exact ⟨_, next?_eq_some.2 ⟨layout, .returning kind returns⟩, related, .some counterpart,
        fun _ => rfl⟩
  | closeBlock kind block =>
      refine ⟨by rwa [Stack.Avoids, Stack.globalNames_closed] at clear, ?_⟩
      rintro ⟨stack', _, previous'⟩ ⟨related, ⟨counterpart⟩, -⟩
      have block' := (sim.kind related).trans block
      exact ⟨_, next?_eq_some.2 ⟨layout, .closeBlock kind block'⟩, sim.closed related,
        .some counterpart, fun _ => rfl⟩
  | closeMethod kind body returns =>
      refine ⟨by rwa [Stack.Avoids, Stack.globalNames_closed] at clear, ?_⟩
      rintro ⟨stack', _, previous'⟩ ⟨related, ⟨counterpart⟩, same⟩
      -- The brace of a method is where the previous line counts.
      cases same rfl
      have body' : stack'.current.kind ≠ .condition := fun block =>
        body ((sim.kind related).symm.trans block)
      exact ⟨_, next?_eq_some.2 ⟨layout, .closeMethod kind body' returns⟩, sim.closed related,
        .none, fun _ => rfl⟩

theorem run?_simulation (sim : Stack.Simulation names R) (embeds : table.Embeds K larger)
    {s t : State} {lines : List Line} (run : s.run? table lines = some t)
    (clear : t.stack.Avoids names) {s' : State} (related : Related K R s s') :
    ∃ t', s'.run? larger lines = some t' ∧ Related K R t t' := by
  refine (foldlM_simulation (f := next? table) (g := next? larger)
    (P := fun u => u.stack.Avoids names) ?_ ?_ run clear).2 s' related
  · intro s l t taken clear
    exact (next?_simulation sim embeds taken clear).1
  · intro s s' l t related taken clear
    exact (next?_simulation sim embeds taken clear).2 s' related

end Simulation

/-! ## Numbers -/

theorem next?_congr (table : MethodTable) (s : State) {l k : Line} (same : l.text = k.text) :
    s.next? table l = s.next? table k := by
  unfold next? take
  rw [same]
  cases s.check table k.text with
  | mk left result => cases result <;> rfl

theorem run?_congr (table : MethodTable) (s : State) {lines others : List Line}
    (same : lines.map Line.text = others.map Line.text) :
    s.run? table lines = s.run? table others := by
  induction lines generalizing s others with
  | nil =>
      rw [List.map_nil, eq_comm, List.map_eq_nil_iff] at same
      rw [same]
  | cons l lines ih =>
      cases others with
      | nil => cases same
      | cons k others =>
          rw [List.map_cons, List.map_cons, List.cons.injEq] at same
          rw [run?_cons, run?_cons, next?_congr table s same.1]
          congr 1
          funext t
          exact ih t same.2

end State

def Method.Same (m m' : Method) : Prop := m'.toSignature = m.toSignature

theorem MethodTable.embeds_collect {lines others : List Line}
    (pass : (collect lines).failure = none) (pass' : (collect others).failure = none)
    (sub : lines.map Line.text ⊆ others.map Line.text) :
    (collect lines).state.Embeds Method.Same (collect others).state := by
  refine ⟨?_, id⟩
  intro name m found
  obtain ⟨named, l, member, declared, header⟩ := (find?_collect_iff pass).1 ⟨m, found, rfl⟩
  obtain ⟨k, inOthers, text⟩ := List.mem_map.1 (sub (List.mem_map_of_mem member))
  rw [← text] at header
  exact (find?_collect_iff pass').2 ⟨named, k, inOthers, by rwa [declares, text], header⟩

/-! ## Accepted runs -/

abbrev State.idle (g : Scope) (previous : Option Text) : State := ⟨⟨g, []⟩, none, previous⟩

theorem State.run?_idle {table larger : MethodTable} (embeds : table.Embeds Method.Same larger)
    {g h : Scope} {lines : List Line} {before after : Option Text}
    (run : (idle g before).run? table lines = some (idle h after)) (other : Option Text) :
    ∃ last, (idle g other).run? larger lines = some (idle h last) := by
  obtain ⟨⟨stack, method, last⟩, run', same, outside, -⟩ :=
    run?_simulation Stack.simulation_eq embeds run (by simp [Stack.Avoids])
      (.outside rfl before other)
  obtain rfl : ⟨h, []⟩ = stack := same
  obtain rfl : method = none := by
    cases outside
    rfl
  exact ⟨last, run'⟩

namespace Run

theorem accepted_with_iff {lines : List Line} {g : Scope} :
    (ofLines lines).accepted = true ∧ (ofLines lines).state.stack = ⟨g, []⟩ ↔
      (MethodTable.collect lines).failure = none ∧
        ∃ previous, State.initial.run? (MethodTable.collect lines).state lines =
          some (.idle g previous) := by
  have ends {final : State} (pass : (MethodTable.collect lines).failure = none)
      (run : State.initial.run? (MethodTable.collect lines).state lines = some final) :
      (ofLines lines).state = final := by
    rw [← State.success?_walk, Progress.success?_eq_some] at run
    simp [ofLines, state, pass, run.1]
  rw [accepted_iff]
  constructor
  · rintro ⟨⟨pass, ⟨stack, method, previous⟩, run, closed⟩, left⟩
    rw [ends pass run] at left
    obtain rfl : stack = ⟨g, []⟩ := left
    obtain rfl : method = none := by
      simp only [State.isClosed, Bool.and_eq_true, Option.isNone_iff_eq_none] at closed
      exact closed.1
    exact ⟨pass, previous, run⟩
  · rintro ⟨pass, previous, run⟩
    exact ⟨⟨pass, _, run, rfl⟩, by rw [ends pass run]⟩

theorem stack_of_accepted {run : Run} (h : run.accepted = true) :
    run.state.stack = ⟨run.state.stack.bottom, []⟩ := by
  apply Stack.eq_single_of_depth
  have closed : run.state.isClosed = true := by
    simp only [accepted, failure?, openEnd?, Option.isNone_iff_eq_none, Option.orElse_eq_none] at h
    simpa using h.2.2
  simp only [State.isClosed, Bool.and_eq_true, beq_iff_eq] at closed
  exact closed.2

end Run

end SJava
