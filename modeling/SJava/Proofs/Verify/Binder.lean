import SJava.Proofs.Attempt
import SJava.Proofs.Scope.Layers
import SJava.Verify.Binding

namespace SJava.Binding

theorem declareOne_iff {final : Bool} {type : ValueType} {s t : Stack} {binder : Text}
    {v : Variable} :
    declareOne final type s binder = .ok (t, v) ↔
      ∃ name value initial, parts binder = (name, value) ∧ Name.isVariable name = true ∧
        initialValue s final name value = .ok initial ∧
        Variable.declared name type final initial = .ok v ∧ s.declare v = .ok t := by
  unfold declareOne
  cases parts binder with
  | mk name value =>
      simp only
      cases legal : Name.isVariable name with
      | false =>
          simp only [Bool.not_false, ↓reduceIte]
          constructor
          · intro accepted
            exact absurd (bind_eq_ok.1 accepted).choose_spec.1 throw_ne_ok
          · rintro ⟨_, _, _, same, other, -⟩
            cases same
            rw [legal] at other
            cases other
      | true =>
          simp only [Bool.not_true, Bool.false_eq_true, ↓reduceIte, bind_eq_ok]
          constructor
          · rintro ⟨initial, read, w, made, larger, declared, same⟩
            cases same
            exact ⟨name, value, initial, rfl, legal, read, made, declared⟩
          · rintro ⟨_, _, initial, same, -, read, made, declared⟩
            cases same
            exact ⟨initial, read, v, made, t, declared, rfl⟩

theorem declareOne_ok {final : Bool} {type : ValueType} {s t : Stack} {binder : Text} {v : Variable}
    (h : declareOne final type s binder = .ok (t, v)) :
    ∃ name value, parts binder = (name, value) ∧ Name.isVariable name = true ∧
      (final = true → value.isSome = true) ∧ v = ⟨name, type, final, value.isSome⟩ ∧
      s.declare v = .ok t ∧
      ∀ x, value = some x → ∃ given, Value.stored s (some name) x = .ok given := by
  obtain ⟨name, value, initial, cut, legal, read, made, declared⟩ := declareOne_iff.1 h
  refine ⟨name, value, cut, legal, ?_⟩
  match value, read with
  | none, read =>
      cases sealed : final with
      | true => simp [initialValue, sealed] at read
      | false =>
          simp only [initialValue, sealed, Bool.false_eq_true, ↓reduceIte, Except.ok.injEq] at read
          subst read sealed
          simp only [Variable.declared, Except.ok.injEq] at made
          exact ⟨by simp, made.symm, declared, by simp⟩
  | some [], read => simp [initialValue] at read
  | some (c :: cs), read =>
      obtain ⟨given, stored, rfl⟩ := map_eq_ok.1 read
      obtain ⟨-, rfl⟩ := Variable.store_ok.1 made
      exact ⟨by simp, rfl, declared, by simpa using ⟨given, stored⟩⟩

theorem assignOne_iff {s t : Stack} {binder : Text} {w : Variable} :
    assignOne s binder = .ok (t, w) ↔
      ∃ name value given, parts binder = (name, some value) ∧ value ≠ [] ∧
        Name.isVariable name = true ∧ Value.stored s (some name) value = .ok given ∧
        s.assign name given = .ok (t, w) := by
  unfold assignOne
  cases parts binder with
  | mk name value =>
      simp only
      cases legal : Name.isVariable name with
      | false =>
          simp only [Bool.not_false, ↓reduceIte]
          constructor
          · intro accepted
            exact absurd (bind_eq_ok.1 accepted).choose_spec.1 throw_ne_ok
          · rintro ⟨_, _, _, same, -, other, -⟩
            cases same
            rw [legal] at other
            cases other
      | true =>
          simp only [Bool.not_true, Bool.false_eq_true, ↓reduceIte]
          match value with
          | none => exact ⟨fun h => absurd h throw_ne_ok, by rintro ⟨_, _, _, same, -⟩; cases same⟩
          | some [] =>
              refine ⟨fun h => absurd h throw_ne_ok, ?_⟩
              rintro ⟨_, _, _, same, filled, -⟩
              cases same
              exact absurd rfl filled
          | some (c :: cs) =>
              constructor
              · intro accepted
                obtain ⟨given, stored, assigned⟩ := bind_eq_ok.1 accepted
                exact ⟨name, c :: cs, given, rfl, by simp, legal, stored, assigned⟩
              · rintro ⟨_, _, given, same, -, -, stored, assigned⟩
                cases same
                exact bind_eq_ok.2 ⟨given, stored, assigned⟩

theorem assignOne_ok {s t : Stack} {binder : Text} {w : Variable}
    (h : assignOne s binder = .ok (t, w)) :
    ∃ name value given, parts binder = (name, some value) ∧ Name.isVariable name = true ∧
      Value.stored s (some name) value = .ok given ∧ s.assign name given = .ok (t, w) := by
  obtain ⟨name, value, given, cut, -, legal, stored, assigned⟩ := assignOne_iff.1 h
  exact ⟨name, value, given, cut, legal, stored, assigned⟩

theorem success?_takeAll (one : Stack → Text → Except Violation (Stack × Variable)) (s : Stack)
    (list : Text) :
    (takeAll one s list).success? = (Clause.items list).toOption.bind fun binders =>
      binders.foldlM (fun t binder => (one t binder).toOption.map Prod.fst) s := by
  unfold takeAll
  cases Clause.items list with
  | error v => rfl
  | ok binders =>
      have each : (fun t binder => (Attempt.ofExcept t (one t binder)).success?) =
          fun t binder => (one t binder).toOption.map Prod.fst := by
        funext t binder
        cases one t binder <;> rfl
      change (Attempt.inSequence (fun t binder => Attempt.ofExcept t (one t binder)) s
        binders).attempt.success? =
          binders.foldlM (fun t binder => (one t binder).toOption.map Prod.fst) s
      rw [Progress.success?_attempt, Attempt.success?_inSequence, each]

theorem success?_declare (s : Stack) (t : Text) :
    (declare s t).success? = if Clause.isTerminated t then
      (Clause.declaration? (Clause.body t)).bind fun d =>
        (takeAll (declareOne d.final d.type) s d.binders).success?
      else none := by
  unfold declare
  cases Clause.isTerminated t with
  | false => rfl
  | true => cases Clause.declaration? (Clause.body t) <;> rfl

theorem success?_assign (s : Stack) (t : Text) :
    (assign s t).success? = if Clause.isTerminated t then
      (takeAll assignOne s (Clause.body t)).success? else none := by
  unfold assign
  cases Clause.isTerminated t <;> rfl

section Lists

variable {P : Stack → Prop}

theorem takeAll_state {one : Stack → Text → Except Violation (Stack × Variable)} {s : Stack}
    (list : Text) (start : P s)
    (next : ∀ {s t binder v}, one s binder = .ok (t, v) → P s → P t) :
    P (takeAll one s list).state := by
  unfold takeAll
  split
  · exact start
  · refine Attempt.inSequence_state start ?_
    intro u holds binder _
    cases taken : one u binder with
    | error v => exact holds
    | ok pair => exact next (t := pair.1) (v := pair.2) taken holds

theorem declare_state {s : Stack} (text : Text) (start : P s)
    (next : ∀ {final type s t binder v}, declareOne final type s binder = .ok (t, v) → P s → P t) :
    P (declare s text).state := by
  unfold declare
  split
  · exact start
  · split
    · exact start
    · exact takeAll_state _ start next

theorem assign_state {s : Stack} (text : Text) (start : P s)
    (next : ∀ {s t binder w}, assignOne s binder = .ok (t, w) → P s → P t) :
    P (assign s text).state := by
  unfold assign
  split
  · exact start
  · exact takeAll_state _ start next

end Lists

end SJava.Binding
