import SJava.Proofs.Attempt
import SJava.Proofs.Lexicon.Token
import SJava.Proofs.Method.Header
import SJava.Verify.Value

namespace SJava

namespace Value

/-- A literal, or an initialized variable in sight. -/
inductive HasType (stack : Stack) : Text → ValueType → Prop where
  | literal {t : Text} {type : ValueType} (form : Literal.type? t = some type) :
      HasType stack t type
  | named {t : Text} {v : Variable} (legal : Name.isVariable t = true)
      (found : stack.lookup? t = some v) (filled : v.initialized = true) : HasType stack t v.type

theorem hasType_of_literal {stack : Stack} {t : Text} {given type : ValueType}
    (form : Literal.type? t = some given) : HasType stack t type ↔ type = given := by
  constructor
  · intro typed
    cases typed with
    | literal other =>
        rw [form] at other
        exact (Option.some.inj other).symm
    | named legal =>
        rw [Literal.type?_of_isVariable legal] at form
        cases form
  · rintro rfl
    exact .literal form

theorem hasType_of_name {stack : Stack} {t : Text} {type : ValueType}
    (legal : Name.isVariable t = true) :
    HasType stack t type ↔
      ∃ v, stack.lookup? t = some v ∧ v.initialized = true ∧ v.type = type := by
  constructor
  · intro typed
    cases typed with
    | literal form =>
        rw [Literal.type?_of_isVariable legal] at form
        cases form
    | named _ found filled => exact ⟨_, found, filled, rfl⟩
  · rintro ⟨v, found, filled, rfl⟩
    exact .named legal found filled

theorem not_hasType {stack : Stack} {t : Text} {type : ValueType} (form : Literal.type? t = none)
    (illegal : Name.isVariable t = false) : ¬HasType stack t type := by
  intro typed
  cases typed with
  | literal other => simp [form] at other
  | named legal => simp [illegal] at legal

theorem stored_ok {stack : Stack} {target : Option Text} {t : Text} {type : ValueType} :
    stored stack target t = .ok type ↔
      HasType stack t type ∧ (Name.isVariable t = true → target ≠ some t) := by
  unfold stored
  cases legal : Name.isVariable t with
  | true =>
      rw [if_pos rfl, hasType_of_name legal]
      by_cases self : target = some t
      · simp [self]
      · rw [if_neg self, bind_eq_ok]
        constructor
        · rintro ⟨v, resolved, given⟩
          split at given
          · exact ⟨⟨v, Stack.resolve_ok.1 resolved, ‹_›, Except.ok.inj given⟩, fun _ => self⟩
          · cases given
        · rintro ⟨⟨v, found, filled, rfl⟩, -⟩
          exact ⟨v, Stack.resolve_ok.2 found, by rw [if_pos filled]⟩
  | false =>
      simp only [Bool.false_eq_true, ↓reduceIte, false_implies, and_true, literal]
      cases form : Literal.type? t with
      | some given => simp [hasType_of_literal form, eq_comm]
      | none => simp [not_hasType form legal]

theorem operand_ok {stack : Stack} {position : Nat} {t : Text} {type : ValueType} :
    operand stack position t = .ok type ↔ HasType stack t type ∧ type.isTruthValue = true := by
  unfold operand
  cases form : Literal.type? t with
  | some given =>
      rw [hasType_of_literal form]
      constructor
      · intro accepted
        simp only at accepted
        split at accepted
        · cases accepted
          exact ⟨rfl, ‹_›⟩
        · cases accepted
      · rintro ⟨rfl, truth⟩
        simp [truth]
  | none =>
      cases legal : Name.isVariable t with
      | false => simp [not_hasType form legal]
      | true =>
          rw [hasType_of_name legal]
          simp only [↓reduceIte, bind_eq_ok, Stack.resolve_ok]
          constructor
          · rintro ⟨v, found, accepted⟩
            split at accepted
            · cases accepted
            · rename_i truth
              split at accepted
              · cases accepted
                exact ⟨⟨v, found, ‹_›, rfl⟩, by simpa using truth⟩
              · cases accepted
          · rintro ⟨⟨v, found, filled, rfl⟩, truth⟩
            exact ⟨v, found, by simp [truth, filled]⟩

theorem argument_ok {stack : Stack} {method : Text} {position : Nat} {t : Text}
    {type : ValueType} : argument stack method position t = .ok type ↔ HasType stack t type := by
  unfold argument
  cases form : Literal.type? t with
  | some given => simp [hasType_of_literal form, eq_comm]
  | none =>
      cases legal : Name.isVariable t with
      | false => simp [not_hasType form legal]
      | true =>
          rw [hasType_of_name legal]
          cases found : stack.lookup? t with
          | none => simp
          | some v => cases filled : v.initialized <;> simp [filled]

end Value

/-- What a value is does not depend on where it is read. A text is stored in another variable with
some type if and only if it is an argument of that type, and it is an operand if that type is one of
truth values. A text that is neither a name nor a literal is refused alike everywhere. -/
theorem value_readers_agree (stack : Stack) (t : Text) :
    (∀ target, target ≠ some t → ∀ type,
      (∀ method position, Value.stored stack target t = .ok type ↔
        Value.argument stack method position t = .ok type) ∧
      ∀ position, Value.operand stack position t = .ok type ↔
        Value.stored stack target t = .ok type ∧ type.isTruthValue = true) ∧
    (Name.isVariable t = false → Literal.type? t = none → ∀ target method position,
      Value.stored stack target t = .error (.unknownValue t) ∧
      Value.argument stack method position t = .error (.unknownValue t) ∧
      Value.operand stack position t = .error (.unknownValue t) ∧
      (Violation.unknownValue t).category = .typing) := by
  constructor
  · intro target other type
    have stored : Value.stored stack target t = .ok type ↔ Value.HasType stack t type := by
      rw [Value.stored_ok]
      exact and_iff_left fun _ => other
    constructor
    · intro method position
      rw [stored, Value.argument_ok]
    · intro position
      rw [stored, Value.operand_ok]
  · intro illegal form target method position
    refine ⟨?_, ?_, ?_, rfl⟩
    · simp [Value.stored, Value.literal, illegal, form]
    · simp [Value.argument, illegal, form]
    · simp [Value.operand, illegal, form]

namespace Value

def counting : Stack where
  current :=
    { kind := .global, name := "__global__".toList
      vars := [⟨"count".toList, .int, false, true⟩], distinct := by decide }
  outer := []

theorem count_read_alike :
    some "total".toList ≠ some "count".toList ∧
      stored counting (some "total".toList) "count".toList = .ok .int ∧
      argument counting "add".toList 2 "count".toList = .ok .int ∧
      operand counting 1 "count".toList = .ok .int := by
  have other : some "total".toList ≠ some "count".toList := by decide
  have given : stored counting (some "total".toList) "count".toList = .ok .int := rfl
  obtain ⟨asArgument, asOperand⟩ := (value_readers_agree counting "count".toList).1 _ other .int
  exact ⟨other, given, (asArgument _ _).1 given, (asOperand _).2 ⟨given, rfl⟩⟩

end Value

end SJava
