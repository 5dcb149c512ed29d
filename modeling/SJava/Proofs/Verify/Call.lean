import SJava.Proofs.Listing
import SJava.Proofs.Verify.Step
import SJava.Proofs.Verify.Value

namespace SJava

namespace MethodTable

def Accepts (params given : List ValueType) : Prop :=
  List.Forall₂ (fun type value => type.accepts value = true) params given

/-- The first place, counted from 0, where an argument does not fit its parameter. -/
structure FirstMismatch (params given : List ValueType) (i : Nat) (type value : ValueType) :
    Prop where
  param : params[i]? = some type
  argument : given[i]? = some value
  refused : type.accepts value = false
  before : ∀ j < i, ∀ p g, params[j]? = some p → given[j]? = some g → p.accepts g = true

theorem checkTypes_ok {position : Nat} {params given : List ValueType}
    (same : params.length = given.length) :
    checkTypes position params given = .ok () ↔ Accepts params given := by
  unfold Accepts
  induction params generalizing position given with
  | nil =>
      cases given with
      | nil => simp [checkTypes]
      | cons => cases same
  | cons type params ih =>
      cases given with
      | nil => cases same
      | cons value given =>
          rw [checkTypes, List.forall₂_cons]
          split
          · rename_i accepted
            rw [ih (Nat.succ.inj same)]
            simp [accepted]
          · rename_i refused
            simp [refused]

theorem checkTypes_error {position : Nat} {params given : List ValueType} {v : Violation}
    (h : checkTypes position params given = .error v) :
    ∃ i type value, FirstMismatch params given i type value ∧
      v = .wrongArgument (position + i) type value := by
  induction params generalizing position given with
  | nil => cases h
  | cons type params ih =>
      cases given with
      | nil => cases h
      | cons value given =>
          rw [checkTypes] at h
          split at h
          · rename_i accepted
            obtain ⟨i, expected, actual, first, rfl⟩ := ih h
            refine ⟨i + 1, expected, actual, ⟨first.param, first.argument, first.refused, ?_⟩, ?_⟩
            · intro j below p g param argument
              cases j with
              | zero =>
                  cases param
                  cases argument
                  exact accepted
              | succ j => exact first.before j (by omega) p g param argument
            · rw [Nat.add_assoc, Nat.add_comm 1 i]
          · rename_i refused
            cases h
            exact ⟨0, type, value, ⟨rfl, rfl, by simpa using refused, by omega⟩, rfl⟩

theorem checkCall_eq {table : MethodTable} {name : Text} {given : List ValueType} {m : Method}
    (found : table.find? name = some m) (count : given.length = m.params.length) :
    table.checkCall name given = (checkTypes 1 m.types given).map fun _ => m := by
  have known : table.lookup name = .ok m := lookup_ok.2 found
  simp only [checkCall, known, count, bind, Except.bind, ne_eq, not_true_eq_false, ↓reduceIte]
  cases checkTypes 1 m.types given <;> rfl

theorem checkCall_ok {table : MethodTable} {name : Text} {given : List ValueType} {m : Method} :
    table.checkCall name given = .ok m ↔ table.find? name = some m ∧ Accepts m.types given := by
  constructor
  · intro accepted
    obtain ⟨other, known, rest⟩ := bind_eq_ok.1 accepted
    have found := lookup_ok.1 known
    by_cases count : given.length = other.params.length
    · rw [checkCall_eq found count] at accepted
      obtain ⟨_, checked, rfl⟩ := map_eq_ok.1 accepted
      exact ⟨found, (checkTypes_ok (by simp [Signature.types, count])).1 checked⟩
    · rw [if_pos (Ne.symm count)] at rest
      exact absurd (bind_eq_ok.1 rest).choose_spec.1 throw_ne_ok
  · rintro ⟨found, accepted⟩
    have count : m.types.length = given.length := accepted.length_eq
    rw [checkCall_eq found (by simpa [Signature.types] using count.symm),
      (checkTypes_ok count).2 accepted]
    rfl

end MethodTable

namespace Call

/-- The arguments in a text between parentheses: none if it is blank, and otherwise its parts, of
which none is empty and after which no comma stands. -/
def Lists (t : Text) (arguments : List Text) : Prop :=
  (Text.trim t = [] ∧ arguments = []) ∨
    (Text.trim t ≠ [] ∧ Text.endsIn ',' (Text.trim t) = false ∧
      arguments = (Quotation.split [','] (Text.trim t)).map Text.trim ∧ ∀ a ∈ arguments, a ≠ [])

def Gives (stack : Stack) (t : Text) (given : List ValueType) : Prop :=
  ∃ arguments, Lists t arguments ∧ List.Forall₂ (Value.HasType stack) arguments given

theorem types_ok {stack : Stack} {method : Text} {position : Nat} {parts : List Text}
    {given : List ValueType} :
    types stack method position parts = .ok given ↔
      (∀ a ∈ parts.map Text.trim, a ≠ []) ∧
        List.Forall₂ (Value.HasType stack) (parts.map Text.trim) given := by
  induction parts generalizing position given with
  | nil => simp [types, eq_comm]
  | cons part parts ih =>
      rw [types, List.map_cons, List.forall_mem_cons]
      by_cases empty : Text.trim part = []
      · simp only [empty, List.isEmpty_nil, ↓reduceIte, ne_eq, not_true_eq_false, false_and,
          iff_false]
        intro accepted
        exact absurd (bind_eq_ok.1 accepted).choose_spec.1 throw_ne_ok
      · have kept : (Text.trim part).isEmpty = false := by simpa using empty
        simp only [kept, Bool.false_eq_true, ↓reduceIte, bind_eq_ok, Value.argument_ok, ih]
        constructor
        · rintro ⟨type, typed, others, ⟨filled, rest⟩, same⟩
          cases same
          exact ⟨⟨empty, filled⟩, .cons typed rest⟩
        · rintro ⟨⟨-, filled⟩, typed⟩
          obtain ⟨type, others, first, rest, rfl⟩ := List.forall₂_cons_left_iff.1 typed
          exact ⟨type, first, others, ⟨filled, rest⟩, rfl⟩

theorem argumentTypes_ok {stack : Stack} {method t : Text} {given : List ValueType} :
    argumentTypes stack method t = .ok given ↔ Gives stack t given := by
  unfold Gives Lists
  simp only [argumentTypes]
  by_cases blank : Text.trim t = []
  · rw [blank]
    constructor
    · intro accepted
      cases accepted
      exact ⟨[], .inl ⟨rfl, rfl⟩, .nil⟩
    · rintro ⟨_, ⟨-, rfl⟩ | ⟨filled, -⟩, typed⟩
      · cases typed
        rfl
      · exact absurd rfl filled
  · have kept : (Text.trim t).isEmpty = false := by simpa using blank
    rw [kept, if_neg Bool.false_ne_true]
    cases comma : Text.endsIn ',' (Text.trim t) with
    | true => simp [blank]
    | false =>
        rw [if_neg Bool.false_ne_true, types_ok]
        constructor
        · rintro ⟨filled, typed⟩
          exact ⟨_, .inr ⟨blank, rfl, rfl, filled⟩, typed⟩
        · rintro ⟨_, ⟨empty, -⟩ | ⟨-, -, rfl, filled⟩, typed⟩
          · exact absurd empty blank
          · exact ⟨filled, typed⟩

theorem check_eq {stack : Stack} {table : MethodTable} {t : Text} {call : Clause.Call}
    {given : List ValueType} {m : Method} (shape : Clause.call? t = some call)
    (ended : call.terminated = true) (found : table.find? call.method = some m)
    (gives : Gives stack call.arguments given) :
    check stack table t = table.checkCall call.method given := by
  have known : table.lookup call.method = .ok m := MethodTable.lookup_ok.2 found
  have typed : argumentTypes stack call.method call.arguments = .ok given :=
    argumentTypes_ok.2 gives
  simp [check, shape, ended, known, typed, bind, Except.bind]

theorem check_ok {stack : Stack} {table : MethodTable} {t : Text} {m : Method} :
    check stack table t = .ok m ↔
      ∃ call given, Clause.call? t = some call ∧ call.terminated = true ∧
        table.find? call.method = some m ∧ Gives stack call.arguments given ∧
        MethodTable.Accepts m.types given := by
  constructor
  · intro accepted
    unfold check at accepted
    split at accepted
    · cases accepted
    · rename_i call shape
      cases ended : call.terminated with
      | false => simp [ended] at accepted
      | true =>
          simp only [ended, Bool.not_true, Bool.false_eq_true, ↓reduceIte] at accepted
          obtain ⟨_, -, accepted⟩ := bind_eq_ok.1 accepted
          obtain ⟨given, typed, accepted⟩ := bind_eq_ok.1 accepted
          obtain ⟨found, fits⟩ := MethodTable.checkCall_ok.1 accepted
          exact ⟨call, given, shape, ended, found, argumentTypes_ok.1 typed, fits⟩
  · rintro ⟨call, given, shape, ended, found, gives, fits⟩
    rw [check_eq shape ended found gives]
    exact MethodTable.checkCall_ok.2 ⟨found, fits⟩

/-- All that a call needs but for the types of its arguments: some line among `lines` is the header of
its method, its arguments are values, and there are as many of them as there are parameters. -/
structure Prepared (lines : List Line) (stack : Stack) (call : Clause.Call) (s : Signature)
    (given : List ValueType) : Prop where
  name : s.name = call.method
  header : ∃ l ∈ lines, MethodTable.declares l = true ∧ Signature.ofHeader l.text = .ok s
  gives : Gives stack call.arguments given
  count : given.length = s.types.length

end Call

namespace State

variable {table : MethodTable} {s : State} {l : Line}

theorem take_of_layout {v : Violation} (layout : Clause.checkLayout l.text = .error v) :
    (s.take table l).result = .error ⟨v, l.number⟩ := by
  simp only [take, check, layout, refuse, Attempt.test]

theorem take_call (layout : Clause.checkLayout l.text = .ok ())
    (kind : Kind.ofText l.text = .call) (inside : s.method.isSome = true) :
    (s.take table l).result = match Call.check s.stack table l.text with
      | .ok _ => .ok ⟨l, s, { s with previous := some l.text }⟩
      | .error v => .error ⟨v, l.number⟩ := by
  have inside : s.method.isNone = false := Option.isNone_eq_false_iff.2 inside
  simp only [take, check, layout, kind, handle, callOn, inside, Bool.false_eq_true, ↓reduceIte,
    Attempt.test]
  cases Call.check s.stack table l.text <;> rfl

theorem take_call_ok (kind : Kind.ofText l.text = .call) (inside : s.method.isSome = true) :
    (∃ step, (s.take table l).result = .ok step) ↔
      Clause.checkLayout l.text = .ok () ∧ ∃ m, Call.check s.stack table l.text = .ok m := by
  cases layout : Clause.checkLayout l.text with
  | error v => simp [take_of_layout layout]
  | ok =>
      rw [take_call layout kind inside]
      cases Call.check s.stack table l.text <;> simp

end State

theorem Run.failure?_of_walk {listing : Listing} {f : Failure}
    (pass : (MethodTable.collect listing.ascending).failure = none)
    (failed : (Run.walk (MethodTable.collect listing.ascending).state .initial
      listing.ascending).failure = some f) : (Run.ofListing listing).failure? = some f := by
  simp [Run.failure?, Run.ofListing, Run.ofLines, pass, failed]

theorem Run.failure?_of_collect {listing : Listing} {f : Failure}
    (failed : (MethodTable.collect listing.ascending).failure = some f) :
    (Run.ofListing listing).failure? = some f := by
  simp [Run.failure?, Run.ofListing, Run.ofLines, failed]

/-- The first pass succeeds if and only if every header can be read and no name is declared twice, and
otherwise the run fails at the first header where this breaks. If it succeeds, a call that the second
pass reaches in a method is accepted if and only if it has the layout of one statement and ends in a
semicolon, some header anywhere in the program declares its method, its arguments are values in the
number of the parameters, and every parameter accepts its argument. If only the last is missing, the
run fails at the first argument that does not fit. -/
theorem calls_resolved_by_any_header (listing : Listing) :
    let lines := listing.ascending
    let collected := MethodTable.collect lines
    (collected.failure = none ↔ MethodTable.Registrable lines) ∧
    (∀ f, collected.failure = some f →
      MethodTable.FirstFault lines f ∧ (Run.ofListing listing).failure? = some f) ∧
    (collected.failure = none → ∀ before l after, lines = before ++ l :: after →
      let reached := Run.walk collected.state .initial before
      reached.failure = none → reached.state.method.isSome = true → Kind.ofText l.text = .call →
      ∃ call, Clause.call? l.text = some call ∧
        ((∃ step, (reached.state.take collected.state l).result = .ok step) ↔
          Clause.checkLayout l.text = .ok () ∧ Clause.isTerminated l.text = true ∧
          ∃ s given, Call.Prepared listing.lines reached.state.stack call s given ∧
            MethodTable.Accepts s.types given) ∧
        ∀ s given, Clause.checkLayout l.text = .ok () → Clause.isTerminated l.text = true →
          Call.Prepared listing.lines reached.state.stack call s given →
          ¬MethodTable.Accepts s.types given →
          ∃ i type value, MethodTable.FirstMismatch s.types given i type value ∧
            (Run.ofListing listing).failure? = some ⟨.wrongArgument (i + 1) type value, l.number⟩) := by
  intro lines collected
  refine ⟨MethodTable.collect_failure_eq_none, ?_, ?_⟩
  · intro f failed
    exact ⟨MethodTable.firstFault_of_collect failed, Run.failure?_of_collect failed⟩
  · intro pass before l after split reached passed inside kind
    have shaped : (Clause.call? l.text).isSome = true := Kind.fits_of_ofText kind (by decide)
    obtain ⟨call, shape⟩ := Option.isSome_iff_exists.1 shaped
    have member {k : Line} : k ∈ listing.lines ↔ k ∈ lines :=
      listing.perm_ascending.mem_iff.symm
    -- The method that the table has under the name, and the header in the program.
    have known {s : Signature} : (∃ m, collected.state.find? call.method = some m ∧
        m.toSignature = s) ↔ s.name = call.method ∧ ∃ k ∈ listing.lines,
          MethodTable.declares k = true ∧ Signature.ofHeader k.text = .ok s := by
      simp only [member]
      exact MethodTable.find?_collect_iff pass
    refine ⟨call, shape, ?_, ?_⟩
    · rw [State.take_call_ok kind inside]
      refine and_congr_right fun layout => ?_
      rw [← Clause.terminated_iff_isTerminated layout shape]
      constructor
      · rintro ⟨m, accepted⟩
        obtain ⟨other, given, same, ended, found, gives, fits⟩ := Call.check_ok.1 accepted
        cases shape.symm.trans same
        obtain ⟨name, header⟩ := known.1 ⟨m, found, rfl⟩
        exact ⟨ended, m.toSignature, given, ⟨name, header, gives, fits.length_eq.symm⟩, fits⟩
      · rintro ⟨ended, s, given, prepared, fits⟩
        obtain ⟨m, found, rfl⟩ := known.2 ⟨prepared.name, prepared.header⟩
        exact ⟨m, Call.check_ok.2 ⟨call, given, shape, ended, found, prepared.gives, fits⟩⟩
    · intro s given layout ended prepared misfit
      obtain ⟨m, found, rfl⟩ := known.2 ⟨prepared.name, prepared.header⟩
      have count := prepared.count
      have ended := (Clause.terminated_iff_isTerminated layout shape).2 ended
      have checked : Call.check reached.state.stack collected.state l.text =
          (MethodTable.checkTypes 1 m.types given).map fun _ => m := by
        rw [Call.check_eq shape ended found prepared.gives,
          MethodTable.checkCall_eq found (by simpa [Signature.types] using count)]
      cases compared : MethodTable.checkTypes 1 m.types given with
      | ok => exact absurd ((MethodTable.checkTypes_ok count.symm).1 compared) misfit
      | error v =>
          obtain ⟨i, type, value, first, rfl⟩ := MethodTable.checkTypes_error compared
          refine ⟨i, type, value, first, Run.failure?_of_walk pass ?_⟩
          refine Attempt.failure_inSequence.2 ⟨before, l, after, split, passed, ?_⟩
          change (reached.state.take collected.state l).result = _
          rw [State.take_call layout kind inside, checked, compared, Nat.add_comm i 1]
          rfl

end SJava
