import SJava.Proofs.Verify.Simulation

namespace SJava

def Line.renumbered (f : Int → Int) (l : Line) : Line := ⟨f l.number, l.text⟩

def Failure.renumbered (f : Int → Int) (x : Failure) : Failure := ⟨x.violation, f x.line⟩

def Method.renumbered (f : Int → Int) (m : Method) : Method := ⟨m.toSignature, f m.line⟩

/-! ## Tables -/

namespace MethodTable

def Agrees (table other : MethodTable) : Prop :=
  ∀ name, (other.find? name).map (fun m => m.params) = (table.find? name).map (fun m => m.params)

namespace Agrees

variable {table other : MethodTable}

theorem lookup (agree : table.Agrees other) (name : Text) :
    (∃ v, table.lookup name = .error v ∧ other.lookup name = .error v) ∨
      ∃ s n n', table.lookup name = .ok ⟨s, n⟩ ∧ other.lookup name = .ok ⟨s, n'⟩ := by
  have named {t : MethodTable} {m : Method} (found : t.find? name = some m) : m.name = name := by
    simpa using List.find?_some found
  have params := agree name
  unfold MethodTable.lookup
  cases found : table.find? name with
  | none =>
      rw [found, Option.map_none, Option.map_eq_none_iff] at params
      exact .inl ⟨_, rfl, by rw [params]⟩
  | some m =>
      rw [found, Option.map_some, Option.map_eq_some_iff] at params
      obtain ⟨m', found', params⟩ := params
      have same : m'.toSignature = m.toSignature := by
        rw [Signature.mk.injEq]
        exact ⟨(named found').trans (named found).symm, params⟩
      exact .inr ⟨m.toSignature, m.line, m'.line, rfl, by rw [found', ← same]⟩

theorem checkCall (agree : table.Agrees other) (name : Text) (given : List ValueType) :
    (other.checkCall name given).map Method.toSignature =
      (table.checkCall name given).map Method.toSignature := by
  unfold MethodTable.checkCall
  rcases agree.lookup name with ⟨v, unknown, unknown'⟩ | ⟨s, n, n', known, known'⟩
  · rw [unknown, unknown']
  · rw [known, known']
    simp only [bind, Except.bind]
    split
    · rfl
    · cases checkTypes 1 s.types given <;> rfl

theorem call (agree : table.Agrees other) (stack : Stack) (t : Text) :
    (Call.check stack other t).map Method.toSignature =
      (Call.check stack table t).map Method.toSignature := by
  unfold Call.check
  cases Clause.call? t with
  | none => rfl
  | some call =>
      simp only
      split
      · rfl
      · rcases agree.lookup call.method with ⟨v, unknown, unknown'⟩ | ⟨s, n, n', known, known'⟩
        · rw [unknown, unknown']
          rfl
        · rw [known, known']
          simp only [bind, Except.bind]
          cases Call.argumentTypes stack call.method call.arguments with
          | error v => rfl
          | ok given => exact agree.checkCall call.method given

theorem enter (agree : table.Agrees other) (stack : Stack) (t : Text) :
    (∃ left v, State.enter stack table t = ⟨left, .error v⟩ ∧
        State.enter stack other t = ⟨left, .error v⟩) ∨
      ∃ left s n n', State.enter stack table t = ⟨left, .ok ⟨s, n⟩⟩ ∧
        State.enter stack other t = ⟨left, .ok ⟨s, n'⟩⟩ := by
  unfold State.enter
  cases Signature.ofHeader t with
  | error v => exact .inl ⟨stack, v, rfl, rfl⟩
  | ok signature =>
      simp only [bind, Except.bind]
      rcases agree.lookup signature.name with ⟨v, unknown, unknown'⟩ | ⟨s, n, n', known, known'⟩
      · rw [unknown, unknown']
        exact .inl ⟨stack, v, rfl, rfl⟩
      · rw [known, known']
        simp only
        cases (Attempt.inSequence State.declareParam (stack.push (.empty .method s.name))
          s.params).attempt.result with
        | error v => exact .inl ⟨_, v, rfl, rfl⟩
        | ok done => exact .inr ⟨_, s, n, n', rfl, rfl⟩

end Agrees

end MethodTable

/-! ## States -/

namespace State

structure Alike (s s' : State) : Prop where
  stack : s'.stack = s.stack
  method : s'.method.map Method.toSignature = s.method.map Method.toSignature
  previous : s'.previous = s.previous

structure AlikeAfter (a a' : Attempt State Violation Unit) : Prop where
  result : a'.result = a.result
  state : a.state.Alike a'.state

variable {table other : MethodTable} {s s' : State}

theorem handle_outside (agree : table.Agrees other) {stack : Stack} {previous : Option Text}
    (t : Text) (kind : Kind) :
    AlikeAfter (handle table ⟨stack, none, previous⟩ t kind)
      (handle other ⟨stack, none, previous⟩ t kind) := by
  cases kind with
  | methodHeader =>
      simp only [handle, openMethod, Option.isSome_none, Bool.false_eq_true, ↓reduceIte]
      rcases agree.enter stack t with ⟨left, v, refused, refused'⟩ | ⟨left, s, n, n', entered, entered'⟩
      · rw [refused, refused']
        exact ⟨rfl, rfl, rfl, rfl⟩
      · rw [entered, entered']
        exact ⟨rfl, rfl, rfl, rfl⟩
  | conditionHeader | blockClose | declaration | assignment | returning | call | unrecognized =>
      exact ⟨rfl, rfl, rfl, rfl⟩

theorem handle_inside (agree : table.Agrees other) {stack : Stack} {m m' : Method}
    {previous : Option Text} (same : m'.toSignature = m.toSignature) (t : Text) (kind : Kind) :
    AlikeAfter (handle table ⟨stack, some m, previous⟩ t kind)
      (handle other ⟨stack, some m', previous⟩ t kind) := by
  have inside : (some m').map Method.toSignature = (some m).map Method.toSignature :=
    congrArg some same
  cases kind with
  | methodHeader | declaration | assignment | unrecognized => exact ⟨rfl, rfl, inside, rfl⟩
  | conditionHeader =>
      simp only [handle, openBlock, Option.isNone_some, Bool.false_eq_true, ↓reduceIte]
      cases Condition.check stack t <;> exact ⟨rfl, rfl, inside, rfl⟩
  | blockClose =>
      simp only [handle, closeBlock]
      split
      · exact ⟨rfl, rfl, inside, rfl⟩
      · split
        · exact ⟨rfl, rfl, rfl, rfl⟩
        · exact ⟨by rw [refuse, refuse, same]; rfl, rfl, inside, rfl⟩
  | call =>
      have forget (x : Except Violation Method) :
          x.map (fun _ => ()) = (x.map Method.toSignature).map fun _ => () := by
        cases x <;> rfl
      refine ⟨?_, rfl, inside, rfl⟩
      simp only [handle, callOn, Option.isNone_some, Bool.false_eq_true, ↓reduceIte, Attempt.test]
      rw [forget (Call.check stack other t), forget (Call.check stack table t), agree.call stack t]
  | returning =>
      simp only [handle, returnOn, Option.isNone_some, Bool.false_eq_true, ↓reduceIte]
      split
      · exact ⟨rfl, rfl, inside, rfl⟩
      · split <;> exact ⟨rfl, rfl, inside, rfl⟩

theorem Alike.handle (agree : table.Agrees other) (alike : s.Alike s') (t : Text) (kind : Kind) :
    AlikeAfter (s.handle table t kind) (s'.handle other t kind) := by
  obtain ⟨stack, method, previous⟩ := s
  obtain ⟨_, method', _⟩ := s'
  obtain ⟨rfl, same, rfl⟩ := alike
  cases method with
  | none =>
      obtain rfl : method' = none := by simpa using same
      exact handle_outside agree t kind
  | some m =>
      obtain ⟨m', rfl, signature⟩ := Option.map_eq_some_iff.1 same
      exact handle_inside agree signature t kind

theorem Alike.check (agree : table.Agrees other) (alike : s.Alike s') (t : Text) :
    AlikeAfter (s.check table t) (s'.check other t) := by
  unfold State.check
  cases Clause.checkLayout t with
  | error v => exact ⟨rfl, alike⟩
  | ok => exact alike.handle agree t _

/-! ## Runs -/

theorem Alike.take (agree : table.Agrees other) (alike : s.Alike s') (f : Int → Int) (l : Line) :
    (∃ left left' x, s.take table l = ⟨left, .error x⟩ ∧
        s'.take other (l.renumbered f) = ⟨left', .error (x.renumbered f)⟩ ∧ left.Alike left') ∨
      ∃ left left' step step', s.take table l = ⟨left, .ok step⟩ ∧
        s'.take other (l.renumbered f) = ⟨left', .ok step'⟩ ∧ left.Alike left' := by
  obtain ⟨result, after⟩ := alike.check agree l.text
  unfold State.take Line.renumbered
  generalize s.check table l.text = checked at result after ⊢
  generalize s'.check other l.text = checked' at result after ⊢
  obtain ⟨left, verdict⟩ := checked
  obtain ⟨left', _⟩ := checked'
  cases result
  cases verdict with
  | error v => exact .inl ⟨left, left', _, rfl, rfl, after⟩
  | ok => exact .inr ⟨_, _, _, _, rfl, rfl, after.stack, after.method, rfl⟩

theorem Alike.walk (agree : table.Agrees other) (alike : s.Alike s') (f : Int → Int)
    (lines : List Line) :
    (Run.walk table s lines).state.Alike
        (Run.walk other s' (lines.map (Line.renumbered f))).state ∧
      (Run.walk other s' (lines.map (Line.renumbered f))).failure =
        (Run.walk table s lines).failure.map (Failure.renumbered f) := by
  unfold Run.walk
  induction lines generalizing s s' with
  | nil => exact ⟨alike, rfl⟩
  | cons l lines ih =>
      rw [List.map_cons, Attempt.inSequence, Attempt.inSequence]
      rcases alike.take agree f l with
        ⟨left, left', x, refused, refused', after⟩ | ⟨left, left', _, _, taken, taken', after⟩
      · rw [refused, refused']
        exact ⟨after, rfl⟩
      · rw [taken, taken']
        exact ih after

end State

/-! ## The first pass -/

namespace MethodTable

def renumbered (f : Int → Int) (table : MethodTable) : MethodTable :=
  ⟨table.methods.map (Method.renumbered f)⟩

theorem agrees_renumbered (f : Int → Int) (table : MethodTable) :
    table.Agrees (table.renumbered f) := by
  intro name
  have names : (fun m : Method => m.name == name) ∘ Method.renumbered f = fun m => m.name == name :=
    rfl
  rw [find?, renumbered, List.find?_map, names, Option.map_map]
  rfl

theorem take_renumbered (f : Int → Int) (table : MethodTable) (l : Line) :
    (∃ x, table.take l = ⟨table, .error x⟩ ∧
        (table.renumbered f).take (l.renumbered f) =
          ⟨table.renumbered f, .error (x.renumbered f)⟩) ∨
      ∃ larger m, table.take l = ⟨larger, .ok m⟩ ∧
        (table.renumbered f).take (l.renumbered f) =
          ⟨larger.renumbered f, .ok (m.renumbered f)⟩ := by
  have known (name : Text) : (table.renumbered f).contains name = table.contains name := by
    simp [contains, renumbered, Method.renumbered, Function.comp_def]
  unfold take register add Line.renumbered
  cases Signature.ofHeader l.text with
  | error v => exact .inl ⟨_, rfl, rfl⟩
  | ok s =>
      simp only [bind, Except.bind, known]
      cases table.contains s.name with
      | true => exact .inl ⟨_, rfl, rfl⟩
      | false =>
          refine .inr ⟨_, ⟨s, l.number⟩, rfl, ?_⟩
          simp [renumbered, Method.renumbered, pure, Except.pure, Except.mapError, Attempt.ofExcept]

theorem inSequence_take_renumbered (f : Int → Int) (table : MethodTable) (headers : List Line) :
    (Attempt.inSequence take (table.renumbered f) (headers.map (Line.renumbered f))).state =
        (Attempt.inSequence take table headers).state.renumbered f ∧
      (Attempt.inSequence take (table.renumbered f) (headers.map (Line.renumbered f))).failure =
        (Attempt.inSequence take table headers).failure.map (Failure.renumbered f) := by
  induction headers generalizing table with
  | nil => exact ⟨rfl, rfl⟩
  | cons l headers ih =>
      rw [List.map_cons, Attempt.inSequence, Attempt.inSequence]
      rcases take_renumbered f table l with ⟨x, refused, refused'⟩ | ⟨larger, m, taken, taken'⟩
      · rw [refused, refused']
        exact ⟨rfl, rfl⟩
      · rw [taken, taken']
        exact ih larger

theorem collect_renumbered (f : Int → Int) (lines : List Line) :
    (collect (lines.map (Line.renumbered f))).state = (collect lines).state.renumbered f ∧
      (collect (lines.map (Line.renumbered f))).failure =
        (collect lines).failure.map (Failure.renumbered f) := by
  have headers : (lines.map (Line.renumbered f)).filter declares =
      (lines.filter declares).map (Line.renumbered f) := by
    rw [List.filter_map]
    rfl
  unfold collect
  rw [headers]
  exact inSequence_take_renumbered f empty _

end MethodTable

end SJava
