import SJava.Proofs.Listing
import SJava.Proofs.Method.Header
import SJava.Proofs.Verify.Step

namespace SJava

theorem MethodTable.lawful_collect (lines : List Line) :
    ∀ m ∈ (MethodTable.collect lines).state.methods, m.toSignature.Lawful := by
  refine Attempt.inSequence_state
    (P := fun table : MethodTable => ∀ m ∈ table.methods, m.toSignature.Lawful)
    (by simp [MethodTable.empty]) ?_
  intro table lawful l _
  cases taken : table.take l with
  | mk larger result =>
      cases result with
      | error failure =>
          have same : larger = table := by
            unfold MethodTable.take Attempt.ofExcept at taken
            split at taken <;> cases taken
            rfl
          rwa [same]
      | ok m =>
          obtain ⟨declared, -, rfl⟩ := MethodTable.take_ok taken
          rw [List.forall_mem_append, List.forall_mem_singleton]
          exact ⟨lawful, Signature.ofHeader_ok declared.1⟩

namespace State

theorem enter_cases (stack : Stack) {table : MethodTable} (t : Text)
    (lawful : ∀ m ∈ table.methods, m.toSignature.Lawful) :
    (∃ v, enter stack table t = ⟨stack, .error v⟩) ∨
      ∃ m scope, enter stack table t = ⟨stack.push scope, .ok m⟩ := by
  cases known : Signature.ofHeader t >>= fun s => table.lookup s.name with
  | error v =>
      refine .inl ⟨v, ?_⟩
      simp only [enter, known, Attempt.test]
  | ok m =>
      obtain ⟨signature, -, found⟩ := bind_eq_ok.1 known
      have member : m ∈ table.methods := List.mem_of_find?_eq_some (MethodTable.lookup_ok.1 found)
      obtain ⟨scope, -, entered⟩ := enter_of_lookup stack known (lawful m member).distinct
      exact .inr ⟨m, scope, entered⟩

theorem check_header {table : MethodTable} {s : State} {t : Text} {m : Method}
    (kind : Kind.ofText t = .methodHeader) (header : Signature.ofHeader t = .ok m.toSignature)
    (found : table.find? m.name = some m) (outside : s.method = none) :
    ∃ scope : Scope, scope.kind = .method ∧ scope.name = m.name ∧
      scope.vars = m.params.map Param.asVariable ∧
      s.check table t = ⟨{ s with stack := s.stack.push scope, method := some m }, .ok ()⟩ := by
  obtain ⟨scope, seeded, entered⟩ := enter_eq s.stack header found
  obtain ⟨distinct, rfl⟩ := Signature.eq_of_scope? seeded
  refine ⟨⟨.method, m.name, m.params.map Param.asVariable, distinct⟩, rfl, rfl, rfl, ?_⟩
  simp [check, Signature.layout_of_ofHeader header, kind, handle, openMethod, outside, entered]

theorem check_nested {table : MethodTable} {s : State} {t : Text}
    (layout : Clause.checkLayout t = .ok ()) (kind : Kind.ofText t = .methodHeader)
    (inside : s.method.isSome = true) : s.check table t = s.refuse .nestedMethod := by
  simp only [check, layout, kind, handle, openMethod, inside, ↓reduceIte]

end State

/-- If the first pass succeeds, every header line has the layout of one statement and belongs to one
method. In a state outside a method the line opens the scope of that method, which holds the
parameters read from the line; the one violation it can bring about is that it stands in a method.
Whatever table was collected, entering a method changes nothing or adds one scope. -/
theorem header_lines_refused_only_if_nested (listing : Listing) :
    let collected := MethodTable.collect listing.ascending
    (collected.failure = none →
      ∀ l ∈ listing.lines, Kind.ofText l.text = .methodHeader →
        Clause.checkLayout l.text = .ok () ∧
        ∃ m : Method, m.DeclaredBy l ∧ ∀ s : State,
          (s.method = none →
            ∃ scope : Scope, scope.kind = .method ∧ scope.name = m.name ∧
              scope.vars = m.params.map Param.asVariable ∧
              s.check collected.state l.text =
                ⟨{ s with stack := s.stack.push scope, method := some m }, .ok ()⟩) ∧
          ∀ v, (s.check collected.state l.text).result = .error v →
            v = .nestedMethod ∧ v.category = .form ∧
              (s.check collected.state l.text).state = s) ∧
    ∀ (lines : List Line) (stack : Stack) (t : Text),
      (∃ v, State.enter stack (MethodTable.collect lines).state t = ⟨stack, .error v⟩) ∨
        ∃ m scope, State.enter stack (MethodTable.collect lines).state t =
          ⟨stack.push scope, .ok m⟩ := by
  intro collected
  refine ⟨?_, fun lines stack t => State.enter_cases stack t (MethodTable.lawful_collect lines)⟩
  intro pass l member kind
  obtain ⟨m, declared, found⟩ := MethodTable.knows_collect pass l
    (listing.perm_ascending.mem_iff.2 member) (Kind.ofText_eq_methodHeader.1 kind)
  have layout := Signature.layout_of_ofHeader declared.1
  refine ⟨layout, m, declared, fun s => ⟨State.check_header kind declared.1 found, ?_⟩⟩
  intro v refused
  cases current : s.method with
  | none =>
      obtain ⟨scope, -, -, -, accepted⟩ := State.check_header kind declared.1 found current
      rw [accepted] at refused
      cases refused
  | some opened =>
      rw [State.check_nested layout kind (Option.isSome_of_eq_some current)] at refused ⊢
      cases refused
      exact ⟨rfl, rfl, rfl⟩

end SJava
