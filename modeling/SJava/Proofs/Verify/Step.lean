import SJava.Proofs.Clause.Kind
import SJava.Proofs.Method.Registration
import SJava.Proofs.Verify.Binder
import SJava.Verify.Run

namespace SJava

def Signature.scope? (s : Signature) : Option Scope :=
  if distinct : (s.params.map Param.name).Nodup then
    some ⟨.method, s.name, s.params.map Param.asVariable, by rw [List.map_map]; exact distinct⟩
  else none

theorem Signature.eq_of_scope? {s : Signature} {scope : Scope} (h : s.scope? = some scope) :
    ∃ distinct, scope = ⟨.method, s.name, s.params.map Param.asVariable, distinct⟩ := by
  unfold scope? at h
  split at h
  · cases h
    exact ⟨_, rfl⟩
  · cases h

theorem Signature.kind_of_scope? {s : Signature} {scope : Scope} (h : s.scope? = some scope) :
    scope.kind = .method := by
  obtain ⟨-, rfl⟩ := eq_of_scope? h
  rfl

namespace State

/-! ## Entering a method -/

theorem declareParam_eq (stack : Stack) {c : Scope} {p : Param} (fresh : c.contains p.name = false) :
    ∃ c', declareParam (stack.push c) p = ⟨stack.push c', .ok p⟩ ∧ c'.kind = c.kind ∧
      c'.name = c.name ∧ c'.vars = c.vars ++ [p.asVariable] := by
  obtain ⟨c', declared, rest⟩ := Scope.declare_of_fresh (v := p.asVariable) fresh
  refine ⟨c', ?_, rest⟩
  simp only [declareParam, Stack.declare, Stack.push, declared]
  rfl

theorem inSequence_declareParam (stack : Stack) {c : Scope} {params : List Param}
    (distinct : (c.vars.map Variable.name ++ params.map Param.name).Nodup) :
    ∃ c', Attempt.inSequence declareParam (stack.push c) params = ⟨stack.push c', params, none⟩ ∧
      c'.kind = c.kind ∧ c'.name = c.name ∧ c'.vars = c.vars ++ params.map Param.asVariable := by
  induction params generalizing c with
  | nil => exact ⟨c, rfl, rfl, rfl, by simp⟩
  | cons p params ih =>
      have fresh : c.contains p.name = false := by
        rw [Bool.eq_false_iff, Ne, Scope.contains_eq_true_iff]
        intro known
        exact (List.nodup_append.1 distinct).2.2 _ known _ (by simp) rfl
      obtain ⟨c₁, first, kind, name, vars⟩ := declareParam_eq stack fresh
      obtain ⟨c₂, rest, kind', name', vars'⟩ := ih (c := c₁) (by
        rw [vars]
        simpa [Param.asVariable] using distinct)
      refine ⟨c₂, ?_, kind'.trans kind, name'.trans name, by simp [vars', vars]⟩
      rw [Attempt.inSequence, first]
      simp [rest]

theorem enter_of_lookup (stack : Stack) {table : MethodTable} {t : Text} {m : Method}
    (known : (Signature.ofHeader t >>= fun s => table.lookup s.name) = .ok m)
    (distinct : (m.params.map Param.name).Nodup) :
    ∃ scope, m.toSignature.scope? = some scope ∧
      enter stack table t = ⟨stack.push scope, .ok m⟩ := by
  have fresh : ((Scope.empty .method m.name).vars.map Variable.name ++
      m.params.map Param.name).Nodup := distinct
  obtain ⟨scope, declared, kind, name, vars⟩ := inSequence_declareParam stack fresh
  refine ⟨scope, ?_, ?_⟩
  · rw [Signature.scope?, dif_pos distinct, Option.some.injEq]
    exact Scope.ext_vars kind.symm name.symm (by simpa [Scope.empty] using vars.symm)
  · simp only [enter, known, declared, Progress.attempt]
    rfl

theorem enter_eq (stack : Stack) {table : MethodTable} {t : Text} {m : Method}
    (header : Signature.ofHeader t = .ok m.toSignature) (found : table.find? m.name = some m) :
    ∃ scope, m.toSignature.scope? = some scope ∧
      enter stack table t = ⟨stack.push scope, .ok m⟩ :=
  enter_of_lookup stack (bind_eq_ok.2 ⟨_, header, MethodTable.lookup_ok.2 found⟩)
    (Signature.ofHeader_ok header).distinct

theorem enter_iff {stack t : Stack} {table : MethodTable} {x : Text} {m : Method} :
    enter stack table x = ⟨t, .ok m⟩ ↔
      ∃ signature, Signature.ofHeader x = .ok signature ∧
        table.find? signature.name = some m ∧
        m.params.foldlM (fun s p => (s.declare p.asVariable).toOption)
          (stack.push (.empty .method m.name)) = some t := by
  have each : (fun s p => (s.declare (Param.asVariable p)).toOption) =
      fun s p => (declareParam s p).success? := by
    funext s p
    unfold declareParam
    cases s.declare p.asVariable <;> rfl
  have known : (∃ signature, Signature.ofHeader x = .ok signature ∧
      table.find? signature.name = some m) ↔
      (Signature.ofHeader x >>= fun signature => table.lookup signature.name) = .ok m := by
    simp only [bind_eq_ok, MethodTable.lookup_ok]
  simp only [← and_assoc]
  rw [exists_and_right, known, each, ← Attempt.success?_inSequence, Progress.success?_eq_some]
  unfold enter
  cases Signature.ofHeader x >>= fun signature => table.lookup signature.name with
  | error v => simp [Attempt.test]
  | ok entered =>
      simp only [Attempt.mk.injEq, Except.ok.injEq, map_eq_ok, Progress.attempt_eq_ok]
      constructor
      · rintro ⟨left, _, ⟨passed, -⟩, rfl⟩
        exact ⟨rfl, left, passed⟩
      · rintro ⟨rfl, left, passed⟩
        exact ⟨left, _, ⟨passed, rfl⟩, rfl⟩

/-! ## The next state -/

def next? (table : MethodTable) (s : State) (l : Line) : Option State := (s.take table l).success?

def run? (table : MethodTable) (s : State) (lines : List Line) : Option State :=
  lines.foldlM (next? table) s

theorem success?_walk (table : MethodTable) (s : State) (lines : List Line) :
    (Run.walk table s lines).success? = s.run? table lines :=
  Attempt.success?_inSequence (State.take table) s lines

@[simp] theorem run?_nil (table : MethodTable) (s : State) : s.run? table [] = some s := rfl

@[simp] theorem run?_cons (table : MethodTable) (s : State) (l : Line) (lines : List Line) :
    s.run? table (l :: lines) = (s.next? table l).bind (run? table · lines) := rfl

theorem run?_append (table : MethodTable) (s : State) (first second : List Line) :
    s.run? table (first ++ second) = (s.run? table first).bind (run? table · second) := by
  simp [run?, List.foldlM_append]

theorem next?_eq {table : MethodTable} {s : State} {l : Line}
    (layout : Clause.checkLayout l.text = .ok ()) :
    s.next? table l = (s.handle table l.text (Kind.ofText l.text)).success?.map
      fun t => { t with previous := some l.text } := by
  unfold next? take check
  rw [layout]
  simp only
  cases s.handle table l.text (Kind.ofText l.text) with
  | mk t result => cases result <;> rfl

theorem layout_of_next? {table : MethodTable} {s t : State} {l : Line}
    (h : s.next? table l = some t) : Clause.checkLayout l.text = .ok () := by
  unfold next? take check at h
  cases layout : Clause.checkLayout l.text with
  | ok u => rfl
  | error v => simp [layout, refuse, Attempt.test, Attempt.success?] at h

theorem exists_next?_of_run? {table : MethodTable} {s t : State} {lines : List Line}
    (h : s.run? table lines = some t) :
    ∀ l ∈ lines, ∃ before after, next? table before l = some after := by
  induction lines generalizing s with
  | nil => simp
  | cons l lines ih =>
      rw [run?_cons, Option.bind_eq_some_iff] at h
      obtain ⟨u, taken, rest⟩ := h
      rw [List.forall_mem_cons]
      exact ⟨⟨s, u, taken⟩, ih rest⟩

theorem layout_of_run? {table : MethodTable} {s t : State} {lines : List Line}
    (h : s.run? table lines = some t) : ∀ l ∈ lines, Clause.checkLayout l.text = .ok () := by
  intro l member
  obtain ⟨before, after, taken⟩ := exists_next?_of_run? h l member
  exact layout_of_next? taken

section Kinds

variable {table : MethodTable} {stack : Stack} {method : Option Method} {m : Method}
  {previous : Option Text} {l : Line}

theorem next?_declaration (layout : Clause.checkLayout l.text = .ok ())
    (kind : Kind.ofText l.text = .declaration) :
    next? table ⟨stack, method, previous⟩ l =
      (Binding.declare stack l.text).success?.map fun t => ⟨t, method, some l.text⟩ := by
  rw [next?_eq layout, kind]
  simp only [handle, bindOn]
  cases Binding.declare stack l.text with
  | mk t result => cases result <;> rfl

theorem next?_assignment (layout : Clause.checkLayout l.text = .ok ())
    (kind : Kind.ofText l.text = .assignment) :
    next? table ⟨stack, method, previous⟩ l =
      (Binding.assign stack l.text).success?.map fun t => ⟨t, method, some l.text⟩ := by
  rw [next?_eq layout, kind]
  simp only [handle, bindOn]
  cases Binding.assign stack l.text with
  | mk t result => cases result <;> rfl

theorem next?_call (layout : Clause.checkLayout l.text = .ok ())
    (kind : Kind.ofText l.text = .call) :
    next? table ⟨stack, some m, previous⟩ l =
      (Call.check stack table l.text).toOption.map fun _ => ⟨stack, some m, some l.text⟩ := by
  rw [next?_eq layout, kind]
  simp only [handle, callOn, Option.isNone_some, Bool.false_eq_true, ↓reduceIte]
  cases Call.check stack table l.text <;> rfl

theorem next?_return (layout : Clause.checkLayout l.text = .ok ())
    (kind : Kind.ofText l.text = .returning) :
    next? table ⟨stack, some m, previous⟩ l =
      if Clause.isReturn l.text then some ⟨stack, some m, some l.text⟩ else none := by
  rw [next?_eq layout, kind]
  simp only [handle, returnOn, Option.isNone_some, Bool.false_eq_true, ↓reduceIte]
  split
  · rfl
  · split <;> rfl

theorem next?_conditionHeader (layout : Clause.checkLayout l.text = .ok ())
    (kind : Kind.ofText l.text = .conditionHeader) :
    next? table ⟨stack, some m, previous⟩ l =
      (Condition.check stack l.text).toOption.map fun block =>
        ⟨stack.push (.empty .condition block.word.toList), some m, some l.text⟩ := by
  rw [next?_eq layout, kind]
  simp only [handle, openBlock, Option.isNone_some, Bool.false_eq_true, ↓reduceIte]
  cases Condition.check stack l.text <;> rfl

theorem next?_close (layout : Clause.checkLayout l.text = .ok ())
    (kind : Kind.ofText l.text = .blockClose) :
    next? table ⟨stack, some m, previous⟩ l =
      if stack.current.kind = .condition then some ⟨stack.closed, some m, some l.text⟩
      else if previous.any Clause.isReturn then some ⟨stack.closed, none, some l.text⟩
      else none := by
  rw [next?_eq layout, kind]
  simp only [handle, closeBlock]
  split
  · rfl
  · split <;> rfl

theorem next?_blockClose {c : Scope} {rest : Stack} (layout : Clause.checkLayout l.text = .ok ())
    (kind : Kind.ofText l.text = .blockClose) (popped : stack.pop? = some (c, rest))
    (block : stack.current.kind = .condition) :
    next? table ⟨stack, some m, previous⟩ l = some ⟨rest, some m, some l.text⟩ := by
  rw [next?_close layout kind, if_pos block, Stack.closed_of_pop? popped]

theorem next?_methodClose {c : Scope} {rest : Stack} (layout : Clause.checkLayout l.text = .ok ())
    (kind : Kind.ofText l.text = .blockClose) (popped : stack.pop? = some (c, rest))
    (body : stack.current.kind ≠ .condition) :
    next? table ⟨stack, some m, previous⟩ l =
      if previous.any Clause.isReturn then some ⟨rest, none, some l.text⟩ else none := by
  rw [next?_close layout kind, if_neg body, Stack.closed_of_pop? popped]

theorem next?_header (layout : Clause.checkLayout l.text = .ok ())
    (kind : Kind.ofText l.text = .methodHeader) :
    next? table ⟨stack, none, previous⟩ l = match enter stack table l.text with
      | ⟨t, .ok m⟩ => some ⟨t, some m, some l.text⟩
      | ⟨_, .error _⟩ => none := by
  rw [next?_eq layout, kind]
  simp only [handle, openMethod, Option.isSome_none, Bool.false_eq_true, ↓reduceIte]
  cases enter stack table l.text with
  | mk t result => cases result <;> rfl

theorem next?_methodHeader {scope : Scope} (layout : Clause.checkLayout l.text = .ok ())
    (kind : Kind.ofText l.text = .methodHeader)
    (entered : enter stack table l.text = ⟨stack.push scope, .ok m⟩) :
    next? table ⟨stack, none, previous⟩ l = some ⟨stack.push scope, some m, some l.text⟩ := by
  rw [next?_header layout kind, entered]

theorem next?_inside {t : State} (h : next? table ⟨stack, some m, previous⟩ l = some t) :
    Kind.ofText l.text ≠ .methodHeader ∧ Kind.ofText l.text ≠ .unrecognized := by
  rw [next?_eq (layout_of_next? h)] at h
  constructor
  · intro kind
    rw [kind] at h
    cases h
  · intro kind
    rw [kind] at h
    cases h

theorem next?_outside {t : State} (h : next? table ⟨stack, none, previous⟩ l = some t) :
    Kind.ofText l.text = .declaration ∨ Kind.ofText l.text = .assignment ∨
      Kind.ofText l.text = .methodHeader := by
  rw [next?_eq (layout_of_next? h)] at h
  cases kind : Kind.ofText l.text with
  | declaration => exact .inl rfl
  | assignment => exact .inr (.inl rfl)
  | methodHeader => exact .inr (.inr rfl)
  | conditionHeader | blockClose | returning | call | unrecognized =>
      rw [kind] at h
      cases h

end Kinds

/-! ## What a line can do -/

/-- The ways for a line of good layout to be accepted, with the state after it. -/
inductive Advances (table : MethodTable) : State → Line → State → Prop where
  | declaration {stack t : Stack} {method : Option Method} {previous : Option Text} {l : Line}
      (kind : Kind.ofText l.text = .declaration)
      (bound : (Binding.declare stack l.text).success? = some t) :
      Advances table ⟨stack, method, previous⟩ l ⟨t, method, some l.text⟩
  | assignment {stack t : Stack} {method : Option Method} {previous : Option Text} {l : Line}
      (kind : Kind.ofText l.text = .assignment)
      (bound : (Binding.assign stack l.text).success? = some t) :
      Advances table ⟨stack, method, previous⟩ l ⟨t, method, some l.text⟩
  | openMethod {stack t : Stack} {m : Method} {previous : Option Text} {l : Line}
      (kind : Kind.ofText l.text = .methodHeader) (entered : enter stack table l.text = ⟨t, .ok m⟩) :
      Advances table ⟨stack, none, previous⟩ l ⟨t, some m, some l.text⟩
  | openBlock {stack : Stack} {m : Method} {previous : Option Text} {l : Line}
      {block : Clause.Block} (kind : Kind.ofText l.text = .conditionHeader)
      (checked : Condition.check stack l.text = .ok block) :
      Advances table ⟨stack, some m, previous⟩ l
        ⟨stack.push (.empty .condition block.word.toList), some m, some l.text⟩
  | call {stack : Stack} {m callee : Method} {previous : Option Text} {l : Line}
      (kind : Kind.ofText l.text = .call) (checked : Call.check stack table l.text = .ok callee) :
      Advances table ⟨stack, some m, previous⟩ l ⟨stack, some m, some l.text⟩
  | returning {stack : Stack} {m : Method} {previous : Option Text} {l : Line}
      (kind : Kind.ofText l.text = .returning) (returns : Clause.isReturn l.text = true) :
      Advances table ⟨stack, some m, previous⟩ l ⟨stack, some m, some l.text⟩
  | closeBlock {stack : Stack} {m : Method} {previous : Option Text} {l : Line}
      (kind : Kind.ofText l.text = .blockClose) (block : stack.current.kind = .condition) :
      Advances table ⟨stack, some m, previous⟩ l ⟨stack.closed, some m, some l.text⟩
  | closeMethod {stack : Stack} {m : Method} {previous : Option Text} {l : Line}
      (kind : Kind.ofText l.text = .blockClose) (body : stack.current.kind ≠ .condition)
      (returns : previous.any Clause.isReturn = true) :
      Advances table ⟨stack, some m, previous⟩ l ⟨stack.closed, none, some l.text⟩

theorem advances_outside {table : MethodTable} {stack : Stack} {previous : Option Text} {l : Line}
    {t : State} (h : next? table ⟨stack, none, previous⟩ l = some t) :
    Advances table ⟨stack, none, previous⟩ l t := by
  have layout := layout_of_next? h
  rcases next?_outside h with kind | kind | kind
  · rw [next?_declaration layout kind] at h
    obtain ⟨u, bound, rfl⟩ := Option.map_eq_some_iff.1 h
    exact .declaration kind bound
  · rw [next?_assignment layout kind] at h
    obtain ⟨u, bound, rfl⟩ := Option.map_eq_some_iff.1 h
    exact .assignment kind bound
  · rw [next?_header layout kind] at h
    split at h
    · rename_i entered
      cases h
      exact .openMethod kind entered
    · cases h

theorem advances_inside {table : MethodTable} {stack : Stack} {m : Method} {previous : Option Text}
    {l : Line} {t : State} (h : next? table ⟨stack, some m, previous⟩ l = some t) :
    Advances table ⟨stack, some m, previous⟩ l t := by
  have layout := layout_of_next? h
  cases kind : Kind.ofText l.text with
  | methodHeader => exact absurd kind (next?_inside h).1
  | unrecognized => exact absurd kind (next?_inside h).2
  | declaration =>
      rw [next?_declaration layout kind] at h
      obtain ⟨u, bound, rfl⟩ := Option.map_eq_some_iff.1 h
      exact .declaration kind bound
  | assignment =>
      rw [next?_assignment layout kind] at h
      obtain ⟨u, bound, rfl⟩ := Option.map_eq_some_iff.1 h
      exact .assignment kind bound
  | conditionHeader =>
      rw [next?_conditionHeader layout kind] at h
      obtain ⟨block, checked, rfl⟩ := Option.map_eq_some_iff.1 h
      exact .openBlock kind (toOption_eq_some.1 checked)
  | call =>
      rw [next?_call layout kind] at h
      obtain ⟨callee, checked, rfl⟩ := Option.map_eq_some_iff.1 h
      exact .call kind (toOption_eq_some.1 checked)
  | returning =>
      rw [next?_return layout kind] at h
      split at h
      · cases h
        exact .returning kind ‹_›
      · cases h
  | blockClose =>
      rw [next?_close layout kind] at h
      split at h
      · cases h
        exact .closeBlock kind ‹_›
      · split at h
        · cases h
          exact .closeMethod kind ‹_› ‹_›
        · cases h

theorem next?_eq_some {table : MethodTable} {s t : State} {l : Line} :
    s.next? table l = some t ↔ Clause.checkLayout l.text = .ok () ∧ Advances table s l t := by
  constructor
  · intro taken
    refine ⟨layout_of_next? taken, ?_⟩
    obtain ⟨stack, method, previous⟩ := s
    cases method with
    | none => exact advances_outside taken
    | some m => exact advances_inside taken
  · rintro ⟨layout, step⟩
    cases step with
    | declaration kind bound => rw [next?_declaration layout kind, bound, Option.map_some]
    | assignment kind bound => rw [next?_assignment layout kind, bound, Option.map_some]
    | openMethod kind entered => rw [next?_header layout kind, entered]
    | openBlock kind checked =>
        rw [next?_conditionHeader layout kind, toOption_eq_some.2 checked, Option.map_some]
    | call kind checked =>
        rw [next?_call layout kind, toOption_eq_some.2 checked, Option.map_some]
    | returning kind returns => rw [next?_return layout kind, if_pos returns]
    | closeBlock kind block => rw [next?_close layout kind, if_pos block]
    | closeMethod kind body returns =>
        rw [next?_close layout kind, if_neg body, if_pos returns]

end State

end SJava
