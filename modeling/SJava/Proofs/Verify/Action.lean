import SJava.Proofs.Verify.Step

/-!
# Actions of a run

A line of a program is a short sequence of actions: a method is entered, a block is opened, a scope is
closed, a binder declares or assigns, a variable is read. The actions of a line are read off its text,
up to the first that is refused. Each action takes the run from one point to the next
(`Point.apply`), and the actions of a line together do what the line does, whether it is accepted or
refused in the middle (`replay_actions`).
-/

namespace SJava

structure Point where
  stack : Stack
  method : Option Method

def State.point (s : State) : Point := ⟨s.stack, s.method⟩

inductive Action where
  | entered (m : Method)
  | opened (block : Clause.Block)
  | closed
  | declared (name : Text) (type : ValueType) (final : Bool) (value : Option Text)
  | assigned (name value : Text)
  | read (name : Text)

namespace Point

def apply (p : Point) : Action → Option Point
  | .entered m =>
      if p.method.isSome || !m.params.all fun q => Name.isVariable q.name then none
      else m.toSignature.scope?.map fun scope => ⟨p.stack.push scope, some m⟩
  | .opened block =>
      if p.method.isNone then none
      else some ⟨p.stack.push (.empty .condition block.word.toList), p.method⟩
  | .closed => p.stack.pop?.map fun (c, rest) =>
      ⟨rest, if c.kind = .condition then p.method else none⟩
  | .declared name type final value =>
      if !Name.isVariable name || final && value.isNone then none
      else (p.stack.declare ⟨name, type, final, value.isSome⟩).toOption.map (⟨·, p.method⟩)
  | .assigned name value =>
      (Value.stored p.stack (some name) value >>= p.stack.assign name).toOption.map
        fun (t, _) => ⟨t, p.method⟩
  | .read name => if (p.stack.lookup? name).any Variable.initialized then some p else none

def replay (p : Point) (actions : List Action) : Option Point := actions.foldlM apply p

@[simp] theorem replay_nil (p : Point) : p.replay [] = some p := rfl

@[simp] theorem replay_cons (p : Point) (e : Action) (actions : List Action) :
    p.replay (e :: actions) = (p.apply e).bind (replay · actions) := rfl

theorem replay_append (p : Point) (first second : List Action) :
    p.replay (first ++ second) = (p.replay first).bind (replay · second) := by
  simp [replay, List.foldlM_append]

/-- What each action needs and what it leaves behind. -/
inductive Takes : Point → Action → Point → Prop where
  | entered {stack : Stack} {m : Method} {scope : Scope}
      (legal : ∀ q ∈ m.params, Name.isVariable q.name = true)
      (seeded : m.toSignature.scope? = some scope) :
      Takes ⟨stack, none⟩ (.entered m) ⟨stack.push scope, some m⟩
  | opened {stack : Stack} {m : Method} (block : Clause.Block) :
      Takes ⟨stack, some m⟩ (.opened block)
        ⟨stack.push (.empty .condition block.word.toList), some m⟩
  | closed {stack rest : Stack} {c : Scope} {method : Option Method}
      (popped : stack.pop? = some (c, rest)) :
      Takes ⟨stack, method⟩ .closed ⟨rest, if c.kind = .condition then method else none⟩
  | declared {stack larger : Stack} {method : Option Method} {name : Text} {type : ValueType}
      {final : Bool} {value : Option Text} (legal : Name.isVariable name = true)
      (valued : final = true → value.isSome = true)
      (done : stack.declare ⟨name, type, final, value.isSome⟩ = .ok larger) :
      Takes ⟨stack, method⟩ (.declared name type final value) ⟨larger, method⟩
  | assigned {stack filled : Stack} {method : Option Method} {name value : Text} {type : ValueType}
      {w : Variable} (stored : Value.stored stack (some name) value = .ok type)
      (done : stack.assign name type = .ok (filled, w)) :
      Takes ⟨stack, method⟩ (.assigned name value) ⟨filled, method⟩
  | read {stack : Stack} {method : Option Method} {name : Text} {v : Variable}
      (found : stack.lookup? name = some v) (filled : v.initialized = true) :
      Takes ⟨stack, method⟩ (.read name) ⟨stack, method⟩

theorem takes_of_apply {p q : Point} {e : Action} (h : p.apply e = some q) : Takes p e q := by
  obtain ⟨stack, method⟩ := p
  cases e with
  | entered m =>
      simp only [apply] at h
      split at h
      · cases h
      · rename_i allowed
        simp only [Bool.or_eq_true, Bool.not_eq_true', not_or, Bool.not_eq_false,
          List.all_eq_true] at allowed
        obtain ⟨scope, seeded, rfl⟩ := Option.map_eq_some_iff.1 h
        cases method with
        | some open_ => simp at allowed
        | none => exact .entered allowed.2 seeded
  | opened block =>
      cases method with
      | none => cases h
      | some m =>
          cases h
          exact .opened block
  | closed =>
      obtain ⟨⟨c, rest⟩, popped, rfl⟩ := Option.map_eq_some_iff.1 h
      exact .closed popped
  | declared name type final value =>
      simp only [apply] at h
      split at h
      · cases h
      · rename_i allowed
        simp only [Bool.or_eq_true, Bool.not_eq_true', Bool.and_eq_true, not_or, not_and,
          Bool.not_eq_false] at allowed
        obtain ⟨larger, done, rfl⟩ := Option.map_eq_some_iff.1 h
        refine .declared allowed.1 ?_ (toOption_eq_some.1 done)
        intro isFinal
        cases value with
        | none => exact absurd rfl (allowed.2 isFinal)
        | some text => rfl
  | assigned name value =>
      obtain ⟨⟨filled, w⟩, both, rfl⟩ := Option.map_eq_some_iff.1 h
      obtain ⟨type, stored, done⟩ := bind_eq_ok.1 (toOption_eq_some.1 both)
      exact .assigned stored done
  | read name =>
      simp only [apply] at h
      split at h
      · rename_i readable
        obtain ⟨v, found, filled⟩ := (Option.any_eq_true _ _).1 readable
        cases h
        exact .read found filled
      · cases h

end Point

/-! ## The actions of a line -/

namespace Binding

def readActions (stack : Stack) (binder : Text) : List Action :=
  match parts binder with
  | (_, none) => []
  | (name, some value) =>
      if Name.isVariable name && Name.isVariable value &&
        (Value.stored stack (some name) value).toOption.isSome then [.read value] else []

def declareActions (final : Bool) (type : ValueType) (stack : Stack) (binder : Text) : List Action :=
  readActions stack binder ++
    if (declareOne final type stack binder).toOption.isSome then
      [.declared (parts binder).1 type final (parts binder).2]
    else []

def assignActions (stack : Stack) (binder : Text) : List Action :=
  readActions stack binder ++
    match parts binder, assignOne stack binder with
    | (name, some value), .ok _ => [.assigned name value]
    | _, _ => []

def actionsInSequence (one : Stack → Text → Except Violation (Stack × Variable))
    (actions : Stack → Text → List Action) (stack : Stack) : List Text → List Action
  | [] => []
  | binder :: rest => actions stack binder ++ match one stack binder with
      | .ok (t, _) => actionsInSequence one actions t rest
      | .error _ => []

def listActions (one : Stack → Text → Except Violation (Stack × Variable))
    (actions : Stack → Text → List Action) (stack : Stack) (list : Text) : List Action :=
  match Clause.items list with
  | .error _ => []
  | .ok binders => actionsInSequence one actions stack binders

def declarationActions (stack : Stack) (t : Text) : List Action :=
  if !Clause.isTerminated t then []
  else match Clause.declaration? (Clause.body t) with
    | none => []
    | some d =>
        listActions (declareOne d.final d.type) (declareActions d.final d.type) stack d.binders

def assignmentActions (stack : Stack) (t : Text) : List Action :=
  if !Clause.isTerminated t then []
  else listActions assignOne assignActions stack (Clause.body t)

end Binding

namespace Value

def readActions (reader : Nat → Text → Except Violation ValueType) (position : Nat) :
    List Text → List Action
  | [] => []
  | part :: rest => match reader position (Text.trim part) with
      | .error _ => []
      | .ok _ => (if (Literal.type? (Text.trim part)).isNone then [.read (Text.trim part)] else []) ++
          readActions reader (position + 1) rest

end Value

def Condition.actions (stack : Stack) (t : Text) : List Action :=
  match Clause.condition? t with
  | none => []
  | some (block, inner) =>
      let text := Text.trim inner
      (if text.isEmpty || joints.any (·.isPrefixOf text) || joints.any (·.isSuffixOf text) then []
        else Value.readActions (Value.operand stack) 1 (operands text)) ++
      if (check stack t).toOption.isSome then [.opened block] else []

def Call.actions (stack : Stack) (table : MethodTable) (t : Text) : List Action :=
  match Clause.call? t with
  | none => []
  | some call =>
      let list := Text.trim call.arguments
      if !call.terminated || (table.find? call.method).isNone || list.isEmpty ||
        Text.endsIn ',' list then []
      else Value.readActions (Value.argument stack call.method) 1 (Quotation.split [','] list)

namespace State

def actions (table : MethodTable) (s : State) (t : Text) : List Action :=
  match Clause.checkLayout t with
  | .error _ => []
  | .ok () => match Kind.ofText t with
      | .methodHeader =>
          if s.method.isSome then []
          else match (enter s.stack table t).result with
            | .ok m => [.entered m]
            | .error _ => []
      | .conditionHeader => if s.method.isNone then [] else Condition.actions s.stack t
      | .blockClose => match s.closeBlock.result with
          | .ok _ => [.closed]
          | .error _ => []
      | .declaration => Binding.declarationActions s.stack t
      | .assignment => Binding.assignmentActions s.stack t
      | .call => if s.method.isNone then [] else Call.actions s.stack table t
      | .returning | .unrecognized => []

end State

/-! ## Reads -/

def Stack.Readable (s : Stack) (name : Text) : Prop :=
  ∃ v, s.lookup? name = some v ∧ v.initialized = true

namespace Value

theorem readable_of_stored {stack : Stack} {target : Option Text} {t : Text} {type : ValueType}
    (legal : Name.isVariable t = true) (h : stored stack target t = .ok type) :
    stack.Readable t := by
  rw [stored, if_pos legal] at h
  split at h
  · cases h
  · obtain ⟨v, resolved, h⟩ := bind_eq_ok.1 h
    split at h
    · rename_i filled
      exact ⟨v, Stack.resolve_ok.1 resolved, filled⟩
    · cases h

theorem readable_of_operand {stack : Stack} {position : Nat} {t : Text} {type : ValueType}
    (name : Literal.type? t = none) (h : operand stack position t = .ok type) :
    stack.Readable t := by
  simp only [operand, name] at h
  split at h
  · obtain ⟨v, resolved, h⟩ := bind_eq_ok.1 h
    split at h
    · cases h
    · split at h
      · rename_i filled
        exact ⟨v, Stack.resolve_ok.1 resolved, filled⟩
      · cases h
  · cases h

theorem readable_of_argument {stack : Stack} {method : Text} {position : Nat} {t : Text}
    {type : ValueType} (name : Literal.type? t = none)
    (h : argument stack method position t = .ok type) : stack.Readable t := by
  simp only [argument, name] at h
  split at h
  · cases found : stack.lookup? t with
    | none => simp [found] at h
    | some v =>
        simp only [found] at h
        split at h
        · rename_i filled
          exact ⟨v, found, filled⟩
        · cases h
  · cases h

end Value

namespace Point

theorem apply_of_readable {p : Point} {name : Text} (h : p.stack.Readable name) :
    p.apply (.read name) = some p := by
  obtain ⟨v, found, filled⟩ := h
  simp [apply, found, filled]

theorem replay_readActions {p : Point} {reader : Nat → Text → Except Violation ValueType}
    (readable : ∀ {position t type}, Literal.type? t = none → reader position t = .ok type →
      p.stack.Readable t)
    (position : Nat) (values : List Text) :
    p.replay (Value.readActions reader position values) = some p := by
  induction values generalizing position with
  | nil => rfl
  | cons value values ih =>
      rw [Value.readActions]
      cases taken : reader position (Text.trim value) with
      | error v => rfl
      | ok type =>
          cases literal : Literal.type? (Text.trim value) with
          | some given => simpa using ih (position + 1)
          | none => simpa [apply_of_readable (readable literal taken)] using ih (position + 1)

/-! ## Binders -/

theorem replay_binding_readActions (stack : Stack) (method : Option Method) (binder : Text) :
    replay ⟨stack, method⟩ (Binding.readActions stack binder) = some ⟨stack, method⟩ := by
  unfold Binding.readActions
  split
  · rfl
  · rename_i name value _
    split
    · rename_i read
      simp only [Bool.and_eq_true] at read
      obtain ⟨type, stored⟩ := Option.isSome_iff_exists.1 read.2
      have readable : stack.Readable value :=
        Value.readable_of_stored read.1.2 (toOption_eq_some.1 stored)
      simp [apply_of_readable (p := ⟨stack, method⟩) readable]
    · rfl

theorem replay_declareActions (final : Bool) (type : ValueType) (stack : Stack)
    (method : Option Method) (binder : Text) :
    replay ⟨stack, method⟩ (Binding.declareActions final type stack binder) =
      some ⟨(Attempt.ofExcept stack (Binding.declareOne final type stack binder)).state, method⟩ := by
  rw [Binding.declareActions, replay_append, replay_binding_readActions, Option.bind_some]
  cases taken : Binding.declareOne final type stack binder with
  | error v => rfl
  | ok pair =>
      obtain ⟨t, v⟩ := pair
      obtain ⟨name, value, cut, legal, valued, rfl, declared, -⟩ := Binding.declareOne_ok taken
      have allowed : (final && value.isNone) = false := by
        cases final with
        | false => rfl
        | true =>
            have := valued rfl
            cases value <;> simp_all
      simp [Except.toOption, cut, apply, legal, allowed, declared, Attempt.ofExcept]

theorem replay_assignActions (stack : Stack) (method : Option Method) (binder : Text) :
    replay ⟨stack, method⟩ (Binding.assignActions stack binder) =
      some ⟨(Attempt.ofExcept stack (Binding.assignOne stack binder)).state, method⟩ := by
  rw [Binding.assignActions, replay_append, replay_binding_readActions, Option.bind_some]
  cases taken : Binding.assignOne stack binder with
  | error v => cases Binding.parts binder with | mk name value => cases value <;> rfl
  | ok pair =>
      obtain ⟨t, w⟩ := pair
      obtain ⟨name, value, given, cut, -, stored, assigned⟩ := Binding.assignOne_ok taken
      have both : (Value.stored stack (some name) value >>= stack.assign name) = .ok (t, w) :=
        bind_eq_ok.2 ⟨given, stored, assigned⟩
      simp [cut, apply, both, Except.toOption, Attempt.ofExcept]

theorem replay_listActions {one : Stack → Text → Except Violation (Stack × Variable)}
    {actions : Stack → Text → List Action} (stack : Stack) (method : Option Method) (list : Text)
    (each : ∀ s binder, replay ⟨s, method⟩ (actions s binder) =
      some ⟨(Attempt.ofExcept s (one s binder)).state, method⟩) :
    replay ⟨stack, method⟩ (Binding.listActions one actions stack list) =
      some ⟨(Binding.takeAll one stack list).state, method⟩ := by
  unfold Binding.listActions Binding.takeAll
  cases Clause.items list with
  | error v => rfl
  | ok binders =>
      simp only [Progress.attempt]
      induction binders generalizing stack with
      | nil => rfl
      | cons binder binders ih =>
          rw [Binding.actionsInSequence, replay_append, each, Option.bind_some, Attempt.inSequence]
          cases taken : one stack binder with
          | error v => rfl
          | ok pair => exact ih pair.1

theorem replay_declarationActions (stack : Stack) (method : Option Method) (t : Text) :
    replay ⟨stack, method⟩ (Binding.declarationActions stack t) =
      some ⟨(Binding.declare stack t).state, method⟩ := by
  unfold Binding.declarationActions Binding.declare
  split
  · rfl
  · cases Clause.declaration? (Clause.body t) with
    | none => rfl
    | some d =>
        refine replay_listActions stack method d.binders ?_
        intro s binder
        exact replay_declareActions d.final d.type s method binder

theorem replay_assignmentActions (stack : Stack) (method : Option Method) (t : Text) :
    replay ⟨stack, method⟩ (Binding.assignmentActions stack t) =
      some ⟨(Binding.assign stack t).state, method⟩ := by
  unfold Binding.assignmentActions Binding.assign
  split
  · rfl
  · exact replay_listActions stack method _ fun s binder => replay_assignActions s method binder

theorem replay_callActions (p : Point) (table : MethodTable) (t : Text) :
    p.replay (Call.actions p.stack table t) = some p := by
  unfold Call.actions
  cases Clause.call? t with
  | none => rfl
  | some call =>
      simp only
      split
      · rfl
      · exact replay_readActions Value.readable_of_argument _ _

theorem replay_conditionActions (stack : Stack) (m : Method) (t : Text) :
    replay ⟨stack, some m⟩ (Condition.actions stack t) =
      match Condition.check stack t with
      | .ok block => some ⟨stack.push (.empty .condition block.word.toList), some m⟩
      | .error _ => some ⟨stack, some m⟩ := by
  unfold Condition.actions
  cases shape : Clause.condition? t with
  | none => simp [Condition.check, shape]
  | some pair =>
      obtain ⟨block, inner⟩ := pair
      have reads : replay ⟨stack, some m⟩
          (if (Text.trim inner).isEmpty || Condition.joints.any (·.isPrefixOf (Text.trim inner)) ||
            Condition.joints.any (·.isSuffixOf (Text.trim inner)) then []
          else Value.readActions (Value.operand stack) 1 (Condition.operands (Text.trim inner))) =
          some ⟨stack, some m⟩ := by
        split
        · rfl
        · exact replay_readActions (p := ⟨stack, some m⟩) Value.readable_of_operand _ _
      simp only [replay_append, reads, Option.bind_some]
      cases checked : Condition.check stack t with
      | error v => rfl
      | ok other =>
          have same : other = block := by
            simp only [Condition.check, shape] at checked
            obtain ⟨_, -, same⟩ := map_eq_ok.1 checked
            exact same.symm
          simp [Except.toOption, apply, same]

/-! ## Lines -/

theorem replay_actions {table : MethodTable} {s : State} (t : Text)
    (lawful : ∀ m ∈ table.methods, m.toSignature.Lawful)
    (deep : s.method.isSome = true → 1 < s.stack.depth) :
    s.point.replay (s.actions table t) = some (s.check table t).state.point := by
  obtain ⟨stack, method, previous⟩ := s
  unfold State.actions State.check
  cases Clause.checkLayout t with
  | error v => rfl
  | ok u =>
      simp only
      cases Kind.ofText t with
      | unrecognized => rfl
      | returning =>
          simp only [State.handle, State.returnOn]
          split
          · rfl
          · split
            · rfl
            · split <;> rfl
      | declaration => exact replay_declarationActions stack method t
      | assignment => exact replay_assignmentActions stack method t
      | call =>
          cases method with
          | none => rfl
          | some m => exact replay_callActions ⟨stack, some m⟩ table t
      | conditionHeader =>
          cases method with
          | none => rfl
          | some m =>
              refine (replay_conditionActions stack m t).trans ?_
              simp only [State.handle, State.openBlock, Option.isNone_some, Bool.false_eq_true,
                ↓reduceIte]
              cases Condition.check stack t <;> rfl
      | blockClose =>
          cases method with
          | none => rfl
          | some m =>
              obtain ⟨c, rest, popped⟩ := Stack.exists_pop? (s := stack) (deep rfl)
              have top : c = stack.current := Stack.current_of_pop? popped
              by_cases block : stack.current.kind = .condition
              · simp [State.handle, State.closeBlock, State.point, apply, popped, top, block]
              · by_cases returned : previous.any Clause.isReturn = true
                · simp [State.handle, State.closeBlock, State.point, apply, popped, top, block,
                    returned]
                · simp only [State.handle, State.closeBlock, block, returned]
                  rfl
      | methodHeader =>
          cases method with
          | some m => rfl
          | none =>
              simp only [State.handle, State.openMethod, Option.isSome_none, Bool.false_eq_true,
                ↓reduceIte, State.point]
              cases known : Signature.ofHeader t >>= fun s => table.lookup s.name with
              | error v => simp [State.enter, known, Attempt.test]
              | ok m =>
                  obtain ⟨signature, -, found⟩ := bind_eq_ok.1 known
                  have member : m ∈ table.methods :=
                    List.mem_of_find?_eq_some (MethodTable.lookup_ok.1 found)
                  obtain ⟨scope, seeded, entered⟩ :=
                    State.enter_of_lookup stack known (lawful m member).distinct
                  have legal : (m.params.all fun q => Name.isVariable q.name) = true :=
                    List.all_eq_true.2 (lawful m member).legal
                  simp [entered, apply, seeded, -List.all_eq_true, legal]

end Point

end SJava
