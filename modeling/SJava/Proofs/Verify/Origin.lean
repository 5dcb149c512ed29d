import SJava.Proofs.Verify.Entry
import SJava.Proofs.Verify.FailFast
import SJava.Proofs.Verify.Invariant

/-!
# Origins of failures

What a run can report, and about which line. `FailsIn` bounds the categories of the violations that a
check can find; it is proved of each check from those of its parts, so that in the end every kind of
line has its categories (`Kind.categories`, `State.failsIn_handle`). Method headers are the exception:
taken alone they can fail in many ways, but after the first pass only by standing in a method
(`State.check_error`).
-/

namespace SJava

def FailsIn {α : Type} (categories : List Category) (x : Except Violation α) : Prop :=
  ∀ v, x = .error v → v.category ∈ categories

namespace FailsIn

variable {α β : Type} {categories : List Category}

theorem ok (a : α) : FailsIn categories (.ok a) := by
  intro v failed
  cases failed

theorem of_mem {v : Violation} (known : v.category ∈ categories) :
    FailsIn categories (.error v : Except Violation α) := by
  intro w failed
  cases failed
  exact known

theorem error {v : Violation} (known : categories.contains v.category = true) :
    FailsIn categories (.error v : Except Violation α) :=
  of_mem (List.contains_iff_mem.1 known)

theorem mono {fewer : List Category} {x : Except Violation α} (h : FailsIn fewer x)
    (sub : fewer ⊆ categories) : FailsIn categories x := by
  intro v failed
  exact sub (h v failed)

theorem bind {x : Except Violation α} {f : α → Except Violation β} (first : FailsIn categories x)
    (rest : ∀ a, FailsIn categories (f a)) : FailsIn categories (x >>= f) := by
  cases x with
  | error v => exact of_mem (first v rfl)
  | ok a => exact rest a

theorem map {x : Except Violation α} {f : α → β} (h : FailsIn categories x) :
    FailsIn categories (x.map f) := by
  cases x with
  | error v => exact of_mem (h v rfl)
  | ok a => exact ok (f a)

end FailsIn

/-! ## Values -/

namespace Stack

theorem failsIn_resolve (stack : Stack) (name : Text) :
    FailsIn [.binding] (stack.resolve name) := by
  unfold resolve
  split
  · exact .ok _
  · exact .error rfl

theorem failsIn_declare (stack : Stack) (v : Variable) : FailsIn [.binding] (stack.declare v) := by
  unfold declare Scope.declare
  split
  · exact .error rfl
  · exact .ok _

end Stack

namespace Value

theorem failsIn_literal (t : Text) : FailsIn [.typing] (literal t) := by
  unfold literal
  split
  · exact .ok _
  · exact .error rfl

theorem failsIn_stored (stack : Stack) (target : Option Text) (t : Text) :
    FailsIn [.binding, .typing] (stored stack target t) := by
  unfold stored
  split
  · split
    · exact .error rfl
    · apply FailsIn.bind ((stack.failsIn_resolve t).mono (by simp))
      intro v
      split
      · exact .ok _
      · exact .error rfl
  · exact (failsIn_literal t).mono (by simp)

theorem failsIn_operand (stack : Stack) (position : Nat) (t : Text) :
    FailsIn [.condition, .binding, .typing] (operand stack position t) := by
  unfold operand
  split
  · split
    · exact .ok _
    · exact .error rfl
  · split
    · apply FailsIn.bind ((stack.failsIn_resolve t).mono (by simp))
      intro v
      split
      · exact .error rfl
      · split
        · exact .ok _
        · exact .error rfl
    · exact .error rfl

theorem failsIn_argument (stack : Stack) (method : Text) (position : Nat) (t : Text) :
    FailsIn [.method, .typing] (argument stack method position t) := by
  unfold argument
  split
  · exact .ok _
  · split
    · split
      · exact .error rfl
      · split
        · exact .ok _
        · exact .error rfl
    · exact .error rfl

end Value

/-! ## Declarations and assignments -/

theorem Variable.failsIn_store (v : Variable) (value : ValueType) :
    FailsIn [.binding] (v.store value) := by
  unfold store
  split
  · exact .ok _
  · exact .error rfl

theorem Variable.failsIn_declared (name : Text) (type : ValueType) (final : Bool)
    (initial : Option ValueType) : FailsIn [.binding] (declared name type final initial) := by
  cases initial with
  | none => exact .ok _
  | some value => exact failsIn_store _ value

theorem Stack.failsIn_assign (stack : Stack) (name : Text) (value : ValueType) :
    FailsIn [.binding] (stack.assign name value) := by
  unfold assign
  apply FailsIn.bind (stack.failsIn_resolve name)
  intro v
  apply FailsIn.bind
  · unfold Variable.assigned
    split
    · exact .error rfl
    · exact v.failsIn_store value
  · intro w
    exact .ok _

theorem Clause.failsIn_items (t : Text) : FailsIn [.form] (items t) := by
  unfold items
  split
  · exact .error rfl
  · simp only
    split
    · exact .error rfl
    · exact .ok _

namespace Binding

theorem failsIn_initialValue (stack : Stack) (final : Bool) (name : Text) (value : Option Text) :
    FailsIn [.binding, .typing] (initialValue stack final name value) := by
  unfold initialValue
  split
  · split
    · exact .error rfl
    · exact .ok _
  · exact .error rfl
  · exact (Value.failsIn_stored _ _ _).map

theorem failsIn_declareOne (final : Bool) (type : ValueType) (stack : Stack) (binder : Text) :
    FailsIn [.binding, .typing] (declareOne final type stack binder) := by
  unfold declareOne
  simp only
  split
  · exact .error rfl
  · apply FailsIn.bind (failsIn_initialValue _ _ _ _)
    intro initial
    apply FailsIn.bind ((Variable.failsIn_declared _ _ _ _).mono (by simp))
    intro v
    apply FailsIn.bind ((stack.failsIn_declare v).mono (by simp))
    intro larger
    exact .ok _

theorem failsIn_assignOne (stack : Stack) (binder : Text) :
    FailsIn [.binding, .typing] (assignOne stack binder) := by
  unfold assignOne
  simp only
  split
  · exact .error rfl
  · split
    · exact .error rfl
    · exact .error rfl
    · apply FailsIn.bind (Value.failsIn_stored _ _ _)
      intro type
      exact (stack.failsIn_assign _ type).mono (by simp)

theorem failsIn_takeAll {one : Stack → Text → Except Violation (Stack × Variable)}
    (each : ∀ stack binder, FailsIn [.binding, .typing] (one stack binder)) (stack : Stack)
    (list : Text) : FailsIn [.binding, .typing, .form] (takeAll one stack list).result := by
  unfold takeAll
  cases split : Clause.items list with
  | error v => exact .of_mem ((Clause.failsIn_items list).mono (by simp) v split)
  | ok binders =>
      intro v failed
      simp only [Progress.attempt] at failed
      split at failed
      · rename_i stopped
        cases failed
        obtain ⟨before, binder, after, -, -, refused⟩ := Attempt.failure_inSequence.1 stopped
        generalize (Attempt.inSequence (fun s binder => Attempt.ofExcept s (one s binder)) stack
          before).state = reached at refused
        apply (each reached binder).mono (by simp)
        cases taken : one reached binder with
        | error w => simpa [taken, Attempt.ofExcept] using refused
        | ok pair => simp [taken, Attempt.ofExcept] at refused
      · cases failed

theorem failsIn_declare (stack : Stack) (t : Text) :
    FailsIn [.binding, .typing, .form] (declare stack t).result := by
  unfold declare
  split
  · exact .error rfl
  · split
    · exact .error rfl
    · exact failsIn_takeAll (failsIn_declareOne _ _) _ _

theorem failsIn_assign (stack : Stack) (t : Text) :
    FailsIn [.binding, .typing, .form] (assign stack t).result := by
  unfold assign
  split
  · exact .error rfl
  · exact failsIn_takeAll failsIn_assignOne _ _

end Binding

/-! ## Conditions and calls -/

namespace Condition

theorem failsIn_checkOperands (stack : Stack) (position : Nat) (parts : List Text) :
    FailsIn [.condition, .binding, .typing] (checkOperands stack position parts) := by
  induction parts generalizing position with
  | nil => exact .ok _
  | cons part parts ih =>
      rw [checkOperands]
      simp only
      split
      · exact .error rfl
      · apply FailsIn.bind (Value.failsIn_operand _ _ _)
        intro type
        exact ih _

theorem failsIn_check (stack : Stack) (t : Text) :
    FailsIn [.condition, .form, .typing, .binding] (check stack t) := by
  unfold check
  split
  · apply FailsIn.map
    simp only [checkInner]
    split
    · exact .error rfl
    · split
      · exact .error rfl
      · split
        · exact .error rfl
        · exact (failsIn_checkOperands _ _ _).mono (by simp)
  · split <;> exact .error rfl

end Condition

namespace MethodTable

theorem failsIn_lookup (table : MethodTable) (name : Text) :
    FailsIn [.method] (table.lookup name) := by
  unfold lookup
  split
  · exact .ok _
  · exact .error rfl

theorem failsIn_checkTypes (position : Nat) (params given : List ValueType) :
    FailsIn [.method] (checkTypes position params given) := by
  fun_induction checkTypes position params given with
  | case1 position type params value given accepted ih => exact ih
  | case2 => exact .error rfl
  | case3 => exact .ok _

theorem failsIn_checkCall (table : MethodTable) (name : Text) (given : List ValueType) :
    FailsIn [.method] (table.checkCall name given) := by
  unfold checkCall
  apply FailsIn.bind (table.failsIn_lookup name)
  intro m
  split
  · exact .error rfl
  · apply FailsIn.bind (failsIn_checkTypes _ _ _)
    intro _
    exact .ok _

end MethodTable

namespace Call

theorem failsIn_types (stack : Stack) (method : Text) (position : Nat) (parts : List Text) :
    FailsIn [.method, .typing] (types stack method position parts) := by
  induction parts generalizing position with
  | nil => exact .ok _
  | cons part parts ih =>
      rw [types]
      simp only
      split
      · exact .error rfl
      · apply FailsIn.bind (Value.failsIn_argument _ _ _ _)
        intro type
        apply FailsIn.bind (ih _)
        intro others
        exact .ok _

theorem failsIn_check (stack : Stack) (table : MethodTable) (t : Text) :
    FailsIn [.method, .form, .typing] (check stack table t) := by
  unfold check
  split
  · exact .error rfl
  · split
    · exact .error rfl
    · apply FailsIn.bind ((table.failsIn_lookup _).mono (by simp))
      intro m
      apply FailsIn.bind
      · unfold argumentTypes
        simp only
        split
        · exact .ok _
        · split
          · exact .error rfl
          · exact (failsIn_types _ _ _ _).mono (by simp)
      · intro given
        exact (table.failsIn_checkCall _ given).mono (by simp)

end Call

/-! ## Headers -/

namespace Param

theorem failsIn_readAll (method : Text) (names parts : List Text) :
    FailsIn [.method] (readAll method names parts) := by
  induction parts generalizing names with
  | nil => exact .ok _
  | cons part parts ih =>
      rw [readAll]
      split
      · exact .error rfl
      · split
        · exact .error rfl
        · exact (ih _).map

theorem failsIn_readList (method t : Text) : FailsIn [.method] (readList method t) := by
  unfold readList
  simp only
  split
  · exact .ok _
  · split
    · exact .error rfl
    · exact failsIn_readAll _ _ _

end Param

theorem Signature.failsIn_ofHeader (t : Text) : FailsIn [.method, .form] (ofHeader t) := by
  unfold ofHeader
  split
  · exact .error rfl
  · split
    · split <;> exact .error rfl
    · split
      · exact ((Param.failsIn_readList _ _).mono (by simp)).map
      · exact .error rfl

/-! ## Lines -/

def Kind.categories : Kind → List Category
  | .declaration | .assignment => [.binding, .typing, .form]
  | .conditionHeader => [.condition, .form, .typing, .binding]
  | .call => [.method, .form, .typing]
  | .methodHeader | .blockClose | .returning | .unrecognized => [.form]

theorem Clause.failsIn_checkLayout (t : Text) : FailsIn [.form] (checkLayout t) := by
  unfold checkLayout
  simp only
  split
  · exact .error rfl
  · split
    · exact .error rfl
    · split
      · exact .error rfl
      · exact .ok _

namespace State

theorem failsIn_handle (table : MethodTable) (s : State) (t : Text) {kind : Kind}
    (inner : kind ≠ .methodHeader) : FailsIn kind.categories (s.handle table t kind).result := by
  cases kind with
  | methodHeader => exact absurd rfl inner
  | conditionHeader =>
      simp only [handle, openBlock]
      split
      · exact .error rfl
      · have checked := Condition.failsIn_check s.stack t
        split
        · rename_i v failed
          exact .of_mem (checked v failed)
        · exact .ok _
  | blockClose =>
      simp only [handle, closeBlock]
      split
      · exact .error rfl
      · split
        · exact .ok _
        · split
          · exact .ok _
          · exact .error rfl
  | declaration => exact (Binding.failsIn_declare s.stack t).map
  | assignment => exact (Binding.failsIn_assign s.stack t).map
  | call =>
      simp only [handle, callOn]
      split
      · exact .error rfl
      · exact (Call.failsIn_check s.stack table t).map
  | returning =>
      simp only [handle, returnOn]
      split
      · exact .error rfl
      · split
        · exact .ok _
        · split <;> exact .error rfl
  | unrecognized => exact .error rfl

theorem failsIn_header {table : MethodTable} (s : State) {t : Text} {m : Method}
    (kind : Kind.ofText t = .methodHeader) (header : Signature.ofHeader t = .ok m.toSignature)
    (found : table.find? m.name = some m) : FailsIn [.form] (s.check table t).result := by
  cases current : s.method with
  | none =>
      obtain ⟨scope, -, -, -, accepted⟩ := check_header kind header found current
      rw [accepted]
      exact .ok _
  | some opened =>
      have layout := Signature.layout_of_ofHeader header
      rw [check_nested layout kind (Option.isSome_of_eq_some current)]
      exact .error rfl

theorem check_error {table : MethodTable} {lines : List Line} (knows : table.Knows lines) {s : State}
    {l : Line} (member : l ∈ lines) {v : Violation}
    (refused : (s.check table l.text).result = .error v) :
    Clause.checkLayout l.text = .error v ∨
      Clause.checkLayout l.text = .ok () ∧ v.category ∈ (Kind.ofText l.text).categories := by
  by_cases header : Kind.ofText l.text = .methodHeader
  · obtain ⟨m, declared, found⟩ := knows l member (Kind.ofText_eq_methodHeader.1 header)
    rw [header]
    exact .inr ⟨Signature.layout_of_ofHeader declared.1,
      failsIn_header s header declared.1 found v refused⟩
  · unfold check at refused
    cases layout : Clause.checkLayout l.text with
    | error w =>
        rw [layout] at refused
        cases refused
        exact .inl rfl
    | ok =>
        rw [layout] at refused
        exact .inr ⟨rfl, failsIn_handle table s l.text header v refused⟩

end State

/-! ## Runs -/

/-- The ways for a program to fail with `f`: a header is refused by the first pass; the layout of a
line, or a line of good layout, by the second; or something is still open at the end. -/
inductive Listing.FailsBy (listing : Listing) (f : Failure) : Prop where
  | header {l : Line} (member : l ∈ listing.lines) (number : l.number = f.line)
      (failed : (Run.ofListing listing).collected.failure = some f)
      (start : l.text.opensWith "void" = true)
      (category : f.violation.category ∈ [.method, .form])
  | layout {l : Line} (member : l ∈ listing.lines) (number : l.number = f.line)
      (passed : (Run.ofListing listing).collected.failure = none)
      (failed : (Run.ofListing listing).walked.failure = some f)
      (cause : Clause.checkLayout l.text = .error f.violation)
      (category : f.violation.category = .form)
  | line {l : Line} (member : l ∈ listing.lines) (number : l.number = f.line)
      (passed : (Run.ofListing listing).collected.failure = none)
      (failed : (Run.ofListing listing).walked.failure = some f)
      (layout : Clause.checkLayout l.text = .ok ())
      (category : f.violation.category ∈ (Kind.ofText l.text).categories)
  | openEnd {l : Line} (member : l ∈ listing.lines) (number : l.number = f.line)
      (passed : (Run.ofListing listing).collected.failure = none)
      (walked : (Run.ofListing listing).walked.failure = none)
      (cause : f.violation = .missingClose) (category : f.violation.category = .form)
      (last : ∀ k ∈ listing.lines, k.number ≤ l.number)

namespace Listing

variable {listing : Listing} {f : Failure}

theorem failsBy_of_collect (failed : (Run.ofListing listing).collected.failure = some f) :
    listing.FailsBy f := by
  obtain ⟨before, l, after, split, declared, -, refused⟩ := MethodTable.collect_failure failed
  obtain ⟨number, cause⟩ := MethodTable.take_error refused
  have member : l ∈ listing.ascending := by simp [split]
  refine .header (listing.perm_ascending.mem_iff.1 member) number.symm failed declared ?_
  rcases cause with unreadable | ⟨s, -, -, duplicate⟩
  · exact Signature.failsIn_ofHeader l.text _ unreadable
  · rw [duplicate]
    exact .head _

theorem failsBy_of_walk (pass : (Run.ofListing listing).collected.failure = none)
    (failed : (Run.ofListing listing).walked.failure = some f) : listing.FailsBy f := by
  have walked := failed
  rw [Run.walked_of_pass pass] at walked
  obtain ⟨before, l, after, split, -, refused⟩ := Attempt.failure_inSequence.1 walked
  obtain ⟨number, refused⟩ := State.check_of_take refused
  have member : l ∈ listing.ascending := by simp [split]
  have knows : (Run.ofListing listing).table.Knows listing.ascending := by
    have passed : (MethodTable.collect listing.ascending).failure = none := pass
    simp only [Run.table, Run.ofListing, Run.ofLines, passed]
    exact MethodTable.knows_collect passed
  have inListing := listing.perm_ascending.mem_iff.1 member
  rcases State.check_error knows member refused with cause | ⟨layout, category⟩
  · have form := Clause.failsIn_checkLayout l.text _ cause
    exact .layout inListing number.symm pass failed cause (List.mem_singleton.1 form)
  · exact .line inListing number.symm pass failed layout category

theorem failsBy_of_openEnd (pass : (Run.ofListing listing).collected.failure = none)
    (walked : (Run.ofListing listing).walked.failure = none)
    (failed : (Run.ofListing listing).openEnd? = some f) : listing.FailsBy f := by
  unfold Run.openEnd? at failed
  split at failed
  · cases failed
  · rename_i unclosed
    cases failed
    have last : (Run.ofListing listing).lastNumber =
        (listing.ascending.getLast?.map Line.number).getD 0 := rfl
    cases ending : listing.ascending.getLast? with
    | none =>
        -- A program without lines ends as it began, with nothing open.
        have empty : listing.ascending = [] := List.getLast?_eq_none_iff.1 ending
        rw [Run.state, Run.walked_of_pass pass, empty] at unclosed
        exact absurd rfl unclosed
    | some l =>
        rw [ending] at last
        obtain ⟨front, split⟩ := List.getLast?_eq_some_iff.1 ending
        have member : l ∈ listing.ascending := by simp [split]
        refine .openEnd (listing.perm_ascending.mem_iff.1 member) last.symm pass walked rfl rfl ?_
        intro k inListing
        have sorted := listing.sorted_ascending
        have placed := listing.perm_ascending.mem_iff.2 inListing
        rw [split] at sorted placed
        rcases List.mem_append.1 placed with before | same
        · exact Int.le_of_lt ((List.pairwise_append.1 sorted).2.2 k before l (by simp))
        · exact Int.le_of_eq (congrArg Line.number (List.mem_singleton.1 same))

theorem failsBy_of_failure? (failed : (Run.ofListing listing).failure? = some f) :
    listing.FailsBy f := by
  unfold Run.failure? at failed
  cases collected : (Run.ofListing listing).collected.failure with
  | some g =>
      rw [collected] at failed
      cases failed
      exact failsBy_of_collect collected
  | none =>
      cases walked : (Run.ofListing listing).walked.failure with
      | some g =>
          rw [collected, walked] at failed
          cases failed
          exact failsBy_of_walk collected walked
      | none =>
          rw [collected, walked] at failed
          exact failsBy_of_openEnd collected walked failed

theorem FailsBy.exists_line (h : listing.FailsBy f) : ∃ l ∈ listing.lines, l.number = f.line := by
  cases h with
  | header member number | layout member number | line member number | openEnd member number =>
      exact ⟨_, member, number⟩

end Listing

theorem Violation.category_ne_general (v : Violation) : v.category ≠ .general := by
  cases v <;> exact Category.noConfusion

/-- A failure is of a particular category and bears the number of a line of the program, which its
text names once, however often a line is attached. It has one of the origins of `FailsBy`, each with
its categories. There is no other way to fail: whenever a method is open there is a scope to close. -/
theorem failures_have_origin {listing : Listing} {f : Failure}
    (failed : (Run.ofListing listing).failure? = some f) :
    f.violation.category ≠ .general ∧
    (∃ l ∈ listing.lines, l.number = f.line) ∧
    f.report.render = f.violation.category.label ++ " error in line " ++ toString f.line ++ " -> " ++
      f.violation.message ∧
    (∀ n, f.report.atLine n = f.report) ∧
    listing.FailsBy f ∧
    ∀ n, let s := (Run.walk (Run.ofListing listing).table .initial
        ((Run.ofListing listing).checkedLines.take n)).state
      s.method.isSome = true → s.stack.pop?.isSome = true := by
  have origin := Listing.failsBy_of_failure? failed
  refine ⟨f.violation.category_ne_general, origin.exists_line, rfl, fun n => rfl, origin, ?_⟩
  intro n s inside
  have good := State.walk_wellFormed (fun m member => Run.lawful_table member)
    (State.initial_wellFormed (Run.ofListing listing).table)
    ((Run.ofListing listing).checkedLines.take n)
  obtain ⟨c, rest, popped⟩ := Stack.exists_pop? (good.point.deep inside)
  exact Option.isSome_of_eq_some popped

namespace Origin

def program : Listing where
  lines := [⟨2, "void add(int n, double x) \x7b".toList⟩, ⟨3, "while (n && x) \x7b".toList⟩,
    ⟨5, "add(n);".toList⟩, ⟨7, "\x7d".toList⟩]
  distinct := by decide

def failure : Failure := ⟨.wrongCount "add".toList 2 1, 5⟩

theorem wrong_count_has_origin :
    (Run.ofListing program).failure? = some failure ∧
      failure.violation.category ≠ .general ∧
      (∃ l ∈ program.lines, l.number = failure.line) ∧
      failure.report.render = failure.violation.category.label ++ " error in line " ++
        toString failure.line ++ " -> " ++ failure.violation.message ∧
      program.FailsBy failure := by
  have failed : (Run.ofListing program).failure? = some failure := by decide
  obtain ⟨particular, known, rendered, -, origin, -⟩ := failures_have_origin failed
  exact ⟨failed, particular, known, rendered, origin⟩

end Origin

end SJava
