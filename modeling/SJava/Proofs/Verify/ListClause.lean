import SJava.Proofs.Clause.Reading
import SJava.Proofs.Verify.Binder

namespace SJava

namespace Clause

def Declaration.single (d : Declaration) (binder : Text) : Text :=
  opening (if d.final then some [' '] else none) d.type [' '] ++ binder ++ [';']

theorem body_concat_snug {binder : Text} (snug : Text.Snug binder) (front : Text) :
    body (front ++ binder ++ [';']) = front ++ binder := by
  have alone := @body_of_snug binder [] snug (by simp) front
  rwa [List.append_nil] at alone

theorem declaration?_single {d : Declaration} {binder : Text} (snug : Text.Snug binder)
    (oneLine : '\n' ∉ binder) :
    declaration? (body (d.single binder)) = some ⟨d.final, d.type, binder⟩ := by
  have space : ∀ c ∈ [' '], Text.isBlank c = true := List.forall_mem_singleton.2 rfl
  rw [Declaration.single, body_concat_snug snug,
    declaration?_opening _ (by simp) space snug.start oneLine]
  · cases d.final <;> rfl
  · cases d.final <;> simp
    decide

end Clause

namespace Binding

def inTurn (take : Stack → Text → Attempt Stack Violation (List Variable)) (stack : Stack)
    (clauses : List Text) : Attempt Stack Violation (List Variable) :=
  let progress := Attempt.inSequence take stack clauses
  ⟨progress.state, progress.attempt.result.map List.flatten⟩

variable {take : Stack → Text → Attempt Stack Violation (List Variable)}
  {one : Stack → Text → Except Violation (Stack × Variable)} {stack : Stack}

theorem takeAll_alone {binder : Text} (alone : Clause.items binder = .ok [binder]) (stack : Stack) :
    takeAll one stack binder =
      ⟨(Attempt.ofExcept stack (one stack binder)).state,
        (Attempt.ofExcept stack (one stack binder)).result.map fun v => [v]⟩ := by
  rw [takeAll, alone]
  cases taken : one stack binder <;>
    simp [Attempt.inSequence, Attempt.ofExcept, taken, Progress.attempt, Except.map]

theorem takeAll_eq_inTurn {list : Text} {binders : List Text} {single : Text → Text}
    (listed : Clause.items list = .ok binders)
    (alone : ∀ binder ∈ binders, ∀ s, take s (single binder) = takeAll one s binder) :
    takeAll one stack list = inTurn take stack (binders.map single) := by
  have alike : ∀ binder ∈ binders, ∀ s, take s (single binder) = _ := fun binder member s =>
    (alone binder member s).trans (takeAll_alone (Clause.items_of_item listed member) s)
  rw [takeAll, listed, inTurn, Attempt.inSequence_map alike]
  show Progress.attempt _ = _
  generalize Attempt.inSequence _ stack binders = progress
  cases failed : progress.failure with
  | some v => simp [Progress.attempt, failed, Except.map]
  | none => simp [Progress.attempt, failed, Except.map, ← List.flatMap_def]

theorem inTurn_error {clauses : List Text} {v : Violation}
    (atomic : ∀ clause ∈ clauses, ∀ s e, (take s clause).result = .error e →
      (take s clause).state = s)
    (h : (inTurn take stack clauses).result = .error v) :
    ∃ before clause after, clauses = before ++ clause :: after ∧
      (∃ bound, inTurn take stack before = ⟨(inTurn take stack clauses).state, .ok bound⟩) ∧
      (take (inTurn take stack clauses).state clause).result = .error v := by
  have failed : (Attempt.inSequence take stack clauses).failure = some v := by
    unfold inTurn at h
    cases failure : (Attempt.inSequence take stack clauses).failure with
    | none => simp [Progress.attempt, failure, Except.map] at h
    | some e =>
        simp only [Progress.attempt, failure, Except.map, Except.error.injEq] at h
        rw [h]
  obtain ⟨before, clause, after, rfl, passed, refused⟩ := Attempt.failure_inSequence.1 failed
  have left : (inTurn take stack (before ++ clause :: after)).state =
      (Attempt.inSequence take stack before).state :=
    (Attempt.state_inSequence_of_failure passed refused).trans (atomic clause (by simp) _ _ refused)
  refine ⟨before, clause, after, rfl, ⟨(Attempt.inSequence take stack before).done.flatten, ?_⟩, ?_⟩
  · rw [left]
    simp [inTurn, Progress.attempt, passed, Except.map]
  · rw [left]
    exact refused

theorem declare_single {d : Clause.Declaration} {binder : Text} (snug : Text.Snug binder)
    (oneLine : '\n' ∉ binder) (s : Stack) :
    declare s (d.single binder) = takeAll (declareOne d.final d.type) s binder := by
  have terminated : Clause.isTerminated (d.single binder) = true := Clause.isTerminated_concat _
  rw [declare, terminated, Clause.declaration?_single snug oneLine]
  rfl

theorem assign_single {binder : Text} (snug : Text.Snug binder) (s : Stack) :
    assign s (binder ++ [';']) = takeAll assignOne s binder := by
  have alone : Clause.body (binder ++ [';']) = binder := Clause.body_concat_snug snug []
  rw [assign, Clause.isTerminated_concat, alone]
  rfl

theorem state_of_takeAll_alone {binder : Text} (alone : Clause.items binder = .ok [binder])
    {s : Stack} {v : Violation} (h : (takeAll one s binder).result = .error v) :
    (takeAll one s binder).state = s := by
  rw [takeAll_alone alone] at h ⊢
  cases taken : one s binder with
  | error e => rfl
  | ok pair => simp [taken, Attempt.ofExcept, Except.map] at h

/-- The clause does what the clauses with one binder each do in turn. If it fails, it leaves what the
binders before the failing one have done. -/
def ActsInTurn (take : Stack → Text → Attempt Stack Violation (List Variable)) (stack : Stack)
    (clause : Text) (single : Text → Text) (binders : List Text) : Prop :=
  take stack clause = inTurn take stack (binders.map single) ∧
  ∀ v, (take stack clause).result = .error v →
    ∃ before binder after, binders = before ++ binder :: after ∧
      (∃ bound, inTurn take stack (before.map single) = ⟨(take stack clause).state, .ok bound⟩) ∧
      (take (take stack clause).state (single binder)).result = .error v

theorem actsInTurn {clause list : Text} {binders : List Text} {single : Text → Text}
    (listed : Clause.items list = .ok binders) (whole : take stack clause = takeAll one stack list)
    (alone : ∀ binder ∈ binders, ∀ s, take s (single binder) = takeAll one s binder) :
    ActsInTurn take stack clause single binders := by
  have same : take stack clause = inTurn take stack (binders.map single) :=
    whole.trans (takeAll_eq_inTurn listed alone)
  refine ⟨same, ?_⟩
  rw [same]
  intro v failed
  have atomic : ∀ clause ∈ binders.map single, ∀ s e, (take s clause).result = .error e →
      (take s clause).state = s := by
    intro clause member s e refused
    obtain ⟨binder, among, rfl⟩ := List.mem_map.1 member
    rw [alone binder among] at refused ⊢
    exact state_of_takeAll_alone (Clause.items_of_item listed among) refused
  obtain ⟨front, clause, back, split, passed, refused⟩ := inTurn_error atomic failed
  obtain ⟨before, rest, rfl, rfl, tail⟩ := List.map_eq_append_iff.1 split
  obtain ⟨binder, after, rfl, rfl, -⟩ := List.map_eq_cons_iff.1 tail
  exact ⟨before, binder, after, rfl, passed, refused⟩

end Binding

open Binding in
/-- A terminated clause with a list of binders is the sequence of the clauses with one binder each. -/
theorem list_clause_is_sequence (stack : Stack) (clause : Text)
    (terminated : Clause.isTerminated clause = true) :
    (∀ d binders, Clause.declaration? (Clause.body clause) = some d →
      Clause.items d.binders = .ok binders → ActsInTurn declare stack clause d.single binders) ∧
    (∀ binders, Clause.items (Clause.body clause) = .ok binders →
      ActsInTurn assign stack clause (· ++ [';']) binders) := by
  constructor
  · intro d binders shape listed
    have whole : declare stack clause = takeAll (declareOne d.final d.type) stack d.binders := by
      rw [declare, terminated, shape]
      rfl
    apply actsInTurn listed whole
    intro binder member
    refine declare_single (Clause.snug_of_item listed member) ?_
    exact fun feed => Clause.oneLine_of_declaration? shape (Clause.mem_of_item listed member feed)
  · intro binders listed
    have whole : assign stack clause = takeAll assignOne stack (Clause.body clause) := by
      rw [assign, terminated]
      rfl
    apply actsInTurn listed whole
    exact fun binder member => assign_single (Clause.snug_of_item listed member)

namespace ListClause

def twice : Text := "int a = 1, b = a, a = 2;".toList

def declared : Clause.Declaration := ⟨false, .int, "a = 1, b = a, a = 2".toList⟩

def binders : List Text := ["a = 1".toList, "b = a".toList, "a = 2".toList]

theorem twice_acts_in_turn :
    Clause.isTerminated twice = true ∧ Clause.declaration? (Clause.body twice) = some declared ∧
      Clause.items declared.binders = .ok binders ∧
      Binding.ActsInTurn Binding.declare .initial twice declared.single binders := by
  have terminated : Clause.isTerminated twice = true := by rfl
  have shape : Clause.declaration? (Clause.body twice) = some declared := by rfl
  have listed : Clause.items declared.binders = .ok binders := by rfl
  exact ⟨terminated, shape, listed,
    (list_clause_is_sequence .initial twice terminated).1 declared binders shape listed⟩

end ListClause

end SJava
