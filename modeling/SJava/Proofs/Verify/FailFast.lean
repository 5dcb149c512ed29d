import SJava.Proofs.Listing
import SJava.Proofs.Verify.Numbering

namespace SJava

theorem State.check_of_take {table : MethodTable} {s : State} {l : Line} {f : Failure}
    (refused : (s.take table l).result = .error f) :
    f.line = l.number ∧ (s.check table l.text).result = .error f.violation := by
  unfold take at refused
  split at refused
  · rename_i checked
    cases refused
    exact ⟨rfl, by rw [checked]⟩
  · cases refused

namespace Run

theorem failure_walk_of_shared {table : MethodTable} {s : State} {lines others : List Line}
    {f : Failure} (sorted : lines.Pairwise (·.number < ·.number))
    (sorted' : others.Pairwise (·.number < ·.number))
    (same : ∀ l : Line, l.number ≤ f.line → (l ∈ lines ↔ l ∈ others))
    (failed : (walk table s lines).failure = some f) : (walk table s others).failure = some f := by
  obtain ⟨before, l, after, rfl, passed, refused⟩ := Attempt.failure_inSequence.1 failed
  rw [(State.check_of_take refused).1] at same
  obtain ⟨rest, rfl⟩ := Listing.shared_front sorted sorted' same
  exact Attempt.failure_inSequence.2 ⟨before, l, rest, rfl, passed, refused⟩

theorem failure_walk_of_agrees {table other : MethodTable} (agree : table.Agrees other) (s : State)
    (lines : List Line) : (walk other s lines).failure = (walk table s lines).failure := by
  have alike : s.Alike s := ⟨rfl, rfl, rfl⟩
  have same := (alike.walk agree id lines).2
  have kept : Line.renumbered id = id := rfl
  have reported : Failure.renumbered id = id := rfl
  rwa [kept, reported, List.map_id, Option.map_id] at same

end Run

theorem MethodTable.failure_collect_of_shared {lines others : List Line} {f : Failure}
    (sorted : lines.Pairwise (·.number < ·.number))
    (sorted' : others.Pairwise (·.number < ·.number))
    (same : ∀ l : Line, l.number ≤ f.line → declares l = true → (l ∈ lines ↔ l ∈ others))
    (failed : (collect lines).failure = some f) : (collect others).failure = some f := by
  obtain ⟨before, l, after, split, passed, refused⟩ := Attempt.failure_inSequence.1 failed
  have headers := sorted.filter declares
  have shared (k : Line) (low : k.number ≤ l.number) :
      k ∈ lines.filter declares ↔ k ∈ others.filter declares := by
    rw [← (take_error refused).1] at low
    simp only [List.mem_filter, and_congr_left_iff]
    exact same k low
  rw [split] at headers shared
  obtain ⟨rest, split'⟩ := Listing.shared_front headers (sorted'.filter declares) shared
  exact Attempt.failure_inSequence.2 ⟨before, l, rest, split', passed, refused⟩

theorem Run.walked_of_pass {listing : Listing} (pass : (ofListing listing).collected.failure = none) :
    (ofListing listing).walked = walk (ofListing listing).table .initial listing.ascending := by
  have passed : (MethodTable.collect listing.ascending).failure = none := pass
  simp only [ofListing, ofLines, table, passed]

/-- If two programs pass the first pass with the same parameters for every name, and have the same
lines up to the one where the second pass over the first program fails, then it fails on the second
program with the same violation at the same line. If the first pass fails on a program, its failure is
reported, for this program and for any other that has the same headers up to the line at fault. -/
theorem failure_decided_by_lines_so_far (listing other : Listing) (f : Failure) :
    ((Run.ofListing listing).collected.failure = none →
      (Run.ofListing other).collected.failure = none →
      (Run.ofListing listing).table.Agrees (Run.ofListing other).table →
      (∀ l : Line, l.number ≤ f.line → (l ∈ listing.lines ↔ l ∈ other.lines)) →
      (Run.ofListing listing).walked.failure = some f →
      (Run.ofListing other).walked.failure = some f ∧
        (Run.ofListing other).failure? = some f) ∧
    ((Run.ofListing listing).collected.failure = some f →
      (Run.ofListing listing).failure? = some f ∧
      ((∀ l : Line, l.number ≤ f.line → MethodTable.declares l = true →
        (l ∈ listing.lines ↔ l ∈ other.lines)) → (Run.ofListing other).failure? = some f)) := by
  have members (l : Line) : (l ∈ listing.lines ↔ l ∈ other.lines) ↔
      (l ∈ listing.ascending ↔ l ∈ other.ascending) := by
    rw [listing.perm_ascending.mem_iff, other.perm_ascending.mem_iff]
  simp only [members]
  constructor
  · intro pass pass' agree same failed
    rw [Run.walked_of_pass pass] at failed
    have shared := Run.failure_walk_of_shared listing.sorted_ascending other.sorted_ascending same
      failed
    have failed' : (Run.ofListing other).walked.failure = some f := by
      rw [Run.walked_of_pass pass', Run.failure_walk_of_agrees agree, shared]
    refine ⟨failed', ?_⟩
    rw [Run.failure?, pass', failed']
    rfl
  · intro failed
    refine ⟨Run.failure?_of_collect failed, ?_⟩
    intro same
    exact Run.failure?_of_collect (MethodTable.failure_collect_of_shared listing.sorted_ascending
      other.sorted_ascending same failed)

namespace FailFast

def opening : List Line :=
  [⟨1, "void first(int n) \x7b".toList⟩, ⟨2, "second(n);".toList⟩, ⟨3, "n = missing;".toList⟩]

def orderly : Listing where
  lines := opening ++ [⟨4, "return;".toList⟩, ⟨5, "\x7d".toList⟩,
    ⟨6, "void second(int k) \x7b".toList⟩, ⟨7, "return;".toList⟩, ⟨8, "\x7d".toList⟩]
  distinct := by decide

def messy : Listing where
  lines := opening ++ [⟨4, "void second(int k) \x7b".toList⟩, ⟨9, "int;;".toList⟩]
  distinct := by decide

def missing : Failure := ⟨.undeclared "missing".toList, 3⟩

def twice : Listing where
  lines := [⟨1, "void first(int n) \x7b".toList⟩, ⟨2, "int;;".toList⟩,
    ⟨5, "void first() \x7b".toList⟩]
  distinct := by decide

def twiceAgain : Listing where
  lines := [⟨1, "void first(int n) \x7b".toList⟩, ⟨4, "return 1".toList⟩,
    ⟨5, "void first() \x7b".toList⟩, ⟨6, "void".toList⟩]
  distinct := by decide

theorem agrees : (Run.ofListing orderly).table.Agrees (Run.ofListing messy).table := by
  have renumbered : (Run.ofListing messy).table =
      (Run.ofListing orderly).table.renumbered fun n => if n = 6 then 4 else n := by decide
  rw [renumbered]
  exact MethodTable.agrees_renumbered _ _

theorem shared (l : Line) (low : l.number ≤ 3) : l ∈ orderly.lines ↔ l ∈ messy.lines := by
  have early {lines : List Line} (late : ∀ k ∈ lines, 3 < k.number) : l ∉ lines := by
    intro member
    have := late l member
    omega
  simp only [orderly, messy, List.mem_append]
  rw [or_iff_left (early (by decide)), or_iff_left (early (by decide))]

theorem sharedHeaders (l : Line) (low : l.number ≤ 5) (header : MethodTable.declares l = true) :
    l ∈ twice.lines ↔ l ∈ twiceAgain.lines := by
  simp only [twice, twiceAgain, List.mem_cons, List.not_mem_nil, or_false]
  constructor
  · rintro (rfl | rfl | rfl)
    · exact .inl rfl
    · exact absurd header (by decide)
    · exact .inr (.inr (.inl rfl))
  · rintro (rfl | rfl | rfl | rfl)
    · exact .inl rfl
    · exact absurd header (by decide)
    · exact .inr (.inr rfl)
    · exact absurd low (by decide)

theorem same_failure_in_both :
    (Run.ofListing orderly).failure? = some missing ∧
      (Run.ofListing messy).failure? = some missing ∧
      (Run.ofListing twiceAgain).failure? = some ⟨.duplicateMethod "first".toList, 5⟩ := by
  have failed : (Run.ofListing orderly).walked.failure = some missing := by decide
  have refused : (Run.ofListing twice).collected.failure =
      some ⟨.duplicateMethod "first".toList, 5⟩ := by decide
  have second := (failure_decided_by_lines_so_far orderly messy missing).1 (by decide) (by decide)
    agrees shared failed
  have first := (failure_decided_by_lines_so_far twice twiceAgain _).2 refused
  exact ⟨by decide, second.2, first.2 sharedHeaders⟩

end FailFast

end SJava
