import SJava.Proofs.Listing
import SJava.Proofs.Source
import SJava.Proofs.Verify.Numbering
import SJava.Verify.Analysis

namespace SJava

def Diagnostic.renumbered (f : Int → Int) (d : Diagnostic) : Diagnostic :=
  ⟨d.category, d.message, f d.line⟩

/-- The same analysis with other numbers for the lines. Scopes have none. -/
def Analysis.renumbered (f : Int → Int) (a : Analysis) : Analysis where
  diagnostics := a.diagnostics.map (Diagnostic.renumbered f)
  scopes := a.scopes
  methods := a.methods.map (Method.renumbered f)

theorem State.Alike.isClosed {s s' : State} (alike : s.Alike s') : s'.isClosed = s.isClosed := by
  have outside : s'.method.isNone = s.method.isNone := by
    simpa using congrArg Option.isNone alike.method
  rw [State.isClosed, State.isClosed, outside, alike.stack]

/-! ## Runs over renumbered lines -/

namespace Run

variable (f : Int → Int) (lines : List Line)

theorem walked_renumbered :
    (ofLines lines).state.Alike (ofLines (lines.map (Line.renumbered f))).state ∧
      (ofLines (lines.map (Line.renumbered f))).walked.failure =
        (ofLines lines).walked.failure.map (Failure.renumbered f) := by
  obtain ⟨table, failure⟩ := MethodTable.collect_renumbered f lines
  unfold state ofLines
  simp only [failure]
  cases (MethodTable.collect lines).failure with
  | some x => exact ⟨⟨rfl, rfl, rfl⟩, rfl⟩
  | none =>
      simp only [Option.map_none, table]
      exact State.Alike.walk (MethodTable.agrees_renumbered f _) ⟨rfl, rfl, rfl⟩ f lines

theorem table_renumbered :
    (ofLines (lines.map (Line.renumbered f))).table = (ofLines lines).table.renumbered f := by
  obtain ⟨collected, failure⟩ := MethodTable.collect_renumbered f lines
  unfold table ofLines
  simp only [failure]
  cases (MethodTable.collect lines).failure with
  | some x => rfl
  | none => exact collected

theorem openEnd?_renumbered :
    (ofLines (lines.map (Line.renumbered f))).openEnd? =
      (ofLines lines).openEnd?.map (Failure.renumbered f) := by
  have closed := (walked_renumbered f lines).1.isClosed
  unfold openEnd?
  rw [closed]
  cases opened : (ofLines lines).state.isClosed with
  | true => rfl
  | false =>
      -- Without any line nothing is open, so there is a last number.
      have last : (ofLines (lines.map (Line.renumbered f))).lastNumber =
          f (ofLines lines).lastNumber := by
        unfold lastNumber
        show (((lines.map (Line.renumbered f)).getLast?).map Line.number).getD 0 =
          f ((lines.getLast?.map Line.number).getD 0)
        rw [List.getLast?_map]
        cases final : lines.getLast? with
        | none =>
            rw [List.getLast?_eq_none_iff.1 final] at opened
            cases opened
        | some l => rfl
      rw [last]
      rfl

theorem failure?_renumbered :
    (ofLines (lines.map (Line.renumbered f))).failure? =
      (ofLines lines).failure?.map (Failure.renumbered f) := by
  have collected : (ofLines (lines.map (Line.renumbered f))).collected.failure =
      (ofLines lines).collected.failure.map (Failure.renumbered f) :=
    (MethodTable.collect_renumbered f lines).2
  unfold failure?
  rw [collected, (walked_renumbered f lines).2, openEnd?_renumbered]
  cases (ofLines lines).collected.failure <;> cases (ofLines lines).walked.failure <;> rfl

end Run

namespace Analysis

theorem ofRun_renumbered (f : Int → Int) (lines : List Line) :
    ofRun (.ofLines (lines.map (Line.renumbered f))) = (ofRun (.ofLines lines)).renumbered f := by
  unfold ofRun Analysis.renumbered
  rw [Run.failure?_renumbered, Run.table_renumbered, (Run.walked_renumbered f lines).1.stack]
  cases (Run.ofLines lines).failure? <;> rfl

theorem ofListing_renumbered {listing other : Listing} {f : Int → Int}
    (increasing : ∀ l ∈ listing.lines, ∀ k ∈ listing.lines, l.number < k.number →
      f l.number < f k.number)
    (same : other.lines.Perm (listing.lines.map (Line.renumbered f))) :
    ofListing other = (ofListing listing).renumbered f := by
  have perm := listing.perm_ascending
  have sorted : (listing.ascending.map (Line.renumbered f)).Pairwise (·.number < ·.number) := by
    rw [List.pairwise_map]
    refine listing.sorted_ascending.imp_of_mem ?_
    intro l k first second below
    exact increasing l (perm.mem_iff.1 first) k (perm.mem_iff.1 second) below
  have lines : other.ascending = listing.ascending.map (Line.renumbered f) :=
    Listing.eq_of_sorted other.sorted_ascending sorted
      (other.perm_ascending.trans (same.trans (perm.map _).symm))
  unfold ofListing Run.ofListing
  rw [lines]
  exact ofRun_renumbered f listing.ascending

end Analysis

/-! ## Texts -/

namespace Source

theorem codeLinesFrom_succ (n : Int) (physical : List Text) :
    codeLinesFrom (n + 1) physical =
      (codeLinesFrom n physical).map (Line.renumbered (· + 1)) := by
  induction physical generalizing n with
  | nil => rfl
  | cons line rest ih =>
      rw [codeLinesFrom, codeLinesFrom, ih (n + 1)]
      split <;> rfl

def shiftAfter (count : Nat) (n : Int) : Int := if n ≤ count then n else n + 1

theorem shiftAfter_lt {count : Nat} {m n : Int} (below : m < n) :
    shiftAfter count m < shiftAfter count n := by
  unfold shiftAfter
  split <;> split <;> omega

theorem codeLines_with_skipped {line : Text} (skipped : isSkipped line = true)
    (front back : List Text) :
    codeLinesFrom 1 (front ++ line :: back) =
      (codeLinesFrom 1 (front ++ back)).map (Line.renumbered (shiftAfter front.length)) := by
  have before : (codeLinesFrom 1 front).map (Line.renumbered (shiftAfter front.length)) =
      codeLinesFrom 1 front := by
    refine (List.map_congr_left ?_).trans (List.map_id _)
    intro l member
    have := number_lt_of_mem_codeLinesFrom member
    simp only [Line.renumbered, shiftAfter]
    rw [if_pos (by omega)]
    rfl
  have after : (codeLinesFrom (1 + front.length) back).map
      (Line.renumbered (shiftAfter front.length)) =
        codeLinesFrom (1 + front.length + 1) back := by
    rw [codeLinesFrom_succ]
    apply List.map_congr_left
    intro l member
    have := le_number_of_mem_codeLinesFrom member
    simp only [Line.renumbered, shiftAfter]
    rw [if_neg (by omega)]
  rw [codeLinesFrom_append, codeLinesFrom_append, List.map_append, before, after, codeLinesFrom,
    if_pos skipped]

end Source

namespace Listing

open Source

theorem lines_with_skipped {a line : Text} (ends : a = [] ∨ a.getLast? = some '\n')
    (plain : IsPlain line) (skipped : isSkipped line = true) (b : Text) :
    (ofText (a ++ line ++ '\n' :: b)).lines =
      (ofText (a ++ b)).lines.map (Line.renumbered (shiftAfter (physicalLines a).length)) := by
  have apart (c : Text) : EndsBetween a c := by
    intro d last
    rcases ends with rfl | feed
    · cases last
    · rw [feed] at last
      exact .inl (Option.some.inj last).symm
  have whole : a ++ line ++ '\n' :: b = a ++ ((line ++ ['\n']) ++ b) := by simp
  have terminated : EndsBetween (line ++ ['\n']) b := by
    intro c last
    rw [List.getLast?_concat] at last
    exact .inl (Option.some.inj last).symm
  have physical : physicalLines (a ++ line ++ '\n' :: b) =
      physicalLines a ++ line :: physicalLines b := by
    rw [whole, physicalLines_append (apart _), physicalLines_append terminated,
      physicalLines_terminated plain, List.singleton_append]
  show codeLinesFrom 1 (physicalLines (a ++ line ++ '\n' :: b)) =
    (codeLinesFrom 1 (physicalLines (a ++ b))).map _
  rw [physical, physicalLines_append (apart b)]
  exact codeLines_with_skipped skipped _ _

theorem ofText_surrounded {a b lead core trail lead' trail' : Text}
    (before : ∀ c ∈ a.getLast?, EndsLine c) (after : ∀ c ∈ b.head?, EndsLine c)
    (plain : IsPlain (lead ++ core ++ trail)) (plain' : IsPlain (lead' ++ core ++ trail'))
    (blank : (lead ++ trail).all Text.isBlank = true)
    (blank' : (lead' ++ trail').all Text.isBlank = true)
    (kept : isSkipped (lead ++ core ++ trail) = false)
    (code : ['/', '/'].isPrefixOf (Text.trim (lead ++ core ++ trail)) = false) :
    ofText (a ++ (lead' ++ core ++ trail') ++ b) = ofText (a ++ (lead ++ core ++ trail) ++ b) := by
  rw [List.all_eq_true, List.forall_mem_append] at blank blank'
  rw [trim_surrounded blank.1 blank.2] at code
  have kept' : isSkipped (lead' ++ core ++ trail') = false := by
    rw [← kept, isSkipped_surrounded blank.1 blank.2 code,
      isSkipped_surrounded blank'.1 blank'.2 code]
  have filled {line : Text} (kept : isSkipped line = false) : line ≠ [] := by
    rintro rfl
    cases kept
  obtain ⟨rest, physical⟩ := physicalLines_between before after
  have trimmed : Text.trim (lead' ++ core ++ trail') = Text.trim (lead ++ core ++ trail) := by
    rw [trim_surrounded blank.1 blank.2, trim_surrounded blank'.1 blank'.2]
  simp only [ofText, physical _ plain (filled kept), physical _ plain' (filled kept'),
    codeLinesFrom_append, codeLinesFrom, kept, kept', trimmed]

end Listing

/-- An analysis does not depend on where the lines of a program stand, but for the numbers it shows:
with other numbers in the same order, in whatever order the lines are given, it is the same up to
these numbers. So one more comment or blank line in a text adds one to the numbers after it, and
other blanks around a line of code change nothing. -/
theorem analysis_independent_of_layout :
    (∀ (listing other : Listing) (f : Int → Int),
      (∀ l ∈ listing.lines, ∀ k ∈ listing.lines, l.number < k.number → f l.number < f k.number) →
      other.lines.Perm (listing.lines.map (Line.renumbered f)) →
        Analysis.ofListing other = (Analysis.ofListing listing).renumbered f) ∧
    (∀ a line b : Text, (a = [] ∨ a.getLast? = some '\n') →
      Source.IsPlain line → Source.isSkipped line = true →
        Analysis.ofText (a ++ line ++ '\n' :: b) =
          (Analysis.ofText (a ++ b)).renumbered
            (Source.shiftAfter (Source.physicalLines a).length)) ∧
    ∀ a b lead core trail lead' trail' : Text,
      (∀ c ∈ a.getLast?, Source.EndsLine c) → (∀ c ∈ b.head?, Source.EndsLine c) →
      Source.IsPlain (lead ++ core ++ trail) → Source.IsPlain (lead' ++ core ++ trail') →
      (lead ++ trail).all Text.isBlank = true → (lead' ++ trail').all Text.isBlank = true →
      Source.isSkipped (lead ++ core ++ trail) = false →
      ['/', '/'].isPrefixOf (Text.trim (lead ++ core ++ trail)) = false →
        Analysis.ofText (a ++ (lead' ++ core ++ trail') ++ b) =
          Analysis.ofText (a ++ (lead ++ core ++ trail) ++ b) := by
  refine ⟨?_, ?_, ?_⟩
  · intro listing other f increasing same
    exact Analysis.ofListing_renumbered increasing same
  · intro a line b ends plain skipped
    apply Analysis.ofListing_renumbered
    · intro l _ k _ below
      exact Source.shiftAfter_lt below
    · rw [Listing.lines_with_skipped ends plain skipped b]
  · intro a b lead core trail lead' trail' before after plain plain' blank blank' kept code
    unfold Analysis.ofText
    rw [Listing.ofText_surrounded before after plain plain' blank blank' kept code]

namespace Placement

def program : Listing := ⟨[⟨1, "void f() \x7b".toList⟩, ⟨2, "return;".toList⟩], by decide⟩

def elsewhere : Listing := ⟨[⟨20, "return;".toList⟩, ⟨10, "void f() \x7b".toList⟩], by decide⟩

theorem unclosed_method_elsewhere :
    let opening := "void f() \x7b\n".toList
    let statement := "return;".toList
    elsewhere.lines.Perm (program.lines.map (Line.renumbered (10 * ·))) ∧
    Analysis.ofListing elsewhere = (Analysis.ofListing program).renumbered (10 * ·) ∧
    Source.isSkipped "// no result".toList = true ∧
    Analysis.ofText (opening ++ "// no result".toList ++ '\n' :: statement) =
      (Analysis.ofText (opening ++ statement)).renumbered (Source.shiftAfter 1) ∧
    Source.isSkipped (" ".toList ++ statement ++ []) = false ∧
    Analysis.ofText (opening ++ ("\t\t".toList ++ statement ++ " ".toList) ++ "\r\n".toList) =
      Analysis.ofText (opening ++ (" ".toList ++ statement ++ []) ++ "\r\n".toList) := by
  intro opening statement
  obtain ⟨numbers, comment, blanks⟩ := analysis_independent_of_layout
  refine ⟨by decide, ?_, by decide, ?_, by decide, ?_⟩
  · exact numbers program elsewhere _ (by decide) (by decide)
  · exact comment opening _ statement (by decide) (by decide) (by decide)
  · apply blanks _ _ _ _ _ _ _ _ _ (by decide) (by decide) (by decide) (by decide) (by decide)
      (by decide)
    · simp [Source.EndsLine, opening]
    · simp [Source.EndsLine]

end Placement

end SJava
