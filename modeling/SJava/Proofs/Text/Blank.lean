import Mathlib.Data.List.Induction
import SJava.Proofs.Source

namespace SJava.Text

structure Snug (t : Text) : Prop where
  filled : t ≠ []
  start : ∀ c ∈ t.head?, isBlank c = false
  stop : ∀ c ∈ t.getLast?, isBlank c = false

theorem trimEnd_concat {c : Char} (kept : isBlank c = false) (t : Text) :
    trimEnd (t ++ [c]) = t ++ [c] := by
  induction t with
  | nil => simp [trimEnd, kept]
  | cons d t ih =>
      rw [List.cons_append, trimEnd, ih]
      cases t <;> rfl

theorem trimEnd_of_stop {t : Text} (stop : ∀ c ∈ t.getLast?, isBlank c = false) : trimEnd t = t := by
  rcases List.eq_nil_or_concat t with rfl | ⟨front, c, rfl⟩
  · rfl
  · rw [List.concat_eq_append] at stop ⊢
    exact trimEnd_concat (stop c (by simp)) front

theorem trimStart_of_start {t : Text} (start : ∀ c ∈ t.head?, isBlank c = false) :
    trimStart t = t := by
  cases t with
  | nil => rfl
  | cons c t => rw [trimStart, List.dropWhile_cons_of_neg (by simp [start c rfl])]

theorem trimStart_append {gap : Text} {c : Char} (blanks : ∀ d ∈ gap, isBlank d = true)
    (stop : isBlank c = false) (rest : Text) : trimStart (gap ++ c :: rest) = c :: rest := by
  rw [trimStart, List.dropWhile_append_of_pos blanks, List.dropWhile_cons_of_neg (by simp [stop])]

theorem trim_snug {t lead trail : Text} (snug : Snug t) (before : ∀ c ∈ lead, isBlank c = true)
    (after : ∀ c ∈ trail, isBlank c = true) : trim (lead ++ t ++ trail) = t := by
  rw [Source.trim_surrounded before after, trim, trimStart_of_start snug.start,
    trimEnd_of_stop snug.stop]

theorem trim_of_snug {t : Text} (snug : Snug t) : trim t = t := by
  rw [trim, trimStart_of_start snug.start, trimEnd_of_stop snug.stop]

theorem start_trimStart (t : Text) : ∀ c ∈ (trimStart t).head?, isBlank c = false := by
  intro c head
  have := List.head?_dropWhile_not isBlank t
  rw [trimStart] at head
  rw [Option.mem_def.1 head] at this
  simpa using this

theorem trimEnd_cases (t : Text) :
    ∃ trail, t = trimEnd t ++ trail ∧ (∀ c ∈ trail, isBlank c = true) ∧
      ∀ c ∈ (trimEnd t).getLast?, isBlank c = false := by
  induction t using List.reverseRecOn with
  | nil => exact ⟨[], rfl, by simp, by simp [trimEnd]⟩
  | append_singleton t c ih =>
      cases blank : isBlank c with
      | false =>
          rw [trimEnd_concat blank]
          exact ⟨[], by simp, by simp, by simp [blank]⟩
      | true =>
          obtain ⟨trail, whole, blanks, stop⟩ := ih
          have shorter : trimEnd (t ++ [c]) = trimEnd t := Source.trimEnd_append (by simp [blank]) t
          rw [shorter]
          refine ⟨trail ++ [c], ?_, ?_, stop⟩
          · rw [← List.append_assoc, ← whole]
          · rw [List.forall_mem_append]
            exact ⟨blanks, by simp [blank]⟩

theorem trim_cases (t : Text) :
    trim t = [] ∨ Snug (trim t) ∧ ∃ lead trail, t = lead ++ trim t ++ trail ∧
      (∀ c ∈ lead, isBlank c = true) ∧ ∀ c ∈ trail, isBlank c = true := by
  by_cases empty : trim t = []
  · exact .inl empty
  · obtain ⟨trail, whole, blanks, stop⟩ := trimEnd_cases (trimStart t)
    refine .inr ⟨⟨empty, ?_, stop⟩, t.takeWhile isBlank, trail, ?_, ?_, blanks⟩
    · have start := start_trimStart t
      rw [whole, ← trim, List.head?_append_of_ne_nil _ empty] at start
      exact start
    · rw [List.append_assoc, trim, ← whole, trimStart, List.takeWhile_append_dropWhile]
    · exact fun c => List.mem_takeWhile_imp

theorem snug_trim {t : Text} (filled : trim t ≠ []) : Snug (trim t) :=
  ((trim_cases t).resolve_left filled).1

theorem blank_of_trim {t : Text} (empty : trim t = []) : ∀ c ∈ t, isBlank c = true := by
  obtain ⟨trail, whole, blanks, -⟩ := trimEnd_cases (trimStart t)
  rw [← trim, empty, List.nil_append] at whole
  have none : trimStart t = [] := by
    cases rest : trimStart t with
    | nil => rfl
    | cons c cs =>
        have kept := start_trimStart t c (by rw [rest]; rfl)
        have blank := blanks c (by rw [← whole, rest]; simp)
        rw [kept] at blank
        cases blank
  exact List.dropWhile_eq_nil_iff.1 none

end SJava.Text
