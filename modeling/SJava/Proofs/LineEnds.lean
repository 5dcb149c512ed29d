import Mathlib.Data.List.Chain
import SJava.Proofs.Text.Blank

namespace SJava

namespace Text

/-- The line is `t` between blanks, where `t` is not empty and neither starts nor ends with one. -/
def StripsTo (line t : Text) : Prop :=
  ∃ lead trail, line = lead ++ t ++ trail ∧ (∀ c ∈ lead, isBlank c = true) ∧
    (∀ c ∈ trail, isBlank c = true) ∧ Snug t

theorem stripsTo_trim {line : Text} (filled : ∃ c ∈ line, isBlank c = false) :
    StripsTo line (trim line) := by
  obtain ⟨c, member, kept⟩ := filled
  rcases trim_cases line with empty | ⟨snug, lead, trail, whole, before, after⟩
  · have blank := blank_of_trim empty c member
    rw [kept] at blank
    cases blank
  · exact ⟨lead, trail, whole, before, after, snug⟩

theorem StripsTo.mem {line t : Text} (strips : StripsTo line t) {c : Char} (member : c ∈ t) :
    c ∈ line := by
  obtain ⟨lead, trail, rfl, -⟩ := strips
  simp [member]

end Text

namespace Source

inductive LineEnd where
  | feed
  | ret
  | both

def LineEnd.text : LineEnd → Text
  | feed => ['\n']
  | ret => ['\r']
  | both => ['\r', '\n']

structure EndedLine where
  text : Text
  plain : IsPlain text
  stop : LineEnd

namespace EndedLine

def written (l : EndedLine) : Text := l.text ++ l.stop.text

/-- The carriage return that ends `l` does not run into a line feed that ends an empty line. -/
def Apart (l next : EndedLine) : Prop := ¬(l.stop = .ret ∧ next.text = [] ∧ next.stop = .feed)

theorem physicalLines_written (l : EndedLine) : physicalLines l.written = [l.text] := by
  have after : brokenAtLineEnds l.stop.text = [[], []] := by cases l.stop <;> rfl
  rw [written, physicalLines_eq, broken_plain_append l.plain after, List.append_nil]
  rfl

theorem head?_written (l : EndedLine) (rest : Text) :
    (l.written ++ rest).head? = some '\n' ↔ l.text = [] ∧ l.stop = .feed := by
  obtain ⟨text, plain, stop⟩ := l
  cases text with
  | nil => cases stop <;> simp [written, LineEnd.text]
  | cons c text =>
      have other : c ≠ '\n' := fun same => plain c (by simp) (.inl same)
      simp [written, other]

theorem endsBetween {l : EndedLine} {rest : Text}
    (apart : l.stop = .ret → rest.head? ≠ some '\n') : EndsBetween l.written rest := by
  intro c last
  rw [written] at last
  cases stop : l.stop with
  | feed | both =>
      left
      simpa [stop, LineEnd.text, eq_comm] using last
  | ret =>
      right
      exact ⟨by simpa [stop, LineEnd.text, eq_comm] using last, apart stop⟩

end EndedLine

/-- Lines with their ends, and what follows the last of these ends: nothing, or one line more. -/
structure Manuscript where
  ended : List EndedLine
  rest : Text
  plain : IsPlain rest
  apart : ended.IsChain EndedLine.Apart

namespace Manuscript

def text (m : Manuscript) : Text := m.ended.flatMap EndedLine.written ++ m.rest

def lines (m : Manuscript) : List Text :=
  m.ended.map EndedLine.text ++ if m.rest = [] then [] else [m.rest]

theorem physicalLines_rest {rest : Text} (plain : IsPlain rest) :
    physicalLines rest = if rest = [] then [] else [rest] := by
  have whole := broken_plain_append plain (b := []) rfl
  simp only [List.append_nil] at whole
  rw [physicalLines_eq, whole, withoutFinal]
  by_cases empty : rest = [] <;> simp [empty]

theorem head?_following {l : EndedLine} {ended : List EndedLine} {rest : Text}
    (plain : IsPlain rest) (apart : ∀ next ∈ ended.head?, l.Apart next) (alone : l.stop = .ret) :
    (ended.flatMap EndedLine.written ++ rest).head? ≠ some '\n' := by
  cases ended with
  | nil =>
      intro feed
      exact plain '\n' (List.mem_of_head? feed) (.inl rfl)
  | cons next ended =>
      rw [List.flatMap_cons, List.append_assoc, Ne, EndedLine.head?_written]
      exact fun feed => apart next rfl ⟨alone, feed⟩

theorem physicalLines_text (m : Manuscript) : physicalLines m.text = m.lines := by
  obtain ⟨ended, rest, plain, apart⟩ := m
  unfold text lines
  induction ended with
  | nil => exact physicalLines_rest plain
  | cons l ended ih =>
      obtain ⟨first, others⟩ := List.isChain_cons.1 apart
      have ends : EndsBetween l.written (ended.flatMap EndedLine.written ++ rest) :=
        EndedLine.endsBetween (head?_following plain first)
      simp only [List.flatMap_cons, List.append_assoc, List.map_cons, List.cons_append]
      rw [physicalLines_append ends, l.physicalLines_written, ih others]
      rfl

theorem plain_of_mem_lines {m : Manuscript} {line : Text} (member : line ∈ m.lines) :
    IsPlain line := by
  rcases List.mem_append.1 member with ended | last
  · obtain ⟨l, -, rfl⟩ := List.mem_map.1 ended
    exact l.plain
  · split at last
    · cases last
    · rw [List.mem_singleton.1 last]
      exact m.plain

end Manuscript

/-! ## Code lines by place -/

theorem sorted_codeLinesFrom (n : Int) (physical : List Text) :
    (codeLinesFrom n physical).Pairwise (·.number < ·.number) := by
  induction physical generalizing n with
  | nil => exact .nil
  | cons line rest ih =>
      rw [codeLinesFrom]
      split
      · exact ih (n + 1)
      · refine List.pairwise_cons.2 ⟨?_, ih (n + 1)⟩
        intro l later
        have := le_number_of_mem_codeLinesFrom later
        show n < l.number
        omega

def IsCode (line : Text) : Prop := ¬['/', '/'] <+: line ∧ ∃ c ∈ line, Text.isBlank c = false

theorem isSkipped_eq_false {line : Text} : isSkipped line = false ↔ IsCode line := by
  rw [isSkipped, Bool.or_eq_false_iff, IsCode, ← List.isPrefixOf_iff_prefix, Bool.not_eq_true]
  simp

theorem mem_codeLinesFrom {n : Int} {physical : List Text} {l : Line} :
    l ∈ codeLinesFrom n physical ↔
      ∃ (i : Nat) (line : Text), physical[i]? = some line ∧ l.number = n + i ∧ IsCode line ∧
        l.text = Text.trim line := by
  induction physical generalizing n with
  | nil => simp [codeLinesFrom]
  | cons first rest ih =>
      -- A place is the first one, or one further than a place in the rest.
      rw [← Nat.or_exists_add_one, codeLinesFrom]
      have start : n + (0 : Nat) = n := by omega
      have shifted (i : Nat) : n + (i + 1 : Nat) = n + 1 + i := by omega
      simp only [List.getElem?_cons_zero, List.getElem?_cons_succ, Option.some.injEq,
        exists_eq_left', start, shifted, ← ih]
      rw [← isSkipped_eq_false]
      cases l with
      | mk number text => cases skipped : isSkipped first <;> simp

end Source

/-- Whatever ends its lines, a text falls into them. Its listing holds, by ascending number, each
code line under its place and without the blanks around it, and nothing else. -/
theorem listing_of_manuscript (m : Source.Manuscript) :
    Source.physicalLines m.text = m.lines ∧
    (Listing.ofText m.text).lines.Pairwise (·.number < ·.number) ∧
    (∀ (i : Nat) (line : Text), m.lines[i]? = some line → Source.IsCode line →
      ∃ t, Text.StripsTo line t ∧ ⟨i + 1, t⟩ ∈ (Listing.ofText m.text).lines) ∧
    ∀ l ∈ (Listing.ofText m.text).lines,
      (∃ (i : Nat) (line : Text), m.lines[i]? = some line ∧ l.number = i + 1 ∧
        Source.IsCode line ∧ Text.StripsTo line l.text) ∧
      l.text ≠ [] ∧ Source.IsPlain l.text := by
  have lines : (Listing.ofText m.text).lines = Source.codeLinesFrom 1 m.lines :=
    congrArg (Source.codeLinesFrom 1) m.physicalLines_text
  rw [lines]
  refine ⟨m.physicalLines_text, Source.sorted_codeLinesFrom 1 m.lines, ?_, ?_⟩
  · intro i line place code
    refine ⟨Text.trim line, Text.stripsTo_trim code.2, ?_⟩
    exact Source.mem_codeLinesFrom.2 ⟨i, line, place, Int.add_comm _ _, code, rfl⟩
  · intro l member
    obtain ⟨i, line, place, number, code, text⟩ := Source.mem_codeLinesFrom.1 member
    have strips : Text.StripsTo line l.text := text ▸ Text.stripsTo_trim code.2
    have plain : Source.IsPlain line :=
      Source.Manuscript.plain_of_mem_lines (List.mem_of_getElem? place)
    refine ⟨⟨i, line, place, by omega, code, strips⟩, ?_, ?_⟩
    · obtain ⟨-, -, -, -, -, snug⟩ := strips
      exact snug.filled
    · intro c inside
      exact plain c (strips.mem inside)

namespace Source.Manuscript

def mixed : Manuscript where
  ended :=
    [⟨"int a;".toList, by decide, .ret⟩, ⟨[], by decide, .both⟩,
      ⟨"// none".toList, by decide, .feed⟩]
  rest := "\u00a0a = 1; ".toList
  plain := by decide
  apart := by simp [EndedLine.Apart]

theorem last_line_of_mixed_listed :
    mixed.lines[3]? = some mixed.rest ∧ IsCode mixed.rest ∧
      ∃ t, Text.StripsTo mixed.rest t ∧ ⟨4, t⟩ ∈ (Listing.ofText mixed.text).lines := by
  have place : mixed.lines[3]? = some mixed.rest := rfl
  have code : IsCode mixed.rest := isSkipped_eq_false.1 (by decide)
  exact ⟨place, code, (listing_of_manuscript mixed).2.2.1 3 mixed.rest place code⟩

end Source.Manuscript

end SJava
