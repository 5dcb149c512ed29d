import Mathlib.Data.List.Basic
import Mathlib.Data.List.TakeWhile
import SJava.Listing

namespace SJava.Source

def EndsLine (c : Char) : Prop := c = '\n' ∨ c = '\r'

def IsPlain (t : Text) : Prop := ∀ c ∈ t, ¬EndsLine c

instance (c : Char) : Decidable (EndsLine c) := inferInstanceAs (Decidable (_ ∨ _))

instance (t : Text) : Decidable (IsPlain t) := List.decidableBAll (¬EndsLine ·) t

/-- A line ends between the two texts, or the first is empty. A carriage return and a line feed are
not parted. -/
def EndsBetween (a b : Text) : Prop :=
  ∀ c, a.getLast? = some c → c = '\n' ∨ c = '\r' ∧ b.head? ≠ some '\n'

theorem broken_ne_nil (t : Text) : brokenAtLineEnds t ≠ [] := by
  fun_cases brokenAtLineEnds t with
  | case1 | case2 | case3 | case4 => simp
  | case5 c t => cases brokenAtLineEnds t <;> simp [Text.prepend]

theorem broken_cons {c : Char} (feed : c ≠ '\n') (ret : c ≠ '\r') (t : Text) :
    brokenAtLineEnds (c :: t) = Text.prepend c (brokenAtLineEnds t) := by
  rw [brokenAtLineEnds]
  · simp [ret]
  · exact ret
  · exact feed

theorem broken_return {t : Text} (apart : t.head? ≠ some '\n') :
    brokenAtLineEnds ('\r' :: t) = [] :: brokenAtLineEnds t := by
  rw [brokenAtLineEnds]
  rintro rest rfl
  exact apart rfl

theorem broken_plain_append {line : Text} (plain : IsPlain line) {b first : Text} {rest : List Text}
    (after : brokenAtLineEnds b = first :: rest) :
    brokenAtLineEnds (line ++ b) = (line ++ first) :: rest := by
  induction line with
  | nil => exact after
  | cons c line ih =>
      obtain ⟨feed, ret⟩ := not_or.1 (plain c (by simp))
      rw [List.cons_append, broken_cons feed ret, ih fun d member => plain d (by simp [member])]
      rfl

theorem eq_nil_of_broken {t : Text} (h : brokenAtLineEnds t = [[]]) : t = [] := by
  fun_cases brokenAtLineEnds t with
  | case1 => rfl
  | case2 t | case3 t | case4 t =>
      simp only [brokenAtLineEnds, List.cons.injEq, true_and] at h
      exact absurd h (broken_ne_nil t)
  | case5 c t _ ret feed =>
      rw [broken_cons feed ret] at h
      cases broken : brokenAtLineEnds t <;> simp [broken, Text.prepend] at h

theorem EndsBetween.tail {c : Char} {a b : Text} (ends : EndsBetween (c :: a) b) :
    EndsBetween a b := by
  intro d last
  cases a with
  | nil => cases last
  | cons e a => exact ends d (by rwa [List.getLast?_cons_cons])

theorem broken_append {a b : Text} (ends : EndsBetween a b) :
    ∃ lines, brokenAtLineEnds a = lines ++ [[]] ∧
      brokenAtLineEnds (a ++ b) = lines ++ brokenAtLineEnds b := by
  fun_induction brokenAtLineEnds a with
  | case1 => exact ⟨[], rfl, rfl⟩
  | case2 t ih =>
      obtain ⟨lines, inner, whole⟩ := ih ends.tail.tail
      exact ⟨[] :: lines, by rw [inner]; rfl, by simp [brokenAtLineEnds, whole]⟩
  | case3 t apart ih =>
      have alone : (t ++ b).head? ≠ some '\n' := by
        cases t with
        | nil => simpa using ends '\r' rfl
        | cons d t =>
            intro feed
            exact apart t (by simpa using feed)
      obtain ⟨lines, inner, whole⟩ := ih ends.tail
      exact ⟨[] :: lines, by rw [inner]; rfl, by simp [broken_return alone, whole]⟩
  | case4 t ih =>
      obtain ⟨lines, inner, whole⟩ := ih ends.tail
      exact ⟨[] :: lines, by rw [inner]; rfl, by simp [brokenAtLineEnds, whole]⟩
  | case5 c t _ ret feed ih =>
      obtain ⟨lines, inner, whole⟩ := ih ends.tail
      cases lines with
      | nil =>
          -- Then `c` is the last character, which ends no line.
          obtain rfl := eq_nil_of_broken inner
          rcases ends c rfl with same | ⟨same, -⟩
          · exact absurd same feed
          · exact absurd same ret
      | cons line lines =>
          refine ⟨(c :: line) :: lines, by rw [inner]; rfl, ?_⟩
          rw [List.cons_append, broken_cons feed ret, whole]
          rfl

def withoutFinal (lines : List Text) : List Text :=
  if lines.getLast? = some [] then lines.dropLast else lines

theorem physicalLines_eq (t : Text) : physicalLines t = withoutFinal (brokenAtLineEnds t) := rfl

theorem withoutFinal_append {lines rest : List Text} (more : rest ≠ []) :
    withoutFinal (lines ++ rest) = lines ++ withoutFinal rest := by
  unfold withoutFinal
  rw [List.getLast?_append_of_ne_nil _ more, List.dropLast_append_of_ne_nil more]
  split <;> rfl

theorem physicalLines_append {a b : Text} (ends : EndsBetween a b) :
    physicalLines (a ++ b) = physicalLines a ++ physicalLines b := by
  obtain ⟨lines, first, whole⟩ := broken_append ends
  rw [physicalLines_eq, physicalLines_eq, physicalLines_eq, whole, first,
    withoutFinal_append (broken_ne_nil b), withoutFinal_append (by simp)]
  simp [withoutFinal]

theorem physicalLines_terminated {line : Text} (plain : IsPlain line) :
    physicalLines (line ++ ['\n']) = [line] := by
  rw [physicalLines_eq, broken_plain_append plain rfl, List.append_nil]
  rfl

theorem physicalLines_line {b : Text} (ends : ∀ c ∈ b.head?, EndsLine c) :
    ∃ rest, ∀ line, IsPlain line → line ≠ [] → physicalLines (line ++ b) = line :: rest := by
  obtain ⟨rest, after⟩ : ∃ rest, brokenAtLineEnds b = [] :: rest := by
    fun_cases brokenAtLineEnds b with
    | case1 => exact ⟨[], rfl⟩
    | case2 t | case3 t | case4 t => exact ⟨_, rfl⟩
    | case5 c t _ ret feed =>
        rcases ends c rfl with same | same
        · exact absurd same feed
        · exact absurd same ret
  refine ⟨withoutFinal rest, ?_⟩
  intro line plain filled
  rw [physicalLines_eq, broken_plain_append plain after, List.append_nil]
  cases rest with
  | nil => simp [withoutFinal, filled]
  | cons next rest =>
      show withoutFinal ([line] ++ next :: rest) = _
      exact withoutFinal_append (by simp)

theorem physicalLines_between {a b : Text} (before : ∀ c ∈ a.getLast?, EndsLine c)
    (after : ∀ c ∈ b.head?, EndsLine c) :
    ∃ rest, ∀ line, IsPlain line → line ≠ [] →
      physicalLines (a ++ line ++ b) = physicalLines a ++ line :: rest := by
  obtain ⟨rest, alone⟩ := physicalLines_line after
  refine ⟨rest, ?_⟩
  intro line plain filled
  have ends : EndsBetween a (line ++ b) := by
    intro c last
    refine (before c last).imp_right fun ret => ⟨ret, ?_⟩
    cases line with
    | nil => exact absurd rfl filled
    | cons d line =>
        intro feed
        exact plain d (by simp) (.inl (by simpa using feed))
  rw [List.append_assoc, physicalLines_append ends, alone line plain filled]

/-! ## Code lines -/

theorem codeLinesFrom_append (n : Int) (front back : List Text) :
    codeLinesFrom n (front ++ back) =
      codeLinesFrom n front ++ codeLinesFrom (n + front.length) back := by
  induction front generalizing n with
  | nil => simp [codeLinesFrom]
  | cons line front ih =>
      have next : n + (line :: front).length = n + 1 + front.length := by
        rw [List.length_cons]
        omega
      rw [List.cons_append, codeLinesFrom, codeLinesFrom, ih, next]
      split <;> rfl

theorem number_lt_of_mem_codeLinesFrom {n : Int} {physical : List Text} {l : Line}
    (member : l ∈ codeLinesFrom n physical) : l.number < n + physical.length := by
  induction physical generalizing n with
  | nil => cases member
  | cons line rest ih =>
      rw [List.length_cons]
      rw [codeLinesFrom] at member
      split at member
      · have := ih member
        omega
      · rcases List.mem_cons.1 member with rfl | later
        · simp only
          omega
        · have := ih later
          omega

/-! ## Blanks around a line -/

theorem trimEnd_cons {c : Char} (kept : Text.isBlank c = false) (t : Text) :
    Text.trimEnd (c :: t) = c :: Text.trimEnd t := by
  rw [Text.trimEnd]
  cases Text.trimEnd t <;> simp [kept]

theorem trimEnd_append {trail : Text} (blank : ∀ c ∈ trail, Text.isBlank c = true) (t : Text) :
    Text.trimEnd (t ++ trail) = Text.trimEnd t := by
  induction t with
  | nil =>
      show Text.trimEnd trail = []
      induction trail with
      | nil => rfl
      | cons c trail ih =>
          obtain ⟨first, others⟩ := List.forall_mem_cons.1 blank
          simp [Text.trimEnd, ih others, first]
  | cons c t ih => rw [List.cons_append, Text.trimEnd, ih, Text.trimEnd]

theorem trim_surrounded {lead trail : Text} (before : ∀ c ∈ lead, Text.isBlank c = true)
    (after : ∀ c ∈ trail, Text.isBlank c = true) (core : Text) :
    Text.trim (lead ++ core ++ trail) = Text.trim core := by
  unfold Text.trim Text.trimStart
  rw [List.append_assoc, List.dropWhile_append_of_pos before, List.dropWhile_append]
  split
  · rename_i none
    rw [List.isEmpty_iff.1 none, List.dropWhile_eq_nil_iff.2 after]
  · exact trimEnd_append after _

theorem comment_trim {line : Text} (comment : ['/', '/'].isPrefixOf line = true) :
    ['/', '/'].isPrefixOf (Text.trim line) = true := by
  obtain ⟨rest, rfl⟩ := List.isPrefixOf_iff_prefix.1 comment
  have slash : Text.isBlank '/' = false := by decide
  have trimmed : Text.trim ('/' :: '/' :: rest) = '/' :: '/' :: Text.trimEnd rest := by
    rw [Text.trim, Text.trimStart, List.dropWhile_cons_of_neg (by simp [slash]),
      trimEnd_cons slash, trimEnd_cons slash]
  show ['/', '/'].isPrefixOf (Text.trim ('/' :: '/' :: rest)) = true
  rw [trimmed]
  rfl

theorem isSkipped_surrounded {lead trail core : Text}
    (before : ∀ c ∈ lead, Text.isBlank c = true) (after : ∀ c ∈ trail, Text.isBlank c = true)
    (code : ['/', '/'].isPrefixOf (Text.trim core) = false) :
    isSkipped (lead ++ core ++ trail) = core.all Text.isBlank := by
  have uncommented : ['/', '/'].isPrefixOf (lead ++ core ++ trail) = false := by
    rw [Bool.eq_false_iff]
    intro comment
    have := comment_trim comment
    rw [trim_surrounded before after, code] at this
    cases this
  rw [isSkipped, uncommented, List.all_append, List.all_append, List.all_eq_true.2 before,
    List.all_eq_true.2 after]
  simp

end SJava.Source
