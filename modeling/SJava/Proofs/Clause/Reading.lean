import SJava.Proofs.Clause.Exclusion
import SJava.Proofs.Clause.Layout
import SJava.Proofs.Lexicon.Quotation
import SJava.Proofs.Text.Blank

namespace SJava

namespace Text

theorem singleLine?_of_absent {t : Text} (absent : '\n' ∉ t) : singleLine? t = some t := by
  induction t with
  | nil => rfl
  | cons c t ih =>
      rw [List.mem_cons, not_or] at absent
      rw [singleLine?, ih absent.2]
      · rfl
      · exact fun feed => absurd feed.symm absent.1

theorem absent_of_singleLine? {t line : Text} (h : singleLine? t = some line) : '\n' ∉ line := by
  induction t generalizing line with
  | nil =>
      cases h
      exact List.not_mem_nil
  | cons c t ih =>
      by_cases feed : c = '\n'
      · subst feed
        rw [singleLine?] at h
        split at h
        · cases h
          exact List.not_mem_nil
        · cases h
      · rw [singleLine?] at h
        · obtain ⟨rest, read, rfl⟩ := Option.map_eq_some_iff.1 h
          rw [List.mem_cons, not_or]
          exact ⟨Ne.symm feed, ih read⟩
        · exact feed

theorem cutAtFirst_append {c : Char} {a : Text} (absent : c ∉ a) (b : Text) :
    cutAtFirst c (a ++ c :: b) = some (a, b) := by
  induction a with
  | nil => simp [cutAtFirst]
  | cons d a ih =>
      rw [List.mem_cons, not_or] at absent
      rw [List.cons_append, cutAtFirst, if_neg (Ne.symm absent.1), ih absent.2]
      rfl

theorem cutAtLast_append {c : Char} {b : Text} (absent : c ∉ b) (a : Text) :
    cutAtLast c (a ++ c :: b) = some (a, b) := by
  induction a with
  | nil =>
      have none : cutAtLast c b = none := by
        cases cut : cutAtLast c b with
        | none => rfl
        | some pair =>
            rw [cutAtLast_eq_some cut] at absent
            exact absurd (by simp) absent
      rw [List.nil_append, cutAtLast, none]
      simp
  | cons d a ih => rw [List.cons_append, cutAtLast, ih]

theorem afterBlanks_append {blank : Char → Bool} {gap rest : Text}
    (blanks : ∀ c ∈ gap, blank c = true) (some : gap ≠ [])
    (start : ∀ c ∈ rest.head?, blank c = false) :
    afterBlanks blank (gap ++ rest) = .some rest := by
  cases gap with
  | nil => exact absurd rfl some
  | cons c gap =>
      rw [List.forall_mem_cons] at blanks
      rw [List.cons_append, afterBlanks, if_pos blanks.1, List.dropWhile_append_of_pos blanks.2]
      cases rest with
      | nil => rfl
      | cons d rest => rw [List.dropWhile_cons_of_neg (by simp [start d rfl])]

end Text

theorem ValueType.leading?_word (type : ValueType) (rest : Text) :
    leading? (type.word.toList ++ rest) = some (type, rest) := by
  cases type <;> rfl

theorem ValueType.word_start (type : ValueType) (rest : Text) :
    ∀ c ∈ (type.word.toList ++ rest).head?, Text.isBlank c = false := by
  intro c head
  cases type <;> cases head <;> rfl

namespace Clause

theorem parenthesized?_append {inner tail : Text} (oneLine : '\n' ∉ inner) (absent : ')' ∉ tail) :
    parenthesized? ('(' :: (inner ++ ')' :: tail)) = some (inner, tail) := by
  rw [parenthesized?, Text.cutAtLast_append absent, Option.filter_some,
    if_pos (by simpa using oneLine)]

theorem isTerminated_concat (t : Text) : isTerminated (t ++ [';']) = true := by
  simp [isTerminated, Text.endsIn]

theorem body_concat (t : Text) : body (t ++ [';']) = Text.trimEnd t := by
  rw [body, if_pos (isTerminated_concat t), List.dropLast_concat]

theorem body_of_snug {list trail : Text} (snug : Text.Snug list)
    (blank : ∀ c ∈ trail, Text.isBlank c = true) (front : Text) :
    body (front ++ (list ++ trail) ++ [';']) = front ++ list := by
  rw [body_concat, ← List.append_assoc, Source.trimEnd_append blank]
  apply Text.trimEnd_of_stop
  rw [List.getLast?_append_of_ne_nil _ snug.filled]
  exact snug.stop

/-! ## Openings of declarations -/

def opening (modifier : Option Text) (type : ValueType) (gap : Text) : Text :=
  (match modifier with
    | some gap => "final".toList ++ gap
    | none => []) ++ (type.word.toList ++ gap)

theorem opening_none (type : ValueType) (gap rest : Text) :
    opening none type gap ++ rest = type.word.toList ++ (gap ++ rest) := by
  show [] ++ (type.word.toList ++ gap) ++ rest = _
  rw [List.nil_append, List.append_assoc]

theorem opening_some (g : Text) (type : ValueType) (gap rest : Text) :
    opening (some g) type gap ++ rest =
      "final".toList ++ (g ++ (type.word.toList ++ (gap ++ rest))) := by
  show "final".toList ++ g ++ (type.word.toList ++ gap) ++ rest = _
  generalize "final".toList = word
  simp only [List.append_assoc]

theorem finality_final {blank : Char → Bool} {gap rest : Text}
    (blanks : ∀ c ∈ gap, blank c = true) (some : gap ≠ [])
    (start : ∀ c ∈ rest.head?, blank c = false) :
    finality blank ("final".toList ++ (gap ++ rest)) = (true, rest) := by
  have cut : Text.afterWord "final" ("final".toList ++ (gap ++ rest)) = .some (gap ++ rest) :=
    Text.afterWord_eq_some.2 rfl
  rw [finality, cut, Option.bind_some, Text.afterBlanks_append blanks some start]

theorem finality_type (blank : Char → Bool) (type : ValueType) (rest : Text) :
    finality blank (type.word.toList ++ rest) = (false, type.word.toList ++ rest) := by
  have absent : Text.afterWord "final" (type.word.toList ++ rest) = none := by
    cases type <;> rfl
  rw [finality, absent]
  rfl

theorem declaration?_opening {modifier : Option Text} {type : ValueType} {gap rest : Text}
    (first : ∀ g ∈ modifier, g ≠ [] ∧ ∀ c ∈ g, Text.isBlank c = true) (some : gap ≠ [])
    (blanks : ∀ c ∈ gap, Text.isBlank c = true) (start : ∀ c ∈ rest.head?, Text.isBlank c = false)
    (oneLine : '\n' ∉ rest) :
    declaration? (opening modifier type gap ++ rest) = .some ⟨modifier.isSome, type, rest⟩ := by
  have words : finality Text.isBlank (opening modifier type gap ++ rest) =
      (modifier.isSome, type.word.toList ++ (gap ++ rest)) := by
    cases modifier with
    | none =>
        rw [opening_none, finality_type]
        rfl
    | some g =>
        obtain ⟨filled, before⟩ := first g rfl
        rw [opening_some]
        exact finality_final before filled (type.word_start _)
  simp only [declaration?, words, ValueType.leading?_word, Text.afterBlanks_append blanks some start,
    Text.singleLine?_of_absent oneLine, bind, Option.bind_some, pure]

theorem oneLine_of_declaration? {t : Text} {d : Declaration} (h : declaration? t = some d) :
    '\n' ∉ d.binders := by
  simp only [declaration?, bind, Option.bind_eq_some_iff, pure, Option.some.injEq] at h
  obtain ⟨_, -, rest, -, binders, line, rfl⟩ := h
  exact Text.absent_of_singleLine? line

/-! ## Items -/

theorem not_isQuote_of_isBlank {c : Char} (h : Text.isBlank c = true) :
    Quotation.isQuote c = false := by
  rw [Bool.eq_false_iff]
  intro quoted
  simp only [Quotation.isQuote, Bool.or_eq_true, beq_iff_eq] at quoted
  rcases quoted with rfl | rfl <;> exact absurd h (by decide)

theorem items_ok {t : Text} {parts : List Text} :
    items t = .ok parts ↔ (Text.trimEnd t).endsIn ',' = false ∧
      parts = (Quotation.split [','] t).map Text.trim ∧ ∀ p ∈ parts, p ≠ [] := by
  unfold items
  cases (Text.trimEnd t).endsIn ',' with
  | true => simp
  | false =>
      simp only [Bool.false_eq_true, ↓reduceIte, true_and]
      split
      · rename_i empty
        obtain ⟨p, member, none⟩ := List.any_eq_true.1 empty
        simp only [reduceCtorEq, false_iff, not_and]
        rintro rfl filled
        exact filled p member (List.isEmpty_iff.1 none)
      · rename_i filled
        simp only [Bool.not_eq_true, List.any_eq_false, List.isEmpty_iff] at filled
        rw [Except.ok.injEq]
        constructor
        · rintro rfl
          exact ⟨rfl, filled⟩
        · rintro ⟨rfl, -⟩
          rfl

theorem items_of_whole {p : Text} (snug : Text.Snug p) (whole : Quotation.Whole [','] none p)
    (noComma : p.endsIn ',' = false) : items p = .ok [p] := by
  rw [items_ok, Text.trimEnd_of_stop snug.stop, Quotation.split, whole, List.map_singleton,
    Text.trim_of_snug snug]
  exact ⟨noComma, rfl, by simpa using snug.filled⟩

theorem snug_of_item {t p : Text} {parts : List Text} (listed : items t = .ok parts)
    (member : p ∈ parts) : Text.Snug p := by
  obtain ⟨-, rfl, filled⟩ := items_ok.1 listed
  obtain ⟨part, -, rfl⟩ := List.mem_map.1 member
  exact Text.snug_trim (filled _ member)

theorem mem_of_item {t p : Text} {parts : List Text} (listed : items t = .ok parts)
    (member : p ∈ parts) {c : Char} (inside : c ∈ p) : c ∈ t := by
  obtain ⟨-, rfl, filled⟩ := items_ok.1 listed
  obtain ⟨part, among, rfl⟩ := List.mem_map.1 member
  obtain ⟨-, lead, trail, surrounded, -⟩ := (Text.trim_cases part).resolve_left (filled _ member)
  apply (Quotation.parted_splitFrom [','] none t).mem among
  rw [surrounded]
  simp [inside]

theorem items_of_item {t p : Text} {parts : List Text} (listed : items t = .ok parts)
    (member : p ∈ parts) : items p = .ok [p] := by
  obtain ⟨noComma, rfl, filled⟩ := items_ok.1 listed
  obtain ⟨part, among, rfl⟩ := List.mem_map.1 member
  obtain ⟨snug, lead, trail, surrounded, before, behind⟩ :=
    (Text.trim_cases part).resolve_left (filled _ member)
  obtain ⟨whole, ending⟩ := (Quotation.parted_splitFrom [','] none t).part rfl among
  have unquoted {gap : Text} (blanks : ∀ c ∈ gap, Text.isBlank c = true) :
      ∀ c ∈ gap, Quotation.isQuote c = false :=
    fun c member => not_isQuote_of_isBlank (blanks c member)
  have lead_after : Quotation.after none lead = none :=
    Quotation.after_of_unquoted (unquoted before) (by simp)
  rw [surrounded, List.append_assoc, Quotation.whole_append, Quotation.whole_append,
    lead_after] at whole
  refine items_of_whole snug whole.2.1 ?_
  rw [Bool.eq_false_iff]
  intro comma
  obtain ⟨front, same⟩ := List.getLast?_eq_some_iff.1 (beq_iff_eq.1 comma)
  -- The comma stands in a quotation that is still open, so this is the end of the list.
  have opened : Quotation.after none part ≠ none := by
    rw [surrounded, List.append_assoc, Quotation.after_append, lead_after, Quotation.after_append,
      Quotation.after_of_unquoted (unquoted behind) (Quotation.isQuote_after _ (by simp)), same]
    exact Quotation.after_concat_of_whole rfl (same ▸ whole.2.1)
  obtain ⟨start, rfl⟩ := ending.resolve_left opened
  have ends : Text.trimEnd (start ++ part) = start ++ lead ++ front ++ [','] := by
    rw [surrounded, ← List.append_assoc, Source.trimEnd_append behind, same, ← List.append_assoc,
      ← List.append_assoc, Text.trimEnd_concat (by decide)]
  rw [ends] at noComma
  simp [Text.endsIn] at noComma

end Clause

end SJava
