import SJava.Proofs.Clause.Layout
import SJava.Proofs.Lexicon.Token
import SJava.Proofs.Method.Registration

namespace SJava

def Text.InHeader (c : Char) : Prop :=
  Text.isBlank c = true ∨ Name.isNameChar c = true ∨ c ∈ [',', '(', ')']

namespace Text.InHeader

instance (c : Char) : Decidable (Text.InHeader c) := inferInstanceAs (Decidable (_ ∨ _))

theorem of_all {t : Text} (h : t.all (fun c => decide (Text.InHeader c)) = true) :
    ∀ c ∈ t, Text.InHeader c :=
  fun c member => of_decide_eq_true (List.all_eq_true.1 h c member)

theorem plain {c : Char} (h : Text.InHeader c) :
    Quotation.isQuote c = false ∧ c ≠ ';' ∧ c ≠ '\x7b' := by
  have other (d : Char) (outside : ¬Text.InHeader d) : c ≠ d := by
    rintro rfl
    exact outside h
  refine ⟨?_, other ';' (by decide), other '\x7b' (by decide)⟩
  simp [Quotation.isQuote, other '"' (by decide), other '\'' (by decide)]

end Text.InHeader

theorem ValueType.inHeader_word (type : ValueType) : ∀ c ∈ type.word.toList, Text.InHeader c := by
  apply Text.InHeader.of_all
  cases type <;> decide

theorem Clause.inHeader_of_finality {blank : Char → Bool} {t rest : Text} {final : Bool}
    (wide : ∀ c, blank c = true → Text.isBlank c = true)
    (h : Clause.finality blank t = (final, rest)) :
    ∃ front, t = front ++ rest ∧ ∀ c ∈ front, Text.InHeader c := by
  unfold Clause.finality at h
  split at h
  · rename_i after found
    cases h
    obtain ⟨body, word, spaced⟩ := Option.bind_eq_some_iff.1 found
    obtain ⟨blanks, rfl, all⟩ := Text.afterBlanks_eq_some spaced
    refine ⟨"final".toList ++ blanks, ?_, ?_⟩
    · rw [Text.afterWord_eq_some.1 word, List.append_assoc]
    · rw [List.forall_mem_append]
      exact ⟨Text.InHeader.of_all (by decide), fun c member => .inl (wide c (all c member))⟩
  · cases h
    exact ⟨[], rfl, by simp⟩

namespace Param

theorem inHeader_of_ofText? {t : Text} {p : Param} (h : ofText? t = some p) :
    ∀ c ∈ t, Text.InHeader c := by
  unfold ofText? at h
  cases modifier : Clause.finality Text.isPlainBlank t with
  | mk final body =>
      obtain ⟨front, rfl, marks⟩ :=
        Clause.inHeader_of_finality (fun _ => Text.isBlank_of_isPlainBlank) modifier
      simp only [modifier, Option.bind_eq_bind, Option.bind_eq_some_iff, Option.guard_eq_some',
        Option.pure_def, Option.some.injEq] at h
      obtain ⟨⟨type, rest⟩, typed, name, spaced, _, legal, rfl⟩ := h
      obtain ⟨blanks, rfl, all⟩ := Text.afterBlanks_eq_some spaced
      rw [ValueType.leading?_eq_some typed]
      simp only [List.forall_mem_append]
      refine ⟨marks, type.inHeader_word, ?_, ?_⟩
      · intro c member
        exact .inl (Text.isBlank_of_isPlainBlank (all c member))
      · intro c member
        exact .inr (.inl (Name.isNameChar_of_isWord (Name.isWord_of_isVariable legal) c member))

theorem ofText?_of_readAll {method : Text} {names parts : List Text} {params : List Param}
    (h : readAll method names parts = .ok params) :
    ∀ part ∈ parts, ∃ p, ofText? (Text.trim part) = some p := by
  induction parts generalizing names params with
  | nil => simp
  | cons part parts ih =>
      rw [readAll] at h
      cases read : ofText? (Text.trim part) with
      | none => simp [read] at h
      | some p =>
          simp only [read] at h
          split at h
          · cases h
          · obtain ⟨rest, later, -⟩ := map_eq_ok.1 h
            rw [List.forall_mem_cons]
            exact ⟨⟨p, read⟩, ih later⟩

theorem inHeader_of_readList {method t : Text} {params : List Param}
    (h : readList method t = .ok params) : ∀ c ∈ t, Text.InHeader c := by
  intro c member
  rcases Text.mem_trim member with blank | kept
  · exact .inl blank
  · simp only [readList] at h
    split at h
    · rename_i none
      rw [List.isEmpty_iff.1 none] at kept
      cases kept
    · split at h
      · cases h
      · rcases Text.mem_partsAt ',' kept with comma | ⟨part, among, inside⟩
        · exact .inr (.inr (by simp [comma]))
        · obtain ⟨p, read⟩ := ofText?_of_readAll h part among
          rcases Text.mem_trim inside with blank | inner
          · exact .inl blank
          · exact inHeader_of_ofText? read c inner

end Param

namespace Signature

theorem inHeader_of_ofHeader {t : Text} {s : Signature} (h : ofHeader t = .ok s) :
    ∃ front, t = front ++ ['\x7b'] ∧ ∀ c ∈ front, Text.InHeader c := by
  obtain ⟨inner, shape, legal, read⟩ := header?_of_ofHeader h
  obtain ⟨blanks, before, after, rfl, outer, left, right⟩ := Clause.header?_eq_some shape
  refine ⟨"void".toList ++ (blanks ++ (s.name ++ (before ++ '(' :: (inner ++ ')' :: after)))), ?_, ?_⟩
  · simp only [List.append_assoc, List.cons_append]
  · simp only [List.forall_mem_append, List.forall_mem_cons]
    refine ⟨Text.InHeader.of_all (by decide), fun c member => .inl (outer c member), ?_,
      fun c member => .inl (left c member), by decide, Param.inHeader_of_readList read, by decide,
      fun c member => .inl (right c member)⟩
    intro c member
    exact .inr (.inl (Name.isNameChar_of_isWord (Name.isWord_of_isMethod legal) c member))

theorem layout_of_ofHeader {t : Text} {s : Signature} (h : ofHeader t = .ok s) :
    Clause.checkLayout t = .ok () := by
  obtain ⟨front, rfl, chars⟩ := inHeader_of_ofHeader h
  exact Clause.checkLayout_of_plain fun c member => (chars c member).plain

end Signature

end SJava
