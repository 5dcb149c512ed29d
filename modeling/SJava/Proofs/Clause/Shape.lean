import Mathlib.Data.List.TakeWhile
import Mathlib.Data.Option.Basic
import SJava.Proofs.Clause.Kind

namespace SJava

namespace Text

theorem cutAtLast_eq_some {c : Char} {t before after : Text}
    (h : cutAtLast c t = some (before, after)) : t = before ++ c :: after := by
  induction t generalizing before with
  | nil => cases h
  | cons x xs ih =>
      rw [cutAtLast] at h
      cases cut : cutAtLast c xs with
      | some pair =>
          obtain ⟨front, rest⟩ := pair
          simp only [cut, Option.some.injEq, Prod.mk.injEq] at h
          obtain ⟨rfl, rfl⟩ := h
          rw [ih cut, List.cons_append]
      | none =>
          simp only [cut] at h
          split at h
          · rename_i same
            cases h
            rw [same, List.nil_append]
          · cases h

theorem cutAtFirst_eq_none {c : Char} {t : Text} (h : c ∉ t) : cutAtFirst c t = none := by
  induction t with
  | nil => rfl
  | cons x xs ih =>
      rw [List.mem_cons, not_or] at h
      rw [cutAtFirst, if_neg (Ne.symm h.1), ih h.2]
      rfl

theorem afterBlanks_eq_some {blank : Char → Bool} {t rest : Text}
    (h : afterBlanks blank t = some rest) :
    ∃ blanks, t = blanks ++ rest ∧ ∀ c ∈ blanks, blank c = true := by
  cases t with
  | nil => cases h
  | cons c cs =>
      rw [afterBlanks] at h
      split at h
      · rename_i first
        cases h
        refine ⟨c :: cs.takeWhile blank, ?_, ?_⟩
        · rw [List.cons_append, List.takeWhile_append_dropWhile]
        · rw [List.forall_mem_cons]
          exact ⟨first, fun d member => List.mem_takeWhile_imp member⟩
      · cases h

theorem atLineEnd_iff {t : Text} : atLineEnd t = true ↔ t = [] ∨ t = ['\n'] := by
  simp [atLineEnd]

theorem mem_trimStart {c : Char} {t : Text} (h : c ∈ t) : isBlank c = true ∨ c ∈ trimStart t := by
  rw [← List.takeWhile_append_dropWhile (p := isBlank) (l := t), List.mem_append] at h
  exact h.imp_left List.mem_takeWhile_imp

theorem mem_trimEnd {c : Char} {t : Text} (h : c ∈ t) : isBlank c = true ∨ c ∈ trimEnd t := by
  induction t with
  | nil => cases h
  | cons x xs ih =>
      rw [trimEnd]
      rcases List.mem_cons.1 h with rfl | later
      · -- The first character is cut off only if nothing is kept after it.
        split
        · split
          · exact .inl ‹_›
          · exact .inr (by simp)
        · exact .inr (by simp)
      · rcases ih later with blank | kept
        · exact .inl blank
        · split
          · rename_i none
            rw [none] at kept
            cases kept
          · exact .inr (by simp [kept])

theorem mem_trim {c : Char} {t : Text} (h : c ∈ t) : isBlank c = true ∨ c ∈ trim t := by
  rcases mem_trimStart h with blank | kept
  · exact .inl blank
  · exact mem_trimEnd kept

theorem mem_prepend {c x : Char} {parts : List Text} :
    (∃ part ∈ prepend x parts, c ∈ part) ↔ c = x ∨ ∃ part ∈ parts, c ∈ part := by
  cases parts with
  | nil => simp [prepend]
  | cons part parts => simp [prepend, or_assoc]

theorem mem_partsAt {c : Char} (separator : Char) {t : Text} (h : c ∈ t) :
    c = separator ∨ ∃ part ∈ partsAt separator t, c ∈ part := by
  induction t with
  | nil => cases h
  | cons x xs ih =>
      rw [partsAt]
      split
      · rename_i same
        rcases List.mem_cons.1 h with rfl | later
        · exact .inl same
        · exact (ih later).imp_right fun found => by simpa using found
      · rw [mem_prepend]
        rcases List.mem_cons.1 h with rfl | later
        · exact .inr (.inl rfl)
        · exact (ih later).imp_right .inr

end Text

theorem ValueType.leading?_eq_some {t rest : Text} {type : ValueType}
    (h : ValueType.leading? t = some (type, rest)) : t = type.word.toList ++ rest := by
  obtain ⟨found, -, cut⟩ := List.exists_of_findSome?_eq_some h
  obtain ⟨after, split, same⟩ := Option.map_eq_some_iff.1 cut
  cases same
  exact Text.afterWord_eq_some.1 split

namespace Clause

theorem parenthesized?_eq_some {t inner tail : Text}
    (h : parenthesized? t = some (inner, tail)) : t = '(' :: (inner ++ ')' :: tail) := by
  unfold parenthesized? at h
  split at h
  · obtain ⟨cut, -⟩ := Option.filter_eq_some_iff.1 h
    rw [Text.cutAtLast_eq_some cut]
  · cases h

theorem oneLine_of_parenthesized? {t inner tail : Text}
    (h : parenthesized? t = some (inner, tail)) : '\n' ∉ inner := by
  unfold parenthesized? at h
  split at h
  · obtain ⟨-, oneLine⟩ := Option.filter_eq_some_iff.1 h
    simpa using oneLine
  · cases h

theorem call?_eq_some {t : Text} {call : Call} (h : call? t = some call) :
    ∃ front tail, t = front ++ ')' :: tail ∧
      (call.terminated = false → Text.trimPlain tail = []) ∧
      (call.terminated = true → ∃ r, Text.trimPlain tail = ';' :: r ∧ Text.atLineEnd r = true) := by
  unfold call? at h
  simp only [Option.bind_eq_bind, Option.bind_eq_some_iff] at h
  obtain ⟨_, -, ⟨inner, tail⟩, cut, h⟩ := h
  refine ⟨t.takeWhile Name.isNameChar ++ ((t.dropWhile Name.isNameChar).takeWhile Text.isPlainBlank ++
    '(' :: inner), tail, ?_, ?_⟩
  · have rest := parenthesized?_eq_some cut
    simp only [Name.leading, Text.trimPlain] at rest
    rw [List.append_assoc, List.append_assoc, List.cons_append, ← rest,
      List.takeWhile_append_dropWhile, List.takeWhile_append_dropWhile]
  · simp only at h
    split at h
    · cases h
      exact ⟨fun _ => ‹_›, by simp⟩
    · split at h
      · cases h
        exact ⟨by simp, fun _ => ⟨_, ‹_›, ‹_›⟩⟩
      · cases h
    · cases h

theorem parameters?_eq_some {t inner : Text} (h : parameters? t = some inner) :
    ∃ before after, t = before ++ '(' :: (inner ++ ')' :: (after ++ ['\x7b'])) ∧
      (∀ c ∈ before, Text.isBlank c = true) ∧ ∀ c ∈ after, Text.isBlank c = true := by
  unfold parameters? at h
  simp only [Option.bind_eq_bind, Option.bind_eq_some_iff, Option.guard_eq_some', Option.pure_def,
    Option.some.injEq] at h
  obtain ⟨⟨inner, tail⟩, cut, _, brace, rfl⟩ := h
  have rest := parenthesized?_eq_some cut
  have brace : Text.trimStart tail = ['\x7b'] := by simpa using brace
  refine ⟨t.takeWhile Text.isBlank, tail.takeWhile Text.isBlank, ?_,
    fun c => List.mem_takeWhile_imp, fun c => List.mem_takeWhile_imp⟩
  rw [← brace, Text.trimStart, List.takeWhile_append_dropWhile, ← rest, Text.trimStart,
    List.takeWhile_append_dropWhile]

theorem nameAndParameters?_eq_some {t name inner : Text}
    (h : nameAndParameters? t = some (name, inner)) :
    ∃ rest, t = name ++ rest ∧ parameters? rest = some inner := by
  induction t generalizing name with
  | nil => cases h
  | cons c cs ih =>
      rw [nameAndParameters?] at h
      split at h
      · cases h
      · split at h
        · rename_i found
          cases h
          exact ⟨cs, rfl, found⟩
        · obtain ⟨⟨shorter, list⟩, found, same⟩ := Option.map_eq_some_iff.1 h
          cases same
          obtain ⟨rest, rfl, params⟩ := ih found
          exact ⟨rest, rfl, params⟩

theorem header?_eq_some {t name inner : Text} (h : header? t = some (name, inner)) :
    ∃ blanks before after,
      t = "void".toList ++ (blanks ++ (name ++ (before ++
        '(' :: (inner ++ ')' :: (after ++ ['\x7b']))))) ∧
      (∀ c ∈ blanks, Text.isBlank c = true) ∧ (∀ c ∈ before, Text.isBlank c = true) ∧
      ∀ c ∈ after, Text.isBlank c = true := by
  unfold header? at h
  obtain ⟨rest, opened, h⟩ := Option.bind_eq_some_iff.1 h
  obtain ⟨body, word, opened⟩ := Option.bind_eq_some_iff.1 opened
  obtain ⟨blanks, rfl, outer⟩ := Text.afterBlanks_eq_some opened
  obtain ⟨list, rfl, params⟩ := nameAndParameters?_eq_some h
  obtain ⟨before, after, rfl, left, right⟩ := parameters?_eq_some params
  exact ⟨blanks, before, after, Text.afterWord_eq_some.1 word, outer, left, right⟩

end Clause

end SJava
