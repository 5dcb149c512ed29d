import Mathlib.Data.List.Infix
import SJava.Clause.Kind

namespace SJava

namespace Text

theorem afterWord_eq_some {word : String} {t rest : Text} :
    t.afterWord word = some rest ↔ t = word.toList ++ rest := by
  rw [afterWord, List.isPrefixOf?_eq_some_iff_append_eq, eq_comm]

theorem opensWith_iff {word : String} {t : Text} :
    t.opensWith word = true ↔ ∃ rest, t = word.toList ++ rest ∧ atWordEnd rest = true := by
  simp only [opensWith, Option.any_eq_true, afterWord_eq_some]

theorem isAlphanum_iff {c : Char} : c.isAlphanum = true ↔
    65 ≤ c.toNat ∧ c.toNat ≤ 90 ∨ 97 ≤ c.toNat ∧ c.toNat ≤ 122 ∨ 48 ≤ c.toNat ∧ c.toNat ≤ 57 := by
  change ((decide (65 ≤ c.val ∧ c.val ≤ 90) || decide (97 ≤ c.val) && decide (c.val ≤ 122)) ||
    decide (48 ≤ c.val) && decide (c.val ≤ 57)) = true ↔ _
  simp only [Bool.or_eq_true, Bool.and_eq_true, decide_eq_true_eq, UInt32.le_iff_toNat_le, or_assoc]
  rfl

theorem isWordChar_of_isNameChar {c : Char} (h : Name.isNameChar c = true) :
    isWordChar c = true := by
  simp only [Name.isNameChar, Bool.or_eq_true, beq_iff_eq] at h
  rcases h with letter | rfl
  · have ascii : c.toNat < 0x80 := by
      have := isAlphanum_iff.1 letter
      omega
    simp [isWordChar, isAlphanumeric, ascii, letter]
  · rfl

def distantBlanks : List Nat :=
  [0x85, 0xA0, 0x1680, 0x2000, 0x2001, 0x2002, 0x2003, 0x2004, 0x2005, 0x2006, 0x2007, 0x2008,
    0x2009, 0x200A, 0x2028, 0x2029, 0x202F, 0x205F, 0x3000]

theorem distantBlanks_not_alphanumeric : ∀ n ∈ distantBlanks,
    (alphanumericRanges.any fun (first, last) => first ≤ n && n ≤ last) = false := by
  decide +kernel

theorem toNat_of_isBlank {c : Char} (h : isBlank c = true) :
    c.toNat < 0x21 ∨ c.toNat ∈ distantBlanks := by
  simp only [isBlank, inRanges, List.any_cons, List.any_nil, Bool.or_false, Bool.or_eq_true,
    Bool.and_eq_true, decide_eq_true_eq] at h
  simp only [distantBlanks, List.mem_cons, List.not_mem_nil, or_false]
  omega

theorem not_isWordChar_of_isBlank {c : Char} (h : isBlank c = true) : isWordChar c = false := by
  have underscore : (c == '_') = false := by
    rw [beq_eq_false_iff_ne]
    rintro rfl
    revert h
    decide
  rcases toNat_of_isBlank h with low | distant
  · have letter : c.isAlphanum = false := by
      rw [Bool.eq_false_iff]
      intro letter
      have := isAlphanum_iff.1 letter
      omega
    have ascii : c.toNat < 0x80 := by omega
    simp [isWordChar, isAlphanumeric, underscore, ascii, letter]
  · have apart := distantBlanks_not_alphanumeric c.toNat distant
    have beyond : ¬c.toNat < 0x80 := by
      simp only [distantBlanks, List.mem_cons, List.not_mem_nil, or_false] at distant
      omega
    rw [isWordChar, underscore, isAlphanumeric, if_neg beyond, inRanges, apart]
    rfl

end Text

namespace Clause

theorem opensWith_of_isReturn {t : Text} (h : isReturn t = true) : t.opensWith "return" = true := by
  unfold isReturn at h
  cases after : t.afterWord "return" with
  | none => simp [after] at h
  | some rest =>
      rw [Text.opensWith_iff]
      refine ⟨rest, Text.afterWord_eq_some.1 after, ?_⟩
      cases rest with
      | nil => rfl
      | cons c rest =>
          by_cases blank : Text.isBlank c = true
          · simp [Text.atWordEnd, Text.not_isWordChar_of_isBlank blank]
          · -- without a blank the semicolon comes first
            simp only [after, Option.map_some, Text.trimStart, List.dropWhile_cons, blank] at h
            split at h
            · rename_i same
              simp only [Bool.false_eq_true, ↓reduceIte, Option.some.injEq, List.cons.injEq] at same
              rw [same.1]
              show (!Text.isWordChar ';') = true
              decide
            · cases h

end Clause

namespace Kind

theorem fits_of_ofText {t : Text} {kind : Kind} (h : ofText t = kind) (shape : kind ≠ .unrecognized) :
    kind.fits t = true := by
  unfold ofText firstOf at h
  cases found : shaped.find? (·.fits t) with
  | none =>
      rw [found] at h
      exact absurd h.symm shape
  | some first =>
      rw [found, Option.getD_some] at h
      subst h
      have fitting := List.find?_some found
      exact fitting

theorem ofText_eq_methodHeader {t : Text} :
    ofText t = .methodHeader ↔ t.opensWith "void" = true := by
  constructor
  · intro header
    exact fits_of_ofText header (by decide)
  · intro opens
    simp [ofText, firstOf, shaped, fits, opens]

end Kind

end SJava
