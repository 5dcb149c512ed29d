import SJava.Clause.Layout
import SJava.Proofs.Clause.Shape

namespace SJava

namespace Quotation

theorem mask_of_plain {t : Text} (plain : ∀ c ∈ t, isQuote c = false) : mask t = t := by
  unfold mask
  induction t with
  | nil => rfl
  | cons c t ih =>
      rw [List.forall_mem_cons] at plain
      simp [maskFrom, plain.1, ih plain.2]

theorem maskFrom_append {rest : Text} (plain : ∀ c ∈ rest, isQuote c = false) (t : Text)
    (quote : Option Char) (closed : ∀ q, quote = some q → q ∈ t ∧ isQuote q = true) :
    maskFrom quote (t ++ rest) = maskFrom quote t ++ rest := by
  induction t generalizing quote with
  | nil =>
      -- An open quotation has its partner in the text before, which is empty here.
      cases quote with
      | none => exact mask_of_plain plain
      | some q => exact absurd (closed q rfl).1 List.not_mem_nil
  | cons c t ih =>
      rw [List.cons_append]
      cases quote with
      | none =>
          have partner : (isQuote c && (t ++ rest).contains c) = (isQuote c && t.contains c) := by
            cases quoted : isQuote c with
            | false => rfl
            | true =>
                have apart : c ∉ rest := by
                  intro member
                  rw [plain c member] at quoted
                  cases quoted
                simp [apart]
          rw [maskFrom, maskFrom, partner]
          split
          · rename_i opens
            simp only [Bool.and_eq_true, List.contains_iff_mem] at opens
            rw [ih (some c) (by simpa using ⟨opens.2, opens.1⟩), List.cons_append]
          · rw [ih none (by simp), List.cons_append]
      | some q =>
          obtain ⟨member, quoted⟩ := closed q rfl
          rw [maskFrom, maskFrom]
          split
          · rw [ih none (by simp), List.cons_append]
          · rename_i other
            have later : q ∈ t := (List.mem_cons.1 member).resolve_left (Ne.symm other)
            rw [ih (some q) (by simpa using ⟨later, quoted⟩), List.cons_append]

theorem mask_append {rest : Text} (plain : ∀ c ∈ rest, isQuote c = false) (t : Text) :
    mask (t ++ rest) = mask t ++ rest :=
  maskFrom_append plain t none (by simp)

end Quotation

namespace Clause

theorem opensTwice_of_last {t : Text} (h : '\x7b' ∉ t) : opensTwice (t ++ ['\x7b']) = false := by
  induction t with
  | nil => rfl
  | cons c t ih =>
      rw [List.mem_cons, not_or] at h
      have other : (c == '\x7b') = false := by simpa using Ne.symm h.1
      rw [List.cons_append, opensTwice, other, ih h.2]
      rfl

theorem hasInnerSemicolon_of_absent {t : Text} (absent : ';' ∉ t) :
    hasInnerSemicolon t = false := by
  rw [hasInnerSemicolon, Bool.eq_false_iff]
  intro found
  have member : ';' ∈ t.reverse := (List.dropWhile_sublist _).subset (List.contains_iff_mem.1 found)
  exact absent (List.mem_reverse.1 member)

theorem hasInnerSemicolon_concat (t : Text) :
    hasInnerSemicolon (t ++ [';']) = hasInnerSemicolon t := by
  rw [hasInnerSemicolon, List.reverse_concat]
  rfl

theorem checkLayout_ok {t : Text} :
    checkLayout t = .ok () ↔ endsInTwoSemicolons (Quotation.mask t) = false ∧
      hasInnerSemicolon (Quotation.mask t) = false ∧ opensTwice (Quotation.mask t) = false := by
  simp only [checkLayout]
  cases endsInTwoSemicolons (Quotation.mask t) <;> cases hasInnerSemicolon (Quotation.mask t) <;>
    cases opensTwice (Quotation.mask t) <;> simp

theorem checkLayout_of_plain {t : Text}
    (plain : ∀ c ∈ t, Quotation.isQuote c = false ∧ c ≠ ';' ∧ c ≠ '\x7b') :
    checkLayout (t ++ ['\x7b']) = .ok () := by
  have quotes : ∀ c ∈ t ++ ['\x7b'], Quotation.isQuote c = false := by
    rw [List.forall_mem_append, List.forall_mem_singleton]
    exact ⟨fun c member => (plain c member).1, by decide⟩
  have ended : Text.trimEnd (t ++ ['\x7b']) = t ++ ['\x7b'] := by
    clear plain quotes
    induction t with
    | nil => rfl
    | cons c t ih =>
        rw [List.cons_append, Text.trimEnd, ih]
        cases t <;> rfl
  have two : endsInTwoSemicolons (t ++ ['\x7b']) = false := by
    rw [endsInTwoSemicolons, ended]
    simp [Text.endsIn]
  have inner : hasInnerSemicolon (t ++ ['\x7b']) = false := by
    apply hasInnerSemicolon_of_absent
    rw [List.mem_append, not_or]
    exact ⟨fun member => (plain ';' member).2.1 rfl, by decide⟩
  have braces : opensTwice (t ++ ['\x7b']) = false :=
    opensTwice_of_last fun member => (plain _ member).2.2 rfl
  rw [checkLayout_ok, Quotation.mask_of_plain quotes]
  exact ⟨two, inner, braces⟩

theorem checkLayout_ne_ok_of_lineFeed (t : Text) : checkLayout (t ++ [';', '\n']) ≠ .ok () := by
  have plain : ∀ c ∈ [';', '\n'], Quotation.isQuote c = false := by
    rw [List.forall_mem_cons, List.forall_mem_singleton]
    exact ⟨rfl, rfl⟩
  have masked : Quotation.mask (t ++ [';', '\n']) = Quotation.mask t ++ [';', '\n'] :=
    Quotation.mask_append plain t
  have inner : hasInnerSemicolon (Quotation.mask t ++ [';', '\n']) = true := by
    simp [hasInnerSemicolon]
  rw [Ne, checkLayout_ok, masked, inner]
  simp

theorem isTerminated_of_layout {front r : Text} (layout : checkLayout (front ++ ';' :: r) = .ok ())
    (ended : Text.atLineEnd r = true) : isTerminated (front ++ ';' :: r) = true := by
  rcases Text.atLineEnd_iff.1 ended with rfl | rfl
  · simp only [isTerminated, Text.endsIn, List.getLast?_concat, beq_self_eq_true]
  · exact absurd layout (checkLayout_ne_ok_of_lineFeed front)

theorem isTerminated_of_isReturn {t : Text} (layout : checkLayout t = .ok ())
    (returns : isReturn t = true) : isTerminated t = true := by
  unfold isReturn at returns
  split at returns
  · rename_i r cut
    obtain ⟨rest, word, spaced⟩ := Option.map_eq_some_iff.1 cut
    have whole : t = "return".toList ++ rest.takeWhile Text.isBlank ++ ';' :: r := by
      rw [← spaced, Text.trimStart, List.append_assoc, List.takeWhile_append_dropWhile]
      exact Text.afterWord_eq_some.1 word
    rw [whole] at layout ⊢
    exact isTerminated_of_layout layout returns
  · cases returns

theorem terminated_iff_isTerminated {t : Text} {call : Call} (layout : checkLayout t = .ok ())
    (h : call? t = some call) : call.terminated = true ↔ isTerminated t = true := by
  obtain ⟨front, tail, rfl, blanks, semicolon⟩ := call?_eq_some h
  cases ended : call.terminated with
  | false =>
      -- The last character is the parenthesis or a blank.
      have plain : ∀ c ∈ tail, Text.isPlainBlank c = true :=
        List.dropWhile_eq_nil_iff.1 (blanks ended)
      have other : isTerminated (front ++ ')' :: tail) = false := by
        rw [isTerminated, Text.endsIn, beq_eq_false_iff_ne]
        intro last
        rw [List.getLast?_append_of_ne_nil _ (by simp)] at last
        rcases List.mem_cons.1 (List.mem_of_getLast? last) with paren | member
        · cases paren
        · exact absurd (plain _ member) (by decide)
      simp [other]
  | true =>
      obtain ⟨r, cut, lineEnd⟩ := semicolon ended
      have whole : front ++ ')' :: tail =
          (front ++ ')' :: tail.takeWhile Text.isPlainBlank) ++ ';' :: r := by
        rw [← cut, Text.trimPlain, List.append_assoc, List.cons_append,
          List.takeWhile_append_dropWhile]
      rw [whole] at layout ⊢
      simp only [isTerminated_of_layout layout lineEnd]

end Clause

end SJava
