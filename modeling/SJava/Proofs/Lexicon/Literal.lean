import SJava.Clause.Layout
import SJava.Proofs.Lexicon.Cuts
import SJava.Proofs.Lexicon.Token

/-!
# Literals as quotations

A literal of type `String` or `char` starts and ends with the same quote, and its pattern lets that
quote stand between the two as well: `"a"b"` is a `String`, and `'''` is a `char`. A line is read by
quotations, which end at the next quote of their sort, so for the layout and for lists such a literal
ends too early.
-/

namespace SJava

namespace Quotation

variable {quote : Char} {inner : Text}

theorem mask_quoted_iff (quoted : isQuote quote = true) :
    mask (quote :: (inner ++ [quote])) = '"' :: (List.replicate inner.length '_' ++ ['"']) ↔
      quote ∉ inner := by
  constructor
  · intro masked member
    obtain ⟨front, back, rfl, absent⟩ := List.eq_append_cons_of_mem member
    have shown := mask_quotation quoted absent (back ++ [quote])
    have covered : List.replicate (front ++ quote :: back).length '_' =
        List.replicate front.length '_' ++ '_' :: List.replicate back.length '_' := by
      rw [List.length_append, List.length_cons, ← List.replicate_append_replicate,
        List.replicate_succ]
    rw [List.append_assoc, List.cons_append, shown, covered, List.append_assoc] at masked
    -- After equal runs of underscores one side goes on with a quote, the other with an underscore.
    have rest := List.append_cancel_left (List.cons.inj masked).2
    exact absurd (List.cons.inj rest).1 (by decide)
  · intro absent
    rw [mask_quotation quoted absent]
    rfl

theorem severed_quoted (quoted : isQuote quote = true) {front rest : Text} (absent : quote ∉ front)
    (split : inner = front ++ quote :: rest) :
    mask (quote :: (inner ++ [quote])) =
        '"' :: (List.replicate front.length '_' ++ '"' :: mask (rest ++ [quote])) ∧
      ∀ c back, rest = c :: back → isQuote c = false →
        Quotation.split [c] (quote :: (inner ++ [quote])) =
          (quote :: (front ++ [quote])) :: Quotation.split [c] (back ++ [quote]) := by
  subst split
  rw [List.append_assoc, List.cons_append]
  refine ⟨mask_quotation quoted absent _, ?_⟩
  rintro c back rfl plain
  have parts : quote :: (front ++ quote :: (c :: back ++ [quote])) =
      quote :: (front ++ [quote]) ++ c :: (back ++ [quote]) := by simp
  rw [parts]
  exact split_append plain (whole_quoted quoted absent [c]) (after_quoted quoted absent) _

end Quotation

namespace Literal

variable {t : Text}

theorem quoted_of_type? (form : type? t = some .string ∨ type? t = some .char) :
    ∃ quote inner, Quotation.isQuote quote = true ∧ t = quote :: (inner ++ [quote]) := by
  rcases form with string | char
  · cases type?_eq_some.1 string with
    | string => exact ⟨'"', _, rfl, rfl⟩
  · cases type?_eq_some.1 char with
    | char => exact ⟨'\'', [_], rfl, rfl⟩

/-- A literal that stands between quotes is masked as one quotation exactly if its own quote does not
occur inside, and then no separator cuts it. Otherwise the first such quote ends the quotation: what
follows is masked as code, and its first character, if it is no quote, cuts the literal. -/
theorem literal_masked_iff (form : type? t = some .string ∨ type? t = some .char) :
    ∃ quote inner, Quotation.isQuote quote = true ∧ t = quote :: (inner ++ [quote]) ∧
      (Quotation.mask t = '"' :: (List.replicate (t.length - 2) '_' ++ ['"']) ↔ quote ∉ inner) ∧
      (quote ∉ inner → ∀ separator, Quotation.split separator t = [t]) ∧
      ∀ front rest, quote ∉ front → inner = front ++ quote :: rest →
        Quotation.mask t =
          '"' :: (List.replicate front.length '_' ++ '"' :: Quotation.mask (rest ++ [quote])) ∧
        ∀ c back, rest = c :: back → Quotation.isQuote c = false →
          Quotation.split [c] t =
            (quote :: (front ++ [quote])) :: Quotation.split [c] (back ++ [quote]) := by
  obtain ⟨quote, inner, quoted, rfl⟩ := quoted_of_type? form
  have size : (quote :: (inner ++ [quote])).length - 2 = inner.length := by simp
  rw [size]
  exact ⟨quote, inner, quoted, rfl, Quotation.mask_quoted_iff quoted,
    fun absent separator => Quotation.whole_quoted quoted absent separator,
    fun front rest absent split => Quotation.severed_quoted quoted absent split⟩

def marks : Text := "\";,=()\x7b\x7d'\"".toList

theorem marks_masked :
    type? marks = some .string ∧ Quotation.mask marks = "\"________\"".toList ∧
      ∀ separator, Quotation.split separator marks = [marks] := by
  have form : type? marks = some .string := by decide
  obtain ⟨quote, inner, -, same, masked, whole, -⟩ := literal_masked_iff (.inl form)
  have first : quote = '"' := (List.cons.inj same).1.symm
  have inside : inner = marks.tail.dropLast := by
    rw [same, List.tail_cons, List.dropLast_concat]
  have absent : quote ∉ inner := by
    rw [first, inside]
    decide
  exact ⟨form, masked.2 absent, whole absent⟩

/-- A `String` whose second quote ends a quotation. -/
def severed : Text := "\"a\";\"b\"".toList

theorem severed_not_masked :
    type? severed = some .string ∧
      Quotation.mask severed ≠ '"' :: (List.replicate (severed.length - 2) '_' ++ ['"']) ∧
      Quotation.split [';'] severed ≠ [severed] ∧
      Clause.checkLayout ("String s = ".toList ++ severed ++ [';']) = .error .severalStatements :=
  ⟨by decide, by decide, by decide, rfl⟩

end Literal

end SJava
