import SJava.Proofs.Clause.Reading
import SJava.Proofs.Method.Header

namespace SJava

namespace Clause

/-! ## Tame texts -/

structure Tame (t : Text) : Prop where
  closed : Quotation.after none t = none
  code : ∀ c ∈ Quotation.mask t, c ≠ ';' ∧ c ≠ '\x7b'
  oneLine : '\n' ∉ t

theorem Tame.append {a b : Text} (left : Tame a) (right : Tame b) : Tame (a ++ b) where
  closed := by rw [Quotation.after_append, left.closed, right.closed]
  code := by
    rw [Quotation.mask, Quotation.maskFrom_append_of_closed left.closed, List.forall_mem_append]
    exact ⟨left.code, right.code⟩
  oneLine := by
    rw [List.mem_append, not_or]
    exact ⟨left.oneLine, right.oneLine⟩

def isCalm (c : Char) : Bool := !Quotation.isQuote c && !(['\n', ';', '\x7b'].contains c)

theorem tame_of_calm {t : Text} (calm : t.all isCalm = true) : Tame t := by
  rw [List.all_eq_true] at calm
  have unquoted : ∀ c ∈ t, Quotation.isQuote c = false := by
    intro c member
    have := calm c member
    simp only [isCalm, Bool.and_eq_true, Bool.not_eq_true'] at this
    exact this.1
  have absent (c : Char) (wild : isCalm c = false) : c ∉ t := by
    intro member
    rw [calm c member] at wild
    cases wild
  refine ⟨Quotation.after_of_unquoted unquoted (by simp), ?_, absent '\n' (by decide)⟩
  rw [Quotation.mask_of_plain unquoted]
  intro c member
  constructor
  · rintro rfl
    exact absent ';' (by decide) member
  · rintro rfl
    exact absent '\x7b' (by decide) member

theorem tame_quoted {quote : Char} {t : Text} (quoted : Quotation.isQuote quote = true)
    (absent : quote ∉ t) (oneLine : '\n' ∉ t) : Tame (quote :: (t ++ [quote])) where
  closed := Quotation.after_quoted quoted absent
  code := by
    intro c member
    rw [Quotation.mask_quotation quoted absent, List.mem_cons, List.mem_append, List.mem_replicate]
      at member
    rcases member with rfl | ⟨-, rfl⟩ | member
    · decide
    · decide
    · rw [List.mem_singleton.1 member]
      decide
  oneLine := by
    have other : quote ≠ '\n' := by
      rintro rfl
      cases quoted
    simp [oneLine, Ne.symm other]

theorem opensTwice_of_absent {t : Text} (absent : '\x7b' ∉ t) : opensTwice t = false := by
  induction t with
  | nil => rfl
  | cons c t ih =>
      rw [List.mem_cons, not_or] at absent
      have other : (c == '\x7b') = false := by simpa using Ne.symm absent.1
      rw [opensTwice, other, ih absent.2]
      rfl

theorem checkLayout_of_tame {t : Text} (tame : Tame t) : checkLayout (t ++ [';']) = .ok () := by
  have masked : Quotation.mask (t ++ [';']) = Quotation.mask t ++ [';'] :=
    Quotation.mask_append (List.forall_mem_singleton.2 rfl) t
  have code := tame.code
  generalize Quotation.mask t = m at masked code
  have semicolon : ';' ∉ m := fun member => (code _ member).1 rfl
  have two : endsInTwoSemicolons (m ++ [';']) = false := by
    rw [endsInTwoSemicolons, Text.trimEnd_concat (by decide), List.dropLast_concat,
      Bool.and_eq_false_iff, Bool.eq_false_iff, Bool.eq_false_iff]
    right
    intro last
    obtain ⟨trail, whole, -⟩ := Text.trimEnd_cases m
    apply semicolon
    rw [whole, List.mem_append]
    exact .inl (List.mem_of_getLast? (beq_iff_eq.1 last))
  have inner : hasInnerSemicolon (m ++ [';']) = false := by
    rw [hasInnerSemicolon_concat]
    exact hasInnerSemicolon_of_absent semicolon
  have braces : opensTwice (m ++ [';']) = false := by
    apply opensTwice_of_absent
    rw [List.mem_append, not_or]
    exact ⟨fun member => (code _ member).2 rfl, by decide⟩
  rw [checkLayout_ok, masked]
  exact ⟨two, inner, braces⟩

/-! ## Entries -/

structure Entry (t : Text) : Prop extends Tame t, Text.Snug t where
  whole : Quotation.Whole [','] none t

theorem Entry.noComma {t : Text} (entry : Entry t) : t.endsIn ',' = false := by
  rw [Bool.eq_false_iff]
  intro comma
  obtain ⟨front, rfl⟩ := List.getLast?_eq_some_iff.1 (beq_iff_eq.1 comma)
  exact Quotation.after_concat_of_whole rfl entry.whole entry.closed

theorem Entry.join {a mid b : Text} (left : Entry a) (right : Entry b) (tame : Tame mid)
    (noComma : ',' ∉ mid) : Entry (a ++ (mid ++ b)) where
  toTame := left.toTame.append (tame.append right.toTame)
  filled := by simp [left.filled]
  start := by
    rw [List.head?_append_of_ne_nil _ left.filled]
    exact left.start
  stop := by
    rw [← List.append_assoc, List.getLast?_append_of_ne_nil _ right.filled]
    exact right.stop
  whole := by
    rw [Quotation.whole_append, Quotation.whole_append, left.closed, tame.closed]
    exact ⟨left.whole, Quotation.whole_of_absent noComma none, right.whole⟩

theorem entry_quoted {quote : Char} {t : Text} (quoted : Quotation.isQuote quote = true)
    (absent : quote ∉ t) (oneLine : '\n' ∉ t) : Entry (quote :: (t ++ [quote])) := by
  have kept : Text.isBlank quote = false := by
    rw [Bool.eq_false_iff]
    intro blank
    rw [not_isQuote_of_isBlank blank] at quoted
    cases quoted
  refine ⟨tame_quoted quoted absent oneLine, ⟨by simp, ?_, ?_⟩, ?_⟩
  · simpa using kept
  · rw [← List.cons_append, List.getLast?_concat]
    simpa using kept
  · exact Quotation.whole_quoted quoted absent [',']

def isValueChar (c : Char) : Bool := Name.isNameChar c || ['+', '-', '.'].contains c

theorem ne_of_isValueChar {c d : Char} (h : isValueChar c = true) (other : isValueChar d = false) :
    c ≠ d := by
  rintro rfl
  rw [h] at other
  cases other

theorem isCalm_of_isValueChar {c : Char} (h : isValueChar c = true) : isCalm c = true := by
  have ne (d : Char) (other : isValueChar d = false) : c ≠ d := ne_of_isValueChar h other
  simp [isCalm, Quotation.isQuote, ne '"' (by decide), ne '\'' (by decide), ne '\n' (by decide),
    ne ';' (by decide), ne '\x7b' (by decide)]

theorem not_isBlank_of_isValueChar {c : Char} (h : isValueChar c = true) :
    Text.isBlank c = false := by
  rw [Bool.eq_false_iff]
  intro blank
  simp only [isValueChar, Name.not_isNameChar_of_isBlank blank, Bool.false_or,
    List.contains_iff_mem, List.mem_cons, List.not_mem_nil, or_false] at h
  rcases h with rfl | rfl | rfl <;> exact absurd blank (by decide)

structure Atom (t : Text) : Prop where
  filled : t ≠ []
  chars : ∀ c ∈ t, isValueChar c = true

theorem Atom.snug {t : Text} (atom : Atom t) : Text.Snug t where
  filled := atom.filled
  start := fun c head => not_isBlank_of_isValueChar (atom.chars c (List.mem_of_head? head))
  stop := fun c last => not_isBlank_of_isValueChar (atom.chars c (List.mem_of_getLast? last))

theorem Atom.entry {t : Text} (atom : Atom t) : Entry t := by
  refine ⟨tame_of_calm ?_, atom.snug, ?_⟩
  · exact List.all_eq_true.2 fun c member => isCalm_of_isValueChar (atom.chars c member)
  · apply Quotation.whole_of_absent
    intro comma
    exact ne_of_isValueChar (atom.chars _ comma) (by decide) rfl

theorem atom_of_isWord {t : Text} (word : Name.isWord t = true) : Atom t := by
  refine ⟨Name.ne_nil_of_isWord word, ?_⟩
  intro c member
  rw [isValueChar, Name.isNameChar_of_isWord word c member]
  rfl

theorem entry_of_isWord {t : Text} (word : Name.isWord t = true) : Entry t :=
  (atom_of_isWord word).entry

end Clause

namespace Literal

theorem isValueChar_of_isDigit {c : Char} (digit : Token.IsDigit c) :
    Clause.isValueChar c = true := by
  have part : Name.isNameChar c = true := Token.isNameChar_iff.2 (.inr (.inl digit))
  rw [Clause.isValueChar, part]
  rfl

theorem isValueChar_of_sign {sign : Text} (signed : sign ∈ Token.signs) :
    ∀ c ∈ sign, Clause.isValueChar c = true := by
  have all : Token.signs.all (fun sign => sign.all Clause.isValueChar) = true := by decide
  exact List.all_eq_true.1 (List.all_eq_true.1 all sign signed)

theorem atom_of_isInt {t : Text} (form : isInt t = true) : Clause.Atom t := by
  cases hasForm_iff.1 form with
  | int signed filled number =>
      constructor
      · simp [filled]
      · rw [List.forall_mem_append]
        exact ⟨isValueChar_of_sign signed, fun c member => isValueChar_of_isDigit (number c member)⟩

theorem atom_of_isDouble {t : Text} (form : isDouble t = true) : Clause.Atom t := by
  cases hasForm_iff.1 form with
  | double signed filled before after =>
      constructor
      · simp
      · rw [List.forall_mem_append, List.forall_mem_append, List.forall_mem_cons]
        exact ⟨isValueChar_of_sign signed, fun c member => isValueChar_of_isDigit (before c member),
          by decide, fun c member => isValueChar_of_isDigit (after c member)⟩

theorem atom_of_isBoolean {t : Text} (form : isBoolean t = true) : Clause.Atom t := by
  apply Clause.atom_of_isWord
  rcases Token.eq_of_isLiteral_boolean (hasForm_iff.1 form) with rfl | rfl <;> decide

end Literal

end SJava
