import SJava.Lexicon.Literal
import SJava.Lexicon.Name
import SJava.Proofs.Lexicon.Pattern

/-!
# The grammar of tokens

Names and literals by their spelling, over ASCII letters and digits. The patterns match exactly these
spellings (`Name.isVariable_iff`, `Name.isMethod_iff`, `Literal.hasForm_iff`): in a text that is a
word, a look ahead for a reserved word and its end finds that word alone (`Name.opens_wordEnd`). The
first character of a literal, and whether it holds a point, tell the only type that it can have
(`Token.suggested_of_isLiteral`).
-/

namespace SJava

namespace Token

def Between (first last c : Char) : Prop := first.toNat ≤ c.toNat ∧ c.toNat ≤ last.toNat

def IsLetter (c : Char) : Prop := Between 'a' 'z' c ∨ Between 'A' 'Z' c

def IsDigit (c : Char) : Prop := Between '0' '9' c

def IsNamePart (c : Char) : Prop := IsLetter c ∨ IsDigit c ∨ c = '_'

instance (first last c : Char) : Decidable (Between first last c) :=
  inferInstanceAs (Decidable (_ ∧ _))

instance (c : Char) : Decidable (IsDigit c) := inferInstanceAs (Decidable (Between '0' '9' c))

def reservedWords : List String :=
  ["int", "double", "String", "boolean", "char", "void", "if", "return", "final", "while", "true",
    "false"]

structure IsVariable (t : Text) : Prop where
  spelled : ∃ c rest, t = c :: rest ∧ (IsLetter c ∨ c = '_') ∧ ∀ d ∈ rest, IsNamePart d
  free : ∀ word ∈ reservedWords, t ≠ word.toList
  named : t ≠ ['_']
  single : ¬['_', '_'] <+: t

structure IsMethod (t : Text) : Prop where
  spelled : ∃ c rest, t = c :: rest ∧ IsLetter c ∧ ∀ d ∈ rest, IsNamePart d
  free : ∀ word ∈ reservedWords, t ≠ word.toList

def signs : List Text := [[], ['-'], ['+']]

inductive IsLiteral : ValueType → Text → Prop where
  | int {sign digits : Text} (signed : sign ∈ signs) (filled : digits ≠ [])
      (number : ∀ c ∈ digits, IsDigit c) : IsLiteral .int (sign ++ digits)
  | double {sign whole fraction : Text} (signed : sign ∈ signs)
      (filled : whole ≠ [] ∨ fraction ≠ []) (before : ∀ c ∈ whole, IsDigit c)
      (after : ∀ c ∈ fraction, IsDigit c) : IsLiteral .double (sign ++ (whole ++ '.' :: fraction))
  | yes : IsLiteral .boolean "true".toList
  | no : IsLiteral .boolean "false".toList
  | string {inner : Text} (oneLine : '\n' ∉ inner) : IsLiteral .string ('"' :: (inner ++ ['"']))
  | char {c : Char} (oneLine : c ≠ '\n') : IsLiteral .char ['\'', c, '\'']

/-! ## Characters -/

theorem isDigit_iff {c : Char} : c.isDigit = true ↔ IsDigit c := Char.isDigit_iff_toNat

theorem isAlpha_iff {c : Char} : c.isAlpha = true ↔ IsLetter c := by
  change (decide (65 ≤ c.val ∧ c.val ≤ 90) || decide (97 ≤ c.val) && decide (c.val ≤ 122)) = true ↔
    _
  rw [Bool.or_eq_true, Bool.and_eq_true, decide_eq_true_eq, decide_eq_true_eq, decide_eq_true_eq,
    UInt32.le_iff_toNat_le, UInt32.le_iff_toNat_le, UInt32.le_iff_toNat_le,
    UInt32.le_iff_toNat_le, or_comm]
  rfl

theorem isNameChar_iff {c : Char} : Name.isNameChar c = true ↔ IsNamePart c := by
  change ((c.isAlpha || c.isDigit) || c == '_') = true ↔ _
  rw [Bool.or_eq_true, Bool.or_eq_true, beq_iff_eq, isAlpha_iff, isDigit_iff, or_assoc]
  rfl

/-! ## The type that a text suggests -/

def IsNumeric (c : Char) : Prop := IsDigit c ∨ c = '.' ∨ c = '-' ∨ c = '+'

instance (c : Char) : Decidable (IsNumeric c) := inferInstanceAs (Decidable (_ ∨ _))

def suggested : Text → Option ValueType
  | [] => none
  | c :: rest =>
      if IsNumeric c then if '.' ∈ c :: rest then some .double else some .int
      else if c = '"' then some .string
      else if c = '\'' then some .char
      else some .boolean

theorem suggested_of_isNumeric {t : Text} (filled : t ≠ []) (numeric : ∀ c ∈ t, IsNumeric c) :
    suggested t = if '.' ∈ t then some .double else some .int := by
  obtain ⟨c, rest, rfl⟩ := List.exists_cons_of_ne_nil filled
  rw [suggested, if_pos (numeric c (by simp))]

theorem isNumeric_of_mem_signs {sign : Text} (signed : sign ∈ signs) :
    ∀ c ∈ sign, IsNumeric c ∧ c ≠ '.' := by
  simp only [signs, List.mem_cons, List.not_mem_nil, or_false] at signed
  rcases signed with rfl | rfl | rfl <;> simp [IsNumeric]

theorem point_not_mem_of_isDigit {digits : Text} (number : ∀ c ∈ digits, IsDigit c) :
    '.' ∉ digits := by
  intro point
  exact absurd (number '.' point) (by decide)

theorem suggested_of_isLiteral {type : ValueType} {t : Text} (literal : IsLiteral type t) :
    suggested t = some type := by
  cases literal with
  | @int sign digits signed filled number =>
      have numeric : ∀ c ∈ sign ++ digits, IsNumeric c :=
        List.forall_mem_append.2 ⟨fun c member => (isNumeric_of_mem_signs signed c member).1,
          fun c member => .inl (number c member)⟩
      have whole : '.' ∉ sign ++ digits := by
        rw [List.mem_append, not_or]
        exact ⟨fun point => (isNumeric_of_mem_signs signed _ point).2 rfl,
          point_not_mem_of_isDigit number⟩
      rw [suggested_of_isNumeric (by simp [filled]) numeric, if_neg whole]
  | @double sign whole fraction signed filled before after =>
      have numeric : ∀ c ∈ sign ++ (whole ++ '.' :: fraction), IsNumeric c := by
        simp only [List.forall_mem_append, List.forall_mem_cons]
        exact ⟨fun c member => (isNumeric_of_mem_signs signed c member).1,
          fun c member => .inl (before c member), .inr (.inl rfl),
          fun c member => .inl (after c member)⟩
      rw [suggested_of_isNumeric (by simp) numeric, if_pos (by simp)]
  | yes | no | string oneLine | char oneLine => rfl

theorem isLiteral_unique {type other : ValueType} {t : Text} (literal : IsLiteral type t)
    (literal' : IsLiteral other t) : type = other := by
  have same := (suggested_of_isLiteral literal).symm.trans (suggested_of_isLiteral literal')
  exact Option.some.inj same

theorem eq_of_isLiteral_boolean {t : Text} (literal : IsLiteral .boolean t) :
    t = "true".toList ∨ t = "false".toList := by
  cases literal with
  | yes => exact .inl rfl
  | no => exact .inr rfl

theorem toNat_lt_of_isNumeric {c : Char} (numeric : IsNumeric c) : c.toNat < 'A'.toNat := by
  rcases numeric with digit | rfl | rfl | rfl
  · exact Nat.lt_of_le_of_lt digit.2 (by decide)
  · decide
  · decide
  · decide

theorem le_toNat_of_letter {c : Char} (first : IsLetter c ∨ c = '_') : 'A'.toNat ≤ c.toNat := by
  rcases first with (lower | upper) | rfl
  · exact Nat.le_trans (by decide) lower.1
  · exact upper.1
  · decide

theorem suggested_of_letter {c : Char} (first : IsLetter c ∨ c = '_') (rest : Text) :
    suggested (c :: rest) = some .boolean := by
  have high := le_toNat_of_letter first
  have unnumeric : ¬IsNumeric c := fun numeric =>
    absurd (toNat_lt_of_isNumeric numeric) (Nat.not_lt_of_le high)
  have double : c ≠ '"' := by
    rintro rfl
    exact absurd high (by decide)
  have single : c ≠ '\'' := by
    rintro rfl
    exact absurd high (by decide)
  rw [suggested, if_neg unnumeric, if_neg double, if_neg single]

theorem not_isVariable_of_isLiteral {type : ValueType} {t : Text} (literal : IsLiteral type t) :
    ¬IsVariable t := by
  intro named
  -- The first character leaves only `boolean`, whose two literals are reserved.
  obtain rfl : type = .boolean := by
    obtain ⟨c, rest, rfl, first, -⟩ := named.spelled
    have same := (suggested_of_isLiteral literal).symm.trans (suggested_of_letter first rest)
    exact Option.some.inj same
  rcases eq_of_isLiteral_boolean literal with yes | no
  · exact named.free "true" (by decide) yes
  · exact named.free "false" (by decide) no

end Token

/-! ## Names -/

namespace Name

open Token Pattern

variable {t : Text}

theorem fullMatch_name {first : Char → Bool} :
    (seq (one first) (many isNameChar)).fullMatch t = true ↔
      ∃ c rest, t = c :: rest ∧ first c = true ∧ ∀ d ∈ rest, IsNamePart d := by
  rw [fullMatch_iff_admits rfl]
  simp only [Admits, isNameChar_iff]
  constructor
  · rintro ⟨_, rest, rfl, ⟨c, start, rfl⟩, parts⟩
    exact ⟨c, rest, rfl, start, parts⟩
  · rintro ⟨c, rest, rfl, start, parts⟩
    exact ⟨[c], rest, rfl, ⟨c, start, rfl⟩, parts⟩

theorem isWord_iff :
    isWord t = true ↔
      ∃ c rest, t = c :: rest ∧ (IsLetter c ∨ c = '_') ∧ ∀ d ∈ rest, IsNamePart d := by
  rw [isWord, wordForm, fullMatch_name]
  simp only [Bool.or_eq_true, beq_iff_eq, isAlpha_iff]

theorem isWord_of_letter
    (spelled : ∃ c rest, t = c :: rest ∧ IsLetter c ∧ ∀ d ∈ rest, IsNamePart d) :
    isWord t = true := by
  obtain ⟨c, rest, same, letter, parts⟩ := spelled
  exact isWord_iff.2 ⟨c, rest, same, .inl letter, parts⟩

theorem isNameChar_of_isWord (word : isWord t = true) : ∀ c ∈ t, isNameChar c = true := by
  obtain ⟨c, rest, rfl, first, parts⟩ := isWord_iff.1 word
  simp only [isNameChar_iff, List.forall_mem_cons]
  exact ⟨first.imp_right .inr, parts⟩

theorem ne_nil_of_isWord (word : isWord t = true) : t ≠ [] := by
  obtain ⟨c, rest, rfl, -⟩ := isWord_iff.1 word
  simp

theorem isBoundary_iff {word : Text} {e : Place} (named : ∀ c ∈ t, isNameChar c = true)
    (filled : word ≠ []) (letters : ∀ c ∈ word, isNameChar c = true)
    (reads : (Place.start t).Reads word e) : e.isBoundary isNameChar = true ↔ e.rest = [] := by
  obtain ⟨split, past⟩ := reads
  have inside : e.before.any isNameChar = true := by
    rw [past, List.getLast?_eq_some_getLast filled]
    exact letters _ (List.getLast_mem filled)
  cases rest : e.rest with
  | nil => simp [Place.isBoundary, inside, rest]
  | cons d rest' =>
      have goesOn : isNameChar d = true := by
        apply named d
        change d ∈ (Place.start t).rest
        rw [split, rest]
        simp
      simp [Place.isBoundary, inside, rest, goesOn]

theorem opens_wordEnd {word : Text} (named : ∀ c ∈ t, isNameChar c = true) (filled : word ≠ [])
    (letters : ∀ c ∈ word, isNameChar c = true) :
    (seq (literal word) wordEnd).opens t = true ↔ t = word := by
  rw [opens_iff, ← Place.reads_whole]
  simp only [Matches, matches_literal, wordEnd]
  constructor
  · rintro ⟨e, m, reads, ended, -⟩
    exact ⟨m, reads, (isBoundary_iff named filled letters reads).1 ended⟩
  · rintro ⟨m, reads, done⟩
    exact ⟨m, m, reads, (isBoundary_iff named filled letters reads).2 done, rfl⟩

theorem letters_of_reserved {word : Text} (member : word ∈ reserved) :
    word ≠ [] ∧ ∀ c ∈ word, isNameChar c = true := by
  have all : reserved.all (fun word => !word.isEmpty && word.all isNameChar) = true := by decide
  simpa using List.all_eq_true.1 all word member

theorem opens_reserved (named : ∀ c ∈ t, isNameChar c = true) :
    (seq (anyOf (reserved.map literal)) wordEnd).opens t = true ↔ t ∈ reserved := by
  have each : (seq (anyOf (reserved.map literal)) wordEnd).opens t =
      reserved.any fun word => (seq (literal word) wordEnd).opens t := by
    rw [opens, run, run_anyOf (by simp [reserved]), List.any_map]
    rfl
  rw [each, List.any_eq_true]
  constructor
  · rintro ⟨word, member, ends⟩
    obtain ⟨filled, letters⟩ := letters_of_reserved member
    rwa [(opens_wordEnd named filled letters).1 ends]
  · intro member
    obtain ⟨filled, letters⟩ := letters_of_reserved member
    exact ⟨t, member, (opens_wordEnd named filled letters).2 rfl⟩

theorem isVariable_iff_isWord :
    isVariable t = true ↔ isWord t = true ∧ t ∉ reserved ∧ t ≠ ['_'] ∧ ¬['_', '_'] <+: t := by
  have tried : isVariable t =
      (!(seq (anyOf (reserved.map literal)) wordEnd).opens t &&
        (!(seq (literal ['_']) wordEnd).opens t &&
          (!(literal ['_', '_']).opens t && isWord t))) := rfl
  simp only [tried, Bool.and_eq_true, Bool.not_eq_true', ← Bool.not_eq_true, opens_literal]
  have underscore : ∀ c ∈ ['_'], isNameChar c = true := List.forall_mem_singleton.2 rfl
  -- That the text is a word comes last in the pattern and is needed for what stands before it.
  constructor
  · rintro ⟨free, alone, twice, word⟩
    have named := isNameChar_of_isWord word
    rw [opens_reserved named] at free
    rw [opens_wordEnd named (by simp) underscore] at alone
    exact ⟨word, free, alone, twice⟩
  · rintro ⟨word, free, alone, twice⟩
    have named := isNameChar_of_isWord word
    rw [opens_reserved named, opens_wordEnd named (by simp) underscore]
    exact ⟨free, alone, twice, word⟩

theorem isWord_of_isVariable (named : isVariable t = true) : isWord t = true :=
  (isVariable_iff_isWord.1 named).1

theorem free_iff : t ∉ reserved ↔ ∀ word ∈ reservedWords, t ≠ word.toList := by
  have listed : reserved = reservedWords.map String.toList := rfl
  rw [listed, List.mem_map]
  constructor
  · rintro free word member rfl
    exact free ⟨word, member, rfl⟩
  · rintro free ⟨word, member, rfl⟩
    exact free word member rfl

theorem isVariable_iff : isVariable t = true ↔ IsVariable t := by
  rw [isVariable_iff_isWord, isWord_iff, free_iff]
  constructor
  · rintro ⟨spelled, free, named, single⟩
    exact ⟨spelled, free, named, single⟩
  · rintro ⟨spelled, free, named, single⟩
    exact ⟨spelled, free, named, single⟩

-- A reserved word may begin a longer name.
example : isVariable "iffy".toList = true ∧ isVariable "if".toList = false := by decide

theorem isMethod_iff : isMethod t = true ↔ IsMethod t := by
  have tried : isMethod t = (!(seq (anyOf (reserved.map literal)) wordEnd).opens t &&
      (seq (one Char.isAlpha) (many isNameChar)).fullMatch t) := rfl
  simp only [tried, Bool.and_eq_true, Bool.not_eq_true', ← Bool.not_eq_true, fullMatch_name,
    isAlpha_iff]
  constructor
  · rintro ⟨free, spelled⟩
    have named := isNameChar_of_isWord (isWord_of_letter spelled)
    rw [opens_reserved named, free_iff] at free
    exact ⟨spelled, free⟩
  · rintro ⟨spelled, free⟩
    have named := isNameChar_of_isWord (isWord_of_letter spelled)
    rw [opens_reserved named, free_iff]
    exact ⟨free, spelled⟩

theorem isWord_of_isMethod (named : isMethod t = true) : isWord t = true :=
  isWord_of_letter (isMethod_iff.1 named).spelled

end Name

/-! ## Literals -/

namespace Literal

open Token Pattern

variable {t : Text}

theorem admits_sign : sign.Admits t ↔ t ∈ signs := by
  simp only [sign, admits_optional, Admits, Bool.or_eq_true, beq_iff_eq, signs, List.mem_cons,
    List.not_mem_nil, or_false]
  constructor
  · rintro (⟨c, rfl | rfl, rfl⟩ | rfl) <;> simp
  · rintro (rfl | rfl | rfl) <;> simp

theorem admits_digits : digits.Admits t ↔ t ≠ [] ∧ ∀ c ∈ t, IsDigit c := by
  simp only [digits, admits_atLeastOne, isDigit_iff]

theorem admits_decimals :
    decimals.Admits t ↔ ∃ whole fraction, t = whole ++ '.' :: fraction ∧
      (whole ≠ [] ∨ fraction ≠ []) ∧ (∀ c ∈ whole, IsDigit c) ∧ ∀ c ∈ fraction, IsDigit c := by
  simp only [decimals, anyOf, inTurn, Admits, point, admits_char, admits_digits]
  constructor
  · rintro (⟨whole, _, rfl, ⟨filled, before⟩, _, _, rfl, rfl, fraction, _, rfl, ⟨-, after⟩, rfl⟩ |
      ⟨_, _, rfl, rfl, fraction, _, rfl, ⟨filled, after⟩, rfl⟩ |
      ⟨whole, _, rfl, ⟨filled, before⟩, _, _, rfl, rfl, rfl⟩)
    · exact ⟨whole, fraction, by simp, .inl filled, before, after⟩
    · exact ⟨[], fraction, by simp, .inr filled, by simp, after⟩
    · exact ⟨whole, [], by simp, .inl filled, before, by simp⟩
  · rintro ⟨whole, fraction, rfl, filled, before, after⟩
    by_cases empty : fraction = []
    · have filled : whole ≠ [] := filled.resolve_right (absurd empty)
      exact .inr (.inr ⟨whole, ['.'], by simp [empty], ⟨filled, before⟩, ['.'], [], rfl, rfl, rfl⟩)
    · by_cases missing : whole = []
      · exact .inr (.inl ⟨['.'], fraction, by simp [missing], rfl, fraction, [], by simp,
          ⟨empty, after⟩, rfl⟩)
      · exact .inl ⟨whole, '.' :: fraction, rfl, ⟨missing, before⟩, ['.'], fraction, rfl, rfl,
          fraction, [], by simp, ⟨empty, after⟩, rfl⟩

theorem admits_quoted {quote : Char} {among : Pattern} :
    (inTurn [char quote, among, char quote]).Admits t ↔
      ∃ inner, t = quote :: (inner ++ [quote]) ∧ among.Admits inner := by
  simp only [inTurn, Admits, admits_char]
  constructor
  · rintro ⟨_, _, rfl, rfl, inner, _, rfl, admits, _, _, rfl, rfl, rfl⟩
    exact ⟨inner, by simp, admits⟩
  · rintro ⟨inner, rfl, admits⟩
    exact ⟨[quote], _, rfl, rfl, inner, [quote], rfl, admits, [quote], [], rfl, rfl, rfl⟩

theorem hasForm_iff {type : ValueType} : hasForm type t = true ↔ IsLiteral type t := by
  rw [hasForm, fullMatch_iff_admits (by cases type <;> rfl)]
  cases type with
  | int =>
      simp only [form, Admits, admits_sign, admits_digits]
      constructor
      · rintro ⟨sign, digits, rfl, signed, filled, number⟩
        exact .int signed filled number
      · intro literal
        cases literal with
        | int signed filled number => exact ⟨_, _, rfl, signed, filled, number⟩
  | double =>
      simp only [form, Admits, admits_sign, admits_decimals]
      constructor
      · rintro ⟨sign, _, rfl, signed, whole, fraction, rfl, filled, before, after⟩
        exact .double signed filled before after
      · intro literal
        cases literal with
        | double signed filled before after =>
            exact ⟨_, _, rfl, signed, _, _, rfl, filled, before, after⟩
  | boolean =>
      simp only [form, anyOf, Admits, admits_literal]
      constructor
      · rintro (rfl | rfl)
        · exact .yes
        · exact .no
      · exact eq_of_isLiteral_boolean
  | string =>
      simp only [form, admits_quoted, Admits, onLine, bne_iff_ne]
      constructor
      · rintro ⟨inner, rfl, oneLine⟩
        exact .string fun feed => oneLine '\n' feed rfl
      · intro literal
        cases literal with
        | string oneLine => exact ⟨_, rfl, fun c member feed => oneLine (feed ▸ member)⟩
  | char =>
      simp only [form, admits_quoted, Admits, onLine, bne_iff_ne]
      constructor
      · rintro ⟨_, rfl, c, oneLine, rfl⟩
        exact .char oneLine
      · intro literal
        cases literal with
        | char oneLine => exact ⟨_, rfl, _, oneLine, rfl⟩

theorem isLiteral_of_firstOf {order : List ValueType} {type : ValueType}
    (first : firstOf order t = some type) : IsLiteral type t := by
  have form := List.find?_some first
  exact hasForm_iff.1 form

theorem firstOf_eq_some {order : List ValueType} (complete : ∀ type, type ∈ order)
    {type : ValueType} : firstOf order t = some type ↔ IsLiteral type t := by
  constructor
  · exact isLiteral_of_firstOf
  · intro literal
    cases first : firstOf order t with
    | none => exact absurd (hasForm_iff.2 literal) (List.find?_eq_none.1 first type (complete type))
    | some other => rw [isLiteral_unique literal (isLiteral_of_firstOf first)]

theorem mem_precedence (type : ValueType) : type ∈ precedence := by cases type <;> decide

theorem type?_eq_some {type : ValueType} : type? t = some type ↔ IsLiteral type t :=
  firstOf_eq_some mem_precedence

theorem type?_of_isVariable (named : Name.isVariable t = true) : type? t = none := by
  rw [Option.eq_none_iff_forall_ne_some]
  intro type form
  exact not_isVariable_of_isLiteral (type?_eq_some.1 form) (Name.isVariable_iff.1 named)

end Literal

/-- Names and literals are recognized by their spelling. No text is a literal of two types, or both
a literal and a variable name, so it makes no difference in which order the forms are tried. -/
theorem tokens_follow_grammar (t : Text) :
    (Name.isVariable t = true ↔ Token.IsVariable t) ∧
    (Name.isMethod t = true ↔ Token.IsMethod t) ∧
    (∀ type, Literal.type? t = some type ↔ Token.IsLiteral type t) ∧
    (∀ type other, Token.IsLiteral type t → Token.IsLiteral other t → type = other) ∧
    (∀ type, Token.IsLiteral type t → ¬Token.IsVariable t) ∧
    ∀ order, order.Perm Literal.precedence → Literal.firstOf order t = Literal.type? t := by
  refine ⟨Name.isVariable_iff, Name.isMethod_iff, fun type => Literal.type?_eq_some,
    fun type other => Token.isLiteral_unique, fun type => Token.not_isVariable_of_isLiteral, ?_⟩
  intro order perm
  have complete (type : ValueType) : type ∈ order := perm.mem_iff.2 (Literal.mem_precedence type)
  apply Option.ext
  intro type
  rw [Literal.firstOf_eq_some complete, Literal.type?_eq_some]

namespace Token

def fraction : Text := "-.5".toList

theorem fraction_is_double_in_any_order :
    IsLiteral .double fraction ∧ (∀ type, IsLiteral type fraction → type = .double) ∧
      ¬IsVariable fraction ∧ Literal.precedence.reverse.Perm Literal.precedence ∧
      Literal.firstOf Literal.precedence.reverse fraction = Literal.type? fraction := by
  obtain ⟨-, -, typed, unique, unnamed, reordered⟩ := tokens_follow_grammar fraction
  have literal : IsLiteral .double fraction := (typed .double).1 (by decide)
  have perm := List.reverse_perm Literal.precedence
  exact ⟨literal, fun type other => unique type .double other literal, unnamed .double literal,
    perm, reordered _ perm⟩

end Token

end SJava
