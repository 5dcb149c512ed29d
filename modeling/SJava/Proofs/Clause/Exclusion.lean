import SJava.Proofs.Clause.Shape
import SJava.Proofs.Lexicon.Token

/-!
# One kind for every line

How a line begins, up to the mark after its first word, gives away what shape it can have
(`announced_of_fits`), so no line has two shapes. The first word is taken as names are, in ASCII
characters, while a keyword ends where no letter of any script follows: a keyword that opens a line is
its first word all the same (`leading_of_opensWith`).
-/

namespace SJava

/-! ## First words -/

namespace Name

theorem leading_append {word rest : Text} (letters : ∀ c ∈ word, isNameChar c = true)
    (stop : ∀ c ∈ rest.head?, isNameChar c = false) : leading (word ++ rest) = (word, rest) := by
  rw [leading, List.takeWhile_append_of_pos letters, List.dropWhile_append_of_pos letters]
  cases rest with
  | nil => simp
  | cons c rest => simp [stop c rfl]

theorem not_isNameChar_of_isBlank {c : Char} (blank : Text.isBlank c = true) :
    isNameChar c = false := by
  rw [Bool.eq_false_iff]
  intro named
  have word := Text.isWordChar_of_isNameChar named
  rw [Text.not_isWordChar_of_isBlank blank] at word
  cases word

theorem free_of_isVariable {t : Text} (named : isVariable t = true) : t ≠ [] ∧ t ∉ reserved := by
  obtain ⟨word, free, -⟩ := isVariable_iff_isWord.1 named
  exact ⟨ne_nil_of_isWord word, free⟩

theorem free_of_isMethod {t : Text} (named : isMethod t = true) : t ≠ [] ∧ t ∉ reserved :=
  ⟨ne_nil_of_isWord (isWord_of_isMethod named), free_iff.2 (isMethod_iff.1 named).free⟩

end Name

theorem Text.leading_of_opensWith {word : String} {t : Text}
    (letters : word.toList.all Name.isNameChar = true) (h : t.opensWith word = true) :
    (Name.leading t).1 = word.toList := by
  obtain ⟨rest, rfl, ended⟩ := opensWith_iff.1 h
  rw [Name.leading_append (List.all_eq_true.1 letters)]
  intro c head
  rw [Bool.eq_false_iff]
  intro named
  cases rest with
  | nil => cases head
  | cons d rest =>
      cases head
      simp [atWordEnd, isWordChar_of_isNameChar named] at ended

namespace Clause

def openers : List Text := "final".toList :: ValueType.all.map fun type => type.word.toList

theorem leading_of_declaration? {t : Text} {d : Declaration} (h : declaration? t = some d) :
    (Name.leading t).1 ∈ openers := by
  have stop {rest after : Text} (gap : Text.afterBlanks Text.isBlank rest = some after) :
      ∀ c ∈ rest.head?, Name.isNameChar c = false := by
    intro c head
    cases rest with
    | nil => cases head
    | cons d rest =>
        cases head
        rw [Text.afterBlanks] at gap
        split at gap
        · exact Name.not_isNameChar_of_isBlank ‹_›
        · cases gap
  simp only [declaration?, bind, Option.bind_eq_some_iff] at h
  obtain ⟨⟨type, rest⟩, typed, after, gap, -⟩ := h
  cases modified : (t.afterWord "final").bind (Text.afterBlanks Text.isBlank) with
  | some other =>
      obtain ⟨rest, word, gap⟩ := Option.bind_eq_some_iff.1 modified
      have letters : ∀ c ∈ "final".toList, Name.isNameChar c = true :=
        List.all_eq_true.1 (by decide)
      rw [Text.afterWord_eq_some.1 word, Name.leading_append letters (stop gap)]
      exact List.mem_cons_self
  | none =>
      simp only [finality, modified] at typed
      have letters : ∀ c ∈ type.word.toList, Name.isNameChar c = true :=
        List.all_eq_true.1 (by cases type <;> decide)
      rw [ValueType.leading?_eq_some typed, Name.leading_append letters (stop gap)]
      exact List.mem_cons_of_mem _ (List.mem_map_of_mem type.mem_all)

theorem leading_of_call? {t : Text} {call : Call} (h : call? t = some call) :
    Name.isMethod (Name.leading t).1 = true ∧
      (Text.trimPlain (Name.leading t).2).head? = some '(' := by
  simp only [call?, Option.bind_eq_bind, Option.bind_eq_some_iff, Option.guard_eq_some'] at h
  obtain ⟨_, legal, ⟨inner, tail⟩, list, -⟩ := h
  refine ⟨legal, ?_⟩
  rw [parenthesized?_eq_some list]
  rfl

end Clause

/-! ## Announced kinds -/

namespace Kind

def keyed? (word : Text) : Option Kind :=
  if word = [] then some .blockClose
  else if word = "void".toList then some .methodHeader
  else if word ∈ ["if".toList, "while".toList] then some .conditionHeader
  else if word = "return".toList then some .returning
  else if word ∈ Clause.openers then some .declaration
  else none

def marked? (mark : Option Char) : Option Kind :=
  if mark = some '=' then some .assignment
  else if mark = some '(' then some .call
  else none

/-- The only kind that a line can be of, going by its beginning. -/
def announced (t : Text) : Option Kind :=
  (keyed? (Name.leading t).1).or (marked? (Text.trimPlain (Name.leading t).2).head?)

theorem announced_of_keyed {t : Text} {kind : Kind}
    (keyword : keyed? (Name.leading t).1 = some kind) : announced t = some kind := by
  rw [announced, keyword, Option.some_or]

theorem keyed?_of_free {word : Text} (free : word ≠ [] ∧ word ∉ Name.reserved) :
    keyed? word = none := by
  have apart (taken : Text) (known : taken ∈ Name.reserved) : word ≠ taken := by
    rintro rfl
    exact free.2 known
  have opener : word ∉ Clause.openers := by
    intro member
    have taken : ∀ w ∈ Clause.openers, w ∈ Name.reserved := by decide
    exact free.2 (taken word member)
  rw [keyed?, if_neg free.1, if_neg (apart _ (by decide)), if_neg ?_, if_neg (apart _ (by decide)),
    if_neg opener]
  simp only [List.mem_cons, List.not_mem_nil, or_false, not_or]
  exact ⟨apart _ (by decide), apart _ (by decide)⟩

theorem announced_of_free {t : Text}
    (free : (Name.leading t).1 ≠ [] ∧ (Name.leading t).1 ∉ Name.reserved) :
    announced t = marked? (Text.trimPlain (Name.leading t).2).head? := by
  rw [announced, keyed?_of_free free, Option.none_or]

theorem announced_of_fits {kind : Kind} {t : Text} (h : kind.fits t = true) :
    announced t = some kind := by
  -- A name is no keyword, so only an assignment and a call are left to the mark.
  cases kind with
  | methodHeader =>
      apply announced_of_keyed
      rw [Text.leading_of_opensWith (by decide) h]
      decide
  | conditionHeader =>
      apply announced_of_keyed
      rcases Bool.or_eq_true_iff.1 h with branch | loop
      · rw [Text.leading_of_opensWith (by decide) branch]
        decide
      · rw [Text.leading_of_opensWith (by decide) loop]
        decide
  | blockClose =>
      obtain rfl : t = ['\x7d'] := beq_iff_eq.1 h
      decide
  | declaration =>
      obtain ⟨d, shape⟩ := Option.isSome_iff_exists.1 h
      have keyword : ∀ word ∈ Clause.openers, keyed? word = some .declaration := by decide
      exact announced_of_keyed (keyword _ (Clause.leading_of_declaration? shape))
  | assignment =>
      obtain ⟨legal, sign⟩ := Bool.and_eq_true_iff.1 h
      have mark : (Text.trimPlain (Name.leading t).2).head? = some '=' := beq_iff_eq.1 sign
      rw [announced_of_free (Name.free_of_isVariable legal), mark]
      rfl
  | returning =>
      apply announced_of_keyed
      rw [Text.leading_of_opensWith (by decide) h]
      decide
  | call =>
      obtain ⟨call, shape⟩ := Option.isSome_iff_exists.1 h
      obtain ⟨legal, paren⟩ := Clause.leading_of_call? shape
      rw [announced_of_free (Name.free_of_isMethod legal), paren]
      rfl
  | unrecognized => cases h

theorem fits_unique {kind other : Kind} {t : Text} (h : kind.fits t = true)
    (h' : other.fits t = true) : kind = other := by
  have same := (announced_of_fits h).symm.trans (announced_of_fits h')
  exact Option.some.inj same

theorem firstOf_of_fits {kind : Kind} {t : Text} (h : kind.fits t = true) {order : List Kind}
    (member : kind ∈ order) : firstOf order t = kind := by
  unfold firstOf
  cases found : order.find? (·.fits t) with
  | none => exact absurd h (List.find?_eq_none.1 found kind member)
  | some other =>
      have fitting := List.find?_some found
      exact fits_unique fitting h

theorem firstOf_of_unfit {t : Text} {order : List Kind} (unfit : ∀ kind ∈ order, kind.fits t ≠ true) :
    firstOf order t = .unrecognized := by
  rw [firstOf, List.find?_eq_none.2 unfit, Option.getD_none]

theorem ofText_of_fits (kind : Kind) {t : Text} (h : kind.fits t = true) : ofText t = kind := by
  apply firstOf_of_fits h
  cases kind with
  | unrecognized => cases h
  | _ => decide

theorem ofText_of_isReturn {t : Text} (h : Clause.isReturn t = true) : ofText t = .returning :=
  ofText_of_fits .returning (Clause.opensWith_of_isReturn h)

theorem ofText_of_declaration? {t : Text} {d : Clause.Declaration}
    (h : Clause.declaration? t = some d) : ofText t = .declaration :=
  ofText_of_fits .declaration (Option.isSome_iff_exists.2 ⟨d, h⟩)

/-- No text has two of the seven shapes, so its kind is the same whatever the order in which the
shapes are tried. -/
theorem shapes_exclusive (t : Text) :
    (∀ kind other : Kind, kind.fits t = true → other.fits t = true → kind = other) ∧
    ∀ order, order.Perm shaped → firstOf order t = ofText t := by
  refine ⟨fun kind other => fits_unique, ?_⟩
  intro order perm
  by_cases fitting : ∃ kind ∈ shaped, kind.fits t = true
  · obtain ⟨kind, member, h⟩ := fitting
    rw [ofText, firstOf_of_fits h member, firstOf_of_fits h (perm.mem_iff.2 member)]
  · have unfit : ∀ kind ∈ shaped, kind.fits t ≠ true := fun kind member h => fitting ⟨kind, member, h⟩
    rw [ofText, firstOf_of_unfit unfit,
      firstOf_of_unfit fun kind member => unfit kind (perm.mem_iff.1 member)]

def tangled : Text := "while1 (final int x = 2);".toList

theorem tangled_is_call_in_any_order :
    Kind.call.fits tangled = true ∧ (∀ kind : Kind, kind.fits tangled = true → kind = .call) ∧
      shaped.reverse.Perm shaped ∧ firstOf shaped.reverse tangled = ofText tangled := by
  obtain ⟨unique, reordered⟩ := shapes_exclusive tangled
  have fitting : Kind.call.fits tangled = true := by decide
  exact ⟨fitting, fun kind h => unique kind .call h fitting, List.reverse_perm shaped,
    reordered shaped.reverse (List.reverse_perm shaped)⟩

end Kind

end SJava
