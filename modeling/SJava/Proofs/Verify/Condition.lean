import SJava.Proofs.Clause.Entry
import SJava.Proofs.Verify.Value
import SJava.Verify.Condition

namespace SJava

namespace Clause

/-! ## Block headers -/

/-- The line is the word of a block, a condition in parentheses and a brace, with blanks between them
and `ending` after the brace. -/
def IsBlockHeader (block : Block) (inner ending t : Text) : Prop :=
  ∃ gap tail, t = block.word.toList ++ (gap ++ '(' :: (inner ++ ')' :: (tail ++ '\x7b' :: ending))) ∧
    (∀ c ∈ gap, Text.isBlank c = true) ∧ ∀ c ∈ tail, Text.isBlank c = true

theorem condition?_of_isBlockHeader {block : Block} {t inner ending : Text}
    (header : IsBlockHeader block inner ending t) (oneLine : '\n' ∉ inner)
    (ended : Text.atLineEnd ending = true) : condition? t = some (block, inner) := by
  obtain ⟨gap, tail, rfl, before, behind⟩ := header
  have absent : ')' ∉ tail ++ '\x7b' :: ending := by
    rw [List.mem_append, List.mem_cons, not_or, not_or]
    refine ⟨fun member => absurd (behind _ member) (by decide), by decide, ?_⟩
    rcases Text.atLineEnd_iff.1 ended with rfl | rfl <;> decide
  generalize rest : gap ++ '(' :: (inner ++ ')' :: (tail ++ '\x7b' :: ending)) = text
  have list : parenthesized? (Text.trimStart text) = some (inner, tail ++ '\x7b' :: ending) := by
    rw [← rest, Text.trimStart_append before (by decide), parenthesized?_append oneLine absent]
  have brace := Text.trimStart_append behind (by decide : Text.isBlank '\x7b' = false) ending
  have word : Text.afterWord block.word (block.word.toList ++ text) = some text :=
    Text.afterWord_eq_some.2 rfl
  cases block with
  | branch =>
      simp only [condition?, Block.all, List.findSome?_cons, word, bind, Option.bind_some, list, brace,
        ended, ↓reduceIte]
  | loop =>
      have other : Text.afterWord Block.branch.word (Block.loop.word.toList ++ text) = none := rfl
      simp only [condition?, Block.all, List.findSome?_cons, other, word, bind, Option.bind_some,
        Option.bind_none, list, brace, ended, ↓reduceIte]

theorem condition?_eq_some {block : Block} {t inner : Text} :
    condition? t = some (block, inner) ↔
      '\n' ∉ inner ∧ ∃ ending, Text.atLineEnd ending = true ∧ IsBlockHeader block inner ending t := by
  constructor
  · intro shape
    obtain ⟨found, -, cut⟩ := List.exists_of_findSome?_eq_some shape
    simp only [bind, Option.bind_eq_some_iff] at cut
    obtain ⟨rest, word, ⟨list, tail⟩, parens, cut⟩ := cut
    split at cut
    · rename_i ending brace
      split at cut
      · rename_i ended
        cases cut
        refine ⟨oneLine_of_parenthesized? parens, ending, ended, rest.takeWhile Text.isBlank,
          tail.takeWhile Text.isBlank, ?_, fun c => List.mem_takeWhile_imp,
          fun c => List.mem_takeWhile_imp⟩
        rw [← brace, Text.trimStart, List.takeWhile_append_dropWhile, ← parenthesized?_eq_some parens,
          Text.trimStart, List.takeWhile_append_dropWhile]
        exact Text.afterWord_eq_some.1 word
      · cases cut
    · cases cut
  · rintro ⟨oneLine, ending, ended, header⟩
    exact condition?_of_isBlockHeader header oneLine ended

theorem condition?_of_oneLine {block : Block} {t inner : Text} (oneLine : '\n' ∉ t) :
    condition? t = some (block, inner) ↔ IsBlockHeader block inner [] t := by
  rw [condition?_eq_some]
  constructor
  · rintro ⟨-, ending, ended, header⟩
    rcases Text.atLineEnd_iff.1 ended with rfl | rfl
    · exact header
    · obtain ⟨gap, tail, rfl, -⟩ := header
      exact absurd (by simp) oneLine
  · intro header
    refine ⟨?_, [], rfl, header⟩
    obtain ⟨gap, tail, rfl, -⟩ := header
    intro member
    exact oneLine (by simp [member])

end Clause

namespace Condition

/-! ## Parts -/

def Solid (t : Text) : Prop := ∀ joint ∈ joints, ¬joint <:+: t

/-- The text falls into parts at its joints, which are found from the left: of three bars the first two
are a joint. -/
inductive FallsInto : Text → List Text → Prop where
  | last {t : Text} (solid : Solid t) : FallsInto t [t]
  | cut {first rest : Text} {parts : List Text} {c : Char} (joint : [c, c] ∈ joints)
      (leftmost : Solid (first ++ [c])) (later : FallsInto rest parts) :
      FallsInto (first ++ c :: c :: rest) (first :: parts)

theorem joint_cases {c : Char} (joint : [c, c] ∈ joints) : c = '|' ∨ c = '&' := by
  simpa [joints] using joint

theorem exists_of_mem_joints {joint : Text} (member : joint ∈ joints) :
    ∃ c, joint = [c, c] ∧ [c, c] ∈ joints := by
  simp only [joints, List.mem_cons, List.not_mem_nil, or_false] at member
  rcases member with rfl | rfl
  · exact ⟨'|', rfl, by decide⟩
  · exact ⟨'&', rfl, by decide⟩

theorem solid_nil : Solid [] := by
  intro joint member found
  rw [List.infix_nil.1 found] at member
  exact absurd member (by decide)

theorem solid_cons {c : Char} {t : Text} :
    Solid (c :: t) ↔ (∀ joint ∈ joints, ¬joint <+: c :: t) ∧ Solid t := by
  simp only [Solid, List.infix_cons_iff, not_or, imp_and, forall_and]

theorem Solid.of_infix {s t : Text} (solid : Solid t) (inside : s <:+: t) : Solid s :=
  fun joint member found => solid joint member (found.trans inside)

theorem solid_concat {t : Text} (plain : ∀ c ∈ t, [c, c] ∉ joints) (c : Char) : Solid (t ++ [c]) := by
  intro joint member found
  obtain ⟨d, rfl, mark⟩ := exists_of_mem_joints member
  have absent : d ∉ t := fun inside => plain d inside mark
  rcases List.infix_concat_iff.1 found with last | inner
  · obtain ⟨front, same⟩ := last
    have split : front ++ [d] ++ [d] = t ++ [c] := by simpa using same
    obtain ⟨rfl, -⟩ := List.append_inj' split rfl
    exact absent (by simp)
  · exact absent (inner.subset (by simp))

theorem operands_joint {c : Char} (joint : [c, c] ∈ joints) (t : Text) :
    operands (c :: c :: t) = [] :: operands t := by
  rcases joint_cases joint with rfl | rfl
  · rw [operands]
  · rw [operands]

theorem operands_cons {c : Char} {t : Text} (other : ∀ joint ∈ joints, ¬joint <+: c :: t) :
    operands (c :: t) = Text.prepend c (operands t) := by
  rw [operands]
  · rintro rest rfl rfl
    exact other ['|', '|'] (by decide) (by simp)
  · rintro rest rfl rfl
    exact other ['&', '&'] (by decide) (by simp)

theorem fallsInto_cons {c : Char} {t : Text} {parts : List Text}
    (other : ∀ joint ∈ joints, ¬joint <+: c :: t) (falls : FallsInto t parts) :
    FallsInto (c :: t) (Text.prepend c parts) := by
  cases falls with
  | last solid => exact .last (solid_cons.2 ⟨other, solid⟩)
  | @cut first rest parts d joint leftmost later =>
      have solid : Solid (c :: first ++ [d]) := by
        refine solid_cons.2 ⟨?_, leftmost⟩
        intro mark member start
        have longer : c :: (first ++ [d]) <+: c :: (first ++ d :: d :: rest) := by simp
        exact other mark member (start.trans longer)
      exact .cut joint solid later

theorem fallsInto_joint {c : Char} {t : Text} {parts : List Text} (joint : [c, c] ∈ joints)
    (falls : FallsInto t parts) : FallsInto (c :: c :: t) ([] :: parts) := by
  have single : Solid ([] ++ [c]) := solid_concat (by simp) c
  exact .cut joint single falls

theorem fallsInto_operands (t : Text) : FallsInto t (operands t) := by
  induction t using operands.induct with
  | case1 => exact .last solid_nil
  | case2 t ih => exact fallsInto_joint (by decide) ih
  | case3 t ih => exact fallsInto_joint (by decide) ih
  | case4 c t noBars noAnds ih =>
      have other : ∀ joint ∈ joints, ¬joint <+: c :: t := by
        intro joint member start
        obtain ⟨d, rfl, mark⟩ := exists_of_mem_joints member
        obtain ⟨rest, same⟩ := start
        obtain ⟨rfl, rfl⟩ := List.cons.inj same
        rcases joint_cases mark with rfl | rfl
        · exact noBars rest rfl rfl
        · exact noAnds rest rfl rfl
      rw [operands_cons other]
      exact fallsInto_cons other ih

theorem operands_of_solid {t : Text} (solid : Solid t) : operands t = [t] := by
  induction t with
  | nil => rw [operands]
  | cons c t ih =>
      obtain ⟨other, solid⟩ := solid_cons.1 solid
      rw [operands_cons other, ih solid]
      rfl

theorem operands_of_leftmost {c : Char} {first : Text} (joint : [c, c] ∈ joints)
    (leftmost : Solid (first ++ [c])) (rest : Text) :
    operands (first ++ c :: c :: rest) = first :: operands rest := by
  induction first with
  | nil => exact operands_joint joint rest
  | cons d first ih =>
      obtain ⟨other, leftmost⟩ := solid_cons.1 leftmost
      have start : ∀ mark ∈ joints, ¬mark <+: d :: (first ++ c :: c :: rest) := by
        intro mark member found
        obtain ⟨e, rfl, -⟩ := exists_of_mem_joints member
        have whole : d :: (first ++ [c]) <+: d :: (first ++ c :: c :: rest) := by simp
        exact other _ member (List.prefix_of_prefix_length_le found whole (by simp))
      rw [List.cons_append, operands_cons start, ih leftmost]
      rfl

theorem operands_eq_iff {t : Text} {parts : List Text} : operands t = parts ↔ FallsInto t parts := by
  constructor
  · rintro rfl
    exact fallsInto_operands t
  · intro falls
    induction falls with
    | last solid => exact operands_of_solid solid
    | cut joint leftmost _ ih => rw [operands_of_leftmost joint leftmost, ih]

/-! ## Series of operands -/

/-- A literal that is a truth value, or the name of a variable in sight that holds one. -/
inductive IsOperand (stack : Stack) (t : Text) : Prop where
  | int (form : Literal.isInt t = true)
  | double (form : Literal.isDouble t = true)
  | boolean (form : Literal.isBoolean t = true)
  | named {v : Variable} (legal : Name.isVariable t = true) (found : stack.lookup? t = some v)
      (filled : v.initialized = true) (type : v.type ∈ [.boolean, .int, .double])

/-- Operands with joints between them, and blanks around each. -/
inductive Series (Operand : Text → Prop) : Text → Prop where
  | one {lead operand trail : Text} (before : ∀ c ∈ lead, Text.isBlank c = true)
      (valid : Operand operand) (behind : ∀ c ∈ trail, Text.isBlank c = true) :
      Series Operand (lead ++ operand ++ trail)
  | more {lead operand trail rest : Text} {c : Char} (before : ∀ c ∈ lead, Text.isBlank c = true)
      (valid : Operand operand) (behind : ∀ c ∈ trail, Text.isBlank c = true)
      (joint : [c, c] ∈ joints) (later : Series Operand rest) :
      Series Operand (lead ++ operand ++ trail ++ c :: c :: rest)

theorem IsOperand.atom {stack : Stack} {t : Text} (operand : IsOperand stack t) : Clause.Atom t := by
  cases operand with
  | int form => exact Literal.atom_of_isInt form
  | double form => exact Literal.atom_of_isDouble form
  | boolean form => exact Literal.atom_of_isBoolean form
  | named legal => exact Clause.atom_of_isWord (Name.isWord_of_isVariable legal)

theorem truthLiteral_iff {t : Text} :
    (∃ type, Literal.type? t = some type ∧ type.isTruthValue = true) ↔
      Literal.isInt t = true ∨ Literal.isDouble t = true ∨ Literal.isBoolean t = true := by
  constructor
  · rintro ⟨type, form, truth⟩
    have form := Literal.hasForm_iff.2 (Literal.type?_eq_some.1 form)
    cases type with
    | int => exact .inl form
    | double => exact .inr (.inl form)
    | boolean => exact .inr (.inr form)
    | string | char => cases truth
  · have typed {type : ValueType} (form : Literal.hasForm type t = true)
        (truth : type.isTruthValue = true) :
        ∃ type, Literal.type? t = some type ∧ type.isTruthValue = true :=
      ⟨type, Literal.type?_eq_some.2 (Literal.hasForm_iff.1 form), truth⟩
    rintro (int | double | boolean)
    · exact typed int rfl
    · exact typed double rfl
    · exact typed boolean rfl

theorem isTruthValue_iff {type : ValueType} :
    type.isTruthValue = true ↔ type ∈ [.boolean, .int, .double] := by
  cases type <;> decide

theorem isOperand_iff {stack : Stack} {t : Text} (position : Nat) :
    IsOperand stack t ↔ ∃ type, Value.operand stack position t = .ok type := by
  simp only [Value.operand_ok]
  constructor
  · intro operand
    have literal (form : Literal.isInt t = true ∨ Literal.isDouble t = true ∨
        Literal.isBoolean t = true) :
        ∃ type, Value.HasType stack t type ∧ type.isTruthValue = true := by
      obtain ⟨type, read, truth⟩ := truthLiteral_iff.2 form
      exact ⟨type, .literal read, truth⟩
    cases operand with
    | int form => exact literal (.inl form)
    | double form => exact literal (.inr (.inl form))
    | boolean form => exact literal (.inr (.inr form))
    | named legal found filled type =>
        exact ⟨_, .named legal found filled, isTruthValue_iff.2 type⟩
  · rintro ⟨type, typed, truth⟩
    cases typed with
    | literal form =>
        rcases truthLiteral_iff.1 ⟨type, form, truth⟩ with int | double | boolean
        · exact .int int
        · exact .double double
        · exact .boolean boolean
    | named legal found filled => exact .named legal found filled (isTruthValue_iff.1 truth)

section Series

variable {Operand : Text → Prop} {t : Text}

theorem not_joint_of_isBlank {c : Char} (blank : Text.isBlank c = true) : [c, c] ∉ joints := by
  intro joint
  rcases joint_cases joint with rfl | rfl <;> exact absurd blank (by decide)

theorem not_joint_of_isValueChar {c : Char} (h : Clause.isValueChar c = true) : [c, c] ∉ joints := by
  intro joint
  rcases joint_cases joint with rfl | rfl <;> exact absurd h (by decide)

theorem solid_surrounded {lead operand trail : Text} (before : ∀ c ∈ lead, Text.isBlank c = true)
    (atom : Clause.Atom operand) (behind : ∀ c ∈ trail, Text.isBlank c = true) (c : Char) :
    Solid (lead ++ operand ++ trail ++ [c]) := by
  apply solid_concat
  intro d member
  rcases List.mem_append.1 member with front | last
  · rcases List.mem_append.1 front with first | middle
    · exact not_joint_of_isBlank (before d first)
    · exact not_joint_of_isValueChar (atom.chars d middle)
  · exact not_joint_of_isBlank (behind d last)

theorem series_iff (atoms : ∀ x, Operand x → Clause.Atom x) :
    Series Operand t ↔ ∀ part ∈ operands t, Operand (Text.trim part) := by
  constructor
  · intro series
    induction series with
    | one before valid behind =>
        have solid := solid_surrounded before (atoms _ valid) behind 'a'
        rw [operands_of_solid (solid.of_infix (List.infix_append' [] _ _)), List.forall_mem_singleton,
          Text.trim_snug (atoms _ valid).snug before behind]
        exact valid
    | @more _ _ _ _ c before valid behind joint _ ih =>
        have solid := solid_surrounded before (atoms _ valid) behind c
        rw [operands_of_leftmost joint solid, List.forall_mem_cons,
          Text.trim_snug (atoms _ valid).snug before behind]
        exact ⟨valid, ih⟩
  · have surrounded {part : Text} (valid : Operand (Text.trim part)) :
        ∃ lead trail, part = lead ++ Text.trim part ++ trail ∧
          (∀ c ∈ lead, Text.isBlank c = true) ∧ ∀ c ∈ trail, Text.isBlank c = true :=
      ((Text.trim_cases part).resolve_left (atoms _ valid).filled).2
    intro valid
    have falls := fallsInto_operands t
    generalize operands t = parts at falls valid
    induction falls with
    | last =>
        rw [List.forall_mem_singleton] at valid
        obtain ⟨lead, trail, same, before, behind⟩ := surrounded valid
        rw [same]
        exact .one before valid behind
    | cut joint _ _ ih =>
        rw [List.forall_mem_cons] at valid
        obtain ⟨lead, trail, same, before, behind⟩ := surrounded valid.1
        rw [same]
        exact .more before valid.1 behind joint (ih valid.2)

theorem Series.surrounded {lead trail : Text} (series : Series Operand t)
    (before : ∀ c ∈ lead, Text.isBlank c = true) (behind : ∀ c ∈ trail, Text.isBlank c = true) :
    Series Operand (lead ++ t ++ trail) := by
  induction series generalizing lead with
  | @one first operand last inner valid outer =>
      have same : lead ++ (first ++ operand ++ last) ++ trail =
          (lead ++ first) ++ operand ++ (last ++ trail) := by simp
      rw [same]
      exact .one (List.forall_mem_append.2 ⟨before, inner⟩) valid
        (List.forall_mem_append.2 ⟨outer, behind⟩)
  | @more first operand last rest c inner valid outer joint later ih =>
      have same : lead ++ (first ++ operand ++ last ++ c :: c :: rest) ++ trail =
          (lead ++ first) ++ operand ++ last ++ c :: c :: ([] ++ rest ++ trail) := by simp
      rw [same]
      exact .more (List.forall_mem_append.2 ⟨before, inner⟩) valid outer joint (ih (by simp))

theorem Series.trimmed (atoms : ∀ x, Operand x → Clause.Atom x) (series : Series Operand t) :
    Series Operand (Text.trim t) ∧ Text.trim t ≠ [] ∧
      (∀ c ∈ (Text.trim t).head?, Clause.isValueChar c = true) ∧
      ∀ c ∈ (Text.trim t).getLast?, Clause.isValueChar c = true := by
  suffices core : ∃ lead core trail, t = lead ++ core ++ trail ∧
      (∀ c ∈ lead, Text.isBlank c = true) ∧ (∀ c ∈ trail, Text.isBlank c = true) ∧
      Series Operand core ∧ core ≠ [] ∧ (∀ c ∈ core.head?, Clause.isValueChar c = true) ∧
      ∀ c ∈ core.getLast?, Clause.isValueChar c = true by
    obtain ⟨lead, core, trail, rfl, before, behind, inner, filled, start, stop⟩ := core
    have snug : Text.Snug core :=
      ⟨filled, fun c head => Clause.not_isBlank_of_isValueChar (start c head),
        fun c last => Clause.not_isBlank_of_isValueChar (stop c last)⟩
    rw [Text.trim_snug snug before behind]
    exact ⟨inner, filled, start, stop⟩
  have ends {operand : Text} (atom : Clause.Atom operand) :
      (∀ c ∈ operand.head?, Clause.isValueChar c = true) ∧
        ∀ c ∈ operand.getLast?, Clause.isValueChar c = true :=
    ⟨fun c head => atom.chars c (List.mem_of_head? head),
      fun c last => atom.chars c (List.mem_of_getLast? last)⟩
  induction series with
  | @one lead operand trail before valid behind =>
      have atom := atoms operand valid
      have alone : Series Operand ([] ++ operand ++ []) := .one (by simp) valid (by simp)
      rw [List.nil_append, List.append_nil] at alone
      exact ⟨lead, operand, trail, rfl, before, behind, alone, atom.filled, ends atom⟩
  | @more lead operand trail rest c before valid behind joint later ih =>
      obtain ⟨first, core, last, rfl, inner, outer, series, filled, start, stop⟩ := ih
      have atom := atoms operand valid
      have front : Series Operand ([] ++ operand ++ trail ++ c :: c :: (first ++ core ++ [])) :=
        .more (by simp) valid behind joint (series.surrounded inner (by simp))
      refine ⟨lead, operand ++ trail ++ c :: c :: (first ++ core), last, by simp, before, outer,
        by simpa using front, by simp [atom.filled], ?_, ?_⟩
      · rw [List.append_assoc, List.head?_append_of_ne_nil _ atom.filled]
        exact (ends atom).1
      · have same : operand ++ trail ++ c :: c :: (first ++ core) =
            operand ++ trail ++ c :: c :: first ++ core := by simp
        rw [same, List.getLast?_append_of_ne_nil _ filled]
        exact stop

end Series

/-! ## The check of a condition -/

/-- What is wrong with a trimmed part of a condition that stands at `position`. -/
def Fault (stack : Stack) (position : Nat) (part : Text) (v : Violation) : Prop :=
  if part = [] then v = .emptyOperand position else Value.operand stack position part = .error v

theorem not_isOperand_of_fault {stack : Stack} {position : Nat} {part : Text} {v : Violation}
    (fault : Fault stack position part v) : ¬IsOperand stack part := by
  intro operand
  rw [Fault, if_neg operand.atom.filled] at fault
  obtain ⟨type, read⟩ := (isOperand_iff position).1 operand
  rw [read] at fault
  cases fault

theorem checkOperands_of_isOperand {stack : Stack} {part : Text} (operand : IsOperand stack (Text.trim part))
    (position : Nat) (rest : List Text) :
    checkOperands stack position (part :: rest) = checkOperands stack (position + 1) rest := by
  obtain ⟨type, read⟩ := (isOperand_iff position).1 operand
  have kept : (Text.trim part).isEmpty = false := by simpa using operand.atom.filled
  simp [checkOperands, kept, read, bind, Except.bind]

theorem checkOperands_of_fault {stack : Stack} {position : Nat} {part : Text} {v : Violation}
    (fault : Fault stack position (Text.trim part) v) (rest : List Text) :
    checkOperands stack position (part :: rest) = .error v := by
  unfold Fault at fault
  split at fault
  · rename_i empty
    rw [fault]
    simp [checkOperands, empty, bind, Except.bind, throw, throwThe, MonadExceptOf.throw]
  · rename_i filled
    have kept : (Text.trim part).isEmpty = false := by simpa using filled
    simp [checkOperands, kept, fault, bind, Except.bind]

theorem isOperand_or_fault (stack : Stack) (position : Nat) (part : Text) :
    IsOperand stack part ∨ ∃ v, Fault stack position part v := by
  by_cases empty : part = []
  · exact .inr ⟨.emptyOperand position, by rw [Fault, if_pos empty]⟩
  · cases read : Value.operand stack position part with
    | ok type => exact .inl ((isOperand_iff position).2 ⟨type, read⟩)
    | error v => exact .inr ⟨v, by rw [Fault, if_neg empty, read]⟩

theorem checkOperands_ok {stack : Stack} {position : Nat} {parts : List Text} :
    checkOperands stack position parts = .ok () ↔
      ∀ part ∈ parts, IsOperand stack (Text.trim part) := by
  induction parts generalizing position with
  | nil => simp [checkOperands]
  | cons part rest ih =>
      rw [List.forall_mem_cons]
      rcases isOperand_or_fault stack position (Text.trim part) with operand | ⟨v, fault⟩
      · rw [checkOperands_of_isOperand operand, ih]
        exact (and_iff_right operand).symm
      · rw [checkOperands_of_fault fault]
        simp [not_isOperand_of_fault fault]

theorem checkOperands_error {stack : Stack} {position : Nat} {parts : List Text} {v : Violation} :
    checkOperands stack position parts = .error v ↔
      ∃ before part after, parts = before ++ part :: after ∧
        (∀ p ∈ before, IsOperand stack (Text.trim p)) ∧
        Fault stack (position + before.length) (Text.trim part) v := by
  constructor
  · intro failed
    induction parts generalizing position with
    | nil => cases failed
    | cons part rest ih =>
        rcases isOperand_or_fault stack position (Text.trim part) with operand | ⟨w, fault⟩
        · rw [checkOperands_of_isOperand operand] at failed
          obtain ⟨before, other, after, rfl, valid, fault⟩ := ih failed
          refine ⟨part :: before, other, after, rfl, List.forall_mem_cons.2 ⟨operand, valid⟩, ?_⟩
          rwa [List.length_cons, Nat.add_comm before.length, ← Nat.add_assoc]
        · rw [checkOperands_of_fault fault] at failed
          cases failed
          exact ⟨[], part, rest, rfl, by simp, fault⟩
  · rintro ⟨before, part, after, rfl, valid, fault⟩
    induction before generalizing position with
    | nil => exact checkOperands_of_fault fault after
    | cons first before ih =>
        rw [List.forall_mem_cons] at valid
        rw [List.cons_append, checkOperands_of_isOperand valid.1]
        apply ih valid.2
        rwa [Nat.add_assoc, Nat.add_comm 1]

theorem checkInner_eq {t : Text} (filled : Text.trim t ≠ [])
    (start : ∀ joint ∈ joints, ¬joint <+: Text.trim t)
    (stop : ∀ joint ∈ joints, ¬joint <:+ Text.trim t) (stack : Stack) :
    checkInner stack t = checkOperands stack 1 (operands (Text.trim t)) := by
  have kept : (Text.trim t).isEmpty = false := by simpa using filled
  have noStart : joints.any (·.isPrefixOf (Text.trim t)) = false := by
    simpa only [List.any_eq_false, List.isPrefixOf_iff_prefix] using start
  have noStop : joints.any (·.isSuffixOf (Text.trim t)) = false := by
    simpa only [List.any_eq_false, List.isSuffixOf_iff_suffix] using stop
  simp only [checkInner, kept, noStart, noStop, Bool.false_eq_true, ↓reduceIte]

theorem checkInner_ok {stack : Stack} {t : Text} :
    checkInner stack t = .ok () ↔ Series (IsOperand stack) t := by
  have atoms : ∀ x, IsOperand stack x → Clause.Atom x := fun x operand => operand.atom
  constructor
  · intro accepted
    have checked : Text.trim t ≠ [] ∧ checkOperands stack 1 (operands (Text.trim t)) = .ok () := by
      simp only [checkInner] at accepted
      split at accepted
      · cases accepted
      · rename_i kept
        split at accepted
        · cases accepted
        · split at accepted
          · cases accepted
          · exact ⟨by simpa using kept, accepted⟩
    have series := (series_iff atoms).2 (checkOperands_ok.1 checked.2)
    obtain ⟨-, lead, trail, same, before, behind⟩ := (Text.trim_cases t).resolve_left checked.1
    rw [same]
    exact series.surrounded before behind
  · intro series
    obtain ⟨inner, filled, start, stop⟩ := series.trimmed atoms
    rw [checkInner_eq filled]
    · exact checkOperands_ok.2 ((series_iff atoms).1 inner)
    · intro joint member found
      obtain ⟨c, rfl, mark⟩ := exists_of_mem_joints member
      obtain ⟨rest, same⟩ := found
      exact not_joint_of_isValueChar (start c (by simp [← same])) mark
    · intro joint member found
      obtain ⟨c, rfl, mark⟩ := exists_of_mem_joints member
      obtain ⟨front, same⟩ := found
      exact not_joint_of_isValueChar (stop c (by simp [← same])) mark

theorem check_ok {stack : Stack} {t : Text} {block : Clause.Block} :
    check stack t = .ok block ↔
      ∃ inner, Clause.condition? t = some (block, inner) ∧ Series (IsOperand stack) inner := by
  simp only [← checkInner_ok]
  unfold check
  cases Clause.condition? t with
  | none => simp
  | some pair =>
      obtain ⟨found, inner⟩ := pair
      simp only [map_eq_ok, Option.some.injEq, Prod.mk.injEq]
      constructor
      · rintro ⟨_, accepted, rfl⟩
        exact ⟨inner, ⟨rfl, rfl⟩, accepted⟩
      · rintro ⟨_, ⟨rfl, rfl⟩, accepted⟩
        exact ⟨(), accepted, rfl⟩

end Condition

open Condition in
/-- A line without line feeds is accepted as the header of a block if and only if it is the word of that
block, a series of operands in parentheses and a brace, with blanks between them. If the line has this
shape and the condition is not empty and neither starts nor ends with a joint, then the violation is
that of the leftmost part which is no operand. -/
theorem condition_accepted_iff_series (stack : Stack) {t : Text} (oneLine : '\n' ∉ t) :
    (∀ block, check stack t = .ok block ↔
      ∃ inner, Clause.IsBlockHeader block inner [] t ∧ Series (IsOperand stack) inner) ∧
    ∀ block inner, Clause.IsBlockHeader block inner [] t → Text.trim inner ≠ [] →
      (∀ joint ∈ joints, ¬joint <+: Text.trim inner ∧ ¬joint <:+ Text.trim inner) →
      ∀ v, check stack t = .error v ↔
        ∃ before part after, FallsInto (Text.trim inner) (before ++ part :: after) ∧
          (∀ p ∈ before, IsOperand stack (Text.trim p)) ∧
          Fault stack (before.length + 1) (Text.trim part) v := by
  constructor
  · intro block
    simp only [check_ok, Clause.condition?_of_oneLine oneLine]
  · intro block inner header filled apart v
    have shape := (Clause.condition?_of_oneLine oneLine).2 header
    have checked : check stack t = .error v ↔
        checkOperands stack 1 (operands (Text.trim inner)) = .error v := by
      rw [← checkInner_eq filled (fun joint member => (apart joint member).1)
        (fun joint member => (apart joint member).2)]
      simp only [check, shape]
      cases checkInner stack inner <;> simp [Except.map]
    rw [checked, checkOperands_error]
    simp only [operands_eq_iff, Nat.add_comm 1]

namespace Condition

def settings : Stack where
  current :=
    { kind := .global, name := "__global__".toList, distinct := by decide
      vars := [⟨"ready".toList, .boolean, false, true⟩, ⟨"title".toList, .string, false, true⟩] }
  outer := []

def waiting : Text := "while( ready&&-1.5 ||true) \x7b".toList

def misled : Text := "if (ready|| title && \"a\") \x7b".toList

theorem waiting_accepted_and_misled_refused :
    '\n' ∉ waiting ∧
    (∃ inner, Clause.IsBlockHeader .loop inner [] waiting ∧ Series (IsOperand settings) inner) ∧
    '\n' ∉ misled ∧
    ∃ before part after,
      FallsInto "ready|| title && \"a\"".toList (before ++ part :: after) ∧
      (∀ p ∈ before, IsOperand settings (Text.trim p)) ∧
      Fault settings (before.length + 1) (Text.trim part) (.noTruthValue 2 .string) := by
  have first : '\n' ∉ waiting := by decide
  have second : '\n' ∉ misled := by decide
  have header : Clause.IsBlockHeader .branch "ready|| title && \"a\"".toList [] misled :=
    ⟨[' '], [' '], rfl, List.forall_mem_singleton.2 rfl, List.forall_mem_singleton.2 rfl⟩
  have fault := (condition_accepted_iff_series settings second).2 .branch _ header (by decide)
    (by decide) (.noTruthValue 2 .string)
  exact ⟨first, ((condition_accepted_iff_series settings first).1 .loop).1 rfl, second, fault.1 rfl⟩

end Condition

end SJava
