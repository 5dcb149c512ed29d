import SJava.Lexicon.Pattern

/-!
# Where patterns match

`Matches` says from which place to which a pattern may read, without an order of tries. The matcher
finds such a match whenever there is one (`run_iff`).
-/

namespace SJava

namespace Place

/-- Reading `front` leads from one place to the other. -/
def Reads (s : Place) (front : Text) (e : Place) : Prop :=
  s.rest = front ++ e.rest ∧ e.before = front.getLast?.or s.before

theorem reads_nil {s e : Place} : s.Reads [] e ↔ e = s := by
  obtain ⟨before, rest⟩ := s
  obtain ⟨before', rest'⟩ := e
  simp [Reads, and_comm, eq_comm]

theorem reads_cons {s e : Place} {c : Char} {front : Text} :
    s.Reads (c :: front) e ↔ ∃ rest, s.rest = c :: rest ∧ Reads ⟨some c, rest⟩ front e := by
  have last : ((c :: front).getLast?).or s.before = front.getLast?.or (some c) := by
    rw [List.getLast?_cons]
    cases front.getLast? <;> rfl
  simp only [Reads, last, List.cons_append]
  constructor
  · rintro ⟨split, before⟩
    exact ⟨_, split, rfl, before⟩
  · rintro ⟨rest, split, rfl, before⟩
    exact ⟨split, before⟩

theorem reads_append {s e : Place} {front back : Text} :
    s.Reads (front ++ back) e ↔ ∃ m : Place, s.Reads front m ∧ m.Reads back e := by
  induction front generalizing s with
  | nil => simp [reads_nil]
  | cons c front ih =>
      simp only [List.cons_append, reads_cons, ih]
      constructor
      · rintro ⟨rest, split, m, first, second⟩
        exact ⟨m, ⟨rest, split, first⟩, second⟩
      · rintro ⟨m, ⟨rest, split, first⟩, second⟩
        exact ⟨rest, split, m, first, second⟩

theorem reads_whole {t front : Text} :
    (∃ e, (start t).Reads front e ∧ e.rest = []) ↔ t = front := by
  constructor
  · rintro ⟨e, ⟨split, -⟩, done⟩
    rwa [done, List.append_nil] at split
  · rintro rfl
    exact ⟨⟨t.getLast?, []⟩, ⟨(List.append_nil t).symm, by simp [start]⟩, rfl⟩

end Place

namespace Pattern

open Place

def Matches : Pattern → Place → Place → Prop
  | empty, s, e => e = s
  | one among, s, e => ∃ c, among c = true ∧ s.Reads [c] e
  | many among, s, e => ∃ front, (∀ c ∈ front, among c = true) ∧ s.Reads front e
  | seq head tail, s, e => ∃ m, head.Matches s m ∧ tail.Matches m e
  | alt left right, s, e => left.Matches s e ∨ right.Matches s e
  | absent pattern, s, e => (∀ m, ¬pattern.Matches s m) ∧ e = s
  | boundary inWord, s, e => s.isBoundary inWord = true ∧ e = s

theorem runMany_iff {among : Char → Bool} {next : Place → Bool} {before : Option Char} {t : Text} :
    runMany among next before t = true ↔
      ∃ e, (many among).Matches ⟨before, t⟩ e ∧ next e = true := by
  induction t generalizing before with
  | nil =>
      rw [runMany]
      constructor
      · intro holds
        exact ⟨_, ⟨[], by simp, reads_nil.2 rfl⟩, holds⟩
      · rintro ⟨e, ⟨front, -, split, past⟩, holds⟩
        obtain ⟨rfl, done⟩ := List.append_eq_nil_iff.1 split.symm
        rwa [reads_nil.1 ⟨split, past⟩] at holds
  | cons c t ih =>
      rw [runMany, Bool.or_eq_true, Bool.and_eq_true, ih]
      constructor
      · rintro (⟨taken, e, ⟨front, all, reads⟩, holds⟩ | holds)
        · exact ⟨e, ⟨c :: front, List.forall_mem_cons.2 ⟨taken, all⟩, reads_cons.2 ⟨t, rfl, reads⟩⟩,
            holds⟩
        · exact ⟨_, ⟨[], by simp, reads_nil.2 rfl⟩, holds⟩
      · rintro ⟨e, ⟨front, all, reads⟩, holds⟩
        cases front with
        | nil =>
            rw [reads_nil.1 reads] at holds
            exact .inr holds
        | cons d front =>
            obtain ⟨rest, same, reads⟩ := reads_cons.1 reads
            cases same
            obtain ⟨taken, all⟩ := List.forall_mem_cons.1 all
            exact .inl ⟨taken, e, ⟨front, all, reads⟩, holds⟩

theorem run_iff (pattern : Pattern) {next : Place → Bool} {s : Place} :
    pattern.run next s = true ↔ ∃ e, pattern.Matches s e ∧ next e = true := by
  induction pattern generalizing next s with
  | empty => simp [run, Matches]
  | one among =>
      obtain ⟨before, _ | ⟨c, rest⟩⟩ := s
      · simp [run, Matches, Reads]
      · simp only [run, Matches, reads_cons, reads_nil, Bool.and_eq_true]
        constructor
        · rintro ⟨taken, holds⟩
          exact ⟨_, ⟨c, taken, rest, rfl, rfl⟩, holds⟩
        · rintro ⟨e, ⟨d, taken, rest', same, rfl⟩, holds⟩
          cases same
          exact ⟨taken, holds⟩
  | many among => exact runMany_iff
  | seq head tail headIH tailIH =>
      simp only [run, Matches, headIH, tailIH]
      constructor
      · rintro ⟨m, first, e, second, holds⟩
        exact ⟨e, ⟨m, first, second⟩, holds⟩
      · rintro ⟨e, ⟨m, first, second⟩, holds⟩
        exact ⟨m, first, e, second, holds⟩
  | alt left right leftIH rightIH =>
      simp only [run, Matches, Bool.or_eq_true, leftIH, rightIH, or_and_right, exists_or]
  | absent pattern ih =>
      have nowhere : (!pattern.run (fun _ => true) s) = true ↔ ∀ m, ¬pattern.Matches s m := by
        rw [Bool.not_eq_true', ← Bool.not_eq_true, ih]
        simp
      simp only [run, Matches, Bool.and_eq_true, nowhere, and_assoc, exists_and_left,
        exists_eq_left]
  | boundary inWord =>
      simp only [run, Matches, Bool.and_eq_true, and_assoc, exists_and_left, exists_eq_left]

def opens (pattern : Pattern) (t : Text) : Bool := pattern.run (fun _ => true) (.start t)

theorem opens_iff {pattern : Pattern} {t : Text} :
    pattern.opens t = true ↔ ∃ e, pattern.Matches (start t) e := by
  simp [opens, run_iff]

theorem fullMatch_iff {pattern : Pattern} {t : Text} :
    pattern.fullMatch t = true ↔ ∃ e, pattern.Matches (start t) e ∧ e.rest = [] := by
  simp only [fullMatch, run_iff, List.isEmpty_iff]

/-! ## Texts of a pattern -/

/-- The texts that a pattern reads, wherever they stand. What looks around itself reads none. -/
def Admits : Pattern → Text → Prop
  | empty, t => t = []
  | one among, t => ∃ c, among c = true ∧ t = [c]
  | many among, t => ∀ c ∈ t, among c = true
  | seq head tail, t => ∃ front back, t = front ++ back ∧ head.Admits front ∧ tail.Admits back
  | alt left right, t => left.Admits t ∨ right.Admits t
  | absent _, _ | boundary _, _ => False

def isPlain : Pattern → Bool
  | empty | one _ | many _ => true
  | seq left right | alt left right => left.isPlain && right.isPlain
  | absent _ | boundary _ => false

theorem matches_iff_admits {pattern : Pattern} (plain : pattern.isPlain = true) {s e : Place} :
    pattern.Matches s e ↔ ∃ front, pattern.Admits front ∧ s.Reads front e := by
  induction pattern generalizing s e with
  | empty => simp [Matches, Admits, reads_nil]
  | one among =>
      simp only [Matches, Admits]
      constructor
      · rintro ⟨c, taken, reads⟩
        exact ⟨[c], ⟨c, taken, rfl⟩, reads⟩
      · rintro ⟨_, ⟨c, taken, rfl⟩, reads⟩
        exact ⟨c, taken, reads⟩
  | many among => rfl
  | seq head tail headIH tailIH =>
      obtain ⟨headPlain, tailPlain⟩ := Bool.and_eq_true_iff.1 plain
      simp only [Matches, Admits, headIH headPlain, tailIH tailPlain]
      constructor
      · rintro ⟨m, ⟨front, first, reads⟩, back, second, reads'⟩
        exact ⟨front ++ back, ⟨front, back, rfl, first, second⟩, reads_append.2 ⟨m, reads, reads'⟩⟩
      · rintro ⟨_, ⟨front, back, rfl, first, second⟩, reads⟩
        obtain ⟨m, reads, reads'⟩ := reads_append.1 reads
        exact ⟨m, ⟨front, first, reads⟩, back, second, reads'⟩
  | alt left right leftIH rightIH =>
      obtain ⟨leftPlain, rightPlain⟩ := Bool.and_eq_true_iff.1 plain
      simp only [Matches, Admits, leftIH leftPlain, rightIH rightPlain, or_and_right, exists_or]
  | absent pattern => cases plain
  | boundary inWord => cases plain

theorem fullMatch_iff_admits {pattern : Pattern} (plain : pattern.isPlain = true) {t : Text} :
    pattern.fullMatch t = true ↔ pattern.Admits t := by
  rw [fullMatch_iff]
  constructor
  · rintro ⟨e, found, done⟩
    obtain ⟨front, admits, reads⟩ := (matches_iff_admits plain).1 found
    rwa [reads_whole.1 ⟨e, reads, done⟩]
  · intro admits
    obtain ⟨e, reads, done⟩ := reads_whole.2 (rfl : t = t)
    exact ⟨e, (matches_iff_admits plain).2 ⟨t, admits, reads⟩, done⟩

/-! ## Composed patterns -/

theorem admits_char {c : Char} {t : Text} : (char c).Admits t ↔ t = [c] := by
  simp [char, Admits]

theorem isPlain_literal (word : Text) : (literal word).isPlain = true := by
  induction word with
  | nil => rfl
  | cons c word ih => exact ih

theorem admits_literal {word t : Text} : (literal word).Admits t ↔ t = word := by
  induction word generalizing t with
  | nil => rfl
  | cons c word ih =>
      change (∃ front back, t = front ++ back ∧ (char c).Admits front ∧ (literal word).Admits back) ↔ _
      simp [admits_char, ih]

theorem matches_literal {word : Text} {s e : Place} :
    (literal word).Matches s e ↔ s.Reads word e := by
  simp [matches_iff_admits (isPlain_literal word), admits_literal]

theorem opens_literal {word t : Text} : (literal word).opens t = true ↔ word <+: t := by
  simp only [opens_iff, matches_literal]
  constructor
  · rintro ⟨e, split, -⟩
    exact ⟨e.rest, split.symm⟩
  · rintro ⟨rest, rfl⟩
    exact ⟨⟨_, rest⟩, rfl, rfl⟩

theorem run_anyOf {patterns : List Pattern} (filled : patterns ≠ []) {next : Place → Bool}
    {s : Place} : (anyOf patterns).run next s = patterns.any fun pattern => pattern.run next s := by
  fun_induction anyOf patterns with
  | case1 => exact absurd rfl filled
  | case2 pattern => simp
  | case3 pattern patterns several ih => simp [run, ih several]

theorem admits_optional {pattern : Pattern} {t : Text} :
    (optional pattern).Admits t ↔ pattern.Admits t ∨ t = [] := Iff.rfl

theorem admits_atLeastOne {among : Char → Bool} {t : Text} :
    (atLeastOne among).Admits t ↔ t ≠ [] ∧ ∀ c ∈ t, among c = true := by
  simp only [atLeastOne, Admits]
  constructor
  · rintro ⟨_, back, rfl, ⟨c, first, rfl⟩, later⟩
    exact ⟨by simp, List.forall_mem_cons.2 ⟨first, later⟩⟩
  · rintro ⟨filled, all⟩
    obtain ⟨c, back, rfl⟩ := List.exists_cons_of_ne_nil filled
    obtain ⟨first, later⟩ := List.forall_mem_cons.1 all
    exact ⟨[c], back, rfl, ⟨c, first, rfl⟩, later⟩

end Pattern

end SJava
