import SJava.Lexicon.Quotation

namespace SJava.Quotation

def after (quote : Option Char) (t : Text) : Option Char := t.foldl next quote

theorem after_cons (quote : Option Char) (c : Char) (t : Text) :
    after quote (c :: t) = after (next quote c) t := rfl

theorem after_append (quote : Option Char) (a b : Text) :
    after quote (a ++ b) = after (after quote a) b := List.foldl_append

theorem isQuote_after (t : Text) {quote : Option Char} (sort : ∀ q ∈ quote, isQuote q = true) :
    ∀ q ∈ after quote t, isQuote q = true := by
  induction t generalizing quote with
  | nil => exact sort
  | cons c t ih =>
      apply ih
      intro q opened
      cases quote with
      | none =>
          rw [next] at opened
          split at opened
          · cases opened
            assumption
          · cases opened
      | some quote =>
          rw [next] at opened
          split at opened
          · cases opened
          · exact sort q opened

theorem after_of_absent {quote : Char} {t : Text} (absent : quote ∉ t) :
    after (some quote) t = some quote := by
  induction t with
  | nil => rfl
  | cons c t ih =>
      rw [List.mem_cons, not_or] at absent
      rw [after_cons, next, if_neg (Ne.symm absent.1)]
      exact ih absent.2

theorem after_of_unquoted {t : Text} (plain : ∀ c ∈ t, isQuote c = false) {quote : Option Char}
    (sort : ∀ q ∈ quote, isQuote q = true) : after quote t = quote := by
  cases quote with
  | some quote =>
      apply after_of_absent
      intro member
      have quoted := sort quote rfl
      rw [plain quote member] at quoted
      cases quoted
  | none =>
      induction t with
      | nil => rfl
      | cons c t ih =>
          rw [List.forall_mem_cons] at plain
          rw [after_cons, next, plain.1]
          exact ih plain.2

theorem mem_of_after_eq_none {quote : Char} {t : Text} (closed : after (some quote) t = none) :
    quote ∈ t := by
  by_cases member : quote ∈ t
  · exact member
  · rw [after_of_absent member] at closed
    cases closed

/-! ## Parts -/

/-- No separator of the text, read with `quote` open, stands outside quotations. -/
def Whole (separator : Text) (quote : Option Char) (t : Text) : Prop :=
  splitFrom separator quote t = [t]

inductive Parted (separator : Text) : Option Char → Text → List Text → Prop where
  | last {quote : Option Char} {t : Text} (whole : Whole separator quote t) :
      Parted separator quote t [t]
  | cut {quote : Option Char} {first rest : Text} {parts : List Text} {c : Char}
      (whole : Whole separator quote first) (closed : after quote first = none)
      (plain : isQuote c = false) (mark : separator = [c]) (later : Parted separator none rest parts) :
      Parted separator quote (first ++ c :: rest) (first :: parts)

variable {separator : Text}

theorem splitFrom_cons (separator : Text) (quote : Option Char) (c : Char) (t : Text) :
    splitFrom separator quote (c :: t) =
      if quote = none ∧ isQuote c = false ∧ separator = [c] then [] :: splitFrom separator none t
      else Text.prepend c (splitFrom separator (next quote c) t) := by
  cases quote <;> simp [splitFrom]

theorem splitFrom_ne_nil (separator : Text) (quote : Option Char) (t : Text) :
    splitFrom separator quote t ≠ [] := by
  cases t with
  | nil =>
      rw [splitFrom]
      simp
  | cons c t =>
      rw [splitFrom_cons]
      split
      · simp
      · cases splitFrom separator (next quote c) t <;> simp [Text.prepend]

theorem whole_nil (quote : Option Char) : Whole separator quote [] := by
  rw [Whole, splitFrom]

theorem whole_cons {quote : Option Char} {c : Char} {t : Text} :
    Whole separator quote (c :: t) ↔
      ¬(quote = none ∧ isQuote c = false ∧ separator = [c]) ∧
        Whole separator (next quote c) t := by
  unfold Whole
  rw [splitFrom_cons]
  split
  · rename_i cuts
    simp [cuts]
  · rename_i kept
    obtain ⟨first, rest, parts⟩ :=
      List.exists_cons_of_ne_nil (splitFrom_ne_nil separator (next quote c) t)
    simp [kept, parts, Text.prepend]

theorem whole_append {quote : Option Char} {a b : Text} :
    Whole separator quote (a ++ b) ↔
      Whole separator quote a ∧ Whole separator (after quote a) b := by
  induction a generalizing quote with
  | nil => simp [whole_nil, after]
  | cons c a ih => rw [List.cons_append, whole_cons, whole_cons, ih, after_cons, and_assoc]

theorem whole_of_absent {c : Char} {t : Text} (absent : c ∉ t) (quote : Option Char) :
    Whole [c] quote t := by
  induction t generalizing quote with
  | nil => exact whole_nil quote
  | cons d t ih =>
      rw [List.mem_cons, not_or] at absent
      rw [whole_cons]
      refine ⟨?_, ih absent.2 _⟩
      rintro ⟨-, -, same⟩
      exact absent.1 (List.cons.inj same).1

theorem whole_of_open {quote : Char} {t : Text} (absent : quote ∉ t) :
    Whole separator (some quote) t := by
  induction t with
  | nil => exact whole_nil _
  | cons c t ih =>
      rw [List.mem_cons, not_or] at absent
      rw [whole_cons, next, if_neg (Ne.symm absent.1)]
      exact ⟨by simp, ih absent.2⟩

theorem after_concat_of_whole {c : Char} {t : Text} (plain : isQuote c = false)
    (whole : Whole [c] none (t ++ [c])) : after none (t ++ [c]) ≠ none := by
  obtain ⟨-, mark⟩ := whole_append.1 whole
  obtain ⟨inside, -⟩ := whole_cons.1 mark
  have sort : ∀ q ∈ after none t, isQuote q = true := isQuote_after t (by simp)
  rw [after_append, after_of_unquoted (by simpa using plain) sort]
  intro closed
  exact inside ⟨closed, plain, rfl⟩

theorem splitFrom_whole_append {quote : Option Char} {a : Text} (whole : Whole separator quote a)
    (b : Text) :
    ∃ first rest, splitFrom separator (after quote a) b = first :: rest ∧
      splitFrom separator quote (a ++ b) = (a ++ first) :: rest := by
  induction a generalizing quote with
  | nil =>
      obtain ⟨first, rest, parts⟩ := List.exists_cons_of_ne_nil (splitFrom_ne_nil separator quote b)
      exact ⟨first, rest, parts, parts⟩
  | cons c a ih =>
      obtain ⟨kept, whole⟩ := whole_cons.1 whole
      obtain ⟨first, rest, back, parts⟩ := ih whole
      refine ⟨first, rest, back, ?_⟩
      rw [List.cons_append, splitFrom_cons, if_neg kept, parts]
      rfl

theorem splitFrom_of_parted {quote : Option Char} {t : Text} {parts : List Text}
    (parted : Parted separator quote t parts) : splitFrom separator quote t = parts := by
  induction parted with
  | last whole => exact whole
  | @cut quote first rest parts c whole closed plain mark later ih =>
      obtain ⟨part, others, back, all⟩ := splitFrom_whole_append whole (c :: rest)
      rw [closed, splitFrom_cons, if_pos ⟨rfl, plain, mark⟩, ih] at back
      obtain ⟨rfl, rfl⟩ := List.cons.inj back
      rw [all, List.append_nil]

theorem parted_splitFrom (separator : Text) (quote : Option Char) (t : Text) :
    Parted separator quote t (splitFrom separator quote t) := by
  induction t generalizing quote with
  | nil =>
      rw [splitFrom]
      exact .last (whole_nil quote)
  | cons c t ih =>
      rw [splitFrom_cons]
      split
      · rename_i cuts
        obtain ⟨rfl, plain, mark⟩ := cuts
        exact .cut (whole_nil none) rfl plain mark (ih none)
      · rename_i kept
        have inner := ih (next quote c)
        -- The character belongs to the first part.
        generalize splitFrom separator (next quote c) t = parts at inner
        cases inner with
        | last whole => exact .last (whole_cons.2 ⟨kept, whole⟩)
        | cut whole closed plain mark later =>
            exact .cut (whole_cons.2 ⟨kept, whole⟩) closed plain mark later

theorem splitFrom_eq_iff {quote : Option Char} {t : Text} {parts : List Text} :
    splitFrom separator quote t = parts ↔ Parted separator quote t parts := by
  constructor
  · rintro rfl
    exact parted_splitFrom separator quote t
  · exact splitFrom_of_parted

theorem split_append {a : Text} {c : Char} (plain : isQuote c = false) (whole : Whole [c] none a)
    (closed : after none a = none) (b : Text) : split [c] (a ++ c :: b) = a :: split [c] b :=
  splitFrom_of_parted (.cut whole closed plain rfl (parted_splitFrom [c] none b))

theorem Parted.part {quote : Option Char} {t part : Text} {parts : List Text}
    (parted : Parted separator quote t parts) (start : quote = none) (member : part ∈ parts) :
    Whole separator none part ∧ (after none part = none ∨ ∃ front, t = front ++ part) := by
  induction parted with
  | last whole =>
      rw [List.mem_singleton] at member
      subst member start
      exact ⟨whole, .inr ⟨[], rfl⟩⟩
  | @cut quote first rest parts c whole closed plain mark later ih =>
      rcases List.mem_cons.1 member with rfl | member
      · subst start
        exact ⟨whole, .inl closed⟩
      · refine (ih rfl member).imp_right (Or.imp_right ?_)
        rintro ⟨front, rfl⟩
        exact ⟨first ++ c :: front, by simp⟩

theorem Parted.mem {quote : Option Char} {t part : Text} {parts : List Text}
    (parted : Parted separator quote t parts) (member : part ∈ parts) {c : Char} (inside : c ∈ part) :
    c ∈ t := by
  induction parted with
  | last =>
      rw [List.mem_singleton] at member
      exact member ▸ inside
  | cut _ _ _ _ _ ih =>
      rw [List.mem_append, List.mem_cons]
      rcases List.mem_cons.1 member with rfl | member
      · exact .inl inside
      · exact .inr (.inr (ih member))

/-! ## Masks -/

def maskChar : Option Char → Char → Char
  | none, c => if isQuote c then '"' else c
  | some quote, c => if c = quote then '"' else '_'

theorem maskFrom_cons {quote : Option Char} {c : Char} {t : Text}
    (partner : quote = none → isQuote c = true → c ∈ t) :
    maskFrom quote (c :: t) = maskChar quote c :: maskFrom (next quote c) t := by
  cases quote with
  | none =>
      rw [maskFrom, maskChar, next]
      cases quoted : isQuote c with
      | false => simp
      | true => simp [partner rfl quoted]
  | some quote =>
      rw [maskFrom, maskChar, next]
      split <;> rfl

theorem partner_of_closed {quote : Option Char} {c : Char} {t : Text}
    (closed : after quote (c :: t) = none) (outside : quote = none) (quoted : isQuote c = true) :
    c ∈ t := by
  rw [after_cons, outside, next, if_pos quoted] at closed
  exact mem_of_after_eq_none closed

theorem maskFrom_append_of_closed {a : Text} {quote : Option Char} (closed : after quote a = none)
    (b : Text) : maskFrom quote (a ++ b) = maskFrom quote a ++ mask b := by
  induction a generalizing quote with
  | nil =>
      have same : quote = none := closed
      rw [same]
      rfl
  | cons c a ih =>
      have partner := partner_of_closed closed
      rw [List.cons_append, maskFrom_cons partner, List.cons_append,
        maskFrom_cons fun outside quoted => List.mem_append_left b (partner outside quoted), ih closed]

/-! ## Single quotations -/

theorem after_quoted {quote : Char} {t : Text} (quoted : isQuote quote = true) (absent : quote ∉ t) :
    after none (quote :: (t ++ [quote])) = none := by
  rw [after_cons, next, if_pos quoted, after_append, after_of_absent absent, after_cons, next,
    if_pos rfl]
  rfl

theorem whole_quoted {quote : Char} {t : Text} (quoted : isQuote quote = true) (absent : quote ∉ t)
    (separator : Text) : Whole separator none (quote :: (t ++ [quote])) := by
  rw [whole_cons, next, if_pos quoted, whole_append, after_of_absent absent, whole_cons]
  exact ⟨by simp [quoted], whole_of_open absent, by simp, whole_nil _⟩

theorem maskFrom_open {quote : Char} {t : Text} (absent : quote ∉ t) (rest : Text) :
    maskFrom (some quote) (t ++ quote :: rest) =
      List.replicate t.length '_' ++ '"' :: mask rest := by
  induction t with
  | nil =>
      rw [List.nil_append, maskFrom, if_pos rfl]
      rfl
  | cons c t ih =>
      rw [List.mem_cons, not_or] at absent
      rw [List.cons_append, maskFrom, if_neg (Ne.symm absent.1), ih absent.2]
      rfl

theorem mask_quotation {quote : Char} {t : Text} (quoted : isQuote quote = true)
    (absent : quote ∉ t) (rest : Text) :
    mask (quote :: (t ++ quote :: rest)) =
      '"' :: (List.replicate t.length '_' ++ '"' :: mask rest) := by
  rw [mask, maskFrom, if_pos (by simp [quoted]), maskFrom_open absent]

end SJava.Quotation
