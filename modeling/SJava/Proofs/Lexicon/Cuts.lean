import SJava.Proofs.Lexicon.Quotation

namespace SJava.Quotation

variable {quote : Option Char} {c : Char} {t : Text} {parts : List Text}

/-! ## Joined parts -/

theorem Parted.joined (parted : Parted [c] quote t parts) :
    parts ≠ [] ∧ [c].intercalate parts = t := by
  induction parted with
  | last => exact ⟨by simp, List.intercalate_singleton⟩
  | cut _ _ _ mark _ ih =>
      obtain ⟨filled, joined⟩ := ih
      cases mark
      refine ⟨by simp, ?_⟩
      rw [List.intercalate_cons_of_ne_nil filled, joined, List.append_assoc]
      rfl

theorem Parted.closed (parted : Parted [c] quote t parts) (start : quote = none) :
    ∀ part ∈ parts.dropLast, after none part = none := by
  induction parted with
  | last => simp
  | cut _ closed _ _ later ih =>
      rw [List.dropLast_cons_of_ne_nil later.joined.1, List.forall_mem_cons]
      exact ⟨start ▸ closed, ih rfl⟩

theorem parted_intercalate (plain : isQuote c = false) (filled : parts ≠ [])
    (whole : ∀ part ∈ parts, Whole [c] none part)
    (closed : ∀ part ∈ parts.dropLast, after none part = none) :
    Parted [c] none ([c].intercalate parts) parts := by
  induction parts with
  | nil => exact absurd rfl filled
  | cons first rest ih =>
      rw [List.forall_mem_cons] at whole
      cases rest with
      | nil =>
          rw [List.intercalate_singleton]
          exact .last whole.1
      | cons second rest =>
          rw [List.dropLast_cons_cons, List.forall_mem_cons] at closed
          rw [List.intercalate_cons_cons, List.append_assoc]
          exact .cut whole.1 closed.1 plain rfl (ih (by simp) whole.2 closed.2)

/-- The parts of a text join to it, each splits to itself alone, and each but the last ends outside
quotations. Every list of such parts is what splitting their join gives. -/
theorem split_inverts_join {c : Char} (plain : isQuote c = false) :
    (∀ t, split [c] t ≠ [] ∧ [c].intercalate (split [c] t) = t ∧
      (∀ part ∈ split [c] t, split [c] part = [part]) ∧
      ∀ part ∈ (split [c] t).dropLast, after none part = none) ∧
    ∀ parts, parts ≠ [] → (∀ part ∈ parts, split [c] part = [part]) →
      (∀ part ∈ parts.dropLast, after none part = none) →
      split [c] ([c].intercalate parts) = parts := by
  constructor
  · intro t
    have parted : Parted [c] none t (split [c] t) := splitFrom_eq_iff.1 rfl
    obtain ⟨filled, joined⟩ := parted.joined
    exact ⟨filled, joined, fun part member => (parted.part rfl member).1, parted.closed rfl⟩
  · intro parts filled whole closed
    exact splitFrom_eq_iff.2 (parted_intercalate plain filled whole closed)

def quotedCommas : List Text :=
  ["a = \"x,'y\"".toList, " b = ','".toList, [], " '\",".toList]

theorem quotedCommas_split_again :
    isQuote ',' = false ∧
      [','].intercalate quotedCommas = "a = \"x,'y\", b = ',',, '\",".toList ∧
      split [','] ([','].intercalate quotedCommas) = quotedCommas := by
  have plain : isQuote ',' = false := rfl
  obtain ⟨-, back⟩ := split_inverts_join plain
  exact ⟨plain, by decide, back quotedCommas (by decide) (by decide) (by decide)⟩

/-! ## Places -/

/-- The character `c` stands at the place, and no quotation is open there. -/
def Bare (quote : Option Char) (t : Text) (c : Char) (place : Nat) : Prop :=
  t[place]? = some c ∧ after quote (t.take place) = none

theorem not_bare_nil (place : Nat) : ¬Bare quote [] c place := by simp [Bare]

theorem bare_zero {d : Char} : Bare quote (d :: t) c 0 ↔ d = c ∧ quote = none := by
  simp [Bare, after]

theorem bare_succ {d : Char} {place : Nat} :
    Bare quote (d :: t) c (place + 1) ↔ Bare (next quote d) t c place := Iff.rfl

theorem cut_iff (plain : isQuote c = false) {d : Char} :
    (quote = none ∧ isQuote d = false ∧ [c] = [d]) ↔ Bare quote (d :: t) c 0 := by
  rw [bare_zero]
  constructor
  · rintro ⟨outside, -, mark⟩
    cases mark
    exact ⟨rfl, outside⟩
  · rintro ⟨rfl, outside⟩
    exact ⟨outside, plain, rfl⟩

def cuts : List Text → List Nat
  | [] => []
  | [_] => []
  | part :: second :: rest =>
      part.length :: (cuts (second :: rest)).map (part.length + 1 + ·)

theorem cuts_nil_cons (filled : parts ≠ []) : cuts ([] :: parts) = 0 :: (cuts parts).map (1 + ·) := by
  cases parts with
  | nil => exact absurd rfl filled
  | cons second rest => rfl

theorem cuts_prepend (d : Char) (filled : parts ≠ []) :
    cuts (Text.prepend d parts) = (cuts parts).map (1 + ·) := by
  cases parts with
  | nil => exact absurd rfl filled
  | cons first rest =>
      cases rest with
      | nil => rfl
      | cons second rest =>
          simp [Text.prepend, cuts, Nat.add_comm, Nat.add_left_comm]

theorem mem_cuts_splitFrom (plain : isQuote c = false) {place : Nat} :
    place ∈ cuts (splitFrom [c] quote t) ↔ Bare quote t c place := by
  induction t generalizing quote place with
  | nil => simp [splitFrom, cuts, not_bare_nil]
  | cons d t ih =>
      rw [splitFrom_cons]
      split
      · -- The first character is a cut; otherwise it belongs to the first part.
        rename_i cut
        rw [cuts_nil_cons (splitFrom_ne_nil _ _ _)]
        cases place with
        | zero => simpa using (cut_iff plain).1 cut
        | succ place =>
            obtain ⟨rfl, unquoted, -⟩ := cut
            simp [bare_succ, next, unquoted, ih, Nat.add_comm 1]
      · rename_i kept
        rw [cuts_prepend d (splitFrom_ne_nil _ _ _)]
        cases place with
        | zero =>
            rw [← cut_iff plain]
            constructor
            · intro member
              obtain ⟨later, -, zero⟩ := List.mem_map.1 member
              omega
            · intro cut
              exact absurd cut kept
        | succ place => simp [bare_succ, ih, Nat.add_comm 1]

theorem maskChar_eq_iff (plain : isQuote c = false) (other : c ≠ '_') {d : Char} :
    maskChar quote d = c ↔ d = c ∧ quote = none := by
  have quotes : '"' ≠ c := by
    rintro rfl
    cases plain
  cases quote with
  | none =>
      rw [maskChar]
      split
      · rename_i quoted
        have apart : d ≠ c := by
          rintro rfl
          rw [plain] at quoted
          cases quoted
        simp [quotes, apart]
      · simp
  | some quote =>
      rw [maskChar]
      split <;> simp [quotes, Ne.symm other]

theorem getElem?_maskFrom (plain : isQuote c = false) (other : c ≠ '_')
    (closed : after quote t = none) {place : Nat} :
    (maskFrom quote t)[place]? = some c ↔ Bare quote t c place := by
  induction t generalizing quote place with
  | nil => simp [maskFrom, not_bare_nil]
  | cons d t ih =>
      rw [maskFrom_cons (partner_of_closed closed)]
      cases place with
      | zero =>
          rw [List.getElem?_cons_zero, Option.some.injEq, maskChar_eq_iff plain other, bare_zero]
      | succ place =>
          rw [List.getElem?_cons_succ, bare_succ]
          exact ih closed

/-! ## Masks of masks -/

theorem length_maskFrom (quote : Option Char) (t : Text) : (maskFrom quote t).length = t.length := by
  induction t generalizing quote with
  | nil => cases quote <;> rfl
  | cons c t ih =>
      cases quote with
      | none =>
          rw [maskFrom]
          split <;> rw [List.length_cons, List.length_cons, ih]
      | some quote =>
          rw [maskFrom]
          split <;> rw [List.length_cons, List.length_cons, ih]

def shownQuote (quote : Option Char) : Option Char := quote.map fun _ => '"'

theorem next_maskChar (quote : Option Char) (c : Char) :
    next (shownQuote quote) (maskChar quote c) = shownQuote (next quote c) := by
  cases quote with
  | none =>
      have double : isQuote '"' = true := rfl
      cases quoted : isQuote c <;> simp [shownQuote, maskChar, next, quoted, double]
  | some quote => by_cases same : c = quote <;> simp [shownQuote, maskChar, next, same]

theorem maskChar_maskChar (quote : Option Char) (c : Char) :
    maskChar (shownQuote quote) (maskChar quote c) = maskChar quote c := by
  cases quote with
  | none => cases quoted : isQuote c <;> simp [shownQuote, maskChar, quoted]
  | some quote => by_cases same : c = quote <;> simp [shownQuote, maskChar, same]

theorem after_maskFrom (closed : after quote t = none) :
    after (shownQuote quote) (maskFrom quote t) = none := by
  induction t generalizing quote with
  | nil =>
      have same : quote = none := closed
      rw [same]
      rfl
  | cons c t ih =>
      rw [maskFrom_cons (partner_of_closed closed), after_cons, next_maskChar]
      exact ih closed

theorem maskFrom_maskFrom (closed : after quote t = none) :
    maskFrom (shownQuote quote) (maskFrom quote t) = maskFrom quote t := by
  induction t generalizing quote with
  | nil => cases quote <;> rfl
  | cons c t ih =>
      -- The mask closes its quotations too, so its quotes have partners for the second mask.
      have again := after_maskFrom closed
      rw [maskFrom_cons (partner_of_closed closed)] at again ⊢
      rw [maskFrom_cons (partner_of_closed again), maskChar_maskChar, next_maskChar, ih closed]

/-- A mask is as long as its text. On a text that closes its quotations it shows a character that is
neither a quote nor an underscore exactly where `split` cuts at it, and masking once more changes
nothing. -/
theorem mask_shows_cuts (t : Text) :
    (mask t).length = t.length ∧
    (after none t = none →
      (∀ c, isQuote c = false → c ≠ '_' →
        ∀ place, (mask t)[place]? = some c ↔ place ∈ cuts (split [c] t)) ∧
      mask (mask t) = mask t) := by
  refine ⟨length_maskFrom none t, fun closed => ⟨?_, maskFrom_maskFrom closed⟩⟩
  intro c plain other place
  exact (getElem?_maskFrom plain other closed).trans (mem_cuts_splitFrom plain).symm

def nestedQuotes : Text := "a = \"x,'y\", b = ',\",'".toList

theorem nestedQuotes_masked_as_cut :
    after none nestedQuotes = none ∧ isQuote ',' = false ∧ ',' ≠ '_' ∧
      (∀ place, (mask nestedQuotes)[place]? = some ',' ↔ place ∈ cuts (split [','] nestedQuotes)) ∧
      cuts (split [','] nestedQuotes) = [10] ∧
      mask (mask nestedQuotes) = mask nestedQuotes := by
  have closed : after none nestedQuotes = none := by decide
  obtain ⟨-, agree⟩ := mask_shows_cuts nestedQuotes
  obtain ⟨marks, again⟩ := agree closed
  exact ⟨closed, rfl, by decide, marks ',' rfl (by decide), by decide, again⟩

end SJava.Quotation
