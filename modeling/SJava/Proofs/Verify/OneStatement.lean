import SJava.Proofs.Verify.Acceptance
import SJava.Proofs.Verify.Call
import SJava.Proofs.Verify.Condition

namespace SJava

namespace Clause

theorem not_mem_of_hasInnerSemicolon {t : Text} (inner : hasInnerSemicolon t = false)
    (last : t.getLast? ≠ some ';') : ';' ∉ t := by
  rcases List.eq_nil_or_concat' t with rfl | ⟨front, c, rfl⟩
  · exact List.not_mem_nil
  · have other : (c == ';') = false := by simpa using last
    have whole : (front ++ [c]).reverse.dropWhile (· == ';') = (front ++ [c]).reverse := by
      rw [List.reverse_concat, List.dropWhile_cons, other, if_neg Bool.false_ne_true]
    rw [hasInnerSemicolon, whole] at inner
    intro member
    have found := List.contains_iff_mem.2 (List.mem_reverse.2 member)
    rw [inner] at found
    cases found

theorem semicolon_of_layout {t : Text} (layout : checkLayout t = .ok ()) :
    ∃ front, ';' ∉ front ∧ (Quotation.mask t = front ∨ Quotation.mask t = front ++ [';']) := by
  obtain ⟨two, inner, -⟩ := checkLayout_ok.1 layout
  generalize Quotation.mask t = code at two inner
  by_cases last : code.getLast? = some ';'
  · obtain ⟨front, rfl⟩ := List.getLast?_eq_some_iff.1 last
    rw [hasInnerSemicolon_concat] at inner
    refine ⟨front, not_mem_of_hasInnerSemicolon inner ?_, .inr rfl⟩
    intro again
    obtain ⟨start, rfl⟩ := List.getLast?_eq_some_iff.1 again
    have kept : Text.isBlank ';' = false := by decide
    rw [endsInTwoSemicolons, Text.trimEnd_concat kept, List.dropLast_concat, Text.trimEnd_concat kept]
      at two
    simp [Text.endsIn] at two
  · exact ⟨code, not_mem_of_hasInnerSemicolon inner last, .inl rfl⟩

theorem getLast?_mask_of_isTerminated {t : Text} (ends : isTerminated t = true) :
    (Quotation.mask t).getLast? = some ';' := by
  obtain ⟨front, rfl⟩ := List.getLast?_eq_some_iff.1 (beq_iff_eq.1 ends)
  rw [Quotation.mask_append (List.forall_mem_singleton.2 rfl), List.getLast?_concat]

/-! ## Headers -/

def Inert (c : Char) : Prop := c ≠ ';' ∧ c ≠ '\x7b'

theorem Inert.of_class {p : Char → Bool} {c : Char} (h : p c = true) (semicolon : p ';' = false)
    (brace : p '\x7b' = false) : Inert c := by
  constructor
  · rintro rfl
    exact absurd h (by simp [semicolon])
  · rintro rfl
    exact absurd h (by simp [brace])

theorem inert_of_isBlank {c : Char} (blank : Text.isBlank c = true) : Inert c :=
  .of_class blank (by decide) (by decide)

theorem inert_of_isValueChar {c : Char} (h : isValueChar c = true) : Inert c :=
  .of_class h (by decide) (by decide)

/-- The line ends in its only opening brace, but for a line feed, and has no semicolon. -/
def OpensBlock (t : Text) : Prop :=
  ∃ front ending, t = front ++ '\x7b' :: ending ∧ Text.atLineEnd ending = true ∧
    ∀ c ∈ front, Inert c

namespace OpensBlock

variable {t : Text}

theorem not_mem_semicolon (opens : OpensBlock t) : ';' ∉ t := by
  obtain ⟨front, ending, rfl, ended, inert⟩ := opens
  rw [List.mem_append, List.mem_cons, not_or, not_or]
  refine ⟨fun member => (inert _ member).1 rfl, by decide, ?_⟩
  rcases Text.atLineEnd_iff.1 ended with rfl | rfl <;> decide

theorem brace_of_oneLine (opens : OpensBlock t) (oneLine : '\n' ∉ t) :
    t.count '\x7b' = 1 ∧ t.getLast? = some '\x7b' := by
  obtain ⟨front, ending, rfl, ended, inert⟩ := opens
  rcases Text.atLineEnd_iff.1 ended with rfl | rfl
  · have absent : front.count '\x7b' = 0 :=
      List.count_eq_zero.2 fun member => (inert _ member).2 rfl
    rw [List.count_append, absent, List.getLast?_concat]
    exact ⟨rfl, rfl⟩
  · exact absurd (by simp) oneLine

end OpensBlock

theorem opensBlock_of_ofHeader {t : Text} {s : Signature} (h : Signature.ofHeader t = .ok s) :
    OpensBlock t := by
  obtain ⟨front, rfl, chars⟩ := Signature.inHeader_of_ofHeader h
  exact ⟨front, [], rfl, rfl, fun c member => (chars c member).plain.2⟩

end Clause

namespace Condition

theorem Series.inert {Operand : Text → Prop} {t : Text}
    (atoms : ∀ x, Operand x → Clause.Atom x) (series : Series Operand t) :
    ∀ c ∈ t, Clause.Inert c := by
  have surrounded {lead operand trail : Text} (before : ∀ c ∈ lead, Text.isBlank c = true)
      (valid : Operand operand) (behind : ∀ c ∈ trail, Text.isBlank c = true) :
      ∀ c ∈ lead ++ operand ++ trail, Clause.Inert c := by
    rw [List.forall_mem_append, List.forall_mem_append]
    exact ⟨⟨fun c member => Clause.inert_of_isBlank (before c member),
      fun c member => Clause.inert_of_isValueChar ((atoms _ valid).chars c member)⟩,
      fun c member => Clause.inert_of_isBlank (behind c member)⟩
  induction series with
  | one before valid behind => exact surrounded before valid behind
  | @more _ _ _ _ c before valid behind joint _ ih =>
      have mark : Clause.Inert c := by
        rcases joint_cases joint with rfl | rfl <;> exact ⟨by decide, by decide⟩
      rw [List.forall_mem_append, List.forall_mem_cons, List.forall_mem_cons]
      exact ⟨surrounded before valid behind, mark, mark, ih⟩

theorem opensBlock_of_check {stack : Stack} {t : Text} {block : Clause.Block}
    (h : check stack t = .ok block) : Clause.OpensBlock t := by
  obtain ⟨inner, shape, series⟩ := check_ok.1 h
  obtain ⟨-, ending, ended, gap, tail, rfl, before, behind⟩ := Clause.condition?_eq_some.1 shape
  refine ⟨block.word.toList ++ (gap ++ '(' :: (inner ++ ')' :: tail)), ending, by simp, ended, ?_⟩
  have word : Clause.Atom block.word.toList :=
    Clause.atom_of_isWord (by cases block <;> decide)
  simp only [List.forall_mem_append, List.forall_mem_cons]
  exact ⟨fun c member => Clause.inert_of_isValueChar (word.chars c member),
    fun c member => Clause.inert_of_isBlank (before c member), ⟨by decide, by decide⟩,
    series.inert fun _ operand => operand.atom, ⟨by decide, by decide⟩,
    fun c member => Clause.inert_of_isBlank (behind c member)⟩

end Condition

/-! ## Accepted lines -/

namespace State.Advances

variable {table : MethodTable} {s t : State} {l : Line}

theorem isTerminated (layout : Clause.checkLayout l.text = .ok ()) (step : Advances table s l t)
    (statement : Kind.ofText l.text ∈ [.declaration, .assignment, .call, .returning]) :
    Clause.isTerminated l.text = true := by
  cases step with
  | declaration _ bound =>
      rw [Binding.success?_declare] at bound
      exact (Option.ite_none_right_eq_some.1 bound).1
  | assignment _ bound =>
      rw [Binding.success?_assign] at bound
      exact (Option.ite_none_right_eq_some.1 bound).1
  | call _ checked =>
      obtain ⟨call, given, shape, terminated, -⟩ := Call.check_ok.1 checked
      exact (Clause.terminated_iff_isTerminated layout shape).1 terminated
  | returning _ returns => exact Clause.isTerminated_of_isReturn layout returns
  | openMethod kind | openBlock kind | closeBlock kind | closeMethod kind =>
      rw [kind] at statement
      exact absurd statement (by decide)

theorem opensBlock (step : Advances table s l t)
    (header : Kind.ofText l.text ∈ [.methodHeader, .conditionHeader]) :
    Clause.OpensBlock l.text := by
  cases step with
  | openMethod _ entered =>
      obtain ⟨signature, read, -⟩ := enter_iff.1 entered
      exact Clause.opensBlock_of_ofHeader read
  | openBlock _ checked => exact Condition.opensBlock_of_check checked
  | declaration kind | assignment kind | call kind | returning kind | closeBlock kind
  | closeMethod kind =>
      rw [kind] at header
      exact absurd header (by decide)

end State.Advances

theorem Run.advances_of_accepted {listing : Listing}
    (accepted : (Run.ofListing listing).accepted = true) {l : Line} (member : l ∈ listing.lines) :
    ∃ table before after, Clause.checkLayout l.text = .ok () ∧
      State.Advances table before l after := by
  rw [Run.ofListing, Run.accepted_iff] at accepted
  obtain ⟨-, final, run, -⟩ := accepted
  obtain ⟨before, after, taken⟩ :=
    State.exists_next?_of_run? run l (listing.perm_ascending.mem_iff.2 member)
  exact ⟨_, before, after, State.next?_eq_some.1 taken⟩

/-- Each line of an accepted program has at most one semicolon outside quotations, at its end. A
statement ends in it. Headers and closing braces have no semicolon at all, in quotations or out of them,
and a header without line feeds ends in its only opening brace. -/
theorem one_statement_per_line {listing : Listing}
    (accepted : (Run.ofListing listing).accepted = true) {l : Line} (member : l ∈ listing.lines) :
    (Quotation.mask l.text).count ';' ≤ 1 ∧
    (';' ∈ Quotation.mask l.text → (Quotation.mask l.text).getLast? = some ';') ∧
    (Kind.ofText l.text ∈ [.declaration, .assignment, .call, .returning] →
      l.text.getLast? = some ';' ∧ (Quotation.mask l.text).getLast? = some ';') ∧
    (Kind.ofText l.text ∈ [.methodHeader, .conditionHeader, .blockClose] → ';' ∉ l.text) ∧
    (Kind.ofText l.text ∈ [.methodHeader, .conditionHeader] → '\n' ∉ l.text →
      l.text.count '\x7b' = 1 ∧ l.text.getLast? = some '\x7b') := by
  obtain ⟨table, before, after, layout, step⟩ := Run.advances_of_accepted accepted member
  obtain ⟨front, absent, code⟩ := Clause.semicolon_of_layout layout
  have none : front.count ';' = 0 := List.count_eq_zero.2 absent
  refine ⟨?_, ?_, ?_, ?_, ?_⟩
  · rcases code with same | same
    · rw [same, none]
      exact Nat.zero_le 1
    · rw [same, List.count_append, none]
      exact Nat.le_refl 1
  · intro semicolon
    rcases code with same | same
    · rw [same] at semicolon
      exact absurd semicolon absent
    · rw [same, List.getLast?_concat]
  · intro statement
    have ends := step.isTerminated layout statement
    exact ⟨beq_iff_eq.1 ends, Clause.getLast?_mask_of_isTerminated ends⟩
  · intro kind
    by_cases close : Kind.ofText l.text = .blockClose
    · have brace : l.text = ['\x7d'] := beq_iff_eq.1 (Kind.fits_of_ofText close (by decide))
      rw [brace]
      decide
    · apply (step.opensBlock _).not_mem_semicolon
      simpa [close] using kind
  · intro header oneLine
    exact (step.opensBlock header).brace_of_oneLine oneLine

namespace OneStatement

def program : Listing where
  lines := [⟨1, "String mark = \"a;b\x7b\";".toList⟩, ⟨2, "void count(int n) \x7b".toList⟩,
    ⟨3, "while (n) \x7b".toList⟩, ⟨4, "count(n);".toList⟩, ⟨5, "\x7d".toList⟩,
    ⟨6, "return ;".toList⟩, ⟨7, "\x7d".toList⟩]
  distinct := by decide

def quoting : Line := ⟨1, "String mark = \"a;b\x7b\";".toList⟩

def loop : Line := ⟨3, "while (n) \x7b".toList⟩

theorem quoting_and_loop_hold_one_statement :
    (Run.ofListing program).accepted = true ∧ quoting ∈ program.lines ∧ loop ∈ program.lines ∧
      quoting.text.count ';' = 2 ∧ (Quotation.mask quoting.text).count ';' ≤ 1 ∧
      (Quotation.mask quoting.text).getLast? = some ';' ∧
      ';' ∉ loop.text ∧ loop.text.count '\x7b' = 1 ∧ loop.text.getLast? = some '\x7b' := by
  have accepted : (Run.ofListing program).accepted = true := by decide
  have first : quoting ∈ program.lines := by decide
  have third : loop ∈ program.lines := by decide
  obtain ⟨few, -, statement, -⟩ := one_statement_per_line accepted first
  obtain ⟨-, -, -, bare, brace⟩ := one_statement_per_line accepted third
  exact ⟨accepted, first, third, by decide, few, (statement (by decide)).2, bare (by decide),
    brace (by decide) (by decide)⟩

end OneStatement

end SJava
