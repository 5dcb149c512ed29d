import SJava.Proofs.Clause.Entry
import SJava.Proofs.Verify.Call

namespace SJava

namespace Writing

open Clause (Tame Entry)

/-! ## Gaps and series -/

structure Gap where
  text : Text
  blank : ∀ c ∈ text, c = ' ' ∨ c = '\t'

namespace Gap

theorem isPlainBlank (g : Gap) : ∀ c ∈ g.text, Text.isPlainBlank c = true := by
  intro c member
  rcases g.blank c member with rfl | rfl <;> decide

theorem isBlank (g : Gap) : ∀ c ∈ g.text, Text.isBlank c = true :=
  fun c member => Text.isBlank_of_isPlainBlank (g.isPlainBlank c member)

theorem tame (g : Gap) : Tame g.text := by
  apply Clause.tame_of_calm
  rw [List.all_eq_true]
  intro c member
  rcases g.blank c member with rfl | rfl <;> decide

theorem absent (g : Gap) {c : Char} (other : c ≠ ' ' ∧ c ≠ '\t') : c ∉ g.text := by
  intro member
  rcases g.blank c member with same | same
  · exact other.1 same
  · exact other.2 same

end Gap

/-- Items with commas between them, and the gaps around each comma. -/
structure Series (α : Type) where
  first : α
  rest : List (Gap × Gap × α)

namespace Series

variable {α : Type} {write : α → Text}

def items (s : Series α) : List α := s.first :: s.rest.map fun (_, _, a) => a

def tail (write : α → Text) : List (Gap × Gap × α) → Text
  | [] => []
  | (before, behind, a) :: rest => before.text ++ ',' :: (behind.text ++ (write a ++ tail write rest))

def text (write : α → Text) (s : Series α) : Text := write s.first ++ tail write s.rest

theorem tame_comma : Tame [','] := Clause.tame_of_calm (by decide)

theorem tame_tail (entry : ∀ a, Entry (write a)) (rest : List (Gap × Gap × α)) :
    Tame (tail write rest) := by
  induction rest with
  | nil => exact Clause.tame_of_calm rfl
  | cons item rest ih =>
      obtain ⟨before, behind, a⟩ := item
      have later := behind.tame.append ((entry a).toTame.append ih)
      exact before.tame.append (tame_comma.append later)

theorem tame (entry : ∀ a, Entry (write a)) (s : Series α) : Tame (s.text write) :=
  (entry s.first).toTame.append (tame_tail entry s.rest)

theorem text_ends (write : α → Text) (s : Series α) :
    ∃ front, ∃ a ∈ s.items, s.text write = front ++ write a := by
  obtain ⟨first, rest⟩ := s
  induction rest generalizing first with
  | nil => exact ⟨[], first, by simp [items], by simp [text, tail]⟩
  | cons item rest ih =>
      obtain ⟨before, behind, a⟩ := item
      obtain ⟨front, last, member, same⟩ := ih a
      refine ⟨write first ++ (before.text ++ ',' :: (behind.text ++ front)), last, ?_, ?_⟩
      · exact List.mem_cons_of_mem _ member
      · show write first ++ (before.text ++ ',' :: (behind.text ++ text write ⟨a, rest⟩)) = _
        rw [same]
        simp

theorem snug (entry : ∀ a, Entry (write a)) (s : Series α) : Text.Snug (s.text write) := by
  obtain ⟨front, a, -, ends⟩ := s.text_ends write
  refine ⟨?_, ?_, ?_⟩
  · rw [ends]
    simp [(entry a).filled]
  · rw [text, List.head?_append_of_ne_nil _ (entry s.first).filled]
    exact (entry s.first).start
  · rw [ends, List.getLast?_append_of_ne_nil _ (entry a).filled]
    exact (entry a).stop

theorem whole_surrounded {t : Text} (entry : Entry t) (before behind : Gap) :
    Quotation.Whole [','] none (before.text ++ t ++ behind.text) := by
  rw [Quotation.whole_append, Quotation.whole_append, before.tame.closed]
  exact ⟨⟨Quotation.whole_of_absent (before.absent (by decide)) none, entry.whole⟩,
    Quotation.whole_of_absent (behind.absent (by decide)) _⟩

theorem split_tail (entry : ∀ a, Entry (write a)) (lead : Gap) (first : α)
    (rest : List (Gap × Gap × α)) :
    (Quotation.split [','] (lead.text ++ write first ++ tail write rest)).map Text.trim =
      write first :: rest.map fun (_, _, a) => write a := by
  induction rest generalizing lead first with
  | nil =>
      have alone : Quotation.split [','] (lead.text ++ write first ++ []) = _ :=
        whole_surrounded (entry first) lead ⟨[], by simp⟩
      rw [tail, alone, List.map_singleton, Text.trim_snug (entry first).toSnug lead.isBlank (by simp)]
      rfl
  | cons item rest ih =>
      obtain ⟨before, behind, a⟩ := item
      have closed : Tame (lead.text ++ write first ++ before.text) :=
        (lead.tame.append (entry first).toTame).append before.tame
      have parts : lead.text ++ write first ++ tail write ((before, behind, a) :: rest) =
          lead.text ++ write first ++ before.text ++
            ',' :: (behind.text ++ write a ++ tail write rest) := by
        simp [tail]
      rw [parts, Quotation.split_append rfl (whole_surrounded (entry first) lead before) closed.closed,
        List.map_cons, ih, Text.trim_snug (entry first).toSnug lead.isBlank before.isBlank]
      rfl

theorem split_text (entry : ∀ a, Entry (write a)) (s : Series α) :
    (Quotation.split [','] (s.text write)).map Text.trim = s.items.map write := by
  have parts := split_tail entry ⟨[], by simp⟩ s.first s.rest
  rw [List.nil_append] at parts
  rw [text, parts, items, List.map_cons, List.map_map]
  rfl

theorem noComma (entry : ∀ a, Entry (write a)) (s : Series α) :
    Text.endsIn ',' (s.text write) = false := by
  obtain ⟨front, a, -, ends⟩ := s.text_ends write
  rw [ends, Text.endsIn, List.getLast?_append_of_ne_nil _ (entry a).filled]
  exact (entry a).noComma

theorem items_text (entry : ∀ a, Entry (write a)) (s : Series α) :
    Clause.items (s.text write) = .ok (s.items.map write) := by
  rw [Clause.items_ok, Text.trimEnd_of_stop (s.snug entry).stop, s.split_text entry]
  refine ⟨s.noComma entry, rfl, ?_⟩
  intro p member
  obtain ⟨a, -, rfl⟩ := List.mem_map.1 member
  exact (entry a).filled

end Series

/-! ## Values and binders -/

inductive Token where
  | name (t : Text) (legal : Name.isVariable t = true)
  | int (t : Text) (form : Literal.isInt t = true)
  | double (t : Text) (form : Literal.isDouble t = true)
  | boolean (t : Text) (form : Literal.isBoolean t = true)
  | string (s : Text) (closed : '"' ∉ s) (oneLine : '\n' ∉ s)
  | char (c : Char) (closed : c ≠ '\'') (oneLine : c ≠ '\n')

namespace Token

def text : Token → Text
  | name t _ | int t _ | double t _ | boolean t _ => t
  | string s .. => '"' :: (s ++ ['"'])
  | char c .. => '\'' :: ([c] ++ ['\''])

theorem entry : (v : Token) → Entry v.text
  | name _ legal => Clause.entry_of_isWord (Name.isWord_of_isVariable legal)
  | int _ form => (Literal.atom_of_isInt form).entry
  | double _ form => (Literal.atom_of_isDouble form).entry
  | boolean _ form => (Literal.atom_of_isBoolean form).entry
  | string _ closed oneLine => Clause.entry_quoted rfl closed oneLine
  | char _ closed oneLine =>
      Clause.entry_quoted rfl (by simpa using Ne.symm closed) (by simpa using Ne.symm oneLine)

end Token

structure Binder where
  name : Text
  legal : Name.isVariable name = true
  value : Option (Gap × Gap × Token)

namespace Binder

def text (b : Binder) : Text :=
  match b.value with
  | none => b.name
  | some (before, behind, v) => b.name ++ (before.text ++ '=' :: behind.text ++ v.text)

def content (b : Binder) : Text × Option Text := (b.name, b.value.map fun (_, _, v) => v.text)

theorem entry_name (b : Binder) : Entry b.name :=
  Clause.entry_of_isWord (Name.isWord_of_isVariable b.legal)

theorem entry (b : Binder) : Entry b.text := by
  unfold text
  split
  · exact b.entry_name
  · rename_i before behind v _
    apply b.entry_name.join v.entry
    · have equals : Tame ['='] := Clause.tame_of_calm (by decide)
      exact before.tame.append (equals.append behind.tame)
    · rw [List.mem_append, List.mem_cons, not_or, not_or]
      exact ⟨before.absent (by decide), by decide, behind.absent (by decide)⟩

theorem absent_name (b : Binder) : '=' ∉ b.name := by
  intro member
  have named := Name.isNameChar_of_isWord (Name.isWord_of_isVariable b.legal) _ member
  exact absurd named (by decide)

theorem parts_text (b : Binder) : Binding.parts b.text = b.content := by
  unfold text content
  cases b.value with
  | none =>
      simp only [Binding.parts, Text.cutAtFirst_eq_none b.absent_name,
        Text.trim_of_snug b.entry_name.toSnug]
      rfl
  | some item =>
      obtain ⟨before, behind, v⟩ := item
      have sides : b.name ++ (before.text ++ '=' :: behind.text ++ v.text) =
          (b.name ++ before.text) ++ '=' :: (behind.text ++ v.text) := by simp
      have absent : '=' ∉ b.name ++ before.text := by
        rw [List.mem_append, not_or]
        exact ⟨b.absent_name, before.absent (by decide)⟩
      have name : Text.trim (b.name ++ before.text) = b.name :=
        @Text.trim_snug _ [] _ b.entry_name.toSnug (by simp) before.isBlank
      have value : Text.trim (behind.text ++ v.text) = v.text := by
        rw [← List.append_nil (behind.text ++ v.text)]
        exact Text.trim_snug v.entry.toSnug behind.isBlank (by simp)
      simp only [sides, Binding.parts, Text.cutAtFirst_append absent, name, value]
      rfl

end Binder

/-! ## Sentences -/

structure WideGap extends Gap where
  filled : text ≠ []

/-- A clause as it is written, each token with the gap after it. -/
inductive Sentence where
  | declaration (modifier : Option WideGap) (type : ValueType) (gap : WideGap)
      (binders : Series Binder) (last : Gap)
  | assignment (binders : Series Binder) (valued : ∀ b ∈ binders.items, b.value.isSome = true)
      (last : Gap)
  | call (method : Text) (legal : Name.isMethod method = true) (before opened : Gap)
      (arguments : Option (Series Token)) (closed last : Gap)

namespace Sentence

def argumentList (opened : Gap) (arguments : Option (Series Token)) (closed : Gap) : Text :=
  opened.text ++ (arguments.map (Series.text Token.text)).getD [] ++ closed.text

def front : Sentence → Text
  | declaration modifier type gap binders last =>
      Clause.opening (modifier.map fun g => g.text) type gap.text ++
        (binders.text Binder.text ++ last.text)
  | assignment binders _ last => binders.text Binder.text ++ last.text
  | call method _ before opened arguments closed last =>
      method ++ (before.text ++ '(' :: (argumentList opened arguments closed ++ ')' :: last.text))

def text (s : Sentence) : Text := s.front ++ [';']

def kind : Sentence → Kind
  | declaration .. => .declaration
  | assignment .. => .assignment
  | call .. => .call

/-- What is read from a text is what the sentence says. -/
def ReadFrom (t : Text) : Sentence → Prop
  | declaration modifier type _ binders _ =>
      ∃ list parts, Clause.declaration? (Clause.body t) = some ⟨modifier.isSome, type, list⟩ ∧
        Clause.items list = .ok parts ∧
        parts.map Binding.parts = binders.items.map Binder.content
  | assignment binders _ _ =>
      ∃ parts, Clause.items (Clause.body t) = .ok parts ∧
        parts.map Binding.parts = binders.items.map Binder.content
  | call method _ _ _ arguments _ _ =>
      ∃ list, Clause.call? t = some ⟨method, list, true⟩ ∧
        Call.Lists list ((arguments.map fun s => s.items.map Token.text).getD [])

theorem parts_items (binders : Series Binder) :
    (binders.items.map Binder.text).map Binding.parts = binders.items.map Binder.content := by
  rw [List.map_map]
  exact List.map_congr_left fun b _ => b.parts_text

theorem leading_word {word : Text} (form : Name.isWord word = true) (gap : Gap) {c : Char}
    (stop : Name.isNameChar c = false) (rest : Text) :
    Name.leading (word ++ (gap.text ++ c :: rest)) = (word, gap.text ++ c :: rest) := by
  apply Name.leading_append (Name.isNameChar_of_isWord form)
  intro d head
  rw [List.head?_append] at head
  cases start : gap.text.head? with
  | none =>
      rw [start] at head
      cases head
      exact stop
  | some e =>
      rw [start] at head
      obtain rfl : e = d := Option.some.inj head
      exact Name.not_isNameChar_of_isBlank (gap.isBlank e (List.mem_of_head? start))

theorem trimPlain_gap (gap : Gap) {c : Char} (stop : Text.isPlainBlank c = false) (rest : Text) :
    Text.trimPlain (gap.text ++ c :: rest) = c :: rest := by
  rw [Text.trimPlain, List.dropWhile_append_of_pos gap.isPlainBlank,
    List.dropWhile_cons_of_neg (by simp [stop])]

theorem tame_opening (modifier : Option WideGap) (type : ValueType) (gap : WideGap) :
    Tame (Clause.opening (modifier.map fun g => g.text) type gap.text) := by
  have typed : Tame (type.word.toList ++ gap.text) := by
    refine Tame.append ?_ gap.tame
    apply Clause.tame_of_calm
    cases type <;> decide
  cases modifier with
  | none => exact typed
  | some g =>
      have final : Tame "final".toList := Clause.tame_of_calm (by decide)
      exact (final.append g.tame).append typed

theorem read_declaration (modifier : Option WideGap) (type : ValueType) (gap : WideGap)
    (binders : Series Binder) (last : Gap) :
    let s := declaration modifier type gap binders last
    Tame s.front ∧ Kind.ofText s.text = s.kind ∧ s.ReadFrom s.text := by
  have list := binders.snug Binder.entry
  have tame := (binders.tame Binder.entry).append last.tame
  have opened {rest : Text} (start : ∀ c ∈ rest.head?, Text.isBlank c = false) (oneLine : '\n' ∉ rest) :
      Clause.declaration? (Clause.opening (modifier.map fun g => g.text) type gap.text ++ rest) =
        some ⟨modifier.isSome, type, rest⟩ := by
    rw [Clause.declaration?_opening _ gap.filled gap.isBlank start oneLine, Option.isSome_map]
    cases modifier with
    | none => simp
    | some g => simpa using ⟨g.filled, g.isBlank⟩
  refine ⟨(tame_opening modifier type gap).append tame, ?_, ?_⟩
  · have start : ∀ c ∈ (binders.text Binder.text ++ last.text ++ [';']).head?,
        Text.isBlank c = false := by
      rw [List.append_assoc, List.head?_append_of_ne_nil _ list.filled]
      exact list.start
    have oneLine : '\n' ∉ binders.text Binder.text ++ last.text ++ [';'] := by
      rw [List.mem_append, not_or]
      exact ⟨tame.oneLine, by decide⟩
    apply Kind.ofText_of_declaration?
    rw [text, front, List.append_assoc]
    exact opened start oneLine
  · refine ⟨_, binders.items.map Binder.text, ?_, binders.items_text Binder.entry, parts_items binders⟩
    rw [text, front, Clause.body_of_snug list last.isBlank]
    exact opened list.start (binders.tame Binder.entry).oneLine

theorem read_assignment (binders : Series Binder)
    (valued : ∀ b ∈ binders.items, b.value.isSome = true) (last : Gap) :
    let s := assignment binders valued last
    Tame s.front ∧ Kind.ofText s.text = s.kind ∧ s.ReadFrom s.text := by
  have list := binders.snug Binder.entry
  refine ⟨(binders.tame Binder.entry).append last.tame, ?_, ?_⟩
  · -- The first binder has a value, so an equals sign follows its name.
    obtain ⟨⟨before, behind, v⟩, value⟩ :=
      Option.isSome_iff_exists.1 (valued binders.first (by simp [Series.items]))
    have legal := binders.first.legal
    have word := Name.isWord_of_isVariable legal
    obtain ⟨rest, same⟩ : ∃ rest, text (assignment binders valued last) =
        binders.first.name ++ (before.text ++ '=' :: rest) := by
      refine ⟨behind.text ++ v.text ++ Series.tail Binder.text binders.rest ++ last.text ++ [';'], ?_⟩
      simp [text, front, Series.text, Binder.text, value]
    have lead := leading_word word before (by decide : Name.isNameChar '=' = false) rest
    have opens : Clause.opensAssignment (text (assignment binders valued last)) = true := by
      rw [same, Clause.opensAssignment, lead]
      simp [legal, trimPlain_gap before (by decide : Text.isPlainBlank '=' = false)]
    exact Kind.ofText_of_fits .assignment opens
  · refine ⟨binders.items.map Binder.text, ?_, parts_items binders⟩
    have body := Clause.body_of_snug list last.isBlank []
    rw [List.nil_append, List.nil_append] at body
    rw [text, front, body]
    exact binders.items_text Binder.entry

theorem lists_argumentList (opened : Gap) (arguments : Option (Series Token)) (closed : Gap) :
    Call.Lists (argumentList opened arguments closed)
      ((arguments.map fun s => s.items.map Token.text).getD []) := by
  cases arguments with
  | none =>
      left
      refine ⟨?_, rfl⟩
      have blank := Source.trim_surrounded opened.isBlank closed.isBlank []
      exact blank
  | some s =>
      right
      have list := s.snug Token.entry
      have trimmed : Text.trim (argumentList opened (some s) closed) = s.text Token.text :=
        Text.trim_snug list opened.isBlank closed.isBlank
      rw [trimmed]
      refine ⟨list.filled, s.noComma Token.entry, (s.split_text Token.entry).symm, ?_⟩
      intro a member
      obtain ⟨v, -, rfl⟩ := List.mem_map.1 member
      exact v.entry.filled

theorem tame_argumentList (opened : Gap) (arguments : Option (Series Token)) (closed : Gap) :
    Tame (argumentList opened arguments closed) := by
  refine Tame.append (opened.tame.append ?_) closed.tame
  cases arguments with
  | none => exact Clause.tame_of_calm rfl
  | some s => exact s.tame Token.entry

section Call

variable {method : Text} (legal : Name.isMethod method = true) (before opened : Gap)
  (arguments : Option (Series Token)) (closed last : Gap)

theorem text_call :
    text (call method legal before opened arguments closed last) =
      method ++ (before.text ++
        '(' :: (argumentList opened arguments closed ++ ')' :: (last.text ++ [';']))) := by
  simp [text, front]

theorem leading_call :
    Name.leading (text (call method legal before opened arguments closed last)) =
      (method, before.text ++
        '(' :: (argumentList opened arguments closed ++ ')' :: (last.text ++ [';']))) := by
  rw [text_call]
  exact leading_word (Name.isWord_of_isMethod legal) before (by decide) _

theorem call?_text :
    Clause.call? (text (call method legal before opened arguments closed last)) =
      some ⟨method, argumentList opened arguments closed, true⟩ := by
  have absent : ')' ∉ last.text ++ [';'] := by
    rw [List.mem_append, not_or]
    exact ⟨last.absent (by decide), by decide⟩
  have inside : Clause.parenthesized?
      ('(' :: (argumentList opened arguments closed ++ ')' :: (last.text ++ [';']))) =
        some (argumentList opened arguments closed, last.text ++ [';']) := by
    apply Clause.parenthesized?_append _ absent
    exact (tame_argumentList opened arguments closed).oneLine
  simp only [Clause.call?, leading_call, legal, guard, ↓reduceIte, pure, bind, Option.bind_some,
    trimPlain_gap before (by decide : Text.isPlainBlank '(' = false), inside,
    trimPlain_gap last (by decide : Text.isPlainBlank ';' = false)]
  rfl

theorem tame_call : Tame (front (call method legal before opened arguments closed last)) := by
  have paren (c : Char) (calm : Clause.isCalm c = true) : Tame [c] :=
    Clause.tame_of_calm (by simpa using calm)
  have opening : Tame (before.text ++ ['(']) := before.tame.append (paren '(' (by decide))
  have closing : Tame (')' :: last.text) := (paren ')' (by decide)).append last.tame
  have list := (opening.append (tame_argumentList opened arguments closed)).append closing
  rw [List.append_assoc, List.append_assoc] at list
  exact (Clause.entry_of_isWord (Name.isWord_of_isMethod legal)).toTame.append list

theorem read_call :
    let s := call method legal before opened arguments closed last
    Tame s.front ∧ Kind.ofText s.text = s.kind ∧ s.ReadFrom s.text := by
  have shape := call?_text legal before opened arguments closed last
  refine ⟨tame_call legal before opened arguments closed last, ?_,
    argumentList opened arguments closed, shape, lists_argumentList opened arguments closed⟩
  exact Kind.ofText_of_fits .call (Option.isSome_iff_exists.2 ⟨_, shape⟩)

end Call

end Sentence

end Writing

open Writing in
/-- What is written is read back: the layout is good, the kind is right, the clause is terminated, and
the names and values are those of the sentence. -/
theorem sentence_read_back (s : Sentence) :
    Clause.checkLayout s.text = .ok () ∧ Kind.ofText s.text = s.kind ∧
      Clause.isTerminated s.text = true ∧ s.ReadFrom s.text := by
  have read : Clause.Tame s.front ∧ Kind.ofText s.text = s.kind ∧ s.ReadFrom s.text := by
    cases s with
    | declaration => exact Sentence.read_declaration ..
    | assignment => exact Sentence.read_assignment ..
    | call => exact Sentence.read_call ..
  obtain ⟨tame, kind, content⟩ := read
  exact ⟨Clause.checkLayout_of_tame tame, kind, Clause.isTerminated_concat _, content⟩

end SJava
