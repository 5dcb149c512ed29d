import SJava.Proofs.Clause.Entry

namespace SJava

namespace Text

theorem partsAt_of_absent {c : Char} {t : Text} (absent : c ∉ t) : partsAt c t = [t] := by
  induction t with
  | nil => rfl
  | cons d t ih =>
      rw [List.mem_cons, not_or] at absent
      rw [partsAt, if_neg (Ne.symm absent.1), ih absent.2]
      rfl

theorem partsAt_append {c : Char} {a : Text} (absent : c ∉ a) (b : Text) :
    partsAt c (a ++ c :: b) = a :: partsAt c b := by
  induction a with
  | nil => rw [List.nil_append, partsAt, if_pos rfl]
  | cons d a ih =>
      rw [List.mem_cons, not_or] at absent
      rw [List.cons_append, partsAt, if_neg (Ne.symm absent.1), ih absent.2]
      rfl

def listed (texts : List Text) : Text := [',', ' '].intercalate texts

theorem listed_cons_cons (first second : Text) (rest : List Text) :
    listed (first :: second :: rest) = first ++ ',' :: ' ' :: listed (second :: rest) := by
  simp [listed, List.intercalate_cons_cons]

theorem listed_ends (first : Text) (rest : List Text) :
    (∃ behind, listed (first :: rest) = first ++ behind) ∧
      ∃ front, ∃ last ∈ first :: rest, listed (first :: rest) = front ++ last := by
  induction rest generalizing first with
  | nil => exact ⟨⟨[], by simp [listed]⟩, [], first, by simp, by simp [listed]⟩
  | cons second rest ih =>
      obtain ⟨-, front, last, member, same⟩ := ih second
      rw [listed_cons_cons]
      refine ⟨⟨_, rfl⟩, first ++ ',' :: ' ' :: front, last, List.mem_cons_of_mem _ member, ?_⟩
      rw [same, List.append_assoc, List.cons_append, List.cons_append]

theorem snug_listed {texts : List Text} (some : texts ≠ []) (snug : ∀ t ∈ texts, Snug t) :
    Snug (listed texts) := by
  cases texts with
  | nil => exact absurd rfl some
  | cons first rest =>
      obtain ⟨⟨behind, starts⟩, front, last, member, stops⟩ := listed_ends first rest
      have head := snug first (by simp)
      have tail := snug last member
      refine ⟨?_, ?_, ?_⟩
      · simp [starts, head.filled]
      · rw [starts, List.head?_append_of_ne_nil _ head.filled]
        exact head.start
      · rw [stops, List.getLast?_append_of_ne_nil _ tail.filled]
        exact tail.stop

theorem endsIn_listed {c : Char} {texts : List Text} (some : texts ≠ [])
    (filled : ∀ t ∈ texts, t ≠ []) (absent : ∀ t ∈ texts, c ∉ t) :
    endsIn c (listed texts) = false := by
  cases texts with
  | nil => exact absurd rfl some
  | cons first rest =>
      obtain ⟨-, front, last, member, stops⟩ := listed_ends first rest
      rw [endsIn, stops, List.getLast?_append_of_ne_nil _ (filled last member), beq_eq_false_iff_ne]
      intro stop
      exact absent last member (List.mem_of_getLast? stop)

theorem absent_listed {c : Char} {texts : List Text} (other : c ≠ ',' ∧ c ≠ ' ')
    (absent : ∀ t ∈ texts, c ∉ t) : c ∉ listed texts := by
  induction texts with
  | nil => simp [listed]
  | cons first rest ih =>
      rw [List.forall_mem_cons] at absent
      cases rest with
      | nil => simpa [listed] using absent.1
      | cons second rest =>
          rw [listed_cons_cons]
          simp only [List.mem_append, List.mem_cons, not_or]
          exact ⟨absent.1, other.1, other.2, ih absent.2⟩

theorem partsAt_listed {texts : List Text} (some : texts ≠ []) (snug : ∀ t ∈ texts, Snug t)
    (absent : ∀ t ∈ texts, ',' ∉ t) : (partsAt ',' (listed texts)).map trim = texts := by
  suffices surrounded : ∀ lead : Text, (∀ c ∈ lead, isBlank c = true) →
      (partsAt ',' (lead ++ listed texts)).map trim = texts from surrounded [] (by simp)
  induction texts with
  | nil => exact absurd rfl some
  | cons first rest ih =>
      intro lead before
      rw [List.forall_mem_cons] at snug absent
      have free : ',' ∉ lead ++ first := by
        rw [List.mem_append, not_or]
        exact ⟨fun member => absurd (before _ member) (by decide), absent.1⟩
      have trimmed : trim (lead ++ first) = first := by
        simpa using @trim_snug _ _ [] snug.1 before (by simp)
      cases rest with
      | nil =>
          have alone : listed [first] = first := by simp [listed]
          rw [alone, partsAt_of_absent free, List.map_singleton, trimmed]
      | cons second rest =>
          rw [listed_cons_cons, ← List.append_assoc, partsAt_append free, List.map_cons, trimmed]
          have later := ih (by simp) snug.2 absent.2 [' '] (List.forall_mem_singleton.2 rfl)
          rw [List.singleton_append] at later
          rw [later]

end Text

theorem Name.not_isBlank_of_isNameChar {c : Char} (named : Name.isNameChar c = true) :
    Text.isBlank c = false := by
  rw [Bool.eq_false_iff]
  intro blank
  rw [not_isNameChar_of_isBlank blank] at named
  cases named

namespace Param

/-! ## Parameters -/

variable {p : Param}

theorem written_eq (p : Param) :
    p.written = (if p.final then "final".toList ++ [' '] else []) ++
      (p.type.word.toList ++ ([' '] ++ p.name)) := by
  unfold written
  rw [List.append_assoc]
  cases p.final <;> rfl

theorem chars_written (legal : Name.isVariable p.name = true) :
    ∀ c ∈ p.written, Name.isNameChar c = true ∨ c = ' ' := by
  have word (w : String) (letters : w.toList.all Name.isNameChar = true) :
      ∀ c ∈ w.toList, Name.isNameChar c = true ∨ c = ' ' :=
    fun c member => .inl (List.all_eq_true.1 letters c member)
  have name : ∀ c ∈ p.name, Name.isNameChar c = true ∨ c = ' ' := fun c member =>
    .inl (Name.isNameChar_of_isWord (Name.isWord_of_isVariable legal) c member)
  have type := word p.type.word (by cases p.type <;> decide)
  rw [written_eq]
  simp only [List.forall_mem_append]
  refine ⟨?_, type, by simp, name⟩
  split
  · rw [List.forall_mem_append]
    exact ⟨word "final" (by decide), by simp⟩
  · simp

theorem absent_written (legal : Name.isVariable p.name = true) {c : Char}
    (other : Name.isNameChar c = false ∧ c ≠ ' ') : c ∉ p.written := by
  intro member
  rcases chars_written legal c member with named | space
  · simp [named] at other
  · exact other.2 space

theorem snug_written (legal : Name.isVariable p.name = true) : Text.Snug p.written := by
  have name := (Clause.atom_of_isWord (Name.isWord_of_isVariable legal)).snug
  rw [written_eq]
  refine ⟨?_, ?_, ?_⟩
  · rw [← List.append_assoc, ← List.append_assoc]
    exact List.append_ne_nil_of_right_ne_nil _ name.filled
  · intro c head
    split at head
    · cases head
      rfl
    · exact p.type.word_start _ c head
  · rw [← List.append_assoc, ← List.append_assoc, List.getLast?_append_of_ne_nil _ name.filled]
    exact name.stop

theorem ofText?_written (legal : Name.isVariable p.name = true) : ofText? p.written = some p := by
  have plain {t : Text} (start : ∀ c ∈ t.head?, Text.isBlank c = false) :
      ∀ c ∈ t.head?, Text.isPlainBlank c = false := by
    intro c head
    rw [Bool.eq_false_iff]
    intro blank
    have wide := Text.isBlank_of_isPlainBlank blank
    rw [start c head] at wide
    cases wide
  have name := (Clause.atom_of_isWord (Name.isWord_of_isVariable legal)).snug
  have words : Clause.finality Text.isPlainBlank p.written =
      (p.final, p.type.word.toList ++ ([' '] ++ p.name)) := by
    rw [written_eq]
    cases p.final with
    | false => exact Clause.finality_type _ _ _
    | true =>
        rw [if_pos rfl, List.append_assoc]
        exact Clause.finality_final (List.forall_mem_singleton.2 rfl) (by simp)
          (plain (p.type.word_start _))
  have gap : Text.afterBlanks Text.isPlainBlank ([' '] ++ p.name) = some p.name :=
    Text.afterBlanks_append (List.forall_mem_singleton.2 rfl) (by simp) (plain name.start)
  simp only [ofText?, words, ValueType.leading?_word, gap, legal, guard, bind, Option.bind_some,
    pure, ↓reduceIte]

theorem readAll_written (method : Text) {names parts : List Text} {params : List Param}
    (written : parts.map Text.trim = params.map Param.written)
    (legal : ∀ p ∈ params, Name.isVariable p.name = true)
    (distinct : (params.map Param.name).Nodup) (fresh : ∀ p ∈ params, p.name ∉ names) :
    readAll method names parts = .ok params := by
  induction params generalizing names parts with
  | nil =>
      rw [List.map_nil, List.map_eq_nil_iff] at written
      rw [written, readAll]
  | cons p params ih =>
      obtain ⟨part, rest, rfl, first, later⟩ := List.map_eq_cons_iff.1 written
      rw [List.forall_mem_cons] at legal fresh
      rw [List.map_cons, List.nodup_cons] at distinct
      have apart : ∀ q ∈ params, q.name ∉ p.name :: names := by
        intro q member
        rw [List.mem_cons, not_or]
        refine ⟨?_, fresh.2 q member⟩
        intro same
        exact distinct.1 (same ▸ List.mem_map_of_mem member)
      have new : names.contains p.name = false := by simpa using fresh.1
      simp only [readAll, first, ofText?_written legal.1, new, ih later legal.2 distinct.2 apart]
      rfl

theorem readList_written (method : Text) {params : List Param}
    (legal : ∀ p ∈ params, Name.isVariable p.name = true)
    (distinct : (params.map Param.name).Nodup) :
    readList method (Text.listed (params.map Param.written)) = .ok params := by
  by_cases empty : params = []
  · subst empty
    rfl
  · have some : params.map Param.written ≠ [] := by simpa using empty
    have snug : ∀ t ∈ params.map Param.written, Text.Snug t :=
      List.forall_mem_map.2 fun p member => snug_written (legal p member)
    have absent : ∀ t ∈ params.map Param.written, ',' ∉ t :=
      List.forall_mem_map.2 fun p member => absent_written (legal p member) (by decide)
    have list := Text.snug_listed some snug
    have kept : (Text.listed (params.map Param.written)).isEmpty = false := by
      simpa using list.filled
    have noComma := Text.endsIn_listed some (fun t member => (snug t member).filled) absent
    simp only [readList, Text.trim_of_snug list, kept, noComma, Bool.false_eq_true, ↓reduceIte]
    exact readAll_written method (Text.partsAt_listed some snug absent) legal distinct (by simp)

end Param

/-! ## Headers -/

namespace Clause

theorem parameters?_of_isNameChar {c : Char} (named : Name.isNameChar c = true) (t : Text) :
    parameters? (c :: t) = none := by
  have start : Text.trimStart (c :: t) = c :: t := by
    apply Text.trimStart_of_start
    simpa using Name.not_isBlank_of_isNameChar named
  have paren : parenthesized? (c :: t) = none := by
    unfold parenthesized?
    split
    · rename_i same
      obtain ⟨rfl, -⟩ := List.cons.inj same
      exact absurd named (by decide)
    · rfl
  rw [parameters?, start, paren]
  rfl

theorem nameAndParameters?_append {name rest inner : Text} (filled : name ≠ [])
    (letters : ∀ c ∈ name, Name.isNameChar c = true) (list : parameters? rest = some inner) :
    nameAndParameters? (name ++ rest) = some (name, inner) := by
  induction name with
  | nil => exact absurd rfl filled
  | cons c name ih =>
      rw [List.forall_mem_cons] at letters
      rw [List.cons_append, nameAndParameters?, Name.not_isBlank_of_isNameChar letters.1]
      cases name with
      | nil => simp [list]
      | cons d name =>
          have longer := ih (by simp) letters.2
          rw [List.forall_mem_cons] at letters
          rw [List.cons_append] at longer ⊢
          simp [parameters?_of_isNameChar letters.2.1, longer]

end Clause

namespace Signature

def header (s : Signature) : Text := s.written ++ [' ', '\x7b']

theorem header_eq (s : Signature) :
    s.header = "void".toList ++ ([' '] ++ (s.name ++
      '(' :: (Text.listed (s.params.map Param.written) ++ ')' :: [' ', '\x7b']))) := by
  show "void ".toList ++ s.name ++ '(' :: Text.listed (s.params.map Param.written) ++ [')'] ++
    [' ', '\x7b'] = _
  have word : "void ".toList = "void".toList ++ [' '] := rfl
  rw [word]
  generalize "void".toList = word
  simp

theorem header?_header {s : Signature} (lawful : s.Lawful) :
    Clause.header? s.header = some (s.name, Text.listed (s.params.map Param.written)) := by
  have name := Clause.atom_of_isWord (Name.isWord_of_isMethod lawful.name)
  have letters := Name.isNameChar_of_isWord (Name.isWord_of_isMethod lawful.name)
  have oneLine : '\n' ∉ Text.listed (s.params.map Param.written) := by
    apply Text.absent_listed (by decide)
    exact List.forall_mem_map.2 fun p member => Param.absent_written (lawful.legal p member) (by decide)
  rw [header_eq]
  generalize Text.listed (s.params.map Param.written) = list at oneLine
  have params : Clause.parameters? ('(' :: (list ++ ')' :: [' ', '\x7b'])) = some list := by
    have start : Text.trimStart ('(' :: (list ++ ')' :: [' ', '\x7b'])) =
        '(' :: (list ++ ')' :: [' ', '\x7b']) := rfl
    rw [Clause.parameters?, start, Clause.parenthesized?_append oneLine (by decide)]
    rfl
  have gap (rest : Text) :
      Text.afterBlanks Text.isBlank ([' '] ++ (s.name ++ rest)) = some (s.name ++ rest) := by
    apply Text.afterBlanks_append (List.forall_mem_singleton.2 rfl) (by simp)
    rw [List.head?_append_of_ne_nil _ name.filled]
    exact name.snug.start
  rw [Clause.header?, Text.afterWord_eq_some.2 rfl, Option.bind_some, gap, Option.bind_some,
    Clause.nameAndParameters?_append name.filled letters params]

theorem ofHeader_header_iff {s : Signature} : ofHeader s.header = .ok s ↔ s.Lawful := by
  refine ⟨ofHeader_ok, ?_⟩
  intro lawful
  have brace : s.header.endsIn '\x7b' = true := by simp [header, Text.endsIn]
  rw [ofHeader, brace, header?_header lawful]
  simp only [Bool.not_true, Bool.false_eq_true, ↓reduceIte, lawful.name]
  rw [Param.readList_written s.name lawful.legal lawful.distinct]
  rfl

end Signature

/-! ## Tables -/

def Method.headerLine (m : Method) : Line := ⟨m.line, m.header⟩

namespace MethodTable

def headers (table : MethodTable) : List Line := table.methods.map Method.headerLine

theorem declares_headerLine (m : Method) : declares m.headerLine = true := by
  show Text.opensWith "void" m.header = true
  rw [Text.opensWith_iff, Signature.header_eq]
  refine ⟨_, rfl, ?_⟩
  show (!Text.isWordChar ' ') = true
  decide

theorem take_headerLine {table : MethodTable} {m : Method} (lawful : m.toSignature.Lawful)
    (fresh : table.contains m.name = false) :
    table.take m.headerLine = ⟨⟨table.methods ++ [m]⟩, .ok m⟩ := by
  have read : Signature.ofHeader m.headerLine.text = .ok m.toSignature :=
    Signature.ofHeader_header_iff.2 lawful
  have added : table.add m = .ok ⟨table.methods ++ [m]⟩ := add_ok.2 ⟨fresh, rfl⟩
  have registered : table.register m.headerLine = .ok (⟨table.methods ++ [m]⟩, m) := by
    rw [register, read]
    show (table.add m >>= fun larger => pure (larger, m)) = _
    rw [added]
    rfl
  rw [take, registered]
  rfl

theorem inSequence_headers {known methods : List Method}
    (lawful : ∀ m ∈ methods, m.toSignature.Lawful)
    (distinct : ((known ++ methods).map fun m => m.name).Nodup) :
    Attempt.inSequence take ⟨known⟩ (methods.map Method.headerLine) =
      ⟨⟨known ++ methods⟩, methods, none⟩ := by
  induction methods generalizing known with
  | nil => rw [List.map_nil, Attempt.inSequence, List.append_nil]
  | cons m methods ih =>
      rw [List.forall_mem_cons] at lawful
      have fresh : contains ⟨known⟩ m.name = false := by
        rw [contains_eq_false]
        intro k member same
        rw [List.map_append, List.nodup_append] at distinct
        exact distinct.2.2 _ (List.mem_map_of_mem member) _ (by simp) same
      have later : Attempt.inSequence take ⟨known ++ [m]⟩ (methods.map Method.headerLine) =
          ⟨⟨known ++ [m] ++ methods⟩, methods, none⟩ := ih lawful.2 (by simpa using distinct)
      rw [List.map_cons, Attempt.inSequence, take_headerLine lawful.1 fresh]
      simp only [later, List.append_assoc, List.singleton_append]

theorem collect_headers {table : MethodTable} (lawful : ∀ m ∈ table.methods, m.toSignature.Lawful)
    (distinct : (table.methods.map fun m => m.name).Nodup) :
    collect table.headers = ⟨table, table.methods, none⟩ := by
  have all : table.headers.filter declares = table.headers := by
    rw [List.filter_eq_self]
    exact List.forall_mem_map.2 fun m _ => declares_headerLine m
  rw [collect, all]
  exact inSequence_headers lawful (by simpa using distinct)

end MethodTable

/-- Reading and writing signatures are inverse to each other. A signature with legal names, those of the
parameters distinct, is read from its own header, and what is read from any header is such a signature.
So the headers that are written for a table give this table again, and this can be done with every
table that was collected from a program. -/
theorem signatures_read_back :
    (∀ s : Signature, s.Lawful → Signature.ofHeader s.header = .ok s) ∧
    (∀ t s, Signature.ofHeader t = .ok s → s.Lawful ∧ Signature.ofHeader s.header = .ok s) ∧
    (∀ table : MethodTable, (∀ m ∈ table.methods, m.toSignature.Lawful) →
      (table.methods.map fun m => m.name).Nodup →
      MethodTable.collect table.headers = ⟨table, table.methods, none⟩) ∧
    ∀ lines, let collected := MethodTable.collect lines
      collected.failure = none →
        MethodTable.collect collected.state.headers =
          ⟨collected.state, collected.state.methods, none⟩ := by
  refine ⟨fun s => Signature.ofHeader_header_iff.2, ?_, fun _ => MethodTable.collect_headers, ?_⟩
  · intro t s read
    have lawful := Signature.ofHeader_ok read
    exact ⟨lawful, Signature.ofHeader_header_iff.2 lawful⟩
  · intro lines collected pass
    refine MethodTable.collect_headers ?_ (MethodTable.collect_ok pass).2
    intro m member
    obtain ⟨l, -, declared⟩ := MethodTable.declaredBy_of_mem_collect pass member
    exact Signature.ofHeader_ok declared.1

namespace Signature

def deceptive : Signature where
  name := "void1".toList
  params := [⟨"intx".toList, .double, true⟩, ⟨"finalint".toList, .int, false⟩]

theorem deceptive_read_back :
    deceptive.Lawful ∧ deceptive.header = "void void1(final double intx, int finalint) \x7b".toList ∧
      ofHeader "void void1(final double intx, int finalint) \x7b".toList = .ok deceptive := by
  have lawful : deceptive.Lawful := ⟨by decide, by decide, by decide⟩
  exact ⟨lawful, rfl, signatures_read_back.1 deceptive lawful⟩

end Signature

end SJava
