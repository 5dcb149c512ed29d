import Mathlib.Data.List.Forall2
import Mathlib.Data.List.Nodup
import Mathlib.Data.Option.Basic
import SJava.Method.Table
import SJava.Proofs.Attempt
import SJava.Proofs.Scope.Layers

namespace SJava

namespace Param

theorem isVariable_of_ofText? {t : Text} {p : Param} (h : ofText? t = some p) :
    Name.isVariable p.name = true := by
  unfold ofText? at h
  simp only [Option.bind_eq_bind, Option.bind_eq_some_iff, Option.guard_eq_some', Option.pure_def,
    Option.some.injEq] at h
  obtain ⟨_, _, name, _, _, legal, rfl⟩ := h
  exact legal

theorem readAll_ok {method : Text} {names parts : List Text} {params : List Param}
    (h : readAll method names parts = .ok params) :
    (params.map Param.name).Nodup ∧ (∀ p ∈ params, p.name ∉ names) ∧
      ∀ p ∈ params, Name.isVariable p.name = true := by
  induction parts generalizing names params with
  | nil =>
      simp only [readAll, Except.ok.injEq] at h
      subst h
      simp
  | cons part parts ih =>
      rw [readAll] at h
      cases read : ofText? (Text.trim part) with
      | none => simp [read] at h
      | some p =>
          simp only [read] at h
          split at h
          · cases h
          · rename_i fresh
            obtain ⟨rest, later, rfl⟩ := map_eq_ok.1 h
            obtain ⟨distinct, apart, legal⟩ := ih later
            have fresh : p.name ∉ names := by simpa using fresh
            refine ⟨?_, ?_, ?_⟩
            · rw [List.map_cons, List.nodup_cons]
              refine ⟨?_, distinct⟩
              intro member
              obtain ⟨q, inRest, same⟩ := List.mem_map.1 member
              exact apart q inRest (by simp [same])
            · intro q member
              rcases List.mem_cons.1 member with rfl | inRest
              · exact fresh
              · intro known
                exact apart q inRest (by simp [known])
            · intro q member
              rcases List.mem_cons.1 member with rfl | inRest
              · exact isVariable_of_ofText? read
              · exact legal q inRest

theorem readList_ok {method t : Text} {params : List Param} (h : readList method t = .ok params) :
    (params.map Param.name).Nodup ∧ ∀ p ∈ params, Name.isVariable p.name = true := by
  simp only [readList] at h
  split at h
  · simp only [Except.ok.injEq] at h
    subst h
    simp
  · split at h
    · cases h
    · obtain ⟨distinct, -, legal⟩ := readAll_ok h
      exact ⟨distinct, legal⟩

end Param

namespace Signature

structure Lawful (s : Signature) : Prop where
  name : Name.isMethod s.name = true
  distinct : (s.params.map Param.name).Nodup
  legal : ∀ p ∈ s.params, Name.isVariable p.name = true

theorem header?_of_ofHeader {t : Text} {s : Signature} (h : ofHeader t = .ok s) :
    ∃ inner, Clause.header? t = some (s.name, inner) ∧ Name.isMethod s.name = true ∧
      Param.readList s.name inner = .ok s.params := by
  unfold ofHeader at h
  split at h
  · cases h
  · split at h
    · cases h
    · rename_i name inner shape
      split at h
      · rename_i legal
        obtain ⟨params, read, rfl⟩ := map_eq_ok.1 h
        exact ⟨inner, shape, legal, read⟩
      · cases h

theorem ofHeader_ok {t : Text} {s : Signature} (h : ofHeader t = .ok s) : s.Lawful := by
  obtain ⟨inner, -, legal, read⟩ := header?_of_ofHeader h
  obtain ⟨distinct, params⟩ := Param.readList_ok read
  exact ⟨legal, distinct, params⟩

end Signature

/-- The line is the header of the method. -/
def Method.DeclaredBy (m : Method) (l : Line) : Prop :=
  Signature.ofHeader l.text = .ok m.toSignature ∧ m.line = l.number

namespace MethodTable

theorem add_ok {table larger : MethodTable} {m : Method} :
    table.add m = .ok larger ↔
      table.contains m.name = false ∧ larger = ⟨table.methods ++ [m]⟩ := by
  unfold add
  cases table.contains m.name <;> simp [eq_comm]

theorem register_ok {table larger : MethodTable} {l : Line} {m : Method}
    (h : table.register l = .ok (larger, m)) :
    m.DeclaredBy l ∧ table.contains m.name = false ∧ larger = ⟨table.methods ++ [m]⟩ := by
  unfold register at h
  obtain ⟨signature, read, h⟩ := bind_eq_ok.1 h
  obtain ⟨table', added, h⟩ := bind_eq_ok.1 h
  cases h
  exact ⟨⟨read, rfl⟩, add_ok.1 added⟩

theorem contains_eq_false {table : MethodTable} {name : Text} :
    table.contains name = false ↔ ∀ m ∈ table.methods, m.name ≠ name := by
  simp [contains]

theorem lookup_ok {table : MethodTable} {name : Text} {m : Method} :
    table.lookup name = .ok m ↔ table.find? name = some m := by
  unfold lookup
  cases table.find? name <;> simp

theorem find?_of_mem {table : MethodTable} {m : Method}
    (distinct : (table.methods.map fun m => m.name).Nodup) (member : m ∈ table.methods) :
    table.find? m.name = some m :=
  find?_key_of_mem distinct member

theorem take_ok {table larger : MethodTable} {l : Line} {m : Method}
    (h : table.take l = ⟨larger, .ok m⟩) :
    m.DeclaredBy l ∧ table.contains m.name = false ∧ larger = ⟨table.methods ++ [m]⟩ := by
  unfold take at h
  cases registered : table.register l with
  | error v => simp [registered, Except.mapError, Attempt.ofExcept] at h
  | ok pair =>
      simp only [registered, Except.mapError, Attempt.ofExcept, Attempt.mk.injEq,
        Except.ok.injEq] at h
      obtain ⟨rfl, rfl⟩ := h
      exact register_ok registered

theorem inSequence_take {table : MethodTable} {headers : List Line}
    (distinct : (table.methods.map fun m => m.name).Nodup)
    (h : (Attempt.inSequence take table headers).failure = none) :
    ∃ methods, (Attempt.inSequence take table headers).state = ⟨table.methods ++ methods⟩ ∧
      List.Forall₂ Method.DeclaredBy methods headers ∧
      ((table.methods ++ methods).map fun m => m.name).Nodup := by
  induction headers generalizing table with
  | nil => exact ⟨[], by simp [Attempt.inSequence], .nil, by simpa using distinct⟩
  | cons l headers ih =>
      rw [Attempt.inSequence] at h ⊢
      cases taken : table.take l with
      | mk larger result =>
          cases result with
          | error failure => simp [taken] at h
          | ok m =>
              obtain ⟨declared, fresh, rfl⟩ := take_ok taken
              simp only [taken] at h ⊢
              have larger : ((table.methods ++ [m]).map fun m => m.name).Nodup := by
                rw [List.map_append, List.nodup_append]
                refine ⟨distinct, by simp, ?_⟩
                intro name member other single same
                obtain ⟨n, inTable, rfl⟩ := List.mem_map.1 member
                simp only [List.map_cons, List.map_nil, List.mem_singleton] at single
                exact contains_eq_false.1 fresh n inTable (same.trans single)
              obtain ⟨methods, state, each, all⟩ := ih larger h
              refine ⟨m :: methods, ?_, .cons declared each, by simpa using all⟩
              simpa using state

theorem collect_ok {lines : List Line} (h : (collect lines).failure = none) :
    List.Forall₂ Method.DeclaredBy (collect lines).state.methods (lines.filter declares) ∧
      ((collect lines).state.methods.map fun m => m.name).Nodup := by
  obtain ⟨methods, state, each, distinct⟩ :=
    inSequence_take (by simp [empty]) h
  have table : (collect lines).state = ⟨methods⟩ := state
  rw [table]
  exact ⟨each, distinct⟩

theorem exists_declaredBy {methods : List Method} {headers : List Line}
    (each : List.Forall₂ Method.DeclaredBy methods headers) :
    (∀ l ∈ headers, ∃ m ∈ methods, m.DeclaredBy l) ∧ ∀ m ∈ methods, ∃ l ∈ headers, m.DeclaredBy l := by
  induction each with
  | nil => simp
  | cons declared rest ih =>
      constructor
      · intro l member
        rcases List.mem_cons.1 member with rfl | later
        · exact ⟨_, by simp, declared⟩
        · obtain ⟨m, inRest, found⟩ := ih.1 l later
          exact ⟨m, by simp [inRest], found⟩
      · intro m member
        rcases List.mem_cons.1 member with rfl | later
        · exact ⟨_, by simp, declared⟩
        · obtain ⟨l, inRest, found⟩ := ih.2 m later
          exact ⟨l, by simp [inRest], found⟩

def Knows (table : MethodTable) (lines : List Line) : Prop :=
  ∀ l ∈ lines, declares l = true →
    ∃ m, m.DeclaredBy l ∧ table.find? m.name = some m

theorem Knows.mono {table : MethodTable} {lines fewer : List Line} (h : table.Knows lines)
    (sub : fewer ⊆ lines) : table.Knows fewer :=
  fun l member => h l (sub member)

theorem knows_collect {lines : List Line} (h : (collect lines).failure = none) :
    (collect lines).state.Knows lines := by
  obtain ⟨each, distinct⟩ := collect_ok h
  intro l member declared
  obtain ⟨m, inTable, header⟩ :=
    (exists_declaredBy each).1 l (List.mem_filter.2 ⟨member, declared⟩)
  exact ⟨m, header, find?_of_mem distinct inTable⟩

theorem declaredBy_of_mem_collect {lines : List Line} (h : (collect lines).failure = none)
    {m : Method} (member : m ∈ (collect lines).state.methods) : ∃ l ∈ lines, m.DeclaredBy l := by
  obtain ⟨l, header, declared⟩ := (exists_declaredBy (collect_ok h).1).2 m member
  exact ⟨l, (List.mem_filter.1 header).1, declared⟩

theorem find?_collect_iff {lines : List Line} (h : (collect lines).failure = none) {name : Text}
    {s : Signature} :
    (∃ m, (collect lines).state.find? name = some m ∧ m.toSignature = s) ↔
      s.name = name ∧ ∃ l ∈ lines, declares l = true ∧ Signature.ofHeader l.text = .ok s := by
  constructor
  · rintro ⟨m, found, rfl⟩
    obtain ⟨l, header, declared⟩ :=
      (exists_declaredBy (collect_ok h).1).2 m (List.mem_of_find?_eq_some found)
    obtain ⟨member, declares⟩ := List.mem_filter.1 header
    exact ⟨by simpa using List.find?_some found, l, member, declares, declared.1⟩
  · rintro ⟨rfl, l, member, declares, header⟩
    obtain ⟨m, declared, found⟩ := knows_collect h l member declares
    have same : m.toSignature = s := by simpa [header] using declared.1.symm
    exact ⟨m, same ▸ found, same⟩

/-! ## The verdict of the first pass -/

def declaredNames (lines : List Line) : List Text :=
  (lines.filter declares).filterMap fun l => (Signature.ofHeader l.text).toOption.map Signature.name

structure Registrable (lines : List Line) : Prop where
  readable : ∀ l ∈ lines, declares l = true → ∃ s, Signature.ofHeader l.text = .ok s
  distinct : (declaredNames lines).Nodup

/-- The failure is at the first header line that cannot be read or repeats a name, and says which. -/
def FirstFault (lines : List Line) (f : Failure) : Prop :=
  ∃ before l after, lines = before ++ l :: after ∧ declares l = true ∧ Registrable before ∧
    f.line = l.number ∧
    (Signature.ofHeader l.text = .error f.violation ∨
      ∃ s, Signature.ofHeader l.text = .ok s ∧ s.name ∈ declaredNames before ∧
        f.violation = .duplicateMethod s.name)

theorem declaredNames_append (first second : List Line) :
    declaredNames (first ++ second) = declaredNames first ++ declaredNames second := by
  simp [declaredNames]

theorem declaredNames_cons {l : Line} {s : Signature} (declared : declares l = true)
    (read : Signature.ofHeader l.text = .ok s) (lines : List Line) :
    declaredNames (l :: lines) = s.name :: declaredNames lines := by
  simp [declaredNames, declared, read, Except.toOption]

theorem names_collect {lines : List Line} (h : (collect lines).failure = none) :
    (collect lines).state.methods.map (fun m => m.name) = declaredNames lines := by
  have each := (collect_ok h).1
  unfold declaredNames
  generalize (collect lines).state.methods = methods, lines.filter declares = headers at each ⊢
  induction each with
  | nil => rfl
  | cons declared _ ih =>
      rw [List.map_cons, ih, List.filterMap_cons, declared.1]
      rfl

theorem registrable_of_collect {lines : List Line} (h : (collect lines).failure = none) :
    Registrable lines := by
  refine ⟨?_, names_collect h ▸ (collect_ok h).2⟩
  intro l member declared
  obtain ⟨m, header, -⟩ := knows_collect h l member declared
  exact ⟨m.toSignature, header.1⟩

theorem take_error {table : MethodTable} {l : Line} {f : Failure}
    (h : (table.take l).result = .error f) :
    f.line = l.number ∧ (Signature.ofHeader l.text = .error f.violation ∨
      ∃ s, Signature.ofHeader l.text = .ok s ∧ table.contains s.name = true ∧
        f.violation = .duplicateMethod s.name) := by
  unfold take register add at h
  cases read : Signature.ofHeader l.text with
  | error v =>
      simp only [read, bind, Except.bind, Except.mapError, Attempt.ofExcept, Except.error.injEq] at h
      subst h
      exact ⟨rfl, .inl rfl⟩
  | ok s =>
      cases known : table.contains s.name with
      | false =>
          simp [read, known, bind, Except.bind, pure, Except.pure, Except.mapError,
            Attempt.ofExcept] at h
      | true =>
          simp only [read, known, bind, Except.bind, Except.mapError, Attempt.ofExcept,
            ↓reduceIte, Except.error.injEq] at h
          subst h
          exact ⟨rfl, .inr ⟨s, rfl, known, rfl⟩⟩

theorem collect_failure {lines : List Line} {f : Failure} (h : (collect lines).failure = some f) :
    ∃ before l after, lines = before ++ l :: after ∧ declares l = true ∧
      (collect before).failure = none ∧ ((collect before).state.take l).result = .error f := by
  obtain ⟨headers, l, others, split, passed, refused⟩ := Attempt.failure_inSequence.1 h
  obtain ⟨first, rest, rfl, same, tail⟩ := List.filter_eq_append_iff.1 split
  obtain ⟨skipped, after, rfl, none, declared, -⟩ := List.filter_eq_cons_iff.1 tail
  have before : (first ++ skipped).filter declares = headers := by
    have nothing : skipped.filter declares = [] := List.filter_eq_nil_iff.2 none
    rw [List.filter_append, same, nothing, List.append_nil]
  refine ⟨first ++ skipped, l, after, by simp, declared, ?_, ?_⟩ <;>
  · rw [collect, before]
    assumption

theorem firstFault_of_collect {lines : List Line} {f : Failure}
    (h : (collect lines).failure = some f) : FirstFault lines f := by
  obtain ⟨before, l, after, split, declared, passed, refused⟩ := collect_failure h
  obtain ⟨number, fault⟩ := take_error refused
  refine ⟨before, l, after, split, declared, registrable_of_collect passed, number, ?_⟩
  refine fault.imp_right ?_
  rintro ⟨s, read, known, duplicate⟩
  refine ⟨s, read, ?_, duplicate⟩
  rw [← names_collect passed]
  simpa [contains] using known

theorem not_registrable_of_firstFault {lines : List Line} {f : Failure} (h : FirstFault lines f) :
    ¬Registrable lines := by
  obtain ⟨before, l, after, rfl, declared, -, -, fault⟩ := h
  intro all
  obtain ⟨s, read⟩ := all.readable l (by simp) declared
  rcases fault with unreadable | ⟨again, readAgain, known, -⟩
  · rw [read] at unreadable
    cases unreadable
  · rw [read] at readAgain
    cases readAgain
    have distinct := all.distinct
    rw [declaredNames_append, declaredNames_cons declared read, List.nodup_append] at distinct
    exact distinct.2.2 _ known _ (by simp) rfl

theorem collect_failure_eq_none {lines : List Line} :
    (collect lines).failure = none ↔ Registrable lines := by
  refine ⟨registrable_of_collect, ?_⟩
  intro all
  cases failed : (collect lines).failure with
  | none => rfl
  | some f => exact absurd all (not_registrable_of_firstFault (firstFault_of_collect failed))

theorem declaredNames_eq (lines : List Line) :
    declaredNames lines = ((lines.map Line.text).filter (·.opensWith "void")).filterMap
      fun t => (Signature.ofHeader t).toOption.map Signature.name := by
  rw [List.filter_map, List.filterMap_map]
  rfl

theorem Registrable.of_texts {lines others : List Line} (h : Registrable lines)
    (same : (others.map Line.text).Perm (lines.map Line.text)) : Registrable others := by
  constructor
  · intro l member declared
    obtain ⟨k, inLines, text⟩ := List.mem_map.1 (same.mem_iff.1 (List.mem_map_of_mem member))
    rw [← text]
    exact h.readable k inLines (by rwa [declares, text])
  · rw [declaredNames_eq, ((same.filter _).filterMap _).nodup_iff, ← declaredNames_eq]
    exact h.distinct

theorem Registrable.append {first second : List Line} (h : Registrable first)
    (h' : Registrable second) (apart : (declaredNames first).Disjoint (declaredNames second)) :
    Registrable (first ++ second) := by
  constructor
  · intro l member
    rcases List.mem_append.1 member with inFirst | inSecond
    · exact h.readable l inFirst
    · exact h'.readable l inSecond
  · rw [declaredNames_append]
    exact h.distinct.append h'.distinct apart

end MethodTable

end SJava
