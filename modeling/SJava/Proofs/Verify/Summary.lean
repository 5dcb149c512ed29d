import Mathlib.Data.List.Induction
import SJava.Proofs.Verify.Simulation
import SJava.Workbench.Symbols

/-!
# Summaries of programs

What the analysis of an accepted program lists can be read off its text, without checking anything.
The blocks that are open at a line, with the names they declare, follow from the lines before it
(`Nesting.openAfter`). The declarations outside all blocks are the global variables, and an assignment
reaches a global variable if no open block declares its name.

The stack shows the text that was read so far (`Stack.Shows`). Every line keeps this up
(`State.shows_next?`), so it holds at the end (`State.shows_run?`), where only the global scope is
left.
-/

namespace SJava

/-! ## Reading the text -/

namespace Clause

def Declaration.variable (d : Declaration) (binder : Text) : Variable :=
  ⟨(Binding.parts binder).1, d.type, d.final, (Binding.parts binder).2.isSome⟩

def binders (list : Text) : List Text := (items list).toOption.getD []

def declared (t : Text) : List Variable :=
  match declaration? (body t) with
  | none => []
  | some d => (binders d.binders).map d.variable

def targets (t : Text) : List Text := (binders (body t)).map fun binder => (Binding.parts binder).1

def paramNames (t : Text) : List Text :=
  match Signature.ofHeader t with
  | .error _ => []
  | .ok s => s.params.map Param.name

end Clause

/-! Blocks are given by the names that they declare, from the inside out. -/

namespace Nesting

def take (blocks : List (List Text)) (t : Text) : List (List Text) :=
  match Kind.ofText t with
  | .methodHeader => Clause.paramNames t :: blocks
  | .conditionHeader => [] :: blocks
  | .blockClose => blocks.tail
  | .declaration => blocks.modifyHead (· ++ (Clause.declared t).map Variable.name)
  | .assignment | .call | .returning | .unrecognized => blocks

def openAfter (lines : List Line) : List (List Text) :=
  lines.foldl (fun blocks l => take blocks l.text) []

/-- The global variables that a line declares: none unless it stands outside all blocks. -/
def globalsOf (blocks : List (List Text)) (t : Text) : List Variable :=
  if blocks = [] ∧ Kind.ofText t = .declaration then Clause.declared t else []

def globalsFrom (blocks : List (List Text)) : List Line → List Variable
  | [] => []
  | l :: lines => globalsOf blocks l.text ++ globalsFrom (take blocks l.text) lines

def globals (lines : List Line) : List Variable := globalsFrom [] lines

def Assigns (blocks : List (List Text)) (t name : Text) : Prop :=
  Kind.ofText t = .assignment ∧ name ∈ Clause.targets t ∧ ∀ names ∈ blocks, name ∉ names

/-- Some assignment among the lines has the name as a target that stands for a global variable. -/
def AssignedIn (lines : List Line) (name : Text) : Prop :=
  ∃ before l after, lines = before ++ l :: after ∧ Assigns (openAfter before) l.text name

theorem openAfter_concat (lines : List Line) (l : Line) :
    openAfter (lines ++ [l]) = take (openAfter lines) l.text := by
  simp [openAfter]

theorem globals_concat (lines : List Line) (l : Line) :
    globals (lines ++ [l]) = globals lines ++ globalsOf (openAfter lines) l.text := by
  have shifted : ∀ blocks, globalsFrom blocks (lines ++ [l]) = globalsFrom blocks lines ++
      globalsOf (lines.foldl (fun blocks l => take blocks l.text) blocks) l.text := by
    induction lines with
    | nil => simp [globalsFrom]
    | cons k lines ih =>
        intro blocks
        simp only [List.cons_append, globalsFrom, ih, List.foldl_cons, List.append_assoc]
  exact shifted []

theorem not_assignedIn_nil {name : Text} : ¬AssignedIn [] name := by
  rintro ⟨before, l, after, split, -⟩
  simp at split

theorem assignedIn_concat (lines : List Line) (l : Line) (name : Text) :
    AssignedIn (lines ++ [l]) name ↔
      AssignedIn lines name ∨ Assigns (openAfter lines) l.text name := by
  constructor
  · rintro ⟨before, k, after, split, assigns⟩
    obtain rfl | ⟨first, last, rfl⟩ := List.eq_nil_or_concat' after
    · obtain ⟨rfl, same⟩ := List.append_inj' split rfl
      cases same
      exact .inr assigns
    · have cut : lines ++ [l] = (before ++ k :: first) ++ [last] := by simpa using split
      obtain ⟨rfl, -⟩ := List.append_inj' cut rfl
      exact .inl ⟨before, k, first, rfl, assigns⟩
  · rintro (⟨before, k, after, rfl, assigns⟩ | assigns)
    · exact ⟨before, k, after ++ [l], by simp, assigns⟩
    · exact ⟨lines, l, [], rfl, assigns⟩

end Nesting

/-- The entry `v` for a variable `b` of the text: as it was declared, and with a value if it had one
from the start or its name is given one. -/
structure Variable.Records (given : Text → Prop) (v b : Variable) : Prop where
  face : v.face = b.face
  initialized : v.initialized = true ↔ b.initialized = true ∨ given b.name

theorem Variable.Records.name {given : Text → Prop} {v b : Variable} (h : v.Records given b) :
    v.name = b.name :=
  congrArg Prod.fst h.face

/-! ## The stack and the text -/

namespace Stack

def localNames (s : Stack) : List (List Text) :=
  s.scopes.dropLast.map fun c => c.vars.map Variable.name

theorem localNames_push (s : Stack) (c : Scope) :
    (s.push c).localNames = c.vars.map Variable.name :: s.localNames := rfl

theorem localNames_of_layers {s : Stack} {c : Scope} {rest : List Scope}
    (h : s.layers = c :: rest) :
    s.localNames = (rest.map fun c => c.vars.map Variable.name).reverse := by
  have scopes : s.scopes = rest.reverse ++ [c] := by
    rw [← List.reverse_inj, ← layers, h]
    simp
  rw [localNames, scopes, List.dropLast_concat, List.map_reverse]

/-- The stack shows what was read: the open blocks, the global variables, and the names of those that
were given a value by an assignment. -/
structure Shows (s : Stack) (blocks : List (List Text)) (globals : List Variable)
    (given : Text → Prop) : Prop where
  blocks : s.localNames = blocks
  kind : s.bottom.kind = .global
  name : s.bottom.name = "__global__".toList
  globals : List.Forall₂ (Variable.Records given) s.bottom.vars globals
  known : ∀ x, given x → x ∈ s.globalNames

section Shows

variable {s t : Stack} {blocks : List (List Text)} {globals : List Variable} {given : Text → Prop}

theorem Shows.congr {given' : Text → Prop} (h : s.Shows blocks globals given)
    (same : ∀ x, given' x ↔ given x) : s.Shows blocks globals given' := by
  obtain rfl : given' = given := funext fun x => propext (same x)
  exact h

theorem Shows.of_bottom {blocks' : List (List Text)} (h : s.Shows blocks globals given)
    (same : t.bottom = s.bottom) (names : t.localNames = blocks') :
    t.Shows blocks' globals given := by
  refine ⟨names, ?_, ?_, ?_, ?_⟩
  · rw [same, h.kind]
  · rw [same, h.name]
  · rw [same]
    exact h.globals
  · rw [globalNames, same]
    exact h.known

theorem Shows.push (h : s.Shows blocks globals given) (c : Scope) :
    (s.push c).Shows (c.vars.map Variable.name :: blocks) globals given := by
  apply h.of_bottom (bottom_push s c)
  rw [localNames_push, h.blocks]

theorem Shows.closed (h : s.Shows blocks globals given) :
    s.closed.Shows blocks.tail globals given := by
  rw [← h.blocks]
  rcases single_or_push s with ⟨c, rfl⟩ | ⟨u, c, rfl⟩
  · exact h.of_bottom rfl rfl
  · exact h.of_bottom (bottom_push u c).symm rfl

theorem Shows.extend_global {c d : Scope} {vars : List Variable}
    (h : Shows ⟨c, []⟩ blocks globals given) (kind : d.kind = c.kind) (name : d.name = c.name)
    (larger : d.vars = c.vars ++ vars) : Shows ⟨d, []⟩ blocks (globals ++ vars) given where
  blocks := h.blocks
  kind := kind.trans h.kind
  name := name.trans h.name
  globals := by
    show List.Forall₂ _ d.vars _
    rw [larger]
    apply List.rel_append h.globals
    rw [List.forall₂_same]
    intro v member
    refine ⟨rfl, ⟨.inl, fun either => either.resolve_right ?_⟩⟩
    intro assigned
    have distinct := d.distinct
    rw [larger, List.map_append, List.nodup_append] at distinct
    exact distinct.2.2 v.name (h.known v.name assigned) v.name (List.mem_map_of_mem member) rfl
  known := by
    intro x assigned
    show x ∈ d.vars.map Variable.name
    rw [larger, List.map_append]
    exact List.mem_append_left _ (h.known x assigned)

theorem Shows.extend {d : Scope} {vars : List Variable} (h : s.Shows blocks globals given)
    (kind : d.kind = s.current.kind) (name : d.name = s.current.name)
    (larger : d.vars = s.current.vars ++ vars) :
    Shows { s with current := d } (blocks.modifyHead (· ++ vars.map Variable.name))
      (globals ++ if blocks = [] then vars else []) given := by
  rcases single_or_push s with ⟨c, rfl⟩ | ⟨u, c, rfl⟩
  · obtain rfl : [] = blocks := h.blocks
    rw [if_pos rfl]
    exact h.extend_global kind name larger
  · obtain rfl : c.vars.map Variable.name :: u.localNames = blocks := h.blocks
    rw [if_neg (by simp), List.append_nil]
    have below : u.Shows u.localNames globals given := h.closed
    have names : d.vars.map Variable.name = c.vars.map Variable.name ++ vars.map Variable.name := by
      rw [larger, List.map_append]
      rfl
    have above := below.push d
    rwa [names] at above

theorem records_fill {c : Scope} (name : Text) {globals : List Variable}
    (h : List.Forall₂ (Variable.Records given) c.vars globals) :
    List.Forall₂ (Variable.Records fun x => given x ∨ x = name) (c.fill name).vars globals := by
  show List.Forall₂ _ (c.vars.map _) _
  rw [List.forall₂_map_left_iff]
  apply h.imp
  intro v b recorded
  by_cases same : v.name = name
  · rw [if_pos same]
    refine ⟨recorded.face, iff_of_true rfl (.inr (.inr ?_))⟩
    rw [← recorded.name, same]
  · rw [if_neg same]
    refine ⟨recorded.face, recorded.initialized.trans ?_⟩
    rw [recorded.name] at same
    simp [same]

theorem Shows.fill {c : Scope} {inner : List Scope} {name : Text}
    (h : s.Shows blocks globals given) (split : s.layers = c :: inner)
    (after : t.layers = c.fill name :: inner) (global : name ∈ c.vars.map Variable.name) :
    t.Shows blocks globals fun x => given x ∨ x = name := by
  obtain ⟨rfl, kind, named, listed, known⟩ := h
  simp only [globalNames, bottom_of_layers split] at kind named listed known
  refine ⟨?_, ?_, ?_, ?_, ?_⟩
  · rw [localNames_of_layers split, localNames_of_layers after]
  · rw [bottom_of_layers after]
    exact kind
  · rw [bottom_of_layers after]
    exact named
  · rw [bottom_of_layers after]
    exact records_fill name listed
  · have names : t.globalNames = c.vars.map Variable.name := by
      rw [globalNames, bottom_of_layers after]
      exact Scope.names_filled c.vars name
    rw [names]
    rintro x (before | rfl)
    · exact known x before
    · exact global

theorem Shows.assign {name : Text} {value : ValueType} {w : Variable}
    (h : s.Shows blocks globals given) (done : s.assign name value = .ok (t, w)) :
    t.Shows blocks globals fun x => given x ∨ x = name ∧ ∀ names ∈ blocks, x ∉ names := by
  obtain ⟨outer, c, inner, v, split, found, hidden, -, -, -, after⟩ := assign_ok done
  have owned : name ∈ c.vars.map Variable.name := by
    rw [← Scope.contains_eq_true_iff, ← Scope.find?_isSome, found]
    rfl
  cases outer with
  | nil =>
      have visible : ∀ names ∈ blocks, name ∉ names := by
        intro names member
        rw [← h.blocks, localNames_of_layers split, List.mem_reverse] at member
        obtain ⟨p, inside, rfl⟩ := List.mem_map.1 member
        rw [← Scope.contains_eq_true_iff, Scope.find?_eq_none.1 (hidden p inside)]
        exact Bool.false_ne_true
      apply (h.fill split after owned).congr
      intro x
      refine or_congr_right (and_iff_left_of_imp ?_)
      rintro rfl
      exact visible
  | cons first outer =>
      have covered : c.vars.map Variable.name ∈ blocks := by
        rw [← h.blocks, localNames_of_layers split]
        simp
      have same : t.bottom = s.bottom := by rw [bottom_of_layers split, bottom_of_layers after]
      have names : (c.fill name).vars.map Variable.name = c.vars.map Variable.name :=
        Scope.names_filled c.vars name
      have kept : t.Shows blocks globals given := by
        apply h.of_bottom same
        rw [← h.blocks, localNames_of_layers split, localNames_of_layers after]
        simp [names]
      apply kept.congr
      intro x
      refine or_iff_left_of_imp ?_
      rintro ⟨rfl, visible⟩
      exact absurd owned (visible _ covered)

end Shows

end Stack

/-! ## One line -/

namespace Binding

theorem current_declareAll {d : Clause.Declaration} {s t : Stack} {binders : List Text}
    (h : binders.foldlM (fun t binder => (declareOne d.final d.type t binder).toOption.map Prod.fst)
      s = some t) :
    ∃ c : Scope, t = { s with current := c } ∧ c.kind = s.current.kind ∧ c.name = s.current.name ∧
      c.vars = s.current.vars ++ binders.map d.variable := by
  induction binders generalizing s with
  | nil =>
      cases h
      exact ⟨_, rfl, rfl, rfl, by simp⟩
  | cons binder binders ih =>
      rw [List.foldlM_cons] at h
      obtain ⟨u, first, rest⟩ := Option.bind_eq_some_iff.1 h
      obtain ⟨⟨u, v⟩, taken, rfl⟩ := Option.map_eq_some_iff.1 first
      obtain ⟨name, value, cut, -, -, rfl, done, -⟩ := declareOne_ok (toOption_eq_some.1 taken)
      obtain ⟨c, declared, rfl⟩ := Stack.declare_ok done
      obtain ⟨-, kind, label, vars⟩ := Scope.declare_ok declared
      obtain ⟨e, rfl, kind', label', vars'⟩ := ih rest
      refine ⟨e, rfl, kind'.trans kind, label'.trans label, ?_⟩
      rw [vars', vars]
      simp [Clause.Declaration.variable, cut]

theorem current_declare {s t : Stack} {text : Text} (h : (declare s text).success? = some t) :
    ∃ c : Scope, t = { s with current := c } ∧ c.kind = s.current.kind ∧ c.name = s.current.name ∧
      c.vars = s.current.vars ++ Clause.declared text := by
  rw [success?_declare] at h
  split at h
  · obtain ⟨d, shape, taken⟩ := Option.bind_eq_some_iff.1 h
    rw [success?_takeAll] at taken
    obtain ⟨binders, listed, taken⟩ := Option.bind_eq_some_iff.1 taken
    have all : Clause.declared text = binders.map d.variable := by
      simp [Clause.declared, shape, Clause.binders, listed]
    rw [all]
    exact current_declareAll taken
  · cases h

theorem shows_assignAll {s t : Stack} {blocks : List (List Text)} {globals : List Variable}
    {given : Text → Prop} {binders : List Text} (shown : s.Shows blocks globals given)
    (h : binders.foldlM (fun t binder => (assignOne t binder).toOption.map Prod.fst) s = some t) :
    t.Shows blocks globals fun x => given x ∨
      x ∈ binders.map (fun binder => (parts binder).1) ∧ ∀ names ∈ blocks, x ∉ names := by
  induction binders generalizing s given with
  | nil =>
      cases h
      exact shown.congr (by simp)
  | cons binder binders ih =>
      rw [List.foldlM_cons] at h
      obtain ⟨u, first, rest⟩ := Option.bind_eq_some_iff.1 h
      obtain ⟨⟨u, w⟩, taken, rfl⟩ := Option.map_eq_some_iff.1 first
      obtain ⟨name, value, type, cut, -, -, done⟩ := assignOne_ok (toOption_eq_some.1 taken)
      apply (ih (shown.assign done) rest).congr
      intro x
      rw [List.map_cons, List.mem_cons, cut, or_and_right, or_assoc]

theorem shows_assign {s t : Stack} {blocks : List (List Text)} {globals : List Variable}
    {given : Text → Prop} {text : Text} (shown : s.Shows blocks globals given)
    (h : (assign s text).success? = some t) :
    t.Shows blocks globals fun x => given x ∨
      x ∈ Clause.targets text ∧ ∀ names ∈ blocks, x ∉ names := by
  rw [success?_assign] at h
  split at h
  · rw [success?_takeAll] at h
    obtain ⟨binders, listed, taken⟩ := Option.bind_eq_some_iff.1 h
    have all : Clause.targets text = binders.map fun binder => (parts binder).1 := by
      simp [Clause.targets, Clause.binders, listed]
    rw [all]
    exact shows_assignAll shown taken
  · cases h

end Binding

namespace State

open Nesting

variable {table : MethodTable}

theorem shows_enter {stack t : Stack} {l : Line} {m : Method} {blocks : List (List Text)}
    {globals : List Variable} {given : Text → Prop} (known : table.Knows [l])
    (declares : MethodTable.declares l = true) (entered : enter stack table l.text = ⟨t, .ok m⟩)
    (shown : stack.Shows blocks globals given) :
    t.Shows (Clause.paramNames l.text :: blocks) globals given := by
  obtain ⟨own, ⟨header, -⟩, found⟩ := known l (by simp) declares
  obtain ⟨scope, seeded, pushed⟩ := enter_eq stack header found
  rw [pushed] at entered
  cases entered
  obtain ⟨distinct, rfl⟩ := Signature.eq_of_scope? seeded
  have names : Clause.paramNames l.text = (m.params.map Param.asVariable).map Variable.name := by
    rw [Clause.paramNames, header, List.map_map]
    rfl
  rw [names]
  exact shown.push _

theorem shows_next? {s t : State} {l : Line} {blocks : List (List Text)} {globals : List Variable}
    {given : Text → Prop} (known : table.Knows [l]) (shown : s.stack.Shows blocks globals given)
    (taken : s.next? table l = some t) :
    t.stack.Shows (Nesting.take blocks l.text) (globals ++ globalsOf blocks l.text)
      fun x => given x ∨ Assigns blocks l.text x := by
  -- A line that is no declaration and no assignment moves the blocks only.
  have still {stack : Stack} (other : Kind.ofText l.text ≠ .declaration)
      (other' : Kind.ofText l.text ≠ .assignment)
      (moved : stack.Shows (Nesting.take blocks l.text) globals given) :
      stack.Shows (Nesting.take blocks l.text) (globals ++ globalsOf blocks l.text)
        fun x => given x ∨ Assigns blocks l.text x := by
    rw [globalsOf, if_neg (fun both => other both.2), List.append_nil]
    exact moved.congr (by simp [Assigns, other'])
  obtain ⟨-, step⟩ := next?_eq_some.1 taken
  cases step with
  | declaration kind bound =>
      obtain ⟨c, rfl, ofKind, name, vars⟩ := Binding.current_declare bound
      have larger := shown.extend ofKind name vars
      simp only [Nesting.take, globalsOf, Assigns, kind, and_true, reduceCtorEq, false_and, or_false]
      exact larger
  | assignment kind bound =>
      have filled := Binding.shows_assign shown bound
      simp only [Nesting.take, globalsOf, Assigns, kind, reduceCtorEq, and_false, ↓reduceIte,
        List.append_nil, true_and]
      exact filled
  | openMethod kind entered =>
      apply still (by simp [kind]) (by simp [kind])
      simp only [Nesting.take, kind]
      exact shows_enter known (Kind.ofText_eq_methodHeader.1 kind) entered shown
  | openBlock kind checked =>
      apply still (by simp [kind]) (by simp [kind])
      simp only [Nesting.take, kind]
      exact shown.push _
  | call kind checked | returning kind returns =>
      apply still (by simp [kind]) (by simp [kind])
      simp only [Nesting.take, kind]
      exact shown
  | closeBlock kind block | closeMethod kind body returns =>
      apply still (by simp [kind]) (by simp [kind])
      simp only [Nesting.take, kind]
      exact shown.closed

/-! ## Runs -/

theorem shows_initial : State.initial.stack.Shows (openAfter []) (globals []) (AssignedIn []) where
  blocks := rfl
  kind := rfl
  name := rfl
  globals := .nil
  known := fun _ assigned => absurd assigned not_assignedIn_nil

theorem shows_run? {t : State} {lines : List Line} (known : table.Knows lines)
    (run : State.initial.run? table lines = some t) :
    t.stack.Shows (openAfter lines) (globals lines) (AssignedIn lines) := by
  induction lines using List.reverseRecOn generalizing t with
  | nil =>
      cases run
      exact shows_initial
  | append_singleton lines l ih =>
      rw [run?_append, Option.bind_eq_some_iff] at run
      obtain ⟨s, earlier, last⟩ := run
      have taken : s.next? table l = some t := by simpa using last
      have before := ih (known.mono (List.subset_append_left _ _)) earlier
      have after := shows_next? (known.mono (List.subset_append_right _ _)) before taken
      rw [openAfter_concat, globals_concat]
      exact after.congr (assignedIn_concat lines l)

end State

theorem Run.table_ofLines {lines : List Line} (pass : (MethodTable.collect lines).failure = none) :
    (ofLines lines).table = (MethodTable.collect lines).state := by
  simp only [table, ofLines, pass]

theorem Run.shows_of_accepted {lines : List Line} (h : (ofLines lines).accepted = true) :
    ∃ global : Scope, (ofLines lines).state.stack = ⟨global, []⟩ ∧
      (⟨global, []⟩ : Stack).Shows (Nesting.openAfter lines) (Nesting.globals lines)
        (Nesting.AssignedIn lines) ∧
      (MethodTable.collect lines).failure = none := by
  have left := stack_of_accepted h
  obtain ⟨pass, previous, run⟩ := accepted_with_iff.1 ⟨h, left⟩
  exact ⟨_, left, State.shows_run? (MethodTable.knows_collect pass) run, pass⟩

theorem Method.ascending_of_declaredBy {methods : List Method} {headers : List Line}
    (each : List.Forall₂ Method.DeclaredBy methods headers)
    (sorted : headers.Pairwise (·.number < ·.number)) : methods.Pairwise (·.line < ·.line) := by
  have numbers : methods.map Method.line = headers.map Line.number := by
    induction each with
    | nil => rfl
    | cons declared rest ih =>
        rw [List.map_cons, List.map_cons, declared.2, ih (List.pairwise_cons.1 sorted).2]
  rw [← List.pairwise_map, numbers, List.pairwise_map]
  exact sorted

theorem Analysis.ok_ofRun (run : Run) : (ofRun run).ok = true ↔ run.failure? = none := by
  rw [ok, diagnostics_ofRun]
  cases run.failure? <;> simp

/-- The analysis is a summary of the program. It is good if and only if the run does not fail, and
lists the one failure otherwise. If it is good, it has two sections. The first is the global scope with
the variables that are declared outside every method, and the second has the methods by ascending line
number, one for each header and with the parameters of that header. -/
theorem analysis_summarizes_program (listing : Listing) :
    let lines := listing.ascending
    let run := Run.ofListing listing
    let analysis := Analysis.ofListing listing
    (analysis.ok = true ↔ run.failure? = none) ∧
    (analysis.ok = true → analysis.diagnostics = []) ∧
    (analysis.ok = false → ∃ f, run.failure? = some f ∧
      analysis.diagnostics = [⟨f.violation.category, f.violation.message, f.line⟩]) ∧
    (analysis.ok = true → ∃ global : Scope,
      analysis.scopes = [global] ∧ global.title = "GLOBAL __global__".toList ∧
      Workbench.sections analysis = [.ofScope global, .ofMethods analysis.methods] ∧
      List.Forall₂ (Variable.Records (Nesting.AssignedIn lines)) global.vars
        (Nesting.globals lines) ∧
      List.Forall₂ (fun m l => ∃ s, Signature.ofHeader l.text = .ok s ∧ m = ⟨s, l.number⟩ ∧
          m.written = "void ".toList ++ s.name ++
            '(' :: [',', ' '].intercalate (s.params.map Param.written) ++ [')'])
        analysis.methods (lines.filter fun l => l.text.opensWith "void") ∧
      analysis.methods.Pairwise (·.line < ·.line)) := by
  intro lines run analysis
  have verdict : analysis.ok = true ↔ run.failure? = none := Analysis.ok_ofRun run
  refine ⟨verdict, List.isEmpty_iff.1, ?_, ?_⟩
  · intro bad
    cases failed : run.failure? with
    | none =>
        rw [verdict.2 failed] at bad
        cases bad
    | some f =>
        have listed : analysis.diagnostics = _ := Analysis.diagnostics_ofRun run
        rw [failed] at listed
        exact ⟨f, rfl, listed⟩
  · intro good
    have accepted : run.accepted = true := Option.isNone_iff_eq_none.2 (verdict.1 good)
    obtain ⟨global, left, shown, pass⟩ := Run.shows_of_accepted accepted
    have scopes : analysis.scopes = [global] :=
      congrArg (fun stack : Stack => stack.scopes.reverse) left
    have methods : analysis.methods = (MethodTable.collect lines).state.methods :=
      congrArg MethodTable.methods (Run.table_ofLines pass)
    have each := (MethodTable.collect_ok pass).1
    refine ⟨global, scopes, ?_, ?_, shown.globals, ?_, ?_⟩
    · have kind : global.kind = .global := shown.kind
      have name : global.name = "__global__".toList := shown.name
      rw [Scope.title, Scope.heading, kind, name]
      decide
    · rw [Workbench.sections, scopes]
      rfl
    · rw [methods]
      apply each.imp
      rintro ⟨s, line⟩ l ⟨header, rfl⟩
      exact ⟨s, header, rfl, rfl⟩
    · rw [methods]
      exact Method.ascending_of_declaredBy each (listing.sorted_ascending.filter _)

-- The parameter hides one of the two global variables, so the assignment gives a value to the other.
example :
    (Analysis.ofListing (.ofLines [⟨1, "int a, b;".toList⟩, ⟨2, "void f(int a) \x7b".toList⟩,
      ⟨3, "a = 1, b = 2;".toList⟩, ⟨4, "return;".toList⟩, ⟨5, "\x7d".toList⟩])).scopes.map
        (fun c => c.vars.map fun v => (v.name, v.initialized)) =
      [[("a".toList, false), ("b".toList, true)]] := by
  decide

end SJava
