import SJava.Proofs.Clause.Exclusion
import SJava.Proofs.Listing
import SJava.Proofs.Verify.Grammar

/-!
# Acceptance by the grammar

The pass over the lines, which knows nothing of trees, accepts a program if and only if its lines are
the sentence of a tree that the walk accepts. One direction follows the tree; the lines of a statement
take the pass from the environment before it to the one after it (`run?_sentence`). The other builds
the tree: as long as a method is open, an accepted rest of the program splits at the brace that closes
the innermost scope (`split_at_close`).
-/

namespace SJava

def lastText (previous : Option Text) (lines : List Line) : Option Text :=
  lines.foldl (fun _ l => some l.text) previous

@[simp] theorem lastText_nil (previous : Option Text) : lastText previous [] = previous := rfl

@[simp] theorem lastText_cons (previous : Option Text) (l : Line) (lines : List Line) :
    lastText previous (l :: lines) = lastText (some l.text) lines := rfl

theorem lastText_append (previous : Option Text) (first second : List Line) :
    lastText previous (first ++ second) = lastText (lastText previous first) second := by
  simp [lastText]

section

variable {table : MethodTable}

/-! ## From trees to lines -/

mutual

theorem Statement.run?_lines {env after : Stack} {m : Method} {previous : Option Text}
    (s : Statement) (layout : ∀ l ∈ s.lines, Clause.checkLayout l.text = .ok ())
    (h : s.walk table env = some after) :
    State.run? table ⟨env, some m, previous⟩ s.lines =
      some ⟨after, some m, lastText previous s.lines⟩ := by
  match s with
  | .declaration l =>
      simp only [walk] at h
      simp [lines, State.next?_declaration (layout l.1 (by simp [lines])) l.2, h]
  | .assignment l =>
      simp only [walk] at h
      simp [lines, State.next?_assignment (layout l.1 (by simp [lines])) l.2, h]
  | .call l =>
      simp only [walk, Option.map_eq_some_iff] at h
      obtain ⟨called, checked, rfl⟩ := h
      simp [lines, State.next?_call (layout l.1 (by simp [lines])) l.2, checked]
  | .returning l =>
      simp only [walk, Option.some.injEq] at h
      have kind := Kind.ofText_of_isReturn l.2
      simp [lines, State.next?_return (layout l.1 (by simp [lines])) kind, l.2, h]
  | .block header body close =>
      simp only [walk, Option.bind_eq_some_iff, Option.map_eq_some_iff] at h
      obtain ⟨block, checked, inner, walked, ⟨c, u⟩, popped, rfl⟩ := h
      have kind := (Stack.frames_of_pop? (Statement.frames_walkAll body walked) popped).1
      have inside : ∀ l ∈ Statement.sentence body, Clause.checkLayout l.text = .ok () :=
        fun l member => layout l (by simp [lines, member])
      rw [lines, State.run?_cons,
        State.next?_conditionHeader (layout header.1 (by simp [lines])) header.2, checked,
        Option.map_some, Option.bind_some, State.run?_append,
        Statement.run?_sentence body inside walked, Option.bind_some, State.run?_cons,
        State.next?_blockClose (layout close.1 (by simp [lines])) close.2 popped kind]
      simp [lastText_append]

theorem Statement.run?_sentence {env after : Stack} {m : Method} {previous : Option Text}
    (body : List Statement)
    (layout : ∀ l ∈ Statement.sentence body, Clause.checkLayout l.text = .ok ())
    (h : Statement.walkAll table env body = some after) :
    State.run? table ⟨env, some m, previous⟩ (Statement.sentence body) =
      some ⟨after, some m, lastText previous (Statement.sentence body)⟩ := by
  match body with
  | [] =>
      simp only [walkAll, Option.some.injEq] at h
      simp [sentence, h]
  | s :: rest =>
      simp only [walkAll, Option.bind_eq_some_iff] at h
      obtain ⟨next, first, later⟩ := h
      rw [sentence, List.forall_mem_append] at layout
      rw [sentence, State.run?_append, Statement.run?_lines s layout.1 first, Option.bind_some,
        Statement.run?_sentence rest layout.2 later, lastText_append]

end

theorem Item.run?_lines {env after : Stack} {previous : Option Text} (item : Item)
    (known : table.Knows item.lines)
    (layout : ∀ l ∈ item.lines, Clause.checkLayout l.text = .ok ())
    (h : item.walk table env = some after) :
    State.run? table ⟨env, none, previous⟩ item.lines =
      some ⟨after, none, lastText previous item.lines⟩ := by
  match item with
  | .declaration l =>
      simp only [walk] at h
      simp [lines, State.next?_declaration (layout l.1 (by simp [lines])) l.2, h]
  | .assignment l =>
      simp only [walk] at h
      simp [lines, State.next?_assignment (layout l.1 (by simp [lines])) l.2, h]
  | .method header body last close =>
      simp only [walk, Option.bind_eq_some_iff, Option.map_eq_some_iff] at h
      obtain ⟨signature, read, scope, seeded, inner, walked, ⟨c, u⟩, popped, rfl⟩ := h
      obtain ⟨m, declared, found⟩ := known header.1 (by simp [lines])
        (Kind.ofText_eq_methodHeader.1 header.2)
      obtain ⟨scope', seeded', entered⟩ := State.enter_eq env declared.1 found
      -- The scope of the tree is made from the header, that of the pass from the table.
      rw [declared.1] at read
      cases read
      rw [seeded, Option.some.injEq] at seeded'
      subst seeded'
      have kind : scope.kind = .method := Signature.kind_of_scope? seeded
      have notBlock : inner.current.kind ≠ .condition := by
        rw [(Stack.frames_of_pop? (Statement.frames_walkAll body walked) popped).1, kind]
        decide
      have inside : ∀ l ∈ Statement.sentence body, Clause.checkLayout l.text = .ok () :=
        fun l member => layout l (by simp [lines, member])
      rw [lines, State.run?_cons,
        State.next?_methodHeader (layout header.1 (by simp [lines])) header.2 entered,
        Option.bind_some, State.run?_append, Statement.run?_sentence body inside walked,
        Option.bind_some, State.run?_cons,
        State.next?_return (layout last.1 (by simp [lines])) (Kind.ofText_of_isReturn last.2),
        if_pos last.2, Option.bind_some, State.run?_cons,
        State.next?_methodClose (layout close.1 (by simp [lines])) close.2 popped notBlock]
      simp [last.2, lastText_append]

theorem Item.run?_sentence {env after : Stack} {previous : Option Text} (items : List Item)
    (known : table.Knows (Item.sentence items))
    (layout : ∀ l ∈ Item.sentence items, Clause.checkLayout l.text = .ok ())
    (h : Item.walkAll table env items = some after) :
    State.run? table ⟨env, none, previous⟩ (Item.sentence items) =
      some ⟨after, none, lastText previous (Item.sentence items)⟩ := by
  induction items generalizing env previous with
  | nil =>
      simp only [walkAll, List.foldlM_nil, Option.pure_def, Option.some.injEq] at h
      simp [sentence, h]
  | cons item items ih =>
      simp only [walkAll, List.foldlM_cons, Option.bind_eq_bind, Option.bind_eq_some_iff] at h
      obtain ⟨next, first, later⟩ := h
      rw [sentence, List.flatMap_cons] at known layout ⊢
      rw [List.forall_mem_append] at layout
      rw [State.run?_append,
        Item.run?_lines item (known.mono (List.subset_append_left _ _)) layout.1 first,
        Option.bind_some, ← sentence, ih (known.mono (List.subset_append_right _ _)) layout.2 later,
        lastText_append]

/-! ## From lines to trees -/

/-- The lines begin with statements that the walk accepts, up to a brace from which the pass goes on
to the state `final`. -/
def SplitsAtClose (table : MethodTable) (stack : Stack) (m : Method) (previous : Option Text)
    (lines : List Line) (final : State) : Prop :=
  ∃ (body : List Statement) (close : LineOf .blockClose) (rest : List Line) (inner : Stack),
    lines = Statement.sentence body ++ close.1 :: rest ∧
    Statement.walkAll table stack body = some inner ∧
    State.run? table ⟨inner, some m, lastText previous (Statement.sentence body)⟩
      (close.1 :: rest) = some final

theorem SplitsAtClose.cons {s : Statement} {stack next : Stack} {m : Method}
    {previous : Option Text} {lines : List Line} {final : State}
    (walked : s.walk table stack = some next)
    (later : SplitsAtClose table next m (lastText previous s.lines) lines final) :
    SplitsAtClose table stack m previous (s.lines ++ lines) final := by
  obtain ⟨body, close, rest, inner, rfl, walkedAll, run⟩ := later
  refine ⟨s :: body, close, rest, inner, by simp [Statement.sentence], ?_, ?_⟩
  · simp [Statement.walkAll, walked, walkedAll]
  · rwa [Statement.sentence, lastText_append]

theorem split_at_close {stack : Stack} {m : Method} {previous : Option Text} {final : State}
    (lines : List Line) (h : State.run? table ⟨stack, some m, previous⟩ lines = some final)
    (closed : final.method = none) : SplitsAtClose table stack m previous lines final := by
  match lines with
  | [] =>
      simp only [State.run?_nil, Option.some.injEq] at h
      subst h
      cases closed
  | l :: lines =>
      have whole := h
      rw [State.run?_cons, Option.bind_eq_some_iff] at h
      obtain ⟨next, taken, later⟩ := h
      have layout := State.layout_of_next? taken
      obtain ⟨noHeader, recognized⟩ := State.next?_inside taken
      cases kind : Kind.ofText l.text with
      | methodHeader => exact absurd kind noHeader
      | unrecognized => exact absurd kind recognized
      | blockClose => exact ⟨[], ⟨l, kind⟩, lines, stack, rfl, rfl, whole⟩
      | declaration =>
          rw [State.next?_declaration layout kind, Option.map_eq_some_iff] at taken
          obtain ⟨t, declared, rfl⟩ := taken
          exact .cons (s := .declaration ⟨l, kind⟩) declared (split_at_close lines later closed)
      | assignment =>
          rw [State.next?_assignment layout kind, Option.map_eq_some_iff] at taken
          obtain ⟨t, assigned, rfl⟩ := taken
          exact .cons (s := .assignment ⟨l, kind⟩) assigned (split_at_close lines later closed)
      | call =>
          rw [State.next?_call layout kind, Option.map_eq_some_iff] at taken
          obtain ⟨called, checked, rfl⟩ := taken
          exact .cons (s := .call ⟨l, kind⟩) (by simp [Statement.walk, checked])
            (split_at_close lines later closed)
      | returning =>
          rw [State.next?_return layout kind] at taken
          split at taken
          · rename_i returns
            cases taken
            exact .cons (s := .returning ⟨l, returns⟩) rfl (split_at_close lines later closed)
          · cases taken
      | conditionHeader =>
          rw [State.next?_conditionHeader layout kind, Option.map_eq_some_iff] at taken
          obtain ⟨block, checked, rfl⟩ := taken
          -- The rest splits at the brace of this block, and what follows it splits again.
          obtain ⟨body, close, rest, inner, split, walked, run⟩ := split_at_close lines later closed
          have shorter : rest.length < lines.length := by
            rw [split, List.length_append, List.length_cons]
            omega
          obtain ⟨c, outer, reduced, same⟩ :=
            Stack.pop?_of_frames (Statement.frames_walkAll body walked)
          rw [State.run?_cons, Option.bind_eq_some_iff] at run
          obtain ⟨next, closing, after⟩ := run
          rw [State.next?_blockClose (State.layout_of_next? closing) close.2 reduced same] at closing
          cases closing
          have whole : l :: lines = (Statement.block ⟨l, kind⟩ body close).lines ++ rest := by
            simp [Statement.lines, split]
          have block : (Statement.block ⟨l, kind⟩ body close).walk table stack = some outer := by
            simp [Statement.walk, checked, walked, reduced]
          rw [whole]
          refine .cons block ?_
          simpa [Statement.lines, lastText_append] using split_at_close rest after closed
termination_by lines.length
decreasing_by all_goals (simp only [List.length_cons]; omega)

theorem Statement.sentence_append (first second : List Statement) :
    Statement.sentence (first ++ second) =
      Statement.sentence first ++ Statement.sentence second := by
  induction first with
  | nil => simp [sentence]
  | cons s first ih => simp [sentence, ih]

theorem Statement.walkAll_append (env : Stack) (first second : List Statement) :
    Statement.walkAll table env (first ++ second) =
      (Statement.walkAll table env first).bind (Statement.walkAll table · second) := by
  induction first generalizing env with
  | nil => simp [walkAll]
  | cons s first ih => simp [walkAll, ih, Option.bind_assoc]

theorem Statement.returning_of_lastText {text : Text} {body : List Statement}
    (header : Kind.ofText text = .methodHeader)
    (h : (lastText (some text) (Statement.sentence body)).any Clause.isReturn = true) :
    ∃ first last, body = first ++ [.returning last] := by
  have other {t : Text} {kind : Kind} (same : Kind.ofText t = kind) (differs : kind ≠ .returning) :
      Clause.isReturn t = false := by
    rw [Bool.eq_false_iff]
    intro returns
    exact differs (same.symm.trans (Kind.ofText_of_isReturn returns))
  rcases List.eq_nil_or_concat' body with rfl | ⟨first, s, rfl⟩
  · simp [sentence, other header] at h
  · rw [Statement.sentence_append, lastText_append] at h
    cases s with
    | declaration l => simp [sentence, lines, other l.2] at h
    | assignment l => simp [sentence, lines, other l.2] at h
    | call l => simp [sentence, lines, other l.2] at h
    | returning l => exact ⟨first, l, rfl⟩
    | block header body close => simp [sentence, lines, lastText_append, other close.2] at h

theorem items_of_run? {stack : Stack} {previous : Option Text} {final : State} (lines : List Line)
    (known : table.Knows lines)
    (h : State.run? table ⟨stack, none, previous⟩ lines = some final)
    (closed : final.method = none) :
    ∃ items, Item.sentence items = lines ∧ Item.walkAll table stack items = some final.stack := by
  match lines with
  | [] =>
      simp only [State.run?_nil, Option.some.injEq] at h
      subst h
      exact ⟨[], rfl, rfl⟩
  | l :: lines =>
      rw [State.run?_cons, Option.bind_eq_some_iff] at h
      obtain ⟨next, taken, later⟩ := h
      have layout := State.layout_of_next? taken
      have rest := known.mono (List.subset_cons_self l lines)
      rcases State.next?_outside taken with kind | kind | kind
      · rw [State.next?_declaration layout kind, Option.map_eq_some_iff] at taken
        obtain ⟨t, declared, rfl⟩ := taken
        obtain ⟨items, sentence, walked⟩ := items_of_run? lines rest later closed
        refine ⟨.declaration ⟨l, kind⟩ :: items, by simp [← sentence, Item.sentence, Item.lines], ?_⟩
        simpa [Item.walkAll, Item.walk, declared] using walked
      · rw [State.next?_assignment layout kind, Option.map_eq_some_iff] at taken
        obtain ⟨t, assigned, rfl⟩ := taken
        obtain ⟨items, sentence, walked⟩ := items_of_run? lines rest later closed
        refine ⟨.assignment ⟨l, kind⟩ :: items, by simp [← sentence, Item.sentence, Item.lines], ?_⟩
        simpa [Item.walkAll, Item.walk, assigned] using walked
      · obtain ⟨m, declared, found⟩ := known l (by simp) (Kind.ofText_eq_methodHeader.1 kind)
        obtain ⟨scope, seeded, entered⟩ := State.enter_eq stack declared.1 found
        rw [State.next?_methodHeader layout kind entered] at taken
        cases taken
        obtain ⟨body, close, after, inner, split, walked, run⟩ := split_at_close lines later closed
        have shorter : after.length < lines.length := by
          rw [split, List.length_append, List.length_cons]
          omega
        obtain ⟨c, outer, reduced, same⟩ :=
          Stack.pop?_of_frames (Statement.frames_walkAll body walked)
        have notBlock : inner.current.kind ≠ .condition := by
          rw [same, Signature.kind_of_scope? seeded]
          decide
        -- The brace closes the method, so a return stands before it.
        rw [State.run?_cons, Option.bind_eq_some_iff] at run
        obtain ⟨next, closing, run⟩ := run
        rw [State.next?_methodClose (State.layout_of_next? closing) close.2 reduced notBlock] at closing
        split at closing
        · rename_i returned
          cases closing
          obtain ⟨first, last, rfl⟩ := Statement.returning_of_lastText kind returned
          have fewer : table.Knows after := rest.mono (by rw [split]; simp)
          obtain ⟨items, sentence, walkedItems⟩ := items_of_run? after fewer run closed
          refine ⟨.method ⟨l, kind⟩ first last close :: items, ?_, ?_⟩
          · simp [split, ← sentence, Item.sentence, Item.lines, Statement.sentence_append,
              Statement.sentence, Statement.lines]
          · have body : Statement.walkAll table (stack.push scope) first = some inner := by
              simpa [Statement.walkAll_append, Statement.walkAll, Statement.walk] using walked
            simpa [Item.walkAll, Item.walk, declared.1, seeded, body, reduced, Except.toOption] using walkedItems
        · cases closing
termination_by lines.length
decreasing_by all_goals (simp only [List.length_cons]; omega)

end

/-! ## The two verdicts -/

theorem Run.accepted_iff (lines : List Line) :
    (Run.ofLines lines).accepted = true ↔ (MethodTable.collect lines).failure = none ∧
      ∃ final, State.initial.run? (MethodTable.collect lines).state lines = some final ∧
        final.isClosed = true := by
  simp only [← State.success?_walk, Progress.success?_eq_some]
  unfold accepted failure? openEnd? ofLines state
  cases collected : (MethodTable.collect lines).failure with
  | some failure => simp [collected]
  | none =>
      simp only [collected]
      cases failed : (walk (MethodTable.collect lines).state State.initial lines).failure with
      | some failure => simp
      | none =>
          cases closed : (walk (MethodTable.collect lines).state State.initial lines).state.isClosed
          · simp [closed]
          · simp [closed]

theorem Item.frames_walkAll {table : MethodTable} {env after : Stack} {items : List Item}
    (h : Item.walkAll table env items = some after) : after.frames = env.frames := by
  induction items generalizing env with
  | nil =>
      simp only [walkAll, List.foldlM_nil, Option.pure_def, Option.some.injEq] at h
      rw [h]
  | cons item items ih =>
      simp only [walkAll, List.foldlM_cons, Option.bind_eq_bind, Option.bind_eq_some_iff] at h
      obtain ⟨next, first, later⟩ := h
      refine (ih later).trans ?_
      match item with
      | .declaration l => exact Binding.frames_declare (by simpa [walk] using first)
      | .assignment l => exact Binding.frames_assign (by simpa [walk] using first)
      | .method header body last close =>
          simp only [walk, Option.bind_eq_some_iff, Option.map_eq_some_iff] at first
          obtain ⟨_, -, scope, -, inner, walked, ⟨c, u⟩, popped, rfl⟩ := first
          exact (Stack.frames_of_pop? (Statement.frames_walkAll body walked) popped).2

/-- A program is accepted if and only if its signatures can be collected, every line has the layout
of one statement, and its lines by ascending number are the sentence of a tree that the walk accepts
from the empty global scope. -/
theorem accepted_iff_tree_walk (listing : Listing) :
    let lines := listing.ascending
    let collected := MethodTable.collect lines
    lines.Perm listing.lines ∧ lines.Pairwise (·.number < ·.number) ∧
    ((Run.ofListing listing).accepted = true ↔
      collected.failure = none ∧
      (∀ l ∈ listing.lines, Clause.checkLayout l.text = .ok ()) ∧
      ∃ items : List Item, Item.sentence items = lines ∧
        (Item.walkAll collected.state .initial items).isSome = true) := by
  intro lines collected
  refine ⟨listing.perm_ascending, listing.sorted_ascending, ?_⟩
  rw [Run.ofListing, Run.accepted_iff]
  constructor
  · rintro ⟨pass, final, run, closed⟩
    have outside : final.method = none := by
      simp only [State.isClosed, Bool.and_eq_true] at closed
      simpa using closed.1
    obtain ⟨items, sentence, walked⟩ :=
      items_of_run? lines (MethodTable.knows_collect pass) run outside
    refine ⟨pass, ?_, items, sentence, by rw [walked]; rfl⟩
    intro l member
    exact State.layout_of_run? run l (listing.perm_ascending.mem_iff.2 member)
  · rintro ⟨pass, layout, items, sentence, walked⟩
    obtain ⟨env, walked⟩ := Option.isSome_iff_exists.1 walked
    have known : collected.state.Knows (Item.sentence items) := by
      rw [sentence]
      exact MethodTable.knows_collect pass
    have each : ∀ l ∈ Item.sentence items, Clause.checkLayout l.text = .ok () := by
      intro l member
      rw [sentence] at member
      exact layout l (listing.perm_ascending.mem_iff.1 member)
    have run : State.initial.run? collected.state (Item.sentence items) =
        some ⟨env, none, lastText none (Item.sentence items)⟩ :=
      Item.run?_sentence items known each walked
    rw [sentence] at run
    refine ⟨pass, _, run, ?_⟩
    have depth : env.depth = 1 := by
      have same := congrArg List.length (Item.frames_walkAll walked)
      simpa [Stack.frames, Stack.depth, Stack.scopes, Stack.initial] using same
    simp [State.isClosed, depth]

end SJava
