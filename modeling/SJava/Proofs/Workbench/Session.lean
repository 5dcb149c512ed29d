import Mathlib.Data.List.Induction
import SJava.Workbench.Session

namespace SJava.Workbench

/-! ## One visit -/

def printed : List String → String
  | [] => ""
  | line :: rest => line ++ "\n" ++ printed rest

theorem printed_append (lines rest : List String) :
    printed (lines ++ rest) = printed lines ++ printed rest := by
  induction lines with
  | nil => simp [printed]
  | cons line lines ih => simp [printed, ih, String.append_assoc]

namespace Upload

def text (file : Upload) : Text := Utf8.decodeAny file.bytes

def notice (file : Upload) : String := "📄 Cargado: " ++ file.name.shown

end Upload

def Sample.notice (sample : Sample) : String := "📦 Ejemplo cargado: " ++ sample.name

namespace Visit

def sampleName? (v : Visit) : Option Text := (sample? v.choice).map fun _ => v.choice

def newSample? (loaded : Option Text) (v : Visit) : Option Sample :=
  if loaded = some v.choice then none else sample? v.choice

/-- The program that a visit gives: an edit comes before a new sample, and that before an upload. -/
def program? (loaded : Option Text) (v : Visit) : Option Text :=
  v.edit.or (((v.newSample? loaded).map (·.code.toList)).or (v.upload.map Upload.text))

def loadLines (loaded : Option Text) (v : Visit) : List String :=
  (v.upload.map Upload.notice).toList ++ ((v.newSample? loaded).map Sample.notice).toList

def verdictLines (code : Text) (v : Visit) : List String :=
  if v.analyze then [Session.verdict (.ofText code) (Listing.ofText code).lines.length] else []

end Visit

theorem sample?_noSample : sample? noSample.toList = none := by
  have others : samples.all (·.name != noSample) = true := by decide
  refine List.find?_eq_none.2 ?_
  intro sample member same
  have named : sample.name = noSample := String.toList_inj.1 (beq_iff_eq.1 same)
  simpa [named] using List.all_eq_true.1 others sample member

theorem name_of_sample? {choice : Text} {sample : Sample} (chosen : sample? choice = some sample) :
    sample.name = choice.shown := by
  have same := List.find?_some chosen
  rw [← beq_iff_eq.1 same, Text.shown, String.ofList_toList]

namespace Session

theorem say_eq (s : Session) (line : String) :
    s.say line = { s with console := s.console ++ printed [line] } := by
  simp [say, printed, String.append_assoc]

theorem upload_eq (s : Session) (file? : Option Upload) :
    s.upload file? =
      { s with
        code := (file?.map Upload.text).getD s.code
        console := s.console ++ printed (file?.map Upload.notice).toList } := by
  cases file? with
  | none => simp [upload, printed]
  | some file => exact say_eq _ file.notice

theorem choose_eq (s : Session) (v : Visit) :
    s.choose v.choice =
      { s with
        code := ((v.newSample? s.sample).map (·.code.toList)).getD s.code
        console := s.console ++ printed ((v.newSample? s.sample).map Sample.notice).toList
        sample := v.sampleName?.or s.sample } := by
  unfold choose Visit.newSample? Visit.sampleName?
  obtain ⟨code, console, analysis, last⟩ := s
  by_cases loaded : last = some v.choice
  · subst loaded
    rw [if_pos (.inr rfl), if_pos rfl]
    cases sample? v.choice <;> simp [printed]
  · rw [if_neg loaded]
    cases chosen : sample? v.choice with
    | none =>
        rw [ite_self]
        simp [printed]
    | some sample =>
        have other : v.choice ≠ noSample.toList := by
          intro same
          rw [same, sample?_noSample] at chosen
          cases chosen
        rw [if_neg (not_or.2 ⟨other, loaded⟩), ← name_of_sample? chosen]
        exact say_eq _ sample.notice

theorem edit_eq (s : Session) (code? : Option Text) :
    s.edit code? = { s with code := code?.getD s.code } := by
  cases code? <;> rfl

theorem clear_eq (s : Session) (pressed : Bool) :
    s.clear pressed = { s with console := if pressed then "" else s.console } := by
  cases pressed <;> rfl

theorem analyze_eq (s : Session) (v : Visit) :
    s.analyze v.analyze =
      { s with
        analysis := if v.analyze then some (.ofText s.code) else s.analysis
        console := s.console ++ printed (v.verdictLines s.code) } := by
  unfold analyze Visit.verdictLines
  cases v.analyze with
  | false => simp [printed]
  | true => exact say_eq _ _

theorem visit_eq (s : Session) (v : Visit) :
    s.visit v =
      { code := (v.program? s.sample).getD s.code
        console :=
          (if v.clear then "" else s.console ++ printed (v.loadLines s.sample)) ++
            printed (v.verdictLines ((v.program? s.sample).getD s.code))
        analysis :=
          if v.analyze then some (.ofText ((v.program? s.sample).getD s.code)) else s.analysis
        sample := v.sampleName?.or s.sample } := by
  have program : (v.program? s.sample).getD s.code =
      v.edit.getD (((v.newSample? s.sample).map (·.code.toList)).getD
        ((v.upload.map Upload.text).getD s.code)) := by
    rw [Visit.program?, Option.getD_or, Option.getD_or]
  rw [visit, upload_eq, choose_eq, edit_eq, clear_eq, analyze_eq, program, Visit.loadLines,
    printed_append, String.append_assoc]

/-! ## All visits -/

def after (visits : List Visit) : Session := visits.foldl visit initial

theorem after_concat (past : List Visit) (v : Visit) :
    after (past ++ [v]) = (after past).visit v := by
  simp [after]

theorem getElem?_visits (s : Session) (past later : List Visit) (v : Visit) :
    (s.visits (past ++ v :: later))[past.length]? = some ((past ++ [v]).foldl visit s) := by
  induction past generalizing s with
  | nil => rfl
  | cons w past ih => exact ih (s.visit w)

/-- The sample chosen last. If it was chosen twice on end it was loaded only once, but it is still
the one that was loaded last. -/
def lastSample? (past : List Visit) : Option Text := (past.filterMap Visit.sampleName?).getLast?

theorem sample_after (past : List Visit) : (after past).sample = lastSample? past := by
  induction past using List.reverseRecOn with
  | nil => rfl
  | append_singleton past v ih =>
      rw [after_concat, visit_eq, ih, lastSample?, lastSample?, List.filterMap_append,
        List.getLast?_append]
      cases named : v.sampleName? <;> simp [named]

theorem code_after_concat (past : List Visit) (v : Visit) :
    (after (past ++ [v])).code = (v.program? (lastSample? past)).getD (after past).code := by
  rw [after_concat, visit_eq, sample_after]

theorem analysis_after_concat (past : List Visit) (v : Visit) :
    (after (past ++ [v])).analysis =
      if v.analyze then some (.ofText (after (past ++ [v])).code) else (after past).analysis := by
  rw [after_concat, visit_eq]

theorem analysis_after_append {later : List Visit} (unpressed : ∀ w ∈ later, w.analyze = false)
    (past : List Visit) : (after (past ++ later)).analysis = (after past).analysis := by
  induction later generalizing past with
  | nil => rw [List.append_nil]
  | cons w later ih =>
      obtain ⟨first, others⟩ := List.forall_mem_cons.1 unpressed
      rw [List.append_cons, ih others, analysis_after_concat, first]
      rfl

def linesAfter (past : List Visit) : List Visit → List String
  | [] => []
  | v :: later =>
      v.loadLines (lastSample? past) ++ v.verdictLines (after (past ++ [v])).code ++
        linesAfter (past ++ [v]) later

theorem console_after_concat (past : List Visit) (v : Visit) :
    (after (past ++ [v])).console =
      (if v.clear then "" else (after past).console ++ printed (v.loadLines (lastSample? past))) ++
        printed (v.verdictLines (after (past ++ [v])).code) := by
  rw [after_concat, visit_eq, sample_after]

theorem console_after_append {later : List Visit} (unpressed : ∀ w ∈ later, w.clear = false)
    (past : List Visit) :
    (after (past ++ later)).console = (after past).console ++ printed (linesAfter past later) := by
  induction later generalizing past with
  | nil => simp [linesAfter, printed]
  | cons w later ih =>
      obtain ⟨first, others⟩ := List.forall_mem_cons.1 unpressed
      rw [List.append_cons, ih others, console_after_concat, first, linesAfter, printed_append,
        printed_append]
      simp only [Bool.false_eq_true, ↓reduceIte, String.append_assoc]

end Session

/-- The last of the visits in which the button is pressed, between those before and after it. -/
def IsLatest (button : Visit → Bool) (visits before : List Visit) (v : Visit) (later : List Visit) :
    Prop :=
  visits = before ++ v :: later ∧ button v = true ∧ ∀ w ∈ later, button w = false

theorem never_or_latest (button : Visit → Bool) (visits : List Visit) :
    (∀ w ∈ visits, button w = false) ∨ ∃ before v later, IsLatest button visits before v later := by
  induction visits with
  | nil => exact .inl (by simp)
  | cons w visits ih =>
      rcases ih with never | ⟨before, v, later, rfl, pressed, unpressed⟩
      · cases first : button w with
        | false => exact .inl (List.forall_mem_cons.2 ⟨first, never⟩)
        | true => exact .inr ⟨[], w, visits, rfl, first, never⟩
      · exact .inr ⟨w :: before, v, later, rfl, pressed, unpressed⟩

/-- Whatever happens in the visits, after each of them the session holds the program that the visit
gave, or else the program before it; the analysis of what the program was at the end of the latest
visit with the analyze button; and on its console the lines since the latest visit with the clear
button, of that visit only the verdict. -/
theorem session_told_by_history (past : List Visit) (v : Visit) (rest : List Visit) :
    ∃ s, (Session.initial.visits (past ++ v :: rest))[past.length]? = some s ∧
      s.code = (v.program? (Session.lastSample? past)).getD (Session.after past).code ∧
      s.sample = Session.lastSample? (past ++ [v]) ∧
      ((∀ w ∈ past ++ [v], w.analyze = false) ∧ s.analysis = none ∨
        ∃ before w later, IsLatest Visit.analyze (past ++ [v]) before w later ∧
          s.analysis = some (.ofText (Session.after (before ++ [w])).code)) ∧
      ((∀ w ∈ past ++ [v], w.clear = false) ∧
          s.console = printed (Session.linesAfter [] (past ++ [v])) ∨
        ∃ before w later, IsLatest Visit.clear (past ++ [v]) before w later ∧
          s.console = printed (w.verdictLines (Session.after (before ++ [w])).code ++
            Session.linesAfter (before ++ [w]) later)) := by
  refine ⟨Session.after (past ++ [v]), Session.getElem?_visits _ past rest v,
    Session.code_after_concat past v, Session.sample_after _, ?_, ?_⟩
  · generalize past ++ [v] = visits
    refine (never_or_latest Visit.analyze visits).imp ?_ ?_
    · intro never
      exact ⟨never, Session.analysis_after_append never []⟩
    · rintro ⟨before, w, later, latest⟩
      refine ⟨before, w, later, latest, ?_⟩
      obtain ⟨rfl, pressed, unpressed⟩ := latest
      rw [List.append_cons, Session.analysis_after_append unpressed,
        Session.analysis_after_concat, if_pos pressed]
  · generalize past ++ [v] = visits
    refine (never_or_latest Visit.clear visits).imp ?_ ?_
    · intro never
      refine ⟨never, ?_⟩
      have lines := Session.console_after_append never []
      exact lines.trans String.empty_append
    · rintro ⟨before, w, later, latest⟩
      refine ⟨before, w, later, latest, ?_⟩
      obtain ⟨rfl, pressed, unpressed⟩ := latest
      rw [List.append_cons, Session.console_after_append unpressed,
        Session.console_after_concat, if_pos pressed, printed_append, String.empty_append]

/-! ## The program in the editor -/

/-- The analyze button is pressed in the visit after `r`: the upload and the choice are still there,
and the editor is left alone. -/
def Visit.again (clear : Bool) (r : Visit) : Visit :=
  { r with edit := none, clear, analyze := true }

theorem Visit.newSample?_again (clear : Bool) (r : Visit) (loaded : Option Text) :
    (r.again clear).newSample? (r.sampleName?.or loaded) = none := by
  show (if r.sampleName?.or loaded = some r.choice then none else sample? r.choice) = none
  cases chosen : sample? r.choice with
  | none => exact ite_self none
  | some sample => simp [sampleName?, chosen]

theorem Session.code_after_again (past : List Visit) (r : Visit) (clear : Bool) :
    (after (past ++ [r, r.again clear])).code =
      (r.upload.map Upload.text).getD (after (past ++ [r])).code := by
  have sample : (after (past ++ [r])).sample = r.sampleName?.or (after past).sample := by
    rw [after_concat, visit_eq]
  rw [List.append_cons, after_concat, visit_eq, Visit.program?, sample, Visit.newSample?_again]
  rfl

/-- The visit that analyzes a program loads no sample again, but it does load the upload again, and
analyzes what it then has. So what was in the editor stays there and is analyzed exactly if there is
no upload, or if the editor held the text of the upload. -/
theorem editor_analyzed_iff (past : List Visit) (r : Visit) (clear : Bool) :
    (Session.after (past ++ [r, r.again clear])).code =
        (r.upload.map Upload.text).getD (Session.after (past ++ [r])).code ∧
      (Session.after (past ++ [r, r.again clear])).analysis =
        some (.ofText (Session.after (past ++ [r, r.again clear])).code) ∧
      ((Session.after (past ++ [r, r.again clear])).code = (Session.after (past ++ [r])).code ∧
          (Session.after (past ++ [r, r.again clear])).analysis =
            some (.ofText (Session.after (past ++ [r])).code) ↔
        ∀ file ∈ r.upload, file.text = (Session.after (past ++ [r])).code) := by
  have code := Session.code_after_again past r clear
  have analysis : (Session.after (past ++ [r, r.again clear])).analysis =
      some (.ofText (Session.after (past ++ [r, r.again clear])).code) := by
    rw [List.append_cons, Session.analysis_after_concat]
    rfl
  refine ⟨code, analysis, ?_⟩
  constructor
  · rintro ⟨kept, -⟩ file uploaded
    rw [← kept, code, Option.mem_def.1 uploaded]
    rfl
  · intro same
    have kept : (Session.after (past ++ [r, r.again clear])).code =
        (Session.after (past ++ [r])).code := by
      rw [code]
      cases uploaded : r.upload with
      | none => rfl
      | some file => exact same file uploaded
    exact ⟨kept, kept ▸ analysis⟩

/-- A faulty sample is chosen while a faultless file is uploaded. -/
def overruled : Visit where
  upload := some ⟨"a.sjava".toList, Utf8.encode "int a = 1;\n".toList⟩
  choice := Sample.withoutReturn.name.toList
  edit := none
  clear := false
  analyze := false

theorem overruled_not_analyzed :
    (Session.after [overruled, overruled.again false]).code ≠ (Session.after [overruled]).code ∧
      (Analysis.ofText (Session.after [overruled]).code).ok = false ∧
      (Session.after [overruled, overruled.again false]).analysis.map Analysis.ok = some true := by
  decide

end SJava.Workbench
