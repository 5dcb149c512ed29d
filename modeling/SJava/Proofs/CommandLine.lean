import SJava.CommandLine.Basic
import SJava.Proofs.Source
import SJava.Proofs.Text.Utf8
import SJava.Workbench.Session

namespace SJava

open CommandLine (unifyLineEnds)

namespace Source

theorem broken_unifyLineEnds (t : Text) :
    brokenAtLineEnds (unifyLineEnds t) = brokenAtLineEnds t := by
  fun_induction unifyLineEnds t with
  | case1 => rfl
  | case2 t ih =>
      rw [brokenAtLineEnds, brokenAtLineEnds, ih]
  | case3 t apart ih =>
      have alone : t.head? ≠ some '\n' := by
        intro feed
        obtain ⟨rest, same⟩ := List.head?_eq_some_iff.1 feed
        exact apart rest same
      rw [broken_return alone, brokenAtLineEnds, ih]
  | case4 c t _ ret ih =>
      by_cases feed : c = '\n'
      · rw [feed, brokenAtLineEnds, brokenAtLineEnds, ih]
      · rw [broken_cons feed ret, broken_cons feed ret, ih]

end Source

theorem Listing.ofText_unifyLineEnds (t : Text) : ofText (unifyLineEnds t) = ofText t := by
  have same : Source.physicalLines (unifyLineEnds t) = Source.physicalLines t := by
    rw [Source.physicalLines_eq, Source.physicalLines_eq, Source.broken_unifyLineEnds]
  simp only [ofText, same]

theorem Event.log_warning (events : List Event) : log .warning events = "" := by
  have none : events.filter (fun e => Severity.warning.rank ≤ e.severity.rank) = [] := by
    rw [List.filter_eq_nil_iff]
    intro e _
    cases e <;> simp [severity, Severity.rank]
  rw [log, none]
  rfl

theorem Failure.render_report (f : Failure) :
    f.report.render =
      f.violation.category.label ++ " error in line " ++ toString f.line ++ " -> " ++
        f.violation.message := rfl

namespace CommandLine

variable {read : Path → Except ReadFault (List UInt8)} {path : Text} {bytes : List UInt8}

theorem load_of_encode {t : Text} (readable : read (.ofText path) = .ok (Utf8.encode t)) :
    load read path = .ok (.ofText t) := by
  rw [load, readable]
  show (Utf8.decode (Utf8.encode t)).mapError Refusal.undecodable >>= _ = _
  rw [Utf8.decode_eq_ok.2 rfl, ← Listing.ofText_unifyLineEnds]
  rfl

theorem load_of_undecodable {fault : Utf8.Fault} (readable : read (.ofText path) = .ok bytes)
    (undecodable : Utf8.decode bytes = .error fault) :
    load read path = .error (.undecodable fault) := by
  rw [load, readable]
  show (Utf8.decode bytes).mapError Refusal.undecodable >>= _ = _
  rw [undecodable]
  rfl

theorem loaded_of_named (named : extension.isSuffixOf path = true) :
    (target [path] >>= fun path => (load read path).map (path, ·)) =
      (load read path).map (path, ·) := by
  rw [target, if_pos named]
  rfl

theorem run_of_load {listing : Listing} (named : extension.isSuffixOf path = true)
    (loaded : load read path = .ok listing) (level : Option Text) :
    run read level [path] = verify (.threshold level) path listing := by
  rw [run, loaded_of_named named, loaded]
  rfl

theorem run_of_refusal {refusal : Refusal} (named : extension.isSuffixOf path = true)
    (refused : load read path = .error refusal) (level : Option Text) :
    run read level [path] = ⟨2, "", refusal.message⟩ := by
  rw [run, loaded_of_named named, refused]
  rfl

theorem stdout_run (level : Option Text) (args : List Text) : (run read level args).stdout = "" := by
  rw [run]
  split
  · rfl
  · rename_i listing _
    cases failure : (Run.ofListing listing).failure? <;> simp [verify, failure]

theorem verify_warning (path : Text) (listing : Listing) :
    verify .warning path listing = match (Run.ofListing listing).failure? with
      | none => ⟨0, "", ""⟩
      | some failure => ⟨1, "", failure.report.render ++ "\n"⟩ := by
  rw [verify]
  simp only [Event.log_warning]
  cases (Run.ofListing listing).failure? with
  | none => rfl
  | some failure => simp

end CommandLine

namespace Workbench

def Visit.analyzing (file : Upload) : Visit := ⟨some file, noSample.toList, none, false, true⟩

theorem Session.analysis_visit (s : Session) (file : Upload) :
    (s.visit (.analyzing file)).analysis = some (.ofText (Utf8.decodeAny file.bytes)) := by
  simp [visit, Visit.analyzing, upload, choose, edit, clear, analyze, say, Analysis.ofText]

end Workbench

open CommandLine Workbench in
/-- The command and the workbench give the same verdict on the bytes of a file that is UTF-8, and the
command prints what the workbench lists. Any other file is refused before anything is verified: there
is not even a log, at any level. -/
theorem command_agrees_with_workbench (read : Path → Except ReadFault (List UInt8)) (path : Text)
    (bytes : List UInt8) (named : extension.isSuffixOf path = true)
    (readable : read (.ofText path) = .ok bytes) :
    let outcome := CommandLine.run read none [path]
    let analysis := Analysis.ofText (Utf8.decodeAny bytes)
    (∀ (session : Session) (name : Text),
      (session.visit (.analyzing ⟨name, bytes⟩)).analysis = some analysis) ∧
    outcome.stdout = "" ∧
    ((∃ t, bytes = Utf8.encode t) →
      (outcome.exit = 0 ∧ outcome.stderr = "" ↔ analysis.ok = true) ∧
      (analysis.ok = false → ∃ d, analysis.diagnostics = [d] ∧ outcome.exit = 1 ∧
        outcome.stderr =
          d.category.label ++ " error in line " ++ toString d.line ++ " -> " ++ d.message ++ "\n")) ∧
    ((¬∃ t, bytes = Utf8.encode t) → ∃ fault, Utf8.decode bytes = .error fault ∧
      ∀ level, CommandLine.run read level [path] = ⟨2, "", (Refusal.undecodable fault).message⟩) := by
  intro outcome analysis
  refine ⟨fun session name => session.analysis_visit ⟨name, bytes⟩, stdout_run none [path], ?_, ?_⟩
  · rintro ⟨t, encoded⟩
    have text : Utf8.decodeAny bytes = t := by
      rw [Utf8.decodeAny, Utf8.decode_eq_ok.2 encoded]
    have ran : outcome = verify .warning path (.ofText t) :=
      run_of_load named (load_of_encode (encoded ▸ readable)) none
    have listed : analysis.diagnostics = _ := Analysis.diagnostics_ofRun _
    rw [text] at listed
    rw [verify_warning] at ran
    rw [Analysis.ok, listed, ran]
    cases (Run.ofListing (.ofText t)).failure? with
    | none => simp
    | some f => simp [f.render_report]
  · intro other
    cases decoded : Utf8.decode bytes with
    | ok t => exact absurd ⟨t, Utf8.decode_eq_ok.1 decoded⟩ other
    | error fault =>
        exact ⟨fault, rfl, run_of_refusal named (load_of_undecodable readable decoded)⟩

namespace CommandLine

def strayClose : List UInt8 := Utf8.encode "char c = 'ö';\r\x7d\r".toList

theorem strayClose_judged_alike :
    let outcome := run (fun _ => .ok strayClose) none ["stray.sjava".toList]
    let analysis := Analysis.ofText (Utf8.decodeAny strayClose)
    extension.isSuffixOf "stray.sjava".toList = true ∧ analysis.ok = false ∧
    ∃ d, analysis.diagnostics = [d] ∧ outcome.exit = 1 ∧
      outcome.stderr =
        d.category.label ++ " error in line " ++ toString d.line ++ " -> " ++ d.message ++ "\n" := by
  have named : extension.isSuffixOf "stray.sjava".toList = true := by decide
  have refused : (Analysis.ofText (Utf8.decodeAny strayClose)).ok = false := by rfl
  obtain ⟨-, -, encoded, -⟩ := command_agrees_with_workbench (fun _ => .ok strayClose)
    "stray.sjava".toList strayClose named rfl
  exact ⟨named, refused, (encoded ⟨_, rfl⟩).2 refused⟩

end CommandLine

end SJava
