import SJava.Text.Utf8
import SJava.Workbench.Sample
import SJava.Workbench.Symbols

/-!
# Sessions

The workbench is a page with a file upload, a choice of samples, an editor, and buttons to analyze
the program and to clear the console. Every action makes one visit to the page; the session lasts
from visit to visit. In a visit the upload comes first, then the sample, the editor, the clear
button and the analyze button.
-/

namespace SJava.Workbench

structure Upload where
  name : Text
  bytes : List UInt8

/-- What the elements of the page give back in one visit. Without an edit the editor gives back the text
that it was given to show. -/
structure Visit where
  upload : Option Upload
  choice : Text
  edit : Option Text
  clear : Bool
  analyze : Bool

structure Session where
  code : Text
  console : String
  analysis : Option Analysis
  sample : Option Text

def noSample : String := "(ninguno)"

def choices : List String := noSample :: samples.map Sample.name

def sample? (name : Text) : Option Sample := samples.find? fun s => s.name.toList == name

namespace Session

def initial : Session := ⟨firstProgram, "", none, none⟩

def say (s : Session) (line : String) : Session := { s with console := s.console ++ line ++ "\n" }

def upload (s : Session) : Option Upload → Session
  | none => s
  | some file =>
      { s with code := Utf8.decodeAny file.bytes }.say ("📄 Cargado: " ++ file.name.shown)

/-- Load the chosen sample, unless it was the last one loaded. -/
def choose (s : Session) (choice : Text) : Session :=
  if choice = noSample.toList ∨ s.sample = some choice then s
  else match sample? choice with
    | none => s
    | some sample =>
        { s with code := sample.code.toList, sample := some choice }.say
          ("📦 Ejemplo cargado: " ++ choice.shown)

def edit (s : Session) : Option Text → Session
  | none => s
  | some code => { s with code }

def clear (s : Session) (pressed : Bool) : Session :=
  if pressed then { s with console := "" } else s

def verdict (a : Analysis) (lines : Nat) : String :=
  match a.diagnostics with
  | [] => "✅ Verificación OK (" ++ toString lines ++ " líneas de código)."
  | d :: _ =>
      "❌ " ++ d.category.label ++ " error en línea " ++ toString d.line ++ ": " ++ d.message

def analyze (s : Session) (pressed : Bool) : Session :=
  if pressed then
    let listing := Listing.ofText s.code
    let analysis := Analysis.ofListing listing
    { s with analysis := some analysis }.say (verdict analysis listing.lines.length)
  else s

def visit (s : Session) (v : Visit) : Session :=
  ((((s.upload v.upload).choose v.choice).edit v.edit).clear v.clear).analyze v.analyze

def visits (s : Session) : List Visit → List Session
  | [] => []
  | v :: rest => s.visit v :: (s.visit v).visits rest

def output (s : Session) : String :=
  if s.console.isEmpty then "// La salida aparecerá aquí..." else s.console

end Session

inductive Panel (α : Type) where
  | hint (text : String)
  | success (text : String)
  | table (rows : List α)

def Session.diagnostics (s : Session) : Panel Diagnostic :=
  match s.analysis with
  | none => .hint "Ejecuta el análisis para ver los diagnósticos."
  | some a => if a.ok then .success "Sin errores." else .table a.diagnostics

def Session.symbols (s : Session) : Option (Panel SymbolRow) :=
  s.analysis.map fun a => .table (symbolRows (sections a))

end SJava.Workbench
