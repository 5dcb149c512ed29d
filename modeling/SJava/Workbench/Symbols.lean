import SJava.Text.Quoted
import SJava.Verify.Analysis

/-!
# Symbol tables

Symbols are listed in sections, one for each scope and one for the methods, and shown as the rows of
one table. A section may come from elsewhere: its cells hold any data and may be missing, and a
missing cell is shown as an empty one. The type of a symbol is always shown as text.
-/

namespace SJava.Workbench

inductive Cell where
  | none
  | flag (value : Bool)
  | number (value : Int)
  | text (value : Text)
  | list (items : List Cell)
  | record (fields : List (Text × Cell))
deriving Inhabited

namespace Cell

def blank : Cell := text []

def joined (parts : List Text) : Text := [',', ' '].intercalate parts

mutual

/-- A cell as it is written inside another one, where texts are quoted. -/
def written : Cell → Text
  | none => "None".toList
  | flag true => "True".toList
  | flag false => "False".toList
  | number n => (toString n).toList
  | text t => t.quoted
  | list items => '[' :: joined (writtenItems items) ++ [']']
  | record fields => '\x7b' :: joined (writtenFields fields) ++ ['\x7d']

def writtenItems : List Cell → List Text
  | [] => []
  | cell :: rest => written cell :: writtenItems rest

def writtenFields : List (Text × Cell) → List Text
  | [] => []
  | (name, cell) :: rest => (name.quoted ++ ':' :: ' ' :: written cell) :: writtenFields rest

end

def asText : Cell → Text
  | text t => t
  | cell => written cell

end Cell

structure Symbol where
  name : Option Cell
  kind : Option Cell
  type : Option Cell

structure SymbolSection where
  scope : Option Cell
  symbols : List Symbol

structure SymbolRow where
  scope : Cell
  name : Cell
  kind : Cell
  type : Text

def SymbolSection.rows (s : SymbolSection) : List SymbolRow :=
  s.symbols.map fun symbol =>
    { scope := s.scope.getD .blank
      name := symbol.name.getD .blank
      kind := symbol.kind.getD .blank
      type := (symbol.type.getD .blank).asText }

def symbolRows (sections : List SymbolSection) : List SymbolRow := sections.flatMap (·.rows)

def Symbol.ofTexts (name kind type : Text) : Symbol :=
  ⟨some (.text name), some (.text kind), some (.text type)⟩

def SymbolSection.ofScope (s : Scope) : SymbolSection where
  scope := some (.text s.title)
  symbols := s.vars.map fun v => .ofTexts v.name "var".toList v.type.word.toList

def SymbolSection.ofMethods (methods : List Method) : SymbolSection where
  scope := some (.text "METHODS".toList)
  symbols := methods.map fun m => .ofTexts m.name "method".toList m.written

/-- The sections of an analysis: the scopes from the outside in, then the methods. -/
def sections (a : Analysis) : List SymbolSection :=
  a.scopes.map .ofScope ++ [.ofMethods a.methods]

end SJava.Workbench
