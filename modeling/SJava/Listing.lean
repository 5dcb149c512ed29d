import SJava.Text.Blank

/-!
# Listings

A listing holds the code lines of a program by their numbers. A source text is cut into physical
lines at line feeds, carriage returns and pairs of both; they are numbered from 1, and comments and
blank lines are left out but counted.
-/

namespace SJava

structure Line where
  number : Int
  text : Text
deriving DecidableEq

namespace Source

/-- The text between line ends: a carriage return and a line feed together end one line. -/
def brokenAtLineEnds : Text → List Text
  | [] => [[]]
  | '\r' :: '\n' :: t => [] :: brokenAtLineEnds t
  | '\r' :: t => [] :: brokenAtLineEnds t
  | '\n' :: t => [] :: brokenAtLineEnds t
  | c :: t => Text.prepend c (brokenAtLineEnds t)

/-- The physical lines of a text. A line end at the very end opens no further line. -/
def physicalLines (t : Text) : List Text :=
  let lines := brokenAtLineEnds t
  if lines.getLast? = some [] then lines.dropLast else lines

/-- A comment starts in the first column; a blank line holds nothing but blanks. -/
def isSkipped (line : Text) : Bool := ['/', '/'].isPrefixOf line || line.all Text.isBlank

/-- The code lines among physical lines, of which the first has the number `n`. -/
def codeLinesFrom (n : Int) : List Text → List Line
  | [] => []
  | line :: rest =>
      if isSkipped line then codeLinesFrom (n + 1) rest
      else ⟨n, Text.trim line⟩ :: codeLinesFrom (n + 1) rest

theorem le_number_of_mem_codeLinesFrom {n : Int} {physical : List Text} {l : Line}
    (h : l ∈ codeLinesFrom n physical) : n ≤ l.number := by
  induction physical generalizing n with
  | nil => simp [codeLinesFrom] at h
  | cons line rest ih =>
      rw [codeLinesFrom] at h
      split at h
      · have := ih h
        omega
      · rcases List.mem_cons.1 h with rfl | h
        · exact Int.le_refl _
        · have := ih h
          omega

theorem nodup_codeLinesFrom (n : Int) (physical : List Text) :
    ((codeLinesFrom n physical).map Line.number).Nodup := by
  induction physical generalizing n with
  | nil => simp [codeLinesFrom]
  | cons line rest ih =>
      rw [codeLinesFrom]
      split
      · exact ih _
      · rw [List.map_cons, List.nodup_cons]
        refine ⟨fun h => ?_, ih _⟩
        obtain ⟨l, member, number⟩ := List.mem_map.1 h
        have := le_number_of_mem_codeLinesFrom member
        simp only at number
        omega

end Source

/-- Lines of code under distinct numbers, in the order in which they were given. -/
structure Listing where
  lines : List Line
  distinct : (lines.map Line.number).Nodup

namespace Listing

def ofText (t : Text) : Listing where
  lines := Source.codeLinesFrom 1 (Source.physicalLines t)
  distinct := Source.nodup_codeLinesFrom _ _

/-- Put a line under its number: in the place of the line that had the number, else at the end. -/
def put (l : Line) : List Line → List Line
  | [] => [l]
  | m :: ms => if m.number = l.number then l :: ms else m :: put l ms

theorem mem_number_put {n : Int} {l : Line} {ms : List Line} :
    n ∈ (put l ms).map Line.number ↔ n = l.number ∨ n ∈ ms.map Line.number := by
  induction ms with
  | nil => simp [put]
  | cons m ms ih =>
      rw [put]
      split
      · rename_i same
        simp [same]
      · simp only [List.map_cons, List.mem_cons, ih]
        exact or_left_comm

theorem nodup_put {l : Line} {ms : List Line} (h : (ms.map Line.number).Nodup) :
    ((put l ms).map Line.number).Nodup := by
  induction ms with
  | nil => simp [put]
  | cons m ms ih =>
      rw [List.map_cons, List.nodup_cons] at h
      rw [put]
      split
      · rename_i same
        rw [List.map_cons, List.nodup_cons, ← same]
        exact h
      · rename_i other
        rw [List.map_cons, List.nodup_cons, mem_number_put]
        exact ⟨fun member => member.elim other h.1, ih h.2⟩

def insert (l : Line) (listing : Listing) : Listing where
  lines := put l listing.lines
  distinct := nodup_put listing.distinct

/-- The listing of lines given one by one; of lines with the same number the last counts. -/
def ofLines (lines : List Line) : Listing :=
  lines.foldl (fun listing l => listing.insert l) ⟨[], List.nodup_nil⟩

/-- Put a line before the first one with a number that is not smaller. -/
def place (l : Line) : List Line → List Line
  | [] => [l]
  | m :: ms => if l.number ≤ m.number then l :: m :: ms else m :: place l ms

def ascending (listing : Listing) : List Line := listing.lines.foldr place []

end Listing

end SJava
