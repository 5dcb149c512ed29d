import SJava.CommandLine.Path

/-!
# Disks

A directory with files and directories in it, held in memory. A path is followed part by part. The
directories outside exist, but nothing is known of what they hold. A path that is too long as a
whole is not followed at all; a part that is too long is refused in the directory where it is looked
up.
-/

namespace SJava

inductive ReadFault where
  | missing
  | isDirectory
  | notDirectory
  | nameTooLong
  | other (code : Nat) (reason : String)
deriving DecidableEq

namespace ReadFault

def code : ReadFault → Nat
  | missing => 2
  | notDirectory => 20
  | isDirectory => 21
  | nameTooLong => 36
  | other code _ => code

def reason : ReadFault → String
  | missing => "No such file or directory"
  | notDirectory => "Not a directory"
  | isDirectory => "Is a directory"
  | nameTooLong => "File name too long"
  | other _ reason => reason

end ReadFault

inductive Node where
  | file (bytes : List UInt8)
  | directory

structure Disk where
  entries : List (List Text × Node)

namespace Disk

/-- What stands at a place, where `none` is any place outside. The parts of a longer place lead
through directories. -/
def node? (disk : Disk) : Option (List Text) → Option Node
  | none | some [] => some .directory
  | some place => match disk.entries.find? (·.1 == place) with
      | some (_, node) => some node
      | none => if disk.entries.any (place.isPrefixOf ·.1) then some .directory else none

def above : Option (List Text) → Option (List Text)
  | none | some [] => none
  | some place => some place.dropLast

def follow (disk : Disk) : Option (List Text) → List Text → Except ReadFault (List UInt8)
  | place, [] => match disk.node? place with
      | some (.file bytes) => .ok bytes
      | some .directory => .error .isDirectory
      | none => .error .missing
  | place, part :: parts => match disk.node? place with
      | some (.file _) => .error .notDirectory
      | none => .error .missing
      | some .directory =>
          if part = Path.up then disk.follow (above place) parts
          else if Path.longestPart < Utf8.size part then .error .nameTooLong
          else match place with
            | none => .error .missing
            | some here => disk.follow (some (here ++ [part])) parts

def read (disk : Disk) (p : Path) : Except ReadFault (List UInt8) :=
  if Path.longest < Utf8.size p.toText then .error .nameTooLong
  else disk.follow (if p.root = [] then some [] else none) p.parts

end Disk

end SJava
