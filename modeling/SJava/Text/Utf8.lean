import SJava.Text.Quoted

/-!
# UTF-8

Reading UTF-8 strictly: no overlong forms, no surrogates, nothing above U+10FFFF. The first fault
ends the reading; it is the longest run of bytes that could have started a character, or one byte
that starts none.
-/

namespace SJava.Utf8

inductive Reason where
  | startByte
  | continuationByte
  | endOfData
deriving DecidableEq

structure Fault where
  position : Nat
  bytes : List UInt8
  reason : Reason
deriving DecidableEq

/-- A character of which some bytes are read: its code so far, how many bytes are still to come, the
least and the greatest next byte, and the bytes read. -/
structure Pending where
  code : Nat
  missing : Nat
  least : Nat
  greatest : Nat
  bytes : List UInt8

/-- The byte starts a character of several bytes. The range of the second byte rules out overlong
forms, surrogates and codes that are too large. -/
def lead? (b : UInt8) : Option Pending :=
  let n := b.toNat
  if 0xC2 ≤ n ∧ n ≤ 0xDF then some ⟨n - 0xC0, 1, 0x80, 0xBF, [b]⟩
  else if n = 0xE0 then some ⟨0, 2, 0xA0, 0xBF, [b]⟩
  else if n = 0xED then some ⟨0xD, 2, 0x80, 0x9F, [b]⟩
  else if 0xE1 ≤ n ∧ n ≤ 0xEF then some ⟨n - 0xE0, 2, 0x80, 0xBF, [b]⟩
  else if n = 0xF0 then some ⟨0, 3, 0x90, 0xBF, [b]⟩
  else if 0xF1 ≤ n ∧ n ≤ 0xF3 then some ⟨n - 0xF0, 3, 0x80, 0xBF, [b]⟩
  else if n = 0xF4 then some ⟨4, 3, 0x80, 0x8F, [b]⟩
  else none

/-- Read bytes, the first of which stands at `position`, with a character pending or not. -/
def decodeFrom (position : Nat) : Option Pending → List UInt8 → Except Fault Text
  | none, [] => .ok []
  | some p, [] => .error ⟨position - p.bytes.length, p.bytes, .endOfData⟩
  | none, b :: rest =>
      if b.toNat < 0x80 then
        (decodeFrom (position + 1) none rest).map (Char.ofNat b.toNat :: ·)
      else match lead? b with
        | some p => decodeFrom (position + 1) (some p) rest
        | none => .error ⟨position, [b], .startByte⟩
  | some p, b :: rest =>
      if p.least ≤ b.toNat && b.toNat ≤ p.greatest then
        let code := p.code * 0x40 + (b.toNat - 0x80)
        if p.missing ≤ 1 then (decodeFrom (position + 1) none rest).map (Char.ofNat code :: ·)
        else decodeFrom (position + 1) (some ⟨code, p.missing - 1, 0x80, 0xBF, p.bytes ++ [b]⟩) rest
      else .error ⟨position - p.bytes.length, p.bytes, .continuationByte⟩

def decode (bytes : List UInt8) : Except Fault Text := decodeFrom 0 none bytes

def encode (t : Text) : List UInt8 := t.flatMap String.utf8EncodeChar

def size (t : Text) : Nat := (encode t).length

def decodeBytewise (bytes : List UInt8) : Text := bytes.map fun b => Char.ofNat b.toNat

/-- The text of a file in either encoding: bytewise if it is not UTF-8. -/
def decodeAny (bytes : List UInt8) : Text :=
  match decode bytes with
  | .ok t => t
  | .error _ => decodeBytewise bytes

def Reason.message : Reason → String
  | startByte => "invalid start byte"
  | continuationByte => "invalid continuation byte"
  | endOfData => "unexpected end of data"

def Fault.place (f : Fault) : String :=
  match f.bytes with
  | [b] => "byte 0x" ++ (Text.hex 2 b.toNat).shown ++ " in position " ++ toString f.position
  | bytes =>
      "bytes in position " ++ toString f.position ++ "-" ++
        toString (f.position + bytes.length - 1)

def Fault.message (f : Fault) : String :=
  "'utf-8' codec can't decode " ++ f.place ++ ": " ++ f.reason.message

end SJava.Utf8
