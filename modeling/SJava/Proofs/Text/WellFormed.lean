import Mathlib.Data.List.Basic
import Mathlib.Tactic.MkIffOfInductiveProp
import SJava.Proofs.Text.Utf8

/-!
# Well-formed UTF-8

A character is a lead byte and as many continuation bytes as its form asks for. Some bits of each byte
are marks; the others, in a row, are the code. Bytes are well-formed if they are one character after
another, none of them longer than its code needs, none of them a surrogate or above U+10FFFF.

The decoder goes by ranges of second bytes instead, and accepts the same bytes (`exists_decode_iff`). So
the bytes of a file can be told from its text and the encoding in which it was read.
-/

namespace SJava.Utf8

inductive Form where
  | one
  | two
  | three
  | four

namespace Form

/-- The least lead byte: the marked bits are set, those of the code are not. -/
def mark : Form → Nat
  | one => 0x00
  | two => 0xC0
  | three => 0xE0
  | four => 0xF0

def leads : Form → Nat
  | one => 0x80
  | two => 0x20
  | three => 0x10
  | four => 0x08

def continuations : Form → Nat
  | one => 0
  | two => 1
  | three => 2
  | four => 3

/-- The least code that does not fit into fewer bytes. -/
def least : Form → Nat
  | one => 0
  | two => 0x80
  | three => 0x800
  | four => 0x10000

end Form

def IsContinuation (b : UInt8) : Prop := 0x80 ≤ b.toNat ∧ b.toNat < 0xC0

/-- The lower six bits of a continuation byte are the next ones of the code. -/
def addBits (code : Nat) (b : UInt8) : Nat := code * 0x40 + b.toNat % 0x40

@[mk_iff]
structure Form.IsCharacter (f : Form) (b : UInt8) (tail : List UInt8) (n : Nat) : Prop where
  marked : f.mark ≤ b.toNat ∧ b.toNat < f.mark + f.leads
  length : tail.length = f.continuations
  continued : ∀ x ∈ tail, IsContinuation x
  code : tail.foldl addBits (b.toNat - f.mark) = n
  shortest : f.least ≤ n
  noSurrogate : ¬(0xD800 ≤ n ∧ n ≤ 0xDFFF)
  inRange : n ≤ 0x10FFFF

/-- The bytes are characters with these codes. -/
inductive Spells : List UInt8 → List Nat → Prop where
  | nil : Spells [] []
  | char {f : Form} {b : UInt8} {tail rest : List UInt8} {n : Nat} {codes : List Nat}
      (first : f.IsCharacter b tail n) (later : Spells rest codes) :
      Spells (b :: tail ++ rest) (n :: codes)

def WellFormed (bytes : List UInt8) : Prop := ∃ codes, Spells bytes codes

/-! ## Characters and codes -/

namespace Form

variable {f : Form} {b : UInt8} {tail : List UInt8} {n : Nat}

theorem isCharacter_iff_codeBytes (length : tail.length = f.continuations) :
    f.IsCharacter b tail n ↔ n.isValidChar ∧ codeBytes n = b.toNat :: tail.map UInt8.toNat := by
  have shape : f = one ∧ tail = [] ∨ (∃ x, f = two ∧ tail = [x]) ∨
      (∃ x y, f = three ∧ tail = [x, y]) ∨ ∃ x y z, f = four ∧ tail = [x, y, z] := by
    cases f with
    | one => simpa using List.length_eq_zero_iff.1 length
    | two => simpa using List.length_eq_one_iff.1 length
    | three => simpa using List.length_eq_two.1 length
    | four => simpa using List.length_eq_three.1 length
  -- Once the bytes of the tail are named, both sides are linear in them and their low bits.
  rcases shape with ⟨rfl, rfl⟩ | ⟨x, rfl, rfl⟩ | ⟨x, y, rfl, rfl⟩ | ⟨x, y, z, rfl, rfl⟩
  all_goals
    simp only [isCharacter_iff, length, mark, leads, least, IsContinuation, addBits,
      List.forall_mem_cons, List.not_mem_nil, false_implies, implies_true, List.foldl_cons,
      List.foldl_nil, Nat.isValidChar, List.map_cons, List.map_nil, codeBytes_one, codeBytes_two,
      codeBytes_three, codeBytes_four, true_and, and_true]
    omega

theorem exists_length_codeBytes (n : Nat) :
    ∃ f : Form, (codeBytes n).length = f.continuations + 1 := by
  rw [codeBytes]
  repeat' split
  exacts [⟨one, rfl⟩, ⟨two, rfl⟩, ⟨three, rfl⟩, ⟨four, rfl⟩]

theorem exists_isCharacter_iff :
    (∃ f : Form, f.IsCharacter b tail n) ↔
      n.isValidChar ∧ codeBytes n = b.toNat :: tail.map UInt8.toNat := by
  constructor
  · rintro ⟨f, char⟩
    exact (isCharacter_iff_codeBytes char.length).1 char
  · rintro ⟨valid, bytes⟩
    obtain ⟨f, length⟩ := exists_length_codeBytes n
    rw [bytes, List.length_cons, List.length_map, Nat.add_right_cancel_iff] at length
    exact ⟨f, (isCharacter_iff_codeBytes length).2 ⟨valid, bytes⟩⟩

end Form

theorem exists_isCharacter_encodeChar (c : Char) :
    ∃ (f : Form) (b : UInt8) (tail : List UInt8),
      String.utf8EncodeChar c = b :: tail ∧ f.IsCharacter b tail c.toNat := by
  match bytes : String.utf8EncodeChar c with
  | [] => exact absurd bytes (by simp)
  | b :: tail =>
      obtain ⟨f, char⟩ := Form.exists_isCharacter_iff.2 ⟨c.valid, encodeChar_eq.1 bytes⟩
      exact ⟨f, b, tail, rfl, char⟩

theorem encodeChar_of_isCharacter {f : Form} {b : UInt8} {tail : List UInt8} {n : Nat}
    (char : f.IsCharacter b tail n) : String.utf8EncodeChar (Char.ofNat n) = b :: tail := by
  obtain ⟨valid, codes⟩ := Form.exists_isCharacter_iff.1 ⟨f, char⟩
  exact (encodeChar_ofNat valid).2 codes

/-! ## Texts -/

theorem spells_encode (t : Text) : Spells (encode t) (t.map Char.toNat) := by
  induction t with
  | nil => exact .nil
  | cons c t ih =>
      obtain ⟨f, b, tail, bytes, char⟩ := exists_isCharacter_encodeChar c
      rw [encode, List.flatMap_cons, ← encode, bytes]
      exact .char char ih

theorem eq_encode_of_spells {bytes : List UInt8} {codes : List Nat} (spells : Spells bytes codes) :
    bytes = encode (codes.map Char.ofNat) := by
  induction spells with
  | nil => rfl
  | char first later ih =>
      rw [List.map_cons, encode, List.flatMap_cons, ← encode, ← ih, encodeChar_of_isCharacter first]

theorem wellFormed_iff {bytes : List UInt8} : WellFormed bytes ↔ ∃ t, bytes = encode t := by
  constructor
  · rintro ⟨codes, spells⟩
    exact ⟨_, eq_encode_of_spells spells⟩
  · rintro ⟨t, rfl⟩
    exact ⟨_, spells_encode t⟩

theorem exists_decode_iff {bytes : List UInt8} :
    (∃ t, decode bytes = .ok t) ↔ WellFormed bytes := by
  simp only [decode_eq_ok, wellFormed_iff]

/-! ## Either encoding -/

theorem decodeAny_encode (t : Text) : decodeAny (encode t) = t := by
  rw [decodeAny, decode_eq_ok.2 rfl]

theorem encode_decodeAny_iff {bytes : List UInt8} :
    encode (decodeAny bytes) = bytes ↔ WellFormed bytes := by
  constructor
  · intro restored
    exact wellFormed_iff.2 ⟨_, restored.symm⟩
  · intro good
    obtain ⟨t, rfl⟩ := wellFormed_iff.1 good
    rw [decodeAny_encode]

instance (bytes : List UInt8) : Decidable (WellFormed bytes) :=
  decidable_of_iff _ encode_decodeAny_iff

-- An overlong form of the code 0, a surrogate, and the codes on both sides of the last one.
example : ¬WellFormed [0xC0, 0x80] ∧ ¬WellFormed [0xED, 0xA0, 0x80] ∧
    WellFormed [0xF4, 0x8F, 0xBF, 0xBF] ∧ ¬WellFormed [0xF4, 0x90, 0x80, 0x80] := by decide

theorem decodeAny_of_not_wellFormed {bytes : List UInt8} (bad : ¬WellFormed bytes) :
    decodeAny bytes = decodeBytewise bytes := by
  cases decoded : decode bytes with
  | ok t => exact absurd (exists_decode_iff.1 ⟨t, decoded⟩) bad
  | error fault => rw [decodeAny, decoded]

theorem map_toNat_decodeBytewise (bytes : List UInt8) :
    (decodeBytewise bytes).map Char.toNat = bytes.map UInt8.toNat := by
  rw [decodeBytewise, List.map_map]
  apply List.map_congr_left
  intro b _
  have small : b.toNat < 0xD800 := Nat.lt_trans b.toNat_lt (by decide)
  exact toNat_ofNat (.inl small)

/-- The encoding of a text spells its characters and is read as that text. The strict decoder accepts
the well-formed bytes, and these are the encoding of what is read. If there is one fault anywhere,
every byte is read as the character with its code. -/
theorem decoding_loses_nothing :
    (∀ t : Text, Spells (encode t) (t.map Char.toNat) ∧ decodeAny (encode t) = t) ∧
    ∀ bytes : List UInt8,
      ((∃ t, decode bytes = .ok t) ↔ WellFormed bytes) ∧
      (encode (decodeAny bytes) = bytes ↔ WellFormed bytes) ∧
      (¬WellFormed bytes →
        ∀ i : Nat, (decodeAny bytes)[i]?.map Char.toNat = bytes[i]?.map UInt8.toNat) := by
  refine ⟨fun t => ⟨spells_encode t, decodeAny_encode t⟩, fun bytes => ?_⟩
  refine ⟨exists_decode_iff, encode_decodeAny_iff, ?_⟩
  intro bad i
  rw [← List.getElem?_map, ← List.getElem?_map, decodeAny_of_not_wellFormed bad,
    map_toNat_decodeBytewise]

def eachForm : List UInt8 := encode "añ€😀".toList

def lateSurrogate : List UInt8 := eachForm ++ [0xED, 0xA0, 0x80]

theorem lateSurrogate_read_bytewise :
    WellFormed eachForm ∧ encode (decodeAny eachForm) = eachForm ∧
    ¬WellFormed lateSurrogate ∧
    ∀ i : Nat, (decodeAny lateSurrogate)[i]?.map Char.toNat = lateSurrogate[i]?.map UInt8.toNat := by
  have good : WellFormed eachForm := by decide
  have bad : ¬WellFormed lateSurrogate := by decide
  obtain ⟨-, reads⟩ := decoding_loses_nothing
  exact ⟨good, (reads eachForm).2.1.2 good, bad, (reads lateSurrogate).2.2 bad⟩

end SJava.Utf8
