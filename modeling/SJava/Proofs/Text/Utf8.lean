import SJava.Proofs.Attempt
import SJava.Text.Utf8

namespace SJava.Utf8

/-! ## Pending characters -/

namespace Pending

def Fits (p : Pending) (b : UInt8) : Prop := p.least ≤ b.toNat ∧ b.toNat ≤ p.greatest

def codeWith (p : Pending) (b : UInt8) : Nat := p.code * 0x40 + (b.toNat - 0x80)

theorem codeWith_eq {p : Pending} {b : UInt8} {n : Nat} (low : 0x80 ≤ b.toNat) :
    p.codeWith b = n ↔ n + 0x80 = p.code * 0x40 + b.toNat := by
  show p.code * 0x40 + (b.toNat - 0x80) = n ↔ _
  omega

def next (p : Pending) (b : UInt8) : Pending :=
  ⟨p.codeWith b, p.missing - 1, 0x80, 0xBF, p.bytes ++ [b]⟩

theorem code_next (p : Pending) {b : UInt8} (low : 0x80 ≤ b.toNat) :
    (p.next b).code + 0x80 = p.code * 0x40 + b.toNat :=
  (codeWith_eq low).1 rfl

theorem fits_next {p : Pending} {b x : UInt8} :
    (p.next b).Fits x ↔ 0x80 ≤ x.toNat ∧ x.toNat ≤ 0xBF := Iff.rfl

/-- The bytes that the decoder takes from here until it has read the character of the code `n`. -/
inductive Completes : Pending → List UInt8 → Nat → Prop where
  | last {p : Pending} {b : UInt8} (fits : p.Fits b) (one : p.missing ≤ 1) :
      Completes p [b] (p.codeWith b)
  | more {p : Pending} {b : UInt8} {tail : List UInt8} {n : Nat} (fits : p.Fits b)
      (several : 1 < p.missing) (later : Completes (p.next b) tail n) : Completes p (b :: tail) n

theorem completes_one {p : Pending} {tail : List UInt8} {n : Nat} (one : p.missing = 1) :
    Completes p tail n ↔ ∃ b, tail = [b] ∧ p.Fits b ∧ p.codeWith b = n := by
  constructor
  · intro completes
    cases completes with
    | last fits => exact ⟨_, rfl, fits, rfl⟩
    | more _ several => omega
  · rintro ⟨b, rfl, fits, rfl⟩
    exact .last fits (Nat.le_of_eq one)

theorem completes_more {p : Pending} {tail : List UInt8} {n k : Nat} (several : p.missing = k + 2) :
    Completes p tail n ↔ ∃ b rest, tail = b :: rest ∧ p.Fits b ∧ Completes (p.next b) rest n := by
  constructor
  · intro completes
    cases completes with
    | last _ one => omega
    | more fits _ later => exact ⟨_, _, rfl, fits, later⟩
  · rintro ⟨b, rest, rfl, fits, later⟩
    exact .more fits (by omega) later

theorem missing_next {p : Pending} {k : Nat} (several : p.missing = k + 2) (b : UInt8) :
    (p.next b).missing = k + 1 := by
  show p.missing - 1 = k + 1
  omega

end Pending

open Pending

theorem decodeFrom_fits {p : Pending} {b : UInt8} (fits : p.Fits b) (position : Nat)
    (rest : List UInt8) :
    decodeFrom position (some p) (b :: rest) =
      if p.missing ≤ 1 then
        (decodeFrom (position + 1) none rest).map (Char.ofNat (p.codeWith b) :: ·)
      else decodeFrom (position + 1) (some (p.next b)) rest := by
  rw [decodeFrom, if_pos (by simpa [Fits] using fits)]
  rfl

theorem decodeFrom_completes {p : Pending} {tail : List UInt8} {n : Nat}
    (completes : Completes p tail n) (position : Nat) (rest : List UInt8) :
    decodeFrom position (some p) (tail ++ rest) =
      (decodeFrom (position + tail.length) none rest).map (Char.ofNat n :: ·) := by
  induction completes generalizing position with
  | last fits one =>
      rw [List.singleton_append, decodeFrom_fits fits, if_pos one]
      rfl
  | more fits several later ih =>
      rw [List.cons_append, decodeFrom_fits fits, if_neg (Nat.not_le.2 several), ih,
        List.length_cons, Nat.add_assoc, Nat.add_comm 1]

theorem completes_of_decodeFrom {bytes : List UInt8} {p : Pending} {position : Nat} {t : Text}
    (h : decodeFrom position (some p) bytes = .ok t) :
    ∃ tail rest n t', bytes = tail ++ rest ∧ t = Char.ofNat n :: t' ∧ Completes p tail n ∧
      decodeFrom (position + tail.length) none rest = .ok t' := by
  induction bytes generalizing p position with
  | nil => cases h
  | cons b bytes ih =>
      by_cases fits : p.Fits b
      · rw [decodeFrom_fits fits] at h
        split at h
        · obtain ⟨t', later, same⟩ := map_eq_ok.1 h
          exact ⟨[b], bytes, _, t', rfl, same.symm, .last fits ‹_›, later⟩
        · obtain ⟨tail, rest, n, t', rfl, same, completes, later⟩ := ih h
          refine ⟨b :: tail, rest, n, t', rfl, same, .more fits (by omega) completes, ?_⟩
          rwa [List.length_cons, Nat.add_comm tail.length, ← Nat.add_assoc]
      · rw [decodeFrom, if_neg (by simpa [Fits] using fits)] at h
        cases h

/-! ## Codes and bytes -/

def codeBytes (n : Nat) : List Nat :=
  if n < 0x80 then [n]
  else if n < 0x800 then [n / 0x40 + 0xC0, n % 0x40 + 0x80]
  else if n < 0x10000 then [n / 0x1000 + 0xE0, n / 0x40 % 0x40 + 0x80, n % 0x40 + 0x80]
  else [n / 0x40000 + 0xF0, n / 0x1000 % 0x40 + 0x80, n / 0x40 % 0x40 + 0x80, n % 0x40 + 0x80]

theorem map_toNat_encodeChar (c : Char) :
    (String.utf8EncodeChar c).map UInt8.toNat = codeBytes c.toNat := by
  have valid : c.toNat < 0xD800 ∨ 0xDFFF < c.toNat ∧ c.toNat < 0x110000 := c.valid
  have code : c.val.toNat = c.toNat := rfl
  simp only [String.utf8EncodeChar, code, codeBytes, ← Nat.lt_succ_iff]
  repeat' split
  all_goals
    simp only [List.map_cons, List.map_nil, UInt8.toNat_ofNat', List.cons.injEq, and_true]
    omega

/-! The lead bytes by the number of bytes that follow. At both ends of the longer sorts the range of the
second byte is smaller. -/

def LeadsTwo (b : UInt8) (p : Pending) : Prop :=
  p.missing = 1 ∧ p.code + 0xC0 = b.toNat ∧ 2 ≤ p.code ∧ p.code < 0x20 ∧
    p.least = 0x80 ∧ p.greatest = 0xBF

def LeadsThree (b : UInt8) (p : Pending) : Prop :=
  p.missing = 2 ∧ p.code + 0xE0 = b.toNat ∧ p.code < 0x10 ∧
    (p.code = 0 ∧ p.least = 0xA0 ∨ p.code ≠ 0 ∧ p.least = 0x80) ∧
    (p.code = 0xD ∧ p.greatest = 0x9F ∨ p.code ≠ 0xD ∧ p.greatest = 0xBF)

def LeadsFour (b : UInt8) (p : Pending) : Prop :=
  p.missing = 3 ∧ p.code + 0xF0 = b.toNat ∧ p.code ≤ 4 ∧
    (p.code = 0 ∧ p.least = 0x90 ∨ p.code ≠ 0 ∧ p.least = 0x80) ∧
    (p.code = 4 ∧ p.greatest = 0x8F ∨ p.code ≠ 4 ∧ p.greatest = 0xBF)

theorem lead?_eq_some {b : UInt8} {p : Pending} (h : lead? b = some p) :
    LeadsTwo b p ∨ LeadsThree b p ∨ LeadsFour b p := by
  obtain ⟨code, missing, least, greatest, bytes⟩ := p
  simp only [lead?] at h
  repeat' split at h
  all_goals
    simp only [Option.some.injEq, Pending.mk.injEq, reduceCtorEq] at h
  all_goals
    simp only [LeadsTwo, LeadsThree, LeadsFour]
    omega

theorem isSome_lead? {b : UInt8} (low : 0xC2 ≤ b.toNat) (high : b.toNat ≤ 0xF4) :
    (lead? b).isSome = true := by
  simp only [lead?]
  grind

theorem codeBytes_one {n b : Nat} : codeBytes n = [b] ↔ n < 0x80 ∧ n = b := by
  grind [codeBytes]

theorem codeBytes_two {n b x : Nat} :
    codeBytes n = [b, x] ↔
      0x80 ≤ n ∧ n < 0x800 ∧ n / 0x40 + 0xC0 = b ∧ n % 0x40 + 0x80 = x := by
  grind [codeBytes]

theorem codeBytes_three {n b x y : Nat} :
    codeBytes n = [b, x, y] ↔
      0x800 ≤ n ∧ n < 0x10000 ∧ n / 0x1000 + 0xE0 = b ∧ n / 0x40 % 0x40 + 0x80 = x ∧
        n % 0x40 + 0x80 = y := by
  grind [codeBytes]

theorem codeBytes_four {n b x y z : Nat} :
    codeBytes n = [b, x, y, z] ↔
      0x10000 ≤ n ∧ n / 0x40000 + 0xF0 = b ∧ n / 0x1000 % 0x40 + 0x80 = x ∧
        n / 0x40 % 0x40 + 0x80 = y ∧ n % 0x40 + 0x80 = z := by
  grind [codeBytes]

section Completes

variable {b : UInt8} {p : Pending} {tail : List UInt8} {n : Nat}

theorem LeadsTwo.completes_iff (lead : LeadsTwo b p) :
    Completes p tail n ↔ n.isValidChar ∧ codeBytes n = b.toNat :: tail.map UInt8.toNat := by
  obtain ⟨missing, code, low, high, least, greatest⟩ := lead
  refine (completes_one missing).trans ⟨?_, ?_⟩
  · rintro ⟨x, rfl, ⟨above, below⟩, same⟩
    rw [codeWith_eq (by omega)] at same
    rw [List.map_singleton, codeBytes_two]
    exact ⟨.inl (by omega), by omega⟩
  · rintro ⟨-, bytes⟩
    match tail with
    | [x] =>
      rw [List.map_singleton, codeBytes_two] at bytes
      exact ⟨x, rfl, ⟨by omega, by omega⟩, (codeWith_eq (by omega)).2 (by omega)⟩
    | [] | _ :: _ :: _ => grind [codeBytes]

theorem LeadsThree.completes_iff (lead : LeadsThree b p) :
    Completes p tail n ↔ n.isValidChar ∧ codeBytes n = b.toNat :: tail.map UInt8.toNat := by
  obtain ⟨missing, code, high, least, greatest⟩ := lead
  refine (completes_more missing).trans ⟨?_, ?_⟩
  · rintro ⟨x, rest, rfl, ⟨above, below⟩, later⟩
    obtain ⟨y, rfl, fits, same⟩ := (completes_one (missing_next missing x)).1 later
    rw [fits_next] at fits
    rw [codeWith_eq fits.1] at same
    have first := code_next p (b := x) (by omega)
    rw [List.map_cons, List.map_singleton, codeBytes_three]
    simp only [Nat.isValidChar]
    omega
  · rintro ⟨valid, bytes⟩
    simp only [Nat.isValidChar] at valid
    match tail with
    | [x, y] =>
      rw [List.map_cons, List.map_singleton, codeBytes_three] at bytes
      have first := code_next p (b := x) (by omega)
      have last : Completes (p.next x) [y] n := (completes_one (missing_next missing x)).2
        ⟨y, rfl, fits_next.2 (by omega), (codeWith_eq (by omega)).2 (by omega)⟩
      exact ⟨x, [y], rfl, ⟨by omega, by omega⟩, last⟩
    | [] | [_] | _ :: _ :: _ :: _ => grind [codeBytes]

theorem LeadsFour.completes_iff (lead : LeadsFour b p) :
    Completes p tail n ↔ n.isValidChar ∧ codeBytes n = b.toNat :: tail.map UInt8.toNat := by
  obtain ⟨missing, code, high, least, greatest⟩ := lead
  refine (completes_more missing).trans ⟨?_, ?_⟩
  · rintro ⟨x, rest, rfl, ⟨above, below⟩, later⟩
    obtain ⟨y, rest, rfl, fits, later⟩ := (completes_more (missing_next missing x)).1 later
    obtain ⟨z, rfl, fits', same⟩ :=
      (completes_one (missing_next (missing_next missing x) y)).1 later
    rw [fits_next] at fits fits'
    rw [codeWith_eq fits'.1] at same
    have first := code_next p (b := x) (by omega)
    have second := code_next (p.next x) fits.1
    rw [List.map_cons, List.map_cons, List.map_singleton, codeBytes_four]
    simp only [Nat.isValidChar]
    omega
  · rintro ⟨valid, bytes⟩
    simp only [Nat.isValidChar] at valid
    match tail with
    | [x, y, z] =>
      rw [List.map_cons, List.map_cons, List.map_singleton, codeBytes_four] at bytes
      have first := code_next p (b := x) (by omega)
      have second := code_next (p.next x) (b := y) (by omega)
      have last : Completes ((p.next x).next y) [z] n :=
        (completes_one (missing_next (missing_next missing x) y)).2
          ⟨z, rfl, fits_next.2 (by omega), (codeWith_eq (by omega)).2 (by omega)⟩
      have later : Completes (p.next x) [y, z] n :=
        (completes_more (missing_next missing x)).2 ⟨y, [z], rfl, fits_next.2 (by omega), last⟩
      exact ⟨x, [y, z], rfl, ⟨by omega, by omega⟩, later⟩
    | [] | [_] | [_, _] | _ :: _ :: _ :: _ :: _ => grind [codeBytes]

theorem completes_iff (lead : lead? b = some p) :
    Completes p tail n ↔ n.isValidChar ∧ codeBytes n = b.toNat :: tail.map UInt8.toNat := by
  rcases lead?_eq_some lead with two | three | four
  · exact two.completes_iff
  · exact three.completes_iff
  · exact four.completes_iff

end Completes

/-! ## Characters and texts -/

theorem toNat_ofNat {n : Nat} (valid : n.isValidChar) : (Char.ofNat n).toNat = n := by
  rw [Char.ofNat, dif_pos valid]
  rfl

theorem encodeChar_eq {c : Char} {bytes : List UInt8} :
    String.utf8EncodeChar c = bytes ↔ codeBytes c.toNat = bytes.map UInt8.toNat := by
  rw [← map_toNat_encodeChar]
  exact (List.map_inj_right fun _ _ => UInt8.toNat_inj.1).symm

theorem encodeChar_ofNat {n : Nat} {bytes : List UInt8} (valid : n.isValidChar) :
    String.utf8EncodeChar (Char.ofNat n) = bytes ↔ codeBytes n = bytes.map UInt8.toNat := by
  rw [encodeChar_eq, toNat_ofNat valid]

theorem encodeChar_cases (c : Char) :
    (∃ b : UInt8, b.toNat < 0x80 ∧ String.utf8EncodeChar c = [b] ∧ c = Char.ofNat b.toNat) ∨
    ∃ b p tail, ¬ b.toNat < 0x80 ∧ lead? b = some p ∧ String.utf8EncodeChar c = b :: tail ∧
      Completes p tail c.toNat := by
  have valid : c.toNat < 0xD800 ∨ 0xDFFF < c.toNat ∧ c.toNat < 0x110000 := c.valid
  match bytes : String.utf8EncodeChar c with
  | [] => grind [encodeChar_eq.1 bytes, codeBytes]
  | b :: tail =>
      have codes := encodeChar_eq.1 bytes
      rw [List.map_cons] at codes
      by_cases small : b.toNat < 0x80
      · have same : c.toNat = b.toNat := by grind [codeBytes]
        have alone : tail = [] := by grind [codeBytes, List.map_eq_nil_iff]
        exact .inl ⟨b, small, by rw [alone], by rw [← same, Char.ofNat_toNat]⟩
      · have range : 0xC2 ≤ b.toNat ∧ b.toNat ≤ 0xF4 := by grind [codeBytes]
        obtain ⟨p, lead⟩ := Option.isSome_iff_exists.1 (isSome_lead? range.1 range.2)
        exact .inr ⟨b, p, tail, small, lead, rfl, (completes_iff lead).2 ⟨c.valid, codes⟩⟩

theorem decodeFrom_encodeChar (c : Char) (position : Nat) (rest : List UInt8) :
    ∃ position', decodeFrom position none (String.utf8EncodeChar c ++ rest) =
      (decodeFrom position' none rest).map (c :: ·) := by
  rcases encodeChar_cases c with ⟨b, small, bytes, rfl⟩ | ⟨b, p, tail, large, lead, bytes, completes⟩
  · rw [bytes, List.singleton_append, decodeFrom, if_pos small]
    exact ⟨_, rfl⟩
  · rw [bytes, List.cons_append, decodeFrom, if_neg large, lead]
    simp only [decodeFrom_completes completes, Char.ofNat_toNat]
    exact ⟨_, rfl⟩

theorem decodeFrom_encode (t : Text) (position : Nat) :
    decodeFrom position none (encode t) = .ok t := by
  induction t generalizing position with
  | nil => rfl
  | cons c t ih =>
      obtain ⟨position', reads⟩ := decodeFrom_encodeChar c position (encode t)
      rw [encode, List.flatMap_cons, ← encode, reads, ih]
      rfl

theorem eq_encode_of_decodeFrom {bytes : List UInt8} {position : Nat} {t : Text}
    (h : decodeFrom position none bytes = .ok t) : bytes = encode t := by
  match bytes with
  | [] =>
      cases h
      rfl
  | b :: bytes =>
      rw [decodeFrom] at h
      split at h
      · obtain ⟨t', later, same⟩ := map_eq_ok.1 h
        have char : String.utf8EncodeChar (Char.ofNat b.toNat) = [b] := by
          refine (encodeChar_ofNat (.inl (by omega))).2 ?_
          rw [codeBytes, if_pos ‹_›]
          rfl
        rw [← same, encode, List.flatMap_cons, ← encode, ← eq_encode_of_decodeFrom later, char]
        rfl
      · split at h
        · obtain ⟨tail, rest, n, t', split, same, completes, later⟩ := completes_of_decodeFrom h
          obtain ⟨valid, codes⟩ := (completes_iff ‹_›).1 completes
          have char : String.utf8EncodeChar (Char.ofNat n) = b :: tail :=
            (encodeChar_ofNat valid).2 codes
          rw [same, encode, List.flatMap_cons, ← encode, ← eq_encode_of_decodeFrom later, char,
            split]
          rfl
        · cases h
termination_by bytes.length
decreasing_by
  · grind
  · grind

theorem decode_eq_ok {bytes : List UInt8} {t : Text} : decode bytes = .ok t ↔ bytes = encode t := by
  constructor
  · exact eq_encode_of_decodeFrom
  · rintro rfl
    exact decodeFrom_encode t 0

end SJava.Utf8
