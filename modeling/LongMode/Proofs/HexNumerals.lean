import LongMode.CommandLine.Run
import LongMode.Proofs.Numerals
import Mathlib.Data.List.Forall2
import Mathlib.Data.Nat.Digits.Defs
import Mathlib.Tactic.Ring

/-!
# Hexadecimal numerals

`Numeral.IsHexadecimal` is the grammar of a hexadecimal numeral: an optional marker, an optional
plus sign, and one or more digits of either case, which stand for a number by their places. The
reader takes digits one by one and gives up as soon as their number does not fit in 64 bits.
`Numeral.readDigits_eq_ok_iff` says that it loses nothing by that, and
`Numeral.readHexadecimal_iff_isHexadecimal` that it accepts the grammar and nothing else, so it
reads back whatever is shown in hexadecimal.
-/

namespace LongMode.Hex

/-- The digits in lower case, each at the place of its value. -/
def lowerDigits : List Char :=
  ['0', '1', '2', '3', '4', '5', '6', '7', '8', '9', 'a', 'b', 'c', 'd', 'e', 'f']

/-- The digits in upper case, each at the place of its value. -/
def upperDigits : List Char :=
  ['0', '1', '2', '3', '4', '5', '6', '7', '8', '9', 'A', 'B', 'C', 'D', 'E', 'F']

/-- A character is the digit of a value, in either case. -/
def IsDigitOf (char : Char) (unit : Nat) : Prop :=
  lowerDigits[unit]? = some char ∨ upperDigits[unit]? = some char

/-- `Spells digits number` says that these are one or more digits and that they stand for that
number, the first of them at the highest place. -/
def Spells (digits : List Char) (number : Nat) : Prop :=
  digits ≠ [] ∧
    ∃ units, List.Forall₂ IsDigitOf digits units ∧ number = Nat.ofDigits 16 units.reverse

variable {char : Char} {unit number : Nat} {digits : List Char}

/-! ## Digits -/

/-- Where a table lists the characters of a range from some place on, each of them stands as far
behind that place as it is behind the start of the range. -/
theorem getElem?_of_range {table : List Char} {first last : Char} (place : Nat)
    (htable : ∀ count < last.toNat - first.toNat + 1,
      table[count + place]? = some (Char.ofNat (first.toNat + count)))
    (hrange : first ≤ char ∧ char ≤ last) :
    table[char.toNat - first.toNat + place]? = some char := by
  have hfirst : first.toNat ≤ char.toNat := hrange.1
  have hlast : char.toNat ≤ last.toNat := hrange.2
  rw [htable _ (by omega), Nat.add_sub_cancel' hfirst, Char.ofNat_toNat]

/-- The value of a digit is its place among the digits of its case. -/
theorem digitValue?_eq_some_iff : digitValue? char = some unit ↔ IsDigitOf char unit := by
  refine ⟨?_, ?_⟩
  · intro h
    unfold digitValue? at h
    by_cases hdecimal : '0' ≤ char ∧ char ≤ '9'
    · rw [if_pos hdecimal] at h
      obtain rfl := Option.some.inj h
      exact .inl (getElem?_of_range 0 (by decide) hdecimal)
    rw [if_neg hdecimal] at h
    by_cases hlower : 'a' ≤ char ∧ char ≤ 'f'
    · rw [if_pos hlower] at h
      obtain rfl := Option.some.inj h
      exact .inl (getElem?_of_range 10 (by decide) hlower)
    rw [if_neg hlower] at h
    by_cases hupper : 'A' ≤ char ∧ char ≤ 'F'
    · rw [if_pos hupper] at h
      obtain rfl := Option.some.inj h
      exact .inr (getElem?_of_range 10 (by decide) hupper)
    rw [if_neg hupper] at h
    cases h
  · have hlower : ∀ place < 16, lowerDigits[place]?.bind digitValue? = some place := by decide
    have hupper : ∀ place < 16, upperDigits[place]?.bind digitValue? = some place := by decide
    rintro (h | h)
    · have hplace := hlower unit (List.getElem?_eq_some_iff.mp h).1
      rwa [h] at hplace
    · have hplace := hupper unit (List.getElem?_eq_some_iff.mp h).1
      rwa [h] at hplace

theorem IsDigitOf.lt (h : IsDigitOf char unit) : unit < 16 := by
  rcases h with h | h
  · exact (List.getElem?_eq_some_iff.mp h).1
  · exact (List.getElem?_eq_some_iff.mp h).1

theorem le_length_digits (width number : Nat) : width ≤ (Hex.digits width number).length := by
  rw [Hex.digits, List.length_leftpad]
  exact Nat.le_max_left _ _

end LongMode.Hex

namespace LongMode.Failure

/-- The message of a failure names the address behind the word `at`, at its end or before a
colon. -/
theorem message_eq (failure : Failure) :
    ∃ before after,
      failure.message = before ++ " at " ++ Hex.marked failure.address.toNat ++ after ∧
        (after = "" ∨ ∃ rest, after = ": " ++ rest) := by
  unfold message
  cases failure.cause with
  | endOfInput =>
      have hlabel : "end of input at " = "end of input" ++ " at " := rfl
      refine ⟨"end of input", "", ?_, .inl rfl⟩
      rw [hlabel, String.append_empty]
  | truncated needed available =>
      have hlabel : "truncated instruction at " = "truncated instruction" ++ " at " := rfl
      have hneed : ": need " = ": " ++ "need " := rfl
      refine ⟨"truncated instruction", ": " ++ ("need " ++ toString needed ++ " bytes, have "
        ++ toString available), ?_, .inr ⟨_, rfl⟩⟩
      simp only [hlabel, hneed, String.append_assoc]
  | malformed reason =>
      have hlabel : "malformed encoding at " = "malformed encoding" ++ " at " := rfl
      refine ⟨"malformed encoding", ": " ++ reason.message, ?_, .inr ⟨_, rfl⟩⟩
      simp only [hlabel, String.append_assoc]
  | prefixConflict byte =>
      have hlabel : " follows a REX prefix in instruction at " =
          " follows a REX prefix in instruction" ++ " at " := rfl
      refine ⟨"prefix " ++ Hex.markedByte byte ++ " follows a REX prefix in instruction", "", ?_,
        .inl rfl⟩
      simp only [hlabel, String.append_empty, String.append_assoc]

end LongMode.Failure

namespace LongMode.Numeral

open Hex

variable {radix value number : Nat} {digits text : List Char}

theorem digitValue?_sixteen_eq_some_iff {char : Char} {unit : Nat} :
    digitValue? 16 char = some unit ↔ IsDigitOf char unit := by
  rw [digitValue?, Option.filter_eq_some_iff, digitValue?_eq_some_iff]
  refine and_iff_left_of_imp ?_
  intro h
  exact decide_eq_true h.lt

/-- Digits that follow others move their number up and add their own. -/
theorem worthFrom?_eq_some_iff :
    worthFrom? 16 value digits = some number ↔
      ∃ units, List.Forall₂ IsDigitOf digits units ∧
        number = value * 16 ^ digits.length + Nat.ofDigits 16 units.reverse := by
  induction digits generalizing value with
  | nil => simp [worthFrom?, eq_comm]
  | cons digit digits ih =>
      have hplace {unit : Nat} {units : List Nat} (h : List.Forall₂ IsDigitOf digits units) :
          (value * 16 + unit) * 16 ^ digits.length + Nat.ofDigits 16 units.reverse =
            value * 16 ^ (digit :: digits).length + Nat.ofDigits 16 (unit :: units).reverse := by
        rw [List.reverse_cons, Nat.ofDigits_append, Nat.ofDigits_singleton, List.length_reverse,
          ← h.length_eq, List.length_cons]
        ring
      rw [worthFrom?, Option.bind_eq_bind, Option.bind_eq_some_iff]
      refine ⟨?_, ?_⟩
      · rintro ⟨unit, hunit, hrest⟩
        obtain ⟨units, hunits, rfl⟩ := ih.mp hrest
        exact ⟨unit :: units, .cons (digitValue?_sixteen_eq_some_iff.mp hunit) hunits,
          hplace hunits⟩
      · rintro ⟨units, hunits, rfl⟩
        obtain ⟨unit, rest, hunit, hrest, rfl⟩ := List.forall₂_cons_left_iff.mp hunits
        exact ⟨unit, digitValue?_sixteen_eq_some_iff.mpr hunit,
          ih.mpr ⟨rest, hrest, (hplace hrest).symm⟩⟩

/-- The worth of digits is the number that they spell. -/
theorem spells_iff : Spells digits number ↔ digits ≠ [] ∧ worth? 16 digits = some number := by
  rw [Spells, worth?, worthFrom?_eq_some_iff]
  simp

/-- More digits never stand for less. -/
theorem le_of_worthFrom? (hradix : 0 < radix) (h : worthFrom? radix value digits = some number) :
    value ≤ number := by
  induction digits generalizing value with
  | nil => exact Nat.le_of_eq (Option.some.inj h)
  | cons digit digits ih =>
      rw [worthFrom?, Option.bind_eq_bind, Option.bind_eq_some_iff] at h
      obtain ⟨unit, -, hrest⟩ := h
      calc
        value ≤ value * radix := Nat.le_mul_of_pos_right value hradix
        _ ≤ value * radix + unit := Nat.le_add_right _ _
        _ ≤ number := ih hrest

/-! ## Reading -/

/-- Giving up on the first number that does not fit loses no numeral of one that does. -/
theorem readDigits_eq_ok_iff (hradix : 0 < radix) (hvalue : value < 2 ^ 64) :
    readDigits radix value digits = .ok number ↔
      worthFrom? radix value digits = some number ∧ number < 2 ^ 64 := by
  induction digits generalizing value with
  | nil =>
      rw [readDigits, worthFrom?, Except.ok.injEq, Option.some.injEq]
      refine ⟨?_, fun h => h.1⟩
      rintro rfl
      exact ⟨rfl, hvalue⟩
  | cons digit digits ih =>
      rw [readDigits, worthFrom?]
      cases digitValue? radix digit with
      | none => simp
      | some unit =>
          simp only [Option.bind_eq_bind, Option.bind_some]
          by_cases hfits : value * radix + unit < UInt64.size
          · rw [if_pos hfits]
            exact ih hfits
          · rw [if_neg hfits]
            -- Further digits cannot bring the number back below the limit.
            refine iff_of_false (by simp) ?_
            rintro ⟨hrest, hnumber⟩
            exact hfits (Nat.lt_of_le_of_lt (le_of_worthFrom? hradix hrest) hnumber)

/-- A plus sign is no digit. -/
theorem not_spells_plus (rest : List Char) : ¬ Spells ('+' :: rest) number := by
  rw [spells_iff]
  rintro ⟨-, h⟩
  cases h

/-- A marker is no digits. -/
theorem not_spells_marker (rest : List Char) : ¬ Spells ('0' :: 'x' :: rest) number := by
  rw [spells_iff]
  rintro ⟨-, h⟩
  cases h

theorem readDigits_eq_ok_iff_spells (hne : digits ≠ []) :
    readDigits 16 0 digits = .ok number ↔ Spells digits number ∧ number < 2 ^ 64 := by
  rw [readDigits_eq_ok_iff (by omega) (by omega), spells_iff, and_iff_right hne, worth?]

/-- `IsNumeral text number` says that the text is a plus sign or none, and digits that stand for
that number. -/
def IsNumeral (text : List Char) (number : Nat) : Prop :=
  ∃ sign digits, text = sign ++ digits ∧ (sign = [] ∨ sign = ['+']) ∧ Spells digits number

/-- `IsHexadecimal text number` says that the text is the marker `0x` or none, and a numeral of
that number. -/
def IsHexadecimal (text : List Char) (number : Nat) : Prop :=
  ∃ marker numeral, text = marker ++ numeral ∧ (marker = [] ∨ marker = ['0', 'x']) ∧
    IsNumeral numeral number

theorem isNumeral_plus : IsNumeral ('+' :: digits) number ↔ Spells digits number := by
  refine ⟨?_, fun h => ⟨['+'], digits, rfl, .inr rfl, h⟩⟩
  rintro ⟨sign, rest, htext, rfl | rfl, hspells⟩
  · rw [List.nil_append] at htext
    rw [← htext] at hspells
    exact absurd hspells (not_spells_plus digits)
  · rwa [List.tail_eq_of_cons_eq htext]

theorem isNumeral_unsigned (h : ∀ digits, text ≠ '+' :: digits) :
    IsNumeral text number ↔ Spells text number := by
  refine ⟨?_, fun h => ⟨[], text, rfl, .inl rfl, h⟩⟩
  rintro ⟨sign, digits, rfl, rfl | rfl, hspells⟩
  · exact hspells
  · exact absurd rfl (h digits)

/-- A number is read from a numeral of it, if it fits. -/
theorem read_eq_ok_iff :
    read 16 text = .ok number ↔ IsNumeral text number ∧ number < 2 ^ 64 := by
  unfold read
  split
  · rw [isNumeral_unsigned (by simp)]
    exact iff_of_false nofun fun h => h.1.1 rfl
  · rw [isNumeral_plus]
    exact iff_of_false nofun fun h => h.1.1 rfl
  · rename_i digits hne
    rw [isNumeral_plus, readDigits_eq_ok_iff_spells (by rintro rfl; exact hne rfl)]
  · rename_i hne _ hplus
    rw [isNumeral_unsigned hplus, readDigits_eq_ok_iff_spells hne]

theorem isHexadecimal_marked :
    IsHexadecimal ('0' :: 'x' :: text) number ↔ IsNumeral text number := by
  refine ⟨?_, fun h => ⟨['0', 'x'], text, rfl, .inr rfl, h⟩⟩
  rintro ⟨marker, numeral, htext, rfl | rfl, hnumeral⟩
  · rw [List.nil_append] at htext
    rw [← htext, isNumeral_unsigned (by simp)] at hnumeral
    exact absurd hnumeral (not_spells_marker text)
  · rwa [List.tail_eq_of_cons_eq (List.tail_eq_of_cons_eq htext)]

theorem isHexadecimal_unmarked (h : ∀ rest, text ≠ '0' :: 'x' :: rest) :
    IsHexadecimal text number ↔ IsNumeral text number := by
  refine ⟨?_, fun h => ⟨[], text, rfl, .inl rfl, h⟩⟩
  rintro ⟨marker, numeral, rfl, rfl | rfl, hnumeral⟩
  · exact hnumeral
  · exact absurd rfl (h numeral)

/-- Which number a text is read as. -/
theorem readHexadecimal_eq_ok_iff {text : String} {value : UInt64} :
    readHexadecimal text = .ok value ↔ IsHexadecimal text.toList value.toNat := by
  have hmap (numeral : List Char) :
      (read 16 numeral).map UInt64.ofNat = .ok value ↔ IsNumeral numeral value.toNat := by
    rw [← and_iff_left (a := IsNumeral numeral value.toNat) value.toNat_lt, ← read_eq_ok_iff]
    cases hread : read 16 numeral with
    | error error => simp [Except.map]
    | ok number =>
        have hnumber := (read_eq_ok_iff.mp hread).2
        rw [Except.map, Except.ok.injEq, Except.ok.injEq, ← UInt64.toNat_inj,
          UInt64.toNat_ofNat_of_lt' hnumber]
  unfold readHexadecimal
  split
  · rename_i htext
    rw [hmap, htext, isHexadecimal_marked]
  · rename_i hmarker
    rw [hmap, isHexadecimal_unmarked hmarker]

example :
    readHexadecimal "0x+00fF" = .ok 255 ∧ readHexadecimal "+0x5" = .error .invalidDigit ∧
      readHexadecimal "0x0x5" = .error .invalidDigit ∧ readHexadecimal "0x" = .error .empty :=
  ⟨rfl, rfl, rfl, rfl⟩

/-- Every text that is no numeral of a 64-bit number is refused. -/
theorem readHexadecimal_eq_error_iff {text : String} :
    (∃ error, readHexadecimal text = .error error) ↔
      ∀ number < 2 ^ 64, ¬ IsHexadecimal text.toList number := by
  cases hread : readHexadecimal text with
  | error error =>
      refine iff_of_true ⟨error, rfl⟩ ?_
      intro number hnumber hgrammar
      rw [← UInt64.toNat_ofNat_of_lt' hnumber, ← readHexadecimal_eq_ok_iff, hread] at hgrammar
      cases hgrammar
  | ok value =>
      refine iff_of_false nofun ?_
      intro h
      exact h value.toNat value.toNat_lt (readHexadecimal_eq_ok_iff.mp hread)

/-! ## Numerals that are shown -/

theorem spells_digits (width number : Nat) : Spells (Hex.digits width number) number := by
  refine spells_iff.mpr ⟨?_, worth?_digits width number⟩
  simp [Hex.digits, List.leftpad, Nat.toDigits_ne_nil]

theorem readHexadecimal_padded (width : Nat) (value : UInt64) :
    readHexadecimal (Hex.padded width value.toNat) = .ok value := by
  rw [readHexadecimal_eq_ok_iff, Hex.padded, String.toList_ofList]
  exact ⟨[], _, rfl, .inl rfl, [], _, rfl, .inl rfl, spells_digits width value.toNat⟩

theorem readHexadecimal_marked (value : UInt64) :
    readHexadecimal (Hex.marked value.toNat) = .ok value := by
  have htext : (Hex.marked value.toNat).toList = ['0', 'x'] ++ digits 1 value.toNat := by
    rw [Hex.marked, Hex.padded, String.toList_append, String.toList_ofList, String.toList_ofList]
  rw [readHexadecimal_eq_ok_iff, htext]
  exact ⟨['0', 'x'], _, rfl, .inr rfl, [], _, rfl, .inl rfl, spells_digits 1 value.toNat⟩

theorem le_length_padded (width number : Nat) : width ≤ (Hex.padded width number).length := by
  rw [← String.length_toList, Hex.padded, String.toList_ofList]
  exact le_length_digits width number

/-- A text is read as a 64-bit number exactly if it is a hexadecimal numeral of it, and refused
if it is one of none; the addresses in the lines of instructions and of dumps and in the messages
of failures are read back. -/
theorem readHexadecimal_iff_isHexadecimal (text : String) (value : UInt64) :
    (readHexadecimal text = .ok value ↔ IsHexadecimal text.toList value.toNat) ∧
      ((∃ error, readHexadecimal text = .error error) ↔
        ∀ number < 2 ^ 64, ¬ IsHexadecimal text.toList number) ∧
      (∀ instruction : Instruction, ∃ numeral rest,
        (CommandLine.Item.decoded instruction).line =
            "rip: " ++ numeral ++ ", opcode: " ++ rest ∧
          4 ≤ numeral.length ∧ readHexadecimal numeral = .ok instruction.address) ∧
      (∀ bytes, ∃ numeral rest,
        HexDump.line value bytes = numeral ++ ":" ++ rest ∧
          8 ≤ numeral.length ∧ readHexadecimal numeral = .ok value) ∧
      ∀ failure : Failure, ∃ before numeral after,
        failure.message = before ++ " at " ++ numeral ++ after ∧
          (after = "" ∨ ∃ rest, after = ": " ++ rest) ∧
          (∃ digits, numeral = "0x" ++ digits) ∧
          readHexadecimal numeral = .ok failure.address := by
  refine ⟨readHexadecimal_eq_ok_iff, readHexadecimal_eq_error_iff, ?_, ?_, ?_⟩
  · intro instruction
    refine ⟨_, Hex.byte instruction.opcode.byte ++ ", escape: "
      ++ toString instruction.escapeDepth.toNat, ?_, le_length_padded 4 _,
      readHexadecimal_padded 4 instruction.address⟩
    simp only [CommandLine.Item.line, String.append_assoc]
  · intro bytes
    exact ⟨_, _, rfl, le_length_padded 8 _, readHexadecimal_padded 8 value⟩
  · intro failure
    obtain ⟨before, after, hmessage, hafter⟩ := failure.message_eq
    exact ⟨before, _, after, hmessage, hafter, ⟨_, rfl⟩, readHexadecimal_marked failure.address⟩

end LongMode.Numeral
