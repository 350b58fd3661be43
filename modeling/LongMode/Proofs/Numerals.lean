import LongMode.Text.Numeral
import Mathlib.Data.List.TakeWhile

/-!
# Reading numerals back

Numbers are shown in decimal and in hexadecimal. Here is how a reader gets them back: `worth?`
is the value of some digits, and `number?` takes all digits at the start of a text. On the
digits of a number both give the number (`worth?_toDigits`, `number?_digits`), whatever zeros
stand in front, as long as no further digit follows. `Hex.unspaced?` reads the bytes back that
are shown as pairs of digits with blanks between them (`Hex.unspaced?_spaced`).
-/

namespace LongMode.Numeral

/-- The number that digits stand for behind digits worth `value`. -/
def worthFrom? (radix : Nat) : Nat → List Char → Option Nat
  | value, [] => some value
  | value, digit :: rest => do
      let unit ← digitValue? radix digit
      worthFrom? radix (value * radix + unit) rest

/-- The number that digits stand for. -/
def worth? (radix : Nat) (digits : List Char) : Option Nat :=
  worthFrom? radix 0 digits

/-- Whether a character is a digit. -/
def isDigit (radix : Nat) (char : Char) : Bool :=
  (digitValue? radix char).isSome

/-- Reads the number at the start of a text, which has at least one digit. -/
def number? (radix : Nat) (text : List Char) : Option (Nat × List Char) :=
  match text.takeWhile (isDigit radix) with
  | [] => none
  | digits => (worth? radix digits).map fun number => (number, text.dropWhile (isDigit radix))

variable {radix value number unit : Nat} {digits rest : List Char}

theorem digitValue?_digitChar (hradix : radix ≤ 16) (hunit : unit < radix) :
    digitValue? radix (Nat.digitChar unit) = some unit := by
  have hdigits : ∀ unit < 16, Hex.digitValue? (Nat.digitChar unit) = some unit := by decide
  rw [digitValue?, hdigits unit (Nat.lt_of_lt_of_le hunit hradix)]
  simpa using hunit

theorem worthFrom?_append (first second : List Char) :
    worthFrom? radix value (first ++ second) =
      (worthFrom? radix value first).bind fun between => worthFrom? radix between second := by
  induction first generalizing value with
  | nil => rfl
  | cons digit first ih =>
      simp only [List.cons_append, worthFrom?, Option.bind_eq_bind, Option.bind_assoc, ih]

/-- The digits of a number read back as the number. -/
theorem worth?_toDigits (hlow : 1 < radix) (hhigh : radix ≤ 16) (number : Nat) :
    worth? radix (Nat.toDigits radix number) = some number := by
  unfold worth?
  induction number using Nat.strongRecOn with
  | ind number ih =>
      by_cases hsmall : number < radix
      · rw [Nat.toDigits_of_lt_base hsmall, worthFrom?, digitValue?_digitChar hhigh hsmall]
        simp [worthFrom?]
      · have hunit : number % radix < radix := Nat.mod_lt _ (by omega)
        have hless : number / radix < number := Nat.div_lt_self (by omega) hlow
        rw [Nat.toDigits_of_base_le hlow (Nat.le_of_not_lt hsmall), worthFrom?_append, ih _ hless,
          Option.bind_some, worthFrom?, digitValue?_digitChar hhigh hunit]
        simp [worthFrom?, Nat.div_add_mod']

/-- Zeros in front of a numeral do not change its value. -/
theorem worth?_leftpad (hradix : 0 < radix) (width : Nat) (digits : List Char) :
    worth? radix (digits.leftpad width '0') = worth? radix digits := by
  have hzero : digitValue? radix '0' = some 0 := by
    show (some 0).filter (· < radix) = some 0
    simpa using hradix
  unfold worth? List.leftpad
  induction width - digits.length with
  | zero => rfl
  | succ count ih =>
      rw [List.replicate_succ, List.cons_append, worthFrom?, hzero]
      simpa using ih

/-- Only digits have a worth. -/
theorem isDigit_of_worthFrom? (h : worthFrom? radix value digits = some number) :
    ∀ char ∈ digits, isDigit radix char = true := by
  induction digits generalizing value with
  | nil => exact nofun
  | cons digit digits ih =>
      rw [worthFrom?, Option.bind_eq_bind, Option.bind_eq_some_iff] at h
      obtain ⟨unit, hunit, hrest⟩ := h
      refine List.forall_mem_cons.mpr ⟨?_, ih hrest⟩
      rw [isDigit, hunit, Option.isSome_some]

/-- Digits are read up to the first character that is none. -/
theorem number?_append (h : worth? radix digits = some number) (hne : digits ≠ [])
    (hrest : ∀ char ∈ rest.head?, isDigit radix char = false) :
    number? radix (digits ++ rest) = some (number, rest) := by
  have hdigits := isDigit_of_worthFrom? h
  have htake : rest.takeWhile (isDigit radix) = [] := by
    cases rest with
    | nil => rfl
    | cons char rest => exact List.takeWhile_cons_of_neg (by simp [hrest char rfl])
  have hdrop : rest.dropWhile (isDigit radix) = rest := by
    cases rest with
    | nil => rfl
    | cons char rest => exact List.dropWhile_cons_of_neg (by simp [hrest char rfl])
  unfold number?
  rw [List.takeWhile_append_of_pos hdigits, htake, List.append_nil,
    List.dropWhile_append_of_pos hdigits, hdrop]
  cases digits with
  | nil => exact absurd rfl hne
  | cons digit digits =>
      dsimp only
      rw [h]
      rfl

/-- The digits of a number, with any zeros in front, are read as the number. -/
theorem number?_digits (hlow : 1 < radix) (hhigh : radix ≤ 16) (width number : Nat)
    (hrest : ∀ char ∈ rest.head?, isDigit radix char = false) :
    number? radix ((Nat.toDigits radix number).leftpad width '0' ++ rest) =
      some (number, rest) := by
  refine number?_append ?_ ?_ hrest
  · rw [worth?_leftpad (by omega), worth?_toDigits hlow hhigh]
  · simp [List.leftpad, Nat.toDigits_ne_nil]

/-- A decimal number is read up to the first character that is no digit. -/
theorem number?_toString (number : Nat)
    (hrest : ∀ char ∈ rest.head?, isDigit 10 char = false) :
    number? 10 ((toString number).toList ++ rest) = some (number, rest) := by
  rw [Nat.toString_eq_ofList_toDigits, String.toList_ofList]
  simpa [List.leftpad] using number?_digits (by omega) (by omega) 0 number hrest

end LongMode.Numeral

namespace LongMode.Hex

/-- The bytes that a text of pairs of digits shows. Blanks do not count. -/
def unspaced? (text : String) : Option (List UInt8) :=
  bytes? (text.toList.filter (· ≠ ' '))

theorem worth?_digits (width number : Nat) :
    Numeral.worth? 16 (digits width number) = some number := by
  rw [digits, Numeral.worth?_leftpad (by omega), Numeral.worth?_toDigits (by omega) (by omega)]

theorem length_digits_byte (byte : UInt8) : (digits 2 byte.toNat).length = 2 := by
  have hlength : (Nat.toDigits 16 byte.toNat).length ≤ 2 :=
    (Nat.length_toDigits_le_iff (by omega) (by omega)).mpr byte.toNat_lt
  rw [digits, List.length_leftpad]
  exact Nat.max_eq_left hlength

/-- The two digits of a byte are read back as the byte. -/
theorem bytes?_digits_append (byte : UInt8) (rest : List Char) :
    bytes? (digits 2 byte.toNat ++ rest) = (bytes? rest).map (byte :: ·) := by
  have hworth := worth?_digits 2 byte.toNat
  have hlength := length_digits_byte byte
  generalize digits 2 byte.toNat = pair at hworth hlength
  match pair, hlength with
  | [high, low], _ =>
      obtain ⟨first, hfirst, hrest⟩ := Option.bind_eq_some_iff.mp hworth
      obtain ⟨second, hsecond, hvalue⟩ := Option.bind_eq_some_iff.mp hrest
      have hhigh : digitValue? high = some first := (Option.filter_eq_some_iff.mp hfirst).1
      have hlow : digitValue? low = some second := (Option.filter_eq_some_iff.mp hsecond).1
      have hbyte : 16 * first + second = byte.toNat := by
        have hsum : (0 * 16 + first) * 16 + second = byte.toNat := Option.some.inj hvalue
        omega
      show bytes? (high :: low :: rest) = _
      rw [bytes?, hhigh, hlow]
      show (bytes? rest).bind (fun following =>
        some (UInt8.ofNat (16 * first + second) :: following)) = _
      rw [hbyte, UInt8.ofNat_toNat, Option.map_eq_bind]
      rfl

/-- The digits of a byte are no blanks. -/
theorem filter_digits (width number : Nat) :
    (digits width number).filter (· ≠ ' ') = digits width number := by
  refine List.filter_eq_self.mpr ?_
  intro char hchar
  have hdigit := Numeral.isDigit_of_worthFrom? (worth?_digits width number) char hchar
  refine decide_eq_true ?_
  rintro rfl
  cases hdigit

theorem toList_byte (value : UInt8) : (byte value).toList = digits 2 value.toNat := by
  rw [byte, padded, String.toList_ofList]

/-- Without blanks, the digits of the first byte stand in front of the others. -/
theorem filter_spaced_cons (first : UInt8) (bytes : List UInt8) :
    (spaced (first :: bytes)).toList.filter (· ≠ ' ') =
      digits 2 first.toNat ++ (spaced bytes).toList.filter (· ≠ ' ') := by
  unfold spaced
  cases bytes with
  | nil =>
      rw [List.map_cons, List.map_nil, String.intercalate_singleton, toList_byte, filter_digits]
      exact (List.append_nil _).symm
  | cons next bytes =>
      rw [List.map_cons, List.map_cons, String.intercalate_cons_cons, String.toList_append,
        String.toList_append, List.filter_append, List.filter_append, toList_byte, filter_digits]
      show _ ++ [] ++ _ = _
      rw [List.append_nil]

/-- Bytes that are shown with blanks between them are read back. -/
theorem unspaced?_spaced (bytes : List UInt8) : unspaced? (spaced bytes) = some bytes := by
  unfold unspaced?
  induction bytes with
  | nil => rfl
  | cons byte bytes ih =>
      rw [filter_spaced_cons, bytes?_digits_append, ih]
      rfl

end LongMode.Hex
