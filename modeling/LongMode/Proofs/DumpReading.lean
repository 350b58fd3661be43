import LongMode.Proofs.HexNumerals
import LongMode.Proofs.Reports

/-!
# Reading a hex dump back

A dump cuts a byte string into rows of sixteen bytes. `HexDump.rows` gives them by their places,
and the lines of a dump are the lines of its rows (`HexDump.lines_eq_map_rows`). A reader takes
the address before the colon of a line and the pairs of digits behind it, and so gets the rows
back (`HexDump.read?_lines`); together they are the byte string (`HexDump.flatMap_bytes_rows`).
`HexDump.lines_lossless` puts this together.
-/

namespace LongMode.Hex

/-- `IsPadded width number numeral` says that the numeral is the number in lower-case digits,
with as many zeros in front as it takes to fill the width and no more. -/
structure IsPadded (width number : Nat) (numeral : List Char) : Prop where
  spells : Spells numeral number
  lower : ∀ char ∈ numeral, char ∈ lowerDigits
  width_le : width ≤ numeral.length
  tight : width < numeral.length → numeral.head? ≠ some '0'

theorem digitChar_mem_lowerDigits {unit : Nat} (h : unit < 16) :
    Nat.digitChar unit ∈ lowerDigits := by
  have hdigits : ∀ unit < 16, Nat.digitChar unit ∈ lowerDigits := by decide
  exact hdigits unit h

theorem mem_lowerDigits_of_mem_toDigits (number : Nat) :
    ∀ char ∈ Nat.toDigits 16 number, char ∈ lowerDigits := by
  induction number using Nat.strongRecOn with
  | ind number ih =>
      by_cases hsmall : number < 16
      · rw [Nat.toDigits_of_lt_base hsmall]
        exact List.forall_mem_singleton.mpr (digitChar_mem_lowerDigits hsmall)
      · rw [Nat.toDigits_of_base_le (by omega) (Nat.le_of_not_lt hsmall)]
        refine List.forall_mem_append.mpr ⟨ih _ (by omega), ?_⟩
        exact List.forall_mem_singleton.mpr (digitChar_mem_lowerDigits (Nat.mod_lt _ (by omega)))

/-- A positive number does not start with a zero. -/
theorem head?_toDigits_ne {number : Nat} (h : 0 < number) :
    (Nat.toDigits 16 number).head? ≠ some '0' := by
  induction number using Nat.strongRecOn with
  | ind number ih =>
      by_cases hsmall : number < 16
      · have hdigits : ∀ unit < 16, 0 < unit → Nat.digitChar unit ≠ '0' := by decide
        rw [Nat.toDigits_of_lt_base hsmall, List.head?_singleton]
        exact fun hzero => hdigits number hsmall h (Option.some.inj hzero)
      · rw [Nat.toDigits_of_base_le (by omega) (Nat.le_of_not_lt hsmall),
          List.head?_append_of_ne_nil _ Nat.toDigits_ne_nil]
        exact ih _ (by omega) (by omega)

theorem isPadded_digits {width : Nat} (hwidth : 0 < width) (number : Nat) :
    IsPadded width number (digits width number) where
  spells := Numeral.spells_digits width number
  lower := by
    rw [digits, List.leftpad]
    refine List.forall_mem_append.mpr ⟨?_, mem_lowerDigits_of_mem_toDigits number⟩
    intro char hchar
    rw [List.eq_of_mem_replicate hchar]
    decide
  width_le := le_length_digits width number
  tight := by
    rw [digits, List.length_leftpad]
    intro hlong
    have hlength : width < (Nat.toDigits 16 number).length := by omega
    have hpositive : 0 < number := by
      refine Nat.pos_of_ne_zero ?_
      rintro rfl
      have hzero : (Nat.toDigits 16 0).length = 1 := rfl
      omega
    -- A numeral that is wider than asked for has no padding.
    have hnone : width - (Nat.toDigits 16 number).length = 0 := by omega
    rw [List.leftpad, hnone]
    exact head?_toDigits_ne hpositive

end LongMode.Hex

namespace LongMode.HexDump

/-- A line of a dump: the address of its first byte, and its bytes. -/
structure Row where
  address : UInt64
  bytes : List UInt8
deriving DecidableEq, Repr

/-- The rows of a byte string that starts at an address. -/
def rows (address : UInt64) (data : List UInt8) : List Row :=
  (List.range ((data.length + 15) / 16)).map fun index =>
    { address := address + UInt64.ofNat (16 * index)
      bytes := (data.drop (16 * index)).take 16 }

/-- The line that shows a row. -/
def Row.line (row : Row) : String :=
  HexDump.line row.address row.bytes

/-- The bytes that pairs of digits show, each pair behind a blank. -/
def groups? : List Char → Option (List UInt8)
  | [] => some []
  | ' ' :: high :: low :: rest => do
      let byte ← Numeral.worth? 16 [high, low]
      let following ← groups? rest
      pure (UInt8.ofNat byte :: following)
  | _ => none

/-- Reads a line: the address is all digits before the colon. -/
def Row.read? (line : String) : Option Row := do
  let (address, text) ← Numeral.number? 16 line.toList
  let groups ← CommandLine.behind? ":" text
  let bytes ← groups? groups
  pure { address := UInt64.ofNat address, bytes }

/-- Reads the lines of a dump. -/
def read? (lines : List String) : Option (List Row) :=
  lines.mapM Row.read?

/-- What a dump shows: the address of its first row, and the bytes of all rows. -/
def restore? (lines : List String) : Option (UInt64 × List UInt8) := do
  let rows ← read? lines
  let first ← rows.head?
  pure (first.address, rows.flatMap Row.bytes)

variable {address : UInt64} {data : List UInt8}

/-! ## Rows -/

/-- The first row, and the rows of what is left. -/
theorem rows_of_ne_nil (hne : data ≠ []) :
    rows address data =
      { address, bytes := data.take 16 } :: rows (address + 16) (data.drop 16) := by
  have hlength : 0 < data.length := List.length_pos_iff.mpr hne
  have hcount : (data.length + 15) / 16 = ((data.drop 16).length + 15) / 16 + 1 := by
    rw [List.length_drop]
    omega
  rw [rows, hcount, List.range_succ_eq_map, List.map_cons, List.map_map, rows]
  refine congrArg₂ List.cons ?_ (List.map_congr_left ?_)
  · have hzero : UInt64.ofNat 0 = 0 := rfl
    rw [Nat.mul_zero, List.drop_zero, hzero, UInt64.add_zero]
  · -- The places of the later rows are counted from the second row on, modulo `2 ^ 64`.
    intro index _
    have hplace : 16 * (index + 1) = 16 + 16 * index := by omega
    show Row.mk _ _ = Row.mk _ _
    rw [hplace, UInt64.ofNat_add, List.drop_drop, UInt64.add_assoc]
    rfl

theorem lines_eq_map_rows (address : UInt64) (data : List UInt8) :
    lines address data = (rows address data).map Row.line := by
  fun_induction lines address data with
  | case1 address => rfl
  | case2 address byte rest ih =>
      rw [rows_of_ne_nil (List.cons_ne_nil byte rest), List.map_cons, ih]
      rfl

theorem flatMap_bytes_rows (address : UInt64) (data : List UInt8) :
    (rows address data).flatMap Row.bytes = data := by
  fun_induction lines address data with
  | case1 address => rfl
  | case2 address byte rest ih =>
      rw [rows_of_ne_nil (List.cons_ne_nil byte rest), List.flatMap_cons]
      calc
        _ = (byte :: rest).take 16 ++ (byte :: rest).drop 16 := congrArg (_ ++ ·) ih
        _ = byte :: rest := List.take_append_drop 16 _

theorem length_rows (address : UInt64) (data : List UInt8) :
    (rows address data).length = (data.length + 15) / 16 := by
  rw [rows, List.length_map, List.length_range]

theorem toNat_add_place (address : UInt64) (place : Nat) :
    (address + UInt64.ofNat place).toNat = (address.toNat + place) % 2 ^ 64 := by
  rw [UInt64.toNat_add, UInt64.toNat_ofNat', Nat.add_mod_mod]

/-- A row stands at its place, and only the last one may have fewer than sixteen bytes. -/
theorem getElem?_rows {index : Nat} {row : Row} (h : (rows address data)[index]? = some row) :
    row.address.toNat = (address.toNat + 16 * index) % 2 ^ 64 ∧
      (index + 1 < (rows address data).length → row.bytes.length = 16) ∧
      1 ≤ row.bytes.length ∧ row.bytes.length ≤ 16 := by
  obtain ⟨hindex, rfl⟩ := List.getElem?_eq_some_iff.mp h
  rw [length_rows] at hindex ⊢
  have hrow : (rows address data)[index] =
      { address := address + UInt64.ofNat (16 * index)
        bytes := (data.drop (16 * index)).take 16 } := by
    simp [rows]
  rw [hrow, List.length_take, List.length_drop, toNat_add_place]
  omega

/-! ## Lines -/

/-- The pairs of digits in a line, each behind a blank. -/
def groups (bytes : List UInt8) : List Char :=
  bytes.flatMap fun byte => ' ' :: Hex.digits 2 byte.toNat

theorem groups_cons (byte : UInt8) (bytes : List UInt8) :
    groups (byte :: bytes) = ' ' :: (Hex.digits 2 byte.toNat ++ groups bytes) :=
  List.flatMap_cons

theorem toList_line (row : Row) :
    row.line.toList = Hex.digits 8 row.address.toNat ++ ':' :: groups row.bytes := by
  have hgroup (byte : UInt8) : (" " ++ Hex.byte byte).toList = ' ' :: Hex.digits 2 byte.toNat := by
    rw [String.toList_append, Hex.toList_byte]
    rfl
  have hcolon : ":".toList = [':'] := rfl
  rw [Row.line, HexDump.line, String.toList_append, String.toList_append, String.toList_join,
    List.flatMap_map, Hex.padded, String.toList_ofList, hcolon, List.append_assoc,
    List.singleton_append]
  simp only [hgroup]
  rfl

theorem groups?_groups (bytes : List UInt8) : groups? (groups bytes) = some bytes := by
  induction bytes with
  | nil => rfl
  | cons byte bytes ih =>
      have hworth := Hex.worth?_digits 2 byte.toNat
      have hlength := Hex.length_digits_byte byte
      rw [groups_cons]
      generalize Hex.digits 2 byte.toNat = pair at hworth hlength
      match pair, hlength with
      | [high, low], _ =>
          show groups? (' ' :: high :: low :: groups bytes) = _
          rw [groups?, hworth, ih]
          simp

/-- A row is read back from its line. -/
theorem Row.read?_line (row : Row) : Row.read? row.line = some row := by
  have hnumber : Numeral.number? 16 row.line.toList =
      some (row.address.toNat, ':' :: groups row.bytes) := by
    rw [toList_line]
    refine Numeral.number?_digits (by omega) (by omega) 8 row.address.toNat ?_
    rintro char ⟨⟩
    decide
  have hgroups : CommandLine.behind? ":" (':' :: groups row.bytes) = some (groups row.bytes) :=
    CommandLine.behind?_append ":" (groups row.bytes)
  rw [Row.read?, hnumber]
  simp only [Option.bind_eq_bind, Option.bind_some, hgroups, groups?_groups, UInt64.ofNat_toNat]
  rfl

/-- A line does not break. -/
theorem newline_not_mem_line (row : Row) : '\n' ∉ row.line.toList := by
  have hdigits {width : Nat} (hwidth : 0 < width) (number : Nat) :
      '\n' ∉ Hex.digits width number := by
    intro hmem
    have hlower := (Hex.isPadded_digits hwidth number).lower _ hmem
    revert hlower
    decide
  rw [toList_line]
  simp [groups, hdigits]

/-- A reader gets the rows of a dump back. -/
theorem read?_lines (base : UInt64) (data : List UInt8) :
    read? (lines base data) = some (rows base data) := by
  rw [read?, lines_eq_map_rows, CommandLine.mapM_map_eq_some fun row _ => row.read?_line]
  exact congrArg some (List.map_id _)

/-- A dump has a line for every sixteen bytes, each of which starts with its address, and shows
the bytes; it can be read back, and so can the address it starts at. -/
theorem lines_lossless (base : UInt64) (data : List UInt8) :
    (lines base data).length = (data.length + 15) / 16 ∧
      (∀ index line, (lines base data)[index]? = some line →
        '\n' ∉ line.toList ∧ ∃ numeral groups bytes,
          line.toList = numeral ++ ':' :: groups ∧
          Hex.IsPadded 8 ((base.toNat + 16 * index) % 2 ^ 64) numeral ∧
          groups? groups = some bytes ∧
          (index + 1 < (lines base data).length → bytes.length = 16) ∧
          1 ≤ bytes.length ∧ bytes.length ≤ 16) ∧
      (∃ rows, read? (lines base data) = some rows ∧ rows.flatMap Row.bytes = data) ∧
      (data ≠ [] → restore? (lines base data) = some (base, data)) := by
  have hcount : (lines base data).length = (rows base data).length := by
    rw [lines_eq_map_rows, List.length_map]
  refine ⟨?_, ?_, ?_, ?_⟩
  · rw [hcount, length_rows]
  · intro index line hline
    rw [lines_eq_map_rows, List.getElem?_map] at hline
    obtain ⟨row, hrow, rfl⟩ := Option.map_eq_some_iff.mp hline
    obtain ⟨haddress, hfull, hbounds⟩ := getElem?_rows hrow
    refine ⟨newline_not_mem_line row, _, _, row.bytes, toList_line row, ?_,
      groups?_groups row.bytes, ?_, hbounds⟩
    · rw [← haddress]
      exact Hex.isPadded_digits (by omega) row.address.toNat
    · rwa [hcount]
  · exact ⟨rows base data, read?_lines base data, flatMap_bytes_rows base data⟩
  · intro hne
    rw [restore?, read?_lines]
    simp only [Option.bind_eq_bind, Option.bind_some, flatMap_bytes_rows]
    rw [rows_of_ne_nil hne]
    rfl

end LongMode.HexDump
