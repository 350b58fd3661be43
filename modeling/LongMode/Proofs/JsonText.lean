import LongMode.Json
import LongMode.Proofs.Numerals

/-!
# Reading JSON texts back

`Json.read?` reads a JSON text without blanks whose numbers are all integers. `read?_render`
says that it reads back every value of that kind from the text that `Json.render` writes, so two
values with the same text are the same.

The reader recurses on a bound on the characters it may take. `BoundSuffices` says of a bound that
it suffices for texts that are shorter, and the induction is on the bound.
-/

namespace LongMode.Json

/-! ## The reader -/

/-- The character that a letter behind a backslash stands for. -/
def unescape? (letter : Char) : Option Char :=
  List.lookup letter [('"', '"'), ('\\', '\\'), ('/', '/'), ('n', '\n'), ('r', '\r'),
    ('t', '\t'), ('b', '\x08'), ('f', '\x0c')]

/-- Reads the characters of a string up to its closing quote. -/
def readChars : List Char → Option (List Char × List Char)
  | [] => none
  | '"' :: rest => some ([], rest)
  | '\\' :: 'u' :: first :: second :: third :: fourth :: rest => do
      let code ← Numeral.worth? 16 [first, second, third, fourth]
      (readChars rest).map fun (chars, after) => (Char.ofNat code :: chars, after)
  | '\\' :: letter :: rest => do
      let char ← unescape? letter
      (readChars rest).map fun (chars, after) => (char :: chars, after)
  | char :: rest => (readChars rest).map fun (chars, after) => (char :: chars, after)

/-- The values that are words. -/
def words : List (String × Json) :=
  [("null", .null), ("true", .bool true), ("false", .bool false)]

/-- Reads a word. -/
def readWord (text : List Char) : Option (Json × List Char) :=
  words.findSome? fun (word, value) => (word.toList.isPrefixOf? text).map fun rest => (value, rest)

/-- Reads the key of a member and the colon behind it. -/
def readKey : List Char → Option (String × List Char)
  | '"' :: rest => do
      let (chars, after) ← readChars rest
      match after with
      | ':' :: after => pure (String.ofList chars, after)
      | _ => none
  | _ => none

mutual

/-- Reads a value. -/
def readValue : (bound : Nat) → List Char → Option (Json × List Char)
  | 0, _ => none
  | _, [] => none
  | bound + 1, head :: rest =>
      if head = '"' then do
        let (chars, after) ← readChars rest
        pure (.str (String.ofList chars), after)
      else if head = '[' then
        if rest.head? = some ']' then some (.arr [], rest.tail)
        else do
          let (items, after) ← readItems bound rest
          pure (.arr items, after)
      else if head = '\x7b' then
        if rest.head? = some '\x7d' then some (.obj [], rest.tail)
        else do
          let (members, after) ← readMembers bound rest
          pure (.obj members, after)
      else if head = '-' then do
        let (number, after) ← Numeral.number? 10 rest
        pure (.int (-number), after)
      else if Numeral.isDigit 10 head then do
        let (number, after) ← Numeral.number? 10 (head :: rest)
        pure (.int number, after)
      else readWord (head :: rest)

/-- Reads the items of an array up to its closing bracket. -/
def readItems : (bound : Nat) → List Char → Option (List Json × List Char)
  | 0, _ => none
  | bound + 1, text => do
      let (item, rest) ← readValue bound text
      match rest with
      | ',' :: rest => do
          let (items, after) ← readItems bound rest
          pure (item :: items, after)
      | ']' :: after => pure ([item], after)
      | _ => none

/-- Reads the members of an object up to its closing brace. -/
def readMembers : (bound : Nat) → List Char → Option (List (String × Json) × List Char)
  | 0, _ => none
  | bound + 1, text => do
      let (key, rest) ← readKey text
      let (value, rest) ← readValue bound rest
      match rest with
      | ',' :: rest => do
          let (members, after) ← readMembers bound rest
          pure ((key, value) :: members, after)
      | '\x7d' :: after => pure ([(key, value)], after)
      | _ => none

end

/-- The value that a text stands for. -/
def read? (text : String) : Option Json :=
  match readValue (text.toList.length + 1) text.toList with
  | some (json, []) => some json
  | _ => none

/-! ## Strings -/

variable {bound : Nat} {text rest : List Char}

/-- The three ways to write a character. -/
theorem escape_cases (char : Char) :
    (∃ letter, (escape char).toList = ['\\', letter] ∧ unescape? letter = some char) ∨
    (char.toNat < 0x20 ∧ (escape char).toList = '\\' :: 'u' :: Hex.digits 4 char.toNat) ∨
    (char ≠ '"' ∧ char ≠ '\\' ∧ (escape char).toList = [char]) := by
  unfold escape
  -- Seven characters have an escape of their own.
  iterate 7
    split
    · subst char
      exact .inl ⟨_, rfl, rfl⟩
  split
  · refine .inr (.inl ⟨‹_›, ?_⟩)
    rw [String.toList_append]
    show '\\' :: 'u' :: (Hex.padded 4 char.toNat).toList = _
    rw [Hex.padded, String.toList_ofList]
  · refine .inr (.inr ⟨‹_›, ‹_›, ?_⟩)
    rw [Char.toString_eq_singleton, String.toList_singleton]

/-- A character of a string is read back, in whatever way it is written. -/
theorem readChars_escape (char : Char) (rest : List Char) :
    readChars ((escape char).toList ++ rest) =
      (readChars rest).map fun (chars, after) => (char :: chars, after) := by
  obtain ⟨letter, htext, hletter⟩ | ⟨hsmall, htext⟩ | ⟨hquote, hslash, htext⟩ := escape_cases char
  · rw [htext]
    show readChars ('\\' :: letter :: rest) = _
    rw [readChars.eq_4, hletter, Option.bind_eq_bind, Option.bind_some]
    intro first second third fourth rest hunicode
    rw [hunicode] at hletter
    cases hletter
  · have hsizes : ∀ code < 0x20, (Hex.digits 4 code).length = 4 := by decide
    have hlength := hsizes char.toNat hsmall
    have hcode := Hex.worth?_digits 4 char.toNat
    rw [htext]
    generalize Hex.digits 4 char.toNat = digits at hlength hcode
    match digits, hlength with
    | [first, second, third, fourth], _ =>
        show readChars ('\\' :: 'u' :: first :: second :: third :: fourth :: rest) = _
        rw [readChars.eq_3, hcode, Option.bind_eq_bind, Option.bind_some, Char.ofNat_toNat]
  · rw [htext]
    exact readChars.eq_5 char rest hquote (fun _ _ _ _ _ h => absurd h hslash)
      (fun _ _ h => absurd h hslash)

/-- A string is read back behind its opening quote. -/
theorem readChars_quoted (string : String) (rest : List Char) :
    readChars ((String.join (string.toList.map escape)).toList ++ '"' :: rest) =
      some (string.toList, rest) := by
  induction string.toList with
  | nil => rfl
  | cons char chars ih =>
      rw [List.map_cons, String.join_cons, String.toList_append, List.append_assoc,
        readChars_escape, ih]
      rfl

theorem toList_quote (string : String) :
    (quote string).toList = '"' :: ((String.join (string.toList.map escape)).toList ++ ['"']) := by
  rw [quote, String.toList_append, String.toList_append]
  rfl

/-! ## Values -/

mutual

/-- Whether no number in a value has a fraction. -/
def isWhole : Json → Bool
  | .fraction _ => false
  | .arr items => areWhole items
  | .obj members => membersAreWhole members
  | _ => true

/-- Whether no number in some values has a fraction. -/
def areWhole : List Json → Bool
  | [] => true
  | item :: rest => item.isWhole && areWhole rest

/-- Whether no number in the values of some members has a fraction. -/
def membersAreWhole : List (String × Json) → Bool
  | [] => true
  | (_, value) :: rest => value.isWhole && membersAreWhole rest

end

theorem readValue_quote (bound : Nat) (string : String) (rest : List Char) :
    readValue (bound + 1) ((quote string).toList ++ rest) = some (.str string, rest) := by
  rw [toList_quote, List.cons_append, List.append_assoc, List.singleton_append, readValue,
    if_pos rfl, readChars_quoted]
  show some (Json.str (String.ofList string.toList), rest) = _
  rw [String.ofList_toList]

theorem readValue_natural (bound number : Nat)
    (hrest : ∀ char ∈ rest.head?, Numeral.isDigit 10 char = false) :
    readValue (bound + 1) ((toString number).toList ++ rest) = some (.int number, rest) := by
  have hnumber := Numeral.number?_toString number hrest
  have hdigits := Numeral.isDigit_of_worthFrom?
    (Numeral.worth?_toDigits (by omega) (by omega) number : Numeral.worth? 10 _ = _)
  rw [Nat.toString_eq_ofList_toDigits, String.toList_ofList] at hnumber ⊢
  cases htext : Nat.toDigits 10 number with
  | nil => exact absurd htext Nat.toDigits_ne_nil
  | cons head tail =>
      rw [htext] at hnumber hdigits
      have hhead : Numeral.isDigit 10 head = true := hdigits head List.mem_cons_self
      have hne {char : Char} (h : Numeral.isDigit 10 char = false) : head ≠ char := by
        rintro rfl
        rw [hhead] at h
        cases h
      rw [List.cons_append] at hnumber ⊢
      rw [readValue, if_neg (hne (by decide)), if_neg (hne (by decide)), if_neg (hne (by decide)),
        if_neg (hne (by decide)), if_pos hhead, hnumber]
      rfl

theorem readValue_int (bound : Nat) (value : Int)
    (hrest : ∀ char ∈ rest.head?, Numeral.isDigit 10 char = false) :
    readValue (bound + 1) ((toString value).toList ++ rest) = some (.int value, rest) := by
  cases value with
  | ofNat number => exact readValue_natural bound number hrest
  | negSucc number =>
      have hnumber := Numeral.number?_toString (number + 1) hrest
      show readValue (bound + 1) (("-" ++ toString (number + 1)).toList ++ rest) = _
      rw [String.toList_append, List.append_assoc]
      show readValue (bound + 1) ('-' :: ((toString (number + 1)).toList ++ rest)) = _
      rw [readValue, if_neg (by decide), if_neg (by decide), if_neg (by decide), if_pos rfl,
        hnumber]
      rfl

/-- No item starts with the closing bracket. -/
theorem readItems_bracket (bound : Nat) (text : List Char) :
    readItems bound (']' :: text) = none := by
  match bound with
  | 0 => rfl
  | 1 => rfl
  | bound + 2 => rfl

theorem readValue_arr {items : List Json} (h : readItems bound text = some (items, rest)) :
    readValue (bound + 1) ('[' :: text) = some (.arr items, rest) := by
  have hhead : ¬ text.head? = some ']' := by
    intro hhead
    obtain ⟨tail, rfl⟩ := List.head?_eq_some_iff.mp hhead
    rw [readItems_bracket] at h
    cases h
  rw [readValue, if_neg (by decide), if_pos rfl, if_neg hhead, h]
  rfl

/-- No member starts with the closing brace. -/
theorem readMembers_brace (bound : Nat) (text : List Char) :
    readMembers bound ('\x7d' :: text) = none := by
  cases bound with
  | zero => rfl
  | succ bound => rfl

theorem readValue_obj {members : List (String × Json)}
    (h : readMembers bound text = some (members, rest)) :
    readValue (bound + 1) ('\x7b' :: text) = some (.obj members, rest) := by
  have hhead : ¬ text.head? = some '\x7d' := by
    intro hhead
    obtain ⟨tail, rfl⟩ := List.head?_eq_some_iff.mp hhead
    rw [readMembers_brace] at h
    cases h
  rw [readValue, if_neg (by decide), if_neg (by decide), if_pos rfl, if_neg hhead, h]
  rfl

theorem readItems_last {item : Json} (h : readValue bound text = some (item, ']' :: rest)) :
    readItems (bound + 1) text = some ([item], rest) := by
  rw [readItems, h]
  rfl

theorem readItems_more {item : Json} {items : List Json} {between : List Char}
    (h : readValue bound text = some (item, ',' :: between))
    (hitems : readItems bound between = some (items, rest)) :
    readItems (bound + 1) text = some (item :: items, rest) := by
  rw [readItems, h]
  show (readItems bound between >>= _) = _
  rw [hitems]
  rfl

theorem readKey_quote (key : String) (rest : List Char) :
    readKey ((quote key).toList ++ ':' :: rest) = some (key, rest) := by
  rw [toList_quote, List.cons_append, List.append_assoc, List.singleton_append, readKey,
    readChars_quoted]
  show some (String.ofList key.toList, rest) = _
  rw [String.ofList_toList]

theorem readMembers_last {key : String} {value : Json} {between : List Char}
    (hkey : readKey text = some (key, between))
    (h : readValue bound between = some (value, '\x7d' :: rest)) :
    readMembers (bound + 1) text = some ([(key, value)], rest) := by
  rw [readMembers, hkey]
  show (readValue bound between >>= _) = _
  rw [h]
  rfl

theorem readMembers_more {key : String} {value : Json} {members : List (String × Json)}
    {between following : List Char} (hkey : readKey text = some (key, between))
    (h : readValue bound between = some (value, ',' :: following))
    (hmembers : readMembers bound following = some (members, rest)) :
    readMembers (bound + 1) text = some ((key, value) :: members, rest) := by
  rw [readMembers, hkey]
  show (readValue bound between >>= _) = _
  rw [h]
  show (readMembers bound following >>= _) = _
  rw [hmembers]
  rfl

/-! ## Texts -/

/-- The text of the items of an array. -/
def itemsText (items : List Json) : List Char :=
  (",".intercalate (renderItems items)).toList

/-- The text of the members of an object. -/
def membersText (members : List (String × Json)) : List Char :=
  (",".intercalate (renderMembers members)).toList

theorem toList_render_arr (items : List Json) :
    (render (.arr items)).toList = '[' :: (itemsText items ++ [']']) := by
  rw [render, String.toList_append, String.toList_append]
  rfl

theorem toList_render_obj (members : List (String × Json)) :
    (render (.obj members)).toList = '\x7b' :: (membersText members ++ ['\x7d']) := by
  rw [render, String.toList_append, String.toList_append]
  rfl

theorem itemsText_singleton (item : Json) : itemsText [item] = item.render.toList := by
  rw [itemsText, renderItems, renderItems, String.intercalate_singleton]

theorem itemsText_cons (item next : Json) (items : List Json) :
    itemsText (item :: next :: items) = item.render.toList ++ ',' :: itemsText (next :: items) := by
  rw [itemsText, renderItems, renderItems, String.intercalate_cons_cons, String.toList_append,
    String.toList_append, List.append_assoc, itemsText, renderItems]
  rfl

/-- The text of a member. -/
def memberText (key : String) (value : Json) : List Char :=
  (quote key).toList ++ ':' :: value.render.toList

theorem toList_member (key : String) (value : Json) :
    (quote key ++ ":" ++ value.render).toList = memberText key value := by
  rw [String.toList_append, String.toList_append, List.append_assoc]
  rfl

theorem membersText_singleton (key : String) (value : Json) :
    membersText [(key, value)] = memberText key value := by
  rw [membersText, renderMembers, renderMembers, String.intercalate_singleton, toList_member]

theorem membersText_cons (key : String) (value : Json) (next : String × Json)
    (members : List (String × Json)) :
    membersText ((key, value) :: next :: members) =
      memberText key value ++ ',' :: membersText (next :: members) := by
  rw [membersText, renderMembers, renderMembers, String.intercalate_cons_cons,
    String.toList_append, String.toList_append, List.append_assoc, toList_member, membersText,
    renderMembers]
  rfl

/-- The characters that may stand behind a value do not go on with a number. -/
theorem isDigit_head_eq_false {char : Char} (h : char ∈ [',', ']', '\x7d']) (rest : List Char) :
    ∀ found ∈ (char :: rest).head?, Numeral.isDigit 10 found = false := by
  have hnone : [',', ']', '\x7d'].all (fun char => !Numeral.isDigit 10 char) = true := by decide
  intro found hfound
  cases hfound
  simpa using List.all_eq_true.mp hnone char h

/-- What has fewer characters than `bound` is read back from its text. -/
structure BoundSuffices (bound : Nat) : Prop where
  value : ∀ (json : Json) (rest : List Char), json.isWhole = true →
    json.render.toList.length < bound →
    (∀ char ∈ rest.head?, Numeral.isDigit 10 char = false) →
    readValue bound (json.render.toList ++ rest) = some (json, rest)
  items : ∀ (item : Json) (items : List Json) (rest : List Char),
    areWhole (item :: items) = true → (itemsText (item :: items)).length + 1 < bound →
    readItems bound (itemsText (item :: items) ++ ']' :: rest) = some (item :: items, rest)
  members : ∀ (member : String × Json) (members : List (String × Json)) (rest : List Char),
    membersAreWhole (member :: members) = true →
    (membersText (member :: members)).length + 1 < bound →
    readMembers bound (membersText (member :: members) ++ '\x7d' :: rest) =
      some (member :: members, rest)

namespace BoundSuffices

theorem value_succ (h : BoundSuffices bound) (json : Json) (rest : List Char)
    (hwhole : json.isWhole = true) (hbound : json.render.toList.length < bound + 1)
    (hrest : ∀ char ∈ rest.head?, Numeral.isDigit 10 char = false) :
    readValue (bound + 1) (json.render.toList ++ rest) = some (json, rest) := by
  cases json with
  | null => rfl
  | bool value => cases value <;> rfl
  | int value =>
      rw [render]
      exact readValue_int bound value hrest
  | fraction numeral => cases hwhole
  | str string =>
      rw [render]
      exact readValue_quote bound string rest
  | arr items =>
      cases items with
      | nil => rfl
      | cons item items =>
          rw [toList_render_arr, List.length_cons, List.length_append,
            List.length_singleton] at hbound
          rw [toList_render_arr, List.cons_append, List.append_assoc, List.singleton_append]
          exact readValue_arr (h.items item items rest hwhole (by omega))
  | obj members =>
      cases members with
      | nil => rfl
      | cons member members =>
          rw [toList_render_obj, List.length_cons, List.length_append,
            List.length_singleton] at hbound
          rw [toList_render_obj, List.cons_append, List.append_assoc, List.singleton_append]
          exact readValue_obj (h.members member members rest hwhole (by omega))

theorem items_succ (h : BoundSuffices bound) (item : Json) (items : List Json) (rest : List Char)
    (hwhole : areWhole (item :: items) = true)
    (hbound : (itemsText (item :: items)).length + 1 < bound + 1) :
    readItems (bound + 1) (itemsText (item :: items) ++ ']' :: rest) =
      some (item :: items, rest) := by
  obtain ⟨hitem, hitems⟩ := Bool.and_eq_true_iff.mp hwhole
  cases items with
  | nil =>
      rw [itemsText_singleton] at hbound ⊢
      exact readItems_last
        (h.value item _ hitem (by omega) (isDigit_head_eq_false (by decide) rest))
  | cons next items =>
      rw [itemsText_cons, List.length_append, List.length_cons] at hbound
      rw [itemsText_cons, List.append_assoc, List.cons_append]
      exact readItems_more
        (h.value item _ hitem (by omega) (isDigit_head_eq_false (by decide) _))
        (h.items next items rest hitems (by omega))

theorem members_succ (h : BoundSuffices bound) (member : String × Json)
    (members : List (String × Json)) (rest : List Char)
    (hwhole : membersAreWhole (member :: members) = true)
    (hbound : (membersText (member :: members)).length + 1 < bound + 1) :
    readMembers (bound + 1) (membersText (member :: members) ++ '\x7d' :: rest) =
      some (member :: members, rest) := by
  obtain ⟨key, value⟩ := member
  obtain ⟨hvalue, hmembers⟩ := Bool.and_eq_true_iff.mp hwhole
  cases members with
  | nil =>
      rw [membersText_singleton, memberText, List.length_append, List.length_cons] at hbound
      rw [membersText_singleton, memberText, List.append_assoc, List.cons_append]
      exact readMembers_last (readKey_quote key _)
        (h.value value _ hvalue (by omega) (isDigit_head_eq_false (by decide) rest))
  | cons next members =>
      rw [membersText_cons, memberText, List.length_append, List.length_append, List.length_cons,
        List.length_cons] at hbound
      rw [membersText_cons, memberText, List.append_assoc, List.append_assoc, List.cons_append,
        List.cons_append]
      exact readMembers_more (readKey_quote key _)
        (h.value value _ hvalue (by omega) (isDigit_head_eq_false (by decide) _))
        (h.members next members rest hmembers (by omega))

end BoundSuffices

theorem boundSuffices (bound : Nat) : BoundSuffices bound := by
  induction bound with
  | zero =>
      refine ⟨?_, ?_, ?_⟩
      · exact fun _ _ _ h => absurd h (Nat.not_lt_zero _)
      · exact fun _ _ _ _ h => absurd h (Nat.not_lt_zero _)
      · exact fun _ _ _ _ h => absurd h (Nat.not_lt_zero _)
  | succ bound ih => exact ⟨ih.value_succ, ih.items_succ, ih.members_succ⟩

/-- A value whose numbers are all integers is read back from its text. -/
theorem read?_render {json : Json} (h : json.isWhole = true) : read? json.render = some json := by
  have hread := (boundSuffices _).value json [] h (Nat.lt_succ_self _) nofun
  rw [List.append_nil] at hread
  unfold read?
  rw [hread]

end LongMode.Json
