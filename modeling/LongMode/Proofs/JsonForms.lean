import LongMode.Json.Settings
import LongMode.Json.Status
import LongMode.Proofs.JsonText
import Mathlib.Algebra.Group.Nat.Defs

/-!
# Values and their JSON forms

A value has more than one JSON form: an object may have members of other names, and a field
that is absent or has its default may be left out. `Spells` says which forms a value has.
Records are described by their `Slot`s, one for each field, and `SpellsMembers` by what may
stand in an object of such a record; that a field is found again in it is shown once, for any
record (`SpellsMembers.lookup`).

A `LawfulJsonCodec` reads every form of a value as that value, and the form it writes is one of
them. `json_round_trip` says so of the types that are written as JSON.
-/

namespace LongMode

open Json

/-- A codec that reads back what it writes, and every other form of a value. -/
class LawfulJsonCodec (α : Type) [JsonCodec α] where
  /-- Whether the counts in a value are 64-bit numbers. -/
  Fits : α → Prop
  /-- Whether a JSON value is a form of a value. -/
  Spells : α → Json → Prop
  spells_toJson : ∀ {value : α}, Fits value → Spells value (toJson value)
  ofJson?_of_spells : ∀ {value : α} {json : Json}, Spells value json → ofJson? json = some value
  ne_null : ∀ {value : α} {json : Json}, Spells value json → json ≠ .null
  isWhole_toJson : ∀ value : α, (toJson value).isWhole = true

export LawfulJsonCodec (Fits Spells spells_toJson ofJson?_of_spells isWhole_toJson)

/-- A codec that reads each value from the one form that it writes. -/
@[reducible]
def LawfulJsonCodec.ofExact {α : Type} [JsonCodec α]
    (hread : ∀ value : α, ofJson? (toJson value) = some value)
    (hnull : ∀ value : α, toJson value ≠ .null)
    (hwhole : ∀ value : α, (toJson value).isWhole = true) : LawfulJsonCodec α where
  Fits _ := True
  Spells value json := json = toJson value
  spells_toJson _ := rfl
  ofJson?_of_spells := by
    rintro value json rfl
    exact hread value
  ne_null := by
    rintro value json rfl
    exact hnull value
  isWhole_toJson := hwhole

/-! ## Numbers and names -/

theorem natural?_of_lt {bound value : Nat} (h : value < bound) :
    natural? bound (.int value) = some value :=
  if_pos h

instance : LawfulJsonCodec Bool :=
  .ofExact (fun _ => rfl) (fun _ => nofun) (fun _ => rfl)

instance : LawfulJsonCodec UInt8 := by
  refine .ofExact (fun value => ?_) (fun _ => nofun) (fun _ => rfl)
  show (natural? UInt8.size (.int value.toNat)).map UInt8.ofNat = some value
  rw [natural?_of_lt value.toNat_lt, Option.map_some, UInt8.ofNat_toNat]

instance : LawfulJsonCodec UInt64 := by
  refine .ofExact (fun value => ?_) (fun _ => nofun) (fun _ => rfl)
  show (natural? UInt64.size (.int value.toNat)).map UInt64.ofNat = some value
  rw [natural?_of_lt value.toNat_lt, Option.map_some, UInt64.ofNat_toNat]

instance : LawfulJsonCodec Nat where
  Fits value := value < 2 ^ 64
  Spells value json := value < 2 ^ 64 ∧ json = .int value
  spells_toJson h := ⟨h, rfl⟩
  ofJson?_of_spells := by
    rintro value json ⟨hvalue, rfl⟩
    exact natural?_of_lt hvalue
  ne_null := by
    rintro value json ⟨-, rfl⟩
    exact nofun
  isWhole_toJson _ := rfl

instance : LawfulJsonCodec Int32 := by
  refine .ofExact (fun value => ?_) (fun _ => nofun) (fun _ => rfl)
  have hrange : Int32.minValue.toInt ≤ value.toInt ∧ value.toInt ≤ Int32.maxValue.toInt :=
    ⟨value.minValue_le_toInt, value.toInt_le⟩
  show (if _ ∧ _ then some (Int32.ofInt value.toInt) else none) = some value
  rw [if_pos hrange, Int32.ofInt_toInt]

instance : LawfulJsonCodec Segment :=
  .ofExact (fun segment => by cases segment <;> rfl) (fun _ => nofun) (fun _ => rfl)

instance : LawfulJsonCodec RepeatPrefix :=
  .ofExact (fun kind => by cases kind <;> rfl) (fun _ => nofun) (fun _ => rfl)

instance : LawfulJsonCodec DisplacementSize :=
  .ofExact (fun size => by cases size <;> rfl) (fun _ => nofun) (fun _ => rfl)

instance : LawfulJsonCodec RexPolicy :=
  .ofExact (fun policy => by cases policy <;> rfl) (fun _ => nofun) (fun _ => rfl)

theorem lookup_opcodeMap (map : OpcodeMap) : OpcodeMap.table.lookup map.name = some map := by
  cases map <;> rfl

instance : LawfulJsonCodec Opcode := by
  refine .ofExact (fun opcode => ?_) (fun _ => nofun) (fun _ => rfl)
  show (OpcodeMap.table.lookup opcode.map.name).bind (fun map =>
    (ofJson? (toJson opcode.byte)).bind fun byte => some { map, byte }) = some opcode
  rw [lookup_opcodeMap, Option.bind_some, ofJson?_of_spells (spells_toJson trivial)]
  rfl

/-! ## Records -/

/-- A field of a record with its value: its key, the forms of its value, and whether the field
may be left out. -/
structure Slot where
  key : String
  Spelled : Json → Prop
  MayOmit : Prop

section

variable {α : Type} [JsonCodec α] [LawfulJsonCodec α]

/-- A field that has to be there. -/
def Slot.required (key : String) (value : α) : Slot where
  key
  Spelled := Spells value
  MayOmit := False

/-- A field that may be left out where it has its default. -/
def Slot.defaulted (key : String) (value default : α) : Slot where
  key
  Spelled := Spells value
  MayOmit := value = default

/-- The forms of a value that may be absent. -/
def SpellsOption : Option α → Json → Prop
  | none, json => json = .null
  | some value, json => Spells value json

/-- A field that may be left out where its value is absent. -/
def Slot.optional (key : String) (value : Option α) : Slot where
  key
  Spelled := SpellsOption value
  MayOmit := value = none

end

/-- `SpellsMembers keys slots members` says that the members are those of a record with the
given fields, in order, of which some may be left out, and between them any members whose key is
not one of `keys`. -/
inductive SpellsMembers (keys : List String) : List Slot → List (String × Json) → Prop where
  | nil : SpellsMembers keys [] []
  | written {slot : Slot} {slots : List Slot} {members : List (String × Json)} {json : Json}
      (hspelled : slot.Spelled json) (htail : SpellsMembers keys slots members) :
      SpellsMembers keys (slot :: slots) ((slot.key, json) :: members)
  | omitted {slot : Slot} {slots : List Slot} {members : List (String × Json)}
      (homit : slot.MayOmit) (htail : SpellsMembers keys slots members) :
      SpellsMembers keys (slot :: slots) members
  | unknown {slots : List Slot} {members : List (String × Json)} {key : String} {json : Json}
      (hkey : key ∉ keys) (htail : SpellsMembers keys slots members) :
      SpellsMembers keys slots ((key, json) :: members)

/-- The forms of a record with the given fields. -/
def SpellsRecord (slots : List Slot) (json : Json) : Prop :=
  ∃ members, json = .obj members ∧ SpellsMembers (slots.map Slot.key) slots members

namespace SpellsMembers

variable {keys : List String} {slots : List Slot} {slot : Slot} {members : List (String × Json)}

/-- A key that no field and no other member has is not found. -/
theorem lookup_eq_none (h : SpellsMembers keys slots members) {key : String} (hkey : key ∈ keys)
    (hslots : key ∉ slots.map Slot.key) : members.lookup key = none := by
  induction h with
  | nil => rfl
  | written hspelled htail ih =>
      rw [List.map_cons, List.mem_cons, not_or] at hslots
      rw [List.lookup_cons, beq_false_of_ne hslots.1]
      exact ih hslots.2
  | omitted homit htail ih =>
      rw [List.map_cons, List.mem_cons, not_or] at hslots
      exact ih hslots.2
  | unknown hunknown htail ih =>
      rw [List.lookup_cons, beq_false_of_ne (ne_of_mem_of_not_mem hkey hunknown)]
      exact ih hslots

/-- A field is found in one of its forms, or it is not there and may be left out. -/
theorem lookup (h : SpellsMembers keys slots members) (hkeys : slots.map Slot.key ⊆ keys)
    (hnodup : (slots.map Slot.key).Nodup) (hslot : slot ∈ slots) :
    (∃ json, members.lookup slot.key = some json ∧ slot.Spelled json) ∨
      (members.lookup slot.key = none ∧ slot.MayOmit) := by
  induction h with
  | nil => cases hslot
  | @written first slots members json hspelled htail ih =>
      rw [List.map_cons, List.nodup_cons] at hnodup
      rw [List.map_cons, List.cons_subset] at hkeys
      rw [List.lookup_cons]
      rcases List.mem_cons.mp hslot with rfl | hslot
      · rw [beq_self_eq_true]
        exact .inl ⟨json, rfl, hspelled⟩
      · have hne : slot.key ≠ first.key :=
          ne_of_mem_of_not_mem (List.mem_map_of_mem hslot) hnodup.1
        rw [beq_false_of_ne hne]
        exact ih hkeys.2 hnodup.2 hslot
  | @omitted first slots members homit htail ih =>
      rw [List.map_cons, List.nodup_cons] at hnodup
      rw [List.map_cons, List.cons_subset] at hkeys
      rcases List.mem_cons.mp hslot with rfl | hslot
      · exact .inr ⟨htail.lookup_eq_none hkeys.1 hnodup.1, homit⟩
      · exact ih hkeys.2 hnodup.2 hslot
  | unknown hunknown htail ih =>
      have hkey := hkeys (List.mem_map_of_mem hslot)
      rw [List.lookup_cons, beq_false_of_ne (ne_of_mem_of_not_mem hkey hunknown)]
      exact ih hkeys hnodup hslot

end SpellsMembers

section

variable {α : Type} [JsonCodec α] [LawfulJsonCodec α]
variable {slots : List Slot} {members : List (String × Json)} {key : String}

theorem field?_eq (h : SpellsMembers (slots.map Slot.key) slots members)
    (hkeys : (slots.map Slot.key).Nodup) {value : α} (hslot : .required key value ∈ slots) :
    field? members key = some value := by
  unfold field?
  rcases h.lookup (List.Subset.refl _) hkeys hslot with ⟨json, hlookup, hspelled⟩ | ⟨-, homit⟩
  · rw [show members.lookup key = some json from hlookup]
    exact ofJson?_of_spells hspelled
  · cases homit

omit [LawfulJsonCodec α] in
/-- A field with a default reads as its value if all its forms do, and the default is the value
wherever the field may be left out. -/
theorem fieldD?_of_mem (h : SpellsMembers (slots.map Slot.key) slots members)
    (hkeys : (slots.map Slot.key).Nodup) {slot : Slot} (hslot : slot ∈ slots) {value default : α}
    (hread : ∀ json, slot.Spelled json → ofJson? json = some value)
    (homit : slot.MayOmit → value = default) :
    fieldD? members slot.key default = some value := by
  unfold fieldD?
  rcases h.lookup (List.Subset.refl _) hkeys hslot with
    ⟨json, hlookup, hspelled⟩ | ⟨hlookup, hmay⟩
  · rw [hlookup]
    exact hread json hspelled
  · rw [hlookup, homit hmay]

theorem fieldD?_eq (h : SpellsMembers (slots.map Slot.key) slots members)
    (hkeys : (slots.map Slot.key).Nodup) {value default : α}
    (hslot : .defaulted key value default ∈ slots) :
    fieldD? members key default = some value :=
  fieldD?_of_mem h hkeys hslot (fun _ => ofJson?_of_spells) id

theorem ofJson?_of_spellsOption {value : Option α} {json : Json} (h : SpellsOption value json) :
    ofJson? json = some value := by
  cases value with
  | none =>
      cases h
      rfl
  | some value =>
      have hnull := LawfulJsonCodec.ne_null h
      have hread := ofJson?_of_spells h
      cases json with
      | null => exact absurd rfl hnull
      | _ => exact congrArg (Option.map some) hread

theorem fieldD?_none_eq (h : SpellsMembers (slots.map Slot.key) slots members)
    (hkeys : (slots.map Slot.key).Nodup) {value : Option α}
    (hslot : .optional key value ∈ slots) :
    fieldD? members key none = some value :=
  fieldD?_of_mem h hkeys hslot (fun _ => ofJson?_of_spellsOption) id

theorem spellsOption_toJson {value : Option α} (h : ∀ found ∈ value, Fits found) :
    SpellsOption value (toJson value) := by
  cases value with
  | none => rfl
  | some value => exact spells_toJson (h value rfl)

theorem isWhole_toJson_option (value : Option α) : (toJson value).isWhole = true := by
  cases value with
  | none => rfl
  | some value => exact isWhole_toJson value

end

/-- A codec of a record with the given fields. -/
@[reducible]
def LawfulJsonCodec.ofRecord {α : Type} [JsonCodec α] (fits : α → Prop) (slots : α → List Slot)
    (hwritten : ∀ {value : α}, fits value → SpellsRecord (slots value) (toJson value))
    (hread : ∀ {value : α} {members : List (String × Json)},
      SpellsMembers ((slots value).map Slot.key) (slots value) members →
        ofJson? (.obj members) = some value)
    (hwhole : ∀ value : α, (toJson value).isWhole = true) : LawfulJsonCodec α where
  Fits := fits
  Spells value := SpellsRecord (slots value)
  spells_toJson := hwritten
  ofJson?_of_spells := by
    rintro value json ⟨members, rfl, h⟩
    exact hread h
  ne_null := by
    rintro value json ⟨members, rfl, -⟩
    exact nofun
  isWhole_toJson := hwhole

/-- The fields of a REX prefix. -/
def Rex.slots (rex : Rex) : List Slot :=
  [.required "w" rex.w, .required "r" rex.r, .required "x" rex.x, .required "b" rex.b]

theorem Rex.ofJson?_obj {rex : Rex} {members : List (String × Json)}
    (h : SpellsMembers (rex.slots.map Slot.key) rex.slots members) :
    ofJson? (.obj members) = some rex := by
  have hkeys : (rex.slots.map Slot.key).Nodup := show ["w", "r", "x", "b"].Nodup by decide
  have hw : field? members "w" = some rex.w := field?_eq h hkeys (by simp [slots])
  have hr : field? members "r" = some rex.r := field?_eq h hkeys (by simp [slots])
  have hx : field? members "x" = some rex.x := field?_eq h hkeys (by simp [slots])
  have hb : field? members "b" = some rex.b := field?_eq h hkeys (by simp [slots])
  simp only [ofJson?, members?, Option.bind_eq_bind, Option.bind_some, hw, hr, hx, hb]
  rfl

instance : LawfulJsonCodec Rex :=
  .ofRecord (fun _ => True) Rex.slots
    (fun _ => ⟨_, rfl, .written rfl (.written rfl (.written rfl (.written rfl .nil)))⟩)
    Rex.ofJson?_obj (fun _ => rfl)

/-- The fields of prefixes. -/
def Prefixes.slots (prefixes : Prefixes) : List Slot :=
  [.optional "segment" prefixes.segment, .required "operand_size" prefixes.operandSize,
    .required "address_size" prefixes.addressSize, .optional "repeat" prefixes.repetition,
    .required "lock" prefixes.lock, .optional "rex" prefixes.rex,
    .required "len" prefixes.count]

theorem Prefixes.spellsRecord_toJson (prefixes : Prefixes) :
    SpellsRecord prefixes.slots (toJson prefixes) := by
  refine ⟨_, rfl, ?_⟩
  refine .written (spellsOption_toJson fun _ _ => trivial) ?_
  refine .written rfl (.written rfl ?_)
  refine .written (spellsOption_toJson fun _ _ => trivial) (.written rfl ?_)
  refine .written (spellsOption_toJson fun _ _ => trivial) (.written rfl .nil)

theorem Prefixes.ofJson?_obj {prefixes : Prefixes} {members : List (String × Json)}
    (h : SpellsMembers (prefixes.slots.map Slot.key) prefixes.slots members) :
    ofJson? (.obj members) = some prefixes := by
  have hkeys : (prefixes.slots.map Slot.key).Nodup :=
    show ["segment", "operand_size", "address_size", "repeat", "lock", "rex", "len"].Nodup by
      decide
  have hsegment : fieldD? members "segment" none = some prefixes.segment :=
    fieldD?_none_eq h hkeys (by simp [slots])
  have hoperand : field? members "operand_size" = some prefixes.operandSize :=
    field?_eq h hkeys (by simp [slots])
  have haddress : field? members "address_size" = some prefixes.addressSize :=
    field?_eq h hkeys (by simp [slots])
  have hrepeat : fieldD? members "repeat" none = some prefixes.repetition :=
    fieldD?_none_eq h hkeys (by simp [slots])
  have hlock : field? members "lock" = some prefixes.lock := field?_eq h hkeys (by simp [slots])
  have hrex : fieldD? members "rex" none = some prefixes.rex :=
    fieldD?_none_eq h hkeys (by simp [slots])
  have hcount : field? members "len" = some prefixes.count := field?_eq h hkeys (by simp [slots])
  simp only [ofJson?, members?, Option.bind_eq_bind, Option.bind_some, hsegment, hoperand,
    haddress, hrepeat, hlock, hrex, hcount]
  rfl

instance : LawfulJsonCodec Prefixes :=
  .ofRecord (fun _ => True) Prefixes.slots (fun _ => Prefixes.spellsRecord_toJson _)
    Prefixes.ofJson?_obj fun prefixes => by
      show membersAreWhole _ = true
      simp only [membersAreWhole, isWhole_toJson, isWhole_toJson_option, Bool.and_self]

/-- The fields of a ModR/M byte. -/
def ModRM.slots (modrm : ModRM) : List Slot :=
  [.required "mod_" modrm.mode, .required "reg" modrm.reg, .required "rm" modrm.rm]

theorem ModRM.ofJson?_obj {modrm : ModRM} {members : List (String × Json)}
    (h : SpellsMembers (modrm.slots.map Slot.key) modrm.slots members) :
    ofJson? (.obj members) = some modrm := by
  have hkeys : (modrm.slots.map Slot.key).Nodup := show ["mod_", "reg", "rm"].Nodup by decide
  have hmode : field? members "mod_" = some modrm.mode := field?_eq h hkeys (by simp [slots])
  have hreg : field? members "reg" = some modrm.reg := field?_eq h hkeys (by simp [slots])
  have hrm : field? members "rm" = some modrm.rm := field?_eq h hkeys (by simp [slots])
  simp only [ofJson?, members?, Option.bind_eq_bind, Option.bind_some, hmode, hreg, hrm]
  rfl

instance : LawfulJsonCodec ModRM :=
  .ofRecord (fun _ => True) ModRM.slots
    (fun _ => ⟨_, rfl, .written rfl (.written rfl (.written rfl .nil))⟩)
    ModRM.ofJson?_obj (fun _ => rfl)

/-- The fields of a SIB byte. -/
def Sib.slots (sib : Sib) : List Slot :=
  [.required "scale" sib.scale, .required "index" sib.index, .required "base" sib.base]

theorem Sib.ofJson?_obj {sib : Sib} {members : List (String × Json)}
    (h : SpellsMembers (sib.slots.map Slot.key) sib.slots members) :
    ofJson? (.obj members) = some sib := by
  have hkeys : (sib.slots.map Slot.key).Nodup := show ["scale", "index", "base"].Nodup by decide
  have hscale : field? members "scale" = some sib.scale := field?_eq h hkeys (by simp [slots])
  have hindex : field? members "index" = some sib.index := field?_eq h hkeys (by simp [slots])
  have hbase : field? members "base" = some sib.base := field?_eq h hkeys (by simp [slots])
  simp only [ofJson?, members?, Option.bind_eq_bind, Option.bind_some, hscale, hindex, hbase]
  rfl

instance : LawfulJsonCodec Sib :=
  .ofRecord (fun _ => True) Sib.slots
    (fun _ => ⟨_, rfl, .written rfl (.written rfl (.written rfl .nil))⟩)
    Sib.ofJson?_obj (fun _ => rfl)

/-- The fields of operands. -/
def Addressing.slots (addressing : Addressing) : List Slot :=
  [.required "modrm" addressing.modrm, .optional "sib" addressing.sib,
    .required "displacement_size" addressing.displacementSize,
    .required "rip_relative" addressing.ripRelative,
    .required "register_direct" addressing.registerDirect]

theorem Addressing.spellsRecord_toJson (addressing : Addressing) :
    SpellsRecord addressing.slots (toJson addressing) := by
  refine ⟨_, rfl, ?_⟩
  refine .written (spells_toJson trivial) ?_
  refine .written (spellsOption_toJson fun _ _ => trivial) ?_
  exact .written rfl (.written rfl (.written rfl .nil))

theorem Addressing.ofJson?_obj {addressing : Addressing} {members : List (String × Json)}
    (h : SpellsMembers (addressing.slots.map Slot.key) addressing.slots members) :
    ofJson? (.obj members) = some addressing := by
  have hkeys : (addressing.slots.map Slot.key).Nodup :=
    show ["modrm", "sib", "displacement_size", "rip_relative", "register_direct"].Nodup by decide
  have hmodrm : field? members "modrm" = some addressing.modrm :=
    field?_eq h hkeys (by simp [slots])
  have hsib : fieldD? members "sib" none = some addressing.sib :=
    fieldD?_none_eq h hkeys (by simp [slots])
  have hsize : field? members "displacement_size" = some addressing.displacementSize :=
    field?_eq h hkeys (by simp [slots])
  have hrelative : field? members "rip_relative" = some addressing.ripRelative :=
    field?_eq h hkeys (by simp [slots])
  have hdirect : field? members "register_direct" = some addressing.registerDirect :=
    field?_eq h hkeys (by simp [slots])
  simp only [ofJson?, members?, Option.bind_eq_bind, Option.bind_some, hmodrm, hsib, hsize,
    hrelative, hdirect]
  rfl

instance : LawfulJsonCodec Addressing :=
  .ofRecord (fun _ => True) Addressing.slots (fun _ => Addressing.spellsRecord_toJson _)
    Addressing.ofJson?_obj fun addressing => by
      show membersAreWhole _ = true
      simp only [membersAreWhole, isWhole_toJson, isWhole_toJson_option, Bool.and_self]

/-- The fields of an immediate. -/
def Immediate.slots (immediate : Immediate) : List Slot :=
  [.required "value" immediate.value, .required "size" immediate.size]

theorem Immediate.ofJson?_obj {immediate : Immediate} {members : List (String × Json)}
    (h : SpellsMembers (immediate.slots.map Slot.key) immediate.slots members) :
    ofJson? (.obj members) = some immediate := by
  have hkeys : (immediate.slots.map Slot.key).Nodup := show ["value", "size"].Nodup by decide
  have hvalue : field? members "value" = some immediate.value :=
    field?_eq h hkeys (by simp [slots])
  have hsize : field? members "size" = some immediate.size := field?_eq h hkeys (by simp [slots])
  simp only [ofJson?, members?, Option.bind_eq_bind, Option.bind_some, hvalue, hsize]
  rfl

instance : LawfulJsonCodec Immediate :=
  .ofRecord (fun _ => True) Immediate.slots
    (fun _ => ⟨_, rfl, .written rfl (.written rfl .nil)⟩) Immediate.ofJson?_obj (fun _ => rfl)

/-- The fields of an instruction. -/
def Instruction.slots (instruction : Instruction) : List Slot :=
  [.required "address" instruction.address, .required "length" instruction.length,
    .required "opcode" instruction.opcode, .required "prefixes" instruction.prefixes,
    .optional "modrm" instruction.addressing, .optional "displacement" instruction.displacement,
    .optional "immediate" instruction.immediate]

theorem Instruction.spellsRecord_toJson {instruction : Instruction}
    (h : instruction.length < 2 ^ 64) :
    SpellsRecord instruction.slots (toJson instruction) := by
  refine ⟨_, rfl, ?_⟩
  refine .written rfl (.written ⟨h, rfl⟩ (.written rfl ?_))
  refine .written (spells_toJson trivial) ?_
  refine .written (spellsOption_toJson fun _ _ => trivial) ?_
  refine .written (spellsOption_toJson fun _ _ => trivial) ?_
  exact .written (spellsOption_toJson fun _ _ => trivial) .nil

theorem Instruction.ofJson?_obj {instruction : Instruction} {members : List (String × Json)}
    (h : SpellsMembers (instruction.slots.map Slot.key) instruction.slots members) :
    ofJson? (.obj members) = some instruction := by
  have hkeys : (instruction.slots.map Slot.key).Nodup :=
    show ["address", "length", "opcode", "prefixes", "modrm", "displacement",
      "immediate"].Nodup by decide
  have haddress : field? members "address" = some instruction.address :=
    field?_eq h hkeys (by simp [slots])
  have hlength : field? members "length" = some instruction.length :=
    field?_eq h hkeys (by simp [slots])
  have hopcode : field? members "opcode" = some instruction.opcode :=
    field?_eq h hkeys (by simp [slots])
  have hprefixes : field? members "prefixes" = some instruction.prefixes :=
    field?_eq h hkeys (by simp [slots])
  have haddressing : fieldD? members "modrm" none = some instruction.addressing :=
    fieldD?_none_eq h hkeys (by simp [slots])
  have hdisplacement : fieldD? members "displacement" none = some instruction.displacement :=
    fieldD?_none_eq h hkeys (by simp [slots])
  have himmediate : fieldD? members "immediate" none = some instruction.immediate :=
    fieldD?_none_eq h hkeys (by simp [slots])
  simp only [ofJson?, members?, Option.bind_eq_bind, Option.bind_some, haddress, hlength, hopcode,
    hprefixes, haddressing, hdisplacement, himmediate]
  rfl

instance : LawfulJsonCodec Instruction :=
  .ofRecord (fun instruction => instruction.length < 2 ^ 64) Instruction.slots
    Instruction.spellsRecord_toJson Instruction.ofJson?_obj fun instruction => by
      show membersAreWhole _ = true
      simp only [membersAreWhole, isWhole_toJson, isWhole_toJson_option, Bool.and_self]

/-- The fields of settings, each of which may be left out where it has its default. -/
def Settings.slots (settings : Settings) : List Slot :=
  [.defaulted "max_length" settings.maxLength ({} : Settings).maxLength,
    .defaulted "rex_policy" settings.rexPolicy ({} : Settings).rexPolicy,
    .defaulted "report_truncation" settings.reportTruncation ({} : Settings).reportTruncation]

theorem Settings.ofJson?_obj {settings : Settings} {members : List (String × Json)}
    (h : SpellsMembers (settings.slots.map Slot.key) settings.slots members) :
    ofJson? (.obj members) = some settings := by
  have hkeys : (settings.slots.map Slot.key).Nodup :=
    show ["max_length", "rex_policy", "report_truncation"].Nodup by decide
  have hlength : fieldD? members "max_length" ({} : Settings).maxLength =
      some settings.maxLength := fieldD?_eq h hkeys (by simp [slots])
  have hpolicy : fieldD? members "rex_policy" ({} : Settings).rexPolicy =
      some settings.rexPolicy := fieldD?_eq h hkeys (by simp [slots])
  have hreport : fieldD? members "report_truncation" ({} : Settings).reportTruncation =
      some settings.reportTruncation := fieldD?_eq h hkeys (by simp [slots])
  simp only [ofJson?, members?, Option.bind_eq_bind, Option.bind_some, hlength, hpolicy, hreport]
  rfl

instance : LawfulJsonCodec Settings :=
  .ofRecord (fun settings => settings.maxLength < 2 ^ 64) Settings.slots
    (fun h => ⟨_, rfl, .written ⟨h, rfl⟩ (.written rfl (.written rfl .nil))⟩)
    Settings.ofJson?_obj (fun _ => rfl)

/-! ## Variants -/

/-- The forms of a variant with contents: an object with one member, named for the variant. -/
def SpellsVariant (name : String) (contents : Json → Prop) (json : Json) : Prop :=
  ∃ inner, json = .obj [(name, inner)] ∧ contents inner

namespace Malformation

/-- Whether the lengths in a malformation are 64-bit numbers. -/
def Fits : Malformation → Prop
  | .tooLong length limit => length < 2 ^ 64 ∧ limit < 2 ^ 64
  | _ => True

/-- The name of a malformation. -/
def name : Malformation → String
  | .unmappedOpcode _ => "UnmappedOpcode"
  | .unsupported _ => "Unsupported"
  | .tooLong _ _ => "TooLong"

/-- The fields of a malformation. -/
def slots : Malformation → List Slot
  | .unmappedOpcode opcode => [.required "class" opcode]
  | .unsupported byte => [.required "byte" byte]
  | .tooLong length limit => [.required "length" length, .required "max" limit]

theorem ofJson?_obj {reason : Malformation} {members : List (String × Json)}
    (h : SpellsMembers (reason.slots.map Slot.key) reason.slots members) :
    ofJson? (.obj [(reason.name, .obj members)]) = some reason := by
  cases reason with
  | unmappedOpcode opcode =>
      have hclass : field? members "class" = some opcode :=
        field?_eq h (show ["class"].Nodup by decide) (by simp [slots])
      show (field? members "class").bind (fun found => some (unmappedOpcode found)) = _
      rw [hclass]
      rfl
  | unsupported byte =>
      have hbyte : field? members "byte" = some byte :=
        field?_eq h (show ["byte"].Nodup by decide) (by simp [slots])
      show (field? members "byte").bind (fun found => some (unsupported found)) = _
      rw [hbyte]
      rfl
  | tooLong length limit =>
      have hkeys : ((tooLong length limit).slots.map Slot.key).Nodup :=
        show ["length", "max"].Nodup by decide
      have hlength : field? members "length" = some length := field?_eq h hkeys (by simp [slots])
      have hlimit : field? members "max" = some limit := field?_eq h hkeys (by simp [slots])
      show (field? members "length").bind (fun found =>
        (field? members "max").bind fun most => some (tooLong found most)) = _
      rw [hlength, hlimit]
      rfl

instance : LawfulJsonCodec Malformation where
  Fits := Fits
  Spells reason := SpellsVariant reason.name (SpellsRecord reason.slots)
  spells_toJson := by
    intro reason hfits
    cases reason with
    | unmappedOpcode opcode => exact ⟨_, rfl, _, rfl, .written rfl .nil⟩
    | unsupported byte => exact ⟨_, rfl, _, rfl, .written rfl .nil⟩
    | tooLong length limit =>
        exact ⟨_, rfl, _, rfl, .written ⟨hfits.1, rfl⟩ (.written ⟨hfits.2, rfl⟩ .nil)⟩
  ofJson?_of_spells := by
    rintro reason json ⟨inner, rfl, members, rfl, h⟩
    exact ofJson?_obj h
  ne_null := by
    rintro reason json ⟨inner, rfl, -⟩
    exact nofun
  isWhole_toJson reason := by cases reason <;> rfl

end Malformation

namespace Status

/-- Whether the lengths in a status are 64-bit numbers. -/
def Fits : Status → Prop
  | .malformed reason => reason.Fits
  | _ => True

/-- The forms of a status. -/
def Spells : Status → Json → Prop
  | .malformed reason, json => SpellsVariant "MalformedEncoding" (LongMode.Spells reason) json
  | status, json => json = toJson status

instance : LawfulJsonCodec Status where
  Fits := Fits
  Spells := Spells
  spells_toJson := by
    intro status hfits
    cases status with
    | malformed reason => exact ⟨_, rfl, spells_toJson hfits⟩
    | success | endOfInput | prefixConflict | truncated => rfl
  ofJson?_of_spells := by
    intro status json h
    cases status with
    | malformed reason =>
        obtain ⟨inner, rfl, h⟩ := h
        exact congrArg (Option.map malformed) (ofJson?_of_spells h)
    | success | endOfInput | prefixConflict | truncated =>
        cases h
        rfl
  ne_null := by
    intro status json h
    cases status with
    | malformed reason =>
        obtain ⟨inner, rfl, -⟩ := h
        exact nofun
    | success | endOfInput | prefixConflict | truncated =>
        cases h
        exact nofun
  isWhole_toJson status := by
    cases status with
    | malformed reason => exact Bool.and_eq_true_iff.mpr ⟨isWhole_toJson reason, rfl⟩
    | success | endOfInput | prefixConflict | truncated => rfl

end Status

/-! ## Reading back -/

/-- A value is read back from the text that is written for it, and from all its other forms. -/
structure ReadsBack {α : Type} [JsonCodec α] [LawfulJsonCodec α] (value : α) : Prop where
  read?_render : read? (toJson value).render = some (toJson value)
  ofJson?_toJson : ofJson? (toJson value) = some value
  spells_toJson : Spells value (toJson value)
  ofJson?_of_spells : ∀ json, Spells value json → ofJson? json = some value

theorem readsBack_of_fits {α : Type} [JsonCodec α] [LawfulJsonCodec α] {value : α}
    (h : Fits value) : ReadsBack value where
  read?_render := Json.read?_render (isWhole_toJson value)
  ofJson?_toJson := ofJson?_of_spells (spells_toJson h)
  spells_toJson := spells_toJson h
  ofJson?_of_spells _ := ofJson?_of_spells

/-- Values of the types that are written as JSON are read back exactly, whatever their fields,
as long as their counts are 64-bit numbers: from the text that is written for them, and just as
well from an object that has other members too, at any depth, or in which fields are left out
that are absent or have their default. -/
theorem json_round_trip :
    (∀ instruction : Instruction, instruction.length < 2 ^ 64 → ReadsBack instruction) ∧
    (∀ status : Status,
      (∀ length limit, status = .malformed (.tooLong length limit) →
        length < 2 ^ 64 ∧ limit < 2 ^ 64) → ReadsBack status) ∧
    (∀ settings : Settings, settings.maxLength < 2 ^ 64 → ReadsBack settings) ∧
    (∀ prefixes : Prefixes, ReadsBack prefixes) ∧
    (∀ addressing : Addressing, ReadsBack addressing) ∧
    (∀ immediate : Immediate, ReadsBack immediate) := by
  refine ⟨fun _ h => readsBack_of_fits h, ?_, fun _ h => readsBack_of_fits h,
    fun _ => readsBack_of_fits trivial, fun _ => readsBack_of_fits trivial,
    fun _ => readsBack_of_fits trivial⟩
  intro status h
  refine readsBack_of_fits ?_
  cases status with
  | malformed reason =>
      cases reason with
      | tooLong length limit => exact h length limit rfl
      | unmappedOpcode opcode => trivial
      | unsupported byte => trivial
  | success | endOfInput | prefixConflict | truncated => trivial

/-- Numbers at the limits of their types, a negative displacement, absent fields that are left
out, a length limit far outside its range, and members of other names in the record and in a
record within it. -/
theorem json_round_trip_limits :
    (2 ^ 64 - 1 < 2 ^ 64) ∧
    (ofJson? (.obj [
        ("note", .str "cut"),
        ("address", .int 0xFFFFFFFFFFFFFFFF),
        ("length", .int 0xFFFFFFFFFFFFFFFF),
        ("opcode", .obj [("TwoByte", .int 0xFF)]),
        ("prefixes", .obj [
          ("operand_size", .bool true),
          ("address_size", .bool false),
          ("lock", .bool false),
          ("bytes", .arr [.int 0x66]),
          ("len", .int 1)]),
        ("displacement", .int (-2147483648))]) : Option Instruction) =
      some {
        address := 0xFFFFFFFFFFFFFFFF
        length := 2 ^ 64 - 1
        opcode := { map := .twoByte, byte := 0xFF }
        prefixes := { operandSize := true, count := 1 }
        addressing := none
        displacement := some (-2147483648)
        immediate := none } ∧
    (ofJson? (.obj [("max_length", .int 0xFFFFFFFFFFFFFFFF), ("hint", .null)]) :
        Option Settings) = some { maxLength := 2 ^ 64 - 1 } := by
  obtain ⟨hinstruction, -, hsettings, -⟩ := json_round_trip
  refine ⟨by decide, (hinstruction _ ?_).ofJson?_of_spells _ ?_,
    (hsettings _ ?_).ofJson?_of_spells _ ?_⟩
  · decide
  · refine ⟨_, rfl, .unknown (by decide) (.written rfl (.written ⟨by decide, rfl⟩ ?_))⟩
    refine .written rfl (.written ?_ (.omitted rfl (.written rfl (.omitted rfl .nil))))
    refine ⟨_, rfl, .omitted rfl (.written rfl (.written rfl (.omitted rfl ?_)))⟩
    exact .written rfl (.omitted rfl (.unknown (by decide) (.written rfl .nil)))
  · decide
  · exact ⟨_, rfl, .written ⟨by decide, rfl⟩
      (.omitted rfl (.omitted rfl (.unknown (by decide) .nil)))⟩

end LongMode
