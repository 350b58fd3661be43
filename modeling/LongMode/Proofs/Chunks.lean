import LongMode.Proofs.Tiling

/-!
# Decoding in chunks

Code that arrives in chunks can be decoded as it arrives: the settled entries of a chunk
are those of the whole, and decoding goes on with the bytes behind them and the next
chunk. `Tiles.append` shows it along the tiling of the first chunk, where every single
outcome is stable under more input; `decodeAll_append` is the statement for blocks.
-/

namespace LongMode

/-- The entries in front of the first one that ran out of input. -/
def settled (entries : List Outcome) : List Outcome :=
  entries.takeWhile fun entry => ¬ IsOutOfInput entry

@[simp]
theorem settled_nil : settled [] = [] :=
  rfl

theorem settled_cons_of_isOutOfInput {entry : Outcome} (h : IsOutOfInput entry)
    (entries : List Outcome) : settled (entry :: entries) = [] := by
  simp [settled, h]

theorem settled_cons_of_not_isOutOfInput {entry : Outcome} (h : ¬ IsOutOfInput entry)
    (entries : List Outcome) : settled (entry :: entries) = entry :: settled entries := by
  simp [settled, h]

/-- Entries that did not run out of input are settled, in front of any others. -/
theorem settled_append {before : List Outcome} (h : ∀ entry ∈ before, ¬ IsOutOfInput entry)
    (after : List Outcome) : settled (before ++ after) = before ++ settled after := by
  refine List.takeWhile_append_of_pos ?_
  intro entry hentry
  simpa using h entry hentry

/-- Entries none of which ran out of input are settled. -/
theorem settled_eq_self {entries : List Outcome} (h : ∀ entry ∈ entries, ¬ IsOutOfInput entry) :
    settled entries = entries := by
  simpa using settled_append h []

/-- How many bytes at the start of a byte string its settled entries cover. -/
def settledLength (settings : Settings) (bytes : List UInt8) (address : UInt64) : Nat :=
  extent (settled (decodeAll settings bytes address))

/-- The settled entries of a byte string also start the tiling of a longer one, and it goes
on with the bytes behind them. -/
theorem Tiles.append {settings : Settings} {bytes : List UInt8} {address : UInt64}
    {entries : List Outcome} (h : Tiles settings bytes address entries) (extra : List UInt8) :
    Tiles settings (bytes ++ extra) address
      (settled entries ++ decodeAll settings (bytes.drop (extent (settled entries)) ++ extra)
        (address + UInt64.ofNat (extent (settled entries)))) := by
  induction h with
  | finished address => simpa using tiles_decodeAll settings extra address
  | @stopped bytes address hne hout =>
      rw [settled_cons_of_isOutOfInput hout]
      simpa using tiles_decodeAll settings (bytes ++ extra) address
  | @moved bytes address entries hne hin htail ih =>
      have hstride := (stride_decodeAt hne hin).2
      have hsame := decodeAt_append hin extra
      rw [settled_cons_of_not_isOutOfInput hin, List.cons_append, extent_cons, UInt64.ofNat_add,
        ← UInt64.add_assoc, ← List.drop_drop]
      rw [← List.drop_append_of_le_length hstride] at ih
      rw [← hsame] at hin ih ⊢
      exact .moved (List.append_ne_nil_of_left_ne_nil hne extra) hin ih

/-- Decoding in chunks agrees with decoding the whole. Either all entries of the first chunk
are settled and cover it, or all but the last, which ran out of input at the offset where
the settled ones end. The whole is decoded to the settled entries, followed by the
entries of what lies behind them. In particular a chunk in which no entry ran out of input
is decoded independently of what follows. -/
theorem decodeAll_append (settings : Settings) (first second : List UInt8) (base : UInt64) :
    ((settled (decodeAll settings first base) = decodeAll settings first base ∧
        settledLength settings first base = first.length) ∨
      ∃ last, decodeAll settings first base = settled (decodeAll settings first base) ++ [last] ∧
        IsOutOfInput last ∧ settledLength settings first base < first.length ∧
        last = (decode settings
          { region := first, position := settledLength settings first base, base }).outcome) ∧
    decodeAll settings (first ++ second) base =
      settled (decodeAll settings first base) ++
        decodeAll settings (first.drop (settledLength settings first base) ++ second)
          (base + UInt64.ofNat (settledLength settings first base)) ∧
    ((∀ entry ∈ decodeAll settings first base, ¬ IsOutOfInput entry) →
      decodeAll settings (first ++ second) base =
        decodeAll settings first base ++
          decodeAll settings second (base + UInt64.ofNat first.length)) := by
  have htiles := tiles_decodeAll settings first base
  have hwhole : decodeAll settings (first ++ second) base = _ :=
    (tiles_decodeAll settings (first ++ second) base).unique (htiles.append second)
  refine ⟨?_, hwhole, ?_⟩
  · obtain ⟨hnone, hextent⟩ | ⟨before, last, heq, hlast, hnone, hextent⟩ := htiles.ends
    · refine .inl ⟨settled_eq_self hnone, ?_⟩
      rw [settledLength, settled_eq_self hnone, hextent]
    · have hbefore : settled (decodeAll settings first base) = before := by
        rw [heq, settled_append hnone, settled_cons_of_isOutOfInput hlast, List.append_nil]
      have hentry : (decodeAll settings first base)[before.length]? = some last := by
        rw [heq, List.getElem?_concat_length]
      have hplace := (htiles.entry_eq hentry).2.1
      rw [heq, List.take_left] at hplace
      rw [settledLength, hbefore]
      refine .inr ⟨last, heq, hlast, hextent, ?_⟩
      rw [outcome_eq_decodeAt settings (Nat.le_of_lt hextent)]
      exact hplace
  · intro hnone
    have hextent : extent (decodeAll settings first base) = first.length := by
      obtain ⟨-, hextent⟩ | ⟨before, last, heq, hlast, -⟩ := htiles.ends
      · exact hextent
      · exact absurd hlast (hnone last (by rw [heq]; simp))
    rw [hwhole, settled_eq_self hnone, hextent, List.drop_length, List.nil_append]

end LongMode
