import LongMode.Proofs.Built

/-!
# Decoding makes progress

No stage of the decoder gives bytes back, because none of the readers it is built
from does, and reading the opcode uses up at least one.  `remaining_decode_lt`
concludes that a successful decode call leaves fewer bytes than there were: loops
over a region end by it.
-/

namespace LongMode

namespace Reader

variable {α β : Type}

/-- A reader that never gives bytes back. -/
def Forward (reader : Reader α) : Prop :=
  ∀ input value after, reader input = .ok (value, after) → input.consumed ≤ after.consumed

theorem forward_pure (value : α) : Forward (pure value : Reader α) := by
  intro input result after h
  obtain ⟨_, rfl⟩ := pure_eq_ok_iff.mp h
  exact Nat.le_refl _

theorem forward_fail (fault : Fault) : Forward (fail fault : Reader α) := by
  intro input result after h
  exact absurd h fail_ne_ok

theorem Forward.bind {first : Reader α} {second : α → Reader β}
    (hfirst : Forward first) (hsecond : ∀ value, Forward (second value)) :
    Forward (first >>= second) := by
  intro input result after h
  obtain ⟨value, between, h1, h2⟩ := bind_eq_ok_iff.mp h
  exact Nat.le_trans (hfirst _ _ _ h1) (hsecond value _ _ _ h2)

theorem forward_consumed : Forward consumed := by
  intro input value after h
  cases h
  exact Nat.le_refl _

theorem forward_peek : Forward peek := by
  intro input value after h
  have h := ofRead_eq_ok_iff.mp h
  rcases hpeek : input.peek with bounds | byte <;> simp [hpeek, Except.map] at h
  simp [← h.2]

/-- Reading a byte uses up one. -/
theorem consumed_byte {input after : Lookahead} {value : UInt8}
    (h : byte input = .ok (value, after)) : after.consumed = input.consumed + 1 :=
  (Lookahead.next_eq_ok_iff.mp (ofRead_eq_ok_iff.mp h)).2.1

theorem forward_byte : Forward byte := by
  intro input value after h
  have := consumed_byte h
  omega

theorem forward_skipByte : Forward skipByte := by
  intro input value after h
  have h := ofRead_eq_ok_iff.mp h
  simp only [Lookahead.skip] at h
  rcases htake : input.take 1 with bounds | ⟨bytes, rest⟩ <;> simp [htake, Except.map] at h
  have := (Lookahead.take_eq_ok_iff.mp htake).2.2.1
  subst h
  omega

theorem forward_littleEndian (count : Nat) : Forward (littleEndian count) := by
  intro input value after h
  have h := ofRead_eq_ok_iff.mp h
  simp only [Lookahead.readLittleEndian] at h
  rcases htake : input.take count with bounds | ⟨bytes, rest⟩ <;> simp [htake, Except.map] at h
  have := (Lookahead.take_eq_ok_iff.mp htake).2.2.1
  rw [← h.2]
  omega

/-- No reader that is put together from elementary ones gives bytes back. -/
theorem Built.forward {reader : Reader α} (h : Built reader) : Forward reader := by
  induction h with
  | pure value => exact forward_pure value
  | fail fault _ => exact forward_fail fault
  | consumed => exact forward_consumed
  | peek => exact forward_peek
  | byte => exact forward_byte
  | skipByte => exact forward_skipByte
  | littleEndian count _ => exact forward_littleEndian count
  | bind first second _ _ hfirst hsecond => exact hfirst.bind hsecond

end Reader

open Reader

/-- Reading an opcode uses up at least one byte. -/
theorem Opcode.consumed_read {input after : Lookahead} {opcode : Opcode}
    (h : Opcode.read input = .ok (opcode, after)) : input.consumed < after.consumed := by
  obtain ⟨first, between, hfirst, hrest⟩ := bind_eq_ok_iff.mp h
  have started := consumed_byte hfirst
  have further : between.consumed ≤ after.consumed := by
    refine Built.forward (built_ite (.pure _) ?_) between opcode after hrest
    refine .bind _ _ .byte fun second => built_ite ?_ (built_ite ?_ (.pure _))
    · exact .bind _ _ .byte fun _ => .pure _
    · exact .bind _ _ .byte fun _ => .pure _
  omega

/-- An instruction is as long as the bytes read for it, of which there is at
    least one. -/
theorem length_of_readInstruction {settings : Settings} {address : UInt64}
    {input after : Lookahead} {instruction : Instruction}
    (h : readInstruction settings address input = .ok (instruction, after)) :
    instruction.length = after.consumed ∧ input.consumed < after.consumed := by
  obtain ⟨prefixes, l1, h1, h⟩ := bind_eq_ok_iff.mp h
  obtain ⟨opcode, l2, h2, h⟩ := bind_eq_ok_iff.mp h
  obtain ⟨layout, l3, h3, h⟩ := bind_eq_ok_iff.mp h
  obtain ⟨_, l4, h4, h⟩ := bind_eq_ok_iff.mp h
  obtain ⟨⟨addressing, displacement⟩, l5, h5, h⟩ := bind_eq_ok_iff.mp h
  obtain ⟨immediate, l6, h6, h⟩ := bind_eq_ok_iff.mp h
  obtain ⟨length, l7, h7, h⟩ := bind_eq_ok_iff.mp h
  have := (Prefixes.built_scan _ _).forward _ _ _ h1
  have := Opcode.consumed_read h2
  have := opcode.built_layout.forward _ _ _ h3
  have := opcode.built_checkPop.forward _ _ _ h4
  have := (built_readOperands _ _).forward _ _ _ h5
  have := (Immediate.built_read _ _ _).forward _ _ _ h6
  cases h7
  split at h
  · exact absurd h fail_ne_ok
  · obtain ⟨rfl, rfl⟩ := pure_eq_ok_iff.mp h
    exact ⟨rfl, by omega⟩

/-- A decode call leaves no more bytes than there were. -/
theorem remaining_decode_le (settings : Settings) (cursor : Cursor) :
    (decode settings cursor).cursor.remaining ≤ cursor.remaining := by
  unfold decode
  dsimp only
  split
  · exact Nat.le_refl _
  · split
    · exact Nat.le_refl _
    · split
      · exact Nat.le_refl _
      · rename_i hadvance
        have := Cursor.remaining_of_advance hadvance
        simp only
        omega

/-- A successful decode call uses up at least one byte. -/
theorem remaining_decode_lt {settings : Settings} {cursor : Cursor} {instruction : Instruction}
    (h : (decode settings cursor).outcome = .ok instruction) :
    (decode settings cursor).cursor.remaining < cursor.remaining := by
  unfold decode at h ⊢
  dsimp only at h ⊢
  split at h
  · cases h
  · split at h
    · cases h
    · rename_i hread
      have positive := length_of_readInstruction hread
      split at h
      · cases h
      · rename_i hadvance
        have := Cursor.remaining_of_advance hadvance
        simp_all only [Cursor.lookahead]
        simp
        omega

end LongMode
