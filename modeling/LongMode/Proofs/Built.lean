import LongMode.Decode

/-!
# How readers are built

All stages of the decoder are put together from a few elementary readers. `Built`
says so as an inductive predicate, and `built_readInstruction` applies it to the whole
decoder. A property that holds of the elementary readers and is kept by sequencing
therefore holds of the decoder, by induction on `Built`, without another walk through
its stages.
-/

namespace LongMode

/-- A fault other than running out of bounds. -/
def Fault.IsDecisive (fault : Fault) : Prop :=
  ∀ bounds, fault ≠ .outOfBounds bounds

namespace Reader

/-- A reader that is put together from elementary readers. Only reads run out of
bounds, and no read takes more than eight bytes. -/
inductive Built : {α : Type} → Reader α → Prop where
  | pure {α : Type} (value : α) : Built (Pure.pure value : Reader α)
  | fail {α : Type} (fault : Fault) (h : fault.IsDecisive) : Built (Reader.fail fault : Reader α)
  | consumed : Built Reader.consumed
  | peek : Built Reader.peek
  | byte : Built Reader.byte
  | skipByte : Built Reader.skipByte
  | littleEndian (count : Nat) (h : count ≤ 8) : Built (Reader.littleEndian count)
  | bind {α β : Type} (first : Reader α) (second : α → Reader β) :
      Built first → (∀ value, Built (second value)) → Built (first >>= second)

variable {α : Type}

theorem built_ite {condition : Prop} [Decidable condition] {yes no : Reader α}
    (hyes : Built yes) (hno : Built no) : Built (if condition then yes else no) := by
  split
  · exact hyes
  · exact hno

end Reader

open Reader

/-- A malformed encoding is not a matter of bounds. -/
theorem Fault.isDecisive_malformed (reason : Malformation) :
    (Fault.malformed reason).IsDecisive :=
  nofun

theorem Prefixes.built_scanFrom (policy : RexPolicy) (limit room : Nat) (prefixes : Prefixes) :
    Built (scanFrom policy limit room prefixes) := by
  induction room generalizing prefixes with
  | zero =>
      refine .bind _ _ .consumed fun length => ?_
      exact .fail _ (Fault.isDecisive_malformed _)
  | succ room ih =>
      refine .bind _ _ .peek fun byte => ?_
      split
      · exact built_ite (.pure _) (.bind _ _ .skipByte fun _ => ih _)
      · exact built_ite (.bind _ _ .skipByte fun _ => ih _) (.pure _)

theorem Prefixes.built_scan (policy : RexPolicy) (limit : Nat) : Built (scan policy limit) :=
  .bind _ _ .consumed fun _ => built_scanFrom policy limit _ _

theorem Opcode.built_read : Built Opcode.read := by
  refine .bind _ _ .byte fun first => built_ite (.pure _) ?_
  refine .bind _ _ .byte fun second => built_ite ?_ (built_ite ?_ (.pure _))
  · exact .bind _ _ .byte fun _ => .pure _
  · exact .bind _ _ .byte fun _ => .pure _

/-- An opcode without a layout is refused whatever follows it. -/
theorem Opcode.isDecisive_of_layout {opcode : Opcode} {fault : Fault}
    (h : opcode.layout = .error fault) : fault.IsDecisive := by
  unfold Opcode.layout at h
  cases hkind : opcode.entry.kind with
  | defined => simp [hkind] at h
  | prefixByte | unsupported | invalid | escape =>
      simp only [hkind, Except.error.injEq] at h
      subst h
      exact nofun

theorem Opcode.built_layout (opcode : Opcode) : Built (Reader.ofExcept opcode.layout) := by
  cases h : opcode.layout with
  | ok layout => exact .pure _
  | error fault => exact .fail _ (isDecisive_of_layout h)

theorem Opcode.built_checkPop (opcode : Opcode) : Built opcode.checkPop := by
  refine built_ite (.bind _ _ .peek fun byte => ?_) (.pure _)
  exact built_ite (.fail _ (Fault.isDecisive_malformed _)) (.pure _)

theorem Addressing.built_readDisplacement (size : DisplacementSize) :
    Built (readDisplacement size) := by
  cases size with
  | absent => exact .pure _
  | byte => exact .bind _ _ .byte fun _ => .pure _
  | doubleword => exact .bind _ _ (.littleEndian 4 (by decide)) fun _ => .pure _

theorem Addressing.built_read (rex : Rex) (usage : ModRMUsage) :
    Built (Addressing.read rex usage) := by
  refine .bind _ _ .byte fun byte => built_ite (.pure _) ?_
  refine .bind _ _ (built_ite (.bind _ _ .byte fun _ => .pure _) (.pure _)) fun sib => ?_
  exact .bind _ _ (built_readDisplacement _) fun _ => .pure _

theorem built_readOperands (prefixes : Prefixes) (usage : ModRMUsage) :
    Built (readOperands prefixes usage) := by
  cases usage with
  | absent => exact .pure _
  | present | registerOnly => exact .bind _ _ (Addressing.built_read _ _) fun _ => .pure _

theorem Immediate.built_read (kind : ImmediateKind) (prefixes : Prefixes)
    (addressing : Option Addressing) : Built (Immediate.read kind prefixes addressing) := by
  refine built_ite (.pure _) (.bind _ _ (.littleEndian _ ?_) fun _ => .pure _)
  exact kind.size_le_eight prefixes addressing

/-- The whole decoder is put together from elementary readers. -/
theorem built_readInstruction (settings : Settings) (address : UInt64) :
    Built (readInstruction settings address) := by
  refine .bind _ _ (Prefixes.built_scan _ _) fun prefixes => ?_
  refine .bind _ _ Opcode.built_read fun opcode => ?_
  refine .bind _ _ opcode.built_layout fun layout => ?_
  refine .bind _ _ opcode.built_checkPop fun _ => ?_
  refine .bind _ _ (built_readOperands _ _) fun operands => ?_
  refine .bind _ _ (Immediate.built_read _ _ _) fun immediate => ?_
  refine .bind _ _ .consumed fun length => ?_
  exact built_ite (.fail _ (Fault.isDecisive_malformed _)) (.pure _)

end LongMode
