import LongMode.Sweep
import LongMode.Proofs.BlockEnd

/-!
# The state of a sweep

A sweep keeps two things in step: its cursor, and the failure that stopped it there.
`Coherent` says what holds between them. `next_cases` lists what asking for an instruction
can do, `Pulls` puts such calls one after another, and `Coherent.serve` concludes that every
request keeps a sweep coherent, so `serveAll_coherent` holds of all states that requests lead
to.
-/

namespace LongMode.Sweep

variable {sweep after : Sweep} {instructions : List Instruction}

/-! ## Asking for instructions -/

/-- Everything that asking for the next instruction can do. -/
theorem next_cases (sweep : Sweep) :
    (∃ failure, sweep.stopped = some failure ∧ sweep.next = (none, sweep)) ∨
    (∃ instruction, sweep.stopped = none ∧
      (decode sweep.settings sweep.cursor).outcome = .ok instruction ∧
      sweep.next =
        (some instruction,
          { sweep with cursor := sweep.cursor.forward instruction.length, stopped := none })) ∨
    (∃ failure, sweep.stopped = none ∧
      (decode sweep.settings sweep.cursor).outcome = .error failure ∧
      sweep.next = (none, { sweep with stopped := some failure })) := by
  unfold next
  cases hstopped : sweep.stopped with
  | some failure => exact .inl ⟨failure, rfl, rfl⟩
  | none =>
      cases houtcome : (decode sweep.settings sweep.cursor).outcome with
      | ok instruction =>
          refine .inr (.inl ⟨instruction, rfl, rfl, ?_⟩)
          simp only [houtcome, cursor_of_outcome_eq_ok houtcome, Cursor.forward]
      | error failure =>
          refine .inr (.inr ⟨failure, rfl, rfl, ?_⟩)
          simp only [houtcome, (cursor_of_outcome_eq_error houtcome).1]

/-- A call that gives an instruction decodes it and moves behind it. -/
theorem next_eq_some {instruction : Instruction} (h : sweep.next = (some instruction, after)) :
    (decode sweep.settings sweep.cursor).outcome = .ok instruction ∧
      after =
        { sweep with cursor := sweep.cursor.forward instruction.length, stopped := none } := by
  obtain ⟨failure, -, hnext⟩ | ⟨found, -, houtcome, hnext⟩ | ⟨failure, -, -, hnext⟩ :=
    next_cases sweep
  · cases hnext.symm.trans h
  · cases hnext.symm.trans h
    exact ⟨houtcome, rfl⟩
  · cases hnext.symm.trans h

/-- A call that gives nothing finds the sweep stopped, or stops it. -/
theorem next_eq_none (h : sweep.next = (none, after)) :
    (∃ failure, sweep.stopped = some failure ∧ after = sweep) ∨
    (∃ failure, (decode sweep.settings sweep.cursor).outcome = .error failure ∧
      after = { sweep with stopped := some failure }) := by
  obtain ⟨failure, hstopped, hnext⟩ | ⟨instruction, -, -, hnext⟩ | ⟨failure, -, houtcome, hnext⟩ :=
    next_cases sweep
  · cases hnext.symm.trans h
    exact .inl ⟨failure, hstopped, rfl⟩
  · cases hnext.symm.trans h
  · cases hnext.symm.trans h
    exact .inr ⟨failure, houtcome, rfl⟩

/-- What some calls for the next instruction give, one after another:
`Pulls sweep instructions after` says that they give `instructions` and leave `after`. A call
that gives nothing is the last of them. -/
inductive Pulls : Sweep → List Instruction → Sweep → Prop where
  | rest (sweep : Sweep) : Pulls sweep [] sweep
  | halt {sweep after : Sweep} (hnext : sweep.next = (none, after)) : Pulls sweep [] after
  | given {sweep between after : Sweep} {instruction : Instruction}
      {instructions : List Instruction} (hnext : sweep.next = (some instruction, between))
      (htail : Pulls between instructions after) :
      Pulls sweep (instruction :: instructions) after

theorem pulls_next (sweep : Sweep) : Pulls sweep sweep.next.1.toList sweep.next.2 := by
  cases hnext : sweep.next with
  | mk instruction after =>
      cases instruction with
      | none => exact .halt hnext
      | some instruction => exact .given hnext (.rest after)

theorem pulls_take (count : Nat) (sweep : Sweep) :
    Pulls sweep (take count sweep).1 (take count sweep).2 := by
  induction count generalizing sweep with
  | zero => exact .rest sweep
  | succ count ih =>
      cases hnext : sweep.next with
      | mk instruction after =>
          unfold take
          rw [hnext]
          cases instruction with
          | none => exact .halt hnext
          | some instruction => exact .given hnext (ih after)

theorem pulls_drain (sweep : Sweep) : Pulls sweep sweep.drain.1 sweep.drain.2 := by
  fun_induction drain sweep with
  | case1 sweep after hnext => exact .halt hnext
  | case2 sweep instruction after hnext following last hdrain ih =>
      rw [hdrain] at ih
      exact .given hnext ih

/-- Every instruction that is given leaves fewer bytes than there were. -/
theorem Pulls.length_le (h : Pulls sweep instructions after) :
    instructions.length + after.cursor.remaining ≤ sweep.cursor.remaining := by
  induction h with
  | rest sweep => exact Nat.le_of_eq (Nat.zero_add _)
  | @halt sweep after hnext =>
      have hcursor : after.cursor = sweep.cursor := by
        obtain ⟨failure, -, rfl⟩ | ⟨failure, -, rfl⟩ := next_eq_none hnext
        · rfl
        · rfl
      rw [hcursor]
      exact Nat.le_of_eq (Nat.zero_add _)
  | given hnext htail ih =>
      have hlt := remaining_next_lt hnext
      rw [List.length_cons]
      omega

/-- A stopped sweep gives nothing and stays as it is. -/
theorem next_of_stopped {failure : Failure} (h : sweep.stopped = some failure) :
    sweep.next = (none, sweep) := by
  unfold next
  rw [h]

theorem Pulls.eq_of_stopped {failure : Failure} (h : Pulls sweep instructions after)
    (hstopped : sweep.stopped = some failure) : instructions = [] ∧ after = sweep := by
  have hnext := next_of_stopped hstopped
  cases h with
  | rest => exact ⟨rfl, rfl⟩
  | halt hhalt =>
      cases hnext.symm.trans hhalt
      exact ⟨rfl, rfl⟩
  | given hgiven => cases hnext.symm.trans hgiven

/-- Draining a sweep gives no more instructions than its bounds say. -/
theorem length_drain_le (sweep : Sweep) : sweep.drain.1.length ≤ sweep.sizeBounds.2 := by
  have hpulls := pulls_drain sweep
  unfold sizeBounds
  cases hstopped : sweep.stopped with
  | some failure =>
      rw [(hpulls.eq_of_stopped hstopped).1]
      exact Nat.le_refl _
  | none =>
      show sweep.drain.1.length ≤ sweep.cursor.remaining
      have hlength := hpulls.length_le
      omega

/-! ## Coherent sweeps -/

/-- `sweep.Coherent settings region base` says that the sweep goes over that region, stands
in it, and, if it is stopped, is so by the failure of decoding where it stands. -/
structure Coherent (sweep : Sweep) (settings : Settings) (region : List UInt8) (base : UInt64) :
    Prop where
  settings_eq : sweep.settings = settings
  region_eq : sweep.cursor.region = region
  base_eq : sweep.cursor.base = base
  position_le : sweep.cursor.position ≤ region.length
  outcome_eq : ∀ failure ∈ sweep.stopped,
    (decode settings sweep.cursor).outcome = .error failure

variable {settings : Settings} {region : List UInt8} {base : UInt64}

theorem Coherent.position_le_capacity (h : sweep.Coherent settings region base) :
    sweep.cursor.position ≤ sweep.cursor.capacity := by
  rw [Cursor.capacity, h.region_eq]
  exact h.position_le

/-- A sweep that can go on is coherent wherever it stands in its region. -/
theorem coherent_of_position_le {position : Nat} (h : position ≤ region.length) :
    Coherent { settings, cursor := { region, position, base } } settings region base :=
  ⟨rfl, rfl, rfl, h, nofun⟩

/-- A coherent sweep that is moved within its region and let go on is coherent. -/
theorem Coherent.moveTo (h : sweep.Coherent settings region base) {position : Nat}
    (hposition : position ≤ region.length) :
    Coherent { sweep with cursor := { sweep.cursor with position }, stopped := none }
      settings region base :=
  ⟨h.settings_eq, h.region_eq, h.base_eq, hposition, nofun⟩

/-- Asking for the next instruction keeps a sweep coherent. -/
theorem Coherent.next (h : sweep.Coherent settings region base) :
    sweep.next.2.Coherent settings region base := by
  obtain ⟨failure, -, hnext⟩ | ⟨instruction, -, houtcome, hnext⟩ | ⟨failure, -, houtcome, hnext⟩ :=
    next_cases sweep
  · rw [hnext]
    exact h
  · have hposition := Cursor.position_decode_le sweep.settings h.position_le_capacity
    rw [cursor_of_outcome_eq_ok houtcome, Cursor.capacity, h.region_eq] at hposition
    rw [hnext]
    exact h.moveTo hposition
  · rw [h.settings_eq] at houtcome
    rw [hnext]
    refine ⟨h.settings_eq, h.region_eq, h.base_eq, h.position_le, ?_⟩
    intro found hfound
    cases hfound
    exact houtcome

/-- So do any number of such calls. -/
theorem Coherent.pulls (h : sweep.Coherent settings region base)
    (hpulls : Pulls sweep instructions after) : after.Coherent settings region base := by
  induction hpulls with
  | rest sweep => exact h
  | halt hnext =>
      have hafter := h.next
      rwa [hnext] at hafter
  | given hnext htail ih =>
      have hbetween := h.next
      rw [hnext] at hbetween
      exact ih hbetween

/-- Passing over bytes succeeds where there are enough of them, and lets the sweep go on. -/
theorem serve_skip (sweep : Sweep) (count : Nat) :
    sweep.serve (.skip count) =
      if count ≤ sweep.cursor.remaining then
        (.moved, { sweep with cursor := sweep.cursor.forward count, stopped := none })
      else (.refused (sweep.cursor.outOfBounds sweep.cursor.position count), sweep) := by
  show sweep.settle (sweep.skip count) = _
  unfold skip Cursor.advance
  split <;> rfl

/-- Moving to a place succeeds where the region has it, and lets the sweep go on. -/
theorem serve_seek (sweep : Sweep) (position : Nat) :
    sweep.serve (.seek position) =
      if position ≤ sweep.cursor.capacity then
        (.moved, { sweep with cursor := { sweep.cursor with position }, stopped := none })
      else (.refused (sweep.cursor.outOfBounds position 0), sweep) := by
  show sweep.settle (sweep.seek position) = _
  unfold seek Cursor.seek
  split <;> rfl

/-- Every request keeps a sweep coherent. -/
theorem Coherent.serve (h : sweep.Coherent settings region base) (request : Request) :
    (sweep.serve request).2.Coherent settings region base := by
  cases request with
  | next => exact h.next
  | take count => exact h.pulls (pulls_take count sweep)
  | drain => exact h.pulls (pulls_drain sweep)
  | skip count =>
      rw [serve_skip]
      by_cases hcount : count ≤ sweep.cursor.remaining
      · rw [if_pos hcount]
        refine h.moveTo ?_
        have hposition := h.position_le
        rw [Cursor.remaining, Cursor.capacity, h.region_eq] at hcount
        omega
      · rw [if_neg hcount]
        exact h
  | seek position =>
      rw [serve_seek]
      by_cases hplace : position ≤ sweep.cursor.capacity
      · rw [if_pos hplace]
        refine h.moveTo ?_
        rwa [Cursor.capacity, h.region_eq] at hplace
      · rw [if_neg hplace]
        exact h

/-- The sweep that a sequence of requests leads to. -/
def serveAll (sweep : Sweep) (requests : List Request) : Sweep :=
  requests.foldl (fun current request => (current.serve request).2) sweep

/-- So does every sequence of requests. -/
theorem Coherent.serveAll (h : sweep.Coherent settings region base) (requests : List Request) :
    (sweep.serveAll requests).Coherent settings region base := by
  induction requests generalizing sweep with
  | nil => exact h
  | cons request requests ih => exact ih (h.serve request)

/-! ## Stops -/

/-- No failure has the status of a success. -/
theorem status_ne_success (failure : Failure) : failure.status ≠ .success := by
  obtain ⟨address, cause⟩ := failure
  cases cause <;> exact nofun

/-- The status of a sweep is a success exactly while it is not stopped. -/
theorem status_eq_success_iff (sweep : Sweep) :
    sweep.status = .success ↔ sweep.stopped = none := by
  unfold status
  cases sweep.stopped with
  | none => simp
  | some failure => simpa using status_ne_success failure

theorem status_of_stopped {failure : Failure} (h : sweep.stopped = some failure) :
    sweep.status = failure.status := by
  unfold status
  rw [h]

theorem sizeBounds_of_stopped {failure : Failure} (h : sweep.stopped = some failure) :
    sweep.sizeBounds = (0, 0) := by
  unfold sizeBounds
  rw [h]

/-- Whatever is asked of a sweep, in whatever order, it stays within its region, and while it
is stopped it is so by the failure of decoding at the very place where it stands: it then
gives nothing more, does not change when asked, and promises nothing. Its status is that of
its stop, or a success while there is none. A move that is refused changes nothing, and one
that succeeds ends the stop. However the sweep got there, draining it gives at most as many
instructions as it promises. -/
theorem serveAll_coherent (settings : Settings) (region : List UInt8) (base : UInt64)
    (position : Nat) (hposition : position ≤ region.length) (requests : List Request) :
    let sweep := (Cursor.sweep { region, position, base } settings).serveAll requests
    sweep.settings = settings ∧ sweep.cursor.region = region ∧ sweep.cursor.base = base ∧
    sweep.cursor.position ≤ region.length ∧
    (∀ failure, sweep.stopped = some failure →
      (decode settings sweep.cursor).outcome = .error failure ∧
      failure.address = sweep.cursor.address ∧
      sweep.next = (none, sweep) ∧
      sweep.sizeBounds = (0, 0) ∧
      sweep.status = failure.status) ∧
    (sweep.status = .success ↔ sweep.stopped = none) ∧
    (∀ count, sweep.serve (.skip count) =
      if sweep.cursor.position + count ≤ region.length then
        (.moved, { sweep with cursor := sweep.cursor.forward count, stopped := none })
      else
        (.refused { offset := sweep.cursor.position, needed := count, capacity := region.length },
          sweep)) ∧
    (∀ place, sweep.serve (.seek place) =
      if place ≤ region.length then
        (.moved, { sweep with cursor := { sweep.cursor with position := place }, stopped := none })
      else (.refused { offset := place, needed := 0, capacity := region.length }, sweep)) ∧
    sweep.drain.1.length ≤ sweep.sizeBounds.2 := by
  intro sweep
  have hcoherent : sweep.Coherent settings region base :=
    (coherent_of_position_le hposition).serveAll requests
  have hcapacity : sweep.cursor.capacity = region.length := by
    rw [Cursor.capacity, hcoherent.region_eq]
  refine ⟨hcoherent.settings_eq, hcoherent.region_eq, hcoherent.base_eq, hcoherent.position_le,
    ?_, sweep.status_eq_success_iff, ?_, ?_, sweep.length_drain_le⟩
  · intro failure hstopped
    have houtcome := hcoherent.outcome_eq failure hstopped
    exact ⟨houtcome, (cursor_of_outcome_eq_error houtcome).2, next_of_stopped hstopped,
      sizeBounds_of_stopped hstopped, status_of_stopped hstopped⟩
  · intro count
    have hremaining : count ≤ sweep.cursor.remaining ↔
        sweep.cursor.position + count ≤ region.length := by
      have hle := hcoherent.position_le
      rw [Cursor.remaining, hcapacity]
      omega
    rw [serve_skip, Cursor.outOfBounds, hcapacity]
    simp only [hremaining]
  · intro place
    rw [serve_seek, Cursor.outOfBounds, hcapacity]

/-- A sweep from the middle of a region over a NOP, a byte that starts no instruction, and a
call that is cut off: it stops at the byte, is sent too far in vain, is sent on, and stops
where the call starts. -/
theorem serveAll_coherent_cut_call :
    2 ≤ ([0xCC, 0xCC, 0x90, 0x06, 0xE8] : List UInt8).length ∧
    ∃ sweep,
      (Cursor.sweep { region := [0xCC, 0xCC, 0x90, 0x06, 0xE8], position := 2, base := 0x1000 }
        {}).serveAll [.take 3, .seek 9, .next, .skip 1, .next] = sweep ∧
      sweep.stopped = some { address := 0x1004, cause := .endOfInput } ∧
      (decode {} sweep.cursor).outcome = .error { address := 0x1004, cause := .endOfInput } ∧
      sweep.next = (none, sweep) := by
  have hposition : 2 ≤ ([0xCC, 0xCC, 0x90, 0x06, 0xE8] : List UInt8).length := by decide
  obtain ⟨-, -, -, -, hstop, -⟩ := serveAll_coherent {} [0xCC, 0xCC, 0x90, 0x06, 0xE8] 0x1000 2
    hposition [.take 3, .seek 9, .next, .skip 1, .next]
  obtain ⟨houtcome, -, hnext, -⟩ := hstop { address := 0x1004, cause := .endOfInput } rfl
  exact ⟨hposition, _, rfl, rfl, houtcome, hnext⟩

end LongMode.Sweep
