import LongMode.Proofs.SweepState

/-!
# Walking a region with a sweep

A client that wants all entries of a region drains a sweep, passes over one byte where the
stop allows it, and drains it again. `Walk` describes such clients: they may ask for single
instructions or for several at a time, in any order. `Coherent.pending_of_walk` says that the
notes of a client and the entries that its sweep still stands before always make up the whole
region, and `Walk.work_le` that every call that is not in vain brings it closer to the end.
`walk_agrees_decodeAll` compares the notes with `decodeAll`.
-/

namespace LongMode.Sweep

variable {sweep after last : Sweep} {instructions : List Instruction} {effort : Nat}
  {entries : List Outcome}

/-- What a client notes after calls that gave `instructions` and left `after`: these, and the
failure that stopped the sweep, if one did. -/
def noted (instructions : List Instruction) (after : Sweep) : List Outcome :=
  instructions.map .ok ++ after.stopped.toList.map .error

/-- A client that walks a region with a sweep: `Walk sweep effort entries last` says that it
gets from `sweep` to `last`, notes `entries` on the way, and makes `effort` calls that are not
in vain. -/
inductive Walk : Sweep → Nat → List Outcome → Sweep → Prop where
  | here (sweep : Sweep) : Walk sweep 0 [] sweep
  | next {sweep last : Sweep} {effort : Nat} {entries : List Outcome}
      (hrunning : sweep.stopped = none) (htail : Walk sweep.next.2 effort entries last) :
      Walk sweep (effort + 1) (noted sweep.next.1.toList sweep.next.2 ++ entries) last
  | take {sweep last : Sweep} {effort : Nat} {entries : List Outcome} (count : Nat)
      (hrunning : sweep.stopped = none) (hcount : 0 < count)
      (htail : Walk (take count sweep).2 effort entries last) :
      Walk sweep (effort + 1) (noted (take count sweep).1 (take count sweep).2 ++ entries) last
  | drain {sweep last : Sweep} {effort : Nat} {entries : List Outcome}
      (hrunning : sweep.stopped = none) (htail : Walk sweep.drain.2 effort entries last) :
      Walk sweep (effort + 1) (noted sweep.drain.1 sweep.drain.2 ++ entries) last
  /-- Asking a stopped sweep, or asking for no instruction, is in vain. -/
  | vain {sweep last : Sweep} {effort : Nat} {entries : List Outcome} {request : Request}
      (hrequest : request = .take 0 ∨
        sweep.stopped.isSome = true ∧ (request = .next ∨ ∃ count, request = .take count))
      (htail : Walk (sweep.serve request).2 effort entries last) :
      Walk sweep effort entries last
  /-- A stop that allows it is passed over. -/
  | resume {sweep resumed last : Sweep} {effort : Nat} {entries : List Outcome}
      {failure : Failure} (hstopped : sweep.stopped = some failure)
      (hresume : failure.isResynchronizable = true) (hskip : sweep.skip 1 = .ok resumed)
      (htail : Walk resumed effort entries last) : Walk sweep (effort + 1) entries last

/-- A walk is finished where the sweep has run out of input. -/
def IsFinished (sweep : Sweep) : Prop :=
  ∃ failure, sweep.stopped = some failure ∧ failure.isResynchronizable = false

/-- The entries that a client has not met yet. -/
def pending (sweep : Sweep) : List Outcome :=
  match sweep.stopped with
  | none => sweep.cursor.entriesToEnd sweep.settings
  | some failure =>
      if failure.isResynchronizable then (sweep.cursor.forward 1).entriesToEnd sweep.settings
      else []

variable {settings : Settings} {region : List UInt8} {base : UInt64}

/-! ## Single calls -/

theorem skip_eq_ok_iff {count : Nat} {resumed : Sweep} :
    sweep.skip count = .ok resumed ↔
      count ≤ sweep.cursor.remaining ∧
        resumed = { sweep with cursor := sweep.cursor.forward count, stopped := none } := by
  unfold skip Cursor.advance
  by_cases hcount : count ≤ sweep.cursor.remaining
  · rw [if_pos hcount]
    simp [Except.map, Cursor.forward, hcount, eq_comm]
  · rw [if_neg hcount]
    simp [Except.map, hcount]

/-- Calls in vain change nothing. -/
theorem serve_of_vain {request : Request}
    (h : request = .take 0 ∨
      sweep.stopped.isSome = true ∧ (request = .next ∨ ∃ count, request = .take count)) :
    (sweep.serve request).2 = sweep := by
  obtain rfl | ⟨hstopped, hrequest⟩ := h
  · rfl
  · obtain ⟨failure, hfailure⟩ := Option.isSome_iff_exists.mp hstopped
    obtain rfl | ⟨count, rfl⟩ := hrequest
    · exact ((pulls_next sweep).eq_of_stopped hfailure).2
    · exact ((pulls_take count sweep).eq_of_stopped hfailure).2

/-- The byte at a stop that allows it can always be passed over. -/
theorem Coherent.exists_skip (h : sweep.Coherent settings region base) {failure : Failure}
    (hstopped : sweep.stopped = some failure) (hresume : failure.isResynchronizable = true) :
    ∃ resumed, sweep.skip 1 = .ok resumed := by
  have houtcome := h.outcome_eq failure hstopped
  have hlt := Cursor.position_lt_of_isResynchronizable h.position_le_capacity houtcome hresume
  refine ⟨_, skip_eq_ok_iff.mpr ⟨?_, rfl⟩⟩
  show 1 ≤ sweep.cursor.capacity - sweep.cursor.position
  omega

/-- Passing over bytes keeps a sweep coherent. -/
theorem Coherent.skip (h : sweep.Coherent settings region base) {count : Nat} {resumed : Sweep}
    (hskip : sweep.skip count = .ok resumed) : resumed.Coherent settings region base := by
  have hserve : (sweep.settle (sweep.skip count)).2.Coherent settings region base :=
    h.serve (.skip count)
  rwa [hskip] at hserve

theorem pending_of_running (h : sweep.stopped = none) :
    sweep.pending = sweep.cursor.entriesToEnd sweep.settings := by
  unfold pending
  rw [h]

theorem pending_of_stopped {failure : Failure} (h : sweep.stopped = some failure) :
    sweep.pending =
      if failure.isResynchronizable then (sweep.cursor.forward 1).entriesToEnd sweep.settings
      else [] := by
  unfold pending
  rw [h]

/-- A stop is the first of the entries that were pending. -/
theorem Coherent.pending_of_error (h : sweep.Coherent settings region base) {failure : Failure}
    (houtcome : (decode sweep.settings sweep.cursor).outcome = .error failure) :
    sweep.cursor.entriesToEnd sweep.settings =
      .error failure :: pending { sweep with stopped := some failure } := by
  rw [pending_of_stopped rfl]
  by_cases hresume : failure.isResynchronizable = true
  · rw [if_pos hresume, Cursor.entriesToEnd_of_skip h.position_le_capacity houtcome hresume]
  · rw [if_neg hresume]
    exact Cursor.entriesToEnd_of_stop h.position_le_capacity houtcome (by simpa using hresume)

/-- What calls for instructions note, and what is pending after them, was pending before. -/
theorem Coherent.pending_of_pulls (h : sweep.Coherent settings region base)
    (hrunning : sweep.stopped = none) (hpulls : Pulls sweep instructions after) :
    sweep.pending = noted instructions after ++ after.pending := by
  induction hpulls with
  | rest sweep => simp [noted, hrunning]
  | halt hnext =>
      obtain ⟨failure, hstopped, -⟩ | ⟨failure, houtcome, rfl⟩ := next_eq_none hnext
      · cases hrunning.symm.trans hstopped
      · rw [pending_of_running hrunning, h.pending_of_error houtcome]
        rfl
  | @given sweep between after instruction instructions hnext htail ih =>
      have hbetween := h.next
      rw [hnext] at hbetween
      obtain ⟨houtcome, rfl⟩ := next_eq_some hnext
      have hentries := Cursor.entriesToEnd_of_ok h.position_le_capacity houtcome
      rw [cursor_of_outcome_eq_ok houtcome] at hentries
      rw [pending_of_running hrunning, hentries]
      show _ = .ok instruction :: (noted instructions after ++ after.pending)
      rw [← ih hbetween rfl]
      rfl

/-! ## Whole walks -/

theorem Coherent.walk (h : sweep.Coherent settings region base)
    (hwalk : Walk sweep effort entries last) : last.Coherent settings region base := by
  induction hwalk with
  | here sweep => exact h
  | next hrunning htail ih => exact ih h.next
  | take count hrunning hcount htail ih => exact ih (h.pulls (pulls_take count _))
  | drain hrunning htail ih => exact ih (h.pulls (pulls_drain _))
  | vain hrequest htail ih => exact ih (h.serve _)
  | resume hstopped hresume hskip htail ih => exact ih (h.skip hskip)

/-- The notes of a client and the entries that it has not met yet are those that it set out
for. -/
theorem Coherent.pending_of_walk (h : sweep.Coherent settings region base)
    (hwalk : Walk sweep effort entries last) : sweep.pending = entries ++ last.pending := by
  induction hwalk with
  | here sweep => rfl
  | next hrunning htail ih =>
      rw [h.pending_of_pulls hrunning (pulls_next _), ih h.next, List.append_assoc]
  | @take sweep _ _ _ count hrunning hcount htail ih =>
      have hpulls := pulls_take count sweep
      rw [h.pending_of_pulls hrunning hpulls, ih (h.pulls hpulls), List.append_assoc]
  | @drain sweep _ _ _ hrunning htail ih =>
      have hpulls := pulls_drain sweep
      rw [h.pending_of_pulls hrunning hpulls, ih (h.pulls hpulls), List.append_assoc]
  | vain hrequest htail ih =>
      rw [serve_of_vain hrequest] at ih
      exact ih h
  | resume hstopped hresume hskip htail ih =>
      rw [← ih (h.skip hskip)]
      obtain ⟨-, rfl⟩ := skip_eq_ok_iff.mp hskip
      rw [pending_of_stopped hstopped, if_pos hresume]
      rfl

/-- How many calls a client still has to make at most: two for each byte, and one to be
stopped. -/
def work (sweep : Sweep) : Nat :=
  2 * sweep.cursor.remaining + (if sweep.stopped.isSome then 0 else 1)

theorem work_of_running (h : sweep.stopped = none) :
    sweep.work = 2 * sweep.cursor.remaining + 1 := by
  unfold work
  rw [h]
  rfl

theorem work_of_stopped {failure : Failure} (h : sweep.stopped = some failure) :
    sweep.work = 2 * sweep.cursor.remaining := by
  unfold work
  rw [h]
  rfl

/-- Asking a sweep that can go on for an instruction takes work off. -/
theorem work_next_lt (h : sweep.stopped = none) : sweep.next.2.work < sweep.work := by
  rw [work_of_running h]
  obtain ⟨failure, hstopped, -⟩ | ⟨instruction, -, -, hnext⟩ | ⟨failure, -, -, hnext⟩ :=
    next_cases sweep
  · cases h.symm.trans hstopped
  · have hlt := remaining_next_lt hnext
    rw [hnext, work_of_running rfl]
    dsimp only at hlt ⊢
    omega
  · rw [hnext, work_of_stopped rfl]
    exact Nat.lt_succ_self _

theorem work_next_le (sweep : Sweep) : sweep.next.2.work ≤ sweep.work := by
  cases h : sweep.stopped with
  | none => exact Nat.le_of_lt (work_next_lt h)
  | some failure =>
      rw [next_of_stopped h]

theorem Pulls.work_le (h : Pulls sweep instructions after) : after.work ≤ sweep.work := by
  induction h with
  | rest sweep => exact Nat.le_refl _
  | @halt sweep after hnext =>
      have hle := sweep.work_next_le
      rwa [hnext] at hle
  | @given sweep _ _ _ _ hnext htail ih =>
      have hle := sweep.work_next_le
      rw [hnext] at hle
      exact Nat.le_trans ih hle

/-- A call for several instructions starts with a call for one. -/
theorem exists_pulls_take (sweep : Sweep) {count : Nat} (hcount : 0 < count) :
    ∃ instructions, Pulls sweep.next.2 instructions (take count sweep).2 := by
  cases count with
  | zero => cases hcount
  | succ count =>
      unfold take
      cases hnext : sweep.next with
      | mk instruction after =>
          cases instruction with
          | none => exact ⟨[], .rest after⟩
          | some instruction => exact ⟨_, pulls_take count after⟩

theorem exists_pulls_drain (sweep : Sweep) :
    ∃ instructions, Pulls sweep.next.2 instructions sweep.drain.2 := by
  unfold drain
  split
  · next after hnext =>
      rw [hnext]
      exact ⟨[], .rest after⟩
  · next instruction after hnext =>
      rw [hnext]
      exact ⟨_, pulls_drain after⟩

/-- Passing over the byte at a stop takes work off. -/
theorem work_skip_lt {failure : Failure} {resumed : Sweep} (hstopped : sweep.stopped = some failure)
    (hskip : sweep.skip 1 = .ok resumed) : resumed.work < sweep.work := by
  obtain ⟨hremaining, rfl⟩ := skip_eq_ok_iff.mp hskip
  rw [work_of_stopped hstopped, work_of_running rfl]
  simp only [Cursor.remaining, Cursor.capacity, Cursor.forward] at hremaining ⊢
  omega

/-- Every call that is not in vain takes work off. -/
theorem Walk.work_le (h : Walk sweep effort entries last) : effort + last.work ≤ sweep.work := by
  induction h with
  | here sweep => exact Nat.le_of_eq (Nat.zero_add _)
  | next hrunning htail ih =>
      have hlt := work_next_lt hrunning
      omega
  | @take sweep _ _ _ count hrunning hcount htail ih =>
      obtain ⟨instructions, hpulls⟩ := sweep.exists_pulls_take hcount
      have hle := hpulls.work_le
      have hlt := work_next_lt hrunning
      omega
  | @drain sweep _ _ _ hrunning htail ih =>
      obtain ⟨instructions, hpulls⟩ := sweep.exists_pulls_drain
      have hle := hpulls.work_le
      have hlt := work_next_lt hrunning
      omega
  | vain hrequest htail ih =>
      rwa [serve_of_vain hrequest] at ih
  | @resume sweep _ _ _ _ _ hstopped hresume hskip htail ih =>
      have hlt := work_skip_lt hstopped hskip
      omega

/-- Every walk can be carried on until it is finished. -/
theorem Coherent.exists_finished (h : sweep.Coherent settings region base) :
    ∃ effort entries last, Walk sweep effort entries last ∧ last.IsFinished := by
  -- One more call, or one byte passed over, leaves less work, so the induction is on that.
  induction hwork : sweep.work using Nat.strong_induction_on generalizing sweep with
  | _ bound ih =>
      cases hstopped : sweep.stopped with
      | none =>
          obtain ⟨effort, entries, last, hwalk, hlast⟩ :=
            ih _ (hwork ▸ work_next_lt hstopped) h.next rfl
          exact ⟨_, _, last, .next hstopped hwalk, hlast⟩
      | some failure =>
          by_cases hresume : failure.isResynchronizable = true
          · obtain ⟨resumed, hskip⟩ := h.exists_skip hstopped hresume
            obtain ⟨effort, entries, last, hwalk, hlast⟩ :=
              ih _ (hwork ▸ work_skip_lt hstopped hskip) (h.skip hskip) rfl
            exact ⟨_, _, last, .resume hstopped hresume hskip hwalk, hlast⟩
          · exact ⟨0, [], sweep, .here sweep, failure, hstopped, by simpa using hresume⟩

/-! ## Walks and blocks -/

/-- Nothing is pending where a walk is finished. -/
theorem pending_of_isFinished (h : sweep.IsFinished) : sweep.pending = [] := by
  obtain ⟨failure, hstopped, hfinal⟩ := h
  rw [pending_of_stopped hstopped, hfinal]
  rfl

/-- Before a walk the entries of the whole region are pending. -/
theorem pending_sweep_ofRegion (settings : Settings) (region : List UInt8) (base : UInt64) :
    ((Cursor.ofRegion region base).sweep settings).pending = decodeToEnd settings region base := by
  rw [pending_of_running rfl]
  show (Cursor.ofRegion region base).entriesToEnd settings = _
  rw [Cursor.entriesToEnd, Cursor.address_ofRegion]
  rfl

/-- However a region is walked with a sweep, the client meets the entries of the block. It can
make at most two calls that are not in vain for each byte of the region, and one more. Where
the stop allows it, there is a byte to pass over, so the walk can always be carried on until
it is finished. At any time its notes are the first entries of the block, and when it is
finished they are all of them, followed by the failure at the end of the region if the block
was decoded to there. Behind an instruction the next entry, an instruction or the stop, names
the address where the instruction ends. -/
theorem walk_agrees_decodeAll (settings : Settings) (region : List UInt8) (base : UInt64)
    {effort : Nat} {entries : List Outcome} {last : Sweep}
    (h : Walk ((Cursor.ofRegion region base).sweep settings) effort entries last) :
    let whole := decodeAll settings region base ++
      if extent (decodeAll settings region base) = region.length then [endOfBlock region base]
      else []
    effort ≤ 2 * region.length + 1 ∧
    (∀ failure, last.stopped = some failure → failure.isResynchronizable = true →
      ∃ resumed, last.skip 1 = .ok resumed) ∧
    (∃ more rest final, Walk last more rest final ∧ final.IsFinished) ∧
    (∃ rest, whole = entries ++ rest) ∧
    (last.IsFinished → entries = whole) ∧
    entries.IsChain fun entry following =>
      ∀ instruction, entry = .ok instruction → following.address = instruction.nextAddress := by
  intro whole
  have hwhole : ((Cursor.ofRegion region base).sweep settings).pending = whole := by
    rw [pending_sweep_ofRegion, decodeToEnd_eq]
  have hstart : ((Cursor.ofRegion region base).sweep settings).Coherent settings region base :=
    coherent_of_position_le (Nat.zero_le _)
  have hlast := hstart.walk h
  have hpending := hstart.pending_of_walk h
  rw [hwhole] at hpending
  refine ⟨?_, ?_, hlast.exists_finished, ⟨_, hpending⟩, ?_, ?_⟩
  · have hwork := h.work_le
    have hstart : ((Cursor.ofRegion region base).sweep settings).work = 2 * region.length + 1 :=
      work_of_running rfl
    omega
  · exact fun failure => hlast.exists_skip
  · intro hfinished
    rw [hpending, pending_of_isFinished hfinished, List.append_nil]
  · have hchain := isChain_decodeToEnd settings region base
    rw [← pending_sweep_ofRegion, hwhole, hpending] at hchain
    refine hchain.left_of_append.imp ?_
    intro entry following hfollowing instruction hentry
    rw [hfollowing, hentry]
    rfl

/-- A client takes what it can of a NOP and a byte that starts no instruction, asks the stopped
sweep once more in vain, passes over the byte, and meets a call that is cut off. The address
wraps on the way. -/
theorem walk_agrees_decodeAll_cut_call :
    ∃ entries last,
      Walk ((Cursor.ofRegion [0x90, 0x06, 0xE8] 0xFFFFFFFFFFFFFFFF).sweep {}) 3 entries last ∧
      last.IsFinished ∧
      entries.map Outcome.address = [0xFFFFFFFFFFFFFFFF, 0, 1] ∧
      entries = decodeAll {} [0x90, 0x06, 0xE8] 0xFFFFFFFFFFFFFFFF ++
        if extent (decodeAll {} [0x90, 0x06, 0xE8] 0xFFFFFFFFFFFFFFFF) = 3 then
          [endOfBlock [0x90, 0x06, 0xE8] 0xFFFFFFFFFFFFFFFF]
        else [] := by
  have hwalk : Walk ((Cursor.ofRegion [0x90, 0x06, 0xE8] 0xFFFFFFFFFFFFFFFF).sweep {}) 3 _ _ :=
    .take 5 rfl (by decide) (.vain (.inr ⟨rfl, .inl rfl⟩)
      (.resume rfl rfl rfl (.next rfl (.here _))))
  obtain ⟨-, -, -, -, hfinal, -⟩ :=
    walk_agrees_decodeAll {} [0x90, 0x06, 0xE8] 0xFFFFFFFFFFFFFFFF hwalk
  exact ⟨_, _, hwalk, ⟨_, rfl, rfl⟩, rfl, hfinal ⟨_, rfl, rfl⟩⟩

end LongMode.Sweep
