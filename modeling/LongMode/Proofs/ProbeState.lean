import LongMode.Probe
import LongMode.Proofs.BlockEnd

/-!
# The state of a probe

A probe has two views of one region: its cursor, and the lookahead that was last taken from it.
Ten requests read or move one of them, and each has its own way of checking the bounds.
`demand?` says which bytes a request asks for, and `Does` lists everything that a request can
do: it is refused those bytes, or one of the two views moves within the region. Every invariant
is read off that list (`Coherent.does`), so `serveAll_within` holds of all states that requests
lead to.
-/

namespace LongMode

/-! ## Lookaheads in a region -/

namespace Lookahead

variable {α : Type} {input after : Lookahead} {region bytes : List UInt8} {count : Nat}

/-- `input.Within region` says that the lookahead stands in that region and has the bytes behind
its place left to read. -/
structure Within (input : Lookahead) (region : List UInt8) : Prop where
  capacity_eq : input.capacity = region.length
  place_le : input.start + input.consumed ≤ region.length
  rest_eq : input.rest = region.drop (input.start + input.consumed)

/-- The bytes that are left reach to the end of the region. -/
theorem Within.place_add_length (h : input.Within region) :
    input.start + input.consumed + input.rest.length = region.length := by
  have hplace := h.place_le
  rw [h.rest_eq, List.length_drop]
  omega

/-- Reading on keeps a lookahead within its region. -/
theorem Within.reads (h : input.Within region) (hreads : input.Reads bytes after) :
    after.Within region := by
  have hlength := h.place_add_length
  have hplace : after.start + after.consumed = input.start + input.consumed + bytes.length := by
    rw [hreads.start_eq, hreads.consumed_eq, Nat.add_assoc]
  refine ⟨hreads.capacity_eq.trans h.capacity_eq, ?_, ?_⟩
  · rw [hreads.rest_eq, List.length_append] at hlength
    omega
  · rw [hplace, ← List.drop_drop, ← h.rest_eq, hreads.rest_eq, List.drop_left]

/-- A lookahead starts within the region of its cursor. -/
theorem within_lookahead {cursor : Cursor} (h : cursor.position ≤ cursor.capacity) :
    cursor.lookahead.Within cursor.region :=
  ⟨rfl, h, rfl⟩

/-- A lookahead looks at the byte that a cursor at its start would look at, and is refused it
alike. -/
theorem Within.peek_eq (h : input.Within region) (hregion : region.length < 2 ^ 64)
    {cursor : Cursor} (hcursor : cursor.region = region) (hstart : cursor.position = input.start) :
    input.peek = cursor.peek input.consumed := by
  have hplace := h.place_le
  have hindex : input.start + input.consumed < UInt64.size := Nat.lt_of_le_of_lt hplace hregion
  have hbyte : cursor.region[input.start + input.consumed]? = input.rest.head? := by
    rw [hcursor, h.rest_eq, List.head?_drop]
  have hbounds : cursor.outOfBounds (input.start + input.consumed) 1 = input.outOfBounds 1 := by
    rw [Cursor.outOfBounds, Cursor.capacity, hcursor, outOfBounds, h.capacity_eq]
  simp only [peek, Cursor.peek, hstart, if_pos hindex, hbyte, hbounds]
  cases input.rest with
  | nil => rfl
  | cons byte rest => rfl

/-- `IsRead read count` says that `read` asks for `count` bytes: it is refused exactly where
fewer are left, and otherwise it reads on from where it is. -/
structure IsRead (read : Lookahead → Except OutOfBounds (α × Lookahead)) (count : Nat) : Prop where
  reads : ∀ input value after, read input = .ok (value, after) → ∃ bytes, input.Reads bytes after
  refused_iff : ∀ input bounds, read input = .error bounds ↔
    input.rest.length < count ∧ bounds = input.outOfBounds count

theorem isRead_peek : IsRead (fun input => input.peek.map fun byte => (byte, input)) 1 where
  reads input value after h := by
    unfold peek at h
    rcases hrest : input.rest with _ | ⟨byte, rest⟩ <;> simp [hrest, Except.map] at h
    exact ⟨[], reads_nil_iff.mpr h.2⟩
  refused_iff input bounds := by
    unfold peek
    rcases input.rest with _ | ⟨byte, rest⟩ <;> simp [Except.map, eq_comm]

theorem isRead_next : IsRead next 1 where
  reads _ value _ h := ⟨[value], next_eq_ok_iff_reads.mp h⟩
  refused_iff input bounds := by
    unfold next
    rcases input.rest with _ | ⟨byte, rest⟩ <;> simp [eq_comm]

/-- Whatever is made of the bytes, taking them is a read. -/
theorem isRead_take (value : List UInt8 → α) (count : Nat) :
    IsRead (fun input => (input.take count).map fun (bytes, after) => (value bytes, after))
      count where
  reads input result after h := by
    obtain ⟨bytes, hreads, -⟩ := (map_take_eq_ok_iff value).mp h
    exact ⟨bytes, hreads⟩
  refused_iff input bounds := by
    rw [← take_eq_error_iff]
    cases input.take count <;> simp [Except.map]

theorem isRead_skip (count : Nat) :
    IsRead (fun input => (input.skip count).map fun after => ((), after)) count := by
  have hskip (input : Lookahead) : ((input.skip count).map fun after => ((), after)) =
      (input.take count).map fun (_, after) => ((), after) := by
    unfold skip
    cases input.take count <;> rfl
  simp only [hskip]
  exact isRead_take (fun _ => ()) count

end Lookahead

/-- Looking ahead of a cursor is refused behind the end of the region. A place that is no 64-bit
index is reported as the last one that is. -/
theorem Cursor.peek_cases (cursor : Cursor) (offset : Nat) :
    (∃ byte, cursor.peek offset = .ok byte ∧ cursor.position + offset < cursor.capacity) ∨
    (cursor.peek offset =
        .error (cursor.outOfBounds (min (cursor.position + offset) (2 ^ 64 - 1)) 1) ∧
      (cursor.capacity < 2 ^ 64 → cursor.capacity ≤ cursor.position + offset)) := by
  unfold peek
  dsimp only
  by_cases hindex : cursor.position + offset < UInt64.size
  · rw [if_pos hindex]
    cases hbyte : cursor.region[cursor.position + offset]? with
    | some byte => exact .inl ⟨byte, rfl, (List.getElem?_eq_some_iff.mp hbyte).1⟩
    | none =>
        have hmin : min (cursor.position + offset) (2 ^ 64 - 1) = cursor.position + offset :=
          Nat.min_eq_left (Nat.le_pred_of_lt hindex)
        rw [hmin]
        exact .inr ⟨rfl, fun _ => List.getElem?_eq_none_iff.mp hbyte⟩
  · have hlast : 2 ^ 64 - 1 ≤ cursor.position + offset :=
      Nat.le_trans (Nat.sub_le _ _) (Nat.le_of_not_lt hindex)
    rw [if_neg hindex, Nat.min_eq_right hlast]
    refine .inr ⟨rfl, ?_⟩
    intro hcapacity
    omega

namespace Probe

variable {probe after : Probe} {request : Request} {answer : Answer} {region : List UInt8}
  {base : UInt64}

/-! ## What a request can do -/

/-- The bytes that a request asks for, as they are reported when it is refused them. Decode calls
and new lookaheads are never refused. -/
def demand? (probe : Probe) : Request → Option OutOfBounds
  | .peek offset =>
      some (probe.cursor.outOfBounds (min (probe.cursor.position + offset) (2 ^ 64 - 1)) 1)
  | .advance count => some (probe.cursor.outOfBounds probe.cursor.position count)
  | .seek position => some (probe.cursor.outOfBounds position 0)
  | .decode _ => none
  | .look => none
  | .lookPeek => probe.lookahead.map fun look => look.outOfBounds 1
  | .lookNext => probe.lookahead.map fun look => look.outOfBounds 1
  | .lookRead count => probe.lookahead.map fun look => look.outOfBounds count
  | .lookSkip count => probe.lookahead.map fun look => look.outOfBounds count

/-- Whether a request is one for the lookahead. The others are for the cursor. -/
def Request.isLook : Request → Bool
  | .peek _ => false
  | .advance _ => false
  | .seek _ => false
  | .decode _ => false
  | .look => true
  | .lookPeek => true
  | .lookNext => true
  | .lookRead _ => true
  | .lookSkip _ => true

/-- Whether an answer says that its request failed. -/
def Answer.isFailure : Answer → Bool
  | .refused _ => true
  | .decoded (.error _) => true
  | _ => false

/-- The bytes that a request asks for are there, and it does not fail. -/
structure Grants (probe : Probe) (request : Request) (answer : Answer) : Prop where
  demand : ∀ bounds ∈ probe.demand? request, bounds.offset + bounds.needed ≤ bounds.capacity
  answer : answer.isFailure = false

/-- What a request can do: `probe.Does request answer after` says that it is answered by `answer`
and leaves `after`. -/
inductive Does (probe : Probe) : Request → Answer → Probe → Prop where
  /-- The region does not have the bytes that are asked for. -/
  | refuses {request : Request} {bounds : OutOfBounds}
      (hdemand : probe.demand? request = some bounds)
      (hshort : bounds.capacity < 2 ^ 64 → bounds.capacity < bounds.offset + bounds.needed) :
      Does probe request (.refused bounds) probe
  /-- No instruction can be decoded at the cursor. -/
  | fails (settings : Settings) (failure : Failure) :
      Does probe (.decode settings) (.decoded (.error failure)) probe
  /-- Nothing moves. -/
  | stays {request : Request} {answer : Answer} (hgrants : probe.Grants request answer) :
      Does probe request answer probe
  /-- The cursor moves. -/
  | moves {request : Request} {answer : Answer} {position : Nat}
      (hgrants : probe.Grants request answer) (hcursor : request.isLook = false)
      (hposition : position ≤ probe.cursor.capacity) :
      Does probe request answer { probe with cursor := { probe.cursor with position } }
  /-- The lookahead reads on. -/
  | reads {request : Request} {answer : Answer} {look after : Lookahead} {bytes : List UInt8}
      (hgrants : probe.Grants request answer) (hlook : request.isLook = true)
      (hbefore : probe.lookahead = some look) (hreads : look.Reads bytes after) :
      Does probe request answer { probe with lookahead := some after }
  /-- A lookahead is taken at the cursor. -/
  | looks : Does probe .look .silent { probe with lookahead := some probe.cursor.lookahead }

/-- `probe.Coherent region base` says that the probe looks into that region, with its cursor and
its lookahead within it. -/
structure Coherent (probe : Probe) (region : List UInt8) (base : UInt64) : Prop where
  region_eq : probe.cursor.region = region
  base_eq : probe.cursor.base = base
  position_le : probe.cursor.position ≤ region.length
  within : ∀ look ∈ probe.lookahead, look.Within region

theorem Coherent.capacity_eq (h : probe.Coherent region base) :
    probe.cursor.capacity = region.length := by
  rw [Cursor.capacity, h.region_eq]

theorem Coherent.position_le_capacity (h : probe.Coherent region base) :
    probe.cursor.position ≤ probe.cursor.capacity := by
  rw [h.capacity_eq]
  exact h.position_le

/-- A read of the lookahead moves it over bytes that are there, or is refused them. -/
theorem Coherent.does_settleLookahead {α : Type} (h : probe.Coherent region base)
    {read : Lookahead → Except OutOfBounds (α × Lookahead)} {count : Nat}
    (hread : Lookahead.IsRead read count) {value : α → Answer} (hlook : request.isLook = true)
    (hdemand : probe.demand? request = probe.lookahead.map fun look => look.outOfBounds count)
    (hvalue : ∀ result, (value result).isFailure = false) :
    probe.Does request (probe.settleLookahead value read).1
      (probe.settleLookahead value read).2 := by
  unfold settleLookahead
  cases hbefore : probe.lookahead with
  | none =>
      rw [hbefore] at hdemand
      refine .stays ⟨?_, rfl⟩
      rw [hdemand]
      exact nofun
  | some look =>
      rw [hbefore] at hdemand
      have hwithin := h.within look hbefore
      have hlength := hwithin.place_add_length
      have hcapacity := hwithin.capacity_eq
      cases hresult : read look with
      | error bounds =>
          obtain ⟨hshort, rfl⟩ := (hread.refused_iff look bounds).mp hresult
          simp only [hresult]
          refine .refuses hdemand fun _ => ?_
          simp only [Lookahead.outOfBounds]
          omega
      | ok result =>
          obtain ⟨result, last⟩ := result
          obtain ⟨bytes, hreads⟩ := hread.reads look result last hresult
          have hthere : count ≤ look.rest.length := by
            -- Where they are not there, the read is refused.
            refine Nat.le_of_not_lt fun hshort => ?_
            cases hresult.symm.trans ((hread.refused_iff look _).mpr ⟨hshort, rfl⟩)
          simp only [hresult]
          refine .reads ⟨?_, hvalue result⟩ hlook hbefore hreads
          intro bounds hbounds
          rw [hdemand] at hbounds
          obtain rfl := Option.some.inj hbounds
          simp only [Lookahead.outOfBounds]
          omega

/-- Every request of a coherent probe does one of the things that are listed. -/
theorem Coherent.does (h : probe.Coherent region base) (request : Request) :
    probe.Does request (probe.serve request).1 (probe.serve request).2 := by
  have hposition := h.position_le_capacity
  cases request with
  | peek offset =>
      obtain ⟨byte, hpeek, hthere⟩ | ⟨hpeek, hshort⟩ := probe.cursor.peek_cases offset
      · simp only [serve, hpeek]
        refine .stays ⟨?_, rfl⟩
        intro bounds hbounds
        obtain rfl := Option.some.inj hbounds
        simp only [Cursor.outOfBounds]
        omega
      · simp only [serve, hpeek]
        refine .refuses rfl ?_
        simp only [Cursor.outOfBounds]
        omega
  | advance count =>
      by_cases hcount : count ≤ probe.cursor.remaining
      · have hthere : probe.cursor.position + count ≤ probe.cursor.capacity := by
          rw [Cursor.remaining] at hcount
          omega
        simp only [serve, Cursor.advance, if_pos hcount]
        refine .moves ⟨?_, rfl⟩ rfl hthere
        intro bounds hbounds
        obtain rfl := Option.some.inj hbounds
        exact hthere
      · simp only [serve, Cursor.advance, if_neg hcount]
        refine .refuses rfl fun _ => ?_
        rw [Cursor.remaining] at hcount
        simp only [Cursor.outOfBounds]
        omega
  | seek position =>
      by_cases hplace : position ≤ probe.cursor.capacity
      · simp only [serve, Cursor.seek, if_pos hplace]
        refine .moves ⟨?_, rfl⟩ rfl hplace
        intro bounds hbounds
        obtain rfl := Option.some.inj hbounds
        exact hplace
      · simp only [serve, Cursor.seek, if_neg hplace]
        exact .refuses rfl fun _ => Nat.lt_of_not_le hplace
  | decode settings =>
      have hdecode := Cursor.position_decode_le settings hposition
      unfold serve
      cases houtcome : (LongMode.decode settings probe.cursor).outcome with
      | ok instruction =>
          rw [cursor_of_outcome_eq_ok houtcome] at hdecode
          simp only [houtcome, cursor_of_outcome_eq_ok houtcome]
          exact .moves ⟨by simp [demand?], rfl⟩ rfl hdecode
      | error failure =>
          simp only [houtcome, (cursor_of_outcome_eq_error houtcome).1]
          exact .fails settings failure
  | look => exact .looks
  | lookPeek => exact h.does_settleLookahead Lookahead.isRead_peek rfl rfl fun _ => rfl
  | lookNext => exact h.does_settleLookahead Lookahead.isRead_next rfl rfl fun _ => rfl
  | lookRead count =>
      exact h.does_settleLookahead
        (Lookahead.isRead_take (fun bytes => UInt64.ofNat (LittleEndian.value bytes)) count)
        rfl rfl fun _ => rfl
  | lookSkip count =>
      exact h.does_settleLookahead (Lookahead.isRead_skip count) rfl rfl fun _ => rfl

/-! ## What requests keep -/

namespace Does

/-- A request that fails changes nothing, and if it is no decode call it is refused bytes. -/
theorem of_isFailure (h : probe.Does request answer after) (hfailure : answer.isFailure = true) :
    after = probe ∧
      ((∃ settings, request = .decode settings) ∨
        ∃ bounds, probe.demand? request = some bounds ∧ answer = .refused bounds) := by
  cases h with
  | @refuses _ bounds hdemand => exact ⟨rfl, .inr ⟨bounds, hdemand, rfl⟩⟩
  | fails settings => exact ⟨rfl, .inl ⟨settings, rfl⟩⟩
  | stays hgrants => exact absurd hfailure (by simp [hgrants.answer])
  | moves hgrants => exact absurd hfailure (by simp [hgrants.answer])
  | reads hgrants => exact absurd hfailure (by simp [hgrants.answer])
  | looks => cases hfailure

/-- A request is refused exactly when it asks for bytes behind the end of the region. -/
theorem eq_refused_iff (h : probe.Does request answer after)
    (hcapacity : ∀ bounds ∈ probe.demand? request, bounds.capacity < 2 ^ 64)
    {bounds : OutOfBounds} :
    answer = .refused bounds ↔
      probe.demand? request = some bounds ∧ bounds.capacity < bounds.offset + bounds.needed := by
  have hgranted (hgrants : probe.Grants request answer) :
      answer = .refused bounds ↔
        probe.demand? request = some bounds ∧ bounds.capacity < bounds.offset + bounds.needed := by
    refine iff_of_false ?_ ?_
    · rintro rfl
      cases hgrants.answer
    · rintro ⟨hdemand, hshort⟩
      have hthere := hgrants.demand bounds hdemand
      omega
  cases h with
  | @refuses _ found hdemand hshort =>
      refine ⟨?_, ?_⟩
      · intro heq
        cases heq
        exact ⟨hdemand, hshort (hcapacity bounds hdemand)⟩
      · rintro ⟨hfound, -⟩
        rw [Option.some.inj (hdemand.symm.trans hfound)]
  | fails => exact iff_of_false nofun nofun
  | stays hgrants => exact hgranted hgrants
  | moves hgrants => exact hgranted hgrants
  | reads hgrants => exact hgranted hgrants
  | looks => exact iff_of_false nofun nofun

/-- A request for the cursor leaves the lookahead alone. -/
theorem lookahead_eq (h : probe.Does request answer after) (hcursor : request.isLook = false) :
    after.lookahead = probe.lookahead := by
  cases h with
  | refuses => rfl
  | fails => rfl
  | stays => rfl
  | moves => rfl
  | reads _ hlook => cases hcursor.symm.trans hlook
  | looks => cases hcursor

/-- A request for the lookahead leaves the cursor alone. -/
theorem cursor_eq (h : probe.Does request answer after) (hlook : request.isLook = true) :
    after.cursor = probe.cursor := by
  cases h with
  | refuses => rfl
  | fails => cases hlook
  | stays => rfl
  | moves _ hcursor => cases hlook.symm.trans hcursor
  | reads => rfl
  | looks => rfl

/-- Whatever a request does keeps a probe coherent. -/
theorem coherent (h : probe.Does request answer after) (hbefore : probe.Coherent region base) :
    after.Coherent region base := by
  cases h with
  | refuses => exact hbefore
  | fails => exact hbefore
  | stays => exact hbefore
  | moves _ _ hposition =>
      rw [hbefore.capacity_eq] at hposition
      exact ⟨hbefore.region_eq, hbefore.base_eq, hposition, hbefore.within⟩
  | @reads _ _ look last bytes _ _ hlook hreads =>
      refine ⟨hbefore.region_eq, hbefore.base_eq, hbefore.position_le, ?_⟩
      intro found hfound
      obtain rfl := Option.some.inj hfound
      exact (hbefore.within look hlook).reads hreads
  | looks =>
      refine ⟨hbefore.region_eq, hbefore.base_eq, hbefore.position_le, ?_⟩
      intro found hfound
      obtain rfl := Option.some.inj hfound
      have hwithin := Lookahead.within_lookahead hbefore.position_le_capacity
      rwa [hbefore.region_eq] at hwithin

end Does

/-- The probe that a sequence of requests leads to. -/
def serveAll (probe : Probe) (requests : List Request) : Probe :=
  requests.foldl (fun current request => (current.serve request).2) probe

/-- Every sequence of requests keeps a probe coherent. -/
theorem Coherent.serveAll (h : probe.Coherent region base) (requests : List Request) :
    (probe.serveAll requests).Coherent region base := by
  induction requests generalizing probe with
  | nil => exact h
  | cons request requests ih => exact ih ((h.does request).coherent h)

/-- A probe starts at the first byte of its region, without a lookahead. -/
theorem coherent_ofRegion (region : List UInt8) (base : UInt64) :
    Coherent { cursor := .ofRegion region base } region base :=
  ⟨rfl, rfl, Nat.zero_le _, nofun⟩

/-- Refusals of a coherent probe name the length of its region. -/
theorem Coherent.capacity_of_demand? (h : probe.Coherent region base) {bounds : OutOfBounds}
    (hdemand : probe.demand? request = some bounds) : bounds.capacity = region.length := by
  have hlook {count : Nat}
      (hread : (probe.lookahead.map fun look => look.outOfBounds count) = some bounds) :
      bounds.capacity = region.length := by
    obtain ⟨look, hlook, rfl⟩ := Option.map_eq_some_iff.mp hread
    exact (h.within look hlook).capacity_eq
  cases request with
  | peek offset =>
      obtain rfl := Option.some.inj hdemand
      exact h.capacity_eq
  | advance count =>
      obtain rfl := Option.some.inj hdemand
      exact h.capacity_eq
  | seek position =>
      obtain rfl := Option.some.inj hdemand
      exact h.capacity_eq
  | decode settings => cases hdemand
  | look => cases hdemand
  | lookPeek => exact hlook hdemand
  | lookNext => exact hlook hdemand
  | lookRead count => exact hlook hdemand
  | lookSkip count => exact hlook hdemand

/-- Whatever is asked of a probe, in whatever order, its cursor and its lookahead stay within a
region that never changes. A lookahead sees at its place what a cursor at its start sees from
there. A request that fails changes nothing and, unless it is a decode call, is refused with the
length of the region; it is refused exactly when it asks for bytes behind the end of the region.
Requests for the cursor leave the lookahead alone, and those for the lookahead leave the cursor
alone. -/
theorem serveAll_within (region : List UInt8) (base : UInt64) (hregion : region.length < 2 ^ 64)
    (requests : List Request) :
    let probe := serveAll { cursor := .ofRegion region base } requests
    probe.cursor.region = region ∧ probe.cursor.base = base ∧
    probe.cursor.position ≤ region.length ∧
    probe.cursor.position + probe.cursor.remaining = region.length ∧
    (∀ look, probe.lookahead = some look →
      look.start + look.consumed ≤ region.length ∧
      look.peek = Cursor.peek { region, position := look.start, base } look.consumed) ∧
    ∀ request,
      ((probe.serve request).1.isFailure = true →
        (probe.serve request).2 = probe ∧
        ((∃ settings, request = .decode settings) ∨
          ∃ bounds, (probe.serve request).1 = .refused bounds ∧
            bounds.capacity = region.length)) ∧
      (∀ bounds, (probe.serve request).1 = .refused bounds ↔
        probe.demand? request = some bounds ∧ region.length < bounds.offset + bounds.needed) ∧
      (request.isLook = false → (probe.serve request).2.lookahead = probe.lookahead) ∧
      (request.isLook = true → (probe.serve request).2.cursor = probe.cursor) := by
  intro probe
  have hcoherent : probe.Coherent region base := (coherent_ofRegion region base).serveAll requests
  have hposition := hcoherent.position_le
  refine ⟨hcoherent.region_eq, hcoherent.base_eq, hposition, ?_, ?_, ?_⟩
  · rw [Cursor.remaining, hcoherent.capacity_eq]
    omega
  · intro look hlook
    have hwithin := hcoherent.within look hlook
    exact ⟨hwithin.place_le, hwithin.peek_eq hregion rfl rfl⟩
  · intro request
    have hdoes := hcoherent.does request
    refine ⟨?_, ?_, hdoes.lookahead_eq, hdoes.cursor_eq⟩
    · intro hfailure
      obtain ⟨hsame, hdecode | ⟨bounds, hdemand, hrefused⟩⟩ := hdoes.of_isFailure hfailure
      · exact ⟨hsame, .inl hdecode⟩
      · exact ⟨hsame, .inr ⟨bounds, hrefused, hcoherent.capacity_of_demand? hdemand⟩⟩
    · intro bounds
      have hsmall : ∀ found ∈ probe.demand? request, found.capacity < 2 ^ 64 := by
        intro found hfound
        rw [hcoherent.capacity_of_demand? hfound]
        exact hregion
      rw [hdoes.eq_refused_iff hsmall]
      refine and_congr_right fun hdemand => ?_
      rw [hcoherent.capacity_of_demand? hdemand]

/-- A NOP is decoded, and a call behind it is cut off; a lookahead that was taken before has read
one byte. Four more bytes are refused to it, and the probe stays as it is. -/
theorem serveAll_within_cut_call :
    ([0x90, 0xE8, 0x90] : List UInt8).length < 2 ^ 64 ∧
    ∃ probe,
      probe = serveAll { cursor := .ofRegion [0x90, 0xE8, 0x90] 0 }
        [.look, .lookNext, .decode {}, .decode {}] ∧
      probe.cursor.position = 1 ∧
      probe.serve (.lookRead 4) =
        (.refused { offset := 1, needed := 4, capacity := 3 }, probe) := by
  have hregion : ([0x90, 0xE8, 0x90] : List UInt8).length < 2 ^ 64 := by decide
  obtain ⟨-, -, -, -, -, hrequest⟩ := serveAll_within [0x90, 0xE8, 0x90] 0 hregion
    [.look, .lookNext, .decode {}, .decode {}]
  obtain ⟨hfailure, hrefused, -, -⟩ := hrequest (.lookRead 4)
  have hanswer := (hrefused { offset := 1, needed := 4, capacity := 3 }).mpr ⟨rfl, by decide⟩
  rw [hanswer] at hfailure
  exact ⟨hregion, _, rfl, rfl, Prod.ext hanswer (hfailure rfl).1⟩

end Probe

end LongMode
