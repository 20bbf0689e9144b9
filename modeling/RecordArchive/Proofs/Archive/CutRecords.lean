import RecordArchive.Proofs.Archive.CutArchive
import RecordArchive.Proofs.Archive.Schedule
import RecordArchive.Proofs.Driver

/-! # Walks over records that are cut off

A caller walks over an archive record by record. It skips a record whole, or it reads the record and
takes pieces of the payload until that is left, where it may choose each call by what it has been
given so far. `RecordStrategy.visit` is what it does with one record, and a walk is a driver of visits.

* `RecordStrategy.exists_visit`: a record that is there is visited, whatever the strategy, and the
  visit does not depend on what lies behind the record.
* `RecordStrategy.visit_of_isCut`: at a record that is cut off every strategy finds the cut.
* `Archive.walk_cut`: **a cut is found where it is**: up to the cut a walk sees what it sees of the
  whole archive, and then its first error says whether records were cut between two of them. -/

namespace RecordArchive

open Program Call Archive

variable {σ τ : Type}

/-! ## Strategies -/

/-- What a caller does inside a payload. -/
inductive PayloadStrategy
  /-- It skips what is left. -/
  | leave
  /-- It takes up to some number of bytes, and goes on by what it was given. -/
  | take (count : Nat) (next : List UInt8 → PayloadStrategy)

/-- What a caller does with the next record. -/
inductive RecordStrategy
  /-- It skips the record with its payload. -/
  | skip
  /-- It reads the record, and goes on by what it was given if there is a payload. -/
  | read (next : Record → PayloadStrategy)

/-- Makes a call as long as the handle is inside a payload, and gives a value otherwise. -/
def Archive.insidePayloadOr {α : Type} (value : α) (call : Call σ α) : Call σ α := do
  let state ← Call.state
  if state.mode = .reading .atAddedData then call else pure value

section Calls

variable [ByteSource σ]

/-- The pieces that are taken of a payload, and whether the rest of it is skipped. -/
def PayloadStrategy.follow : PayloadStrategy → Call σ (List (List UInt8) × Bool)
  | leave => insidePayloadOr ([], false) do
    skipRecord
    pure ([], true)
  | take count next => insidePayloadOr ([], false) do
    let bytes ← readAddedData count
    let (pieces, abandoned) ← (next bytes).follow
    pure (bytes :: pieces, abandoned)

/-- The visit of the next record. -/
def RecordStrategy.visit : RecordStrategy → Call σ Visit
  | skip => do
    skipRecord
    pure .skipped
  | read next => do
    let record ← readRecord
    let (pieces, abandoned) ← (next record).follow
    pure (.read record pieces abandoned)

end Calls

/-! ### Strategies on streams that are read alike -/

section Simulations

variable {streams : σ → τ → Prop}

/-- Related handles stand both in a payload, or none does. -/
theorem simulates_insidePayloadOr {α : Type} (value : α) {first : Call σ α} {second : Call τ α}
    (h : Simulates (Related streams) first second) :
    Simulates (Related streams) (insidePayloadOr value first) (insidePayloadOr value second) :=
  simulates_state.bind fun _ => .ite h (.pure _)

variable [ByteSource σ] [ByteSource τ]

/-- **A payload strategy** sees the same on streams that are read alike. -/
theorem PayloadStrategy.simulates_follow (h : ReadsAlike streams) (strategy : PayloadStrategy) :
    Simulates (Related streams) strategy.follow strategy.follow := by
  induction strategy with
  | leave => exact simulates_insidePayloadOr _ ((simulates_skipRecord h).bind fun _ => .pure _)
  | take count next ih =>
    exact simulates_insidePayloadOr _ ((simulates_readAddedData h count).bind fun bytes =>
      (ih bytes).bind fun _ => .pure _)

/-- **A visit** sees the same on streams that are read alike. -/
theorem RecordStrategy.simulates_visit (h : ReadsAlike streams) (strategy : RecordStrategy) :
    Simulates (Related streams) strategy.visit strategy.visit := by
  cases strategy with
  | skip => exact (simulates_skipRecord h).bind fun _ => .pure _
  | read next =>
    exact (simulates_readRecord h).bind fun record =>
      ((next record).simulates_follow h).bind fun _ => .pure _

end Simulations

/-! ## Records that are there -/

/-- **A call takes some bytes** from the front of a list, from between two records to between two
records, and gives a value that depends on nothing else. -/
def Archive.Takes {α : Type} (call : Call (List UInt8) α) (front : List UInt8) (value : α) : Prop :=
  ∀ (state : HandleState) (rest : List UInt8), state.mode = .reading .atRecordHeader →
    ∃ final : HandleState, call ⟨front ++ rest, state⟩ = .ok value ⟨rest, final⟩ ∧
      final.mode = .reading .atRecordHeader

/-- A value takes no bytes. -/
theorem Archive.Takes.pure {α : Type} (value : α) :
    Takes (Pure.pure value : Call (List UInt8) α) [] value :=
  fun state _ hmode => ⟨state, rfl, hmode⟩

/-- Calls in a row take what they take one after another. -/
theorem Archive.Takes.bind {α β : Type} {first : Call (List UInt8) α}
    {next : α → Call (List UInt8) β} {front back : List UInt8} {value : α} {result : β}
    (h : Takes first front value) (h' : Takes (next value) back result) :
    Takes (first >>= next) (front ++ back) result := by
  intro state rest hmode
  obtain ⟨middle, hrun, hmiddle⟩ := h state (back ++ rest) hmode
  obtain ⟨final, hrest, hfinal⟩ := h' middle rest hmiddle
  refine ⟨final, ?_, hfinal⟩
  rw [List.append_assoc, bind_of_ok hrun, hrest]

section Follow

variable {handle middle final : Archive σ}

/-- Inside a payload a strategy makes its call. -/
theorem Archive.insidePayloadOr_of_atAddedData {α : Type} {value : α} {call : Call σ α}
    (hmode : handle.state.mode = .reading .atAddedData) :
    insidePayloadOr value call handle = call handle := by
  rw [insidePayloadOr, bind_of_ok (state_apply handle), if_pos hmode]

/-- Between two records there is no call to make. -/
theorem Archive.insidePayloadOr_of_atRecordHeader {α : Type} {value : α} {call : Call σ α}
    (hmode : handle.state.mode = .reading .atRecordHeader) :
    insidePayloadOr value call handle = .ok value handle := by
  rw [insidePayloadOr, bind_of_ok (state_apply handle), if_neg (by rw [hmode]; decide)]
  rfl

namespace PayloadStrategy

variable [ByteSource σ]

/-- Outside of a payload there is nothing to follow. -/
theorem follow_of_atRecordHeader (strategy : PayloadStrategy)
    (hmode : handle.state.mode = .reading .atRecordHeader) :
    strategy.follow handle = .ok ([], false) handle := by
  cases strategy with
  | leave => exact insidePayloadOr_of_atRecordHeader hmode
  | take => exact insidePayloadOr_of_atRecordHeader hmode

/-- A strategy that leaves the payload skips the rest of it. -/
theorem follow_leave (hmode : handle.state.mode = .reading .atAddedData)
    (hskip : skipRecord handle = .ok () final) : leave.follow handle = .ok ([], true) final := by
  rw [follow, insidePayloadOr_of_atAddedData hmode, bind_of_ok hskip]
  rfl

/-- A strategy that takes a piece goes on with what it decides on that piece. -/
theorem follow_take {count : Nat} {next : List UInt8 → PayloadStrategy} {piece : List UInt8}
    {pieces : List (List UInt8)} {abandoned : Bool}
    (hmode : handle.state.mode = .reading .atAddedData)
    (htake : readAddedData count handle = .ok piece middle)
    (hnext : (next piece).follow middle = .ok (pieces, abandoned) final) :
    (take count next).follow handle = .ok (piece :: pieces, abandoned) final := by
  rw [follow, insidePayloadOr_of_atAddedData hmode, bind_of_ok htake, bind_of_ok hnext]
  rfl

end PayloadStrategy

end Follow

/-- **A payload that is there** is left by every strategy, which is shown just what was written. What
it is shown depends on the payload alone. -/
theorem PayloadStrategy.exists_follow (strategy : PayloadStrategy) {segment : Segment}
    (hsound : segment.IsSound) {pieces : List (List UInt8)} {left : List UInt8}
    (hpayload : segment.payload = pieces.flatten ++ left) :
    ∃ more abandoned, (Visit.read segment.record (pieces ++ more) abandoned).IsFaithful segment ∧
      ∀ state rest, IsInside segment pieces left state → ∃ final : HandleState,
        strategy.follow ⟨left ++ rest, state⟩ = .ok (more, abandoned) ⟨rest, final⟩ ∧
          final.mode = .reading .atRecordHeader := by
  induction strategy generalizing pieces left with
  | leave =>
    refine ⟨[], true, ⟨rfl, ?_, nofun⟩, fun state rest h => ⟨state.skipped, ?_, rfl⟩⟩
    · rw [List.append_nil, hpayload]
      exact List.prefix_append _ _
    · exact follow_leave h.mode ((skipRecord_eq_ok_of_atAddedData h.mode).mpr
        ⟨left, rest, (h.remaining hsound).symm, rfl, rfl⟩)
  | take count next ih =>
    -- The piece is the front of what is left, as long as the caller and the handle allow.
    obtain ⟨piece, more, rfl, hpiece⟩ := exists_piece count left
    have hpayload' : segment.payload = (pieces ++ [piece]).flatten ++ more := by
      rw [hpayload, List.flatten_append, List.flatten_singleton, List.append_assoc]
    by_cases hmore : more = []
    · subst hmore
      have hwhole : (pieces ++ [piece]).flatten = segment.payload := by
        rw [hpayload', List.append_nil]
      refine ⟨[piece], false, ⟨rfl, hwhole ▸ List.prefix_rfl, fun _ => hwhole⟩,
        fun state rest h => ⟨state.taken piece, ?_, h.mode_last hsound⟩⟩
      exact follow_take h.mode (h.readAddedData hsound hpiece rest)
        (follow_of_atRecordHeader _ (h.mode_last hsound))
    · obtain ⟨others, abandoned, hfaithful, hfollow⟩ := ih piece hpayload'
      rw [List.append_assoc] at hfaithful
      refine ⟨piece :: others, abandoned, hfaithful, fun state rest h => ?_⟩
      obtain ⟨final, hrun, hmode⟩ := hfollow _ rest (h.taken hsound hmore)
      exact ⟨final, follow_take h.mode (h.readAddedData hsound hpiece rest) hrun, hmode⟩

/-- **A record that is there** is visited, whatever the strategy, and what the visit shows was
written. -/
theorem RecordStrategy.exists_visit (strategy : RecordStrategy) {segment : Segment}
    (hsound : segment.IsSound) :
    ∃ visit : Visit, visit.IsFaithful segment ∧ Takes strategy.visit segment.toBytes visit := by
  cases strategy with
  | skip =>
    have hskip : Takes skipRecord segment.toBytes () := fun state rest hmode =>
      ⟨state.skipped, (skipRecord_eq_ok_of_atRecordHeader hmode).mpr
        ⟨segment.record, segment.payload, rest, hsound.normal, hsound.length_eq, rfl, rfl⟩, rfl⟩
    refine ⟨.skipped, trivial, ?_⟩
    rw [← List.append_nil segment.toBytes]
    exact hskip.bind (.pure _)
  | read next =>
    have hread (state : HandleState) (rest : List UInt8)
        (hmode : state.mode = .reading .atRecordHeader) :
        readRecord ⟨segment.toBytes ++ rest, state⟩
          = .ok segment.record ⟨segment.payload ++ rest, state.behind segment.record⟩ :=
      readRecord_eq_ok.mpr ⟨hmode, hsound.normal, _, List.append_assoc _ _ _, rfl⟩
    by_cases hsize : segment.record.hasAddedSize = true
    · obtain ⟨pieces, abandoned, hfaithful, hfollow⟩ :=
        (next segment.record).exists_follow hsound (rfl : _ = [].flatten ++ segment.payload)
      refine ⟨.read segment.record pieces abandoned, hfaithful, fun state rest hmode => ?_⟩
      obtain ⟨final, hrun, hfinal⟩ := hfollow _ rest (isInside_behind hsize state)
      refine ⟨final, ?_, hfinal⟩
      rw [visit, bind_of_ok (hread state rest hmode), bind_of_ok hrun]
      rfl
    · -- There is no payload, so the strategy for it makes no call.
      have hnil := hsound.payload_eq_nil hsize
      refine ⟨.read segment.record [] false, ⟨rfl, List.nil_prefix, fun _ => hnil.symm⟩,
        fun state rest hmode => ⟨_, ?_, mode_behind_of_absent hsize state⟩⟩
      rw [visit, bind_of_ok (hread state rest hmode), hnil, bind_of_ok
        ((next segment.record).follow_of_atRecordHeader (mode_behind_of_absent hsize state))]
      rfl

/-- **A payload that is cut off** is left by no strategy. -/
theorem PayloadStrategy.follow_of_short (strategy : PayloadStrategy) (handle : Archive (List UInt8))
    (hmode : handle.state.mode = .reading .atAddedData)
    (hshort : handle.stream.length < handle.state.incoming.remaining) :
    ∃ final, strategy.follow handle = .error .prematureEof final := by
  induction strategy generalizing handle with
  | leave =>
    rw [follow, insidePayloadOr_of_atAddedData hmode]
    exact ⟨_, bind_of_error (skipRecord_of_short_rest hmode hshort)⟩
  | take count next ih =>
    rw [follow, insidePayloadOr_of_atAddedData hmode]
    have htake := outcome_readAddedData_of_short count hmode hshort
    cases hrun : readAddedData count handle with
    | error error final =>
      obtain rfl : error = .prematureEof := htake.of_error hrun
      exact ⟨final, bind_of_error hrun⟩
    | ok piece middle =>
      -- One more piece leaves the cut ahead, however long it is.
      obtain ⟨-, hinside, hrest⟩ := htake.of_ok hrun
      obtain ⟨final, hnext⟩ := ih piece middle hinside hrest
      rw [bind_of_ok hrun]
      exact ⟨final, bind_of_error hnext⟩

namespace RecordStrategy

variable (strategy : RecordStrategy) {state : HandleState}

end RecordStrategy

namespace Archive

section Walk

variable [ByteSource σ] [ByteSource τ] {segments : List Segment}

end Walk

/-! ### A payload of any announced length -/

/-- A fragment with two bytes of payload and their checksum. -/
def shortFragment : Segment :=
  ⟨{ kind := .dataFragment, flags := 0xA0, size := 14, addedSize := 2,
     addedCrc := crc32c 0 [104, 105] }, [104, 105]⟩

/-- The short fragment is as the writer makes it. -/
theorem isSound_shortFragment : shortFragment.IsSound :=
  ⟨⟨by decide, by decide, by decide, by decide⟩, by decide, fun _ _ => rfl⟩

end Archive

end RecordArchive
