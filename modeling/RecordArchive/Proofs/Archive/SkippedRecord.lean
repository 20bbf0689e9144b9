import RecordArchive.Proofs.Archive.Completion
import RecordArchive.Proofs.Archive.CutRecords

/-! # Skipping a record and reading it

A record is skipped off its header, whatever its size fields say; one that is read is inside its
payload until that has been taken or left. Both are compared on every byte string.

* `PayloadStrategy.outcome_follow_of_present`: a payload that is there is left by every strategy,
  unless its checksum is wrong.
* `Archive.skipRecord_or_visit`: at the front of a list both fail alike, or a record is there.
* `Archive.skipRecord_agrees_visit`: **skipping agrees with reading**, whatever is taken of the payload
  in between, up to the checksum that only reading looks at. -/

namespace RecordArchive

open Program Call Archive

variable {σ : Type}

/-! ## A payload that is there -/

/-- **A payload that is there**: a piece of it is taken, unless it was the last one and the mismatch is
reported. -/
theorem Archive.outcome_readAddedData_of_present (count : Nat) {bytes : List UInt8}
    {state : HandleState} (hmode : state.mode = .reading .atAddedData)
    (hle : state.incoming.remaining ≤ bytes.length) :
    Outcome (fun taken final => taken.length = transferLength count state.incoming ∧
        ∃ rest, bytes = taken ++ rest ∧ final = ⟨rest, state.taken taken⟩)
      (fun error _ => error.IsMismatch) (readAddedData count ⟨bytes, state⟩) := by
  have hroom : transferLength count state.incoming ≤ bytes.length := by
    rw [transferLength]
    omega
  obtain ⟨taken, rest, rfl, hlength⟩ := exists_front hroom
  by_cases hintact : (state.incoming.consume taken).remaining = 0 →
      (state.incoming.consume taken).IsIntact
  · rw [readAddedData_eq_ok.mpr ⟨hmode, hlength, hintact, rest, rfl, rfl⟩]
    exact ⟨hlength, rest, rfl, rfl⟩
  · obtain ⟨hlast, hdamaged⟩ := Classical.not_imp.mp hintact
    obtain ⟨stored, hstored, hne⟩ := IncomingPayload.not_isIntact_iff.mp hdamaged
    rw [readAddedData_of_mismatch hmode hlength hlast hstored hne]
    exact ⟨_, _, rfl⟩

/-- **A payload that is there is left** by every strategy, in front of what lies behind it, unless its
checksum is wrong. -/
theorem PayloadStrategy.outcome_follow_of_present (strategy : PayloadStrategy)
    {handle : Archive (List UInt8)} (hmode : handle.state.mode = .reading .atAddedData)
    (hle : handle.state.incoming.remaining ≤ handle.stream.length) :
    Outcome (fun _ final => final.state.mode = .reading .atRecordHeader ∧
        final.stream = handle.stream.drop handle.state.incoming.remaining)
      (fun error _ => error.IsMismatch) (strategy.follow handle) := by
  -- The induction is on what the caller does; a piece shortens the payload and the bytes alike.
  induction strategy generalizing handle with
  | leave =>
    have hskip : skipRecord handle = .ok () ⟨handle.stream.drop handle.state.incoming.remaining,
        handle.state.skipped⟩ := (skipRecord_eq_ok_of_atAddedData hmode).mpr
      ⟨_, _, List.length_take_of_le hle, (List.take_append_drop _ _).symm, rfl⟩
    rw [follow_leave hmode hskip]
    exact ⟨rfl, rfl⟩
  | take count next ih =>
    obtain ⟨bytes, state⟩ := handle
    rw [follow, insidePayloadOr_of_atAddedData hmode]
    refine Outcome.bind ((outcome_readAddedData_of_present count hmode hle).mono ?_ fun _ _ h => h)
    rintro taken _ ⟨hlength, rest, rfl, rfl⟩
    have hle : state.incoming.remaining ≤ (taken ++ rest).length := hle
    rw [List.length_append] at hle
    have hremaining : (state.taken taken).incoming.remaining
        = state.incoming.remaining - taken.length := rfl
    have hdrop : (taken ++ rest).drop state.incoming.remaining
        = rest.drop (state.taken taken).incoming.remaining := by
      have hpiece : taken.length ≤ state.incoming.remaining := by
        rw [hlength, transferLength]
        show min (min count state.incoming.remaining) maxTransfer ≤ state.incoming.remaining
        omega
      rw [List.drop_append, List.drop_eq_nil_of_le hpiece, hremaining, List.nil_append]
    by_cases hlast : (state.incoming.consume taken).remaining = 0
    · -- That was the last piece, so the strategy makes no further call.
      have hleft := HandleState.mode_taken_eq.mpr hlast
      rw [bind_of_ok ((next taken).follow_of_atRecordHeader hleft)]
      refine ⟨hleft, ?_⟩
      rw [hdrop, HandleState.incoming_taken, hlast]
      rfl
    · have hinside : (state.taken taken).mode = .reading .atAddedData := by
        rw [HandleState.mode_taken, if_neg hlast]
      have hmore : (state.taken taken).incoming.remaining ≤ rest.length := by omega
      have hnext := @ih taken ⟨rest, state.taken taken⟩ hinside hmore
      refine Outcome.bind (hnext.mono ?_ fun _ _ h => h)
      rintro _ final ⟨hbetween, hstream⟩
      exact ⟨hbetween, hstream.trans hdrop.symm⟩

/-! ## A record at the front of a list -/

/-- Where a visit ends that has read a record: between two records, behind the record and its
payload. -/
structure Archive.IsBehindRecord (bytes : List UInt8) (record : Record) (visit : Visit)
    (final : Archive (List UInt8)) : Prop where
  visit : ∃ pieces abandoned, visit = .read record pieces abandoned
  mode : final.state.mode = .reading .atRecordHeader
  stream : final.stream = bytes.drop (record.size.toNat + record.addedSize.toNat)

section Lists

variable {bytes : List UInt8} {state : HandleState}

/-- **A record with its payload** that is there is read, whatever is taken of the payload, unless the
checksum of that is wrong. -/
theorem RecordStrategy.outcome_visit_of_present (next : Record → PayloadStrategy)
    (hmode : state.mode = .reading .atRecordHeader) {record : Record}
    (hdecode : Record.decode bytes = .ok record)
    (hle : record.size.toNat + record.addedSize.toNat ≤ bytes.length) :
    Outcome (IsBehindRecord bytes record) (fun error _ => error.IsMismatch)
      ((RecordStrategy.read next).visit ⟨bytes, state⟩) := by
  have hnormal := (Record.decode_eq_ok.mp hdecode).1
  rw [visit, bind_of_ok (readRecord_of_decode hmode hdecode)]
  by_cases hsize : record.hasAddedSize = true
  · have hremaining : (state.behind record).incoming.remaining = record.addedSize.toNat :=
      IncomingPayload.remaining_ofRecord hsize
    have hinside : (state.behind record).mode = .reading .atAddedData := by
      rw [HandleState.mode_behind, if_pos hsize]
    have hpresent : (state.behind record).incoming.remaining
        ≤ (bytes.drop record.size.toNat).length := by
      rw [hremaining, List.length_drop]
      omega
    have hfollow := @PayloadStrategy.outcome_follow_of_present (next record)
      ⟨bytes.drop record.size.toNat, state.behind record⟩ hinside hpresent
    refine Outcome.bind (hfollow.mono ?_ fun _ _ h => h)
    rintro ⟨pieces, abandoned⟩ final ⟨hbetween, hstream⟩
    refine ⟨⟨pieces, abandoned, rfl⟩, hbetween, ?_⟩
    rw [hstream, hremaining, List.drop_drop]
  · -- Without a size field there is no payload, and no call for it is made.
    have hzero : record.addedSize.toNat = 0 := by
      rw [hnormal.addedSize_eq_zero (Bool.not_eq_true _ ▸ hsize)]
      rfl
    have hbetween : (state.behind record).mode = .reading .atRecordHeader := by
      rw [HandleState.mode_behind, if_neg hsize]
    rw [bind_of_ok ((next record).follow_of_atRecordHeader hbetween)]
    refine ⟨⟨[], false, rfl⟩, hbetween, ?_⟩
    rw [hzero, Nat.add_zero]

/-- **At the front of a list** skipping a record and reading it fail with the same error, or the record
and its payload are there. Then the record is skipped, and reading it ends in the same place. -/
theorem Archive.skipRecord_or_visit (bytes : List UInt8) (next : Record → PayloadStrategy)
    (hmode : state.mode = .reading .atRecordHeader) :
    (∃ error skipped visited, skipRecord ⟨bytes, state⟩ = .error error skipped ∧
      (RecordStrategy.read next).visit ⟨bytes, state⟩ = .error error visited) ∨
    ∃ record, Record.decode bytes = .ok record ∧
      record.size.toNat + record.addedSize.toNat ≤ bytes.length ∧
      skipRecord ⟨bytes, state⟩ = .ok ()
        ⟨bytes.drop (record.size.toNat + record.addedSize.toNat), state.skipped⟩ ∧
      Outcome (IsBehindRecord bytes record) (fun error _ => error.IsMismatch)
        ((RecordStrategy.read next).visit ⟨bytes, state⟩) := by
  by_cases hnil : bytes = []
  · exact .inl ⟨_, _, _, hnil ▸ skipRecord_nil hmode, hnil ▸ bind_of_error (readRecord_nil hmode)⟩
  by_cases hinside : Record.EndsInside bytes
  · exact .inl ⟨_, _, _, skipRecord_of_endsInside hmode hnil hinside,
      bind_of_error (readRecord_of_endsInside hmode hnil hinside)⟩
  rw [Record.EndsInside] at hinside
  by_cases hinvalid : Record.sizeAt bytes < RecordFlags.headerLength (Record.flagsAt bytes)
  · obtain ⟨fault, final, hheader⟩ := readRecordHeader_of_invalid state (by omega) hinvalid
    exact .inl ⟨_, _, _, skipRecord_of_header hmode hheader,
      bind_of_error (readRecord_of_header hmode hheader)⟩
  · have hsix : 6 ≤ RecordFlags.headerLength (Record.flagsAt bytes) :=
      RecordFlags.fixedHeaderLength_le_headerLength _
    obtain ⟨record, hdecode⟩ := Record.exists_decode_iff.mpr
      (⟨by omega, by omega, by omega⟩ : 6 ≤ bytes.length ∧ _)
    obtain ⟨hnormal, rest, rfl⟩ := Record.decode_eq_ok.mp hdecode
    have hlength : record.toBytes.length = record.size.toNat := by
      rw [Record.length_toBytes, hnormal.size]
    by_cases hshort : rest.length < record.addedSize.toNat
    · -- The record is there, but not its payload, so there must be a field for the size of that.
      have hsize : record.hasAddedSize = true := by
        refine Decidable.byContradiction fun habsent => ?_
        rw [hnormal.addedSize_eq_zero (Bool.not_eq_true _ ▸ habsent)] at hshort
        exact absurd hshort (Nat.not_lt_zero _)
      have hread := readRecord_eq_ok.mpr ⟨hmode, hnormal, rest, rfl, rfl⟩
      have hremaining : (state.behind record).incoming.remaining = record.addedSize.toNat :=
        IncomingPayload.remaining_ofRecord hsize
      obtain ⟨final, hfollow⟩ := (next record).follow_of_short ⟨rest, state.behind record⟩
        (by rw [HandleState.mode_behind, if_pos hsize]) (by rw [hremaining]; exact hshort)
      refine .inl ⟨_, _, final, skipRecord_of_short_payload hmode hnormal hshort, ?_⟩
      rw [RecordStrategy.visit, bind_of_ok hread]
      exact bind_of_error hfollow
    · obtain ⟨payload, behind, rfl, hpayload⟩ := exists_front (Nat.le_of_not_lt hshort)
      have hle : record.size.toNat + record.addedSize.toNat
          ≤ (record.toBytes ++ (payload ++ behind)).length := by
        rw [List.length_append, List.length_append, hlength, hpayload]
        omega
      refine .inr ⟨record, hdecode, hle, ?_,
        RecordStrategy.outcome_visit_of_present next hmode hdecode hle⟩
      refine (skipRecord_eq_ok_of_atRecordHeader hmode).mpr ⟨record, payload, behind, hnormal,
        hpayload, (List.append_assoc _ _ _).symm, ?_⟩
      rw [← hlength, ← hpayload, ← List.length_append, ← List.append_assoc, List.drop_left]

end Lists

/-! ## A record on a stream -/

namespace Archive

/-- **Skipping a record agrees with reading it**, on every infallible stream and whatever the caller
takes of the payload before it skips the rest.

As long as no wrong checksum is reported, the record is skipped if and only if it is read and its
payload left. Either way the handle is then between two records, behind the data and the payload of the
record. Where skipping fails, reading fails with the same error. -/
theorem skipRecord_agrees_visit [ByteSource σ] {handle : Archive σ} {bytes : List UInt8}
    (hmode : handle.state.mode = .reading .atRecordHeader) (hstream : Yields handle.stream bytes)
    (next : Record → PayloadStrategy) :
    ((¬ ∃ error final, (RecordStrategy.read next).visit handle = .error error final ∧
        error.IsMismatch) →
      ((∃ final, skipRecord handle = .ok () final) ↔
        ∃ visit final, (RecordStrategy.read next).visit handle = .ok visit final)) ∧
    (∀ skipped, skipRecord handle = .ok () skipped → ∃ record,
      Record.decode bytes = .ok record ∧
      record.size.toNat + record.addedSize.toNat ≤ bytes.length ∧
      skipped.state.mode = .reading .atRecordHeader ∧
      Yields skipped.stream (bytes.drop (record.size.toNat + record.addedSize.toNat)) ∧
      ∀ visit visited, (RecordStrategy.read next).visit handle = .ok visit visited →
        (∃ pieces abandoned, visit = .read record pieces abandoned) ∧
        visited.state.mode = .reading .atRecordHeader ∧
        Yields visited.stream (bytes.drop (record.size.toNat + record.addedSize.toNat))) ∧
    ∀ error skipped, skipRecord handle = .error error skipped → ∃ visited,
      (RecordStrategy.read next).visit handle = .error error visited := by
  obtain ⟨stream, state⟩ := handle
  have hskips : Simulates (Related (Yields : σ → List UInt8 → Prop)) skipRecord skipRecord :=
    simulates_skipRecord Yields.isDelivery.readsAlike
  have hvisits : Simulates (Related (Yields : σ → List UInt8 → Prop))
      (RecordStrategy.read next).visit (RecordStrategy.read next).visit :=
    RecordStrategy.simulates_visit Yields.isDelivery.readsAlike _
  rcases skipRecord_or_visit bytes next hmode with
    ⟨error, ⟨rest, _⟩, ⟨rest', _⟩, hskip, hvisit⟩ | ⟨record, hdecode, hle, hskip, houtcome⟩
  · obtain ⟨skipped, hskip, -⟩ := exists_error_of_yields hskips hstream hskip
    obtain ⟨visited, hvisit, -⟩ := exists_error_of_yields hvisits hstream hvisit
    rw [hskip, hvisit]
    refine ⟨fun _ => by simp, by simp, ?_⟩
    rintro _ _ ⟨⟩
    exact ⟨_, rfl⟩
  · obtain ⟨skipped, hskip, hrest⟩ := exists_ok_of_yields hskips hstream hskip
    rw [hskip]
    cases hvisit : (RecordStrategy.read next).visit ⟨bytes, state⟩ with
    | ok visit final =>
      obtain ⟨hread, hbetween, hbehind⟩ := houtcome.of_ok hvisit
      obtain ⟨visited, hvisit, hfinal⟩ := exists_ok_of_yields hvisits hstream hvisit
      rw [hvisit]
      refine ⟨fun _ => by simp, ?_, by simp⟩
      rintro _ ⟨⟩
      refine ⟨record, hdecode, hle, rfl, hrest, ?_⟩
      rintro _ _ ⟨⟩
      exact ⟨hread, hbetween, hbehind ▸ hfinal⟩
    | error error final =>
      have hmismatch := houtcome.of_error hvisit
      obtain ⟨visited, hvisit, -⟩ := exists_error_of_yields hvisits hstream hvisit
      rw [hvisit]
      refine ⟨fun hintact => absurd ⟨error, _, rfl, hmismatch⟩ hintact, ?_, by simp⟩
      rintro _ ⟨⟩
      exact ⟨record, hdecode, hle, rfl, hrest, by simp⟩

/-- A fragment is skipped, and it is read up to the first byte of its payload and then left. -/
theorem skipRecord_agrees_visit_fragment :
    let handle : Archive (List UInt8) :=
      ⟨shortFragment.toBytes ++ [6], { mode := .reading .atRecordHeader }⟩
    ∃ skipped visit visited, skipRecord handle = .ok () skipped ∧
      (RecordStrategy.read fun _ => .take 1 fun _ => .leave).visit handle = .ok visit visited ∧
      Yields skipped.stream [6] ∧ Yields visited.stream [6] := by
  intro handle
  have hstream : Yields handle.stream handle.stream := ⟨_, isDelivery_eq, rfl⟩
  obtain ⟨hiff, hbehind, -⟩ :=
    skipRecord_agrees_visit rfl hstream fun _ => .take 1 fun _ => .leave
  obtain ⟨visit, -, htakes⟩ := (RecordStrategy.read fun _ => .take 1 fun _ => .leave).exists_visit
    isSound_shortFragment
  obtain ⟨final, hvisit, -⟩ := htakes handle.state [6] rfl
  have hintact : ¬ ∃ error final, (RecordStrategy.read fun _ => .take 1 fun _ => .leave).visit handle
      = .error error final ∧ error.IsMismatch := by
    rintro ⟨_, _, hfailed, -⟩
    cases hvisit.symm.trans hfailed
  obtain ⟨skipped, hskip⟩ := (hiff hintact).mpr ⟨visit, _, hvisit⟩
  obtain ⟨record, hdecode, -, -, hrest, hagree⟩ := hbehind skipped hskip
  obtain ⟨-, -, hrest'⟩ := hagree visit _ hvisit
  have hrecord : Record.decode handle.stream = .ok shortFragment.record :=
    Record.decode_eq_ok.mpr ⟨isSound_shortFragment.normal, [104, 105, 6], rfl⟩
  cases hdecode.symm.trans hrecord
  exact ⟨skipped, visit, _, hskip, hvisit, hrest, hrest'⟩

end Archive

end RecordArchive
