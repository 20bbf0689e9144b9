import RecordArchive.Proofs.Archive.Taking
import RecordArchive.Proofs.Record.Draft

/-! # Where a reader stands in a payload after failures

A read that fails may have taken bytes. A reader does not count the bytes that a failed call has
taken from a payload, and a later call goes on behind them.

* `ReaderRun unread start place? handle` is any sequence of reader calls, some of which may fail;
  `place?` is the payload that was entered last, with the number of bytes that failed calls have
  taken since (`PayloadPlace`).
* `ReaderRun.standsIn`: each call keeps the place apart from these bytes (`StandsIn`).
* `ReaderRun.place_eq`: so what the reader takes for the next byte of the payload lies as many
  bytes behind it, and the same holds of the end of the payload. -/

namespace RecordArchive

open Program Call Archive

variable {σ : Type}

/-- The payload that a reader has entered: the record in front of it, the bytes that were unread
behind that, and how many bytes calls that failed have taken since. -/
structure PayloadPlace where
  record : Record
  ahead : List UInt8
  lost : Nat := 0
  deriving DecidableEq, Repr

/-- The place after a failed call that has taken some bytes. -/
def PayloadPlace.lose (place : PayloadPlace) (count : Nat) : PayloadPlace :=
  { place with lost := place.lost + count }

/-- A call of a reader. -/
inductive ReaderCall
  /-- Finds the marker. -/
  | findMarker
  /-- Reads the next record. -/
  | readRecord
  /-- Skips the next record, or the rest of a payload. -/
  | skipRecord
  /-- Takes a piece of a payload. -/
  | readAddedData (count : Nat)
  deriving DecidableEq, Repr

/-- The call on a handle, whatever value it gives. -/
def ReaderCall.run [ByteSource σ] : ReaderCall → Call σ Unit
  | findMarker => do
    let _ ← Archive.findMarker
    pure ()
  | readRecord => do
    let _ ← Archive.readRecord
    pure ()
  | skipRecord => Archive.skipRecord
  | readAddedData count => do
    let _ ← Archive.readAddedData count
    pure ()

/-- The handle after the call, whether that succeeds or not. -/
def ReaderCall.after [ByteSource σ] (call : ReaderCall) (handle : Archive σ) : Archive σ :=
  match call.run handle with
  | .ok _ final => final
  | .error _ final => final

/-- **A run of reader calls** in which calls may fail. -/
inductive ReaderRun [ByteSource σ] (unread : σ → List UInt8) (start : Archive σ) :
    Option PayloadPlace → Archive σ → Prop
  /-- No call. -/
  | nil : ReaderRun unread start none start
  /-- A record is read. -/
  | entered {place? : Option PayloadPlace} {middle final : Archive σ} {record : Record}
    (h : ReaderRun unread start place? middle) (hrun : readRecord middle = .ok record final) :
    ReaderRun unread start (some ⟨record, unread final.stream, 0⟩) final
  /-- Another call succeeds. -/
  | accepted {place? : Option PayloadPlace} {middle final : Archive σ} {call : ReaderCall}
    (h : ReaderRun unread start place? middle) (hcall : call ≠ .readRecord)
    (hrun : call.run middle = .ok () final) : ReaderRun unread start place? final
  /-- A call fails. -/
  | refused {place? : Option PayloadPlace} {middle final : Archive σ} {call : ReaderCall}
    {error : ArchiveError} (h : ReaderRun unread start place? middle)
    (hrun : call.run middle = .error error final) :
    ReaderRun unread start (place?.map fun place =>
      place.lose ((unread middle.stream).length - (unread final.stream).length)) final

/-- **Where a reader stands in a payload**: it has counted the bytes that were taken except for
the lost ones, and counts on as many as the record still has. -/
structure StandsIn (unread : σ → List UInt8) (place : PayloadPlace) (taken : List UInt8)
    (handle : Archive σ) : Prop where
  ahead : place.ahead = taken ++ unread handle.stream
  counted : taken.length = handle.state.incoming.consumed + place.lost
  announced : handle.state.incoming.consumed + handle.state.incoming.remaining
    = place.record.addedSize.toNat

namespace StandsIn

variable [ByteSource σ] {unread : σ → List UInt8} {failed : σ → Prop} {place : PayloadPlace}
  {taken : List UInt8} {handle final : Archive σ}

/-! ## One call -/

/-- Behind a record with a payload the reader stands at the start of that payload. -/
theorem of_readRecord (hr : ReadsFrom unread failed) {record : Record}
    (hrun : readRecord handle = .ok record final)
    (hmode : final.state.mode = .reading .atAddedData) :
    StandsIn unread ⟨record, unread final.stream, 0⟩ [] final := by
  obtain ⟨-, -, -, hstate⟩ := (outcome_readRecord hr handle).of_ok hrun
  have hincoming : final.state.incoming = .ofRecord record := by
    rw [hstate]
    rfl
  have hsize : record.hasAddedSize = true := by
    rw [hstate, HandleState.mode_behind] at hmode
    by_cases hsize : record.hasAddedSize = true
    · exact hsize
    · rw [if_neg hsize] at hmode
      cases hmode
  refine ⟨rfl, ?_, ?_⟩
  · rw [hincoming, IncomingPayload.consumed_ofRecord]
    rfl
  · rw [hincoming, IncomingPayload.consumed_ofRecord, IncomingPayload.remaining_ofRecord hsize,
      Nat.zero_add]

/-- A piece of payload that is taken is counted. -/
theorem of_readAddedData (hr : ReadsFrom unread failed) (h : StandsIn unread place taken handle)
    {count : Nat} {bytes : List UInt8} (hrun : readAddedData count handle = .ok bytes final) :
    StandsIn unread place (taken ++ bytes) final := by
  obtain ⟨-, hlength, hbytes, hstate⟩ := (outcome_readAddedData hr count handle).of_ok hrun
  have hincoming : final.state.incoming = handle.state.incoming.consume bytes := by
    rw [hstate]
    rfl
  have hle : bytes.length ≤ handle.state.incoming.remaining := by
    rw [hlength, transferLength]
    omega
  obtain ⟨hahead, hcounted, hannounced⟩ := h
  refine ⟨?_, ?_, ?_⟩
  · rw [hahead, hbytes, List.append_assoc]
  · rw [hincoming, List.length_append]
    show _ = handle.state.incoming.consumed + bytes.length + place.lost
    omega
  · rw [hincoming]
    show handle.state.incoming.consumed + bytes.length
      + (handle.state.incoming.remaining - bytes.length) = _
    omega

omit [ByteSource σ] in
/-- What a failed call has taken is lost. -/
theorem lose (h : StandsIn unread place taken handle) (hstate : final.state = handle.state)
    (hsuffix : unread final.stream <:+ unread handle.stream) :
    ∃ taken', StandsIn unread
      (place.lose ((unread handle.stream).length - (unread final.stream).length)) taken' final := by
  obtain ⟨more, hmore⟩ := hsuffix
  obtain ⟨hahead, hcounted, hannounced⟩ := h
  have hlength : (unread handle.stream).length - (unread final.stream).length = more.length := by
    rw [← hmore, List.length_append]
    omega
  refine ⟨taken ++ more, ?_, ?_, ?_⟩
  · show place.ahead = _
    rw [hahead, ← hmore, List.append_assoc]
  · rw [hlength, hstate, List.length_append]
    show _ = handle.state.incoming.consumed + (place.lost + more.length)
    omega
  · rw [hstate]
    exact hannounced

end StandsIn

section Run

variable [ByteSource σ] {unread : σ → List UInt8} {failed : σ → Prop} {handle : Archive σ}

/-- **A failed call** takes bytes from the front. It leaves the handle inside a payload only if it
was there before, in the same state. -/
theorem ReaderCall.of_error (hr : ReadsFrom unread failed) (call : ReaderCall)
    {final : Archive σ} {error : ArchiveError} (hrun : call.run handle = .error error final) :
    unread final.stream <:+ unread handle.stream ∧
      (final.state.mode = .reading .atAddedData → final.state = handle.state) := by
  have houtcome : Outcome (fun _ _ => True)
      (fun (_ : ArchiveError) (final : Archive σ) => unread final.stream <:+ unread handle.stream ∧
        (final.state.mode = .reading .atAddedData → final.state = handle.state))
      (call.run handle) := by
    cases call with
    | findMarker =>
      refine outcome_of_dropped ((outcome_findMarker hr handle).mono (fun _ _ _ => trivial) ?_)
      exact fun _ final hfinal => ⟨hfinal.1, fun _ => hfinal.2⟩
    | readRecord =>
      refine outcome_of_dropped ((outcome_readRecord hr handle).mono (fun _ _ _ => trivial) ?_)
      rintro _ final ⟨hsuffix, rfl | ⟨hstate, -⟩ | hstate⟩
      · exact ⟨hsuffix, fun _ => rfl⟩
      · exact ⟨hsuffix, fun _ => hstate⟩
      · refine ⟨hsuffix, fun hmode => ?_⟩
        rw [hstate] at hmode
        cases hmode
    | skipRecord =>
      refine (outcome_skipRecord hr handle).mono (fun _ _ _ => trivial) ?_
      rintro _ final ⟨hsuffix, rfl | ⟨hstate, -⟩ | hstate⟩
      · exact ⟨hsuffix, fun _ => rfl⟩
      · exact ⟨hsuffix, fun _ => hstate⟩
      · refine ⟨hsuffix, fun hmode => ?_⟩
        rw [hstate] at hmode
        cases hmode
    | readAddedData count =>
      refine outcome_of_dropped
        ((outcome_readAddedData hr count handle).mono (fun _ _ _ => trivial) ?_)
      rintro _ final ⟨hsuffix, rfl | ⟨hstate, -⟩ | ⟨-, bytes, -, -, -, hbetween⟩⟩
      · exact ⟨hsuffix, fun _ => rfl⟩
      · exact ⟨hsuffix, fun _ => hstate⟩
      · refine ⟨hsuffix, fun hmode => ?_⟩
        rw [hbetween] at hmode
        cases hmode
  exact houtcome.of_error hrun

/-! ## Calls in a row -/

/-- **Every run** that leaves the reader in a payload leaves it where the payload that was entered
last says. -/
theorem ReaderRun.standsIn (hr : ReadsFrom unread failed) {start : Archive σ}
    {place? : Option PayloadPlace} (hstart : start.state.mode ≠ .reading .atAddedData)
    (h : ReaderRun unread start place? handle)
    (hmode : handle.state.mode = .reading .atAddedData) :
    ∃ place taken, place? = some place ∧ StandsIn unread place taken handle := by
  induction h with
  | nil => exact absurd hmode hstart
  | entered _ hrun => exact ⟨_, [], rfl, .of_readRecord hr hrun hmode⟩
  | @accepted place? middle final call _ hcall hrun ih =>
    cases call with
    | findMarker =>
      have hbetween := (outcome_of_dropped ((outcome_findMarker hr middle).mono
        (fun _ _ hfinal => hfinal) fun _ _ _ => trivial)).of_ok hrun
      rw [hbetween.2] at hmode
      cases hmode
    | readRecord => exact absurd rfl hcall
    | skipRecord =>
      obtain ⟨-, hstate, -⟩ := (outcome_skipRecord hr middle).of_ok hrun
      rw [hstate] at hmode
      cases hmode
    | readAddedData count =>
      obtain ⟨bytes, _, htake, hpure⟩ := bind_eq_ok.mp hrun
      obtain ⟨-, rfl⟩ := pure_eq_ok.mp hpure
      obtain ⟨hinside, -⟩ := (outcome_readAddedData hr count middle).of_ok htake
      obtain ⟨place, taken, rfl, hplace⟩ := ih hinside
      exact ⟨place, taken ++ bytes, rfl, hplace.of_readAddedData hr htake⟩
  | @refused place? middle final call error _ hrun ih =>
    obtain ⟨hsuffix, hsame⟩ := call.of_error hr hrun
    have hstate := hsame hmode
    obtain ⟨place, taken, rfl, hplace⟩ := ih (hstate ▸ hmode)
    obtain ⟨taken', hlost⟩ := hplace.lose hstate hsuffix
    exact ⟨_, taken', rfl, hlost⟩

/-- **The place of a reader**: in every run of reader calls on a stream that may fail at any byte,
a reader inside a payload has taken from it the bytes that it has counted and the bytes that
failed calls have lost, and what it still expects is what the record announces without the counted
ones. So the next piece lies behind the counted bytes by as many as were lost, and the payload
ends for the reader as many bytes behind its true end. -/
theorem ReaderRun.place_eq (hs : IsFallibleSource unread) {start : Archive σ}
    {place? : Option PayloadPlace} (hstart : start.state.mode ≠ .reading .atAddedData)
    (h : ReaderRun unread start place? handle)
    (hmode : handle.state.mode = .reading .atAddedData) :
    ∃ place taken, place? = some place ∧ place.ahead = taken ++ unread handle.stream ∧
      taken.length = handle.addedDataConsumed + place.lost ∧
      handle.addedDataConsumed + handle.addedDataRemaining = place.record.addedSize.toNat ∧
      (∀ count bytes final, readAddedData count handle = .ok bytes final →
        bytes = (place.ahead.drop (handle.addedDataConsumed + place.lost)).take bytes.length) ∧
      ∀ final, skipRecord handle = .ok () final →
        place.record.addedSize.toNat + place.lost ≤ place.ahead.length ∧
        unread final.stream = place.ahead.drop (place.record.addedSize.toNat + place.lost) := by
  obtain ⟨place, taken, rfl, hahead, hcounted, hannounced⟩ :=
    h.standsIn hs.readsFrom hstart hmode
  have hconsumed : handle.addedDataConsumed = handle.state.incoming.consumed := rfl
  have hremaining : handle.addedDataRemaining = handle.state.incoming.remaining := if_pos hmode
  refine ⟨place, taken, rfl, hahead, hcounted, ?_, fun count bytes final hrun => ?_,
    fun final hrun => ?_⟩
  · rw [hconsumed, hremaining]
    exact hannounced
  · obtain ⟨-, -, hbytes, -⟩ := (outcome_readAddedData hs.readsFrom count handle).of_ok hrun
    rw [hconsumed, ← hcounted, hahead, List.drop_left, hbytes, List.take_left]
  · obtain ⟨-, -, hskipped⟩ := (outcome_skipRecord hs.readsFrom handle).of_ok hrun
    obtain ⟨payload, hlength, hbytes⟩ := hskipped hmode
    -- The bytes taken and the skipped ones are those up to the end that the reader assumes.
    have hend : place.record.addedSize.toNat + place.lost = (taken ++ payload).length := by
      rw [List.length_append]
      omega
    rw [hend, hahead, hbytes, ← List.append_assoc, List.drop_left]
    refine ⟨?_, rfl⟩
    simp only [List.length_append]
    omega

end Run

/-! ### A stream that fails once -/

/-- A fragment with four bytes of payload. -/
def quartet : Segment :=
  (⟨{ kind := .dataFragment, flags := 0x80 }, [[1, 2, 3, 4]]⟩ : Draft).segment

/-- A reader in front of two such fragments, on a stream that cannot be read from the byte with
the number 12 on, which is the third one of the first payload. -/
def brittle : Archive FaultyStream :=
  ⟨⟨.ofList (quartet.toBytes ++ quartet.toBytes), { readFailAt? := some 12 }⟩,
    { mode := .reading .atRecordHeader }⟩

/-- The reader inside the first payload. -/
def insideBrittle : Archive FaultyStream := ReaderCall.readRecord.after brittle

/-- The reader after it could only read two of four bytes. -/
def behindBrittle : Archive FaultyStream := (ReaderCall.readAddedData 4).after insideBrittle

/-- The record in front of the fault is read. -/
theorem readRecord_brittle : readRecord brittle = .ok quartet.record insideBrittle := by
  cbv

/-- The call for its payload meets the fault. -/
theorem readAddedData_brittle : readAddedData 4 insideBrittle
    = .error (.read (.worded .other "read fault")) behindBrittle := by
  cbv

/-- Two bytes have been taken that are not counted. -/
theorem counted_brittle : behindBrittle.state.mode = .reading .atAddedData ∧
    behindBrittle.addedDataConsumed = 0 ∧
    insideBrittle.stream.memory.rest.length - behindBrittle.stream.memory.rest.length = 2 := by
  refine ⟨?_, ?_, ?_⟩
  all_goals cbv

/-- Two bytes are lost there, and what the reader takes for the start of the payload is its third
byte. -/
theorem ReaderRun.place_eq_brittle : ∃ place,
    brittle.state.mode ≠ .reading .atAddedData ∧
      ReaderRun (fun stream : FaultyStream => stream.memory.rest) brittle (some place)
        behindBrittle ∧
      behindBrittle.state.mode = .reading .atAddedData ∧
      behindBrittle.addedDataConsumed = 0 ∧ place.lost = 2 ∧
      behindBrittle.stream.memory.rest = place.ahead.drop 2 := by
  obtain ⟨hmode, hconsumed, hlength⟩ := counted_brittle
  have hstart : brittle.state.mode ≠ .reading .atAddedData := by decide
  have hinside : ReaderRun (fun stream : FaultyStream => stream.memory.rest) brittle
      (some ⟨quartet.record, insideBrittle.stream.memory.rest, 0⟩) insideBrittle :=
    ReaderRun.nil.entered readRecord_brittle
  have hrefused : (ReaderCall.readAddedData 4).run insideBrittle
      = .error (.read (.worded .other "read fault")) behindBrittle :=
    bind_of_error readAddedData_brittle
  have hbehind := hinside.refused hrefused
  obtain ⟨place, taken, hplace, hahead, hcounted, -⟩ :=
    ReaderRun.place_eq FaultyStream.isFallibleSource hstart hbehind hmode
  have hlost : place.lost = 2 := by
    obtain rfl := Option.some.inj hplace
    exact (Nat.zero_add _).trans hlength
  refine ⟨place, hstart, hplace ▸ hbehind, hmode, hconsumed, hlost, ?_⟩
  have htaken : 2 = taken.length := by
    rw [hcounted, hconsumed, hlost]
  rw [htaken, hahead, List.drop_left]

/-- **Shifted bytes**: of four bytes of payload two are taken before the stream fails. The reader
still counts none of them and expects four, and when the stream has recovered it gives the last
two as the first ones and ends two bytes inside the next record. -/
theorem readAddedData_shifted : ∃ failed recovered ended,
    readAddedData 4 insideBrittle = .error (.read (.worded .other "read fault")) failed ∧
      failed.addedDataConsumed = 0 ∧ failed.addedDataRemaining = 4 ∧
      readAddedData 2 ⟨{ failed.stream with faults := {} }, failed.state⟩ = .ok [3, 4] recovered ∧
      skipRecord recovered = .ok () ended ∧
      ended.stream.memory.rest = quartet.toBytes.drop 2 := by
  refine ⟨behindBrittle, (ReaderCall.readAddedData 2).after
      ⟨{ behindBrittle.stream with faults := {} }, behindBrittle.state⟩,
    ReaderCall.skipRecord.after ((ReaderCall.readAddedData 2).after
      ⟨{ behindBrittle.stream with faults := {} }, behindBrittle.state⟩),
    readAddedData_brittle, ?_, ?_, ?_, ?_, ?_⟩
  all_goals cbv

end RecordArchive
