import RecordArchive.Proofs.Archive.RecordReader
import RecordArchive.Proofs.Record.Layout

/-! # The record in front of a reader

A reader that stands between two records takes the next header in three steps, each as long as the
bytes before it say, and then the data. The decoder of a buffer looks at all of its bytes at once.
Here both are compared on every byte string.

* `Archive.readRecordHeader_of_endsInside`, `Archive.readRecordHeader_of_invalid`: what is found by any
  call that takes a header where the record is not there, or where its header cannot be.
* `Archive.readRecord_of_endsInside`, `Archive.skipRecord_of_endsInside`: so a record that is not there
  is neither read nor skipped.
* `Archive.readRecord_agrees_decode`: **the reader agrees with the decoder**, and where the decoder has
  one error for all bytes that hold no record, the reader tells a clean end, a premature end and
  invalid data apart. -/

namespace RecordArchive

open Program Call

variable {σ : Type}

namespace Archive

/-! ## The header in front of a reader -/

section Headers

variable {bytes : List UInt8} (state : HandleState)

/-- The first byte of a header is taken, and then the reader is inside the record. -/
theorem readRecordHeader_cons (byte : UInt8) (rest : List UInt8) :
    readRecordHeader ⟨byte :: rest, state⟩ = (do
      let fixed ← onStream (readExactly .inside (RecordFlags.fixedHeaderLength - 1))
      let optional ← onStream (readExactly .inside
        (RecordFlags.headerLength (Record.flagsAt (byte :: fixed)) - RecordFlags.fixedHeaderLength))
      ofResult (Record.decodeHeader (byte :: fixed ++ optional)) : Call (List UInt8) Record)
        ⟨rest, state.stranded⟩ := by
  have hfirst : onStream (readExactly .boundary 1) ⟨byte :: rest, state⟩
      = .ok [byte] ⟨rest, state⟩ :=
    onStream_eq_ok.mpr ⟨rest, readExactly_eq_ok.mpr ⟨rfl, rfl⟩, rfl⟩
  rw [readRecordHeader, bind_of_ok hfirst, bind_of_ok (setMode_apply _ rest state)]
  rfl

/-- **A header that is not there**: the list ends inside the fixed part, or in front of a field that
the flags announce. -/
theorem readRecordHeader_of_short (hne : bytes ≠ [])
    (hshort : bytes.length < RecordFlags.headerLength (Record.flagsAt bytes)) :
    readRecordHeader ⟨bytes, state⟩ = .error .prematureEof ⟨[], state.stranded⟩ := by
  obtain ⟨byte, rest, rfl⟩ := List.exists_cons_of_ne_nil hne
  rw [readRecordHeader_cons]
  rw [List.length_cons] at hshort
  by_cases hrest : rest.length < RecordFlags.fixedHeaderLength - 1
  · exact bind_of_error (onStream_of_error (readExactly_of_short hrest))
  · obtain ⟨fixed, more, rfl, hfive⟩ := exists_front (Nat.le_of_not_lt hrest)
    have hfixed : onStream (readExactly .inside (RecordFlags.fixedHeaderLength - 1))
        ⟨fixed ++ more, state.stranded⟩ = .ok fixed ⟨more, state.stranded⟩ :=
      onStream_eq_ok.mpr ⟨more, readExactly_eq_ok.mpr ⟨hfive, rfl⟩, rfl⟩
    have hfour : 3 < (byte :: fixed).length := by
      rw [List.length_cons, hfive]
      decide
    have hflags : Record.flagsAt (byte :: (fixed ++ more)) = Record.flagsAt (byte :: fixed) :=
      Record.flagsAt_append hfour more
    rw [bind_of_ok hfixed]
    refine bind_of_error (onStream_of_error (readExactly_of_short ?_))
    rw [hflags, List.length_append, hfive] at hshort
    rw [RecordFlags.fixedHeaderLength] at hshort ⊢
    omega

/-- A header that is there is judged by its bytes alone. -/
theorem readRecordHeader_eq {front : List UInt8}
    (hfront : front.length = RecordFlags.headerLength (Record.flagsAt front)) (rest : List UInt8) :
    readRecordHeader ⟨front ++ rest, state⟩
      = ofResult (Record.decodeHeader front) ⟨rest, state.stranded⟩ := by
  have hsix := RecordFlags.fixedHeaderLength_le_headerLength (Record.flagsAt front)
  rw [← hfront, RecordFlags.fixedHeaderLength] at hsix
  obtain ⟨byte, behind, rfl⟩ := List.exists_cons_of_length_pos (by omega : 0 < front.length)
  rw [List.length_cons] at hsix
  obtain ⟨fixed, optional, rfl, hfive⟩ := exists_front (by omega : 5 ≤ behind.length)
  -- The five bytes hold the flags, which say how long the rest of the header is.
  have hfour : 3 < (byte :: fixed).length := by
    rw [List.length_cons, hfive]
    decide
  have hflags : Record.flagsAt (byte :: (fixed ++ optional)) = Record.flagsAt (byte :: fixed) :=
    Record.flagsAt_append hfour optional
  rw [hflags, List.length_cons, List.length_append, hfive] at hfront
  have hoptional : optional.length
      = RecordFlags.headerLength (Record.flagsAt (byte :: fixed)) - RecordFlags.fixedHeaderLength := by
    rw [RecordFlags.fixedHeaderLength]
    omega
  have hfixedRun : onStream (readExactly .inside (RecordFlags.fixedHeaderLength - 1))
      ⟨fixed ++ (optional ++ rest), state.stranded⟩ = .ok fixed ⟨optional ++ rest, state.stranded⟩ :=
    onStream_eq_ok.mpr ⟨_, readExactly_eq_ok.mpr ⟨hfive, rfl⟩, rfl⟩
  have hoptionalRun : onStream (readExactly .inside
      (RecordFlags.headerLength (Record.flagsAt (byte :: fixed)) - RecordFlags.fixedHeaderLength))
      ⟨optional ++ rest, state.stranded⟩ = .ok optional ⟨rest, state.stranded⟩ :=
    onStream_eq_ok.mpr ⟨rest, readExactly_eq_ok.mpr ⟨hoptional, rfl⟩, rfl⟩
  rw [List.cons_append, List.append_assoc, readRecordHeader_cons, bind_of_ok hfixedRun,
    bind_of_ok hoptionalRun]
  rfl

/-- **A header that cannot be**: it is there, but the size field has no room for it. -/
theorem readRecordHeader_of_invalid
    (hlength : RecordFlags.headerLength (Record.flagsAt bytes) ≤ bytes.length)
    (hsize : Record.sizeAt bytes < RecordFlags.headerLength (Record.flagsAt bytes)) :
    ∃ fault final, readRecordHeader ⟨bytes, state⟩ = .error (.invalidData fault) final := by
  obtain ⟨front, rest, rfl, hfront⟩ := exists_front hlength
  have hsix := RecordFlags.fixedHeaderLength_le_headerLength (Record.flagsAt (front ++ rest))
  rw [← hfront] at hsix
  have hflags : Record.flagsAt (front ++ rest) = Record.flagsAt front :=
    Record.flagsAt_append (Nat.lt_of_lt_of_le (by decide) hsix) rest
  rw [hflags] at hfront hsize
  rw [Record.sizeAt_append hsix] at hsize
  rw [readRecordHeader_eq state hfront]
  cases hdecode : Record.decodeHeader front with
  | ok header =>
    have hroom := (Record.exists_decodeHeader_iff.mp ⟨header, hdecode⟩).2
    exact absurd hsize (Nat.not_lt_of_le hroom)
  | error error =>
    obtain ⟨fault, rfl⟩ := Record.decodeHeader_eq_error hdecode
    exact ⟨fault, _, rfl⟩

/-- **Bytes that end inside a record** end inside its header, or a header is taken and then they end
inside the data. -/
theorem readRecordHeader_of_endsInside (hne : bytes ≠ []) (hinside : Record.EndsInside bytes) :
    readRecordHeader ⟨bytes, state⟩ = .error .prematureEof ⟨[], state.stranded⟩ ∨
      ∃ (header : Record) (rest : List UInt8), rest.length < header.dataLength ∧
        readRecordHeader ⟨bytes, state⟩ = .ok header ⟨rest, state.stranded⟩ := by
  by_cases hshort : bytes.length < RecordFlags.headerLength (Record.flagsAt bytes)
  · exact .inl (readRecordHeader_of_short state hne hshort)
  · obtain ⟨hsize, hend⟩ := hinside.resolve_left hshort
    obtain ⟨header, hdecode⟩ :=
      Record.exists_decodeHeader_iff.mpr ⟨Nat.le_of_not_lt hshort, hsize⟩
    obtain ⟨hnormal, hnil, rest, rfl⟩ := Record.decodeHeader_eq_ok.mp hdecode
    refine .inr ⟨header, rest, ?_, readRecordHeader_eq_ok.mpr ⟨hnormal, hnil, rest, rfl, rfl⟩⟩
    rw [Record.sizeAt_headerBytes, List.length_append, Record.length_headerBytes] at hend
    rw [Record.dataLength]
    omega

end Headers

/-! ## The record in front of a reader -/

section Records

variable {bytes : List UInt8} {state : HandleState}

/-- **A record that is not there** is not read. -/
theorem readRecord_of_endsInside (hmode : state.mode = .reading .atRecordHeader) (hne : bytes ≠ [])
    (hinside : Record.EndsInside bytes) :
    readRecord ⟨bytes, state⟩ = .error .prematureEof ⟨[], state.stranded⟩ := by
  rcases readRecordHeader_of_endsInside state hne hinside with hrun | ⟨header, rest, hrest, hrun⟩
  · exact readRecord_of_header hmode hrun
  · have hexpect : expectReader .atRecordHeader "read_record" ⟨bytes, state⟩
        = .ok () ⟨bytes, state⟩ := expectReader_eq_ok.mpr ⟨hmode, rfl⟩
    rw [readRecord, bind_of_ok hexpect, bind_of_ok hrun]
    exact bind_of_error (onStream_of_error (readExactly_of_short hrest))

/-- A record that the decoder finds is taken. -/
theorem readRecord_of_decode (hmode : state.mode = .reading .atRecordHeader) {record : Record}
    (h : Record.decode bytes = .ok record) : readRecord ⟨bytes, state⟩
      = .ok record ⟨bytes.drop record.size.toNat, state.behind record⟩ := by
  obtain ⟨hnormal, rest, rfl⟩ := Record.decode_eq_ok.mp h
  have hsize : record.size.toNat = record.toBytes.length := by
    rw [Record.length_toBytes, hnormal.size]
  rw [hsize, List.drop_left]
  exact readRecord_eq_ok.mpr ⟨hmode, hnormal, rest, rfl, rfl⟩

/-- **There is no further record** just at the end of the list, and finding that changes nothing. -/
theorem readRecord_eq_eof {final : Archive (List UInt8)} :
    readRecord ⟨bytes, state⟩ = .error .eof final ↔
      state.mode = .reading .atRecordHeader ∧ bytes = [] ∧ final = ⟨[], state⟩ := by
  constructor
  · intro h
    have hmode : state.mode = .reading .atRecordHeader := mode_of_readRecord_eof h
    by_cases hnil : bytes = []
    · rw [hnil, readRecord_nil hmode] at h
      cases h
      exact ⟨hmode, hnil, rfl⟩
    -- with some bytes there is a record, or something else is wrong
    by_cases hinside : Record.EndsInside bytes
    · rw [readRecord_of_endsInside hmode hnil hinside] at h
      cases h
    rw [Record.EndsInside] at hinside
    by_cases hinvalid : Record.sizeAt bytes < RecordFlags.headerLength (Record.flagsAt bytes)
    · obtain ⟨fault, behind, hheader⟩ := readRecordHeader_of_invalid state (by omega) hinvalid
      rw [readRecord_of_header hmode hheader] at h
      cases h
    · have hsix : 6 ≤ RecordFlags.headerLength (Record.flagsAt bytes) :=
        RecordFlags.fixedHeaderLength_le_headerLength _
      obtain ⟨record, hdecode⟩ := Record.exists_decode_iff.mpr
        (⟨by omega, by omega, by omega⟩ : 6 ≤ bytes.length ∧ _)
      rw [readRecord_of_decode hmode hdecode] at h
      cases h
  · rintro ⟨hmode, rfl, rfl⟩
    exact readRecord_nil hmode

/-! ### Skipping it -/

/-- **A record that is not there** is not skipped. -/
theorem skipRecord_of_endsInside (hmode : state.mode = .reading .atRecordHeader) (hne : bytes ≠ [])
    (hinside : Record.EndsInside bytes) :
    skipRecord ⟨bytes, state⟩ = .error .prematureEof ⟨[], state.stranded⟩ := by
  rcases readRecordHeader_of_endsInside state hne hinside with hrun | ⟨header, rest, hrest, hrun⟩
  · exact skipRecord_of_header hmode hrun
  · have hpayload : payloadToSkip ⟨bytes, state⟩ = .error .prematureEof ⟨[], state.stranded⟩ := by
      rw [payloadToSkip_of_atRecordHeader hmode, bind_of_ok hrun]
      exact bind_of_error (onStream_of_error (discard_of_short hrest))
    exact bind_of_error hpayload

/-- Nor is a record whose payload is not there. -/
theorem skipRecord_of_short_payload (hmode : state.mode = .reading .atRecordHeader)
    {record : Record} (hnormal : record.IsNormal) {rest : List UInt8}
    (hshort : rest.length < record.addedSize.toNat) :
    skipRecord ⟨record.toBytes ++ rest, state⟩ = .error .prematureEof ⟨[], state.stranded⟩ := by
  have hpayload : payloadToSkip ⟨record.toBytes ++ rest, state⟩
      = .ok record.addedSize.toNat ⟨rest, state.stranded⟩ :=
    (payloadToSkip_eq_ok_of_atRecordHeader hmode).mpr ⟨record, rest, hnormal, rfl, rfl, rfl⟩
  rw [skipRecord, bind_of_ok hpayload]
  exact bind_of_error (onStream_of_error (discard_of_short hshort))

/-- Nor is the rest of a payload that is not there. -/
theorem skipRecord_of_short_rest (hmode : state.mode = .reading .atAddedData)
    (hshort : bytes.length < state.incoming.remaining) :
    skipRecord ⟨bytes, state⟩ = .error .prematureEof ⟨[], state⟩ := by
  rw [skipRecord, bind_of_ok (payloadToSkip_of_atAddedData hmode)]
  exact bind_of_error (onStream_of_error (discard_of_short hshort))

/-! ### Taking its payload -/

/-- **A payload that is not there** as a whole: a piece of what is there can be taken, and then the
rest is not there either. -/
theorem outcome_readAddedData_of_short (count : Nat) (hmode : state.mode = .reading .atAddedData)
    (hshort : bytes.length < state.incoming.remaining) :
    Outcome (fun taken final => taken.length = transferLength count state.incoming ∧
        final.state.mode = .reading .atAddedData ∧
        final.stream.length < final.state.incoming.remaining)
      (fun error _ => error = .prematureEof) (readAddedData count ⟨bytes, state⟩) := by
  by_cases hlength : bytes.length < transferLength count state.incoming
  · have hexpect : expectReader .atAddedData "read_added_data" ⟨bytes, state⟩
        = .ok () ⟨bytes, state⟩ := expectReader_eq_ok.mpr ⟨hmode, rfl⟩
    have hleft : ¬ state.incoming.remaining = 0 := by omega
    rw [readAddedData, bind_of_ok hexpect, bind_of_ok (state_apply _), if_neg hleft]
    refine Outcome.bind (outcome_onStream ?_)
    show Outcome _ _ (readExactly .inside (transferLength count state.incoming) bytes)
    rw [readExactly_of_short hlength]
    exact rfl
  · -- One call takes the front of what is there, which is not all of the payload.
    obtain ⟨taken, more, rfl, htaken⟩ := exists_front (Nat.le_of_not_lt hlength)
    rw [List.length_append] at hshort
    have hleft : (state.incoming.consume taken).remaining
        = state.incoming.remaining - taken.length := rfl
    have hinside : (state.incoming.consume taken).remaining ≠ 0 := by omega
    have hrun : readAddedData count ⟨taken ++ more, state⟩ = .ok taken ⟨more, state.taken taken⟩ :=
      readAddedData_eq_ok.mpr ⟨hmode, htaken, fun h => absurd h hinside, more, rfl, rfl⟩
    rw [hrun]
    refine ⟨htaken, ?_, ?_⟩
    · rw [HandleState.mode_taken, if_neg hinside]
    · rw [HandleState.incoming_taken, hleft]
      show more.length < _
      omega

end Records

/-! ## Reader and decoder -/

section Streams

/-- Behind a record all of its payload is left. -/
theorem addedDataRemaining_behind (stream : σ) (state : HandleState) (record : Record) :
    (⟨stream, state.behind record⟩ : Archive σ).addedDataRemaining
      = if record.hasAddedSize then record.addedSize.toNat else 0 := by
  rw [addedDataRemaining, HandleState.mode_behind]
  by_cases hsize : record.hasAddedSize = true
  · rw [if_pos hsize, if_pos hsize, if_pos rfl]
    exact IncomingPayload.remaining_ofRecord hsize
  · rw [if_neg hsize, if_neg hsize, if_neg (by decide)]

variable [ByteSource σ] {stream : σ} {bytes : List UInt8} {state : HandleState}

/-- **The reader agrees with the decoder** on every byte string, however the stream delivers it.

* It takes just the record that the decoder finds, and all bytes of that. It is then inside the
  payload if the header has a field for its size, and between two records otherwise.
* It finds the end if and only if there are no bytes, and that changes nothing.
* The end is premature if and only if there are some bytes, but not the fixed header, the fields that
  the flags announce, or the data up to a size that has room for these.
* The bytes are invalid if and only if the header is there and the size has no room for it. -/
theorem readRecord_agrees_decode (hmode : state.mode = .reading .atRecordHeader)
    (hstream : Yields stream bytes) :
    (∀ record, (∃ final, readRecord ⟨stream, state⟩ = .ok record final) ↔
      Record.decode bytes = .ok record) ∧
    (∀ record final, readRecord ⟨stream, state⟩ = .ok record final →
      record.size.toNat ≤ bytes.length ∧
      Yields final.stream (bytes.drop record.size.toNat) ∧
      final.mode = .reading (if record.hasAddedSize then .atAddedData else .atRecordHeader) ∧
      final.addedDataRemaining = if record.hasAddedSize then record.addedSize.toNat else 0) ∧
    ((∃ final, readRecord ⟨stream, state⟩ = .error .eof final) ↔ bytes = []) ∧
    (∀ final, readRecord ⟨stream, state⟩ = .error .eof final →
      final.state = state ∧ Yields final.stream bytes) ∧
    ((∃ final, readRecord ⟨stream, state⟩ = .error .prematureEof final) ↔ bytes ≠ [] ∧
      (bytes.length < 6 ∨ bytes.length < RecordFlags.headerLength (Record.flagsAt bytes) ∨
        RecordFlags.headerLength (Record.flagsAt bytes) ≤ Record.sizeAt bytes ∧
          bytes.length < Record.sizeAt bytes)) ∧
    ((∃ fault final, readRecord ⟨stream, state⟩ = .error (.invalidData fault) final) ↔
      6 ≤ bytes.length ∧ RecordFlags.headerLength (Record.flagsAt bytes) ≤ bytes.length ∧
        Record.sizeAt bytes < RecordFlags.headerLength (Record.flagsAt bytes)) := by
  have hsix : 6 ≤ RecordFlags.headerLength (Record.flagsAt bytes) :=
    RecordFlags.fixedHeaderLength_le_headerLength _
  have hdecode : (∃ record, Record.decode bytes = .ok record) ↔ 6 ≤ bytes.length ∧
      RecordFlags.headerLength (Record.flagsAt bytes) ≤ Record.sizeAt bytes ∧
        Record.sizeAt bytes ≤ bytes.length := Record.exists_decode_iff
  have hreads : Simulates (Related (Yields : σ → List UInt8 → Prop)) readRecord readRecord :=
    simulates_readRecord Yields.isDelivery.readsAlike
  -- The four conditions exclude each other, so it is enough to find the result under each of them.
  by_cases hnil : bytes = []
  · have hlist : readRecord ⟨bytes, state⟩ = .error .eof ⟨bytes, state⟩ :=
      hnil ▸ readRecord_nil hmode
    obtain ⟨final, hrun, hfinal⟩ := exists_error_of_yields hreads hstream hlist
    have hno := not_exists.mp (mt hdecode.mp (by simp [hnil]))
    rw [hrun]
    exact ⟨by simp [hno], by simp, by simp [hnil], by simp [hfinal], by simp [hnil], by simp [hnil]⟩
  by_cases hshort : Record.EndsInside bytes
  all_goals rw [Record.EndsInside] at hshort
  · obtain ⟨final, hrun, -⟩ := exists_error_of_yields hreads hstream
      (readRecord_of_endsInside hmode hnil hshort)
    have hno := not_exists.mp (mt hdecode.mp (by omega))
    rw [hrun]
    exact ⟨by simp [hno], by simp, by simp [hnil], by simp, by simp [hnil, hshort], by simp; omega⟩
  by_cases hinvalid : Record.sizeAt bytes < RecordFlags.headerLength (Record.flagsAt bytes)
  · obtain ⟨fault, ⟨rest, behind⟩, hlist⟩ :=
      readRecordHeader_of_invalid state (by omega) hinvalid
    obtain ⟨final, hrun, -⟩ :=
      exists_error_of_yields hreads hstream (readRecord_of_header hmode hlist)
    have hno := not_exists.mp (mt hdecode.mp (by omega))
    rw [hrun]
    exact ⟨by simp [hno], by simp, by simp [hnil], by simp, by simp; omega, by simp; omega⟩
  · obtain ⟨record, hrecord⟩ := hdecode.mpr (by omega)
    obtain ⟨final, hrun, hfinal⟩ :=
      exists_ok_of_yields hreads hstream (readRecord_of_decode hmode hrecord)
    rw [hrun, hrecord]
    refine ⟨by simp, ?_, by simp [hnil], by simp, by simp; omega, by simp; omega⟩
    rintro _ _ ⟨⟩
    have hsize := Record.size_of_decode hrecord
    exact ⟨by omega, hfinal, rfl, addedDataRemaining_behind final state record⟩

end Streams

/-- A record in front of half of its payload is taken, and the payload is still awaited. -/
theorem readRecord_agrees_decode_half :
    let record : Record := { kind := .dataFragment, flags := 0x80, size := 10, addedSize := 2 }
    let stream := MemoryStream.ofList (record.toBytes ++ [104])
    let state : HandleState := { mode := .reading .atRecordHeader }
    ∃ final, readRecord ⟨stream, state⟩ = .ok record final ∧ Yields final.stream [104] ∧
      final.mode = .reading .atAddedData ∧ final.addedDataRemaining = 2 := by
  intro record stream state
  have hmode : state.mode = .reading .atRecordHeader := rfl
  obtain ⟨htaken, hbehind, -⟩ := readRecord_agrees_decode hmode (MemoryStream.yields stream)
  have hdecode : Record.decode stream.rest = .ok record :=
    Record.decode_eq_ok.mpr ⟨⟨by decide, by decide, by decide, by decide⟩, [104], rfl⟩
  have hsize : record.hasAddedSize = true := by decide
  have hdrop : stream.rest.drop record.size.toNat = [104] := by decide
  obtain ⟨final, hrun⟩ := (htaken record).mpr hdecode
  obtain ⟨-, hrest, hplace, hremaining⟩ := hbehind record final hrun
  rw [if_pos hsize] at hplace hremaining
  exact ⟨final, hrun, hdrop ▸ hrest, hplace, hremaining⟩

end Archive

end RecordArchive
