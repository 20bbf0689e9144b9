import RecordArchive.Archive.RecordWriter
import RecordArchive.Proofs.Record.Segment

/-! # Records whose payload is still to be written

A writer puts a record on the stream before it knows the payload. A `Draft` is the record as it was
requested, with the chunks that were accepted behind it; `Draft.segment` is what stands on the stream
in the end, the record as it describes its payload followed by that payload.

* `Draft.account_add`: one more chunk, as the writer keeps account of it.
* `Draft.fixed_sealedRecord`: sealing writes the record that describes the payload.
* `Draft.toBytes_of_isExact`: without sealing that record stands there already.
* `Draft.Fits.isComplete`: such a record is valid and describes its payload.
* `Segment.IsComplete.isSound`: it is read back as one that does. -/

namespace RecordArchive

/-- A byte string in memory, which has fewer bytes than a 64-bit word can count. -/
structure Slice where
  bytes : List UInt8
  bounded : bytes.length < UInt64.size

/-- Every size is one of eight bytes at most. -/
theorem SizeWidth.maxValue_lt (width : SizeWidth) : width.maxValue < UInt64.size := by
  cases width <;> decide

namespace Record

/-- The record as it describes a payload: with its length, and with its checksum if there is room for
both. -/
def describing (record : Record) (payload : List UInt8) : Record :=
  if record.hasAddedSize then
    ({ record with
        addedSize := UInt64.ofNat payload.length
        addedCrc := if record.hasAddedCrc then crc32c 0 payload else 0 } : Record).fixed
  else record.fixed

/-- A header with a size describes the payload by its length and, if it is to, its checksum. -/
theorem describing_of_hasAddedSize {record : Record} (h : record.hasAddedSize = true)
    (payload : List UInt8) : record.describing payload =
      ({ record with
          addedSize := UInt64.ofNat payload.length
          addedCrc := if record.hasAddedCrc then crc32c 0 payload else 0 } : Record).fixed :=
  if_pos h

/-- A header without a size describes no payload. -/
theorem describing_of_not_hasAddedSize {record : Record} (h : ¬ record.hasAddedSize = true)
    (payload : List UInt8) : record.describing payload = record.fixed :=
  if_neg h

/-- A payload changes neither kind, flags nor data of the record in front of it. -/
theorem describing_frame (record : Record) (payload : List UInt8) :
    (record.describing payload).kind = record.kind ∧
      (record.describing payload).flags = record.flags ∧
      (record.describing payload).data = record.data := by
  by_cases h : record.hasAddedSize = true
  · rw [describing_of_hasAddedSize h]
    exact ⟨rfl, rfl, rfl⟩
  · rw [describing_of_not_hasAddedSize h]
    exact ⟨rfl, rfl, rfl⟩

/-- A checksum for which the header has no room leaves no trace in its bytes. -/
theorem toBytes_fixed_of_not_hasAddedCrc {record : Record} (h : record.hasAddedCrc = false)
    (crc : UInt32) :
    ({ record with addedCrc := crc } : Record).fixed.toBytes = record.fixed.toBytes := by
  have hflag : RecordFlags.has record.flags RecordFlags.payloadCrc = false := h
  simp [fixed, toBytes, computeChecksum_def, coveredHeader, crcField, hasAddedCrc, hflag, sizeField,
    sizeWidth, encodedLength, headerLength]

end Record

/-- **A complete record**: it fits its fields, its size and checksum are right, and it describes the
payload behind it. -/
structure Segment.IsComplete (segment : Segment) : Prop where
  fits : segment.record.Fits
  encoded : segment.record.encode? = .ok segment.record.toBytes
  valid : segment.record.isValid = true
  length : segment.record.hasAddedSize = true →
    segment.record.addedSize.toNat = segment.payload.length
  nothing : segment.record.hasAddedSize = false → segment.payload = []
  crc : segment.record.hasAddedSize = true → segment.record.hasAddedCrc = true →
    segment.record.addedCrc = crc32c 0 segment.payload

/-- A record as it is read back, with its payload. -/
def Segment.normalForm (segment : Segment) : Segment :=
  ⟨segment.record.normalForm, segment.payload⟩

/-- The bytes do not hold what the normal form drops. -/
@[simp] theorem Segment.toBytes_normalForm (segment : Segment) :
    segment.normalForm.toBytes = segment.toBytes := by
  rw [toBytes, toBytes, normalForm, Record.toBytes_normalForm]

/-- **A complete record is read back** as one that describes its payload. -/
theorem Segment.IsComplete.isSound {segment : Segment} (h : segment.IsComplete) :
    segment.normalForm.IsSound := by
  have hsize := (Record.encode?_eq_ok.mp h.encoded).1
  -- Reading sets the fields that the header lacks to zero; size and checksum only count where they
  -- have one.
  refine ⟨h.fits.isNormal_normalForm hsize, ?_, fun hpresent hcrc => ?_⟩
  · show segment.payload.length = if segment.record.hasAddedSize then
      (if segment.record.hasAddedSize then segment.record.addedSize else 0).toNat else 0
    by_cases hpresent : segment.record.hasAddedSize = true
    · rw [if_pos hpresent, if_pos hpresent, h.length hpresent]
    · rw [if_neg hpresent, h.nothing (Bool.not_eq_true _ ▸ hpresent)]
      rfl
  · show (if segment.record.hasAddedCrc then segment.record.addedCrc else 0)
      = crc32c 0 segment.payload
    have hcrc' : segment.record.hasAddedCrc = true := hcrc
    rw [if_pos hcrc']
    exact h.crc hpresent hcrc'

/-- A record as it was requested, with the chunks that were accepted for its payload. -/
structure Draft where
  record : Record
  chunks : List (List UInt8) := []
  deriving DecidableEq, Repr

namespace Draft

/-- The payload: the chunks in a row, cut to the announced size if there is one. -/
def payload (draft : Draft) : List UInt8 :=
  if 0 < draft.record.addedSize.toNat then
    draft.chunks.flatten.take draft.record.addedSize.toNat
  else draft.chunks.flatten

/-- The record with its payload, as they stand on the stream in the end. -/
def segment (draft : Draft) : Segment := ⟨draft.record.describing draft.payload, draft.payload⟩

/-- The draft with one more chunk. -/
def add (draft : Draft) (chunk : List UInt8) : Draft :=
  { draft with chunks := draft.chunks ++ [chunk] }

/-- The account that a writer keeps of a draft of which it knows or does not know the position. -/
def account (draft : Draft) (offset? : Option Nat) : PendingPayload :=
  { record := draft.record.fixed
    offset?
    declaredSize := draft.record.addedSize.toNat
    hasCrc := draft.record.hasAddedCrc
    written := draft.payload.length
    crc := if draft.record.hasAddedCrc then crc32c 0 draft.payload else 0 }

/-- The record fits its fields, and the payload fits the size field. -/
structure Fits (draft : Draft) : Prop where
  record : draft.record.Fits
  length : draft.payload.length ≤ draft.record.sizeWidth.maxValue

/-- At the start there is no payload. -/
@[simp] theorem payload_start (record : Record) : (⟨record, []⟩ : Draft).payload = [] := by
  rw [payload, List.flatten_nil, List.take_nil, ite_self]

/-- A record that fits its fields can be started. -/
theorem fits_start {record : Record} (h : record.Fits) : (⟨record, []⟩ : Draft).Fits := by
  refine ⟨h, ?_⟩
  rw [payload_start]
  exact Nat.zero_le _

/-- The account of a record that has just been started. -/
theorem account_start (record : Record) (offset? : Option Nat) :
    (⟨record, []⟩ : Draft).account offset? = .start record.fixed offset? := by
  rw [account, payload_start, crc32c_nil, ite_self]
  rfl

/-- **One more chunk** adds to the payload what is accepted of it. -/
theorem payload_add (draft : Draft) (chunk : List UInt8) (offset? : Option Nat) :
    (draft.add chunk).payload = draft.payload ++ (draft.account offset?).accept chunk := by
  have hflatten : (draft.chunks ++ [chunk]).flatten = draft.chunks.flatten ++ chunk := by
    rw [List.flatten_append, List.flatten_singleton]
  show (if 0 < draft.record.addedSize.toNat then
      (draft.chunks ++ [chunk]).flatten.take draft.record.addedSize.toNat
    else (draft.chunks ++ [chunk]).flatten) = draft.payload ++
      (if 0 < draft.record.addedSize.toNat then
        chunk.take (draft.record.addedSize.toNat - draft.payload.length) else chunk)
  rw [hflatten, payload]
  by_cases hdeclared : 0 < draft.record.addedSize.toNat
  · -- Cutting all chunks at once leaves of the last one what there is room for behind the others.
    rw [if_pos hdeclared, if_pos hdeclared, if_pos hdeclared, List.take_append, List.length_take]
    congr 2
    omega
  · rw [if_neg hdeclared, if_neg hdeclared, if_neg hdeclared]

/-- The writer keeps account of one more chunk. -/
theorem account_add (draft : Draft) (chunk : List UInt8) (offset? : Option Nat) :
    (draft.account offset?).append ((draft.account offset?).accept chunk)
      = (draft.add chunk).account offset? := by
  -- the running checksum goes on where the payload so far ends
  have hcrc : (if draft.record.hasAddedCrc then
      crc32c (if draft.record.hasAddedCrc then crc32c 0 draft.payload else 0)
        ((draft.account offset?).accept chunk)
      else if draft.record.hasAddedCrc then crc32c 0 draft.payload else 0)
        = if draft.record.hasAddedCrc then crc32c 0 (draft.add chunk).payload else 0 := by
    by_cases hpresent : draft.record.hasAddedCrc = true
    · rw [if_pos hpresent, if_pos hpresent, if_pos hpresent, draft.payload_add chunk offset?,
        crc32c_append]
    · rw [if_neg hpresent, if_neg hpresent, if_neg hpresent]
  have hlength : draft.payload.length + ((draft.account offset?).accept chunk).length
      = (draft.add chunk).payload.length := by
    rw [draft.payload_add chunk offset?, List.length_append]
  rw [PendingPayload.append, account, account, PendingPayload.mk.injEq]
  exact ⟨rfl, rfl, rfl, rfl, hlength, hcrc⟩

/-- A chunk that fits leaves the draft within its bounds. -/
theorem Fits.add {draft : Draft} (h : draft.Fits) (hsize : draft.record.hasAddedSize = true)
    {chunk : List UInt8} {offset? : Option Nat}
    (hchunk : (draft.account offset?).fits chunk = true) :
    (draft.add chunk).Fits := by
  refine ⟨h.record, ?_⟩
  show (draft.add chunk).payload.length ≤ draft.record.sizeWidth.maxValue
  by_cases hdeclared : 0 < draft.record.addedSize.toNat
  · -- The payload is cut to the announced size, which fits its field.
    have hcut : (draft.add chunk).payload
        = (draft.add chunk).chunks.flatten.take draft.record.addedSize.toNat := if_pos hdeclared
    rw [hcut]
    exact Nat.le_trans (List.length_take_le _ _) (h.record.addedSize hsize)
  · -- Nothing is cut, and the writer has looked whether the chunk fits.
    have haccept : (draft.account offset?).accept chunk = chunk := if_neg hdeclared
    rw [draft.payload_add chunk offset?, haccept, List.length_append]
    have hroom : 0 < (draft.account offset?).declaredSize ∨ (draft.account offset?).written
        + chunk.length ≤ (draft.account offset?).record.sizeWidth.maxValue := by
      simpa [PendingPayload.fits] using hchunk
    exact hroom.resolve_left hdeclared

/-! ## Sealing -/

/-- The number of payload bytes fits a 64-bit word. -/
theorem Fits.toNat_length {draft : Draft} (h : draft.Fits) :
    (UInt64.ofNat draft.payload.length).toNat = draft.payload.length :=
  UInt64.toNat_ofNat_of_lt' (Nat.lt_of_le_of_lt h.length (SizeWidth.maxValue_lt _))

/-- The record that sealing writes fits. -/
theorem Fits.sealedRecord {draft : Draft} (h : draft.Fits) (offset? : Option Nat) :
    (draft.account offset?).sealedRecord.Fits := by
  refine ⟨fun _ => ?_, h.record.length⟩
  show (UInt64.ofNat draft.payload.length).toNat ≤ draft.record.sizeWidth.maxValue
  rw [h.toNat_length]
  exact h.length

/-- **Sealing** writes the record that describes the payload. -/
theorem fixed_sealedRecord {draft : Draft} (hsize : draft.record.hasAddedSize = true)
    (offset? : Option Nat) :
    (draft.account offset?).sealedRecord.fixed = draft.record.describing draft.payload := by
  rw [Record.describing_of_hasAddedSize hsize]
  rfl

/-- A record that is not sealed describes its payload already. -/
theorem toBytes_of_isExact {draft : Draft} (hsize : draft.record.hasAddedSize = true)
    {offset? : Option Nat}
    (hexact : (draft.account offset?).isExact = true) (hcrc : draft.record.hasAddedCrc = false) :
    (draft.record.describing draft.payload).toBytes = draft.record.fixed.toBytes := by
  have hlength : draft.payload.length = draft.record.addedSize.toNat := by
    have hboth : 0 < (draft.account offset?).declaredSize ∧
        (draft.account offset?).written = (draft.account offset?).declaredSize := by
      simpa [PendingPayload.isExact] using hexact
    exact hboth.2
  rw [Record.describing_of_hasAddedSize hsize, hlength, UInt64.ofNat_toNat]
  exact Record.toBytes_fixed_of_not_hasAddedCrc hcrc _

end Draft

/-! ## Attempts to seal -/

/-- The payload after an attempt to seal it, which assigns to its record what was written. -/
def PendingPayload.described (pending : PendingPayload) : PendingPayload :=
  match pending.sealedRecord.fix with
  | .ok record => { pending with record }
  | .error _ => { pending with record := pending.sealedRecord }

/-- A description that fits is that of the record that sealing writes. -/
theorem PendingPayload.described_of_fits {pending : PendingPayload}
    (h : pending.sealedRecord.Fits) :
    pending.described = { pending with record := pending.sealedRecord.fixed } := by
  rw [described, Record.fix_eq_ok.mpr ⟨h, rfl⟩]

namespace Draft

/-- **A writer keeps account of a draft**: of the payload so far, and of the record, as it was started
or as the last attempt to seal the payload has described a front part of it. -/
structure IsKeptAs (draft : Draft) (offset? : Option Nat) (pending : PendingPayload) : Prop where
  record : pending.record = draft.record.fixed ∨
    ∃ front, front <+: draft.payload ∧ pending.record = draft.record.describing front
  account : pending = { draft.account offset? with record := pending.record }

namespace IsKeptAs

variable {draft : Draft} {offset? : Option Nat} {pending : PendingPayload}

/-- The account of a draft that no attempt to seal has touched. -/
theorem of_account : draft.IsKeptAs offset? (draft.account offset?) := ⟨.inl rfl, rfl⟩

/-- What was announced of the record is kept. -/
theorem frame (h : draft.IsKeptAs offset? pending) : pending.record.kind = draft.record.kind ∧
    pending.record.flags = draft.record.flags ∧ pending.record.data = draft.record.data := by
  rcases h.record with hrecord | ⟨front, -, hrecord⟩
  · rw [hrecord]
    exact ⟨rfl, rfl, rfl⟩
  · rw [hrecord]
    exact draft.record.describing_frame front

/-- The width of the payload size is kept. -/
theorem sizeWidth (h : draft.IsKeptAs offset? pending) :
    pending.record.sizeWidth = draft.record.sizeWidth := congrArg SizeWidth.ofFlags h.frame.2.1

/-- What is accepted of a chunk does not depend on the record. -/
theorem accept (h : draft.IsKeptAs offset? pending) (chunk : List UInt8) :
    pending.accept chunk = (draft.account offset?).accept chunk := by
  rw [h.account]
  rfl

/-- Whether a chunk fits depends on the width of the payload size alone. -/
theorem fits (h : draft.IsKeptAs offset? pending) (chunk : List UInt8) :
    pending.fits chunk = (draft.account offset?).fits chunk := by
  have hwidth : pending.record.sizeWidth = (draft.account offset?).record.sizeWidth := h.sizeWidth
  rw [PendingPayload.fits, hwidth, h.account]
  rfl

/-- **One more chunk** is accounted for. -/
theorem add (h : draft.IsKeptAs offset? pending) (chunk : List UInt8) :
    (draft.add chunk).IsKeptAs offset? (pending.append (pending.accept chunk)) where
  record := by
    refine h.record.imp id fun hattempt => ?_
    obtain ⟨front, hfront, hrecord⟩ := hattempt
    refine ⟨front, hfront.trans ?_, hrecord⟩
    rw [draft.payload_add chunk offset?]
    exact List.prefix_append _ _
  account := by
    have hrest : pending.append (pending.accept chunk)
        = { (draft.account offset?).append ((draft.account offset?).accept chunk) with
            record := pending.record } := by
      rw [h.accept]
      conv => lhs; rw [h.account]
      rfl
    rw [hrest, draft.account_add]

/-- The record that sealing writes fits. -/
theorem sealedRecord_fits (h : draft.IsKeptAs offset? pending) (hfits : draft.Fits) :
    pending.sealedRecord.Fits := by
  have hsize : pending.sealedRecord.addedSize = (draft.account offset?).sealedRecord.addedSize := by
    rw [h.account]
    rfl
  exact (hfits.sealedRecord offset?).congr h.frame.2.1 hsize h.frame.2.2

/-- **Sealing** writes the record that describes the payload, whatever was attempted before. -/
theorem fixed_sealedRecord (h : draft.IsKeptAs offset? pending)
    (hsize : draft.record.hasAddedSize = true) :
    pending.sealedRecord.fixed = draft.record.describing draft.payload := by
  have hrecord := h.record
  obtain ⟨record, rfl⟩ : ∃ record, pending = { draft.account offset? with record } := ⟨_, h.account⟩
  rcases hrecord with hrecord | ⟨front, -, hrecord⟩
  · obtain rfl : record = draft.record.fixed := hrecord
    exact Draft.fixed_sealedRecord hsize offset?
  · obtain rfl : record = draft.record.describing front := hrecord
    rw [Record.describing_of_hasAddedSize hsize, Record.describing_of_hasAddedSize hsize]
    -- both size and checksum of the payload are assigned anew
    exact Record.fixed_fixed_with _ _ _

/-- **A further attempt** to seal is accounted for. -/
theorem described (h : draft.IsKeptAs offset? pending)
    (hsize : draft.record.hasAddedSize = true) (hfits : draft.Fits) :
    draft.IsKeptAs offset? pending.described := by
  rw [PendingPayload.described_of_fits (h.sealedRecord_fits hfits),
    h.fixed_sealedRecord hsize]
  refine ⟨.inr ⟨draft.payload, List.prefix_rfl, rfl⟩, ?_⟩
  conv => lhs; rw [h.account]

end IsKeptAs

/-- The record of a draft takes as many bytes before it describes the payload. -/
theorem length_describing (draft : Draft) :
    (draft.record.describing draft.payload).toBytes.length = draft.record.fixed.toBytes.length := by
  obtain ⟨-, hflags, hdata⟩ := draft.record.describing_frame draft.payload
  rw [Record.length_toBytes, Record.length_toBytes, Record.encodedLength, Record.encodedLength,
    Record.headerLength, Record.headerLength, hflags, hdata]
  rfl

/-- **A draft becomes a complete record.** -/
theorem Fits.isComplete {draft : Draft} (h : draft.Fits) : draft.segment.IsComplete := by
  by_cases hsize : draft.record.hasAddedSize = true
  · -- The record is the one that sealing writes.
    have hsealed := h.sealedRecord none
    have hfixed := fixed_sealedRecord hsize none
    have hfits : (draft.record.describing draft.payload).Fits := hfixed ▸ hsealed.fixed
    have hencoded : (draft.record.describing draft.payload).size.toNat
        = (draft.record.describing draft.payload).encodedLength := hfixed ▸ hsealed.size_fixed
    refine ⟨hfits, Record.encode?_eq_ok.mpr ⟨hencoded, rfl⟩, ?_, fun _ => ?_, fun habsent => ?_,
      fun _ hcrc => ?_⟩
    · show (draft.record.describing draft.payload).isValid = true
      rw [← hfixed]
      exact Record.isValid_fixed _
    · show (draft.record.describing draft.payload).addedSize.toNat = draft.payload.length
      rw [Record.describing_of_hasAddedSize hsize]
      exact h.toNat_length
    · have hpresent : (draft.record.describing draft.payload).hasAddedSize = true := by
        rw [Record.describing_of_hasAddedSize hsize]
        exact hsize
      exact absurd (hpresent.symm.trans habsent) (by decide)
    · have hcrc' : draft.record.hasAddedCrc = true := by
        rw [segment, Record.describing_of_hasAddedSize hsize] at hcrc
        exact hcrc
      show (draft.record.describing draft.payload).addedCrc = crc32c 0 draft.payload
      rw [Record.describing_of_hasAddedSize hsize, if_pos hcrc']
      rfl
  · -- Without room for a size no payload fits, and the record stands as it was requested.
    have hfixed := Record.describing_of_not_hasAddedSize hsize draft.payload
    have hnil : draft.payload = [] := by
      have hlength := h.length
      rw [Record.sizeWidth_of_hasAddedSize_eq_false (Bool.not_eq_true _ ▸ hsize)] at hlength
      exact List.length_eq_zero_iff.mp (Nat.le_zero.mp hlength)
    have habsent : ¬ (draft.record.describing draft.payload).hasAddedSize = true := by
      rw [hfixed]
      exact hsize
    refine ⟨?_, Record.encode?_eq_ok.mpr ⟨?_, rfl⟩, ?_, fun h => absurd h habsent, fun _ => hnil,
      fun h => absurd h habsent⟩
    · show (draft.record.describing draft.payload).Fits
      rw [hfixed]
      exact h.record.fixed
    · show (draft.record.describing draft.payload).size.toNat
        = (draft.record.describing draft.payload).encodedLength
      rw [hfixed]
      exact h.record.size_fixed
    · show (draft.record.describing draft.payload).isValid = true
      rw [hfixed]
      exact Record.isValid_fixed _

end Draft

/-! ## Record and payload at once -/

/-- What holds of all 256 flags bytes holds of every one. -/
theorem RecordFlags.forall_of_fin {p : UInt8 → Prop} (h : ∀ index : Fin 256, p (.ofFin index))
    (flags : UInt8) : p flags := h flags.toFin

/-- Without a payload the flags give it neither size nor checksum. -/
theorem RecordFlags.announce_nothing (flags : UInt8) :
    SizeWidth.ofFlags (flags &&& ~~~sizeMask &&& ~~~payloadCrc) = .absent ∧
      has (flags &&& ~~~sizeMask &&& ~~~payloadCrc) payloadCrc = false := by
  revert flags
  apply forall_of_fin
  decide +kernel

/-- With a payload or without one, the flags say of a continuation what they said. -/
theorem RecordFlags.announce_continued (flags : UInt8) :
    has (flags &&& ~~~sizeMask &&& ~~~payloadCrc) continued = has flags continued ∧
      has (flags &&& ~~~sizeMask ||| wideSize) continued = has flags continued ∧
      has (flags &&& ~~~sizeMask ||| narrowSize) continued = has flags continued := by
  revert flags
  apply forall_of_fin
  decide +kernel

/-- With a payload the flags give its size the chosen width, and say of its checksum what they
said. -/
theorem RecordFlags.announce_width (flags : UInt8) :
    (SizeWidth.ofFlags (flags &&& ~~~sizeMask ||| wideSize) = .eight ∧
      SizeWidth.ofFlags (flags &&& ~~~sizeMask ||| narrowSize) = .four) ∧
      has (flags &&& ~~~sizeMask ||| wideSize) payloadCrc = has flags payloadCrc ∧
      has (flags &&& ~~~sizeMask ||| narrowSize) payloadCrc = has flags payloadCrc := by
  revert flags
  apply forall_of_fin
  decide +kernel

namespace Record

/-- The record in front of no payload. -/
theorem announcing_nil (record : Record) : record.announcing [] =
    { record with
      flags := record.flags &&& ~~~RecordFlags.sizeMask &&& ~~~RecordFlags.payloadCrc
      addedSize := 0
      addedCrc := 0 } := by
  rw [announcing]
  exact if_pos rfl

/-- The record in front of some payload. -/
theorem announcing_of_ne_nil {payload : List UInt8} (hne : payload ≠ []) (record : Record) :
    record.announcing payload =
      { record with
        flags := record.flags &&& ~~~RecordFlags.sizeMask |||
          (if narrowPayloadMax < payload.length then RecordFlags.wideSize
            else RecordFlags.narrowSize)
        addedSize := UInt64.ofNat payload.length
        addedCrc := if record.hasAddedCrc then crc32c 0 payload else record.addedCrc } :=
  if_neg hne

/-- The size field of a record in front of some payload, which has room for its length. -/
theorem sizeWidth_announcing {payload : List UInt8} (hne : payload ≠ [])
    (hlength : payload.length < UInt64.size) (record : Record) :
    (record.announcing payload).hasAddedSize = true ∧
      payload.length ≤ (record.announcing payload).sizeWidth.maxValue := by
  obtain ⟨⟨hwide, hnarrow⟩, -, -⟩ := RecordFlags.announce_width record.flags
  rw [announcing_of_ne_nil hne, hasAddedSize, sizeWidth]
  by_cases hlarge : narrowPayloadMax < payload.length
  · rw [if_pos hlarge, hwide]
    exact ⟨rfl, Nat.le_sub_one_of_lt hlength⟩
  · rw [if_neg hlarge, hnarrow]
    refine ⟨rfl, Nat.le_trans (Nat.le_of_not_lt hlarge) ?_⟩
    decide

/-- Whether the checksum of a payload is asked for does not depend on the payload. -/
theorem hasAddedCrc_announcing {payload : List UInt8} (hne : payload ≠ []) (record : Record) :
    (record.announcing payload).hasAddedCrc = record.hasAddedCrc := by
  obtain ⟨-, hwide, hnarrow⟩ := RecordFlags.announce_width record.flags
  rw [announcing_of_ne_nil hne, hasAddedCrc]
  by_cases hlarge : narrowPayloadMax < payload.length
  · rw [if_pos hlarge]
    exact hwide
  · rw [if_neg hlarge]
    exact hnarrow

/-- Whether a record is continued does not depend on its payload. -/
theorem isContinued_announcing (record : Record) (payload : List UInt8) :
    (record.announcing payload).isContinued = record.isContinued := by
  obtain ⟨hnothing, hwide, hnarrow⟩ := RecordFlags.announce_continued record.flags
  by_cases hne : payload = []
  · subst hne
    rw [announcing_nil]
    exact hnothing
  · rw [announcing_of_ne_nil hne, isContinued]
    by_cases hlarge : narrowPayloadMax < payload.length
    · rw [if_pos hlarge]
      exact hwide
    · rw [if_neg hlarge]
      exact hnarrow

/-- A payload that is announced changes neither kind nor data of the record. -/
theorem announcing_frame (record : Record) (payload : List UInt8) :
    (record.announcing payload).kind = record.kind ∧
      (record.announcing payload).data = record.data := by
  by_cases hne : payload = []
  · subst hne
    rw [announcing_nil]
    exact ⟨rfl, rfl⟩
  · rw [announcing_of_ne_nil hne]
    exact ⟨rfl, rfl⟩

end Record

namespace Draft

/-- The draft of a record that is written together with its whole payload. -/
def whole (record : Record) (payload : List UInt8) : Draft :=
  ⟨record.announcing payload, [payload]⟩

/-- Nothing of a whole payload is cut. -/
theorem payload_whole {payload : List UInt8} (hlength : payload.length < UInt64.size)
    (record : Record) : (whole record payload).payload = payload := by
  have hflatten : [payload].flatten = payload := List.flatten_singleton
  by_cases hne : payload = []
  · subst hne
    rw [Draft.payload, whole, Record.announcing_nil]
    rfl
  · have hsize : (record.announcing payload).addedSize.toNat = payload.length := by
      rw [Record.announcing_of_ne_nil hne]
      exact UInt64.toNat_ofNat_of_lt' hlength
    have hpos : 0 < payload.length := List.length_pos_iff.mpr hne
    rw [Draft.payload, whole, hflatten, hsize, if_pos hpos, List.take_length]

/-- A whole draft fits if its record does. -/
theorem fits_whole {record : Record} {payload : List UInt8}
    (hlength : payload.length < UInt64.size) (h : (record.announcing payload).Fits) :
    (whole record payload).Fits := by
  refine ⟨h, ?_⟩
  rw [payload_whole hlength]
  by_cases hne : payload = []
  · rw [hne]
    exact Nat.zero_le _
  · exact (record.sizeWidth_announcing hne hlength).2

/-- **A whole draft** is written as it stands in the end. -/
theorem toBytes_whole {record : Record} {payload : List UInt8}
    (hlength : payload.length < UInt64.size) :
    (whole record payload).segment.toBytes
      = (record.announcing payload).fixed.toBytes ++ payload := by
  have hrecord : ((record.announcing payload).describing payload).toBytes
      = (record.announcing payload).fixed.toBytes := by
    by_cases hne : payload = []
    · -- A record in front of no payload has no room for a size.
      subst hne
      have habsent : ¬ (record.announcing []).hasAddedSize = true := by
        rw [Record.announcing_nil, Record.hasAddedSize, Record.sizeWidth,
          (RecordFlags.announce_nothing record.flags).1]
        decide
      rw [Record.describing_of_not_hasAddedSize habsent]
    · -- The announced size and checksum are those of the payload.
      obtain ⟨hsize, -⟩ := record.sizeWidth_announcing hne hlength
      have hpresent := record.hasAddedCrc_announcing hne
      rw [Record.describing_of_hasAddedSize hsize, hpresent]
      by_cases hcrc : record.hasAddedCrc = true
      · rw [if_pos hcrc, Record.announcing_of_ne_nil hne, if_pos hcrc]
      · rw [if_neg hcrc]
        have hsame : UInt64.ofNat payload.length = (record.announcing payload).addedSize := by
          rw [Record.announcing_of_ne_nil hne]
        rw [hsame]
        exact Record.toBytes_fixed_of_not_hasAddedCrc
          (hpresent.trans (Bool.not_eq_true _ ▸ hcrc)) 0
  rw [Segment.toBytes, segment, payload_whole hlength]
  exact congrArg (· ++ payload) hrecord

end Draft

end RecordArchive
