import RecordArchive.Archive.Unpacker
import RecordArchive.Proofs.Record.Segment

/-! # The grammar of entries

The content of an entry lies in the payload of its file header and, while a record says that it is
continued, in those of the data fragments behind it. `IsEntry` says which records are an entry;
`isEntry_iff` says the same record by record, as a reader comes across them. -/

namespace RecordArchive

/-- The content has the length and the checksum that the metadata gives, if it gives them. -/
theorem EntryInfo.verify_eq_ok {info : EntryInfo} {progress : EntryProgress} :
    info.verify progress = .ok () ↔
      (∀ size, info.unpackedSize? = some size → size.toNat = progress.bytes) ∧
        ∀ crc, info.crc? = some crc → crc = progress.crc := by
  unfold EntryInfo.verify
  cases hsize : info.unpackedSize? with
  | none =>
    cases hcrc : info.crc? with
    | none => simp
    | some crc => simp
  | some size =>
    by_cases hlength : size.toNat = progress.bytes
    · cases hcrc : info.crc? with
      | none => simp [hlength]
      | some crc => simp [hlength]
    · simp [hlength]

@[simp] theorem EntryProgress.consume_nil (progress : EntryProgress) : progress.consume [] = progress := by
  rw [EntryProgress.consume, crc32c_nil]
  rfl

/-- Content that was consumed counts as if it were still ahead. -/
theorem EntryProgress.consume_append (progress : EntryProgress) (front back : List UInt8) :
    progress.consume (front ++ back) = (progress.consume front).consume back := by
  simp only [EntryProgress.consume, List.length_append, crc32c_append, Nat.add_assoc]

/-- The metadata in a record is accepted if the record is an undamaged file header. -/
theorem ofRecord_eq_ok {record : Record} {info : EntryInfo} :
    EntryInfo.ofRecord record = .ok info ↔ record.isValid = true ∧ record.kind = .fileHeader ∧
      Record.parse EntryInfo.read record.data = .ok info := by
  unfold EntryInfo.ofRecord
  cases hvalid : record.isValid with
  | false => simp
  | true =>
    by_cases hkind : record.kind = .fileHeader
    · simp [hkind]
    · simp [hkind]

/-- **The records of an entry**: a file header whose data is the metadata, and data fragments; all of
them are undamaged, describe their payloads, and say that they are continued except for the last;
the content is as the metadata says. -/
structure IsEntry (info : EntryInfo) (first : Segment) (later : List Segment) : Prop where
  header : first.record.kind = .fileHeader
  metadata : Record.parse EntryInfo.read first.record.data = .ok info
  fragments : ∀ segment ∈ later, segment.record.kind = .dataFragment
  valid : ∀ segment ∈ first :: later, segment.record.isValid = true
  sound : ∀ segment ∈ first :: later, segment.IsSound
  continued : (first :: later).map (fun segment => segment.record.isContinued)
    = List.replicate later.length true ++ [false]
  size : ∀ size, info.unpackedSize? = some size →
    size.toNat = (contentOf (first :: later)).length
  crc : ∀ crc, info.crc? = some crc → crc = crc32c 0 (contentOf (first :: later))

/-- The records that continue an entry, none if it is not continued. -/
inductive IsContinuation : Bool → List Segment → Prop
  | last : IsContinuation false []
  | more {segment : Segment} {later : List Segment} (hkind : segment.record.kind = .dataFragment)
      (hvalid : segment.record.isValid = true) (hsound : segment.IsSound)
      (hlater : IsContinuation segment.record.isContinued later) :
      IsContinuation true (segment :: later)

/-- Records continue an entry if all of them are sound fragments and just the last one is not
continued. -/
theorem isContinuation_iff {continued : Bool} {later : List Segment} :
    IsContinuation continued later ↔
      (∀ segment ∈ later, segment.record.kind = .dataFragment ∧ segment.record.isValid = true ∧
        segment.IsSound) ∧
      continued :: later.map (fun segment => segment.record.isContinued)
        = List.replicate later.length true ++ [false] := by
  -- a record says of the next one whether it belongs to the entry, so the flags lag by one
  induction later generalizing continued with
  | nil =>
    constructor
    · rintro ⟨⟩
      exact ⟨fun _ h => absurd h List.not_mem_nil, rfl⟩
    · rintro ⟨-, hlast⟩
      obtain rfl : continued = false := (List.cons.inj hlast).1
      exact .last
  | cons segment later ih =>
    constructor
    · rintro (_ | ⟨hkind, hvalid, hsound, hlater⟩)
      obtain ⟨hall, hflags⟩ := ih.mp hlater
      refine ⟨List.forall_mem_cons.mpr ⟨⟨hkind, hvalid, hsound⟩, hall⟩, ?_⟩
      rw [List.map_cons, hflags]
      rfl
    · rintro ⟨hall, hflags⟩
      obtain ⟨⟨hkind, hvalid, hsound⟩, hmore⟩ := List.forall_mem_cons.mp hall
      obtain ⟨rfl, hrest⟩ := List.cons.inj hflags
      exact .more hkind hvalid hsound (ih.mpr ⟨hmore, hrest⟩)

/-- An entry is a file header with metadata that its records continue and that its content agrees
with. -/
theorem isEntry_iff {info : EntryInfo} {first : Segment} {later : List Segment} :
    IsEntry info first later ↔ EntryInfo.ofRecord first.record = .ok info ∧ first.IsSound ∧
      IsContinuation first.record.isContinued later ∧
      info.verify (EntryProgress.consume {} (contentOf (first :: later))) = .ok () := by
  rw [ofRecord_eq_ok, isContinuation_iff, EntryInfo.verify_eq_ok, EntryProgress.consume, Nat.zero_add]
  constructor
  · intro h
    obtain ⟨hvalid, hmore⟩ := List.forall_mem_cons.mp h.valid
    obtain ⟨hsound, hlater⟩ := List.forall_mem_cons.mp h.sound
    exact ⟨⟨hvalid, h.header, h.metadata⟩, hsound, ⟨fun segment hmem =>
      ⟨h.fragments segment hmem, hmore segment hmem, hlater segment hmem⟩, h.continued⟩, h.size,
      h.crc⟩
  · rintro ⟨⟨hvalid, hheader, hmetadata⟩, hsound, ⟨hlater, hcontinued⟩, hsize, hcrc⟩
    exact ⟨hheader, hmetadata, fun segment hmem => (hlater segment hmem).1,
      List.forall_mem_cons.mpr ⟨hvalid, fun segment hmem => (hlater segment hmem).2.1⟩,
      List.forall_mem_cons.mpr ⟨hsound, fun segment hmem => (hlater segment hmem).2.2⟩,
      hcontinued, hsize, hcrc⟩

end RecordArchive
