import RecordArchive.Archive.Walk
import RecordArchive.Proofs.Archive.CutArchive
import RecordArchive.Proofs.Archive.RoundTrip

/-! # Walks along entries

A listing and the command to unpack go from entry to entry and decide about each of them once its
metadata is known: its content is extracted or skipped.

* `Archive.nextEntry_eq_some`, `Archive.nextEntry_eq_none`: what there is in front of a handle.
* `Archive.Walks entries handle`: these entries are found, whatever is decided about each of them.
* `Archive.walks_of_areEntries`: from records that are entries any reader walks along these entries.
* `Archive.readArchiveHeader_of_yields`: how a walk starts. -/

namespace RecordArchive

open Program Call

variable {σ τ : Type}

namespace Archive

/-- **A walk along entries**: one after another their metadata is found, and then the entry is skipped or
its content is extracted, to any sink; behind the last one there is no further entry. -/
def Walks [ByteSource σ] [ByteSink τ] (holds : τ → List UInt8 → Prop) :
    List (EntryInfo × List UInt8) → Archive σ → Prop
  | [], handle => ∃ final, nextEntry handle = .ok none final
  | (info, content) :: more, handle => ∃ opened, nextEntry handle = .ok (some info) opened ∧
    (∃ final, skipFile opened = .ok () final ∧ Walks holds more final) ∧
    ∀ sink held, holds sink held → ∃ (copy : CopySink τ) (final : Archive σ),
      extract ((⟨sink, 0⟩ : CopySink τ), opened) = .ok () (copy, final) ∧
      holds copy.stream (held ++ content) ∧ Walks holds more final

/-! ## The next entry -/

/-- A result that is there is that of the call. -/
theorem unlessEof_eq_some {α : Type} {call : Call σ α} {handle final : Archive σ} {value : α} :
    unlessEof call handle = .ok (some value) final ↔ call handle = .ok value final := by
  unfold unlessEof
  rcases call handle with ⟨found, rest⟩ | ⟨error, rest⟩
  · simp
  · cases error <;> simp

/-- There is no result where the call finds the end. -/
theorem unlessEof_eq_none {α : Type} {call : Call σ α} {handle final : Archive σ} :
    unlessEof call handle = .ok none final ↔ call handle = .error .eof final := by
  unfold unlessEof
  rcases call handle with ⟨found, rest⟩ | ⟨error, rest⟩
  · simp
  · cases error <;> simp

/-- The next entry is looked for where a file header may stand. -/
theorem nextEntry_eq_ok [ByteSource σ] {handle final : Archive σ} {found? : Option EntryInfo} :
    nextEntry handle = .ok found? final ↔ handle.state.unpacker = .fileHeader ∧
      unlessEof readFileHeader handle = .ok found? final := by
  rw [nextEntry, bind_of_ok (state_apply handle), bind_eq_ok]
  constructor
  · rintro ⟨_, _, hrequire, hfound⟩
    obtain ⟨hunpacker, rfl⟩ := require_eq_ok.mp hrequire
    exact ⟨hunpacker, hfound⟩
  · rintro ⟨hunpacker, hfound⟩
    exact ⟨(), handle, require_eq_ok.mpr ⟨hunpacker, rfl⟩, hfound⟩

/-- **There is no further entry** just at the end of the list. -/
theorem nextEntry_eq_none {bytes : List UInt8} {state : HandleState}
    {final : Archive (List UInt8)} : nextEntry ⟨bytes, state⟩ = .ok none final ↔
      state.IsBetweenEntries ∧ bytes = [] ∧ final = ⟨[], state⟩ := by
  rw [nextEntry_eq_ok, unlessEof_eq_none, readFileHeader]
  constructor
  · rintro ⟨hunpacker, h⟩
    cases hread : readRecord ⟨bytes, state⟩ with
    | error error rest =>
      rw [bind_of_error hread] at h
      cases h
      obtain ⟨hmode, hnil, hfinal⟩ := readRecord_eq_eof.mp hread
      exact ⟨⟨hmode, hunpacker⟩, hnil, hfinal⟩
    | ok record rest =>
      -- behind a record only its bytes can be at fault
      rw [bind_of_ok hread] at h
      cases hresult : EntryInfo.ofRecord record with
      | ok info =>
        rw [hresult] at h
        cases h
      | error error =>
        obtain ⟨fault, rfl⟩ := EntryInfo.ofRecord_eq_error hresult
        rw [hresult] at h
        cases h
  · rintro ⟨hstate, rfl, rfl⟩
    exact ⟨hstate.unpacker, bind_of_error (readRecord_nil hstate.mode)⟩

/-- **The next entry** is the one whose file header comes next. -/
theorem nextEntry_eq_some {bytes : List UInt8} {state : HandleState} {info : EntryInfo}
    {final : Archive (List UInt8)} : nextEntry ⟨bytes, state⟩ = .ok (some info) final ↔
      state.IsBetweenEntries ∧ ∃ (record : Record) (rest : List UInt8), record.IsNormal ∧
        EntryInfo.ofRecord record = .ok info ∧ bytes = record.toBytes ++ rest ∧
        final = ⟨rest, state.entered record info⟩ := by
  rw [nextEntry_eq_ok, unlessEof_eq_some, readFileHeader_eq_ok]
  constructor
  · rintro ⟨hunpacker, hmode, hrecord⟩
    exact ⟨⟨hmode, hunpacker⟩, hrecord⟩
  · rintro ⟨hstate, hrecord⟩
    exact ⟨hstate.unpacker, hstate.mode, hrecord⟩

section Simulations

variable {ρ α : Type} {streams : σ → ρ → Prop}

/-- Both come to the end, or none does. -/
theorem simulates_unlessEof {call : Call σ α} {call' : Call ρ α}
    (h : Simulates (Related streams) call call') :
    Simulates (Related streams) (unlessEof call) (unlessEof call') := by
  intro first second hstart
  have hresult := h first second hstart
  unfold unlessEof
  revert hresult
  generalize call first = result
  generalize call' second = result'
  rintro (⟨hfinal⟩ | @⟨error, _, _, hfinal⟩)
  · exact .ok hfinal
  · cases error
    case eof => exact .ok hfinal
    all_goals exact .error hfinal

variable [ByteSource σ] [ByteSource ρ]

/-- The next entry is the same on streams that are read alike. -/
theorem simulates_nextEntry (h : ReadsAlike streams) :
    Simulates (Related streams) nextEntry nextEntry :=
  simulates_state.bind fun _ => (simulates_require _ _).bind fun _ =>
    simulates_unlessEof (simulates_readFileHeader h)

/-- A round of listing does the same on streams that are read alike. -/
theorem simulates_collectEntry (h : ReadsAlike streams) :
    Simulates (Paired Eq streams) collectEntry collectEntry := by
  refine (simulates_lift (simulates_nextEntry h)).bind fun found? => ?_
  cases found? with
  | none => exact .pure _
  | some info =>
    exact (CallWith.simulates_onValue (.refl _)).bind fun _ =>
      (simulates_lift (simulates_skipFile h)).bind fun _ => .pure _

/-- **Listing the entries** does the same on streams that are read alike. -/
theorem simulates_collectEntries (h : ReadsAlike streams) :
    Simulates (Paired Eq streams) collectEntries collectEntries :=
  .repeatUntil (simulates_collectEntry h)

end Simulations

/-! ## Walks over whole archives -/

variable [ByteSource σ] {stream : σ} {state : HandleState}

/-- Between two entries the next one is the one whose metadata comes next. -/
theorem nextEntry_of_isBetween (hstate : state.IsBetweenEntries) :
    nextEntry ⟨stream, state⟩ = unlessEof currentFileInfo ⟨stream, state⟩ := by
  have hrequire : require (state.unpacker = .fileHeader) (.invalidState "get_current_file_info")
      (⟨stream, state⟩ : Archive σ) = .ok () ⟨stream, state⟩ :=
    require_eq_ok.mpr ⟨hstate.unpacker, rfl⟩
  rw [nextEntry, bind_of_ok (state_apply _), bind_of_ok hrequire, unlessEof, unlessEof,
    currentFileInfo_of_isBetween hstate]

variable [ByteSink τ] {holds : τ → List UInt8 → Prop}

/-- **From records that are entries** any reader walks along these entries. -/
theorem walks_of_areEntries (hsink : IsCollector holds) {entries : List (EntryInfo × List UInt8)}
    {segments : List Segment} (h : AreEntries entries segments) {handle : Archive σ}
    (hstream : Yields handle.stream (segmentBytes segments))
    (hstate : handle.state.IsBetweenEntries) : Walks holds entries handle := by
  induction h generalizing handle with
  | nil =>
    obtain ⟨final, hend⟩ := currentFileInfo_of_yields_nil hstream hstate
    refine ⟨final, ?_⟩
    rw [nextEntry_of_isBetween hstate, unlessEof, hend]
  | @cons info first later more entries hentry hmore ih =>
    rw [segmentBytes_append] at hstream
    -- on the list of the bytes the content is ahead once the metadata has been read
    obtain ⟨⟨ahead, inside⟩, hlist, hpending⟩ := (isEntry_iff_currentFileInfo hstate).mp
      ⟨first, later, hentry, rfl, rfl⟩
    have hinside := isInside_of_currentFileInfo hstate hlist
    obtain ⟨middle, hinfo, hmiddle⟩ := exists_ok_of_yields
      (simulates_currentFileInfo Yields.isDelivery.readsAlike) hstream hlist
    refine ⟨⟨middle, inside⟩, ?_, ?_, fun sink held hheld => ?_⟩
    · rw [nextEntry_of_isBetween hstate, unlessEof, hinfo]
    · obtain ⟨behind, hskip, hbetween⟩ := skipFile_of_isEntered hinside.exists_reading
        (.inl hinside.unpacker) ⟨_, hpending.remaining⟩
      obtain ⟨rest, hrun, hrest⟩ := exists_ok_of_yields
        (simulates_skipFile Yields.isDelivery.readsAlike) hmiddle hskip
      exact ⟨_, hrun, ih hrest hbetween⟩
    · obtain ⟨copy, final, hrun, hcopy, -, hrest, hbetween⟩ :=
        extract_of_isEntry hsink hheld hstate hstream hentry
      rw [← extract_of_currentFileInfo hstate hinfo hinside] at hrun
      exact ⟨copy, final, hrun, hcopy, ih hrest hbetween⟩

/-- **A walk starts** behind the archive header. -/
theorem readArchiveHeader_of_yields {rest : List UInt8}
    (hstream : Yields stream (Marker.bytes ++ (ArchiveHeader.current.record.fixed.toBytes ++ rest))) :
    ∃ final, readArchiveHeader (reader stream) = .ok ArchiveHeader.current final ∧
      Yields final.stream rest ∧ final.state.IsBetweenEntries := by
  have hnil : ¬ Marker.bytes <:+: [] := by decide
  obtain ⟨between, hlist, hbetween⟩ := readArchiveHeader_of_marker hnil rest
    (rfl : ({ mode := .reading .atMarker } : HandleState).mode = _) rfl
  rw [List.nil_append] at hlist
  obtain ⟨final, hrun, hfinal⟩ := exists_ok_of_yields
    (simulates_readArchiveHeader Yields.isDelivery.readsAlike) hstream hlist
  exact ⟨_, hrun, hfinal, hbetween⟩

end Archive

end RecordArchive
