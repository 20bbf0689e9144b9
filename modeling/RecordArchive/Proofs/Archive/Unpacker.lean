import RecordArchive.Proofs.Archive.RecordReader
import RecordArchive.Proofs.Entry.Grammar

/-! # What the calls of the unpacker accept

On a handle over a list of bytes each call on the content of an entry decides whether the list goes on
as the entry does.

* `Remaining content rest` says of a handle inside an entry that just this content is still ahead,
  followed by `rest`. Taking payload and entering the next record keep it, in both directions.
* `Pending content rest` says moreover that the content agrees with the metadata.
  `pending_iff_readRound` and `pending_iff_readFileData` decide it.
* `isEntry_iff_currentFileInfo`: it holds behind the metadata of an entry and nowhere else. -/

namespace RecordArchive

open Program Call

variable {σ τ : Type}

/-! ## The content ahead -/

/-- The unread part of the current payload, none between two records. -/
inductive IsCurrent (mode : Mode) (incoming : IncomingPayload) (current : List UInt8) : Prop
  | inside (hmode : mode = .reading .atAddedData) (hlength : current.length = incoming.remaining)
      (hintact : (incoming.consume current).IsIntact)
  | between (hmode : mode = .reading .atRecordHeader) (hnil : current = [])

/-- **The content that is ahead** of a handle inside an entry: what is left of the current payload
and the payloads of the records that continue the entry. -/
def Remaining (content rest : List UInt8) : Archive (List UInt8) → Prop
  | ⟨bytes, state⟩ => ∃ current later, bytes = current ++ segmentBytes later ++ rest ∧
    content = current ++ contentOf later ∧ IsCurrent state.mode state.incoming current ∧
    IsContinuation state.entry.continued later

/-- Behind a record its payload is described by it. -/
theorem isCurrent_iff_isSound {state : HandleState} {record : Record} {payload : List UInt8}
    (hnormal : record.IsNormal) (hmode : state.mode = (state.behind record).mode)
    (hincoming : state.incoming = .ofRecord record) :
    IsCurrent state.mode state.incoming payload ↔ (⟨record, payload⟩ : Segment).IsSound := by
  by_cases hsize : record.hasAddedSize = true
  · rw [HandleState.mode_behind, if_pos hsize] at hmode
    have hremaining : state.incoming.remaining = record.addedSize.toNat := by
      rw [hincoming, IncomingPayload.remaining_ofRecord hsize]
    have hintact := IncomingPayload.isIntact_consume_ofRecord hsize payload
    rw [← hincoming] at hintact
    constructor
    · rintro (⟨-, hlength, hcrc⟩ | ⟨hbetween, -⟩)
      · refine ⟨hnormal, ?_, fun _ => hintact.mp hcrc⟩
        rw [if_pos hsize, ← hremaining]
        exact hlength
      · exact absurd (hbetween.symm.trans hmode) (by decide)
    · rintro hsound
      refine .inside hmode ?_ (hintact.mpr (hsound.crc hsize))
      rw [hremaining]
      exact hsound.length_eq
  · rw [HandleState.mode_behind, if_neg hsize] at hmode
    constructor
    · rintro (⟨hinside, -, -⟩ | ⟨-, rfl⟩)
      · exact absurd (hinside.symm.trans hmode) (by decide)
      · refine ⟨hnormal, ?_, fun hpresent => absurd hpresent hsize⟩
        rw [if_neg hsize]
        rfl
    · intro hsound
      exact .between hmode (hsound.payload_eq_nil hsize)

/-- What is ahead behind a record: its payload and the records that continue it. -/
theorem remaining_behind {bytes content rest : List UInt8} {state : HandleState} {record : Record}
    (hnormal : record.IsNormal) (hmode : state.mode = (state.behind record).mode)
    (hincoming : state.incoming = .ofRecord record) :
    Remaining content rest ⟨bytes, state⟩ ↔ ∃ payload later,
      (⟨record, payload⟩ : Segment).IsSound ∧ bytes = payload ++ segmentBytes later ++ rest ∧
        content = payload ++ contentOf later ∧ IsContinuation state.entry.continued later := by
  constructor
  · rintro ⟨payload, later, hbytes, hcontent, hcurrent, hlater⟩
    exact ⟨payload, later, (isCurrent_iff_isSound hnormal hmode hincoming).mp hcurrent, hbytes,
      hcontent, hlater⟩
  · rintro ⟨payload, later, hsound, hbytes, hcontent, hlater⟩
    exact ⟨payload, later, hbytes, hcontent,
      (isCurrent_iff_isSound hnormal hmode hincoming).mpr hsound, hlater⟩

/-- The content that is ahead agrees with the metadata of the entry. -/
def IsVerified (state : HandleState) (content : List UInt8) : Prop :=
  ∀ info, state.currentFile? = some info → info.verify (state.entry.consume content) = .ok ()

/-- **The entry that is being read** has just this content ahead, and that agrees with its metadata. -/
structure Pending (content rest : List UInt8) (handle : Archive (List UInt8)) : Prop where
  remaining : Remaining content rest handle
  verified : IsVerified handle.state content

/-- Some of the content has been given, or there was none left. -/
inductive Given (content rest taken : List UInt8) (handle : Archive (List UInt8)) : Prop
  | piece (hne : taken ≠ []) (more : List UInt8) (hcontent : content = taken ++ more)
      (hpending : Pending more rest handle)
  | nothing (hnil : taken = []) (hcontent : content = []) (hstream : handle.stream = rest)

namespace HandleState

/-- Between two entries, ready for the next one. -/
structure IsBetweenEntries (state : HandleState) : Prop where
  mode : state.mode = .reading .atRecordHeader
  unpacker : state.unpacker = .fileHeader

/-- Inside the content of an entry. -/
structure IsInsideEntry (state : HandleState) : Prop where
  mode : state.mode = .reading .atAddedData ∨ state.mode = .reading .atRecordHeader
  unpacker : state.unpacker = .fileData

/-- Inside an entry the handle is reading. -/
theorem IsInsideEntry.exists_reading {state : HandleState} (h : state.IsInsideEntry) :
    ∃ place, state.mode = .reading place := by
  rcases h.mode with hmode | hmode
  · exact ⟨_, hmode⟩
  · exact ⟨_, hmode⟩

/-- Behind the content of an entry. -/
structure IsBehindEntry (state : HandleState) : Prop where
  mode : state.mode = .reading .atRecordHeader
  unpacker : state.unpacker = .afterFileData

/-- Inside the content as long as that gives bytes, and behind it otherwise. -/
structure IsAfter (taken : List UInt8) (state : HandleState) : Prop where
  inside (hne : taken ≠ []) : state.IsInsideEntry
  behind (hnil : taken = []) : state.IsBehindEntry

/-- The state of a handle that has read a record which continues the entry. -/
def continuedBy (state : HandleState) (record : Record) : HandleState :=
  { state.behind record with entry := { state.entry with continued := record.isContinued } }

/-- The state of a handle that has read the file header of an entry. -/
def entered (state : HandleState) (record : Record) (info : EntryInfo) : HandleState :=
  { state.behind record with
    entry := { continued := record.isContinued }
    currentFile? := some info
    unpacker := .fileData }

/-- Behind a record the reader is inside its payload or between two records. -/
theorem mode_behind_or (state : HandleState) (record : Record) :
    (state.behind record).mode = .reading .atAddedData ∨
      (state.behind record).mode = .reading .atRecordHeader := by
  rw [mode_behind]
  by_cases hsize : record.hasAddedSize = true
  · exact .inl (by rw [if_pos hsize])
  · exact .inr (by rw [if_neg hsize])

end HandleState

namespace Archive

/-- Payload is taken where the handle is inside it; elsewhere there is none. -/
theorem takePayload_eq_ok {count : Nat} {bytes taken : List UInt8} {state : HandleState}
    {final : Archive (List UInt8)} : takePayload count ⟨bytes, state⟩ = .ok taken final ↔
      readAddedData count ⟨bytes, state⟩ = .ok taken final ∨
        state.mode ≠ .reading .atAddedData ∧ taken = [] ∧ final = ⟨bytes, state⟩ := by
  rw [takePayload, bind_of_ok (state_apply _)]
  by_cases hmode : state.mode = .reading .atAddedData
  · rw [if_pos hmode]
    simp [hmode]
  · rw [if_neg hmode, pure_eq_ok, readAddedData_eq_ok]
    constructor
    · rintro ⟨rfl, rfl⟩
      exact .inr ⟨hmode, rfl, rfl⟩
    · rintro (⟨hinside, -⟩ | ⟨-, rfl, rfl⟩)
      · exact absurd hinside hmode
      · exact ⟨rfl, rfl⟩

/-- **Inside a payload** taking bytes splits what is unread: the bytes are there and, when nothing is
left behind them, the payload is intact; what is left is unread in turn. -/
theorem isCurrent_append {state : HandleState} (hmode : state.mode = .reading .atAddedData)
    {taken more : List UInt8} : IsCurrent state.mode state.incoming (taken ++ more) ↔
      taken.length ≤ state.incoming.remaining ∧
      ((state.incoming.consume taken).remaining = 0 → (state.incoming.consume taken).IsIntact) ∧
      IsCurrent (state.taken taken).mode (state.taken taken).incoming more := by
  -- what is unread shrinks by what is taken, and checksums add up
  have hleft : (state.incoming.consume taken).remaining
      = state.incoming.remaining - taken.length := rfl
  have hboth := state.incoming.consume_append taken more
  constructor
  · rintro (⟨-, hlength, hintact⟩ | ⟨hbetween, -⟩)
    · rw [List.length_append] at hlength
      have hmore : more.length = (state.incoming.consume taken).remaining := by omega
      rw [hboth] at hintact
      have hwhole : (state.incoming.consume taken).remaining = 0 → more = [] := fun hlast =>
        List.length_eq_zero_iff.mp (hmore.trans hlast)
      refine ⟨by omega, fun hlast => ?_, ?_⟩
      · rw [hwhole hlast, IncomingPayload.consume_nil] at hintact
        exact hintact
      · by_cases hlast : (state.incoming.consume taken).remaining = 0
        · exact .between (HandleState.mode_taken_eq.mpr hlast) (hwhole hlast)
        · exact .inside (by rw [HandleState.mode_taken, if_neg hlast]) hmore hintact
    · exact absurd (hbetween.symm.trans hmode) (by decide)
  · rintro ⟨hle, hintact, hmore⟩
    rw [HandleState.incoming_taken] at hmore
    refine .inside hmode ?_ ?_
    · rw [List.length_append]
      rcases hmore with ⟨-, hlength, -⟩ | ⟨hbetween, rfl⟩
      · omega
      · -- The handle has left the payload, so nothing of it was left.
        have hlast := HandleState.mode_taken_eq.mp hbetween
        rw [List.length_nil]
        omega
    · rw [hboth]
      rcases hmore with ⟨-, -, hwhole⟩ | ⟨hbetween, rfl⟩
      · exact hwhole
      · rw [IncomingPayload.consume_nil]
        exact hintact (HandleState.mode_taken_eq.mp hbetween)

/-- Taking payload leaves the entry alone. -/
theorem takePayload_frame {count : Nat} {bytes taken : List UInt8} {state : HandleState}
    {final : Archive (List UInt8)} (h : takePayload count ⟨bytes, state⟩ = .ok taken final) :
    final.state.unpacker = state.unpacker ∧ final.state.entry = state.entry ∧
      final.state.currentFile? = state.currentFile? := by
  rcases takePayload_eq_ok.mp h with hread | ⟨-, -, rfl⟩
  · obtain ⟨-, -, -, _, -, rfl⟩ := readAddedData_eq_ok.mp hread
    exact ⟨rfl, rfl, rfl⟩
  · exact ⟨rfl, rfl, rfl⟩

/-- Taking bytes gives a front part of what is unread, whatever lies behind that, and gives none only
between two records. -/
theorem takePayload_of_isCurrent {count : Nat} (hcount : 0 < count) {current : List UInt8}
    {state : HandleState} (hcurrent : IsCurrent state.mode state.incoming current)
    (rest : List UInt8) : ∃ taken more final, current = taken ++ more ∧
      takePayload count ⟨current ++ rest, state⟩ = .ok taken ⟨more ++ rest, final⟩ ∧
      IsCurrent final.mode final.incoming more ∧
      (taken = [] → final.mode = .reading .atRecordHeader) := by
  by_cases hmode : state.mode = .reading .atAddedData
  · -- One call takes the front of what is unread.
    obtain ⟨taken, more, rfl, htaken⟩ : ∃ taken more, current = taken ++ more ∧
        taken.length = transferLength count state.incoming := by
      refine ⟨current.take (transferLength count state.incoming),
        current.drop (transferLength count state.incoming), (List.take_append_drop _ _).symm,
        List.length_take_of_le ?_⟩
      rcases hcurrent with ⟨-, hlength, -⟩ | ⟨hbetween, -⟩
      · rw [hlength, transferLength]
        omega
      · exact absurd (hbetween.symm.trans hmode) (by decide)
    obtain ⟨-, hintact, hmore⟩ := (isCurrent_append hmode).mp hcurrent
    refine ⟨taken, more, state.taken taken, rfl, takePayload_eq_ok.mpr (.inl
      (readAddedData_eq_ok.mpr ⟨hmode, htaken, hintact, _, List.append_assoc _ _ _, rfl⟩)), hmore,
      ?_⟩
    rintro rfl
    have hzero : state.incoming.remaining = 0 :=
      (transferLength_eq_zero.mp htaken.symm).resolve_left (by omega)
    refine HandleState.mode_taken_eq.mpr ?_
    rw [IncomingPayload.consume_nil, hzero]
  · -- Between two records there is nothing to take.
    rcases hcurrent with ⟨hinside, -, -⟩ | ⟨hbetween, rfl⟩
    · exact absurd hinside hmode
    · exact ⟨[], [], state, rfl, takePayload_eq_ok.mpr (.inr ⟨hmode, rfl, rfl⟩),
        .between hbetween rfl, fun _ => hbetween⟩

/-- **Taking payload** keeps what is ahead up to the bytes taken, and takes none only between two
records. -/
theorem remaining_iff_takePayload {count : Nat} (hcount : 0 < count)
    {bytes content rest : List UInt8} {state : HandleState} :
    Remaining content rest ⟨bytes, state⟩ ↔ ∃ taken final,
      takePayload count ⟨bytes, state⟩ = .ok taken final ∧
      (taken = [] → final.mode = .reading .atRecordHeader) ∧
      ∃ more, content = taken ++ more ∧ Remaining more rest final := by
  constructor
  · rintro ⟨current, later, rfl, rfl, hcurrent, hlater⟩
    obtain ⟨taken, more, final, rfl, htake, hmore, hbetween⟩ :=
      takePayload_of_isCurrent hcount hcurrent (segmentBytes later ++ rest)
    rw [← (takePayload_frame htake).2.1] at hlater
    refine ⟨taken, ⟨more ++ (segmentBytes later ++ rest), final⟩, ?_, hbetween,
      more ++ contentOf later, List.append_assoc _ _ _, more, later,
      (List.append_assoc _ _ _).symm, rfl, hmore, hlater⟩
    rw [List.append_assoc (taken ++ more)]
    exact htake
  · rintro ⟨taken, final, hrun, -, more, rfl, hremaining⟩
    rcases takePayload_eq_ok.mp hrun with hread | ⟨-, rfl, rfl⟩
    · obtain ⟨hmode, hlength, hintact, behind, rfl, rfl⟩ := readAddedData_eq_ok.mp hread
      obtain ⟨current, later, hbehind, rfl, hcurrent, hlater⟩ := hremaining
      have hle : taken.length ≤ state.incoming.remaining := by
        rw [hlength, transferLength]
        omega
      refine ⟨taken ++ current, later, ?_, (List.append_assoc _ _ _).symm,
        (isCurrent_append hmode).mpr ⟨hle, hintact, hcurrent⟩, hlater⟩
      rw [hbehind]
      simp only [List.append_assoc]
    · exact hremaining

/-- Taking payload inside an entry stays there, and gives nothing only between two records. -/
theorem mode_of_takePayload {count : Nat} (hcount : 0 < count) {bytes taken : List UInt8}
    {state : HandleState} {final : Archive (List UInt8)}
    (hmode : state.mode = .reading .atAddedData ∨ state.mode = .reading .atRecordHeader)
    (h : takePayload count ⟨bytes, state⟩ = .ok taken final) :
    (final.state.mode = .reading .atAddedData ∨ final.state.mode = .reading .atRecordHeader) ∧
      (taken = [] → final.state.mode = .reading .atRecordHeader) := by
  rcases takePayload_eq_ok.mp h with hread | ⟨hother, -, rfl⟩
  · obtain ⟨-, hlength, -, _, -, rfl⟩ := readAddedData_eq_ok.mp hread
    constructor
    · rw [HandleState.mode_taken]
      by_cases hlast : (state.incoming.consume taken).remaining = 0
      · exact .inr (by rw [if_pos hlast])
      · exact .inl (by rw [if_neg hlast])
    · rintro rfl
      have hzero : state.incoming.remaining = 0 :=
        (transferLength_eq_zero.mp hlength.symm).resolve_left (by omega)
      refine HandleState.mode_taken_eq.mpr ?_
      rw [IncomingPayload.consume_nil, hzero]
  · exact ⟨hmode, fun _ => hmode.resolve_left hother⟩

/-- A record that continues the entry is taken if it is an undamaged fragment. -/
theorem readFragment_eq_ok {bytes : List UInt8} {state : HandleState} {record : Record}
    {final : Archive (List UInt8)} : readFragment ⟨bytes, state⟩ = .ok record final ↔
      state.mode = .reading .atRecordHeader ∧ record.IsNormal ∧ record.kind = .dataFragment ∧
        record.isValid = true ∧ ∃ rest, bytes = record.toBytes ++ rest ∧
          final = ⟨rest, state.continuedBy record⟩ := by
  simp only [readFragment, bind_eq_ok]
  constructor
  · rintro ⟨_, _, hread, _, _, hfirst, _, _, hsecond, _, _, hupdate, hpure⟩
    obtain ⟨hmode, hnormal, rest, rfl, rfl⟩ := readRecord_eq_ok.mp hread
    obtain ⟨hkind, rfl⟩ := require_eq_ok.mp hfirst
    obtain ⟨hvalid, rfl⟩ := require_eq_ok.mp hsecond
    cases hupdate
    obtain ⟨rfl, rfl⟩ := pure_eq_ok.mp hpure
    exact ⟨hmode, hnormal, hkind, hvalid, rest, rfl, rfl⟩
  · rintro ⟨hmode, hnormal, hkind, hvalid, rest, rfl, rfl⟩
    exact ⟨record, _, readRecord_eq_ok.mpr ⟨hmode, hnormal, rest, rfl, rfl⟩, (), _,
      require_eq_ok.mpr ⟨hkind, rfl⟩, (), _, require_eq_ok.mpr ⟨hvalid, rfl⟩, (), _, rfl,
      pure_eq_ok.mpr ⟨rfl, rfl⟩⟩

/-- **Entering the next record** keeps what is ahead. -/
theorem remaining_iff_readFragment {bytes content rest : List UInt8} {state : HandleState}
    (hmode : state.mode = .reading .atRecordHeader) (hcontinued : state.entry.continued = true) :
    Remaining content rest ⟨bytes, state⟩ ↔ ∃ record final,
      readFragment ⟨bytes, state⟩ = .ok record final ∧ Remaining content rest final := by
  constructor
  · rintro ⟨current, later, rfl, rfl, hcurrent, hlater⟩
    rcases hcurrent with ⟨hinside, -, -⟩ | ⟨-, rfl⟩
    · exact absurd (hinside.symm.trans hmode) (by decide)
    -- The entry is continued, so there is a record that continues it.
    rw [hcontinued] at hlater
    obtain _ | @⟨segment, later, hkind, hvalid, hsound, hlater⟩ := hlater
    refine ⟨segment.record, ⟨segment.payload ++ segmentBytes later ++ rest,
      state.continuedBy segment.record⟩, readFragment_eq_ok.mpr
        ⟨hmode, hsound.normal, hkind, hvalid, _, ?_, rfl⟩, ?_⟩
    · rw [List.nil_append, segmentBytes_cons, Segment.toBytes]
      simp only [List.append_assoc]
    · exact (remaining_behind hsound.normal rfl rfl).mpr
        ⟨segment.payload, later, hsound, rfl, rfl, hlater⟩
  · rintro ⟨record, final, hrun, hremaining⟩
    obtain ⟨-, hnormal, hkind, hvalid, _, rfl, rfl⟩ := readFragment_eq_ok.mp hrun
    obtain ⟨payload, later, hsound, rfl, rfl, hlater⟩ :=
      (remaining_behind hnormal rfl rfl).mp hremaining
    refine ⟨[], ⟨record, payload⟩ :: later, ?_, rfl, .between hmode rfl, ?_⟩
    · rw [List.nil_append, segmentBytes_cons, Segment.toBytes]
      simp only [List.append_assoc]
    · rw [hcontinued]
      exact .more hkind hvalid hsound hlater

/-- Nothing is ahead between two records if the entry is not continued. -/
theorem remaining_iff_of_not_continued {bytes content rest : List UInt8} {state : HandleState}
    (hmode : state.mode = .reading .atRecordHeader) (hcontinued : state.entry.continued = false) :
    Remaining content rest ⟨bytes, state⟩ ↔ content = [] ∧ bytes = rest := by
  constructor
  · rintro ⟨current, later, rfl, rfl, hcurrent, hlater⟩
    rcases hcurrent with ⟨hinside, -, -⟩ | ⟨-, rfl⟩
    · exact absurd (hinside.symm.trans hmode) (by decide)
    rw [hcontinued] at hlater
    cases hlater
    exact ⟨rfl, rfl⟩
  · rintro ⟨rfl, rfl⟩
    refine ⟨[], [], rfl, rfl, .between hmode rfl, ?_⟩
    rw [hcontinued]
    exact .last

/-- The check of an entry is passed if its metadata agree with what was read. -/
theorem verifyEntry_eq_ok {stream : σ} {state : HandleState} {final : Archive σ} :
    verifyEntry ⟨stream, state⟩ = .ok () final ↔
      (∀ info, state.currentFile? = some info → info.verify state.entry = .ok ()) ∧
        ⟨stream, state⟩ = final := by
  rw [verifyEntry, bind_of_ok (state_apply _)]
  cases state.currentFile? with
  | none => simp [pure_eq_ok]
  | some info => simp [ofResult_eq_ok]

/-- A round of reading content: it gives what it took, enters the next record, or ends. -/
theorem readRound_eq_ok {count : Nat} {bytes : List UInt8} {state : HandleState}
    {round : Option (List UInt8)} {final : Archive (List UInt8)} :
    readRound count ⟨bytes, state⟩ = .ok round final ↔ ∃ taken rest middle,
      takePayload count ⟨bytes, state⟩ = .ok taken ⟨rest, middle⟩ ∧
      ((taken ≠ [] ∧ round = some taken ∧
          final = ⟨rest, { middle with entry := middle.entry.consume taken }⟩) ∨
        (taken = [] ∧ middle.entry.continued = true ∧ round = none ∧
          ∃ record, readFragment ⟨rest, middle⟩ = .ok record final) ∨
        (taken = [] ∧ middle.entry.continued = false ∧ round = some [] ∧
          (∀ info, middle.currentFile? = some info → info.verify middle.entry = .ok ()) ∧
          final = ⟨rest, { middle with unpacker := .afterFileData }⟩)) := by
  rw [readRound, bind_eq_ok]
  constructor
  · rintro ⟨taken, ⟨rest, middle⟩, htake, h⟩
    refine ⟨taken, rest, middle, htake, ?_⟩
    rw [bind_of_ok (state_apply _)] at h
    -- bytes are given; without any the entry goes on in the next record or is at its end
    by_cases hne : taken ≠ []
    · rw [if_pos hne, bind_of_ok (update_apply _ rest middle)] at h
      obtain ⟨rfl, rfl⟩ := pure_eq_ok.mp h
      exact .inl ⟨hne, rfl, rfl⟩
    · obtain rfl : taken = [] := Decidable.not_not.mp hne
      rw [if_neg hne] at h
      by_cases hcontinued : middle.entry.continued = true
      · rw [if_pos hcontinued, bind_eq_ok] at h
        obtain ⟨record, _, hfragment, hpure⟩ := h
        obtain ⟨rfl, rfl⟩ := pure_eq_ok.mp hpure
        exact .inr (.inl ⟨rfl, hcontinued, rfl, record, hfragment⟩)
      · rw [if_neg hcontinued, bind_eq_ok] at h
        obtain ⟨_, _, hverify, h⟩ := h
        obtain ⟨hverified, rfl⟩ := verifyEntry_eq_ok.mp hverify
        rw [bind_of_ok (update_apply _ rest middle)] at h
        obtain ⟨rfl, rfl⟩ := pure_eq_ok.mp h
        exact .inr (.inr ⟨rfl, Bool.not_eq_true _ ▸ hcontinued, rfl, hverified, rfl⟩)
  · rintro ⟨taken, rest, middle, htake, h⟩
    refine ⟨taken, ⟨rest, middle⟩, htake, ?_⟩
    rw [bind_of_ok (state_apply _)]
    rcases h with ⟨hne, rfl, rfl⟩ | ⟨rfl, hcontinued, rfl, record, hfragment⟩ |
      ⟨rfl, hcontinued, rfl, hverified, rfl⟩
    · rw [if_pos hne]
      rfl
    · rw [if_neg (fun h => h rfl), if_pos hcontinued, bind_of_ok hfragment]
      rfl
    · have hverify : verifyEntry ⟨rest, middle⟩ = .ok () ⟨rest, middle⟩ :=
        verifyEntry_eq_ok.mpr ⟨hverified, rfl⟩
      rw [if_neg (fun h => h rfl), if_neg (by rw [hcontinued]; decide), bind_of_ok hverify]
      rfl

/-- A round that asks for another one leaves the handle inside the content of the entry. -/
theorem isInside_of_readRound {count : Nat} {start final : Archive (List UInt8)}
    (hstart : start.state.IsInsideEntry) (h : readRound count start = .ok none final) :
    final.state.IsInsideEntry := by
  obtain ⟨bytes, state⟩ := start
  obtain ⟨taken, rest, middle, htake, hcases⟩ := readRound_eq_ok.mp h
  rcases hcases with ⟨-, heq, -⟩ | ⟨-, -, -, record, hfragment⟩ | ⟨-, -, heq, -⟩
  · cases heq
  · obtain ⟨-, -, -, -, _, -, rfl⟩ := readFragment_eq_ok.mp hfragment
    exact ⟨middle.mode_behind_or record, (takePayload_frame htake).1.trans hstart.unpacker⟩
  · cases heq

/-- A last round leaves the handle inside the content of the entry if it gives bytes, and behind it
otherwise. -/
theorem isAfter_of_readRound {count : Nat} (hcount : 0 < count)
    {start final : Archive (List UInt8)} {taken : List UInt8} (hstart : start.state.IsInsideEntry)
    (h : readRound count start = .ok (some taken) final) : final.state.IsAfter taken := by
  obtain ⟨bytes, state⟩ := start
  obtain ⟨_, rest, middle, htake, hcases⟩ := readRound_eq_ok.mp h
  obtain ⟨hmode, hbetween⟩ := mode_of_takePayload hcount hstart.mode htake
  rcases hcases with ⟨hne, heq, rfl⟩ | ⟨-, -, heq, -⟩ | ⟨hnil, -, heq, -, rfl⟩
  · cases heq
    exact ⟨fun _ => ⟨hmode, (takePayload_frame htake).1.trans hstart.unpacker⟩,
      fun hnil => absurd hnil hne⟩
  · cases heq
  · cases heq
    exact ⟨fun hne => absurd rfl hne, fun _ => ⟨hbetween hnil, rfl⟩⟩

/-- **A round of reading content** decides whether the content ahead is that of the entry. -/
theorem pending_iff_readRound {count : Nat} (hcount : 0 < count) {content rest : List UInt8}
    {start : Archive (List UInt8)} (hstart : start.state.IsInsideEntry) :
    Pending content rest start ↔ ∃ round final, readRound count start = .ok round final ∧
      round.elim (Pending content rest final) fun taken => Given content rest taken final := by
  obtain ⟨bytes, state⟩ := start
  constructor
  · rintro ⟨hremaining, hverified⟩
    obtain ⟨taken, ⟨behind, middle⟩, htake, hbetween, more, rfl, hmore⟩ :=
      (remaining_iff_takePayload hcount).mp hremaining
    obtain ⟨-, hentry, hfile⟩ := takePayload_frame htake
    by_cases hne : taken ≠ []
    · -- Some bytes are given, and what is left is still to be verified behind them.
      refine ⟨some taken, _, readRound_eq_ok.mpr ⟨taken, behind, middle, htake,
        .inl ⟨hne, rfl, rfl⟩⟩, .piece hne more rfl ⟨hmore, ?_⟩⟩
      intro info hinfo
      rw [show middle.entry = state.entry from hentry, ← EntryProgress.consume_append]
      exact hverified info (hfile ▸ hinfo)
    · -- The current payload is at its end: the next record is entered, or the content ends.
      obtain rfl : taken = [] := Decidable.not_not.mp hne
      rw [List.nil_append] at hverified
      rw [List.nil_append]
      have hverified' : IsVerified middle more := fun info hinfo => by
        rw [show middle.entry = state.entry from hentry]
        exact hverified info (hfile ▸ hinfo)
      by_cases hcontinued : middle.entry.continued = true
      · obtain ⟨record, final, hfragment, hfinal⟩ :=
          (remaining_iff_readFragment (hbetween rfl) hcontinued).mp hmore
        refine ⟨none, final, readRound_eq_ok.mpr ⟨[], behind, middle, htake,
          .inr (.inl ⟨rfl, hcontinued, rfl, record, hfragment⟩)⟩, ?_⟩
        obtain ⟨-, -, -, -, _, -, rfl⟩ := readFragment_eq_ok.mp hfragment
        exact ⟨hfinal, hverified'⟩
      · obtain ⟨rfl, rfl⟩ := (remaining_iff_of_not_continued (hbetween rfl)
          (Bool.not_eq_true _ ▸ hcontinued)).mp hmore
        refine ⟨some [], _, readRound_eq_ok.mpr ⟨[], behind, middle, htake,
          .inr (.inr ⟨rfl, Bool.not_eq_true _ ▸ hcontinued, rfl, fun info hinfo => ?_, rfl⟩)⟩,
          .nothing rfl rfl rfl⟩
        rw [← middle.entry.consume_nil]
        exact hverified' info hinfo
  · rintro ⟨round, final, hround, hgiven⟩
    obtain ⟨taken, behind, middle, htake, hcases⟩ := readRound_eq_ok.mp hround
    obtain ⟨-, hentry, hfile⟩ := takePayload_frame htake
    -- Whatever the round did, the entry it leaves is the one it found up to the bytes taken.
    have hback {more : List UInt8} (hremaining : Remaining more rest ⟨behind, middle⟩)
        (hverified : ∀ info, middle.currentFile? = some info →
          info.verify (middle.entry.consume (taken ++ more)) = .ok ())
        (hmode : taken = [] → middle.mode = .reading .atRecordHeader) :
        Pending (taken ++ more) rest ⟨bytes, state⟩ := by
      refine ⟨(remaining_iff_takePayload hcount).mpr
        ⟨taken, _, htake, hmode, more, rfl, hremaining⟩, fun info hinfo => ?_⟩
      have hverify := hverified info (hfile.trans hinfo)
      rwa [show middle.entry = state.entry from hentry] at hverify
    rcases hcases with ⟨hne, rfl, rfl⟩ | ⟨rfl, hcontinued, rfl, record, hfragment⟩ |
      ⟨rfl, hcontinued, rfl, hverified, rfl⟩
    · rcases hgiven with ⟨-, more, rfl, hpending⟩ | ⟨hnil, -, -⟩
      · refine hback hpending.remaining (fun info hinfo => ?_) fun hnil => absurd hnil hne
        rw [EntryProgress.consume_append]
        exact hpending.verified info hinfo
      · exact absurd hnil hne
    · have hmode := (readFragment_eq_ok.mp hfragment).1
      have hremaining := (remaining_iff_readFragment hmode hcontinued).mpr
        ⟨record, final, hfragment, hgiven.remaining⟩
      obtain ⟨-, -, -, -, _, -, rfl⟩ := readFragment_eq_ok.mp hfragment
      exact hback hremaining hgiven.verified fun _ => hmode
    · have hmode := (mode_of_takePayload hcount hstart.mode htake).2 rfl
      rcases hgiven with ⟨hne, -, -, -⟩ | ⟨-, rfl, hrest⟩
      · exact absurd rfl hne
      · refine hback ((remaining_iff_of_not_continued hmode hcontinued).mpr ⟨rfl, hrest⟩)
          (fun info hinfo => ?_) fun _ => hmode
        rw [List.append_nil, EntryProgress.consume_nil]
        exact hverified info hinfo

/-! ## Whole calls -/

/-- The check is passed in every mode of reading, and changes nothing. -/
theorem expectReading_eq_ok {call : String} {archive final : Archive σ} :
    expectReading call archive = .ok () final ↔
      (∃ place, archive.state.mode = .reading place) ∧ archive = final := by
  rw [expectReading, bind_of_ok (state_apply archive)]
  cases archive.state.mode with
  | reading place => simp [pure_eq_ok]
  | idle => simp [throw_eq_ok]
  | writing place => simp [throw_eq_ok]

/-- Inside an entry a call that reads content repeats rounds. -/
theorem readFileData_of_isInside {count : Nat} (hcount : 0 < count)
    {start : Archive (List UInt8)} (hstart : start.state.IsInsideEntry) :
    readFileData count start
      = repeatUntil (readRound count) readBudget (readRound_progress count) start := by
  have hexpect : expectReading "read_file_data" start = .ok () start :=
    expectReading_eq_ok.mpr ⟨hstart.exists_reading, rfl⟩
  rw [readFileData, bind_of_ok hexpect, bind_of_ok (state_apply start)]
  simp only [hstart.unpacker]
  rw [if_neg (Nat.pos_iff_ne_zero.mp hcount)]

/-- The handle stays inside the entry as long as reading gives content. -/
theorem isAfter_of_readFileData {count : Nat} (hcount : 0 < count)
    {start final : Archive (List UInt8)} {taken : List UInt8} (hstart : start.state.IsInsideEntry)
    (hrun : readFileData count start = .ok taken final) : final.state.IsAfter taken := by
  rw [readFileData_of_isInside hcount hstart] at hrun
  revert hrun
  refine repeatUntil_induction (fun handle => handle.state.IsInsideEntry)
    (fun outcome => outcome = .ok taken final → final.state.IsAfter taken)
    (fun _ _ hhandle hround => isInside_of_readRound hhandle hround) ?_ ?_ start hstart
  · rintro handle _ _ hhandle hround heq
    cases heq
    exact isAfter_of_readRound hcount hhandle hround
  · rintro _ _ _ _ _ heq
    cases heq

/-- Where content ends no record continues the entry. -/
theorem continued_of_readFileData {count : Nat} (hcount : 0 < count)
    {start final : Archive (List UInt8)} (hstart : start.state.IsInsideEntry)
    (hrun : readFileData count start = .ok [] final) : final.state.entry.continued = false := by
  rw [readFileData_of_isInside hcount hstart] at hrun
  obtain ⟨⟨bytes, state⟩, -, hround⟩ :=
    exists_of_repeatUntil_eq_ok (fun _ => True) (fun _ _ _ _ => trivial) trivial hrun
  obtain ⟨taken, rest, middle, -, hcases⟩ := readRound_eq_ok.mp hround
  rcases hcases with ⟨hne, heq, -⟩ | ⟨-, -, heq, -⟩ | ⟨-, hcontinued, -, -, rfl⟩
  · exact absurd (Option.some.inj heq).symm hne
  · cases heq
  · exact hcontinued

/-- **Reading content** decides whether the content ahead is that of the entry. -/
theorem pending_iff_readFileData {count : Nat} (hcount : 0 < count) {content rest : List UInt8}
    {start : Archive (List UInt8)} (hstart : start.state.IsInsideEntry) :
    Pending content rest start ↔ ∃ taken final, readFileData count start = .ok taken final ∧
      Given content rest taken final := by
  rw [readFileData_of_isInside hcount hstart]
  exact repeatUntil_iff (fun handle => handle.state.IsInsideEntry) (Pending content rest)
    (Given content rest) (fun _ _ hhandle hround => isInside_of_readRound hhandle hround)
    (fun _ hhandle => pending_iff_readRound hcount hhandle) hstart

/-- A file header is taken if the list starts with the bytes of one. -/
theorem readFileHeader_eq_ok {bytes : List UInt8} {state : HandleState} {info : EntryInfo}
    {final : Archive (List UInt8)} : readFileHeader ⟨bytes, state⟩ = .ok info final ↔
      state.mode = .reading .atRecordHeader ∧ ∃ (record : Record) (rest : List UInt8),
        record.IsNormal ∧ EntryInfo.ofRecord record = .ok info ∧ bytes = record.toBytes ++ rest ∧
          final = ⟨rest, state.entered record info⟩ := by
  simp only [readFileHeader, bind_eq_ok]
  constructor
  · rintro ⟨record, _, hread, _, _, hresult, _, _, hupdate, hpure⟩
    obtain ⟨hmode, hnormal, rest, rfl, rfl⟩ := readRecord_eq_ok.mp hread
    obtain ⟨hheader, rfl⟩ := ofResult_eq_ok.mp hresult
    cases hupdate
    obtain ⟨rfl, rfl⟩ := pure_eq_ok.mp hpure
    exact ⟨hmode, record, rest, hnormal, hheader, rfl, rfl⟩
  · rintro ⟨hmode, record, rest, hnormal, hheader, rfl, rfl⟩
    exact ⟨record, _, readRecord_eq_ok.mpr ⟨hmode, hnormal, rest, rfl, rfl⟩, info, _,
      ofResult_eq_ok.mpr ⟨hheader, rfl⟩, (), _, rfl, pure_eq_ok.mpr ⟨rfl, rfl⟩⟩

/-- Between two entries the metadata is that of the next file header. -/
theorem currentFileInfo_of_isBetween {stream : σ} [ByteSource σ] {state : HandleState}
    (hstate : state.IsBetweenEntries) :
    currentFileInfo ⟨stream, state⟩ = readFileHeader ⟨stream, state⟩ := by
  have hexpect : expectReading "get_current_file_info" ⟨stream, state⟩ = .ok () ⟨stream, state⟩ :=
    expectReading_eq_ok.mpr ⟨⟨_, hstate.mode⟩, rfl⟩
  rw [currentFileInfo, bind_of_ok hexpect, bind_of_ok (state_apply _)]
  simp only [hstate.unpacker]

/-- Behind the metadata the handle is inside the content of the entry. -/
theorem isInside_of_currentFileInfo {bytes : List UInt8} {state : HandleState}
    (hstate : state.IsBetweenEntries) {info : EntryInfo} {final : Archive (List UInt8)}
    (hrun : currentFileInfo ⟨bytes, state⟩ = .ok info final) : final.state.IsInsideEntry := by
  rw [currentFileInfo_of_isBetween hstate] at hrun
  obtain ⟨-, record, _, -, -, -, rfl⟩ := readFileHeader_eq_ok.mp hrun
  exact ⟨state.mode_behind_or record, rfl⟩

/-- **The metadata of an entry** is read, with the content of the entry ahead, if the list starts with
the records of one. -/
theorem isEntry_iff_currentFileInfo {bytes content rest : List UInt8} {state : HandleState}
    (hstate : state.IsBetweenEntries) {info : EntryInfo} :
    (∃ first later, IsEntry info first later ∧ bytes = segmentBytes (first :: later) ++ rest ∧
      content = contentOf (first :: later)) ↔
    ∃ final, currentFileInfo ⟨bytes, state⟩ = .ok info final ∧ Pending content rest final := by
  rw [currentFileInfo_of_isBetween hstate]
  constructor
  · -- behind the file header its payload and the later records are ahead
    rintro ⟨first, later, hentry, rfl, rfl⟩
    obtain ⟨hheader, hsound, hlater, hverify⟩ := isEntry_iff.mp hentry
    refine ⟨_, readFileHeader_eq_ok.mpr ⟨hstate.mode, first.record,
      first.payload ++ segmentBytes later ++ rest, hsound.normal, hheader, ?_, rfl⟩,
      (remaining_behind hsound.normal rfl rfl).mpr ⟨_, later, hsound, rfl, rfl, hlater⟩, ?_⟩
    · rw [segmentBytes_cons, Segment.toBytes]
      simp only [List.append_assoc]
    · intro found hfound
      cases hfound
      exact hverify
  · rintro ⟨final, hrun, hremaining, hverified⟩
    obtain ⟨-, record, behind, hnormal, hheader, rfl, rfl⟩ := readFileHeader_eq_ok.mp hrun
    obtain ⟨payload, later, hsound, rfl, rfl, hlater⟩ :=
      (remaining_behind hnormal rfl rfl).mp hremaining
    refine ⟨⟨record, payload⟩, later,
      isEntry_iff.mpr ⟨hheader, hsound, hlater, hverified info rfl⟩, ?_, rfl⟩
    rw [segmentBytes_cons, Segment.toBytes]
    simp only [List.append_assoc]

/-! ## Calls on streams that are read alike -/

section Simulations

variable {streams : σ → τ → Prop}

/-- The check is passed by both or by none. -/
theorem simulates_expectReading (call : String) :
    Simulates (Related streams) (expectReading call) (expectReading call) := by
  refine simulates_state.bind fun state => ?_
  rcases state.mode with _ | _ | _
  case reading => exact .pure ()
  all_goals exact .throw _

/-- The check of an entry is passed by both or by none. -/
theorem simulates_verifyEntry : Simulates (Related streams) verifyEntry verifyEntry := by
  refine simulates_state.bind fun state => ?_
  rcases state.currentFile? with _ | info
  · exact .pure ()
  · exact simulates_ofResult _

/-- The same metadata are known. -/
theorem simulates_knownFile : Simulates (Related streams) knownFile knownFile := by
  refine simulates_state.bind fun state => ?_
  rcases state.currentFile? with _ | info
  · exact .throw _
  · exact .pure info

variable [ByteSource σ] [ByteSource τ]

/-- A payload is left alike on streams that are read alike. -/
theorem simulates_leavePayload (h : ReadsAlike streams) :
    Simulates (Related streams) leavePayload leavePayload :=
  simulates_state.bind fun _ => .ite (simulates_skipRecord h) (.pure ())

/-- **The archive header** is the same on streams that are read alike. -/
theorem simulates_readArchiveHeader (h : ReadsAlike streams) :
    Simulates (Related streams) readArchiveHeader readArchiveHeader := by
  refine (simulates_expectReading _).bind fun _ => simulates_state.bind fun _ =>
    (simulates_require _ _).bind fun _ => .ite ((simulates_findMarker h).bind fun _ => ?_) ?_
  all_goals
    exact (simulates_readRecord h).bind fun _ => (simulates_ofResult _).bind fun _ =>
      (simulates_leavePayload h).bind fun _ => (simulates_require _ _).bind fun _ =>
      (simulates_update _).bind fun _ => .pure _

/-- A file header is the same on streams that are read alike. -/
theorem simulates_readFileHeader (h : ReadsAlike streams) :
    Simulates (Related streams) readFileHeader readFileHeader :=
  (simulates_readRecord h).bind fun _ => (simulates_ofResult _).bind fun _ =>
    (simulates_update _).bind fun _ => .pure _

/-- **The metadata** are the same on streams that are read alike. -/
theorem simulates_currentFileInfo (h : ReadsAlike streams) :
    Simulates (Related streams) currentFileInfo currentFileInfo := by
  refine (simulates_expectReading _).bind fun _ => simulates_state.bind fun state => ?_
  rcases state.unpacker with _ | _ | _ | _
  · exact .throw _
  · exact simulates_readFileHeader h
  · exact simulates_knownFile
  · exact simulates_knownFile

/-- A fragment is the same on streams that are read alike. -/
theorem simulates_readFragment (h : ReadsAlike streams) :
    Simulates (Related streams) readFragment readFragment :=
  (simulates_readRecord h).bind fun _ => (simulates_require _ _).bind fun _ =>
    (simulates_require _ _).bind fun _ => (simulates_update _).bind fun _ => .pure _

/-- A piece of payload is the same on streams that are read alike. -/
theorem simulates_takePayload (h : ReadsAlike streams) (count : Nat) :
    Simulates (Related streams) (takePayload count) (takePayload count) :=
  simulates_state.bind fun _ => .ite (simulates_readAddedData h count) (.pure _)

/-- A round of reading does the same on streams that are read alike. -/
theorem simulates_readRound (h : ReadsAlike streams) (count : Nat) :
    Simulates (Related streams) (readRound count) (readRound count) :=
  (simulates_takePayload h count).bind fun _ => simulates_state.bind fun _ =>
    .ite ((simulates_update _).bind fun _ => .pure _)
      (.ite ((simulates_readFragment h).bind fun _ => .pure _)
        (simulates_verifyEntry.bind fun _ => (simulates_update _).bind fun _ => .pure _))

/-- **Content** is the same on streams that are read alike. -/
theorem simulates_readFileData (h : ReadsAlike streams) (count : Nat) :
    Simulates (Related streams) (readFileData count) (readFileData count) := by
  refine (simulates_expectReading _).bind fun _ => simulates_state.bind fun state => ?_
  rcases state.unpacker with _ | _ | _ | _
  · exact .throw _
  · exact .throw _
  · exact .ite (.pure _) (.repeatUntil (simulates_readRound h count))
  · exact .pure _

end Simulations

end Archive

end RecordArchive
