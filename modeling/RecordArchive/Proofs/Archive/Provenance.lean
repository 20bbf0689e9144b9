import RecordArchive.Proofs.Archive.ReadingEffects
import RecordArchive.Proofs.Entry.Codec
import RecordArchive.Proofs.Record.Draft

/-! # Where the content that is delivered comes from

The unpacker enters the payload of a record before it checks the record. When the check fails the
handle stays in that payload, and the next call takes it for content of the entry.

* `Accepted front record rest` says which records an entry consists of that starts with `front`, and
  `IsContent front bytes` that the bytes stand in the payload of such a record.
* `Follows unread front handle`: the handle stands in or behind such a payload. Every call of the
  unpacker keeps this (`Traced`) unless it refuses a record with a payload (`IsRefusal`).
* `UnpackerRun.isContent`: so whatever calls are made, with whatever results, until a record with a
  payload is refused only content of the entry is delivered. -/

namespace RecordArchive

open Program Call Archive

variable {σ τ : Type}

/-! ## The records of an entry -/

/-- A record that is passed over where the content of an entry should go on: it is no undamaged
fragment, and it has no payload in which the handle could stay. -/
structure Record.IsPassedOver (record : Record) : Prop where
  normal : record.IsNormal
  absent : record.hasAddedSize = false
  refused : ¬ (record.kind = .dataFragment ∧ record.isValid = true)

/-- **The records of an entry** in the bytes that start with it, each with the bytes behind it: the
file header, and after the payload of one that is continued the next undamaged fragment. -/
inductive Accepted (front : List UInt8) : Record → List UInt8 → Prop
  /-- The file header. -/
  | header {record : Record} {info : EntryInfo} {rest : List UInt8} (hnormal : record.IsNormal)
    (hinfo : EntryInfo.ofRecord record = .ok info) (hfront : front = record.toBytes ++ rest) :
    Accepted front record rest
  /-- A fragment that continues the record in front of it. -/
  | fragment {previous record : Record} {payload rest : List UInt8} {passed : List Record}
    (h : Accepted front previous
      (payload ++ passed.flatMap Record.toBytes ++ (record.toBytes ++ rest)))
    (hlength : payload.length = previous.addedSize.toNat)
    (hcontinued : previous.isContinued = true) (hpassed : ∀ other ∈ passed, other.IsPassedOver)
    (hnormal : record.IsNormal) (hkind : record.kind = .dataFragment)
    (hvalid : record.isValid = true) : Accepted front record rest

/-- **Content of the entry**: bytes in a row in the payload of one of its records. -/
def IsContent (front bytes : List UInt8) : Prop :=
  ∃ record before behind, Accepted front record (before ++ bytes ++ behind) ∧
    before.length + bytes.length ≤ record.addedSize.toNat

/-- An accepted record is as it would be written. -/
theorem Accepted.normal {front rest : List UInt8} {record : Record}
    (h : Accepted front record rest) : record.IsNormal := by
  cases h with
  | header hnormal => exact hnormal
  | fragment _ _ _ _ hnormal => exact hnormal

/-- A front part of content is content. -/
theorem IsContent.of_prefix {front bytes part : List UInt8} (h : IsContent front bytes)
    (hpart : part <+: bytes) : IsContent front part := by
  obtain ⟨record, before, behind, haccepted, hle⟩ := h
  obtain ⟨more, rfl⟩ := hpart
  refine ⟨record, before, more ++ behind, ?_, ?_⟩
  · simpa only [List.append_assoc] using haccepted
  · rw [List.length_append] at hle
    omega

/-! ## Handles that follow an entry -/

/-- **A handle follows an entry** if what it takes next for content of the entry is that. -/
inductive Follows (unread : σ → List UInt8) (front : List UInt8) (handle : Archive σ) : Prop
  /-- Nothing is left to take. -/
  | ended (hend : unread handle.stream = [])
  /-- The handle stands neither in a payload nor between two records. -/
  | stranded (hpayload : handle.state.mode ≠ .reading .atAddedData)
    (hheader : handle.state.mode ≠ .reading .atRecordHeader)
  /-- The handle stands in the payload of a record of the entry. -/
  | inside {record : Record} {before : List UInt8}
    (hmode : handle.state.mode = .reading .atAddedData)
    (haccepted : Accepted front record (before ++ unread handle.stream))
    (hlength : before.length + handle.state.incoming.remaining = record.addedSize.toNat)
    (hcontinued : handle.state.entry.continued = record.isContinued)
  /-- The handle stands behind the payload of a record of the entry. -/
  | between {record : Record} {payload : List UInt8} {passed : List Record}
    (hmode : handle.state.mode = .reading .atRecordHeader)
    (haccepted : Accepted front record
      (payload ++ passed.flatMap Record.toBytes ++ unread handle.stream))
    (hlength : payload.length = record.addedSize.toNat)
    (hpassed : ∀ other ∈ passed, other.IsPassedOver)
    (hcontinued : handle.state.entry.continued = record.isContinued)

namespace Follows

variable {unread : σ → List UInt8} {front : List UInt8} {handle final : Archive σ}
  {record : Record}

/-- Behind the payload of a record of the entry no record has been passed over yet. -/
theorem of_payload {payload : List UInt8}
    (haccepted : Accepted front record (payload ++ unread final.stream))
    (hlength : payload.length = record.addedSize.toNat)
    (hmode : final.state.mode = .reading .atRecordHeader)
    (hcontinued : final.state.entry.continued = record.isContinued) :
    Follows unread front final := by
  have hbehind : Accepted front record
      (payload ++ [].flatMap Record.toBytes ++ unread final.stream) := by
    rwa [List.flatMap_nil, List.append_nil]
  exact .between hmode hbehind hlength nofun hcontinued

/-- Behind a record of the entry the handle follows the entry. -/
theorem of_accepted (haccepted : Accepted front record (unread final.stream))
    (hmode : final.state.mode
      = .reading (if record.hasAddedSize then .atAddedData else .atRecordHeader))
    (hincoming : final.state.incoming = .ofRecord record)
    (hcontinued : final.state.entry.continued = record.isContinued) :
    Follows unread front final := by
  have hbehind : Accepted front record ([] ++ unread final.stream) := haccepted
  by_cases hsize : record.hasAddedSize = true
  · rw [if_pos hsize] at hmode
    refine .inside hmode hbehind ?_ hcontinued
    rw [hincoming, IncomingPayload.remaining_ofRecord hsize]
    exact Nat.zero_add _
  · rw [if_neg hsize] at hmode
    have hnothing := haccepted.normal.addedSize_eq_zero (Bool.not_eq_true _ ▸ hsize)
    refine of_payload hbehind ?_ hmode hcontinued
    rw [hnothing]
    rfl

/-- A failed transfer that changes nothing else has come to the end, and a handle that has stopped
inside a record takes no payload. -/
theorem of_failed (h : Follows unread front handle)
    (hfinal : final = handle ∨ final.state = handle.state ∧ unread final.stream = [] ∨
      final.state = handle.state.stranded) : Follows unread front final := by
  rcases hfinal with rfl | ⟨-, hend⟩ | hstate
  · exact h
  · exact .ended hend
  · refine .stranded ?_ ?_
    · rw [hstate]
      nofun
    · rw [hstate]
      nofun

/-- **A piece of payload** that is taken is content, and the handle goes on behind it. -/
theorem taken (h : Follows unread front handle)
    (hmode : handle.state.mode = .reading .atAddedData) {bytes : List UInt8}
    (hle : bytes.length ≤ handle.state.incoming.remaining)
    (hbytes : unread handle.stream = bytes ++ unread final.stream)
    (hstate : final.state = handle.state.taken bytes) :
    Follows unread front final ∧ (bytes = [] ∨ IsContent front bytes) := by
  cases h with
  | ended hend =>
    obtain ⟨hnil, hfinal⟩ := List.append_eq_nil_iff.mp (hbytes.symm.trans hend)
    exact ⟨.ended hfinal, .inl hnil⟩
  | stranded hpayload => exact absurd hmode hpayload
  | between hbetween => exact absurd (hbetween.symm.trans hmode) (by decide)
  | @inside record before _ haccepted hlength hcontinued =>
    rw [hbytes, ← List.append_assoc] at haccepted
    have hleft : final.state.incoming.remaining
        = handle.state.incoming.remaining - bytes.length := by
      rw [hstate]
      rfl
    have hentry : final.state.entry = handle.state.entry := by rw [hstate]; rfl
    have hall : (before ++ bytes).length = before.length + bytes.length := List.length_append
    refine ⟨?_, .inr ⟨record, before, _, haccepted, by omega⟩⟩
    by_cases hlast : (handle.state.incoming.consume bytes).remaining = 0
    · have hzero : handle.state.incoming.remaining - bytes.length = 0 := hlast
      refine of_payload haccepted (by omega) ?_ (hentry ▸ hcontinued)
      rw [hstate]
      exact HandleState.mode_taken_eq.mpr hlast
    · refine .inside ?_ haccepted (by omega) (hentry ▸ hcontinued)
      rw [hstate, HandleState.mode_taken, if_neg hlast]

/-- A handle that has skipped the rest of a payload stands behind it. -/
theorem skipped (h : Follows unread front handle)
    (hmode : handle.state.mode = .reading .atAddedData) {payload : List UInt8}
    (hpayload : payload.length = handle.state.incoming.remaining)
    (hbytes : unread handle.stream = payload ++ unread final.stream)
    (hstate : final.state = handle.state.skipped) : Follows unread front final := by
  cases h with
  | ended hend => exact .ended (List.append_eq_nil_iff.mp (hbytes.symm.trans hend)).2
  | stranded hother => exact absurd hmode hother
  | between hbetween => exact absurd (hbetween.symm.trans hmode) (by decide)
  | @inside record before _ haccepted hlength hcontinued =>
    rw [hbytes, ← List.append_assoc] at haccepted
    refine of_payload haccepted ?_ ?_ ?_
    · rw [List.length_append, hpayload, hlength]
    · rw [hstate]
      rfl
    · rw [hstate]
      exact hcontinued

/-- Between two records that are still unread the handle stands behind the payload of a record of
the entry. -/
theorem exists_between (h : Follows unread front handle)
    (hmode : handle.state.mode = .reading .atRecordHeader) (hne : unread handle.stream ≠ []) :
    ∃ (previous : Record) (payload : List UInt8) (passed : List Record), Accepted front previous
        (payload ++ passed.flatMap Record.toBytes ++ unread handle.stream) ∧
      payload.length = previous.addedSize.toNat ∧ (∀ other ∈ passed, other.IsPassedOver) ∧
      handle.state.entry.continued = previous.isContinued := by
  cases h with
  | ended hend => exact absurd hend hne
  | stranded _ hheader => exact absurd hmode hheader
  | inside hinside => exact absurd (hinside.symm.trans hmode) (by decide)
  | between _ haccepted hlength hpassed hprevious =>
    exact ⟨_, _, _, haccepted, hlength, hpassed, hprevious⟩

/-- **An undamaged fragment** continues the entry. -/
theorem continued (h : Follows unread front handle)
    (hmode : handle.state.mode = .reading .atRecordHeader)
    (hcontinued : handle.state.entry.continued = true) (hnormal : record.IsNormal)
    (hkind : record.kind = .dataFragment) (hvalid : record.isValid = true)
    (hbytes : unread handle.stream = record.toBytes ++ unread final.stream)
    (hstate : final.state = handle.state.continuedBy record) : Follows unread front final := by
  have hne : unread handle.stream ≠ [] :=
    hbytes ▸ List.append_ne_nil_of_left_ne_nil record.toBytes_ne_nil _
  obtain ⟨previous, payload, passed, haccepted, hlength, hpassed, hprevious⟩ :=
    h.exists_between hmode hne
  rw [hbytes] at haccepted
  have hfragment := haccepted.fragment hlength (hprevious.symm.trans hcontinued) hpassed hnormal
    hkind hvalid
  refine .of_accepted hfragment ?_ ?_ ?_
  all_goals rw [hstate]; rfl

/-- **Any other record** is passed over, or the handle stays in its payload. -/
theorem refused (h : Follows unread front handle)
    (hmode : handle.state.mode = .reading .atRecordHeader) (hnormal : record.IsNormal)
    (hrefused : ¬ (record.kind = .dataFragment ∧ record.isValid = true))
    (hbytes : unread handle.stream = record.toBytes ++ unread final.stream)
    (hstate : final.state = handle.state.behind record) :
    Follows unread front final ∨ final.state.mode = .reading .atAddedData := by
  by_cases hsize : record.hasAddedSize = true
  · refine .inr ?_
    rw [hstate, HandleState.mode_behind, if_pos hsize]
  · have hne : unread handle.stream ≠ [] :=
      hbytes ▸ List.append_ne_nil_of_left_ne_nil record.toBytes_ne_nil _
    obtain ⟨previous, payload, passed, haccepted, hlength, hpassed, hprevious⟩ :=
      h.exists_between hmode hne
    have hall : ∀ other ∈ passed ++ [record], other.IsPassedOver := by
      intro other hother
      rcases List.mem_append.mp hother with hbefore | hlast
      · exact hpassed other hbefore
      · exact List.mem_singleton.mp hlast ▸ ⟨hnormal, Bool.not_eq_true _ ▸ hsize, hrefused⟩
    have hbehind : Accepted front previous
        (payload ++ (passed ++ [record]).flatMap Record.toBytes ++ unread final.stream) := by
      rw [hbytes] at haccepted
      simpa using haccepted
    refine .inl (.between ?_ hbehind hlength hall ?_)
    · rw [hstate, HandleState.mode_behind, if_neg hsize]
    · rw [hstate]
      exact hprevious

/-- Counting the bytes of the content changes nothing about the place of the handle. -/
theorem consumed (h : Follows unread front handle) (bytes : List UInt8) :
    Follows unread front
      ⟨handle.stream, { handle.state with entry := handle.state.entry.consume bytes }⟩ := by
  cases h with
  | ended hend => exact .ended hend
  | stranded hpayload hheader => exact .stranded hpayload hheader
  | inside hmode haccepted hlength hcontinued =>
    exact .inside hmode haccepted hlength hcontinued
  | between hmode haccepted hlength hpassed hcontinued =>
    exact .between hmode haccepted hlength hpassed hcontinued

end Follows

/-! ## One call -/

/-- Inside the content of an entry the handle follows that entry. -/
def Traced (unread : σ → List UInt8) (front : List UInt8) (handle : Archive σ) : Prop :=
  handle.state.unpacker = .fileData → Follows unread front handle

/-- **A record is refused** where the content goes on, and the handle stays in its payload. -/
structure IsRefusal (error : ArchiveError) (final : Archive σ) : Prop where
  cause : error = .invalidData .fragmentChecksum ∨
    ∃ kind, error = .invalidData (.notDataFragment kind)
  unpacker : final.state.unpacker = .fileData
  mode : final.state.mode = .reading .atAddedData

/-- The calls of the unpacker keep track of an entry unless they refuse a record. -/
def KeepsTrack (unread : σ → List UInt8) (front : List UInt8) {α : Type}
    (result : EStateM.Result ArchiveError (Archive σ) α) : Prop :=
  Outcome (fun _ final => Traced unread front final)
    (fun error final => Traced unread front final ∨ IsRefusal error final) result

namespace Traced

variable {unread : σ → List UInt8} {front : List UInt8} {handle final : Archive σ}

/-- Outside of content nothing is claimed. -/
theorem of_unpacker_ne (h : final.state.unpacker ≠ .fileData) : Traced unread front final :=
  fun hfile => absurd hfile h

/-- A failed transfer keeps track of the entry. -/
theorem of_failed (h : Traced unread front handle)
    (hfinal : final = handle ∨ final.state = handle.state ∧ unread final.stream = [] ∨
      final.state = handle.state.stranded) : Traced unread front final := by
  intro hfile
  refine Follows.of_failed (h ?_) hfinal
  rcases hfinal with rfl | ⟨hstate, -⟩ | hstate
  · exact hfile
  · exact hstate ▸ hfile
  · rw [hstate] at hfile
    exact hfile

variable [ByteSource σ]

/-- Leaving a payload. -/
theorem outcome_leavePayload (hr : ReadsFrom unread fun stream => unread stream = [])
    (h : Traced unread front handle) :
    Outcome
      (fun _ final => final.state.unpacker = handle.state.unpacker ∧ Traced unread front final)
      (fun _ final => final.state.unpacker = handle.state.unpacker ∧ Traced unread front final)
      (leavePayload handle) := by
  rw [leavePayload, bind_of_ok (state_apply handle)]
  by_cases hmode : handle.state.mode = .reading .atAddedData
  · rw [if_pos hmode]
    refine (outcome_skipRecord hr handle).mono ?_ ?_
    · rintro _ final ⟨-, hstate, hskipped⟩
      obtain ⟨payload, hpayload, hbytes⟩ := hskipped hmode
      have hsame : final.state.unpacker = handle.state.unpacker := by rw [hstate]; rfl
      refine ⟨hsame, fun hfile => ?_⟩
      exact (h (hsame.symm.trans hfile)).skipped hmode hpayload hbytes hstate
    · rintro _ final ⟨-, hfinal⟩
      refine ⟨?_, h.of_failed hfinal⟩
      rcases hfinal with rfl | ⟨hstate, -⟩ | hstate
      · rfl
      · rw [hstate]
      · rw [hstate]
        rfl
  · rw [if_neg hmode]
    exact ⟨rfl, h⟩

/-- The record that should continue the entry. -/
theorem outcome_readFragment (hr : ReadsFrom unread fun stream => unread stream = [])
    (h : Traced unread front handle) (hcontinued : handle.state.entry.continued = true) :
    Outcome
      (fun _ final => final.state.unpacker = handle.state.unpacker ∧ Traced unread front final)
      (fun error final => Traced unread front final ∨ IsRefusal error final)
      (readFragment handle) := by
  refine Outcome.bind ((outcome_readRecord hr handle).mono ?_ ?_)
  · rintro record ⟨behind, _⟩ ⟨hmode, hnormal, hbytes, rfl⟩
    -- A record that is refused is passed over, or the handle stays in its payload.
    have hrefuse (error : ArchiveError)
        (hcause : error = .invalidData .fragmentChecksum ∨
          ∃ kind, error = .invalidData (.notDataFragment kind))
        (hrefused : ¬ (record.kind = .dataFragment ∧ record.isValid = true)) :
        Traced unread front ⟨behind, handle.state.behind record⟩ ∨
          IsRefusal error ⟨behind, handle.state.behind record⟩ := by
      by_cases hfile : handle.state.unpacker = .fileData
      · rcases (h hfile).refused hmode hnormal hrefused hbytes rfl with hfollows | hinside
        · exact .inl fun _ => hfollows
        · exact .inr ⟨hcause, hfile, hinside⟩
      · exact .inl (of_unpacker_ne hfile)
    refine Outcome.bind (outcome_require (fun hkind => ?_) fun hkind => ?_)
    · refine Outcome.bind (outcome_require (fun hvalid => ?_) fun hvalid => ?_)
      · refine ⟨rfl, fun hfile => ?_⟩
        exact (h hfile).continued hmode hcontinued hnormal hkind hvalid hbytes rfl
      · exact hrefuse _ (.inl rfl) fun hboth => hvalid hboth.2
    · exact hrefuse _ (.inr ⟨_, rfl⟩) fun hboth => hkind hboth.1
  · exact fun _ final hfinal => .inl (h.of_failed hfinal.2)

/-- A round of skipping. -/
theorem keepsTrack_skipRound (hr : ReadsFrom unread fun stream => unread stream = [])
    (h : Traced unread front handle) : KeepsTrack unread front (skipRound handle) := by
  refine Outcome.bind ((outcome_leavePayload hr h).mono ?_ ?_)
  · rintro _ middle ⟨-, hmiddle⟩
    rw [bind_of_ok (state_apply middle)]
    by_cases hcontinued : middle.state.entry.continued = true
    · rw [if_pos hcontinued]
      refine Outcome.bind ((outcome_readFragment hr hmiddle hcontinued).mono ?_ ?_)
      · exact fun _ _ hfinal => hfinal.2
      · exact fun _ _ hfinal => hfinal
    · rw [if_neg hcontinued]
      exact hmiddle
  · exact fun _ final hfinal => .inl hfinal.2

/-- Skipping an entry. -/
theorem keepsTrack_skipFile (hr : ReadsFrom unread fun stream => unread stream = [])
    (h : Traced unread front handle) : KeepsTrack unread front (skipFile handle) := by
  have hbegin : Outcome (fun _ final => Traced unread front final)
      (fun _ final => Traced unread front final) (beginSkip handle) := by
    rw [beginSkip, bind_of_ok (state_apply handle)]
    cases hunpacker : handle.state.unpacker with
    | validatingFormat => exact h
    | fileData => exact h
    | afterFileData => exact h
    | fileHeader =>
      -- Between two entries there is nothing to keep track of.
      refine Outcome.bind ((outcome_readRecord hr handle).mono ?_ ?_)
      · rintro record ⟨behind, _⟩ ⟨-, -, -, rfl⟩
        have hother : (handle.state.behind record).unpacker ≠ .fileData := by
          show handle.state.unpacker ≠ _
          rw [hunpacker]
          decide
        refine Outcome.bind (outcome_require (fun _ => ?_) fun _ => ?_)
        · exact of_unpacker_ne hother
        · exact of_unpacker_ne hother
      · exact fun _ final hfinal => h.of_failed hfinal.2
  refine Outcome.bind ((outcome_expectReading _ handle).mono ?_ ?_)
  · rintro _ _ ⟨rfl, -⟩
    refine Outcome.bind (hbegin.mono ?_ fun _ _ hfinal => .inl hfinal)
    intro _ middle hmiddle
    refine Outcome.bind (Outcome.repeatUntil (Traced unread front) ?_ hmiddle)
    intro start hstart
    refine (keepsTrack_skipRound hr hstart).mono ?_ fun _ _ hfinal => hfinal
    intro round final hfinal
    cases round with
    | none => exact hfinal
    | some _ => exact of_unpacker_ne (by simp)
  · rintro _ _ ⟨rfl, -⟩
    exact .inl h

/-! ### Reading content -/

/-- A piece of the current payload. -/
theorem outcome_takePayload (hr : ReadsFrom unread fun stream => unread stream = [])
    (count : Nat) (h : Traced unread front handle) (hfile : handle.state.unpacker = .fileData) :
    Outcome
      (fun bytes final => final.state.unpacker = .fileData ∧ Traced unread front final ∧
        (bytes = [] ∨ IsContent front bytes))
      (fun _ final => Traced unread front final) (takePayload count handle) := by
  have hfollows := h hfile
  rw [takePayload, bind_of_ok (state_apply handle)]
  by_cases hmode : handle.state.mode = .reading .atAddedData
  · rw [if_pos hmode]
    have hle {bytes : List UInt8}
        (hlength : bytes.length = transferLength count handle.state.incoming) :
        bytes.length ≤ handle.state.incoming.remaining := by
      rw [hlength, transferLength]
      omega
    refine (outcome_readAddedData hr count handle).mono ?_ ?_
    · rintro bytes final ⟨-, hlength, hbytes, hstate⟩
      obtain ⟨hfinal, hcontent⟩ := hfollows.taken hmode (hle hlength) hbytes hstate
      refine ⟨?_, fun _ => hfinal, hcontent⟩
      rw [hstate]
      exact hfile
    · rintro _ final ⟨-, hsame | hfailed | ⟨-, bytes, hlength, hbytes, hstate, -⟩⟩
      · exact h.of_failed (.inl hsame)
      · exact h.of_failed (.inr (.inl hfailed))
      · -- The checksum of the payload is wrong, but the handle has left it.
        exact fun _ => (hfollows.taken hmode (hle hlength) hbytes hstate).1
  · rw [if_neg hmode]
    exact ⟨hfile, h, .inl rfl⟩

/-- **A round of reading content** gives content of the entry. -/
theorem outcome_readRound (hr : ReadsFrom unread fun stream => unread stream = [])
    (count : Nat) (h : Traced unread front handle) (hfile : handle.state.unpacker = .fileData) :
    Outcome
      (fun round final => Traced unread front final ∧ round.elim
        (final.state.unpacker = .fileData) fun bytes => bytes = [] ∨ IsContent front bytes)
      (fun error final => Traced unread front final ∨ IsRefusal error final)
      (readRound count handle) := by
  refine Outcome.bind ((outcome_takePayload hr count h hfile).mono ?_ ?_)
  · rintro bytes middle ⟨hmiddle, htraced, hcontent⟩
    rw [bind_of_ok (state_apply middle)]
    by_cases hne : bytes ≠ []
    · rw [if_pos hne]
      exact ⟨fun _ => (htraced hmiddle).consumed bytes, hcontent⟩
    · rw [if_neg hne]
      by_cases hcontinued : middle.state.entry.continued = true
      · rw [if_pos hcontinued]
        refine Outcome.bind ((outcome_readFragment hr htraced hcontinued).mono ?_ ?_)
        · exact fun _ _ hfinal => ⟨hfinal.2, hfinal.1.trans hmiddle⟩
        · exact fun _ _ hfinal => hfinal
      · rw [if_neg hcontinued]
        refine Outcome.bind ?_
        rw [verifyEntry, bind_of_ok (state_apply middle)]
        cases middle.state.currentFile? with
        | none => exact ⟨of_unpacker_ne (by simp), .inl rfl⟩
        | some info =>
          refine outcome_ofResult (fun _ _ => ?_) fun _ _ => .inl htraced
          exact ⟨of_unpacker_ne (by simp), .inl rfl⟩
  · exact fun _ final hfinal => .inl hfinal

/-- **Reading content** gives content of the entry. -/
theorem outcome_readFileData (hr : ReadsFrom unread fun stream => unread stream = [])
    (count : Nat) (h : Traced unread front handle) :
    Outcome
      (fun bytes final => Traced unread front final ∧ (bytes = [] ∨ IsContent front bytes))
      (fun error final => Traced unread front final ∨ IsRefusal error final)
      (readFileData count handle) := by
  refine Archive.outcome_readFileData (fun _ _ => .inl h) (fun _ => ⟨h, .inl rfl⟩)
    (fun _ => ⟨h, .inl rfl⟩) fun _ hunpacker _ => ?_
  refine Outcome.repeatUntil
    (fun start => Traced unread front start ∧ start.state.unpacker = .fileData) ?_ ⟨h, hunpacker⟩
  rintro start ⟨hstart, hfile⟩
  refine (outcome_readRound hr count hstart hfile).mono ?_ fun _ _ hfinal => hfinal
  intro round final hfinal
  cases round with
  | none => exact hfinal
  | some bytes => exact hfinal

/-! ### Entering an entry -/

/-- The file header of an entry is where the handle starts to follow it. -/
theorem outcome_readFileHeader (hr : ReadsFrom unread fun stream => unread stream = [])
    (hunpacker : handle.state.unpacker = .fileHeader) (hfront : front = unread handle.stream) :
    Outcome (fun _ final => Traced unread front final) (fun _ final => Traced unread front final)
      (readFileHeader handle) := by
  have hother : handle.state.unpacker ≠ .fileData := by
    rw [hunpacker]
    nofun
  refine Outcome.bind ((outcome_readRecord hr handle).mono ?_ ?_)
  · rintro record ⟨behind, _⟩ ⟨-, hnormal, hbytes, rfl⟩
    refine Outcome.bind (outcome_ofResult (fun info hinfo => ?_) fun _ _ => ?_)
    · exact fun _ => .of_accepted (.header hnormal hinfo (hfront.trans hbytes)) rfl rfl rfl
    · exact of_unpacker_ne hother
  · exact fun _ final hfinal => (of_unpacker_ne hother).of_failed hfinal.2

/-- Asking for the metadata may enter the entry, and goes no further. -/
theorem outcome_currentFileInfo (hr : ReadsFrom unread fun stream => unread stream = [])
    (h : Traced unread front handle)
    (hfront : handle.state.unpacker = .fileHeader → front = unread handle.stream) :
    Outcome (fun _ final => Traced unread front final) (fun _ final => Traced unread front final)
      (currentFileInfo handle) :=
  Archive.outcome_currentFileInfo (fun _ => h) (fun _ => h) fun _ hunpacker =>
    outcome_readFileHeader hr hunpacker (hfront hunpacker)

/-- In front of the archive header there is no entry yet, and behind it none has started. -/
theorem outcome_readArchiveHeader (h : Traced unread front handle) :
    Outcome (fun _ final => Traced unread front final) (fun _ final => Traced unread front final)
      (readArchiveHeader handle) := by
  refine (unpacker_readArchiveHeader handle).mono ?_ ?_
  · exact fun _ _ hfinal => of_unpacker_ne (by rw [hfinal]; nofun)
  · rintro _ _ (rfl | hfinal)
    · exact h
    · exact of_unpacker_ne (by rw [hfinal]; nofun)

end Traced

/-! ### Copying content -/

/-- Since it held some bytes a sink has been given only content of the entry, piece by piece. -/
def Collected (given : τ → List UInt8) (front held : List UInt8) (copy : CopySink τ) : Prop :=
  ∃ chunks : List (List UInt8), given copy.stream = held ++ chunks.flatten ∧
    ∀ chunk ∈ chunks, IsContent front chunk

section Copying

variable {given : τ → List UInt8} {unread : σ → List UInt8} {front held : List UInt8}
  {copy : CopySink τ} {handle : Archive σ}

/-- One more chunk is collected. -/
theorem Collected.append (h : Collected given front held copy) {final : CopySink τ}
    {chunk : List UInt8} (hchunk : IsContent front chunk)
    (hgiven : given final.stream = given copy.stream ++ chunk) :
    Collected given front held final := by
  obtain ⟨chunks, hchunks, hall⟩ := h
  refine ⟨chunks ++ [chunk], ?_, ?_⟩
  · rw [hgiven, hchunks, List.flatten_concat, List.append_assoc]
  · intro other hother
    rcases List.mem_append.mp hother with hbefore | hlast
    · exact hall other hbefore
    · exact List.mem_singleton.mp hlast ▸ hchunk

variable [ByteSink τ]

/-- A failed write has still given the sink a front part of the content. -/
theorem Collected.outcome_deliver (hs : IsFallibleSink given Appends)
    (h : Collected given front held copy) {bytes : List UInt8} (hbytes : IsContent front bytes) :
    Outcome (fun _ final => Collected given front held final)
      (fun _ final => Collected given front held final) (deliver bytes copy) := by
  have hwrite := hs.writeAll bytes copy.stream
  unfold deliver
  cases hrun : writeAll bytes copy.stream with
  | ok _ stream => exact h.append hbytes (hwrite.of_ok hrun)
  | error error stream =>
    obtain ⟨part, hpart, hgiven⟩ := hwrite.of_error hrun
    exact h.append (hbytes.of_prefix hpart) hgiven

variable [ByteSource σ]

/-- A round of extracting copies content of the entry. -/
theorem Collected.outcome_extractRound (hr : ReadsFrom unread fun stream => unread stream = [])
    (hs : IsFallibleSink given Appends) (count : Nat) (h : Collected given front held copy)
    (htraced : Traced unread front handle) :
    Outcome (fun _ final => Traced unread front final.2 ∧ Collected given front held final.1)
      (fun error final => (Traced unread front final.2 ∨ IsRefusal error final.2) ∧
        Collected given front held final.1) (extractRound count (copy, handle)) := by
  refine Outcome.bind (outcome_lift ((htraced.outcome_readFileData hr count).mono ?_ ?_))
  · rintro bytes middle ⟨hmiddle, hcontent⟩
    by_cases hnil : bytes = []
    · rw [if_pos hnil]
      exact ⟨hmiddle, h⟩
    · rw [if_neg hnil]
      refine Outcome.bind (CallWith.outcome_onValue ?_)
      refine (h.outcome_deliver hs (hcontent.resolve_left hnil)).mono ?_ ?_
      · exact fun _ _ hfinal => ⟨hmiddle, hfinal⟩
      · exact fun _ _ hfinal => ⟨.inl hmiddle, hfinal⟩
  · exact fun _ _ hfinal => ⟨hfinal, h⟩

/-- **Extracting** copies content of the entry, also where it fails in the end. -/
theorem Collected.outcome_extract (hr : ReadsFrom unread fun stream => unread stream = [])
    (hs : IsFallibleSink given Appends) (h : Collected given front held copy)
    (htraced : Traced unread front handle)
    (hfront : handle.state.unpacker = .fileHeader → front = unread handle.stream) :
    Outcome (fun _ final => Traced unread front final.2 ∧ Collected given front held final.1)
      (fun error final => (Traced unread front final.2 ∨ IsRefusal error final.2) ∧
        Collected given front held final.1) (extract (copy, handle)) := by
  refine Archive.outcome_extract
    (fun start => Traced unread front start.2 ∧ Collected given front held start.1) ⟨htraced, h⟩
    (fun _ => ⟨.inl htraced, h⟩) (fun _ => ?_) fun _ => ?_
  · exact (htraced.outcome_currentFileInfo hr hfront).mono (fun _ _ hfinal => ⟨hfinal, h⟩)
      fun _ _ hfinal => ⟨.inl hfinal, h⟩
  · rintro count copied start - ⟨hstart, hcopy⟩
    refine (hcopy.outcome_extractRound hr hs count hstart).mono ?_ fun _ _ hfinal => hfinal
    rintro round final ⟨hfinal, hcollected⟩
    cases round with
    | none => exact ⟨hfinal, hcollected⟩
    | some _ => exact ⟨.of_unpacker_ne (by simp), hcollected⟩

end Copying

/-! ## Calls in a row -/

/-- A call of the unpacker, where what is extracted goes to a sink of the caller. -/
inductive UnpackerCall (τ : Type)
  /-- Reads the archive header. -/
  | readArchiveHeader
  /-- Asks for the metadata of the entry. -/
  | currentFileInfo
  /-- Takes a piece of the content. -/
  | readFileData (count : Nat)
  /-- Copies the content to a sink. -/
  | extract (sink : τ)
  /-- Skips the entry. -/
  | skipFile

/-- The call on a handle, whatever value it gives. -/
def UnpackerCall.run [ByteSource σ] [ByteSink τ] : UnpackerCall τ → Call σ Unit
  | readArchiveHeader => do
    let _ ← Archive.readArchiveHeader
    pure ()
  | currentFileInfo => do
    let _ ← Archive.currentFileInfo
    pure ()
  | readFileData count => do
    let _ ← Archive.readFileData count
    pure ()
  | extract sink => CallWith.withValue ⟨sink, 0⟩ Archive.extract
  | skipFile => Archive.skipFile

/-- The bytes from the current entry on, if it is known where that starts: between two entries the
next one starts with what is unread. -/
def entryFront (unread : σ → List UInt8) (front? : Option (List UInt8)) (handle : Archive σ) :
    Option (List UInt8) :=
  if handle.state.unpacker = .fileHeader then some (unread handle.stream) else front?

/-- An entry that is known has not started yet, or was known before. -/
theorem of_entryFront {unread : σ → List UInt8} {front? : Option (List UInt8)} {handle : Archive σ}
    {front : List UInt8} {kept : Prop} (hfront : entryFront unread front? handle = some front)
    (hnext : handle.state.unpacker = .fileHeader → kept) (h : front? = some front → kept) :
    kept ∧ (handle.state.unpacker = .fileHeader → front = unread handle.stream) := by
  rw [entryFront] at hfront
  by_cases hunpacker : handle.state.unpacker = .fileHeader
  · rw [if_pos hunpacker] at hfront
    exact ⟨hnext hunpacker, fun _ => (Option.some.inj hfront).symm⟩
  · rw [if_neg hunpacker] at hfront
    exact ⟨h hfront, fun hother => absurd hother hunpacker⟩

/-- **A run of unpacker calls** in which calls may fail, with the bytes from the current entry on.
Where a record with a payload has been refused these are not known until the next entry. -/
inductive UnpackerRun (τ : Type) [ByteSource σ] [ByteSink τ] (unread : σ → List UInt8)
    (start : Archive σ) : Option (List UInt8) → Archive σ → Prop
  /-- No call. -/
  | nil : UnpackerRun τ unread start (some (unread start.stream)) start
  /-- A call succeeds. -/
  | returned {front? : Option (List UInt8)} {middle final : Archive σ} {call : UnpackerCall τ}
    (h : UnpackerRun τ unread start front? middle) (hrun : call.run middle = .ok () final) :
    UnpackerRun τ unread start (entryFront unread front? middle) final
  /-- A call fails for another reason. -/
  | failed {front? : Option (List UInt8)} {middle final : Archive σ} {call : UnpackerCall τ}
    {error : ArchiveError} (h : UnpackerRun τ unread start front? middle)
    (hrun : call.run middle = .error error final) (hkept : ¬ IsRefusal error final) :
    UnpackerRun τ unread start (entryFront unread front? middle) final
  /-- A call refuses a record with a payload. -/
  | refused {front? : Option (List UInt8)} {middle final : Archive σ} {call : UnpackerCall τ}
    {error : ArchiveError} (h : UnpackerRun τ unread start front? middle)
    (hrun : call.run middle = .error error final) (hrefused : IsRefusal error final) :
    UnpackerRun τ unread start none final

section Run

variable [ByteSource σ] [ByteSink τ] {unread : σ → List UInt8} {given : τ → List UInt8}
  {front : List UInt8} {handle : Archive σ}

omit [ByteSource σ] [ByteSink τ] in
/-- At the start nothing has been collected. -/
theorem Collected.start (given : τ → List UInt8) (front : List UInt8) (sink : τ) :
    Collected given front (given sink) ⟨sink, 0⟩ := ⟨[], (List.append_nil _).symm, nofun⟩

/-- **Every call** keeps track of the entry, or refuses a record. -/
theorem UnpackerCall.keepsTrack (hr : ReadsFrom unread fun stream => unread stream = [])
    (hs : IsFallibleSink given Appends) (call : UnpackerCall τ) (h : Traced unread front handle)
    (hfront : handle.state.unpacker = .fileHeader → front = unread handle.stream) :
    KeepsTrack unread front (call.run handle) := by
  cases call with
  | readArchiveHeader =>
    exact outcome_of_dropped
      (h.outcome_readArchiveHeader.mono (fun _ _ hfinal => hfinal) fun _ _ => .inl)
  | currentFileInfo =>
    exact outcome_of_dropped
      ((h.outcome_currentFileInfo hr hfront).mono (fun _ _ hfinal => hfinal) fun _ _ => .inl)
  | readFileData count =>
    exact outcome_of_dropped ((h.outcome_readFileData hr count).mono
      (fun _ _ hfinal => hfinal.1) fun _ _ hfinal => hfinal)
  | extract sink =>
    exact CallWith.outcome_withValue (((Collected.start given front sink).outcome_extract hr hs h
      hfront).mono (fun _ _ hfinal => hfinal.1) fun _ _ hfinal => hfinal.1)
  | skipFile => exact h.keepsTrack_skipFile hr

omit [ByteSource σ] [ByteSink τ] in
/-- Between two entries the next one is followed before it has started. -/
theorem Traced.of_entryFront {front? : Option (List UInt8)}
    (h : ∀ front, front? = some front → Traced unread front handle)
    (hfront : entryFront unread front? handle = some front) :
    Traced unread front handle ∧
      (handle.state.unpacker = .fileHeader → front = unread handle.stream) :=
  RecordArchive.of_entryFront hfront
    (fun hunpacker => .of_unpacker_ne (by rw [hunpacker]; nofun)) (h front)

/-- **Every run** keeps track of the entry while it is known where that starts. -/
theorem UnpackerRun.traced (hr : ReadsFrom unread fun stream => unread stream = [])
    (hs : IsFallibleSink given Appends) {start : Archive σ}
    (hstart : start.state.unpacker ≠ .fileData) {front? : Option (List UInt8)}
    (h : UnpackerRun τ unread start front? handle) :
    ∀ front, front? = some front → Traced unread front handle := by
  induction h with
  | nil => exact fun _ _ => .of_unpacker_ne hstart
  | @returned front? middle final call _ hrun ih =>
    intro front hfront
    obtain ⟨hmiddle, hunread⟩ := Traced.of_entryFront ih hfront
    exact (call.keepsTrack hr hs hmiddle hunread).of_ok hrun
  | @failed front? middle final call error _ hrun hkept ih =>
    intro front hfront
    obtain ⟨hmiddle, hunread⟩ := Traced.of_entryFront ih hfront
    exact ((call.keepsTrack hr hs hmiddle hunread).of_error hrun).resolve_right hkept
  | refused => nofun

/-- **The provenance of content**: in every run of unpacker calls on an infallible stream, as long
as no record with a payload has been refused since the current entry started, what is read and
what is put into a sink, also by an extraction that fails, comes piece by piece from the payloads
of the records of that entry: of its file header and of undamaged fragments that continue it. -/
theorem UnpackerRun.isContent (hd : IsDelivery fun stream bytes => unread stream = bytes)
    (hs : IsFallibleSink given Appends) {start : Archive σ}
    (hstart : start.state.unpacker ≠ .fileData) {front? : Option (List UInt8)}
    (h : UnpackerRun τ unread start front? handle)
    (hfront : entryFront unread front? handle = some front) :
    (∀ count bytes final, readFileData count handle = .ok bytes final →
      bytes = [] ∨ IsContent front bytes) ∧
    ∀ sink : τ, Outcome (fun _ final => Collected given front (given sink) final.1)
      (fun _ final => Collected given front (given sink) final.1)
      (extract ((⟨sink, 0⟩ : CopySink τ), handle)) := by
  obtain ⟨htraced, hunread⟩ :=
    Traced.of_entryFront (h.traced hd.readsFrom hs hstart) hfront
  refine ⟨fun count bytes final hrun => ?_, fun sink => ?_⟩
  · exact ((htraced.outcome_readFileData hd.readsFrom count).of_ok hrun).2
  · refine ((Collected.start given front sink).outcome_extract hd.readsFrom hs htraced
      hunread).mono ?_ ?_
    · exact fun _ _ hfinal => hfinal.2
    · exact fun _ _ hfinal => hfinal.2

end Run

/-! ### A refused record -/

/-- The start of an entry: a file header with one byte of payload, behind which the content should
go on. -/
def startOf (content : UInt8) : Segment :=
  (⟨{ kind := .fileHeader, flags := 0x81, data := [0, 0x52, 0, 0, 0, 0, 1, 0, 0x61] },
    [[content]]⟩ : Draft).segment

/-- The bytes of such a start, behind which another entry starts instead. -/
def twoStarts : List UInt8 := (startOf 1).toBytes ++ (startOf 2).toBytes

/-- A handle between two entries, in front of these bytes. -/
def misled : Archive (List UInt8) :=
  ⟨twoStarts, { mode := .reading .atRecordHeader, unpacker := .fileHeader }⟩

/-- The state of a handle that has given bytes of a payload as content. -/
def HandleState.given (state : HandleState) (bytes : List UInt8) : HandleState :=
  { state.taken bytes with entry := state.entry.consume bytes }

/-- The handle inside the first entry. -/
def insideMisled : Archive (List UInt8) :=
  ⟨1 :: (startOf 2).toBytes, misled.state.entered (startOf 1).record (EntryInfo.regular "a")⟩

/-- The handle behind the payload of the first file header. -/
def behindMisled : Archive (List UInt8) :=
  ⟨(startOf 2).toBytes, insideMisled.state.given [1]⟩

/-- The handle in the payload of the second file header. -/
def refusedMisled : Archive (List UInt8) :=
  ⟨[2], behindMisled.state.behind (startOf 2).record⟩

/-- The first file header is read. -/
theorem readRecord_misled : readRecord misled = .ok (startOf 1).record
    ⟨1 :: (startOf 2).toBytes, misled.state.behind (startOf 1).record⟩ := by
  cbv

/-- It has the right checksum. -/
theorem isValid_startOf : (startOf 1).record.isValid = true := by
  cbv

/-- Its data are the metadata of a regular file. -/
theorem parse_startOf :
    Record.parse EntryInfo.read (startOf 1).record.data = .ok (EntryInfo.regular "a") := by
  have hdata : (startOf 1).record.data = (EntryInfo.regular "a").toBytes := by decide +kernel
  rw [hdata]
  exact EntryInfo.parse_read_toBytes (by decide +kernel)

/-- The payload of the first file header is content. -/
theorem readRound_insideMisled : readRound 5 insideMisled = .ok (some [1]) behindMisled := by
  cbv

/-- In place of a fragment the second file header is read. -/
theorem readRecord_behindMisled :
    readRecord behindMisled = .ok (startOf 2).record refusedMisled := by
  cbv

/-- It is refused, but the handle has entered it. -/
theorem readRound_behindMisled : readRound 5 behindMisled
    = .error (.invalidData (.notDataFragment .fileHeader)) refusedMisled := by
  have htake : takePayload 5 behindMisled = .ok [] behindMisled := rfl
  have hrefused : readFragment behindMisled
      = .error (.invalidData (.notDataFragment .fileHeader)) refusedMisled := by
    rw [readFragment, bind_of_ok readRecord_behindMisled]
    exact bind_of_error (require_of_not (by decide) _ _)
  rw [readRound, bind_of_ok htake, bind_of_ok (state_apply _)]
  exact bind_of_error hrefused

/-- The next round takes its payload for content. -/
theorem readRound_refusedMisled : readRound 5 refusedMisled
    = .ok (some [2]) ⟨[], refusedMisled.state.given [2]⟩ := by
  cbv

/-- All the while the handle is inside an entry. -/
theorem isInsideEntry_misled : insideMisled.state.IsInsideEntry ∧
    behindMisled.state.IsInsideEntry ∧ refusedMisled.state.IsInsideEntry := by
  refine ⟨⟨.inl ?_, ?_⟩, ⟨.inr ?_, ?_⟩, ⟨.inl ?_, ?_⟩⟩
  all_goals cbv

/-- The entry is entered by its own file header. -/
theorem currentFileInfo_misled :
    currentFileInfo misled = .ok (EntryInfo.regular "a") insideMisled := by
  have hbetween : misled.state.IsBetweenEntries := ⟨rfl, rfl⟩
  have hheader : EntryInfo.ofRecord (startOf 1).record = .ok (EntryInfo.regular "a") :=
    ofRecord_eq_ok.mpr ⟨isValid_startOf, rfl, parse_startOf⟩
  obtain ⟨hmode, hnormal, rest, hbytes, hrest⟩ := readRecord_eq_ok.mp readRecord_misled
  cases hrest
  refine (currentFileInfo_of_isBetween hbetween).trans ?_
  exact readFileHeader_eq_ok.mpr ⟨hmode, _, _, hnormal, hheader, hbytes, rfl⟩

/-- The first call gives its content. -/
theorem readFileData_insideMisled : readFileData 5 insideMisled = .ok [1] behindMisled := by
  rw [readFileData_of_isInside (by decide) isInsideEntry_misled.1, repeatUntil_apply,
    readRound_insideMisled]

/-- The byte in the payload of the first file header is content of the first entry. -/
theorem UnpackerRun.isContent_start :
    UnpackerRun BoundedSink id misled (some twoStarts) insideMisled ∧
      readFileData 5 insideMisled = .ok [1] behindMisled ∧ IsContent twoStarts [1] := by
  have hcall : (UnpackerCall.currentFileInfo : UnpackerCall BoundedSink).run misled
      = .ok () insideMisled := bind_of_ok currentFileInfo_misled
  have hrun : UnpackerRun BoundedSink id misled (some twoStarts) insideMisled :=
    UnpackerRun.nil.returned hcall
  have hstart : misled.state.unpacker ≠ .fileData := by decide
  obtain ⟨hread, -⟩ := UnpackerRun.isContent isDelivery_eq BoundedSink.isFallibleSink hstart hrun
    (rfl : entryFront id (some twoStarts) insideMisled = some twoStarts)
  refine ⟨hrun, readFileData_insideMisled, ?_⟩
  exact (hread 5 [1] behindMisled readFileData_insideMisled).resolve_left nofun

/-- **Delivered although refused**: the second file header is refused where the first entry should
go on, and the next call gives its payload as content of the first entry. -/
theorem readFileData_refused :
    currentFileInfo misled = .ok (EntryInfo.regular "a") insideMisled ∧
    readFileData 5 insideMisled = .ok [1] behindMisled ∧
    readFileData 5 behindMisled
      = .error (.invalidData (.notDataFragment .fileHeader)) refusedMisled ∧
    readFileData 5 refusedMisled
      = .ok (startOf 2).payload ⟨[], refusedMisled.state.given (startOf 2).payload⟩ := by
  obtain ⟨-, hbehind, hrefused⟩ := isInsideEntry_misled
  refine ⟨currentFileInfo_misled, readFileData_insideMisled, ?_, ?_⟩
  · rw [readFileData_of_isInside (by decide) hbehind, repeatUntil_apply, readRound_behindMisled]
  · rw [readFileData_of_isInside (by decide) hrefused, repeatUntil_apply, readRound_refusedMisled]
    rfl

end RecordArchive
