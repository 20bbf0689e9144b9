import RecordArchive.Archive.Unpacker

/-! # Walking an archive

Lists of what an archive holds, collected in the value of the caller so that what was found before a
failure is kept: `collectEntries` the metadata of all entries, `collectRecords` all records with
their positions. Content and payloads are skipped. -/

namespace RecordArchive

namespace Archive

variable {σ α : Type}

open Call

/-- What it costs to find something: one, if it is there. -/
def foundCost : Option α → Nat
  | none => 0
  | some _ => 1

/-- Takes the clean end of an archive for the absence of a result. -/
def unlessEof (call : Call σ α) : Call σ (Option α) := fun archive =>
  match call archive with
  | .ok value archive => .ok (some value) archive
  | .error .eof archive => .ok none archive
  | .error error archive => .error error archive

variable [ByteSource σ]

/-- A result takes at least one from the budget if the call does. -/
theorem unlessEof_spends {call : Call σ α} (h : Spends readBudget (fun _ => 1) call) :
    Spends readBudget foundCost (unlessEof call) := by
  intro archive
  have hcall := h archive
  unfold unlessEof
  cases hrun : call archive with
  | ok value final => simpa only [hrun, Within, foundCost] using hcall
  | error error final =>
    cases error <;> simpa [hrun, Within, foundCost] using hcall

/-- Reads the header of the next entry, if there is one. The handle has to stand between two
entries. -/
def nextEntry : Call σ (Option EntryInfo) := do
  let state ← Call.state
  require (state.unpacker = .fileHeader) (.invalidState "get_current_file_info")
  unlessEof readFileHeader

/-- An entry that is found is at least one byte. -/
theorem nextEntry_spends :
    Spends readBudget foundCost
      (nextEntry : Call σ (Option EntryInfo)) := by
  refine Spends.bind_of_free state_spends fun state => ?_
  exact Spends.bind_of_free (require_spends _ _) fun _ => unlessEof_spends readFileHeader_spends

/-- Skipping an entry gives nothing back. -/
theorem skipFile_spends : Spends readBudget (fun _ => 0) (skipFile : Call σ Unit) := by
  refine Spends.bind_of_free (expectReading_spends _) fun _ => ?_
  refine Spends.bind_of_free ?_ fun _ => ?_
  · refine Spends.bind_of_free state_spends fun state => ?_
    split
    next => exact Spends.throw _ _
    next =>
      refine Spends.bind (fun _ _ => 0) readRecord_spends (fun record => ?_)
        (fun _ _ => Nat.zero_le _)
      exact Spends.bind_of_free (require_spends _ _) fun _ => update_spends _
    all_goals exact Spends.pure _ rfl
  · refine Spends.bind_of_free (repeatUntil_spends (skipRound_spends.mono ?_))
      fun _ => update_spends _
    intro round
    cases round <;> exact Nat.le_refl _

/-- Adds a value to the list of the caller. -/
def collect {β : Type} (value : β) : EStateM ArchiveError (Array β) Unit := fun found =>
  .ok () (found.push value)

/-! ### Entries -/

/-- One round of collecting entries. -/
def collectEntry : CallWith (Array EntryInfo) σ (Option Unit) := do
  let found? ← Call.lift nextEntry
  match found? with
  | none => pure (some ())
  | some info => do
    CallWith.onValue (collect info)
    Call.lift skipFile
    pure none

/-- A round that goes on has found an entry. -/
theorem collectEntry_spends :
    Spends (fun state => readBudget state.2) roundCost
      (collectEntry : CallWith (Array EntryInfo) σ (Option Unit)) := by
  refine Spends.bind (fun found? round => roundCost round - foundCost found?)
    (lift_spends nextEntry_spends) (fun found? => ?_) (fun _ _ => by omega)
  cases found? with
  | none => exact Spends.pure _ rfl
  | some info =>
    refine Spends.bind (fun _ _ => 0) (onValue_spends _) (fun _ => ?_) (fun _ round => ?_)
    · exact Spends.bind_of_free (lift_spends skipFile_spends) fun _ => Spends.pure _ rfl
    · cases round <;> simp [roundCost, foundCost]

/-- Collects the metadata of all entries from here to the end. -/
def collectEntries : CallWith (Array EntryInfo) σ Unit :=
  repeatUntil collectEntry (fun state => readBudget state.2) collectEntry_spends

/-! ### Records -/

/-- The position of the stream, which a listing cannot do without. -/
def position [Seekable σ] : Call σ Nat := onStream (EStateM.adaptExcept .read Seekable.tell)

/-- The position can be asked for without reading. -/
theorem position_spends [Seekable σ] [TellsInPlace σ] :
    Spends readBudget (fun _ => 0) (position : Call σ Nat) :=
  onStream_spends (TellsInPlace.tell_spends.adaptExcept _)

/-- One round of collecting records. -/
def collectRecord [Seekable σ] : CallWith (Array (Nat × Record)) σ (Option Unit) := do
  let position ← Call.lift position
  let found? ← Call.lift (unlessEof readRecord)
  match found? with
  | none => pure (some ())
  | some record => do
    CallWith.onValue (collect (position, record))
    Call.lift leavePayload
    pure none

/-- A round that goes on has found a record. -/
theorem collectRecord_spends [Seekable σ] [TellsInPlace σ] :
    Spends (fun state => readBudget state.2) roundCost
      (collectRecord : CallWith (Array (Nat × Record)) σ (Option Unit)) := by
  refine Spends.bind_of_free (lift_spends position_spends) fun position => ?_
  refine Spends.bind (fun found? round => roundCost round - foundCost found?)
    (lift_spends (unlessEof_spends readRecord_spends)) (fun found? => ?_) (fun _ _ => by omega)
  cases found? with
  | none => exact Spends.pure _ rfl
  | some info =>
    refine Spends.bind (fun _ _ => 0) (onValue_spends _) (fun _ => ?_) (fun _ round => ?_)
    · exact Spends.bind_of_free (lift_spends leavePayload_spends) fun _ => Spends.pure _ rfl
    · cases round <;> simp [roundCost, foundCost]

/-- Collects all records from here to the end with the positions at which they start. -/
def collectRecords [Seekable σ] [TellsInPlace σ] : CallWith (Array (Nat × Record)) σ Unit :=
  repeatUntil collectRecord (fun state => readBudget state.2) collectRecord_spends

end Archive

end RecordArchive
