import RecordArchive.Proofs.Archive.Lockstep

/-! # What does not look at the chunk size

The chunk size is how much a copy reads at once, and nothing else looks at it. So the other calls do
the same on handles that differ in it.

* `Archive.Resized`: handles that differ in the chunk size.
* `Archive.resized_writeRecord`: a record is started alike.
* `Archive.resized_beginFile`: the content of an entry is opened alike. -/

namespace RecordArchive

open Program Call

variable {σ α : Type} {size : Nat}

namespace Archive

/-- The handle with another chunk size. -/
def withChunkSize (size : Nat) (handle : Archive σ) : Archive σ :=
  ⟨handle.stream, { handle.state with
    options := { handle.state.options with chunkSize := size } }⟩

/-- The second handle is the first one with another chunk size. -/
def Resized (size : Nat) (first second : Archive σ) : Prop := first.withChunkSize size = second

/-- A call that looks at the state does the same if what it does next does. -/
theorem resized_state_bind {next : HandleState → Call σ α}
    (h : ∀ handle : Archive σ, Simulates (Resized size) (next handle.state)
      (next (handle.withChunkSize size).state)) :
    Simulates (Resized size) (Call.state >>= next) (Call.state >>= next) := by
  rintro handle _ rfl
  exact h handle handle _ rfl

/-- A change of the state that does not look at the chunk size. -/
theorem resized_update {change : HandleState → HandleState}
    (h : ∀ handle : Archive σ, Resized size ⟨handle.stream, change handle.state⟩
      ⟨handle.stream, change (handle.withChunkSize size).state⟩) :
    Simulates (Resized size) (update change : Call σ Unit) (update change) := by
  rintro handle _ rfl
  exact .ok (h handle)

/-- The mode says nothing of the chunk size. -/
theorem resized_setMode (mode : Mode) :
    Simulates (Resized size) (setMode mode : Call σ Unit) (setMode mode) :=
  resized_update fun _ => rfl

/-- A result that is there already does not depend on the chunk size. -/
theorem resized_ofResult (result : Except ArchiveError α) :
    Simulates (Resized size) (ofResult result : Call σ α) (ofResult result) := by
  rintro handle _ rfl
  cases result with
  | ok value => exact .ok rfl
  | error error => exact .error rfl

/-- What is done on the stream does not depend on the chunk size. -/
theorem resized_onStream (program : EStateM ArchiveError σ α) :
    Simulates (Resized size) (onStream program) (onStream program) := by
  rintro ⟨stream, state⟩ _ rfl
  rw [withChunkSize, onStream_apply, onStream_apply]
  cases program stream with
  | ok value rest => exact .ok rfl
  | error error rest => exact .error rfl

/-- A check that does not look at the handle. -/
theorem resized_require (condition : Prop) [Decidable condition] (error : ArchiveError) :
    Simulates (Resized size) (require condition error : Call σ Unit) (require condition error) :=
  .ite (.pure ()) (.throw error)

/-- The state of the packer says nothing of the chunk size. -/
theorem resized_expectPacker (allowed : List PackerState) (call : String) :
    Simulates (Resized size) (expectPacker allowed call : Call σ Unit) (expectPacker allowed call) := by
  refine resized_state_bind ?_
  rintro ⟨_, ⟨mode, _, _, _, _, _, _, _⟩⟩
  rcases mode with _ | _ | _
  case writing => exact resized_require _ _
  all_goals exact .throw _

variable [Seekable σ]

/-- The position is the same. -/
theorem resized_tellStream : Simulates (Resized size) (tellStream : Call σ _) tellStream := by
  rintro ⟨stream, state⟩ _ rfl
  simp only [tellStream, withChunkSize]
  cases Seekable.tell stream with
  | ok position rest => exact .ok rfl
  | error cause rest => exact .ok rfl

omit [Seekable σ] in
/-- The payload in writing is the same, or is missing for both. -/
theorem resized_expectPending (call : String) :
    Simulates (Resized size) (expectPending call : Call σ PendingPayload) (expectPending call) := by
  refine resized_state_bind ?_
  rintro ⟨_, ⟨_, _, _, pending?, _, _, _, _⟩⟩
  refine (resized_require _ _).bind fun _ => ?_
  cases pending? with
  | none => exact .throw _
  | some pending => exact .pure pending

omit [Seekable σ] in
/-- The payload in writing is described in the same way. -/
theorem resized_describePayload (pending : PendingPayload) :
    Simulates (Resized size) (describePayload pending : Call σ _) (describePayload pending) :=
  have hset (pending : PendingPayload) :
      Simulates (Resized size) (setPending pending : Call σ Unit) (setPending pending) :=
    resized_update fun _ => rfl
  (hset _).bind fun _ => (resized_ofResult _).bind fun _ => (hset _).bind fun _ => resized_ofResult _

variable [ByteSink σ]

/-- **A payload is finished** whatever the chunk size is. -/
theorem resized_finishAddedData :
    Simulates (Resized size) (finishAddedData : Call σ Unit) finishAddedData := by
  have hseal (pending : PendingPayload) :
      Simulates (Resized size) (sealHeader pending : Call σ Unit) (sealHeader pending) :=
    (resized_ofResult _).bind fun _ => (resized_describePayload _).bind fun _ =>
      resized_tellStream.bind fun _ =>
      (resized_ofResult _).bind fun _ => (resized_onStream _).bind fun _ =>
      (resized_onStream _).bind fun _ => resized_onStream _
  exact (resized_expectPending _).bind fun pending => .ite (resized_update fun _ => rfl)
    ((hseal pending).bind fun _ => resized_update fun _ => rfl)

/-- The handle is made ready for a record whatever the chunk size is. -/
theorem resized_readyForRecord (call : String) :
    Simulates (Resized size) (readyForRecord call : Call σ Unit) (readyForRecord call) := by
  refine resized_state_bind ?_
  rintro ⟨_, ⟨mode, _, _, _, _, _, _, _⟩⟩
  rcases mode with _ | _ | (_ | _ | _)
  case writing.atRecord => exact .pure ()
  case writing.atAddedData => exact resized_finishAddedData
  all_goals exact .throw _

/-- **A record is written** whatever the chunk size is. -/
theorem resized_writeRecord (record : Record) :
    Simulates (Resized size) (CallWith.withValue record writeRecord : Call σ Unit)
      (CallWith.withValue record writeRecord) := by
  have hoffset (fixed : Record) :
      Simulates (Resized size) (recordOffset fixed : Call σ _) (recordOffset fixed) := by
    refine resized_tellStream.bind fun position => ?_
    cases position with
    | ok position => exact .pure _
    | error cause => exact .ite (.throw _) (.pure _)
  rw [withValue_writeRecord]
  exact (resized_readyForRecord _).bind fun _ => (resized_ofResult _).bind fun fixed =>
    (hoffset fixed).bind fun _ =>
    ((resized_ofResult _).bind fun _ => resized_onStream _).bind fun _ =>
    .ite (resized_update fun _ => rfl) (resized_setMode _)

/-- **The content of an entry is opened** without a look at the chunk size. -/
theorem resized_beginFile (info : EntryInfo) :
    Simulates (Resized size) (beginFile info : Call σ Unit) (beginFile info) :=
  (resized_expectPacker _ _).bind fun _ => (resized_ofResult _).bind fun _ =>
    resized_state_bind fun _ => (resized_writeRecord _).bind fun _ => resized_update fun _ => rfl

end Archive

end RecordArchive
