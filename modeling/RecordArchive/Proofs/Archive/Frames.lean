import RecordArchive.Proofs.Archive.Effects

/-! # What reading leaves alone

Whoever reads entries goes through many fields of a handle, but never changes how that was set up: the
options of the caller and the place of the packer.

* `Program.Keeps part program`: the program leaves a part of its state as it was, whatever comes of it.
  This composes along programs, so it needs one line for each call.
* `Archive.keeps_skipFile`, `Archive.keeps_extract`: skipping and extracting an entry keep the set-up,
  as does all they are built from. -/

namespace RecordArchive

open Program Call

variable {ε σ τ ρ α β γ : Type}

/-! ## Parts of a state -/

namespace Program

/-- **A part of the state is kept**, whatever comes of the program. -/
def Keeps (part : σ → γ) (program : EStateM ε σ α) : Prop :=
  ∀ start, Outcome (fun _ final => part final = part start) (fun _ final => part final = part start)
    (program start)

namespace Keeps

variable {part : σ → γ}

/-- A value at once changes nothing. -/
theorem pure (value : α) : Keeps part (Pure.pure value : EStateM ε σ α) := fun _ => rfl

/-- A failure at once changes nothing. -/
theorem throw (error : ε) : Keeps part (MonadExcept.throw error : EStateM ε σ α) := fun _ => rfl

/-- Programs in a row keep what each of them keeps. -/
theorem bind {first : EStateM ε σ α} {next : α → EStateM ε σ β} (hfirst : Keeps part first)
    (hnext : ∀ value, Keeps part (next value)) : Keeps part (first >>= next) := by
  intro start
  refine Outcome.bind ((hfirst start).mono ?_ fun _ _ h => h)
  intro value middle hmiddle
  refine (hnext value middle).mono ?_ ?_
  · exact fun _ _ hfinal => hfinal.trans hmiddle
  · exact fun _ _ hfinal => hfinal.trans hmiddle

/-- Either branch keeps the part. -/
theorem ite {condition : Prop} [Decidable condition] {first second : EStateM ε σ α}
    (h : Keeps part first) (h' : Keeps part second) :
    Keeps part (if condition then first else second) := by
  split
  · exact h
  · exact h'

/-- A repetition keeps what each of its rounds keeps. -/
theorem repeatUntil {step : EStateM ε σ (Option α)} {measure : σ → Nat}
    {progress : Spends measure roundCost step} (h : Keeps part step) :
    Keeps part (repeatUntil step measure progress) := by
  intro start
  apply Outcome.repeatUntil fun middle => part middle = part start
  · intro middle hmiddle
    refine (h middle).mono ?_ fun _ _ hfinal => hfinal.trans hmiddle
    intro round final hfinal
    cases round with
    | none => exact hfinal.trans hmiddle
    | some _ => exact hfinal.trans hmiddle
  · rfl

end Keeps

end Program

/-! ## The set-up of a handle -/

/-- What reading leaves alone of a handle: the options of the caller, and what it has been used to
write. -/
structure Setup where
  options : ArchiveOptions
  pending? : Option PendingPayload
  packer : PackerState

/-- How a handle was set up. -/
def HandleState.setup (state : HandleState) : Setup :=
  ⟨state.options, state.pending?, state.packer⟩

/-- The set-up of a handle on a stream. -/
def Archive.setup (archive : Archive σ) : Setup := archive.state.setup

namespace Call

/-- Looking at the state changes nothing. -/
theorem keeps_state : Keeps Archive.setup (state : Call σ HandleState) := fun _ => rfl

/-- A change of other fields keeps the setup. -/
theorem keeps_update {change : HandleState → HandleState}
    (h : ∀ state, (change state).setup = state.setup) :
    Keeps Archive.setup (update change : Call σ Unit) := by
  intro archive
  exact h archive.state

/-- The setup is not on the stream. -/
theorem keeps_onStream (program : EStateM ArchiveError σ α) :
    Keeps Archive.setup (onStream program) := by
  intro archive
  apply outcome_onStream
  exact .of_forall (fun _ _ => rfl) (fun _ _ => rfl) _

/-- A result that is there already changes nothing. -/
theorem keeps_ofResult (result : Except ArchiveError α) :
    Keeps Archive.setup (ofResult result : Call σ α) := by
  intro archive
  exact outcome_ofResult (fun _ _ => rfl) fun _ _ => rfl

/-- A check changes nothing. -/
theorem keeps_require (condition : Prop) [Decidable condition] (error : ArchiveError) :
    Keeps Archive.setup (require condition error : Call σ Unit) :=
  .ite (.pure ()) (.throw error)

/-- Beside a value that it does not need a call keeps what it keeps elsewhere. -/
theorem keeps_lift {call : Call σ α} (h : Keeps Archive.setup call) :
    Keeps (fun state : ρ × Archive σ => state.2.setup) (lift call) := by
  intro state
  exact outcome_lift (h state.2)

end Call

/-- The setup is not in the value beside the handle. -/
theorem CallWith.keeps_onValue (program : EStateM ArchiveError ρ α) :
    Keeps (fun state : ρ × Archive σ => state.2.setup) (CallWith.onValue program) := by
  intro state
  apply CallWith.outcome_onValue
  exact .of_forall (fun _ _ => rfl) (fun _ _ => rfl) _

namespace Archive

/-! ### Calls that take nothing from the stream -/

/-- The check of the place changes nothing. -/
theorem keeps_expectReader (place : ReaderState) (call : String) :
    Keeps setup (expectReader place call : Call σ Unit) :=
  keeps_state.bind fun _ => keeps_require _ _

/-- The end of a payload keeps the setup. -/
theorem keeps_endAddedData : Keeps setup (endAddedData : Call σ Unit) := by
  refine (keeps_update fun _ => by rfl).bind fun _ => keeps_state.bind fun state => ?_
  cases state.incoming.declaredCrc? with
  | none => exact .pure ()
  | some stored => exact keeps_require _ _

/-- The check of the mode changes nothing. -/
theorem keeps_expectReading (call : String) :
    Keeps setup (expectReading call : Call σ Unit) := by
  refine keeps_state.bind fun state => ?_
  split
  next => exact .pure ()
  next => exact .throw _

/-- The end of an entry keeps the setup. -/
theorem keeps_finishEntry : Keeps setup (finishEntry : Call σ Unit) :=
  keeps_update fun _ => by rfl

/-- The check of an entry keeps the setup. -/
theorem keeps_verifyEntry : Keeps setup (verifyEntry : Call σ Unit) := by
  refine keeps_state.bind fun state => ?_
  cases state.currentFile? with
  | none => exact .pure ()
  | some info => exact keeps_ofResult _

/-- To look the metadata up changes nothing. -/
theorem keeps_knownFile : Keeps setup (knownFile : Call σ EntryInfo) := by
  refine keeps_state.bind fun state => ?_
  cases state.currentFile? with
  | none => exact .throw _
  | some info => exact .pure _

/-! ### Calls that take something -/

variable [ByteSource σ]

/-- Reading a header keeps the setup. -/
theorem keeps_readRecordHeader : Keeps setup (readRecordHeader : Call σ Record) := by
  refine (keeps_onStream _).bind fun first => ?_
  refine (keeps_update fun _ => by rfl).bind fun _ => ?_
  refine (keeps_onStream _).bind fun fixed => ?_
  exact (keeps_onStream _).bind fun optional => keeps_ofResult _

/-- **Reading a record** keeps the setup. -/
theorem keeps_readRecord : Keeps setup (readRecord : Call σ Record) := by
  refine (keeps_expectReader _ _).bind fun _ => keeps_readRecordHeader.bind fun header => ?_
  refine (keeps_onStream _).bind fun data => ?_
  exact (keeps_update fun _ => by rfl).bind fun _ => .pure _

/-- To find the length of the payload ahead keeps the setup. -/
theorem keeps_payloadToSkip : Keeps setup (payloadToSkip : Call σ Nat) := by
  refine keeps_state.bind fun state => ?_
  split
  next => exact keeps_readRecordHeader.bind fun _ => (keeps_onStream _).bind fun _ => .pure _
  next => exact .pure _
  next => exact .throw _

/-- **Skipping a record** keeps the setup. -/
theorem keeps_skipRecord : Keeps setup (skipRecord : Call σ Unit) := by
  refine keeps_payloadToSkip.bind fun _ => (keeps_onStream _).bind fun _ => ?_
  exact keeps_update fun _ => by rfl

/-- **Reading payload** keeps the setup. -/
theorem keeps_readAddedData (count : Nat) :
    Keeps setup (readAddedData count : Call σ (List UInt8)) := by
  refine (keeps_expectReader _ _).bind fun _ => keeps_state.bind fun state => .ite ?_ ?_
  · exact keeps_endAddedData.bind fun _ => .pure _
  · refine (keeps_onStream _).bind fun bytes => ?_
    refine (keeps_update fun _ => by rfl).bind fun _ => ?_
    exact .ite (keeps_endAddedData.bind fun _ => .pure _) (.pure _)

/-- Leaving a payload keeps the setup. -/
theorem keeps_leavePayload : Keeps setup (leavePayload : Call σ Unit) :=
  keeps_state.bind fun _ => .ite keeps_skipRecord (.pure ())

/-- Entering a fragment keeps the setup. -/
theorem keeps_readFragment : Keeps setup (readFragment : Call σ Record) := by
  refine keeps_readRecord.bind fun record => (keeps_require _ _).bind fun _ => ?_
  exact (keeps_require _ _).bind fun _ => (keeps_update fun _ => by rfl).bind fun _ => .pure _

/-- A round of skipping keeps the setup. -/
theorem keeps_skipRound : Keeps setup (skipRound : Call σ (Option Unit)) :=
  keeps_leavePayload.bind fun _ => keeps_state.bind fun _ =>
    .ite (keeps_readFragment.bind fun _ => .pure _) (.pure _)

/-- The start of skipping keeps the setup. -/
theorem keeps_beginSkip : Keeps setup (beginSkip : Call σ Unit) := by
  refine keeps_state.bind fun state => ?_
  cases state.unpacker with
  | validatingFormat => exact .throw _
  | fileHeader =>
    refine keeps_readRecord.bind fun record => (keeps_require _ _).bind fun _ => ?_
    exact keeps_update fun _ => by rfl
  | fileData => exact .pure ()
  | afterFileData => exact .pure ()

/-- **Skipping an entry** keeps the set-up. -/
theorem keeps_skipFile : Keeps setup (skipFile : Call σ Unit) :=
  (keeps_expectReading _).bind fun _ => keeps_beginSkip.bind fun _ =>
    keeps_skipRound.repeatUntil.bind fun _ => keeps_finishEntry

/-- Taking a piece of payload keeps the setup. -/
theorem keeps_takePayload (count : Nat) :
    Keeps setup (takePayload count : Call σ (List UInt8)) :=
  keeps_state.bind fun _ => .ite (keeps_readAddedData count) (.pure _)

/-- A round of reading keeps the setup. -/
theorem keeps_readRound (count : Nat) :
    Keeps setup (readRound count : Call σ (Option (List UInt8))) := by
  refine (keeps_takePayload count).bind fun bytes => keeps_state.bind fun state => .ite ?_ (.ite ?_ ?_)
  · exact (keeps_update fun _ => by rfl).bind fun _ => .pure _
  · exact keeps_readFragment.bind fun _ => .pure _
  · exact keeps_verifyEntry.bind fun _ => (keeps_update fun _ => by rfl).bind fun _ => .pure _

/-- **Reading content** keeps the setup. -/
theorem keeps_readFileData (count : Nat) :
    Keeps setup (readFileData count : Call σ (List UInt8)) := by
  refine (keeps_expectReading _).bind fun _ => keeps_state.bind fun state => ?_
  cases state.unpacker with
  | validatingFormat => exact .throw _
  | fileHeader => exact .throw _
  | fileData => exact .ite (.pure _) (keeps_readRound count).repeatUntil
  | afterFileData => exact .pure _

/-- Entering an entry keeps the setup. -/
theorem keeps_readFileHeader : Keeps setup (readFileHeader : Call σ EntryInfo) := by
  refine keeps_readRecord.bind fun record => (keeps_ofResult _).bind fun info => ?_
  exact (keeps_update fun _ => by rfl).bind fun _ => .pure _

/-- **Asking for the metadata** keeps the setup. -/
theorem keeps_currentFileInfo : Keeps setup (currentFileInfo : Call σ EntryInfo) := by
  refine (keeps_expectReading _).bind fun _ => keeps_state.bind fun state => ?_
  cases state.unpacker with
  | validatingFormat => exact .throw _
  | fileHeader => exact keeps_readFileHeader
  | fileData => exact keeps_knownFile
  | afterFileData => exact keeps_knownFile

/-- The start of extraction keeps the setup. -/
theorem keeps_beginExtract : Keeps setup (beginExtract : Call σ Unit) := by
  refine (keeps_expectReading _).bind fun _ => keeps_state.bind fun state => ?_
  cases state.unpacker with
  | validatingFormat => exact .throw _
  | fileHeader => exact keeps_currentFileInfo.bind fun _ => .pure ()
  | fileData => exact .pure ()
  | afterFileData => exact .pure ()

/-- A round of extraction keeps the setup. -/
theorem keeps_extractRound [ByteSink τ] (count : Nat) :
    Keeps (fun state : CopySink τ × Archive σ => state.2.setup) (extractRound count) :=
  (keeps_lift (keeps_readFileData count)).bind fun _ =>
    .ite (.pure _) ((CallWith.keeps_onValue _).bind fun _ => .pure _)

/-- **Extracting an entry** keeps the set-up. -/
theorem keeps_extract [ByteSink τ] :
    Keeps (fun state : CopySink τ × Archive σ => state.2.setup) extract :=
  (keeps_lift keeps_beginExtract).bind fun _ => (keeps_lift keeps_state).bind fun _ =>
    (keeps_extractRound _).repeatUntil.bind fun _ => keeps_lift keeps_finishEntry

end Archive

end RecordArchive
