import Mathlib.Data.List.ModifyLast
import RecordArchive.Proofs.Archive.RecordWriter

/-! # What any sequence of writer calls leaves on the stream

A caller makes calls of the record layer in any order, whether they are legal or not, and goes on after
a rejected one. A `Recording` is the handle together with the records that were started so far, each
with the chunks that were accepted for it.

* `IsLedger` is the invariant: the bytes behind the marker are the records that were started with
  their payloads, in order, and only the last one may still be open.
* `IsLedger.run`: every call keeps it, and a rejected call writes nothing but the seal of the payload
  in front of the record that it should have started.
* `Archive.close_performAll`: so when the handle is closed the stream holds exactly these records, and
  all of them are complete. -/

namespace RecordArchive

open Program Archive

variable {σ : Type}

/-- A call of the record layer. Dropping the writer of a streamed payload is none. -/
inductive WriterCall
  /-- Starts a record. -/
  | start (record : Record)
  /-- Starts a record whose payload is streamed. -/
  | startStreamed (record : Record)
  /-- Writes a record with its whole payload. -/
  | whole (record : Record) (payload : Slice)
  /-- Appends to the payload that is being written. -/
  | append (chunk : List UInt8)
  /-- Seals the payload that is being written. -/
  | finish
  /-- Hands over what was written. -/
  | flush

namespace WriterCall

/-- The call on a handle. -/
def run [ByteSink σ] [Seekable σ] : WriterCall → Call σ Unit
  | start record => CallWith.withValue record writeRecord
  | startStreamed record => CallWith.withValue record startStreamedRecord
  | whole record payload => CallWith.withValue record (writeRecordWithAddedData payload.bytes)
  | append chunk => writeAddedData chunk
  | finish => finishAddedData
  | flush => flushStream

/-- The records started so far, after a call that succeeded. -/
def note (drafts : List Draft) : WriterCall → List Draft
  | start record => drafts ++ [⟨record, []⟩]
  | startStreamed record => drafts ++ [⟨record, []⟩]
  | whole record payload => drafts ++ [.whole record payload.bytes]
  | append chunk => drafts.modifyLast fun draft => draft.add chunk
  | finish => drafts
  | flush => drafts

/-- Whether the call should start a record. -/
def startsRecord : WriterCall → Bool
  | start _ => true
  | startStreamed _ => true
  | whole _ _ => true
  | append _ => false
  | finish => false
  | flush => false

/-- **What a rejected call leaves**: the handle as it was, or, where a record should have been started,
the handle with the payload in front of it sealed. -/
inductive IsRejected [ByteSink σ] [Seekable σ] (call : WriterCall) (handle final : Archive σ) :
    ArchiveError → Prop
  /-- The call was out of order. -/
  | state (name : String) (hfinal : final = handle) : IsRejected call handle final (.invalidState name)
  /-- The request could not be met. -/
  | parameter (fault : ParameterFault) (hfinal : final = handle) :
    IsRejected call handle final (.invalidParameter fault)
  /-- The request could not be met, and an open payload was sealed before. -/
  | sealed (fault : ParameterFault) (hcall : call.startsRecord = true)
    (hfinal : finishAddedData handle = .ok () final) :
    IsRejected call handle final (.invalidParameter fault)

end WriterCall

/-- A handle with the records that were started on it. -/
structure Recording (σ : Type) where
  handle : Archive σ
  drafts : List Draft := []

namespace Recording

variable [ByteSink σ] [Seekable σ]

/-- One call, whether it succeeds or not. -/
def perform (recording : Recording σ) (call : WriterCall) : Recording σ :=
  match call.run recording.handle with
  | .ok () handle => { handle, drafts := call.note recording.drafts }
  | .error _ handle => { recording with handle }

/-- Calls in a row. -/
def performAll (recording : Recording σ) (calls : List WriterCall) : Recording σ :=
  calls.foldl perform recording

end Recording

/-- The marker, and the records with their payloads. -/
def archiveBytes (drafts : List Draft) : List UInt8 :=
  Marker.bytes ++ segmentBytes (drafts.map Draft.segment)

/-- The last record comes behind the others. -/
theorem archiveBytes_append (drafts : List Draft) (draft : Draft) :
    archiveBytes (drafts ++ [draft]) = archiveBytes drafts ++ draft.segment.toBytes := by
  rw [archiveBytes, archiveBytes, List.map_append, segmentBytes_append, List.append_assoc]
  simp

/-- **The ledger of a handle**: what was written since the stream was `base` are the records that were
started, and the last one may still be open. -/
inductive IsLedger (base : MemoryStream) : Recording MemoryStream → Prop
  /-- Between two records. -/
  | between {drafts : List Draft} (hfits : ∀ draft ∈ drafts, draft.Fits) (state : HandleState) :
    IsLedger base ⟨betweenRecords base (archiveBytes drafts) state, drafts⟩
  /-- Inside the payload of the last record. -/
  | inside {drafts : List Draft} {draft : Draft} (hfits : ∀ draft ∈ drafts, draft.Fits)
    (hlast : draft.Fits) (hsize : draft.record.hasAddedSize = true) (state : HandleState) :
    IsLedger base ⟨insidePayload base (archiveBytes drafts) draft state, drafts ++ [draft]⟩

namespace IsLedger

variable {base : MemoryStream} {handle : Archive MemoryStream} {drafts : List Draft}

/-! ## One call -/

/-- If one more record fits, all of them do. -/
theorem forall_mem_append {last : Draft} (hfits : ∀ draft ∈ drafts, draft.Fits)
    (hlast : last.Fits) : ∀ draft ∈ drafts ++ [last], draft.Fits :=
  List.forall_mem_append.mpr ⟨hfits, List.forall_mem_singleton.mpr hlast⟩

/-- All records fit, and a further one can start behind them. -/
theorem ready (h : IsLedger base ⟨handle, drafts⟩) (call : String) :
    (∀ draft ∈ drafts, draft.Fits) ∧ ∃ state,
      readyForRecord call handle = .ok () (betweenRecords base (archiveBytes drafts) state) ∧
        (betweenRecords base (archiveBytes drafts) state = handle ∨
          finishAddedData handle = .ok () (betweenRecords base (archiveBytes drafts) state)) := by
  cases h with
  | between hfits state =>
    exact ⟨hfits, state, readyForRecord_betweenRecords call, .inl rfl⟩
  | inside hfits hlast hsize state =>
    refine ⟨forall_mem_append hfits hlast, state, ?_, .inr ?_⟩
    · rw [archiveBytes_append]
      exact readyForRecord_insidePayload hlast hsize call
    · rw [archiveBytes_append]
      exact finishAddedData_insidePayload hlast hsize

/-- A record that was started is the last one of the ledger. -/
theorem started (hfits : ∀ draft ∈ drafts, draft.Fits) {record : Record} (hrecord : record.Fits)
    (state : HandleState) :
    IsLedger base ⟨Archive.started base (archiveBytes drafts) record state,
      drafts ++ [⟨record, []⟩]⟩ := by
  have hdraft := Draft.fits_start hrecord
  rw [Archive.started]
  by_cases hsize : record.hasAddedSize = true
  · rw [if_pos hsize]
    exact .inside hfits hdraft hsize state
  · rw [if_neg hsize, ← archiveBytes_append]
    exact .between (forall_mem_append hfits hdraft) state

end IsLedger

/-- **A call on a ledger** succeeds and is noted, or is rejected and leaves the ledger. -/
inductive IsPerformed (base : MemoryStream) (call : WriterCall) (handle : Archive MemoryStream)
    (drafts : List Draft) : Prop
  | accepted {final : Archive MemoryStream} (hrun : call.run handle = .ok () final)
    (h : IsLedger base ⟨final, call.note drafts⟩)
  | rejected {error : ArchiveError} {final : Archive MemoryStream}
    (hrun : call.run handle = .error error final) (h : IsLedger base ⟨final, drafts⟩)
    (hrejected : call.IsRejected handle final error)

namespace IsLedger

variable {base : MemoryStream} {handle : Archive MemoryStream} {drafts : List Draft}

/-- A record that does not fit is rejected where the payload in front of it ends. -/
theorem rejected_of_ready {call : WriterCall} {final : Archive MemoryStream} {error : ArchiveError}
    {record : Record} (hcall : call.startsRecord = true) (hfix : record.fix = .error error)
    (hfinal : final = handle ∨ finishAddedData handle = .ok () final) :
    call.IsRejected handle final error := by
  obtain ⟨fault, rfl⟩ := Record.fix_eq_error hfix
  rcases hfinal with hsame | hsealed
  · exact .parameter fault hsame
  · exact .sealed fault hcall hsealed

/-- A record is started, or rejected because it does not fit. -/
theorem run_start (h : IsLedger base ⟨handle, drafts⟩) (record : Record) :
    IsPerformed base (.start record) handle drafts := by
  obtain ⟨hfits, state, hready, hfinal⟩ := h.ready "write_record"
  rcases hfix : record.fix with error | fixed
  · -- The payload in front of the record was sealed before the record was looked at.
    exact .rejected (CallWith.withValue_of_error (writeRecord_of_error hready hfix))
      (.between hfits state) (rejected_of_ready rfl hfix hfinal)
  · have hrecord := (Record.fix_eq_ok.mp hfix).1
    exact .accepted (CallWith.withValue_of_ok (writeRecord_of_ready hready hrecord))
      (.started hfits hrecord state)

/-- A record to be streamed is rejected without a change if it has no room for a payload size. -/
theorem run_startStreamed (h : IsLedger base ⟨handle, drafts⟩) (record : Record) :
    IsPerformed base (.startStreamed record) handle drafts := by
  by_cases hsize : record.hasAddedSize = true
  · -- With room for a size it is the call that starts any record.
    have hrun : WriterCall.run (.startStreamed record) handle
        = WriterCall.run (.start record) handle := by
      show CallWith.withValue record startStreamedRecord handle
        = CallWith.withValue record writeRecord handle
      unfold CallWith.withValue
      rw [startStreamedRecord_of_hasAddedSize hsize]
    obtain ⟨hok, hledger⟩ | ⟨herror, hledger, hrejected⟩ := h.run_start record
    · exact .accepted (hrun.trans hok) hledger
    · refine .rejected (hrun.trans herror) hledger ?_
      obtain ⟨name, hfinal⟩ | ⟨fault, hfinal⟩ | ⟨fault, -, hfinal⟩ := hrejected
      · exact .state name hfinal
      · exact .parameter fault hfinal
      · exact .sealed fault rfl hfinal
  · exact .rejected (CallWith.withValue_of_error
      (startStreamedRecord_of_not_hasAddedSize hsize handle)) h (.parameter _ rfl)

/-- A record is written with its whole payload, or rejected because it does not fit. -/
theorem run_whole (h : IsLedger base ⟨handle, drafts⟩) (record : Record) (payload : Slice) :
    IsPerformed base (.whole record payload) handle drafts := by
  -- the announcement may fit where the request did not, so it is what is looked at
  obtain ⟨hfits, state, hready, hfinal⟩ := h.ready "write_record_with_added_data"
  rcases hfix : (record.announcing payload.bytes).fix with error | fixed
  · exact .rejected (CallWith.withValue_of_error (writeRecordWithAddedData_of_error hready hfix))
      (.between hfits state) (rejected_of_ready rfl hfix hfinal)
  · have hrecord := (Record.fix_eq_ok.mp hfix).1
    refine .accepted (CallWith.withValue_of_ok
      (writeRecordWithAddedData_of_ready payload.bounded hready hrecord)) ?_
    rw [← archiveBytes_append]
    exact .between (forall_mem_append hfits (Draft.fits_whole payload.bounded hrecord)) state

/-- A chunk is added to the last record if that is open and has room for it. -/
theorem run_append (h : IsLedger base ⟨handle, drafts⟩) (chunk : List UInt8) :
    IsPerformed base (.append chunk) handle drafts := by
  cases h with
  | between hfits state =>
    exact .rejected (writeAddedData_betweenRecords chunk) (.between hfits state) (.state _ rfl)
  | @inside drafts draft hfits hlast hsize state =>
    have hrun := @writeAddedData_insidePayload base (archiveBytes drafts) draft state chunk
    by_cases hchunk : (draft.account (some (base.position + (archiveBytes drafts).length))).fits chunk
        = true
    · -- The open draft is the last one noted.
      rw [if_pos hchunk] at hrun
      refine .accepted hrun ?_
      show IsLedger base ⟨_, (drafts ++ [draft]).modifyLast fun draft => draft.add chunk⟩
      rw [List.modifyLast_concat]
      exact .inside hfits (hlast.add hsize hchunk) hsize state
    · rw [if_neg hchunk] at hrun
      exact .rejected hrun (.inside hfits hlast hsize state) (.parameter _ rfl)

/-- The last record is sealed if it is open. -/
theorem run_finish (h : IsLedger base ⟨handle, drafts⟩) :
    IsPerformed base .finish handle drafts := by
  cases h with
  | between hfits state =>
    exact .rejected finishAddedData_betweenRecords (.between hfits state) (.state _ rfl)
  | inside hfits hlast hsize state =>
    refine .accepted (finishAddedData_insidePayload hlast hsize) ?_
    rw [← archiveBytes_append]
    exact .between (forall_mem_append hfits hlast) state

/-- **Every call** succeeds and is noted, or is rejected and leaves the ledger. -/
theorem run (h : IsLedger base ⟨handle, drafts⟩) (call : WriterCall) :
    IsPerformed base call handle drafts := by
  cases call with
  | start record => exact h.run_start record
  | startStreamed record => exact h.run_startStreamed record
  | whole record payload => exact h.run_whole record payload
  | append chunk => exact h.run_append chunk
  | finish => exact h.run_finish
  | flush => exact .accepted (flushStream_apply handle.stream handle.state) h

/-! ## Calls in a row -/

/-- **One call keeps the ledger**, whether it succeeds or is refused. -/
theorem perform {recording : Recording MemoryStream} (h : IsLedger base recording)
    (call : WriterCall) : IsLedger base (recording.perform call) := by
  obtain ⟨hrun, hledger⟩ | ⟨hrun, hledger, -⟩ := h.run call
  · rw [Recording.perform, hrun]
    exact hledger
  · rw [Recording.perform, hrun]
    exact hledger

/-- **Calls in a row keep the ledger.** -/
theorem performAll {recording : Recording MemoryStream} (h : IsLedger base recording)
    (calls : List WriterCall) : IsLedger base (recording.performAll calls) := by
  induction calls generalizing recording with
  | nil => exact h
  | cons call calls ih => exact ih (h.perform call)

/-- Closing the handle seals the last record if it is open. -/
theorem close_eq (h : IsLedger base ⟨handle, drafts⟩) :
    close handle = .ok (base.write (archiveBytes drafts)) ∧ ∀ draft ∈ drafts, draft.Fits := by
  cases h with
  | between hfits state => exact ⟨close_betweenRecords, hfits⟩
  | inside hfits hlast hsize state =>
    rw [archiveBytes_append]
    exact ⟨close_insidePayload hlast hsize, forall_mem_append hfits hlast⟩

end IsLedger

/-- **Any sequence of writer calls** on a fresh handle over an empty stream in memory can be closed,
and then the stream holds the marker and the records that the calls started, in order, each with the
chunks that were accepted for it, cut to the announced size if there is one. All these records are
complete. A call that is rejected on the way is out of order or cannot be met; it changes nothing,
except that a call that should start a record may have sealed the payload in front of it. -/
theorem Archive.close_performAll (options : ArchiveOptions) (calls : List WriterCall) :
    ∃ opened recording,
      startWriting (Archive.ofStream ({} : MemoryStream) options) = .ok () opened ∧
      recording = (⟨opened, []⟩ : Recording MemoryStream).performAll calls ∧
      (∃ final, close recording.handle = .ok final ∧
        final.toList = Marker.bytes ++ segmentBytes (recording.drafts.map Draft.segment)) ∧
      (∀ draft ∈ recording.drafts, draft.segment.IsComplete) ∧
      ∀ call error final, WriterCall.run call recording.handle = .error error final →
        call.IsRejected recording.handle final error := by
  -- behind the marker the ledger is empty, and every call keeps it
  have hopened : IsLedger ({} : MemoryStream) ⟨betweenRecords {} Marker.bytes { options }, []⟩ :=
    .between (fun _ hmem => absurd hmem List.not_mem_nil) _
  obtain ⟨recording, hrecording⟩ : ∃ recording,
      (⟨betweenRecords {} Marker.bytes { options }, []⟩ : Recording MemoryStream).performAll calls
        = recording := ⟨_, rfl⟩
  have hledger := hopened.performAll calls
  rw [hrecording] at hledger
  obtain ⟨hclose, hfits⟩ := hledger.close_eq
  refine ⟨_, recording, startWriting_ofStream {} options, hrecording.symm, ⟨_, hclose, ?_⟩,
    fun draft hmem => (hfits draft hmem).isComplete, fun call error final hrun => ?_⟩
  · exact MemoryStream.toList_write_empty _
  · obtain ⟨hok, -⟩ | ⟨herror, -, hrejected⟩ := hledger.run call
    · cases hrun.symm.trans hok
    · cases hrun.symm.trans herror
      exact hrejected

end RecordArchive
