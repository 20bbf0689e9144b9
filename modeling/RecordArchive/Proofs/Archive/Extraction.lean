import RecordArchive.Proofs.Archive.Unpacker
import RecordArchive.Proofs.Entry.Codec
import RecordArchive.Proofs.Stream.Collection

/-! # Extraction accepts exactly the entries

A caller gets at the content of an entry in two ways: it extracts the entry to a sink, or it reads the
metadata and then the content in pieces. Both succeed for exactly the byte strings that start with
the records of an entry, and give the payloads of these records in a row.

* `isEntry_iff_extract`, `isEntry_iff_readEntry`: so it is on a list of bytes.
* `extract_accepts_entries`: so it is on every infallible stream and with every infallible sink, in
  transfers of any length. -/

namespace RecordArchive

open Program Call

variable {σ τ : Type}

/-- The bytes start with the records of an entry. -/
def StartsWithEntry (bytes : List UInt8) : Prop :=
  ∃ info first later rest, IsEntry info first later ∧
    bytes = segmentBytes (first :: later) ++ rest

namespace Archive

/-! ## Extracting -/

/-- Copying to a list appends. -/
theorem onValue_deliver_list (bytes held : List UInt8) (total : Nat) (handle : Archive σ) :
    CallWith.onValue (deliver bytes) ((⟨held, total⟩ : CopySink (List UInt8)), handle)
      = .ok () (⟨held ++ bytes, total + bytes.length⟩, handle) := by
  obtain ⟨_, hrun, rfl⟩ := isCollector_eq.writeAll (rfl : held = held) bytes
  rw [CallWith.onValue_apply, deliver, hrun]

/-- A round of extracting: it copies what it read, or ends when there is nothing. -/
theorem extractRound_eq_ok {count total : Nat} {held : List UInt8} {start : Archive (List UInt8)}
    {round : Option Unit} {final : CopySink (List UInt8) × Archive (List UInt8)} :
    extractRound count (⟨held, total⟩, start) = .ok round final ↔ ∃ taken handle,
      readFileData count start = .ok taken handle ∧
      ((taken = [] ∧ round = some () ∧ final = (⟨held, total⟩, handle)) ∨
        (taken ≠ [] ∧ round = none ∧
          final = (⟨held ++ taken, total + taken.length⟩, handle))) := by
  rw [extractRound, bind_eq_ok]
  constructor
  · rintro ⟨taken, _, hlift, h⟩
    obtain ⟨handle, hread, rfl⟩ := lift_eq_ok.mp hlift
    refine ⟨taken, handle, hread, ?_⟩
    by_cases hnil : taken = []
    · rw [if_pos hnil] at h
      obtain ⟨rfl, rfl⟩ := pure_eq_ok.mp h
      exact .inl ⟨hnil, rfl, rfl⟩
    · rw [if_neg hnil, bind_of_ok (onValue_deliver_list taken held total handle)] at h
      obtain ⟨rfl, rfl⟩ := pure_eq_ok.mp h
      exact .inr ⟨hnil, rfl, rfl⟩
  · rintro ⟨taken, handle, hread, h⟩
    refine ⟨taken, _, lift_eq_ok.mpr ⟨handle, hread, rfl⟩, ?_⟩
    rcases h with ⟨hnil, rfl, rfl⟩ | ⟨hne, rfl, rfl⟩
    · rw [if_pos hnil]
      rfl
    · rw [if_neg hne, bind_of_ok (onValue_deliver_list taken held total handle)]
      rfl

/-- The content that is still to be copied completes what the sink holds. -/
def Copying (content rest : List UInt8) (total : Nat)
    (state : CopySink (List UInt8) × Archive (List UInt8)) : Prop :=
  ∃ more, state.1.stream ++ more = content ∧ state.1.total + more.length = total ∧
    Pending more rest state.2

/-- The sink holds the content, and the rest is left on the stream. -/
structure Copied (content rest : List UInt8) (total : Nat)
    (state : CopySink (List UInt8) × Archive (List UInt8)) : Prop where
  sink : state.1.stream = content
  total : state.1.total = total
  stream : state.2.stream = rest

/-- **A round of extracting** decides whether what is to be copied is the content of the entry. -/
theorem copying_iff_extractRound {count : Nat} (hcount : 0 < count) {content rest : List UInt8}
    {total : Nat} {start : CopySink (List UInt8) × Archive (List UInt8)}
    (hstart : start.2.state.IsInsideEntry) :
    Copying content rest total start ↔ ∃ round final, extractRound count start = .ok round final ∧
      round.elim (Copying content rest total final) fun _ => Copied content rest total final := by
  obtain ⟨⟨held, size⟩, handle⟩ := start
  constructor
  · -- What a round takes moves from the content that is ahead to the sink.
    rintro ⟨more, rfl, rfl, hpending⟩
    obtain ⟨taken, final, hread, hgiven⟩ := (pending_iff_readFileData hcount hstart).mp hpending
    rcases hgiven with ⟨hne, more, rfl, hfinal⟩ | ⟨rfl, rfl, hrest⟩
    · refine ⟨none, _, extractRound_eq_ok.mpr ⟨taken, final, hread, .inr ⟨hne, rfl, rfl⟩⟩, more,
        List.append_assoc _ _ _, ?_, hfinal⟩
      rw [List.length_append, Nat.add_assoc]
    · refine ⟨some (), _, extractRound_eq_ok.mpr ⟨[], final, hread, .inl ⟨rfl, rfl, rfl⟩⟩, ?_, rfl,
        hrest⟩
      rw [List.append_nil]
  · rintro ⟨round, final, hround, hafter⟩
    obtain ⟨taken, middle, hread, ⟨rfl, rfl, rfl⟩ | ⟨hne, rfl, rfl⟩⟩ :=
      extractRound_eq_ok.mp hround
    · obtain ⟨rfl, rfl, hrest⟩ := hafter
      refine ⟨[], List.append_nil _, rfl, ?_⟩
      exact (pending_iff_readFileData hcount hstart).mpr
        ⟨[], middle, hread, .nothing rfl rfl hrest⟩
    · obtain ⟨more, rfl, rfl, hpending⟩ := hafter
      refine ⟨taken ++ more, (List.append_assoc _ _ _).symm, ?_, ?_⟩
      · rw [List.length_append, Nat.add_assoc]
      · exact (pending_iff_readFileData hcount hstart).mpr
          ⟨taken, middle, hread, .piece hne more rfl hpending⟩

/-- A round of extracting leaves the handle inside the content if it asks for another one, and behind
it otherwise. -/
theorem isInside_of_extractRound {count : Nat} (hcount : 0 < count)
    {start final : CopySink (List UInt8) × Archive (List UInt8)} {round : Option Unit}
    (hstart : start.2.state.IsInsideEntry) (h : extractRound count start = .ok round final) :
    (round = none → final.2.state.IsInsideEntry) ∧
      (round ≠ none → final.2.state.IsBehindEntry) := by
  obtain ⟨⟨held, total⟩, handle⟩ := start
  obtain ⟨taken, middle, hread, hcases⟩ := extractRound_eq_ok.mp h
  have hafter := isAfter_of_readFileData hcount hstart hread
  rcases hcases with ⟨hnil, rfl, rfl⟩ | ⟨hne, rfl, rfl⟩
  · exact ⟨nofun, fun _ => hafter.behind hnil⟩
  · exact ⟨fun _ => hafter.inside hne, fun h => absurd rfl h⟩

/-- **The rounds of extracting** decide whether what is to be copied is the content of the entry. -/
theorem copying_iff_extractRounds {content rest : List UInt8} {total : Nat}
    {copy : CopySink (List UInt8)} {opened : Archive (List UInt8)}
    (hopened : opened.state.IsInsideEntry) : Copying content rest total (copy, opened) ↔
      ∃ value final, repeatUntil (extractRound opened.state.options.copySize) copyBudget
        (extractRound_spends _) (copy, opened) = .ok value final ∧
        Copied content rest total final :=
  have hcount : 0 < opened.state.options.copySize := Nat.le_max_right _ 1
  repeatUntil_iff (fun state => state.2.state.IsInsideEntry) (Copying content rest total)
    (fun _ => Copied content rest total)
    (fun _ _ hmiddle hround => (isInside_of_extractRound hcount hmiddle hround).1 rfl)
    (fun _ hmiddle => copying_iff_extractRound hcount hmiddle) hopened

/-- Between two entries extraction starts with the metadata of the next one. -/
theorem beginExtract_eq_ok {stream : σ} [ByteSource σ] {state : HandleState}
    (hstate : state.IsBetweenEntries) {final : Archive σ} :
    beginExtract ⟨stream, state⟩ = .ok () final ↔
      ∃ info, currentFileInfo ⟨stream, state⟩ = .ok info final := by
  have hexpect : expectReading "extract" ⟨stream, state⟩ = .ok () ⟨stream, state⟩ :=
    expectReading_eq_ok.mpr ⟨⟨_, hstate.mode⟩, rfl⟩
  rw [beginExtract, bind_of_ok hexpect, bind_of_ok (state_apply _)]
  simp only [hstate.unpacker, bind_eq_ok]
  constructor
  · rintro ⟨info, _, hrun, hpure⟩
    obtain ⟨-, rfl⟩ := pure_eq_ok.mp hpure
    exact ⟨info, hrun⟩
  · rintro ⟨info, hrun⟩
    exact ⟨info, final, hrun, rfl⟩

/-- Inside an entry extraction goes on from where the handle stands. -/
theorem beginExtract_of_isInside [ByteSource σ] {opened : Archive σ}
    (hopened : opened.state.IsInsideEntry) : beginExtract opened = .ok () opened := by
  have hexpect : expectReading "extract" opened = .ok () opened :=
    expectReading_eq_ok.mpr ⟨hopened.exists_reading, rfl⟩
  rw [beginExtract, bind_of_ok hexpect, bind_of_ok (state_apply opened)]
  simp only [hopened.unpacker]
  rfl

/-- Behind the metadata of an entry extraction goes on as from in front of it. -/
theorem extract_of_currentFileInfo [ByteSource σ] [ByteSink τ] {stream : σ} {state : HandleState}
    (hstate : state.IsBetweenEntries) {info : EntryInfo} {opened : Archive σ}
    (hinfo : currentFileInfo ⟨stream, state⟩ = .ok info opened)
    (hopened : opened.state.IsInsideEntry) (copy : CopySink τ) :
    extract (copy, opened) = extract (copy, ⟨stream, state⟩) := by
  -- from either place extraction starts its rounds on the same handle
  have hbegin : beginExtract ⟨stream, state⟩ = .ok () opened :=
    (beginExtract_eq_ok hstate).mpr ⟨info, hinfo⟩
  rw [extract, bind_of_ok (lift_eq_ok.mpr ⟨opened, beginExtract_of_isInside hopened, rfl⟩),
    bind_of_ok (lift_eq_ok.mpr ⟨opened, hbegin, rfl⟩)]

/-- Behind its beginning extraction repeats rounds and then leaves the entry. -/
theorem extract_eq_ok_of_begin {handle opened : Archive (List UInt8)}
    (hbegin : beginExtract handle = .ok () opened) {copy copied : CopySink (List UInt8)}
    {final : Archive (List UInt8)} : extract (copy, handle) = .ok () (copied, final) ↔
      ∃ rest behind, repeatUntil (extractRound opened.state.options.copySize) copyBudget
        (extractRound_spends _) (copy, opened) = .ok () (copied, ⟨rest, behind⟩) ∧
      final = ⟨rest, { behind with
        entry := {}
        currentFile? := none
        unpacker := .fileHeader }⟩ := by
  have hlift : Call.lift beginExtract (copy, handle) = .ok () (copy, opened) :=
    lift_eq_ok.mpr ⟨opened, hbegin, rfl⟩
  have hoptions : (Call.lift Call.state : CallWith (CopySink (List UInt8)) _ _) (copy, opened)
      = .ok opened.state (copy, opened) := rfl
  rw [extract, bind_of_ok hlift, bind_of_ok hoptions, bind_eq_ok]
  constructor
  · -- the rounds end on some handle, of which only the entry is forgotten
    rintro ⟨_, ⟨_, rest, behind⟩, hrounds, hfinish⟩
    cases hfinish
    exact ⟨rest, behind, hrounds, rfl⟩
  · rintro ⟨rest, behind, hrounds, rfl⟩
    exact ⟨(), _, hrounds, rfl⟩

/-- **Extracting from inside** an entry finds what is ahead of the handle. -/
theorem exists_remaining_of_extract {handle final : Archive (List UInt8)}
    (hinside : handle.state.IsInsideEntry) {copy copied : CopySink (List UInt8)}
    (hrun : extract (copy, handle) = .ok () (copied, final)) :
    ∃ content, Remaining content final.stream handle := by
  obtain ⟨rest, behind, hrounds, rfl⟩ :=
    (extract_eq_ok_of_begin (beginExtract_of_isInside hinside)).mp hrun
  have hcopied : Copied copied.stream rest copied.total (copied, ⟨rest, behind⟩) := ⟨rfl, rfl, rfl⟩
  obtain ⟨content, -, -, hpending⟩ :=
    (copying_iff_extractRounds hinside).mpr ⟨(), _, hrounds, hcopied⟩
  exact ⟨content, hpending.remaining⟩

/-- From inside an entry what is ahead of the handle can be extracted if it is the content. -/
theorem exists_extract_of_pending {opened : Archive (List UInt8)} {content rest : List UInt8}
    (hinside : opened.state.IsInsideEntry) (hpending : Pending content rest opened)
    (copy : CopySink (List UInt8)) :
    ∃ copied behind, extract (copy, opened) = .ok () (copied, ⟨rest, behind⟩) := by
  have hcopying : Copying (copy.stream ++ content) rest (copy.total + content.length)
    (copy, opened) := ⟨content, rfl, rfl, hpending⟩
  obtain ⟨_, ⟨copied, _, behind⟩, hrounds, hcopied⟩ :=
    (copying_iff_extractRounds hinside).mp hcopying
  obtain rfl := hcopied.stream
  exact ⟨copied, _, (extract_eq_ok_of_begin (beginExtract_of_isInside hinside)).mpr
    ⟨_, behind, hrounds, rfl⟩⟩

/-- Extraction reads the metadata, repeats rounds, and leaves the entry. -/
theorem extract_eq_ok {bytes : List UInt8} {state : HandleState} (hstate : state.IsBetweenEntries)
    {copy final : CopySink (List UInt8)} {handle : Archive (List UInt8)} :
    extract (copy, ⟨bytes, state⟩) = .ok () (final, handle) ↔ ∃ info opened rest behind,
      currentFileInfo ⟨bytes, state⟩ = .ok info opened ∧
      repeatUntil (extractRound opened.state.options.copySize) copyBudget (extractRound_spends _)
        (copy, opened) = .ok () (final, ⟨rest, behind⟩) ∧
      handle = ⟨rest, { behind with
        entry := {}
        currentFile? := none
        unpacker := .fileHeader }⟩ := by
  constructor
  · intro h
    obtain ⟨_, _, hlift, -⟩ := bind_eq_ok.mp h
    obtain ⟨opened, hbegin, -⟩ := lift_eq_ok.mp hlift
    obtain ⟨info, hinfo⟩ := (beginExtract_eq_ok hstate).mp hbegin
    obtain ⟨rest, behind, hparts⟩ := (extract_eq_ok_of_begin hbegin).mp h
    exact ⟨info, opened, rest, behind, hinfo, hparts⟩
  · rintro ⟨info, opened, rest, behind, hinfo, hparts⟩
    have hbegin := (beginExtract_eq_ok hstate).mpr ⟨info, hinfo⟩
    exact (extract_eq_ok_of_begin hbegin).mpr ⟨rest, behind, hparts⟩

/-- The sink holds something more than at the start, and the total has grown as much. -/
def Grown (held : List UInt8) (total : Nat) (copy : CopySink (List UInt8)) : Prop :=
  ∃ more, copy = ⟨held ++ more, total + more.length⟩

/-- A round of extracting appends to the sink. -/
theorem grown_of_extractRound {count total : Nat} {held : List UInt8}
    {start final : CopySink (List UInt8) × Archive (List UInt8)} {round : Option Unit}
    (hstart : Grown held total start.1) (h : extractRound count start = .ok round final) :
    Grown held total final.1 := by
  obtain ⟨_, handle⟩ := start
  obtain ⟨more, rfl⟩ := hstart
  obtain ⟨taken, middle, -, ⟨-, -, rfl⟩ | ⟨-, -, rfl⟩⟩ := extractRound_eq_ok.mp h
  · exact ⟨more, rfl⟩
  · refine ⟨more ++ taken, ?_⟩
    rw [List.append_assoc, List.length_append, Nat.add_assoc]

/-- Extraction appends to the sink and ends between two entries. -/
theorem isBetween_of_extract {bytes held : List UInt8} {total : Nat} {state : HandleState}
    (hstate : state.IsBetweenEntries) {final : CopySink (List UInt8)}
    {handle : Archive (List UInt8)}
    (hrun : extract (⟨held, total⟩, ⟨bytes, state⟩) = .ok () (final, handle)) :
    handle.state.IsBetweenEntries ∧ Grown held total final := by
  obtain ⟨info, opened, rest, behind, hinfo, hloop, rfl⟩ := (extract_eq_ok hstate).mp hrun
  have hcount : 0 < opened.state.options.copySize := Nat.le_max_right _ 1
  revert hloop
  -- every round keeps the handle inside the entry and what the sink held at its front
  refine repeatUntil_induction
    (fun state => state.2.state.IsInsideEntry ∧ Grown held total state.1)
    (fun outcome => outcome = .ok () (final, ⟨rest, behind⟩) →
      HandleState.IsBetweenEntries _ ∧ Grown held total final) ?_ ?_ ?_ (⟨held, total⟩, opened)
    ⟨isInside_of_currentFileInfo hstate hinfo, [], by rw [List.append_nil]; rfl⟩
  · rintro _ _ ⟨hinside, hgrown⟩ hround
    exact ⟨(isInside_of_extractRound hcount hinside hround).1 rfl,
      grown_of_extractRound hgrown hround⟩
  · rintro _ _ _ ⟨hinside, hgrown⟩ hround heq
    cases heq
    exact ⟨⟨((isInside_of_extractRound hcount hinside hround).2 nofun).mode, rfl⟩,
      grown_of_extractRound hgrown hround⟩
  · rintro _ _ _ _ _ heq
    cases heq

/-- **Extraction accepts exactly the entries.** From a list it succeeds, giving this content and
leaving this rest, if and only if the list is an entry with that content and then the rest. -/
theorem isEntry_iff_extract {bytes content rest held : List UInt8} {total : Nat}
    {state : HandleState} (hstate : state.IsBetweenEntries) :
    (∃ info first later, IsEntry info first later ∧
      bytes = segmentBytes (first :: later) ++ rest ∧ content = contentOf (first :: later)) ↔
    ∃ final, extract (⟨held, total⟩, ⟨bytes, state⟩)
      = .ok () (⟨held ++ content, total + content.length⟩, ⟨rest, final⟩) := by
  constructor
  · rintro ⟨info, hparts⟩
    obtain ⟨opened, hinfo, hpending⟩ := (isEntry_iff_currentFileInfo hstate).mp hparts
    have hcopying : Copying (held ++ content) rest (total + content.length)
      (⟨held, total⟩, opened) := ⟨content, rfl, rfl, hpending⟩
    obtain ⟨_, ⟨⟨_, _⟩, _, behind⟩, hrun, rfl, rfl, rfl⟩ :=
      (copying_iff_extractRounds (isInside_of_currentFileInfo hstate hinfo)).mp hcopying
    exact ⟨_, (extract_eq_ok hstate).mpr ⟨info, opened, _, behind, hinfo, hrun, rfl⟩⟩
  · rintro ⟨final, hextract⟩
    obtain ⟨info, opened, _, behind, hinfo, hrun, heq⟩ := (extract_eq_ok hstate).mp hextract
    obtain ⟨rfl, rfl⟩ := Archive.mk.inj heq
    obtain ⟨more, hmore, -, hpending⟩ :=
      (copying_iff_extractRounds (isInside_of_currentFileInfo hstate hinfo)).mpr
        ⟨(), _, hrun, rfl, rfl, rfl⟩
    obtain rfl : more = content := List.append_cancel_left hmore
    exact ⟨info, (isEntry_iff_currentFileInfo hstate).mpr ⟨opened, hinfo, hpending⟩⟩

/-! ## Reading in pieces -/

section Pieces

variable [ByteSource σ]

/-- Reads content with buffers of the given lengths, one after another, and gives all of it. -/
def readPieces : List Nat → Call σ (List UInt8)
  | [] => pure []
  | count :: counts => do
    let taken ← readFileData count
    let more ← readPieces counts
    pure (taken ++ more)

/-- Reads the metadata of the next entry and then its content with buffers of the given lengths. -/
def readEntry (counts : List Nat) : Call σ (EntryInfo × List UInt8) := do
  let info ← currentFileInfo
  let content ← readPieces counts
  pure (info, content)

/-- What is read in pieces is taken from the stream. -/
theorem readPieces_spends (counts : List Nat) :
    Spends readBudget List.length (readPieces counts : Call σ (List UInt8)) := by
  induction counts with
  | nil => exact Spends.pure [] rfl
  | cons count counts ih =>
    refine Spends.bind (fun taken result => result.length - taken.length)
      (readFileData_spends count) (fun taken => ?_) fun _ _ => by omega
    refine Spends.bind (fun more result => result.length - taken.length - more.length) ih
      (fun more => Spends.pure _ ?_) fun _ _ => by omega
    rw [List.length_append]
    omega

end Pieces

/-- A buffer of length zero takes nothing. -/
theorem readFileData_zero {start : Archive (List UInt8)} (hstart : start.state.IsInsideEntry) :
    readFileData 0 start = .ok [] start := by
  have hexpect : expectReading "read_file_data" start = .ok () start :=
    expectReading_eq_ok.mpr ⟨hstart.exists_reading, rfl⟩
  rw [readFileData, bind_of_ok hexpect, bind_of_ok (state_apply start)]
  simp only [hstart.unpacker]
  rfl

/-- Behind the content no buffer takes anything. -/
theorem readFileData_behind (count : Nat) {start : Archive (List UInt8)}
    (hstart : start.state.IsBehindEntry) : readFileData count start = .ok [] start := by
  have hexpect : expectReading "read_file_data" start = .ok () start :=
    expectReading_eq_ok.mpr ⟨⟨_, hstart.mode⟩, rfl⟩
  rw [readFileData, bind_of_ok hexpect, bind_of_ok (state_apply start)]
  simp only [hstart.unpacker]
  rfl

/-- Behind the content extracting takes nothing. -/
theorem stream_of_extract_behind {handle final : Archive (List UInt8)}
    (hbehind : handle.state.IsBehindEntry) {copy copied : CopySink (List UInt8)}
    (hrun : extract (copy, handle) = .ok () (copied, final)) : final.stream = handle.stream := by
  have hexpect : expectReading "extract" handle = .ok () handle :=
    expectReading_eq_ok.mpr ⟨⟨_, hbehind.mode⟩, rfl⟩
  have hbegin : beginExtract handle = .ok () handle := by
    rw [beginExtract, bind_of_ok hexpect, bind_of_ok (state_apply handle), hbehind.unpacker]
    rfl
  obtain ⟨rest, left, hrounds, rfl⟩ := (extract_eq_ok_of_begin hbegin).mp hrun
  -- the first round finds that there is nothing to copy
  have hround : extractRound handle.state.options.copySize (copy, handle)
      = .ok (some ()) (copy, handle) :=
    extractRound_eq_ok.mpr ⟨[], handle, readFileData_behind _ hbehind, .inl ⟨rfl, rfl, rfl⟩⟩
  rw [repeatUntil_apply, hround] at hrounds
  cases hrounds
  rfl

/-- Behind an entry no piece is left. -/
theorem readPieces_behind (counts : List Nat) {start : Archive (List UInt8)}
    (hstart : start.state.IsBehindEntry) : readPieces counts start = .ok [] start := by
  induction counts with
  | nil => rfl
  | cons count counts ih =>
    rw [readPieces, bind_of_ok (readFileData_behind count hstart), bind_of_ok ih]
    rfl

/-- The number of buffers that have room for something. -/
def usable (counts : List Nat) : Nat := counts.countP fun count => 0 < count

/-- A buffer without room does not count. -/
theorem usable_cons_zero (counts : List Nat) : usable (0 :: counts) = usable counts := by
  rw [usable, List.countP_cons_of_neg (by decide), usable]

/-- A buffer with room counts. -/
theorem usable_cons_of_pos {count : Nat} (h : 0 < count) (counts : List Nat) :
    usable (count :: counts) = usable counts + 1 := by
  rw [usable, List.countP_cons_of_pos (by simpa using h), usable]

/-- **Buffers of any lengths** take the content from its front, and all of it if there are more of
them than the content has bytes. -/
theorem readPieces_of_pending {content rest : List UInt8} {start : Archive (List UInt8)}
    (hstart : start.state.IsInsideEntry) (hpending : Pending content rest start)
    (counts : List Nat) : ∃ taken more final, readPieces counts start = .ok taken final ∧
      content = taken ++ more ∧ (usable counts ≤ taken.length ∨
        more = [] ∧ final.stream = rest ∧ final.state.IsBehindEntry) := by
  induction counts generalizing content start with
  | nil => exact ⟨[], content, start, rfl, rfl, .inl (Nat.le_refl _)⟩
  | cons count counts ih =>
    rcases Nat.eq_zero_or_pos count with rfl | hcount
    · obtain ⟨taken, more, final, hrun, hcontent, hend⟩ := ih hstart hpending
      refine ⟨taken, more, final, ?_, hcontent, ?_⟩
      · rw [readPieces, bind_of_ok (readFileData_zero hstart), bind_of_ok hrun]
        rfl
      · rwa [usable_cons_zero]
    · obtain ⟨taken, middle, hread, hgiven⟩ := (pending_iff_readFileData hcount hstart).mp hpending
      have hafter := isAfter_of_readFileData hcount hstart hread
      rcases hgiven with ⟨hne, more, rfl, hmore⟩ | ⟨rfl, rfl, hrest⟩
      · obtain ⟨taken', more', final, hrun, rfl, hend⟩ := ih (hafter.inside hne) hmore
        refine ⟨taken ++ taken', more', final, ?_, (List.append_assoc _ _ _).symm, ?_⟩
        · rw [readPieces, bind_of_ok hread, bind_of_ok hrun]
          rfl
        · have hpos := List.length_pos_iff.mpr hne
          rw [usable_cons_of_pos hcount, List.length_append]
          exact hend.imp_left fun hle => by omega
      · have hbehind := hafter.behind rfl
        refine ⟨[], [], middle, ?_, rfl, .inr ⟨rfl, hrest, hbehind⟩⟩
        rw [readPieces, bind_of_ok hread, bind_of_ok (readPieces_behind counts hbehind)]
        rfl

/-- Buffers of any lengths either had room for no more than they took, or took the content of the
entry. -/
theorem pending_of_readPieces {counts : List Nat} {taken : List UInt8}
    {start final : Archive (List UInt8)} (hstart : start.state.IsInsideEntry)
    (hrun : readPieces counts start = .ok taken final) :
    usable counts ≤ taken.length ∨ Pending taken final.stream start := by
  induction counts generalizing start taken with
  | nil => exact .inl (Nat.zero_le _)
  | cons count counts ih =>
    rw [readPieces, bind_eq_ok] at hrun
    obtain ⟨front, middle, hread, hrun⟩ := hrun
    obtain ⟨back, last, hmore, hpure⟩ := bind_eq_ok.mp hrun
    obtain ⟨rfl, rfl⟩ := pure_eq_ok.mp hpure
    rcases Nat.eq_zero_or_pos count with rfl | hcount
    · -- A buffer without room does not count and changes nothing.
      rw [readFileData_zero hstart] at hread
      cases hread
      rw [usable_cons_zero, List.nil_append]
      exact ih hstart hmore
    · have hafter := isAfter_of_readFileData hcount hstart hread
      by_cases hnil : front = []
      · -- The content is at its end, so the front was the last piece.
        rw [readPieces_behind counts (hafter.behind hnil)] at hmore
        cases hmore
        rw [hnil]
        exact .inr ((pending_iff_readFileData hcount hstart).mpr
          ⟨front, middle, hread, .nothing hnil rfl rfl⟩)
      · have hpos := List.length_pos_iff.mpr hnil
        rw [usable_cons_of_pos hcount, List.length_append]
        rcases ih (hafter.inside hnil) hmore with hle | hpending
        · exact .inl (by omega)
        · exact .inr ((pending_iff_readFileData hcount hstart).mpr
            ⟨front, middle, hread, .piece hnil back rfl hpending⟩)

/-- An entry is read by its metadata and then in pieces. -/
theorem readEntry_eq_ok {counts : List Nat} {start final : Archive σ} [ByteSource σ]
    {info : EntryInfo} {content : List UInt8} : readEntry counts start = .ok (info, content) final ↔
      ∃ opened, currentFileInfo start = .ok info opened ∧
        readPieces counts opened = .ok content final := by
  simp only [readEntry, bind_eq_ok]
  constructor
  · rintro ⟨_, opened, hinfo, _, _, hpieces, hpure⟩
    obtain ⟨heq, rfl⟩ := pure_eq_ok.mp hpure
    cases heq
    exact ⟨opened, hinfo, hpieces⟩
  · rintro ⟨opened, hinfo, hpieces⟩
    exact ⟨info, opened, hinfo, content, final, hpieces, rfl⟩

/-- **Reading in pieces accepts exactly the entries** if there are enough buffers. -/
theorem startsWithEntry_iff_readEntry {bytes : List UInt8} {state : HandleState}
    (hstate : state.IsBetweenEntries) {counts : List Nat} (hcounts : bytes.length < usable counts) :
    StartsWithEntry bytes ↔ ∃ result final, readEntry counts ⟨bytes, state⟩ = .ok result final := by
  constructor
  · rintro ⟨info, first, later, rest, hparts⟩
    obtain ⟨opened, hinfo, hpending⟩ := (isEntry_iff_currentFileInfo hstate).mp
      ⟨first, later, hparts.1, hparts.2, rfl⟩
    obtain ⟨taken, _, final, hrun, -, -⟩ :=
      readPieces_of_pending (isInside_of_currentFileInfo hstate hinfo) hpending counts
    exact ⟨_, final, readEntry_eq_ok.mpr ⟨opened, hinfo, hrun⟩⟩
  · rintro ⟨⟨info, content⟩, final, hrun⟩
    obtain ⟨opened, hinfo, hpieces⟩ := readEntry_eq_ok.mp hrun
    -- what was read was taken from the stream, so enough buffers cannot all have been filled
    have hspent := (readPieces_spends counts).of_ok hpieces
    have hopened := currentFileInfo_spends.of_ok hinfo
    rcases pending_of_readPieces (isInside_of_currentFileInfo hstate hinfo) hpieces with
      hle | hpending
    · have hbudget : final.readBudget + content.length ≤ bytes.length :=
        Nat.le_trans hspent (Nat.le_trans (Nat.le_add_right _ _) hopened)
      omega
    · obtain ⟨first, later, hentry, hbytes, -⟩ :=
        (isEntry_iff_currentFileInfo hstate).mpr ⟨opened, hinfo, hpending⟩
      exact ⟨info, first, later, _, hentry, hbytes⟩

/-! ## From lists to streams and sinks -/

section Simulations

variable {τ' ρ : Type} {holds : τ → List UInt8 → Prop}

/-- Related sinks, with the same total. -/
structure SameCopy (sinks : τ → τ' → Prop) (first : CopySink τ) (second : CopySink τ') : Prop where
  stream : sinks first.stream second.stream
  total : first.total = second.total

/-- Sinks that are written alike are delivered to alike. -/
theorem simulates_deliver_of_writeAll [ByteSink τ] [ByteSink τ'] {sinks : τ → τ' → Prop}
    (h : ∀ bytes, Simulates sinks (writeAll bytes) (writeAll bytes)) (bytes : List UInt8) :
    Simulates (SameCopy sinks) (deliver bytes) (deliver bytes) := by
  rintro ⟨sink, total⟩ ⟨sink', _⟩ ⟨hstream, rfl⟩
  have hrun := h bytes sink sink' hstream
  rw [deliver, deliver]
  revert hrun
  generalize writeAll bytes sink = result
  generalize writeAll bytes sink' = result'
  rintro (⟨hfinal⟩ | ⟨hfinal⟩)
  · exact .ok ⟨hfinal, rfl⟩
  · exact .error ⟨hfinal, rfl⟩

/-- Bytes are delivered alike to collecting sinks. -/
theorem simulates_deliver [ByteSink τ] (hsink : IsCollector holds) (bytes : List UInt8) :
    Simulates (SameCopy holds) (deliver bytes) (deliver bytes) := by
  refine simulates_deliver_of_writeAll (fun bytes sink held hstream => ?_) bytes
  obtain ⟨final, hrun, hfinal⟩ := hsink.writeAll hstream bytes
  obtain ⟨_, hlist, rfl⟩ := isCollector_eq.writeAll (rfl : held = held) bytes
  rw [hrun, hlist]
  exact .ok hfinal

variable [ByteSource σ] [ByteSource ρ] {streams : σ → ρ → Prop}

/-- Pieces of content are the same on streams that are read alike. -/
theorem simulates_readPieces (h : ReadsAlike streams) (counts : List Nat) :
    Simulates (Related streams) (readPieces counts) (readPieces counts) := by
  induction counts with
  | nil => exact .pure []
  | cons count counts ih =>
    exact (simulates_readFileData h count).bind fun _ => ih.bind fun _ => .pure _

/-- **Reading an entry** does the same on streams that are read alike. -/
theorem simulates_readEntry (h : ReadsAlike streams) (counts : List Nat) :
    Simulates (Related streams) (readEntry counts) (readEntry counts) :=
  (simulates_currentFileInfo h).bind fun _ => (simulates_readPieces h counts).bind fun _ => .pure _

/-- Extraction starts alike on streams that are read alike. -/
theorem simulates_beginExtract (h : ReadsAlike streams) :
    Simulates (Related streams) beginExtract beginExtract := by
  refine (simulates_expectReading _).bind fun _ => simulates_state.bind fun state => ?_
  rcases state.unpacker with _ | _ | _ | _
  · exact .throw _
  · exact (simulates_currentFileInfo h).bind fun _ => .pure ()
  · exact .pure ()
  · exact .pure ()

/-- Rounds of extracting do the same if what they copy is delivered alike. -/
theorem simulates_extractRound [ByteSink τ] [ByteSink τ']
    {values : CopySink τ → CopySink τ' → Prop} (h : ReadsAlike streams)
    (hvalues : ∀ bytes, Simulates values (deliver bytes) (deliver bytes))
    (count : Nat) :
    Simulates (Paired values streams) (extractRound count) (extractRound count) :=
  (simulates_lift (simulates_readFileData h _)).bind fun _ =>
    .ite (.pure _) ((CallWith.simulates_onValue (hvalues _)).bind fun _ => .pure _)

/-- Extraction does the same if what it copies is delivered alike. -/
theorem simulates_extractTo [ByteSink τ] [ByteSink τ']
    {values : CopySink τ → CopySink τ' → Prop} (h : ReadsAlike streams)
    (hvalues : ∀ bytes, Simulates values (deliver bytes) (deliver bytes)) :
    Simulates (Paired values streams) extract extract :=
  (simulates_lift (simulates_beginExtract h)).bind fun _ =>
    (simulates_lift simulates_state).bind fun _ =>
    (Simulates.repeatUntil (simulates_extractRound h hvalues _)).bind fun _ =>
    simulates_lift (simulates_update _)

/-- **Extraction** does the same on streams that are read alike. -/
theorem simulates_extract [ByteSink τ] (h : ReadsAlike streams)
    (hsink : IsCollector holds) :
    Simulates (Paired (SameCopy holds) streams) extract extract :=
  simulates_extractTo h (simulates_deliver hsink)

end Simulations

section Streams

variable [ByteSource σ] {stream : σ} {bytes : List UInt8} {state : HandleState}

/-- Extraction succeeds on a stream if it does on the list of the bytes. -/
theorem extract_iff_list [ByteSink τ] {holds : τ → List UInt8 → Prop} (hsink : IsCollector holds)
    {sink : τ} {held : List UInt8} (hheld : holds sink held) (hstream : Yields stream bytes) :
    (∃ final, extract ((⟨sink, 0⟩ : CopySink τ), ⟨stream, state⟩) = .ok () final) ↔
      ∃ final, extract ((⟨held, 0⟩ : CopySink (List UInt8)), ⟨bytes, state⟩) = .ok () final := by
  have hresult := simulates_extract Yields.isDelivery.readsAlike hsink
    (⟨sink, 0⟩, ⟨stream, state⟩) (⟨held, 0⟩, ⟨bytes, state⟩) ⟨⟨hheld, rfl⟩, hstream, rfl⟩
  constructor
  · rintro ⟨final, hrun⟩
    rw [hrun] at hresult
    obtain ⟨final', hlist, -⟩ := hresult.exists_ok_right
    exact ⟨final', hlist⟩
  · rintro ⟨final, hlist⟩
    rw [hlist] at hresult
    obtain ⟨final', hrun, -⟩ := hresult.exists_ok
    exact ⟨final', hrun⟩

/-- Extracting to an infallible sink does the same on the list of the bytes. -/
theorem exists_extract_list [ByteSink τ] {holds : τ → List UInt8 → Prop}
    (hsink : IsCollector holds) {handle final : Archive σ} {copy copied : CopySink τ}
    {bytes held : List UInt8} (hheld : holds copy.stream held) (hstream : Yields handle.stream bytes)
    (hrun : extract (copy, handle) = .ok () (copied, final)) :
    ∃ (kept : CopySink (List UInt8)) (rest : List UInt8),
      extract (⟨held, copy.total⟩, ⟨bytes, handle.state⟩) = .ok () (kept, ⟨rest, final.state⟩) ∧
      Yields final.stream rest := by
  have hresult := simulates_extract Yields.isDelivery.readsAlike hsink (copy, handle)
    (⟨held, copy.total⟩, ⟨bytes, handle.state⟩) ⟨⟨hheld, rfl⟩, hstream, rfl⟩
  rw [hrun] at hresult
  obtain ⟨⟨kept, rest, state⟩, hlist, -, hrest, hstate⟩ := hresult.exists_ok_right
  cases hstate
  exact ⟨kept, rest, hlist, hrest⟩

/-- An entry at the front of a stream is extracted to a sink. -/
theorem extract_of_isEntry [ByteSink τ] {holds : τ → List UInt8 → Prop} (hsink : IsCollector holds)
    {sink : τ} {held : List UInt8} (hheld : holds sink held) {info : EntryInfo} {first : Segment}
    {later : List Segment} {rest : List UInt8} (hstate : state.IsBetweenEntries)
    (hstream : Yields stream (segmentBytes (first :: later) ++ rest))
    (hentry : IsEntry info first later) : ∃ (copy : CopySink τ) (final : Archive σ),
      extract ((⟨sink, 0⟩ : CopySink τ), ⟨stream, state⟩) = .ok () (copy, final) ∧
        holds copy.stream (held ++ contentOf (first :: later)) ∧
        copy.total = (contentOf (first :: later)).length ∧
        Yields final.stream rest ∧ final.state.IsBetweenEntries := by
  obtain ⟨final, hlist⟩ := (isEntry_iff_extract hstate).mp ⟨info, first, later, hentry, rfl, rfl⟩
  -- the stream does what the list does, and the sink ends with what the list of bytes holds
  have hresult := simulates_extract Yields.isDelivery.readsAlike hsink
    (⟨sink, 0⟩, ⟨stream, state⟩) (⟨held, 0⟩, ⟨_, state⟩) ⟨⟨hheld, rfl⟩, hstream, rfl⟩
  rw [hlist] at hresult
  obtain ⟨⟨copy, handle⟩, hrun, ⟨hcopy, htotal⟩, hrest, hsame⟩ := hresult.exists_ok
  have hfinal := (isBetween_of_extract hstate hlist).1
  rw [← hsame] at hfinal
  exact ⟨copy, handle, hrun, hcopy, htotal.trans (Nat.zero_add _), hrest, hfinal⟩

/-- An entry at the front of a stream is read in pieces. -/
theorem readEntry_of_isEntry {info : EntryInfo} {first : Segment} {later : List Segment}
    {rest : List UInt8} (hstate : state.IsBetweenEntries)
    (hstream : Yields stream (segmentBytes (first :: later) ++ rest))
    (hentry : IsEntry info first later) (counts : List Nat) : ∃ taken more final,
      readEntry counts ⟨stream, state⟩ = .ok (info, taken) final ∧
        contentOf (first :: later) = taken ++ more ∧
        ((contentOf (first :: later)).length < usable counts →
          more = [] ∧ Yields final.stream rest ∧ final.state.IsBehindEntry) := by
  obtain ⟨opened, hinfo, hpending⟩ := (isEntry_iff_currentFileInfo hstate).mp
    ⟨first, later, hentry, rfl, rfl⟩
  obtain ⟨taken, more, ⟨left, behind⟩, hpieces, hcontent, hend⟩ :=
    readPieces_of_pending (isInside_of_currentFileInfo hstate hinfo) hpending counts
  obtain ⟨final, hrun, hfinal⟩ := exists_ok_of_yields
    (simulates_readEntry Yields.isDelivery.readsAlike counts) hstream
    (readEntry_eq_ok.mpr ⟨opened, hinfo, hpieces⟩)
  refine ⟨taken, more, _, hrun, hcontent, fun henough => ?_⟩
  -- with more buffers than content the last of them found the end
  rw [hcontent, List.length_append] at henough
  obtain ⟨hmore, rfl, hbehind⟩ := hend.resolve_left (by omega)
  exact ⟨hmore, hfinal, hbehind⟩

end Streams

/-- **Extraction accepts exactly the entries**, on every infallible stream and with every infallible
sink. It succeeds if and only if the stream goes on with the records of an entry; then the sink holds
the content behind what it held, the total is its length, and the handle stands behind the entry,
between two entries. Reading the metadata and then the content in pieces of any lengths gives the
same content, as far as the buffers reach. -/
theorem extract_accepts_entries [ByteSource σ] [ByteSink τ] {holds : τ → List UInt8 → Prop}
    (hsink : IsCollector holds) {sink : τ} {held : List UInt8} (hheld : holds sink held)
    {stream : σ} {bytes : List UInt8} (hstream : Yields stream bytes) {state : HandleState}
    (hstate : state.IsBetweenEntries) :
    (StartsWithEntry bytes ↔
      ∃ final, extract ((⟨sink, 0⟩ : CopySink τ), ⟨stream, state⟩) = .ok () final) ∧
    (∀ counts : List Nat, bytes.length < usable counts →
      (StartsWithEntry bytes ↔
        ∃ result final, readEntry counts ⟨stream, state⟩ = .ok result final)) ∧
    ∀ info first later rest, IsEntry info first later →
      bytes = segmentBytes (first :: later) ++ rest →
      (∃ (copy : CopySink τ) (final : Archive σ),
        extract ((⟨sink, 0⟩ : CopySink τ), ⟨stream, state⟩) = .ok () (copy, final) ∧
        holds copy.stream (held ++ contentOf (first :: later)) ∧
        copy.total = (contentOf (first :: later)).length ∧
        Yields final.stream rest ∧ final.state.IsBetweenEntries) ∧
      ∀ counts : List Nat, ∃ taken more final,
        readEntry counts ⟨stream, state⟩ = .ok (info, taken) final ∧
        contentOf (first :: later) = taken ++ more ∧
        ((contentOf (first :: later)).length < usable counts →
          more = [] ∧ Yields final.stream rest ∧ final.state.IsBehindEntry) := by
  -- Both ways are judged on the list of the bytes, which the stream and the sink simulate.
  refine ⟨?_, fun counts hcounts => ?_, ?_⟩
  · rw [extract_iff_list hsink hheld hstream]
    constructor
    · rintro ⟨info, first, later, rest, hentry, hbytes⟩
      obtain ⟨final, hlist⟩ := (isEntry_iff_extract hstate).mp
        ⟨info, first, later, hentry, hbytes, rfl⟩
      exact ⟨_, hlist⟩
    · rintro ⟨⟨copy, ⟨rest, final⟩⟩, hlist⟩
      obtain ⟨content, rfl⟩ := (isBetween_of_extract hstate hlist).2
      obtain ⟨info, first, later, hentry, hbytes, -⟩ :=
        (isEntry_iff_extract hstate).mpr ⟨final, hlist⟩
      exact ⟨info, first, later, rest, hentry, hbytes⟩
  · rw [startsWithEntry_iff_readEntry hstate hcounts]
    constructor
    · rintro ⟨result, ⟨rest, behind⟩, hlist⟩
      obtain ⟨final, hrun, -⟩ := exists_ok_of_yields
        (simulates_readEntry Yields.isDelivery.readsAlike counts) hstream hlist
      exact ⟨result, _, hrun⟩
    · rintro ⟨result, final, hrun⟩
      obtain ⟨rest, hlist, -⟩ := exists_ok_list_of_yields
        (simulates_readEntry Yields.isDelivery.readsAlike counts) hstream hrun
      exact ⟨result, _, hlist⟩
  · rintro info first later rest hentry rfl
    exact ⟨extract_of_isEntry hsink hheld hstate hstream hentry,
      readEntry_of_isEntry hstate hstream hentry⟩

/-- A file with two bytes of content is extracted from memory to memory. -/
theorem extract_accepts_entries_file :
    let header : Record := ⟨0, .fileHeader, 0x80, 0, 2, 0, (EntryInfo.regular "a").toBytes⟩
    let stream := MemoryStream.ofList (segmentBytes [⟨header.fixed, [104, 105]⟩])
    ∃ (copy : CopySink BoundedSink) (final : Archive MemoryStream),
      extract ((⟨{}, 0⟩ : CopySink BoundedSink),
        (⟨stream, { mode := .reading .atRecordHeader, unpacker := .fileHeader }⟩ :
          Archive MemoryStream)) = .ok () (copy, final) ∧
        copy.stream.bytes.toList = [104, 105] ∧ copy.total = 2 := by
  intro header stream
  have hfits : header.Fits := ⟨by decide, by decide +kernel⟩
  have hsound : (⟨header.fixed, [104, 105]⟩ : Segment).IsSound :=
    ⟨⟨rfl, hfits.size_fixed, by decide, fun _ => rfl⟩, by decide,
      fun _ hpresent => absurd hpresent (by decide)⟩
  have hentry : IsEntry (EntryInfo.regular "a") ⟨header.fixed, [104, 105]⟩ [] :=
    ⟨rfl, EntryInfo.parse_read_toBytes (by decide +kernel), nofun,
      List.forall_mem_singleton.mpr header.isValid_fixed, List.forall_mem_singleton.mpr hsound,
      by decide, nofun, nofun⟩
  have hbetween : ({ mode := .reading .atRecordHeader, unpacker := .fileHeader } :
      HandleState).IsBetweenEntries := ⟨rfl, rfl⟩
  have hempty : ({} : BoundedSink).room? = none ∧ ({} : BoundedSink).bytes.toList = [] := ⟨rfl, rfl⟩
  obtain ⟨-, -, hentries⟩ := extract_accepts_entries BoundedSink.isCollector hempty
    (MemoryStream.yields stream) hbetween
  obtain ⟨⟨copy, final, hrun, hcopy, htotal, -⟩, -⟩ :=
    hentries (EntryInfo.regular "a") ⟨header.fixed, [104, 105]⟩ [] [] hentry (List.append_nil _).symm
  exact ⟨copy, final, hrun, hcopy.2, htotal⟩

end Archive

end RecordArchive
