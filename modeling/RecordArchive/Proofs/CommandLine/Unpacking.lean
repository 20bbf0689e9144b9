import RecordArchive.Proofs.Archive.Walk
import RecordArchive.Proofs.CommandLine.Confinement
import RecordArchive.Proofs.CommandLine.Packing
import RecordArchive.Proofs.FileTree.Plan

/-! # What unpacking makes of an archive

An archive whose entries are the nodes of a plan is unpacked into an empty directory. Every entry finds
directories in its way or nothing, makes what is planned, and leaves what others have made.

* `checkPath_parentPath`: the path of a parent is accepted if that of the file is.
* `exists_unpackEntry`: one entry is unpacked, whatever was unpacked before it.
* `exists_unpack`: unpacking succeeds, skips nothing, and below the directory stands just what is
  planned.
* `checkPath_of_unpack`: unpacking fails if a path is not accepted. -/

open RecordArchive.Path (IsNormal)

namespace RecordArchive

open FileTree Program

namespace CommandLine

open OpenSession

variable {plan : Plan} {base : Location} {start : Session} {state : OpenSession}
  {directory path : String} {way : List String} {node : Node}

/-! ## Paths of parents -/

/-- The path of a parent is accepted if that of the file is. -/
theorem checkPath_parentPath (hdirectory : directory ≠ "")
    (h : checkPath (Path.join directory (Path.ofNames way)) = .ok ()) :
    checkPath (parentPath directory way) = .ok () := by
  have hnames : (Path.ofNames way.dropLast).toList <+: (Path.ofNames way).toList := by
    by_cases hne : way = []
    · rw [hne]
      exact List.prefix_rfl
    · have hway := Path.ofNames_isFront way.dropLast [way.getLast hne]
      rwa [List.dropLast_append_getLast] at hway
  exact checkPath_of_isFront (Path.trimEnd_ne_empty (Path.join_ne_empty hdirectory _))
    ((Path.trimEnd_isFront _).trans (Path.join_isFront hnames)) h

/-! ## Parts of the command -/

/-- A call that succeeds leaves the session alone. -/
theorem readArchive_of_ok {α : Type} {call : Call MemoryStream α} {value : α}
    {archive : Archive MemoryStream} (h : call state.archive = .ok value archive) :
    OpenSession.readArchive call state = .ok value { state with archive } := by
  rw [OpenSession.readArchive, h]

/-- Directories along a path below the directory are made if they are planned. -/
theorem exists_makeDirectories (hconfined : Confined base start state.toSession)
    (hleads : start.LeadsTo directory base) (hpath : Path.Continues directory path way)
    (hcheck : checkPath path = .ok ()) (hnames : ∀ name ∈ way, IsFileName name)
    (hplan : ∀ front, front ≠ [] → front <+: way → plan.node? front = some (.directory 0))
    (hobeys : Obeys plan base state.tree) :
    ∃ tree, OpenSession.makeDirectories path state = .ok () { state with tree } ∧
      Obeys plan base tree ∧ KeepsBelow base state.tree tree ∧
      ∀ front, front ≠ [] → front <+: way → tree.isDirectory (base ++ front) = true := by
  obtain ⟨front, hsteps, hfront⟩ := hconfined.exists_route hleads hpath
  obtain ⟨tree, hrun, hmade⟩ :=
    @Obeys.exists_makeSteps _ _ _ [] state.clock false way hnames hplan hobeys
  -- the steps of the directory itself need nothing to be made
  rw [List.append_nil, ← makeSteps_append hfront, ← hsteps] at hrun
  have hmake : Session.makeDirectories path state.toSession
      = .ok () { state.toSession with tree } := by
    rw [Session.makeDirectories, Route.ofPath_eq_ok.mpr ⟨hcheck, rfl⟩]
    simp only [FileTree.makeDirectories, hrun]
  refine ⟨tree, ?_, hmade⟩
  rw [OpenSession.makeDirectories, onSession, EStateM.adaptExcept, hmake]

/-- A file below the directory is made in a directory that is there. -/
theorem exists_createFile (hconfined : Confined base start state.toSession)
    (hleads : start.LeadsTo directory base) (hbeside : ¬ base <+: state.location)
    (hcheck : checkPath (Path.join directory (Path.ofNames way)) = .ok ()) (hne : way ≠ [])
    (hnames : ∀ name ∈ way, IsFileName name)
    (hparents : ∀ front, front ≠ [] → front <+: way.dropLast →
      state.tree.isDirectory (base ++ front) = true)
    (hfree : state.tree.isDirectory (base ++ way) = false) :
    OpenSession.createFile (Path.join directory (Path.ofNames way)) state = .ok (base ++ way)
      { state with tree := state.tree.insert (base ++ way) (.file #[] state.clock) } := by
  have hnormal : ∀ name ∈ way, IsNormal name := fun name hmem => (hnames name hmem).isNormal
  obtain ⟨front, hsteps, hfront⟩ :=
    hconfined.exists_route hleads (Path.continues_join hleads.1 hnormal)
  have hlast := List.getLast?_eq_some_getLast hne
  obtain ⟨hlastNormal, -, hshort⟩ := hnames _ (List.getLast_mem hne)
  -- the steps in front of the last one lead to the directory that holds the file
  have henter : state.tree.enter base way.dropLast = .ok (base ++ way.dropLast) :=
    enter_of_isDirectory (fun name hmem =>
      ⟨(hnormal name (List.dropLast_subset way hmem)).isName,
        (hnames name (List.dropLast_subset way hmem)).short⟩) hparents
  have hmake : state.tree.createFile (Route.along state.directory
      (Path.join directory (Path.ofNames way))) state.clock
        = .ok (base ++ way, state.tree.insert (base ++ way) (.file #[] state.clock)) := by
    refine FileTree.createFile_eq_ok.mpr ⟨base ++ way.dropLast, way.getLast hne, ?_, ?_,
      hlastNormal.isName, ?_, hshort, ?_, hfree, rfl⟩
    · rw [hsteps, List.dropLast_append_of_ne_nil hne, enter_append_of_ok hfront]
      exact henter
    · rw [hsteps, List.getLast?_append_of_ne_nil _ hne, hlast]
    · rw [Route.along, Path.getLast?_join _ (Path.ofNames_ne_empty hnormal hne)]
      exact decide_eq_false (Path.getLast?_ofNames hnormal hne)
    · rw [List.append_assoc, List.dropLast_append_getLast]
  have hcreate := Session.createFile_eq_ok.mpr ⟨hcheck, _, hmake, rfl⟩
  have hother : base ++ way ≠ state.location := fun heq => hbeside ⟨way, heq⟩
  rw [OpenSession.createFile, hcreate]
  simp only [emptied, if_neg hother]

/-! ## Entries -/

/-- **An entry that can be unpacked**: it is planned, and the system accepts its path. -/
structure Unpackable (plan : Plan) (directory : String) (way : List String) (node : Node) : Prop where
  ne_nil : way ≠ []
  planned : plan.node? way = some node.withoutTime
  checkPath : checkPath (Path.join directory (Path.ofNames way)) = .ok ()

namespace Unpackable

variable (h : Unpackable plan directory way node)
include h

/-- The way of a planned node is one of names for files. -/
theorem isFileName : ∀ name ∈ way, IsFileName name := plan.isFileName way _ h.planned

/-- The way of a planned node is one of normal names. -/
theorem isNormal : ∀ name ∈ way, IsNormal name := fun name hmem => (h.isFileName name hmem).isNormal

/-- What is planned above an entry are directories. -/
theorem parents (front : List String) (hne : front ≠ []) (hfront : front <+: way.dropLast) :
    plan.node? front = some (.directory 0) := by
  obtain ⟨more, hmore⟩ := hfront
  have hsplit := List.dropLast_append_getLast h.ne_nil
  rw [← hmore, List.append_assoc] at hsplit
  have hplanned := h.planned
  rw [← hsplit] at hplanned
  exact plan.directory_of_append hne (List.append_ne_nil_of_right_ne_nil _ (List.cons_ne_nil _ _))
    hplanned

end Unpackable

/-- **What one entry adds**: it stands at the end of its way, in directories, and everything else stays. -/
structure Advances (plan : Plan) (base : Location) (way : List String) (state final : OpenSession) :
    Prop where
  obeys : Obeys plan base final.tree
  keeps : KeepsBelow base state.tree final.tree
  there : ∀ front, front ≠ [] → front <+: way → (final.tree.find? (base ++ front)).isSome = true
  location : final.location = state.location
  warnings : final.warnings = state.warnings

/-- A directory is unpacked. -/
theorem exists_unpackDirectory {modified : Int} (hentry : Unpackable plan directory way (.directory modified))
    (hconfined : Confined base start state.toSession) (hleads : start.LeadsTo directory base)
    (hobeys : Obeys plan base state.tree) {archive : Archive MemoryStream}
    (hskip : Archive.skipFile state.archive = .ok () archive) :
    ∃ final, unpackDirectory directory way state = .ok () final ∧ final.archive = archive ∧
      Advances plan base way state final := by
  have hplan : ∀ front, front ≠ [] → front <+: way → plan.node? front = some (.directory 0) := by
    rintro front hne ⟨more, rfl⟩
    by_cases hmore : more = []
    · subst hmore
      have hplanned := hentry.planned
      rwa [List.append_nil] at hplanned
    · exact plan.directory_of_append hne hmore hentry.planned
  obtain ⟨tree, hmake, htree, hkeeps, hthere⟩ := exists_makeDirectories hconfined hleads
    (Path.continues_join hleads.1 hentry.isNormal) hentry.checkPath hentry.isFileName hplan hobeys
  refine ⟨{ state with tree, archive }, ?_, rfl, htree, hkeeps, fun front hne hfront => ?_, rfl, rfl⟩
  · rw [unpackDirectory, bind_of_ok hmake]
    exact readArchive_of_ok hskip
  · obtain ⟨modified, hfound⟩ := isDirectory_iff.mp (hthere front hne hfront)
    exact Option.isSome_iff_exists.mpr ⟨_, hfound⟩

/-- A file is unpacked. -/
theorem exists_unpackFile {bytes : Array UInt8} {modified : Int}
    (hentry : Unpackable plan directory way (.file bytes modified))
    (hconfined : Confined base start state.toSession) (hleads : start.LeadsTo directory base)
    (hbeside : ¬ base <+: state.location) (hobeys : Obeys plan base state.tree)
    {copy : CopySink BoundedSink} {archive : Archive MemoryStream}
    (hextract : Archive.extract ((⟨{}, 0⟩ : CopySink BoundedSink), state.archive)
      = .ok () (copy, archive)) (hcopy : copy.stream.bytes = bytes) :
    ∃ final, unpackFile directory way state = .ok () final ∧ final.archive = archive ∧
      Advances plan base way state final := by
  have hparentNames : ∀ name ∈ way.dropLast, IsFileName name :=
    fun name hmem => hentry.isFileName name (List.dropLast_subset way hmem)
  have hparentNormal : ∀ name ∈ way.dropLast, IsNormal name :=
    fun name hmem => (hparentNames name hmem).isNormal
  have hpath : Path.Continues directory (parentPath directory way) way.dropLast :=
    (Path.continues_join hleads.1 hparentNormal).trimEnd hparentNormal
  obtain ⟨tree, hmake, htree, hkeeps, hthere⟩ := exists_makeDirectories hconfined hleads hpath
    (checkPath_parentPath hleads.1 hentry.checkPath) hparentNames hentry.parents hobeys
  have hmade := (hconfined.makeDirectories_open hleads hpath hparentNormal).of_ok hmake
  -- no directory stands where the file is planned
  have hfree : tree.isDirectory (base ++ way) = false := by
    refine Bool.eq_false_iff.mpr fun hdirectory => ?_
    obtain ⟨time, hfound⟩ := isDirectory_iff.mp hdirectory
    cases (htree way _ hentry.ne_nil hfound).symm.trans hentry.planned
  have hcreate := exists_createFile hmade hleads hbeside hentry.checkPath hentry.ne_nil
    hentry.isFileName hthere hfree
  have hplanned : plan.node? way = some (Node.file copy.stream.bytes state.clock).withoutTime := by
    rw [hcopy]
    exact hentry.planned
  obtain ⟨hwritten, hwrites⟩ := htree.insert hplanned hentry.ne_nil
  refine ⟨{ state with archive, tree := tree.insert (base ++ way) (.file copy.stream.bytes state.clock) },
    ?_, rfl, hwritten, hkeeps.trans hwrites, fun front hne hfront => ?_, rfl, rfl⟩
  · rw [unpackFile, bind_of_ok hmake, bind_of_ok hcreate, extractTo]
    simp only [hextract, insert_insert]
  · by_cases heq : front = way
    · rw [heq, find?_insert_self _ (List.append_ne_nil_of_right_ne_nil _ hentry.ne_nil)]
      rfl
    · -- what stands above the file was made before it
      obtain ⟨more, rfl⟩ := hfront
      have hmore : more ≠ [] := fun hnil => heq (by rw [hnil, List.append_nil])
      obtain ⟨time, hfound⟩ := isDirectory_iff.mp (hthere front hne (by
        rw [List.dropLast_append_of_ne_nil hmore]
        exact List.prefix_append _ _))
      exact hwrites.isSome (Option.isSome_iff_exists.mpr ⟨_, hfound⟩)

/-- What unpacking a file collects is all that was written. -/
abbrev Collects (sink : BoundedSink) (held : List UInt8) : Prop :=
  sink.room? = none ∧ sink.bytes.toList = held

/-- The entry for a node at the end of a way, as it is read back. -/
def entryOf (placed : List String × Node) : EntryInfo × List UInt8 :=
  (placed.2.request (Path.ofNames placed.1)).entry

/-- The metadata that is read back says where the node belongs and what it is. -/
theorem entryOf_spec (way : List String) (node : Node) :
    (entryOf (way, node)).1.name = Path.ofNames way ∧ (entryOf (way, node)).1.kind = node.kind := by
  obtain ⟨hname, hkind, -, -⟩ := node.entryInfo_spec (Path.ofNames way)
  refine ⟨hname, ?_⟩
  rw [← node.ofByte_toByte_kind, ← hkind]
  rfl

/-- **One entry is unpacked**, and the walk goes on behind it. -/
theorem exists_unpackEntry (hentry : Unpackable plan directory way node)
    (hconfined : Confined base start state.toSession) (hleads : start.LeadsTo directory base)
    (hbeside : ¬ base <+: state.location) (hobeys : Obeys plan base state.tree)
    {more : List (EntryInfo × List UInt8)}
    (hskip : ∃ archive, Archive.skipFile state.archive = .ok () archive ∧
      Archive.Walks Collects more archive)
    (hextract : ∀ sink held, Collects sink held → ∃ (copy : CopySink BoundedSink)
      (archive : Archive MemoryStream),
      Archive.extract ((⟨sink, 0⟩ : CopySink BoundedSink), state.archive) = .ok () (copy, archive) ∧
      Collects copy.stream (held ++ node.content) ∧ Archive.Walks Collects more archive) :
    ∃ final, unpackEntry directory (entryOf (way, node)).1 state = .ok () final ∧
      Archive.Walks Collects more final.archive ∧ Advances plan base way state final := by
  obtain ⟨hname, hkind⟩ := entryOf_spec way node
  rw [unpackEntry, hname, hkind, Path.safeNames?_ofNames hentry.isNormal hentry.ne_nil]
  cases node with
  | directory modified =>
    obtain ⟨archive, hrun, hmore⟩ := hskip
    obtain ⟨final, hunpack, rfl, hfinal⟩ :=
      exists_unpackDirectory hentry hconfined hleads hobeys hrun
    exact ⟨final, hunpack, hmore, hfinal⟩
  | file bytes modified =>
    obtain ⟨copy, archive, hrun, ⟨-, hcopy⟩, hmore⟩ := hextract {} [] ⟨rfl, rfl⟩
    obtain ⟨final, hunpack, rfl, hfinal⟩ := exists_unpackFile hentry hconfined hleads hbeside hobeys
      hrun (Array.toList_inj.mp hcopy)
    refine ⟨_, (bind_of_ok hunpack).trans rfl, hmore, ?_⟩
    obtain ⟨hfinalObeys, hkeeps, hthere, hlocation, hwarnings⟩ := hfinal
    exact ⟨hfinalObeys, hkeeps, hthere, hlocation, hwarnings⟩

/-- **All entries are unpacked**, in the order in which the archive has them. -/
theorem exists_unpackRest (hleads : start.LeadsTo directory base)
    {placed : List (List String × Node)}
    (hplaced : ∀ entry ∈ placed, Unpackable plan directory entry.1 entry.2)
    (hconfined : Confined base start state.toSession) (hbeside : ¬ base <+: state.location)
    (hobeys : Obeys plan base state.tree)
    (hwalks : Archive.Walks Collects (placed.map entryOf) state.archive) :
    ∃ final, repeatUntil (unpackNext directory) readBudget (unpackNext_spends directory) state
        = .ok () final ∧
      Obeys plan base final.tree ∧ KeepsBelow base state.tree final.tree ∧
      (∀ entry ∈ placed, ∀ front, front ≠ [] → front <+: entry.1 →
        (final.tree.find? (base ++ front)).isSome = true) ∧
      final.warnings = state.warnings := by
  induction placed generalizing state with
  | nil =>
    obtain ⟨archive, hend⟩ := hwalks
    have hnext : unpackNext directory state = .ok (some ()) { state with archive } :=
      (bind_of_ok (readArchive_of_ok hend)).trans rfl
    refine ⟨{ state with archive }, ?_, hobeys, .refl, fun _ hmem => absurd hmem List.not_mem_nil, rfl⟩
    rw [repeatUntil_apply, hnext]
  | cons entry placed ih =>
    obtain ⟨way, node⟩ := entry
    obtain ⟨hentry, hmore⟩ := List.forall_mem_cons.mp hplaced
    obtain ⟨archive, hfound, hskip, hextract⟩ := hwalks
    let opened : OpenSession := { state with archive }
    have hopened : Confined base start opened.toSession := hconfined
    obtain ⟨middle, hunpack, hwalks, hmiddle⟩ :=
      exists_unpackEntry hentry hopened hleads hbeside hobeys hskip hextract
    have hnext : unpackNext directory state = .ok none middle :=
      (bind_of_ok (readArchive_of_ok hfound)).trans ((bind_of_ok hunpack).trans rfl)
    have hbehind := (confined_unpackEntry hleads hopened _).of_ok hunpack
    obtain ⟨final, hrest, hfinal, hkeeps, hthere, hwarnings⟩ :=
      ih hmore hbehind (hmiddle.location ▸ hbeside) hmiddle.obeys hwalks
    refine ⟨final, ?_, hfinal, hmiddle.keeps.trans hkeeps, ?_, hwarnings.trans hmiddle.warnings⟩
    · rw [repeatUntil_apply, hnext]
      exact hrest
    · rintro other hmem front hne hfront
      rcases List.mem_cons.mp hmem with rfl | hother
      · exact hkeeps.isSome (hmiddle.there front hne hfront)
      · exact hthere other hother front hne hfront

/-! ## Paths that are not accepted -/

/-- The path of directories that were made was accepted. -/
theorem checkPath_of_makeDirectories {final : OpenSession}
    (h : OpenSession.makeDirectories path state = .ok () final) : checkPath path = .ok () := by
  by_contra hcheck
  cases hroute : Route.ofPath state.directory path with
  | error error =>
    simp [OpenSession.makeDirectories, onSession, EStateM.adaptExcept, Session.makeDirectories, hroute] at h
  | ok route => exact hcheck (Route.ofPath_eq_ok.mp hroute).1

/-- **The path of an entry that was unpacked** was accepted. -/
theorem checkPath_of_unpackEntry (hway : ∀ name ∈ way, IsNormal name) (hne : way ≠ [])
    {final : OpenSession} (h : unpackEntry directory (entryOf (way, node)).1 state = .ok () final) :
    checkPath (Path.join directory (Path.ofNames way)) = .ok () := by
  obtain ⟨hname, hkind⟩ := entryOf_spec way node
  rw [unpackEntry, hname, hkind, Path.safeNames?_ofNames hway hne] at h
  cases node with
  | directory modified =>
    obtain ⟨_, _, hmake, -⟩ := bind_eq_ok.mp h
    exact checkPath_of_makeDirectories hmake
  | file bytes modified =>
    obtain ⟨_, _, hunpack, -⟩ := bind_eq_ok.mp h
    obtain ⟨_, middle, -, hmore⟩ := bind_eq_ok.mp hunpack
    obtain ⟨_, _, hcreate, -⟩ := bind_eq_ok.mp hmore
    rw [OpenSession.createFile] at hcreate
    cases hrun : Session.createFile (Path.join directory (Path.ofNames way)) middle.toSession with
    | ok location session => exact (Session.createFile_eq_ok.mp hrun).1
    | error error session => simp [hrun] at hcreate

/-! ## The command -/

section Command

variable {input : String} {spot : Location} {bytes : Array UInt8} {time : Int}

/-- Unpacking is a walk along the entries that the archive holds. -/
theorem exists_walks_unpack (hinput : start.locate input = .ok (spot, .file bytes time))
    {entries : List (EntryInfo × List UInt8)} (hholds : HoldsEntries bytes entries) (directory : String) :
    ∃ between : Archive MemoryStream, Archive.Walks Collects entries between ∧
      unpack input directory start = (withArchive spot between
        (repeatUntil (unpackNext directory) readBudget (unpackNext_spends directory)) >>= fun _ =>
          Session.print s!"Unpacked to: {directory}") start := by
  obtain ⟨segments, hentries, hbytes⟩ := hholds
  have hopen : Session.openArchive input start
      = .ok (spot, Archive.reader ({ bytes } : MemoryStream)) start := by
    rw [Session.openArchive, hinput]
  have hyields : Yields ({ bytes } : MemoryStream) (Marker.bytes
      ++ (ArchiveHeader.current.record.fixed.toBytes ++ segmentBytes segments)) := by
    rw [← hbytes]
    exact MemoryStream.yields _
  obtain ⟨between, hheader, hstream, hbetween⟩ := Archive.readArchiveHeader_of_yields hyields
  have hread : OpenSession.readArchive Archive.readArchiveHeader
      { start with location := spot, archive := Archive.reader { bytes } }
        = .ok ArchiveHeader.current { start with location := spot, archive := between } :=
    readArchive_of_ok hheader
  -- the walk starts behind the archive header
  have hstart : withArchive spot (Archive.reader ({ bytes } : MemoryStream)) (unpackEntries directory) start
      = withArchive spot between
        (repeatUntil (unpackNext directory) readBudget (unpackNext_spends directory)) start := by
    rw [withArchive, unpackEntries, bind_of_ok hread, withArchive]
  have hthen : (withArchive spot (Archive.reader ({ bytes } : MemoryStream)) (unpackEntries directory)
      >>= fun _ => Session.print s!"Unpacked to: {directory}") start
        = (withArchive spot between
          (repeatUntil (unpackNext directory) readBudget (unpackNext_spends directory)) >>= fun _ =>
            Session.print s!"Unpacked to: {directory}") start := by
    rw [bind_apply, bind_apply, hstart]
  exact ⟨between, Archive.walks_of_areEntries BoundedSink.isCollector hentries hstream hbetween,
    (bind_of_ok hopen).trans hthen⟩

/-- **Unpacking into an empty directory** an archive with the nodes of a plan succeeds and skips nothing,
if every path is accepted. Below the directory stands just what is planned then. -/
theorem exists_unpack {modified : Int}
    (hdirectory : start.locate directory = .ok (base, .directory modified))
    (hempty : ∀ way, way ≠ [] → start.tree.find? (base ++ way) = none)
    (hinput : start.locate input = .ok (spot, .file bytes time)) (hbeside : ¬ base <+: spot)
    {placed : List (List String × Node)} (hholds : HoldsEntries bytes (placed.map entryOf))
    (hplaced : ∀ entry ∈ placed, Unpackable plan directory entry.1 entry.2)
    (hplan : ∀ way, way ≠ [] → (plan.node? way).isSome = true → ∃ entry ∈ placed, way <+: entry.1) :
    ∃ final, unpack input directory start = .ok () final ∧ final.warnings = start.warnings ∧
      ChangedBelow base start.tree final.tree ∧
      ∀ way, way ≠ [] →
        (final.tree.find? (base ++ way)).map Node.withoutTime = plan.node? way := by
  have hleads := Session.leadsTo_of_locate hdirectory
  obtain ⟨between, hwalks, hunpack⟩ := exists_walks_unpack hinput hholds directory
  have hobeys : Obeys plan base start.tree := by
    intro way node hne hfound
    rw [hempty way hne] at hfound
    cases hfound
  let opened : OpenSession := { start with location := spot, archive := between }
  have hconfined : Confined base start opened.toSession := ⟨rfl, .refl⟩
  obtain ⟨final, hrest, hfinal, -, hthere, hwarnings⟩ :=
    exists_unpackRest hleads hplaced hconfined hbeside hobeys hwalks
  have hwith : withArchive spot between
      (repeatUntil (unpackNext directory) readBudget (unpackNext_spends directory)) start
        = .ok () final.toSession := by
    rw [withArchive, hrest]
  have hrun : unpack input directory start = .ok () { final.toSession with
      output := final.output.push s!"Unpacked to: {directory}" } :=
    hunpack.trans ((bind_of_ok hwith).trans rfl)
  refine ⟨_, hrun, hwarnings, ((confined_unpack hleads input).of_ok hrun).changed, fun way hne => ?_⟩
  dsimp only
  cases hfound : final.tree.find? (base ++ way) with
  | some node => exact (hfinal way node hne hfound).symm
  | none =>
    -- whatever is planned has been made
    refine (Option.not_isSome_iff_eq_none.mp fun hplanned => ?_).symm
    obtain ⟨entry, hmem, hfront⟩ := hplan way hne hplanned
    have hmade := hthere entry hmem way hne hfront
    rw [hfound] at hmade
    cases hmade

/-- **Unpacking fails** if the path of the first entry is not accepted. -/
theorem checkPath_of_unpack (hinput : start.locate input = .ok (spot, .file bytes time))
    (hway : ∀ name ∈ way, IsNormal name) (hne : way ≠ []) {more : List (EntryInfo × List UInt8)}
    (hholds : HoldsEntries bytes (entryOf (way, node) :: more)) {final : Session}
    (hrun : unpack input directory start = .ok () final) :
    checkPath (Path.join directory (Path.ofNames way)) = .ok () := by
  obtain ⟨between, ⟨opened, hfound, -⟩, hunpack⟩ := exists_walks_unpack hinput hholds directory
  obtain ⟨_, _, hwith, -⟩ := bind_eq_ok.mp (hunpack.symm.trans hrun)
  have hread : OpenSession.readArchive Archive.nextEntry { start with location := spot, archive := between }
      = .ok (some (entryOf (way, node)).1) { start with location := spot, archive := opened } :=
    readArchive_of_ok hfound
  cases hentry : unpackEntry directory (entryOf (way, node)).1
      { start with location := spot, archive := opened } with
  | ok value middle => exact checkPath_of_unpackEntry hway hne hentry
  | error error middle =>
    -- the first round fails then, and all that follows with it
    have hnext : unpackNext directory { start with location := spot, archive := between }
        = .error error middle := (bind_of_ok hread).trans (bind_of_error hentry)
    rw [withArchive, repeatUntil_apply, hnext] at hwith
    cases hwith

end Command

end CommandLine

end RecordArchive
