import RecordArchive.CommandLine.Run
import RecordArchive.Proofs.FileTree

/-! # Unpacking stays below its directory

The names of entries come from whoever made the archive. What `unpack` makes of them are paths that start
with the directory that it was given and go on with normal names.

* `Path.Continues`: a path that leads where a directory leads, and from there along a way.
* `Confined`: nothing but what lies below the directory was changed since the start.
* `confined_unpackNext`: one entry, whatever it is, and whether unpacking it succeeds.
* `unpack_staysBelow`: **unpacking is confined**, with the rules for the names of entries. -/

open RecordArchive.Path (IsNormal)

namespace RecordArchive

open FileTree Program

/-! ## Paths below a directory -/

/-- A path that leads where a directory leads, and from there along a way. -/
structure Path.Continues (directory path : String) (way : List String) : Prop where
  /-- Both start at the root, or none does. -/
  absolute : path.toList.head? = some '/' ↔ directory.toList.head? = some '/'
  /-- The steps in front of the way lead where those of the directory do. -/
  steps : ∃ front, steps path = front ++ way ∧
    ∀ (tree : FileTree) (location : Location),
      tree.enter location front = tree.enter location (steps directory)

namespace Path

variable {directory : String} {way : List String}

/-- A path joined to that of the directory goes on from there. -/
theorem continues_join (hdirectory : directory ≠ "") (hway : ∀ name ∈ way, IsNormal name) :
    Continues directory (join directory (ofNames way)) way where
  absolute := by rw [head?_join hdirectory]
  steps := ⟨steps directory, by rw [steps_join hdirectory, steps_ofNames hway], fun _ _ => rfl⟩

/-- Without its end a path leads on as before: what is taken away are dots of the directory. -/
theorem Continues.trimEnd {path : String} (h : Continues directory path way)
    (hway : ∀ name ∈ way, IsNormal name) : Continues directory (trimEnd path) way where
  absolute := (absolute_trimEnd path).trans h.absolute
  steps := by
    obtain ⟨front, hsteps, hfront⟩ := h.steps
    obtain ⟨dots, htrimmed, hdots⟩ := exists_steps_trimEnd path
    rw [hsteps] at htrimmed
    rcases List.append_eq_append_iff.mp htrimmed with ⟨more, hmore, hway'⟩ | ⟨more, hfront', rfl⟩
    · -- dots that end the way are none of its names
      subst hway'
      have hnone : dots = [] := by
        refine List.eq_nil_iff_forall_not_mem.mpr fun step hmem => ?_
        have hnormal := hway step (List.mem_append_right _ hmem)
        rw [hdots step hmem] at hnormal
        exact absurd hnormal.isName (by decide)
      subst hnone
      exact ⟨front, by rw [hmore, List.append_nil], hfront⟩
    · have hnone : way = [] := by
        refine List.eq_nil_iff_forall_not_mem.mpr fun name hmem => ?_
        have hnormal := hway name hmem
        rw [hdots name (List.mem_append_right _ hmem)] at hnormal
        exact absurd hnormal.isName (by decide)
      subst hnone
      refine ⟨Path.steps (Path.trimEnd path), (List.append_nil _).symm, fun tree location => ?_⟩
      rw [← hfront, hfront', enter_append]
      cases tree.enter location (Path.steps (Path.trimEnd path)) with
      | error error => rfl
      | ok middle =>
        refine (enter_dots fun step hmem => hdots step ?_).symm
        exact List.mem_append_left _ hmem

end Path

/-! ## Parts of commands -/

namespace CommandLine

variable {α : Type}

/-- A program on the session leaves the archive alone. -/
theorem outcome_onSession {ok : α → OpenSession → Prop} {failed : CommandError → OpenSession → Prop}
    {program : Program α} {state : OpenSession}
    (h : Program.Outcome (fun value session => ok value { state with toSession := session })
      (fun error session => failed error { state with toSession := session })
      (program state.toSession)) :
    Program.Outcome ok failed (OpenSession.onSession program state) := by
  unfold OpenSession.onSession
  cases hrun : program state.toSession with
  | ok value session => exact h.of_ok hrun
  | error error session => exact h.of_error hrun

/-- To empty a file that may be the archive leaves the session. -/
theorem toSession_emptied (state : OpenSession) (location : Location) :
    (state.emptied location).toSession = state.toSession := by
  rw [OpenSession.emptied]
  split
  · rfl
  · rfl

/-! ## Confined states -/

/-- **Nothing but what lies below a location was changed** since the start. -/
structure Confined (base : Location) (start session : Session) : Prop where
  directory : session.directory = start.directory
  changed : ChangedBelow base start.tree session.tree

/-- Whatever comes of a part of a command, nothing but what lies below the location was changed. -/
abbrev EndsConfined (base : Location) (start : Session) (result : EStateM.Result CommandError OpenSession α) :
    Prop :=
  Program.Outcome (fun _ final => Confined base start final.toSession)
    (fun _ final => Confined base start final.toSession) result

/-- The steps of a path lead to a location. -/
def Session.LeadsTo (session : Session) (path : String) (base : Location) : Prop :=
  path ≠ "" ∧ session.tree.enter (Route.along session.directory path).start (Path.steps path) = .ok base

/-- A directory that a path names is where the path leads. -/
theorem Session.leadsTo_of_locate {session : Session} {path : String} {base : Location} {modified : Int}
    (h : session.locate path = .ok (base, .directory modified)) : session.LeadsTo path base := by
  rw [locate] at h
  cases hroute : Route.ofPath session.directory path with
  | error error =>
    rw [hroute] at h
    cases h
  | ok route =>
    rw [hroute] at h
    obtain ⟨hcheck, rfl⟩ := Route.ofPath_eq_ok.mp hroute
    exact ⟨(checkPath_eq_ok.mp hcheck).2.1, enter_of_resolve h⟩

namespace Confined

variable {base : Location} {start session : Session} {state : OpenSession} {directory path : String}
  {way : List String}

/-- The route of a path below the directory leads there first. -/
theorem exists_route (h : Confined base start session) (hleads : start.LeadsTo directory base)
    (hpath : Path.Continues directory path way) : ∃ front,
      (Route.along session.directory path).steps = front ++ way ∧
      session.tree.enter (Route.along session.directory path).start front = .ok base := by
  obtain ⟨front, hsteps, hfront⟩ := hpath.steps
  refine ⟨front, hsteps, ?_⟩
  have hstart : (Route.along session.directory path).start
      = (Route.along start.directory directory).start := by
    simp only [Route.along, hpath.absolute, h.directory]
  rw [hstart, hfront]
  exact h.changed.enter hleads.2

/-- Directories are made below the directory only. -/
theorem makeDirectories (h : Confined base start session) (hleads : start.LeadsTo directory base)
    (hpath : Path.Continues directory path way) (hway : ∀ name ∈ way, IsNormal name) :
    Program.Outcome (fun _ final => Confined base start final) (fun _ final => Confined base start final)
      (Session.makeDirectories path session) := by
  unfold Session.makeDirectories
  cases hroute : Route.ofPath session.directory path with
  | error error => exact h
  | ok route =>
    obtain ⟨-, rfl⟩ := Route.ofPath_eq_ok.mp hroute
    obtain ⟨front, hsteps, hfront⟩ := h.exists_route hleads hpath
    have hhere : ∀ name ∈ ([] : List String), IsNormal name := nofun
    have hmade := h.changed.makeSteps session.clock hhere hway false
    rw [List.append_nil, ← makeSteps_append hfront, ← hsteps] at hmade
    simp only [FileTree.makeDirectories]
    cases hrun : makeSteps session.clock false (Route.along session.directory path).start
        (Route.along session.directory path).steps session.tree with
    | ok value tree => exact ⟨h.directory, hmade.of_ok hrun⟩
    | error error tree => exact ⟨h.directory, hmade.of_error hrun⟩

/-- A file is made or emptied below the directory only. -/
theorem createFile (h : Confined base start session) (hleads : start.LeadsTo directory base)
    (hpath : Path.Continues directory path way) (hway : ∀ name ∈ way, IsNormal name) (hne : way ≠ []) :
    Program.Outcome (fun location final => Confined base start final ∧ location = base ++ way ∧
        final.tree.isDirectory location = false)
      (fun _ final => Confined base start final) (Session.createFile path session) := by
  unfold Session.createFile
  cases hroute : Route.ofPath session.directory path with
  | error error => exact h
  | ok route =>
    obtain ⟨-, rfl⟩ := Route.ofPath_eq_ok.mp hroute
    simp only [bind, Except.bind]
    cases hrun : session.tree.createFile (Route.along session.directory path) session.clock with
    | error error => exact h
    | ok made =>
      obtain ⟨location, tree⟩ := made
      obtain ⟨parent, step, hparent, hlast, -, -, -, hlocation, hfree, rfl⟩ := createFile_eq_ok.mp hrun
      obtain ⟨front, hsteps, hfront⟩ := h.exists_route hleads hpath
      -- the last step is the last name of the way, and the steps in front of it lead there
      rw [hsteps, List.dropLast_append_of_ne_nil hne, enter_append_of_ok hfront] at hparent
      rw [hsteps, List.getLast?_append_of_ne_nil _ hne] at hlast
      have hnames : ∀ name ∈ way.dropLast, isName name = true :=
        fun name hmem => (hway name (List.dropLast_subset way hmem)).isName
      rw [enter_names hnames hparent, List.append_assoc, List.dropLast_append_getLast? step hlast]
        at hlocation
      subst hlocation
      refine ⟨⟨h.directory, h.changed.insert hne hway fun hthere => ?_⟩, rfl, ?_⟩
      · rw [hfree] at hthere
        cases hthere
      · rw [isDirectory, find?_insert_self _ (List.append_ne_nil_of_right_ne_nil _ hne)]

/-- A file that is there is written below the directory. -/
theorem extractTo (h : Confined base start state.toSession) (hway : ∀ name ∈ way, IsNormal name)
    (hne : way ≠ []) (hfree : state.tree.isDirectory (base ++ way) = false) :
    EndsConfined base start (CommandLine.extractTo (base ++ way) state) := by
  have hwritten (bytes : Array UInt8) :
      ChangedBelow base start.tree (state.tree.insert (base ++ way) (.file bytes state.clock)) := by
    refine h.changed.insert hne hway fun hthere => ?_
    rw [hfree] at hthere
    cases hthere
  unfold CommandLine.extractTo
  cases Archive.extract ((⟨{}, 0⟩ : CopySink BoundedSink), state.archive) with
  | ok value final => exact ⟨h.directory, hwritten _⟩
  | error error final => exact ⟨h.directory, hwritten _⟩

/-- Calls on the archive change nothing in the tree. -/
theorem readArchive {call : Call MemoryStream α} (h : Confined base start state.toSession) :
    EndsConfined base start (OpenSession.readArchive call state) := by
  unfold OpenSession.readArchive
  cases call state.archive with
  | ok value archive => exact h
  | error error archive => exact h

/-- A line of output changes nothing in the tree. -/
theorem print (h : Confined base start state.toSession) (line : String) :
    EndsConfined base start (OpenSession.onSession (Session.print line) state) :=
  outcome_onSession ⟨h.directory, h.changed⟩

/-- An entry that is skipped with a warning changes nothing in the tree. -/
theorem skipWith (h : Confined base start state.toSession) (warning : String) :
    EndsConfined base start (CommandLine.skipWith warning state) := by
  refine Program.Outcome.bind (outcome_onSession ?_)
  exact Confined.readArchive ⟨h.directory, h.changed⟩

/-- The directories for an entry, in a state with an archive open. -/
theorem makeDirectories_open (h : Confined base start state.toSession)
    (hleads : start.LeadsTo directory base) (hpath : Path.Continues directory path way)
    (hway : ∀ name ∈ way, IsNormal name) :
    EndsConfined base start (OpenSession.makeDirectories path state) :=
  outcome_onSession (Program.Outcome.adaptExcept (h.makeDirectories hleads hpath hway))

end Confined

/-! ## Unpacking -/

section Unpacking

variable {base : Location} {start : Session} {state : OpenSession} {directory : String}

/-- **A directory** is made below, if it is made. -/
theorem confined_unpackDirectory (hleads : start.LeadsTo directory base)
    (h : Confined base start state.toSession) {way : List String} (hway : ∀ name ∈ way, IsNormal name) :
    EndsConfined base start (unpackDirectory directory way state) := by
  refine Program.Outcome.bind
    ((h.makeDirectories_open hleads (Path.continues_join hleads.1 hway) hway).mono ?_ fun _ _ h => h)
  exact fun _ _ hmade => hmade.readArchive

/-- **A file** is written below, if it is written. -/
theorem confined_unpackFile (hleads : start.LeadsTo directory base)
    (h : Confined base start state.toSession) {way : List String} (hway : ∀ name ∈ way, IsNormal name)
    (hne : way ≠ []) :
    EndsConfined base start (unpackFile directory way state) := by
  have hparent : ∀ name ∈ way.dropLast, IsNormal name :=
    fun name hmem => hway name (List.dropLast_subset way hmem)
  have hpath := (Path.continues_join hleads.1 hparent).trimEnd hparent
  refine Program.Outcome.bind ((h.makeDirectories_open hleads hpath hparent).mono ?_ fun _ _ h => h)
  intro _ middle hmade
  refine Program.Outcome.bind ?_
  have hfile := hmade.createFile hleads (Path.continues_join hleads.1 hway) hway hne
  unfold OpenSession.createFile
  cases hrun : Session.createFile (Path.join directory (Path.ofNames way)) middle.toSession with
  | error error session => exact hfile.of_error hrun
  | ok location session =>
    obtain ⟨hconfined, rfl, hfree⟩ := hfile.of_ok hrun
    have htoSession := toSession_emptied { middle with toSession := session } (base ++ way)
    refine Confined.extractTo ?_ hway hne ?_
    · rw [htoSession]
      exact hconfined
    · rw [htoSession]
      exact hfree

/-- **One entry**, whatever it is, and whether unpacking it succeeds. -/
theorem confined_unpackEntry (hleads : start.LeadsTo directory base)
    (h : Confined base start state.toSession) (info : EntryInfo) :
    EndsConfined base start (unpackEntry directory info state) := by
  rw [unpackEntry]
  cases hsafe : Path.safeNames? info.name with
  | none => exact h.skipWith _
  | some way =>
    obtain ⟨-, -, hne, rfl⟩ := Path.safeNames?_eq_some.mp hsafe
    have hway (name : String) (hmem : name ∈ Path.normalParts info.name) : IsNormal name :=
      Path.isNormal_of_mem_normalParts hmem
    cases hkind : info.kind with
    | directory => exact confined_unpackDirectory hleads h hway
    | regular =>
      refine Program.Outcome.bind ((confined_unpackFile hleads h hway hne).mono ?_ fun _ _ h => h)
      exact fun _ _ hmade => hmade.print _
    | unknown byte => exact h.skipWith _

/-- **The next entry** is unpacked below or is skipped, whatever its name is. -/
theorem confined_unpackNext (hleads : start.LeadsTo directory base)
    (h : Confined base start state.toSession) :
    EndsConfined base start (unpackNext directory state) := by
  refine Program.Outcome.bind (h.readArchive.mono ?_ fun _ _ h => h)
  rintro (_ | info) middle hmiddle
  · exact hmiddle
  · exact Program.Outcome.bind (confined_unpackEntry hleads hmiddle info)

/-- **All entries**, up to the end of the archive or to the first failure. -/
theorem confined_unpackEntries (hleads : start.LeadsTo directory base)
    (h : Confined base start state.toSession) :
    EndsConfined base start (unpackEntries directory state) := by
  refine Program.Outcome.bind (h.readArchive.mono (fun _ middle hmiddle => ?_) fun _ _ h => h)
  refine Program.Outcome.repeatUntil (fun state => Confined base start state.toSession) ?_ hmiddle
  intro state hstate
  refine (confined_unpackNext hleads hstate).mono ?_ fun _ _ h => h
  rintro (_ | value) final hfinal
  · exact hfinal
  · exact hfinal

/-- **The command as a whole** changes nothing but what lies below. -/
theorem confined_unpack (hleads : start.LeadsTo directory base) (input : String) :
    Program.Outcome (fun _ final => Confined base start final)
      (fun _ final => Confined base start final) (unpack input directory start) := by
  have hstart : Confined base start start := ⟨rfl, .refl⟩
  refine Program.Outcome.bind ?_
  unfold Session.openArchive
  rcases start.locate input with error | ⟨location, ⟨bytes, modified⟩ | modified⟩
  · exact hstart
  · refine Program.Outcome.bind ?_
    let opened : OpenSession := { start with location, archive := Archive.reader { bytes } }
    have hentries : EndsConfined base start (unpackEntries directory opened) :=
      confined_unpackEntries hleads hstart
    unfold OpenSession.withArchive
    cases hrun : unpackEntries directory opened with
    | ok value final => exact ⟨(hentries.of_ok hrun).directory, (hentries.of_ok hrun).changed⟩
    | error error final => exact hentries.of_error hrun
  · exact hstart

end Unpacking

/-- **Unpacking is confined.** The name of an entry is accepted if and only if it is not absolute, has no
step to a parent and has some normal part; the way it describes has just its normal parts, in order, and
its text is read as that way, alone and behind the directory. Hence every node that unpacking into a
directory makes or replaces, whatever the archive is and whether the command succeeds or fails, stands
below the directory at the end of a way of normal names. -/
theorem unpack_staysBelow :
    (∀ (name : String) (way : List String), Path.safeNames? name = some way ↔
      name.toList.head? ≠ some '/' ∧ ['.', '.'] ∉ List.splitOn '/' name.toList ∧
        Path.normalParts name ≠ [] ∧ way = Path.normalParts name) ∧
    (∀ (name : String) (way : List String), Path.safeNames? name = some way →
      Path.components (Path.ofNames way) = way.map .entry ∧
      ∀ directory : String, directory ≠ "" → Path.components (Path.join directory (Path.ofNames way))
        = Path.components directory ++ way.map .entry) ∧
    ∀ (session : Session) (arguments : List String) (input directory : String) (base : Location)
      (modified : Int), Command.parse arguments = .ok (.unpack input directory) →
      session.locate directory = .ok (base, .directory modified) →
        ChangedBelow base session.tree (run arguments session).2.tree ∧
        ∀ location, (run arguments session).2.tree.find? location ≠ session.tree.find? location →
          ∃ way, way ≠ [] ∧ (∀ name ∈ way, IsNormal name) ∧ location = base ++ way := by
  refine ⟨fun name way => Path.safeNames?_eq_some, fun name way hsafe => ?_, ?_⟩
  · obtain ⟨-, -, -, rfl⟩ := Path.safeNames?_eq_some.mp hsafe
    have hway (part : String) (hmem : part ∈ Path.normalParts name) : IsNormal part :=
      Path.isNormal_of_mem_normalParts hmem
    exact ⟨Path.components_ofNames hway, fun directory hdirectory =>
      Path.components_join hdirectory hway⟩
  · intro session arguments input directory base modified hparse hlocate
    have hconfined := confined_unpack (Session.leadsTo_of_locate hlocate) input
    have hchanged : ChangedBelow base session.tree (run arguments session).2.tree := by
      rw [run, hparse]
      simp only [Command.run]
      cases hrun : unpack input directory session with
      | ok value final => exact (hconfined.of_ok hrun).changed
      | error error final => exact (hconfined.of_error hrun).changed
    exact ⟨hchanged, fun location => hchanged.exists_way⟩

/-! ### An entry that points elsewhere -/

/-- An archive with an entry named `../e` and one named `a/b`, beside a directory. -/
def hostileSession : Session where
  tree := ⟨[
    (["k"], .file #[0x4b, 0x43, 0x21, 0x1a, 0x06, 0x00, 0xe9, 0xb7, 0x41, 0x00, 0x08, 0x00, 0x01, 0x00,
      0x49, 0x02, 0x46, 0x00, 0x12, 0x00, 0x00, 0x52, 0x00, 0x00, 0x00, 0x00, 0x04, 0x00, 0x2e, 0x2e,
      0x2f, 0x65, 0xf0, 0xd6, 0x46, 0x00, 0x11, 0x00, 0x00, 0x52, 0x00, 0x00, 0x00, 0x00, 0x03, 0x00,
      0x61, 0x2f, 0x62] 0),
    (["d"], .directory 0)]⟩

/-- What the command line stands for. -/
theorem parse_unpackIntoD : Command.parse ["unpack", "-C", "d", "k"] = .ok (.unpack "k" "d") := rfl

/-- The directory for unpacking is there. -/
theorem locate_hostileSession : hostileSession.locate "d" = .ok (["d"], .directory 0) := rfl

/-- Unpacking that archive changes nothing beside the directory. -/
theorem unpack_staysBelow_hostile :
    Command.parse ["unpack", "-C", "d", "k"] = .ok (.unpack "k" "d") ∧
      hostileSession.locate "d" = .ok (["d"], .directory 0) ∧
      ChangedBelow ["d"] hostileSession.tree (run ["unpack", "-C", "d", "k"] hostileSession).2.tree ∧
      ∀ location, (run ["unpack", "-C", "d", "k"] hostileSession).2.tree.find? location
          ≠ hostileSession.tree.find? location →
        ∃ way, way ≠ [] ∧ (∀ name ∈ way, IsNormal name) ∧ location = ["d"] ++ way :=
  ⟨parse_unpackIntoD, locate_hostileSession,
    unpack_staysBelow.2.2 _ _ _ _ _ _ parse_unpackIntoD locate_hostileSession⟩

end CommandLine

end RecordArchive
