import RecordArchive.Proofs.CommandLine.Packing
import RecordArchive.Proofs.CommandLine.Unpacking

/-! # What is packed is unpacked again

Packing an input and unpacking the archive into an empty directory copies what stands at the input to the
end of its names below the directory, as long as the system accepts the paths that the commands form for
that.

* `PathsFit`: no path is too long that the commands form for what stands at and below an input.
* `packable_of_isSound`: what stands in a sound tree can be packed then.
* `pack_unpack_restores`: **the round trip** of the two commands.
* `unpack_dotted_fails`: a directory behind whose path no other path is accepted. -/

open RecordArchive.Path (IsNormal)

namespace RecordArchive

open FileTree

namespace CommandLine

/-! ## Paths of the commands -/

/-- **No path is too long** that the commands form for what stands at and below an input: behind the input
and, by its names, behind the directory for unpacking. -/
structure PathsFit (tree : FileTree) (location : Location) (input directory : String) : Prop where
  packed : ∀ way, (tree.find? (location ++ way)).isSome = true →
    (along input way).utf8ByteSize ≤ pathLimit
  unpacked : ∀ way, (tree.find? (location ++ way)).isSome = true →
    (Path.join directory (Path.ofNames (Path.names input ++ way))).utf8ByteSize ≤ pathLimit

variable {session : Session} {input directory path : String} {location base : Location} {node : Node}
  {way names : List String}

/-- The text for a way goes on behind that of some names. -/
theorem along_ofNames (hnames : ∀ name ∈ names, IsNormal name) (hne : names ≠ []) (way : List String) :
    along (Path.ofNames names) way = Path.ofNames (names ++ way) := by
  rw [along]
  split
  next hnil => rw [hnil, List.append_nil]
  next hway => exact Path.join_ofNames hnames hne hway

/-- A path is accepted behind another one if both have no zero character and it is not too long. -/
theorem checkPath_join (hpath : checkPath path = .ok ()) (hway : ∀ name ∈ way, IsFileName name)
    (hsize : (Path.join path (Path.ofNames way)).utf8ByteSize ≤ pathLimit) :
    checkPath (Path.join path (Path.ofNames way)) = .ok () := by
  obtain ⟨hzero, hne, -⟩ := checkPath_eq_ok.mp hpath
  refine checkPath_eq_ok.mpr ⟨fun hmem => ?_, Path.join_ne_empty hne _, hsize⟩
  rcases Path.mem_toList_join hmem with hfront | hslash | hback
  · exact hzero hfront
  · exact absurd hslash (by decide)
  · rcases Path.mem_toList_ofNames hback with hslash | ⟨name, hname, hmem⟩
    · exact absurd hslash (by decide)
    · exact (hway name hname).zero hmem

/-- The names along a path that leads somewhere are names of files. -/
theorem isFileName_of_locate {found : Location × Node} (h : session.locate path = .ok found) :
    ∀ name ∈ Path.names path, IsFileName name := by
  obtain ⟨hcheck, hresolve⟩ := Session.locate_eq_ok.mp h
  obtain ⟨hzero, -, -⟩ := checkPath_eq_ok.mp hcheck
  intro name hmem
  have hnormal := Path.isNormal_of_mem_names hmem
  rw [Path.names_eq, List.mem_filter] at hmem
  refine ⟨hnormal, fun hc => hzero (Path.mem_toList_of_mem_names ?_ hc),
    utf8ByteSize_le_of_resolve hresolve hmem.1 hnormal.isName⟩
  rwa [Path.names_eq, List.mem_filter]

/-! ## What a sound tree holds -/

/-- What a path leads to in a sound tree is there. -/
theorem isSome_of_locate (hsound : session.tree.IsSound)
    (hworking : session.tree.isDirectory session.directory = true)
    (h : session.locate path = .ok (location, node)) : (session.tree.find? location).isSome = true := by
  obtain ⟨-, hresolve⟩ := Session.locate_eq_ok.mp h
  have hstart : session.tree.isDirectory (Route.along session.directory path).start = true := by
    rw [Route.along]
    split
    · rfl
    · exact hworking
  obtain ⟨found, hfound⟩ := hsound.exists_of_resolve hstart hresolve
  exact Option.isSome_iff_exists.mpr ⟨found, hfound⟩

/-- **What stands in a sound tree can be packed** if no path is too long. -/
theorem packable_of_isSound (hsound : session.tree.IsSound)
    (hworking : session.tree.isDirectory session.directory = true)
    (hinput : session.locate input = .ok (location, node)) (hne : Path.names input ≠ [])
    (hfit : PathsFit session.tree location input directory) :
    Packable session input (Path.ofNames (Path.names input)) location where
  named := if_neg hne
  leads := ⟨node, hinput⟩
  there := isSome_of_locate hsound hworking hinput
  checkPath := by
    intro way hthere
    have hcheck := (Session.locate_eq_ok.mp hinput).1
    have hsize := hfit.packed way hthere
    rw [along] at hsize ⊢
    split at hsize
    next hnil => rwa [if_pos hnil]
    next hway =>
      rw [if_neg hway]
      obtain ⟨found, hfound⟩ := Option.isSome_iff_exists.mp hthere
      exact checkPath_join hcheck (fun name hmem =>
        hsound.isFileName _ _ hfound name (List.mem_append_right _ hmem)) hsize
  length := by
    intro way hthere
    rw [along_ofNames (fun name => Path.isNormal_of_mem_names) hne]
    -- the name is a part of the path under which the entry is unpacked
    have hname := Path.utf8ByteSize_le_join directory (Path.ofNames (Path.names input ++ way))
    have hpath := hfit.unpacked way hthere
    rw [pathLimit] at hpath
    show (Path.ofNames (Path.names input ++ way)).utf8ByteSize ≤ EntryInfo.fittingLength
    rw [EntryInfo.fittingLength]
    omega
  size := by
    intro way hthere
    have hfound := find?_eq_nodeAt hthere
    cases hnode : nodeAt session.tree (location ++ way) with
    | directory modified => exact Nat.zero_lt_succ _
    | file bytes modified => exact hsound.size _ _ _ (hnode ▸ hfound)

/-! ## The round trip -/

/-- The entries of an archive of one input, by their ways below the directory for unpacking. -/
theorem map_entry_requestsOf (hnames : ∀ name ∈ names, IsNormal name) (hne : names ≠ [])
    (tree : FileTree) (location : Location) (ways : List Location) :
    (requestsOf tree (Path.ofNames names) location ways).map PackRequest.entry
      = (ways.map fun way => (names ++ way, nodeAt tree (location ++ way))).map entryOf := by
  rw [requestsOf, List.map_map, List.map_map]
  refine List.map_congr_left fun way _ => ?_
  rw [Function.comp_apply, along_ofNames hnames hne]
  rfl

/-- **An archive of one input is unpacked** into an empty directory, as a copy below its names. -/
theorem exists_unpack_copied {start : Session} {tree : FileTree} (hsound : tree.IsSound)
    {archive : String} {spot : Location} {bytes : Array UInt8} {modified time : Int}
    (hdirectory : start.locate directory = .ok (base, .directory modified))
    (hempty : ∀ way, way ≠ [] → start.tree.find? (base ++ way) = none)
    (harchive : start.locate archive = .ok (spot, .file bytes time)) (hbeside : ¬ base <+: spot)
    (hnames : ∀ name ∈ names, IsFileName name) (hne : names ≠ [])
    (hthere : (tree.find? location).isSome = true)
    (hholds : HoldsInput bytes tree (Path.ofNames names) location)
    (hfit : ∀ way, (tree.find? (location ++ way)).isSome = true →
      (Path.join directory (Path.ofNames (names ++ way))).utf8ByteSize ≤ pathLimit) :
    ∃ final, unpack archive directory start = .ok () final ∧ final.warnings = start.warnings ∧
      ChangedBelow base start.tree final.tree ∧ ∀ way, way ≠ [] →
        (final.tree.find? (base ++ way)).map Node.withoutTime = copied tree location names way := by
  obtain ⟨ways, hways, hentries⟩ := hholds
  rw [map_entry_requestsOf (fun name hmem => (hnames name hmem).isNormal) hne] at hentries
  -- every entry has an accepted path and is planned
  have hplaced : ∀ entry ∈ ways.map fun way => (names ++ way, nodeAt tree (location ++ way)),
      Unpackable (Plan.copy tree hsound location names hnames) directory entry.1 entry.2 := by
    intro entry hmem
    obtain ⟨way, hway, rfl⟩ := List.mem_map.mp hmem
    have hsome := (hways way).mp hway
    have hfound := find?_eq_nodeAt hsome
    refine ⟨List.append_ne_nil_of_left_ne_nil hne _, ?_, ?_⟩
    · exact (copied_append way).trans (by rw [hfound, Option.map_some])
    · refine checkPath_join (Session.locate_eq_ok.mp hdirectory).1 (fun name hname => ?_) (hfit way hsome)
      exact (List.mem_append.mp hname).elim (hnames name) fun hmore =>
        hsound.isFileName _ _ hfound name (List.mem_append_right _ hmore)
  -- what is planned is the node of an entry or stands above one
  refine exists_unpack hdirectory hempty harchive hbeside hentries hplaced fun way hway hplanned => ?_
  obtain ⟨node, hnode⟩ := Option.isSome_iff_exists.mp hplanned
  rcases copied_eq_some hnode with ⟨more, found, rfl, hfound, -⟩ | ⟨hfront, -⟩
  · exact ⟨_, List.mem_map_of_mem ((hways more).mpr (Option.isSome_iff_exists.mpr ⟨found, hfound⟩)),
      List.prefix_rfl⟩
  · refine ⟨_, List.mem_map_of_mem ((hways []).mpr ?_), hfront.trans (List.prefix_append _ _)⟩
    rwa [List.append_nil]

/-- **The round trip.** An input that leads to something in a sound tree is packed into an archive
outside of it, by any command line that asks for that, whatever the options are. Then the archive is
unpacked into a directory that is empty. If the system accepts the paths that are formed for that, both
commands are carried out and no entry is skipped. Packing writes the archive and nothing else. Then what
stands at the end of the names of the input, below the directory, is what stood at the input, with the same
content. Above it are directories, and nothing else has changed. -/
theorem pack_unpack_restores {session made : Session} {packing unpacking : List String}
    {output input directory : String} {options : ArchiveOptions} {location base spot : Location}
    {node : Node} {modified : Int}
    (hsound : session.tree.IsSound) (hworking : session.tree.isDirectory session.directory = true)
    (hpacking : Command.parse packing = .ok (.pack output options [input]))
    (hunpacking : Command.parse unpacking = .ok (.unpack output directory))
    (hinput : session.locate input = .ok (location, node)) (hne : Path.names input ≠ [])
    (houtput : Session.createFile output session = .ok spot made) (houtside : ¬ location <+: spot)
    (hdirectory : session.locate directory = .ok (base, .directory modified))
    (hempty : ∀ way, way ≠ [] → session.tree.find? (base ++ way) = none) (hbeside : ¬ base <+: spot)
    (hfit : PathsFit session.tree location input directory) :
    ∃ packed final, run packing session = (.done, packed) ∧ run unpacking packed = (.done, final) ∧
      packed.warnings = session.warnings ∧ final.warnings = session.warnings ∧
      (∀ other, other ≠ spot → packed.tree.find? other = session.tree.find? other) ∧
      (∀ way, (final.tree.find? (base ++ (Path.names input ++ way))).map Node.withoutTime
        = (session.tree.find? (location ++ way)).map Node.withoutTime) ∧
      (∀ way, way ≠ [] → way <+: Path.names input → way ≠ Path.names input →
        final.tree.isDirectory (base ++ way) = true) ∧
      ∀ other, final.tree.find? other ≠ packed.tree.find? other →
        ∃ way, way ≠ [] ∧ (way <+: Path.names input ∨ Path.names input <+: way) ∧
          other = base ++ way := by
  have hpack := packable_of_isSound hsound hworking hinput hne hfit
  obtain ⟨-, hfile, -, -⟩ := Session.of_createFile houtput
  obtain ⟨packed, bytes, time, hpacked, hsame, harchive, hholds⟩ :=
    exists_pack options houtput hpack houtside
  -- the directory is where it was, and is still empty
  have hother (way : Location) : base ++ way ≠ spot := fun heq => hbeside ⟨way, heq⟩
  have hthere : packed.locate directory = .ok (base, .directory modified) := by
    refine hsame.locate hfile ?_ hdirectory
    rw [← List.append_nil base]
    exact hother []
  have hstill (way : Location) (hway : way ≠ []) : packed.tree.find? (base ++ way) = none :=
    (hsame.elsewhere _ (hother way)).trans (hempty way hway)
  obtain ⟨final, hunpacked, hwarnings, hchanged, hcopied⟩ := exists_unpack_copied hsound hthere hstill
    harchive hbeside (isFileName_of_locate hinput) hne hpack.there hholds hfit.unpacked
  have hrunPack : run packing session = (.done, packed) := by
    rw [run, hpacking]
    simp only [Command.run, hpacked]
  have hrunUnpack : run unpacking packed = (.done, final) := by
    rw [run, hunpacking]
    simp only [Command.run, hunpacked]
  refine ⟨packed, final, hrunPack, hrunUnpack, hsame.warnings, hwarnings.trans hsame.warnings,
    hsame.elsewhere, fun way => ?_, fun way hway hfront hshorter => ?_, fun other hdifferent => ?_⟩
  · rw [hcopied _ (List.append_ne_nil_of_left_ne_nil hne _), copied_append]
  · have habove := (hcopied way hway).trans (copied_of_isFront hfront hshorter)
    obtain ⟨found, hfound, hkind⟩ := Option.map_eq_some_iff.mp habove
    obtain ⟨time, rfl⟩ := Node.withoutTime_eq_directory.mp hkind
    exact isDirectory_iff.mpr ⟨time, hfound⟩
  · obtain ⟨way, hway, -, rfl⟩ := hchanged.exists_way hdifferent
    rw [hstill way hway] at hdifferent
    obtain ⟨found, hfound⟩ := Option.ne_none_iff_exists'.mp hdifferent
    have hplanned := (hcopied way hway).symm
    rw [hfound, Option.map_some] at hplanned
    refine ⟨way, hway, ?_, rfl⟩
    rcases copied_eq_some hplanned with ⟨more, -, rfl, -⟩ | ⟨hfront, -⟩
    · exact .inr (List.prefix_append _ _)
    · exact .inl hfront

/-! ### A file in a directory -/

/-- A directory `t` with a file in it, beside an empty directory `d`. -/
def smallSession : Session where
  tree := ⟨[(["t"], .directory 0), (["t", "e"], .file #[7] 0), (["d"], .directory 0)]⟩

/-- Nothing else stands there. -/
theorem eq_of_find?_smallSession (hne : location ≠ [])
    (h : smallSession.tree.find? location = some node) :
    location = ["t"] ∨ location = ["t", "e"] ∨ location = ["d"] := by
  have hmem := mem_of_find? hne h
  simp only [smallSession, List.mem_cons, Prod.mk.injEq, List.not_mem_nil, or_false] at hmem
  exact hmem.imp And.left (Or.imp And.left And.left)

/-- It is a tree as a file system has it. -/
theorem isSound_smallSession : smallSession.tree.IsSound := by
  have hname : ∀ name ∈ ["t", "e", "d"], IsFileName name := by
    intro name hmem
    simp only [List.mem_cons, List.not_mem_nil, or_false] at hmem
    rcases hmem with rfl | rfl | rfl <;> exact ⟨⟨by decide, by decide, by decide⟩, by decide, by decide⟩
  refine isSound_of_forall_mem fun entry hmem => ⟨fun name hentry => hname name ?_, ?_⟩
  · simp only [smallSession, List.mem_cons, List.not_mem_nil, or_false] at hmem
    rcases hmem with rfl | rfl | rfl
    · exact List.mem_cons.mpr (.inl (List.mem_singleton.mp hentry))
    · simp only [List.mem_cons, List.not_mem_nil, or_false] at hentry ⊢
      exact hentry.imp_right .inl
    · exact List.mem_cons_of_mem _ (List.mem_cons_of_mem _ hentry)
  · simp only [smallSession, List.mem_cons, List.not_mem_nil, or_false] at hmem
    rcases hmem with rfl | rfl | rfl
    · exact ⟨rfl, nofun⟩
    · refine ⟨rfl, ?_⟩
      rintro bytes modified ⟨⟩
      decide
    · exact ⟨rfl, nofun⟩

/-- The directory is empty. -/
theorem find?_below_smallSession (hway : way ≠ []) :
    smallSession.tree.find? (["d"] ++ way) = none := by
  refine Option.eq_none_iff_forall_not_mem.mpr fun node hnode => ?_
  have hlocation := eq_of_find?_smallSession (List.cons_ne_nil _ _) hnode
  simp [hway] at hlocation

/-- At and below `t` there are only two ways. -/
theorem way_eq_of_smallSession (h : (smallSession.tree.find? (["t"] ++ way)).isSome = true) :
    way = [] ∨ way = ["e"] := by
  obtain ⟨node, hnode⟩ := Option.isSome_iff_exists.mp h
  simpa using eq_of_find?_smallSession (List.cons_ne_nil _ _) hnode

/-- All its paths are short. -/
theorem pathsFit_smallSession : PathsFit smallSession.tree ["t"] "t" "d" where
  packed := by
    intro way hthere
    rcases way_eq_of_smallSession hthere with rfl | rfl
    · decide
    · decide
  unpacked := by
    intro way hthere
    rcases way_eq_of_smallSession hthere with rfl | rfl
    · decide
    · decide

/-- The directory with the file is packed, and a copy of it is made below the empty one. -/
theorem pack_unpack_restores_small : ∃ packed final,
    run ["pack", "-o", "k", "--no-crc", "t"] smallSession = (.done, packed) ∧
      run ["unpack", "-C", "d", "k"] packed = (.done, final) ∧
      packed.warnings = #[] ∧ final.warnings = #[] ∧
      (∀ other, other ≠ ["k"] → packed.tree.find? other = smallSession.tree.find? other) ∧
      (∀ way, (final.tree.find? (["d"] ++ (["t"] ++ way))).map Node.withoutTime
        = (smallSession.tree.find? (["t"] ++ way)).map Node.withoutTime) ∧
      (∀ way, way ≠ [] → way <+: ["t"] → way ≠ ["t"] →
        final.tree.isDirectory (["d"] ++ way) = true) ∧
      ∀ other, final.tree.find? other ≠ packed.tree.find? other →
        ∃ way, way ≠ [] ∧ (way <+: ["t"] ∨ ["t"] <+: way) ∧ other = ["d"] ++ way := by
  have hpacking : Command.parse ["pack", "-o", "k", "--no-crc", "t"]
      = .ok (.pack "k" { payloadCrc := false } ["t"]) := rfl
  have hunpacking : Command.parse ["unpack", "-C", "d", "k"] = .ok (.unpack "k" "d") := rfl
  have hinput : smallSession.locate "t" = .ok (["t"], .directory 0) := rfl
  have hdirectory : smallSession.locate "d" = .ok (["d"], .directory 0) := rfl
  have houtput : Session.createFile "k" smallSession = .ok ["k"] { smallSession with
      tree := smallSession.tree.insert ["k"] (.file #[] 0) } := rfl
  have hnames : Path.names "t" = ["t"] := rfl
  have hrestored := pack_unpack_restores isSound_smallSession rfl hpacking hunpacking hinput (by decide)
    houtput (by decide) hdirectory (fun way => find?_below_smallSession) (by decide) pathsFit_smallSession
  rwa [hnames] at hrestored

/-! ### A path that gets too long -/

/-- A path to `d` with dots behind, which lead nowhere. -/
def dotted : Nat → String
  | 0 => "d"
  | count + 1 => Path.join (dotted count) "."

/-- Such a path is not empty. -/
theorem dotted_ne_empty (count : Nat) : dotted count ≠ "" := by
  induction count with
  | zero => decide
  | succ count ih => exact Path.join_ne_empty ih _

/-- What is joined to such a path comes behind a slash. -/
theorem join_dotted (count : Nat) (rest : String) :
    Path.join (dotted count) rest = dotted count ++ "/" ++ rest := by
  have hlast : (dotted count).toList.getLast? ≠ some '/' := by
    cases count with
    | zero => decide
    | succ count =>
      rw [dotted, Path.getLast?_join _ (by decide)]
      decide
  rw [Path.join, if_neg (not_or.mpr ⟨dotted_ne_empty count, hlast⟩)]

/-- Each dot makes the path two bytes longer. -/
theorem utf8ByteSize_dotted (count : Nat) : (dotted count).utf8ByteSize = 1 + 2 * count := by
  induction count with
  | zero => rfl
  | succ count ih =>
    have hdot : ("." : String).utf8ByteSize = 1 := rfl
    have hslash : ("/" : String).utf8ByteSize = 1 := rfl
    rw [dotted, join_dotted, String.utf8ByteSize_append, String.utf8ByteSize_append, ih, hdot, hslash]
    omega

/-- Such a path does not start at the root. -/
theorem head?_dotted (count : Nat) : (dotted count).toList.head? = some 'd' := by
  induction count with
  | zero => rfl
  | succ count ih => rw [dotted, Path.head?_join (dotted_ne_empty count), ih]

/-- Such a path holds no zero. -/
theorem zero_notMem_dotted (count : Nat) : '\x00' ∉ (dotted count).toList := by
  induction count with
  | zero => decide
  | succ count ih =>
    intro hmem
    rcases Path.mem_toList_join hmem with hfront | hslash | hdot
    · exact ih hfront
    · exact absurd hslash (by decide)
    · exact absurd hdot (by decide)

/-- Dots lead nowhere, however many there are. -/
theorem enter_dotted (count : Nat) :
    smallSession.tree.enter [] (Path.steps (dotted count)) = .ok ["d"] := by
  induction count with
  | zero => rfl
  | succ count ih =>
    rw [dotted, Path.steps_join (dotted_ne_empty count), enter_append_of_ok ih]
    rfl

/-- A path with dots behind leads to the directory as long as it is not too long. -/
theorem locate_dotted {count : Nat} (h : 1 + 2 * (count + 1) ≤ pathLimit) :
    smallSession.locate (dotted (count + 1)) = .ok (["d"], .directory 0) := by
  have hsteps : Path.steps (dotted (count + 1)) = Path.steps (dotted count) ++ ["."] :=
    Path.steps_join (dotted_ne_empty count) "."
  have hstart : (Route.along smallSession.directory (dotted (count + 1))).start = [] := by
    rw [Route.along, head?_dotted]
    rfl
  refine Session.locate_eq_ok.mpr ⟨checkPath_eq_ok.mpr ⟨zero_notMem_dotted _, dotted_ne_empty _, ?_⟩,
    resolve_eq_ok.mpr ⟨["d"], ?_, .inr ⟨".", ?_, .inr ⟨by decide, rfl, rfl⟩⟩⟩⟩
  · rwa [utf8ByteSize_dotted]
  · rw [hstart, Route.along, hsteps, List.dropLast_concat]
    exact enter_dotted count
  · rw [Route.along, hsteps, List.getLast?_concat]

/-- An argument without a dash in front is a value that is waited for, or an input. -/
theorem addArgument_of_head? (grammar : Grammar) {argument : String}
    (h : argument.toList.head? ≠ some '-') (findings : Findings) :
    findings.addArgument grammar argument = match findings.pending with
      | .option form none => .ok { findings with pending := .option form (some argument) }
      | _ => findings.addInput grammar argument := by
  rw [Findings.addArgument]
  split
  next text htext => simp [htext] at h
  next letter rest htext => simp [htext] at h
  next => rfl

/-- How the directory for unpacking is given. -/
theorem parse_unpackInto {directory archive : String} (hdirectory : directory.toList.head? ≠ some '-')
    (harchive : archive.toList.head? ≠ some '-') (hne : directory ≠ "") (hne' : archive ≠ "") :
    Command.parse ["unpack", "-C", directory, archive] = .ok (.unpack archive directory) := by
  have hdashes : directory ≠ "--" := by
    rintro rfl
    exact hdirectory rfl
  have hdashes' : archive ≠ "--" := by
    rintro rfl
    exact harchive rfl
  have hnamed : Command.named? "unpack" = some (Command.parseSingle unpackGrammar fun findings input =>
      .unpack input ((findings.value? .outputDir).getD ".")) := rfl
  obtain ⟨form, hname, hoption⟩ : ∃ form : OptionForm, form.name = .outputDir ∧
      Findings.addArgument unpackGrammar "-C" {} = .ok { pending := .option form none } := ⟨_, rfl, rfl⟩
  simp only [Command.parse, hnamed, Command.parseSingle, Findings.ofArguments, Findings.addAll, hoption,
    addArgument_of_head? _ hdirectory, addArgument_of_head? _ harchive, hdashes, hdashes', if_false]
  simp [Findings.addInput, Findings.settle, Findings.addOption, Findings.checkValue, Findings.value?,
    hname, hne, hne'.symm, bind, Except.bind, pure, Except.pure]

/-- **A path that gets too long.** A directory is given by a path of as many bytes as a path may have, and
leads to an empty directory. Everything can be packed, under the names `t` and `t/e`, but nothing can be
unpacked, as every path behind that of the directory is too long. -/
theorem unpack_dotted_fails :
    Command.parse ["pack", "-o", "k", "t"] = .ok (.pack "k" {} ["t"]) ∧
      Command.parse ["unpack", "-C", dotted 2047, "k"] = .ok (.unpack "k" (dotted 2047)) ∧
      smallSession.tree.IsSound ∧ smallSession.locate "t" = .ok (["t"], .directory 0) ∧
      Path.names "t" = ["t"] ∧
      (∀ way, (smallSession.tree.find? (["t"] ++ way)).isSome = true → way = [] ∨ way = ["e"]) ∧
      (∃ made, Session.createFile "k" smallSession = .ok ["k"] made) ∧ ¬ ["t"] <+: ["k"] ∧
      smallSession.locate (dotted 2047) = .ok (["d"], .directory 0) ∧
      (∀ way, way ≠ [] → smallSession.tree.find? (["d"] ++ way) = none) ∧ ¬ ["d"] <+: ["k"] ∧
      (run ["pack", "-o", "k", "t"] smallSession).1 = .done ∧
      (run ["unpack", "-C", dotted 2047, "k"] (run ["pack", "-o", "k", "t"] smallSession).2).1 ≠ .done := by
  have hpacking : Command.parse ["pack", "-o", "k", "t"] = .ok (.pack "k" {} ["t"]) := rfl
  have hunpacking : Command.parse ["unpack", "-C", dotted 2047, "k"]
      = .ok (.unpack "k" (dotted 2047)) :=
    parse_unpackInto (by rw [head?_dotted]; decide) (by decide) (dotted_ne_empty _) (by decide)
  have hinput : smallSession.locate "t" = .ok (["t"], .directory 0) := rfl
  have houtput : Session.createFile "k" smallSession = .ok ["k"] { smallSession with
      tree := smallSession.tree.insert ["k"] (.file #[] 0) } := rfl
  have hpack := packable_of_isSound isSound_smallSession rfl hinput (by decide) pathsFit_smallSession
  obtain ⟨packed, bytes, time, hpacked, -, harchive, ways, hways, hholds⟩ :=
    exists_pack {} houtput hpack (by decide)
  have hrun : run ["pack", "-o", "k", "t"] smallSession = (.done, packed) := by
    rw [run, hpacking]
    simp only [Command.run, hpacked]
  refine ⟨hpacking, hunpacking, isSound_smallSession, hinput, rfl, fun way => way_eq_of_smallSession,
    ⟨_, houtput⟩, by decide, locate_dotted (by decide), fun way => find?_below_smallSession, by decide,
    ?_, ?_⟩
  · rw [hrun]
  · rw [hrun, run, hunpacking]
    simp only [Command.run]
    cases hunpacked : unpack "k" (dotted 2047) packed with
    | error error final => simp
    | ok value final =>
      -- the path of the first entry would have been accepted, whichever way it is for
      obtain ⟨first, more, rfl⟩ := List.exists_cons_of_ne_nil
        (List.ne_nil_of_mem ((hways []).mpr (by decide)))
      have hnames : ∀ name ∈ ["t"] ++ first, IsFileName name := by
        obtain ⟨node, hnode⟩ := Option.isSome_iff_exists.mp ((hways first).mp List.mem_cons_self)
        exact isSound_smallSession.isFileName _ _ hnode
      have hnormal : ∀ name ∈ Path.names "t", IsNormal name := fun name => Path.isNormal_of_mem_names
      rw [map_entry_requestsOf hnormal (by decide), List.map_cons, List.map_cons] at hholds
      have hcheck := checkPath_of_unpack harchive (fun name hmem => (hnames name hmem).isNormal)
        (List.cons_ne_nil _ _) hholds hunpacked
      obtain ⟨-, -, hlimit⟩ := checkPath_eq_ok.mp hcheck
      have hslash : ("/" : String).utf8ByteSize = 1 := rfl
      rw [join_dotted, String.utf8ByteSize_append, String.utf8ByteSize_append, utf8ByteSize_dotted,
        hslash, pathLimit] at hlimit
      omega

end CommandLine

end RecordArchive
