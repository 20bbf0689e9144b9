import RecordArchive.CommandLine.Pack
import RecordArchive.Proofs.Archive.CopiedEntry
import RecordArchive.Proofs.FileTree

/-! # What packing puts into an archive

`pack` writes the archive file again after every call on its handle, and nothing else in the session
changes but the lines shown. So what it does is what its calls do on the handle, and these calls pack one
entry for every node at and below the input.

* `Node.request`: the request to pack the entry of a node, and `Node.exists_ok_of_packEntry`, when it
  succeeds.
* `OpenSession.Writes`: only the archive was written; `Performs`: a part of a command does what a call
  does.
* `exists_pack`: packing one input succeeds and leaves a file with one entry for each way below it. -/

namespace RecordArchive

open Program Call

/-! ## Names that fit -/

namespace EntryInfo

/-- A length up to which a name fits into every record of its entry, with all that stands there besides. -/
def fittingLength : Nat := 65489

/-- The metadata take 28 bytes at most beside the name. -/
theorem length_toBytes_le (info : EntryInfo) :
    info.toBytes.length ≤ 28 + (Text.Utf8.bytesOf info.name).length := by
  have hwidth : info.sizeWidth ≤ 8 := by
    rcases info.sizeWidth_cases with ⟨-, hwidth⟩ | ⟨size, -, hwidth | ⟨hwidth, -⟩⟩ <;> omega
  rcases hsize : info.unpackedSize? with _ | size <;> rcases hcrc : info.crc? with _ | crc <;>
    rcases htime : info.timeStamp? with _ | time <;>
    simp [toBytes, hsize, hcrc, htime] <;> omega

/-- A record with the metadata of an entry fits if the name does. -/
theorem fits_of_name {info : EntryInfo} (hname : (Text.Utf8.bytesOf info.name).length ≤ fittingLength)
    {record : Record} (hdata : record.data = info.toBytes)
    (hsize : record.addedSize.toNat ≤ record.sizeWidth.maxValue) : record.Fits where
  addedSize := fun _ => hsize
  length := by
    have hheader := RecordFlags.headerLength_le record.flags
    have hbytes := info.length_toBytes_le
    rw [Record.encodedLength, Record.headerLength, hdata]
    rw [fittingLength] at hname
    omega

end EntryInfo

/-- The announced size fits the field that is chosen for it. -/
theorem Archive.addedSize_openingRecord_le (options : ArchiveOptions) (info : EntryInfo) :
    (openingRecord options info).addedSize.toNat ≤ (openingRecord options info).sizeWidth.maxValue := by
  rw [(openingRecord_spec options info).2.2.1, sizeWidth_openingRecord]
  split
  next hnarrow => exact Nat.le_trans hnarrow.2 (by decide)
  next => exact Nat.le_pred_of_lt (UInt64.toNat_lt _)

/-! ## Entries of nodes -/

namespace Node

/-- The metadata of the entry for a node. -/
def entryInfo (name : String) : Node → EntryInfo
  | .file bytes modified => .ofFile name bytes modified
  | .directory modified => .ofDirectory name modified

/-- The kind of the entry for a node. -/
def kind : Node → EntryKind
  | .file _ _ => .regular
  | .directory _ => .directory

/-- The length that the metadata states. -/
def size? : Node → Option UInt64
  | .file bytes _ => some (UInt64.ofNat bytes.size)
  | .directory _ => none

/-- The content of the entry for a node: directories have none. -/
def content : Node → List UInt8
  | .file bytes _ => bytes.toList
  | .directory _ => []

/-- The way in which a node is packed. -/
def packing : Node → Packing MemoryStream
  | .file bytes _ => .copied { bytes }
  | .directory _ => .whole ⟨[], by decide⟩

/-- The request to pack a node under a name. -/
def request (name : String) (node : Node) : PackRequest MemoryStream :=
  ⟨node.entryInfo name, node.content, node.packing⟩

/-- What the metadata says of a node, whatever its time is. -/
theorem entryInfo_spec (name : String) (node : Node) : (node.entryInfo name).name = name ∧
    (node.entryInfo name).kind = node.kind ∧ (node.entryInfo name).unpackedSize? = node.size? ∧
    (node.entryInfo name).crc? = none := by
  rcases node with ⟨bytes, modified⟩ | modified
  · rw [entryInfo, EntryInfo.ofFile, EntryInfo.withModified]
    split
    · exact ⟨rfl, rfl, rfl, rfl⟩
    · exact ⟨rfl, rfl, rfl, rfl⟩
  · rw [entryInfo, EntryInfo.ofDirectory, EntryInfo.withModified]
    split
    · exact ⟨rfl, rfl, rfl, rfl⟩
    · exact ⟨rfl, rfl, rfl, rfl⟩

/-- The kind of an entry for a node is read back as it was written. -/
theorem ofByte_toByte_kind (node : Node) : EntryKind.ofByte node.kind.toByte = node.kind := by
  cases node with
  | file bytes modified => rfl
  | directory modified => rfl

variable {name : String} {node : Node}

/-- The length that is stated is that of the content. -/
theorem toNat_size? (hsize : node.content.length < UInt64.size) {size : UInt64}
    (h : node.size? = some size) : size.toNat = node.content.length := by
  cases node with
  | directory modified => cases h
  | file bytes modified =>
    cases h
    exact UInt64.toNat_ofNat_of_lt' hsize

/-- **The metadata is right** about the content of a node. -/
theorem isConsistent_request (hsize : node.content.length < UInt64.size) :
    (node.request name).IsConsistent := by
  obtain ⟨-, -, hstated, hcrc⟩ := node.entryInfo_spec name
  refine ⟨?_, fun size h => toNat_size? hsize (hstated.symm.trans h), fun crc h => ?_⟩
  · cases node with
    | file bytes modified => exact MemoryStream.yields _
    | directory modified => rfl
  · cases hcrc.symm.trans h

/-- **The entry of a node can be packed** between two entries if its name is not too long. -/
theorem exists_ok_of_packEntry (hname : (Text.Utf8.bytesOf name).length ≤ EntryInfo.fittingLength)
    (hsize : node.content.length < UInt64.size) {base : MemoryStream} {written : List UInt8}
    {state : HandleState} (hpacker : state.packer ∈ [PackerState.idle, .fileHeader]) :
    ∃ more next, Archive.packEntry (node.entryInfo name) node.packing
        (Archive.betweenRecords base written state)
      = .ok () (Archive.betweenRecords base more next) ∧ next.packer = .fileHeader := by
  obtain ⟨hinfo, -, hstated, -⟩ := node.entryInfo_spec name
  rw [← hinfo] at hname
  have hshort : (Text.Utf8.bytesOf (node.entryInfo name).name).length ≤ 65535 :=
    Nat.le_trans hname (by decide)
  have hheader : (node.entryInfo name).header.Fits := EntryInfo.fits_of_name hname rfl (Nat.zero_le _)
  cases node with
  | file bytes modified =>
    obtain ⟨-, hdata, hadded, -⟩ :=
      Archive.openingRecord_spec state.options ((file bytes modified).entryInfo name)
    have hopening := EntryInfo.fits_of_name hname hdata
      (Archive.addedSize_openingRecord_le state.options ((file bytes modified).entryInfo name))
    have hroom : Archive.HasRoom
        (Archive.openingRecord state.options ((file bytes modified).entryInfo name)) bytes.toList := by
      rw [Archive.HasRoom, hadded, hstated, size?, Option.getD_some, toNat_size? hsize rfl]
      rcases Nat.eq_zero_or_pos bytes.toList.length with hzero | hpos
      · exact .inr (by rw [hzero]; exact Nat.zero_le _)
      · exact .inl hpos
    obtain ⟨chunks, hentry⟩ := Archive.exists_ok_of_copied (MemoryStream.yields { bytes }) hpacker hshort
      hheader hopening hroom
    exact ⟨_, _, hentry, rfl⟩
  | directory modified =>
    have hwhole : ((state.options.requestCrc
        ((directory modified).entryInfo name).header.fixed).announcing []).Fits := by
      refine EntryInfo.fits_of_name hname ?_ (Nat.zero_le _)
      rw [((state.options.requestCrc _).announcing_frame []).2, ArchiveOptions.requestCrc]
      split
      · rfl
      · rfl
    exact ⟨_, _, (Archive.addFile_eq_ok (by decide)).mpr
      ⟨hpacker, ⟨hshort, hheader⟩, hwhole, rfl⟩, rfl⟩

end Node

/-- A request to pack a node whose name fits and whose length is a 64 bit number. -/
def PackRequest.IsOfNode (request : PackRequest MemoryStream) : Prop :=
  ∃ name node, request = Node.request name node ∧
    (Text.Utf8.bytesOf name).length ≤ EntryInfo.fittingLength ∧ node.content.length < UInt64.size

namespace Archive

variable {requests : List (PackRequest MemoryStream)} {base : MemoryStream} {written : List UInt8}
  {state : HandleState}

/-- **The entries of nodes can be packed** one after another. -/
theorem exists_ok_of_packEntries (hrequests : ∀ request ∈ requests, request.IsOfNode)
    (hpacker : state.packer ∈ [PackerState.idle, .fileHeader]) :
    ∃ more next, packEntries requests (betweenRecords base written state)
      = .ok () (betweenRecords base more next) := by
  induction requests generalizing written state with
  | nil => exact ⟨_, _, rfl⟩
  | cons request requests ih =>
    obtain ⟨⟨name, node, rfl, hname, hsize⟩, hmore⟩ := List.forall_mem_cons.mp hrequests
    obtain ⟨middle, next, hentry, hnext⟩ := node.exists_ok_of_packEntry hname hsize hpacker
    have hready : next.packer ∈ [PackerState.idle, .fileHeader] := by
      rw [hnext]
      exact List.mem_cons_of_mem _ List.mem_cons_self
    obtain ⟨more, last, hentries⟩ := ih hmore hready
    exact ⟨more, last, (bind_of_ok hentry).trans hentries⟩

/-- **The entries of nodes that are packed** stand behind what was written before. -/
theorem exists_entries_of_nodes (hrequests : ∀ request ∈ requests, request.IsOfNode)
    (base : MemoryStream) (written : List UInt8) (hpacker : state.packer ∈ [PackerState.idle, .fileHeader]) :
    ∃ segments next, packEntries requests (betweenRecords base written state)
        = .ok () (betweenRecords base (written ++ segmentBytes segments) next) ∧
      AreEntries (requests.map PackRequest.entry) segments := by
  obtain ⟨more, last, hrun⟩ := exists_ok_of_packEntries hrequests hpacker
  have hconsistent : ∀ request ∈ requests, request.IsConsistent := by
    intro request hmem
    obtain ⟨_, node, rfl, -, hsize⟩ := hrequests request hmem
    exact node.isConsistent_request hsize
  obtain ⟨segments, next, hentries, hfinal⟩ := areEntries_of_packEntries hconsistent hrun
  exact ⟨segments, next, hfinal ▸ hrun, hentries⟩

end Archive

/-! ## Sessions in which only the archive is written -/

namespace CommandLine

variable {α β : Type}

/-- **What a path leads to**: the system accepts the path and follows its route. -/
theorem Session.locate_eq_ok {session : Session} {path : String} {found : Location × Node} :
    session.locate path = .ok found ↔ FileTree.checkPath path = .ok () ∧
      session.tree.resolve (FileTree.Route.along session.directory path) = .ok found := by
  rw [locate]
  cases hroute : FileTree.Route.ofPath session.directory path with
  | error error =>
    have hcheck : FileTree.checkPath path ≠ .ok () := by
      intro hcheck
      cases (FileTree.Route.ofPath_eq_ok.mpr ⟨hcheck, rfl⟩).symm.trans hroute
    simp [bind, Except.bind, hcheck]
  | ok route =>
    obtain ⟨hcheck, rfl⟩ := FileTree.Route.ofPath_eq_ok.mp hroute
    simp only [bind, Except.bind, hcheck, true_and]

/-- **Nothing but one file was written**: beside that and the lines shown the sessions are the same. -/
structure Session.SameBut (spot : Location) (start final : Session) : Prop where
  directory : final.directory = start.directory
  clock : final.clock = start.clock
  warnings : final.warnings = start.warnings
  elsewhere : ∀ other, other ≠ spot → final.tree.find? other = start.tree.find? other

namespace Session.SameBut

variable {spot other : Location} {start middle final : Session}

/-- A session agrees with itself. -/
theorem refl : SameBut spot start start := ⟨rfl, rfl, rfl, fun _ _ => rfl⟩

/-- Two changes at one location are one. -/
theorem trans (h : SameBut spot start middle) (h' : SameBut spot middle final) :
    SameBut spot start final where
  directory := h'.directory.trans h.directory
  clock := h'.clock.trans h.clock
  warnings := h'.warnings.trans h.warnings
  elsewhere := fun other hother => (h'.elsewhere other hother).trans (h.elsewhere other hother)

/-- Directories stay where they are. -/
theorem isDirectory (h : SameBut spot start final) (hfile : start.tree.isDirectory spot = false)
    (hthere : start.tree.isDirectory other = true) : final.tree.isDirectory other = true := by
  have hother : other ≠ spot := by
    rintro rfl
    cases hfile.symm.trans hthere
  rwa [FileTree.isDirectory, h.elsewhere other hother]

/-- A path leads where it has led. -/
theorem locate (h : SameBut spot start final) (hfile : start.tree.isDirectory spot = false)
    {path : String} {node : Node} (hother : other ≠ spot)
    (hpath : start.locate path = .ok (other, node)) : final.locate path = .ok (other, node) := by
  obtain ⟨hcheck, hresolve⟩ := locate_eq_ok.mp hpath
  rw [← h.directory] at hresolve
  exact locate_eq_ok.mpr ⟨hcheck, FileTree.resolve_mono (fun _ hthere => h.isDirectory hfile hthere)
    (h.elsewhere other hother) hresolve⟩

end Session.SameBut

namespace OpenSession

/-- What is on the stream of the handle stands in the archive file. -/
def IsStored (state : OpenSession) : Prop :=
  state.tree.find? state.location = some (.file state.archive.stream.bytes state.clock)

/-- The archive is not the root. -/
theorem IsStored.location_ne_nil {state : OpenSession} (h : state.IsStored) : state.location ≠ [] := by
  intro hnil
  rw [IsStored, hnil] at h
  cases h

/-- The archive is not a directory. -/
theorem IsStored.isDirectory {state : OpenSession} (h : state.IsStored) :
    state.tree.isDirectory state.location = false := by
  rw [FileTree.isDirectory, h]

/-- **Only the archive was written**, and it is stored. -/
structure Writes (start final : OpenSession) : Prop where
  location : final.location = start.location
  same : Session.SameBut start.location start.toSession final.toSession
  stored : final.IsStored

namespace Writes

variable {start middle final : OpenSession}

/-- Nothing was written. -/
theorem refl (h : start.IsStored) : Writes start start := ⟨rfl, .refl, h⟩

/-- Two parts of a command that write the archive are one. -/
theorem trans (h : Writes start middle) (h' : Writes middle final) : Writes start final where
  location := h'.location.trans h.location
  same := h.same.trans (h.location ▸ h'.same)
  stored := h'.stored

end Writes

end OpenSession

open OpenSession

/-- **A part of a command does what a call does**: it gives the value of the call and leaves the handle as
the call does, and only the archive is written. -/
def Performs (program : OpenProgram α) (call : Call MemoryStream α) : Prop :=
  ∀ state value archive, state.IsStored → call state.archive = .ok value archive →
    ∃ final, program state = .ok value final ∧ final.archive = archive ∧ Writes state final

/-- A call on the archive is done as it is. -/
theorem performs_writeArchive (call : Call MemoryStream α) : Performs (writeArchive call) call := by
  intro state value archive hstored hrun
  refine ⟨state.store archive, ?_, rfl, rfl, ⟨rfl, rfl, rfl, fun other hother => ?_⟩, ?_⟩
  · rw [writeArchive, hrun]
  · exact FileTree.find?_insert_of_ne _ hother _
  · exact FileTree.find?_insert_self _ hstored.location_ne_nil _

/-- A line of output does nothing to the archive. -/
theorem performs_print (line : String) : Performs (onSession (Session.print line)) (pure ()) := by
  intro state value archive hstored hrun
  obtain ⟨-, rfl⟩ := pure_eq_ok.mp hrun
  exact ⟨_, rfl, rfl, rfl, ⟨rfl, rfl, rfl, fun _ _ => rfl⟩, hstored⟩

/-- **Parts in a row** do what their calls do in a row. -/
theorem Performs.bind {program : OpenProgram α} {call : Call MemoryStream α} {next : α → OpenProgram β}
    {nextCall : α → Call MemoryStream β} (h : Performs program call)
    (hnext : ∀ value, Performs (next value) (nextCall value)) :
    Performs (program >>= next) (call >>= nextCall) := by
  intro state result archive hstored hrun
  obtain ⟨value, middle, hcall, hmore⟩ := bind_eq_ok.mp hrun
  obtain ⟨between, hprogram, rfl, hbetween⟩ := h state value middle hstored hcall
  obtain ⟨final, hrest, rfl, hfinal⟩ := hnext value between result archive hbetween.stored hmore
  exact ⟨final, (bind_of_ok hprogram).trans hrest, rfl, hbetween.trans hfinal⟩

/-! ## Packing nodes -/

section Nodes

variable {state : OpenSession} {path name : String} {location : Location}
  {archive : Archive MemoryStream}

/-- **A file is packed** as a copied entry. -/
theorem performs_packFile (info : EntryInfo) (bytes : Array UInt8) :
    Performs (packFile info bytes) (Archive.packEntry info (.copied ({ bytes } : MemoryStream))) :=
  (performs_writeArchive _).bind fun _ => (performs_writeArchive _).bind fun _ => performs_writeArchive _

/-- **A node is packed** as its entry. -/
theorem exists_packNode {node : Node} (hstored : state.IsStored)
    (hfound : state.tree.find? location = some node)
    (hrun : Archive.packEntry (node.entryInfo name) node.packing state.archive = .ok () archive) :
    ∃ final, packNode path name location state = .ok () final ∧ final.archive = archive ∧
      Writes state final := by
  have hget : (get : OpenProgram OpenSession) state = .ok state state := rfl
  have hrow := (bind_of_ok hrun).trans (rfl : (pure () : Call MemoryStream Unit) archive = _)
  rw [packNode, bind_of_ok hget]
  simp only [hfound]
  cases node with
  | file bytes modified =>
    exact ((performs_packFile _ bytes).bind fun _ => performs_print _) _ _ _ hstored hrow
  | directory modified =>
    exact ((performs_writeArchive _).bind fun _ => performs_print _) _ _ _ hstored hrow

/-- **Nodes are packed** one after another, if the system accepts their paths. -/
theorem exists_packWays {node : Location → Node} {ways : List Location} (hstored : state.IsStored)
    (hways : ∀ way ∈ ways, FileTree.checkPath (along path way) = .ok () ∧
      location ++ way ≠ state.location ∧ state.tree.find? (location ++ way) = some (node way))
    (hrun : Archive.packEntries (ways.map fun way => (node way).request (along name way)) state.archive
      = .ok () archive) :
    ∃ final, ways.forM (packWay path name location) state = .ok () final ∧ final.archive = archive ∧
      Writes state final := by
  induction ways generalizing state with
  | nil =>
    obtain ⟨-, rfl⟩ := pure_eq_ok.mp hrun
    exact ⟨state, rfl, rfl, .refl hstored⟩
  | cons way ways ih =>
    obtain ⟨⟨hcheck, -, hfound⟩, hmore⟩ := List.forall_mem_cons.mp hways
    obtain ⟨_, middle, hentry, hentries⟩ := bind_eq_ok.mp hrun
    obtain ⟨between, hnode, rfl, hbetween⟩ : ∃ between, packNode (along path way) (along name way)
        (location ++ way) state = .ok () between ∧ between.archive = middle ∧ Writes state between :=
      exists_packNode hstored hfound hentry
    have hway : packWay path name location way state = .ok () between := by
      rw [packWay, hcheck]
      exact hnode
    -- the other nodes stand where they stood, as the archive is none of them
    obtain ⟨final, hrest, harchive, hfinal⟩ := ih hbetween.stored (fun other hmem => by
      obtain ⟨hcheck, hother, hfound⟩ := hmore other hmem
      exact ⟨hcheck, hbetween.location.symm ▸ hother, (hbetween.same.elsewhere _ hother).trans hfound⟩)
      hentries
    exact ⟨final, (bind_of_ok hway).trans hrest, harchive, hbetween.trans hfinal⟩

end Nodes

/-! ## Packing an input -/

/-- The archive header is written on a handle that has been turned to writing. -/
theorem initArchive_betweenRecords (base : MemoryStream) (options : ArchiveOptions) :
    Archive.initArchive (Archive.betweenRecords base Marker.bytes { options })
      = .ok () (Archive.betweenRecords base (Marker.bytes ++ ArchiveHeader.current.record.fixed.toBytes)
        { options, packer := .fileHeader }) := by
  have hfresh : Archive.expectFresh "init_archive" (Archive.betweenRecords base Marker.bytes { options })
      = .ok () (Archive.betweenRecords base Marker.bytes { options }) := rfl
  have hstart : Archive.startWriting (Archive.betweenRecords base Marker.bytes { options })
      = .ok () (Archive.betweenRecords base Marker.bytes { options }) := rfl
  have hfresh' : Archive.expectFresh "init_archive" (Archive.ofStream base options)
      = .ok () (Archive.ofStream base options) := rfl
  -- from here on it is the same call as on a handle that is used for nothing yet
  rw [← Archive.initArchive_ofStream, Archive.initArchive, bind_of_ok hfresh, bind_of_ok hstart,
    bind_of_ok hfresh', bind_of_ok (Archive.startWriting_ofStream base options)]

/-- The node at a location at which there is one. -/
def nodeAt (tree : FileTree) (location : Location) : Node := (tree.find? location).getD (.directory 0)

/-- Where there is a node it is found. -/
theorem find?_eq_nodeAt {tree : FileTree} {location : Location}
    (h : (tree.find? location).isSome = true) : tree.find? location = some (nodeAt tree location) := by
  obtain ⟨node, hnode⟩ := Option.isSome_iff_exists.mp h
  rw [nodeAt, hnode, Option.getD_some]

/-- The requests for the ways below a location, under names that go on from a given one. -/
def requestsOf (tree : FileTree) (name : String) (location : Location) (ways : List Location) :
    List (PackRequest MemoryStream) :=
  ways.map fun way => (nodeAt tree (location ++ way)).request (along name way)

/-- **An input that can be packed**: it leads to a location at which something stands, and everything there
and below has a path that the system accepts, a name that fits, and content whose length is a 64 bit
number. -/
structure Packable (session : Session) (path name : String) (location : Location) : Prop where
  named : Path.entryName? path = some name
  leads : ∃ node, session.locate path = .ok (location, node)
  there : (session.tree.find? location).isSome = true
  checkPath : ∀ way, (session.tree.find? (location ++ way)).isSome = true →
    FileTree.checkPath (along path way) = .ok ()
  length : ∀ way, (session.tree.find? (location ++ way)).isSome = true →
    (Text.Utf8.bytesOf (along name way)).length ≤ EntryInfo.fittingLength
  size : ∀ way, (session.tree.find? (location ++ way)).isSome = true →
    (nodeAt session.tree (location ++ way)).content.length < UInt64.size

namespace Packable

variable {start final : Session} {path name : String} {location spot : Location}

/-- A way below a location that does not lead to a file outside. -/
theorem append_ne_of_outside (houtside : ¬ location <+: spot) (way : Location) :
    location ++ way ≠ spot := fun heq => houtside ⟨way, heq⟩

/-- What is packed does not depend on a file outside. -/
theorem nodeAt_eq (houtside : ¬ location <+: spot) (h : Session.SameBut spot start final)
    (way : Location) : nodeAt final.tree (location ++ way) = nodeAt start.tree (location ++ way) := by
  rw [nodeAt, nodeAt, h.elsewhere _ (append_ne_of_outside houtside way)]

/-- The requests do not depend on a file outside either. -/
theorem requestsOf_eq (houtside : ¬ location <+: spot) (h : Session.SameBut spot start final)
    (name : String) (ways : List Location) :
    requestsOf final.tree name location ways = requestsOf start.tree name location ways :=
  List.map_congr_left fun way _ => by rw [nodeAt_eq houtside h]

/-- An input can still be packed when a file outside is written. -/
theorem of_sameBut (hpack : Packable start path name location) (houtside : ¬ location <+: spot)
    (hfile : start.tree.isDirectory spot = false) (h : Session.SameBut spot start final) :
    Packable final path name location := by
  have hfind (way : Location) :
      final.tree.find? (location ++ way) = start.tree.find? (location ++ way) :=
    h.elsewhere _ (append_ne_of_outside houtside way)
  have hhere := hfind []
  rw [List.append_nil] at hhere
  obtain ⟨node, hleads⟩ := hpack.leads
  refine ⟨hpack.named, ⟨node, h.locate hfile ?_ hleads⟩, hhere ▸ hpack.there, fun way hway => ?_,
    fun way hway => ?_, fun way hway => ?_⟩
  · have := append_ne_of_outside houtside []
    rwa [List.append_nil] at this
  · exact hpack.checkPath way (hfind way ▸ hway)
  · exact hpack.length way (hfind way ▸ hway)
  · rw [nodeAt_eq houtside h]
    exact hpack.size way (hfind way ▸ hway)

end Packable

/-- The ways to what stands at and below the location of an input. -/
theorem isSome_of_mem_ways {tree : FileTree} {location way : Location}
    (hthere : (tree.find? location).isSome = true) :
    way ∈ tree.ways location ↔ (tree.find? (location ++ way)).isSome = true := by
  rw [FileTree.mem_ways]
  constructor
  · rintro (rfl | hway)
    · rwa [List.append_nil]
    · exact hway
  · exact .inr

/-- What is asked for when an input is packed are its nodes. -/
theorem Packable.isOfNode {session : Session} {path name : String} {location : Location}
    (hpack : Packable session path name location) : ∀ request ∈ requestsOf session.tree name location
      (session.tree.ways location), request.IsOfNode := by
  intro request hmem
  obtain ⟨way, hway, rfl⟩ := List.mem_map.mp hmem
  have hthere := (isSome_of_mem_ways hpack.there).mp hway
  exact ⟨_, _, rfl, hpack.length way hthere, hpack.size way hthere⟩

/-- **An input is packed** as requests for all that stands there and below. -/
theorem exists_packInput {state : OpenSession} {path name : String} {location : Location}
    {archive : Archive MemoryStream} (hpack : Packable state.toSession path name location)
    (hstored : state.IsStored) (houtside : ¬ location <+: state.location)
    (hrun : Archive.packEntries (requestsOf state.tree name location (state.tree.ways location))
      state.archive = .ok () archive) :
    ∃ final, packInput path state = .ok () final ∧ final.archive = archive ∧ Writes state final := by
  obtain ⟨node, hleads⟩ := hpack.leads
  have hget : (get : OpenProgram OpenSession) state = .ok state state := rfl
  rw [packInput, hpack.named]
  simp only
  rw [bind_of_ok hget, hleads]
  refine exists_packWays hstored (fun way hmem => ?_) hrun
  have hway := (isSome_of_mem_ways hpack.there).mp hmem
  exact ⟨hpack.checkPath way hway, Packable.append_ne_of_outside houtside way, find?_eq_nodeAt hway⟩

/-! ## Making the archive -/

namespace Session

variable {session made : Session} {path : String} {spot : Location}

/-- **A file is made** if the system accepts its path and the tree the file. -/
theorem createFile_eq_ok : createFile path session = .ok spot made ↔
    FileTree.checkPath path = .ok () ∧ ∃ tree, session.tree.createFile
      (FileTree.Route.along session.directory path) session.clock = .ok (spot, tree) ∧
      { session with tree } = made := by
  rw [createFile]
  cases hroute : FileTree.Route.ofPath session.directory path with
  | error error =>
    have hcheck : FileTree.checkPath path ≠ .ok () := by
      intro hcheck
      cases (FileTree.Route.ofPath_eq_ok.mpr ⟨hcheck, rfl⟩).symm.trans hroute
    simp [bind, Except.bind, hcheck]
  | ok route =>
    obtain ⟨hcheck, rfl⟩ := FileTree.Route.ofPath_eq_ok.mp hroute
    simp only [bind, Except.bind, hcheck, true_and]
    cases session.tree.createFile (FileTree.Route.along session.directory path) session.clock with
    | error error => simp
    | ok result =>
      obtain ⟨location, tree⟩ := result
      simp only [EStateM.Result.ok.injEq, Except.ok.injEq, Prod.mk.injEq, and_assoc, exists_and_left,
        exists_eq_left']

/-- What making a file changes, and where the path leads from then on. -/
theorem of_createFile (h : createFile path session = .ok spot made) :
    SameBut spot session made ∧ session.tree.isDirectory spot = false ∧
      made.tree.find? spot = some (.file #[] session.clock) ∧
      ∀ final bytes modified, SameBut spot session final →
        final.tree.find? spot = some (.file bytes modified) →
        final.locate path = .ok (spot, .file bytes modified) := by
  obtain ⟨hcheck, tree, hcreate, rfl⟩ := createFile_eq_ok.mp h
  obtain ⟨parent, step, hparent, hlast, hname, hwants, hlimit, rfl, hfile, rfl⟩ :=
    FileTree.createFile_eq_ok.mp hcreate
  refine ⟨⟨rfl, rfl, rfl, fun other hother => FileTree.find?_insert_of_ne _ hother _⟩, hfile,
    FileTree.find?_insert_self _ (List.concat_ne_nil _ _) _, fun final bytes modified hsame hfound => ?_⟩
  refine locate_eq_ok.mpr ⟨hcheck, FileTree.resolve_eq_ok.mpr ⟨parent, ?_, .inr ⟨step, hlast, .inl
    ⟨hname, hlimit, rfl, hfound, ?_⟩⟩⟩⟩
  · rw [hsame.directory]
    exact FileTree.enter_mono (fun _ hthere => hsame.isDirectory hfile hthere) hparent
  · rw [hsame.directory, hwants]
    nofun

end Session

/-- **An archive with these entries**: the marker, the archive header, and records that are the entries. -/
def HoldsEntries (bytes : Array UInt8) (entries : List (EntryInfo × List UInt8)) : Prop :=
  ∃ segments, AreEntries entries segments ∧ bytes.toList
    = Marker.bytes ++ (ArchiveHeader.current.record.fixed.toBytes ++ segmentBytes segments)

/-- The archive holds one entry for every way below the input. -/
def HoldsInput (bytes : Array UInt8) (tree : FileTree) (name : String) (location : Location) : Prop :=
  ∃ ways : List Location, (∀ way, way ∈ ways ↔ (tree.find? (location ++ way)).isSome = true) ∧
    HoldsEntries bytes ((requestsOf tree name location ways).map PackRequest.entry)

/-- **An archive of one input** is made on a handle that is used for nothing yet. -/
theorem exists_packInputs {start : OpenSession} {options : ArchiveOptions} {input name : String}
    {location : Location} (hstored : start.IsStored)
    (harchive : start.archive = Archive.ofStream {} options)
    (hpack : Packable start.toSession input name location) (houtside : ¬ location <+: start.location) :
    ∃ final, packInputs [input] start = .ok () final ∧ Writes start final ∧
      HoldsInput final.archive.stream.bytes start.tree name location := by
  -- the marker and the archive header are written in front of the entries
  obtain ⟨marked, hmark, hmarked, hmarks⟩ := performs_writeArchive Archive.startWriting start _ _ hstored
    (harchive ▸ Archive.startWriting_ofStream {} options)
  obtain ⟨opened, hinit, hopened, hopens⟩ := performs_writeArchive Archive.initArchive marked _ _
    hmarks.stored (hmarked ▸ initArchive_betweenRecords {} options)
  have hopening := hmarks.trans hopens
  have hready := hpack.of_sameBut houtside hstored.isDirectory hopening.same
  -- then all that stands at the input and below is packed, and the archive is handed over
  have hpacker : ({ options, packer := .fileHeader } : HandleState).packer
      ∈ [PackerState.idle, .fileHeader] := List.mem_cons_of_mem _ List.mem_cons_self
  obtain ⟨segments, next, hentries, hare⟩ := Archive.exists_entries_of_nodes hready.isOfNode {}
    (Marker.bytes ++ ArchiveHeader.current.record.fixed.toBytes) hpacker
  obtain ⟨filled, hinput, hfilled, hfills⟩ := exists_packInput hready hopens.stored
    (hopening.location.symm ▸ houtside) (hopened.symm ▸ hentries)
  have hflush : Archive.finishWriting filled.archive = .ok () filled.archive := by
    rw [hfilled]
    rfl
  obtain ⟨final, hfinish, hfinal, hfinishes⟩ := performs_writeArchive Archive.finishWriting filled _ _
    hfills.stored hflush
  rw [Packable.requestsOf_eq houtside hopening.same] at hare
  refine ⟨final, (bind_of_ok hmark).trans ((bind_of_ok hinit).trans
    ((bind_of_ok (bind_of_ok hinput)).trans hfinish)), hopening.trans (hfills.trans hfinishes),
    opened.tree.ways location, fun way => ?_, segments, hare, ?_⟩
  · rw [isSome_of_mem_ways hready.there,
      hopening.same.elsewhere _ (Packable.append_ne_of_outside houtside way)]
  · rw [hfinal, hfilled, ← List.append_assoc]
    exact MemoryStream.toList_write_empty _

/-- **Packing one input** that can be packed succeeds if the archive can be made outside of it. Nothing but
the archive has changed then, and it holds one entry for every way below the input. -/
theorem exists_pack {session made : Session} {output input name : String} {location spot : Location}
    (options : ArchiveOptions) (hmade : Session.createFile output session = .ok spot made)
    (hpack : Packable session input name location) (houtside : ¬ location <+: spot) :
    ∃ packed bytes modified, pack output options [input] session = .ok () packed ∧
      Session.SameBut spot session packed ∧
      packed.locate output = .ok (spot, .file bytes modified) ∧
      HoldsInput bytes session.tree name location := by
  obtain ⟨hcreated, hfile, hempty, hleads⟩ := Session.of_createFile hmade
  let start : OpenSession := { made with location := spot, archive := Archive.ofStream {} options }
  have hstart : start.IsStored := by
    rw [IsStored]
    exact hcreated.clock.symm ▸ hempty
  obtain ⟨final, hprogram, hwrites, ways, hways, hholds⟩ :=
    exists_packInputs hstart rfl (hpack.of_sameBut houtside hfile hcreated) houtside
  have hcreate : EStateM.adaptExcept (fun error => CommandError.archive (.ofOpening error))
      (Session.createFile output) session = .ok spot made := adaptExcept_eq_ok.mpr hmade
  have hwith : withArchive spot (Archive.ofStream {} options) (packInputs [input]) made
      = .ok () final.toSession := by
    rw [withArchive, hprogram]
  have hkept : Session.SameBut spot session { final.toSession with
      output := final.output.push s!"Created: {output}" } := by
    obtain ⟨hdirectory, hclock, hwarnings, helsewhere⟩ := hcreated.trans hwrites.same
    exact ⟨hdirectory, hclock, hwarnings, helsewhere⟩
  have hstored := hwrites.stored
  rw [IsStored, hwrites.location] at hstored
  refine ⟨_, _, _, (bind_of_ok hcreate).trans ((bind_of_ok hwith).trans rfl), hkept,
    hleads _ _ _ hkept hstored, ways, fun way => ?_, ?_⟩
  · rw [hways, hcreated.elsewhere _ (Packable.append_ne_of_outside houtside way)]
  · rwa [Packable.requestsOf_eq houtside hcreated] at hholds

end CommandLine

end RecordArchive
