import RecordArchive.Proofs.Outcome
import RecordArchive.Proofs.Path

/-! # Where routes lead

A route is followed step by step through directories that are there. What is made below a location does
not change where the routes to that location lead, as long as no directory is replaced by a file.

* `FileTree.stepInto_eq_ok`, `FileTree.enter_append`, `FileTree.enter_names`: following steps.
* `FileTree.enter_of_resolve`: a path to a directory is followed to its last step.
* `FileTree.IsSound`: a tree as a file system has it. What a path leads to in it is there.
* `FileTree.mem_ways`: the ways to what stands below a location.
* `FileTree.makeSteps_append`: making directories along steps that can be followed makes nothing.
* `FileTree.ChangedBelow`: a tree in which nodes below a location were made or replaced. -/

open RecordArchive.Path (IsNormal)

namespace RecordArchive

open Program

namespace FileTree

variable {tree : FileTree} {location next : Location}

/-- A directory is a node that is one, whenever it was modified. -/
theorem isDirectory_iff : tree.isDirectory location = true ↔
    ∃ modified, tree.find? location = some (.directory modified) := by
  rw [isDirectory]
  cases tree.find? location with
  | none => simp
  | some node => cases node <;> simp

/-- What is put at a location takes the place of what was put there before. -/
theorem insert_insert (tree : FileTree) (location : Location) (node other : Node) :
    (tree.insert location node).insert location other = tree.insert location other := by
  obtain ⟨nodes⟩ := tree
  refine congrArg FileTree.mk ?_
  induction nodes with
  | nil => simp [insert, insertNode]
  | cons first rest ih =>
    obtain ⟨present, standing⟩ := first
    by_cases heq : present = location
    · simp [insert, insertNode, heq]
    · simpa [insert, insertNode, heq] using ih

/-! ## Routes -/

/-- A path is accepted if and only if it holds no zero, is not empty and is not too long. -/
theorem checkPath_eq_ok {path : String} : checkPath path = .ok () ↔
    '\x00' ∉ path.toList ∧ path ≠ "" ∧ path.utf8ByteSize ≤ pathLimit := by
  rw [checkPath]
  split
  next h => simp [List.contains_iff_mem.mp h]
  next h =>
    rw [List.contains_iff_mem] at h
    split
    next hempty => simp [hempty]
    next hempty =>
      split
      next hlong => simp [Nat.not_le.mpr hlong]
      next hlong => simp [h, hempty, Nat.not_lt.mp hlong]

/-- A path that is accepted is accepted without its end. -/
theorem checkPath_of_isFront {front path : String} (hne : front ≠ "")
    (hfront : front.toList <+: path.toList) (h : checkPath path = .ok ()) : checkPath front = .ok () := by
  obtain ⟨hzero, -, hlimit⟩ := checkPath_eq_ok.mp h
  exact checkPath_eq_ok.mpr ⟨fun hmem => hzero (hfront.subset hmem), hne,
    Nat.le_trans (Path.utf8ByteSize_le_of_isFront hfront) hlimit⟩

/-- The route of a path, if there is nothing against the path itself. -/
def Route.along (directory : Location) (path : String) : Route where
  start := if path.toList.head? = some '/' then [] else directory
  steps := Path.steps path
  wantsDirectory := path.toList.getLast? = some '/'

/-- The route of a path that is accepted is along its steps. -/
theorem Route.ofPath_eq_ok {directory : Location} {path : String} {route : Route} :
    Route.ofPath directory path = .ok route ↔
      checkPath path = .ok () ∧ Route.along directory path = route := by
  rw [Route.ofPath]
  cases checkPath path with
  | error error =>
    show Except.error error = Except.ok route ↔ _
    simp
  | ok value =>
    show Except.ok (Route.along directory path) = Except.ok route ↔ _
    simp

/-! ## Following steps -/

/-- A step is a name unless it stays or leads up. -/
theorem isName_iff {step : String} : isName step = true ↔ step ≠ "." ∧ step ≠ ".." := by
  rw [isName, Bool.and_eq_true, decide_eq_true_eq, decide_eq_true_eq]

/-- **One step** stays, leads up, or leads into a directory that is there. -/
theorem stepInto_eq_ok {step : String} : tree.stepInto location step = .ok next ↔
    (step = "." ∧ next = location) ∨ (step = ".." ∧ next = location.dropLast) ∨
      (isName step = true ∧ step.utf8ByteSize ≤ nameLimit ∧
        tree.isDirectory (location ++ [step]) = true ∧ next = location ++ [step]) := by
  have hdifferent : (".." : String) ≠ "." := by decide
  rw [stepInto, isName_iff]
  by_cases hdot : step = "."
  · rw [if_pos hdot]
    simp only [Except.ok.injEq, hdot, hdifferent.symm, true_and, false_and, ne_eq, not_true, or_false,
      eq_comm]
  by_cases hdots : step = ".."
  · rw [if_neg hdot, if_pos hdots]
    simp only [Except.ok.injEq, hdots, hdifferent, true_and, false_and, false_or, ne_eq, not_true,
      and_false, or_false, eq_comm]
  rw [if_neg hdot, if_neg hdots]
  by_cases hlong : nameLimit < step.utf8ByteSize
  · simp [hlong, hdot, hdots, Nat.not_le.mpr hlong]
  rw [if_neg hlong, isDirectory]
  cases tree.find? (location ++ [step]) with
  | none => simp [hdot, hdots]
  | some node =>
    cases node with
    | file bytes modified => simp [hdot, hdots]
    | directory modified => simp [hdot, hdots, Nat.not_lt.mp hlong, eq_comm]

/-- Steps behind others go on where those have led. -/
theorem enter_append (front back : List String) :
    tree.enter location (front ++ back)
      = (tree.enter location front).bind fun middle => tree.enter middle back := by
  induction front generalizing location with
  | nil => rfl
  | cons step front ih =>
    rw [List.cons_append, enter, enter]
    cases tree.stepInto location step with
    | error error => rfl
    | ok middle => exact ih

/-- Steps behind others that lead somewhere start from there. -/
theorem enter_append_of_ok {front : List String} {middle : Location}
    (h : tree.enter location front = .ok middle) (back : List String) :
    tree.enter location (front ++ back) = tree.enter middle back := by
  rw [enter_append, h]
  rfl

/-- A single step. -/
theorem enter_singleton (step : String) : tree.enter location [step] = tree.stepInto location step := by
  rw [enter]
  cases tree.stepInto location step with
  | error error => rfl
  | ok middle => rfl

/-- Steps lead where they have led as long as the directories are there. -/
theorem enter_mono {start : FileTree}
    (h : ∀ location, start.isDirectory location = true → tree.isDirectory location = true)
    {steps : List String} (hsteps : start.enter location steps = .ok next) :
    tree.enter location steps = .ok next := by
  induction steps generalizing location with
  | nil => exact hsteps
  | cons step steps ih =>
    rw [enter] at hsteps ⊢
    cases hstep : start.stepInto location step with
    | error error =>
      rw [hstep] at hsteps
      cases hsteps
    | ok middle =>
      rw [hstep] at hsteps
      have hkept : tree.stepInto location step = .ok middle :=
        stepInto_eq_ok.mpr ((stepInto_eq_ok.mp hstep).imp_right fun hdown =>
          hdown.imp_right fun ⟨hname, hlimit, hthere, heq⟩ => ⟨hname, hlimit, h _ hthere, heq⟩)
      rw [hkept]
      exact ih hsteps

/-- Names that are taken as steps are short enough. -/
theorem utf8ByteSize_le_of_enter {steps : List String} (h : tree.enter location steps = .ok next)
    {name : String} (hmem : name ∈ steps) (hname : isName name = true) :
    name.utf8ByteSize ≤ nameLimit := by
  induction steps generalizing location with
  | nil => exact absurd hmem List.not_mem_nil
  | cons step steps ih =>
    rw [enter] at h
    cases hstep : tree.stepInto location step with
    | error error =>
      rw [hstep] at h
      cases h
    | ok middle =>
      rw [hstep] at h
      rcases List.mem_cons.mp hmem with rfl | hmore
      · rcases stepInto_eq_ok.mp hstep with ⟨rfl, -⟩ | ⟨rfl, -⟩ | ⟨-, hlimit, -⟩
        · exact absurd hname (by decide)
        · exact absurd hname (by decide)
        · exact hlimit
      · exact ih h hmore

/-- Names of directories that are there lead down through them. -/
theorem enter_of_isDirectory {names : List String}
    (hnames : ∀ name ∈ names, isName name = true ∧ name.utf8ByteSize ≤ nameLimit)
    (h : ∀ front, front ≠ [] → front <+: names → tree.isDirectory (location ++ front) = true) :
    tree.enter location names = .ok (location ++ names) := by
  induction names generalizing location with
  | nil => rw [enter, List.append_nil]
  | cons name names ih =>
    obtain ⟨⟨hname, hlimit⟩, hmore⟩ := List.forall_mem_cons.mp hnames
    have hthere := h [name] (List.cons_ne_nil _ _) ⟨names, rfl⟩
    have hstep : tree.stepInto location name = .ok (location ++ [name]) :=
      stepInto_eq_ok.mpr (.inr (.inr ⟨hname, hlimit, hthere, rfl⟩))
    have hbehind : tree.enter (location ++ [name]) names = .ok (location ++ [name] ++ names) := by
      refine ih hmore fun front _ hfront => ?_
      rw [List.append_assoc, List.singleton_append]
      exact h (name :: front) (List.cons_ne_nil _ _) ((List.prefix_cons_inj name).mpr hfront)
    rw [enter, hstep]
    simpa using hbehind

/-- Names lead straight down. -/
theorem enter_names {names : List String} (hnames : ∀ name ∈ names, isName name = true)
    (h : tree.enter location names = .ok next) : next = location ++ names := by
  induction names generalizing location with
  | nil =>
    cases h
    exact (List.append_nil _).symm
  | cons name names ih =>
    rw [enter] at h
    cases hstep : tree.stepInto location name with
    | error error =>
      rw [hstep] at h
      cases h
    | ok middle =>
      rw [hstep] at h
      have hname := hnames name List.mem_cons_self
      rcases stepInto_eq_ok.mp hstep with ⟨rfl, -⟩ | ⟨rfl, -⟩ | ⟨-, -, -, rfl⟩
      · exact absurd rfl (isName_iff.mp hname).1
      · exact absurd rfl (isName_iff.mp hname).2
      · rw [ih (fun other hmem => hnames other (List.mem_cons_of_mem _ hmem)) h, List.append_assoc]
        rfl

/-- A dot leads nowhere. -/
theorem enter_dots {dots : List String} (hdots : ∀ step ∈ dots, step = ".") :
    tree.enter location dots = .ok location := by
  induction dots with
  | nil => rfl
  | cons step dots ih =>
    obtain ⟨rfl, hmore⟩ := List.forall_mem_cons.mp hdots
    exact ih hmore

/-- The last step may lead to a file, but not if the path ends in a slash. -/
theorem resolve_of_last {route : Route} {parent : Location} {step : String}
    (hparent : tree.enter route.start route.steps.dropLast = .ok parent)
    (hlast : route.steps.getLast? = some step) : tree.resolve route =
      if isName step then
        if nameLimit < step.utf8ByteSize then .error (.system .invalidFilename)
        else match tree.find? (parent ++ [step]) with
          | none => .error (.system .notFound)
          | some (.file bytes modified) =>
            if route.wantsDirectory then .error (.system .notADirectory)
            else .ok (parent ++ [step], .file bytes modified)
          | some node => .ok (parent ++ [step], node)
      else
        match tree.stepInto parent step with
        | .error error => .error error
        | .ok location => .ok (location, (tree.find? location).getD (.directory 0)) := by
  simp only [resolve, hparent, hlast, bind, Except.bind, pure, Except.pure, throw, throwThe,
    MonadExceptOf.throw]
  cases tree.stepInto parent step with
  | error error => rfl
  | ok location => rfl

/-- **What a route leads to**: where it starts if it has no steps, an entry of the directory that all
steps but the last one lead to, or a directory that dots lead to. -/
theorem resolve_eq_ok {route : Route} {node : Node} : tree.resolve route = .ok (location, node) ↔
    ∃ parent, tree.enter route.start route.steps.dropLast = .ok parent ∧
      ((route.steps.getLast? = none ∧ parent = location ∧ .directory 0 = node) ∨
        ∃ step, route.steps.getLast? = some step ∧
          ((isName step = true ∧ step.utf8ByteSize ≤ nameLimit ∧ parent ++ [step] = location ∧
              tree.find? location = some node ∧
              (route.wantsDirectory = true → tree.isDirectory location = true)) ∨
            (isName step = false ∧ tree.stepInto parent step = .ok location ∧
              (tree.find? location).getD (.directory 0) = node))) := by
  cases hparent : tree.enter route.start route.steps.dropLast with
  | error error => simp [resolve, hparent, bind, Except.bind]
  | ok parent =>
    simp only [Except.ok.injEq, exists_eq_left']
    cases hlast : route.steps.getLast? with
    | none => simp [resolve, hparent, hlast, bind, Except.bind, pure, Except.pure]
    | some step =>
      rw [resolve_of_last hparent hlast]
      simp only [reduceCtorEq, false_and, Option.some.injEq, exists_eq_left', false_or]
      cases hname : isName step with
      | false =>
        cases hstep : tree.stepInto parent step with
        | error error => simp
        | ok next =>
          simp only [Bool.false_eq_true, if_false, Except.ok.injEq, Prod.mk.injEq, false_and, true_and,
            false_or]
          exact and_congr_right fun h => by rw [h]
      | true =>
        simp only [if_true, true_and, Bool.true_eq_false, false_and, or_false]
        by_cases hlong : nameLimit < step.utf8ByteSize
        · simp [hlong, Nat.not_le.mpr hlong]
        rw [if_neg hlong, and_iff_right (Nat.not_lt.mp hlong)]
        by_cases hlocation : parent ++ [step] = location
        · subst hlocation
          cases hfound : tree.find? (parent ++ [step]) with
          | none => simp
          | some found =>
            cases found with
            | directory modified => simp [isDirectory, hfound]
            | file bytes modified =>
              have hfile : tree.isDirectory (parent ++ [step]) = false := by simp [isDirectory, hfound]
              cases route.wantsDirectory <;> simp [hfile]
        · cases tree.find? (parent ++ [step]) with
          | none => simp [hlocation]
          | some found =>
            cases found with
            | directory modified => simp [hlocation]
            | file bytes modified => cases route.wantsDirectory <;> simp [hlocation]

/-- **A path to a directory** is followed to its last step. -/
theorem enter_of_resolve {route : Route} {modified : Int}
    (h : tree.resolve route = .ok (location, .directory modified)) :
    tree.enter route.start route.steps = .ok location := by
  obtain ⟨parent, hparent, ⟨hnone, rfl, -⟩ | ⟨step, hlast, hstep⟩⟩ := resolve_eq_ok.mp h
  · rw [List.getLast?_eq_none_iff.mp hnone] at hparent ⊢
    exact hparent
  · rw [← List.dropLast_append_getLast? step hlast, enter_append_of_ok hparent, enter_singleton]
    rcases hstep with ⟨hname, hlimit, rfl, hfound, -⟩ | ⟨-, hinto, -⟩
    · exact stepInto_eq_ok.mpr (.inr (.inr ⟨hname, hlimit, isDirectory_iff.mpr ⟨modified, hfound⟩, rfl⟩))
    · exact hinto

/-- **A file is made** in the directory that all steps but the last one lead to, if no directory stands
there. -/
theorem createFile_eq_ok {route : Route} {clock : Int} {final : FileTree} :
    tree.createFile route clock = .ok (location, final) ↔
      ∃ parent step, tree.enter route.start route.steps.dropLast = .ok parent ∧
        route.steps.getLast? = some step ∧ isName step = true ∧ route.wantsDirectory = false ∧
        step.utf8ByteSize ≤ nameLimit ∧ parent ++ [step] = location ∧
        tree.isDirectory location = false ∧ tree.insert location (.file #[] clock) = final := by
  cases hparent : tree.enter route.start route.steps.dropLast with
  | error error => simp [createFile, hparent, bind, Except.bind]
  | ok parent =>
    simp only [createFile, hparent, bind, Except.bind, pure, Except.pure, throw, throwThe,
      MonadExceptOf.throw, Except.ok.injEq, exists_and_left, exists_eq_left']
    cases hlast : route.steps.getLast? with
    | none => simp
    | some step =>
      simp only [Option.some.injEq, exists_eq_left']
      cases hname : isName step with
      | false => simp
      | true =>
        cases hwants : route.wantsDirectory with
        | true => simp
        | false =>
          by_cases hlong : nameLimit < step.utf8ByteSize
          · simp [hlong, Nat.not_le.mpr hlong]
          by_cases hlocation : parent ++ [step] = location
          · subst hlocation
            cases tree.isDirectory (parent ++ [step]) with
            | true => simp [hlong]
            | false => simp [hlong, Nat.not_lt.mp hlong]
          · cases tree.isDirectory (parent ++ [step]) with
            | true => simp [hlong, hlocation]
            | false => simp [hlong, hlocation]

/-! ## Sound trees -/

/-- A name that a file can have. -/
structure IsFileName (name : String) : Prop where
  isNormal : IsNormal name
  zero : '\x00' ∉ name.toList
  short : name.utf8ByteSize ≤ nameLimit

/-- **A tree as a file system has it**: names are those that files can have, what stands below something
stands below a directory, and the size of a file is a 64 bit number. -/
structure IsSound (tree : FileTree) : Prop where
  isFileName : ∀ location node, tree.find? location = some node → ∀ name ∈ location, IsFileName name
  parent : ∀ location name node, tree.find? (location ++ [name]) = some node →
    tree.isDirectory location = true
  size : ∀ location bytes modified, tree.find? location = some (.file bytes modified) →
    bytes.size < UInt64.size

/-- What is found is a node of the tree. -/
theorem mem_of_find? {node : Node} (hne : location ≠ []) (h : tree.find? location = some node) :
    (location, node) ∈ tree.nodes := by
  rw [find?, if_neg hne] at h
  obtain ⟨front, back, hnodes, -⟩ := List.lookup_eq_some_iff.mp h
  rw [hnodes]
  exact List.mem_append_right _ List.mem_cons_self

/-- A tree is sound if each of its nodes is. -/
theorem isSound_of_forall_mem (h : ∀ entry ∈ tree.nodes, (∀ name ∈ entry.1, IsFileName name) ∧
    tree.isDirectory entry.1.dropLast = true ∧
    ∀ bytes modified, entry.2 = .file bytes modified → bytes.size < UInt64.size) : tree.IsSound where
  isFileName := by
    intro location node hfound name hmem
    exact (h _ (mem_of_find? (List.ne_nil_of_mem hmem) hfound)).1 name hmem
  parent := by
    intro location name node hfound
    have hparent := (h _ (mem_of_find? (List.concat_ne_nil _ _) hfound)).2.1
    rwa [List.dropLast_concat] at hparent
  size := by
    intro location bytes modified hfound
    by_cases hnil : location = []
    · rw [hnil] at hfound
      cases hfound
    · exact (h _ (mem_of_find? hnil hfound)).2.2 bytes modified rfl

namespace IsSound

/-- From a directory steps lead to a directory. -/
theorem isDirectory_of_enter (hsound : tree.IsSound) {steps : List String}
    (hstart : tree.isDirectory location = true) (h : tree.enter location steps = .ok next) :
    tree.isDirectory next = true := by
  induction steps generalizing location with
  | nil =>
    cases h
    exact hstart
  | cons step steps ih =>
    rw [enter] at h
    cases hstep : tree.stepInto location step with
    | error error =>
      rw [hstep] at h
      cases h
    | ok middle =>
      rw [hstep] at h
      refine ih ?_ h
      rcases stepInto_eq_ok.mp hstep with ⟨-, rfl⟩ | ⟨-, rfl⟩ | ⟨-, -, hthere, rfl⟩
      · exact hstart
      · rcases location.eq_nil_or_concat with rfl | ⟨front, name, rfl⟩
        · exact hstart
        · obtain ⟨modified, hfound⟩ := isDirectory_iff.mp hstart
          rw [List.concat_eq_append] at hfound ⊢
          rw [List.dropLast_concat]
          exact hsound.parent _ _ _ hfound
      · exact hthere

/-- A path that leads somewhere leads to something that is there. -/
theorem exists_of_resolve (hsound : tree.IsSound) {route : Route} {node : Node}
    (hstart : tree.isDirectory route.start = true) (h : tree.resolve route = .ok (location, node)) :
    ∃ found, tree.find? location = some found := by
  obtain ⟨parent, hparent, ⟨-, rfl, -⟩ | ⟨step, -, ⟨-, -, -, hfound, -⟩ | ⟨hname, hstep, -⟩⟩⟩ :=
    resolve_eq_ok.mp h
  · obtain ⟨modified, hfound⟩ := isDirectory_iff.mp (hsound.isDirectory_of_enter hstart hparent)
    exact ⟨_, hfound⟩
  · exact ⟨node, hfound⟩
  · rw [← enter_singleton] at hstep
    obtain ⟨modified, hfound⟩ := isDirectory_iff.mp
      (hsound.isDirectory_of_enter (hsound.isDirectory_of_enter hstart hparent) hstep)
    exact ⟨_, hfound⟩

end IsSound

/-- **A path leads where it has led** as long as the directories and what it leads to are there. -/
theorem resolve_mono {start : FileTree} {route : Route} {node : Node}
    (hdirectories : ∀ location, start.isDirectory location = true → tree.isDirectory location = true)
    (hfound : tree.find? location = start.find? location)
    (h : start.resolve route = .ok (location, node)) : tree.resolve route = .ok (location, node) := by
  obtain ⟨parent, hparent, hlast⟩ := resolve_eq_ok.mp h
  refine resolve_eq_ok.mpr ⟨parent, enter_mono hdirectories hparent, hlast.imp_right ?_⟩
  rintro ⟨step, hstep, ⟨hname, hlimit, heq, hthere, hwants⟩ | ⟨hname, hinto, hthere⟩⟩
  · exact ⟨step, hstep, .inl ⟨hname, hlimit, heq, hfound.trans hthere,
      fun h => hdirectories _ (hwants h)⟩⟩
  · rw [← enter_singleton] at hinto
    refine ⟨step, hstep, .inr ⟨hname, ?_, hfound ▸ hthere⟩⟩
    rw [← enter_singleton]
    exact enter_mono hdirectories hinto

/-- Names along a path that leads somewhere are short enough. -/
theorem utf8ByteSize_le_of_resolve {route : Route} {node : Node}
    (h : tree.resolve route = .ok (location, node)) {name : String} (hmem : name ∈ route.steps)
    (hname : isName name = true) : name.utf8ByteSize ≤ nameLimit := by
  obtain ⟨parent, hparent, ⟨hnone, -⟩ | ⟨step, hlast, hstep⟩⟩ := resolve_eq_ok.mp h
  · rw [List.getLast?_eq_none_iff.mp hnone] at hmem
    exact absurd hmem List.not_mem_nil
  · rw [← List.dropLast_append_getLast? step hlast, List.mem_append, List.mem_singleton] at hmem
    rcases hmem with hfront | rfl
    · exact utf8ByteSize_le_of_enter hparent hfront hname
    · rcases hstep with ⟨-, hlimit, -⟩ | ⟨hnot, -⟩
      · exact hlimit
      · exact absurd (hname.symm.trans hnot) (by decide)

/-! ## What stands below a location -/

/-- **The ways below a location** are those at whose end something stands. -/
theorem mem_ways {way : Location} :
    way ∈ tree.ways location ↔ way = [] ∨ (tree.find? (location ++ way)).isSome = true := by
  by_cases hnil : way = []
  · simp [hnil, ways]
  have hfind : tree.find? (location ++ way) = tree.nodes.lookup (location ++ way) :=
    if_neg (List.append_ne_nil_of_right_ne_nil _ hnil)
  rw [hfind, List.lookup_isSome_iff, ways, List.mem_cons, List.mem_mergeSort, List.mem_filterMap]
  refine or_congr_right ?_
  constructor
  · rintro ⟨⟨other, node⟩, hmem, hsome⟩
    simp only at hsome
    split at hsome
    next hbelow =>
      obtain ⟨more, rfl⟩ := List.isPrefixOf_iff_prefix.mp hbelow.1
      rw [List.drop_left, Option.some.injEq] at hsome
      exact ⟨_, hmem, beq_iff_eq.mpr (by rw [hsome])⟩
    next => cases hsome
  · rintro ⟨⟨other, node⟩, hmem, heq⟩
    obtain rfl := beq_iff_eq.mp heq
    refine ⟨_, hmem, ?_⟩
    have hbelow : location.isPrefixOf (location ++ way) = true ∧ location ++ way ≠ location :=
      ⟨List.isPrefixOf_iff_prefix.mpr (List.prefix_append _ _), fun heq =>
        hnil (List.append_right_eq_self.mp heq)⟩
    simp only [if_pos hbelow, List.drop_left]

/-! ## Making directories -/

/-- **Steps that can be followed** need no directory to be made. -/
theorem makeSteps_append {steps : List String} (h : tree.enter location steps = .ok next) (clock : Int)
    (made : Bool) (rest : List String) :
    makeSteps clock made location (steps ++ rest) tree = makeSteps clock made next rest tree := by
  induction steps generalizing location with
  | nil =>
    cases h
    rfl
  | cons step steps ih =>
    rw [enter] at h
    cases hstep : tree.stepInto location step with
    | error error =>
      rw [hstep] at h
      cases h
    | ok middle =>
      rw [hstep] at h
      rw [← ih h, List.cons_append, makeSteps]
      rcases stepInto_eq_ok.mp hstep with ⟨rfl, rfl⟩ | ⟨rfl, rfl⟩ | ⟨hname, hlimit, hdirectory, rfl⟩
      · rfl
      · rfl
      · obtain ⟨modified, hfound⟩ := isDirectory_iff.mp hdirectory
        rw [if_pos hname, if_neg (Nat.not_lt.mpr hlimit), hfound]

/-! ## Changes below a location -/

/-- **Changes below a location**: nodes were made or replaced one after another, each at the end of a way
of normal names from there, and no directory was replaced by a file. -/
inductive ChangedBelow (base : Location) (start : FileTree) : FileTree → Prop
  | refl : ChangedBelow base start start
  | insert {tree : FileTree} (h : ChangedBelow base start tree) {way : List String} (hne : way ≠ [])
      (hway : ∀ name ∈ way, IsNormal name) {node : Node}
      (hkept : tree.isDirectory (base ++ way) = true → ∃ modified, node = .directory modified) :
      ChangedBelow base start (tree.insert (base ++ way) node)

namespace ChangedBelow

variable {base : Location} {start : FileTree}

/-- Directories stay where they are. -/
theorem isDirectory (h : ChangedBelow base start tree) (hthere : start.isDirectory location = true) :
    tree.isDirectory location = true := by
  induction h with
  | refl => exact hthere
  | @insert tree _ way hne _ node hkept ih =>
    by_cases hlocation : location = base ++ way
    · subst hlocation
      obtain ⟨modified, rfl⟩ := hkept ih
      exact isDirectory_iff.mpr
        ⟨modified, find?_insert_self _ (List.append_ne_nil_of_right_ne_nil _ hne) _⟩
    · rw [FileTree.isDirectory, find?_insert_of_ne _ hlocation]
      exact ih

/-- **Nothing else has changed.** -/
theorem exists_way (h : ChangedBelow base start tree) (hchanged : tree.find? location ≠ start.find? location) :
    ∃ way, way ≠ [] ∧ (∀ name ∈ way, IsNormal name) ∧ location = base ++ way := by
  induction h with
  | refl => exact absurd rfl hchanged
  | @insert tree _ way hne hway node _ ih =>
    by_cases hlocation : location = base ++ way
    · exact ⟨way, hne, hway, hlocation⟩
    · rw [find?_insert_of_ne _ hlocation] at hchanged
      exact ih hchanged

/-- Steps lead where they have led. -/
theorem enter (h : ChangedBelow base start tree) {steps : List String}
    (hsteps : start.enter location steps = .ok next) : tree.enter location steps = .ok next :=
  enter_mono (fun _ hthere => h.isDirectory hthere) hsteps

/-- Directories along a way of normal names are made below the location. -/
theorem makeSteps (clock : Int) {way names : List String} (hway : ∀ name ∈ way, IsNormal name)
    (hnames : ∀ name ∈ names, IsNormal name) (h : ChangedBelow base start tree) (made : Bool) :
    Outcome (fun _ final => ChangedBelow base start final)
      (fun _ final => ChangedBelow base start final)
      (FileTree.makeSteps clock made (base ++ way) names tree) := by
  induction names generalizing way tree made with
  | nil => exact h
  | cons name names ih =>
    obtain ⟨hname, hmore⟩ := List.forall_mem_cons.mp hnames
    have hlonger : ∀ other ∈ way ++ [name], IsNormal other := by
      simpa [or_imp, forall_and] using ⟨hway, hname⟩
    rw [FileTree.makeSteps, if_pos hname.isName, List.append_assoc]
    split
    next => exact h
    split
    next => exact ih hlonger hmore h made
    next => exact h
    next hnone =>
      refine ih hlonger hmore (h.insert (List.concat_ne_nil _ _) hlonger fun hthere => ?_) true
      exact ⟨clock, rfl⟩

end ChangedBelow

end FileTree

end RecordArchive
