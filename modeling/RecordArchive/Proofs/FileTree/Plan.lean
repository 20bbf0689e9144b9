import Mathlib.Data.List.Induction
import RecordArchive.Proofs.FileTree

/-! # Trees that are made after a plan

A plan says what is to stand below a location. Whoever makes only what is planned, and replaces nothing by
something else, can make it in any order.

* `FileTree.Plan`: what is to stand below a location.
* `FileTree.Obeys`, `FileTree.KeepsBelow`: nothing stands there but what is planned, and nothing that
  stands there is lost. `FileTree.Obeys.insert` makes one node.
* `FileTree.Obeys.exists_makeSteps`: directories are made along a way.
* `FileTree.Plan.copy`: the plan to have what stands at one location at the end of other names. -/

namespace RecordArchive

/-- A node without the time of its last change. -/
def Node.withoutTime : Node → Node
  | .file bytes _ => .file bytes 0
  | .directory _ => .directory 0

/-- Without its time a node is a directory just where it is one with it. -/
theorem Node.withoutTime_eq_directory {node : Node} :
    node.withoutTime = .directory 0 ↔ ∃ modified, node = .directory modified := by
  cases node with
  | file bytes modified => simp [withoutTime]
  | directory modified => simp [withoutTime]

namespace FileTree

variable {tree : FileTree}

/-- **What is to stand below a location**, but for times: a node for some of the ways from there. Names are
those that files can have, and what stands below something stands below a directory. -/
structure Plan where
  node? : List String → Option Node
  isFileName : ∀ way node, node? way = some node → ∀ name ∈ way, IsFileName name
  parent : ∀ way name node, way ≠ [] → node? (way ++ [name]) = some node →
    node? way = some (.directory 0)

/-- What is planned above something is a directory. -/
theorem Plan.directory_of_append (plan : Plan) {way more : List String} (hne : way ≠ [])
    (hmore : more ≠ []) {node : Node} (h : plan.node? (way ++ more) = some node) :
    plan.node? way = some (.directory 0) := by
  induction more using List.reverseRecOn generalizing node with
  | nil => exact absurd rfl hmore
  | append_singleton front name ih =>
    rw [← List.append_assoc] at h
    have hfront := plan.parent _ _ _ (List.append_ne_nil_of_left_ne_nil hne _) h
    by_cases hnil : front = []
    · rwa [hnil, List.append_nil] at hfront
    · exact ih hnil hfront

/-- Nothing stands below a location but what is planned. -/
def Obeys (plan : Plan) (base : Location) (tree : FileTree) : Prop :=
  ∀ way node, way ≠ [] → tree.find? (base ++ way) = some node → plan.node? way = some node.withoutTime

/-- What stands below a location stays, but for times. -/
def KeepsBelow (base : Location) (start tree : FileTree) : Prop :=
  ∀ way node, start.find? (base ++ way) = some node →
    (tree.find? (base ++ way)).map Node.withoutTime = some node.withoutTime

namespace KeepsBelow

variable {base : Location} {start middle : FileTree}

/-- A tree keeps what it has. -/
theorem refl : KeepsBelow base tree tree := fun _ _ hfound => by rw [hfound, Option.map_some]

/-- What is kept twice is kept. -/
theorem trans (h : KeepsBelow base start middle) (h' : KeepsBelow base middle tree) :
    KeepsBelow base start tree := by
  intro way node hfound
  obtain ⟨kept, hmiddle, hkept⟩ := Option.map_eq_some_iff.mp (h way node hfound)
  rw [h' way kept hmiddle, hkept]

/-- A directory below stays one. -/
theorem isDirectory (h : KeepsBelow base start tree) {way : List String}
    (hthere : start.isDirectory (base ++ way) = true) : tree.isDirectory (base ++ way) = true := by
  obtain ⟨modified, hfound⟩ := isDirectory_iff.mp hthere
  obtain ⟨kept, hnode, hkept⟩ := Option.map_eq_some_iff.mp (h way _ hfound)
  obtain ⟨time, rfl⟩ := Node.withoutTime_eq_directory.mp hkept
  exact isDirectory_iff.mpr ⟨time, hnode⟩

/-- What stands below stays there. -/
theorem isSome (h : KeepsBelow base start tree) {way : List String}
    (hthere : (start.find? (base ++ way)).isSome = true) :
    (tree.find? (base ++ way)).isSome = true := by
  obtain ⟨node, hfound⟩ := Option.isSome_iff_exists.mp hthere
  obtain ⟨kept, hnode, -⟩ := Option.map_eq_some_iff.mp (h way _ hfound)
  exact Option.isSome_iff_exists.mpr ⟨kept, hnode⟩

end KeepsBelow

namespace Obeys

variable {plan : Plan} {base : Location} {way : List String} {node : Node}

/-- What is planned is put in its place. -/
theorem insert (h : Obeys plan base tree) (hplan : plan.node? way = some node.withoutTime)
    (hne : way ≠ []) : Obeys plan base (tree.insert (base ++ way) node) ∧
      KeepsBelow base tree (tree.insert (base ++ way) node) := by
  have hlocation : base ++ way ≠ [] := List.append_ne_nil_of_right_ne_nil _ hne
  constructor
  · intro other found hother hfound
    by_cases heq : base ++ other = base ++ way
    · obtain rfl := List.append_cancel_left heq
      rw [find?_insert_self _ hlocation] at hfound
      cases hfound
      exact hplan
    · rw [find?_insert_of_ne _ heq] at hfound
      exact h other found hother hfound
  · intro other found hfound
    by_cases heq : base ++ other = base ++ way
    · obtain rfl := List.append_cancel_left heq
      rw [find?_insert_self _ hlocation, Option.map_some, ← hplan, h other found hne hfound]
    · rw [find?_insert_of_ne _ heq, hfound, Option.map_some]

/-- **Directories that are planned are made** along a way, where they are missing. -/
theorem exists_makeSteps (clock : Int) (made : Bool) {names : List String}
    (hnames : ∀ name ∈ names, IsFileName name)
    (hplan : ∀ front, front ≠ [] → front <+: names → plan.node? (way ++ front) = some (.directory 0))
    (h : Obeys plan base tree) :
    ∃ final, makeSteps clock made (base ++ way) names tree = .ok () final ∧ Obeys plan base final ∧
      KeepsBelow base tree final ∧
      ∀ front, front ≠ [] → front <+: names → final.isDirectory (base ++ (way ++ front)) = true := by
  induction names generalizing way tree made with
  | nil => exact ⟨tree, rfl, h, .refl, fun front hne hfront => absurd (List.prefix_nil.mp hfront) hne⟩
  | cons name names ih =>
    obtain ⟨hname, hmore⟩ := List.forall_mem_cons.mp hnames
    have hhere := hplan [name] (List.cons_ne_nil _ _) ⟨names, rfl⟩
    have hbelow : ∀ front, front ≠ [] → front <+: names →
        plan.node? (way ++ [name] ++ front) = some (.directory 0) := by
      intro front _ hfront
      rw [List.append_assoc]
      exact hplan (name :: front) (List.cons_ne_nil _ _) ((List.prefix_cons_inj name).mpr hfront)
    -- a directory stands at the first step then, and the others are made below it
    have hnext (made : Bool) (middle : FileTree) (hmiddle : Obeys plan base middle)
        (hkept : KeepsBelow base tree middle)
        (hthere : middle.isDirectory (base ++ (way ++ [name])) = true) :
        ∃ final, makeSteps clock made (base ++ (way ++ [name])) names middle = .ok () final ∧
          Obeys plan base final ∧ KeepsBelow base tree final ∧
          ∀ front, front ≠ [] → front <+: name :: names →
            final.isDirectory (base ++ (way ++ front)) = true := by
      obtain ⟨final, hrun, hobeys, hkeeps, hdirectories⟩ := ih made hmore hbelow hmiddle
      refine ⟨final, hrun, hobeys, hkept.trans hkeeps, fun front hne hfront => ?_⟩
      rcases front with _ | ⟨first, front⟩
      · exact absurd rfl hne
      obtain ⟨rfl, hrest⟩ := List.cons_prefix_cons.mp hfront
      by_cases hnil : front = []
      · rw [hnil]
        exact hkeeps.isDirectory hthere
      · have hfinal := hdirectories front hnil hrest
        rwa [List.append_assoc] at hfinal
    rw [makeSteps, if_pos hname.isNormal.isName, if_neg (Nat.not_lt.mpr hname.short), List.append_assoc]
    cases hfound : tree.find? (base ++ (way ++ [name])) with
    | none =>
      have hplanned : plan.node? (way ++ [name]) = some (Node.directory clock).withoutTime := hhere
      obtain ⟨hobeys, hkeeps⟩ := h.insert hplanned (List.concat_ne_nil _ _)
      refine hnext true _ hobeys hkeeps (isDirectory_iff.mpr ⟨clock, ?_⟩)
      exact find?_insert_self _ (List.append_ne_nil_of_right_ne_nil _ (List.concat_ne_nil _ _)) _
    | some node =>
      -- what stands there is what is planned there
      obtain ⟨modified, rfl⟩ := Node.withoutTime_eq_directory.mp (Option.some.inj
        ((h _ _ (List.concat_ne_nil _ _) hfound).symm.trans hhere))
      exact hnext made tree h .refl (isDirectory_iff.mpr ⟨modified, hfound⟩)

end Obeys

/-! ## Copies -/

/-- What stands where a location is copied to the end of some names: below the names what stands below the
location, above them directories, and nothing else. -/
def copied (tree : FileTree) (location : Location) (names way : List String) : Option Node :=
  if names <+: way then (tree.find? (location ++ way.drop names.length)).map Node.withoutTime
  else if way <+: names then some (.directory 0)
  else none

section Copies

variable {location : Location} {names way : List String} {node : Node}

/-- Below the last name stands what stands below the location. -/
theorem copied_append (way : List String) : copied tree location names (names ++ way)
    = (tree.find? (location ++ way)).map Node.withoutTime := by
  rw [copied, if_pos (List.prefix_append _ _), List.drop_left]

/-- Above the last name stand directories. -/
theorem copied_of_isFront (hfront : way <+: names) (hne : way ≠ names) :
    copied tree location names way = some (.directory 0) := by
  rw [copied, if_neg fun h => hne (hfront.eq_of_length_le h.length_le), if_pos hfront]

/-- Whatever stands in a copy stands at or below the names, or above them. -/
theorem copied_eq_some (h : copied tree location names way = some node) :
    (∃ more found, way = names ++ more ∧ tree.find? (location ++ more) = some found ∧
      found.withoutTime = node) ∨ (way <+: names ∧ way ≠ names) := by
  rw [copied] at h
  split at h
  next hbelow =>
    obtain ⟨more, rfl⟩ := hbelow
    rw [List.drop_left] at h
    obtain ⟨found, hfound, heq⟩ := Option.map_eq_some_iff.mp h
    exact .inl ⟨more, found, rfl, hfound, heq⟩
  next hbelow =>
    split at h
    next hfront => exact .inr ⟨hfront, fun heq => hbelow (heq ▸ List.prefix_rfl)⟩
    next => cases h

/-- **The plan to copy** what stands at a location to the end of some names. -/
def Plan.copy (tree : FileTree) (hsound : tree.IsSound) (location : Location) (names : List String)
    (hnames : ∀ name ∈ names, IsFileName name) : Plan where
  node? := copied tree location names
  isFileName := by
    intro way node h name hmem
    rcases copied_eq_some h with ⟨more, found, rfl, hfound, -⟩ | ⟨hfront, -⟩
    · rcases List.mem_append.mp hmem with hname | hmore
      · exact hnames name hname
      · exact hsound.isFileName _ _ hfound name (List.mem_append_right _ hmore)
    · exact hnames name (hfront.subset hmem)
  parent := by
    intro way name node hne h
    rcases copied_eq_some h with ⟨more, found, heq, hfound, -⟩ | ⟨hfront, -⟩
    · rcases more.eq_nil_or_concat' with rfl | ⟨front, last, rfl⟩
      · -- the names end here, so directories stand above
        rw [List.append_nil] at heq
        exact copied_of_isFront ⟨[name], heq⟩ fun hway => by simp [hway] at heq
      · obtain ⟨rfl, -⟩ := List.append_inj' (heq.trans (List.append_assoc _ _ _).symm) rfl
        rw [← List.append_assoc] at hfound
        obtain ⟨modified, hparent⟩ := isDirectory_iff.mp (hsound.parent _ _ _ hfound)
        rw [copied_append, hparent]
        rfl
    · refine copied_of_isFront ((List.prefix_append _ _).trans hfront) fun hway => ?_
      have hlength := hfront.length_le
      rw [hway, List.length_append, List.length_singleton] at hlength
      omega

end Copies

end FileTree

end RecordArchive
