import Mathlib.Data.List.Basic
import RecordArchive.FileTree

/-! # Segments, names and ways

What a path says is what stands between its slashes. Here the segments of a path are those that splitting
at slashes gives, and the names along it, the names of an entry and the text of a way are read off them.

* `Path.IsNormal`: a name that leads from a directory to an entry of it, and nowhere else.
* `Path.safeNames?_eq_some`: the name of an entry is accepted if it is not absolute, has no step to a
  parent and has some normal part, and the way it describes has just its normal parts.
* `Path.components_ofNames`: the text of a way is read as that way.
* `Path.steps_join`, `Path.steps_trimEnd`: the steps of a longer path, and of one without its end. -/

namespace RecordArchive.Path

/-! ## Segments -/

/-- A character does not take segments away. -/
theorem addChar_ne_nil (c : Char) (segments : List (List Char)) : addChar c segments ≠ [] := by
  cases segments with
  | nil => exact List.cons_ne_nil _ _
  | cons segment others =>
    rw [addChar]
    split
    · exact List.cons_ne_nil _ _
    · exact List.cons_ne_nil _ _

/-- Every text has a segment, if only an empty one. -/
theorem segments_ne_nil (text : List Char) : segments text ≠ [] := by
  cases text with
  | nil => exact List.cons_ne_nil _ _
  | cons c text => exact addChar_ne_nil c _

/-- A slash in front leaves an empty segment. -/
theorem segments_slash (text : List Char) : segments ('/' :: text) = [] :: segments text := by
  obtain ⟨segment, others, h⟩ := List.exists_cons_of_ne_nil (segments_ne_nil text)
  show addChar '/' (segments text) = _
  rw [h, addChar, if_pos rfl]

/-- **The segments** are what splitting at slashes gives. -/
theorem segments_eq_splitOn (text : List Char) : segments text = List.splitOn '/' text := by
  induction text with
  | nil => rfl
  | cons c text ih =>
    rw [List.splitOn_cons_eq_if_modifyHead, ← ih]
    obtain ⟨segment, others, h⟩ := List.exists_cons_of_ne_nil (segments_ne_nil text)
    show addChar c (segments text) = _
    rw [h, addChar, List.modifyHead_cons]
    simp only [beq_iff_eq]

/-- The segments with slashes between them are the text. -/
theorem intercalate_segments (text : List Char) : ['/'].intercalate (segments text) = text := by
  rw [segments_eq_splitOn, List.intercalate_splitOn]

/-- A slash ends what stands in front of it. -/
theorem segments_append_slash (front back : List Char) :
    segments (front ++ '/' :: back) = segments front ++ segments back := by
  simp only [segments_eq_splitOn]
  exact List.splitOn_append_cons_self front back

/-- Nothing that is split off has a separator in it. -/
theorem notMem_of_mem_splitOn {α : Type} [BEq α] [LawfulBEq α] {separator : α}
    {members segment : List α} (h : segment ∈ List.splitOn separator members) :
    separator ∉ segment := by
  induction members generalizing segment with
  | nil =>
    rw [List.mem_singleton.mp h]
    exact List.not_mem_nil
  | cons member members ih =>
    obtain ⟨first, others, hsplit⟩ := List.exists_cons_of_ne_nil
      (List.splitOn_ne_nil separator members)
    rw [List.splitOn_cons_eq_if_modifyHead, hsplit, List.modifyHead_cons] at h
    rw [hsplit] at ih
    split at h
    next =>
      rcases List.mem_cons.mp h with rfl | h
      · exact List.not_mem_nil
      · exact ih h
    next hmember =>
      rcases List.mem_cons.mp h with rfl | h
      · exact fun hmem => (List.mem_cons.mp hmem).elim (fun heq => hmember (beq_iff_eq.mpr heq.symm))
          (ih List.mem_cons_self)
      · exact ih (List.mem_cons_of_mem _ h)

/-- No segment has a slash in it. -/
theorem slash_notMem_of_mem_segments {text segment : List Char} (h : segment ∈ segments text) :
    '/' ∉ segment :=
  notMem_of_mem_splitOn (segments_eq_splitOn text ▸ h)

/-- Segments in a row behind others. -/
theorem intercalate_append {front back : List (List Char)} (hfront : front ≠ []) (hback : back ≠ []) :
    ['/'].intercalate (front ++ back)
      = ['/'].intercalate front ++ ['/'] ++ ['/'].intercalate back := by
  induction front with
  | nil => exact absurd rfl hfront
  | cons first others ih =>
    cases others with
    | nil =>
      obtain ⟨next, more, rfl⟩ := List.exists_cons_of_ne_nil hback
      rw [List.singleton_append, List.intercalate_cons_cons, List.intercalate_singleton]
    | cons second more =>
      rw [List.cons_append, List.cons_append, List.intercalate_cons_cons, List.intercalate_cons_cons,
        ← List.cons_append, ih (List.cons_ne_nil _ _)]
      simp only [List.append_assoc]

/-- The front segments make a front part of the text. -/
theorem intercalate_isFront {front : List (List Char)} (hne : front ≠ []) (back : List (List Char)) :
    ['/'].intercalate front <+: ['/'].intercalate (front ++ back) := by
  by_cases hback : back = []
  · simp only [hback, List.append_nil, List.prefix_rfl]
  · rw [intercalate_append hne hback, List.append_assoc]
    exact List.prefix_append _ _

/-- A character between slashes is one of a segment. -/
theorem mem_intercalate {segments : List (List Char)} {c : Char} (h : c ∈ ['/'].intercalate segments) :
    c = '/' ∨ ∃ segment ∈ segments, c ∈ segment := by
  rw [List.intercalate, List.mem_flatten] at h
  obtain ⟨segment, hmem, hc⟩ := h
  induction segments with
  | nil => exact absurd hmem List.not_mem_nil
  | cons first others ih =>
    cases others with
    | nil =>
      rw [List.intersperse_singleton] at hmem
      exact .inr ⟨segment, hmem, hc⟩
    | cons second more =>
      rw [List.intersperse_cons_cons] at hmem
      rcases List.mem_cons.mp hmem with rfl | hmem
      · exact .inr ⟨segment, List.mem_cons_self, hc⟩
      · rcases List.mem_cons.mp hmem with rfl | hmem
        · exact .inl (List.mem_singleton.mp hc)
        · exact (ih hmem).imp_right fun ⟨segment, hmem, hc⟩ =>
            ⟨segment, List.mem_cons_of_mem _ hmem, hc⟩

/-- A character of a segment is one of the text. -/
theorem mem_of_mem_segments {text segment : List Char} {c : Char} (h : segment ∈ segments text)
    (hc : c ∈ segment) : c ∈ text := by
  obtain ⟨front, back, hsplit⟩ := List.append_of_mem h
  have hhere : c ∈ ['/'].intercalate (segment :: back) :=
    (intercalate_isFront (List.cons_ne_nil _ []) back).subset (List.intercalate_singleton ▸ hc)
  rw [← intercalate_segments text, hsplit]
  by_cases hfront : front = []
  · rwa [hfront, List.nil_append]
  · rw [intercalate_append hfront (List.cons_ne_nil _ _)]
    exact List.mem_append_right _ hhere

/-- A text starts with a slash if its first segment is empty and not the only one. -/
theorem absolute_iff (text : List Char) : text.head? = some '/' ↔
    ∃ others, segments text = [] :: others ∧ others ≠ [] := by
  constructor
  · intro h
    obtain ⟨rest, rfl⟩ := List.head?_eq_some_iff.mp h
    exact ⟨_, segments_slash rest, segments_ne_nil rest⟩
  · rintro ⟨others, hsegments, hne⟩
    obtain ⟨next, more, rfl⟩ := List.exists_cons_of_ne_nil hne
    have htext := intercalate_segments text
    rw [hsegments, List.intercalate_cons_cons] at htext
    rw [← htext]
    rfl

/-! ## Steps and names -/

/-- The steps of a path as a file system takes them, dots included. -/
def steps (path : String) : List String := ((segments path.toList).filter (· ≠ [])).map String.ofList

/-- Which segments are names. -/
theorem isName_ofList (segment : List Char) :
    FileTree.isName (String.ofList segment) = true ↔ segment ≠ ['.'] ∧ segment ≠ ['.', '.'] := by
  simp [FileTree.isName, ← String.toList_inj]

/-- A segment stands for an entry unless it is empty or made of dots. -/
theorem step?_of_isName {segment : List Char} (hne : segment ≠ [])
    (hname : FileTree.isName (String.ofList segment) = true) :
    step? segment = some (.entry (String.ofList segment)) := by
  obtain ⟨hdot, hdots⟩ := (isName_ofList segment).mp hname
  rw [step?, if_neg (by simp [hne, hdot]), if_neg hdots]

/-- A segment that is no name gives none. -/
theorem name?_step?_of_not_isName {segment : List Char}
    (hname : ¬ FileTree.isName (String.ofList segment) = true) :
    (step? segment).bind Component.name? = none := by
  by_cases hdot : segment = ['.']
  · subst hdot
    rfl
  by_cases hdots : segment = ['.', '.']
  · subst hdots
    rfl
  exact absurd ((isName_ofList segment).mpr ⟨hdot, hdots⟩) hname

/-- The names that segments stand for. -/
theorem filterMap_name?_step? (segments : List (List Char)) :
    segments.filterMap (fun segment => (step? segment).bind Component.name?)
      = ((segments.filter (· ≠ [])).map String.ofList).filter FileTree.isName := by
  induction segments with
  | nil => rfl
  | cons segment others ih =>
    by_cases hne : segment = []
    · subst hne
      exact ih
    rw [List.filter_cons_of_pos (by simpa using hne), List.map_cons]
    by_cases hname : FileTree.isName (String.ofList segment) = true
    · rw [List.filter_cons_of_pos hname, ← ih]
      exact List.filterMap_cons_some (by rw [step?_of_isName hne hname]; rfl)
    · rw [List.filter_cons_of_neg hname, ← ih]
      exact List.filterMap_cons_none (name?_step?_of_not_isName hname)

/-- The first segment may be the root or the directory itself. -/
theorem components_of_cons {path : String} {first : List Char} {others : List (List Char)}
    (h : segments path.toList = first :: others) : components path
      = (if path.toList.head? = some '/' then [Component.root]
         else if first = ['.'] then [Component.current]
         else (step? first).toList) ++ others.filterMap step? := by
  rw [components, h]

/-- **The names along a path** are its steps but for the dots. -/
theorem names_eq (path : String) : names path = (steps path).filter FileTree.isName := by
  obtain ⟨first, others, h⟩ := List.exists_cons_of_ne_nil (segments_ne_nil path.toList)
  have hothers : (others.filterMap step?).filterMap Component.name?
      = others.filterMap fun segment => (step? segment).bind Component.name? :=
    List.filterMap_filterMap
  rw [steps, ← filterMap_name?_step?, h, names, components_of_cons h, List.filterMap_append, hothers]
  by_cases habsolute : path.toList.head? = some '/'
  · obtain ⟨_, hroot, -⟩ := (absolute_iff _).mp habsolute
    cases h.symm.trans hroot
    rw [if_pos habsolute]
    rfl
  by_cases hcurrent : first = ['.']
  · rw [if_neg habsolute, if_pos hcurrent, hcurrent]
    rfl
  rw [if_neg habsolute, if_neg hcurrent, List.filterMap_cons]
  cases step? first with
  | none => rfl
  | some step => cases step <;> rfl

/-- A name that leads from a directory to an entry of it. -/
structure IsNormal (name : String) : Prop where
  ne_empty : name ≠ ""
  isName : FileTree.isName name = true
  notMem : '/' ∉ name.toList

/-- Every name in a path is normal. -/
theorem isNormal_of_mem_names {path name : String} (h : name ∈ names path) : IsNormal name := by
  rw [names_eq, List.mem_filter, steps, List.mem_map] at h
  obtain ⟨⟨segment, hmem, rfl⟩, hname⟩ := h
  obtain ⟨hsegment, hne⟩ := List.mem_filter.mp hmem
  refine ⟨?_, hname, ?_⟩
  · simpa [← String.toList_inj] using hne
  · rw [String.toList_ofList]
    exact slash_notMem_of_mem_segments hsegment

/-- The characters of a name along a path are characters of the path. -/
theorem mem_toList_of_mem_names {path name : String} (h : name ∈ names path) {c : Char}
    (hc : c ∈ name.toList) : c ∈ path.toList := by
  rw [names_eq, List.mem_filter, steps, List.mem_map] at h
  obtain ⟨⟨segment, hmem, rfl⟩, -⟩ := h
  rw [String.toList_ofList] at hc
  exact mem_of_mem_segments (List.mem_filter.mp hmem).1 hc

namespace IsNormal

variable {name : String}

/-- A normal name is not empty. -/
theorem toList_ne_nil (h : IsNormal name) : name.toList ≠ [] :=
  fun hnil => h.ne_empty (String.toList_eq_nil_iff.mp hnil)

/-- A normal name is a step to the entry of that name. -/
theorem step?_eq (h : IsNormal name) : step? name.toList = some (.entry name) := by
  have hname := h.isName
  rw [← String.ofList_toList (s := name)] at hname
  rw [step?_of_isName h.toList_ne_nil hname, String.ofList_toList]

/-- A normal name is not that of the directory itself. -/
theorem toList_ne_dot (h : IsNormal name) : name.toList ≠ ['.'] := by
  intro hdot
  have hstep := h.step?_eq
  rw [hdot] at hstep
  cases hstep

end IsNormal

/-! ## The text of a way -/

section Ways

variable {way : List String}

/-- The path of some names has slashes between them. -/
theorem toList_ofNames (way : List String) :
    (ofNames way).toList = ['/'].intercalate (way.map String.toList) := by
  rw [ofNames, String.toList_intercalate]
  rfl

/-- The segments of the text of a way are its names. -/
theorem segments_ofNames (hway : ∀ name ∈ way, IsNormal name) (hne : way ≠ []) :
    segments (ofNames way).toList = way.map String.toList := by
  rw [toList_ofNames, segments_eq_splitOn, List.splitOn_intercalate]
  · intro segment hmem
    obtain ⟨name, hname, rfl⟩ := List.mem_map.mp hmem
    exact (hway name hname).notMem
  · exact fun h => hne (List.map_eq_nil_iff.mp h)

/-- The steps of a path of normal names are these names. -/
theorem steps_ofNames (hway : ∀ name ∈ way, IsNormal name) : steps (ofNames way) = way := by
  by_cases hne : way = []
  · subst hne
    rfl
  rw [steps, segments_ofNames hway hne, List.filter_eq_self.mpr, List.map_map]
  · exact List.map_id'' (fun _ => String.ofList_toList) way
  · intro segment hmem
    obtain ⟨name, hname, rfl⟩ := List.mem_map.mp hmem
    exact decide_eq_true (hway name hname).toList_ne_nil

/-- The names in a path of normal names are these names. -/
theorem names_ofNames (hway : ∀ name ∈ way, IsNormal name) : names (ofNames way) = way := by
  rw [names_eq, steps_ofNames hway, List.filter_eq_self]
  exact fun name hname => (hway name hname).isName

/-- The text of a longer way. -/
theorem ofNames_append {more : List String} (hne : way ≠ []) (hmore : more ≠ []) :
    ofNames (way ++ more) = ofNames way ++ "/" ++ ofNames more := by
  rw [← String.toList_inj, String.toList_append, String.toList_append, toList_ofNames, toList_ofNames,
    toList_ofNames, List.map_append, intercalate_append (by simpa using hne) (by simpa using hmore)]
  rfl

/-- The text of a way starts that of a longer one. -/
theorem ofNames_isFront (way more : List String) :
    (ofNames way).toList <+: (ofNames (way ++ more)).toList := by
  by_cases hne : way = []
  · rw [hne]
    exact List.nil_prefix
  by_cases hmore : more = []
  · simp only [hmore, List.append_nil, List.prefix_rfl]
  · rw [ofNames_append hne hmore, String.append_assoc, String.toList_append]
    exact List.prefix_append _ _

/-- The text of a way has no slash at its end. -/
theorem getLast?_ofNames (hway : ∀ name ∈ way, IsNormal name) (hne : way ≠ []) :
    (ofNames way).toList.getLast? ≠ some '/' := by
  intro hlast
  obtain ⟨front, hfront⟩ := List.getLast?_eq_some_iff.mp hlast
  have hsegments := segments_ofNames hway hne
  rw [hfront, segments_append_slash] at hsegments
  have hnil : [] ∈ way.map String.toList := hsegments ▸ List.mem_append_right _ (List.mem_singleton_self _)
  obtain ⟨name, hname, hempty⟩ := List.mem_map.mp hnil
  exact (hway name hname).toList_ne_nil hempty

/-- A path of at least one normal name is not empty. -/
theorem ofNames_ne_empty (hway : ∀ name ∈ way, IsNormal name) (hne : way ≠ []) : ofNames way ≠ "" := by
  intro h
  have hnames := names_ofNames hway
  rw [h] at hnames
  exact hne hnames.symm

/-- A way behind another one. -/
theorem join_ofNames {more : List String} (hway : ∀ name ∈ way, IsNormal name) (hne : way ≠ [])
    (hmore : more ≠ []) : join (ofNames way) (ofNames more) = ofNames (way ++ more) := by
  rw [join, if_neg (not_or.mpr ⟨ofNames_ne_empty hway hne, getLast?_ofNames hway hne⟩),
    ofNames_append hne hmore]

/-- A path of some names holds their characters, and slashes. -/
theorem mem_toList_ofNames {c : Char} (h : c ∈ (ofNames way).toList) :
    c = '/' ∨ ∃ name ∈ way, c ∈ name.toList := by
  rw [toList_ofNames] at h
  refine (mem_intercalate h).imp_right ?_
  rintro ⟨segment, hmem, hc⟩
  obtain ⟨name, hname, rfl⟩ := List.mem_map.mp hmem
  exact ⟨name, hname, hc⟩

/-- Each normal name in a path is a step of its own. -/
theorem filterMap_step?_segments_ofNames (hway : ∀ name ∈ way, IsNormal name) :
    (segments (ofNames way).toList).filterMap step? = way.map Component.entry := by
  by_cases hne : way = []
  · subst hne
    rfl
  rw [segments_ofNames hway hne, List.filterMap_map, ← List.filterMap_eq_map]
  exact List.filterMap_congr fun name hname => (hway name hname).step?_eq

end Ways

/-! ## Components -/

section Components

variable {path : String} {first : List Char} {others : List (List Char)}

/-- A path that starts with a segment is relative, and a dot counts only there. -/
theorem components_of_segments (h : segments path.toList = first :: others) (hne : first ≠ [])
    (hdot : first ≠ ['.']) : components path = (first :: others).filterMap step? := by
  have hrelative : path.toList.head? ≠ some '/' := by
    intro habsolute
    obtain ⟨_, hroot, -⟩ := (absolute_iff _).mp habsolute
    cases h.symm.trans hroot
    exact hne rfl
  rw [components_of_cons h, if_neg hrelative, if_neg hdot, List.filterMap_cons]
  cases step? first with
  | none => rfl
  | some step => rfl

/-- A segment is safe unless it leads up. -/
theorem isSafe_step? (segment : List Char) :
    (step? segment).all Component.isSafe = true ↔ ¬ ['.', '.'] = segment := by
  by_cases hempty : segment = [] ∨ segment = ['.']
  · rw [step?, if_pos hempty]
    rcases hempty with rfl | rfl
    · simp
    · simp
  · rw [step?, if_neg hempty]
    by_cases hdots : segment = ['.', '.']
    · simp [hdots, Component.isSafe]
    · simp [hdots, Ne.symm hdots, Component.isSafe]

/-- Segments are safe unless one of them leads up. -/
theorem all_isSafe_filterMap_step? (segments : List (List Char)) :
    (segments.filterMap step?).all Component.isSafe = true ↔ ['.', '.'] ∉ segments := by
  induction segments with
  | nil => simp
  | cons segment others ih =>
    have hsegment := isSafe_step? segment
    rw [List.filterMap_cons, List.mem_cons, not_or, ← ih, ← hsegment]
    cases step? segment with
    | none => simp
    | some step => simp

/-- **A path stays below** the directory it is taken from if it is relative and has no step to a
parent. -/
theorem all_isSafe_components : (components path).all Component.isSafe = true ↔
    path.toList.head? ≠ some '/' ∧ ['.', '.'] ∉ segments path.toList := by
  obtain ⟨first, others, h⟩ := List.exists_cons_of_ne_nil (segments_ne_nil path.toList)
  rw [components_of_cons h, h, List.all_append, Bool.and_eq_true, all_isSafe_filterMap_step?,
    List.mem_cons, not_or, ← and_assoc]
  refine and_congr_left fun _ => ?_
  by_cases habsolute : path.toList.head? = some '/'
  · simp [habsolute, Component.isSafe]
  rw [if_neg habsolute, ← isSafe_step?]
  by_cases hdot : first = ['.']
  · subst hdot
    simp [habsolute, Component.isSafe, step?]
  · rw [if_neg hdot]
    cases step? first with
    | none => simp [habsolute]
    | some step => simp [habsolute]

/-- **The text of a way** is read as that way: relative, and with its names as the only steps. -/
theorem components_ofNames {way : List String} (hway : ∀ name ∈ way, IsNormal name) :
    components (ofNames way) = way.map Component.entry := by
  cases way with
  | nil => rfl
  | cons name rest =>
    have hname := hway name List.mem_cons_self
    have hsegments := segments_ofNames hway (List.cons_ne_nil _ _)
    rw [List.map_cons] at hsegments
    rw [components_of_segments hsegments hname.toList_ne_nil hname.toList_ne_dot, ← hsegments]
    exact filterMap_step?_segments_ofNames hway

end Components

/-! ## Names of entries -/

/-- **The normal parts of a path**: what stands between its slashes, but for nothing and for dots. -/
def normalParts (path : String) : List String :=
  ((List.splitOn '/' path.toList).map String.ofList).filter fun part =>
    part ≠ "" ∧ part ≠ "." ∧ part ≠ ".."

/-- The names in a path are its normal parts. -/
theorem names_eq_normalParts (path : String) : names path = normalParts path := by
  rw [names_eq, steps, normalParts, ← segments_eq_splitOn, List.filter_map, List.filter_map,
    List.filter_filter]
  refine congrArg _ (List.filter_congr fun segment _ => ?_)
  have hempty : String.ofList segment = "" ↔ segment = [] := by
    rw [← String.toList_eq_nil_iff, String.toList_ofList]
  simp [FileTree.isName, hempty, Bool.and_comm]

/-- **The name of an entry is accepted** if it is not absolute, has no step to a parent and has some
normal part; the way it describes has just its normal parts. -/
theorem safeNames?_eq_some {name : String} {way : List String} :
    safeNames? name = some way ↔ name.toList.head? ≠ some '/' ∧
      ['.', '.'] ∉ List.splitOn '/' name.toList ∧ normalParts name ≠ [] ∧ way = normalParts name := by
  rw [safeNames?, names_eq_normalParts, ← segments_eq_splitOn, ← and_assoc, ← all_isSafe_components,
    Option.ite_none_right_eq_some, Bool.and_eq_true, decide_eq_true_eq, and_assoc, Option.some.injEq,
    @eq_comm _ way]

/-- Every normal part of a path is a normal name. -/
theorem isNormal_of_mem_normalParts {path name : String} (h : name ∈ normalParts path) :
    IsNormal name :=
  isNormal_of_mem_names (names_eq_normalParts path ▸ h)

/-- The name of an entry that is the text of a way describes that way. -/
theorem safeNames?_ofNames {way : List String} (hway : ∀ name ∈ way, IsNormal name) (hne : way ≠ []) :
    safeNames? (ofNames way) = some way := by
  have hsafe : (way.map Component.entry).all Component.isSafe = true := by simp [Component.isSafe]
  rw [safeNames?, components_ofNames hway, names_ofNames hway, hsafe, decide_eq_true hne]
  rfl

/-! ## Longer paths -/

section Joined

variable {base rest : String}

/-- The segments of a path behind another one: an empty one at the end of that does not count. -/
theorem exists_segments_join (hbase : base ≠ "") (rest : String) : ∃ kept tail,
    kept ≠ [] ∧ (∀ segment ∈ tail, segment = []) ∧ segments base.toList = kept ++ tail ∧
      segments (join base rest).toList = kept ++ segments rest.toList := by
  rw [join]
  by_cases hslash : base.toList.getLast? = some '/'
  · obtain ⟨front, hfront⟩ := List.getLast?_eq_some_iff.mp hslash
    refine ⟨segments front, [[]], segments_ne_nil _, by simp, ?_, ?_⟩
    · rw [hfront, segments_append_slash]
      rfl
    · rw [if_pos (.inr hslash), String.toList_append, hfront, List.append_assoc, List.singleton_append,
        segments_append_slash]
  · refine ⟨segments base.toList, [], segments_ne_nil _, by simp, (List.append_nil _).symm, ?_⟩
    rw [if_neg (by simp [hbase, hslash]), String.toList_append, String.toList_append, List.append_assoc]
    exact segments_append_slash _ _

/-- A joined path starts as its base does. -/
theorem head?_join (hbase : base ≠ "") (rest : String) :
    (join base rest).toList.head? = base.toList.head? := by
  obtain ⟨c, text, hc⟩ := List.exists_cons_of_ne_nil
    (fun hnil => hbase (String.toList_eq_nil_iff.mp hnil) : base.toList ≠ [])
  rw [join]
  split
  · rw [String.toList_append, hc, List.cons_append, List.head?_cons, List.head?_cons]
  · rw [String.toList_append, String.toList_append, hc, List.cons_append, List.cons_append,
      List.head?_cons, List.head?_cons]

/-- A joined path holds the characters of both parts, and a slash. -/
theorem mem_toList_join {c : Char} (h : c ∈ (join base rest).toList) :
    c ∈ base.toList ∨ c = '/' ∨ c ∈ rest.toList := by
  rw [join] at h
  split at h
  · rw [String.toList_append, List.mem_append] at h
    exact h.imp_right .inr
  · rw [String.toList_append, String.toList_append, List.mem_append, List.mem_append, or_assoc] at h
    exact h.imp_right fun h => h.imp_left List.mem_singleton.mp

/-- A path joined to another one is not empty. -/
theorem join_ne_empty (hbase : base ≠ "") (rest : String) : join base rest ≠ "" := by
  intro h
  have hhead := head?_join hbase rest
  rw [h] at hhead
  exact hbase (String.toList_eq_nil_iff.mp (List.head?_eq_none_iff.mp hhead.symm))

/-- A longer rest makes a longer path. -/
theorem join_isFront {longer : String} (h : rest.toList <+: longer.toList) :
    (join base rest).toList <+: (join base longer).toList := by
  rw [join, join]
  split
  · rw [String.toList_append, String.toList_append]
    exact (List.prefix_append_right_inj _).mpr h
  · rw [String.toList_append, String.toList_append (s := base ++ "/")]
    exact (List.prefix_append_right_inj _).mpr h

/-- A path behind another one is at least as long as it is alone. -/
theorem utf8ByteSize_le_join (base rest : String) : rest.utf8ByteSize ≤ (join base rest).utf8ByteSize := by
  rw [join]
  split
  · rw [String.utf8ByteSize_append]
    exact Nat.le_add_left _ _
  · rw [String.utf8ByteSize_append]
    exact Nat.le_add_left _ _

/-- A joined path ends as its rest does. -/
theorem getLast?_join (base : String) (hrest : rest ≠ "") :
    (join base rest).toList.getLast? = rest.toList.getLast? := by
  have hne : rest.toList ≠ [] := fun hnil => hrest (String.toList_eq_nil_iff.mp hnil)
  rw [join]
  split
  · rw [String.toList_append, List.getLast?_append_of_ne_nil _ hne]
  · rw [String.toList_append, List.getLast?_append_of_ne_nil _ hne]

/-- **A path behind another one** goes on with its steps. -/
theorem steps_join (hbase : base ≠ "") (rest : String) :
    steps (join base rest) = steps base ++ steps rest := by
  obtain ⟨kept, tail, -, htail, hsegments, hjoin⟩ := exists_segments_join hbase rest
  have hnone : tail.filter (· ≠ []) = [] :=
    List.filter_eq_nil_iff.mpr fun segment hmem => by simp [htail segment hmem]
  rw [steps, steps, steps, hsegments, hjoin, List.filter_append, List.filter_append, hnone,
    List.append_nil, List.map_append]

/-- **A way behind a path** leads on from there, and nowhere else. -/
theorem components_join {way : List String} (hbase : base ≠ "")
    (hway : ∀ name ∈ way, IsNormal name) :
    components (join base (ofNames way)) = components base ++ way.map Component.entry := by
  obtain ⟨kept, tail, hkept, htail, hsegments, hjoin⟩ := exists_segments_join hbase (ofNames way)
  obtain ⟨first, others, rfl⟩ := List.exists_cons_of_ne_nil hkept
  have hnone : tail.filterMap step? = [] :=
    List.filterMap_eq_nil_iff.mpr fun segment hmem => by
      rw [htail segment hmem]
      rfl
  rw [components_of_cons hsegments, components_of_cons hjoin, head?_join hbase, List.append_eq,
    List.append_eq, List.filterMap_append, List.filterMap_append, hnone, List.append_nil,
    filterMap_step?_segments_ofNames hway, List.append_assoc]

end Joined

/-! ## Shorter paths -/

/-- What trimming takes away is no step. -/
theorem exists_append_eq_trimSegments (segments : List (List Char)) :
    ∃ dropped, segments = trimSegments segments ++ dropped ∧ ∀ segment ∈ dropped, step? segment = none := by
  induction segments with
  | nil => exact ⟨[], rfl, by simp⟩
  | cons segment others ih =>
    obtain ⟨dropped, hothers, hdropped⟩ := ih
    rw [trimSegments]
    split
    next hkept hstep =>
      rw [hkept, List.nil_append] at hothers
      refine ⟨segment :: dropped, by rw [List.nil_append, ← hothers], ?_⟩
      exact List.forall_mem_cons.mpr ⟨hstep, hdropped⟩
    next => exact ⟨dropped, congrArg _ hothers, hdropped⟩

/-- **The path without its end** keeps the segments up to the last step, and at least the root. -/
theorem exists_segments_trimEnd (path : String) : ∃ front dropped,
    segments path.toList = front ++ dropped ∧ (∀ segment ∈ dropped, step? segment = none) ∧
      ((front = [[]] ∧ dropped ≠ [] ∧ trimEnd path = "/") ∨
        (front ≠ [] ∧ (front = [[]] → dropped = []) ∧
          segments (trimEnd path).toList = front)) := by
  obtain ⟨first, others, h⟩ := List.exists_cons_of_ne_nil (segments_ne_nil path.toList)
  obtain ⟨dropped, hothers, hdropped⟩ := exists_append_eq_trimSegments others
  have hsegments : segments path.toList = first :: trimSegments others ++ dropped := by
    rw [h, List.cons_append, ← hothers]
  refine ⟨_, dropped, hsegments, hdropped, ?_⟩
  rw [trimEnd, h]
  simp only []
  split
  next hroot =>
    obtain ⟨hfirst, hmore, hkept⟩ := hroot
    refine .inl ⟨by rw [hfirst, hkept], ?_, rfl⟩
    rw [hkept, List.nil_append] at hothers
    exact hothers ▸ hmore
  next hroot =>
    refine .inr ⟨List.cons_ne_nil _ _, ?_, ?_⟩
    · intro hfront
      obtain ⟨hfirst, hkept⟩ := List.cons.inj hfront
      by_contra hne
      refine hroot ⟨hfirst, ?_, hkept⟩
      rw [hothers, hkept, List.nil_append]
      exact hne
    · rw [String.toList_intercalate, List.map_map, segments_eq_splitOn]
      have hid : (first :: trimSegments others).map (String.toList ∘ String.ofList)
          = first :: trimSegments others := List.map_id'' (fun _ => String.toList_ofList) _
      rw [hid]
      refine List.splitOn_intercalate '/' (fun segment hmem => ?_) (List.cons_ne_nil _ _)
      have hpath : segment ∈ segments path.toList := by
        rw [hsegments]
        exact List.mem_append_left _ hmem
      exact slash_notMem_of_mem_segments hpath

/-- **The steps of the path without its end**: dots at most are missing. -/
theorem exists_steps_trimEnd (path : String) : ∃ dots, steps path = steps (trimEnd path) ++ dots ∧
    ∀ step ∈ dots, step = "." := by
  obtain ⟨front, dropped, hsegments, hdropped, htrimmed⟩ := exists_segments_trimEnd path
  refine ⟨(dropped.filter (· ≠ [])).map String.ofList, ?_, ?_⟩
  · rw [steps, hsegments, List.filter_append, List.map_append, steps]
    rcases htrimmed with ⟨rfl, -, htrimmed⟩ | ⟨-, -, htrimmed⟩
    · rw [htrimmed]
      rfl
    · rw [htrimmed]
  · intro step hmem
    obtain ⟨segment, hsegment, rfl⟩ := List.mem_map.mp hmem
    obtain ⟨hmem, hne⟩ := List.mem_filter.mp hsegment
    have hnone := hdropped segment hmem
    rw [step?] at hnone
    split at hnone
    next hdot =>
      rcases hdot with rfl | rfl
      · simp at hne
      · rfl
    next => split at hnone <;> cases hnone

/-- The path without its end starts where the path does. -/
theorem absolute_trimEnd (path : String) :
    (trimEnd path).toList.head? = some '/' ↔ path.toList.head? = some '/' := by
  obtain ⟨front, dropped, hsegments, -, htrimmed⟩ := exists_segments_trimEnd path
  rw [absolute_iff path.toList, hsegments]
  rcases htrimmed with ⟨rfl, hne, htrimmed⟩ | ⟨hne, hempty, htrimmed⟩
  · rw [htrimmed]
    exact ⟨fun _ => ⟨dropped, rfl, hne⟩, fun _ => rfl⟩
  · rw [absolute_iff, htrimmed]
    obtain ⟨first, others, rfl⟩ := List.exists_cons_of_ne_nil hne
    simp only [List.cons_append, List.cons.injEq]
    constructor
    · rintro ⟨_, ⟨rfl, rfl⟩, hothers⟩
      exact ⟨_, ⟨rfl, rfl⟩, List.append_ne_nil_of_left_ne_nil hothers _⟩
    · rintro ⟨_, ⟨rfl, rfl⟩, hothers⟩
      refine ⟨_, ⟨rfl, rfl⟩, ?_⟩
      rintro rfl
      exact hothers (hempty rfl)

/-- The path without its end is the front part of it. -/
theorem trimEnd_isFront (path : String) : (trimEnd path).toList <+: path.toList := by
  obtain ⟨front, dropped, hsegments, -, htrimmed⟩ := exists_segments_trimEnd path
  rw [← intercalate_segments path.toList, hsegments]
  rcases htrimmed with ⟨rfl, hne, htrimmed⟩ | ⟨hne, -, htrimmed⟩
  · obtain ⟨next, more, rfl⟩ := List.exists_cons_of_ne_nil hne
    rw [htrimmed, List.singleton_append, List.intercalate_cons_cons]
    exact List.prefix_append ['/'] _
  · rw [← intercalate_segments (trimEnd path).toList, htrimmed]
    exact intercalate_isFront hne dropped

/-- Of a path that is not empty something is left. -/
theorem trimEnd_ne_empty {path : String} (h : path ≠ "") : trimEnd path ≠ "" := by
  obtain ⟨front, dropped, hsegments, -, htrimmed⟩ := exists_segments_trimEnd path
  rcases htrimmed with ⟨-, -, hroot⟩ | ⟨-, hempty, htrimmed⟩
  · rw [hroot]
    decide
  · intro hnil
    rw [hnil] at htrimmed
    rw [hempty htrimmed.symm, List.append_nil, ← htrimmed] at hsegments
    have htext := congrArg ['/'].intercalate hsegments
    rw [intercalate_segments, intercalate_segments] at htext
    exact h (String.toList_eq_nil_iff.mp htext)

/-- The front part of a text has no more bytes. -/
theorem utf8ByteSize_le_of_isFront {front text : String} (h : front.toList <+: text.toList) :
    front.utf8ByteSize ≤ text.utf8ByteSize := by
  obtain ⟨back, hback⟩ := h
  rw [← String.ofList_toList (s := text), ← hback, String.ofList_append, String.ofList_toList,
    String.utf8ByteSize_append]
  exact Nat.le_add_right _ _

end RecordArchive.Path
