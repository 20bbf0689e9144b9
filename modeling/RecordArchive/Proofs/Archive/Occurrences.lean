import Mathlib.Data.List.Sort
import Mathlib.Data.Nat.Find
import Mathlib.Order.Bounds.Basic
import RecordArchive.Proofs.Archive.RecordReader
import RecordArchive.Proofs.Stream.Faults

/-! # Which markers are found

The search for the marker looks at the last bytes that it took. `Marker.EndsAt input place` says of
the bytes alone that a marker ends at a place among them. Two markers never overlap
(`Marker.EndsAt.apart`), so what a search has taken does not matter to the next one
(`Marker.endsAt_drop`).

* `Marker.find_of_isLeast`, `Marker.find_of_not_isInfix`: a search ends at the least of these places, and
  where there is none it takes everything.
* `Marker.findEach_ends`: searches in a row end at one place after the other.
* `Marker.find_leftmost`: **the leftmost marker is found**, on every infallible stream. -/

namespace RecordArchive

open Program Call

variable {σ : Type}

namespace Marker

/-! ## Where markers end -/

/-- **A marker ends at a place** if the bytes up to there end with it. -/
def EndsAt (input : List UInt8) (place : Nat) : Prop :=
  place ≤ input.length ∧ bytes <:+ input.take place

instance (input : List UInt8) (place : Nat) : Decidable (EndsAt input place) :=
  inferInstanceAs (Decidable (_ ∧ _))

/-- The bytes from the front of a marker to its end stand in front of the place where it ends. -/
theorem endsAt_iff {input : List UInt8} {place : Nat} : EndsAt input place ↔
    ∃ front rest, input = front ++ bytes ++ rest ∧ place = front.length + length := by
  constructor
  · rintro ⟨hle, front, hfront⟩
    refine ⟨front, input.drop place, ?_, ?_⟩
    · rw [hfront, List.take_append_drop]
    · have hlength := congrArg List.length hfront
      rw [List.length_append, length_bytes, List.length_take_of_le hle] at hlength
      exact hlength.symm
  · rintro ⟨front, rest, rfl, rfl⟩
    have hplace : front.length + length = (front ++ bytes).length := by
      rw [List.length_append, length_bytes]
    rw [EndsAt, hplace, List.take_left]
    exact ⟨(List.prefix_append _ _).length_le, List.suffix_append _ _⟩

/-- A marker is among the bytes if it ends somewhere. -/
theorem isInfix_iff_exists_endsAt {input : List UInt8} :
    bytes <:+: input ↔ ∃ place, EndsAt input place := by
  constructor
  · rintro ⟨front, rest, rfl⟩
    exact ⟨_, endsAt_iff.mpr ⟨front, rest, rfl, rfl⟩⟩
  · rintro ⟨place, h⟩
    obtain ⟨front, rest, rfl, -⟩ := endsAt_iff.mp h
    exact ⟨front, rest, rfl⟩

/-- The letters of a marker stand in front of the place where it ends. -/
theorem EndsAt.getElem? {input : List UInt8} {place : Nat} (h : EndsAt input place) (index : Nat)
    (hindex : index < length) : input[place - length + index]? = bytes[index]? := by
  obtain ⟨front, rest, rfl, rfl⟩ := endsAt_iff.mp h
  rw [Nat.add_sub_cancel, List.append_assoc, List.getElem?_append_right (Nat.le_add_right _ _),
    Nat.add_sub_cancel_left, List.getElem?_append_left hindex]

/-- An occurrence has room for the marker in front of its end. -/
theorem EndsAt.length_le {input : List UInt8} {place : Nat} (h : EndsAt input place) :
    length ≤ place := by
  obtain ⟨front, rest, -, rfl⟩ := endsAt_iff.mp h
  exact Nat.le_add_left _ _

/-- **Two markers never overlap.** -/
theorem EndsAt.apart {input : List UInt8} {first second : Nat} (hfirst : EndsAt input first)
    (hsecond : EndsAt input second) (hlt : first < second) : first + length ≤ second := by
  refine Decidable.byContradiction fun hover => ?_
  have hle := hfirst.length_le
  -- the first letter of the second marker would be a later one of the first marker
  have hinside := hfirst.getElem? (second - first) (by omega)
  have hletter := hsecond.getElem? 0 (by decide)
  have hsame : first - length + (second - first) = second - length + 0 := by omega
  rw [hsame, hletter] at hinside
  exact getElem?_bytes_ne (by omega) hinside.symm

/-- **Behind some bytes** the same markers end, except for those that do not lie behind them as a
whole. -/
theorem endsAt_drop {input : List UInt8} {taken place : Nat} :
    EndsAt (input.drop taken) place ↔ EndsAt input (taken + place) ∧ length ≤ place := by
  have hdrop : (input.drop taken).take place = (input.take (taken + place)).drop taken := by
    rw [List.drop_take, Nat.add_sub_cancel_left]
  constructor
  · intro h
    have hpos : 0 < length := by decide
    have hlength := h.length_le
    obtain ⟨hle, hsuffix⟩ := h
    rw [List.length_drop] at hle
    refine ⟨⟨by omega, ?_⟩, hlength⟩
    rw [hdrop] at hsuffix
    exact hsuffix.trans (List.drop_suffix _ _)
  · rintro ⟨⟨hle, hsuffix⟩, hlength⟩
    refine ⟨by rw [List.length_drop]; omega, ?_⟩
    rw [hdrop]
    refine List.suffix_of_suffix_length_le hsuffix (List.drop_suffix _ _) ?_
    rw [List.length_drop, List.length_take_of_le hle, Nat.add_sub_cancel_left]
    exact hlength

/-- Behind a marker just the later ones end. -/
theorem EndsAt.endsAt_drop_iff {input : List UInt8} {first place : Nat} (hfirst : EndsAt input first) :
    EndsAt (input.drop first) place ↔ EndsAt input (first + place) ∧ 0 < place := by
  rw [endsAt_drop]
  refine and_congr_right fun hplace => ⟨fun hle => ?_, fun hpos => ?_⟩
  · exact Nat.lt_of_lt_of_le (by decide) hle
  · have := hfirst.apart hplace (by omega)
    omega

/-! ## A search -/

/-- The leftmost marker has bytes without a marker in front of it. -/
theorem exists_of_isLeast {input : List UInt8} {place : Nat}
    (h : IsLeast {place | EndsAt input place} place) : ∃ front, ¬ bytes <:+: front ∧
      input = front ++ bytes ++ input.drop place ∧ place = front.length + length := by
  obtain ⟨hends, hleast⟩ := h
  obtain ⟨front, rest, rfl, rfl⟩ := endsAt_iff.mp hends
  refine ⟨front, ?_, ?_, rfl⟩
  · -- a marker in front would end further to the left
    rintro ⟨before, behind, rfl⟩
    have hearly : EndsAt (before ++ bytes ++ behind ++ bytes ++ rest) (before.length + length) :=
      endsAt_iff.mpr ⟨before, behind ++ bytes ++ rest, by simp only [List.append_assoc], rfl⟩
    have hle := hleast hearly
    have hpos : 0 < length := by decide
    rw [List.length_append, List.length_append, length_bytes] at hle
    omega
  · have hplace : front.length + length = (front ++ bytes).length := by
      rw [List.length_append, length_bytes]
    rw [hplace, List.drop_left]

/-- **A search ends at the leftmost marker.** -/
theorem find_of_isLeast {input : List UInt8} {place : Nat}
    (h : IsLeast {place | EndsAt input place} place) :
    find input = .ok place (input.drop place) := by
  obtain ⟨front, hfront, hinput, rfl⟩ := exists_of_isLeast h
  have hfind := find_append hfront (input.drop (front.length + length))
  rwa [← hinput] at hfind

/-- Where there is a marker there is a leftmost one. -/
theorem exists_isLeast {input : List UInt8} (h : bytes <:+: input) :
    ∃ place, IsLeast {place | EndsAt input place} place := by
  have hsome := isInfix_iff_exists_endsAt.mp h
  exact ⟨Nat.find hsome, Nat.find_spec hsome, fun _ hends => Nat.find_min' hsome hends⟩

/-- A search goes on to the end if no marker is completed on the way. -/
theorem findFrom_of_not_suffix (taken ahead : List UInt8)
    (hnone : ∀ part, part <+: taken ++ ahead → taken.length < part.length → ¬ bytes <:+ part) :
    findFrom (windowOf taken) taken.length ahead
      = .error (.invalidFormat (.missingMarker (taken ++ ahead).length)) [] := by
  induction ahead generalizing taken with
  | nil => rw [findFrom_nil, List.append_nil]
  | cons byte more ih =>
    have hsplit : taken ++ byte :: more = taken ++ [byte] ++ more := List.append_cons _ _ _
    have hlength : (taken ++ [byte]).length = taken.length + 1 := List.length_append
    have hnext : ¬ (length ≤ (taken ++ [byte]).length ∧ windowOf (taken ++ [byte]) = bytes) :=
      fun hfound =>
      hnone _ ⟨more, hsplit.symm⟩ (by omega) (windowOf_eq_bytes.mp hfound)
    rw [findFrom_cons, slide_windowOf, ← hlength, if_neg hnext, hsplit]
    rw [hsplit] at hnone
    exact ih (taken ++ [byte]) fun part hpart hlt => hnone part hpart (by omega)

/-- **Without a marker** a search takes everything. -/
theorem find_of_not_isInfix {input : List UInt8} (h : ¬ bytes <:+: input) :
    find input = .error (.invalidFormat (.missingMarker input.length)) [] :=
  findFrom_of_not_suffix [] input fun _ hpart _ hsuffix =>
    h (hsuffix.isInfix.trans hpart.isInfix)

/-! ## Searches in a row -/

/-- The places where markers end, from left to right. -/
def ends (input : List UInt8) : List Nat :=
  (List.range (input.length + 1)).filter fun place => EndsAt input place

/-- The list holds just the ends of occurrences. -/
theorem mem_ends {input : List UInt8} {place : Nat} : place ∈ ends input ↔ EndsAt input place := by
  rw [ends, List.mem_filter, List.mem_range, decide_eq_true_iff]
  exact ⟨fun h => h.2, fun h => ⟨Nat.lt_succ_of_le h.1, h⟩⟩

/-- The ends are listed in order. -/
theorem pairwise_ends (input : List UInt8) : (ends input).Pairwise (· < ·) :=
  List.pairwise_lt_range.filter _

/-- The list is empty if and only if the marker does not occur. -/
theorem ends_eq_nil {input : List UInt8} : ends input = [] ↔ ¬ bytes <:+: input := by
  rw [List.eq_nil_iff_forall_not_mem, isInfix_iff_exists_endsAt, not_exists]
  exact forall_congr' fun _ => not_congr mem_ends

/-- **Behind the leftmost marker** the later ones end where they did. -/
theorem ends_drop {input : List UInt8} {first : Nat} {later : List Nat}
    (h : ends input = first :: later) : IsLeast {place | EndsAt input place} first ∧
      (ends (input.drop first)).map (first + ·) = later := by
  have hsorted := pairwise_ends input
  rw [h] at hsorted
  obtain ⟨hless, hlater⟩ := List.pairwise_cons.mp hsorted
  have hfirst : EndsAt input first := mem_ends.mp (h ▸ List.mem_cons_self)
  have hmem {place : Nat} (hplace : EndsAt input place) : place = first ∨ place ∈ later :=
    List.mem_cons.mp (h ▸ mem_ends.mpr hplace)
  refine ⟨⟨hfirst, fun place hplace => ?_⟩, ?_⟩
  · rcases hmem hplace with rfl | hplace
    · exact Nat.le_refl _
    · exact Nat.le_of_lt (hless place hplace)
  · -- both lists are in order, so it is enough that they have the same members
    have hbehind : ((ends (input.drop first)).map (first + ·)).Pairwise (· < ·) :=
      List.pairwise_map.mpr ((pairwise_ends _).imp fun hlt => Nat.add_lt_add_left hlt first)
    refine hbehind.eq_of_mem_iff hlater fun place => ?_
    rw [List.mem_map]
    constructor
    · rintro ⟨distance, hdistance, rfl⟩
      obtain ⟨hends, hpos⟩ := hfirst.endsAt_drop_iff.mp (mem_ends.mp hdistance)
      exact (hmem hends).resolve_left (by omega)
    · intro hplace
      have hlt := hless place hplace
      have hends : EndsAt input place := mem_ends.mp (h ▸ List.mem_cons_of_mem _ hplace)
      have hsum : first + (place - first) = place := by omega
      refine ⟨place - first, mem_ends.mpr (hfirst.endsAt_drop_iff.mpr ⟨?_, by omega⟩), hsum⟩
      rw [hsum]
      exact hends

/-- Searches a number of times in a row, and gives the places behind the markers that were found. -/
def findEach [ByteSource σ] : Nat → EStateM ArchiveError σ (List Nat)
  | 0 => pure []
  | count + 1 => do
    let found ← find
    let later ← findEach count
    pure (found :: later.map (found + ·))

/-- Searches in a row do the same on streams that are read alike. -/
theorem simulates_findEach {τ : Type} [ByteSource σ] [ByteSource τ] {related : σ → τ → Prop}
    (h : ReadsAlike related) (count : Nat) :
    Simulates related (findEach count) (findEach count) := by
  induction count with
  | zero => exact .pure []
  | succ count ih => exact h.find.bind fun _ => ih.bind fun _ => .pure _

/-- A search in front of others. -/
theorem findEach_succ [ByteSource σ] {start middle : σ} {found : Nat}
    (hfind : find start = .ok found middle) (count : Nat) :
    findEach (count + 1) start
      = (findEach count >>= fun later => pure (found :: later.map (found + ·))) middle := by
  rw [findEach, bind_of_ok hfind]

/-- **Searches in a row** find one marker after the other. -/
theorem findEach_ends {input : List UInt8} {count : Nat} (hcount : count < (ends input).length) :
    findEach (count + 1) input
      = .ok ((ends input).take (count + 1)) (input.drop (ends input)[count]) := by
  induction count generalizing input with
  | zero =>
    obtain ⟨first, later, hends⟩ := List.exists_cons_of_length_pos hcount
    have hfind := find_of_isLeast (ends_drop hends).1
    simp only [hends, List.getElem_cons_zero]
    exact findEach_succ hfind 0
  | succ count ih =>
    obtain ⟨first, later, hends⟩ := List.exists_cons_of_length_pos (Nat.zero_lt_of_lt hcount)
    obtain ⟨hleast, rfl⟩ := ends_drop hends
    have hlater : count < (ends (input.drop first)).length := by
      rw [hends, List.length_cons, List.length_map] at hcount
      omega
    rw [findEach_succ (find_of_isLeast hleast), bind_of_ok (ih hlater), List.drop_drop]
    simp only [hends, List.getElem_cons_succ, List.getElem_map, List.take_succ_cons, List.map_take]
    rfl

/-- **One search too many** takes what is left behind the last marker. -/
theorem findEach_beyond (input : List UInt8) : findEach ((ends input).length + 1) input
    = .error (.invalidFormat (.missingMarker (input.length - (ends input).getLastD 0))) [] := by
  induction hcount : (ends input).length generalizing input with
  | zero =>
    have hends := List.length_eq_zero_iff.mp hcount
    rw [hends]
    exact bind_of_error (find_of_not_isInfix (ends_eq_nil.mp hends))
  | succ count ih =>
    obtain ⟨first, later, hends⟩ := List.exists_cons_of_length_eq_add_one hcount
    obtain ⟨hleast, rfl⟩ := ends_drop hends
    have hlater : (ends (input.drop first)).length = count := by
      rw [hends, List.length_cons, List.length_map] at hcount
      exact Nat.succ.inj hcount
    -- distances from the first marker are counted from the start of it all
    have hlast : (ends input).getLastD 0 = first + (ends (input.drop first)).getLastD 0 := by
      rw [hends, List.getLastD_cons, List.getLastD_eq_getLast?, List.getLast?_map,
        List.getLastD_eq_getLast?]
      cases (ends (input.drop first)).getLast? <;> rfl
    rw [findEach_succ (find_of_isLeast hleast), bind_of_error (ih _ hlater), List.length_drop,
      Nat.sub_sub, hlast]

/-! ## Searches on a stream -/

/-- **The leftmost marker is found** on every infallible stream, whatever pieces it gives its bytes in
and however often its reads are interrupted.

A search that succeeds has taken just the bytes up to the least place where a marker ends. Without a
marker it takes everything and fails. What stands in front may be anything without a marker, so also
the beginnings of one. Searches in a row find the markers from left to right, and the one behind the
last of them fails. -/
theorem find_leftmost [ByteSource σ] {delivers : σ → List UInt8 → Prop} (hd : IsDelivery delivers)
    {stream : σ} {input : List UInt8} (h : delivers stream input) :
    (bytes <:+: input → ∃ place final, IsLeast {place | EndsAt input place} place ∧
      find stream = .ok place final ∧ delivers final (input.drop place) ∧
      ∀ state : HandleState, state.mode = .reading .atMarker →
        Archive.findMarker ⟨stream, state⟩
          = .ok place ⟨final, { state with mode := .reading .atRecordHeader }⟩) ∧
    (¬ bytes <:+: input → ∃ final,
      find stream = .error (.invalidFormat (.missingMarker input.length)) final ∧
      delivers final [] ∧
      ∀ state : HandleState, state.mode = .reading .atMarker →
        Archive.findMarker ⟨stream, state⟩
          = .error (.invalidFormat (.missingMarker input.length)) ⟨final, state⟩) ∧
    (∀ front rest, ¬ bytes <:+: front → input = front ++ bytes ++ rest → ∃ final,
      find stream = .ok (front.length + length) final ∧ delivers final rest) ∧
    (∀ count, (hcount : count < (ends input).length) → ∃ final,
      findEach (count + 1) stream = .ok ((ends input).take (count + 1)) final ∧
        delivers final (input.drop (ends input)[count])) ∧
    ∃ final, findEach ((ends input).length + 1) stream = .error
        (.invalidFormat (.missingMarker (input.length - (ends input).getLastD 0))) final ∧
      delivers final [] := by
  have hagree := hd.readsAlike.find stream input h
  have heach (count : Nat) := simulates_findEach hd.readsAlike count stream input h
  refine ⟨fun hinfix => ?found, fun hnone => ?missing, fun front rest hfront hinput => ?behind,
    fun count hcount => ?each, ?beyond⟩
  case found =>
    obtain ⟨place, hleast⟩ := exists_isLeast hinfix
    rw [find_of_isLeast hleast] at hagree
    obtain ⟨final, hrun, hfinal⟩ := hagree.exists_ok
    exact ⟨place, final, hleast, hrun, hfinal, fun _ hmode => Archive.findMarker_of_ok hmode hrun⟩
  case missing =>
    rw [find_of_not_isInfix hnone] at hagree
    obtain ⟨final, hrun, hfinal⟩ := hagree.exists_error
    exact ⟨final, hrun, hfinal, fun _ hmode => Archive.findMarker_of_error hmode hrun⟩
  case behind =>
    rw [hinput, find_append hfront rest] at hagree
    exact hagree.exists_ok
  case each =>
    have hrun := heach (count + 1)
    rw [findEach_ends hcount] at hrun
    exact hrun.exists_ok
  case beyond =>
    have hrun := heach ((ends input).length + 1)
    rw [findEach_beyond] at hrun
    exact hrun.exists_error

/-- False starts in front of two markers, one of them cut off by the next one, given byte by byte and
with interruptions inside of both. -/
def falseStarts : FaultyStream where
  memory := .ofList ([0x4B, 0x43, 0x21, 0x4B, 0x4B, 0x43, 0x21, 0x1A, 0x06] ++ bytes ++ [0x00, 0x4B]
    ++ bytes ++ [0x4B, 0x43])
  faults := { readMax? := some 1, readInterrupts := [0, 4, 11, 11, 20] }

/-- Neither the false starts nor the interruptions matter: the first call finds the leftmost marker,
a second one the next, and a third one fails at the end of the stream. -/
theorem find_falseStarts : (∃ final, find falseStarts = .ok 15 final ∧
      final.memory.rest = [0x00, 0x4B] ++ bytes ++ [0x4B, 0x43]) ∧
    (∃ final, findEach 2 falseStarts = .ok [15, 23] final ∧ final.memory.rest = [0x4B, 0x43]) ∧
    ∃ final, findEach 3 falseStarts = .error (.invalidFormat (.missingMarker 2)) final ∧
      final.memory.rest = [] := by
  have hcalm : falseStarts.memory.rest = [0x4B, 0x43, 0x21, 0x4B, 0x4B, 0x43, 0x21, 0x1A, 0x06]
      ++ bytes ++ ([0x00, 0x4B] ++ bytes ++ [0x4B, 0x43]) ∧
      falseStarts.faults.readFailAt? = none ∧ falseStarts.faults.readMax? ≠ some 0 :=
    ⟨rfl, rfl, by decide⟩
  obtain ⟨-, -, hbehind, heach, hbeyond⟩ := find_leftmost FaultyStream.isDelivery_rest hcalm
  obtain ⟨found, hfound, hrest, -⟩ := hbehind
    [0x4B, 0x43, 0x21, 0x4B, 0x4B, 0x43, 0x21, 0x1A, 0x06] ([0x00, 0x4B] ++ bytes ++ [0x4B, 0x43])
    (by decide) rfl
  obtain ⟨second, hsecond, hlater, -⟩ := heach 1 (by decide)
  obtain ⟨last, hlast, hnothing, -⟩ := hbeyond
  exact ⟨⟨found, hfound, hrest⟩, ⟨second, hsecond, hlater⟩, ⟨last, hlast, hnothing⟩⟩

end Marker

end RecordArchive
