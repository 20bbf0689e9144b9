import RecordArchive.Proofs.Stream.Delivery

/-! # Where the marker is found

The search for the marker keeps the last bytes that it took. `Marker.windowOf` computes them from
everything that was taken, and one byte more leads from the window of the bytes before it to the
window of the bytes with it (`Marker.slide_windowOf`). The marker overlaps no other occurrence of
itself, so behind bytes without a marker the search ends exactly where the first marker does
(`Marker.find_append`). -/

namespace RecordArchive.Marker

/-- The window behind the bytes that were taken: the last of them, behind zeros while they are
few. -/
def windowOf (taken : List UInt8) : List UInt8 := (zeroWindow ++ taken).drop taken.length

/-- The window is as long as the marker. -/
@[simp] theorem length_zeroWindow : zeroWindow.length = length := List.length_replicate

/-- At the start the window holds zeros. -/
@[simp] theorem windowOf_nil : windowOf [] = zeroWindow := List.append_nil _

/-- A byte takes the window of the bytes before it to the window of the bytes with it. -/
theorem slide_windowOf (taken : List UInt8) (byte : UInt8) :
    slide (windowOf taken) byte = windowOf (taken ++ [byte]) := by
  -- the window is never empty, so the oldest byte that falls out of it is not the new one
  have hlength : 0 < length := by decide
  have hfits : taken.length + 1 ≤ (zeroWindow ++ taken).length := by
    rw [List.length_append, length_zeroWindow]
    omega
  rw [slide, windowOf, windowOf, List.drop_drop, List.length_append, List.length_singleton,
    ← List.append_assoc, List.drop_append_of_le_length hfits]

/-- Once as many bytes were taken as the marker has, the window holds nothing but such bytes. -/
theorem windowOf_of_length_le {taken : List UInt8} (h : length ≤ taken.length) :
    windowOf taken = taken.drop (taken.length - length) := by
  rw [windowOf, List.drop_append, List.drop_of_length_le (by rwa [length_zeroWindow]),
    List.nil_append, length_zeroWindow]

/-- **The search stops** exactly behind bytes that end with the marker: the zeros in the window never
count as bytes of it. -/
theorem windowOf_eq_bytes {taken : List UInt8} :
    length ≤ taken.length ∧ windowOf taken = bytes ↔ bytes <:+ taken := by
  constructor
  · rintro ⟨hlength, h⟩
    rw [← h, windowOf_of_length_le hlength]
    exact List.drop_suffix _ _
  · intro h
    have hlength : length ≤ taken.length := h.length_le
    obtain ⟨front, rfl⟩ := h
    refine ⟨hlength, ?_⟩
    rw [windowOf_of_length_le hlength, List.length_append, length_bytes, Nat.add_sub_cancel,
      List.drop_left]

/-- The first letter of the marker stands nowhere else in it. -/
theorem getElem?_bytes_ne {index : Nat} (h : 0 < index) :
    bytes[index]? ≠ bytes[0]? := by
  match index with
  | 1 | 2 | 3 | 4 | 5 => decide
  | index + 6 =>
    rw [List.getElem?_eq_none (by rw [length_bytes, length]; omega)]
    decide

/-- **No marker overlaps another one**: behind bytes without a marker none ends before the one that
follows them. -/
theorem not_suffix_of_prefix {front part : List UInt8} (hfront : ¬ bytes <:+: front)
    (hpart : part <+: front ++ bytes) (hshort : part.length < front.length + length) :
    ¬ bytes <:+ part := by
  rintro ⟨before, rfl⟩
  obtain ⟨after, hall⟩ := hpart
  rw [List.length_append, length_bytes] at hshort
  by_cases hinside : before.length + length ≤ front.length
  · -- The marker would lie inside the bytes in front.
    refine hfront ⟨before, after.take (front.length - (before.length + length)), ?_⟩
    have htake := congrArg (List.take front.length) hall
    rw [List.take_left, List.take_append, List.length_append, length_bytes,
      List.take_of_length_le (by rw [List.length_append, length_bytes]; exact hinside)] at htake
    exact htake
  · -- Its letters would stand where the first letter of the marker behind them stands.
    have hleft : (before ++ bytes ++ after)[front.length]? = bytes[front.length - before.length]? := by
      rw [List.append_assoc, List.getElem?_append_right (by omega),
        List.getElem?_append_left (by rw [length_bytes]; omega)]
    have hright : (front ++ bytes)[front.length]? = bytes[0]? := by
      rw [List.getElem?_append_right (Nat.le_refl _), Nat.sub_self]
    rw [hall, hright] at hleft
    exact getElem?_bytes_ne (by omega) hleft.symm

/-- The search goes on until what was taken ends with the marker. -/
theorem findFrom_append (taken ahead rest : List UInt8) (hahead : ahead ≠ [])
    (hend : bytes <:+ taken ++ ahead)
    (hfirst : ∀ part, part <+: taken ++ ahead → taken.length < part.length →
      part.length < (taken ++ ahead).length → ¬ bytes <:+ part) :
    findFrom (windowOf taken) taken.length (ahead ++ rest)
      = .ok (taken ++ ahead).length rest := by
  induction ahead generalizing taken with
  | nil => exact absurd rfl hahead
  | cons byte more ih =>
    have hsplit : taken ++ byte :: more = taken ++ [byte] ++ more := List.append_cons _ _ _
    have hlength : (taken ++ [byte]).length = taken.length + 1 := List.length_append
    rw [List.cons_append, findFrom_cons, slide_windowOf, ← hlength]
    by_cases hfound : length ≤ (taken ++ [byte]).length ∧ windowOf (taken ++ [byte]) = bytes
    · rw [if_pos hfound]
      -- Nothing is left ahead, or the marker would have ended too early.
      obtain rfl : more = [] := by
        rcases more with _ | ⟨next, more⟩
        · rfl
        · refine absurd (windowOf_eq_bytes.mp hfound) (hfirst _ ⟨next :: more, hsplit.symm⟩ ?_ ?_)
          · omega
          · rw [hsplit, hlength, List.length_append, hlength, List.length_cons]
            omega
      rw [List.nil_append]
    · -- The marker is not complete, so the search goes on behind one byte more.
      rw [if_neg hfound, hsplit]
      rw [hsplit] at hend hfirst
      refine ih (taken ++ [byte]) ?_ hend fun part hpart hlt => hfirst part hpart (by omega)
      rintro rfl
      rw [List.append_nil] at hend
      exact hfound (windowOf_eq_bytes.mpr hend)

/-- **The search skips what is in front of the marker**, as long as that holds no marker itself, and
ends behind the marker. -/
theorem find_append {front : List UInt8} (h : ¬ bytes <:+: front) (rest : List UInt8) :
    find (front ++ bytes ++ rest) = .ok (front.length + length) rest := by
  have hrun := findFrom_append [] (front ++ bytes) rest
    (List.append_ne_nil_of_right_ne_nil _ (by decide)) (List.suffix_append _ _)
    fun part hpart _ hlt => not_suffix_of_prefix h hpart (by
      rwa [List.nil_append, List.length_append, length_bytes] at hlt)
  rwa [List.nil_append, List.length_append, length_bytes, windowOf_nil] at hrun

end RecordArchive.Marker
