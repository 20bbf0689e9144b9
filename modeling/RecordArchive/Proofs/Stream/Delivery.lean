import RecordArchive.Marker
import RecordArchive.Proofs.Program
import RecordArchive.Stream.Memory

/-! # Streams that deliver a byte string

An infallible stream gives a byte string and then ends; single reads may be short and may be
interrupted. `Yields stream bytes` says so of a stream, as the largest relation that every read
keeps (`IsDelivery`). The list of the bytes itself is such a stream, and the plainest one: a read
gives all that is asked for.

* `IsDelivery.readsAlike`: whole transfers and the search for the marker do the same on a stream as
  on the bytes that it delivers. What is proved of reading from a list therefore holds of every
  stream that delivers it. -/

namespace RecordArchive

open Program

variable {σ τ : Type}

/-- A list of bytes is read from its front. -/
instance : ByteSource (List UInt8) where
  read count := fun bytes => .ok (bytes.take count) (bytes.drop count)
  readBudget := List.length
  length_read_le {count start final bytes} h := by
    simp only [EStateM.Result.ok.injEq] at h
    obtain ⟨rfl, -⟩ := h
    exact List.length_take_le _ _
  readBudget_ok {count start final bytes} h := by
    simp only [EStateM.Result.ok.injEq] at h
    obtain ⟨rfl, rfl⟩ := h
    simp only [List.length_take, List.length_drop]
    omega
  readBudget_error h := by simp at h

/-- A relation between streams and byte strings that every read keeps: a read takes a front part of
the bytes, takes nothing only where none are asked for or left, and fails only by an interruption,
which takes nothing. -/
structure IsDelivery [ByteSource σ] (delivers : σ → List UInt8 → Prop) : Prop where
  read_ok {start final : σ} {count : Nat} {bytes taken : List UInt8} (h : delivers start bytes)
    (hrun : ByteSource.read count start = .ok taken final) :
    ∃ rest, bytes = taken ++ rest ∧ delivers final rest ∧ (taken = [] → count = 0 ∨ bytes = [])
  read_error {start final : σ} {count : Nat} {bytes : List UInt8} {error : IoError}
    (h : delivers start bytes) (hrun : ByteSource.read count start = .error error final) :
    error.isInterrupted = true ∧ delivers final bytes

/-- **An infallible stream**: it gives exactly these bytes, in pieces and with interruptions. -/
def Yields [ByteSource σ] (stream : σ) (bytes : List UInt8) : Prop :=
  ∃ delivers : σ → List UInt8 → Prop, IsDelivery delivers ∧ delivers stream bytes

/-- `Yields` is itself kept by every read. -/
theorem Yields.isDelivery [ByteSource σ] : IsDelivery (Yields : σ → List UInt8 → Prop) where
  read_ok := by
    rintro start final count bytes taken ⟨delivers, hdelivers, h⟩ hrun
    obtain ⟨rest, hbytes, hfinal, hend⟩ := hdelivers.read_ok h hrun
    exact ⟨rest, hbytes, ⟨delivers, hdelivers, hfinal⟩, hend⟩
  read_error := by
    rintro start final count bytes error ⟨delivers, hdelivers, h⟩ hrun
    obtain ⟨hagain, hfinal⟩ := hdelivers.read_error h hrun
    exact ⟨hagain, delivers, hdelivers, hfinal⟩

/-- A list delivers itself. -/
theorem isDelivery_eq : IsDelivery (Eq : List UInt8 → List UInt8 → Prop) where
  read_ok := by
    rintro start final count _ taken rfl hrun
    cases hrun
    refine ⟨start.drop count, (List.take_append_drop _ _).symm, rfl, fun h => ?_⟩
    exact List.take_eq_nil_iff.mp h
  read_error := by
    rintro start final count _ error rfl hrun
    cases hrun

/-- A read leaves what is behind the bytes that it takes. -/
theorem MemoryStream.rest_read (count : Nat) (stream : MemoryStream) :
    (stream.read count).2.rest = stream.rest.drop count := by
  rw [rest, toList, read_snd_bytes, read_snd_position, read_fst, ← List.drop_drop]
  show stream.rest.drop (stream.rest.take count).length = _
  rw [List.length_take]
  rcases Nat.le_total count stream.rest.length with hle | hle
  · rw [Nat.min_eq_left hle]
  · rw [Nat.min_eq_right hle, List.drop_length, List.drop_of_length_le hle]

/-- A stream in memory delivers what lies behind its position. -/
theorem MemoryStream.isDelivery_rest :
    IsDelivery fun (stream : MemoryStream) bytes => stream.rest = bytes where
  read_ok := by
    rintro start final count _ taken rfl hrun
    obtain ⟨rfl, rfl⟩ : (start.read count).1 = taken ∧ (start.read count).2 = final :=
      (EStateM.Result.ok.injEq _ _ _ _).mp hrun
    refine ⟨start.rest.drop count, ?_, rest_read count start, fun h => ?_⟩
    · rw [read_fst, List.take_append_drop]
    · rw [read_fst] at h
      exact List.take_eq_nil_iff.mp h
  read_error := by
    rintro start final count _ error rfl hrun
    cases hrun

/-- A stream in memory yields what lies behind its position. -/
theorem MemoryStream.yields (stream : MemoryStream) : Yields stream stream.rest :=
  ⟨_, isDelivery_rest, rfl⟩

/-! ## Whole transfers -/

namespace IsDelivery

variable [ByteSource σ] {delivers : σ → List UInt8 → Prop} {start : σ} {bytes : List UInt8}

/-- A read that takes nothing where something is asked for has come to the end. -/
theorem read_nil (hd : IsDelivery delivers) (h : delivers start bytes) {count : Nat}
    (hcount : count ≠ 0) {final : σ} (hrun : ByteSource.read count start = .ok [] final) :
    bytes = [] ∧ delivers final [] := by
  obtain ⟨rest, hbytes, hfinal, hend⟩ := hd.read_ok h hrun
  obtain rfl : bytes = [] := (hend rfl).resolve_left hcount
  obtain rfl : rest = [] := hbytes.symm
  exact ⟨rfl, hfinal⟩

/-- Taking further bytes gives the front of what is delivered. -/
theorem readFurther (hd : IsDelivery delivers) (h : delivers start bytes) (count : Nat)
    (taken : List UInt8) : ∃ final,
      readFurther count taken start = .ok (taken.reverse ++ bytes.take count) final ∧
        delivers final (bytes.drop count) := by
  fun_induction RecordArchive.readFurther count taken start generalizing bytes with
  | case1 taken start => exact ⟨start, by simp, h⟩
  | case2 count taken start hcount final hrun =>
    obtain ⟨rfl, hfinal⟩ := hd.read_nil h hcount hrun
    exact ⟨final, by simp, by simpa using hfinal⟩
  | case3 count taken start hcount byte more middle hrun ih =>
    -- Some bytes were taken, and as many fewer are still asked for.
    obtain ⟨rest, rfl, hmiddle, -⟩ := hd.read_ok h hrun
    have hle := ByteSource.length_read_le hrun
    obtain ⟨final, hfinal, hrest⟩ := ih hmiddle
    have hcut : count - (byte :: more).length = count - (more.length + 1) := rfl
    refine ⟨final, ?_, ?_⟩
    · rw [hfinal, List.take_append, List.take_of_length_le hle, hcut]
      simp
    · rw [List.drop_append, List.drop_eq_nil_of_le hle, hcut]
      exact hrest
  | case4 count taken start hcount error middle hrun hagain ih =>
    -- An interruption takes nothing, and the read is tried again.
    exact ih (hd.read_error h hrun).2
  | case5 count taken start hcount error middle hrun hagain =>
    exact absurd (hd.read_error h hrun).1 hagain

/-- Taking up to a number of bytes gives the front of what is delivered. -/
theorem readUpTo (hd : IsDelivery delivers) (h : delivers start bytes) (count : Nat) : ∃ final,
    readUpTo count start = .ok (bytes.take count) final ∧ delivers final (bytes.drop count) :=
  hd.readFurther h count []

/-- Discarding bytes leaves the rest of what is delivered and misses what was not there. -/
theorem discardUpTo (hd : IsDelivery delivers) (h : delivers start bytes) (count : Nat) :
    ∃ final, discardUpTo count start = .ok (count - bytes.length) final ∧
      delivers final (bytes.drop count) := by
  fun_induction RecordArchive.discardUpTo count start generalizing bytes with
  | case1 start => exact ⟨start, by simp, h⟩
  | case2 count start hcount final hrun =>
    obtain ⟨rfl, hfinal⟩ := hd.read_nil h hcount hrun
    exact ⟨final, by simp, by simpa using hfinal⟩
  | case3 count start hcount byte more middle hrun ih =>
    -- Some bytes were discarded, and as many fewer are still to be.
    obtain ⟨rest, rfl, hmiddle, -⟩ := hd.read_ok h hrun
    have hle := ByteSource.length_read_le hrun
    obtain ⟨final, hfinal, hrest⟩ := ih hmiddle
    have hcut : count - (byte :: more).length = count - (more.length + 1) := rfl
    refine ⟨final, ?_, ?_⟩
    · have hmissing : count - (more.length + 1) - rest.length
          = count - (byte :: more ++ rest).length := by
        simp only [List.length_append, List.length_cons]
        omega
      rw [hfinal, hmissing]
    · rw [List.drop_append, List.drop_eq_nil_of_le hle, hcut]
      exact hrest
  | case4 count start hcount error middle hrun hagain ih =>
    exact ih (hd.read_error h hrun).2
  | case5 count start hcount error middle hrun hagain =>
    exact absurd (hd.read_error h hrun).1 hagain

end IsDelivery

/-! ## Transfers from a list -/

/-- From a list the first bytes are taken. -/
theorem readUpTo_list (count : Nat) (bytes : List UInt8) :
    readUpTo count bytes = .ok (bytes.take count) (bytes.drop count) := by
  obtain ⟨final, hrun, rfl⟩ := isDelivery_eq.readUpTo rfl count
  exact hrun

/-- From a list the first bytes are dropped, and those that are missing are counted. -/
theorem discardUpTo_list (count : Nat) (bytes : List UInt8) :
    discardUpTo count bytes = .ok (count - bytes.length) (bytes.drop count) := by
  obtain ⟨final, hrun, rfl⟩ := isDelivery_eq.discardUpTo rfl count
  exact hrun

/-- A number of bytes can be taken from a list that starts with as many. -/
theorem readExactly_eq_ok {place : Place} {count : Nat} {bytes taken rest : List UInt8} :
    readExactly place count bytes = .ok taken rest ↔
      taken.length = count ∧ bytes = taken ++ rest := by
  simp only [readExactly, bind_eq_ok, adaptExcept_eq_ok, readUpTo_list, EStateM.Result.ok.injEq]
  constructor
  · rintro ⟨_, _, ⟨rfl, rfl⟩, h⟩
    split at h
    · next hlength =>
      obtain ⟨rfl, rfl⟩ := pure_eq_ok.mp h
      exact ⟨hlength, (List.take_append_drop _ _).symm⟩
    · split at h <;> exact (throw_eq_ok.mp h).elim
  · rintro ⟨rfl, rfl⟩
    refine ⟨_, _, ⟨rfl, rfl⟩, ?_⟩
    simp [pure_eq_ok]

/-- At the end of a list nothing can be taken, and that is no fault at a boundary. -/
theorem readExactly_boundary_nil {count : Nat} (h : count ≠ 0) :
    readExactly .boundary count ([] : List UInt8) = .error .eof [] := by
  have hrun : EStateM.adaptExcept ArchiveError.read (readUpTo count) ([] : List UInt8)
      = .ok [] [] := adaptExcept_eq_ok.mpr (by rw [readUpTo_list]; simp)
  rw [readExactly, bind_of_ok hrun, if_neg (by simpa using h.symm), if_pos ⟨rfl, rfl⟩]
  rfl

/-- A number of bytes can be discarded from a list that has as many. -/
theorem discard_eq_ok {count : Nat} {bytes rest : List UInt8} :
    discard count bytes = .ok () rest ↔ ∃ taken, taken.length = count ∧ bytes = taken ++ rest := by
  have hrun : EStateM.adaptExcept ArchiveError.read (discardUpTo count) bytes
      = .ok (count - bytes.length) (bytes.drop count) := by
    unfold EStateM.adaptExcept
    rw [discardUpTo_list]
  rw [discard, bind_of_ok hrun]
  constructor
  · intro h
    split at h
    · next hmissing =>
      obtain ⟨-, rfl⟩ := pure_eq_ok.mp h
      exact ⟨bytes.take count, List.length_take_of_le (Nat.le_of_sub_eq_zero hmissing),
        (List.take_append_drop _ _).symm⟩
    · exact (throw_eq_ok.mp h).elim
  · rintro ⟨taken, rfl, rfl⟩
    rw [if_pos (by simp), pure_eq_ok]
    simp

/-- Inside a structure the end of a list is premature. -/
theorem readExactly_of_short {count : Nat} {bytes : List UInt8} (h : bytes.length < count) :
    readExactly .inside count bytes = .error .prematureEof [] := by
  have hrun : EStateM.adaptExcept ArchiveError.read (readUpTo count) bytes = .ok bytes [] := by
    refine adaptExcept_eq_ok.mpr ?_
    rw [readUpTo_list, List.take_of_length_le (Nat.le_of_lt h),
      List.drop_of_length_le (Nat.le_of_lt h)]
  rw [readExactly, bind_of_ok hrun, if_neg (Nat.ne_of_lt h), if_neg (by simp)]
  rfl

/-- What is not there cannot be discarded. -/
theorem discard_of_short {count : Nat} {bytes : List UInt8} (h : bytes.length < count) :
    discard count bytes = .error .prematureEof [] := by
  have hrun : EStateM.adaptExcept ArchiveError.read (discardUpTo count) bytes
      = .ok (count - bytes.length) [] := by
    refine adaptExcept_eq_ok.mpr ?_
    rw [discardUpTo_list, List.drop_of_length_le (Nat.le_of_lt h)]
  rw [discard, bind_of_ok hrun, if_neg (by omega)]
  rfl

/-- The search for the marker fails where a list ends. -/
theorem Marker.findFrom_nil (window : List UInt8) (consumed : Nat) :
    Marker.findFrom window consumed ([] : List UInt8)
      = .error (.invalidFormat (.missingMarker consumed)) [] := by
  unfold Marker.findFrom
  split
  · next hrun => cases hrun; rfl
  · next hrun => cases hrun
  · next hrun => cases hrun

/-- The search for the marker ends with the byte that completes it. -/
theorem Marker.findFrom_cons (window : List UInt8) (consumed : Nat) (byte : UInt8)
    (rest : List UInt8) : Marker.findFrom window consumed (byte :: rest)
      = if length ≤ consumed + 1 ∧ slide window byte = bytes then .ok (consumed + 1) rest
        else findFrom (slide window byte) (consumed + 1) rest := by
  conv => lhs; unfold Marker.findFrom
  split
  · next hrun => cases hrun
  · next hrun => cases hrun; rfl
  · next hrun => cases hrun

/-! ## Streams that are read alike -/

/-- Whole transfers and the search for the marker do the same on both sides of a relation. -/
structure ReadsAlike [ByteSource σ] [ByteSource τ] (related : σ → τ → Prop) : Prop where
  readUpTo (count : Nat) : Simulates related (readUpTo count) (readUpTo count)
  discardUpTo (count : Nat) : Simulates related (discardUpTo count) (discardUpTo count)
  find : Simulates related Marker.find Marker.find

namespace ReadsAlike

variable [ByteSource σ] [ByteSource τ] {related : σ → τ → Prop}

/-- Exactly so many bytes are the same on streams that are read alike. -/
theorem readExactly (h : ReadsAlike related) (place : Place) (count : Nat) :
    Simulates related (readExactly place count) (readExactly place count) :=
  ((h.readUpTo count).adaptExcept _).bind fun _ =>
    .ite (.pure _) (.ite (.throw _) (.throw _))

/-- Bytes are discarded alike on streams that are read alike. -/
theorem discard (h : ReadsAlike related) (count : Nat) :
    Simulates related (discard count) (discard count) :=
  ((h.discardUpTo count).adaptExcept _).bind fun _ => .ite (.pure _) (.throw _)

end ReadsAlike

/-- The search for the marker goes over what is delivered. -/
theorem IsDelivery.findFrom [ByteSource σ] {delivers : σ → List UInt8 → Prop}
    (hd : IsDelivery delivers) {start : σ} {bytes : List UInt8} (h : delivers start bytes)
    (window : List UInt8) (consumed : Nat) :
    Agree delivers (Marker.findFrom window consumed start)
      (Marker.findFrom window consumed bytes) := by
  fun_induction Marker.findFrom window consumed start generalizing bytes with
  | case1 window consumed start final hrun =>
    obtain ⟨rfl, hfinal⟩ := hd.read_nil h Nat.one_ne_zero hrun
    rw [Marker.findFrom_nil]
    exact .error hfinal
  | case2 window consumed start byte more middle hrun hfound =>
    -- The search takes one byte at a time, so nothing stands behind the byte that was read.
    obtain ⟨rest, rfl, hmiddle, -⟩ := hd.read_ok h hrun
    obtain rfl : more = [] := by simpa using ByteSource.length_read_le hrun
    rw [List.cons_append, Marker.findFrom_cons, if_pos hfound]
    exact .ok hmiddle
  | case3 window consumed start byte more middle hrun hfound ih =>
    obtain ⟨rest, rfl, hmiddle, -⟩ := hd.read_ok h hrun
    obtain rfl : more = [] := by simpa using ByteSource.length_read_le hrun
    rw [List.cons_append, Marker.findFrom_cons, if_neg hfound]
    exact ih hmiddle
  | case4 window consumed start error middle hrun hagain ih =>
    exact ih (hd.read_error h hrun).2
  | case5 window consumed start error middle hrun hagain =>
    exact absurd (hd.read_error h hrun).1 hagain

/-- **A stream is read as the list of the bytes that it delivers.** -/
theorem IsDelivery.readsAlike [ByteSource σ] {delivers : σ → List UInt8 → Prop}
    (hd : IsDelivery delivers) : ReadsAlike delivers where
  readUpTo count := by
    intro start bytes h
    obtain ⟨final, hrun, hfinal⟩ := hd.readUpTo h count
    rw [hrun, readUpTo_list]
    exact .ok hfinal
  discardUpTo count := by
    intro start bytes h
    obtain ⟨final, hrun, hfinal⟩ := hd.discardUpTo h count
    rw [hrun, discardUpTo_list]
    exact .ok hfinal
  find := fun _ _ h => hd.findFrom h Marker.zeroWindow 0

end RecordArchive
