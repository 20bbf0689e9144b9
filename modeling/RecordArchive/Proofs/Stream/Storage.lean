import RecordArchive.Proofs.Program
import RecordArchive.Stream.Memory
import RecordArchive.Stream.Transfer

/-! # Streams that keep what is written

A writer puts bytes behind bytes, and now and then it goes back to write some of them again. On a
stream in memory all of that is one write: two writes in a row are one (`MemoryStream.write_write`),
and bytes that are written again in place change in the bytes of that write and nowhere else
(`MemoryStream.write_patch`).

An infallible seekable stream keeps what is written as a stream in memory does; single writes may be
short and may be interrupted. `IsStorage keeps` says so of a relation between the two.

* `WritesAlike`: whatever a writer asks of a stream does the same on both sides of a relation.
* `IsStorage.writesAlike`: that holds of storage and memory. -/

namespace RecordArchive

open Program

variable {σ τ : Type}

namespace MemoryStream

/-- Streams with the same bytes and the same position are the same. -/
theorem ext_toList {first second : MemoryStream} (hbytes : first.toList = second.toList)
    (hposition : first.position = second.position) : first = second := by
  cases first
  cases second
  obtain rfl := Array.toList_inj.mp hbytes
  obtain rfl := hposition
  rfl

/-- The stream at another position. -/
def movedTo (position : Nat) (stream : MemoryStream) : MemoryStream := { stream with position }

/-- The stream behind `front` and in front of `rest`. -/
def between (front rest : List UInt8) : MemoryStream :=
  { bytes := (front ++ rest).toArray, position := front.length }

/-- A stream at a place of some bytes holds them. -/
theorem toList_between (front rest : List UInt8) : (between front rest).toList = front ++ rest := rfl

/-- A stream at a place of some bytes stands there. -/
theorem position_between (front rest : List UInt8) :
    (between front rest).position = front.length := rfl

/-- A write takes the place of as many bytes of the rest. -/
theorem write_between (front rest content : List UInt8) :
    (between front rest).write content = between (front ++ content) (rest.drop content.length) := by
  have hinside : (between front rest).position ≤ (between front rest).bytes.size := by
    show front.length ≤ (front ++ rest).length
    rw [List.length_append]
    omega
  apply ext_toList
  · rw [toList_write content _ hinside, position_between, toList_between, toList_between,
      List.take_left, List.drop_append, List.drop_eq_nil_of_le (Nat.le_add_right _ _),
      Nat.add_sub_cancel_left, List.nil_append]
  · exact List.length_append.symm

/-- Moving back over some bytes puts them in front of the rest. -/
theorem movedTo_between (front middle rest : List UInt8) :
    (between (front ++ middle) rest).movedTo front.length = between front (middle ++ rest) := by
  apply ext_toList
  · exact List.append_assoc _ _ _
  · rfl

/-- Moving ahead over some bytes of the rest puts them in front. -/
theorem movedTo_between_append (front middle rest : List UInt8) :
    (between front (middle ++ rest)).movedTo (front ++ middle).length
      = between (front ++ middle) rest := by
  apply ext_toList
  · exact (List.append_assoc _ _ _).symm
  · rfl

/-- Every stream is written to as one with bytes up to its position: a gap is filled with zeros. -/
theorem exists_between (stream : MemoryStream) : ∃ front rest,
    front.length = stream.position ∧
      ∀ content, stream.write content = (between front rest).write content := by
  have hpadded : (stream.bytes ++ Array.replicate (stream.position - stream.bytes.size) 0).toList.length
      = max stream.position stream.bytes.size := by
    rw [Array.length_toList, Array.size_append, Array.size_replicate]
    omega
  -- The front ends where the stream stands, behind the zeros that a write would fill in.
  obtain ⟨padded, hlist⟩ : ∃ padded,
      (stream.bytes ++ Array.replicate (stream.position - stream.bytes.size) 0).toList = padded :=
    ⟨_, rfl⟩
  rw [hlist] at hpadded
  have hfront : (padded.take stream.position).length = stream.position :=
    List.length_take_of_le (by omega)
  refine ⟨padded.take stream.position, padded.drop stream.position, hfront, fun content => ?_⟩
  have hwrite := toList_overwrite content
    (stream.bytes ++ Array.replicate (stream.position - stream.bytes.size) 0) stream.position (by
      rw [Array.size_append, Array.size_replicate]
      omega)
  apply ext_toList
  · rw [write_between, toList_between, List.drop_drop, ← hlist]
    exact hwrite
  · rw [write_between, position_between, List.length_append, hfront]
    rfl

/-- Two writes in a row are one. -/
theorem write_write (stream : MemoryStream) (first second : List UInt8) :
    (stream.write first).write second = stream.write (first ++ second) := by
  obtain ⟨front, rest, -, hwrite⟩ := stream.exists_between
  rw [hwrite, hwrite, write_between, write_between, write_between, List.drop_drop,
    List.length_append, List.append_assoc]

/-- **Bytes that are written again in place** change in what was written and nowhere else. -/
theorem write_patch (stream : MemoryStream) (before old new after : List UInt8)
    (h : new.length = old.length) :
    (((stream.write (before ++ old ++ after)).movedTo (stream.position + before.length)).write
        new).movedTo (stream.position + (before ++ old ++ after).length)
      = stream.write (before ++ new ++ after) := by
  obtain ⟨front, rest, hfront, hwrite⟩ := stream.exists_between
  obtain ⟨left, hleft⟩ : ∃ left, rest.drop (before ++ old ++ after).length = left := ⟨_, rfl⟩
  have hstart : stream.position + before.length = (front ++ before).length := by
    rw [List.length_append, hfront]
  have hend : stream.position + (before ++ old ++ after).length
      = (front ++ before ++ new ++ after).length := by
    simp only [List.length_append, hfront, h]
    omega
  have hlength : (before ++ new ++ after).length = (before ++ old ++ after).length := by
    simp only [List.length_append, h]
  have hsplit : front ++ (before ++ old ++ after) = front ++ before ++ (old ++ after) := by
    simp only [List.append_assoc]
  -- Back over everything behind `before`, over the old bytes with the new ones, and ahead again.
  rw [hwrite, hwrite, write_between, write_between, hlength, hleft, hstart, hend, hsplit,
    movedTo_between, write_between, List.append_assoc old, List.drop_left' h.symm,
    movedTo_between_append]
  simp only [List.append_assoc]

/-- An empty stream in memory holds what was written. -/
theorem toList_write_empty (bytes : List UInt8) :
    (({} : MemoryStream).write bytes).toList = bytes := by
  rw [toList_write bytes _ (Nat.le_refl _)]
  simp [toList]

/-- A whole write to memory is a single one. -/
theorem writeAll_of_ne_nil {bytes : List UInt8} (hne : bytes ≠ []) (stream : MemoryStream) :
    writeAll bytes stream = .ok () (stream.write bytes) := by
  rcases bytes with _ | ⟨byte, rest⟩
  · exact absurd rfl hne
  · unfold writeAll
    split
    · next hrun => cases hrun
    · next hrun =>
      cases hrun
      rw [List.drop_length]
      unfold writeAll
      rfl
    · next hrun => cases hrun

/-- A whole write appends to what was written. -/
theorem writeAll_write (bytes written : List UInt8) (stream : MemoryStream) :
    writeAll bytes (stream.write written) = .ok () (stream.write (written ++ bytes)) := by
  by_cases hnil : bytes = []
  · rw [hnil, List.append_nil]
    unfold writeAll
    rfl
  · rw [writeAll_of_ne_nil hnil, write_write]

end MemoryStream

/-! ## Infallible seekable streams -/

/-- A relation between streams and streams in memory that every operation keeps: a write accepts a
front part of the bytes, accepts nothing only where nothing is given, and fails only by an
interruption, which changes nothing; the position can be asked for and set. -/
structure IsStorage [ByteSink σ] [Seekable σ] (keeps : σ → MemoryStream → Prop) : Prop where
  write_ok {start final : σ} {count : Nat} {bytes : List UInt8} {memory : MemoryStream}
    (h : keeps start memory) (hrun : ByteSink.write bytes start = .ok count final) :
    keeps final (memory.write (bytes.take count)) ∧ (count = 0 → bytes = [])
  write_error {start final : σ} {bytes : List UInt8} {error : IoError} {memory : MemoryStream}
    (h : keeps start memory) (hrun : ByteSink.write bytes start = .error error final) :
    error.isInterrupted = true ∧ keeps final memory
  flush {start : σ} {memory : MemoryStream} (h : keeps start memory) :
    ∃ final, ByteSink.flush start = .ok () final ∧ keeps final memory
  tell {start : σ} {memory : MemoryStream} (h : keeps start memory) :
    ∃ final, Seekable.tell start = .ok memory.position final ∧ keeps final memory
  seekTo {start : σ} {memory : MemoryStream} (h : keeps start memory) (position : Nat) :
    ∃ final, Seekable.seekTo position start = .ok () final ∧ keeps final (memory.movedTo position)

/-- A stream in memory keeps itself. -/
theorem isStorage_eq : IsStorage (Eq : MemoryStream → MemoryStream → Prop) where
  write_ok := by
    rintro start final count bytes _ rfl hrun
    cases hrun
    exact ⟨by rw [List.take_length], List.length_eq_zero_iff.mp⟩
  write_error := by
    rintro start final bytes error _ rfl hrun
    cases hrun
  flush := by
    rintro start _ rfl
    exact ⟨start, rfl, rfl⟩
  tell := by
    rintro start _ rfl
    exact ⟨start, rfl, rfl⟩
  seekTo := by
    rintro start _ rfl position
    exact ⟨_, rfl, rfl⟩

namespace IsStorage

variable [ByteSink σ] [Seekable σ] {keeps : σ → MemoryStream → Prop}

/-- A whole write is kept. -/
theorem writeAll_of_ne_nil (hk : IsStorage keeps) {start : σ} {memory : MemoryStream}
    (h : keeps start memory) {bytes : List UInt8} (hne : bytes ≠ []) :
    ∃ final, writeAll bytes start = .ok () final ∧ keeps final (memory.write bytes) := by
  fun_induction writeAll bytes start generalizing memory with
  | case1 start => exact absurd rfl hne
  | case2 start byte rest final hrun =>
    -- A write that accepts nothing would have been given nothing.
    exact absurd ((hk.write_ok h hrun).2 rfl) hne
  | case3 start byte rest count middle hrun ih =>
    have hmiddle := (hk.write_ok h hrun).1
    rw [List.take_succ_cons] at hmiddle
    by_cases hrest : rest.drop count = []
    · -- Everything was accepted at once.
      rw [hrest]
      rw [List.take_of_length_le (List.drop_eq_nil_iff.mp hrest)] at hmiddle
      exact ⟨middle, by unfold writeAll; rfl, hmiddle⟩
    · -- What is left is written behind what was accepted.
      obtain ⟨final, hfinal, hheld⟩ := ih hmiddle hrest
      rw [MemoryStream.write_write, List.cons_append, List.take_append_drop] at hheld
      exact ⟨final, hfinal, hheld⟩
  | case4 start byte rest error middle hrun hagain ih =>
    -- An interruption changes nothing, and the same bytes are written again.
    exact ih (hk.write_error h hrun).2 hne
  | case5 start byte rest error middle hrun hagain =>
    exact absurd (hk.write_error h hrun).1 hagain

/-- **A whole write** does the same on a stream as in memory. -/
theorem simulates_writeAll (hk : IsStorage keeps) (bytes : List UInt8) :
    Simulates keeps (writeAll bytes) (writeAll bytes) := by
  intro start memory h
  by_cases hnil : bytes = []
  · subst hnil
    unfold writeAll
    exact .ok h
  · obtain ⟨final, hrun, hfinal⟩ := hk.writeAll_of_ne_nil h hnil
    rw [hrun, MemoryStream.writeAll_of_ne_nil hnil]
    exact .ok hfinal

/-- Flushing a storage changes nothing in memory. -/
theorem simulates_flush (hk : IsStorage keeps) :
    Simulates keeps (ByteSink.flush : EStateM IoError σ Unit) ByteSink.flush := by
  intro start memory h
  obtain ⟨final, hrun, hfinal⟩ := hk.flush h
  rw [hrun]
  exact .ok hfinal

/-- A storage tells the position in memory. -/
theorem simulates_tell (hk : IsStorage keeps) :
    Simulates keeps (Seekable.tell : EStateM IoError σ Nat) Seekable.tell := by
  intro start memory h
  obtain ⟨final, hrun, hfinal⟩ := hk.tell h
  rw [hrun]
  exact .ok hfinal

/-- A storage moves as in memory. -/
theorem simulates_seekTo (hk : IsStorage keeps) (position : Nat) :
    Simulates keeps (Seekable.seekTo position : EStateM IoError σ Unit)
      (Seekable.seekTo position) := by
  intro start memory h
  obtain ⟨final, hrun, hfinal⟩ := hk.seekTo h position
  rw [hrun]
  exact .ok hfinal

end IsStorage

/-! ## Streams that are written alike -/

/-- Whole writes do the same on both sides of a relation, and so does whatever else a writer asks of
a stream. -/
structure WritesAlike [ByteSink σ] [Seekable σ] [ByteSink τ] [Seekable τ] (related : σ → τ → Prop) :
    Prop where
  writeAll (bytes : List UInt8) : Simulates related (writeAll bytes) (writeAll bytes)
  flush : Simulates related (ByteSink.flush : EStateM IoError σ Unit) ByteSink.flush
  tell : Simulates related (Seekable.tell : EStateM IoError σ Nat) Seekable.tell
  seekTo (position : Nat) :
    Simulates related (Seekable.seekTo position : EStateM IoError σ Unit) (Seekable.seekTo position)

/-- **Storage is written as the stream in memory that it keeps.** -/
theorem IsStorage.writesAlike [ByteSink σ] [Seekable σ] {keeps : σ → MemoryStream → Prop}
    (hk : IsStorage keeps) : WritesAlike keeps where
  writeAll := hk.simulates_writeAll
  flush := hk.simulates_flush
  tell := hk.simulates_tell
  seekTo := hk.simulates_seekTo

end RecordArchive
