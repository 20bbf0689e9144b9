import RecordArchive.Proofs.Outcome
import RecordArchive.Proofs.Stream.Delivery
import RecordArchive.Proofs.Stream.Storage
import RecordArchive.Stream.BoundedSink
import RecordArchive.Stream.Faults

/-! # Streams that may fail at any transfer

A transfer of a real stream may fail at any byte, and a later one may succeed again. What such a
stream holds is seen through a view of it: a failed transfer leaves the view as it was, and a
successful one moves as many bytes as it says.

* `IsFallibleSource unread` is about streams to read from and the bytes that they have still to
  give, `IsFallibleSink view puts` about streams to write to, and `IsFallibleStorage kept` about
  those that can seek.
* `ReadsFrom unread failed` is what follows for whole transfers: a failed one has taken some of
  the bytes that it should take. Infallible streams are a special case (`IsDelivery.readsFrom`),
  in which a failure has come to the end.
* `IsFallibleSink.writeAll`: a failed write has put a front part of its bytes on the stream. -/

namespace RecordArchive

open Program

variable {σ ν : Type}

/-! ## Reading -/

/-- **A stream to read from that may fail**: a read takes a front part of the unread bytes, and a
failed one takes nothing. -/
structure IsFallibleSource [ByteSource σ] (unread : σ → List UInt8) : Prop where
  read (count : Nat) (start : σ) :
    Outcome (fun taken final => unread start = taken ++ unread final)
      (fun _ final => unread final = unread start) (ByteSource.read count start)

/-- A stream with planned faults may fail at any read. -/
theorem FaultyStream.isFallibleSource :
    IsFallibleSource fun stream : FaultyStream => stream.memory.rest where
  read count start := by
    show Outcome _ _ (start.read count)
    unfold FaultyStream.read
    dsimp only
    split
    · rfl
    split
    · rfl
    split
    · rfl
    -- Whatever the limit of the plan is, it is a read of the stream in memory.
    show start.memory.rest = (start.memory.read _).1 ++ (start.memory.read _).2.rest
    rw [MemoryStream.read_fst, MemoryStream.rest_read, List.take_append_drop]

/-- What is left behind bytes that were taken is an end of what there was. -/
theorem suffix_of_eq_append {bytes rest whole : List UInt8} (h : whole = bytes ++ rest) :
    rest <:+ whole := ⟨bytes, h.symm⟩

/-- **Whole transfers from a stream**: a success takes its bytes from the front of the unread
ones; a failure leaves some end of them unread, and the stream as `failed` says. -/
structure ReadsFrom [ByteSource σ] (unread : σ → List UInt8) (failed : σ → Prop) : Prop where
  readExactly (place : Place) (count : Nat) (start : σ) :
    Outcome (fun bytes final => bytes.length = count ∧ unread start = bytes ++ unread final)
      (fun _ final => failed final ∧ unread final <:+ unread start) (readExactly place count start)
  discard (count : Nat) (start : σ) :
    Outcome (fun _ final => ∃ bytes, bytes.length = count ∧ unread start = bytes ++ unread final)
      (fun _ final => failed final ∧ unread final <:+ unread start) (discard count start)
  find (start : σ) :
    Outcome
      (fun count final => ∃ bytes, bytes.length = count ∧ unread start = bytes ++ unread final)
      (fun _ final => failed final ∧ unread final <:+ unread start) (Marker.find start)

namespace IsFallibleSource

variable [ByteSource σ] {unread : σ → List UInt8}

/-- Taking further bytes takes them from the front. -/
theorem readFurther (hs : IsFallibleSource unread) (count : Nat) (taken : List UInt8) (start : σ) :
    Outcome (fun bytes final => ∃ more, bytes = taken.reverse ++ more ∧
        unread start = more ++ unread final)
      (fun _ final => unread final <:+ unread start) (readFurther count taken start) := by
  fun_induction RecordArchive.readFurther count taken start with
  | case1 taken start => exact ⟨[], (List.append_nil _).symm, rfl⟩
  | case2 count taken start hcount final hrun =>
    exact ⟨[], (List.append_nil _).symm, (hs.read _ _).of_ok hrun⟩
  | case3 count taken start hcount byte bytes middle hrun ih =>
    -- What the rest of the transfer takes stands behind what this read has taken.
    have hmiddle := (hs.read _ _).of_ok hrun
    refine ih.mono ?_ ?_
    · rintro result final ⟨more, rfl, hmore⟩
      refine ⟨byte :: bytes ++ more, ?_, ?_⟩
      · rw [List.reverse_append, List.reverse_reverse, List.append_assoc]
      · rw [hmiddle, hmore, List.append_assoc]
    · intro error final hfinal
      exact hfinal.trans (suffix_of_eq_append hmiddle)
  | case4 count taken start hcount error middle hrun hagain ih =>
    -- An interruption takes nothing, and the read is tried again.
    rw [← (hs.read _ _).of_error hrun]
    exact ih
  | case5 count taken start hcount error middle hrun hagain =>
    have hsame := (hs.read _ _).of_error hrun
    exact hsame ▸ List.suffix_rfl

/-- Discarding bytes takes them from the front. -/
theorem discardUpTo (hs : IsFallibleSource unread) (count : Nat) (start : σ) :
    Outcome (fun missing final => ∃ bytes, bytes.length + missing = count ∧
        unread start = bytes ++ unread final)
      (fun _ final => unread final <:+ unread start) (discardUpTo count start) := by
  fun_induction RecordArchive.discardUpTo count start with
  | case1 start => exact ⟨[], rfl, rfl⟩
  | case2 count start hcount final hrun => exact ⟨[], Nat.zero_add _, (hs.read _ _).of_ok hrun⟩
  | case3 count start hcount byte bytes middle hrun ih =>
    have hmiddle := (hs.read _ _).of_ok hrun
    have hle := ByteSource.length_read_le hrun
    refine ih.mono ?_ ?_
    · rintro missing final ⟨more, hlength, hmore⟩
      refine ⟨byte :: bytes ++ more, ?_, ?_⟩
      · rw [List.length_cons] at hle
        rw [List.length_append, List.length_cons]
        omega
      · rw [hmiddle, hmore, List.append_assoc]
    · intro error final hfinal
      exact hfinal.trans (suffix_of_eq_append hmiddle)
  | case4 count start hcount error middle hrun hagain ih =>
    rw [← (hs.read _ _).of_error hrun]
    exact ih
  | case5 count start hcount error middle hrun hagain =>
    have hsame := (hs.read _ _).of_error hrun
    exact hsame ▸ List.suffix_rfl

/-- The search for the marker takes one byte after the other. -/
theorem findFrom (hs : IsFallibleSource unread) (window : List UInt8) (consumed : Nat) (start : σ) :
    Outcome (fun total final => ∃ bytes, consumed + bytes.length = total ∧
        unread start = bytes ++ unread final)
      (fun _ final => unread final <:+ unread start) (Marker.findFrom window consumed start) := by
  fun_induction Marker.findFrom window consumed start with
  | case1 window consumed start final hrun => exact suffix_of_eq_append ((hs.read _ _).of_ok hrun)
  | case2 window consumed start byte more middle hrun hfound =>
    obtain rfl : more = [] := by simpa using ByteSource.length_read_le hrun
    exact ⟨[byte], rfl, (hs.read _ _).of_ok hrun⟩
  | case3 window consumed start byte more middle hrun hfound ih =>
    have hmiddle := (hs.read _ _).of_ok hrun
    obtain rfl : more = [] := by simpa using ByteSource.length_read_le hrun
    refine ih.mono ?_ ?_
    · rintro total final ⟨bytes, htotal, hbytes⟩
      refine ⟨byte :: bytes, ?_, ?_⟩
      · rw [List.length_cons]
        omega
      · rw [hmiddle, hbytes]
        rfl
    · intro error final hfinal
      exact hfinal.trans (suffix_of_eq_append hmiddle)
  | case4 window consumed start error middle hrun hagain ih =>
    rw [← (hs.read _ _).of_error hrun]
    exact ih
  | case5 window consumed start error middle hrun hagain =>
    have hsame := (hs.read _ _).of_error hrun
    exact hsame ▸ List.suffix_rfl

/-- **Whole transfers** from a stream that may fail anywhere. -/
theorem readsFrom (hs : IsFallibleSource unread) : ReadsFrom unread fun _ => True where
  readExactly place count start := by
    refine Outcome.bind (Outcome.adaptExcept ((hs.readFurther count [] start).mono ?_ ?_))
    · rintro bytes final ⟨more, rfl, hmore⟩
      split
      next hlength => exact ⟨hlength, hmore⟩
      next => split <;> exact ⟨trivial, suffix_of_eq_append hmore⟩
    · exact fun error final hfinal => ⟨trivial, hfinal⟩
  discard count start := by
    refine Outcome.bind (Outcome.adaptExcept ((hs.discardUpTo count start).mono ?_ ?_))
    · rintro missing final ⟨bytes, hlength, hbytes⟩
      split
      next hmissing => exact ⟨bytes, by omega, hbytes⟩
      next => exact ⟨trivial, suffix_of_eq_append hbytes⟩
    · exact fun error final hfinal => ⟨trivial, hfinal⟩
  find start := by
    refine (hs.findFrom Marker.zeroWindow 0 start).mono ?_ ?_
    · rintro total final ⟨bytes, htotal, hbytes⟩
      exact ⟨bytes, by omega, hbytes⟩
    · exact fun error final hfinal => ⟨trivial, hfinal⟩

end IsFallibleSource

/-! ### Infallible streams -/

/-- An infallible stream is one that may fail, for it may be interrupted. -/
theorem IsDelivery.isFallibleSource [ByteSource σ] {unread : σ → List UInt8}
    (hd : IsDelivery fun stream bytes => unread stream = bytes) : IsFallibleSource unread where
  read count start := by
    cases hrun : ByteSource.read count start with
    | ok taken final =>
      obtain ⟨rest, hbytes, rfl, -⟩ := hd.read_ok rfl hrun
      exact hbytes
    | error error final => exact (hd.read_error rfl hrun).2

/-- On a list the search for the marker only fails at the end. -/
theorem Marker.findFrom_list_error (window : List UInt8) (consumed : Nat) (bytes : List UInt8) :
    Outcome (fun _ _ => True) (fun _ final => final = [])
      (findFrom window consumed bytes) := by
  induction bytes generalizing window consumed with
  | nil =>
    rw [findFrom_nil]
    rfl
  | cons byte rest ih =>
    rw [findFrom_cons]
    split
    · trivial
    · exact ih _ _

/-- **Whole transfers** from an infallible stream only fail at its end. -/
theorem IsDelivery.readsFrom [ByteSource σ] {unread : σ → List UInt8}
    (hd : IsDelivery fun stream bytes => unread stream = bytes) :
    ReadsFrom unread fun stream => unread stream = [] where
  readExactly place count start := by
    have hend : Outcome (fun _ _ => True) (fun _ final => unread final = [])
        (RecordArchive.readExactly place count start) := by
      obtain ⟨final, hrun, hfinal⟩ := hd.readUpTo rfl count
      have hok : EStateM.adaptExcept ArchiveError.read (RecordArchive.readUpTo count) start
          = .ok ((unread start).take count) final := adaptExcept_eq_ok.mpr hrun
      rw [RecordArchive.readExactly, bind_of_ok hok]
      split
      next => trivial
      next hlength =>
        -- Fewer bytes than asked for are all that there were.
        have hshort : (unread start).length ≤ count := by
          rw [List.length_take] at hlength
          omega
        have hnone : unread final = [] := hfinal.trans (List.drop_eq_nil_of_le hshort)
        split <;> exact hnone
    refine (hend.and (hd.isFallibleSource.readsFrom.readExactly place count start)).mono ?_ ?_
    · exact fun bytes final h => h.2
    · exact fun error final h => ⟨h.1, h.2.2⟩
  discard count start := by
    have hend : Outcome (fun _ _ => True) (fun _ final => unread final = [])
        (RecordArchive.discard count start) := by
      obtain ⟨final, hrun, hfinal⟩ := hd.discardUpTo rfl count
      have hok : EStateM.adaptExcept ArchiveError.read (RecordArchive.discardUpTo count) start
          = .ok (count - (unread start).length) final := adaptExcept_eq_ok.mpr hrun
      rw [RecordArchive.discard, bind_of_ok hok]
      split
      next => trivial
      next hmissing =>
        have hshort : (unread start).length ≤ count := by omega
        exact hfinal.trans (List.drop_eq_nil_of_le hshort)
    refine (hend.and (hd.isFallibleSource.readsFrom.discard count start)).mono ?_ ?_
    · exact fun bytes final h => h.2
    · exact fun error final h => ⟨h.1, h.2.2⟩
  find start := by
    have hend : Outcome (fun _ _ => True) (fun _ final => unread final = [])
        (Marker.find start) := by
      have hsame := hd.findFrom (rfl : unread start = unread start) Marker.zeroWindow 0
      have hlist := Marker.findFrom_list_error Marker.zeroWindow 0 (unread start)
      revert hsame hlist
      show Agree _ (Marker.find start) _ → _ → _
      generalize Marker.find start = result
      generalize Marker.findFrom Marker.zeroWindow 0 (unread start) = result'
      rintro (⟨hfinal⟩ | ⟨hfinal⟩) hlist
      · trivial
      · exact hfinal.trans hlist
    refine (hend.and (hd.isFallibleSource.readsFrom.find start)).mono ?_ ?_
    · exact fun bytes final h => h.2
    · exact fun error final h => ⟨h.1, h.2.2⟩

/-! ## Writing -/

/-- **A stream to write to that may fail**, seen through a view in which bytes are put: a write
puts as many bytes as it says, and a failed one changes nothing. -/
structure IsFallibleSink [ByteSink σ] (view : σ → ν) (puts : List UInt8 → ν → ν → Prop) : Prop where
  nil (seen : ν) : puts [] seen seen
  append {front back : List UInt8} {first second third : ν} (hfront : puts front first second)
    (hback : puts back second third) : puts (front ++ back) first third
  write (bytes : List UInt8) (start : σ) :
    Outcome (fun count final => puts (bytes.take count) (view start) (view final))
      (fun _ final => view final = view start) (ByteSink.write bytes start)

/-- **A whole write** puts all its bytes on the stream, and a failed one some of them from the
front. -/
theorem IsFallibleSink.writeAll [ByteSink σ] {view : σ → ν} {puts : List UInt8 → ν → ν → Prop}
    (hs : IsFallibleSink view puts) (bytes : List UInt8) (start : σ) :
    Outcome (fun _ final => puts bytes (view start) (view final))
      (fun _ final => ∃ front, front <+: bytes ∧ puts front (view start) (view final))
      (writeAll bytes start) := by
  fun_induction RecordArchive.writeAll bytes start with
  | case1 start => exact hs.nil _
  | case2 start byte rest final hrun =>
    -- Nothing was accepted, and the write is given up.
    exact ⟨[], List.nil_prefix, (hs.write _ _).of_ok hrun⟩
  | case3 start byte rest count middle hrun ih =>
    have hmiddle := (hs.write _ _).of_ok hrun
    rw [List.take_succ_cons] at hmiddle
    refine ih.mono ?_ ?_
    · intro value final hfinal
      have hall := hs.append hmiddle hfinal
      rwa [List.cons_append, List.take_append_drop] at hall
    · rintro error final ⟨front, hfront, hfinal⟩
      refine ⟨byte :: rest.take count ++ front, ?_, hs.append hmiddle hfinal⟩
      rw [List.cons_append, List.cons_prefix_cons]
      refine ⟨rfl, ?_⟩
      have hprefix := (List.prefix_append_right_inj (rest.take count)).mpr hfront
      rwa [List.take_append_drop] at hprefix
  | case4 start byte rest error middle hrun hagain ih =>
    -- An interruption changes nothing, and the same bytes are written again.
    rw [← (hs.write _ _).of_error hrun]
    exact ih
  | case5 start byte rest error middle hrun hagain =>
    refine ⟨[], List.nil_prefix, ?_⟩
    rw [(hs.write _ _).of_error hrun]
    exact hs.nil _

/-- Bytes are put behind what a sink has been given. -/
def Appends (bytes given given' : List UInt8) : Prop := given' = given ++ bytes

/-- A sink with limited room keeps what it accepts. -/
theorem BoundedSink.isFallibleSink :
    IsFallibleSink (fun sink : BoundedSink => sink.bytes.toList) Appends where
  nil given := (List.append_nil given).symm
  append := by
    rintro front back first _ _ rfl rfl
    exact List.append_assoc _ _ _
  write content sink := by
    show Outcome _ _ (sink.write content)
    rcases sink with ⟨bytes, _ | room⟩
    · -- Without a limit everything is accepted.
      show (bytes.appendList content).toList = bytes.toList ++ content.take content.length
      rw [List.take_length, Array.appendList_eq_append, Array.toList_appendList]
    · rcases room with _ | room
      · rfl
      · show (bytes.appendList (content.take (room + 1))).toList
          = bytes.toList ++ content.take (content.take (room + 1)).length
        rw [List.length_take, ← List.take_eq_take_min, Array.appendList_eq_append,
          Array.toList_appendList]

/-! ### Streams that can seek -/

/-- Bytes are put at the position of a stream in memory. Where there are none the stream may also
be left as it is, without zeros up to its position. -/
def MemoryStream.Puts (bytes : List UInt8) (start final : MemoryStream) : Prop :=
  final = start.write bytes ∨ bytes = [] ∧ final = start

namespace MemoryStream.Puts

variable {bytes : List UInt8} {start final : MemoryStream}

/-- Bytes that are put are written in a row. -/
theorem eq_write (h : Puts bytes start final) (hne : bytes ≠ []) : final = start.write bytes :=
  h.resolve_right fun hnil => hne hnil.1

/-- Bytes are put behind those that were written. -/
theorem eq_write_append {base : MemoryStream} {written : List UInt8}
    (h : Puts bytes (base.write written) final) : final = base.write (written ++ bytes) := by
  rcases h with rfl | ⟨rfl, rfl⟩
  · exact write_write _ _ _
  · rw [List.append_nil]

/-- Putting some bytes and then others puts both. -/
theorem append {front back : List UInt8} {first second third : MemoryStream}
    (hfront : Puts front first second) (hback : Puts back second third) :
    Puts (front ++ back) first third := by
  rcases hfront with rfl | ⟨rfl, rfl⟩
  · exact .inl hback.eq_write_append
  · exact hback

end MemoryStream.Puts

/-- **A seekable stream that may fail**, seen as a stream in memory: a write puts as many bytes as
it says, the position that it tells is right, and whatever fails changes nothing. -/
structure IsFallibleStorage [ByteSink σ] [Seekable σ] (kept : σ → MemoryStream) : Prop extends
    IsFallibleSink kept MemoryStream.Puts where
  flush (start : σ) :
    Outcome (fun _ final => kept final = kept start) (fun _ final => kept final = kept start)
      (ByteSink.flush start)
  tell (start : σ) :
    Outcome (fun position final => position = (kept start).position ∧ kept final = kept start)
      (fun _ final => kept final = kept start) (Seekable.tell start)
  seekTo (position : Nat) (start : σ) :
    Outcome (fun _ final => kept final = (kept start).movedTo position)
      (fun _ final => kept final = kept start) (Seekable.seekTo position start)

/-- A stream with planned faults may fail at any operation. -/
theorem FaultyStream.isFallibleStorage : IsFallibleStorage FaultyStream.memory where
  nil _ := .inr ⟨rfl, rfl⟩
  append := MemoryStream.Puts.append
  write bytes start := by
    show Outcome _ _ (start.write bytes)
    unfold FaultyStream.write
    dsimp only
    split
    · exact .inr ⟨List.take_zero, rfl⟩
    split
    · rfl
    split
    · rfl
    split
    · exact .inr ⟨List.take_zero, rfl⟩
    -- Whatever the limit of the plan is, it is a write of a front part.
    cases transferLimit? start.faults.writeMax?
        (start.faults.writeInterrupts ++ start.faults.writeFailAt?.toList
          ++ start.faults.writeZeroAt?.toList) start.memory.position with
    | none => exact .inl (congrArg start.memory.write List.take_length.symm)
    | some limit =>
      refine .inl (congrArg start.memory.write ?_)
      show bytes.take limit = bytes.take (bytes.take limit).length
      rw [List.length_take, ← List.take_eq_take_min]
  flush start := by
    show Outcome _ _ (if start.faults.flushFails then _ else _)
    split <;> rfl
  tell start := by
    show Outcome _ _ (if start.faults.tellFails then _ else _)
    split
    · rfl
    · exact ⟨rfl, rfl⟩
  seekTo position start := by
    show Outcome _ _ (if position ∈ start.faults.refusedSeeks then _ else _)
    split <;> rfl

end RecordArchive
