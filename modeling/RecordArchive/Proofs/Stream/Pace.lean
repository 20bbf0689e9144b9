import RecordArchive.Proofs.Outcome
import RecordArchive.Proofs.Stream.Delivery
import RecordArchive.Proofs.Stream.Storage

/-! # Streams at a pace of their own

How many bytes a transfer moves, and when one is interrupted, is up to the stream below. What the
stream does with one byte after the other is not. `readSingly` and `writeSingly` move bytes one by one.
A stream *paces* another one if each of its transfers does what some single transfers of that one do:
it moves at least one byte unless that one has ended, has no room or fails, or else it is interrupted.

* `IsPacedSource.simulates_readUpTo`, `IsPacedSink.simulates_writeAll`: whole transfers do the same as
  single ones.
* `IsPacedSource.readsAlike`, `IsPacedStorage.writesAlike`: **streams that pace the same one** are read
  and written alike. This needs `ReadsAlike.of_readUpTo`: the search for the marker and the discarding
  of bytes are determined by how bytes are taken. -/

namespace RecordArchive

open Program

variable {σ σ' δ ν : Type}

/-! ## How bytes are taken -/

section Source

variable [ByteSource σ]

/-- Taking further bytes is one read and, if that has given some or was interrupted, taking further
bytes from there. -/
theorem readFurther_apply (count : Nat) (taken : List UInt8) (start : σ) :
    readFurther count taken start = if count = 0 then .ok taken.reverse start
      else match ByteSource.read count start with
        | .ok [] final => .ok taken.reverse final
        | .ok (byte :: bytes) middle =>
          readFurther (count - (bytes.length + 1)) ((byte :: bytes).reverse ++ taken) middle
        | .error error middle =>
          if error.isInterrupted then readFurther count taken middle else .error error middle := by
  rw [readFurther]
  split
  · rfl
  · split <;> simp_all

/-- No transfer ends with an interruption. -/
theorem outcome_readFurther_settled (count : Nat) (taken : List UInt8) (start : σ) :
    Outcome (fun _ _ => True) (fun error _ => error.isInterrupted = false)
      (readFurther count taken start) := by
  fun_induction readFurther count taken start with
  | case1 => trivial
  | case2 => trivial
  | case3 _ _ _ _ _ _ _ _ ih => exact ih
  | case4 _ _ _ _ _ _ _ _ ih => exact ih
  | case5 _ _ _ _ error _ _ hagain => exact Bool.eq_false_iff.mpr hagain

/-- One byte is taken by one read that is not interrupted. -/
theorem readUpTo_one_of_read {start final : σ} {bytes : List UInt8}
    (hrun : ByteSource.read 1 start = .ok bytes final) : readUpTo 1 start = .ok bytes final := by
  have hle := ByteSource.length_read_le hrun
  rw [readUpTo, readFurther_apply, if_neg Nat.one_ne_zero, hrun]
  match bytes with
  | [] => rfl
  | [byte] =>
    show readFurther 0 [byte] final = _
    rw [readFurther_apply]
    rfl

/-- **Discarding** bytes takes them without keeping them. -/
theorem discardUpTo_eq (count : Nat) (taken : List UInt8) (start : σ) :
    discardUpTo count start = match readFurther count taken start with
      | .ok bytes final => .ok (count + taken.length - bytes.length) final
      | .error error final => .error error final := by
  fun_induction discardUpTo count start generalizing taken with
  | case1 start =>
    rw [readFurther_apply, if_pos rfl]
    simp
  | case2 count start hcount final hrun =>
    rw [readFurther_apply, if_neg hcount, hrun]
    simp
  | case3 count start hcount byte bytes middle hrun ih =>
    have hle := ByteSource.length_read_le hrun
    have hsame : count - (bytes.length + 1) + ((byte :: bytes).reverse ++ taken).length
        = count + taken.length := by
      simp only [List.length_append, List.length_reverse, List.length_cons] at hle ⊢
      omega
    rw [ih ((byte :: bytes).reverse ++ taken), hsame, readFurther_apply count, if_neg hcount, hrun]
  | case4 count start hcount error middle hrun hagain ih =>
    rw [ih taken, readFurther_apply count taken start, if_neg hcount, hrun]
    simp only [hagain, if_true]
  | case5 count start hcount error middle hrun hagain =>
    rw [readFurther_apply, if_neg hcount, hrun]
    simp only [hagain]
    rfl

/-- **The search for the marker** takes one byte after the other. -/
theorem Marker.findFrom_eq (window : List UInt8) (consumed : Nat) (start : σ) :
    findFrom window consumed start = match readUpTo 1 start with
      | .ok [] final => .error (.invalidFormat (.missingMarker consumed)) final
      | .ok (byte :: _) middle =>
        if length ≤ consumed + 1 ∧ slide window byte = bytes then .ok (consumed + 1) middle
        else findFrom (slide window byte) (consumed + 1) middle
      | .error error final => .error (.read error) final := by
  fun_induction findFrom window consumed start with
  | case1 window consumed start final hrun => rw [readUpTo_one_of_read hrun]
  | case2 window consumed start byte more middle hrun hfound =>
    rw [readUpTo_one_of_read hrun]
    simp only [hfound, and_self, if_true]
  | case3 window consumed start byte more middle hrun hfound ih =>
    rw [readUpTo_one_of_read hrun]
    simp only [hfound, if_false]
  | case4 window consumed start error middle hrun hagain ih =>
    have hsame : readUpTo 1 start = readUpTo 1 middle := by
      rw [readUpTo, readFurther_apply, if_neg Nat.one_ne_zero, hrun]
      simp only [hagain, if_true]
    rw [ih, hsame]
  | case5 window consumed start error middle hrun hagain =>
    have hsame : readUpTo 1 start = .error error middle := by
      rw [readUpTo, readFurther_apply, if_neg Nat.one_ne_zero, hrun]
      simp only [hagain]
      rfl
    rw [hsame]

end Source

/-- **Streams from which bytes are taken alike** are read alike. -/
theorem ReadsAlike.of_readUpTo [ByteSource σ] [ByteSource σ'] {related : σ → σ' → Prop}
    (h : ∀ count, Simulates related (RecordArchive.readUpTo count) (RecordArchive.readUpTo count)) :
    ReadsAlike related where
  readUpTo := h
  discardUpTo count := by
    intro start start' hstart
    have htaken := h count start start' hstart
    rw [discardUpTo_eq count [], discardUpTo_eq count []]
    revert htaken
    show Agree _ (readFurther count [] start) (readFurther count [] start') → _
    generalize readFurther count [] start = taken
    generalize readFurther count [] start' = taken'
    rintro (⟨hfinal⟩ | ⟨hfinal⟩)
    · exact .ok hfinal
    · exact .error hfinal
  find := by
    suffices hfrom : ∀ window consumed start start', related start start' →
        Agree related (Marker.findFrom window consumed start)
          (Marker.findFrom window consumed start') from
      fun start start' hstart => hfrom Marker.zeroWindow 0 start start' hstart
    intro window consumed start start' hstart
    -- Every byte that is taken lowers the budget of the first stream.
    induction hm : ByteSource.readBudget start using Nat.strongRecOn
      generalizing window consumed start start' with
    | _ bound ih =>
      rw [Marker.findFrom_eq, Marker.findFrom_eq]
      have hround := h 1 start start' hstart
      have hspent := Outcome.of_spends (readUpTo_spends 1) start
      revert hround hspent
      generalize RecordArchive.readUpTo 1 start = taken
      generalize RecordArchive.readUpTo 1 start' = taken'
      rintro (⟨hmiddle⟩ | ⟨hmiddle⟩) hspent
      next bytes middle middle' =>
        rcases bytes with _ | ⟨byte, bytes⟩
        · exact .error hmiddle
        · have hlt : ByteSource.readBudget middle + (bytes.length + 1) ≤ ByteSource.readBudget start :=
            hspent
          dsimp only
          split
          · exact .ok hmiddle
          · exact ih _ (by omega) _ _ _ _ hmiddle rfl
      next => exact .error hmiddle

/-! ## One byte after the other -/

/-- Takes up to a number of bytes one by one, until the stream ends. -/
def readSingly [ByteSource δ] : Nat → EStateM IoError δ (List UInt8)
  | 0 => pure []
  | count + 1 => do
    let first ← readUpTo 1
    match first with
    | [] => pure []
    | byte :: _ => do
      let more ← readSingly count
      pure (byte :: more)

/-- Writes bytes one by one. -/
def writeSingly [ByteSink δ] : List UInt8 → EStateM IoError δ Unit
  | [] => pure ()
  | byte :: rest => do
    writeAll [byte]
    writeSingly rest

section Source

variable [ByteSource δ] {ideal middle : δ}

/-- The end is found by the first single read. -/
theorem readUpTo_one_of_ended (h : readSingly 1 ideal = .ok [] middle) :
    readUpTo 1 ideal = .ok [] middle := by
  rw [readSingly, bind_apply] at h
  revert h
  rcases readUpTo 1 ideal with ⟨_ | ⟨byte, more⟩, final⟩ | ⟨error, final⟩
  · exact id
  · intro h
    obtain ⟨_, _, -, hcons⟩ := bind_eq_ok.mp h
    cases (pure_eq_ok.mp hcons).1
  · exact nofun

/-- A failure of one single read is its own. -/
theorem readUpTo_one_of_error {error : IoError} (h : readSingly 1 ideal = .error error middle) :
    readUpTo 1 ideal = .error error middle := by
  rw [readSingly, bind_apply] at h
  revert h
  rcases readUpTo 1 ideal with ⟨_ | ⟨byte, more⟩, final⟩ | ⟨error, final⟩
  · exact nofun
  · exact nofun
  · exact id

/-- Where one byte cannot be taken, neither can more. -/
theorem readSingly_succ_of_ended (h : readSingly 1 ideal = .ok [] middle) (count : Nat) :
    readSingly (count + 1) ideal = .ok [] middle := by
  rw [readSingly, bind_of_ok (readUpTo_one_of_ended h)]
  rfl

/-- If the first byte fails, then so does the whole. -/
theorem readSingly_succ_of_error {error : IoError} (h : readSingly 1 ideal = .error error middle)
    (count : Nat) : readSingly (count + 1) ideal = .error error middle :=
  bind_of_error (readUpTo_one_of_error h)

/-- Where bytes are taken one by one, the first read gives the first of them. -/
theorem exists_readUpTo_one {byte : UInt8} {rest : List UInt8} {count : Nat}
    (h : readSingly (count + 1) ideal = .ok (byte :: rest) middle) :
    ∃ more behind, readUpTo 1 ideal = .ok (byte :: more) behind ∧
      readSingly count behind = .ok rest middle := by
  rw [readSingly] at h
  obtain ⟨first, behind, hfirst, hmore⟩ := bind_eq_ok.mp h
  rcases first with _ | ⟨byte', first⟩
  · cases (pure_eq_ok.mp hmore).1
  · obtain ⟨more, final, hrun, hcons⟩ := bind_eq_ok.mp hmore
    obtain ⟨heq, rfl⟩ := pure_eq_ok.mp hcons
    cases heq
    exact ⟨first, behind, hfirst, hrun⟩

/-- No single transfer ends with an interruption. -/
theorem outcome_readSingly_settled (count : Nat) (ideal : δ) :
    Outcome (fun _ _ => True) (fun error _ => error.isInterrupted = false)
      (readSingly count ideal) := by
  induction count generalizing ideal with
  | zero => trivial
  | succ count ih =>
    refine Outcome.bind ((outcome_readFurther_settled 1 [] ideal).mono ?_ fun _ _ h => h)
    intro first behind _
    rcases first with _ | ⟨byte, first⟩
    · trivial
    · exact Outcome.bind ((ih behind).mono (fun _ _ _ => trivial) fun _ _ h => h)

/-- A result with more bytes in front. -/
def prepend (front : List UInt8) :
    EStateM.Result IoError δ (List UInt8) → EStateM.Result IoError δ (List UInt8)
  | .ok more final => .ok (front ++ more) final
  | .error error final => .error error final

omit [ByteSource δ] in
/-- Nothing in front changes nothing. -/
theorem prepend_nil (result : EStateM.Result IoError δ (List UInt8)) :
    prepend [] result = result := by
  cases result <;> rfl

omit [ByteSource δ] in
/-- What comes in front twice comes in front in a row. -/
theorem prepend_prepend (front front' : List UInt8)
    (result : EStateM.Result IoError δ (List UInt8)) :
    prepend front (prepend front' result) = prepend (front ++ front') result := by
  cases result with
  | ok more final => rw [prepend, prepend, prepend, List.append_assoc]
  | error error final => rfl

/-- Bytes taken one by one, and then more of them. -/
theorem readSingly_add {count : Nat} {bytes : List UInt8}
    (h : readSingly count ideal = .ok bytes middle) (hall : bytes.length = count) (further : Nat) :
    readSingly (count + further) ideal = prepend bytes (readSingly further middle) := by
  induction count generalizing bytes ideal with
  | zero =>
    obtain ⟨rfl, rfl⟩ := pure_eq_ok.mp h
    rw [Nat.zero_add, prepend_nil]
  | succ count ih =>
    rcases bytes with _ | ⟨byte, bytes⟩
    · cases hall
    · obtain ⟨more, behind, hfirst, hrun⟩ := exists_readUpTo_one h
      have hcount : count + 1 + further = count + further + 1 := by omega
      rw [hcount, readSingly, bind_of_ok hfirst]
      show (readSingly (count + further) >>= _) behind = _
      rw [bind_apply, ih hrun (Nat.succ.inj hall)]
      rcases readSingly further middle with ⟨rest, last⟩ | ⟨error, last⟩ <;> rfl

end Source

section Sink

variable [ByteSink δ] {ideal middle : δ}

/-- One byte is written as a whole. -/
theorem writeSingly_singleton (byte : UInt8) :
    (writeSingly [byte] : EStateM IoError δ Unit) = writeAll [byte] := by
  exact bind_pure (m := EStateM IoError δ) (writeAll [byte])

/-- Bytes written one by one, and then more of them. -/
theorem writeSingly_append {front : List UInt8} (h : writeSingly front ideal = .ok () middle)
    (back : List UInt8) : writeSingly (front ++ back) ideal = writeSingly back middle := by
  induction front generalizing ideal with
  | nil =>
    obtain ⟨-, rfl⟩ := pure_eq_ok.mp h
    rfl
  | cons byte front ih =>
    obtain ⟨_, behind, hfirst, hmore⟩ := bind_eq_ok.mp h
    rw [List.cons_append, writeSingly, bind_of_ok hfirst]
    exact ih hmore

/-- Where one byte cannot be written, neither can more. -/
theorem writeSingly_cons_of_error {byte : UInt8} {error : IoError}
    (h : writeSingly [byte] ideal = .error error middle) (rest : List UInt8) :
    writeSingly (byte :: rest) ideal = .error error middle := by
  rw [writeSingly_singleton] at h
  exact bind_of_error h

end Sink

/-! ## Pace -/

/-- **A source at a pace of its own**: each read does what some single reads of the other stream do.
It gives bytes that these give, none only where that one has ended, and it fails as that one does or
is interrupted, which moves nothing. -/
structure IsPacedSource [ByteSource σ] [ByteSource δ] (paces : σ → δ → Prop) : Prop where
  read {start : σ} {ideal : δ} {count : Nat} (h : paces start ideal) (hcount : count ≠ 0) :
    Outcome
      (fun bytes final => ∃ behind, paces final behind ∧
        readSingly (max 1 bytes.length) ideal = .ok bytes behind)
      (fun error final => error.isInterrupted = true ∧ paces final ideal ∨
        ∃ behind, paces final behind ∧ readSingly 1 ideal = .error error behind)
      (ByteSource.read count start)

/-- **A sink at a pace of its own**: each write does what some single writes to the other stream do. It
accepts some of the bytes, none only where that one has no room, and it fails as that one does or is
interrupted, which moves nothing. -/
structure IsPacedSink [ByteSink σ] [ByteSink δ] (paces : σ → δ → Prop) : Prop where
  write {start : σ} {ideal : δ} (h : paces start ideal) (byte : UInt8) (rest : List UInt8) :
    Outcome
      (fun count final => ∃ behind, paces final behind ∧
        (count ≠ 0 ∧ writeSingly ((byte :: rest).take count) ideal = .ok () behind ∨
          count = 0 ∧ writeSingly [byte] ideal = .error writeZero behind))
      (fun error final => error.isInterrupted = true ∧ paces final ideal ∨
        ∃ behind, paces final behind ∧ writeSingly [byte] ideal = .error error behind)
      (ByteSink.write (byte :: rest) start)

/-- **A stream at a pace of its own** that is read and written. All the rest does the same on the other
stream, and the bytes and the position that show are the same. -/
structure IsPacedStorage [ByteSource σ] [ByteSink σ] [Seekable σ] [ByteSource δ] [ByteSink δ]
    [Seekable δ] (shown : σ → MemoryStream) (shown' : δ → MemoryStream) (paces : σ → δ → Prop) :
    Prop extends IsPacedSource paces, IsPacedSink paces where
  flush : Simulates paces (ByteSink.flush : EStateM IoError σ Unit) ByteSink.flush
  tell : Simulates paces (Seekable.tell : EStateM IoError σ Nat) Seekable.tell
  seekTo (position : Nat) :
    Simulates paces (Seekable.seekTo position : EStateM IoError σ Unit) (Seekable.seekTo position)
  shows {start : σ} {ideal : δ} (h : paces start ideal) : shown start = shown' ideal

/-- Streams that pace the same one. -/
def InPace (paces : σ → δ → Prop) (paces' : σ' → δ → Prop) (stream : σ) (stream' : σ') : Prop :=
  ∃ ideal, paces stream ideal ∧ paces' stream' ideal

/-- **Whole transfers** do what single ones do. -/
theorem IsPacedSource.simulates_readUpTo [ByteSource σ] [ByteSource δ] {paces : σ → δ → Prop}
    (hp : IsPacedSource paces) (count : Nat) :
    Simulates paces (readUpTo count) (readSingly count) := by
  suffices hfurther : ∀ taken start ideal, paces start ideal →
      Agree paces (readFurther count taken start) (prepend taken.reverse (readSingly count ideal)) by
    intro start ideal h
    have hall := hfurther [] start ideal h
    rw [List.reverse_nil, prepend_nil] at hall
    exact hall
  intro taken start ideal h
  fun_induction readFurther count taken start generalizing ideal with
  | case1 taken start =>
    have hnone : readSingly 0 ideal = .ok [] ideal := rfl
    rw [hnone, prepend, List.append_nil]
    exact .ok h
  | case2 count taken start hcount final hrun =>
    -- The stream has ended.
    obtain ⟨behind, hfinal, hended⟩ := (hp.read h hcount).of_ok hrun
    obtain ⟨count, rfl⟩ := Nat.exists_eq_succ_of_ne_zero hcount
    rw [readSingly_succ_of_ended hended count, prepend, List.append_nil]
    exact .ok hfinal
  | case3 count taken start hcount byte bytes middle hrun ih =>
    -- Some bytes were taken, and as many fewer are still asked for.
    have hle := ByteSource.length_read_le hrun
    obtain ⟨behind, hmiddle, htaken⟩ := (hp.read h hcount).of_ok hrun
    have hlength : max 1 (byte :: bytes).length = bytes.length + 1 := by
      rw [List.length_cons]
      omega
    have hsplit : bytes.length + 1 + (count - (bytes.length + 1)) = count := by
      rw [List.length_cons] at hle
      omega
    rw [hlength] at htaken
    have hall := readSingly_add htaken rfl (count - (bytes.length + 1))
    rw [hsplit] at hall
    have hnext := ih behind hmiddle
    rw [List.reverse_append, List.reverse_reverse, ← prepend_prepend, ← hall] at hnext
    exact hnext
  | case4 count taken start hcount error middle hrun hagain ih =>
    -- An interruption is none of the other stream, which has not moved.
    rcases (hp.read h hcount).of_error hrun with ⟨-, hmiddle⟩ | ⟨behind, -, hfailed⟩
    · exact ih ideal hmiddle
    · have hsettled := (outcome_readSingly_settled 1 ideal).of_error hfailed
      exact absurd hagain (Bool.eq_false_iff.mp hsettled)
  | case5 count taken start hcount error middle hrun hagain =>
    rcases (hp.read h hcount).of_error hrun with ⟨hagain', -⟩ | ⟨behind, hfinal, hfailed⟩
    · exact absurd hagain' hagain
    · obtain ⟨count, rfl⟩ := Nat.exists_eq_succ_of_ne_zero hcount
      rw [readSingly_succ_of_error hfailed count]
      exact .error hfinal

/-- No whole write ends with an interruption. -/
theorem outcome_writeAll_settled [ByteSink δ] (bytes : List UInt8) (ideal : δ) :
    Outcome (fun _ _ => True) (fun error _ => error.isInterrupted = false)
      (writeAll bytes ideal) := by
  fun_induction writeAll bytes ideal with
  | case1 => trivial
  | case2 => rfl
  | case3 _ _ _ _ _ _ ih => exact ih
  | case4 _ _ _ _ _ _ _ ih => exact ih
  | case5 _ _ _ error _ _ hagain => exact Bool.eq_false_iff.mpr hagain

/-- **Whole writes** do what single ones do. -/
theorem IsPacedSink.simulates_writeAll [ByteSink σ] [ByteSink δ] {paces : σ → δ → Prop}
    (hp : IsPacedSink paces) (bytes : List UInt8) :
    Simulates paces (writeAll bytes) (writeSingly bytes) := by
  intro start ideal h
  fun_induction writeAll bytes start generalizing ideal with
  | case1 start => exact .ok h
  | case2 start byte rest final hrun =>
    -- The stream has no room.
    obtain ⟨behind, hfinal, ⟨hcount, -⟩ | ⟨-, hfull⟩⟩ := (hp.write h byte rest).of_ok hrun
    · exact absurd rfl hcount
    · rw [writeSingly_cons_of_error hfull rest]
      exact .error hfinal
  | case3 start byte rest count middle hrun ih =>
    -- Some bytes were accepted, and the others are still to be written.
    obtain ⟨behind, hmiddle, ⟨-, haccepted⟩ | ⟨hcount, -⟩⟩ := (hp.write h byte rest).of_ok hrun
    · have hall := writeSingly_append haccepted ((byte :: rest).drop (count + 1))
      rw [List.take_append_drop, List.drop_succ_cons] at hall
      rw [hall]
      exact ih behind hmiddle
    · cases hcount
  | case4 start byte rest error middle hrun hagain ih =>
    rcases (hp.write h byte rest).of_error hrun with ⟨-, hmiddle⟩ | ⟨behind, -, hfailed⟩
    · exact ih ideal hmiddle
    · rw [writeSingly_singleton] at hfailed
      have hsettled := (outcome_writeAll_settled [byte] ideal).of_error hfailed
      exact absurd hagain (Bool.eq_false_iff.mp hsettled)
  | case5 start byte rest error middle hrun hagain =>
    rcases (hp.write h byte rest).of_error hrun with ⟨hagain', -⟩ | ⟨behind, hfinal, hfailed⟩
    · exact absurd hagain' hagain
    · rw [writeSingly_cons_of_error hfailed rest]
      exact .error hfinal

/-- Programs that simulate the same one do the same on streams that pace the same one. -/
theorem Program.Simulates.inPace {ε α : Type} {paces : σ → δ → Prop} {paces' : σ' → δ → Prop}
    {first : EStateM ε σ α} {second : EStateM ε σ' α} {third : EStateM ε δ α}
    (h : Simulates paces first third) (h' : Simulates paces' second third) :
    Simulates (InPace paces paces') first second := by
  rintro start start' ⟨ideal, hstart, hstart'⟩
  exact (h start ideal hstart).join (h' start' ideal hstart')

/-- **Sources that pace the same one** are read alike. -/
theorem IsPacedSource.readsAlike [ByteSource σ] [ByteSource σ'] [ByteSource δ]
    {paces : σ → δ → Prop} {paces' : σ' → δ → Prop} (hp : IsPacedSource paces)
    (hp' : IsPacedSource paces') : ReadsAlike (InPace paces paces') :=
  .of_readUpTo fun count => (hp.simulates_readUpTo count).inPace (hp'.simulates_readUpTo count)

/-- **Sinks that pace the same one** take whole writes alike. -/
theorem IsPacedSink.simulates_writeAll_inPace [ByteSink σ] [ByteSink σ'] [ByteSink δ]
    {paces : σ → δ → Prop} {paces' : σ' → δ → Prop} (hp : IsPacedSink paces)
    (hp' : IsPacedSink paces') (bytes : List UInt8) :
    Simulates (InPace paces paces') (writeAll bytes) (writeAll bytes) :=
  (hp.simulates_writeAll bytes).inPace (hp'.simulates_writeAll bytes)

namespace IsPacedStorage

variable [ByteSource σ] [ByteSink σ] [Seekable σ] [ByteSource σ'] [ByteSink σ'] [Seekable σ']
  [ByteSource δ] [ByteSink δ] [Seekable δ] {shown : σ → MemoryStream} {shown' : σ' → MemoryStream}
  {common : δ → MemoryStream} {paces : σ → δ → Prop} {paces' : σ' → δ → Prop}

/-- **Streams that pace the same one** are written alike. -/
theorem writesAlike (hp : IsPacedStorage shown common paces)
    (hp' : IsPacedStorage shown' common paces') : WritesAlike (InPace paces paces') where
  writeAll := hp.simulates_writeAll_inPace hp'.toIsPacedSink
  flush := hp.flush.inPace hp'.flush
  tell := hp.tell.inPace hp'.tell
  seekTo position := (hp.seekTo position).inPace (hp'.seekTo position)

/-- Such streams show the same. -/
theorem shown_eq (hp : IsPacedStorage shown common paces)
    (hp' : IsPacedStorage shown' common paces') {stream : σ} {stream' : σ'}
    (h : InPace paces paces' stream stream') : shown stream = shown' stream' := by
  obtain ⟨ideal, hpaces, hpaces'⟩ := h
  rw [hp.shows hpaces, hp'.shows hpaces']

end IsPacedStorage

end RecordArchive
