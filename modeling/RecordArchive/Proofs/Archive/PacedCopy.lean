import RecordArchive.Proofs.Archive.Packer
import RecordArchive.Proofs.Archive.WritingEffects
import RecordArchive.Proofs.Stream.Pace

/-! # Copies at any pace

`insertFileData` appends what one read of its input gives as one chunk, so the pace of the input
decides how the payload is cut. Here every such copy is compared with the one that moves single bytes.

* `Archive.offered_eq_of_paces`: what an input offers does not depend on its pace.
* `Archive.agreeUpTo_insertFileData`: copies of inputs that pace the same one onto streams that pace the
  same one give the same and leave the same, below 4 GiB. There is one exception (`Archive.Torn`): where
  the stream fails inside a chunk, the bytes of that chunk are on the stream and in no account
  (`HandleState.uncounted`). -/

namespace RecordArchive

open Program Call Archive

/-! ## States without account -/

/-- The open payload with nothing counted. -/
def PendingPayload.uncounted (pending : PendingPayload) : PendingPayload :=
  { pending with written := 0, crc := 0 }

/-- The state of a handle without the account of its open payload. -/
def HandleState.uncounted (state : HandleState) : HandleState :=
  { state with pending? := state.pending?.map PendingPayload.uncounted }

/-- The account is all that a chunk changes. -/
theorem HandleState.uncounted_writingAt {state : HandleState} {pending : PendingPayload}
    (hopen : state.IsOpen pending) (bytes : List UInt8) :
    (state.writingAt (.atAddedData (pending.append bytes))).uncounted = state.uncounted := by
  conv => rhs; rw [← writingAt_atAddedData_of_isOpen hopen]
  rfl

namespace PendingPayload

/-- Bytes counted one after another are counted at once. -/
theorem append_append (pending : PendingPayload) (first second : List UInt8) :
    (pending.append first).append second = pending.append (first ++ second) := by
  unfold append
  rw [List.length_append, Nat.add_assoc]
  cases pending.hasCrc with
  | false => rfl
  | true => simp only [if_true, crc32c_append]

/-- A chunk of no bytes adds nothing to a payload. -/
theorem append_nil (pending : PendingPayload) : pending.append [] = pending := by
  rw [append, crc32c_nil, ite_self]
  rfl

/-- Of a chunk of no bytes nothing is accepted. -/
theorem accept_nil (pending : PendingPayload) : pending.accept [] = [] := by
  unfold accept
  split
  · exact List.take_nil
  · rfl

/-- The first byte is accepted or dropped. -/
theorem accept_singleton (pending : PendingPayload) (byte : UInt8) :
    pending.accept [byte] = [byte] ∨ pending.accept [byte] = [] := by
  unfold accept
  split
  · cases pending.declaredSize - pending.written with
    | zero => exact .inr rfl
    | succ room => exact .inl (List.take_of_length_le (Nat.succ_le_succ (Nat.zero_le room)))
  · exact .inl rfl

/-- What is accepted of a chunk is accepted byte by byte. -/
theorem accept_cons (pending : PendingPayload) (byte : UInt8) (rest : List UInt8) :
    pending.accept (byte :: rest)
      = pending.accept [byte] ++ (pending.append (pending.accept [byte])).accept rest := by
  have hdeclared (bytes : List UInt8) :
      (pending.append bytes).declaredSize = pending.declaredSize := rfl
  by_cases hannounced : 0 < pending.declaredSize
  · simp only [accept, hdeclared, if_pos hannounced]
    cases hroom : pending.declaredSize - pending.written with
    | zero =>
      have hfull : pending.declaredSize - (pending.append []).written = 0 := hroom
      rw [List.take_zero, List.take_zero, hfull, List.take_zero]
      rfl
    | succ room =>
      have htaken : [byte].take (room + 1) = [byte] := by
        rw [List.take_succ_cons, List.take_nil]
      have hleft : pending.declaredSize - (pending.append [byte]).written = room := by
        show pending.declaredSize - (pending.written + 1) = room
        omega
      rw [htaken, hleft]
      rfl
  · simp only [accept, hdeclared, if_neg hannounced]
    rfl

/-- No more is accepted than was offered. -/
theorem length_accept_le (pending : PendingPayload) (chunk : List UInt8) :
    (pending.accept chunk).length ≤ chunk.length := by
  unfold accept
  split
  · exact List.length_take_le' _ _
  · exact Nat.le_refl _

/-- Whether a payload takes chunks at all: it is cut where it was announced, or has a size field. -/
def IsRoomy (pending : PendingPayload) : Prop :=
  0 < pending.declaredSize ∨ pending.record.sizeWidth ≠ .absent

/-- **Below 4 GiB** it does not depend on a chunk whether that fits. -/
theorem fits_iff_isRoomy {pending : PendingPayload} {chunk : List UInt8} (hne : chunk ≠ [])
    (hsmall : pending.written + chunk.length < UInt32.size) :
    pending.fits chunk = true ↔ pending.IsRoomy := by
  have hpos := List.length_pos_iff.mpr hne
  have hwidth : pending.written + chunk.length ≤ pending.record.sizeWidth.maxValue ↔
      pending.record.sizeWidth ≠ .absent := by
    cases pending.record.sizeWidth with
    | absent =>
      simp only [SizeWidth.maxValue, ne_eq, not_true_eq_false, iff_false]
      omega
    | four =>
      have : pending.written + chunk.length ≤ UInt32.size - 1 := by omega
      simpa [SizeWidth.maxValue] using this
    | eight =>
      have : pending.written + chunk.length ≤ UInt64.size - 1 := by
        have hsizes : UInt32.size ≤ UInt64.size - 1 := by decide
        omega
      simpa [SizeWidth.maxValue] using this
  rw [IsRoomy, ← hwidth, fits, Bool.or_eq_true, decide_eq_true_iff, decide_eq_true_iff]

end PendingPayload

/-! ## What an input offers -/

section Offered

variable {ι κ : Type} [ByteSource ι] [ByteSource κ]

open ByteSource

/-- What is offered is what one read gives, and what is offered behind it. -/
theorem offered_apply (count : Nat) (start : ι) :
    offered count start = match read count start with
      | .ok [] _ => []
      | .ok (byte :: bytes) rest => byte :: bytes ++ offered count rest
      | .error error rest => if error.isInterrupted then offered count rest else [] := by
  rw [offered]
  split <;> simp_all

/-- What is offered byte by byte starts with the byte that is taken first. -/
theorem offered_one_apply (start : κ) :
    offered 1 start = match readUpTo 1 start with
      | .ok [] _ => []
      | .ok (byte :: _) rest => byte :: offered 1 rest
      | .error _ _ => [] := by
  induction hm : readBudget start using Nat.strongRecOn generalizing start with
  | _ bound ih =>
    rw [offered_apply]
    cases hrun : read 1 start with
    | ok bytes rest =>
      have hle := length_read_le hrun
      rw [readUpTo_one_of_read hrun]
      match bytes with
      | [] => rfl
      | [byte] => rfl
    | error error rest =>
      have htake : readUpTo 1 start
          = if error.isInterrupted then readUpTo 1 rest else .error error rest := by
        rw [readUpTo, readFurther_apply, if_neg Nat.one_ne_zero, hrun]
      rw [htake]
      dsimp only
      split
      next hagain =>
        have hlt := readBudget_error hrun
        rw [hagain, Bool.toNat_true] at hlt
        exact ih _ (by omega) rest rfl
      next => rfl

/-- What is offered starts with the bytes that are taken one by one. -/
theorem offered_one_of_readSingly {bytes : List UInt8} {start rest : κ}
    (h : readSingly bytes.length start = .ok bytes rest) :
    offered 1 start = bytes ++ offered 1 rest := by
  induction bytes generalizing start with
  | nil =>
    obtain ⟨-, rfl⟩ := pure_eq_ok.mp h
    rfl
  | cons byte bytes ih =>
    obtain ⟨more, behind, hfirst, hmore⟩ := exists_readUpTo_one h
    rw [offered_one_apply, hfirst]
    exact congrArg (byte :: ·) (ih hmore)

/-- **What an input offers** does not depend on its pace. -/
theorem IsPacedSource.offered_eq {inputs : ι → κ → Prop} (hinput : IsPacedSource inputs)
    {count : Nat} (hcount : count ≠ 0) {source : ι} {source' : κ} (hsource : inputs source source') :
    offered count source = offered 1 source' := by
  induction hm : readBudget source using Nat.strongRecOn generalizing source source' with
  | _ bound ih =>
    rw [offered_apply]
    have hread := hinput.read hsource hcount
    cases hrun : ByteSource.read count source with
    | ok bytes rest =>
      obtain ⟨behind, hrest, htaken⟩ := hread.of_ok hrun
      rcases bytes with _ | ⟨byte, bytes⟩
      · rw [offered_one_apply, readUpTo_one_of_ended htaken]
      · have hlength : max 1 (byte :: bytes).length = (byte :: bytes).length := by
          rw [List.length_cons]
          omega
        rw [hlength] at htaken
        have hlt := readBudget_ok hrun
        rw [List.length_cons] at hlt
        rw [offered_one_of_readSingly htaken, ← ih _ (by omega) hrest rfl]
    | error error rest =>
      have hlt := readBudget_error hrun
      dsimp only
      rcases hread.of_error hrun with ⟨hagain, hrest⟩ | ⟨behind, -, hfailed⟩
      · rw [hagain, Bool.toNat_true] at hlt
        rw [if_pos hagain]
        exact ih _ (by omega) hrest rfl
      · have hsettled := (outcome_readSingly_settled 1 source').of_error hfailed
        rw [if_neg (Bool.eq_false_iff.mp hsettled), offered_one_apply, readUpTo_one_of_error hfailed]

end Offered

/-! ## Copying byte by byte -/

namespace Archive

section Writing

variable {σ : Type} [ByteSink σ]

/-- A chunk goes nowhere if no payload is open. -/
theorem writeAddedData_of_not_isOpen {handle : Archive σ}
    (h : ¬ ∃ pending, handle.state.IsOpen pending) (chunk : List UInt8) :
    writeAddedData chunk handle = .error (.invalidState "write_added_data") handle :=
  bind_of_error (expectPending_of_not_isOpen h _)

/-- **A chunk** is refused, fails on the stream, or is counted. -/
theorem writeAddedData_apply {stream : σ} {state : HandleState} {pending : PendingPayload}
    (hopen : state.IsOpen pending) (chunk : List UInt8) :
    writeAddedData chunk ⟨stream, state⟩
      = if pending.fits chunk then match writeAll (pending.accept chunk) stream with
          | .ok () rest => .ok () ⟨rest, state.writingAt
              (.atAddedData (pending.append (pending.accept chunk)))⟩
          | .error error rest => .error (.write error) ⟨rest, state⟩
        else .error (.invalidParameter (.payloadTooLong pending.record.sizeWidth.length))
          ⟨stream, state⟩ := by
  have hexpect : expectPending "write_added_data" (⟨stream, state⟩ : Archive σ)
      = .ok pending ⟨stream, state⟩ := expectPending_of_isOpen hopen _
  rw [writeAddedData, bind_of_ok hexpect, HandleState.writingAt, ← hopen.mode]
  split
  next hfits =>
    rw [bind_of_ok (require_of hfits _ _)]
    cases hwrite : writeAll (pending.accept chunk) stream with
    | ok value rest =>
      exact bind_of_ok (onStream_eq_ok.mpr ⟨rest, adaptExcept_eq_ok.mpr hwrite, rfl⟩)
    | error error rest =>
      exact bind_of_error (onStream_of_error (adaptExcept_of_error hwrite))
  next hfits => exact bind_of_error (require_of_not hfits _ _)

end Writing

section Rounds

variable {σ ι : Type} [ByteSource ι] [ByteSink σ]

/-- A round is one read and what becomes of its bytes. -/
theorem insertRound_apply (count : Nat) (stream : ι) (total : Nat) (handle : Archive σ) :
    insertRound count ((⟨stream, total⟩ : CopySource ι), handle)
      = match ByteSource.read count stream with
        | .ok [] rest => .ok (some ()) (⟨rest, total⟩, handle)
        | .ok (byte :: bytes) rest => match writeAddedData (byte :: bytes) handle with
          | .ok () final => .ok none (⟨rest, total + (bytes.length + 1)⟩, final)
          | .error error final => .error error (⟨rest, total⟩, final)
        | .error error rest =>
          if error.isInterrupted then .ok none (⟨rest, total⟩, handle)
          else .error (.read error) (⟨rest, total⟩, handle) := by
  rw [insertRound, bind_apply, CallWith.onValue_apply, fetch]
  cases ByteSource.read count stream with
  | ok bytes rest =>
    rcases bytes with _ | ⟨byte, bytes⟩
    · rfl
    · dsimp only
      rw [bind_apply, lift_apply]
      cases writeAddedData (byte :: bytes) handle <;> rfl
  | error error rest =>
    dsimp only
    by_cases hagain : error.isInterrupted = true
    · rw [if_pos hagain, if_pos hagain]
      rfl
    · rw [if_neg hagain, if_neg hagain]

/-- The rounds of a copy whose reads ask for a number of bytes. -/
def copyRounds (count : Nat) : CallWith (CopySource ι) σ Unit :=
  repeatUntil (insertRound count) sourceBudget (insertRound_spends count)

/-- A copy is one read and what becomes of its bytes, and the copy from there. -/
theorem copyRounds_apply (count : Nat) (stream : ι) (total : Nat) (handle : Archive σ) :
    copyRounds count ((⟨stream, total⟩ : CopySource ι), handle)
      = match ByteSource.read count stream with
        | .ok [] rest => .ok () (⟨rest, total⟩, handle)
        | .ok (byte :: bytes) rest => match writeAddedData (byte :: bytes) handle with
          | .ok () final => copyRounds count (⟨rest, total + (bytes.length + 1)⟩, final)
          | .error error final => .error error (⟨rest, total⟩, final)
        | .error error rest =>
          if error.isInterrupted then copyRounds count (⟨rest, total⟩, handle)
          else .error (.read error) (⟨rest, total⟩, handle) := by
  rw [copyRounds, repeatUntil_apply, insertRound_apply]
  rcases ByteSource.read count stream with ⟨_ | ⟨byte, bytes⟩, rest⟩ | ⟨error, rest⟩
  · rfl
  · dsimp only
    cases writeAddedData (byte :: bytes) handle <;> rfl
  · dsimp only
    by_cases hagain : error.isInterrupted = true
    · rw [if_pos hagain, if_pos hagain]
    · rw [if_neg hagain, if_neg hagain]

end Rounds

section Single

variable {δ κ : Type} [ByteSource κ] [ByteSink δ]

/-- A copy byte by byte takes a byte, whatever interrupts that, and appends it. -/
theorem copyRounds_one_apply (stream : κ) (total : Nat) (handle : Archive δ) :
    copyRounds 1 ((⟨stream, total⟩ : CopySource κ), handle)
      = match readUpTo 1 stream with
        | .ok [] rest => .ok () (⟨rest, total⟩, handle)
        | .ok (byte :: _) rest => match writeAddedData [byte] handle with
          | .ok () final => copyRounds 1 (⟨rest, total + 1⟩, final)
          | .error error final => .error error (⟨rest, total⟩, final)
        | .error error rest => .error (.read error) (⟨rest, total⟩, handle) := by
  induction hm : ByteSource.readBudget stream using Nat.strongRecOn generalizing stream with
  | _ bound ih =>
    rw [copyRounds_apply]
    cases hrun : ByteSource.read 1 stream with
    | ok bytes rest =>
      have hle := ByteSource.length_read_le hrun
      rw [readUpTo_one_of_read hrun]
      match bytes with
      | [] => rfl
      | [byte] => rfl
    | error error rest =>
      have htake : readUpTo 1 stream
          = if error.isInterrupted then readUpTo 1 rest else .error error rest := by
        rw [readUpTo, readFurther_apply, if_neg Nat.one_ne_zero, hrun]
      rw [htake]
      dsimp only
      split
      next hagain =>
        have hlt := ByteSource.readBudget_error hrun
        rw [hagain, Bool.toNat_true] at hlt
        exact ih _ (by omega) rest rfl
      next => rfl

variable {state : HandleState} {pending : PendingPayload}

/-- **Single bytes make a chunk.** Where a copy byte by byte takes certain bytes, it goes on as if it
had appended them in one chunk, or it fails where the stream refuses one of them. -/
theorem copyRounds_one_of_readSingly {bytes : List UInt8} {source behind : κ}
    (hread : readSingly bytes.length source = .ok bytes behind)
    (hopen : state.IsOpen pending) (hroomy : pending.IsRoomy)
    (hsmall : pending.written + bytes.length < UInt32.size) (stream : δ) (total : Nat) :
    Outcome
      (fun _ final => copyRounds 1 ((⟨source, total⟩ : CopySource κ), ⟨stream, state⟩)
        = copyRounds 1 (⟨behind, total + bytes.length⟩, ⟨final, state.writingAt
            (.atAddedData (pending.append (pending.accept bytes)))⟩))
      (fun error final => ∃ source' last,
        copyRounds 1 ((⟨source, total⟩ : CopySource κ), ⟨stream, state⟩)
          = .error (.write error) (source', ⟨final, last⟩) ∧ last.uncounted = state.uncounted)
      (writeSingly (pending.accept bytes) stream) := by
  induction bytes generalizing source stream state pending total with
  | nil =>
    obtain ⟨-, rfl⟩ := pure_eq_ok.mp hread
    rw [PendingPayload.accept_nil, PendingPayload.append_nil,
      HandleState.writingAt_atAddedData_of_isOpen hopen]
    rfl
  | cons byte bytes ih =>
    obtain ⟨more, middle, hfirst, hmore⟩ := exists_readUpTo_one hread
    rw [List.length_cons] at hsmall
    have hfits : pending.fits [byte] = true :=
      (PendingPayload.fits_iff_isRoomy (List.cons_ne_nil _ _) (by
        rw [List.length_singleton]
        omega)).mpr hroomy
    have hcopy := copyRounds_one_apply source total (⟨stream, state⟩ : Archive δ)
    rw [hfirst] at hcopy
    dsimp only at hcopy
    rw [writeAddedData_apply hopen, if_pos hfits] at hcopy
    rw [pending.accept_cons byte bytes]
    have hsingle : writeSingly (pending.accept [byte]) stream
        = writeAll (pending.accept [byte]) stream := by
      rcases pending.accept_singleton byte with heq | heq
      · rw [heq, writeSingly_singleton]
      · rw [heq]
        unfold writeAll
        rfl
    cases hwrite : writeAll (pending.accept [byte]) stream with
    | ok value next =>
      -- The byte is written or dropped, and the others follow.
      rw [hwrite] at hcopy hsingle
      rw [writeSingly_append hsingle]
      have hlength := pending.length_accept_le [byte]
      have hopen' := state.isOpen_writingAt (pending.append (pending.accept [byte]))
      have hnext := ih hmore hopen' hroomy (by
        show pending.written + (pending.accept [byte]).length + bytes.length < UInt32.size
        rw [List.length_singleton] at hlength
        omega) next (total + 1)
      refine hnext.mono ?_ ?_
      · intro _ final hfinal
        refine hcopy.trans (hfinal.trans ?_)
        rw [PendingPayload.append_append, Nat.add_assoc, Nat.add_comm 1, ← List.length_cons (a := byte)]
        rfl
      · rintro error final ⟨source', last, hlast, hsame⟩
        exact ⟨source', last, hcopy.trans hlast,
          hsame.trans (HandleState.uncounted_writingAt hopen _)⟩
    | error error final =>
      rw [hwrite] at hcopy hsingle
      rcases pending.accept_singleton byte with heq | heq
      · rw [heq] at hsingle ⊢
        rw [List.singleton_append, writeSingly_cons_of_error hsingle]
        exact ⟨_, _, hcopy, rfl⟩
      · -- Nothing would have been written, which does not fail.
        rw [heq] at hsingle
        cases hsingle

end Single

/-! ## Copies at different paces -/

/-- Handles that differ at most in the account of the open payload. -/
structure Torn {σ τ : Type} (streams : σ → τ → Prop) (first : Archive σ) (second : Archive τ) :
    Prop where
  stream : streams first.stream second.stream
  state : first.state.uncounted = second.state.uncounted

/-- Handles in the same state behind copies of the same length. -/
structure Counted {σ τ ι κ : Type} (streams : σ → τ → Prop) (first : CopySource ι × Archive σ)
    (second : CopySource κ × Archive τ) : Prop where
  total : first.1.total = second.1.total
  archive : Related streams first.2 second.2

/-- Two copies agree, or the stream fails with the same error and leaves handles that differ in the
account. -/
inductive AgreeUpTo {σ τ ι κ : Type} (streams : σ → τ → Prop) :
    EStateM.Result ArchiveError (CopySource ι × Archive σ) Unit →
      EStateM.Result ArchiveError (CopySource κ × Archive τ) Unit → Prop
  /-- Both end alike. -/
  | agree {first : EStateM.Result ArchiveError (CopySource ι × Archive σ) Unit}
    {second : EStateM.Result ArchiveError (CopySource κ × Archive τ) Unit}
    (h : Agree (Counted streams) first second) : AgreeUpTo streams first second
  /-- Both fail inside the payload. -/
  | torn {error : IoError} {first : CopySource ι × Archive σ} {second : CopySource κ × Archive τ}
    (h : Torn streams first.2 second.2) :
    AgreeUpTo streams (.error (.write error) first) (.error (.write error) second)

namespace AgreeUpTo

variable {σ σ' δ ι ι' κ : Type} {streams : σ → δ → Prop} {streams' : σ' → δ → Prop}

/-- Copies that agree with the same third one agree with each other. -/
theorem join {first : EStateM.Result ArchiveError (CopySource ι × Archive σ) Unit}
    {second : EStateM.Result ArchiveError (CopySource ι' × Archive σ') Unit}
    {third : EStateM.Result ArchiveError (CopySource κ × Archive δ) Unit}
    (h : AgreeUpTo streams first third) (h' : AgreeUpTo streams' second third) :
    AgreeUpTo (InPace streams streams') first second := by
  have hcounted : ∀ {first : CopySource ι × Archive σ} {second : CopySource ι' × Archive σ'}
      {third : CopySource κ × Archive δ}, Counted streams first third →
      Counted streams' second third → Counted (InPace streams streams') first second :=
    fun h h' => ⟨h.total.trans h'.total.symm, ⟨_, h.archive.stream, h'.archive.stream⟩,
      h.archive.state.trans h'.archive.state.symm⟩
  have htorn : ∀ {first : Archive σ} {second : Archive σ'} {third : Archive δ},
      Torn streams first third → Torn streams' second third →
      Torn (InPace streams streams') first second :=
    fun h h' => ⟨⟨_, h.stream, h'.stream⟩, h.state.trans h'.state.symm⟩
  have hleft : ∀ {first : Archive σ} {third : Archive δ}, Related streams first third →
      Torn streams first third := fun h => ⟨h.stream, congrArg _ h.state⟩
  have hright : ∀ {second : Archive σ'} {third : Archive δ}, Related streams' second third →
      Torn streams' second third := fun h => ⟨h.stream, congrArg _ h.state⟩
  rcases h with h | h
  · rcases h' with h' | h'
    · rcases h with h | h
      · obtain ⟨final, rfl, hfinal⟩ := h'.exists_ok
        exact .agree (.ok (hcounted h hfinal))
      · obtain ⟨final, rfl, hfinal⟩ := h'.exists_error
        exact .agree (.error (hcounted h hfinal))
    · obtain ⟨final, rfl, hfinal⟩ := h.exists_error
      exact .torn (htorn (hleft hfinal.archive) h')
  · rcases h' with h' | h'
    · obtain ⟨final, rfl, hfinal⟩ := h'.exists_error
      exact .torn (htorn h (hright hfinal.archive))
    · exact .torn (htorn h h')

/-- What is done behind a copy. -/
theorem bind {copy : CallWith (CopySource ι) σ Unit} {copy' : CallWith (CopySource κ) δ Unit}
    {next : Unit → CallWith (CopySource ι) σ Unit} {next' : Unit → CallWith (CopySource κ) δ Unit}
    {start : CopySource ι × Archive σ} {start' : CopySource κ × Archive δ}
    (h : AgreeUpTo streams (copy start) (copy' start'))
    (hnext : ∀ value, Simulates (Counted streams) (next value) (next' value)) :
    AgreeUpTo streams ((copy >>= next) start) ((copy' >>= next') start') := by
  rw [bind_apply, bind_apply]
  revert h
  generalize copy start = result
  generalize copy' start' = result'
  rintro ((⟨h⟩ | ⟨h⟩) | ⟨h⟩)
  · exact .agree (hnext _ _ _ h)
  · exact .agree (.error h)
  · exact .torn h

end AgreeUpTo

/-- A call beside copies leaves their length. -/
theorem simulates_lift_counted {σ τ ι κ α : Type} {streams : σ → τ → Prop} {call : Call σ α}
    {call' : Call τ α} (h : Simulates (Related streams) call call') :
    Simulates (Counted streams) (Call.lift call : CallWith (CopySource ι) σ α)
      (Call.lift call' : CallWith (CopySource κ) τ α) := by
  rintro ⟨source, first⟩ ⟨source', second⟩ ⟨htotal, harchive⟩
  have hrun := h first second harchive
  rw [lift_apply, lift_apply]
  revert hrun
  generalize call first = result
  generalize call' second = result'
  rintro (⟨hfinal⟩ | ⟨hfinal⟩)
  · exact .ok ⟨htotal, hfinal⟩
  · exact .error ⟨htotal, hfinal⟩

section Paces

variable {σ σ' δ ι ι' κ : Type} [ByteSource ι] [ByteSource ι'] [ByteSource κ] [ByteSink σ]
  [ByteSink σ'] [ByteSink δ] {inputs : ι → κ → Prop} {inputs' : ι' → κ → Prop}
  {streams : σ → δ → Prop} {streams' : σ' → δ → Prop}

/-- **A chunk** of a copy agrees with its bytes one by one, if what is copied behind it does. -/
theorem agreeUpTo_chunk (hstream : IsPacedSink streams) {byte : UInt8} {bytes : List UInt8}
    {source rest : ι} {source' behind : κ}
    (htaken : readSingly (byte :: bytes).length source' = .ok (byte :: bytes) behind)
    {handle : Archive σ} {handle' : Archive δ} (hhandle : Related streams handle handle')
    (hsmall : handle'.streamedLength + (byte :: bytes).length < UInt32.size) {count : Nat}
    (hread : ByteSource.read count source = .ok (byte :: bytes) rest)
    (hnext : ∀ (final : Archive σ) (final' : Archive δ) (total : Nat), Related streams final final' →
      final'.streamedLength ≤ handle'.streamedLength + (byte :: bytes).length →
      AgreeUpTo streams (copyRounds count ((⟨rest, total⟩ : CopySource ι), final))
        (copyRounds 1 ((⟨behind, total⟩ : CopySource κ), final'))) (total : Nat) :
    AgreeUpTo streams (copyRounds count ((⟨source, total⟩ : CopySource ι), handle))
      (copyRounds 1 ((⟨source', total⟩ : CopySource κ), handle')) := by
  obtain ⟨stream, state⟩ := handle
  obtain ⟨stream', _⟩ := handle'
  obtain ⟨hstreams, rfl⟩ := hhandle
  obtain ⟨more, middle, hfirst, -⟩ := exists_readUpTo_one htaken
  have hcopy := copyRounds_one_apply source' total (⟨stream', state⟩ : Archive δ)
  rw [hfirst] at hcopy
  rw [copyRounds_apply, hread]
  dsimp only at hcopy ⊢
  by_cases hnone : ¬ ∃ pending, state.IsOpen pending
  · -- No payload is open, which the first byte finds out as the first chunk does.
    rw [writeAddedData_of_not_isOpen hnone] at hcopy
    rw [hcopy, writeAddedData_of_not_isOpen hnone]
    exact .agree (.error ⟨rfl, hstreams, rfl⟩)
  · obtain ⟨pending, hopen⟩ := not_not.mp hnone
    have hwritten : (⟨stream', state⟩ : Archive δ).streamedLength = pending.written := by
      rw [streamedLength, Archive.pending?, hopen.pending?, Option.elim_some]
    rw [hwritten] at hsmall hnext
    have hfits : pending.fits (byte :: bytes) = true ↔ pending.IsRoomy :=
      PendingPayload.fits_iff_isRoomy (List.cons_ne_nil _ _) hsmall
    have hfits' : pending.fits [byte] = true ↔ pending.IsRoomy :=
      PendingPayload.fits_iff_isRoomy (List.cons_ne_nil _ _) (by
        rw [List.length_cons] at hsmall
        rw [List.length_singleton]
        omega)
    rw [writeAddedData_apply hopen] at hcopy ⊢
    by_cases hroomy : pending.IsRoomy
    · rw [if_pos (hfits.mpr hroomy)]
      have hwrite := hstream.simulates_writeAll (pending.accept (byte :: bytes)) stream stream'
        hstreams
      have hbytes := copyRounds_one_of_readSingly htaken hopen hroomy hsmall stream' total
      revert hwrite hbytes
      generalize writeAll (pending.accept (byte :: bytes)) stream = result
      generalize writeSingly (pending.accept (byte :: bytes)) stream' = result'
      rintro (⟨hfinal⟩ | ⟨hfinal⟩) hbytes
      next value final final' =>
        -- The chunk is on both streams and counted.
        rw [hbytes]
        exact hnext _ _ _ ⟨hfinal, rfl⟩
          (Nat.add_le_add_left (pending.length_accept_le (byte :: bytes)) _)
      next error final final' =>
        -- The stream has failed inside the chunk.
        obtain ⟨source'', last, hlast, hsame⟩ := hbytes
        rw [hlast]
        exact .torn ⟨hfinal, hsame.symm⟩
    · rw [if_neg (hfits'.not.mpr hroomy)] at hcopy
      rw [if_neg (hfits.not.mpr hroomy), hcopy]
      exact .agree (.error ⟨rfl, hstreams, rfl⟩)

/-- **A copy** agrees with the one byte by byte. -/
theorem agreeUpTo_copyRounds (hinput : IsPacedSource inputs) (hstream : IsPacedSink streams)
    {count : Nat} (hcount : count ≠ 0) {source : ι} {source' : κ} (hsource : inputs source source')
    {handle : Archive σ} {handle' : Archive δ} (hhandle : Related streams handle handle')
    (hsmall : handle'.streamedLength + (ByteSource.offered 1 source').length < UInt32.size)
    (total : Nat) :
    AgreeUpTo streams (copyRounds count ((⟨source, total⟩ : CopySource ι), handle))
      (copyRounds 1 ((⟨source', total⟩ : CopySource κ), handle')) := by
  induction hm : ByteSource.readBudget source using Nat.strongRecOn
    generalizing source source' handle handle' total with
  | _ bound ih =>
    have hread := hinput.read hsource hcount
    cases hrun : ByteSource.read count source with
    | ok bytes rest =>
      obtain ⟨behind, hrest, htaken⟩ := hread.of_ok hrun
      rcases bytes with _ | ⟨byte, bytes⟩
      · -- The input has ended.
        rw [copyRounds_apply, hrun, copyRounds_one_apply, readUpTo_one_of_ended htaken]
        exact .agree (.ok ⟨rfl, hhandle⟩)
      · have hlength : max 1 (byte :: bytes).length = (byte :: bytes).length := by
          rw [List.length_cons]
          omega
        rw [hlength] at htaken
        have hlt := ByteSource.readBudget_ok hrun
        rw [offered_one_of_readSingly htaken, List.length_append] at hsmall
        refine agreeUpTo_chunk hstream htaken hhandle (by omega) hrun
          (fun final final' total hfinal hle => ?_) total
        exact ih _ (by rw [List.length_cons] at hlt; omega) hrest hfinal (by omega) total rfl
    | error error rest =>
      rw [copyRounds_apply, hrun]
      dsimp only
      have hlt := ByteSource.readBudget_error hrun
      rcases hread.of_error hrun with ⟨hagain, hrest⟩ | ⟨behind, -, hfailed⟩
      · -- An interruption moves nothing, and the input is read again.
        rw [hagain, Bool.toNat_true] at hlt
        rw [if_pos hagain]
        exact ih _ (by omega) hrest hhandle hsmall _ rfl
      · have hsettled := (outcome_readSingly_settled 1 source').of_error hfailed
        rw [if_neg (Bool.eq_false_iff.mp hsettled), copyRounds_one_apply,
          readUpTo_one_of_error hfailed]
        exact .agree (.error ⟨rfl, hhandle⟩)

/-- A copy byte by byte as a whole. -/
def insertSingly : CallWith (CopySource κ) δ Unit := do
  Call.lift (expectPacker [.fileData] "insert_file_data")
  copyRounds 1
  Call.lift (setPacker .afterFileData)

/-- **Copying a stream** agrees with copying it byte by byte. -/
theorem agreeUpTo_insertSingly (hinput : IsPacedSource inputs) (hstream : IsPacedSink streams)
    {input : ι} {input' : κ} (hsource : inputs input input') {handle : Archive σ}
    {handle' : Archive δ} (hhandle : Related streams handle handle')
    (hsmall : handle'.streamedLength + (ByteSource.offered 1 input').length < UInt32.size) :
    AgreeUpTo streams (insertFileData ((⟨input, 0⟩ : CopySource ι), handle))
      (insertSingly ((⟨input', 0⟩ : CopySource κ), handle')) := by
  have hexpect := simulates_expectPacker [.fileData] "insert_file_data" handle handle' hhandle
  have hkept := effect_expectPacker [.fileData] "insert_file_data" handle
  have hkept' := effect_expectPacker [.fileData] "insert_file_data" handle'
  cases hrun : expectPacker [.fileData] "insert_file_data" handle with
  | ok value final =>
    rw [hrun] at hexpect
    obtain ⟨final', hrun', -⟩ := hexpect.exists_ok_right
    obtain ⟨rfl, -⟩ := hkept.of_ok hrun
    obtain ⟨rfl, -⟩ := hkept'.of_ok hrun'
    have hbegin : (Call.lift (expectPacker [.fileData] "insert_file_data") :
        CallWith (CopySource ι) σ Unit) (⟨input, 0⟩, final) = .ok () (⟨input, 0⟩, final) :=
      lift_eq_ok.mpr ⟨final, hrun, rfl⟩
    have hbegin' : (Call.lift (expectPacker [.fileData] "insert_file_data") :
        CallWith (CopySource κ) δ Unit) (⟨input', 0⟩, final') = .ok () (⟨input', 0⟩, final') :=
      lift_eq_ok.mpr ⟨final', hrun', rfl⟩
    have hstate : (Call.lift Call.state : CallWith (CopySource ι) σ HandleState) (⟨input, 0⟩, final)
        = .ok final.state (⟨input, 0⟩, final) := rfl
    have hcount : final.state.options.copySize ≠ 0 := by
      unfold ArchiveOptions.copySize
      omega
    rw [insertFileData, bind_of_ok hbegin, bind_of_ok hstate, insertSingly, bind_of_ok hbegin']
    exact AgreeUpTo.bind (agreeUpTo_copyRounds hinput hstream hcount hsource hhandle hsmall 0)
      fun _ => simulates_lift_counted (simulates_update _)
  | error error final =>
    rw [hrun] at hexpect
    cases hrun' : expectPacker [.fileData] "insert_file_data" handle' with
    | ok value final' =>
      rw [hrun'] at hexpect
      cases hexpect
    | error error' final' =>
      rw [hrun'] at hexpect
      cases hexpect with
      | error hfinal =>
        rw [insertFileData, bind_of_error (lift_of_error hrun), insertSingly,
          bind_of_error (lift_of_error hrun')]
        exact .agree (.error ⟨rfl, hfinal⟩)

/-- **Copies at different paces** of the same input onto the same stream agree, below 4 GiB, up to the
account where the stream fails. -/
theorem agreeUpTo_insertFileData (hinput : IsPacedSource inputs) (hinput' : IsPacedSource inputs')
    (hstream : IsPacedSink streams) (hstream' : IsPacedSink streams') {input : ι} {input' : ι'}
    (hsource : InPace inputs inputs' input input') {handle : Archive σ} {handle' : Archive σ'}
    (hhandle : Related (InPace streams streams') handle handle')
    (hsmall : handle.streamedLength
      + (ByteSource.offered handle.state.options.copySize input).length < UInt32.size) :
    AgreeUpTo (InPace streams streams') (insertFileData ((⟨input, 0⟩ : CopySource ι), handle))
      (insertFileData ((⟨input', 0⟩ : CopySource ι'), handle')) := by
  obtain ⟨source, hpaced, hpaced'⟩ := hsource
  obtain ⟨stream, state⟩ := handle
  obtain ⟨stream', _⟩ := handle'
  obtain ⟨⟨ideal, hideal, hideal'⟩, rfl⟩ := hhandle
  have hcount : state.options.copySize ≠ 0 := by
    unfold ArchiveOptions.copySize
    omega
  rw [hinput.offered_eq hcount hpaced] at hsmall
  have hrelated : Related streams ⟨stream, state⟩ ⟨ideal, state⟩ := ⟨hideal, rfl⟩
  have hrelated' : Related streams' ⟨stream', state⟩ ⟨ideal, state⟩ := ⟨hideal', rfl⟩
  exact (agreeUpTo_insertSingly hinput hstream hpaced hrelated hsmall).join
    (agreeUpTo_insertSingly hinput' hstream' hpaced' hrelated' hsmall)

end Paces

end Archive

end RecordArchive
