import RecordArchive.Proofs.Stream.Pace
import RecordArchive.Stream.Faults

/-! # The pace of a stream with planned faults

A plan of faults says how many bytes a transfer moves at most and where one is interrupted, and it
says what fails. The first part of it is only a pace: the stream paces the one whose plan has the
second part alone (`Faults.calm`), unless a transfer may move no byte at all.

* `FaultyStream.readSingly_calm`, `FaultyStream.writeSingly_calm`: what single transfers do up to the
  next failure.
* `FaultyStream.isPacedStorage`: **a stream with planned faults** paces the calm one.
* `FaultyStream.isDelivery_rest`: without planned failures of reads the bytes are delivered. -/

namespace RecordArchive

open Program

namespace Faults

/-- The faults without those that only set the pace. -/
def calm (faults : Faults) : Faults :=
  { faults with readMax? := none, writeMax? := none, readInterrupts := [], writeInterrupts := [] }

/-- Without interruptions no read is interrupted. -/
theorem notMem_readInterrupts_calm (faults : Faults) (position : Nat) :
    position ∉ faults.calm.readInterrupts := List.not_mem_nil

/-- Without interruptions no write is interrupted. -/
theorem notMem_writeInterrupts_calm (faults : Faults) (position : Nat) :
    position ∉ faults.calm.writeInterrupts := List.not_mem_nil

end Faults

namespace MemoryStream

/-- A read leaves the bytes and moves the position. -/
theorem read_eq (count : Nat) (memory : MemoryStream) :
    memory.read count
      = (memory.rest.take count, memory.movedTo (memory.position + (memory.rest.take count).length)) := by
  refine Prod.ext (read_fst count memory) (ext_toList rfl ?_)
  rw [read_snd_position, read_fst]
  rfl

/-- Where the bytes have ended, or none are asked for, nothing is read. -/
theorem read_of_take_eq_nil {count : Nat} {memory : MemoryStream}
    (h : memory.rest.take count = []) : memory.read count = ([], memory) := by
  rw [read_eq, h]
  rfl

/-- Bytes read in a row are read at once. -/
theorem read_add (first second : Nat) (memory : MemoryStream) :
    memory.read (first + second)
      = ((memory.read first).1 ++ ((memory.read first).2.read second).1,
        ((memory.read first).2.read second).2) := by
  have hbytes : (memory.read (first + second)).1
      = (memory.read first).1 ++ ((memory.read first).2.read second).1 := by
    rw [read_fst, read_fst, read_fst, rest_read, List.take_add]
  refine Prod.ext hbytes (ext_toList rfl ?_)
  show memory.position + (memory.read (first + second)).1.length
    = memory.position + (memory.read first).1.length + ((memory.read first).2.read second).1.length
  rw [hbytes, List.length_append, Nat.add_assoc]

end MemoryStream

namespace FaultyStream

/-! ## The limits of a transfer -/

/-- A trigger is not reached as long as the position is in front of it. -/
theorem not_reached {trigger? : Option Nat} {position : Nat} :
    reached trigger? position = false ↔ ∀ trigger ∈ trigger?, position < trigger := by
  cases trigger? with
  | none => simp [reached]
  | some trigger => simp [reached]

/-- The number of bytes that a transfer of `count` bytes moves while there are as many. -/
def moved (limit? : Option Nat) (triggers : List Nat) (position count : Nat) : Nat :=
  ((transferLimit? limit? triggers position).map (min count)).getD count

/-- A transfer moves at least one byte and passes no trigger. -/
theorem moved_spec {limit? : Option Nat} (hlimit : limit? ≠ some 0) (triggers : List Nat)
    (position : Nat) {count : Nat} (hcount : count ≠ 0) :
    moved limit? triggers position count ≠ 0 ∧
      ∀ trigger ∈ triggers, position < trigger →
        position + moved limit? triggers position count ≤ trigger := by
  unfold moved transferLimit?
  have hdistance : ∀ trigger ∈ triggers, position < trigger → trigger - position ∈
      limit?.toList ++ (triggers.filter fun trigger => decide (position < trigger)).map (· - position) :=
    fun trigger hmem hlt => List.mem_append_right _ <| List.mem_map_of_mem <|
      List.mem_filter.mpr ⟨hmem, decide_eq_true hlt⟩
  cases hleast : (limit?.toList ++
      (triggers.filter fun trigger => decide (position < trigger)).map (· - position)).min? with
  | none =>
    refine ⟨hcount, fun trigger hmem hlt => ?_⟩
    have hmem' := hdistance trigger hmem hlt
    rw [List.min?_eq_none_iff.mp hleast] at hmem'
    cases hmem'
  | some least =>
    -- The least distance is one of them, so it is not zero, and it is at most any other one.
    obtain ⟨hmem, hle⟩ := List.min?_eq_some_iff.mp hleast
    refine ⟨?_, fun trigger htrigger hlt => ?_⟩
    · have hleast : least ≠ 0 := by
        rcases List.mem_append.mp hmem with hmem | hmem
        · rintro rfl
          exact hlimit (Option.mem_toList.mp hmem)
        · obtain ⟨trigger, htrigger, rfl⟩ := List.mem_map.mp hmem
          have hlt := of_decide_eq_true (List.mem_filter.mp htrigger).2
          omega
      show min count least ≠ 0
      omega
    · have hle := hle _ (hdistance trigger htrigger hlt)
      show position + min count least ≤ trigger
      omega

/-- Where no trigger is passed and no limit is set, everything is moved. -/
theorem moved_of_room {triggers : List Nat} {position count : Nat}
    (hroom : ∀ trigger ∈ triggers, position + count ≤ trigger) :
    moved none triggers position count = count := by
  unfold moved transferLimit?
  cases hleast : ((none : Option Nat).toList ++
      (triggers.filter fun trigger => decide (position < trigger)).map (· - position)).min? with
  | none => rfl
  | some least =>
    obtain ⟨hmem, -⟩ := List.min?_eq_some_iff.mp hleast
    rcases List.mem_append.mp hmem with hmem | hmem
    · cases hmem
    · obtain ⟨trigger, htrigger, rfl⟩ := List.mem_map.mp hmem
      have hle := hroom trigger (List.mem_filter.mp htrigger).1
      show min count (trigger - position) = count
      omega

/-! ## Reading -/

section Reading

variable {memory : MemoryStream} {faults : Faults} {count : Nat}

/-- A read is interrupted, fails, or is one of the memory. -/
theorem read_apply (hcount : count ≠ 0) :
    ByteSource.read count (⟨memory, faults⟩ : FaultyStream)
      = if memory.position ∈ faults.readInterrupts then
          .error interruption ⟨memory, { faults with
            readInterrupts := faults.readInterrupts.erase memory.position }⟩
        else if reached faults.readFailAt? memory.position then
          .error (.worded .other "read fault") ⟨memory, faults⟩
        else
          let taken := memory.read (moved faults.readMax?
            (faults.readInterrupts ++ faults.readFailAt?.toList) memory.position count)
          .ok taken.1 ⟨taken.2, faults⟩ := by
  show read count ⟨memory, faults⟩ = _
  unfold read
  rw [if_neg hcount]
  rfl

/-- A read of the calm stream in front of the next failure is one of the memory. -/
theorem read_calm (hcount : count ≠ 0)
    (hroom : ∀ trigger ∈ faults.readFailAt?, memory.position + count ≤ trigger) :
    ByteSource.read count (⟨memory, faults.calm⟩ : FaultyStream)
      = .ok (memory.read count).1 ⟨(memory.read count).2, faults.calm⟩ := by
  have hall : moved faults.calm.readMax?
      (faults.calm.readInterrupts ++ faults.calm.readFailAt?.toList) memory.position count = count :=
    moved_of_room fun trigger htrigger => hroom trigger (Option.mem_toList.mp htrigger)
  have hopen : ¬ reached faults.calm.readFailAt? memory.position = true := by
    refine Bool.eq_false_iff.mp (not_reached.mpr fun trigger htrigger => ?_)
    have := hroom trigger htrigger
    omega
  rw [read_apply hcount, if_neg (faults.notMem_readInterrupts_calm _), if_neg hopen, hall]

/-- Bytes are taken one by one up to the next failure. -/
theorem readSingly_calm (hroom : ∀ trigger ∈ faults.readFailAt?, memory.position + count ≤ trigger) :
    readSingly count (⟨memory, faults.calm⟩ : FaultyStream)
      = .ok (memory.read count).1 ⟨(memory.read count).2, faults.calm⟩ := by
  induction count generalizing memory with
  | zero =>
    rw [MemoryStream.read_of_take_eq_nil List.take_zero]
    rfl
  | succ count ih =>
    have hone : ∀ trigger ∈ faults.readFailAt?, memory.position + 1 ≤ trigger := fun trigger htrigger => by
      have := hroom trigger htrigger
      omega
    rw [readSingly, bind_of_ok (readUpTo_one_of_read (read_calm Nat.one_ne_zero hone))]
    rcases hrest : memory.rest with _ | ⟨byte, rest⟩
    · -- The bytes have ended.
      have hnone (more : Nat) : memory.read more = ([], memory) :=
        MemoryStream.read_of_take_eq_nil (by rw [hrest, List.take_nil])
      rw [hnone, hnone]
      rfl
    · have hfirst : memory.read 1 = ([byte], memory.movedTo (memory.position + 1)) := by
        rw [MemoryStream.read_eq, hrest]
        rfl
      have hmore := @ih (memory.movedTo (memory.position + 1)) fun trigger htrigger => by
        have := hroom trigger htrigger
        show memory.position + 1 + count ≤ trigger
        omega
      rw [Nat.add_comm count 1, MemoryStream.read_add, hfirst]
      exact bind_of_ok hmore

/-- Where a read fails, taking one byte from the calm stream does. -/
theorem readSingly_calm_of_reached (h : reached faults.readFailAt? memory.position = true) :
    readSingly 1 (⟨memory, faults.calm⟩ : FaultyStream)
      = .error (.worded .other "read fault") ⟨memory, faults.calm⟩ := by
  have hread : ByteSource.read 1 (⟨memory, faults.calm⟩ : FaultyStream)
      = .error (.worded .other "read fault") ⟨memory, faults.calm⟩ := by
    rw [read_apply Nat.one_ne_zero, if_neg (faults.notMem_readInterrupts_calm _)]
    exact if_pos h
  refine bind_of_error ?_
  rw [readUpTo, readFurther_apply, if_neg Nat.one_ne_zero, hread]
  rfl

/-- **Without planned failures of reads** a stream delivers what lies behind its position, whatever
pace its plan sets. -/
theorem isDelivery_rest : IsDelivery fun (stream : FaultyStream) bytes => stream.memory.rest = bytes ∧
    stream.faults.readFailAt? = none ∧ stream.faults.readMax? ≠ some 0 where
  read_ok := by
    rintro ⟨memory, faults⟩ final count _ taken ⟨rfl, hfail, hmax⟩ hrun
    by_cases hcount : count = 0
    · subst hcount
      cases hrun
      exact ⟨memory.rest, rfl, ⟨rfl, hfail, hmax⟩, fun _ => .inl rfl⟩
    · rw [read_apply hcount] at hrun
      split at hrun
      · cases hrun
      · rw [if_neg (by rw [hfail]; exact Bool.false_ne_true)] at hrun
        cases hrun
        have hmoved := (moved_spec hmax (faults.readInterrupts ++ faults.readFailAt?.toList)
          memory.position hcount).1
        refine ⟨_, ?_, ⟨MemoryStream.rest_read _ _, hfail, hmax⟩, fun hnil => ?_⟩
        · rw [MemoryStream.read_fst, List.take_append_drop]
        · rw [MemoryStream.read_fst] at hnil
          exact .inr ((List.take_eq_nil_iff.mp hnil).resolve_left hmoved)
  read_error := by
    rintro ⟨memory, faults⟩ final count _ error ⟨rfl, hfail, hmax⟩ hrun
    by_cases hcount : count = 0
    · subst hcount
      cases hrun
    · rw [read_apply hcount] at hrun
      split at hrun
      · cases hrun
        exact ⟨rfl, rfl, hfail, hmax⟩
      · rw [if_neg (by rw [hfail]; exact Bool.false_ne_true)] at hrun
        cases hrun

end Reading

/-! ## Writing -/

section Writing

variable {memory : MemoryStream} {faults : Faults} {byte : UInt8} {rest : List UInt8}

/-- A write is interrupted, fails, finds no room, or is one to the memory. -/
theorem write_apply (byte : UInt8) (rest : List UInt8) :
    ByteSink.write (byte :: rest) (⟨memory, faults⟩ : FaultyStream)
      = if memory.position ∈ faults.writeInterrupts then
          .error interruption ⟨memory, { faults with
            writeInterrupts := faults.writeInterrupts.erase memory.position }⟩
        else if reached faults.writeFailAt? memory.position then
          .error (.worded .other "write fault") ⟨memory, faults⟩
        else if reached faults.writeZeroAt? memory.position then .ok 0 ⟨memory, faults⟩
        else
          let accepted := (byte :: rest).take (moved faults.writeMax? (faults.writeInterrupts
            ++ faults.writeFailAt?.toList ++ faults.writeZeroAt?.toList) memory.position
              (byte :: rest).length)
          .ok accepted.length ⟨memory.write accepted, faults⟩ := by
  have haccepted (limit? : Option Nat) : (limit?.map (byte :: rest).take).getD (byte :: rest)
      = (byte :: rest).take ((limit?.map (min (byte :: rest).length)).getD (byte :: rest).length) := by
    cases limit? with
    | none => exact List.take_length.symm
    | some limit =>
      show (byte :: rest).take limit = (byte :: rest).take (min (byte :: rest).length limit)
      rw [Nat.min_comm]
      exact List.take_eq_take_min
  show write (byte :: rest) ⟨memory, faults⟩ = _
  unfold write moved
  rw [← haccepted]
  rfl

/-- A byte is written to the calm stream in front of the next failure. -/
theorem writeAll_calm (byte : UInt8) (hroom : ∀ trigger ∈ faults.writeFailAt?.toList
      ++ faults.writeZeroAt?.toList, memory.position + 1 ≤ trigger) :
    writeAll [byte] (⟨memory, faults.calm⟩ : FaultyStream)
      = .ok () ⟨memory.write [byte], faults.calm⟩ := by
  have hfail : ¬ reached faults.calm.writeFailAt? memory.position = true :=
    Bool.eq_false_iff.mp <| not_reached.mpr fun trigger htrigger =>
      hroom trigger (List.mem_append_left _ (Option.mem_toList.mpr htrigger))
  have hzero : ¬ reached faults.calm.writeZeroAt? memory.position = true :=
    Bool.eq_false_iff.mp <| not_reached.mpr fun trigger htrigger =>
      hroom trigger (List.mem_append_right _ (Option.mem_toList.mpr htrigger))
  have hall : moved faults.calm.writeMax? (faults.calm.writeInterrupts
      ++ faults.calm.writeFailAt?.toList ++ faults.calm.writeZeroAt?.toList) memory.position
        [byte].length = 1 := moved_of_room hroom
  have hwrite : ByteSink.write [byte] (⟨memory, faults.calm⟩ : FaultyStream)
      = .ok 1 ⟨memory.write [byte], faults.calm⟩ := by
    rw [write_apply, if_neg (faults.notMem_writeInterrupts_calm _), if_neg hfail, if_neg hzero, hall]
    rfl
  unfold writeAll
  split
  · next hrun => cases hrun.symm.trans hwrite
  · next hrun =>
    cases hrun.symm.trans hwrite
    unfold writeAll
    rfl
  · next hrun => cases hrun.symm.trans hwrite

/-- Bytes are written one by one up to the next failure. -/
theorem writeSingly_calm (hroom : ∀ trigger ∈ faults.writeFailAt?.toList
      ++ faults.writeZeroAt?.toList, memory.position + (byte :: rest).length ≤ trigger) :
    writeSingly (byte :: rest) (⟨memory, faults.calm⟩ : FaultyStream)
      = .ok () ⟨memory.write (byte :: rest), faults.calm⟩ := by
  induction rest generalizing memory byte with
  | nil =>
    rw [writeSingly_singleton]
    exact writeAll_calm byte hroom
  | cons next rest ih =>
    have hone : ∀ trigger ∈ faults.writeFailAt?.toList ++ faults.writeZeroAt?.toList,
        memory.position + 1 ≤ trigger := fun trigger htrigger => by
      have := hroom trigger htrigger
      rw [List.length_cons, List.length_cons] at this
      omega
    have hroom' : ∀ trigger ∈ faults.writeFailAt?.toList ++ faults.writeZeroAt?.toList,
        (memory.write [byte]).position + (next :: rest).length ≤ trigger := fun trigger htrigger => by
      have := hroom trigger htrigger
      rw [List.length_cons, List.length_cons] at this
      show memory.position + 1 + (rest.length + 1) ≤ trigger
      omega
    rw [writeSingly, bind_of_ok (writeAll_calm byte hone), ih hroom', MemoryStream.write_write]
    rfl

/-- Where a write fails or finds no room, writing one byte to the calm stream does. -/
theorem writeSingly_calm_of_write {byte : UInt8} {error : IoError}
    (h : ByteSink.write [byte] (⟨memory, faults.calm⟩ : FaultyStream)
        = .error error ⟨memory, faults.calm⟩ ∧ error.isInterrupted = false ∨
      ByteSink.write [byte] (⟨memory, faults.calm⟩ : FaultyStream) = .ok 0 ⟨memory, faults.calm⟩ ∧
        error = writeZero) :
    writeSingly [byte] (⟨memory, faults.calm⟩ : FaultyStream)
      = .error error ⟨memory, faults.calm⟩ := by
  rw [writeSingly_singleton]
  unfold writeAll
  rcases h with ⟨hwrite, hsettled⟩ | ⟨hwrite, rfl⟩
  · split
    · next hrun => cases hrun.symm.trans hwrite
    · next hrun => cases hrun.symm.trans hwrite
    · next hrun =>
      cases hrun.symm.trans hwrite
      rw [dif_neg (Bool.eq_false_iff.mp hsettled)]
  · split
    · next hrun =>
      cases hrun.symm.trans hwrite
      rfl
    · next hrun => cases hrun.symm.trans hwrite
    · next hrun => cases hrun.symm.trans hwrite

end Writing

/-! ## Pace -/

/-- A stream and the calm one on the same memory, where a transfer may move some bytes. -/
structure Paces (stream ideal : FaultyStream) : Prop where
  eq_calm : ideal = ⟨stream.memory, stream.faults.calm⟩
  readMax : stream.faults.readMax? ≠ some 0
  writeMax : stream.faults.writeMax? ≠ some 0

/-- Streams on the same memory that fail alike pace the same one. -/
theorem inPace {first second : FaultyStream} (hmemory : first.memory = second.memory)
    (hfaults : first.faults.calm = second.faults.calm)
    (hmoves : first.faults.readMax? ≠ some 0 ∧ first.faults.writeMax? ≠ some 0)
    (hmoves' : second.faults.readMax? ≠ some 0 ∧ second.faults.writeMax? ≠ some 0) :
    InPace Paces Paces first second := by
  refine ⟨⟨first.memory, first.faults.calm⟩, ⟨rfl, hmoves.1, hmoves.2⟩, ?_⟩
  rw [hmemory, hfaults]
  exact ⟨rfl, hmoves'.1, hmoves'.2⟩

/-- **Faulty streams are read** at different paces alike. -/
theorem isPacedSource : IsPacedSource Paces where
  read := by
    rintro ⟨memory, faults⟩ _ count ⟨rfl, hread, hwrite⟩ hcount
    rw [read_apply hcount]
    split
    · exact .inl ⟨rfl, rfl, hread, hwrite⟩
    split
    next hfail =>
      exact .inr ⟨_, ⟨rfl, hread, hwrite⟩, readSingly_calm_of_reached hfail⟩
    next hfail =>
      obtain ⟨hmoved, hroom⟩ := moved_spec hread
        (faults.readInterrupts ++ faults.readFailAt?.toList) memory.position hcount
      generalize moved faults.readMax? (faults.readInterrupts ++ faults.readFailAt?.toList)
        memory.position count = taken at *
      have hopen := not_reached.mp (Bool.eq_false_iff.mpr hfail)
      have hlength := MemoryStream.length_read_le taken memory
      -- What is read at once is read one by one, and at the end both read nothing.
      have hsame : memory.read (max 1 (memory.read taken).1.length) = memory.read taken := by
        rw [MemoryStream.read_fst, List.length_take]
        rcases Nat.le_total taken memory.rest.length with hle | hle
        · rw [Nat.min_eq_left hle, Nat.max_eq_right (Nat.pos_of_ne_zero hmoved)]
        · rw [Nat.min_eq_right hle, MemoryStream.read_eq, MemoryStream.read_eq taken,
            List.take_of_length_le hle, List.take_of_length_le (Nat.le_max_right 1 _)]
      refine ⟨⟨(memory.read taken).2, faults.calm⟩, ⟨rfl, hread, hwrite⟩, ?_⟩
      show readSingly (max 1 (memory.read taken).1.length) _ = .ok (memory.read taken).1 _
      rw [readSingly_calm, hsame]
      intro trigger htrigger
      have := hroom trigger (List.mem_append_right _ (Option.mem_toList.mpr htrigger))
        (hopen trigger htrigger)
      show memory.position + _ ≤ trigger
      omega

/-- **Faulty streams are written** at different paces alike. -/
theorem isPacedSink : IsPacedSink Paces where
  write := by
    rintro ⟨memory, faults⟩ _ ⟨rfl, hread, hwrite⟩ byte rest
    rw [write_apply]
    split
    · exact .inl ⟨rfl, rfl, hread, hwrite⟩
    split
    next hfail =>
      refine .inr ⟨_, ⟨rfl, hread, hwrite⟩, writeSingly_calm_of_write (.inl ⟨?_, rfl⟩)⟩
      rw [write_apply, if_neg (faults.notMem_writeInterrupts_calm _)]
      exact if_pos hfail
    split
    next hfail hzero =>
      refine ⟨_, ⟨rfl, hread, hwrite⟩, .inr ⟨rfl, writeSingly_calm_of_write (.inr ⟨?_, rfl⟩)⟩⟩
      rw [write_apply, if_neg (faults.notMem_writeInterrupts_calm _)]
      exact (if_neg hfail).trans (if_pos hzero)
    next hfail hzero =>
      obtain ⟨hmoved, hroom⟩ := moved_spec hwrite
        (faults.writeInterrupts ++ faults.writeFailAt?.toList ++ faults.writeZeroAt?.toList)
        memory.position (Nat.succ_ne_zero rest.length : (byte :: rest).length ≠ 0)
      generalize moved faults.writeMax? (faults.writeInterrupts ++ faults.writeFailAt?.toList
        ++ faults.writeZeroAt?.toList) memory.position (byte :: rest).length = limit at *
      -- The calm stream has room up to the next failure, which this write does not pass.
      obtain ⟨limit, rfl⟩ := Nat.exists_eq_succ_of_ne_zero hmoved
      have hopen := not_reached.mp (Bool.eq_false_iff.mpr hfail)
      have hplace := not_reached.mp (Bool.eq_false_iff.mpr hzero)
      have hlength : (rest.take limit).length ≤ limit := List.length_take_le _ _
      refine ⟨⟨memory.write ((byte :: rest).take (limit + 1)), faults.calm⟩,
        ⟨rfl, hread, hwrite⟩, .inl ⟨Nat.succ_ne_zero _, ?_⟩⟩
      have hagain : (byte :: rest).take ((byte :: rest).take (limit + 1)).length
          = byte :: rest.take limit := by
        rw [List.take_succ_cons, List.length_cons, List.take_succ_cons, List.length_take,
          ← List.take_eq_take_min]
      rw [hagain, List.take_succ_cons]
      refine writeSingly_calm fun trigger htrigger => ?_
      have hbehind : memory.position < trigger := by
        rcases List.mem_append.mp htrigger with hmem | hmem
        · exact hopen trigger (Option.mem_toList.mp hmem)
        · exact hplace trigger (Option.mem_toList.mp hmem)
      have := hroom trigger (by rw [List.append_assoc]; exact List.mem_append_right _ htrigger) hbehind
      show memory.position + ((rest.take limit).length + 1) ≤ trigger
      omega

/-- **Faulty streams are storages** at different paces alike. -/
theorem isPacedStorage : IsPacedStorage memory memory Paces where
  toIsPacedSource := isPacedSource
  toIsPacedSink := isPacedSink
  flush := by
    rintro ⟨memory, faults⟩ _ ⟨rfl, hread, hwrite⟩
    show Agree Paces (if faults.flushFails then _ else _) (if faults.flushFails then _ else _)
    split
    · exact .error ⟨rfl, hread, hwrite⟩
    · exact .ok ⟨rfl, hread, hwrite⟩
  tell := by
    rintro ⟨memory, faults⟩ _ ⟨rfl, hread, hwrite⟩
    show Agree Paces (if faults.tellFails then _ else _) (if faults.tellFails then _ else _)
    split
    · exact .error ⟨rfl, hread, hwrite⟩
    · exact .ok ⟨rfl, hread, hwrite⟩
  seekTo position := by
    rintro ⟨memory, faults⟩ _ ⟨rfl, hread, hwrite⟩
    show Agree Paces (if position ∈ faults.refusedSeeks then _ else _)
      (if position ∈ faults.refusedSeeks then _ else _)
    split
    · exact .error ⟨rfl, hread, hwrite⟩
    · exact .ok ⟨rfl, hread, hwrite⟩
  shows := by
    rintro ⟨memory, faults⟩ _ ⟨rfl, -, -⟩
    rfl

end FaultyStream

end RecordArchive
