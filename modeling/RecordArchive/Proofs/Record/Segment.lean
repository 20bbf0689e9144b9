import RecordArchive.Proofs.Record.Codec

/-! # Records with their payloads

A `Segment` is a record with the payload behind it on a stream, and `Segment.IsSound` says that the
record describes that payload. -/

namespace RecordArchive

/-- A record with the payload behind it. -/
structure Segment where
  record : Record
  payload : List UInt8
  deriving DecidableEq, Repr

namespace Segment

/-- The bytes of record and payload. -/
def toBytes (segment : Segment) : List UInt8 := segment.record.toBytes ++ segment.payload

/-- **The record describes its payload**: there is none without a size field, and otherwise it has
the announced size and, if the record gives one, the announced checksum. -/
structure IsSound (segment : Segment) : Prop where
  normal : segment.record.IsNormal
  length : segment.payload.length =
    if segment.record.hasAddedSize then segment.record.addedSize.toNat else 0
  crc : segment.record.hasAddedSize = true → segment.record.hasAddedCrc = true →
    segment.record.addedCrc = crc32c 0 segment.payload

/-- Without a size field there is no payload. -/
theorem IsSound.payload_eq_nil {segment : Segment} (h : segment.IsSound)
    (habsent : ¬ segment.record.hasAddedSize = true) : segment.payload = [] := by
  have hlength := h.length
  rw [if_neg habsent] at hlength
  exact List.length_eq_zero_iff.mp hlength

/-- The payload has the announced size, which is zero where there is no room for it. -/
theorem IsSound.length_eq {segment : Segment} (h : segment.IsSound) :
    segment.payload.length = segment.record.addedSize.toNat := by
  by_cases hpresent : segment.record.hasAddedSize = true
  · have hlength := h.length
    rwa [if_pos hpresent] at hlength
  · rw [h.payload_eq_nil hpresent, h.normal.addedSize_eq_zero (Bool.not_eq_true _ ▸ hpresent)]
    rfl

end Segment

/-- The bytes that segments in a row take. -/
def segmentBytes (segments : List Segment) : List UInt8 := segments.flatMap Segment.toBytes

/-- The payloads of segments in a row. -/
def contentOf (segments : List Segment) : List UInt8 := segments.flatMap Segment.payload

@[simp] theorem segmentBytes_nil : segmentBytes [] = [] := rfl

/-- The first record comes first, with its payload. -/
@[simp] theorem segmentBytes_cons (segment : Segment) (more : List Segment) :
    segmentBytes (segment :: more) = segment.toBytes ++ segmentBytes more := rfl

/-- Records behind others have their bytes behind those. -/
@[simp] theorem segmentBytes_append (front back : List Segment) :
    segmentBytes (front ++ back) = segmentBytes front ++ segmentBytes back :=
  List.flatMap_append

/-- The first payload comes first. -/
@[simp] theorem contentOf_cons (segment : Segment) (more : List Segment) :
    contentOf (segment :: more) = segment.payload ++ contentOf more := rfl

end RecordArchive
