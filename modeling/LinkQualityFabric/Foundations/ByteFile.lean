import LinkQualityFabric.Foundations.LittleEndian

/-! A byte file behind a positioned stream.

The contents of a file are a byte list. A stream on it is a position: reading and writing start there
and move it behind the bytes transferred. Writing replaces what is under it and extends the file when
it runs over the end, so only a stream that stands at the end appends. -/
namespace Foundations
set_option autoImplicit false

/-- What `count` bytes read at `position` give: fewer when the file ends first. -/
def readAt (contents : Bytes) (position count : ℕ) : Bytes := (contents.drop position).take count

def writeAt (contents : Bytes) (position : ℕ) (data : Bytes) : Bytes :=
  contents.take position ++ data ++ contents.drop (position + data.length)

variable (contents : Bytes) (position count : ℕ) (data : Bytes)

theorem readAt_length_le : (readAt contents position count).length ≤ count := List.length_take_le _ _

theorem readAt_length : (readAt contents position count).length = min count (contents.length - position) := by
  simp [readAt]

theorem readAt_append (before after : Bytes) (count : ℕ) :
    readAt (before ++ after) before.length count = after.take count := by
  simp [readAt]

theorem readAt_append_add (before after : Bytes) (offset count : ℕ) :
    readAt (before ++ after) (before.length + offset) count = readAt after offset count := by
  rw [readAt, ← List.drop_drop, List.drop_left, readAt]

theorem readAt_self :
    readAt contents position (readAt contents position count).length = readAt contents position count := by
  rw [readAt_length, readAt, readAt, List.take_eq_take_iff, List.length_drop]
  omega

theorem readAt_add (first second : ℕ) : readAt contents position (first + second) =
      readAt contents position first ++ readAt contents (position + first) second := by
  rw [readAt, readAt, readAt, List.take_add, List.drop_drop]

theorem writeAt_end : writeAt contents contents.length data = contents ++ data := by
  simp [writeAt]

theorem writeAt_length (h : position ≤ contents.length) :
    (writeAt contents position data).length = max contents.length (position + data.length) := by
  simp only [writeAt, List.length_append, List.length_take, List.length_drop]
  omega

end Foundations
