import LineBasic.Machine.Sink

/-!
# Bounded sinks

A sink takes as many bytes as it can hold in all, however they are cut into writes.  A sink that
holds less than another one has therefore taken a prefix of what the other has.
-/

namespace LineBasic

theorem extract_zero_of_size_le {bytes : ByteArray} {count : Nat} (hsize : bytes.size ≤ count) :
    bytes.extract 0 count = bytes := by
  rw [← Nat.max_eq_left hsize, ByteArray.extract_zero_max_size]

/-- What is cut off anyway may be cut off of the first part at once. -/
theorem extract_append_of_extract (first second : ByteArray) (count : Nat) :
    (first.extract 0 count ++ second).extract 0 count = (first ++ second).extract 0 count := by
  rw [ByteArray.extract_append, ByteArray.extract_append, ByteArray.extract_extract]
  simp only [ByteArray.size_extract, Nat.sub_zero, Nat.zero_sub, Nat.zero_add, Nat.min_self]
  congr 2
  omega

namespace Sink

/-- The number of bytes that the sink takes in all, if there is a bound. -/
def capacity (sink : Sink) : Option Nat :=
  sink.room.map (sink.written.size + ·)

theorem written_le_of_capacity {sink : Sink} {capacity : Nat}
    (hcapacity : sink.capacity = some capacity) : sink.written.size ≤ capacity := by
  simp only [Sink.capacity, Option.map_eq_some_iff] at hcapacity
  obtain ⟨room, -, rfl⟩ := hcapacity
  exact Nat.le_add_right _ _

@[simp]
theorem capacity_write (sink : Sink) (bytes : ByteArray) :
    (sink.write bytes).capacity = sink.capacity := by
  obtain ⟨written, _ | room⟩ := sink
  · rfl
  · simp only [write, capacity, Option.map_some, ByteArray.size_append, ByteArray.size_extract]
    congr 1
    omega

theorem fits_iff {sink : Sink} {bytes : ByteArray} :
    sink.fits bytes = true ↔
      ∀ capacity, sink.capacity = some capacity → sink.written.size + bytes.size ≤ capacity := by
  obtain ⟨written, _ | room⟩ := sink <;> simp [fits, capacity]

theorem fits_eq_false_iff {sink : Sink} {bytes : ByteArray} :
    sink.fits bytes = false ↔
      ∃ capacity, sink.capacity = some capacity ∧ capacity < sink.written.size + bytes.size := by
  rw [← Bool.not_eq_true, fits_iff]
  simp

theorem written_write_of_capacity {sink : Sink} {capacity : Nat}
    (hcapacity : sink.capacity = some capacity) (bytes : ByteArray) :
    (sink.write bytes).written = (sink.written ++ bytes).extract 0 capacity := by
  obtain ⟨written, _ | room⟩ := sink
  · simp [Sink.capacity] at hcapacity
  · simp only [Sink.capacity, Option.map_some, Option.some.injEq] at hcapacity
    subst hcapacity
    rw [ByteArray.extract_append, extract_zero_of_size_le (Nat.le_add_right _ _), Nat.zero_sub,
      Nat.add_sub_cancel_left, write]

theorem written_write_of_fits {sink : Sink} {bytes : ByteArray} (hfits : sink.fits bytes = true) :
    (sink.write bytes).written = sink.written ++ bytes := by
  obtain ⟨written, _ | room⟩ := sink
  · rfl
  · simp only [fits, decide_eq_true_eq] at hfits
    rw [write, extract_zero_of_size_le hfits]

theorem size_le_size_write (sink : Sink) (bytes : ByteArray) :
    sink.written.size ≤ (sink.write bytes).written.size := by
  obtain ⟨written, _ | room⟩ := sink <;> simp [write, ByteArray.size_append]

/-- A sink that holds no more bytes stays as it is. -/
theorem write_of_capacity_eq_size {sink : Sink} (hfull : sink.capacity = some sink.written.size)
    (bytes : ByteArray) : sink.write bytes = sink := by
  obtain ⟨written, _ | room⟩ := sink
  · simp [capacity] at hfull
  · obtain rfl : room = 0 := by simpa [capacity] using hfull
    simp [write]

/-- Of two sinks with the same written to them, the second one holds `bound` bytes, and the first
one holds as many or more. -/
structure Truncates (bound : Nat) (full cut : Sink) : Prop where
  written : cut.written = full.written.extract 0 bound
  capacity : cut.capacity = some bound
  bound_le : ∀ capacity, full.capacity = some capacity → bound ≤ capacity

variable {bound : Nat} {full cut : Sink}

theorem truncates_empty {bound : Nat} {room : Option Nat}
    (hbound : ∀ capacity, room = some capacity → bound ≤ capacity) :
    Truncates bound { room := room } { room := some bound } where
  written := by simp [extract_zero_of_size_le]
  capacity := by simp [Sink.capacity]
  bound_le := by simpa [Sink.capacity] using hbound

theorem Truncates.write (htruncates : Truncates bound full cut) (bytes : ByteArray) :
    Truncates bound (full.write bytes) (cut.write bytes) where
  written := by
    rw [written_write_of_capacity htruncates.capacity, htruncates.written,
      extract_append_of_extract]
    cases hcapacity : full.capacity with
    | none =>
      rw [written_write_of_fits]
      simp [fits_iff, hcapacity]
    | some capacity =>
      rw [written_write_of_capacity hcapacity, ByteArray.extract_extract]
      have hbound := htruncates.bound_le capacity hcapacity
      congr 1
      omega
  capacity := by rw [capacity_write, htruncates.capacity]
  bound_le := by simpa using htruncates.bound_le

/-- Behind the bound, the second sink stays as it is. -/
theorem Truncates.write_left (htruncates : Truncates bound full cut)
    (hsize : bound ≤ full.written.size) (bytes : ByteArray) :
    Truncates bound (full.write bytes) cut := by
  have hfull : cut.capacity = some cut.written.size := by
    rw [htruncates.capacity, htruncates.written, ByteArray.size_extract]
    congr 1
    omega
  have hwrite := htruncates.write bytes
  rwa [write_of_capacity_eq_size hfull] at hwrite

/-- What is written behind the bound does not get into the second sink. -/
theorem truncates_write (full : Sink) (bytes : ByteArray)
    (hfull : full.Truncates bound cut ∧ bound < full.written.size) :
    (full.write bytes).Truncates bound cut ∧ bound < (full.write bytes).written.size := by
  obtain ⟨htruncates, hsize⟩ := hfull
  exact ⟨htruncates.write_left (Nat.le_of_lt hsize) bytes,
    Nat.lt_of_lt_of_le hsize (full.size_le_size_write bytes)⟩

/-- Before the bound is reached, the second sink refuses what goes beyond it. -/
theorem Truncates.fits_iff (htruncates : Truncates bound full cut)
    (hsize : full.written.size ≤ bound) (bytes : ByteArray) :
    cut.fits bytes = true ↔ full.written.size + bytes.size ≤ bound := by
  rw [Sink.fits_iff, htruncates.capacity, htruncates.written, extract_zero_of_size_le hsize]
  simp

/-- Before the bound is reached, the first sink takes what the second one takes. -/
theorem Truncates.fits (htruncates : Truncates bound full cut) {bytes : ByteArray}
    (hsize : full.written.size + bytes.size ≤ bound) : full.fits bytes = true := by
  rw [Sink.fits_iff]
  intro capacity hcapacity
  exact Nat.le_trans hsize (htruncates.bound_le capacity hcapacity)

end Sink

end LineBasic
