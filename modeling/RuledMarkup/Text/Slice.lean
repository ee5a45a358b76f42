/-!
# Byte ranges and slices of text

Positions in a text count the bytes of its UTF-8 form.  A range of bytes names a slice of the text
if it is in order, ends within the text, and cuts no character in two.

## Main definitions

* `ByteRange` : the bytes from `start` up to, but not including, `stop`.
* `slice?` : the text in a range of bytes, if the range names one.

## Main results

* `slice?_eq_some_iff` : a slice is what stands between a text of `start` bytes and the rest.
-/

namespace RuledMarkup.Text

/-- The number of machine words. -/
def wordCount : Nat := UInt64.size

/-- The bytes from `start` up to, but not including, `stop`. -/
structure ByteRange where
  start : Nat
  stop : Nat
deriving DecidableEq, Repr, Inhabited

namespace ByteRange

/-- The number of bytes in the range, none if it is reversed. -/
def size (r : ByteRange) : Nat := r.stop - r.start

/-- Does the range hold no byte? -/
def isEmpty (r : ByteRange) : Bool := r.stop ≤ r.start

/-- Is the byte at `i` in the range? -/
def contains (r : ByteRange) (i : Nat) : Bool := r.start ≤ i && i < r.stop

/-- The range moved up by `n` bytes. -/
def shift (n : Nat) (r : ByteRange) : ByteRange := ⟨r.start + n, r.stop + n⟩

/-- The range moved up by `n` bytes in machine words, where sums go round. -/
def wrappingShift (n : Nat) (r : ByteRange) : ByteRange :=
  ⟨(r.start + n) % wordCount, (r.stop + n) % wordCount⟩

@[simp] theorem shift_zero (r : ByteRange) : r.shift 0 = r := rfl

theorem shift_shift (m n : Nat) (r : ByteRange) : (r.shift m).shift n = r.shift (m + n) := by
  simp [shift, Nat.add_assoc]

theorem wrappingShift_eq {n : Nat} {r : ByteRange} (hstart : r.start + n < wordCount)
    (hstop : r.stop + n < wordCount) : r.wrappingShift n = r.shift n := by
  rw [wrappingShift, shift, Nat.mod_eq_of_lt hstart, Nat.mod_eq_of_lt hstop]

theorem size_shift (n : Nat) (r : ByteRange) : (r.shift n).size = r.size := by
  simp [shift, size]; omega

end ByteRange

/-- Does byte `i` of the text start a character, or is it the end of the text? -/
def isBoundary (s : String) (i : Nat) : Bool := String.Pos.Raw.isValid s ⟨i⟩

/-- The text in a range of bytes, if the range is in order, within the text and between
characters. -/
def slice? (s : String) (r : ByteRange) : Option String :=
  if h : r.start ≤ r.stop ∧ isBoundary s r.start = true ∧ isBoundary s r.stop = true then
    some (s.extract ⟨⟨r.start⟩, String.Pos.Raw.isValid_eq_true_iff.1 h.2.1⟩
      ⟨⟨r.stop⟩, String.Pos.Raw.isValid_eq_true_iff.1 h.2.2⟩)
  else none

/-- The text in a range of bytes, empty if the range names no slice. -/
def slice (s : String) (r : ByteRange) : String := (slice? s r).getD ""

/-- The boundaries of a text are the byte counts of its initial pieces. -/
theorem isBoundary_iff {s : String} {i : Nat} :
    isBoundary s i = true ↔ ∃ a b, s = a ++ b ∧ a.utf8ByteSize = i := by
  rw [isBoundary, String.Pos.Raw.isValid_eq_true_iff, String.Pos.Raw.isValid_iff_exists_append]
  refine exists_congr fun a => exists_congr fun b => and_congr_right fun _ => ?_
  rw [String.Pos.Raw.ext_iff, String.byteIdx_rawEndPos]
  exact eq_comm

theorem isBoundary_zero (s : String) : isBoundary s 0 = true :=
  isBoundary_iff.2 ⟨"", s, by simp, by simp⟩

theorem isBoundary_utf8ByteSize (s : String) : isBoundary s s.utf8ByteSize = true :=
  isBoundary_iff.2 ⟨s, "", by simp, rfl⟩

theorem le_of_isBoundary {s : String} {i : Nat} (h : isBoundary s i = true) :
    i ≤ s.utf8ByteSize := by
  obtain ⟨a, b, rfl, rfl⟩ := isBoundary_iff.1 h
  simp

/-- A slice exists exactly for ranges in order whose ends are boundaries. -/
theorem isSome_slice?_iff {s : String} {r : ByteRange} :
    (slice? s r).isSome = true ↔
      r.start ≤ r.stop ∧ isBoundary s r.start = true ∧ isBoundary s r.stop = true := by
  unfold slice?
  split <;> simp_all

/-- A slice is what stands between a piece of `start` bytes and the rest of the text. -/
theorem slice?_eq_some_iff {s t : String} {r : ByteRange} :
    slice? s r = some t ↔
      ∃ a b, s = a ++ t ++ b ∧ a.utf8ByteSize = r.start ∧ r.start + t.utf8ByteSize = r.stop := by
  constructor
  · intro h
    have hv := isSome_slice?_iff.1 (Option.isSome_iff_exists.2 ⟨t, h⟩)
    obtain ⟨a, a', ha, ha'⟩ := isBoundary_iff.1 hv.2.1
    obtain ⟨b', b, hb, hb'⟩ := isBoundary_iff.1 hv.2.2
    have ht : t.toByteArray = s.toByteArray.extract r.start r.stop := by
      rw [slice?, dif_pos hv] at h
      rw [← Option.some.inj h, String.toByteArray_extract]
    have hsize : t.utf8ByteSize = r.stop - r.start := by
      rw [← String.size_toByteArray, ht, ByteArray.size_extract, String.size_toByteArray]
      have := le_of_isBoundary hv.2.2
      omega
    refine ⟨a, b, ?_, ha', by omega⟩
    rw [← String.toByteArray_inj]
    have hA : a.toByteArray = s.toByteArray.extract 0 r.start := by
      rw [ha, String.toByteArray_append, ByteArray.extract_append_eq_left]
      rw [String.size_toByteArray, ha']
    have hB : b.toByteArray = s.toByteArray.extract r.stop s.toByteArray.size := by
      rw [hb, String.toByteArray_append, ByteArray.extract_append_eq_right]
      · rw [String.size_toByteArray, hb']
      · simp
    rw [String.toByteArray_append, String.toByteArray_append, hA, ht, hB,
      ByteArray.extract_append_extract, Nat.zero_min, Nat.max_eq_right hv.1,
      ByteArray.extract_append_extract, Nat.zero_min, Nat.max_eq_right, ByteArray.extract_zero_size]
    rw [String.size_toByteArray]
    exact le_of_isBoundary hv.2.2
  · rintro ⟨a, b, rfl, ha, hb⟩
    have hv : r.start ≤ r.stop ∧ isBoundary (a ++ t ++ b) r.start = true ∧
        isBoundary (a ++ t ++ b) r.stop = true :=
      ⟨by omega, isBoundary_iff.2 ⟨a, t ++ b, by rw [String.append_assoc], ha⟩,
        isBoundary_iff.2 ⟨a ++ t, b, rfl, by rw [String.utf8ByteSize_append]; omega⟩⟩
    rw [slice?, dif_pos hv, Option.some.injEq, ← String.toByteArray_inj,
      String.toByteArray_extract, String.toByteArray_append, String.toByteArray_append,
      ByteArray.append_assoc]
    have h := @ByteArray.extract_append_size_add a.toByteArray (t.toByteArray ++ b.toByteArray)
      0 t.utf8ByteSize
    rw [String.size_toByteArray, ha, hb, Nat.add_zero] at h
    rw [h, ByteArray.extract_append_eq_left (String.size_toByteArray).symm]

end RuledMarkup.Text
