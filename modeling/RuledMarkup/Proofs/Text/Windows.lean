import RuledMarkup.Text.Slice

/-!
# Slices of slices

A window is a slice of a source.  A slice of a window is the slice of the source at the same place,
moved up by the start of the window, so that a position may be counted from either.

## Main definitions

* `byteSize` : the number of bytes of characters.

## Main results

* `slice?_shift` : slices of a window are slices of its source.
* `slice?_append_left`, `slice?_append_right` : the parts of a text that is put together.
* `slice?_append` : two slices that meet.
* `exists_run`, `append_inj_of_head?` : a text is parted in one way where a run of characters ends.
-/

namespace RuledMarkup.Text

theorem ByteRange.isEmpty_eq_true_iff {r : ByteRange} : r.isEmpty = true ↔ r.stop ≤ r.start :=
  decide_eq_true_iff

theorem ByteRange.isEmpty_eq_false_iff {r : ByteRange} : r.isEmpty = false ↔ r.start < r.stop := by
  rw [ByteRange.isEmpty, decide_eq_false_iff_not, Nat.not_le]

/-- Of two beginnings of a text, the shorter one is a beginning of the longer one. -/
theorem exists_append_of_append_eq {a b x y : String} (h : a ++ x = b ++ y)
    (hab : a.utf8ByteSize ≤ b.utf8ByteSize) : ∃ c, b = a ++ c ∧ x = c ++ y := by
  have hl : a.toList ++ x.toList = b.toList ++ y.toList := by
    rw [← String.toList_append, ← String.toList_append, h]
  rcases List.append_eq_append_iff.1 hl with ⟨c, hb, hx⟩ | ⟨c, ha, hy⟩
  · refine ⟨String.ofList c, ?_, ?_⟩ <;> rw [← String.toList_inj] <;> simp [hb, hx]
  · have ha' : a = b ++ String.ofList c := by rw [← String.toList_inj]; simp [ha]
    have hc : String.ofList c = "" := by
      have hsize := congrArg String.utf8ByteSize ha'
      rw [String.utf8ByteSize_append] at hsize
      exact String.utf8ByteSize_eq_zero_iff.1 (by omega)
    have hy' : y = x := by
      rw [← String.toList_inj, hy]
      simpa using hc
    exact ⟨"", by rw [ha', hc, String.append_empty, String.append_empty],
      by rw [hy', String.empty_append]⟩

/-- A run of characters ends where a character of another kind stands. -/
theorem takeWhile_append_of_head? {p : Char → Bool} {u x : List Char} (hu : ∀ c ∈ u, p c = true)
    (hx : ∀ c ∈ x.head?, p c = false) : (u ++ x).takeWhile p = u := by
  rw [List.takeWhile_append_of_pos hu]
  cases x with
  | nil => simp
  | cons c x => rw [List.takeWhile_cons_of_neg (by simpa using hx c rfl), List.append_nil]

/-- A text can be parted into a run of characters and what does not begin with such a character. -/
theorem exists_run (p : Char → Bool) (text : List Char) :
    ∃ u x, text = u ++ x ∧ (∀ c ∈ u, p c = true) ∧ ∀ c ∈ x.head?, p c = false := by
  refine ⟨text.takeWhile p, text.dropWhile p, List.takeWhile_append_dropWhile.symm,
    List.all_eq_true.1 List.all_takeWhile, fun c hc => ?_⟩
  have hhead := List.head?_dropWhile_not p text
  rwa [Option.mem_def.1 hc] at hhead

/-- There is only one way to part a text into a run of characters and what does not begin with such
a character. -/
theorem append_inj_of_head? {p : Char → Bool} {u v x y : List Char} (hu : ∀ c ∈ u, p c = true)
    (hv : ∀ c ∈ v, p c = true) (hx : ∀ c ∈ x.head?, p c = false) (hy : ∀ c ∈ y.head?, p c = false)
    (h : u ++ x = v ++ y) : u = v ∧ x = y := by
  obtain rfl : u = v := by
    rw [← takeWhile_append_of_head? hu hx, h, takeWhile_append_of_head? hv hy]
  exact ⟨rfl, List.append_cancel_left h⟩

/-- Slices of a window are slices of its source. -/
theorem slice?_shift {source window : String} {r span : ByteRange}
    (h : slice? source r = some window) (hspan : span.stop ≤ window.utf8ByteSize) :
    slice? source (span.shift r.start) = slice? window span := by
  obtain ⟨a, b, rfl, ha, -⟩ := slice?_eq_some_iff.1 h
  ext t
  simp only [slice?_eq_some_iff, ByteRange.shift]
  constructor
  · rintro ⟨a', b', heq, ha', hb'⟩
    obtain ⟨c, rfl, hw⟩ := exists_append_of_append_eq
      (a := a) (b := a') (x := window ++ b) (y := t ++ b')
      (by simpa only [String.append_assoc] using heq) (by omega)
    rw [String.utf8ByteSize_append] at ha'
    obtain ⟨d, rfl, -⟩ := exists_append_of_append_eq
      (a := c ++ t) (b := window) (x := b') (y := b)
      (by rw [hw, String.append_assoc]) (by rw [String.utf8ByteSize_append]; omega)
    exact ⟨c, d, rfl, by omega, by omega⟩
  · rintro ⟨c, d, rfl, hc, hd⟩
    refine ⟨a ++ c, d ++ b, by simp only [String.append_assoc], ?_, by omega⟩
    rw [String.utf8ByteSize_append]
    omega

/-- The first piece of a text. -/
theorem slice?_append_left (a b : String) : slice? (a ++ b) ⟨0, a.utf8ByteSize⟩ = some a :=
  slice?_eq_some_iff.2 ⟨"", b, by simp, by simp, by simp⟩

/-- The last piece of a text. -/
theorem slice?_append_right (a b : String) :
    slice? (a ++ b) ⟨a.utf8ByteSize, (a ++ b).utf8ByteSize⟩ = some b :=
  slice?_eq_some_iff.2 ⟨a, "", by simp, rfl, by simp⟩

/-- The whole text. -/
theorem slice?_self (s : String) : slice? s ⟨0, s.utf8ByteSize⟩ = some s :=
  slice?_eq_some_iff.2 ⟨"", "", by simp, by simp, by simp⟩

theorem slice_of_slice? {s t : String} {r : ByteRange} (h : slice? s r = some t) :
    slice s r = t := by
  rw [slice, h, Option.getD_some]

/-- A slice has as many bytes as its range. -/
theorem utf8ByteSize_of_slice? {s t : String} {r : ByteRange} (h : slice? s r = some t) :
    r.start + t.utf8ByteSize = r.stop := by
  obtain ⟨-, -, -, -, hr⟩ := slice?_eq_some_iff.1 h
  exact hr

/-- A slice ends within its text. -/
theorem stop_le_of_slice? {s t : String} {r : ByteRange} (h : slice? s r = some t) :
    r.stop ≤ s.utf8ByteSize := by
  obtain ⟨a, b, rfl, ha, hr⟩ := slice?_eq_some_iff.1 h
  simp only [String.utf8ByteSize_append]
  omega

/-- Two slices that meet. -/
theorem slice?_append {s t u : String} {i j k : Nat} (h : slice? s ⟨i, j⟩ = some t)
    (h' : slice? s ⟨j, k⟩ = some u) : slice? s ⟨i, k⟩ = some (t ++ u) := by
  obtain ⟨a, b, rfl, ha, hj⟩ := slice?_eq_some_iff.1 h
  obtain ⟨c, d, heq, hc, hk⟩ := slice?_eq_some_iff.1 h'
  simp only at ha hj hc hk
  have hsize : c.utf8ByteSize = (a ++ t).utf8ByteSize := by
    rw [String.utf8ByteSize_append]
    omega
  have hb : b = u ++ d := by
    obtain ⟨e, he, hb⟩ := exists_append_of_append_eq (a := a ++ t) (b := c) (x := b) (y := u ++ d)
      (by rw [heq, String.append_assoc]) (Nat.le_of_eq hsize.symm)
    rw [he, String.utf8ByteSize_append] at hsize
    obtain rfl : e = "" := String.utf8ByteSize_eq_zero_iff.1 (by omega)
    rw [hb, String.empty_append]
  refine slice?_eq_some_iff.2 ⟨a, d, by rw [hb]; simp only [String.append_assoc], ha, ?_⟩
  simp only [String.utf8ByteSize_append]
  omega

/-- What a boundary parts a text into. -/
theorem exists_append_of_isBoundary {s : String} {i : Nat} (h : isBoundary s i = true) :
    ∃ b, s = slice s ⟨0, i⟩ ++ b ∧ (slice s ⟨0, i⟩).utf8ByteSize = i ∧
      slice? s ⟨i, s.utf8ByteSize⟩ = some b := by
  obtain ⟨a, b, rfl, rfl⟩ := isBoundary_iff.1 h
  rw [slice_of_slice? (slice?_append_left a b)]
  exact ⟨b, rfl, rfl, slice?_append_right a b⟩

/-! ### Characters -/

/-- The number of bytes of characters. -/
def byteSize (chars : List Char) : Nat := (String.ofList chars).utf8ByteSize

@[simp] theorem byteSize_nil : byteSize [] = 0 := by simp [byteSize]

@[simp] theorem byteSize_append (a b : List Char) :
    byteSize (a ++ b) = byteSize a + byteSize b := by
  simp [byteSize, String.ofList_append]

@[simp] theorem byteSize_cons (c : Char) (chars : List Char) :
    byteSize (c :: chars) = c.utf8Size + byteSize chars := by
  have hone : byteSize [c] = c.utf8Size := by
    rw [byteSize, ← String.singleton_eq_ofList, String.utf8ByteSize_singleton]
  rw [← List.singleton_append, byteSize_append, hone]

@[simp] theorem byteSize_toList (s : String) : byteSize s.toList = s.utf8ByteSize := by
  rw [byteSize, String.ofList_toList]

theorem byteSize_eq_zero_iff {chars : List Char} : byteSize chars = 0 ↔ chars = [] := by
  rw [byteSize, String.utf8ByteSize_eq_zero_iff, String.ofList_eq_empty_iff]

/-- A piece of a text that is given by its characters. -/
theorem slice?_of_toList {s : String} {a t b : List Char} (h : s.toList = a ++ t ++ b) :
    slice? s ⟨byteSize a, byteSize a + byteSize t⟩ = some (String.ofList t) := by
  have hs : s = String.ofList a ++ String.ofList t ++ String.ofList b := by
    rw [← String.ofList_append, ← String.ofList_append, ← h, String.ofList_toList]
  exact slice?_eq_some_iff.2 ⟨_, _, hs, rfl, rfl⟩

end RuledMarkup.Text
