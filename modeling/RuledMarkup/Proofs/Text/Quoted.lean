import Mathlib.Data.List.Basic
import RuledMarkup.Proofs.Text.Windows
import RuledMarkup.Text.Layout
import RuledMarkup.Text.Numeral
import RuledMarkup.Text.Quoted

/-!
# Quoted texts can be told apart

A quoted text stands on one line and can be read back.  No form in which a character is written
between the quotes is the beginning of another one, and none begins with a quote, so it is plain
from a text that begins with a quoted text where that ends and what it quotes.

## Main definitions

* `Text.ReadsBack` : values are read back from what is written.
* `Text.Written` : the forms in which characters are written between quotes.

## Main results

* `Text.Written.eq_of_append` : characters are read back one by one.
* `Text.readsBack_quote` : quoted texts are read back.
* `Text.line_end_notMem_quote` : a quoted text stands on one line.
-/

namespace RuledMarkup.Text

variable {c d : Char} {u v x y : List Char}

/-! ### Texts that are read back -/

/-- From a text that begins with a written value it is plain what that value is, and what follows
it. -/
def ReadsBack {α : Type} (write : α → String) : Prop :=
  ∀ ⦃a b x y⦄, (write a).toList ++ x = (write b).toList ++ y → a = b ∧ x = y

namespace ReadsBack

variable {α β : Type} {write : α → String} {write' : β → String}

theorem injective (h : ReadsBack write) : Function.Injective write := fun a b hab =>
  (h (x := []) (y := []) (by rw [hab])).1

/-- A value with a text before it. -/
theorem before (h : ReadsBack write) (text : String) : ReadsBack fun a => text ++ write a := by
  intro a b x y hab
  simp only [String.toList_append, List.append_assoc] at hab
  exact h (List.append_cancel_left hab)

/-- A value with a text after it. -/
theorem after (h : ReadsBack write) (text : String) : ReadsBack fun a => write a ++ text := by
  intro a b x y hab
  simp only [String.toList_append, List.append_assoc] at hab
  obtain ⟨rfl, hrest⟩ := h hab
  exact ⟨rfl, List.append_cancel_left hrest⟩

/-- Two values, one after the other. -/
theorem pair (h : ReadsBack write) (h' : ReadsBack write') :
    ReadsBack fun pair : α × β => write pair.1 ++ write' pair.2 := by
  rintro ⟨a, a'⟩ ⟨b, b'⟩ x y hab
  simp only [String.toList_append, List.append_assoc] at hab
  obtain ⟨rfl, hab'⟩ := h hab
  obtain ⟨rfl, rfl⟩ := h' hab'
  exact ⟨rfl, rfl⟩

/-- An optional value. -/
theorem option (h : ReadsBack write) :
    ReadsBack fun a : Option α => Layout.compact.option (a.map write) := by
  have hsome : ReadsBack fun a => "Some(" ++ write a ++ ")" := (h.before _).after _
  rintro (_ | a) (_ | b) x y hab
  · exact ⟨rfl, List.append_cancel_left hab⟩
  · simp [Layout.option, Layout.tuple, Layout.enclose] at hab
  · simp [Layout.option, Layout.tuple, Layout.enclose] at hab
  · obtain ⟨rfl, rfl⟩ := hsome (a := a) (b := b) (x := x) (y := y) (by
      simpa [Layout.option, Layout.tuple, Layout.enclose] using hab)
    exact ⟨rfl, rfl⟩

end ReadsBack

/-! ### Numbers in hexadecimal -/

theorem numeralFrom?_append (base found : Nat) (a b : List Char) :
    numeralFrom? base found (a ++ b) =
      (numeralFrom? base found a).bind (numeralFrom? base · b) := by
  induction a generalizing found with
  | nil => rfl
  | cons c a ih =>
    rw [List.cons_append, numeralFrom?, numeralFrom?]
    cases digit? base c with
    | none => rfl
    | some d => exact ih _

theorem digit?_digitChar : ∀ d < 16, digit? 16 d.digitChar = some d := by decide

/-- A number is read back from its digits. -/
theorem numeralFrom?_hexDigits (n : Nat) : numeralFrom? 16 0 (hexDigits n) = some n := by
  induction n using Nat.strongRecOn with
  | _ n ih =>
    rw [hexDigits, Nat.toDigits_eq_if (by decide)]
    split_ifs with hn
    · simp [numeralFrom?, digit?_digitChar n hn]
    · rw [numeralFrom?_append, ← hexDigits, ih (n / 16) (by omega)]
      simp [numeralFrom?, digit?_digitChar (n % 16) (Nat.mod_lt _ (by decide))]
      omega

theorem isSome_digit?_of_numeralFrom? {base found n : Nat} {digits : List Char}
    (h : numeralFrom? base found digits = some n) :
    ∀ c ∈ digits, (digit? base c).isSome = true := by
  induction digits generalizing found with
  | nil => simp
  | cons c digits ih =>
    rw [numeralFrom?] at h
    cases hc : digit? base c with
    | none => simp [hc] at h
    | some d =>
      simp only [hc] at h
      exact List.forall_mem_cons.2 ⟨by rw [hc]; rfl, ih h⟩

/-- A character that is no digit does not stand in a number. -/
theorem notMem_hexDigits (hc : digit? 16 c = none) (n : Nat) : c ∉ hexDigits n := fun hmem => by
  have := isSome_digit?_of_numeralFrom? (numeralFrom?_hexDigits n) c hmem
  simp [hc] at this

/-- A character that occurs in neither of two texts separates them from what follows. -/
theorem append_cons_inj (hu : c ∉ u) (hv : c ∉ v) (h : u ++ c :: x = v ++ c :: y) :
    u = v ∧ x = y := by
  have hothers {w : List Char} (hw : c ∉ w) : ∀ d ∈ w, decide (d ≠ c) = true := fun d hd => by
    simpa using ne_of_mem_of_not_mem hd hw
  obtain ⟨rfl, hrest⟩ := append_inj_of_head? (hothers hu) (hothers hv) (by simp) (by simp) h
  exact ⟨rfl, (List.cons.inj hrest).2⟩

/-! ### Characters -/

/-- The characters whose escapes have names, with these. -/
def escapeNames : List (Char × Char) :=
  [('"', '"'), ('\\', '\\'), ('\n', 'n'), ('\r', 'r'), ('\t', 't'), ('\x00', '0')]

theorem escapeNames_inj : ∀ a ∈ escapeNames, ∀ b ∈ escapeNames, a.2 = b.2 → a.1 = b.1 := by decide

/-- A character is written in a form between quotes: by a name, by its number, or as it is. -/
inductive Written : Char → List Char → Prop
  | named {c e : Char} (h : (c, e) ∈ escapeNames) : Written c ['\\', e]
  | numbered (c : Char) : Written c (['\\', 'u', '\x7b'] ++ hexDigits c.toNat ++ ['\x7d'])
  | plain {c : Char} (hescape : c ≠ '\\') (hquote : c ≠ '"') (hline : c ≠ '\n') : Written c [c]

theorem written_quoteChar (c : Char) : Written c (quoteChar c) := by
  unfold quoteChar
  split
  case h_7 hquote hescape hline _ _ _ =>
    split_ifs
    · exact .numbered c
    · exact .plain hescape hquote hline
  all_goals exact .named (by decide)

namespace Written

theorem line_end_notMem (h : Written c u) : '\n' ∉ u := by
  cases h with
  | named h =>
    have hname : ∀ a ∈ escapeNames, a.2 ≠ '\n' := by decide
    simpa using (hname _ h).symm
  | numbered => simp [notMem_hexDigits (c := '\n') (by decide)]
  | plain _ _ hline => simpa using hline.symm

/-- No form begins with a quote. -/
theorem append_ne_quote_cons (h : Written c u) : u ++ x ≠ '"' :: y := by
  cases h with
  | named => simp
  | numbered => simp
  | plain _ hquote => simp [hquote]

/-- Characters are read back one by one. -/
theorem eq_of_append (hc : Written c u) (hd : Written d v) (h : u ++ x = v ++ y) :
    c = d ∧ x = y := by
  have hnumber : ∀ a ∈ escapeNames, a.2 ≠ 'u' := by decide
  cases hc with
  | named hc =>
    cases hd with
    | named hd =>
      simp only [List.cons_append, List.nil_append, List.cons.injEq, true_and] at h
      exact ⟨escapeNames_inj _ hc _ hd h.1, h.2⟩
    | numbered =>
      simp only [List.cons_append, List.nil_append, List.cons.injEq, true_and] at h
      exact absurd h.1 (hnumber _ hc)
    | plain hescape =>
      simp only [List.cons_append, List.nil_append, List.cons.injEq] at h
      exact absurd h.1.symm hescape
  | numbered =>
    cases hd with
    | named hd =>
      simp only [List.cons_append, List.nil_append, List.cons.injEq, true_and] at h
      exact absurd h.1.symm (hnumber _ hd)
    | numbered =>
      have hbrace (n : Nat) : '\x7d' ∉ hexDigits n := notMem_hexDigits (by decide) n
      obtain ⟨hdigits, rfl⟩ := append_cons_inj (hbrace _) (hbrace _) (by simpa using h)
      have hnumbers := congrArg (numeralFrom? 16 0) hdigits
      simp only [numeralFrom?_hexDigits, Option.some.injEq] at hnumbers
      exact ⟨Char.toNat_inj.1 hnumbers, rfl⟩
    | plain hescape =>
      simp only [List.cons_append, List.nil_append, List.cons.injEq] at h
      exact absurd h.1.symm hescape
  | plain hescape =>
    cases hd with
    | named =>
      simp only [List.cons_append, List.nil_append, List.cons.injEq] at h
      exact absurd h.1 hescape
    | numbered =>
      simp only [List.cons_append, List.nil_append, List.cons.injEq] at h
      exact absurd h.1 hescape
    | plain => simpa using h

end Written

/-! ### Texts -/

/-- The characters of a quoted text. -/
theorem toList_quote (s : String) :
    (quote s).toList = '"' :: (s.toList.flatMap quoteChar ++ ['"']) := by
  rw [quote, String.toList_ofList, List.cons_append]

theorem flatMap_quoteChar_inj {a b : List Char}
    (h : a.flatMap quoteChar ++ '"' :: x = b.flatMap quoteChar ++ '"' :: y) : a = b ∧ x = y := by
  induction a generalizing b with
  | nil =>
    cases b with
    | nil => simpa using h
    | cons d b =>
      rw [List.flatMap_cons, List.append_assoc] at h
      exact absurd h.symm (written_quoteChar d).append_ne_quote_cons
  | cons c a ih =>
    cases b with
    | nil =>
      rw [List.flatMap_cons, List.append_assoc] at h
      exact absurd h (written_quoteChar c).append_ne_quote_cons
    | cons d b =>
      rw [List.flatMap_cons, List.flatMap_cons, List.append_assoc, List.append_assoc] at h
      obtain ⟨rfl, hrest⟩ := (written_quoteChar c).eq_of_append (written_quoteChar d) h
      obtain ⟨rfl, rfl⟩ := ih hrest
      exact ⟨rfl, rfl⟩

/-- Quoted texts are read back. -/
theorem readsBack_quote : ReadsBack quote := by
  intro a b x y h
  simp only [toList_quote, List.cons_append, List.append_assoc, List.nil_append,
    List.cons.injEq, true_and] at h
  obtain ⟨hab, rfl⟩ := flatMap_quoteChar_inj h
  exact ⟨String.toList_inj.1 hab, rfl⟩

/-- A quoted text stands on one line. -/
theorem line_end_notMem_quote (s : String) : '\n' ∉ (quote s).toList := by
  rw [toList_quote]
  simp only [List.mem_cons, List.mem_append, List.mem_flatMap, List.not_mem_nil, or_false]
  rintro (hquote | ⟨c, -, hc⟩ | hquote)
  · exact absurd hquote (by decide)
  · exact (written_quoteChar c).line_end_notMem hc
  · exact absurd hquote (by decide)

end RuledMarkup.Text
