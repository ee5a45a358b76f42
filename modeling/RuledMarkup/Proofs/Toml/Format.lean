import RuledMarkup.Proofs.Toml.Documents
import RuledMarkup.Toml.Format

/-!
# What readers and writers may be relied on for

The order in which names stand in a table means nothing, so two values are the same if they only
differ in that.  Which texts denote which values is given by a relation.  A format follows the
relation if it reads what a text denotes and writes texts that denote what is written.

## Main definitions

* `Value.Same` : two values differ at most in the order of names.
* `Format.Follows` : a format reads and writes what texts denote.

## Main results

* `Format.standard_follows` : so does the format of this library.
-/

namespace RuledMarkup.Toml

/-- The values differ at most in the order in which names stand in tables. -/
inductive Value.Same : Value → Value → Prop
  | refl (value : Value) : Same value value
  | array {items items' : List Value} (hlength : items.length = items'.length)
      (hitems : ∀ (i : Nat) (item item' : Value), items[i]? = some item → items'[i]? = some item' →
        Same item item') : Same (.array items) (.array items')
  | table {entries entries' : List (String × Value)}
      (hnames : ∀ name, (entries.lookup name).isSome = (entries'.lookup name).isSome)
      (hvalues : ∀ name value value', entries.lookup name = some value →
        entries'.lookup name = some value' → Same value value') :
      Same (.table entries) (.table entries')

namespace Value

theorem Same.eq_text {value : Value} {content : String} (h : Same value (.text content)) :
    value = .text content := by
  cases h
  rfl

/-- An array of texts has no order of names in it. -/
theorem Same.eq_texts {value : Value} {texts : List String}
    (h : Same value (.array (texts.map .text))) : value = .array (texts.map .text) := by
  cases h with
  | refl => rfl
  | @array items _ hlength hitems =>
    congr 1
    refine List.ext_getElem hlength fun i hi hi' => ?_
    have hsame := hitems i _ _ (List.getElem?_eq_getElem hi) (List.getElem?_eq_getElem hi')
    rw [List.getElem_map] at hsame ⊢
    exact hsame.eq_text

section

variable {entries entries' : List (String × Value)} {name : String}

/-- The same names have values. -/
theorem Same.lookup_eq_none (h : Same (.table entries) (.table entries'))
    (hname : entries'.lookup name = none) : entries.lookup name = none := by
  cases h with
  | refl => exact hname
  | table hnames => simpa [hname] using hnames name

/-- Under one name stand the same values. -/
theorem Same.exists_lookup_eq {value' : Value} (h : Same (.table entries) (.table entries'))
    (hname : entries'.lookup name = some value') :
    ∃ value, entries.lookup name = some value ∧ Same value value' := by
  cases h with
  | refl => exact ⟨value', hname, .refl _⟩
  | table hnames hvalues =>
    obtain ⟨value, hvalue⟩ := Option.isSome_iff_exists.1 ((hnames name).trans (by rw [hname]; rfl))
    exact ⟨value, hvalue, hvalues name value value' hvalue hname⟩

end

/-- Only a table is the same as a table. -/
theorem Same.exists_table {value : Value} {entries : List (String × Value)}
    (h : Same value (.table entries)) :
    ∃ entries', value = .table entries' ∧ Same (.table entries') (.table entries) := by
  cases h with
  | refl => exact ⟨entries, rfl, .refl _⟩
  | table hnames hvalues => exact ⟨_, rfl, .table hnames hvalues⟩

end Value

/-- A format follows what texts denote: it reads that, and what it writes denotes what has been
written.  Lines that give values to names, and headers of tables before them, denote these
values. -/
structure Format.Follows (format : Format) (denotes : String → List (String × Value) → Prop) :
    Prop where
  read_of_denotes : ∀ text values, denotes text values →
    ∃ found, format.read text = .ok found ∧ (Value.table found).Same (.table values)
  denotes_write : ∀ fields tables, IsDocument fields tables →
    ∃ text, format.write fields tables = .ok text ∧ denotes text (documentValues fields tables)
  denotes_lines : ∀ fields tables, IsDocument fields tables →
    denotes (writeDocument fields tables) (documentValues fields tables)

/-- What a format makes of a text, the order of names apart. -/
def Format.Reads (format : Format) (text : String) (values : List (String × Value)) : Prop :=
  ∃ found, format.read text = .ok found ∧ (Value.table found).Same (.table values)

/-- The format of this library writes what it reads. -/
theorem Format.standard_follows : standard.Follows standard.Reads where
  read_of_denotes _ _ h := h
  denotes_write fields tables h :=
    ⟨writeDocument fields tables, rfl, _, read_writeDocument h, .refl _⟩
  denotes_lines _ _ h := ⟨_, read_writeDocument h, .refl _⟩

end RuledMarkup.Toml
