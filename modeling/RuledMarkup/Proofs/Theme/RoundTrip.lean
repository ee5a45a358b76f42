import Mathlib
import RuledMarkup.Proofs.Toml.Format
import RuledMarkup.Theme.Load
import RuledMarkup.Theme.Save

/-!
# Themes are read back

A theme that is saved is loaded as it was.  A file may also give only some of the fields: then these
are replaced in the default theme, and no others.  The colors of code are a table of their own, so
that a name in it and the same name outside are two different fields.  All this holds for every
format that follows what texts denote, and on every disk that keeps what is written to it.

## Main definitions

* `CodeColors.Part`, `Theme.Part` : some of the fields of a theme.
* `Theme.Part.onto` : a theme with these fields replaced.
* `Theme.Part.GivenBy` : the values of a file give these fields and no others.
* `Theme.Part.ListedBy` : the lines of a file give these fields, in any order.
* `Disk.Keeps` : what has been written to a disk is found there.

## Main results

* `FileState.text_ofText` : the text of a file is the one that was written.
* `Theme.Part.load?_of_denotes` : the values that a text denotes replace what they give.
* `Theme.load?_save` : themes are read back, whole ones and parts.
-/

namespace RuledMarkup

open Toml

/-- The text of a file is the one that was written. -/
theorem FileState.text_ofText (text : String) : (ofText text).text = .ok text := by
  have hread : String.fromUTF8? text.toUTF8 = some text := by
    rw [String.fromUTF8?, String.toUTF8_eq_toByteArray, dif_pos text.isValidUTF8]
    rfl
  simp only [ofText, FileState.text, hread]

/-! ### Texts that are given or not -/

namespace Toml

variable {name : String} {entries : List (String × Value)}

/-- The texts that are given under some names, as fields. -/
def givenTexts (texts : List (String × Option String)) : Fields :=
  texts.filterMap fun entry => entry.2.map fun text => (entry.1, .text text)

theorem names_givenTexts_sublist (texts : List (String × Option String)) :
    ((givenTexts texts).map (·.1)).Sublist (texts.map (·.1)) := by
  induction texts with
  | nil => exact .slnil
  | cons entry texts ih =>
    obtain ⟨name, _ | text⟩ := entry
    · exact ih.cons name
    · exact ih.cons_cons name

theorem lookup_cons_of_ne {β : Type} {first : String} (h : name ≠ first) (value : β)
    (rest : List (String × β)) : ((first, value) :: rest).lookup name = rest.lookup name := by
  rw [List.lookup_cons, beq_eq_false_iff_ne.2 h]

/-- Under each name stands the text that is given, if there is one. -/
theorem lookup_givenTexts {texts : List (String × Option String)}
    (hnodup : (texts.map (·.1)).Nodup) {given : Option String} (h : (name, given) ∈ texts) :
    (fieldValues (givenTexts texts)).lookup name = given.map .text := by
  induction texts with
  | nil => cases h
  | cons entry texts ih =>
    obtain ⟨first, found⟩ := entry
    obtain ⟨hfirst, hrest⟩ := List.nodup_cons.1 hnodup
    rcases List.mem_cons.1 h with heq | hmem
    · cases heq
      cases given with
      | none =>
        refine lookup_eq_none_iff.2 fun hmem => hfirst ?_
        refine (names_givenTexts_sublist texts).subset ?_
        simpa [fieldValues, Function.comp_def, givenTexts] using hmem
      | some text => exact List.lookup_cons_self
    · have hne : name ≠ first := fun hname => hfirst (hname ▸ List.mem_map.2 ⟨_, hmem, rfl⟩)
      cases found with
      | none => exact ih hrest hmem
      | some text => exact (lookup_cons_of_ne hne _ _).trans (ih hrest hmem)

/-- If no name stands twice, then it does not matter in which order the entries stand. -/
theorem lookup_eq_of_perm {β : Type} {a b : List (String × β)} (h : a.Perm b)
    (hnodup : (a.map (·.1)).Nodup) : a.lookup name = b.lookup name := by
  induction h with
  | nil => rfl
  | cons entry _ ih =>
    rw [List.lookup_cons, List.lookup_cons, ih (List.nodup_cons.1 hnodup).2]
  | swap first second rest =>
    have hne : second.1 ≠ first.1 := fun heq =>
      (List.nodup_cons.1 hnodup).1 (List.mem_cons.2 (.inl heq))
    by_cases hname : name = second.1
    · subst hname
      rw [List.lookup_cons_self, lookup_cons_of_ne hne, List.lookup_cons_self]
    · rw [lookup_cons_of_ne hname, List.lookup_cons, List.lookup_cons, lookup_cons_of_ne hname]
  | trans hab _ ihab ihbc =>
    exact (ihab hnodup).trans (ihbc ((hab.map _).nodup_iff.1 hnodup))

/-- Fields whose names are among some names, in any order. -/
theorem names_of_perm {fields given : Fields} {names : List String} (h : fields.Perm given)
    (hnames : (given.map (·.1)).Sublist names) (hnodup : names.Nodup) :
    (fields.map (·.1)).Nodup ∧ ∀ field ∈ fields, field.1 ∈ names := by
  refine ⟨(h.map _).nodup_iff.2 (hnames.nodup hnodup), fun field hfield => hnames.subset ?_⟩
  exact List.mem_map_of_mem (h.mem_iff.1 hfield)

theorem lookup_fieldValues_of_perm {fields given : Fields} (h : fields.Perm given)
    (hnodup : (fields.map (·.1)).Nodup) :
    (fieldValues fields).lookup name = (fieldValues given).lookup name :=
  lookup_eq_of_perm (h.map _) (by simpa [fieldValues, Function.comp_def] using hnodup)

/-- A text that is given under a name replaces the default. -/
theorem field_eq_getD {given : Option String} (h : entries.lookup name = given.map .text)
    (default : String) : field entries name default Value.asText = .ok (given.getD default) := by
  rw [field, h]
  cases given <;> rfl

/-- In a table that is the same the same text is given. -/
theorem lookup_text_of_same {found : List (String × Value)} {given : Option String}
    (hsame : (Value.table found).Same (.table entries))
    (h : entries.lookup name = given.map .text) : found.lookup name = given.map .text := by
  cases given with
  | none => exact hsame.lookup_eq_none h
  | some text =>
    obtain ⟨value, hvalue, htext⟩ := hsame.exists_lookup_eq h
    rw [hvalue, htext.eq_text]
    rfl

theorem mapM_asText (name : String) (texts : List String) :
    (texts.map Value.text).mapM (·.asText name) = .ok texts := by
  induction texts with
  | nil => rfl
  | cons text texts ih =>
    rw [List.map_cons, List.mapM_cons, ih]
    rfl

end Toml

/-! ### Parts of a theme -/

/-- Some of the colors of code. -/
structure CodeColors.Part where
  default : Option String := none
  comment : Option String := none
  literal : Option String := none
  keyword : Option String := none
  identifier : Option String := none
  types : Option String := none
  generics : Option String := none
  params : Option String := none
deriving DecidableEq, Repr

/-- Some of the fields of a theme. -/
structure Theme.Part where
  headers : Option (List String) := none
  bullet : Option String := none
  quote : Option String := none
  inlineCodeBackground : Option String := none
  code : Option CodeColors.Part := none
deriving DecidableEq, Repr

namespace CodeColors.Part

variable {part : Part} {entries : List (String × Value)}

/-- The colors with some of them replaced. -/
def onto (part : Part) (base : CodeColors) : CodeColors where
  default := part.default.getD base.default
  comment := part.comment.getD base.comment
  literal := part.literal.getD base.literal
  keyword := part.keyword.getD base.keyword
  identifier := part.identifier.getD base.identifier
  types := part.types.getD base.types
  generics := part.generics.getD base.generics
  params := part.params.getD base.params

/-- The names of the colors, each with the color that is given for it. -/
def texts (part : Part) : List (String × Option String) :=
  [("default", part.default), ("comment", part.comment), ("literal", part.literal),
    ("keyword", part.keyword), ("identifier", part.identifier), ("types", part.types),
    ("generics", part.generics), ("params", part.params)]

theorem map_texts (part : Part) : part.texts.map (·.1) = keys := rfl

/-- The colors that are given, as fields. -/
def fields (part : Part) : Fields := givenTexts part.texts

/-- Under the names of the colors stand those that are given, and nothing under the others. -/
def GivenBy (part : Part) (entries : List (String × Value)) : Prop :=
  ∀ entry ∈ part.texts, entries.lookup entry.1 = entry.2.map .text

theorem GivenBy.of_same {found : List (String × Value)} (h : part.GivenBy entries)
    (hsame : (Value.table found).Same (.table entries)) : part.GivenBy found := fun entry hentry =>
  lookup_text_of_same hsame (h entry hentry)

theorem ofValues_eq (h : part.GivenBy entries) :
    CodeColors.ofValues entries = .ok (part.onto {}) := by
  simp only [GivenBy, texts, List.forall_mem_cons] at h
  obtain ⟨hdefault, hcomment, hliteral, hkeyword, hidentifier, htypes, hgenerics, hparams, -⟩ := h
  simp only [ofValues, field_eq_getD hdefault, field_eq_getD hcomment, field_eq_getD hliteral,
    field_eq_getD hkeyword, field_eq_getD hidentifier, field_eq_getD htypes,
    field_eq_getD hgenerics, field_eq_getD hparams]
  rfl

/-- The colors that are listed, in any order, have names of their own and are given. -/
theorem givenBy_of_perm {fields : Fields} (h : fields.Perm part.fields) :
    (fields.map (·.1)).Nodup ∧ (∀ field ∈ fields, IsBare field.1) ∧
      part.GivenBy (fieldValues fields) := by
  have hbare : ∀ name ∈ part.texts.map (·.1), IsBare name := by
    rw [map_texts]
    decide
  have hkeys : (part.texts.map (·.1)).Nodup := by
    rw [map_texts]
    decide
  obtain ⟨hnodup, hmem⟩ := names_of_perm h (names_givenTexts_sublist part.texts) hkeys
  refine ⟨hnodup, fun field hfield => hbare _ (hmem field hfield), fun entry hentry => ?_⟩
  rw [lookup_fieldValues_of_perm h hnodup]
  exact lookup_givenTexts hkeys hentry

end CodeColors.Part

namespace Theme.Part

variable {part : Part} {entries : List (String × Value)}

/-- The theme with some of its fields replaced. -/
def onto (part : Part) (base : Theme) : Theme where
  headers := part.headers.getD base.headers
  bullet := part.bullet.getD base.bullet
  quote := part.quote.getD base.quote
  inlineCodeBackground := part.inlineCodeBackground.getD base.inlineCodeBackground
  code := (part.code.map (·.onto base.code)).getD base.code

/-- The names of the fields that are texts, each with the text that is given for it. -/
def texts (part : Part) : List (String × Option String) :=
  [("bullet", part.bullet), ("quote", part.quote),
    ("inline_code_background", part.inlineCodeBackground)]

/-- The fields that are given, the colors of code apart. -/
def fields (part : Part) : Fields :=
  (part.headers.map fun headers => ("headers", .texts headers)).toList ++ givenTexts part.texts

/-- Under the names of the fields stands what is given, and nothing under the other names. -/
structure GivenBy (part : Part) (entries : List (String × Value)) : Prop where
  headers : entries.lookup "headers" = part.headers.map fun headers => .array (headers.map .text)
  texts : ∀ entry ∈ part.texts, entries.lookup entry.1 = entry.2.map .text
  code : match part.code with
    | none => entries.lookup "code" = none
    | some code => ∃ colors, entries.lookup "code" = some (.table colors) ∧ code.GivenBy colors

/-- The lines of a file give the fields of the part and, under a header, its colors of code, both in
any order. -/
structure ListedBy (part : Part) (fields : Fields) (sections : Sections) : Prop where
  fields_perm : fields.Perm part.fields
  sections : match part.code with
    | none => sections = []
    | some code => ∃ colors, colors.Perm code.fields ∧ sections = [("code", colors)]

theorem GivenBy.of_same {found : List (String × Value)} (h : part.GivenBy entries)
    (hsame : (Value.table found).Same (.table entries)) : part.GivenBy found where
  headers := by
    have hheaders := h.headers
    cases hpart : part.headers with
    | none =>
      rw [hpart] at hheaders
      exact hsame.lookup_eq_none hheaders
    | some headers =>
      rw [hpart] at hheaders
      obtain ⟨value, hvalue, htexts⟩ := hsame.exists_lookup_eq hheaders
      rw [hvalue, htexts.eq_texts]
      rfl
  texts entry hentry := lookup_text_of_same hsame (h.texts entry hentry)
  code := by
    have hcode := h.code
    cases hpart : part.code with
    | none =>
      rw [hpart] at hcode
      exact hsame.lookup_eq_none hcode
    | some code =>
      rw [hpart] at hcode
      obtain ⟨colors, hcolors, hgiven⟩ := hcode
      obtain ⟨value, hvalue, htable⟩ := hsame.exists_lookup_eq hcolors
      obtain ⟨colors', rfl, hsame'⟩ := htable.exists_table
      exact ⟨colors', hvalue, hgiven.of_same hsame'⟩

theorem ofValues_eq (h : part.GivenBy entries) : Theme.ofValues entries = .ok (part.onto {}) := by
  have hheaders (default : List String) :
      field entries "headers" default Value.asTexts = .ok (part.headers.getD default) := by
    rw [field, h.headers]
    cases part.headers with
    | none => rfl
    | some headers => exact mapM_asText _ headers
  have hcode (default : CodeColors) (hdefault : default = {}) :
      field entries "code" default CodeColors.ofValue =
        .ok ((part.code.map (·.onto default)).getD default) := by
    have hcode := h.code
    subst hdefault
    cases hpart : part.code with
    | none =>
      rw [hpart] at hcode
      rw [field, hcode]
      rfl
    | some code =>
      rw [hpart] at hcode
      obtain ⟨colors, hlookup, hcolors⟩ := hcode
      rw [field, hlookup]
      exact CodeColors.Part.ofValues_eq hcolors
  have htexts := h.texts
  simp only [texts, List.forall_mem_cons] at htexts
  obtain ⟨hbullet, hquote, hbackground, -⟩ := htexts
  simp only [Theme.ofValues, hheaders, field_eq_getD hbullet, field_eq_getD hquote,
    field_eq_getD hbackground, hcode _ rfl]
  rfl

/-! ### Files -/

variable {fields : Fields} {sections : Sections}

/-- The names of the fields that are not colors of code. -/
def names : List String := ["headers", "bullet", "quote", "inline_code_background"]

theorem names_fields_sublist (part : Part) : (part.fields.map (·.1)).Sublist names := by
  have htexts := names_givenTexts_sublist part.texts
  rw [Part.fields]
  cases part.headers with
  | none => exact htexts.cons _
  | some headers => exact htexts.cons_cons _

theorem ListedBy.names_of_fields (h : part.ListedBy fields sections) :
    (fields.map (·.1)).Nodup ∧ ∀ field ∈ fields, field.1 ∈ names :=
  names_of_perm h.fields_perm (names_fields_sublist part) (by decide)

theorem ListedBy.code_not_mem (h : part.ListedBy fields sections) :
    "code" ∉ fields.map (·.1) := by
  intro hmem
  obtain ⟨field, hfield, hname⟩ := List.mem_map.1 hmem
  exact absurd (hname ▸ h.names_of_fields.2 field hfield) (by decide)

/-- The lines that list the fields make up a document. -/
theorem ListedBy.isDocument (h : part.ListedBy fields sections) : IsDocument fields sections := by
  have hbare : ∀ name ∈ names, IsBare name := by decide
  have hbareCode : IsBare "code" := by decide
  obtain ⟨hnodup, hmem⟩ := h.names_of_fields
  have hfields (field : String × Plain) (hfield : field ∈ fields) : IsBare field.1 :=
    hbare _ (hmem field hfield)
  have hsections := h.sections
  cases hcode : part.code with
  | none =>
    rw [hcode] at hsections
    subst hsections
    exact ⟨hfields, nofun, by simpa using hnodup, nofun⟩
  | some code =>
    rw [hcode] at hsections
    obtain ⟨colors, hcolors, rfl⟩ := hsections
    obtain ⟨hnodupColors, hbareColors, -⟩ := CodeColors.Part.givenBy_of_perm hcolors
    refine ⟨hfields, List.forall_mem_singleton.2 ⟨hbareCode, hbareColors⟩, ?_,
      List.forall_mem_singleton.2 hnodupColors⟩
    refine List.nodup_append.2 ⟨hnodup, List.nodup_singleton _, ?_⟩
    rintro name hname _ (_ | ⟨_, ⟨⟩⟩) rfl
    exact h.code_not_mem hname

/-- No name but that of the colors of code is looked up in the sections. -/
theorem ListedBy.lookup_eq (h : part.ListedBy fields sections) {name : String}
    (hname : name ≠ "code") :
    (documentValues fields sections).lookup name = (fieldValues part.fields).lookup name := by
  have hnone : (sections.map fun section_ =>
      (section_.1, Value.table (fieldValues section_.2))).lookup name = none := by
    have hsections := h.sections
    cases hcode : part.code with
    | none =>
      rw [hcode] at hsections
      subst hsections
      rfl
    | some code =>
      rw [hcode] at hsections
      obtain ⟨colors, -, rfl⟩ := hsections
      exact lookup_cons_of_ne hname _ _
  rw [documentValues, List.lookup_append, hnone, Option.or_none,
    lookup_fieldValues_of_perm h.fields_perm h.names_of_fields.1]

/-- The names of the fields that are texts. -/
theorem map_texts (part : Part) :
    part.texts.map (·.1) = ["bullet", "quote", "inline_code_background"] := rfl

/-- What the fields list is given by their values. -/
theorem ListedBy.givenBy (h : part.ListedBy fields sections) :
    part.GivenBy (documentValues fields sections) := by
  have hnodup : (part.texts.map (·.1)).Nodup := by
    rw [map_texts]
    decide
  have hne : ∀ name ∈ part.texts.map (·.1), name ≠ "headers" ∧ name ≠ "code" := by
    rw [map_texts]
    decide
  refine ⟨?_, fun entry hentry => ?_, ?_⟩
  · rw [h.lookup_eq (by decide), Part.fields]
    cases part.headers with
    | none =>
      refine lookup_eq_none_iff.2 fun hmem => ?_
      refine (hne _ ((names_givenTexts_sublist part.texts).subset ?_)).1 rfl
      simpa [fieldValues, Function.comp_def] using hmem
    | some headers => exact List.lookup_cons_self
  · obtain ⟨hheaders, hcode⟩ := hne _ (List.mem_map_of_mem hentry)
    rw [h.lookup_eq hcode, Part.fields]
    have hgiven := lookup_givenTexts hnodup hentry
    cases part.headers with
    | none => exact hgiven
    | some headers => exact (lookup_cons_of_ne hheaders _ _).trans hgiven
  · have hnone : (fieldValues fields).lookup "code" = none := by
      refine lookup_eq_none_iff.2 fun hmem => h.code_not_mem ?_
      simpa [fieldValues, Function.comp_def] using hmem
    have hsections := h.sections
    rw [documentValues, List.lookup_append, hnone, Option.none_or]
    cases hcode : part.code with
    | none =>
      rw [hcode] at hsections
      subst hsections
      rfl
    | some code =>
      rw [hcode] at hsections
      obtain ⟨colors, hcolors, rfl⟩ := hsections
      exact ⟨fieldValues colors, List.lookup_cons_self,
        (CodeColors.Part.givenBy_of_perm hcolors).2.2⟩

/-! ### Files that are read with a format -/

variable {format : Format} {denotes : String → List (String × Value) → Prop} {path text : String}

/-- The values of a file replace what they give, and nothing else. -/
theorem load?_eq (hread : format.read text = .ok entries) (h : part.GivenBy entries) :
    load? path (.ofText text) format = .ok (some (part.onto {})) := by
  have htheme : Theme.read text format = .ok (part.onto {}) := by
    rw [Theme.read, hread]
    exact ofValues_eq h
  simp only [load?, FileState.text_ofText, htheme]
  rfl

/-- Every text that denotes values replaces what these give. -/
theorem load?_of_denotes (hformat : format.Follows denotes) (htext : denotes text entries)
    (h : part.GivenBy entries) : load? path (.ofText text) format = .ok (some (part.onto {})) := by
  obtain ⟨found, hread, hsame⟩ := hformat.read_of_denotes text entries htext
  exact load?_eq hread (h.of_same hsame)

end Theme.Part

/-! ### Whole themes -/

/-- All colors of code. -/
def CodeColors.whole (colors : CodeColors) : CodeColors.Part where
  default := some colors.default
  comment := some colors.comment
  literal := some colors.literal
  keyword := some colors.keyword
  identifier := some colors.identifier
  types := some colors.types
  generics := some colors.generics
  params := some colors.params

namespace Theme

/-- All fields of a theme. -/
def whole (theme : Theme) : Part where
  headers := some theme.headers
  bullet := some theme.bullet
  quote := some theme.quote
  inlineCodeBackground := some theme.inlineCodeBackground
  code := some theme.code.whole

theorem onto_whole (theme base : Theme) : theme.whole.onto base = theme := rfl

/-- A theme consists of the lines that list all its fields. -/
theorem listedBy_whole (theme : Theme) : theme.whole.ListedBy theme.fields theme.tables :=
  ⟨.refl _, _, .refl _, rfl⟩

end Theme

/-! ### Saved themes -/

section Disk

variable {σ : Type}

/-- What has been written to the disk is found there. -/
structure Disk.Keeps (disk : Disk σ) : Prop where
  look_write : ∀ path bytes before after, disk.write path bytes before = (.ok (), after) →
    disk.look path after = .file bytes

/-- Makes the directories around a path and puts a text there. -/
def Disk.put (disk : Disk σ) (path text : String) (before : σ) : Except DiskFailure Unit × σ :=
  match disk.makeRoom path before with
  | (.error cause, after) => (.error cause, after)
  | (.ok (), between) => disk.write path text.toUTF8 between

variable {format : Format} {denotes : String → List (String × Value) → Prop} {disk : Disk σ}
  {path : String} {theme : Theme} {before after : σ}

/-- To save a theme is to put a text there that denotes its fields. -/
theorem Theme.exists_save_eq (hformat : format.Follows denotes) (disk : Disk σ) (path : String)
    (theme : Theme) :
    ∃ text, denotes text (documentValues theme.fields theme.tables) ∧
      ∀ before, theme.save path disk format before =
        ((disk.put path text before).1.mapError .disk, (disk.put path text before).2) := by
  obtain ⟨text, hwrite, htext⟩ := hformat.denotes_write _ _ theme.listedBy_whole.isDocument
  refine ⟨text, htext, fun before => ?_⟩
  rw [Theme.save, Disk.put]
  rcases disk.makeRoom path before with ⟨_ | _, between⟩
  · rfl
  · simp only [hwrite]
    rcases disk.write path text.toUTF8 between with ⟨_ | _, after⟩ <;> rfl

/-- A text that has been put somewhere is found there. -/
theorem Disk.Keeps.look_put {text : String} (h : disk.Keeps)
    (hput : disk.put path text before = (.ok (), after)) :
    disk.look path after = .ofText text := by
  rw [put] at hput
  rcases hroom : disk.makeRoom path before with ⟨_ | _, between⟩
  · rw [hroom] at hput
    cases hput
  · rw [hroom] at hput
    exact h.look_write path _ between after hput

/-- A disk in memory, which has no directories but those that have been made. -/
def Disk.inMemory : Disk (String → FileState) where
  look path files := files path
  createDirs path files :=
    match files path with
    | .file _ => (.error "File exists (os error 17)", files)
    | _ => (.ok (), Function.update files path .directory)
  write path bytes files :=
    match files path with
    | .directory => (.error "Is a directory (os error 21)", files)
    | _ => (.ok (), Function.update files path (.file bytes))

theorem Disk.keeps_inMemory : inMemory.Keeps where
  look_write path bytes before after h := by
    simp only [inMemory] at h ⊢
    split at h
    · cases h
    · obtain rfl := (Prod.mk.inj h).2
      exact Function.update_self ..

end Disk

namespace Theme

/-- Themes are read back, with every format that follows what texts denote and on every disk that
keeps what is written.  A theme that has been saved is loaded as it was, and saving fails only where
the disk fails to take a text.  Lines that list some of the fields, in any order, are loaded as the
default theme with these fields replaced, and so is every text that denotes these fields. -/
theorem load?_save {σ : Type} {format : Format} {denotes : String → List (String × Value) → Prop}
    (hformat : format.Follows denotes) {disk : Disk σ} (hdisk : disk.Keeps) (path : String) :
    (∀ (theme : Theme) (before after : σ), theme.save path disk format before = (.ok (), after) →
      load? path (disk.look path after) format = .ok (some theme)) ∧
    (∀ (theme : Theme) (before after : σ) (failure : SaveFailure),
      theme.save path disk format before = (.error failure, after) →
        ∃ cause text, failure = .disk cause ∧ disk.put path text before = (.error cause, after)) ∧
    (∀ (part : Part) (fields : Fields) (tables : Sections), part.ListedBy fields tables →
      load? path (.ofText (writeDocument fields tables)) format = .ok (some (part.onto {}))) ∧
    ∀ (part : Part) (text : String) (values : List (String × Value)), denotes text values →
      part.GivenBy values → load? path (.ofText text) format = .ok (some (part.onto {})) := by
  refine ⟨fun theme before after hsave => ?_, fun theme before after failure hsave => ?_,
    fun part fields tables h => ?_, fun part text values => Part.load?_of_denotes hformat⟩
  · obtain ⟨text, htext, hput⟩ := exists_save_eq hformat disk path theme
    rw [hput before] at hsave
    obtain ⟨hok, rfl⟩ := Prod.mk.inj hsave
    have hdone : disk.put path text before = (.ok (), (disk.put path text before).2) := by
      rcases hresult : disk.put path text before with ⟨_ | _, after⟩
      · rw [hresult] at hok
        cases hok
      · rfl
    rw [hdisk.look_put hdone, Part.load?_of_denotes hformat htext theme.listedBy_whole.givenBy,
      onto_whole]
  · obtain ⟨text, -, hput⟩ := exists_save_eq hformat disk path theme
    rw [hput before] at hsave
    rcases hresult : disk.put path text before with ⟨cause | _, state⟩
    · rw [hresult] at hsave
      cases hsave
      exact ⟨cause, text, rfl, hresult⟩
    · rw [hresult] at hsave
      cases hsave
  · exact Part.load?_of_denotes hformat (hformat.denotes_lines _ _ h.isDocument) h.givenBy

/-- A theme without colors for headers and with quotes and a line end in a text is saved in a new
directory.  A color of code with the name of the table in front of it is loaded as well. -/
theorem load?_save_keyword :
    let theme : Theme := { headers := [], bullet := "a\"'\n" }
    let part : Part := { bullet := some "#ff8800", code := some { keyword := some "red" } }
    let lines : Fields := [("bullet", .text "#ff8800")]
    let colors : Sections := [("code", [("keyword", .text "red")])]
    let text := "code.keyword = 'red'\nbullet = \"#ff8800\"\n"
    Format.standard.Follows Format.standard.Reads ∧ Disk.inMemory.Keeps ∧
      (∃ after, theme.save "a/theme.toml" Disk.inMemory .standard (fun _ => .missing) =
          (.ok (), after) ∧
        load? "a/theme.toml" (Disk.inMemory.look "a/theme.toml" after) = .ok (some theme)) ∧
      part.ListedBy lines colors ∧
      load? "a/theme.toml" (.ofText (writeDocument lines colors)) = .ok (some (part.onto {})) ∧
      load? "a/theme.toml" (.ofText text) = .ok (some (part.onto {})) := by
  intro theme part lines colors text
  obtain ⟨hsaved, -, hlines, htext⟩ :=
    load?_save Format.standard_follows Disk.keeps_inMemory "a/theme.toml"
  have hlisted : part.ListedBy lines colors := ⟨.refl _, _, .refl _, rfl⟩
  have hgiven : part.GivenBy
      [("code", .table [("keyword", .text "red")]), ("bullet", .text "#ff8800")] := by
    refine ⟨rfl, ?_, _, rfl, ?_⟩
    · simp [part, Part.texts, List.lookup_cons]
    · simp [CodeColors.Part.GivenBy, CodeColors.Part.texts, List.lookup_cons]
  have hread : Format.standard.Reads text
      [("code", .table [("keyword", .text "red")]), ("bullet", .text "#ff8800")] := by
    refine ⟨_, ?_, .refl _⟩
    change Toml.read text = _
    cbv
  have hsave : ∃ after, theme.save "a/theme.toml" Disk.inMemory .standard (fun _ => .missing) =
      (.ok (), after) := by
    have hparent : Path.parent? "a/theme.toml" = some "a" := by decide
    let made : String → FileState := Function.update (fun _ => .missing) "a" .directory
    have hroom : Disk.inMemory.makeRoom "a/theme.toml" (fun _ => .missing) = (.ok (), made) := by
      rw [Disk.makeRoom, hparent]
      rfl
    have hfree : made "a/theme.toml" = .missing := Function.update_of_ne (by decide) ..
    refine ⟨Function.update made "a/theme.toml" (.file theme.write.toUTF8), ?_⟩
    rw [save, hroom]
    simp only [Format.standard, Disk.inMemory, hfree]
    rfl
  obtain ⟨after, hafter⟩ := hsave
  exact ⟨Format.standard_follows, Disk.keeps_inMemory, ⟨after, hafter, hsaved _ _ _ hafter⟩,
    hlisted, hlines part lines colors hlisted, htext part text _ hread hgiven⟩

end Theme

end RuledMarkup
