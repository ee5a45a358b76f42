import Mathlib.Data.List.Nodup
import RuledMarkup.Proofs.Toml.Texts
import RuledMarkup.Toml.Reader
import RuledMarkup.Toml.Writer

/-!
# Documents are read back

A document is written as lines that give values to names, first those of the document itself and
then, under a header each, those of its tables.  A header ends what comes before it: the values
under it belong to its table and to no other, so that the same name may stand in several tables.

## Main definitions

* `IsBare` : a name that stands without quotes.
* `IsDocument` : all names stand without quotes, and none is given twice.
* `Document.Fills` : a document as a function of the table that is being filled.

## Main results

* `readValue_write` : a value is read back.
* `readStatements_writeFields` : lines put their values into the table that is being filled.
* `readStatements_writeTables` : a header begins a table.
* `read_writeDocument` : a document is read back.
-/

namespace RuledMarkup.Toml

variable {name : String} {bound depth : Nat} {cs rest : List Char}

/-! ### Values -/

/-- A text begins with a quote. -/
theorem exists_writeText_eq_cons (text : String) :
    ∃ q more, writeText text = q :: more ∧ (q = '"' ∨ q = '\x27') := by
  rw [writeText]
  cases Form.choose text.toList
  · exact ⟨_, _, rfl, .inl rfl⟩
  · exact ⟨_, _, rfl, .inr rfl⟩
  · exact ⟨_, _, rfl, .inl rfl⟩
  · exact ⟨_, _, rfl, .inr rfl⟩

theorem readValue_writeText (bound depth : Nat) (hdouble : rest.head? ≠ some '"')
    (hsingle : rest.head? ≠ some '\x27') :
    readValue (bound + 1) depth (writeText text ++ rest) = .ok (.text text, rest) := by
  have hread := readText?_writeText text hdouble hsingle
  obtain ⟨q, more, hwrite, hq⟩ := exists_writeText_eq_cons text
  rw [hwrite, List.cons_append] at hread ⊢
  rcases hq with rfl | rfl
  · rw [readValue, hread]
    all_goals simp
  · rw [readValue, hread]
    all_goals simp

/-- An item of an array that stands on several lines. -/
def itemLine (text : String) : List Char := "    ".toList ++ writeText text ++ [',', '\n']

theorem dropGap?_line (cs : List Char) : dropGap? false ('\n' :: cs) = dropGap? false cs := by
  rw [dropGap?, if_pos rfl]

/-- Does a character begin a gap: a blank, a line end or a comment? -/
def isGap (c : Char) : Bool := c = '\n' || c = '\r' || isBlank c || c = '#'

theorem dropGap?_cons {c : Char} (hc : isGap c = false) :
    dropGap? false (c :: cs) = some (c :: cs) := by
  simp only [isGap, Bool.or_eq_false_iff, decide_eq_false_iff_not] at hc
  obtain ⟨⟨⟨hline, hreturn⟩, hblank⟩, hcomment⟩ := hc
  simp [dropGap?, hline, hreturn, hblank, hcomment]

theorem isGap_of_isKeyChar {c : Char} (hc : isKeyChar c = true) : isGap c = false := by
  have hne (d : Char) (hd : isKeyChar d = false) : c ≠ d := by
    rintro rfl
    simp [hc] at hd
  simp [isGap, isBlank, hne '\n' rfl, hne '\r' rfl, hne ' ' rfl, hne '\t' rfl, hne '#' rfl]

theorem isBlank_of_isGap_eq_false {c : Char} (hc : isGap c = false) : isBlank c = false := by
  simp only [isGap, Bool.or_eq_false_iff] at hc
  exact hc.1.2

theorem dropGap?_writeText (text : String) (rest : List Char) :
    dropGap? false (writeText text ++ rest) = some (writeText text ++ rest) := by
  obtain ⟨q, more, hwrite, rfl | rfl⟩ := exists_writeText_eq_cons text <;>
    rw [hwrite, List.cons_append, dropGap?_cons rfl]

/-- An item of an array is read, and then what stands after it says whether there are more. -/
theorem readItems_writeText {text : String}
    (hgap : dropGap? false cs = some (writeText text ++ rest))
    (hdouble : rest.head? ≠ some '"') (hsingle : rest.head? ≠ some '\x27') :
    readItems (bound + 2) depth cs = (do
      match ← required (dropGap? false rest) with
      | ',' :: rest =>
        let (items, rest) ← readItems (bound + 1) depth rest
        .ok (.text text :: items, rest)
      | ']' :: rest => .ok ([.text text], rest)
      | _ => .error .malformed) := by
  have hread : readValue (bound + 1) depth (writeText text ++ rest) = _ :=
    readValue_writeText bound depth hdouble hsingle
  obtain ⟨q, more, hwrite, hq⟩ := exists_writeText_eq_cons text
  rw [hwrite, List.cons_append] at hread hgap
  rw [readItems, hgap]
  have hbracket : q ≠ ']' := by rcases hq with rfl | rfl <;> decide
  have hnext (next : Value × List Char → Except Error (List Value × List Char)) :
      readValue (bound + 1) depth (q :: (more ++ rest)) >>= next = next (.text text, rest) := by
    rw [hread]
    rfl
  simp only [required, bind, Except.bind]
  split
  · next heq => exact absurd (List.cons_eq_cons.1 heq).1 hbracket
  · exact hnext _

theorem readItems_itemLines (bound depth : Nat) (texts : List String) (rest : List Char) :
    readItems (bound + texts.length + 1) depth ('\n' :: (texts.flatMap itemLine ++ ']' :: rest)) =
      .ok (texts.map .text, rest) := by
  induction texts with
  | nil => rfl
  | cons text texts ih =>
    have hgap : dropGap? false ('\n' :: ((text :: texts).flatMap itemLine ++ ']' :: rest)) =
        some (writeText text ++ ',' :: '\n' :: (texts.flatMap itemLine ++ ']' :: rest)) := by
      rw [← dropGap?_writeText]
      simp [itemLine, dropGap?, isBlank]
    rw [List.length_cons, ← Nat.add_assoc, readItems_writeText hgap (by simp) (by simp),
      dropGap?_cons rfl]
    simp only [required, bind, Except.bind, ih]
    rfl

theorem writeTexts_of_two_le {texts : List String} (h : 2 ≤ texts.length) :
    writeTexts texts = '[' :: '\n' :: (texts.flatMap itemLine ++ [']']) := by
  match texts with
  | [] => simp at h
  | [_] => simp at h
  | _ :: _ :: _ => rfl

theorem length_le_flatMap_itemLine (texts : List String) :
    texts.length ≤ (texts.flatMap itemLine).length := by
  induction texts with
  | nil => exact Nat.le_refl _
  | cons text texts ih =>
    rw [List.flatMap_cons, itemLine]
    simp only [List.length_append, List.length_cons]
    omega

/-- An array is read back. -/
theorem readValue_writeTexts (texts : List String) (hbound : (writeTexts texts).length ≤ bound)
    (depth : Nat) (rest : List Char) :
    readValue bound (depth + 1) (writeTexts texts ++ rest) =
      .ok (.array (texts.map .text), rest) := by
  have harray {bound : Nat} {cs : List Char} {found : List Value × List Char}
      (h : readItems bound depth cs = .ok found) :
      readValue (bound + 1) (depth + 1) ('[' :: cs) = .ok (.array found.1, found.2) := by
    rw [readValue, h]
    rfl
  match texts with
  | [] =>
    obtain ⟨bound, rfl⟩ : ∃ n, bound = n + 2 := ⟨bound - 2, by simp [writeTexts] at hbound; omega⟩
    exact harray (show readItems _ depth (']' :: rest) = .ok ([], rest) from rfl)
  | [text] =>
    obtain ⟨q, more, hwrite, -⟩ := exists_writeText_eq_cons text
    obtain ⟨bound, rfl⟩ : ∃ n, bound = n + 3 :=
      ⟨bound - 3, by simp [writeTexts, hwrite] at hbound; omega⟩
    have hitems : readItems (bound + 2) depth (writeText text ++ ']' :: rest) =
        .ok ([.text text], rest) := by
      rw [readItems_writeText (dropGap?_writeText text _) (by simp) (by simp),
        dropGap?_cons rfl]
      rfl
    simpa [writeTexts] using harray hitems
  | first :: second :: others =>
    have hlength := length_le_flatMap_itemLine (first :: second :: others)
    rw [writeTexts_of_two_le (by simp)] at hbound ⊢
    obtain ⟨bound, rfl⟩ : ∃ n, bound = n + (first :: second :: others).length + 1 + 1 :=
      ⟨bound - (first :: second :: others).length - 2, by simp at hbound hlength ⊢; omega⟩
    simpa using harray (readItems_itemLines bound depth (first :: second :: others) rest)

/-- A value is read back, whatever comes on the lines after it. -/
theorem readValue_write (value : Plain) (hbound : value.write.length ≤ bound) (depth : Nat)
    (rest : List Char) :
    readValue bound (depth + 1) (value.write ++ '\n' :: rest) =
      .ok (value.value, '\n' :: rest) := by
  cases value with
  | text content =>
    obtain ⟨q, more, hwrite, -⟩ := exists_writeText_eq_cons content
    obtain ⟨bound, rfl⟩ : ∃ n, bound = n + 1 :=
      ⟨bound - 1, by simp [Plain.write, hwrite] at hbound; omega⟩
    exact readValue_writeText bound _ (by simp) (by simp)
  | texts items => exact readValue_writeTexts items hbound depth _

/-! ### Names -/

/-- A name that stands without quotes. -/
def IsBare (name : String) : Prop := name.toList ≠ [] ∧ ∀ c ∈ name.toList, isKeyChar c = true

instance (name : String) : Decidable (IsBare name) :=
  decidable_of_iff ((!name.toList.isEmpty && name.toList.all isKeyChar) = true) (by simp [IsBare])

theorem IsBare.exists_eq_cons (h : IsBare name) :
    ∃ c more, name.toList = c :: more ∧ isKeyChar c = true := by
  obtain ⟨c, more, hname⟩ := List.exists_cons_of_ne_nil h.1
  exact ⟨c, more, hname, h.2 c (hname ▸ List.mem_cons_self)⟩

/-- A name is read up to the first character that cannot belong to it. -/
theorem readKey?_append (h : IsBare name) (hrest : rest.head?.all (!isKeyChar ·) = true) :
    readKey? (name.toList ++ rest) = some (name, rest) := by
  obtain ⟨c, more, hname, hc⟩ := h.exists_eq_cons
  have hline : readLine? (name.toList ++ rest) = none := by
    rw [hname, List.cons_append, readLine?.eq_def]
    split
    · next heq =>
      obtain ⟨rfl, -⟩ := List.cons_eq_cons.1 heq
      cases hc
    · next heq =>
      obtain ⟨rfl, -⟩ := List.cons_eq_cons.1 heq
      cases hc
    · rfl
  have htake : (name.toList ++ rest).takeWhile isKeyChar = name.toList := by
    rw [List.takeWhile_append_of_pos h.2]
    cases rest <;> simp_all
  have hdrop : (name.toList ++ rest).dropWhile isKeyChar = rest := by
    rw [List.dropWhile_append_of_pos h.2]
    cases rest <;> simp_all
  rw [readKey?, hline, htake, hdrop, String.ofList_toList]
  exact if_pos (by simp [hname, hc])

/-- A path of a single name. -/
theorem readPath?_append (h : IsBare name) (hrest : rest.head?.all (!isKeyChar ·) = true)
    (hdot : ∀ more, dropBlanks rest ≠ '.' :: more) (bound : Nat) :
    readPath? (bound + 1) (name.toList ++ rest) = some (⟨[], name⟩, dropBlanks rest) := by
  rw [readPath?, readKey?_append h hrest, Option.bind_eq_bind, Option.bind_some]
  dsimp only
  split
  · next heq => exact absurd heq (hdot _)
  · rfl

/-! ### Statements -/

theorem dropBlanks_write (value : Plain) (rest : List Char) :
    dropBlanks (value.write ++ rest) = value.write ++ rest := by
  have hcons : ∃ c more, value.write = c :: more ∧ isBlank c = false := by
    cases value with
    | text content =>
      obtain ⟨q, more, hwrite, rfl | rfl⟩ := exists_writeText_eq_cons content
      · exact ⟨_, more, hwrite, rfl⟩
      · exact ⟨_, more, hwrite, rfl⟩
    | texts items =>
      match items with
      | [] => exact ⟨_, _, rfl, rfl⟩
      | [_] => exact ⟨_, _, rfl, rfl⟩
      | _ :: _ :: _ => exact ⟨_, _, rfl, rfl⟩
  obtain ⟨c, more, hwrite, hc⟩ := hcons
  rw [hwrite, List.cons_append, dropBlanks, List.dropWhile_cons_of_neg (by simp [hc])]

theorem readAssigned?_append (h : IsBare name) (value : Plain) (rest : List Char) :
    readAssigned? (name.toList ++ ([' ', '=', ' '] ++ (value.write ++ rest))) =
      some (⟨[], name⟩, value.write ++ rest) := by
  have hblanks : dropBlanks ([' ', '=', ' '] ++ (value.write ++ rest)) =
      '=' :: ' ' :: (value.write ++ rest) := rfl
  have hdot (more : List Char) :
      dropBlanks ([' ', '=', ' '] ++ (value.write ++ rest)) ≠ '.' :: more := by
    rw [hblanks]
    simp
  rw [readAssigned?, allowedDepth, readPath?_append h rfl hdot, hblanks, Option.bind_eq_bind,
    Option.bind_some]
  change some ((⟨[], name⟩ : KeyPath), dropBlanks (value.write ++ rest)) = _
  rw [dropBlanks_write]

/-- A line that gives a value to a name. -/
theorem readStatement_writeField (document : Document) (h : IsBare name) (value : Plain)
    (rest : List Char) :
    readStatement document (writeField name value.write ++ rest) =
      (document.assign ⟨[], name⟩ value.value).map fun document => (document, '\n' :: rest) := by
  have hassigned := readAssigned?_append h value ('\n' :: rest)
  have hvalue : readValue (value.write ++ '\n' :: rest).length 80 _ = _ :=
    readValue_write value (by simp) 79 rest
  have hwritten : writeField name value.write ++ rest =
      name.toList ++ ([' ', '=', ' '] ++ (value.write ++ '\n' :: rest)) := by
    simp [writeField]
  rw [hwritten]
  obtain ⟨c, more, hname, hc⟩ := h.exists_eq_cons
  rw [hname, List.cons_append] at hassigned ⊢
  rw [readStatement.eq_def]
  split
  · next heq =>
    obtain ⟨rfl, -⟩ := List.cons_eq_cons.1 heq
    cases hc
  · next heq =>
    obtain ⟨rfl, -⟩ := List.cons_eq_cons.1 heq
    cases hc
  · rw [hassigned]
    simp only [required, bind, Except.bind, allowedDepth, hvalue]
    cases document.assign ⟨[], name⟩ value.value <;> rfl

/-- A line with the header of a table. -/
theorem readStatement_writeHeader (document : Document) (h : IsBare name) (rest : List Char) :
    readStatement document (writeHeader name ++ rest) =
      (document.root.header ⟨[], name⟩).map fun root => (⟨root, [name]⟩, '\n' :: rest) := by
  have hpath : readPath? 80 (name.toList ++ ']' :: '\n' :: rest) = _ :=
    readPath?_append h rfl (by nofun) 79
  have hwritten : writeHeader name ++ rest = '[' :: (name.toList ++ ']' :: '\n' :: rest) := by
    simp [writeHeader]
  rw [hwritten]
  obtain ⟨c, more, hname, hc⟩ := h.exists_eq_cons
  have hblanks : dropBlanks (name.toList ++ ']' :: '\n' :: rest) =
      name.toList ++ ']' :: '\n' :: rest := by
    have hblank := isBlank_of_isGap_eq_false (isGap_of_isKeyChar hc)
    rw [hname, List.cons_append, dropBlanks, List.dropWhile_cons_of_neg (by simp [hblank])]
  rw [readStatement.eq_def]
  split
  · next heq =>
    rw [hname] at heq
    obtain ⟨rfl, -⟩ := List.cons_eq_cons.1 (List.cons_eq_cons.1 heq).2
    cases hc
  · next heq =>
    obtain ⟨-, rfl⟩ := List.cons_eq_cons.1 heq
    rw [hblanks]
    rw [allowedDepth, hpath]
    change (document.root.header ⟨[], name⟩ >>= fun root =>
      Except.ok ((⟨root, [name]⟩ : Document), '\n' :: rest)) = _
    cases document.root.header ⟨[], name⟩ <;> rfl
  · next heq => exact absurd rfl (heq _)

/-! ### Tables -/

theorem lookup_eq_none_iff {β : Type} {table : List (String × β)} :
    table.lookup name = none ↔ name ∉ table.map (·.1) := by
  rw [List.lookup_eq_none_iff]
  constructor
  · rintro h hmem
    obtain ⟨entry, hentry, rfl⟩ := List.mem_map.1 hmem
    simpa using h entry hentry
  · rintro h entry hentry
    rw [bne_iff_ne]
    rintro rfl
    exact h (List.mem_map_of_mem hentry)

theorem assign_eq_append {table : Table} (h : table.lookup name = none) (value : Value) :
    table.assign ⟨[], name⟩ value .header = .ok (table ++ [(name, .value value)]) := by
  simp [Table.assign, Table.change, Table.put, h]

theorem header_eq_append {table : Table} (h : table.lookup name = none) :
    table.header ⟨[], name⟩ = .ok (table ++ [(name, .table .header [])]) := by
  simp [Table.header, Table.change, Table.begin, h]

/-- The document as a function of the table that is being filled. -/
def Document.Fills (fill : Table → Document) : Prop :=
  ∀ table path value, (fill table).assign path value =
    (table.assign path value .header).map fill

theorem Document.fills_root : Document.Fills fun table => ⟨table, []⟩ := by
  intro table path value
  rw [Document.assign, Table.change]
  cases table.assign path value .header <;> rfl

theorem Document.fills_table {before : Table} (h : before.lookup name = none) :
    Document.Fills fun table => ⟨before ++ [(name, .table .header table)], [name]⟩ := by
  intro table path value
  have hlookup : (before ++ [(name, Item.table .header table)]).lookup name =
      some (.table .header table) := by
    rw [List.lookup_append, h, Option.none_or, List.lookup_cons_self]
  have hreplace (table' : Table) :
      (before ++ [(name, Item.table .header table)] : Table).replace name (.table .header table') =
        before ++ [(name, .table .header table')] := by
    have hbefore : before.map (fun entry =>
        if entry.1 = name then (name, Item.table .header table') else entry) = before := by
      refine List.map_congr_left (fun entry hentry => ?_) |>.trans (List.map_id _)
      have hne : entry.1 ≠ name := fun hname =>
        lookup_eq_none_iff.1 h (hname ▸ List.mem_map_of_mem hentry)
      exact if_neg hne
    rw [Table.replace, List.map_append, hbefore]
    simp
  simp only [Document.assign, Table.change, hlookup, Bool.false_and, hreplace]
  cases table.assign path value .header <;> rfl

/-! ### Documents -/

/-- What the names of fields stand for. -/
def fieldItems (fields : Fields) : Table :=
  fields.map fun field => (field.1, .value field.2.value)

/-- What the names of tables stand for. -/
def tableItems (tables : Sections) : Table :=
  tables.map fun table => (table.1, .table .header (fieldItems table.2))

theorem readStatements_writeField (document : Document) (h : IsBare name) (value : Plain) :
    readStatements (bound + 1) document (writeField name value.write ++ rest) =
      document.assign ⟨[], name⟩ value.value >>= fun document =>
        readStatements bound document rest := by
  have hstatement := readStatement_writeField document h value rest
  obtain ⟨c, more, hname, hc⟩ := h.exists_eq_cons
  have hwritten : writeField name value.write ++ rest =
      c :: (more ++ [' ', '=', ' '] ++ value.write ++ ['\n'] ++ rest) := by
    simp [writeField, hname]
  rw [hwritten] at hstatement ⊢
  rw [readStatements, dropGap?_cons (isGap_of_isKeyChar hc)]
  simp only [required, bind, Except.bind, hstatement]
  cases document.assign ⟨[], name⟩ value.value <;> rfl

theorem readStatements_writeHeader (document : Document) (h : IsBare name) :
    readStatements (bound + 1) document ('\n' :: writeHeader name ++ rest) =
      document.root.header ⟨[], name⟩ >>= fun root => readStatements bound ⟨root, [name]⟩ rest := by
  have hstatement := readStatement_writeHeader document h rest
  simp only [writeHeader, List.cons_append] at hstatement ⊢
  rw [readStatements, dropGap?_line, dropGap?_cons rfl]
  simp only [required, bind, Except.bind, hstatement]
  cases document.root.header ⟨[], name⟩ <;> rfl

/-- Lines put their values into the table that is being filled. -/
theorem readStatements_writeFields {fill : Table → Document} (hfill : Document.Fills fill)
    {fields : Fields} (hbare : ∀ field ∈ fields, IsBare field.1) {table : Table}
    (hnodup : (table.map (·.1) ++ fields.map (·.1)).Nodup) :
    readStatements (bound + fields.length) (fill table) (writeFields fields ++ rest) =
      readStatements bound (fill (table ++ fieldItems fields)) rest := by
  induction fields generalizing table with
  | nil => simp [writeFields, fieldItems]
  | cons field fields ih =>
    obtain ⟨hfield, hfields⟩ := List.forall_mem_cons.1 hbare
    have hlookup : table.lookup field.1 = none := by
      rw [lookup_eq_none_iff]
      intro hmem
      simp only [List.map_cons, List.nodup_append, List.mem_cons] at hnodup
      exact hnodup.2.2 _ hmem _ (.inl rfl) rfl
    have hnodup' : ((table ++ [(field.1, Item.value field.2.value)]).map (·.1) ++
        fields.map (·.1)).Nodup := by
      simpa using hnodup
    rw [writeFields, List.flatMap_cons, ← writeFields, List.append_assoc, List.length_cons,
      ← Nat.add_assoc, readStatements_writeField _ hfield, hfill, assign_eq_append hlookup]
    change readStatements (bound + fields.length) (fill (table ++ [_])) _ = _
    rw [ih hfields hnodup', fieldItems, fieldItems, List.map_cons, List.append_assoc,
      List.singleton_append]

/-- The number of statements in tables. -/
def statementCount : Sections → Nat
  | [] => 0
  | table :: tables => table.2.length + 1 + statementCount tables

/-- A header begins a table, and the lines up to the next header fill it. -/
theorem readStatements_writeTables {tables : Sections}
    (hbare : ∀ table ∈ tables, IsBare table.1 ∧ ∀ field ∈ table.2, IsBare field.1)
    (hfields : ∀ table ∈ tables, (table.2.map (·.1)).Nodup) (document : Document)
    (hnodup : (document.root.map (·.1) ++ tables.map (·.1)).Nodup) :
    ∃ document', document'.root = document.root ++ tableItems tables ∧
      readStatements (bound + statementCount tables) document (writeTables tables ++ rest) =
        readStatements bound document' rest := by
  induction tables generalizing document with
  | nil => exact ⟨document, by simp [tableItems], rfl⟩
  | cons table tables ih =>
    obtain ⟨⟨htable, hinner⟩, hbare⟩ := List.forall_mem_cons.1 hbare
    obtain ⟨hinnerNodup, hfields⟩ := List.forall_mem_cons.1 hfields
    have hlookup : document.root.lookup table.1 = none := by
      rw [lookup_eq_none_iff]
      intro hmem
      simp only [List.map_cons, List.nodup_append, List.mem_cons] at hnodup
      exact hnodup.2.2 _ hmem _ (.inl rfl) rfl
    -- The table is filled behind what comes before it, and then it is one of the earlier entries.
    have hfill : readStatements (bound + statementCount tables + table.2.length)
        ⟨document.root ++ [(table.1, .table .header [])], [table.1]⟩
        (writeFields table.2 ++ (writeTables tables ++ rest)) = _ :=
      readStatements_writeFields (Document.fills_table hlookup) hinner (by simpa using hinnerNodup)
    have hnodup' : ((document.root ++ [(table.1, Item.table .header (fieldItems table.2))]).map
        (·.1) ++ tables.map (·.1)).Nodup := by
      simpa using hnodup
    obtain ⟨document', hroot, hread⟩ := ih hbare hfields
      ⟨document.root ++ [(table.1, .table .header (fieldItems table.2))], [table.1]⟩ hnodup'
    refine ⟨document', by simp [hroot, tableItems], ?_⟩
    have hwritten : writeTables (table :: tables) ++ rest = '\n' :: writeHeader table.1 ++
        (writeFields table.2 ++ (writeTables tables ++ rest)) := by
      simp [writeTables]
    have hcount : bound + statementCount (table :: tables) =
        bound + statementCount tables + table.2.length + 1 := by
      rw [statementCount]
      omega
    rw [hwritten, hcount, readStatements_writeHeader _ htable, header_eq_append hlookup]
    change readStatements _ ⟨document.root ++ [(table.1, .table .header [])], [table.1]⟩ _ = _
    rw [hfill, List.nil_append, hread]

/-! ### Whole documents -/

/-- All names stand without quotes, and no name is given twice. -/
structure IsDocument (fields : Fields) (tables : Sections) : Prop where
  bare_fields : ∀ field ∈ fields, IsBare field.1
  bare_tables : ∀ table ∈ tables, IsBare table.1 ∧ ∀ field ∈ table.2, IsBare field.1
  nodup : (fields.map (·.1) ++ tables.map (·.1)).Nodup
  nodup_tables : ∀ table ∈ tables, (table.2.map (·.1)).Nodup

theorem entriesToValues_append (a b : Table) :
    entriesToValues (a ++ b) = entriesToValues a ++ entriesToValues b := by
  induction a with
  | nil => rfl
  | cons entry a ih => rw [List.cons_append, entriesToValues, entriesToValues, ih, List.cons_append]

theorem entriesToValues_fieldItems (fields : Fields) :
    entriesToValues (fieldItems fields) = fieldValues fields := by
  induction fields with
  | nil => rfl
  | cons field fields ih =>
    rw [fieldItems, List.map_cons, entriesToValues, ← fieldItems, ih]
    rfl

theorem entriesToValues_tableItems (tables : Sections) :
    entriesToValues (tableItems tables) =
      tables.map fun table => (table.1, .table (fieldValues table.2)) := by
  induction tables with
  | nil => rfl
  | cons table tables ih =>
    rw [tableItems, List.map_cons, entriesToValues, ← tableItems, ih, Item.toValue,
      entriesToValues_fieldItems, List.map_cons]

/-- Every statement has a character of its own. -/
theorem count_le_length (fields : Fields) (tables : Sections) :
    fields.length + statementCount tables ≤ (writeFields fields ++ writeTables tables).length := by
  have hfields (fields : Fields) : fields.length ≤ (writeFields fields).length := by
    induction fields with
    | nil => exact Nat.le_refl _
    | cons field fields ih =>
      rw [writeFields, List.flatMap_cons, ← writeFields, writeField]
      simp only [List.length_append, List.length_cons]
      omega
  have htables : statementCount tables ≤ (writeTables tables).length := by
    induction tables with
    | nil => exact Nat.le_refl _
    | cons table tables ih =>
      have := hfields table.2
      rw [statementCount, writeTables, List.flatMap_cons, ← writeTables, writeHeader]
      simp only [List.length_append, List.length_cons]
      omega
  rw [List.length_append]
  exact Nat.add_le_add (hfields fields) htables

/-- No document begins with a mark of the byte order. -/
theorem head?_writeDocument {fields : Fields} {tables : Sections}
    (h : ∀ field ∈ fields, IsBare field.1) :
    (writeFields fields ++ writeTables tables).head? ≠ some '\ufeff' := by
  cases fields with
  | nil =>
    cases tables with
    | nil => simp [writeFields, writeTables]
    | cons table tables => simp [writeFields, writeTables]
  | cons field fields =>
    obtain ⟨c, more, hname, hc⟩ := (List.forall_mem_cons.1 h).1.exists_eq_cons
    have hne : c ≠ '\ufeff' := by
      rintro rfl
      cases hc
    simpa [writeFields, writeField, hname] using hne

theorem read_ofList (h : cs.head? ≠ some '\ufeff') :
    read (String.ofList cs) =
      (readStatements (cs.length + 1) {} cs).map fun document => entriesToValues document.root := by
  rw [read, String.toList_ofList]
  split
  · simp at h
  · cases readStatements (cs.length + 1) {} cs <;> rfl

/-- A document is read back: every table has the values under its header and no others. -/
theorem read_writeDocument {fields : Fields} {tables : Sections} (h : IsDocument fields tables) :
    read (writeDocument fields tables) = .ok (documentValues fields tables) := by
  obtain ⟨bound, hbound⟩ := Nat.exists_eq_add_of_le (count_le_length fields tables)
  have hnodupFields : (fields.map (·.1)).Nodup := h.nodup.of_append_left
  have hfields : readStatements (bound + 1 + statementCount tables + fields.length) ⟨[], []⟩
      (writeFields fields ++ writeTables tables) = _ :=
    readStatements_writeFields Document.fills_root h.bare_fields (by simpa using hnodupFields)
  obtain ⟨document, hroot, htables⟩ : ∃ document : Document,
      document.root = fieldItems fields ++ tableItems tables ∧
      readStatements (bound + 1 + statementCount tables) ⟨fieldItems fields, []⟩
        (writeTables tables ++ []) = readStatements (bound + 1) document [] :=
    readStatements_writeTables h.bare_tables h.nodup_tables ⟨fieldItems fields, []⟩
      (by simpa [fieldItems, Function.comp_def] using h.nodup)
  have hcount : fields.length + statementCount tables + bound + 1 =
      bound + 1 + statementCount tables + fields.length := by omega
  have hend : readStatements (bound + 1) document [] = .ok document := rfl
  rw [List.append_nil, hend] at htables
  rw [writeDocument, read_ofList (head?_writeDocument h.bare_fields), hbound, hcount, hfields,
    List.nil_append, htables]
  change Except.ok (entriesToValues document.root) = _
  rw [hroot, entriesToValues_append, entriesToValues_fieldItems,
    entriesToValues_tableItems, documentValues]

end RuledMarkup.Toml
