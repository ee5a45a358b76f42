import Mathlib.Data.List.Perm.Basic
import RuledMarkup.CommandLine

/-!
# The arguments of a call

The arguments of a call are a sequence of items: the option for the tree, the option for a theme
with the path behind it, and the path of a document.  The path of a document does not look like an
option, but that of a theme may.

## Main definitions

* `CommandLine.Item` : an item of the arguments of a call.
* `CommandLine.Splits` : arguments are the words of a list of items.
* `CommandLine.Asks` : what a list of items asks for.

## Main results

* `CommandLine.readFrom_words_eq_ok_iff` : what is read from the words of items.
* `CommandLine.exists_splits` : arguments that are read consist of items.
* `CommandLine.arguments_read_as_items` : what is read from arguments, also from arguments in
  another order.
-/

namespace RuledMarkup.CommandLine

/-- An item of the arguments of a call. -/
inductive Item where
  /-- The tree of the document is to be shown. -/
  | tree
  /-- A theme is at a path. -/
  | theme (path : String)
  /-- The document is at a path. -/
  | file (path : String)
deriving DecidableEq, Repr

namespace Item

/-- The arguments that an item consists of. -/
def words : Item → List String
  | tree => ["--tree"]
  | theme path => ["--theme", path]
  | file path => [path]

/-- The path of a document does not begin like an option; that of a theme may. -/
def IsReadable : Item → Prop
  | tree => True
  | theme _ => True
  | file path => path.startsWith "--" = false

/-- The path of a theme. -/
def theme? : Item → Option String
  | theme path => some path
  | _ => none

/-- The path of a document. -/
def file? : Item → Option String
  | file path => some path
  | _ => none

end Item

/-- The arguments are the words of the items, one item after the other. -/
structure Splits (arguments : List String) (items : List Item) : Prop where
  readable : ∀ item ∈ items, item.IsReadable
  words_eq : arguments = items.flatMap Item.words

/-- The items ask for what has been read: they may ask for the tree more than once, the last theme
counts, and they name just one document. -/
structure Asks (items : List Item) (found : Arguments) : Prop where
  tree_iff : found.tree = true ↔ .tree ∈ items
  theme_eq : found.theme = (items.filterMap Item.theme?).getLast?
  file_eq : items.filterMap Item.file? = [found.file]

variable {tree : Bool} {theme file : Option String} {items : List Item} {arguments : List String}
  {found : Arguments}

/-! ### One item -/

theorem readFrom_tree (rest : List String) :
    Arguments.readFrom tree theme file ("--tree" :: rest) =
      Arguments.readFrom true theme file rest := by
  rw [Arguments.readFrom.eq_def]
  exact if_pos rfl

theorem readFrom_theme (path : String) (rest : List String) :
    Arguments.readFrom tree theme file ("--theme" :: path :: rest) =
      Arguments.readFrom tree (some path) file rest := by
  rw [Arguments.readFrom, if_neg (by decide), if_pos rfl]

theorem readFrom_file {path : String} (hpath : (Item.file path).IsReadable) (rest : List String) :
    Arguments.readFrom tree theme file (path :: rest) =
      if file.isSome then .error .secondFile
      else Arguments.readFrom tree theme (some path) rest := by
  have hoption : path.startsWith "--" = false := hpath
  have htree : path ≠ "--tree" := by
    rintro rfl
    simp at hoption
  have htheme : path ≠ "--theme" := by
    rintro rfl
    simp at hoption
  rw [Arguments.readFrom.eq_def]
  simp only [htree, htheme, hoption, if_false, Bool.false_eq_true]

/-! ### All items -/

/-- What is read from the words of items, after other items have been read. -/
theorem readFrom_words_eq_ok_iff (hitems : ∀ item ∈ items, item.IsReadable) :
    Arguments.readFrom tree theme file (items.flatMap Item.words) = .ok found ↔
      (found.tree = true ↔ tree = true ∨ .tree ∈ items) ∧
      found.theme = (theme.toList ++ items.filterMap Item.theme?).getLast? ∧
      file.toList ++ items.filterMap Item.file? = [found.file] := by
  induction items generalizing tree theme file with
  | nil =>
    obtain ⟨tree', theme', file'⟩ := found
    cases file with
    | none => simp [Arguments.readFrom]
    | some file => cases theme <;> cases tree <;> simp [Arguments.readFrom, eq_comm]
  | cons item items ih =>
    obtain ⟨hitem, hrest⟩ := List.forall_mem_cons.1 hitems
    rw [List.flatMap_cons]
    cases item with
    | tree =>
      rw [Item.words, List.singleton_append, readFrom_tree, ih hrest]
      simp [List.filterMap_cons, Item.file?, Item.theme?]
    | theme path =>
      rw [Item.words, List.cons_append, List.singleton_append, readFrom_theme, ih hrest]
      cases theme <;> simp [List.filterMap_cons, Item.file?, Item.theme?]
    | file path =>
      rw [Item.words, List.singleton_append, readFrom_file hitem]
      cases file with
      | none =>
        rw [if_neg (by simp), ih hrest]
        simp [List.filterMap_cons, Item.file?, Item.theme?]
      | some first => simp [List.filterMap_cons, Item.file?]

/-- Arguments that are read consist of items. -/
theorem exists_splits (h : Arguments.readFrom tree theme file arguments = .ok found) :
    ∃ items, Splits arguments items := by
  fun_induction Arguments.readFrom tree theme file arguments with
  | case1 => cases h
  | case2 => exact ⟨[], by simp, rfl⟩
  | case3 tree theme file rest ih =>
    obtain ⟨items, hreadable, rfl⟩ := ih h
    exact ⟨.tree :: items, List.forall_mem_cons.2 ⟨trivial, hreadable⟩, rfl⟩
  | case4 => cases h
  | case5 tree theme file path rest _ ih =>
    obtain ⟨items, hreadable, rfl⟩ := ih h
    exact ⟨.theme path :: items, List.forall_mem_cons.2 ⟨trivial, hreadable⟩, rfl⟩
  | case6 => cases h
  | case7 => cases h
  | case8 tree theme file path rest _ _ hoption _ ih =>
    obtain ⟨items, hreadable, rfl⟩ := ih h
    exact ⟨.file path :: items,
      List.forall_mem_cons.2 ⟨Bool.eq_false_iff.2 hoption, hreadable⟩, rfl⟩

/-- The words of items are read as what the items ask for. -/
theorem Splits.read_eq_ok_iff (h : Splits arguments items) :
    Arguments.read arguments = .ok found ↔ Asks items found := by
  rw [Arguments.read, h.words_eq, readFrom_words_eq_ok_iff h.readable]
  constructor
  · rintro ⟨htree, htheme, hfile⟩
    exact ⟨by simpa using htree, htheme, hfile⟩
  · rintro ⟨htree, htheme, hfile⟩
    exact ⟨by simpa using htree, htheme, hfile⟩

/-- Items name one document if they ask for something. -/
theorem exists_asks_iff :
    (∃ found, Asks items found) ↔ ∃ path, items.filterMap Item.file? = [path] := by
  constructor
  · rintro ⟨found, hfound⟩
    exact ⟨found.file, hfound.file_eq⟩
  · rintro ⟨path, hfile⟩
    exact ⟨⟨decide (.tree ∈ items), (items.filterMap Item.theme?).getLast?, path⟩, by simp, rfl,
      hfile⟩

/-- The order of items makes no difference if at most one of them names a theme. -/
theorem Asks.perm {others : List Item} (h : Asks items found) (hperm : items.Perm others)
    (htheme : (items.filterMap Item.theme?).length ≤ 1) : Asks others found := by
  have hfiles := hperm.filterMap Item.file?
  have hthemes := hperm.filterMap Item.theme?
  refine ⟨by rw [h.tree_iff, hperm.mem_iff], ?_, ?_⟩
  · rw [h.theme_eq]
    generalize items.filterMap Item.theme? = paths at hthemes htheme
    match paths, htheme with
    | [], _ => rw [hthemes.nil_eq]
    | [path], _ => rw [List.singleton_perm.1 hthemes]
  · rw [h.file_eq] at hfiles
    exact (List.singleton_perm.1 hfiles).symm

/-- Arguments are read just if they consist of items of which one is a document, and what is read is
what the items ask for.  With at most one theme, the items can stand in any order. -/
theorem arguments_read_as_items (arguments : List String) :
    ((∃ found, Arguments.read arguments = .ok found) ↔
      ∃ items, Splits arguments items ∧ ∃ path, items.filterMap Item.file? = [path]) ∧
    (∀ items found, Splits arguments items → Arguments.read arguments = .ok found →
      Asks items found) ∧
    ∀ items others reordered found, Splits arguments items → Splits reordered others →
      items.Perm others → (items.filterMap Item.theme?).length ≤ 1 →
        Arguments.read arguments = .ok found → Arguments.read reordered = .ok found := by
  refine ⟨⟨?_, ?_⟩, ?_, ?_⟩
  · rintro ⟨found, hread⟩
    obtain ⟨items, hitems⟩ := exists_splits hread
    exact ⟨items, hitems, exists_asks_iff.1 ⟨found, hitems.read_eq_ok_iff.1 hread⟩⟩
  · rintro ⟨items, hitems, hpath⟩
    obtain ⟨found, hfound⟩ := exists_asks_iff.2 hpath
    exact ⟨found, hitems.read_eq_ok_iff.2 hfound⟩
  · intro items found hitems hread
    exact hitems.read_eq_ok_iff.1 hread
  · intro items others reordered found hitems hothers hperm htheme hread
    exact hothers.read_eq_ok_iff.2 ((hitems.read_eq_ok_iff.1 hread).perm hperm htheme)

/-- The path of a theme may look like an option. -/
theorem arguments_read_as_items_in_any_order :
    Arguments.read ["a.md", "--tree", "--theme", "--tree"] =
      .ok { tree := true, theme := some "--tree", file := "a.md" } := by
  have hitems : Splits ["--theme", "--tree", "a.md", "--tree"]
      [.theme "--tree", .file "a.md", .tree] := ⟨by simp [Item.IsReadable], rfl⟩
  have hothers : Splits ["a.md", "--tree", "--theme", "--tree"]
      [.file "a.md", .tree, .theme "--tree"] := ⟨by simp [Item.IsReadable], rfl⟩
  have hread : Arguments.read ["--theme", "--tree", "a.md", "--tree"] =
      .ok { tree := true, theme := some "--tree", file := "a.md" } :=
    hitems.read_eq_ok_iff.2 ⟨by simp, rfl, rfl⟩
  exact (arguments_read_as_items _).2.2 _ _ _ _ hitems hothers
    (List.perm_append_singleton (Item.theme "--tree") [.file "a.md", .tree]).symm (by decide) hread

end RuledMarkup.CommandLine
