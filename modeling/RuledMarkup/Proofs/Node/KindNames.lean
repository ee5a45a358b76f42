import RuledMarkup.Node.Inspect
import RuledMarkup.Proofs.Text.Quoted

/-!
# Kinds of nodes written out

A kind is written as its name and the details behind it.  The name consists of letters and the
details do not begin with one, so the name tells where it ends; and for each name, the details are
read back.  Styles are written by names of their own, which have to consist of letters.

## Main definitions

* `IsName` : a text consists of letters.
* `Kind.name`, `Kind.details` : the two parts of a kind that is written out.
* `Kind.StylesNamed` : the styles of a kind have names.

## Main results

* `Kind.inspect_eq_iff` : kinds are written alike just if they are the same, apart from styles known
  only when they are rendered.
* `Kind.line_end_notMem_inspect` : a kind is written on one line.
-/

namespace RuledMarkup

open Text

/-- The text consists of letters. -/
def IsName (s : String) : Prop := s ≠ "" ∧ ∀ c ∈ s.toList, c.isAlpha = true

instance (s : String) : Decidable (IsName s) :=
  decidable_of_iff (s ≠ "" ∧ s.toList.all Char.isAlpha = true) (by rw [IsName, List.all_eq_true])

/-! ### Names -/

section Names

variable {s t : String} {x y : List Char}

/-- Two names, each with something behind it that does not begin with a letter. -/
theorem IsName.append_inj (hs : IsName s) (ht : IsName t) (hx : ∀ c ∈ x.head?, c.isAlpha = false)
    (hy : ∀ c ∈ y.head?, c.isAlpha = false) (h : s.toList ++ x = t.toList ++ y) :
    s = t ∧ x = y := by
  obtain ⟨hname, hrest⟩ := append_inj_of_head? hs.2 ht.2 hx hy h
  exact ⟨String.toList_inj.1 hname, hrest⟩

theorem IsName.notMem {c : Char} (hs : IsName s) (hc : c.isAlpha = false) : c ∉ s.toList :=
  fun hmem => by simp [hs.2 c hmem] at hc

/-- A name begins with a letter. -/
theorem IsName.append_ne_cons {c : Char} (hs : IsName s) (hc : c.isAlpha = false)
    (x y : List Char) : s.toList ++ x ≠ c :: y := by
  intro h
  cases hchars : s.toList with
  | nil => exact hs.1 (by simpa using hchars)
  | cons d rest =>
    rw [hchars, List.cons_append] at h
    exact hs.notMem hc (by rw [hchars, (List.cons.inj h).1]; exact List.mem_cons_self)

/-- A list of names, of which each but the first has a comma before it. -/
theorem toList_intercalate_cons (name : String) (names : List String) :
    (", ".intercalate (name :: names)).toList =
      name.toList ++ names.flatMap fun name => ',' :: ' ' :: name.toList := by
  induction names generalizing name with
  | nil => simp
  | cons next names ih =>
    rw [String.intercalate_cons_cons, String.toList_append, String.toList_append, ih]
    simp

theorem flatMap_comma_inj {names others : List String} (hnames : ∀ name ∈ names, IsName name)
    (hothers : ∀ name ∈ others, IsName name)
    (h : (names.flatMap fun name => ',' :: ' ' :: name.toList) ++ ']' :: x =
      (others.flatMap fun name => ',' :: ' ' :: name.toList) ++ ']' :: y) :
    names = others ∧ x = y := by
  -- Behind a name there is a comma or the closing bracket.
  have hbehind (names : List String) (x : List Char) :
      ∀ c ∈ ((names.flatMap fun name => ',' :: ' ' :: name.toList) ++ ']' :: x).head?,
        c.isAlpha = false := by
    cases names <;> simp +decide
  induction names generalizing others with
  | nil =>
    cases others with
    | nil => simpa using h
    | cons other others => simp at h
  | cons name names ih =>
    cases others with
    | nil => simp at h
    | cons other others =>
      obtain ⟨hname, hnames⟩ := List.forall_mem_cons.1 hnames
      obtain ⟨hother, hothers⟩ := List.forall_mem_cons.1 hothers
      simp only [List.flatMap_cons, List.cons_append, List.append_assoc, List.cons.injEq,
        true_and] at h
      obtain ⟨hnext, hrest⟩ := hname.append_inj hother (hbehind _ _) (hbehind _ _) h
      obtain ⟨hnext', rfl⟩ := ih hnames hothers hrest
      exact ⟨by rw [hnext, hnext'], rfl⟩

/-- Names before a closing bracket are read back. -/
theorem intercalate_inj {names others : List String} (hnames : ∀ name ∈ names, IsName name)
    (hothers : ∀ name ∈ others, IsName name)
    (h : (", ".intercalate names).toList ++ ']' :: x =
      (", ".intercalate others).toList ++ ']' :: y) :
    names = others ∧ x = y := by
  cases names with
  | nil =>
    cases others with
    | nil => simpa using h
    | cons other others =>
      rw [toList_intercalate_cons, List.append_assoc] at h
      exact absurd h.symm ((hothers other List.mem_cons_self).append_ne_cons (by decide) _ _)
  | cons name names =>
    cases others with
    | nil =>
      rw [toList_intercalate_cons, List.append_assoc] at h
      exact absurd h ((hnames name List.mem_cons_self).append_ne_cons (by decide) _ _)
    | cons other others =>
      -- A comma before the first name makes it one of the later names.
      rw [toList_intercalate_cons, toList_intercalate_cons] at h
      exact flatMap_comma_inj hnames hothers (by simpa using h)

end Names

/-! ### Kinds -/

variable {R T : Type} {style : T → String} {k l : Kind R T}

namespace Kind

/-- The name of a kind. -/
def name : Kind R T → String
  | parent => "Parent"
  | text _ => "Text"
  | .style _ => "Style"
  | styledText _ _ => "StyledTextNode"
  | code _ _ _ => "CodeNode"
  | inlineCode _ => "InlineCodeNode"
  | definition => "DefinitionNode"
  | function => "FunctionNode"
  | field => "FieldNode"
  | tag _ _ _ _ => "TagNode"
  | listItem _ => "ListItemNode"
  | mention _ _ => "Mention"

/-- What stands behind the name of a kind. -/
def details (style : T → String) : Kind R T → String
  | text content => "(" ++ quote content ++ ")"
  | .style styles => "([" ++ ", ".intercalate (styles.map style) ++ "])"
  | styledText content _ => "(" ++ quote content ++ ")"
  | code language body _ =>
    " \x7b language: " ++
      (Layout.compact.option (language.map quote) ++ ", body: " ++ quote body) ++ " \x7d"
  | tag opening closing _ _ =>
    " \x7b opening: " ++
      (quote opening ++ ", closing: " ++ Layout.compact.option (closing.map quote)) ++ " \x7d"
  | mention key _ => "(" ++ quote key ++ ")"
  | _ => ""

/-- The styles of a kind. -/
def styles : Kind R T → List T
  | .style styles => styles
  | _ => []

/-- The styles of the kind have names. -/
def StylesNamed (style : T → String) (k : Kind R T) : Prop := ∀ t ∈ k.styles, IsName (style t)

theorem inspect_eq (style : T → String) (k : Kind R T) :
    k.inspect .compact style = k.name ++ k.details style := by
  refine String.toList_inj.1 ?_
  cases k with
  | style styles =>
    cases styles <;>
      simp [inspect, name, details, Layout.tuple, Layout.list, Layout.enclose]
  | _ =>
    simp [inspect, name, details, Layout.tuple, Layout.record, Layout.enclose,
      String.intercalate_cons_cons]

theorem isName_name (k : Kind R T) : IsName k.name := by
  cases k <;>
    · rw [name]
      decide

theorem isAlpha_of_mem_head?_details (style : T → String) (k : Kind R T) :
    ∀ c ∈ (k.details style).toList.head?, c.isAlpha = false := by
  cases k <;> simp +decide [details]

/-- Kinds are written alike just if their names and their details are. -/
theorem inspect_eq_inspect_iff :
    k.inspect .compact style = l.inspect .compact style ↔
      k.name = l.name ∧ k.details style = l.details style := by
  rw [inspect_eq, inspect_eq]
  constructor
  · intro h
    have hchars := congrArg String.toList h
    rw [String.toList_append, String.toList_append] at hchars
    obtain ⟨hname, hdetails⟩ := k.isName_name.append_inj l.isName_name
      (isAlpha_of_mem_head?_details style k) (isAlpha_of_mem_head?_details style l) hchars
    exact ⟨hname, String.toList_inj.1 hdetails⟩
  · rintro ⟨hname, hdetails⟩
    rw [hname, hdetails]

/-! ### Details -/

theorem readsBack_argument : ReadsBack fun content => "(" ++ quote content ++ ")" :=
  (readsBack_quote.before _).after _

theorem readsBack_code : ReadsBack fun code : Option String × String =>
    " \x7b language: " ++
      (Layout.compact.option (code.1.map quote) ++ ", body: " ++ quote code.2) ++ " \x7d" :=
  (((readsBack_quote.option.after _).pair readsBack_quote).before _).after _

theorem readsBack_tag : ReadsBack fun tag : String × Option String =>
    " \x7b opening: " ++
      (quote tag.1 ++ ", closing: " ++ Layout.compact.option (tag.2.map quote)) ++ " \x7d" :=
  (((readsBack_quote.after _).pair readsBack_quote.option).before _).after _

/-- Styles with names are read back. -/
theorem styles_inj {styles others : List T} (hstyle : Function.Injective style)
    (hstyles : ∀ t ∈ styles, IsName (style t)) (hothers : ∀ t ∈ others, IsName (style t))
    (h : "([" ++ ", ".intercalate (styles.map style) ++ "])" =
      "([" ++ ", ".intercalate (others.map style) ++ "])") : styles = others := by
  have hchars := congrArg String.toList h
  simp only [String.toList_append, List.append_assoc] at hchars
  obtain ⟨hnames, -⟩ := intercalate_inj (by simpa using hstyles) (by simpa using hothers)
    (List.append_cancel_left hchars)
  exact hstyle.list_map hnames

variable [BEq T] [LawfulBEq T]

/-- Kinds that are the same are written alike. -/
theorem inspect_eq_of_same (h : k.same l = true) (layout : Layout) :
    k.inspect layout style = l.inspect layout style := by
  cases k <;> cases l <;> simp_all [same, inspect]

/-- Kinds that are written alike are the same. -/
theorem same_of_details_eq (hstyle : Function.Injective style) (hk : k.StylesNamed style)
    (hl : l.StylesNamed style) (hname : k.name = l.name)
    (hdetails : k.details style = l.details style) : k.same l = true := by
  cases k with
  | parent =>
    cases l with
    | parent => rfl
    | _ => simp [name] at hname
  | text content =>
    cases l with
    | text other => simpa [same] using readsBack_argument.injective hdetails
    | _ => simp [name] at hname
  | style styles =>
    cases l with
    | style others =>
      have hstyles : styles = others := styles_inj hstyle hk hl hdetails
      simpa [same] using hstyles
    | _ => simp [name] at hname
  | styledText content =>
    cases l with
    | styledText other => simpa [same] using readsBack_argument.injective hdetails
    | _ => simp [name] at hname
  | code language body =>
    cases l with
    | code language' body' =>
      have hcode : (language, body) = (language', body') := readsBack_code.injective hdetails
      simpa [same] using hcode
    | _ => simp [name] at hname
  | inlineCode =>
    cases l with
    | inlineCode => rfl
    | _ => simp [name] at hname
  | definition =>
    cases l with
    | definition => rfl
    | _ => simp [name] at hname
  | function =>
    cases l with
    | function => rfl
    | _ => simp [name] at hname
  | field =>
    cases l with
    | field => rfl
    | _ => simp [name] at hname
  | tag opening closing =>
    cases l with
    | tag opening' closing' =>
      have htag : (opening, closing) = (opening', closing') := readsBack_tag.injective hdetails
      simpa [same] using htag
    | _ => simp [name] at hname
  | listItem =>
    cases l with
    | listItem => rfl
    | _ => simp [name] at hname
  | mention key =>
    cases l with
    | mention other => simpa [same] using readsBack_argument.injective hdetails
    | _ => simp [name] at hname

/-- Kinds are written alike just if they are the same, apart from styles known only when they are
rendered. -/
theorem inspect_eq_iff (hstyle : Function.Injective style) (hk : k.StylesNamed style)
    (hl : l.StylesNamed style) :
    k.inspect .compact style = l.inspect .compact style ↔ k.same l = true := by
  refine ⟨fun h => ?_, fun h => inspect_eq_of_same h _⟩
  obtain ⟨hname, hdetails⟩ := inspect_eq_inspect_iff.1 h
  exact same_of_details_eq hstyle hk hl hname hdetails

omit [BEq T] [LawfulBEq T] in
/-- A kind is written on one line. -/
theorem line_end_notMem_inspect (hk : k.StylesNamed style) :
    '\n' ∉ (k.inspect .compact style).toList := by
  have hquote (s : String) : '\n' ∉ (quote s).toList := line_end_notMem_quote s
  have hoption (s : Option String) : '\n' ∉ (Layout.compact.option (s.map quote)).toList := by
    cases s <;> simp [Layout.option, Layout.tuple, Layout.enclose, hquote]
  rw [inspect_eq, String.toList_append, List.mem_append, not_or]
  refine ⟨k.isName_name.notMem (by decide), ?_⟩
  cases k with
  | style styles =>
    have hnames : ∀ t ∈ styles, '\n' ∉ (style t).toList := fun t ht => (hk t ht).notMem (by decide)
    cases styles with
    | nil => simp [details]
    | cons t styles =>
      obtain ⟨ht, hstyles⟩ := List.forall_mem_cons.1 hnames
      simp only [details, List.map_cons, String.toList_append, toList_intercalate_cons]
      simpa using ⟨ht, hstyles⟩
  | _ => simp [details, hquote, hoption]

end Kind

end RuledMarkup
