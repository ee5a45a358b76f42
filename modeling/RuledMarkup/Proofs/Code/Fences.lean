import RuledMarkup.Code.Fence
import RuledMarkup.Proofs.Parse.Runs
import RuledMarkup.Proofs.Pattern.Groups
import RuledMarkup.Proofs.Regex.Sequences

/-!
# What stands between fences

A code block begins with a tag or with white space, and line ends behind the body belong to nothing.
Whether the tag is the language of the block or the first word of its body is decided afterwards.
Either way no character is lost that can be seen.

## Main definitions

* `Text.visible` : the characters of a text that are no white space.
* `Code.BlockForm`, `Code.InlineForm` : what a pattern for code reads.
* `Code.KeepsContent` : language and body have what can be seen between fences.

## Main results

* `Code.BlockForm.exists_frames` : what stands between the fences of a code block.
* `Code.buildBlock_cases` : the language and the body of a code block.
* `Code.exists_buildBlock` : a code block is built if its body can be parsed.
* `Code.code_keeps_content` : what can be seen between the fences is the language and the body.
-/

namespace RuledMarkup

/-- The characters of a text that are no white space, in their order. -/
def Text.visible (chars : List Char) : List Char := chars.filter fun c => !isSpace c

namespace Text

@[simp] theorem visible_nil : visible [] = [] := rfl

@[simp] theorem visible_append (a b : List Char) : visible (a ++ b) = visible a ++ visible b :=
  List.filter_append ..

theorem visible_eq_nil {chars : List Char} (h : ∀ c ∈ chars, isSpace c = true) :
    visible chars = [] :=
  List.filter_eq_nil_iff.2 fun c hc => by simp [h c hc]

end Text

namespace Code

open Text (byteSize visible visible_append visible_eq_nil)
open Regex (ReadsEach)

variable {R T S : Type}

/-! ### The patterns -/

/-- Characters, each of which is read as it is. -/
def spelling (chars : List Char) : List Regex := chars.map fun c => .set (.one c)

/-- The body in a group, line ends, and a fence. -/
def closing (group : Nat) (fence : List Char) : List Regex :=
  .group group none (.cat (.set (.compl (.one '\n'))) (.loop false 0 none (.set .any))) ::
    .loop true 0 none (.set (.one '\n')) :: spelling fence

/-- The characters of tags. -/
def tagSet : CharSet :=
  .union (.union (.union (.union (.union (.union (.range 'A' 'Z') (.range 'a' 'z'))
    (.range '0' '9')) (.one '_')) (.one '+')) (.one '-')) (.one '.')

/-- The fence around a code block. -/
def blockFence : List Char := ['`', '`', '`']

/-- A pattern reads a fence, a tag with white space behind it or only white space, the body, line
ends and a fence. -/
structure BlockForm (pattern : Pattern) : Prop where
  isCut : pattern.isCut = true
  ahead? : pattern.ahead? = none
  strands : pattern.regex.strands =
    [.look .start :: spelling blockFence ++ .group 1 none (.loop true 1 none (.set tagSet)) ::
        .group 2 none (.loop true 1 none (.set .space)) :: closing 4 blockFence,
      .look .start :: spelling blockFence ++ .group 3 none (.loop true 0 none (.set .space)) ::
        closing 4 blockFence]

/-- A pattern reads a fence, white space, the body, line ends and a fence. -/
structure InlineForm (pattern : Pattern) : Prop where
  isCut : pattern.isCut = true
  ahead? : pattern.ahead? = none
  strands : pattern.regex.strands =
    [.look .start :: spelling ['`'] ++ .loop true 0 none (.set .space) :: closing 1 ['`']]

theorem blockForm : BlockForm block := by constructor <;> decide +kernel

theorem inlineForm : InlineForm inlineCode := by constructor <;> decide +kernel

/-- What the strands of the patterns for code show. -/
structure FenceShapes : Prop where
  block_hasGroup : block.hasGroup 4 = true
  block_isAdvancing : block.isAdvancing = true
  inlineCode_hasGroup : inlineCode.hasGroup 1 = true
  inlineCode_isAdvancing : inlineCode.isAdvancing = true

theorem fenceShapes : FenceShapes := by constructor <;> decide +kernel

section Readings

variable {pre word post fence : List Char} {parts : List Regex} {bindings : Bindings}

/-- Characters read themselves. -/
theorem readsEach_spelling_append :
    ReadsEach (spelling fence ++ parts) pre word post bindings ↔
      ∃ v, word = fence ++ v ∧ ReadsEach parts (pre ++ fence) v post bindings := by
  induction fence generalizing pre word with
  | nil => simp [spelling]
  | cons c fence ih =>
    rw [spelling, List.map_cons, List.cons_append, Regex.readsEach_one_cons]
    constructor
    · rintro ⟨_, rfl, h⟩
      obtain ⟨v, rfl, hparts⟩ := ih.1 h
      exact ⟨v, rfl, by simpa using hparts⟩
    · rintro ⟨v, rfl, h⟩
      exact ⟨fence ++ v, rfl, ih.2 ⟨v, rfl, by simpa using h⟩⟩

/-- A group gets the range of the body, and line ends come between the body and the fence. -/
theorem exists_of_readsEach_closing {group : Nat}
    (h : ReadsEach (closing group fence) pre word post bindings) :
    ∃ body ends, word = body ++ ends ++ fence ∧ (∀ c ∈ ends, Text.isSpace c = true) ∧
      bindings = [(group, ⟨byteSize pre, byteSize (pre ++ body)⟩)] := by
  obtain ⟨body, _, inner, _, rfl, rfl, hbody, ends, v, _, _, rfl, rfl, hends, hfence⟩ :=
    Regex.readsEach_group_cons.1 h
  obtain ⟨-, hends', rfl⟩ := Regex.reads_run_iff.1 hends
  rw [← List.append_nil (spelling fence), readsEach_spelling_append] at hfence
  obtain ⟨v, rfl, rfl, rfl⟩ := hfence
  obtain ⟨first, more, _, _, rfl, rfl, ⟨c, rfl, -, rfl⟩, hmore⟩ := hbody
  obtain ⟨-, -, rfl⟩ := Regex.reads_run_iff.1 hmore
  refine ⟨[c] ++ more, ends, by simp, fun d hd => ?_, rfl⟩
  obtain rfl : d = '\n' := by simpa [CharSet.mem] using hends' d hd
  rfl

end Readings

/-! ### What stands between fences -/

section Frames

variable {pattern : Pattern} {window : String} {captures : Captures}

/-- Between the fences of a code block are a tag, white space, the body and line ends.  If the tag
has no group, then there is none. -/
theorem BlockForm.exists_frames (hpattern : BlockForm pattern)
    (h : pattern.matchStart window = some captures) :
    ∃ tag gap body ends, captures.Frames 4 (blockFence ++ (tag ++ gap)) body (ends ++ blockFence) ∧
      (∀ c ∈ gap, Text.isSpace c = true) ∧ (∀ c ∈ ends, Text.isSpace c = true) ∧
      (tag = [] ∧ captures.range? 1 = none ∨
        captures.Frames 1 blockFence tag (gap ++ body ++ ends ++ blockFence)) := by
  obtain ⟨strand, hmem, bindings, post, hreads, hrange⟩ :=
    Pattern.exists_readsEach_strand hpattern.isCut hpattern.ahead? h
  rw [hpattern.strands, List.mem_cons, List.mem_singleton] at hmem
  rcases hmem with rfl | rfl
  · obtain ⟨_, htext, hreads⟩ :=
      readsEach_spelling_append.1 (Regex.readsEach_start_cons.1 hreads)
    obtain ⟨tag, _, _, _, rfl, rfl, htag, hreads⟩ := Regex.readsEach_group_cons.1 hreads
    obtain ⟨gap, _, _, _, rfl, rfl, hgap, hreads⟩ := Regex.readsEach_group_cons.1 hreads
    obtain ⟨body, ends, rfl, hends, rfl⟩ := exists_of_readsEach_closing hreads
    obtain ⟨-, -, rfl⟩ := Regex.reads_run_iff.1 htag
    obtain ⟨-, hspace, rfl⟩ := Regex.reads_run_iff.1 hgap
    refine ⟨tag, gap, body, ends, ⟨by simp [htext], ?_⟩, hspace, hends, .inr ⟨by simp [htext], ?_⟩⟩
    · rw [hrange (by decide)]
      simp
    · rw [hrange (by decide)]
      simp [List.lookup_cons]
  · obtain ⟨_, htext, hreads⟩ :=
      readsEach_spelling_append.1 (Regex.readsEach_start_cons.1 hreads)
    obtain ⟨gap, _, _, _, rfl, rfl, hgap, hreads⟩ := Regex.readsEach_group_cons.1 hreads
    obtain ⟨body, ends, rfl, hends, rfl⟩ := exists_of_readsEach_closing hreads
    obtain ⟨-, hspace, rfl⟩ := Regex.reads_run_iff.1 hgap
    refine ⟨[], gap, body, ends, ⟨by simp [htext], ?_⟩, hspace, hends, .inl ⟨rfl, ?_⟩⟩
    · rw [hrange (by decide)]
      simp
    · rw [hrange (by decide)]
      rfl

/-- Between the fences of inline code are white space, the body and line ends. -/
theorem InlineForm.exists_frames (hpattern : InlineForm pattern)
    (h : pattern.matchStart window = some captures) :
    ∃ gap body ends, captures.Frames 1 (['`'] ++ gap) body (ends ++ ['`']) ∧
      (∀ c ∈ gap, Text.isSpace c = true) ∧ (∀ c ∈ ends, Text.isSpace c = true) := by
  obtain ⟨strand, hmem, bindings, post, hreads, hrange⟩ :=
    Pattern.exists_readsEach_strand hpattern.isCut hpattern.ahead? h
  rw [hpattern.strands, List.mem_singleton] at hmem
  subst hmem
  obtain ⟨_, htext, gap, _, _, _, rfl, rfl, hgap, hreads⟩ :=
    readsEach_spelling_append.1 (Regex.readsEach_start_cons.1 hreads)
  obtain ⟨body, ends, rfl, hends, rfl⟩ := exists_of_readsEach_closing hreads
  obtain ⟨-, hspace, rfl⟩ := Regex.reads_run_iff.1 hgap
  refine ⟨gap, body, ends, ⟨by simp [htext], ?_⟩, hspace, hends⟩
  rw [hrange (by decide)]
  simp

end Frames

/-! ### The language and the body -/

variable {languages : Languages R T S} {textStyles : StyleProvider R T} {captures : Captures}
  {state : S} {node : Node R T}

/-- Without tag a code block has no language.  A tag is its language, or else the first word of its
body. -/
theorem buildBlock_cases (h : (buildBlock textStyles languages captures state).value = .ok node) :
    ∃ body, captures.group 4 = .ok body ∧
      (captures.text? 1 = none ∧ node = blockNode none body textStyles [] ∨
        (∃ tag tokens, captures.text? 1 = some tag ∧
          node = blockNode (some tag) body textStyles tokens ∧
          (tokens = [] ∨ ∃ rules, languages.lookup tag = some rules ∧
            (parse rules body state).value = .ok tokens)) ∨
        ∃ tag rest, captures.range? 1 = some tag ∧ captures.range? 4 = some rest ∧
          node =
            blockNode none (Text.slice captures.input ⟨tag.start, rest.stop⟩) textStyles []) := by
  rw [buildBlock] at h
  cases hbody : captures.group 4 with
  | error error =>
    rw [hbody] at h
    cases h
  | ok body =>
    refine ⟨body, rfl, ?_⟩
    simp only [hbody] at h
    cases htag : captures.text? 1 with
    | none =>
      rw [htag] at h
      exact .inl ⟨rfl, (Except.ok.inj h).symm⟩
    | some tag =>
      refine .inr ?_
      simp only [htag] at h
      cases hlookup : languages.lookup tag with
      | some rules =>
        simp only [hlookup] at h
        obtain ⟨tokens, htokens, rfl⟩ := exists_of_map_eq_ok h
        exact .inl ⟨tag, tokens, rfl, rfl, .inr ⟨rules, hlookup, htokens⟩⟩
      | none =>
        simp only [hlookup] at h
        split_ifs at h
        · exact .inl ⟨tag, [], rfl, (Except.ok.inj h).symm, .inl rfl⟩
        · -- The tag is a part of the body, so the ranges of both groups are asked for.
          obtain ⟨first, hfirst, h⟩ := exists_of_bind_eq_ok h
          obtain ⟨rest, hrest, h⟩ := exists_of_bind_eq_ok h
          exact .inr ⟨first, rest, Captures.range?_of_span hfirst, Captures.range?_of_span hrest,
            (Except.ok.inj h).symm⟩

/-- A code block has no tokens, or its body has been parsed into tokens with the rules of a
language. -/
theorem exists_of_buildBlock
    (h : (buildBlock textStyles languages captures state).value = .ok node) :
    ∃ language body tokens, node = blockNode language body textStyles tokens ∧
      (tokens = [] ∨ ∃ tag rules, languages.lookup tag = some rules ∧
        (parse rules body state).value = .ok tokens) := by
  obtain ⟨body, -, ⟨-, rfl⟩ | ⟨tag, tokens, -, rfl, htokens⟩ | ⟨tag, rest, -, -, rfl⟩⟩ :=
    buildBlock_cases h
  · exact ⟨none, body, [], rfl, .inl rfl⟩
  · exact ⟨some tag, body, tokens, rfl, htokens.imp_right fun h => ⟨tag, h⟩⟩
  · exact ⟨none, _, [], rfl, .inl rfl⟩

/-- A code block is only not built if its body cannot be parsed in its language. -/
theorem exists_of_buildBlock_eq_error {window : String} {error : ParseError}
    (hmatch : block.matchStart window = some captures)
    (h : (buildBlock textStyles languages captures state).value = .error error) :
    ∃ tag rules body, languages.lookup tag = some rules ∧
      (parse rules body state).value = .error error := by
  obtain ⟨range, hrange⟩ := Pattern.exists_range?_of_hasGroup fenceShapes.block_hasGroup hmatch
  rw [buildBlock, Captures.group_of_range? hrange] at h
  generalize Text.slice captures.input range = body at h
  dsimp only at h
  cases htag : captures.text? 1 with
  | none =>
    rw [htag] at h
    cases h
  | some tag =>
    simp only [htag] at h
    cases hlookup : languages.lookup tag with
    | some rules =>
      simp only [hlookup] at h
      refine ⟨tag, rules, body, hlookup, ?_⟩
      cases hparse : (parse rules body state).value with
      | error error' =>
        rw [hparse] at h
        exact congrArg Except.error (Except.error.inj h)
      | ok tokens =>
        rw [hparse] at h
        cases h
    | none =>
      simp only [hlookup] at h
      split_ifs at h
      · cases h
      · -- The tag is the first word of the body, so its group has taken part.
        obtain ⟨first, hfirst, -⟩ := Option.map_eq_some_iff.1 htag
        simp [Logged.quiet, Captures.span_of_range? hfirst, Captures.span_of_range? hrange, bind,
          Except.bind] at h

/-- A code block is built if its body can be parsed in every language. -/
theorem exists_buildBlock {window : String}
    (hlanguages : ∀ language rules, languages.lookup language = some rules →
      ∀ body state, ∃ tokens, (parse rules body state).value = .ok tokens)
    (h : block.matchStart window = some captures) (textStyles : StyleProvider R T) (state : S) :
    ∃ node, (buildBlock textStyles languages captures state).value = .ok node := by
  cases hbuild : (buildBlock textStyles languages captures state).value with
  | ok node => exact ⟨node, rfl⟩
  | error error =>
    obtain ⟨tag, rules, body, hlookup, hparse⟩ := exists_of_buildBlock_eq_error h hbuild
    obtain ⟨tokens, htokens⟩ := hlanguages tag rules hlookup body state
    cases hparse.symm.trans htokens

/-! ### What can be seen -/

/-- What has been consumed stands between fences.  The body is a piece of it, and what can be seen
of it is the language, if there is one, and then the body. -/
def KeepsContent (captures : Captures) (fence : List Char) (language : Option String)
    (body : String) : Prop :=
  ∃ before after, captures.consumed.toList = fence ++ (before ++ body.toList ++ after) ++ fence ∧
    visible (before ++ body.toList ++ after) =
      visible (language.getD "").toList ++ visible body.toList

/-- A code block is a node with the language and the body. -/
theorem exists_keepsContent_of_buildBlock {window : String}
    (hmatch : block.matchStart window = some captures)
    (h : (buildBlock textStyles languages captures state).value = .ok node) :
    ∃ language body tokens, node = blockNode language body textStyles tokens ∧
      KeepsContent captures blockFence language body := by
  obtain ⟨tag, gap, body, ends, hframes, hgap, hends, htag⟩ := blockForm.exists_frames hmatch
  have hover := Pattern.over_of_matchStart hmatch
  have hconsumed : captures.consumed.toList =
      blockFence ++ (tag ++ gap ++ body ++ ends) ++ blockFence := by
    simpa using hframes.toList_consumed
  obtain ⟨content, hcontent, hcases⟩ := buildBlock_cases h
  obtain rfl := Except.ok.inj ((hframes.group_eq hover).symm.trans hcontent)
  rcases hcases with
    ⟨hnone, rfl⟩ | ⟨language, tokens, hlanguage, rfl, -⟩ | ⟨first, rest, hfirst, hrest, rfl⟩
  · obtain ⟨rfl, -⟩ | htag := htag
    · refine ⟨none, _, [], rfl, gap, ends, by simpa using hconsumed, ?_⟩
      simp [visible_eq_nil hgap, visible_eq_nil hends]
    · rw [htag.text?_eq hover] at hnone
      cases hnone
  · obtain ⟨-, hnone⟩ | htag := htag
    · simp [Captures.text?, hnone] at hlanguage
    · rw [htag.text?_eq hover] at hlanguage
      obtain rfl := Option.some.inj hlanguage
      refine ⟨some _, _, tokens, rfl, tag ++ gap, ends, by simpa using hconsumed, ?_⟩
      simp [visible_eq_nil hgap, visible_eq_nil hends]
  · obtain ⟨-, hnone⟩ | htag := htag
    · rw [hnone] at hfirst
      cases hfirst
    · -- The body begins with the tag and ends where its group ends.
      obtain rfl := Option.some.inj (htag.range?_eq.symm.trans hfirst)
      obtain rfl := Option.some.inj (hframes.range?_eq.symm.trans hrest)
      obtain ⟨later, hwindow, -, -⟩ := hover.split
      have hslice : Text.slice? captures.input ⟨byteSize blockFence,
          byteSize (blockFence ++ (tag ++ gap) ++ body)⟩ =
            some (String.ofList (tag ++ gap ++ body)) := by
        rw [List.append_assoc, Text.byteSize_append, hover.input_eq]
        refine Text.slice?_of_toList (b := ends ++ blockFence ++ later.toList) ?_
        simp [hwindow, hconsumed]
      refine ⟨none, String.ofList (tag ++ gap ++ body), [], ?_, [], ends, ?_, ?_⟩
      · exact congrArg (blockNode none · textStyles []) (Text.slice_of_slice? hslice)
      · simpa using hconsumed
      · simp [visible_eq_nil hends]

/-- What can be seen between the fences of code is the language, if there is one, and the body. -/
theorem code_keeps_content :
    (∀ (textStyles : StyleProvider R T) (languages : Languages R T S) (wrapper : Wrapper R T S)
      (window : String) (last : Option String) (state : S) (captures : Captures)
      (spec : Spec R T S),
      (blockRule textStyles languages wrapper).tryMatch window last state = some captures →
      ((blockRule textStyles languages wrapper).build captures state).value = .ok spec →
      ∃ language body tokens,
        spec = .terminal (wrapper (blockNode language body textStyles tokens)
          (startsOnNewLine captures) state) state ∧
        KeepsContent captures blockFence language body) ∧
    ∀ (textStyles background : StyleProvider R T) (window : String) (last : Option String)
      (state : S) (captures : Captures) (spec : Spec R T S),
      (inlineRule textStyles background).tryMatch window last state = some captures →
      ((inlineRule textStyles background).build captures state).value = .ok spec →
      ∃ body,
        spec = .terminal (.mk (.inlineCode background) [blockNode none body textStyles []]) state ∧
        KeepsContent captures ['`'] none body := by
  constructor
  · intro textStyles languages wrapper window last state captures spec hmatch hbuild
    obtain ⟨node, hnode, rfl⟩ := exists_of_map_eq_ok hbuild
    obtain ⟨language, body, tokens, rfl, hkeeps⟩ := exists_keepsContent_of_buildBlock hmatch hnode
    exact ⟨language, body, tokens, rfl, hkeeps⟩
  · intro textStyles background window last state captures spec hmatch hbuild
    obtain ⟨gap, body, ends, hframes, hgap, hends⟩ := inlineForm.exists_frames hmatch
    have hgroup := hframes.group_eq (Pattern.over_of_matchStart hmatch)
    obtain ⟨body', hbody, rfl⟩ := exists_of_map_eq_ok hbuild
    obtain rfl := Except.ok.inj (hgroup.symm.trans hbody)
    refine ⟨_, rfl, gap, ends, by simpa using hframes.toList_consumed, ?_⟩
    simp [visible_eq_nil hgap, visible_eq_nil hends]

/-- A word that is no language, in front of the rest of the line. -/
theorem code_keeps_content_of_unknown_tag :
    ∃ captures spec, (blockRule .empty [] : Rule Unit Unit Unit).tryMatch "```some text\n``` x"
        none () = some captures ∧
      ((blockRule .empty [] : Rule Unit Unit Unit).build captures ()).value = .ok spec ∧
      ∃ language body tokens, spec = .terminal (blockNode language body .empty tokens) () ∧
        KeepsContent captures blockFence language body := by
  have htry (window : String) :
      (blockRule .empty [] : Rule Unit Unit Unit).tryMatch window none () =
        block.matchStart window := rfl
  have hlanguages : ∀ language rules,
      ([] : Languages Unit Unit Unit).lookup language = some rules →
        ∀ body state, ∃ tokens, (parse rules body state).value = .ok tokens :=
    fun _ _ h => nomatch h
  obtain ⟨captures, hmatch⟩ : ∃ captures, block.matchStart "```some text\n``` x" = some captures :=
    Option.isSome_iff_exists.1 (by decide +kernel)
  obtain ⟨node, hnode⟩ := exists_buildBlock hlanguages hmatch .empty ()
  have hbuild : ((blockRule .empty [] : Rule Unit Unit Unit).build captures ()).value =
      .ok (.terminal node ()) := by
    simp [blockRule, Logged.map, hnode, Except.map]
  rw [← htry] at hmatch
  exact ⟨captures, _, hmatch, hbuild, code_keeps_content.1 _ _ _ _ none () _ _ hmatch hbuild⟩

end Code

end RuledMarkup
