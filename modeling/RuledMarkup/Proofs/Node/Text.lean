import Mathlib.Tactic.SplitIfs
import RuledMarkup.Node.Render
import RuledMarkup.Node.Walk

/-!
# The text of a forest

The text of a forest is found by a walk with a list of pending nodes, and a forest is rendered at
the end of what has been rendered before.  Both put together what belongs to the single trees.

## Main definitions

* `Node.textContent`, `Node.renderedText` : the text of a tree, and what is rendered for it.

## Main results

* `Forest.textContent_cons`, `Forest.textContent_append` : the text of a forest, tree by tree.
* `Forest.text_render` : rendering adds text at the end.
* `Forest.renderedText_cons`, `Forest.renderedText_append` : what is rendered, tree by tree.
-/

namespace RuledMarkup

variable {R T : Type}

/-! ### Text content -/

namespace Forest

/-- The text of the pending nodes comes after what has been found. -/
theorem addText_eq (found : String) (forest : List (Node R T)) :
    addText found forest = found ++ textContent forest := by
  rw [textContent]
  induction forest using (measure size).wf.induction generalizing found with
  | _ forest ih =>
    cases forest with
    | nil => simp [addText]
    | cons node pending =>
      rw [addText, addText.eq_def "" (node :: pending)]
      dsimp only
      cases node.content? with
      | some content =>
        have hsize : size pending < size (node :: pending) := by
          have := node.size_pos
          rw [size_cons]
          omega
        dsimp only
        rw [ih pending hsize, ih pending hsize ("" ++ content), String.empty_append,
          String.append_assoc]
      | none =>
        have hsize : size (node.children ++ pending) < size (node :: pending) := by
          rw [size_cons, size_append, node.size_eq]
          omega
        exact ih _ hsize found

@[simp] theorem textContent_nil : textContent ([] : List (Node R T)) = "" := by
  simp [textContent, addText]

end Forest

/-- The text of a tree: its own, or that of its children if it has none. -/
def Node.textContent (node : Node R T) : String :=
  node.content?.getD (Forest.textContent node.children)

namespace Forest

theorem textContent_append (a b : List (Node R T)) :
    textContent (a ++ b) = textContent a ++ textContent b := by
  suffices ∀ found, addText found (a ++ b) = addText (addText found a) b by
    rw [textContent, this, addText_eq]
    rfl
  intro found
  induction found, a using addText.induct with
  | case1 found => simp [addText]
  | case2 found node pending content hcontent ih => simp [addText, hcontent, ih]
  | case3 found node pending hcontent ih =>
    rw [List.append_assoc] at ih
    simp [addText, hcontent, ih]

@[simp] theorem textContent_cons (node : Node R T) (forest : List (Node R T)) :
    textContent (node :: forest) = node.textContent ++ textContent forest := by
  rw [← List.singleton_append, textContent_append]
  congr 1
  rw [textContent, addText, Node.textContent]
  cases node.content? with
  | some content => simp [addText]
  | none => simp [textContent]

/-- The text of a forest is that of its trees in a row. -/
theorem textContent_eq_join (forest : List (Node R T)) :
    textContent forest = String.join (forest.map Node.textContent) := by
  induction forest with
  | nil => exact textContent_nil
  | cons node forest ih => rw [textContent_cons, ih, List.map_cons, String.join_cons]

end Forest

namespace Node

@[simp] theorem textContent_text (content : String) :
    (text content : Node R T).textContent = content := rfl

@[simp] theorem textContent_styledText (content : String) (provider : StyleProvider R T) :
    (styledText content provider).textContent = content := rfl

/-- A node without text of its own has the text of its children. -/
theorem textContent_addChildren {node : Node R T} (h : node.content? = none)
    (hchildren : node.children = []) (below : List (Node R T)) :
    (node.addChildren below).textContent = Forest.textContent below := by
  have hcontent : (node.addChildren below).content? = none := h
  rw [textContent, hcontent, Option.getD_none, children_addChildren, hchildren, List.nil_append]

end Node

/-! ### Rendered text -/

/-- The two parts of what stands in the brackets of a tag. -/
theorem tagParts_append (opening : String) :
    (tagParts opening).1 ++ (tagParts opening).2 = opening := by
  rw [tagParts, ← String.ofList_append, List.takeWhile_append_dropWhile, String.ofList_toList]

/-- The text that is rendered for a tree. -/
def Node.renderedText (ctx : R) (node : Node R T) : String := (node.render ctx {}).text

/-- The text that is rendered for a forest. -/
def Forest.renderedText (ctx : R) (forest : List (Node R T)) : String :=
  (Forest.renderText ctx forest).text

mutual

theorem Node.text_render (ctx : R) (node : Node R T) (out : StyledText T) :
    (node.render ctx out).text = out.text ++ node.renderedText ctx := by
  obtain ⟨kind, children⟩ := node
  have hchildren := Forest.text_render ctx children
  cases kind with
  | code language body styles =>
    simp only [Node.renderedText, Node.render, StyledText.text_setStyles]
    split_ifs
    · simp
    · simp [hchildren]
  | tag opening closing name attributes =>
    cases closing with
    | none => simp [Node.renderedText, Node.render, hchildren, String.append_assoc]
    | some closing =>
      simp only [Node.renderedText, Node.render]
      split_ifs <;> simp [hchildren, String.append_assoc]
  | text | styledText => simp [Node.renderedText, Node.render, hchildren, String.append_assoc]
  | _ => simp [Node.renderedText, Node.render, hchildren]

/-- Rendering adds text at the end. -/
theorem Forest.text_render (ctx : R) (forest : List (Node R T)) (out : StyledText T) :
    (Forest.render ctx forest out).text = out.text ++ Forest.renderedText ctx forest := by
  cases forest with
  | nil => simp [Forest.renderedText, Forest.renderText, Forest.render]
  | cons node forest =>
    rw [Forest.renderedText, Forest.renderText, Forest.render, Forest.render,
      Forest.text_render ctx forest, Forest.text_render ctx forest (node.render ctx {}),
      Node.text_render ctx node, Node.text_render ctx node {}, String.empty_append,
      String.append_assoc]

end

namespace Forest

@[simp] theorem renderedText_nil (ctx : R) : renderedText ctx ([] : List (Node R T)) = "" := by
  simp [renderedText, renderText, render]

@[simp] theorem renderedText_cons (ctx : R) (node : Node R T) (forest : List (Node R T)) :
    renderedText ctx (node :: forest) = node.renderedText ctx ++ renderedText ctx forest := by
  rw [renderedText, renderText, render, text_render]
  rfl

theorem renderedText_append (ctx : R) (a b : List (Node R T)) :
    renderedText ctx (a ++ b) = renderedText ctx a ++ renderedText ctx b := by
  induction a with
  | nil => simp
  | cons node a ih => simp [ih, String.append_assoc]

end Forest

namespace Node

@[simp] theorem renderedText_text (ctx : R) (content : String) :
    (text content : Node R T).renderedText ctx = content := by
  simp [renderedText, text, leaf, render, Forest.render]

@[simp] theorem renderedText_styledText (ctx : R) (content : String)
    (provider : StyleProvider R T) :
    (styledText content provider : Node R T).renderedText ctx = content := by
  simp [renderedText, styledText, leaf, render, Forest.render]

/-- A tag in brackets, its content, and a closing tag if there is one with a name. -/
theorem renderedText_tag (ctx : R) (opening : String) (closing : Option String)
    (name attributes : StyleProvider R T) (children : List (Node R T)) :
    (mk (.tag opening closing name attributes) children : Node R T).renderedText ctx =
      "<" ++ opening ++ ">" ++ Forest.renderedText ctx children ++
        match closing with
        | none => ""
        | some closing => if closing.isEmpty then "" else "</" ++ closing ++ ">" := by
  have hopening : "<" ++ (tagParts opening).1 ++ (tagParts opening).2 = "<" ++ opening := by
    rw [String.append_assoc, tagParts_append]
  cases closing with
  | none =>
    simp only [renderedText, render, Forest.text_render, StyledText.text_setStyles,
      StyledText.text_push, String.empty_append, String.append_empty]
    rw [hopening]
  | some closing =>
    simp only [renderedText, render]
    split_ifs
    · simp only [Forest.text_render, StyledText.text_setStyles, StyledText.text_push,
        String.empty_append, String.append_empty]
      rw [hopening]
    · simp only [Forest.text_render, StyledText.text_setStyles, StyledText.text_push,
        String.empty_append]
      rw [hopening]
      simp only [String.append_assoc]

end Node

end RuledMarkup
