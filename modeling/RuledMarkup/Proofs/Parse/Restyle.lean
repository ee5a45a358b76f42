import RuledMarkup.Proofs.Node.Restyle
import RuledMarkup.Proofs.Parse.Runs
import RuledMarkup.Proofs.Parse.Storage

/-!
# Parsing does not look at styles

The rules of a parse may have other styles: what is found is the same, with the other styles.  The
parse never looks at the nodes that it attaches, so this holds for every function on styles, also
for one that marks the styles of some rule.

## Main definitions

* `Rule.mapStyles` : a rule that builds the same nodes with other styles.

## Main results

* `step_mapStyles` : a step is the same, with other styles.
* `parse_mapStyles` : so is a whole parse, and what it reports.
-/

namespace RuledMarkup

variable {R T U V S : Type}

/-! ### Rules -/

/-- What a rule makes of a match, with other styles. -/
def Spec.mapStyles (f : List T → List U) (spec : Spec R T S) : Spec R U S where
  root := spec.root.mapStyles f
  state := spec.state
  span := spec.span

/-- The rule that builds the same nodes with other styles. -/
def Rule.mapStyles (f : List T → List U) (rule : Rule R T S) : Rule R U S where
  pattern := rule.pattern
  tryMatch := rule.tryMatch
  build captures state := (rule.build captures state).map (·.map (Spec.mapStyles f))

theorem Spec.mapStyles_mapStyles (f : List T → List U) (g : List U → List V) (spec : Spec R T S) :
    (spec.mapStyles f).mapStyles g = spec.mapStyles (g ∘ f) := by
  rw [mapStyles, mapStyles, mapStyles, Node.mapStyles_mapStyles]

@[simp] theorem Spec.mapStyles_id (spec : Spec R T S) : spec.mapStyles id = spec := by
  rw [mapStyles, Node.mapStyles_id]

theorem Rule.mapStyles_mapStyles (f : List T → List U) (g : List U → List V) (rule : Rule R T S) :
    (rule.mapStyles f).mapStyles g = rule.mapStyles (g ∘ f) := by
  simp only [mapStyles, Rule.mk.injEq, true_and]
  funext captures state
  obtain ⟨events, built⟩ := rule.build captures state
  cases built with
  | error error => rfl
  | ok spec =>
    simp only [Logged.map, Except.map, Spec.mapStyles_mapStyles]

@[simp] theorem Rule.mapStyles_id (rule : Rule R T S) : rule.mapStyles id = rule := by
  obtain ⟨pattern, tryMatch, build⟩ := rule
  simp only [mapStyles, Rule.mk.injEq, true_and]
  funext captures state
  obtain ⟨events, built⟩ := build captures state
  cases built with
  | error error => rfl
  | ok spec => simp only [Logged.map, Except.map, Spec.mapStyles_id]

/-! ### Arenas and machines -/

/-- An attached node with other styles. -/
def Attachment.mapStyles (f : List T → List U) (entry : Attachment R T) : Attachment R U where
  id := entry.id
  parent := entry.parent
  node := entry.node.mapStyles f

/-- The arena with other styles. -/
def Arena.mapStyles (f : List T → List U) (arena : Arena R T) : Arena R U where
  count := arena.count
  attached := arena.attached.map (Attachment.mapStyles f)

/-- The machine with other styles. -/
def Machine.mapStyles (f : List T → List U) (machine : Machine R T S) : Machine R U S where
  pending := machine.pending
  arena := machine.arena.mapStyles f
  last := machine.last
  events := machine.events

/-- What a step leads to, with other styles. -/
def Progress.mapStyles (f : List T → List U) : Progress R T S → Progress R U S
  | running machine => running (machine.mapStyles f)
  | ended machine => ended (machine.mapStyles f)
  | failed events error => failed events error

namespace TreeBuilder

/-- The storage with other styles. -/
def mapStyles (f : List T → List U) (tree : TreeBuilder R T) : TreeBuilder R U where
  slots := tree.slots.map (·.map (Node.mapStyles f))
  children := tree.children

variable (f : List T → List U)

theorem ofAttached_mapStyles (attached : List (Attachment R T)) :
    ofAttached (attached.map (Attachment.mapStyles f)) = (ofAttached attached).mapStyles f := by
  induction attached with
  | nil => simp [ofAttached, mapStyles]
  | cons entry older ih =>
    rw [List.map_cons, ofAttached_cons, ih, ofAttached_cons]
    simp [attach, mapStyles, Attachment.mapStyles]

variable (slots : Array (Option (Node R T))) (children : Array (Array Nat))

theorem getD_map_slots (id : Nat) :
    (slots.map (·.map (Node.mapStyles f))).getD id none =
      (slots.getD id none).map (Node.mapStyles f) := by
  rw [Array.getD_eq_getD_getElem?, Array.getD_eq_getD_getElem?, Array.getElem?_map]
  cases slots[id]? <;> rfl

/-- What is taken has the other styles, and so has what stays. -/
theorem take_mapStyles (ids : List Nat) :
    take (slots.map (·.map (Node.mapStyles f))) ids =
      (Forest.mapStyles f (take slots ids).1,
        (take slots ids).2.map (·.map (Node.mapStyles f))) := by
  induction ids generalizing slots with
  | nil => rfl
  | cons id ids ih =>
    have hslots : (slots.map (·.map (Node.mapStyles f))).setIfInBounds id none =
        (slots.setIfInBounds id none).map (·.map (Node.mapStyles f)) := by
      rw [Array.map_setIfInBounds]
      rfl
    rw [take_cons, take_cons, getD_map_slots, hslots, ih, Forest.mapStyles_eq_map,
      Forest.mapStyles_eq_map, List.map_append]
    cases slots.getD id none <;> rfl

theorem complete_mapStyles (id : Nat) :
    complete children (slots.map (·.map (Node.mapStyles f))) id =
      (complete children slots id).map (·.map (Node.mapStyles f)) := by
  rw [complete, complete, take_mapStyles]
  generalize take slots (children.getD id #[]).toList = taken
  refine Array.ext_getElem? fun i => ?_
  simp only [Array.getElem?_modify, Array.getElem?_map]
  by_cases hi : id = i
  · rw [if_pos hi, if_pos hi, Option.map_map, Option.map_map]
    congr 1
    funext found
    cases found with
    | none => rfl
    | some node =>
      simp [Forest.mapStyles_eq_map, Node.mapStyles_addChildren]
  · rw [if_neg hi, if_neg hi]

/-- The forest that is put together has the other styles. -/
theorem finish_mapStyles (tree : TreeBuilder R T) :
    (tree.mapStyles f).finish = Forest.mapStyles f tree.finish := by
  have hslots : (tree.mapStyles f).completeAll =
      tree.completeAll.map (·.map (Node.mapStyles f)) := by
    rw [completeAll, completeAll, mapStyles, Array.size_map]
    exact List.foldl_hom _ fun slots id => complete_mapStyles f slots tree.children id
  rw [finish, hslots, take_mapStyles]
  rfl

end TreeBuilder

/-- The forest of an arena has the other styles. -/
theorem Arena.finish_mapStyles (f : List T → List U) (arena : Arena R T) :
    (arena.mapStyles f).finish = Forest.mapStyles f arena.finish := by
  rw [finish, finish, mapStyles, TreeBuilder.ofAttached_mapStyles, TreeBuilder.finish_mapStyles]

/-! ### Steps and runs -/

variable (f : List T → List U) (rules : List (Rule R T S)) (source : String)

theorem stepAt_mapStyles (machine : Machine R T S) (item : Pending S) (pending : List (Pending S)) :
    stepAt (rules.map (Rule.mapStyles f)) source (machine.mapStyles f) item pending =
      (stepAt rules source machine item pending).mapStyles f := by
  simp only [stepAt, Machine.mapStyles]
  cases Text.slice? source item.range with
  | none => rfl
  | some window =>
    dsimp only
    rw [firstMatch_map (f := Rule.mapStyles f) item.range machine.events (fun _ => rfl)
      fun _ => rfl]
    obtain ⟨events, found⟩ := firstMatch source item.range window machine.last item.state
      machine.events rules
    cases found with
    | none => rfl
    | some found =>
      obtain ⟨rule, captures⟩ := found
      simp only [Prod.map_apply, Option.map_some, id_eq, Rule.mapStyles]
      by_cases hsize : captures.size = 0
      · simp only [hsize, if_true]
        rfl
      · simp only [hsize, if_false]
        obtain ⟨built, result⟩ := rule.build captures item.state
        cases result with
        | error error => rfl
        | ok spec =>
          simp only [Logged.map, Except.map, Spec.mapStyles]
          by_cases hfits : spec.span.all (fitsWindow window) = true
          · simp only [hfits, if_true]
            rfl
          · simp only [hfits]
            rfl

/-- A step is the same with other styles. -/
theorem step_mapStyles (machine : Machine R T S) :
    step (rules.map (Rule.mapStyles f)) source (machine.mapStyles f) =
      (step rules source machine).mapStyles f := by
  obtain ⟨pending, arena, last, events⟩ := machine
  cases pending with
  | nil => rfl
  | cons item pending =>
    by_cases hempty : item.range.isEmpty = true
    · simp only [step, Machine.mapStyles, hempty, if_true]
      split <;> rfl
    · simp only [step, Machine.mapStyles, hempty]
      exact stepAt_mapStyles f rules source ⟨item :: pending, arena, last, events⟩ item pending

/-- A run is the same with other styles. -/
theorem run_mapStyles (bound : Nat) (machine : Machine R T S) :
    run (rules.map (Rule.mapStyles f)) source bound (machine.mapStyles f) =
      (run rules source bound machine).map (·.map (Forest.mapStyles f)) := by
  induction bound generalizing machine with
  | zero => rfl
  | succ bound ih =>
    rw [run, run, step_mapStyles]
    cases step rules source machine with
    | running next => exact ih next
    | failed events error => rfl
    | ended final =>
      simp only [Progress.mapStyles, Machine.mapStyles, Arena.finish_mapStyles, Logged.map,
        Except.map, Forest.mapStyles_eq_map, List.length_map]

/-- A parse with other styles finds the same with other styles, and reports the same. -/
theorem parse_mapStyles (state : S) :
    parse (rules.map (Rule.mapStyles f)) source state =
      (parse rules source state).map (·.map (Forest.mapStyles f)) :=
  run_mapStyles f rules source (stepsAllowed source) (.start source state)

end RuledMarkup
