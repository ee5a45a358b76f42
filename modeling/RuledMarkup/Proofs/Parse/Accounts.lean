import RuledMarkup.Proofs.Parse.PendingBytes

/-!
# Parses that succeed

A parse succeeds if some rule matches every window, and if every match consumes something, builds a
node, and asks for a span that is shorter than what it consumes.

What is then known of the forest is an account: a relation between windows and forests that holds of
the whole because it holds of every node.  An account has a second relation for forests of windows
in which the parse was stopped by an empty span.

## Main definitions

* `Account` : relations between windows and forests that hold of the whole if they hold of the
  parts.
* `Rule.Accounts` : every match of a rule builds a node for which the relations hold.
* `Catches` : some rule matches every window that is not empty.
* `StopsEarly` : a parse comes to an empty span.

## Main results

* `parse_accounts` : a parse succeeds, and the account holds of its forest.
* `exists_step_of_atEmptySpan` : an empty span is one that the last rule has asked for.
-/

namespace RuledMarkup

variable {R T S : Type} {rules : List (Rule R T S)} {source : String}

theorem Node.addChildren_nil (node : Node R T) : node.addChildren [] = node := by
  cases node
  simp [addChildren]

/-! ### Accounts -/

/-- Relations between a window and its forest.  The first is for windows that have become a forest
as a whole, the second for those in which an empty span has stopped the parse. -/
structure Account (R T : Type) where
  whole : String → List (Node R T) → Prop
  part : String → List (Node R T) → Prop
  whole_nil : whole "" []
  whole_append : ∀ {x y a b}, whole x a → whole y b → whole (x ++ y) (a ++ b)
  part_append : ∀ {x y a b}, whole x a → part y b → part (x ++ y) (a ++ b)
  part_left : ∀ {x a} y, part x a → part (x ++ y) a

variable (account : Account R T)

/-- The node accounts for what its rule has consumed.  A span that is to be parsed under it is
shorter than that. -/
def Spec.Accounts (spec : Spec R T S) (window consumed : String) : Prop :=
  match spec.span with
  | none => account.whole consumed [spec.root]
  | some span => ∃ inner, Text.slice? window span = some inner ∧
      inner.utf8ByteSize < consumed.utf8ByteSize ∧
      (∀ {below}, account.whole inner below →
        account.whole consumed [spec.root.addChildren below]) ∧
      (∀ {below}, account.part inner below →
        account.part consumed [spec.root.addChildren below]) ∧
      (inner = "" → account.part consumed [spec.root])

theorem Spec.accounts_terminal {root : Node R T} {state : S} {window consumed : String}
    (h : account.whole consumed [root]) :
    (Spec.terminal root state).Accounts account window consumed := h

theorem Spec.accounts_nonterminal {root : Node R T} {state : S} {span : Text.ByteRange}
    {window consumed inner : String} (hslice : Text.slice? window span = some inner)
    (hlt : inner.utf8ByteSize < consumed.utf8ByteSize)
    (hwhole : ∀ {below}, account.whole inner below →
      account.whole consumed [root.addChildren below])
    (hpart : ∀ {below}, account.part inner below → account.part consumed [root.addChildren below])
    (hempty : inner = "" → account.part consumed [root]) :
    (Spec.nonterminal root state span).Accounts account window consumed :=
  ⟨inner, hslice, hlt, hwhole, hpart, hempty⟩

/-- Every match of the rule consumes something and builds a node that accounts for it. -/
def Rule.Accounts (rule : Rule R T S) : Prop :=
  ∀ ⦃window last state captures⦄, rule.tryMatch window last state = some captures →
    captures.Over window ∧ 0 < captures.size ∧
      ∃ spec, (rule.build captures state).value = .ok spec ∧
        spec.Accounts account window captures.consumed

/-- Whatever the text consumed last and the state, some rule matches every window that is not
empty. -/
def Catches (rules : List (Rule R T S)) : Prop :=
  ∀ {window} last state, window ≠ "" →
    ∃ rule ∈ rules, (rule.tryMatch window last state).isSome = true

/-- The parse comes to an empty span. -/
def StopsEarly (rules : List (Rule R T S)) (source : String) (state : S) : Prop :=
  ∃ n machine, Reaches rules source n (.start source state) machine ∧ machine.AtEmptySpan

/-- An account of an outcome: it is no failure. -/
def Outcome.Accounts (window : String) : Outcome R T → Prop
  | whole forest _ => account.whole window forest
  | stopped forest => account.part window forest
  | failed _ => False

variable {account}

theorem Outcome.Accounts.exists_result {window : String} {outcome : Outcome R T}
    (h : outcome.Accounts account window) : ∃ forest, outcome.result = .ok forest := by
  cases outcome with
  | whole forest | stopped forest => exact ⟨forest, rfl⟩
  | failed error => exact h.elim

/-- A descent goes into a span that is within the window and not empty. -/
theorem Spec.descendInner_of_slice? {go : Descent R T S} {spec : Spec R T S} {offset : Nat}
    {window inner : String} {last : Option String} {span : Text.ByteRange}
    (hspan : spec.span = some span) (hslice : Text.slice? window span = some inner)
    (hne : inner ≠ "") :
    spec.descendInner go offset window last = go (offset + span.start) inner last spec.state := by
  have hbytes := Text.utf8ByteSize_of_slice? hslice
  have hle := Text.stop_le_of_slice? hslice
  have hpos : inner.utf8ByteSize ≠ 0 := fun hzero => hne (String.utf8ByteSize_eq_zero_iff.1 hzero)
  simp only [Spec.descendInner, hspan]
  rw [if_neg (by omega), if_neg (by omega), hslice]

/-- What a descent finds in the span of a rule accounts for what the rule has consumed. -/
theorem accounts_of_descendInner {go : Descent R T S}
    (hgo : ∀ {offset window last state outcome}, window ≠ "" →
      go offset window last state = some outcome → outcome.Accounts account window)
    {spec : Spec R T S} {offset : Nat} {window consumed : String} {last : Option String}
    (hspec : spec.Accounts account window consumed) {inner : Outcome R T}
    (h : spec.descendInner go offset window last = some inner) :
    match inner with
    | .whole below _ => account.whole consumed [spec.root.addChildren below]
    | .stopped below => account.part consumed [spec.root.addChildren below]
    | .failed _ => False := by
  cases hspan : spec.span with
  | none =>
    simp only [Spec.Accounts, hspan] at hspec
    simp only [Spec.descendInner, hspan, Option.some.injEq] at h
    subst h
    simpa only [Node.addChildren_nil] using hspec
  | some span =>
    simp only [Spec.Accounts, hspan] at hspec
    obtain ⟨text, hslice, -, hwhole, hpart, hempty⟩ := hspec
    have hbytes := Text.utf8ByteSize_of_slice? hslice
    have hle := Text.stop_le_of_slice? hslice
    simp only [Spec.descendInner, hspan, hslice] at h
    split_ifs at h with hmisfit hsame
    · omega
    · obtain rfl := Option.some.inj h
      have htext : text = "" := String.utf8ByteSize_eq_zero_iff.1 (by omega)
      simpa only [Node.addChildren_nil] using hempty htext
    · have hne : text ≠ "" := by
        rintro rfl
        simp only [String.utf8ByteSize_empty] at hbytes
        omega
      cases inner with
      | whole below last => exact hwhole (hgo hne h)
      | stopped below => exact hpart (hgo hne h)
      | failed error => exact hgo hne h

/-! ### Empty spans -/

/-- The machine is at a window of which the rule is the first one to match the start. -/
structure Machine.At (rules : List (Rule R T S)) (source : String) (machine : Machine R T S)
    (window : String) (state : S) (rule : Rule R T S) (captures : Captures) : Prop where
  pending_eq : ∃ item pending, machine.pending = item :: pending ∧ item.state = state ∧
    Text.slice? source item.range = some window
  matchFirst_eq : matchFirst rules window machine.last state = some (rule, captures)

/-- The rule that matches first asks for an empty span. -/
def Machine.AsksForNothing (rules : List (Rule R T S)) (source : String) (machine : Machine R T S) :
    Prop :=
  ∃ window state rule captures spec span, machine.At rules source window state rule captures ∧
    (rule.build captures state).value = .ok spec ∧ spec.span = some span ∧
    Text.slice? window span = some ""

/-- What is left of a window after a match is not empty if it is pending. -/
theorem isEmpty_of_mem_rest {item pending : Pending S} {size : Nat}
    (hsize : item.range.start + size ≤ item.range.stop) (h : pending ∈ item.rest size) :
    pending.range.isEmpty = false := by
  rw [Pending.rest] at h
  split_ifs at h with hend
  · cases h
  · obtain rfl := List.mem_singleton.1 h
    rw [Text.ByteRange.isEmpty_eq_false_iff]
    simp only
    omega

/-! ### Rules that account for what they consume -/

variable (hrules : ∀ rule ∈ rules, rule.Accounts account)

include hrules

theorem keepsToWindow_of_accounts : ∀ rule ∈ rules, rule.KeepsToWindow :=
  fun rule hmem _ _ _ _ hmatch => (hrules rule hmem hmatch).1

/-- A span that is parsed under a node is shorter than what the node accounts for. -/
theorem shortens_of_accounts : ∀ rule ∈ rules, rule.Shortens := by
  intro rule hmem window last state captures hmatch
  obtain ⟨hover, -, spec, hbuilt, hspec⟩ := hrules rule hmem hmatch
  refine ⟨hover.size_le, fun _ spec' hbuilt' span hspan => ?_⟩
  cases hbuilt.symm.trans hbuilt'
  simp only [Spec.Accounts, hspan] at hspec
  obtain ⟨inner, hslice, hinner, -⟩ := hspec
  have hbytes := Text.utf8ByteSize_of_slice? hslice
  rw [hover.utf8ByteSize_consumed] at hinner
  omega

/-- What has been built accounts for what has been consumed. -/
theorem accounts_of_buildFirst {offset : Nat} {window : String} {last : Option String} {state : S}
    {captures : Captures} {spec : Spec R T S}
    (h : buildFirst rules source offset window last state = .ok (captures, spec)) :
    captures.Over window ∧ 0 < captures.size ∧
      spec.Accounts account window captures.consumed := by
  obtain ⟨rule, hfirst, -, hbuilt⟩ := exists_rule_of_buildFirst h
  obtain ⟨hmem, hmatch⟩ := mem_of_matchFirst hfirst
  obtain ⟨hover, hsize, spec', hbuilt', haccounts⟩ := hrules rule hmem hmatch
  cases hbuilt.symm.trans hbuilt'
  exact ⟨hover, hsize, haccounts⟩

/-- At a window that is not empty, a node is built. -/
theorem exists_buildFirst (hcatch : Catches rules) (source : String) (offset : Nat)
    {window : String} (last : Option String) (state : S) (hwindow : window ≠ "") :
    ∃ captures spec, buildFirst rules source offset window last state = .ok (captures, spec) := by
  obtain ⟨rule, captures, hfirst⟩ := exists_matchFirst (hcatch last state hwindow)
  obtain ⟨hmem, hmatch⟩ := mem_of_matchFirst hfirst
  obtain ⟨-, hsize, spec, hbuilt, -⟩ := hrules rule hmem hmatch
  refine ⟨captures, spec, ?_⟩
  simp [buildFirst, hfirst, Nat.ne_of_gt hsize, hbuilt, Except.map]

/-- The account holds of every descent. -/
theorem accounts_of_descend (hcatch : Catches rules) (depth : Nat) {offset : Nat} {window : String}
    {last : Option String} {state : S} {outcome : Outcome R T} (hwindow : window ≠ "")
    (h : descend rules source depth offset window last state = some outcome) :
    outcome.Accounts account window := by
  induction depth generalizing offset window last state outcome with
  | zero => cases h
  | succ depth ih =>
    obtain ⟨captures, spec, hbuild⟩ :=
      exists_buildFirst hrules hcatch source offset last state hwindow
    obtain ⟨hover, -, hspec⟩ := accounts_of_buildFirst hrules hbuild
    obtain ⟨rest, hsplit, -, hslice⟩ := hover.split
    rw [descend_of_ok hbuild] at h
    obtain ⟨inner, hinner, hunder⟩ := Option.bind_eq_some_iff.1 h
    have hfirst := accounts_of_descendInner ih hspec hinner
    cases inner with
    | failed error => exact hfirst.elim
    | stopped below =>
      obtain rfl := Option.some.inj hunder
      rw [hsplit]
      exact account.part_left rest hfirst
    | whole below last' =>
      obtain ⟨later, hlater, rfl⟩ := Option.map_eq_some_iff.1 hunder
      rw [descendRest, Text.slice_of_slice? hslice] at hlater
      rw [hsplit]
      by_cases hrest : rest = ""
      · subst hrest
        obtain rfl := Option.some.inj hlater
        exact account.whole_append hfirst account.whole_nil
      · have hnonempty : rest.isEmpty = false := by simpa using hrest
        simp only [hnonempty, Bool.false_eq_true, if_false] at hlater
        have hrest' := ih hrest hlater
        cases later with
        | whole forest last'' => exact account.whole_append hfirst hrest'
        | stopped forest => exact account.part_append hfirst hrest'
        | failed error => exact hrest'

/-! ### Whole parses -/

/-- A parse succeeds, and the account holds of its forest: the first relation, or the second one if
the parse has come to an empty span. -/
theorem parse_accounts (hcatch : Catches rules) (source : String) (state : S) :
    ∃ forest, (parse rules source state).value = .ok forest ∧
      (account.whole source forest ∨
        account.part source forest ∧ StopsEarly rules source state) := by
  by_cases hsource : source = ""
  · subst hsource
    exact ⟨[], rfl, .inl account.whole_nil⟩
  · have hface := Machine.facing_start (R := R) (T := T) state hsource
    have hkeep := keepsToWindow_of_accounts hrules
    have hhalts := halts_stepsAllowed (shortens_of_accounts hrules) source state
    obtain ⟨depth, outcome, houtcome⟩ := exists_descend_of_halts hkeep hhalts hface
    have haccounts := accounts_of_descend hrules hcatch depth hsource houtcome
    have hreached := reached_of_descend hkeep depth houtcome hface rfl
    have hvalue : (parse rules source state).value = outcome.result :=
      (hreached.run_value rfl).2 _ hhalts
    cases outcome with
    | whole forest last => exact ⟨forest, hvalue, .inl haccounts⟩
    | stopped forest =>
      obtain ⟨n, machine, hreach, hempty, -⟩ := hreached
      exact ⟨forest, hvalue, .inr ⟨haccounts, n, machine, hreach, hempty⟩⟩
    | failed error => exact haccounts.elim

/-! ### Where an empty span comes from -/

/-- After every step only the top span may be empty, and if it is then the rule of that step has
asked for it. -/
theorem step_isEmpty {machine machine' : Machine R T S}
    (h : step rules source machine = .running machine')
    (htail : ∀ item ∈ machine.pending.tail, item.range.isEmpty = false) :
    (∀ item ∈ machine'.pending.tail, item.range.isEmpty = false) ∧
      (machine'.AtEmptySpan → machine.AsksForNothing rules source) := by
  obtain ⟨item, pending, window, captures, spec, hpending, -, hwindow, hbuild, -, hpending', -,
    -⟩ := step_running_cases h
  obtain ⟨hover, hsize, hspec⟩ := accounts_of_buildFirst hrules hbuild
  have hbytes := Text.utf8ByteSize_of_slice? hwindow
  have hle := hover.size_le
  rw [hpending, List.tail_cons] at htail
  -- Nothing that stays on the stack is empty, so an empty span is the one that was put there.
  have hlater : ∀ entry ∈ item.rest captures.size ++ pending, entry.range.isEmpty = false := by
    intro entry hentry
    rcases List.mem_append.1 hentry with hentry | hentry
    · exact isEmpty_of_mem_rest (by omega) hentry
    · exact htail entry hentry
  cases hspan : spec.span with
  | none =>
    rw [hspan, Pending.following_none] at hpending'
    rw [hpending']
    refine ⟨fun entry hentry => hlater entry (List.mem_of_mem_tail hentry), ?_⟩
    rintro ⟨top, below, htop, hempty⟩
    have := hlater top (by rw [← hpending', htop]; exact List.mem_cons_self ..)
    rw [hempty] at this
    cases this
  | some span =>
    rw [hspan, Pending.following_some, List.cons_append] at hpending'
    rw [hpending', List.tail_cons]
    refine ⟨hlater, ?_⟩
    rintro ⟨top, below, htop, hempty⟩
    rw [hpending'] at htop
    obtain ⟨rfl, rfl⟩ := List.cons.inj htop
    obtain ⟨rule, hfirst, -, hbuilt⟩ := exists_rule_of_buildFirst hbuild
    simp only [Spec.Accounts, hspan] at hspec
    obtain ⟨inner, hslice, -⟩ := hspec
    have hinner := Text.utf8ByteSize_of_slice? hslice
    rw [Text.ByteRange.isEmpty_eq_true_iff] at hempty
    simp only [Text.ByteRange.shift] at hempty
    obtain rfl : inner = "" := String.utf8ByteSize_eq_zero_iff.1 (by omega)
    exact ⟨window, _, rule, captures, spec, span, ⟨⟨item, pending, hpending, rfl, hwindow⟩, hfirst⟩,
      hbuilt, hspan, hslice⟩

/-- If a parse comes to an empty span, then the rule of the last step has asked for it. -/
theorem exists_step_of_atEmptySpan {n : Nat} {state : S} {machine : Machine R T S}
    (hreach : Reaches rules source n (.start source state) machine)
    (hempty : machine.AtEmptySpan) :
    ∃ m before, Reaches rules source m (.start source state) before ∧
      step rules source before = .running machine ∧ before.AsksForNothing rules source := by
  have hinvariant := hreach.invariant
    (P := fun machine => (∃ m, Reaches rules source m (.start source state) machine) ∧
      (∀ item ∈ machine.pending.tail, item.range.isEmpty = false) ∧
      (machine.AtEmptySpan → ∃ m before, Reaches rules source m (.start source state) before ∧
        step rules source before = .running machine ∧ before.AsksForNothing rules source))
    ?_ ?_
  · exact hinvariant.2.2 hempty
  · rintro machine middle hstep ⟨⟨m, hm⟩, htail, -⟩
    obtain ⟨htail', hasked⟩ := step_isEmpty hrules hstep htail
    exact ⟨⟨m + 1, hm.trans (.single hstep)⟩, htail', fun h => ⟨m, machine, hm, hstep, hasked h⟩⟩
  · refine ⟨⟨0, .refl _⟩, ?_, ?_⟩
    · rw [Machine.start]
      split_ifs <;> simp
    · rintro ⟨top, below, htop, hempty⟩
      rw [Machine.start] at htop
      split_ifs at htop with hsource
      obtain ⟨rfl, rfl⟩ := List.cons.inj htop
      rw [Text.ByteRange.isEmpty_eq_true_iff] at hempty
      have hzero : source.utf8ByteSize = 0 := Nat.le_zero.1 hempty
      exact (hsource (String.isEmpty_iff.2 (String.utf8ByteSize_eq_zero_iff.1 hzero))).elim

/-- An account whose second relation never holds leaves no room for empty spans. -/
theorem not_stopsEarly (hnever : ∀ {x a}, ¬ account.part x a) (source : String) (state : S) :
    ¬ StopsEarly rules source state := by
  rintro ⟨n, machine, hreach, hempty⟩
  obtain ⟨-, before, -, -, window, state, rule, captures, spec, span, hat, hbuilt, hspan, hslice⟩ :=
    exists_step_of_atEmptySpan hrules hreach hempty
  obtain ⟨hmem, hmatch⟩ := mem_of_matchFirst hat.matchFirst_eq
  obtain ⟨-, -, spec', hbuilt', hspec⟩ := hrules rule hmem hmatch
  cases hbuilt.symm.trans hbuilt'
  simp only [Spec.Accounts, hspan, hslice] at hspec
  obtain ⟨inner, hinner, -, -, -, hpart⟩ := hspec
  exact hnever (hpart (Option.some.inj hinner).symm)

end RuledMarkup
