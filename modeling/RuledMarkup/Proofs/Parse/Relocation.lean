import RuledMarkup.Proofs.Parse.Accounts

/-!
# Windows elsewhere

What a descent finds in a window does not depend on where the window stands, nor on the text
consumed last, except that a line may or may not begin there.  So a parse can be put together from
the parses of its parts.

## Main definitions

* `Rule.SeesLines` : a rule looks at the text consumed last only to see if it ends a line.
* `Descent.Elsewhere` : a descent has the outcomes of another one at windows that stand elsewhere.
* `Yields` : descents through a window find a forest, wherever the window stands.
* `Outcome.WithinLine` : no line begins behind what has been found.

## Main results

* `descend_elsewhere` : a descent that does not fail has the same outcome elsewhere.
* `exists_yields`, `Yields.parse_eq` : what a window yields is what is found when it is parsed.
* `Yields.cons`, `Yields.terminal` : what a window yields, first match and rest.
* `descend_within_line` : where no line begins or ends, no line begins behind a window.
-/

namespace RuledMarkup

variable {R T S : Type} {rules : List (Rule R T S)} {account : Account R T}

/-- All that the rule sees of the text consumed last is if it ends a line. -/
def Rule.SeesLines (rule : Rule R T S) : Prop :=
  ∀ ⦃last last'⦄, startsLine last = startsLine last' → ∀ window state,
    rule.tryMatch window last state = rule.tryMatch window last' state

theorem Rule.seesLines_of_tryMatch {rule : Rule R T S} {pattern : Pattern}
    (h : rule.tryMatch = fun window _ _ => pattern.matchStart window) : rule.SeesLines := by
  intro last last' _ window state
  rw [h]

theorem Rule.SeesLines.atLineStart {rule : Rule R T S} (h : rule.SeesLines) :
    rule.atLineStart.SeesLines := by
  intro last last' hlast window state
  simp only [Rule.atLineStart, hlast, h hlast]

/-! ### Descents elsewhere -/

/-- The second descent has the outcomes of the first one, unless that fails, at windows that stand
elsewhere. -/
def Descent.Elsewhere (go go' : Descent R T S) : Prop :=
  ∀ {offset offset' window last last' state outcome}, startsLine last = startsLine last' →
    go offset window last state = some outcome → outcome.result.isOk = true →
      go' offset' window last' state = some outcome

namespace Descent.Elsewhere

variable {go go' : Descent R T S} {offset offset' : Nat} {window : String} {last : Option String}
  {outcome : Outcome R T}

theorem descendInner (h : go.Elsewhere go') {spec : Spec R T S}
    (hgo : spec.descendInner go offset window last = some outcome)
    (hok : outcome.result.isOk = true) :
    spec.descendInner go' offset' window last = some outcome := by
  unfold Spec.descendInner at hgo ⊢
  split at hgo
  · exact hgo
  · split_ifs at hgo ⊢
    · obtain rfl := Option.some.inj hgo
      cases hok
    · exact hgo
    · split at hgo
      · obtain rfl := Option.some.inj hgo
        cases hok
      · exact h rfl hgo hok

theorem descendRest (h : go.Elsewhere go') {size : Nat} {state : S}
    (hgo : descendRest go offset size window state last = some outcome)
    (hok : outcome.result.isOk = true) :
    RuledMarkup.descendRest go' offset' size window state last = some outcome := by
  unfold RuledMarkup.descendRest at hgo ⊢
  dsimp only at hgo ⊢
  split_ifs at hgo ⊢
  · exact hgo
  · exact h rfl hgo hok

end Descent.Elsewhere

/-- Rules that match as before find the first match as before. -/
theorem matchFirst_congr {window : String} {last last' : Option String} {state : S}
    (h : ∀ rule ∈ rules, rule.tryMatch window last state = rule.tryMatch window last' state) :
    matchFirst rules window last state = matchFirst rules window last' state := by
  induction rules with
  | nil => rfl
  | cons rule rules ih =>
    obtain ⟨hrule, hrules⟩ := List.forall_mem_cons.1 h
    have hlater := ih hrules
    unfold matchFirst at hlater ⊢
    rw [List.findSome?_cons, List.findSome?_cons, hrule, hlater]

section Elsewhere

variable (hsees : ∀ rule ∈ rules, rule.SeesLines)

include hsees

theorem matchFirst_elsewhere {last last' : Option String}
    (hlast : startsLine last = startsLine last') (window : String) (state : S) :
    matchFirst rules window last state = matchFirst rules window last' state :=
  matchFirst_congr fun rule hrule => hsees rule hrule hlast window state

/-- What is built at a window is also built elsewhere. -/
theorem buildFirst_elsewhere {source source' : String} {offset offset' : Nat} {window : String}
    {last last' : Option String} {state : S} {built : Captures × Spec R T S}
    (hlast : startsLine last = startsLine last')
    (h : buildFirst rules source offset window last state = .ok built) :
    buildFirst rules source' offset' window last' state = .ok built := by
  rw [buildFirst, ← matchFirst_elsewhere hsees hlast]
  rw [buildFirst] at h
  cases hfirst : matchFirst rules window last state with
  | none =>
    rw [hfirst] at h
    cases h
  | some found =>
    simp only [hfirst] at h ⊢
    split_ifs at h ⊢
    exact h

/-- A descent that does not fail has the same outcome elsewhere. -/
theorem descend_elsewhere (source source' : String) (depth : Nat) :
    (descend rules source depth).Elsewhere (descend rules source' depth) := by
  induction depth with
  | zero =>
    intro _ _ _ _ _ _ _ _ h
    cases h
  | succ depth ih =>
    intro offset offset' window last last' state outcome hlast h hok
    cases hbuild : buildFirst rules source offset window last state with
    | error error =>
      rw [descend_of_error hbuild] at h
      obtain rfl := Option.some.inj h
      cases hok
    | ok built =>
      rw [descend_of_ok hbuild] at h
      rw [descend_of_ok (buildFirst_elsewhere hsees hlast hbuild)]
      obtain ⟨inner, hinner, hunder⟩ := Option.bind_eq_some_iff.1 h
      cases inner with
      | failed error =>
        obtain rfl := Option.some.inj hunder
        cases hok
      | stopped below =>
        exact Option.bind_eq_some_iff.2 ⟨_, ih.descendInner hinner rfl, hunder⟩
      | whole below middle =>
        obtain ⟨later, hlater, rfl⟩ := Option.map_eq_some_iff.1 hunder
        have hlaterOk : later.result.isOk = true := by
          cases later with
          | whole | stopped => rfl
          | failed => exact hok
        exact Option.bind_eq_some_iff.2 ⟨_, ih.descendInner hinner rfl,
          Option.map_eq_some_iff.2 ⟨later, ih.descendRest hlater hlaterOk, rfl⟩⟩

end Elsewhere

/-! ### What a window yields -/

/-- Descents through a window find a forest wherever the window stands, at the start of a line or
elsewhere.  Nothing is found in a window that is empty. -/
def Yields (rules : List (Rule R T S)) (state : S) (atStart : Bool) (window : String)
    (forest : List (Node R T)) : Prop :=
  if window = "" then forest = []
  else ∀ source offset last, startsLine last = atStart → ∃ depth outcome,
    descend rules source depth offset window last state = some outcome ∧
      outcome.result = .ok forest

theorem exists_startsLine_eq (atStart : Bool) : ∃ last, startsLine last = atStart := by
  cases atStart with
  | true => exact ⟨none, rfl⟩
  | false => exact ⟨some "", by decide +kernel⟩

section Accounts

variable (haccounts : ∀ rule ∈ rules, rule.Accounts account) (hcatch : Catches rules)
  (hsees : ∀ rule ∈ rules, rule.SeesLines)

include haccounts in
/-- A descent has an outcome if the bound on its depth is great enough. -/
theorem exists_descend {window : String} (hwindow : window ≠ "") (last : Option String)
    (state : S) :
    ∃ depth outcome, descend rules window depth 0 window last state = some outcome := by
  have hface := Machine.facing_start (R := R) (T := T) state hwindow
  have hhalts :
      Halts rules window (stepsAllowed window) { Machine.start window state with last } := by
    refine halts_of_pendingSize_lt (shortens_of_accounts haccounts) ?_
    rw [pendingSize_start, stepsAllowed]
    omega
  exact exists_descend_of_halts (keepsToWindow_of_accounts haccounts) hhalts
    ⟨hface.pending_eq, hface.slice?_eq, hface.ne_empty⟩

include haccounts hcatch hsees

/-- Every window yields a forest. -/
theorem exists_yields (state : S) (atStart : Bool) (window : String) :
    ∃ forest, Yields rules state atStart window forest := by
  unfold Yields
  split_ifs with hwindow
  · exact ⟨[], rfl⟩
  · obtain ⟨last, rfl⟩ := exists_startsLine_eq atStart
    obtain ⟨depth, outcome, houtcome⟩ :=
      exists_descend haccounts hwindow last state
    have hfound := accounts_of_descend haccounts hcatch depth hwindow houtcome
    obtain ⟨forest, hforest⟩ : ∃ forest, outcome.result = .ok forest := by
      cases outcome with
      | whole forest | stopped forest => exact ⟨forest, rfl⟩
      | failed error => exact hfound.elim
    exact ⟨forest, fun source offset last' hlast => ⟨depth, outcome,
      descend_elsewhere hsees window source depth hlast.symm houtcome (by rw [hforest]; rfl),
      hforest⟩⟩

omit hcatch hsees in
/-- A parse has the result of a descent. -/
theorem parse_of_descend {source : String} (hsource : source ≠ "") {state : S} {depth : Nat}
    {outcome : Outcome R T}
    (h : descend rules source depth 0 source none state = some outcome) :
    (parse rules source state).value = outcome.result :=
  parse_value_of_descend (shortens_of_accounts haccounts) (keepsToWindow_of_accounts haccounts)
    hsource h

omit hcatch hsees in
/-- What a source yields at the start of a line is what is found when it is parsed. -/
theorem Yields.parse_eq {source : String} {state : S} {forest : List (Node R T)}
    (h : Yields rules state true source forest) :
    (parse rules source state).value = .ok forest := by
  unfold Yields at h
  split_ifs at h with hsource
  · subst hsource h
    rfl
  · obtain ⟨depth, outcome, hdescend, hforest⟩ := h source 0 none rfl
    rw [← hforest, parse_of_descend haccounts hsource hdescend]

end Accounts

/-- What is found below the first match comes first, and then comes what the rest yields. -/
theorem Yields.cons {state : S} {window consumed rest : String} {atStart next : Bool}
    {spec : Spec R T S} {below forest : List (Node R T)} (hwindow : window = consumed ++ rest)
    (hne : window ≠ "")
    (hbuild : ∀ source offset last, startsLine last = atStart → ∃ captures,
      buildFirst rules source offset window last state = .ok (captures, spec) ∧
        captures.Over window ∧ captures.consumed = consumed)
    (hbelow : ∀ source offset, ∃ depth last, startsLine last = next ∧
      spec.descendInner (descend rules source depth) offset window (some consumed) =
        some (.whole below last))
    (hrest : Yields rules state next rest forest) :
    Yields rules state atStart window (spec.root.addChildren below :: forest) := by
  rw [Yields, if_neg hne]
  intro source offset last hlast
  obtain ⟨captures, hbuilt, hover, rfl⟩ := hbuild source offset last hlast
  obtain ⟨depth, middle, hmiddle, hinner⟩ := hbelow source offset
  obtain ⟨rest', hsplit, -, hslice⟩ := hover.split
  obtain rfl : rest' = rest := by simpa [hwindow] using hsplit.symm
  obtain ⟨depth', later, hlater, hforest⟩ : ∃ depth' later,
      descendRest (descend rules source depth') offset captures.size window state middle =
        some later ∧ later.result = .ok forest := by
    unfold Yields at hrest
    simp only [descendRest, Text.slice_of_slice? hslice, String.isEmpty_iff]
    split_ifs at hrest ⊢ with hempty
    · exact ⟨0, _, rfl, by rw [hrest]; rfl⟩
    · exact hrest source _ middle hmiddle
  refine ⟨max depth depth' + 1, later.withFirst (spec.root.addChildren below), ?_, ?_⟩
  · rw [descend_of_ok hbuilt,
      Spec.descendInner_mono (descend_mono (Nat.le_max_left depth depth')) hinner, Option.bind_some,
      Outcome.under, descendRest_mono (descend_mono (Nat.le_max_right depth depth')) hlater]
    rfl
  · cases later with
    | whole | stopped =>
      obtain rfl := Except.ok.inj hforest
      rfl
    | failed error => cases hforest

/-- A finished node comes first, and then comes what the rest yields. -/
theorem Yields.terminal {state : S} {window consumed rest : String} {atStart : Bool}
    {node : Node R T} {forest : List (Node R T)} (hwindow : window = consumed ++ rest)
    (hne : window ≠ "")
    (hbuild : ∀ source offset last, startsLine last = atStart → ∃ captures,
      buildFirst rules source offset window last state = .ok (captures, .terminal node state) ∧
        captures.Over window ∧ captures.consumed = consumed)
    (hrest : Yields rules state (startsLine (some consumed)) rest forest) :
    Yields rules state atStart window (node :: forest) := by
  have hcons := Yields.cons hwindow hne hbuild (fun _ _ => ⟨0, some consumed, rfl, rfl⟩) hrest
  rwa [Spec.terminal, Node.addChildren_nil] at hcons

/-! ### Within a line -/

/-- No line begins behind what has been found, and no empty span has been met. -/
def Outcome.WithinLine : Outcome R T → Prop
  | whole _ last => startsLine last = false
  | stopped _ => False
  | failed _ => True

theorem startsLine_eq_false {text : String} (h : '\n' ∉ text.toList) :
    startsLine (some text) = false := by
  rw [startsLine, Option.all_some, String.endsWith_char_eq_getLast?, beq_eq_false_iff_ne]
  exact fun hlast => h (List.mem_of_mem_getLast? hlast)

/-- A rule that asks for no empty span leads to no new line, if that is so of its span. -/
theorem withinLine_of_descendInner {go : Descent R T S} {spec : Spec R T S} {offset : Nat}
    {window consumed : String} (hnever : ∀ {x a}, ¬ account.part x a)
    (hspec : spec.Accounts account window consumed)
    (hconsumed : startsLine (some consumed) = false) (hwindow : '\n' ∉ window.toList)
    (hgo : ∀ {offset window outcome}, '\n' ∉ window.toList →
      go offset window (some consumed) spec.state = some outcome → outcome.WithinLine)
    {outcome : Outcome R T}
    (h : spec.descendInner go offset window (some consumed) = some outcome) :
    outcome.WithinLine := by
  cases hspan : spec.span with
  | none =>
    simp only [Spec.descendInner, hspan, Option.some.injEq] at h
    subst h
    exact hconsumed
  | some span =>
    simp only [Spec.Accounts, hspan] at hspec
    obtain ⟨inner, hslice, -, -, -, hempty⟩ := hspec
    have hbytes := Text.utf8ByteSize_of_slice? hslice
    simp only [Spec.descendInner, hspan, hslice] at h
    split_ifs at h with hmisfit hsame
    · obtain rfl := Option.some.inj h
      exact True.intro
    · exact (hnever (hempty (String.utf8ByteSize_eq_zero_iff.1 (by omega)))).elim
    · refine hgo (fun hmem => hwindow ?_) h
      obtain ⟨a, b, rfl, -⟩ := Text.slice?_eq_some_iff.1 hslice
      simp [hmem]

section WithinLine

variable {source : String}
  (hrules : ∀ rule ∈ rules, (∀ window last state,
    (rule.tryMatch window last state).isSome = true → startsLine last = true) ∨
      rule.Accounts account)
  (hnever : ∀ {x a}, ¬ account.part x a)

include hrules hnever

/-- Where no line begins and none ends, the first match leads to no new line, if that is so of what
is found in its span: the rules for the starts of lines do not match, and the other rules ask for no
empty spans. -/
theorem withinLine_of_buildFirst {go : Descent R T S} {offset : Nat} {window : String}
    {last : Option String} {state : S} {captures : Captures} {spec : Spec R T S}
    (hlast : startsLine last = false) (hwindow : '\n' ∉ window.toList)
    (hbuild : buildFirst rules source offset window last state = .ok (captures, spec))
    (hgo : ∀ {offset window last state outcome}, startsLine last = false → '\n' ∉ window.toList →
      go offset window last state = some outcome → outcome.WithinLine)
    {inner : Outcome R T}
    (hinner : spec.descendInner go offset window captures.consumed = some inner) :
    inner.WithinLine ∧ ∃ rest, window = captures.consumed ++ rest ∧ '\n' ∉ rest.toList ∧
      Text.slice? window ⟨captures.size, window.utf8ByteSize⟩ = some rest := by
  obtain ⟨rule, hfirst, -, hbuilt⟩ := exists_rule_of_buildFirst hbuild
  obtain ⟨hmem, hmatch⟩ := mem_of_matchFirst hfirst
  have hrule : rule.Accounts account := by
    refine (hrules rule hmem).resolve_left fun hstart => ?_
    rw [hstart window last state (by rw [hmatch]; rfl)] at hlast
    cases hlast
  obtain ⟨hover, -, spec', hbuilt', hspec⟩ := hrule hmatch
  cases hbuilt.symm.trans hbuilt'
  obtain ⟨rest, hsplit, -, hslice⟩ := hover.split
  have hparts := hwindow
  rw [hsplit, String.toList_append, List.mem_append, not_or] at hparts
  have hconsumed := startsLine_eq_false hparts.1
  exact ⟨withinLine_of_descendInner hnever hspec hconsumed hwindow (hgo hconsumed) hinner, rest,
    hsplit, hparts.2, hslice⟩

/-- Where no line begins and none ends, no line begins behind a window. -/
theorem descend_within_line (depth : Nat) {offset : Nat} {window : String}
    {last : Option String} {state : S} {outcome : Outcome R T} (hlast : startsLine last = false)
    (hwindow : '\n' ∉ window.toList)
    (h : descend rules source depth offset window last state = some outcome) :
    outcome.WithinLine := by
  induction depth generalizing offset window last state outcome with
  | zero => cases h
  | succ depth ih =>
    cases hbuild : buildFirst rules source offset window last state with
    | error error =>
      rw [descend_of_error hbuild] at h
      obtain rfl := Option.some.inj h
      exact True.intro
    | ok built =>
      rw [descend_of_ok hbuild] at h
      obtain ⟨inner, hinner, hunder⟩ := Option.bind_eq_some_iff.1 h
      obtain ⟨hwithin, rest, -, hrest, hslice⟩ :=
        withinLine_of_buildFirst hrules hnever hlast hwindow hbuild ih hinner
      cases inner with
      | stopped below => exact hwithin.elim
      | failed error =>
        obtain rfl := Option.some.inj hunder
        exact True.intro
      | whole below middle =>
        obtain ⟨later, hlater, rfl⟩ := Option.map_eq_some_iff.1 hunder
        rw [descendRest, Text.slice_of_slice? hslice] at hlater
        split_ifs at hlater
        · obtain rfl := Option.some.inj hlater
          exact hwithin
        · have := ih hwithin hrest hlater
          cases later with
          | whole | stopped | failed => exact this

end WithinLine

end RuledMarkup
