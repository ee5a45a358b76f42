import RuledMarkup.Proofs.Parse.Relocation

/-!
# Descents with other rules

Two lists of rules may find the same forest in different ways: where a rule of one list asks for a
span to be parsed under its node, a rule of the other may build the whole node at once.  The text
consumed last is then not the same behind the two nodes, so the two descents go on with texts that
agree in what the rules see of them.

## Main definitions

* `Outcome.Follows` : two outcomes have the same forest, and a line begins behind both or neither.
* `Descent.Follows` : a descent finds what another one finds, in windows that are near.
* `MatchesFollow`, `RestsFollow` : what is built at near windows is alike, and what is left of them
  is near again.

## Main results

* `descend_follows` : if what is built at near windows is alike, then so is what is found there.
-/

namespace RuledMarkup

variable {R T S : Type}

namespace Outcome

/-- The second outcome has the forest of the first, and a line begins behind it if one begins behind
the first. -/
def Follows : Outcome R T → Outcome R T → Prop
  | whole forest last, whole forest' last' => forest' = forest ∧ startsLine last' = startsLine last
  | stopped forest, stopped forest' => forest' = forest
  | _, _ => False

theorem Follows.refl {outcome : Outcome R T} (h : outcome.result.isOk = true) :
    outcome.Follows outcome := by
  cases outcome with
  | whole forest last => exact ⟨rfl, rfl⟩
  | stopped forest => exact rfl
  | failed error => cases h

theorem Follows.result_eq {outcome outcome' : Outcome R T} (h : outcome.Follows outcome') :
    outcome'.result = outcome.result := by
  cases outcome with
  | whole forest last =>
    cases outcome' with
    | whole => exact congrArg Except.ok h.1
    | stopped | failed => exact h.elim
  | stopped forest =>
    cases outcome' with
    | stopped => exact congrArg Except.ok h
    | whole | failed => exact h.elim
  | failed error => exact h.elim

/-- What has the same forest has it under the same nodes and before them. -/
theorem Follows.map {outcome outcome' : Outcome R T} (h : outcome.Follows outcome')
    {f : Outcome R T → Outcome R T} (g : List (Node R T) → List (Node R T))
    (hwhole : ∀ forest last, f (whole forest last) = whole (g forest) last)
    (hstopped : ∀ forest, f (stopped forest) = stopped (g forest)) :
    (f outcome).Follows (f outcome') := by
  cases outcome with
  | whole forest last =>
    cases outcome' with
    | whole forest' last' =>
      rw [hwhole, hwhole]
      exact ⟨congrArg g h.1, h.2⟩
    | stopped | failed => exact h.elim
  | stopped forest =>
    cases outcome' with
    | stopped forest' =>
      rw [hstopped, hstopped]
      exact congrArg g h
    | whole | failed => exact h.elim
  | failed error => exact h.elim

theorem Follows.withFirst {outcome outcome' : Outcome R T} (h : outcome.Follows outcome')
    (node : Node R T) : (outcome.withFirst node).Follows (outcome'.withFirst node) :=
  h.map (node :: ·) (fun _ _ => rfl) fun _ => rfl

/-- The outcome with its forest under a node. -/
def placed (root : Node R T) : Outcome R T → Outcome R T
  | whole below last => whole [root.addChildren below] last
  | stopped below => stopped [root.addChildren below]
  | failed error => failed error

theorem Follows.placed {outcome outcome' : Outcome R T} (h : outcome.Follows outcome')
    (root : Node R T) : (outcome.placed root).Follows (outcome'.placed root) :=
  h.map (fun below => [root.addChildren below]) (fun _ _ => rfl) fun _ => rfl

/-- What has been placed alike goes on alike. -/
theorem Follows.under {root root' : Node R T} {inner inner' outcome : Outcome R T}
    {goOn goOn' : Option String → Option (Outcome R T)}
    (h : (inner.placed root).Follows (inner'.placed root'))
    (hgo : inner.under root goOn = some outcome) (hok : outcome.result.isOk = true)
    (hrest : ∀ {below last last' later}, inner = .whole below last →
      startsLine last' = startsLine last → goOn last = some later → later.result.isOk = true →
        ∃ later', goOn' last' = some later' ∧ later.Follows later') :
    ∃ outcome', inner'.under root' goOn' = some outcome' ∧ outcome.Follows outcome' := by
  cases inner with
  | failed error => exact h.elim
  | stopped below =>
    obtain rfl := Option.some.inj hgo
    cases inner' with
    | whole | failed => exact h.elim
    | stopped below' => exact ⟨_, rfl, h⟩
  | whole below last =>
    obtain ⟨later, hlater, rfl⟩ := Option.map_eq_some_iff.1 hgo
    cases inner' with
    | stopped | failed => exact h.elim
    | whole below' last' =>
      obtain ⟨hnode, hlast⟩ := h
      have hlaterOk : later.result.isOk = true := by
        cases later with
        | whole | stopped => rfl
        | failed => exact hok
      obtain ⟨later', hlater', hfollows⟩ := hrest rfl hlast hlater hlaterOk
      refine ⟨_, Option.map_eq_some_iff.2 ⟨later', hlater', rfl⟩, ?_⟩
      rw [(List.cons.inj hnode).1]
      exact hfollows.withFirst _

end Outcome

/-! ### Descents that follow others -/

/-- The second descent finds what the first one finds, unless that fails, at windows elsewhere that
are near for the texts consumed last. -/
def Descent.Follows (near : String → Option String → Option String → Prop)
    (go go' : Descent R T S) : Prop :=
  ∀ ⦃offset offset' window last last' state outcome⦄, near window last last' →
    go offset window last state = some outcome → outcome.result.isOk = true →
      ∃ outcome', go' offset' window last' state = some outcome' ∧ outcome.Follows outcome'

namespace Descent.Follows

variable {near : String → Option String → Option String → Prop} {go go' : Descent R T S}
  {offset offset' : Nat} {window : String} {outcome : Outcome R T}

/-- What is found in a span that is near. -/
theorem descendInner (h : go.Follows near go') {spec : Spec R T S} {last : Option String}
    (hnear : ∀ {span inner}, spec.span = some span → Text.slice? window span = some inner →
      near inner last last)
    (hgo : spec.descendInner go offset window last = some outcome)
    (hok : outcome.result.isOk = true) :
    ∃ outcome', spec.descendInner go' offset' window last = some outcome' ∧
      outcome.Follows outcome' := by
  unfold Spec.descendInner at hgo ⊢
  cases hspan : spec.span with
  | none =>
    simp only [hspan] at hgo
    exact ⟨outcome, hgo, .refl hok⟩
  | some span =>
    simp only [hspan] at hgo ⊢
    split_ifs at hgo ⊢
    · obtain rfl := Option.some.inj hgo
      cases hok
    · exact ⟨outcome, hgo, .refl hok⟩
    · cases hslice : Text.slice? window span with
      | none =>
        rw [hslice] at hgo
        obtain rfl := Option.some.inj hgo
        cases hok
      | some inner =>
        simp only [hslice] at hgo ⊢
        exact h (hnear hspan hslice) hgo hok

/-- What is found in the rest of a window if that is near. -/
theorem descendRest (h : go.Follows near go') {size : Nat} {state : S} {last last' : Option String}
    (hlast : startsLine last' = startsLine last)
    (hnear : near (Text.slice window ⟨size, window.utf8ByteSize⟩) last last')
    (hgo : RuledMarkup.descendRest go offset size window state last = some outcome)
    (hok : outcome.result.isOk = true) :
    ∃ outcome', RuledMarkup.descendRest go' offset' size window state last' = some outcome' ∧
      outcome.Follows outcome' := by
  unfold RuledMarkup.descendRest at hgo ⊢
  dsimp only at hgo ⊢
  split_ifs at hgo ⊢
  · obtain rfl := Option.some.inj hgo
    exact ⟨_, rfl, rfl, hlast⟩
  · exact h hnear hgo hok

end Descent.Follows

/-- What is built where the first match is known. -/
theorem buildFirst_of_matchFirst {rules : List (Rule R T S)} {rule : Rule R T S} {source : String}
    {offset : Nat} {window : String} {last : Option String} {state : S} {captures : Captures}
    {spec : Spec R T S} (hfirst : matchFirst rules window last state = some (rule, captures))
    (hsize : 0 < captures.size) (hbuilt : (rule.build captures state).value = .ok spec) :
    buildFirst rules source offset window last state = .ok (captures, spec) := by
  simp [buildFirst, hfirst, Nat.ne_of_gt hsize, hbuilt, Except.map]

section Lists

variable (rules rules' : List (Rule R T S)) (source source' : String)
  (near : String → Option String → Option String → Prop)

/-- At windows that are near, the second rules build what the first ones build.  What is found below
the node makes it the same node, if the descents below follow each other. -/
def MatchesFollow : Prop :=
  ∀ ⦃depth offset offset' window last last' state captures spec inner⦄, near window last last' →
    (descend rules source depth).Follows near (descend rules' source' depth) →
    buildFirst rules source offset window last state = .ok (captures, spec) →
    spec.descendInner (descend rules source depth) offset window captures.consumed = some inner →
    inner.result.isOk = true →
    ∃ spec' inner', buildFirst rules' source' offset' window last' state = .ok (captures, spec') ∧
      spec'.descendInner (descend rules' source' depth) offset' window captures.consumed =
        some inner' ∧
      (inner.placed spec.root).Follows (inner'.placed spec'.root)

/-- What is left of windows that are near is near. -/
def RestsFollow : Prop :=
  ∀ ⦃depth offset window last last' state captures spec below middle middle'⦄,
    near window last last' →
    buildFirst rules source offset window last state = .ok (captures, spec) →
    spec.descendInner (descend rules source depth) offset window captures.consumed =
      some (.whole below middle) →
    startsLine middle' = startsLine middle →
    near (Text.slice window ⟨captures.size, window.utf8ByteSize⟩) middle middle'

variable {rules rules' source source' near}

/-- Descents follow each other if what is built at near windows is alike. -/
theorem descend_follows (hmatches : MatchesFollow rules rules' source source' near)
    (hrests : RestsFollow rules source near) (depth : Nat) :
    (descend rules source depth).Follows near (descend rules' source' depth) := by
  induction depth with
  | zero =>
    intro _ _ _ _ _ _ _ _ h
    cases h
  | succ depth ih =>
    intro offset offset' window last last' state outcome hnear h hok
    cases hbuild : buildFirst rules source offset window last state with
    | error error =>
      rw [descend_of_error hbuild] at h
      obtain rfl := Option.some.inj h
      cases hok
    | ok built =>
      obtain ⟨captures, spec⟩ := built
      rw [descend_of_ok hbuild] at h
      obtain ⟨inner, hinner, hunder⟩ := Option.bind_eq_some_iff.1 h
      have hinnerOk : inner.result.isOk = true := by
        cases inner with
        | whole | stopped => rfl
        | failed error =>
          obtain rfl := Option.some.inj hunder
          exact hok
      obtain ⟨spec', inner', hbuild', hinner', hplaced⟩ :=
        hmatches hnear ih hbuild hinner hinnerOk
      obtain ⟨outcome', houtcome', hfollows⟩ := hplaced.under hunder hok
        fun {below middle middle' later} hwhole hlast hlater hlaterOk =>
          ih.descendRest hlast (hrests hnear hbuild (hwhole ▸ hinner) hlast) hlater hlaterOk
      exact ⟨outcome', by rw [descend_of_ok hbuild', hinner']; exact houtcome', hfollows⟩

end Lists

end RuledMarkup
