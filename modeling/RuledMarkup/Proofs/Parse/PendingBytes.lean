import RuledMarkup.Proofs.Parse.Agreement

/-!
# Bytes that are pending

The stack of a parse grows as well as it shrinks, and its top span may start before or after the one
that was on top before.  What goes down with every step is the number of bytes that are pending in
all spans together: a step takes what its match has consumed off the top span, and the span that it
puts on the stack in return is shorter than that.

## Main definitions

* `Rule.Shortens` : a rule whose matches end in the window, and that asks for spans that are shorter
  than what it consumes.
* `pendingSize` : the number of bytes that are still to be parsed.

## Main results

* `step_pendingSize_lt` : a step leaves fewer bytes pending.
* `Reaches.add_pendingSize_le` : each step of a run has used up a byte.
* `halts_stepsAllowed` : the steps that are allowed to a parse are enough.
* `parse_value_of_descend` : a parse has the result of a descent.
-/

namespace RuledMarkup

variable {R T S : Type} {rules : List (Rule R T S)} {source : String}

/-- Every match of the rule ends in the window, and a span that the rule asks for is shorter than
what it has consumed. -/
def Rule.Shortens (rule : Rule R T S) : Prop :=
  ∀ ⦃window last state captures⦄, rule.tryMatch window last state = some captures →
    captures.size ≤ window.utf8ByteSize ∧
      (0 < captures.size → ∀ ⦃spec⦄, (rule.build captures state).value = .ok spec →
        ∀ ⦃span⦄, spec.span = some span → span.stop - span.start < captures.size)

/-! ### What is pending -/

/-- The number of bytes that are still to be parsed. -/
def pendingSize : List (Pending S) → Nat
  | [] => 0
  | item :: pending => item.range.stop - item.range.start + pendingSize pending

@[simp] theorem pendingSize_nil : pendingSize ([] : List (Pending S)) = 0 := rfl

@[simp] theorem pendingSize_cons (item : Pending S) (pending : List (Pending S)) :
    pendingSize (item :: pending) =
      item.range.stop - item.range.start + pendingSize pending := rfl

@[simp] theorem pendingSize_append (a b : List (Pending S)) :
    pendingSize (a ++ b) = pendingSize a + pendingSize b := by
  induction a with
  | nil => simp
  | cons item a ih => simp [ih, Nat.add_assoc]

theorem pendingSize_rest (item : Pending S) (size : Nat) :
    pendingSize (item.rest size) = item.range.stop - (item.range.start + size) := by
  rw [Pending.rest]
  split_ifs with h
  · simp [h]
  · simp

/-- What a match puts on the stack in the place of its item is shorter than the item, if the span
that is asked for is shorter than what the match has consumed. -/
theorem pendingSize_following_lt {item : Pending S} {size id : Nat} {state : S}
    {span : Option Text.ByteRange} (hpos : 0 < size)
    (hsize : size ≤ item.range.stop - item.range.start)
    (hspan : ∀ {inner}, span = some inner → inner.stop - inner.start < size) :
    pendingSize (item.following size id state span) < item.range.stop - item.range.start := by
  cases span with
  | none =>
    rw [Pending.following_none, pendingSize_rest]
    omega
  | some inner =>
    have hinner := hspan rfl
    rw [Pending.following_some, pendingSize_cons, pendingSize_rest]
    simp only [Text.ByteRange.shift]
    omega

/-- At first the bytes of the source are pending. -/
theorem pendingSize_start (source : String) (state : S) :
    pendingSize (Machine.start source state : Machine R T S).pending = source.utf8ByteSize := by
  rw [Machine.start]
  dsimp only
  split_ifs with hsource
  · simp [String.isEmpty_iff.1 hsource]
  · simp

/-! ### Steps -/

variable (hrules : ∀ rule ∈ rules, rule.Shortens)

include hrules

/-- A step leaves fewer bytes pending: a span is shorter than what its rule has consumed. -/
theorem step_pendingSize_lt {machine machine' : Machine R T S}
    (h : step rules source machine = .running machine') :
    pendingSize machine'.pending < pendingSize machine.pending := by
  obtain ⟨item, pending, window, captures, spec, hpending, -, hwindow, hbuild, -, hpending', -,
    -⟩ := step_running_cases h
  obtain ⟨rule, hfirst, hpos, hbuilt⟩ := exists_rule_of_buildFirst hbuild
  obtain ⟨hmem, hmatch⟩ := mem_of_matchFirst hfirst
  obtain ⟨hsize, hspan⟩ := hrules rule hmem hmatch
  have hbytes := Text.utf8ByteSize_of_slice? hwindow
  rw [hpending, hpending', pendingSize_append, pendingSize_cons]
  exact Nat.add_lt_add_right
    (pendingSize_following_lt hpos (by omega) fun hinner => hspan hpos hbuilt hinner) _

/-- Each step of a run has used up a byte. -/
theorem Reaches.add_pendingSize_le {n : Nat} {machine machine' : Machine R T S}
    (h : Reaches rules source n machine machine') :
    n + pendingSize machine'.pending ≤ pendingSize machine.pending := by
  induction h with
  | refl => omega
  | head hstep _ ih =>
    have := step_pendingSize_lt hrules hstep
    omega

/-- A parse takes at most one step for each pending byte, and one to end. -/
theorem halts_of_pendingSize_lt {bound : Nat} {machine : Machine R T S}
    (h : pendingSize machine.pending < bound) : Halts rules source bound machine := by
  induction bound generalizing machine with
  | zero => omega
  | succ bound ih =>
    intro machine' hstep
    have := step_pendingSize_lt hrules hstep
    exact ih (by omega)

/-- The steps that are allowed to a parse are enough. -/
theorem halts_stepsAllowed (source : String) (state : S) :
    Halts rules source (stepsAllowed source) (.start source state) := by
  refine halts_of_pendingSize_lt hrules ?_
  rw [pendingSize_start, stepsAllowed]
  omega

/-- A parse has the result of a descent. -/
theorem parse_value_of_descend (hkeep : ∀ rule ∈ rules, rule.KeepsToWindow)
    (hsource : source ≠ "") {state : S} {depth : Nat} {outcome : Outcome R T}
    (h : descend rules source depth 0 source none state = some outcome) :
    (parse rules source state).value = outcome.result := by
  have hface := Machine.facing_start (R := R) (T := T) state hsource
  have hreached := reached_of_descend hkeep depth h hface rfl
  exact (hreached.run_value rfl).2 _ (halts_stepsAllowed hrules source state)

end RuledMarkup
