import Mathlib.Data.List.Chain
import Mathlib.Logic.Relation
import RuledMarkup.Proofs.Parse.History

/-!
# Where a parse sees the start of a line

A rule for lines looks at the text consumed last, not at the source.  The two agree as long as the
last match and the next one follow each other in the source.  They need not do so where the span of
a rule ends: the text consumed last is then the end of that span, and the rest of the text that the
rule has consumed, which is not parsed, stands between it and the next match.

## Main definitions

* `Text.IsLineEnd` : a byte of a text is a line end.
* `Match.MadeBy` : a match of a parse, with its rule.
* `Rule.MindsLines` : where line ends may stand in what a rule consumes and asks for.
* `Closes`, `BehindLineEnd` : closing marks, and the bytes with nothing else before them up to a
  line end.
* `LineStart` : the bytes at which a parse may see the start of a line.
* `Machine.Lined` : the invariant of a parse.

## Main results

* `Machine.Lined.step` : a step keeps the invariant.
* `lineStart_of_madeBy` : where rules for lines match.
-/

namespace RuledMarkup

/-! ### Line ends -/

namespace Text

/-- The byte of the text is a line end. -/
def IsLineEnd (s : String) (n : Nat) : Prop := slice? s ⟨n, n + 1⟩ = some "\n"

variable {s t : String} {r : ByteRange} {n : Nat}

/-- A slice that ends a line ends with a line end. -/
theorem exists_isLineEnd_of_endsWith (h : slice? s r = some t) (ht : t.endsWith '\n' = true) :
    ∃ n, IsLineEnd s n ∧ n + 1 = r.stop ∧ r.start ≤ n := by
  obtain ⟨u, hu⟩ := String.endsWith_char_iff_exists_append.1 ht
  obtain rfl : t = u ++ "\n" := hu
  have hone : ("\n" : String).utf8ByteSize = 1 := by decide
  have hbytes := utf8ByteSize_of_slice? h
  have hlast := slice?_append_right u "\n"
  rw [← slice?_shift h (Nat.le_refl _)] at hlast
  rw [String.utf8ByteSize_append, hone] at hbytes hlast
  have hshift : (⟨u.utf8ByteSize, u.utf8ByteSize + 1⟩ : ByteRange).shift r.start =
      ⟨r.start + u.utf8ByteSize, r.start + u.utf8ByteSize + 1⟩ := by
    simp only [ByteRange.shift, ByteRange.mk.injEq]
    omega
  rw [hshift] at hlast
  exact ⟨_, hlast, by omega, Nat.le_add_right _ _⟩

/-- A line end between the ends of a slice is in the slice. -/
theorem mem_of_isLineEnd (h : slice? s r = some t) (hn : IsLineEnd s n) (hstart : r.start ≤ n)
    (hstop : n < r.stop) : '\n' ∈ t.toList := by
  have hbytes := utf8ByteSize_of_slice? h
  have hspan : n + 1 - r.start ≤ t.utf8ByteSize := by omega
  have hshift : (⟨n - r.start, n + 1 - r.start⟩ : ByteRange).shift r.start = ⟨n, n + 1⟩ := by
    simp only [ByteRange.shift, ByteRange.mk.injEq]
    omega
  have hslice : slice? s ((⟨n - r.start, n + 1 - r.start⟩ : ByteRange).shift r.start) =
      slice? t ⟨n - r.start, n + 1 - r.start⟩ := slice?_shift h hspan
  rw [hshift, hn] at hslice
  obtain ⟨a, b, rfl, -⟩ := slice?_eq_some_iff.1 hslice.symm
  simp

end Text

variable {R T S : Type} {rules : List (Rule R T S)} {source : String} {state : S}

/-! ### Matches and their rules -/

/-- The match is made by the rule in a parse. -/
def Match.MadeBy (rules : List (Rule R T S)) (source : String) (state : S) (found : Match R T S)
    (rule : Rule R T S) : Prop :=
  ∃ n before after, Reaches rules source n (.start source state) before ∧
    before.Makes rules source found after ∧
    matchFirst rules found.window before.last found.state = some (rule, found.captures)

/-- Every step that goes on makes a match by some rule. -/
theorem Machine.Makes.exists_rule {machine machine' : Machine R T S} {found : Match R T S}
    (h : machine.Makes rules source found machine') :
    ∃ rule ∈ rules, matchFirst rules found.window machine.last found.state =
        some (rule, found.captures) ∧
      rule.tryMatch found.window machine.last found.state = some found.captures ∧
      (rule.build found.captures found.state).value = .ok found.spec := by
  obtain ⟨rule, hfirst, -, hbuilt⟩ := exists_rule_of_buildFirst h.build_eq
  obtain ⟨hmem, hmatch⟩ := mem_of_matchFirst hfirst
  exact ⟨rule, hmem, hfirst, hmatch, hbuilt⟩

/-- The rule of a match has matched its window and has built its node. -/
theorem Match.MadeBy.exists_last {found : Match R T S} {rule : Rule R T S}
    (h : found.MadeBy rules source state rule) :
    ∃ last, rule.tryMatch found.window last found.state = some found.captures ∧
      (rule.build found.captures found.state).value = .ok found.spec := by
  obtain ⟨n, machine, machine', -, hmakes, hfirst⟩ := h
  obtain ⟨rule', -, hfirst', hmatch, hbuilt⟩ := hmakes.exists_rule
  obtain ⟨rfl, -⟩ := Prod.mk.inj (Option.some.inj (hfirst'.symm.trans hfirst))
  exact ⟨machine.last, hmatch, hbuilt⟩

/-- A step that goes on makes its first match. -/
theorem exists_madeBy {n : Nat} {machine machine' : Machine R T S} {item : Pending S}
    {pending : List (Pending S)} {window : String} {rule : Rule R T S} {captures : Captures}
    (hreach : Reaches rules source n (.start source state) machine)
    (hstep : step rules source machine = .running machine')
    (hpending : machine.pending = item :: pending)
    (hwindow : Text.slice? source item.range = some window)
    (hfirst : matchFirst rules window machine.last item.state = some (rule, captures)) :
    ∃ found : Match R T S, found.MadeBy rules source state rule ∧ found.item = item := by
  obtain ⟨found, hmakes⟩ := exists_makes hstep
  obtain ⟨pending', hpending', -⟩ := hmakes.pending_eq
  obtain ⟨rfl, -⟩ := List.cons.inj (hpending'.symm.trans hpending)
  obtain rfl := Option.some.inj (hmakes.slice?_eq.symm.trans hwindow)
  obtain ⟨rule', -, hfirst', -, -⟩ := hmakes.exists_rule
  obtain ⟨rfl, -⟩ := Prod.mk.inj (Option.some.inj (hfirst'.symm.trans hfirst))
  exact ⟨found, ⟨n, machine, machine', hreach, hmakes, hfirst'⟩, rfl⟩

/-- After a number of steps, the only span that is pending is matched by a rule, since the rules
before it do not match. -/
theorem exists_madeBy_of_after? [DecidableEq S] {before others : List (Rule R T S)}
    {rule : Rule R T S} (hrules : rules = before ++ rule :: others) {n : Nat} {state' : S}
    {range : Text.ByteRange} {last : Option String} {window : String}
    (hafter : ((Machine.start source state : Machine R T S).after? rules source n).any
      (fun machine =>
        machine.pending.map (fun item => (item.state, item.range)) = [(state', range)] &&
          machine.last = last && (machine.after? rules source 1).isSome) = true)
    (hwindow : Text.slice? source range = some window)
    (hbefore : (matchFirst before window last state').isNone = true)
    (hmatch : (rule.tryMatch window last state').isSome = true) :
    ∃ found : Match R T S, found.MadeBy rules source state rule ∧ found.item.range = range := by
  obtain ⟨machine, hmachine, hshape⟩ := (Option.any_eq_true _ _).1 hafter
  simp only [Bool.and_eq_true, decide_eq_true_eq, List.map_eq_singleton_iff, Prod.mk.injEq]
    at hshape
  obtain ⟨⟨⟨item, hpending, rfl, rfl⟩, rfl⟩, hnext⟩ := hshape
  obtain ⟨next, hnext⟩ := Option.isSome_iff_exists.1 hnext
  obtain ⟨middle, hstep⟩ : ∃ middle, step rules source machine = .running middle := by
    cases reaches_of_after? hnext with
    | head hstep _ => exact ⟨_, hstep⟩
  obtain ⟨captures, hcaptures⟩ := Option.isSome_iff_exists.1 hmatch
  have hfirst : matchFirst rules window machine.last item.state = some (rule, captures) := by
    rw [hrules, matchFirst_append_of_none (Option.isNone_iff_eq_none.1 hbefore)]
    exact matchFirst_cons_of_some hcaptures
  obtain ⟨found, hmade, rfl⟩ :=
    exists_madeBy (reaches_of_after? hmachine) hstep hpending hwindow hfirst
  exact ⟨found, hmade, rfl⟩

/-! ### Rules and lines -/

/-- Where line ends may stand in what the rule consumes and asks for.  A rule for quotes asks for
everything up to the end of what it has consumed.  Any other rule that asks for a span consumes
nothing that ends with a line end, and it is a rule for styled text or the span is within a line. -/
def Rule.MindsLines (rule : Rule R T S) (quotes styles : Prop) : Prop :=
  ∀ ⦃window last state captures spec span⦄, rule.tryMatch window last state = some captures →
    (rule.build captures state).value = .ok spec → spec.span = some span →
    quotes ∧ span.stop = captures.size ∨
      captures.consumed.endsWith '\n' = false ∧
        (styles ∨ ∃ inner, Text.slice? window span = some inner ∧ '\n' ∉ inner.toList)

variable (rules source state) (quotes styles : Rule R T S → Prop)

/-- One byte is the end of a span that a rule for styled text asks for, and the other one the end of
what the rule has consumed: the closing marks stand between them. -/
def Closes (a b : Nat) : Prop :=
  ∃ found rule span, Match.MadeBy rules source state found rule ∧ styles rule ∧
    found.wanted? = some span ∧ span.stop = a ∧ found.range.stop = b

/-- There is nothing between a line end and the byte but closing marks. -/
def BehindLineEnd (offset : Nat) : Prop :=
  ∃ n, Text.IsLineEnd source n ∧
    Relation.ReflTransGen (Closes rules source state styles) (n + 1) offset

/-- The bytes at which a parse may see the start of a line. -/
inductive LineStart : Nat → Prop
  | first : LineStart 0
  | behind {offset : Nat} (h : BehindLineEnd rules source state styles offset) : LineStart offset
  | inQuote {found : Match R T S} {rule : Rule R T S} {span : Text.ByteRange}
      (hmade : found.MadeBy rules source state rule) (hquotes : quotes rule)
      (hspan : found.wanted? = some span) : LineStart span.start

/-- Wherever a line ends at the end of the range, it also does at the byte, up to closing marks:
that is what comes next after the range.  Otherwise no line ends in the range. -/
def LeadsTo (range : Text.ByteRange) (offset : Nat) : Prop :=
  Relation.ReflTransGen (Closes rules source state styles) range.stop offset ∨
    ∀ n, range.start ≤ n → n < range.stop → ¬ Text.IsLineEnd source n

/-- If the text consumed last ends a line then the next match is at a byte where a line may start,
and each pending span leads to the next one. -/
structure Machine.Lined (machine : Machine R T S) : Prop where
  top : ∀ item pending, machine.pending = item :: pending → startsLine machine.last = true →
    LineStart rules source state quotes styles item.range.start
  linked : machine.pending.IsChain fun upper lower =>
    LeadsTo rules source state styles upper.range lower.range.start

variable {rules source state quotes styles}

/-- A range leads where its end leads, and so does a part of it that ends there. -/
theorem LeadsTo.part {range part : Text.ByteRange} {offset : Nat}
    (h : LeadsTo rules source state styles range offset) (hstart : range.start ≤ part.start)
    (hstop : part.stop = range.stop) : LeadsTo rules source state styles part offset := by
  rw [LeadsTo, hstop]
  exact h.imp_right fun hnone n hn => hnone n (Nat.le_trans hstart hn)

theorem Machine.Lined.start : (Machine.start source state : Machine R T S).Lined rules source state
    quotes styles where
  top := by
    intro item pending hpending _
    rw [Machine.start] at hpending
    dsimp only at hpending
    split_ifs at hpending
    obtain ⟨rfl, -⟩ := List.cons.inj hpending
    exact .first
  linked := by
    rw [Machine.start]
    dsimp only
    split_ifs <;> simp

/-! ### Steps -/

/-- What is pending once the rest of the window has taken its place: after the end of the match
comes the next span, up to closing marks, or there is no line end in the window. -/
theorem Machine.Lined.rest {machine : Machine R T S}
    (h : machine.Lined rules source state quotes styles) {latest : Match R T S}
    {pending : List (Pending S)} (heq : machine.pending = latest.item :: pending) :
    (∀ next ∈ (latest.item.rest latest.captures.size ++ pending).head?,
      Relation.ReflTransGen (Closes rules source state styles) latest.range.stop
          next.range.start ∨
        ∀ n, latest.item.range.start ≤ n → n < latest.item.range.stop →
          ¬ Text.IsLineEnd source n) ∧
      (latest.item.rest latest.captures.size ++ pending).IsChain fun upper lower =>
        LeadsTo rules source state styles upper.range lower.range.start := by
  have hlinked := h.linked
  rw [heq, List.isChain_cons] at hlinked
  obtain ⟨htop, hlinked⟩ := hlinked
  rw [Pending.rest]
  split_ifs with hend
  · have hstop : latest.item.range.stop = latest.range.stop := hend.symm
    exact ⟨fun next hnext => (htop next hnext).imp_left (hstop ▸ ·), hlinked⟩
  · refine ⟨fun next hnext => .inl ?_, List.isChain_cons.2 ⟨fun next hnext => ?_, hlinked⟩⟩
    · obtain rfl := Option.some.inj hnext
      exact .refl
    · exact (htop next hnext).part (Nat.le_add_right _ _) rfl

section Step

variable {machine machine' : Machine R T S} {latest : Match R T S} {rule : Rule R T S}
  (hmakes : machine.Makes rules source latest machine')
  (hmade : latest.MadeBy rules source state rule)
  (hlines : rule.MindsLines (quotes rule) (styles rule))
  (hmatch : rule.tryMatch latest.window machine.last latest.state = some latest.captures)
  (hbuilt : (rule.build latest.captures latest.state).value = .ok latest.spec)

include hmakes hmade hlines hmatch hbuilt

/-- The span that a rule asks for leads where the end of its match leads. -/
theorem leadsTo_wanted {span : Text.ByteRange} (hspan : latest.spec.span = some span)
    {offset : Nat}
    (h : Relation.ReflTransGen (Closes rules source state styles) latest.range.stop offset ∨
      ∀ n, latest.item.range.start ≤ n → n < latest.item.range.stop → ¬ Text.IsLineEnd source n) :
    LeadsTo rules source state styles (span.shift latest.offset) offset := by
  have hfits := hmakes.fits
  rw [hspan, Option.all_some, fitsWindow, Bool.and_eq_true, decide_eq_true_eq,
    decide_eq_true_eq] at hfits
  rcases h with h | hnone
  · rcases hlines hmatch hbuilt hspan with ⟨-, hstop⟩ | ⟨-, hstyles | ⟨inner, hslice, hinner⟩⟩
    · have hstop' : (span.shift latest.offset).stop = latest.range.stop := by
        simp only [Text.ByteRange.shift, Match.range]
        omega
      exact .inl (hstop' ▸ h)
    · have hwanted : latest.wanted? = some (span.shift latest.offset) := by
        rw [Match.wanted?, hspan, Option.map_some]
      exact .inl (.head ⟨latest, rule, _, hmade, hstyles, hwanted, rfl, rfl⟩ h)
    · refine .inr fun n hstart hstop hn => hinner ?_
      rw [← Text.slice?_shift hmakes.slice?_eq hfits.2] at hslice
      exact Text.mem_of_isLineEnd hslice hn hstart hstop
  · refine .inr fun n hstart hstop => hnone n ?_ ?_
    · simp only [Text.ByteRange.shift, Match.item] at hstart ⊢
      omega
    · simp only [Text.ByteRange.shift, Match.item] at hstop ⊢
      omega

/-- A step keeps the invariant. -/
theorem Machine.Lined.step (hover : latest.captures.Over latest.window)
    (h : machine.Lined rules source state quotes styles) :
    machine'.Lined rules source state quotes styles := by
  obtain ⟨pending, heq, heq'⟩ := hmakes.pending_eq
  obtain ⟨hnext, hlinked⟩ := h.rest heq
  have hends (hlast : startsLine machine'.last = true) :
      latest.consumed.endsWith '\n' = true := by
    rwa [hmakes.last_eq] at hlast
  cases hspan : latest.spec.span with
  | none =>
    rw [hspan, Pending.following_none] at heq'
    refine ⟨fun item pending' hpending hlast => .behind ?_, heq' ▸ hlinked⟩
    obtain ⟨n, hn, hstop, hstart⟩ :=
      Text.exists_isLineEnd_of_endsWith (hmakes.slice?_range hover) (hends hlast)
    rcases hnext item (by rw [← heq', hpending]; rfl) with hleads | hnone
    · exact ⟨n, hn, hstop ▸ hleads⟩
    · -- The match itself ends with a line end of the window.
      have hsize := hover.size_le
      refine absurd hn (hnone n hstart ?_)
      simp only [Match.range] at hstop
      simp only [Match.item]
      omega
  | some span =>
    rw [hspan, Pending.following_some, List.cons_append] at heq'
    refine ⟨fun item pending' hpending hlast => ?_, ?_⟩
    · obtain ⟨rfl, -⟩ := List.cons.inj (heq'.symm.trans hpending)
      rcases hlines hmatch hbuilt hspan with ⟨hquotes, -⟩ | ⟨hnot, -⟩
      · exact .inQuote hmade hquotes (by rw [Match.wanted?, hspan, Option.map_some]; rfl)
      · cases hnot.symm.trans (hends hlast)
    · rw [heq', List.isChain_cons]
      exact ⟨fun next hmem => leadsTo_wanted hmakes hmade hlines hmatch hbuilt hspan
        (hnext next hmem), hlinked⟩

end Step

/-! ### Runs -/

variable (hkeeps : ∀ rule ∈ rules, rule.KeepsToWindow)
  (hrules : ∀ rule ∈ rules, rule.MindsLines (quotes rule) (styles rule))

include hkeeps hrules

/-- Every machine of a parse keeps the invariant. -/
theorem Reaches.lined {n : Nat} {machine : Machine R T S}
    (h : Reaches rules source n (.start source state) machine) :
    machine.Lined rules source state quotes styles := by
  refine (h.invariant (P := fun machine =>
    (∃ n, Reaches rules source n (.start source state) machine) ∧
      machine.Lined rules source state quotes styles) ?_ ⟨⟨0, .refl _⟩, .start⟩).2
  rintro machine middle hstep ⟨⟨m, hm⟩, hlined⟩
  obtain ⟨latest, hmakes⟩ := exists_makes hstep
  obtain ⟨rule, hmem, hfirst, hmatch, hbuilt⟩ := hmakes.exists_rule
  exact ⟨⟨m + 1, hm.trans (.single hstep)⟩,
    hlined.step hmakes ⟨m, machine, middle, hm, hmakes, hfirst⟩ (hrules rule hmem) hmatch hbuilt
      (hkeeps rule hmem hmatch)⟩

/-- A rule that matches at the start of a line only does so where a line may start. -/
theorem lineStart_of_madeBy {found : Match R T S} {rule : Rule R T S}
    (hmade : found.MadeBy rules source state rule)
    (hrule : ∀ window last state, (rule.tryMatch window last state).isSome = true →
      startsLine last = true) :
    LineStart rules source state quotes styles found.offset := by
  obtain ⟨n, before, after, hreach, hmakes, hfirst⟩ := hmade
  obtain ⟨pending, heq, -⟩ := hmakes.pending_eq
  have hmatch := (mem_of_matchFirst hfirst).2
  exact (hreach.lined hkeeps hrules).top _ _ heq
    (hrule _ _ _ (by rw [hmatch]; rfl))

end RuledMarkup
