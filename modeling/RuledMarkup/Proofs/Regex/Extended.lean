import Mathlib.Data.List.TakeWhile
import RuledMarkup.Regex.Reader

/-!
# Parts of expressions before a closing parenthesis

A closing parenthesis ends every part of an expression as the end of the text does: an escape, an
item of a class, a whole class, a count, a repetition, a name and the beginning of a group are read
alike whatever comes behind it.

## Main definitions

* `Reader.Extends` : reading a part is the same if a closing parenthesis follows.

## Main results

* `Reader.extends_readClass`, `Reader.extends_readRepetitions`, `Reader.extends_readOpening` : the
  parts that are read with other parts in them.
-/

namespace RuledMarkup.Regex.Reader

variable {α β : Type} {more : List Char}

/-! ### Readers that yield the same -/

/-- What has been read is given to the reader that goes on. -/
theorem ok_bind {ε : Type} (value : α) (next : α → Except ε β) :
    (.ok value >>= next) = next value :=
  rfl

/-- The second reader of texts reads what the first one reads, if a closing parenthesis and more
follows. -/
def Extends (more : List Char) (read read' : List Char → Except ReadError (α × List Char)) : Prop :=
  ∀ ⦃t a u⦄, read t = .ok (a, u) → read' (t ++ ')' :: more) = .ok (a, u ++ ')' :: more)

/-- Readers that go on with what other readers have left. -/
theorem Extends.bind {read read' : List Char → Except ReadError (α × List Char)}
    {next next' : α × List Char → Except ReadError (β × List Char)} (h : Extends more read read')
    (hnext : ∀ a, Extends more (fun rest => next (a, rest)) fun rest => next' (a, rest)) :
    Extends more (fun cs => read cs >>= next) fun cs => read' cs >>= next' := by
  intro cs b rest hread
  dsimp only at hread ⊢
  cases hcs : read cs with
  | error e =>
    rw [hcs] at hread
    cases hread
  | ok found =>
    rw [hcs] at hread
    rw [h hcs]
    exact hnext _ hread

theorem Extends.map {read read' : List Char → Except ReadError (α × List Char)}
    (h : Extends more read read') (f : α → β) :
    Extends more (fun cs => (read cs).map fun (a, rest) => (f a, rest))
      fun cs => (read' cs).map fun (a, rest) => (f a, rest) := by
  intro cs b rest hread
  dsimp only at hread ⊢
  cases hcs : read cs with
  | error e =>
    rw [hcs] at hread
    cases hread
  | ok found =>
    rw [hcs] at hread
    cases hread
    rw [h hcs]
    rfl

/-! ### The parts of an expression -/

theorem takeWhile_append_paren {p : Char → Bool} (hp : p ')' = false) (cs : List Char) :
    (cs ++ ')' :: more).takeWhile p = cs.takeWhile p := by
  induction cs with
  | nil => simp [hp]
  | cons c cs ih => cases hc : p c <;> simp [hc, ih]

theorem dropWhile_append_paren {p : Char → Bool} (hp : p ')' = false) (cs : List Char) :
    (cs ++ ')' :: more).dropWhile p = cs.dropWhile p ++ ')' :: more := by
  induction cs with
  | nil => simp [hp]
  | cons c cs ih => cases hc : p c <;> simp [hc, ih]

/-- A run that ends within a text is the same whatever comes behind that text. -/
theorem takeWhile_dropWhile_append {p : Char → Bool} {cs after : List Char} {d : Char}
    (h : cs.dropWhile p = d :: after) (rest : List Char) :
    (cs ++ rest).takeWhile p = cs.takeWhile p ∧
      (cs ++ rest).dropWhile p = d :: after ++ rest := by
  have hlength : (cs.takeWhile p).length ≠ cs.length := fun hlength => by
    have := congrArg List.length (List.takeWhile_append_dropWhile (p := p) (l := cs))
    simp [h, hlength] at this
  exact ⟨by rw [List.takeWhile_append, if_neg hlength],
    by rw [List.dropWhile_append, h, if_neg (by simp)]⟩

/-- Text that does not begin with a character does not begin with it either if a closing parenthesis
follows. -/
theorem append_paren_ne_cons {cs : List Char} {c : Char} (h : ∀ rest, cs ≠ c :: rest) (hc : c ≠ ')')
    (rest : List Char) : cs ++ ')' :: more ≠ c :: rest := by
  intro heq
  cases cs with
  | nil => exact hc (List.cons_eq_cons.1 heq).1.symm
  | cons d cs =>
    obtain ⟨rfl, -⟩ := List.cons_eq_cons.1 heq
    exact h cs rfl

theorem append_paren_ne_cons_cons {cs : List Char} {c d : Char} (h : ∀ rest, cs ≠ c :: d :: rest)
    (hc : c ≠ ')') (hd : d ≠ ')') (rest : List Char) : cs ++ ')' :: more ≠ c :: d :: rest := by
  intro heq
  cases cs with
  | nil => exact hc (List.cons_eq_cons.1 heq).1.symm
  | cons e cs =>
    obtain ⟨rfl, hrest⟩ := List.cons_eq_cons.1 heq
    exact append_paren_ne_cons (fun rest hcs => h rest (by rw [hcs])) hd rest hrest

theorem extends_readNumbered (width : Nat) :
    Extends more (readNumbered width) (readNumbered width) := by
  have hnumbered (digits : List Char) : Extends more (numbered digits) (numbered digits) := by
    intro cs c rest h
    rw [numbered] at h ⊢
    split at h <;> simp_all
  intro cs a rest h
  rw [readNumbered.eq_def] at h
  split at h
  · next cs =>
    rw [List.cons_append, readNumbered]
    split at h
    · cases h
    · next d after hdrop =>
      obtain ⟨htake, hdrop⟩ := takeWhile_dropWhile_append hdrop (')' :: more)
      rw [hdrop, List.cons_append, htake]
      exact hnumbered _ h
  · next hcs =>
    split_ifs at h with hwidth
    have hlength : ¬ (cs ++ ')' :: more).length < width := by
      rw [List.length_append]
      omega
    rw [readNumbered.eq_def]
    split
    · next hbrace =>
      cases cs with
      | nil => simp at hbrace
      | cons c cs =>
        obtain ⟨rfl, -⟩ := List.cons_eq_cons.1 hbrace
        exact absurd rfl (hcs cs)
    · rw [if_neg hlength, List.take_append_of_le_length (by omega),
        List.drop_append_of_le_length (by omega)]
      exact hnumbered _ h

/-- A name in braces ends before a parenthesis, and a count in braces is left. -/
theorem extends_readWordEdge : Extends more readWordEdge readWordEdge := by
  intro cs a rest h
  rw [readWordEdge.eq_def] at h
  split at h
  · cases h
  · next c cs =>
    rw [List.cons_append, List.cons_append, readWordEdge, ← List.cons_append,
      takeWhile_append_paren rfl, dropWhile_append_paren rfl]
    split_ifs at h ⊢
    · split at h
      · next hdrop =>
        rw [hdrop, List.cons_append]
        split at h
        · cases h
          rfl
        · cases h
      · cases h
    · cases h
      rfl
  · next hsingle hbrace =>
    cases h
    rw [readWordEdge]
    · intro heq
      have hlength := congrArg List.length heq
      obtain rfl : cs = [] := List.length_eq_zero_iff.1 (by simp at hlength; omega)
      cases heq
    · intro c ds heq
      match cs with
      | [] => simp at heq
      | [c] =>
        obtain ⟨rfl, -⟩ := List.cons_eq_cons.1 heq
        exact hsingle rfl
      | c :: d :: cs =>
        obtain ⟨rfl, -⟩ := List.cons_eq_cons.1 heq
        exact hbrace d cs rfl

theorem extends_readEscape : Extends more readEscape readEscape := by
  intro cs a rest h
  cases cs with
  | nil => cases h
  | cons c cs =>
    simp only [readEscape] at h
    simp only [List.cons_append, readEscape]
    split at h
    any_goals cases h; rfl
    any_goals exact (extends_readNumbered _).map Escape.literal h
    · exact extends_readWordEdge.map (fun l => Escape.position (.word false l)) h
    split_ifs at h with hc
    cases h
    simp_all

theorem extends_readClassItem : Extends more readClassItem readClassItem := by
  intro cs a rest h
  cases cs with
  | nil => cases h
  | cons c cs =>
    by_cases hc : c = '\\'
    · subst hc
      refine extends_readEscape.bind (fun escape => ?_) (t := cs) h
      intro cs a rest h
      cases escape <;> cases h <;> rfl
    · simp only [readClassItem, List.cons_append] at h ⊢
      cases h
      rfl

/-- A range is made of its two ends, whatever comes after them. -/
theorem extends_range (first final : CharSet) : Extends more
    (fun rest => match first, final with
      | .one a, .one b => if a ≤ b then .ok (CharSet.range a b, rest) else .error .reversedRange
      | _, _ => .error .reversedRange)
    (fun rest => match first, final with
      | .one a, .one b => if a ≤ b then .ok (CharSet.range a b, rest) else .error .reversedRange
      | _, _ => .error .reversedRange) := by
  intro cs a rest h
  dsimp only at h ⊢
  split at h
  · split_ifs at h with hle
    cases h
    rw [if_pos hle]
  · cases h

theorem extends_readClassRange : Extends more readClassRange readClassRange := by
  refine extends_readClassItem.bind fun first => ?_
  intro cs a rest h
  dsimp only at h ⊢
  split at h
  · cases h
  · cases h
    rfl
  · cases h
    rfl
  · next cs hclose hhyphen =>
    rw [List.cons_append]
    split
    · next heq => cases heq
    · next heq =>
      refine absurd (List.cons_eq_cons.1 heq).2 (append_paren_ne_cons ?_ (by decide) _)
      exact fun rest hrest => hclose rest (by rw [hrest])
    · next heq =>
      refine absurd (List.cons_eq_cons.1 heq).2 (append_paren_ne_cons ?_ (by decide) _)
      exact fun rest hrest => hhyphen rest (by rw [hrest])
    · next heq =>
      obtain ⟨-, rfl⟩ := List.cons_eq_cons.1 heq
      exact extends_readClassItem.bind (extends_range first) h
    · next heq => exact absurd rfl (heq _)
  · next hnil hclose hhyphen hrange =>
    cases h
    have hrange : ∀ rest, cs ++ ')' :: more ≠ '-' :: rest :=
      append_paren_ne_cons hrange (by decide)
    split
    · next heq => simp at heq
    · next heq => exact absurd heq (hrange _)
    · next heq => exact absurd heq (hrange _)
    · next heq => exact absurd heq (hrange _)
    · rfl

/-- A closing bracket that comes first in a class stands for itself. -/
theorem openBracket_append (start : ClassReader) (rest : List Char) :
    (match rest ++ ')' :: more with
      | ']' :: rest => (start.addChar ']', rest)
      | rest => (start, rest)) =
    ((match rest with
      | ']' :: rest => (start.addChar ']', rest)
      | rest => (start, rest)).1,
    (match rest with
      | ']' :: rest => (start.addChar ']', rest)
      | rest => (start, rest)).2 ++ ')' :: more) := by
  cases rest with
  | nil => rfl
  | cons c rest => by_cases hc : c = ']' <;> simp [hc]

theorem openClass_append (cs : List Char) :
    openClass (cs ++ ')' :: more) = ((openClass cs).1, (openClass cs).2 ++ ')' :: more) := by
  have htake (cs : List Char) : (cs ++ ')' :: more).takeWhile (· == '-') =
      cs.takeWhile (· == '-') := takeWhile_append_paren rfl cs
  have hdrop (cs : List Char) : (cs ++ ')' :: more).dropWhile (· == '-') =
      cs.dropWhile (· == '-') ++ ')' :: more := dropWhile_append_paren rfl cs
  -- The caret is split off first, then the hyphens, and then a bracket.
  have hcaret : (∃ rest, cs = '^' :: rest) ∨ ∀ rest, cs ++ ')' :: more ≠ '^' :: rest := by
    cases cs with
    | nil => simp
    | cons c cs => by_cases hc : c = '^' <;> simp [hc]
  rcases hcaret with ⟨rest, rfl⟩ | hcaret
  · simp only [openClass, List.cons_append, htake, hdrop]
    split_ifs
    · exact openBracket_append ..
    · rfl
  · have hcs : ∀ rest, cs ≠ '^' :: rest := fun rest hrest =>
      hcaret (rest ++ ')' :: more) (by rw [hrest, List.cons_append])
    simp only [openClass, htake, hdrop]
    split_ifs
    · exact openBracket_append ..
    · rfl

/-- No named class has a parenthesis in its name. -/
theorem lookup_asciiClasses_eq_none {name : List Char} (h : ')' ∈ name) :
    asciiClasses.lookup (String.ofList name) = none := by
  have hnames : ∀ entry ∈ asciiClasses, ')' ∉ entry.1.toList := by decide
  refine List.lookup_eq_none_iff.2 fun entry hentry => ?_
  rw [bne_iff_ne]
  intro hname
  exact hnames entry hentry (by rwa [← hname, String.toList_ofList])

theorem readAsciiName?_append (negated : Bool) (cs : List Char) :
    readAsciiName? negated (cs ++ ')' :: more) =
      (readAsciiName? negated cs).map fun (s, rest) => (s, rest ++ ')' :: more) := by
  rw [readAsciiName?, readAsciiName?]
  cases hdrop : cs.dropWhile (· != ':') with
  | nil =>
    -- Without a colon the name would run beyond the parenthesis.
    have hname : ')' ∈ (cs ++ ')' :: more).takeWhile (· != ':') := by
      rw [List.takeWhile_append_of_pos (List.dropWhile_eq_nil_iff.1 hdrop)]
      simp
    split
    · rw [lookup_asciiClasses_eq_none hname]
      rfl
    · rfl
  | cons c after =>
    obtain ⟨htake, hdrop⟩ := takeWhile_dropWhile_append hdrop (')' :: more)
    rw [htake, hdrop]
    by_cases hend : ∃ rest, c :: after = ':' :: ']' :: rest
    · obtain ⟨rest, hend⟩ := hend
      rw [hend]
      simp [Function.comp_def]
    · have hend' : ∀ rest, c :: after ++ ')' :: more ≠ ':' :: ']' :: rest :=
        append_paren_ne_cons_cons (fun rest h => hend ⟨rest, h⟩) (by decide) (by decide)
      split
      · next heq => exact absurd heq (hend' _)
      · split
        · next heq => exact absurd ⟨_, heq⟩ hend
        · rfl

/-- A named class is read the same if a closing parenthesis follows. -/
theorem readAscii?_append (cs : List Char) :
    readAscii? (cs ++ ')' :: more) =
      (readAscii? cs).map fun (s, rest) => (s, rest ++ ')' :: more) := by
  rw [readAscii?.eq_def cs]
  split
  · exact readAsciiName?_append true _
  · next cs hcaret =>
    rw [← readAsciiName?_append, List.cons_append, readAscii?]
    exact append_paren_ne_cons hcaret (by decide)
  · next hcaret hcolon =>
    have hcolon : ∀ rest, cs ++ ')' :: more ≠ ':' :: rest := append_paren_ne_cons hcolon (by decide)
    rw [readAscii?]
    · rfl
    · exact fun rest => hcolon _
    · exact hcolon

/-- A class is read the same, also with a greater bound. -/
theorem extends_readClass {bound bound' : Nat} (hbound : bound ≤ bound') (reader : ClassReader) :
    Extends more (readClass bound reader) (readClass bound' reader) := by
  induction bound generalizing bound' reader with
  | zero => exact fun _ _ _ h => by cases h
  | succ bound ih =>
    obtain ⟨bound', rfl⟩ : ∃ n, bound' = n + 1 := ⟨bound' - 1, by omega⟩
    have hle : bound ≤ bound' := by omega
    intro cs s rest h
    rw [readClass.eq_def] at h
    dsimp only at h
    split at h
    · cases h
    · cases h
      rfl
    · next cs =>
      have hinner : Extends more
          (fun rest => readClass bound (openClass cs).1 rest >>=
            fun found => readClass bound (reader.add found.1) found.2)
          (fun rest => readClass bound' (openClass cs).1 rest >>=
            fun found => readClass bound' (reader.add found.1) found.2) :=
        Extends.bind (ih hle _) fun s => ih hle (reader.add s)
      rw [List.cons_append, readClass, readAscii?_append]
      cases hascii : readAscii? cs with
      | some found =>
        rw [hascii] at h
        exact ih hle _ h
      | none =>
        rw [hascii] at h
        simp only [Option.map_none, openClass_append]
        exact hinner h
    · exact ih hle _ h
    · exact ih hle _ h
    · exact ih hle _ h
    · next hclose hopen hboth hminus heither =>
      have hitem : Extends more
          (fun rest => readClassRange rest >>=
            fun found => readClass bound (reader.add ⟨found.1, 0⟩) found.2)
          (fun rest => readClassRange rest >>=
            fun found => readClass bound' (reader.add ⟨found.1, 0⟩) found.2) :=
        Extends.bind extends_readClassRange fun s => ih hle (reader.add ⟨s, 0⟩)
      rw [readClass]
      · exact hitem h
      · simp
      · exact append_paren_ne_cons hclose (by decide)
      · exact append_paren_ne_cons hopen (by decide)
      · exact append_paren_ne_cons_cons hboth (by decide) (by decide)
      · exact append_paren_ne_cons_cons hminus (by decide) (by decide)
      · exact append_paren_ne_cons_cons heither (by decide) (by decide)

theorem readNumber_append (cs : List Char) :
    readNumber (cs ++ ')' :: more) = ((readNumber cs).1, (readNumber cs).2 ++ ')' :: more) := by
  have hspace : Text.isSpace ')' = false := rfl
  have hdigit : Char.isDigit ')' = false := rfl
  simp only [readNumber, dropWhile_append_paren hspace, dropWhile_append_paren hdigit,
    takeWhile_append_paren hdigit]

theorem extends_readCounts : Extends more readCounts readCounts := by
  intro cs counts rest h
  rw [readCounts.eq_def] at h
  rw [readCounts.eq_def, readNumber_append]
  generalize readNumber cs = first at h ⊢
  split at h
  · cases h
  · cases h
  · cases h
    rfl
  · cases h
    rfl
  · next least cs hbrace =>
    -- The comma is not the last character, for then there would be no number behind it.
    cases cs with
    | nil => cases h
    | cons c cs =>
      have hc : c ≠ '\x7d' := fun hc => hbrace cs (by rw [hc])
      have hnumber : readNumber (c :: cs ++ ')' :: more) = _ := readNumber_append (c :: cs)
      generalize readNumber (c :: cs) = second at h hnumber
      split at h
      · cases h
      · cases h
      · split_ifs at h with hle
        cases h
        simp_all
      · cases h
  · cases h

theorem readGreed_append (swap : Bool) (cs : List Char) :
    readGreed swap (cs ++ ')' :: more) =
      ((readGreed swap cs).1, (readGreed swap cs).2 ++ ')' :: more) := by
  cases cs with
  | nil => rfl
  | cons c cs => by_cases hc : c = '?' <;> simp [readGreed, hc]

/-- Repetitions are read the same, also with a greater bound. -/
theorem extends_readRepetitions {bound bound' : Nat} (hbound : bound ≤ bound') (swap : Bool)
    (piece : Piece) :
    Extends more (readRepetitions swap bound piece) (readRepetitions swap bound' piece) := by
  induction bound generalizing bound' piece with
  | zero => exact fun _ _ _ h => by cases h
  | succ bound ih =>
    obtain ⟨bound', rfl⟩ : ∃ n, bound' = n + 1 := ⟨bound' - 1, by omega⟩
    have hle : bound ≤ bound' := by omega
    have hcounted (least : Nat) (greatest : Option Nat) : Extends more
        (fun cs => readRepetitions swap bound
          (piece.around (·.repeated (readGreed swap cs).1 least greatest)) (readGreed swap cs).2)
        (fun cs => readRepetitions swap bound'
          (piece.around (·.repeated (readGreed swap cs).1 least greatest))
          (readGreed swap cs).2) := by
      intro cs found rest h
      dsimp only
      rw [readGreed_append]
      exact ih hle _ h
    intro cs found rest h
    rw [readRepetitions.eq_def] at h
    dsimp only at h
    split at h
    · exact hcounted 0 none h
    · exact hcounted 1 none h
    · exact hcounted 0 (some 1) h
    · refine extends_readCounts.bind (fun counts => ?_) h
      intro cs found rest h
      dsimp only at h ⊢
      split_ifs at h with hgreatest
      rw [if_neg hgreatest]
      exact hcounted _ _ h
    · next hstar hplus hquestion hbrace =>
      cases h
      rw [readRepetitions]
      · exact append_paren_ne_cons hstar (by decide)
      · exact append_paren_ne_cons hplus (by decide)
      · exact append_paren_ne_cons hquestion (by decide)
      · exact append_paren_ne_cons hbrace (by decide)

theorem extends_readName : Extends more readName readName := by
  have hparen : isNameChar ')' = false := rfl
  intro cs name rest h
  rw [readName] at h
  rw [readName, takeWhile_append_paren hparen, dropWhile_append_paren hparen]
  split at h
  · next hname hrest =>
    split_ifs at h with hstart
    cases h
    rw [hname, hrest]
    simp [hstart]
  · cases h

/-- Changes of flags end at a colon or a closing parenthesis of their own. -/
theorem extends_readFlags (seen : List Char) (flags : Flags) :
    Extends more (readFlags seen flags) (readFlags seen flags) := by
  intro cs found rest h
  induction cs generalizing seen flags with
  | nil => cases h
  | cons c cs ih =>
    rw [readFlags] at h
    rw [List.cons_append, readFlags]
    split_ifs at h ⊢ with hend hhyphen hseen hminus
    · cases h
      rfl
    · exact ih _ _ h
    · cases hset : flags.set? c ('-' ∉ seen) with
      | none =>
        rw [hset] at h
        cases h
      | some changed =>
        rw [hset] at h
        exact ih _ _ h

theorem extends_openPlain (noFlags : Bool) (flags : Flags) :
    Extends more (openPlain noFlags flags) (openPlain noFlags flags) := by
  intro cs opening rest h
  cases cs with
  | nil => cases h
  | cons c cs =>
    by_cases hc : c = ':'
    · subst hc
      cases h
      rfl
    · simp only [openPlain, List.cons_append] at h ⊢
      split_ifs at h ⊢
      cases h
      rfl

theorem extends_readOpening (before : Flags) :
    Extends more (readOpening before) (readOpening before) := by
  intro cs opening rest h
  rw [readOpening.eq_def] at h
  split at h
  · exact extends_readName.map Opening.named h
  · exact extends_readName.map Opening.named h
  · next cs hpname hname =>
    rw [List.cons_append, readOpening]
    · -- No flags are changed in an empty text, so there is a first character.
      have hhead : (cs ++ ')' :: more).head? = cs.head? := by
        cases cs with
        | nil => cases h
        | cons c cs => rfl
      rw [hhead]
      exact ((extends_readFlags [] before).bind fun flags => extends_openPlain _ flags) h
    · exact fun rest => append_paren_ne_cons_cons (fun rest hrest => hpname rest (by rw [hrest]))
        (by decide) (by decide) rest
    · exact append_paren_ne_cons (fun rest hrest => hname rest (by rw [hrest])) (by decide)
  · next hquestion =>
    cases h
    have hquestion : ∀ rest, cs ++ ')' :: more ≠ '?' :: rest :=
      append_paren_ne_cons hquestion (by decide)
    rw [readOpening]
    all_goals intros; exact hquestion _ ‹_›

end RuledMarkup.Regex.Reader
