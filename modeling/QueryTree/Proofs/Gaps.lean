import QueryTree.Proofs.Phrases

/-!
# Texts without gaps

A clause has a gap where something is missing: it is empty, an item between two commas is, or a pair
of parentheses is.  A sweep of the text from left to right finds the gaps, also those deeper inside
parentheses, and says how texts without gaps can be put together.

* `Sql.Gapless` : the text is not empty, no item of it is, and no list in parentheses is.
* `Sql.sweep` reads a text and stops at a comma or a closing parenthesis with nothing before it;
  `Sql.Filled` : it gets to the end and has seen something there.
* `Filled.lead`, `Filled.sep`, `Filled.trail`, `Filled.join` : fixed words around and between
  texts; `filled_segments` : quoted names.
* **`Filled.gapless`** : a text that the sweep gets through has no gap.
-/

namespace QueryTree

namespace Sql

/-! ## Items and lists -/

/-- The items of a text from a place that is in quotes or not, at some depth of parentheses, and
after the beginning of an item. -/
def itemsFrom (mark : Char) : Bool → Nat → List Char → List Char → List (List Char)
  | _, _, item, [] => [item]
  | quoted, depth, item, c :: rest =>
    if c = mark then itemsFrom mark (!quoted) depth (item ++ [c]) rest
    else if quoted then itemsFrom mark true depth (item ++ [c]) rest
    else if c = ',' ∧ depth = 0 then item :: itemsFrom mark false 0 [] rest
    else if c = '(' then itemsFrom mark false (depth + 1) (item ++ [c]) rest
    else if c = ')' then itemsFrom mark false (depth - 1) (item ++ [c]) rest
    else itemsFrom mark false depth (item ++ [c]) rest

/-- What stands between the commas of a text, those in quotes or in parentheses apart. -/
def items (mark : Char) (text : String) : List (List Char) :=
  itemsFrom mark false 0 [] text.toList

/-- There is nothing but spaces. -/
def IsBlank (cs : List Char) : Prop := ∀ c ∈ cs, c = ' '

instance : DecidablePred IsBlank := List.decidableBAll (· = ' ')

/-- The text is not empty, no item of it is, and no list in parentheses is.  A parenthesis is
outside of quotes if the number of marks before it is even. -/
structure Gapless (mark : Char) (text : String) : Prop where
  nonempty : text ≠ ""
  items : ∀ item ∈ items mark text, ¬ IsBlank item
  lists : ∀ before list after, text.toList = before ++ '(' :: (list ++ ')' :: after) →
    before.count mark % 2 = 0 → ¬ IsBlank list

/-! ## Sweeping for gaps -/

/-- Where a sweep stands: in a quoted name, where an item has to come, or after some of an item. -/
inductive Standing where
  | quoted
  | waiting
  | filled
  deriving Repr, DecidableEq

/-- One character further.  A comma and a closing parenthesis have to come after something. -/
def Standing.step (mark : Char) : Standing → Char → Option Standing
  | .quoted, c => some (if c = mark then .filled else .quoted)
  | standing, c =>
    if c = ' ' then some standing
    else if c = mark then some .quoted
    else if c = '(' then some .waiting
    else if c = ',' then if standing = .filled then some .waiting else none
    else if c = ')' then if standing = .filled then some .filled else none
    else some .filled

/-- The sweep of a text. -/
def sweep (mark : Char) (standing : Standing) (cs : List Char) : Option Standing :=
  cs.foldlM (Standing.step mark) standing

/-- The sweep gets through the text, and there is something at its end. -/
def Filled (mark : Char) (text : String) : Prop :=
  sweep mark .waiting text.toList = some .filled

instance (mark : Char) : DecidablePred (Filled mark) := fun _ => inferInstanceAs (Decidable (_ = _))

variable {mark : Char} {standing standing' : Standing} {cs ds : List Char}

theorem sweep_cons (c : Char) :
    sweep mark standing (c :: cs) = (standing.step mark c).bind fun next => sweep mark next cs :=
  List.foldlM_cons

/-- A text is swept piece by piece. -/
theorem sweep_append :
    sweep mark standing (cs ++ ds) =
      (sweep mark standing cs).bind fun next => sweep mark next ds :=
  List.foldlM_append

/-- What one step does: in quotes, at a space, at a mark, at a parenthesis or a comma, and at any
other character. -/
inductive Moves (mark : Char) : Standing → Char → Standing → Prop where
  | within {c : Char} (other : c ≠ mark) : Moves mark .quoted c .quoted
  | unquote : Moves mark .quoted mark .filled
  | space {standing : Standing} (outside : standing ≠ .quoted) : Moves mark standing ' ' standing
  | quote {standing : Standing} (outside : standing ≠ .quoted) : Moves mark standing mark .quoted
  | opening {standing : Standing} (outside : standing ≠ .quoted) : Moves mark standing '(' .waiting
  | comma : Moves mark .filled ',' .waiting
  | closing : Moves mark .filled ')' .filled
  | other {standing : Standing} {c : Char} (outside : standing ≠ .quoted) (unmarked : c ≠ mark)
      (other : c ∉ [' ', '(', ',', ')']) : Moves mark standing c .filled

theorem moves_of_step {c : Char} (h : standing.step mark c = some standing') :
    Moves mark standing c standing' := by
  by_cases hquoted : standing = .quoted
  · subst hquoted
    simp only [Standing.step, Option.some.injEq] at h
    subst h
    split
    · rename_i hc
      rw [hc]
      exact .unquote
    · rename_i hc
      exact .within hc
  · have hstep : standing.step mark c =
        if c = ' ' then some standing
        else if c = mark then some .quoted
        else if c = '(' then some .waiting
        else if c = ',' then if standing = .filled then some .waiting else none
        else if c = ')' then if standing = .filled then some .filled else none
        else some .filled := by
      cases standing with
      | quoted => exact absurd rfl hquoted
      | waiting => rfl
      | filled => rfl
    rw [hstep] at h
    split_ifs at h with hspace hmark hopen hcomma hfilled hclose hfilled <;> cases h
    · rw [hspace]
      exact .space hquoted
    · rw [hmark]
      exact .quote hquoted
    · rw [hopen]
      exact .opening hquoted
    · rw [hcomma, hfilled]
      exact .comma
    · rw [hclose, hfilled]
      exact .closing
    · exact .other hquoted hmark (by simp [hspace, hopen, hcomma, hclose])

/-- A sweep of one character and more. -/
theorem sweep_cons_eq_some {c : Char} (h : sweep mark standing (c :: cs) = some standing') :
    ∃ next, Moves mark standing c next ∧ sweep mark next cs = some standing' := by
  rw [sweep_cons] at h
  obtain ⟨next, hstep, hsweep⟩ := Option.bind_eq_some_iff.1 h
  exact ⟨next, moves_of_step hstep, hsweep⟩

theorem IsMark.ne_space (h : IsMark mark) : mark ≠ ' ' :=
  (h.plain rfl).symm

/-- Where an item has to come, more of an item may come too. -/
theorem sweep_filled_of_waiting (hmark : IsMark mark) (h : sweep mark .waiting cs = some .filled) :
    sweep mark .filled cs = some .filled := by
  induction cs with
  | nil => cases h
  | cons c rest ih =>
    obtain ⟨next, hmoves, hrest⟩ := sweep_cons_eq_some h
    rw [sweep_cons]
    cases hmoves with
    | space => simpa [Standing.step] using ih hrest
    | quote => simpa [Standing.step, hmark.ne_space] using hrest
    | opening =>
      have hopen : '(' ≠ mark := hmark.plain rfl
      simpa [Standing.step, hopen] using hrest
    | other _ unmarked other =>
      simp only [List.mem_cons, List.not_mem_nil, or_false, not_or] at other
      simpa [Standing.step, unmarked, other] using hrest

/-! ## Putting texts together -/

/-- The marks of the dialects. -/
def marks : List Char := ['\x60', '"']

theorem IsMark.mem_marks (h : IsMark mark) : mark ∈ marks := by
  rcases h with rfl | rfl <;> decide

/-- Where a text can stand: outside of quotes. -/
def Standing.outside : List Standing := [.waiting, .filled]

/-- A fixed text before an item. -/
def Opens (text : String) : Prop :=
  ∀ mark ∈ marks, ∃ next ∈ Standing.outside, sweep mark .waiting text.toList = some next

instance : DecidablePred Opens := fun _ => List.decidableBAll _ marks

/-- A fixed text between two items. -/
def Joins (text : String) : Prop :=
  ∀ mark ∈ marks, ∃ next ∈ Standing.outside, sweep mark .filled text.toList = some next

instance : DecidablePred Joins := fun _ => List.decidableBAll _ marks

/-- A fixed text after an item. -/
def Closes (text : String) : Prop :=
  ∀ mark ∈ marks, sweep mark .filled text.toList = some .filled

instance : DecidablePred Closes := fun _ => List.decidableBAll _ marks

/-- A fixed text that is filled. -/
def Stands (text : String) : Prop :=
  ∀ mark ∈ marks, Filled mark text

instance : DecidablePred Stands := fun _ => List.decidableBAll _ marks

theorem Stands.filled {S : Scheme} {text : String} (h : Stands text) : Filled S.mark text :=
  h S.mark S.isMark.mem_marks

namespace Filled

variable {S : Scheme} {a b before after text : String}

/-- A text that is filled on its own is so wherever it can stand. -/
theorem sweep_eq (h : Filled S.mark a) (hstanding : standing ∈ Standing.outside) :
    sweep S.mark standing a.toList = some .filled := by
  cases standing with
  | quoted => exact absurd hstanding (by decide)
  | waiting => exact h
  | filled => exact sweep_filled_of_waiting S.isMark h

/-- A text with fixed words before it. -/
theorem lead (htext : Opens text) (ha : Filled S.mark a) : Filled S.mark (text ++ a) := by
  obtain ⟨next, hnext, hsweep⟩ := htext S.mark S.isMark.mem_marks
  rw [Filled, String.toList_append, sweep_append, hsweep, Option.bind_some, ha.sweep_eq hnext]

/-- A text with fixed words after it. -/
theorem trail (htext : Closes text) (ha : Filled S.mark a) : Filled S.mark (a ++ text) := by
  rw [Filled, String.toList_append, sweep_append, ha, Option.bind_some,
    htext S.mark S.isMark.mem_marks]

/-- Two texts with fixed words between them. -/
theorem sep (htext : Joins text) (ha : Filled S.mark a) (hb : Filled S.mark b) :
    Filled S.mark (a ++ text ++ b) := by
  obtain ⟨next, hnext, hsweep⟩ := htext S.mark S.isMark.mem_marks
  rw [Filled, String.toList_append, String.toList_append, sweep_append, sweep_append, ha,
    Option.bind_some, hsweep, Option.bind_some, hb.sweep_eq hnext]

/-- A text between fixed words. -/
theorem enclose (hbefore : Opens before) (hafter : Closes after) (ha : Filled S.mark a) :
    Filled S.mark (before ++ a ++ after) :=
  (ha.lead hbefore).trail hafter

/-- Texts with fixed words between them; there has to be one. -/
theorem join (htext : Joins text) {parts : List String} (hne : parts ≠ [])
    (hparts : ∀ part ∈ parts, Filled S.mark part) : Filled S.mark (text.intercalate parts) := by
  induction parts with
  | nil => exact absurd rfl hne
  | cons first rest ih =>
    have hfirst := hparts first List.mem_cons_self
    cases rest with
    | nil => rwa [String.intercalate_singleton]
    | cons second others =>
      rw [String.intercalate_cons_cons]
      exact hfirst.sep htext
        (ih (by simp) fun part hpart => hparts part (List.mem_cons_of_mem _ hpart))

end Filled

/-! ## Names and plain texts -/

/-- A quoted name after its first mark.  A doubled mark ends the name and starts it again. -/
theorem sweep_double (hmark : IsMark mark) (cs : List Char) :
    sweep mark .quoted (QuoteStyle.double mark cs ++ [mark]) = some .filled := by
  induction cs with
  | nil => simp [QuoteStyle.double, sweep, Standing.step]
  | cons c rest ih =>
    unfold QuoteStyle.double
    split
    · rename_i hc
      subst hc
      simpa [sweep_cons, Standing.step, hmark.ne_space] using ih
    · rename_i hc
      simpa [sweep_cons, Standing.step, hc] using ih

variable {S : Scheme} {style : QuoteStyle}

/-- A segment of a name fills its place. -/
theorem sweep_segmentChars (hmark : style.mark = S.mark) (cs : List Char) :
    sweep S.mark .waiting (style.segmentChars cs) = some .filled := by
  unfold QuoteStyle.segmentChars
  split
  · rename_i hstar
    subst hstar
    have hstar : Stands "*" := by decide
    exact hstar.filled
  · have hopen : Standing.step S.mark .waiting S.mark = some .quoted := by
      simp [Standing.step, S.isMark.ne_space]
    rw [hmark, List.cons_append, sweep_cons, hopen, Option.bind_some, sweep_double S.isMark]

/-- Segments of a name, quoted and with dots between them. -/
theorem filled_segments (hmark : style.mark = S.mark) {parts : List (List Char)}
    (hne : parts ≠ []) : Filled S.mark (String.ofList (style.joinSegments parts)) := by
  have hjoin : String.ofList (style.joinSegments parts) =
      ".".intercalate (parts.map fun cs => String.ofList (style.segmentChars cs)) := by
    simp [← String.toList_inj, QuoteStyle.joinSegments, Function.comp_def]
  rw [hjoin]
  refine .join (by decide) (by simpa using hne) fun part hpart => ?_
  obtain ⟨cs, -, rfl⟩ := List.mem_map.1 hpart
  rw [Filled, String.toList_ofList]
  exact sweep_segmentChars hmark cs

/-- A character that fills an item, in every dialect. -/
def fills (c : Char) : Bool :=
  !(marks ++ [' ', '(', ',', ')']).contains c

/-- A character that fills does so from every standing outside of quotes. -/
theorem step_of_fills (hmark : IsMark mark) {c : Char} (hc : fills c = true)
    (hstanding : standing ∈ Standing.outside) : standing.step mark c = some .filled := by
  simp only [fills, Bool.not_eq_true', List.contains_eq_mem, decide_eq_false_iff_not,
    List.mem_append, not_or, List.mem_cons, List.not_mem_nil, or_false] at hc
  obtain ⟨hmarks, hother⟩ := hc
  have hne : c ≠ mark := by
    rintro rfl
    exact hmarks hmark.mem_marks
  cases standing with
  | quoted => exact absurd hstanding (by decide)
  | waiting => simp [Standing.step, hne, hother]
  | filled => simp [Standing.step, hne, hother]

/-- A text of characters that fill. -/
theorem filled_of_all {text : String} (hne : text.toList ≠ [])
    (h : ∀ c ∈ text.toList, fills c = true) : Filled S.mark text := by
  have hsweep : ∀ cs : List Char, (∀ c ∈ cs, fills c = true) →
      sweep S.mark .filled cs = some .filled := by
    intro cs hcs
    induction cs with
    | nil => rfl
    | cons c rest ih =>
      rw [sweep_cons, step_of_fills S.isMark (hcs c List.mem_cons_self) (by decide),
        Option.bind_some]
      exact ih fun c hc => hcs c (List.mem_cons_of_mem _ hc)
  rw [Filled]
  cases hcs : text.toList with
  | nil => exact absurd hcs hne
  | cons c rest =>
    rw [hcs] at h
    rw [sweep_cons, step_of_fills S.isMark (h c List.mem_cons_self) (by decide), Option.bind_some]
    exact hsweep rest fun c hc => h c (List.mem_cons_of_mem _ hc)

/-! ## No gap in a filled text -/

/-- An item that has something in it keeps it. -/
theorem not_isBlank_append {item more : List Char} (h : ¬ IsBlank item) :
    ¬ IsBlank (item ++ more) :=
  fun hblank => h fun c hc => hblank c (List.mem_append_left _ hc)

theorem not_isBlank_concat {item : List Char} {c : Char} (h : c ≠ ' ') : ¬ IsBlank (item ++ [c]) :=
  fun hblank => h (hblank c (by simp))

/-- An item is not blank where a sweep has seen something of it, and neither in quotes nor in
parentheses. -/
theorem items_not_isBlank (hmark : IsMark mark) (depth : Nat) (item : List Char)
    (hsweep : sweep mark standing cs = some .filled)
    (hitem : standing ≠ .waiting ∨ 0 < depth → ¬ IsBlank item) :
    ∀ part ∈ itemsFrom mark (decide (standing = .quoted)) depth item cs, ¬ IsBlank part := by
  have hspace : ' ' ≠ mark := hmark.plain rfl
  have hopen : '(' ≠ mark := hmark.plain rfl
  have hclose : ')' ≠ mark := hmark.plain rfl
  have hcomma : ',' ≠ mark := hmark.plain rfl
  induction cs generalizing standing depth item with
  | nil =>
    cases hsweep
    intro part hpart
    rw [List.mem_singleton.1 hpart]
    exact hitem (.inl (by decide))
  | cons c rest ih =>
    obtain ⟨next, hmoves, hrest⟩ := sweep_cons_eq_some hsweep
    cases hmoves with
    | within other =>
      simpa [itemsFrom, other] using
        ih depth _ hrest fun _ => not_isBlank_append (hitem (.inl (by decide)))
    | unquote =>
      simpa [itemsFrom] using ih depth _ hrest fun _ => not_isBlank_concat hspace.symm
    | space outside =>
      simpa [itemsFrom, hspace, outside] using
        ih depth _ hrest fun h => not_isBlank_append (hitem h)
    | quote outside =>
      simpa [itemsFrom, outside] using ih depth _ hrest fun _ => not_isBlank_concat hspace.symm
    | opening outside =>
      simpa [itemsFrom, hopen, outside] using
        ih (depth + 1) _ hrest fun _ => not_isBlank_concat (by decide)
    | comma =>
      by_cases hdepth : depth = 0
      · subst hdepth
        have hothers := ih 0 [] hrest fun h => absurd h (by decide)
        simpa [itemsFrom, hcomma] using ⟨hitem (.inl (by decide)), hothers⟩
      · simpa [itemsFrom, hcomma, hdepth] using
          ih depth _ hrest fun _ => not_isBlank_concat (by decide)
    | closing =>
      simpa [itemsFrom, hclose] using
        ih (depth - 1) _ hrest fun _ => not_isBlank_concat (by decide)
    | other outside unmarked other =>
      simp only [List.mem_cons, List.not_mem_nil, or_false, not_or] at other
      simpa [itemsFrom, unmarked, other, outside] using
        ih depth _ hrest fun _ => not_isBlank_concat other.1

/-- A sweep is in quotes after an odd number of marks. -/
theorem sweep_quoted_iff (hmark : IsMark mark) (h : sweep mark standing cs = some standing') :
    standing' = .quoted ↔ (standing = .quoted ↔ cs.count mark % 2 = 0) := by
  induction cs generalizing standing with
  | nil =>
    cases h
    simp
  | cons c rest ih =>
    obtain ⟨next, hmoves, hrest⟩ := sweep_cons_eq_some h
    have hodd : (rest.count mark + 1) % 2 = 0 ↔ ¬ rest.count mark % 2 = 0 := by omega
    have hcount : ∀ {c : Char}, c ≠ mark → (c :: rest).count mark = rest.count mark :=
      fun hc => List.count_cons_of_ne hc
    rw [ih hrest]
    cases hmoves with
    | within other => rw [hcount other]
    | unquote => simp [hodd]
    | space outside => rw [hcount (hmark.plain rfl)]
    | quote outside => simp [hodd, outside]
    | opening outside =>
      rw [hcount (hmark.plain rfl)]
      simp [outside]
    | comma =>
      rw [hcount (hmark.plain rfl)]
      simp
    | closing => rw [hcount (hmark.plain rfl)]
    | other outside unmarked other => simp [hcount unmarked, outside]

/-- Spaces are read without effect. -/
theorem sweep_of_isBlank (hstanding : standing ∈ Standing.outside) (h : IsBlank cs) :
    sweep mark standing cs = some standing := by
  induction cs with
  | nil => rfl
  | cons c rest ih =>
    have hstep : standing.step mark ' ' = some standing := by
      cases standing with
      | quoted => exact absurd hstanding (by decide)
      | waiting | filled => rfl
    rw [sweep_cons, h c List.mem_cons_self, hstep, Option.bind_some]
    exact ih fun c hc => h c (List.mem_cons_of_mem _ hc)

/-- A list in parentheses is not blank: the sweep would stop at its end. -/
theorem list_not_isBlank (hmark : IsMark mark) {before list after : List Char}
    (hsweep : sweep mark .waiting (before ++ '(' :: (list ++ ')' :: after)) = some .filled)
    (hcount : before.count mark % 2 = 0) : ¬ IsBlank list := by
  intro hblank
  rw [sweep_append] at hsweep
  obtain ⟨standing, hbefore, hrest⟩ := Option.bind_eq_some_iff.1 hsweep
  have houtside : standing ≠ .quoted := by
    rw [Ne, sweep_quoted_iff hmark hbefore, hcount]
    decide
  obtain ⟨next, hopening, hlist⟩ := sweep_cons_eq_some hrest
  have hnext : next = .waiting := by
    cases hopening with
    | opening => rfl
    | within | unquote => exact absurd rfl houtside
    | quote => exact absurd rfl (hmark.plain (c := '(') rfl)
    | other _ _ other => exact absurd other (by decide)
  rw [hnext, sweep_append, sweep_of_isBlank (by decide) hblank, Option.bind_some] at hlist
  obtain ⟨_, hclosing, -⟩ := sweep_cons_eq_some hlist
  cases hclosing with
  | quote => exact absurd rfl (hmark.plain (c := ')') rfl)
  | other _ _ other => exact absurd other (by decide)

/-- A text that the sweep gets through has no gap. -/
theorem Filled.gapless {text : String} (h : Filled S.mark text) : Gapless S.mark text where
  nonempty := by
    rintro rfl
    cases h
  items := items_not_isBlank S.isMark 0 [] h (by decide)
  lists before list after htext := by
    rw [Filled, htext] at h
    exact list_not_isBlank S.isMark h

end Sql

end QueryTree
