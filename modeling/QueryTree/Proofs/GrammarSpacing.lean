import QueryTree.Proofs.GrammarRoundTrip
import QueryTree.Proofs.IdleSpaces

/-!
# White space in a grammar

Between two parts of a grammar it counts whether there are blanks, and not which or how many.  At
its ends, after an opening brace and before a closing one it does not even count whether there are
any.

* `Respaced` : two grammars differ in such blanks only, all of them outside of references.
* `Reader.settle` takes the idle spaces away from what the reader holds.  **`Reader.run_settle`** :
  what is read next does not depend on them, nor on the place in the grammar.
* `Reader.takes_one_blank` : a run of blanks is read as one blank.
* **`respaced_outcome`** : the templates of two such grammars are rendered alike.
-/

namespace QueryTree.Template

open Rendering (Compile)

/-! ## Grammars that differ in blanks -/

/-- The bracket that ends the reference being read after one more character, if there is one. -/
def awaitedAfter (awaited? : Option Char) (c : Char) (next? : Option Char) : Option Char :=
  match awaited? with
  | some bracket => if c = bracket then none else some bracket
  | none =>
    if (c = '<' || c = '[') && next? = some '$' then some (closing (c = '<')) else none

/-- The bracket that ends the reference being read at the end of a text. -/
def awaitedAtEnd : Option Char → List Char → Option Char
  | awaited?, [] => awaited?
  | awaited?, c :: rest => awaitedAtEnd (awaitedAfter awaited? c rest.head?) rest

/-- Blanks between the two texts can be left out. -/
def IsEdge (before after : List Char) : Prop :=
  before = [] ∨ after = [] ∨ before.getLast? = some '\x7b' ∨ after.head? = some '\x7d'

/-- Two grammars that differ only in blanks outside of references: some stand for others, or, at an
edge, for none. -/
inductive Respaced : List Char → List Char → Prop where
  | blanks {before blanks blanks' after : List Char} (outside : awaitedAtEnd none before = none)
      (blank : ∀ c ∈ blanks, Text.isBlank c = true) (blank' : ∀ c ∈ blanks', Text.isBlank c = true)
      (room : blanks ≠ [] ∧ blanks' ≠ [] ∨ IsEdge before after) :
      Respaced (before ++ blanks ++ after) (before ++ blanks' ++ after)
  | trans {grammar grammar' grammar'' : List Char} (first : Respaced grammar grammar')
      (second : Respaced grammar' grammar'') : Respaced grammar grammar''

/-! ## Readers without idle spaces -/

/-- Parts, the last one first, without their idle spaces. -/
def settleParts (parts : List Node) : List Node :=
  (settle parts.reverse).reverse

/-- The parts are kept with the last one first, so that only the first of all loses its space. -/
@[simp] theorem settleParts_cons (node : Node) (parts : List Node) :
    settleParts (node :: parts) =
      node.settle.spacedIf (!parts.isEmpty) :: settleParts parts := by
  simp [settleParts, settle, settleFrom_concat]

@[simp] theorem isEmpty_settleParts (parts : List Node) :
    (settleParts parts).isEmpty = parts.isEmpty := by
  simp [settleParts, settle, isEmpty_settleFrom]

/-- In the order of the grammar they are settled as before. -/
@[simp] theorem reverse_settleParts (parts : List Node) :
    (settleParts parts).reverse = settle parts.reverse :=
  List.reverse_reverse _

@[simp] theorem settleParts_settleParts (parts : List Node) :
    settleParts (settleParts parts) = settleParts parts := by
  rw [settleParts, reverse_settleParts, settle, settle, settleFrom_settleFrom, settleParts]

/-- A group that is open, without its idle spaces. -/
def OpenGroup.settle (group : OpenGroup) : OpenGroup :=
  ⟨settleParts group.before, group.spaced && !group.before.isEmpty⟩

/-- A group that was put aside is settled once. -/
@[simp] theorem OpenGroup.settle_settle (group : OpenGroup) :
    group.settle.settle = group.settle := by
  simp [OpenGroup.settle]

/-- What is being read, without the place where it started; `keep` tells whether the space before it
counts. -/
def Reading.settle (keep : Bool) : Reading → Reading
  | .gap spaced => .gap (spaced && keep)
  | .word chars spaced => .word chars (spaced && keep)
  | .reference required _ chars spaced => .reference required 0 chars (spaced && keep)

/-- The space before a reference is the space before its part. -/
theorem referenceNode_spacedIf (required spaced keep : Bool) (inside : List Char) :
    referenceNode required (spaced && keep) inside =
      (referenceNode required spaced inside).map (Node.spacedIf keep) := by
  unfold referenceNode
  dsimp only
  split
  · rfl
  · split
    · cases required <;> rfl
    · split <;> rfl

namespace Reader

/-- The reader without idle spaces. -/
def settle (r : Reader) : Reader :=
  ⟨settleParts r.parts, r.groups.map OpenGroup.settle, r.reading.settle (!r.parts.isEmpty)⟩

/-- Ending a word does not depend on idle spaces. -/
theorem endWord_settle (r : Reader) : r.settle.endWord = r.endWord.settle := by
  obtain ⟨parts, groups, spaced | ⟨chars, spaced⟩ | ⟨required, start, chars, spaced⟩⟩ := r
  · rfl
  · simp [settle, endWord, Reading.settle, Node.settle, Node.spacedIf]
  · rfl

theorem isOutside_settle {r : Reader} (h : r.IsOutside) : r.settle.IsOutside := by
  obtain ⟨parts, groups, spaced | ⟨chars, spaced⟩ | ⟨required, start, chars, spaced⟩⟩ := r
  · simp [IsOutside, settle, Reading.settle]
  · simp [IsOutside, settle, Reading.settle]
  · exact absurd rfl (h _ _ _ _)

/-- What a character outside of references does, up to idle spaces. -/
theorem stepOutside_settle {r : Reader} (h : r.IsOutside) (offset offset' : Nat) (c : Char)
    (next? : Option Char) :
    (r.stepOutside offset c next?).toOption.map settle =
      (r.settle.stepOutside offset' c next?).toOption.map settle := by
  unfold stepOutside
  dsimp only
  rw [endWord_settle]
  obtain ⟨parts, groups, gap, hend⟩ := exists_endWord_eq h
  split
  · rw [hend]
    simp [Except.toOption, settle]
  · split
    · rw [hend]
      simp only [settle, reverse_settleParts, firstKey?_settleFrom]
      cases groups with
      | nil => rfl
      | cons outer groups =>
        dsimp only [List.map_cons]
        cases firstKey? parts.reverse with
        | none => rfl
        | some guard =>
          simp [Except.toOption, settle, OpenGroup.settle, Reading.settle, Node.settle,
            Node.spacedIf, settleFrom_settleFrom]
    · split
      · rw [hend]
        simp [Except.toOption, settle, OpenGroup.settle, Reading.settle, Reader.spaced]
      · split
        · rw [hend]
          simp [Except.toOption, settle, Reading.settle, Reader.spaced]
        · obtain ⟨parts, groups, spaced | ⟨chars, spaced⟩ | _⟩ := r
          · simp [Except.toOption, settle, Reading.settle, Reader.spaced]
          · simp [Except.toOption, settle, Reading.settle]
          · exact absurd rfl (h _ _ _ _)

/-- What a character does, up to idle spaces, depends neither on those that there are nor on the
place in the grammar. -/
theorem step_settle (r : Reader) (offset offset' : Nat) (c : Char) (next? : Option Char) :
    (r.step offset c next?).toOption.map settle =
      (r.settle.step offset' c next?).toOption.map settle := by
  obtain ⟨parts, groups, spaced | ⟨chars, spaced⟩ | ⟨required, start, chars, spaced⟩⟩ := r
  · exact stepOutside_settle (by simp [IsOutside]) offset offset' c next?
  · exact stepOutside_settle (by simp [IsOutside]) offset offset' c next?
  · simp only [step, settle, Reading.settle, referenceNode_spacedIf]
    rw [← closing]
    by_cases hends : c = closing required
    · rw [if_pos hends, if_pos hends]
      cases referenceNode required spaced chars.reverse with
      | error fault => rfl
      | ok node => simp [Except.toOption, Except.map, settle, Reading.settle]
    · rw [if_neg hends, if_neg hends]
      simp [Except.toOption, settle, Reading.settle]

/-- Outside of brackets only an open group keeps the reader from finishing. -/
theorem finish_of_isOutside {r : Reader} (h : r.IsOutside) (offset : Nat) :
    r.finish offset =
      if r.endWord.groups.isEmpty then .ok r.endWord.parts.reverse
      else .error (offset, .unterminatedGroup) := by
  unfold finish
  split
  · rename_i hreading
    exact absurd hreading (h _ _ _ _)
  · rfl

/-- A settled reader finishes with the same parts, up to idle spaces. -/
theorem finish_settle (r : Reader) (offset offset' : Nat) :
    (r.finish offset).toOption.map Template.settle =
      (r.settle.finish offset').toOption.map Template.settle := by
  by_cases h : r.IsOutside
  · rw [finish_of_isOutside h, finish_of_isOutside (isOutside_settle h), endWord_settle]
    simp only [settle, List.isEmpty_map]
    split
    · simp [Except.toOption, settleFrom_settleFrom]
    · rfl
  · obtain ⟨parts, groups, spaced | ⟨chars, spaced⟩ | ⟨required, start, chars, spaced⟩⟩ := r
    · simp [IsOutside] at h
    · simp [IsOutside] at h
    · rfl

/-- **What is read next, up to idle spaces, depends neither on those that there are nor on the place
in the grammar.** -/
theorem run_settle (r : Reader) (offset offset' : Nat) (text : List Char) :
    (r.run offset text).toOption.map Template.settle =
      (r.settle.run offset' text).toOption.map Template.settle := by
  induction text generalizing r offset offset' with
  | nil => exact finish_settle r offset offset'
  | cons c rest ih =>
    have hstep := step_settle r offset offset' c rest.head?
    rw [run, run]
    cases hr : r.step offset c rest.head? with
    | error fault =>
      cases hsettle : r.settle.step offset' c rest.head? with
      | error fault' => rfl
      | ok r' => simp [hr, hsettle, Except.toOption] at hstep
    | ok r₁ =>
      cases hsettle : r.settle.step offset' c rest.head? with
      | error fault' => simp [hr, hsettle, Except.toOption] at hstep
      | ok r₂ =>
        have hsame : r₁.settle = r₂.settle := by simpa [hr, hsettle, Except.toOption] using hstep
        dsimp only
        rw [ih r₁ (offset + 1) 0, ih r₂ (offset' + 1) 0, hsame]

/-! ## Runs of blanks -/

/-- The parts that the rest of a grammar is read as, without idle spaces. -/
def takes (r : Reader) (text : List Char) : Option (List Node) :=
  (r.run 0 text).toOption.map Template.settle

/-- What a reader takes is what its run gives, up to idle spaces. -/
theorem toOption_run (r : Reader) (offset : Nat) (text : List Char) :
    (r.run offset text).toOption.map Template.settle = r.takes text := by
  rw [takes, run_settle r offset 0, ← run_settle r 0 0]

/-- **Readers that differ in idle spaces take the same.** -/
theorem takes_congr {r r' : Reader} (h : r.settle = r'.settle) (text : List Char) :
    r.takes text = r'.takes text := by
  rw [takes, run_settle r 0 0, h, ← run_settle, takes]

/-- A text is taken character by character. -/
theorem takes_cons (r : Reader) (c : Char) (rest : List Char) :
    r.takes (c :: rest) = (r.step 0 c rest.head?).toOption.bind (·.takes rest) := by
  rw [takes, run]
  cases r.step 0 c rest.head? with
  | error fault => rfl
  | ok r' => exact toOption_run r' 1 rest

/-- The reader after a blank. -/
def afterBlank (r : Reader) : Reader :=
  ⟨r.endWord.parts, r.endWord.groups, .gap true⟩

/-- Outside of brackets a blank is read as the end of a word. -/
theorem step_blank {r : Reader} (h : r.IsOutside) {c : Char} (hc : Text.isBlank c = true)
    (offset : Nat) (next? : Option Char) : r.step offset c next? = .ok r.afterBlank := by
  rw [step_of_isOutside h, stepOutside, if_pos hc]
  rfl

theorem afterBlank_isOutside (r : Reader) : r.afterBlank.IsOutside := by
  simp [IsOutside, afterBlank]

/-- More blanks do no more than the first one. -/
theorem takes_blanks {r : Reader} (h : r.IsOutside) {blanks : List Char}
    (hblank : ∀ c ∈ blanks, Text.isBlank c = true) (hne : blanks ≠ []) (after : List Char) :
    r.takes (blanks ++ after) = r.afterBlank.takes after := by
  induction blanks generalizing r with
  | nil => exact absurd rfl hne
  | cons c rest ih =>
    obtain ⟨hc, hrest⟩ := List.forall_mem_cons.1 hblank
    rw [List.cons_append, takes_cons, step_blank h hc]
    change r.afterBlank.takes (rest ++ after) = _
    cases rest with
    | nil => rfl
    | cons c' rest => exact ih r.afterBlank_isOutside hrest (List.cons_ne_nil c' rest)

/-- Nothing was read since the start of the grammar or of the innermost group. -/
def IsFresh (r : Reader) : Prop :=
  r.parts = [] ∧ ∃ spaced, r.reading = .gap spaced

/-- At an edge a blank does nothing. -/
theorem takes_of_edge {r : Reader} (h : r.IsOutside) {after : List Char}
    (hedge : r.IsFresh ∨ after = [] ∨ after.head? = some '\x7d') :
    r.takes after = r.afterBlank.takes after := by
  rcases hedge with ⟨hparts, spaced, hreading⟩ | rfl | hbrace
  · refine takes_congr ?_ after
    obtain ⟨parts, groups, reading⟩ := r
    cases hparts
    cases hreading
    simp [afterBlank, endWord, settle, Reading.settle]
  · have hfinish : r.finish 0 = r.afterBlank.finish 0 := by
      rw [finish_of_isOutside h, finish_of_isOutside r.afterBlank_isOutside]
      rfl
    rw [takes, takes, run, run, hfinish]
  · cases after with
    | nil => cases hbrace
    | cons c rest =>
      cases hbrace
      rw [takes_cons, takes_cons, step_of_isOutside h, step_of_isOutside r.afterBlank_isOutside]
      rfl

/-! ## The rest of the grammar -/

/-- The bracket that ends the reference being read, if there is one. -/
def awaits (r : Reader) : Option Char :=
  match r.reading with
  | .reference required _ _ _ => some (closing required)
  | _ => none

theorem isOutside_of_awaits {r : Reader} (h : r.awaits = none) : r.IsOutside := by
  intro required start chars spaced hreading
  simp [awaits, hreading] at h

/-- Outside of brackets none is awaited. -/
theorem awaits_of_isOutside {r : Reader} (h : r.IsOutside) : r.awaits = none := by
  unfold awaits
  split
  · rename_i hreading
    exact absurd hreading (h _ _ _ _)
  · rfl

end Reader

/-- Only an opening bracket makes the reader await another one. -/
theorem awaitedAfter_of_not_opens {c : Char} {next? : Option Char} (h : ¬ Opens c next?) :
    awaitedAfter none c next? = none :=
  if_neg fun hopens => h (Reader.opens_iff.1 hopens)

theorem awaitedAfter_congr_next {c : Char} {next? next?' : Option Char} (h : ¬ Opens c next?)
    (h' : ¬ Opens c next?') (awaited? : Option Char) :
    awaitedAfter awaited? c next? = awaitedAfter awaited? c next?' := by
  cases awaited? with
  | some bracket => rfl
  | none => rw [awaitedAfter_of_not_opens h, awaitedAfter_of_not_opens h']

/-- A blank opens nothing. -/
theorem not_opens_of_blank {c : Char} (h : Text.isBlank c = true) (next? : Option Char) :
    ¬ Opens c next? := by
  rintro ⟨rfl | rfl, -⟩ <;> simp [Text.isBlank] at h

/-- The last character before some blanks does not start a reference, nor does it at an edge without
them. -/
theorem not_opens_before_blanks {c : Char} {blanks after : List Char}
    (hblank : ∀ c ∈ blanks, Text.isBlank c = true) (hroom : blanks ≠ [] ∨ IsEdge [c] after) :
    ¬ Opens c (blanks ++ after).head? := by
  rintro ⟨hopen, hdollar⟩
  cases blanks with
  | cons b rest =>
    cases hdollar
    exact absurd (hblank _ List.mem_cons_self) (by decide)
  | nil =>
    rw [List.nil_append] at hdollar
    rcases hroom with hne | hnil | rfl | hlast | hbrace
    · exact hne rfl
    · cases hnil
    · cases hdollar
    · cases hlast
      rcases hopen with h | h <;> cases h
    · rw [hbrace] at hdollar
      cases hdollar

namespace Reader

/-- A character starts and ends references as the scan says. -/
theorem Moves.awaits_eq {r r' : Reader} {c : Char} {next? : Option Char}
    (h : r.Moves c next? r') : r'.awaits = awaitedAfter r.awaits c next? := by
  cases h with
  | @inside required spaced start chars reading goesOn =>
    have hawaits : r.awaits = some (closing required) := by rw [awaits, reading]
    rw [hawaits]
    exact (if_neg goesOn).symm
  | @ends required spaced start chars node reading ends read =>
    have hawaits : r.awaits = some (closing required) := by rw [awaits, reading]
    rw [hawaits]
    exact (if_pos ends).symm
  | blank outside blank =>
    rw [awaits_of_isOutside outside, awaitedAfter_of_not_opens (not_opens_of_blank blank next?)]
    rfl
  | groupEnds outside brace opened first =>
    rw [awaits_of_isOutside outside, brace]
    rfl
  | groupStarts outside brace =>
    rw [awaits_of_isOutside outside, brace]
    rfl
  | @referenceStarts required start outside bracket dollar =>
    rw [awaits_of_isOutside outside, bracket, dollar]
    cases required <;> rfl
  | wordStarts reading plain =>
    have hawaits : r.awaits = none := by rw [awaits, reading]
    rw [hawaits, awaitedAfter_of_not_opens plain.not_opens]
    rfl
  | wordGoesOn reading plain =>
    have hawaits : r.awaits = none := by rw [awaits, reading]
    rw [hawaits, awaitedAfter_of_not_opens plain.not_opens]
    rfl

/-- The next character only counts where it makes a reference. -/
theorem step_congr_next {c : Char} {next? next?' : Option Char} (h : ¬ Opens c next?)
    (h' : ¬ Opens c next?') (r : Reader) (offset : Nat) :
    r.step offset c next? = r.step offset c next?' := by
  have hnext : ((c = '<' || c = '[') && next? = some '$') =
      ((c = '<' || c = '[') && next?' = some '$') := by
    rw [Bool.eq_iff_iff, opens_iff, opens_iff]
    exact iff_of_false h h'
  unfold step stepOutside
  simp only [hnext]

/-- After the brace of a group the reader is fresh. -/
theorem Moves.isFresh {r r' : Reader} {next? : Option Char} (h : r.Moves '\x7b' next? r')
    (houtside : r'.IsOutside) : r'.IsFresh := by
  cases h with
  | groupStarts outside brace => exact ⟨rfl, false, rfl⟩
  | inside reading goesOn => exact absurd rfl (houtside _ _ _ _)
  | @ends required spaced start chars node reading ends read => cases required <;> cases ends
  | blank outside blank => cases blank
  | groupEnds outside brace opened first => cases brace
  | @referenceStarts required start outside bracket dollar => cases required <;> cases bracket
  | wordStarts reading plain => exact absurd rfl plain.ne_open
  | wordGoesOn reading plain => exact absurd rfl plain.ne_open

/-- A character before some blanks is read as it is before one blank, and so at an edge without any:
both times the same character follows, or one that does not make a reference of this one. -/
theorem step_before_blanks {c : Char} {rest blanks after : List Char}
    (hblank : ∀ c ∈ blanks, Text.isBlank c = true) (hroom : blanks ≠ [] ∨ IsEdge (c :: rest) after)
    (r : Reader) :
    r.step 0 c (rest ++ blanks ++ after).head? = r.step 0 c (rest ++ [' '] ++ after).head? ∧
      awaitedAfter r.awaits c (rest ++ [' '] ++ after).head? =
        awaitedAfter r.awaits c rest.head? := by
  cases rest with
  | nil =>
    have hnext : ¬ Opens c (blanks ++ after).head? := not_opens_before_blanks hblank hroom
    have hspace : ¬ Opens c (some ' ') := by
      rintro ⟨-, hdollar⟩
      cases hdollar
    have hend : ¬ Opens c none := by
      rintro ⟨-, hdollar⟩
      cases hdollar
    exact ⟨step_congr_next hnext hspace r 0, awaitedAfter_congr_next hspace hend r.awaits⟩
  | cons c' rest => exact ⟨rfl, rfl⟩

/-- Blanks outside of references are read as one blank, and so are none at an edge. -/
theorem takes_one_blank {r : Reader} {before blanks after : List Char}
    (houtside : awaitedAtEnd r.awaits before = none)
    (hblank : ∀ c ∈ blanks, Text.isBlank c = true)
    (hroom : blanks ≠ [] ∨ before = [] ∧ r.IsFresh ∨ after = [] ∨
      before.getLast? = some '\x7b' ∨ after.head? = some '\x7d') :
    r.takes (before ++ blanks ++ after) = r.takes (before ++ [' '] ++ after) := by
  induction before generalizing r with
  | nil =>
    have hr : r.IsOutside := isOutside_of_awaits houtside
    have hspace : ∀ c ∈ [' '], Text.isBlank c = true := List.all_eq_true.1 rfl
    rw [List.nil_append, List.nil_append, takes_blanks hr hspace (List.cons_ne_nil _ _)]
    by_cases hne : blanks = []
    · subst hne
      refine takes_of_edge hr ?_
      rcases hroom with hroom | ⟨-, hfresh⟩ | hafter | hlast | hbrace
      · exact absurd rfl hroom
      · exact .inl hfresh
      · exact .inr (.inl hafter)
      · cases hlast
      · exact .inr (.inr hbrace)
    · exact takes_blanks hr hblank hne after
  | cons c rest ih =>
    have hedge : blanks ≠ [] ∨ IsEdge (c :: rest) after :=
      hroom.imp_right fun h => h.imp_left And.left
    obtain ⟨hsame, hawaited⟩ := step_before_blanks hblank hedge r
    rw [List.cons_append, List.cons_append, List.cons_append, List.cons_append, takes_cons,
      takes_cons, hsame]
    cases hstep : r.step 0 c (rest ++ [' '] ++ after).head? with
    | error fault => rfl
    | ok r' =>
      have hmoves := moves_of_step hstep
      have hawaits : awaitedAtEnd r'.awaits rest = none := by
        rw [hmoves.awaits_eq, hawaited]
        exact houtside
      refine ih hawaits ?_
      rcases hroom with hroom | ⟨hnil, -⟩ | hafter | hlast | hbrace
      · exact .inl hroom
      · cases hnil
      · exact .inr (.inr (.inl hafter))
      · cases rest with
        | nil =>
          -- the reader has just entered a group
          cases hlast
          exact .inr (.inl ⟨rfl, hmoves.isFresh (isOutside_of_awaits hawaits)⟩)
        | cons c' rest => exact .inr (.inr (.inr (.inl hlast)))
      · exact .inr (.inr (.inr (.inr hbrace)))

end Reader

/-! ## Templates of grammars that differ in blanks -/

namespace Respaced

variable {grammar grammar' : List Char}

/-- Both grammars are read as the same parts up to idle spaces, or neither is read. -/
theorem parseNodes_settle (h : Respaced grammar grammar') :
    (parseNodes grammar).toOption.map settle = (parseNodes grammar').toOption.map settle := by
  change Reader.start.takes grammar = Reader.start.takes grammar'
  induction h with
  | @blanks before blanks blanks' after outside blank blank' room =>
    have hone : ∀ blanks : List Char, (∀ c ∈ blanks, Text.isBlank c = true) →
        (blanks ≠ [] ∨ IsEdge before after) →
        Reader.start.takes (before ++ blanks ++ after) =
          Reader.start.takes (before ++ [' '] ++ after) := by
      intro blanks hblank hroom
      exact Reader.takes_one_blank outside hblank
        (hroom.imp_right fun h => h.imp_left fun hbefore => ⟨hbefore, rfl, false, rfl⟩)
    rw [hone blanks blank (room.imp_left And.left), hone blanks' blank' (room.imp_left And.right)]
  | trans first second ih₁ ih₂ => exact ih₁.trans ih₂

/-- Both grammars hold more than blanks, or neither does. -/
theorem all_isBlank (h : Respaced grammar grammar') :
    grammar.all Text.isBlank = grammar'.all Text.isBlank := by
  induction h with
  | @blanks before blanks blanks' after outside blank blank' room =>
    simp only [List.all_append, List.all_eq_true.2 blank, List.all_eq_true.2 blank']
  | trans first second ih₁ ih₂ => exact ih₁.trans ih₂

end Respaced

/-- When a grammar is read, and as what. -/
theorem parse_eq_ok_iff {grammar : List Char} {name : String} {t : Template} :
    parse grammar name = .ok t ↔
      ¬ grammar.all Text.isBlank = true ∧
        ∃ nodes, parseNodes grammar = .ok nodes ∧ t = ⟨name, String.ofList grammar, nodes⟩ := by
  unfold parse
  dsimp only
  split
  · rename_i hblank
    simp [hblank]
  · rename_i hblank
    cases hnodes : parseNodes grammar with
    | ok nodes => simp [hblank, eq_comm]
    | error fault => simp

/-- **Blanks outside of references count only as being there, and not at all at an edge.**  Two
grammars that differ in nothing else are both read or both not.  Their templates have the same
references, and whatever they are rendered against, both have the same text and bind the same values
or are refused for the same reason. -/
theorem respaced_outcome {grammar grammar' : List Char} (h : Respaced grammar grammar')
    (name : String) :
    ((∃ t, parse grammar name = .ok t) ↔ ∃ t', parse grammar' name = .ok t') ∧
      ∀ t t', parse grammar name = .ok t → parse grammar' name = .ok t' →
        t.keys = t'.keys ∧
          ∀ (ctx : Context) (body : Fields) (column : Option String) (placeholder : Nat → String)
            (answer : Call → Compile String) (binder : Array Value),
            ((t.render ctx body column).run placeholder answer).run.run binder =
              ((t'.render ctx body column).run placeholder answer).run.run binder := by
  have hnodes := h.parseNodes_settle
  have hblank := h.all_isBlank
  constructor
  · simp only [parse_eq_ok_iff, hblank]
    cases hread : parseNodes grammar with
    | ok nodes =>
      cases hread' : parseNodes grammar' with
      | ok nodes' => simp
      | error fault => simp [hread, hread', Except.toOption] at hnodes
    | error fault =>
      cases hread' : parseNodes grammar' with
      | ok nodes' => simp [hread, hread', Except.toOption] at hnodes
      | error fault => simp
  · intro t t' ht ht'
    obtain ⟨-, nodes, hread, rfl⟩ := parse_eq_ok_iff.1 ht
    obtain ⟨-, nodes', hread', rfl⟩ := parse_eq_ok_iff.1 ht'
    have hsettle : settle nodes = settle nodes' := by
      simpa [hread, hread', Except.toOption] using hnodes
    constructor
    · calc
        keysOf nodes = keysOf (settle nodes) := (keysOf_settleFrom false nodes).symm
        _ = keysOf (settle nodes') := by rw [hsettle]
        _ = keysOf nodes' := keysOf_settleFrom false nodes'
    · intro ctx body column placeholder answer binder
      rw [← render_settle, ← render_settle ⟨name, String.ofList grammar', nodes'⟩, render, render,
        hsettle]

/-- A group that opens with a reference and a group. -/
def nestedGrammar : List Char :=
  "\x7b [$a]\x7b<$b> \x7d\x7d END".toList

/-- The same grammar with other blanks. -/
def respacedGrammar : List Char :=
  "  \x7b[$a]\x7b<$b>\x7d\x7d\n\tEND".toList

theorem nestedGrammar_respaced : Respaced nestedGrammar respacedGrammar := by
  have hnone : ∀ c ∈ [], Text.isBlank c = true := List.all_eq_true.1 rfl
  have hspace : ∀ c ∈ [' '], Text.isBlank c = true := List.all_eq_true.1 rfl
  have hbreak : ∀ c ∈ ['\n', '\t'], Text.isBlank c = true := List.all_eq_true.1 rfl
  have hspaces : ∀ c ∈ [' ', ' '], Text.isBlank c = true := List.all_eq_true.1 rfl
  have hopen : Respaced nestedGrammar "\x7b[$a]\x7b<$b> \x7d\x7d END".toList :=
    @Respaced.blanks "\x7b".toList [' '] [] "[$a]\x7b<$b> \x7d\x7d END".toList rfl hspace hnone
      (.inr (.inr (.inr (.inl rfl))))
  have hclose : Respaced "\x7b[$a]\x7b<$b> \x7d\x7d END".toList
      "\x7b[$a]\x7b<$b>\x7d\x7d END".toList :=
    @Respaced.blanks "\x7b[$a]\x7b<$b>".toList [' '] [] "\x7d\x7d END".toList rfl hspace hnone
      (.inr (.inr (.inr (.inr rfl))))
  have hrun : Respaced "\x7b[$a]\x7b<$b>\x7d\x7d END".toList
      "\x7b[$a]\x7b<$b>\x7d\x7d\n\tEND".toList :=
    @Respaced.blanks "\x7b[$a]\x7b<$b>\x7d\x7d".toList [' '] ['\n', '\t'] "END".toList rfl hspace
      hbreak (.inl ⟨List.cons_ne_nil _ _, List.cons_ne_nil _ _⟩)
  have hstart : Respaced "\x7b[$a]\x7b<$b>\x7d\x7d\n\tEND".toList respacedGrammar :=
    @Respaced.blanks [] [] [' ', ' '] "\x7b[$a]\x7b<$b>\x7d\x7d\n\tEND".toList rfl hnone hspaces
      (.inr (.inl rfl))
  exact ((hopen.trans hclose).trans hrun).trans hstart

/-- The template of `nestedGrammar`. -/
def nestedTemplate : Template where
  name := "n"
  grammar := String.ofList nestedGrammar
  nodes := [.group [.inline "$a" true, .group [.required "$b" false] "$b" false] "$a" false,
    .word "END" true]

/-- The template of `respacedGrammar`, with the spaces of two parts exchanged. -/
def respacedTemplate : Template where
  name := "n"
  grammar := String.ofList respacedGrammar
  nodes := [.group [.inline "$a" false, .group [.required "$b" false] "$b" false] "$a" true,
    .word "END" true]

theorem parse_nestedGrammar : parse nestedGrammar "n" = .ok nestedTemplate := rfl

theorem parse_respacedGrammar : parse respacedGrammar "n" = .ok respacedTemplate := rfl

/-- What comes of a template where `$a` renders to nothing and every other reference to a letter. -/
def letteredOutcome (ctx : Context) (t : Template) : Except Fault String × Array Value :=
  ((t.render ctx [("$a", .bool true), ("$b", .int 1)] none).run (fun _ => "?")
    fun call => if call.operator = "$a" then pure "" else pure "B").run.run #[.int 7]

/-- The inner group comes first where the reference before it renders to nothing. -/
theorem respaced_outcome_nestedGrammar :
    Respaced nestedGrammar respacedGrammar ∧ parse nestedGrammar "n" = .ok nestedTemplate ∧
      parse respacedGrammar "n" = .ok respacedTemplate ∧
      nestedTemplate.keys = respacedTemplate.keys ∧
      ∀ ctx, letteredOutcome ctx nestedTemplate = (.ok "B END", #[.int 7]) ∧
        letteredOutcome ctx respacedTemplate = (.ok "B END", #[.int 7]) := by
  obtain ⟨hkeys, hrender⟩ := (respaced_outcome nestedGrammar_respaced "n").2 _ _
    parse_nestedGrammar parse_respacedGrammar
  have hnested : ∀ ctx, letteredOutcome ctx nestedTemplate = (.ok "B END", #[.int 7]) :=
    fun _ => rfl
  refine ⟨nestedGrammar_respaced, parse_nestedGrammar, parse_respacedGrammar, hkeys, fun ctx => ?_⟩
  exact ⟨hnested ctx, (hrender ctx _ none _ _ _).symm.trans (hnested ctx)⟩

end QueryTree.Template
