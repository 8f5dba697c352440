import QueryTree.Proofs.GrammarPrinting

/-!
# What is read from a grammar

A grammar is read character by character.  What a character does is said once, and what a whole
reading does follows from it: no character is lost or invented but blanks, and the parts are well
formed.

* `Reader.Moves` : what a character can do to the reader.
* `Reader.print` is the text that the reader holds; **`Reader.run_print`** : the parts that are read
  have the text they were read from, up to blanks.
* `Reader.Sound` : what the reader holds is well formed; **`Reader.run_wellFormed`** : so are the
  parts that are read.
-/

namespace QueryTree.Template

/-! ## Characters -/

/-- The character starts a reference if the next one follows it. -/
def Opens (c : Char) (next? : Option Char) : Prop :=
  (c = '<' ∨ c = '[') ∧ next? = some '$'

/-- A character that goes on a word. -/
structure IsPlain (c : Char) (next? : Option Char) : Prop where
  not_blank : Text.isBlank c = false
  ne_open : c ≠ '\x7b'
  ne_close : c ≠ '\x7d'
  not_opens : ¬ Opens c next?

/-- A text without the start of a reference, seen from one character to the next. -/
theorem closed_iff_isChain {text : List Char} :
    (¬ ['<', '$'] <:+: text ∧ ¬ ['[', '$'] <:+: text) ↔
      text.IsChain fun c c' => ¬ Opens c (some c') := by
  rw [List.isChain_iff_forall_rel_of_append_cons_cons]
  constructor
  · rintro ⟨hangle, hsquare⟩ c c' before after htext ⟨hopen, hdollar⟩
    cases hdollar
    rcases hopen with rfl | rfl
    · exact hangle ⟨before, after, by simp [htext]⟩
    · exact hsquare ⟨before, after, by simp [htext]⟩
  · intro h
    constructor
    · rintro ⟨before, after, htext⟩
      exact h (by simp [← htext]; rfl) ⟨.inl rfl, rfl⟩
    · rintro ⟨before, after, htext⟩
      exact h (by simp [← htext]; rfl) ⟨.inr rfl, rfl⟩

theorem IsPlain.isLiteral {c : Char} {next? : Option Char} (h : IsPlain c next?) :
    IsLiteral [c] where
  ne_nil := by simp
  plain := by simpa using ⟨h.not_blank, h.ne_open, h.ne_close⟩
  closed := closed_iff_isChain.2 (.singleton c)

/-- One more character, where the characters are read last one first. -/
theorem IsLiteral.reverse_cons {chars : List Char} (h : IsLiteral chars.reverse) {c : Char}
    {next? : Option Char} (hc : IsPlain c next?)
    (hlast : ∀ last ∈ chars.head?, ¬ Opens last (some c)) : IsLiteral (c :: chars).reverse where
  ne_nil := by simp
  plain := by
    intro d hd
    rw [List.mem_reverse, List.mem_cons] at hd
    rcases hd with rfl | hd
    · exact ⟨hc.not_blank, hc.ne_open, hc.ne_close⟩
    · exact h.plain d (List.mem_reverse.2 hd)
  closed := by
    rw [closed_iff_isChain, List.reverse_cons]
    refine List.isChain_append.2 ⟨closed_iff_isChain.1 h.closed, .singleton c, ?_⟩
    intro last hmem next hnext
    rw [List.getLast?_reverse] at hmem
    cases hnext
    exact hlast last hmem

/-- The characters of a word go on it, if what follows does not make a reference of the last one. -/
theorem IsLiteral.isPlain {c : Char} {text rest : List Char} (h : IsLiteral (c :: text))
    (hrest : rest.head? ≠ some '$') : IsPlain c (text ++ rest).head? := by
  obtain ⟨hblank, hopen, hclose⟩ := h.plain c List.mem_cons_self
  refine ⟨hblank, hopen, hclose, fun hopens => ?_⟩
  cases text with
  | nil => exact hrest hopens.2
  | cons c' text =>
    have hchain := closed_iff_isChain.1 h.closed
    rw [List.isChain_cons_cons] at hchain
    exact hchain.1 hopens

theorem IsLiteral.tail {c : Char} {text : List Char} (h : IsLiteral (c :: text)) (hne : text ≠ []) :
    IsLiteral text where
  ne_nil := hne
  plain d hd := h.plain d (List.mem_cons_of_mem c hd)
  closed := closed_iff_isChain.2 (closed_iff_isChain.1 h.closed).of_cons

namespace Reader

/-! ## One character -/

/-- No reference is being read. -/
def IsOutside (r : Reader) : Prop :=
  ∀ required start chars spaced, r.reading ≠ .reference required start chars spaced

/-- What a character can do. -/
inductive Moves (r : Reader) (c : Char) (next? : Option Char) : Reader → Prop where
  | inside {required spaced : Bool} {start : Nat} {chars : List Char}
      (reading : r.reading = .reference required start chars spaced)
      (goesOn : c ≠ closing required) :
      Moves r c next? { r with reading := .reference required start (c :: chars) spaced }
  | ends {required spaced : Bool} {start : Nat} {chars : List Char} {node : Node}
      (reading : r.reading = .reference required start chars spaced) (ends : c = closing required)
      (read : referenceNode required spaced chars.reverse = .ok node) :
      Moves r c next? ⟨node :: r.parts, r.groups, .gap false⟩
  | blank (outside : r.IsOutside) (blank : Text.isBlank c = true) :
      Moves r c next? ⟨r.endWord.parts, r.endWord.groups, .gap true⟩
  | groupEnds {outer : OpenGroup} {groups : List OpenGroup} {guard : String}
      (outside : r.IsOutside) (brace : c = '\x7d') (opened : r.endWord.groups = outer :: groups)
      (first : firstKey? r.endWord.parts.reverse = some guard) :
      Moves r c next?
        ⟨.group r.endWord.parts.reverse guard outer.spaced :: outer.before, groups, .gap false⟩
  | groupStarts (outside : r.IsOutside) (brace : c = '\x7b') :
      Moves r c next?
        ⟨[], ⟨r.endWord.parts, r.endWord.spaced⟩ :: r.endWord.groups, .gap false⟩
  | referenceStarts {required : Bool} {start : Nat} (outside : r.IsOutside)
      (bracket : c = opening required) (dollar : next? = some '$') :
      Moves r c next?
        ⟨r.endWord.parts, r.endWord.groups, .reference required start [] r.endWord.spaced⟩
  | wordStarts {spaced : Bool} (reading : r.reading = .gap spaced) (plain : IsPlain c next?) :
      Moves r c next? { r with reading := .word [c] spaced }
  | wordGoesOn {chars : List Char} {spaced : Bool} (reading : r.reading = .word chars spaced)
      (plain : IsPlain c next?) : Moves r c next? { r with reading := .word (c :: chars) spaced }

theorem opens_iff {c : Char} {next? : Option Char} :
    ((c = '<' || c = '[') && next? = some '$') = true ↔ Opens c next? := by
  simp [Opens]

theorem moves_of_stepOutside {r r' : Reader} {offset : Nat} {c : Char} {next? : Option Char}
    (houtside : r.IsOutside) (h : r.stepOutside offset c next? = .ok r') : r.Moves c next? r' := by
  unfold stepOutside at h
  dsimp only at h
  split at h
  · rename_i hblank
    cases h
    exact .blank houtside hblank
  · rename_i hblank
    split at h
    · rename_i hbrace
      split at h
      · cases h
      · rename_i outer groups hgroups
        split at h
        · cases h
        · rename_i guard hfirst
          cases h
          exact .groupEnds houtside hbrace hgroups hfirst
    · rename_i hclose
      split at h
      · rename_i hbrace
        cases h
        exact .groupStarts houtside hbrace
      · rename_i hopen
        split at h
        · rename_i hreference
          obtain ⟨hbracket, hdollar⟩ := opens_iff.1 hreference
          cases h
          rcases hbracket with rfl | rfl
          · exact .referenceStarts houtside rfl hdollar
          · exact .referenceStarts houtside rfl hdollar
        · rename_i hreference
          have hplain : IsPlain c next? :=
            ⟨by simpa using hblank, hopen, hclose, fun hopens => hreference (opens_iff.2 hopens)⟩
          split at h
          · rename_i chars spaced hreading
            cases h
            exact .wordGoesOn hreading hplain
          · rename_i hword
            cases h
            obtain ⟨parts, groups, _ | _ | _⟩ := r
            · exact .wordStarts rfl hplain
            · exact absurd rfl (hword _ _)
            · exact absurd rfl (houtside _ _ _ _)

theorem moves_of_step {r r' : Reader} {offset : Nat} {c : Char} {next? : Option Char}
    (h : r.step offset c next? = .ok r') : r.Moves c next? r' := by
  unfold step at h
  split at h
  · rename_i required start chars spaced hreading
    rw [← closing] at h
    split at h
    · rename_i hclosing
      split at h
      · rename_i node hnode
        cases h
        exact .ends hreading hclosing hnode
      · cases h
    · rename_i hgoesOn
      cases h
      exact .inside hreading hgoesOn
  · rename_i houtside
    exact moves_of_stepOutside houtside h

theorem finish_eq_ok {r : Reader} {offset : Nat} {nodes : List Node}
    (h : r.finish offset = .ok nodes) :
    r.IsOutside ∧ r.endWord.groups = [] ∧ nodes = r.endWord.parts.reverse := by
  unfold finish at h
  split at h
  · cases h
  · rename_i houtside
    dsimp only at h
    split at h
    · rename_i hgroups
      cases h
      exact ⟨houtside, List.isEmpty_iff.1 hgroups, rfl⟩
    · cases h

/-- Outside of references the end of a word leaves nothing being read. -/
theorem exists_endWord_eq {r : Reader} (h : r.IsOutside) :
    ∃ parts groups spaced, r.endWord = ⟨parts, groups, .gap spaced⟩ := by
  obtain ⟨parts, groups, _ | _ | _⟩ := r
  · exact ⟨parts, groups, _, rfl⟩
  · exact ⟨_, groups, false, rfl⟩
  · exact absurd rfl (h _ _ _ _)

/-! ## No character is lost -/

end Reader

/-- The text of a group that is open. -/
def OpenGroup.print (group : OpenGroup) : List Char :=
  Template.print group.before.reverse ++ space group.spaced ++ ['\x7b']

/-- The text of what is being read. -/
def Reading.print : Reading → List Char
  | .gap spaced => space spaced
  | .word chars spaced => space spaced ++ chars.reverse
  | .reference required _ chars spaced => space spaced ++ opening required :: chars.reverse

namespace Reader

/-- The text that the reader holds. -/
def print (r : Reader) : List Char :=
  r.groups.reverse.flatMap OpenGroup.print ++ Template.print r.parts.reverse ++ r.reading.print

theorem print_endWord (r : Reader) : r.endWord.print = r.print := by
  obtain ⟨parts, groups, spaced | ⟨chars, spaced⟩ | ⟨required, start, chars, spaced⟩⟩ := r
  · rfl
  · simp [print, endWord, Reading.print, Node.print, print_singleton, space]
  · rfl

/-- The text of a reader that reads nothing. -/
theorem print_gap (parts : List Node) (groups : List OpenGroup) (spaced : Bool) :
    Text.solid (Reader.print ⟨parts, groups, .gap spaced⟩) =
      Text.solid (groups.reverse.flatMap OpenGroup.print) ++
        Text.solid (Template.print parts.reverse) := by
  rw [print, Reading.print, Text.solid_append, Text.solid_append, solid_space, List.append_nil]

/-- A character adds itself to the text that the reader holds, up to blanks. -/
theorem Moves.solid_print {r r' : Reader} {c : Char} {next? : Option Char}
    (h : r.Moves c next? r') :
    Text.solid r'.print = Text.solid (r.print ++ [c]) := by
  cases h with
  | inside reading goesOn =>
    congr 1
    simp [print, reading, Reading.print]
  | ends reading ends read =>
    have hnode := solid_print_of_referenceNode read
    rw [print_gap, List.reverse_cons, print_append, print_singleton, Text.solid_append, hnode, ends,
      print, reading, Reading.print]
    simp only [bracketed, Text.solid_append, solid_space, List.nil_append, List.append_assoc]
  | blank outside blank =>
    obtain ⟨parts, groups, spaced, hend⟩ := exists_endWord_eq outside
    rw [← r.print_endWord, hend, Text.solid_append, print_gap, print_gap,
      Text.solid_cons_of_blank blank, Text.solid_nil, List.append_nil]
  | groupEnds outside brace opened first =>
    obtain ⟨parts, groups, spaced, hend⟩ := exists_endWord_eq outside
    rw [hend] at opened
    cases opened
    rw [← r.print_endWord, hend, Text.solid_append, print_gap, print_gap, brace]
    simp only [List.reverse_cons, print_append, print_singleton, Node.print, OpenGroup.print,
      List.flatMap_append, List.flatMap_singleton, Text.solid_append, solid_space, List.nil_append,
      List.append_assoc]
    rw [← List.singleton_append, Text.solid_append, List.append_assoc]
  | groupStarts outside brace =>
    obtain ⟨parts, groups, spaced, hend⟩ := exists_endWord_eq outside
    rw [← r.print_endWord, hend, brace]
    congr 1
    simp [print, Reading.print, OpenGroup.print, Template.print, Reader.spaced, space_false]
  | referenceStarts outside bracket dollar =>
    obtain ⟨parts, groups, spaced, hend⟩ := exists_endWord_eq outside
    rw [← r.print_endWord, hend, bracket]
    congr 1
    simp [print, Reading.print, Reader.spaced]
  | wordStarts reading plain =>
    congr 1
    simp [print, reading, Reading.print]
  | wordGoesOn reading plain =>
    congr 1
    simp [print, reading, Reading.print]

/-- The first character of a text that is read. -/
theorem run_cons_eq_ok {r : Reader} {offset : Nat} {c : Char} {rest : List Char}
    {nodes : List Node} (h : r.run offset (c :: rest) = .ok nodes) :
    ∃ r', r.Moves c rest.head? r' ∧ r'.run (offset + 1) rest = .ok nodes := by
  rw [run] at h
  split at h
  · rename_i r' hstep
    exact ⟨r', moves_of_step hstep, h⟩
  · cases h

/-- The parts that are read have the text that the reader held and read, up to blanks. -/
theorem run_print {r : Reader} {offset : Nat} {text : List Char} {nodes : List Node}
    (h : r.run offset text = .ok nodes) :
    Text.solid (Template.print nodes) = Text.solid (r.print ++ text) := by
  induction text generalizing r offset with
  | nil =>
    obtain ⟨houtside, hgroups, rfl⟩ := finish_eq_ok h
    obtain ⟨parts, groups, spaced, hend⟩ := exists_endWord_eq houtside
    rw [hend] at hgroups
    cases hgroups
    rw [List.append_nil, ← r.print_endWord, hend, print_gap]
    rfl
  | cons c rest ih =>
    obtain ⟨r', hmoves, hrest⟩ := run_cons_eq_ok h
    rw [ih hrest, Text.solid_append, hmoves.solid_print, ← Text.solid_append, List.append_assoc]
    rfl

end Reader

/-! ## What is read is well formed -/

theorem AllWellFormed.nil : AllWellFormed [] :=
  ⟨by simp, .nil⟩

/-- One more part at the end. -/
theorem AllWellFormed.concat {nodes : List Node} (h : AllWellFormed nodes) {node : Node}
    (hnode : node.WellFormed) (hapart : ∀ last ∈ nodes.getLast?, last.Apart node) :
    AllWellFormed (nodes ++ [node]) where
  each := by
    intro other hother
    rcases List.mem_append.1 hother with hother | hother
    · exact h.each other hother
    · rw [List.mem_singleton.1 hother]
      exact hnode
  apart := List.isChain_append.2 ⟨h.apart, .singleton _, by simpa using hapart⟩

/-- A part that is no word stands apart from every other one. -/
theorem Node.apart_of_not_isWord {node next : Node} (h : next.isWord = false) :
    node.Apart next := by
  intro _ hnext
  rw [h] at hnext
  cases hnext

/-- The last of some parts is not a word. -/
def EndsOpen (parts : List Node) : Prop :=
  ∀ last ∈ parts.head?, last.isWord = false

/-- What is being read after `parts` can become well formed. -/
def Reading.Sound (parts : List Node) (next? : Option Char) : Reading → Prop
  | .gap spaced => spaced = false → EndsOpen parts
  | .word chars spaced =>
    IsLiteral chars.reverse ∧ (∀ c ∈ chars.head?, ¬ Opens c next?) ∧
      (spaced = false → EndsOpen parts)
  | .reference required _ chars _ => closing required ∉ chars

namespace Reader

/-- What the reader holds is well formed. -/
structure Sound (r : Reader) (next? : Option Char) : Prop where
  parts : AllWellFormed r.parts.reverse
  groups : ∀ group ∈ r.groups, AllWellFormed group.before.reverse
  reading : r.reading.Sound r.parts next?

variable {r r' : Reader} {c : Char} {next? : Option Char}

theorem Sound.endWord (h : r.Sound next?) :
    AllWellFormed r.endWord.parts.reverse ∧
      ∀ group ∈ r.endWord.groups, AllWellFormed group.before.reverse := by
  obtain ⟨parts, groups, spaced | ⟨chars, spaced⟩ | ⟨required, start, chars, spaced⟩⟩ := r
  · exact ⟨h.parts, h.groups⟩
  · obtain ⟨hliteral, -, hopen⟩ := h.reading
    refine ⟨?_, h.groups⟩
    simp only [Reader.endWord, List.reverse_cons]
    refine h.parts.concat (.word (by rwa [String.toList_ofList])) ?_
    intro last hlast hword _
    rw [List.getLast?_reverse] at hlast
    cases spaced with
    | true => rfl
    | false =>
      rw [hopen rfl last hlast] at hword
      cases hword
  · exact ⟨h.parts, h.groups⟩

/-- A part that is no word goes to the end. -/
theorem sound_cons {node : Node} {parts : List Node} {groups : List OpenGroup}
    (hparts : AllWellFormed parts.reverse)
    (hgroups : ∀ group ∈ groups, AllWellFormed group.before.reverse) (hnode : node.WellFormed)
    (hword : node.isWord = false) : Sound ⟨node :: parts, groups, .gap false⟩ next? where
  parts := by
    rw [List.reverse_cons]
    exact hparts.concat hnode fun _ _ => Node.apart_of_not_isWord hword
  groups := hgroups
  reading := by
    rintro - last hlast
    cases hlast
    exact hword

/-- What the reader holds stays well formed. -/
theorem Moves.sound (hmoves : r.Moves c next? r') (h : r.Sound (some c)) : r'.Sound next? := by
  cases hmoves with
  | inside reading goesOn =>
    refine ⟨h.parts, h.groups, ?_⟩
    have hreading := h.reading
    rw [reading] at hreading
    exact fun hmem => (List.mem_cons.1 hmem).elim (fun heq => goesOn heq.symm) hreading
  | ends reading ends read =>
    have hreading := h.reading
    rw [reading] at hreading
    have hfree := fun hmem => hreading (List.mem_reverse.1 hmem)
    obtain ⟨hnode, hword⟩ := referenceNode_wellFormed read hfree
    exact sound_cons h.parts h.groups hnode hword
  | blank outside blank => exact ⟨h.endWord.1, h.endWord.2, fun hfalse => by cases hfalse⟩
  | groupEnds outside brace opened first =>
    -- the guard was taken from the parts, where a group within counts with its own guard
    obtain ⟨hchildren, hgroups⟩ := h.endWord
    rw [opened, List.forall_mem_cons] at hgroups
    rw [firstKey?_eq hchildren.each] at first
    exact sound_cons hgroups.1 hgroups.2 (.group hchildren.each hchildren.apart first) rfl
  | groupStarts outside brace =>
    refine ⟨.nil, ?_, ?_⟩
    · exact List.forall_mem_cons.2 ⟨h.endWord.1, h.endWord.2⟩
    · rintro - last hlast
      cases hlast
  | referenceStarts outside bracket dollar => exact ⟨h.endWord.1, h.endWord.2, List.not_mem_nil⟩
  | wordStarts reading plain =>
    have hreading := h.reading
    rw [reading] at hreading
    refine ⟨h.parts, h.groups, plain.isLiteral, ?_, hreading⟩
    rintro last hlast
    cases hlast
    exact plain.not_opens
  | wordGoesOn reading plain =>
    have hreading := h.reading
    rw [reading] at hreading
    -- the last character was taken with this one in sight, so the two do not start a reference
    obtain ⟨hliteral, hlast, hopen⟩ := hreading
    refine ⟨h.parts, h.groups, hliteral.reverse_cons plain hlast, ?_, hopen⟩
    rintro last hmem
    cases hmem
    exact plain.not_opens

/-- The parts that are read are well formed. -/
theorem run_wellFormed {offset : Nat} {text : List Char} {nodes : List Node}
    (h : r.Sound text.head?) (hrun : r.run offset text = .ok nodes) : AllWellFormed nodes := by
  induction text generalizing r offset with
  | nil =>
    obtain ⟨-, -, rfl⟩ := finish_eq_ok hrun
    exact h.endWord.1
  | cons c rest ih =>
    obtain ⟨r', hmoves, hrest⟩ := run_cons_eq_ok hrun
    exact ih (hmoves.sound h) hrest

end Reader

end QueryTree.Template
