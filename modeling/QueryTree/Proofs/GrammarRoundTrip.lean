import QueryTree.Proofs.GrammarReading

/-!
# Reading a grammar back

The text of well-formed parts is read as these parts.  With what is known of every reading, printing
and reading are inverse to each other.

* `Reader.Reads` : the rest of a grammar is read, wherever it stands.
* `Reader.resting` is the reader after the text of some parts, and `reads_word`, `reads_reference`,
  `reads_group` say how it gets past one more.
* **`Node.WellFormed.readsBack`** : every well-formed part is read back, whatever follows it.
* **`parse_print_inverse`** : reading and printing are inverse to each other.
-/

namespace QueryTree.Template

/-! ## What is well formed is read back -/

namespace Reader

/-- The rest of a grammar is read as `nodes`, wherever it stands. -/
def Reads (r : Reader) (text : List Char) (nodes : List Node) : Prop :=
  ∀ offset, r.run offset text = .ok nodes

/-- A text is read back if its first character is a step to a reader that reads the rest. -/
theorem Reads.cons {r : Reader} {c : Char} {rest : List Char} {nodes : List Node}
    (h : ∀ offset, ∃ r', r.step offset c rest.head? = .ok r' ∧ r'.Reads rest nodes) :
    r.Reads (c :: rest) nodes := by
  intro offset
  obtain ⟨r', hstep, hrest⟩ := h offset
  rw [run, hstep]
  exact hrest (offset + 1)

/-- The reader after the text of some parts, the last one first.  A word can still go on. -/
def resting (groups : List OpenGroup) : List Node → Reader
  | .word text spaced :: parts => ⟨parts, groups, .word text.toList.reverse spaced⟩
  | parts => ⟨parts, groups, .gap false⟩

/-- The reader before a part, after the space that stands before it. -/
def ready (groups : List OpenGroup) (parts : List Node) (spaced : Bool) : Reader :=
  if spaced then ⟨parts, groups, .gap true⟩ else resting groups parts

variable {groups : List OpenGroup} {parts nodes : List Node} {spaced : Bool}

theorem resting_of_endsOpen (h : EndsOpen parts) :
    resting groups parts = ⟨parts, groups, .gap false⟩ := by
  unfold resting
  split
  · cases h _ rfl
  · rfl

/-- A word that is being read is ended before anything else begins. -/
theorem endWord_resting : (resting groups parts).endWord = ⟨parts, groups, .gap false⟩ := by
  unfold resting
  split
  · simp [endWord]
  · rfl

theorem endWord_ready : (ready groups parts spaced).endWord = ⟨parts, groups, .gap spaced⟩ := by
  cases spaced with
  | true => rfl
  | false => exact endWord_resting

theorem resting_isOutside : (resting groups parts).IsOutside := by
  unfold resting
  split <;> simp [IsOutside]

theorem ready_isOutside : (ready groups parts spaced).IsOutside := by
  cases spaced with
  | true => simp [ready, IsOutside]
  | false => exact resting_isOutside

/-- Outside of brackets a step is one of those. -/
theorem step_of_isOutside {r : Reader} (h : r.IsOutside) (offset : Nat) (c : Char)
    (next? : Option Char) : r.step offset c next? = r.stepOutside offset c next? := by
  unfold step
  split
  · rename_i hreading
    exact absurd hreading (h _ _ _ _)
  · rfl

/-- A plain character after a gap begins a word. -/
theorem stepOutside_gap {c : Char} {next? : Option Char} (h : IsPlain c next?) (offset : Nat) :
    stepOutside ⟨parts, groups, .gap spaced⟩ offset c next? =
      .ok ⟨parts, groups, .word [c] spaced⟩ := by
  unfold stepOutside
  rw [if_neg (by simp [h.not_blank]), if_neg h.ne_close, if_neg h.ne_open,
    if_neg fun hopens => h.not_opens (opens_iff.1 hopens)]
  rfl

/-- A plain character after another one goes on with the word. -/
theorem stepOutside_word {c : Char} {next? : Option Char} (h : IsPlain c next?) (offset : Nat)
    (chars : List Char) :
    stepOutside ⟨parts, groups, .word chars spaced⟩ offset c next? =
      .ok ⟨parts, groups, .word (c :: chars) spaced⟩ := by
  unfold stepOutside
  rw [if_neg (by simp [h.not_blank]), if_neg h.ne_close, if_neg h.ne_open,
    if_neg fun hopens => h.not_opens (opens_iff.1 hopens)]

theorem finish_resting (offset : Nat) : (resting [] parts).finish offset = .ok parts.reverse := by
  unfold finish
  split
  · rename_i hreading
    exact absurd hreading (resting_isOutside _ _ _ _)
  · rw [endWord_resting]
    rfl

/-- The space before a part. -/
theorem reads_space {rest : List Char} (h : (ready groups parts spaced).Reads rest nodes) :
    (resting groups parts).Reads (space spaced ++ rest) nodes := by
  cases spaced with
  | false => exact h
  | true =>
    refine .cons fun offset => ⟨ready groups parts true, ?_, h⟩
    have hblank : Text.isBlank ' ' = true := rfl
    rw [step_of_isOutside resting_isOutside, stepOutside, if_pos hblank, endWord_resting]
    rfl

/-- The rest of a word. -/
theorem reads_word_rest {text chars rest : List Char} (hrest : rest.head? ≠ some '$')
    (hliteral : text ≠ [] → IsLiteral text)
    (h : Reads ⟨parts, groups, .word (text.reverse ++ chars) spaced⟩ rest nodes) :
    Reads ⟨parts, groups, .word chars spaced⟩ (text ++ rest) nodes := by
  induction text generalizing chars with
  | nil => exact h
  | cons c text ih =>
    have hc := hliteral (List.cons_ne_nil c text)
    refine .cons fun offset => ⟨_, stepOutside_word (hc.isPlain hrest) offset chars, ?_⟩
    exact ih hc.tail (by simpa using h)

/-- A word after a part that it does not go on. -/
theorem reads_word {text : String} {rest : List Char} (hliteral : IsLiteral text.toList)
    (hrest : rest.head? ≠ some '$') (hparts : spaced = false → EndsOpen parts)
    (h : (resting groups (.word text spaced :: parts)).Reads rest nodes) :
    (ready groups parts spaced).Reads (text.toList ++ rest) nodes := by
  have hready : ready groups parts spaced = ⟨parts, groups, .gap spaced⟩ := by
    cases spaced with
    | true => rfl
    | false => exact resting_of_endsOpen (hparts rfl)
  rw [hready]
  rw [resting] at h
  cases htext : text.toList with
  | nil => exact absurd htext hliteral.ne_nil
  | cons c chars =>
    rw [htext] at hliteral h
    refine .cons fun offset => ⟨_, stepOutside_gap (hliteral.isPlain hrest) offset, ?_⟩
    exact reads_word_rest hrest hliteral.tail (by simpa using h)

/-- What is between the brackets of a reference. -/
theorem reads_inside {required : Bool} {inside chars rest : List Char} {start : Nat} {node : Node}
    (hfree : closing required ∉ inside)
    (hnode : referenceNode required spaced (chars.reverse ++ inside) = .ok node)
    (h : Reads ⟨node :: parts, groups, .gap false⟩ rest nodes) :
    Reads ⟨parts, groups, .reference required start chars spaced⟩
      (inside ++ closing required :: rest) nodes := by
  induction inside generalizing chars with
  | nil =>
    refine .cons fun offset => ⟨_, ?_, h⟩
    rw [List.append_nil] at hnode
    simp only [step, hnode]
    exact if_pos rfl
  | cons c inside ih =>
    rw [List.mem_cons, not_or] at hfree
    refine .cons fun offset => ⟨⟨parts, groups, .reference required start (c :: chars) spaced⟩, ?_,
      ih hfree.2 (by simpa using hnode)⟩
    exact if_neg (Ne.symm hfree.1)

/-- A bracket before a dollar sign begins a reference. -/
theorem stepOutside_opening (r : Reader) (offset : Nat) (required : Bool) :
    r.stepOutside offset (opening required) (some '$') =
      .ok { r.endWord with reading := .reference required offset [] r.endWord.spaced } := by
  cases required <;> rfl

/-- A reference. -/
theorem reads_reference {required : Bool} {inside rest : List Char} {node : Node}
    (hdollar : inside.head? = some '$') (hfree : closing required ∉ inside)
    (hnode : referenceNode required spaced inside = .ok node) (hword : node.isWord = false)
    (h : (resting groups (node :: parts)).Reads rest nodes) :
    (ready groups parts spaced).Reads (bracketed required inside ++ rest) nodes := by
  rw [resting_of_endsOpen (by rintro last hlast; cases hlast; exact hword)] at h
  refine .cons fun offset => ⟨⟨parts, groups, .reference required offset [] spaced⟩, ?_, ?_⟩
  · have hnext : (inside ++ [closing required] ++ rest).head? = some '$' := by
      rw [List.append_assoc, List.head?_append, hdollar, Option.some_or]
    rw [step_of_isOutside ready_isOutside]
    refine (congrArg _ hnext).trans ?_
    rw [stepOutside_opening, endWord_ready]
    rfl
  · simpa using reads_inside hfree hnode h

theorem stepOutside_groupStarts (r : Reader) (offset : Nat) (next? : Option Char) :
    r.stepOutside offset '\x7b' next? =
      .ok ⟨[], ⟨r.endWord.parts, r.endWord.spaced⟩ :: r.endWord.groups, .gap false⟩ := rfl

/-- A closing brace makes a group of the parts since the opening one. -/
theorem stepOutside_groupEnds {r : Reader} {outer : OpenGroup} {guard : String}
    (hgroups : r.endWord.groups = outer :: groups)
    (hfirst : firstKey? r.endWord.parts.reverse = some guard) (offset : Nat)
    (next? : Option Char) :
    r.stepOutside offset '\x7d' next? =
      .ok ⟨.group r.endWord.parts.reverse guard outer.spaced :: outer.before, groups,
        .gap false⟩ := by
  have hblank : ¬ Text.isBlank '\x7d' = true := by decide
  unfold stepOutside
  rw [if_neg hblank, if_pos rfl]
  dsimp only
  rw [hgroups]
  dsimp only
  rw [hfirst]

/-- A group, if its parts are read. -/
theorem reads_group {children : List Node} {guard : String} {rest : List Char}
    (hfirst : firstKey? children = some guard)
    (hchildren : (resting (⟨parts, spaced⟩ :: groups) children.reverse).Reads ('\x7d' :: rest)
      nodes → (resting (⟨parts, spaced⟩ :: groups) []).Reads
        (Template.print children ++ '\x7d' :: rest) nodes)
    (h : (resting groups (.group children guard spaced :: parts)).Reads rest nodes) :
    (ready groups parts spaced).Reads ('\x7b' :: Template.print children ++ ['\x7d'] ++ rest)
      nodes := by
  have hends : (resting (⟨parts, spaced⟩ :: groups) children.reverse).Reads ('\x7d' :: rest)
      nodes := by
    refine .cons fun offset => ⟨_, ?_, h⟩
    have hend : (resting (⟨parts, spaced⟩ :: groups) children.reverse).endWord =
        ⟨children.reverse, ⟨parts, spaced⟩ :: groups, .gap false⟩ := endWord_resting
    rw [step_of_isOutside resting_isOutside,
      stepOutside_groupEnds (by rw [hend]) (by rw [hend, List.reverse_reverse, hfirst]), hend,
      List.reverse_reverse]
    rfl
  rw [List.append_assoc]
  refine .cons fun offset => ⟨_, ?_, hchildren hends⟩
  rw [step_of_isOutside ready_isOutside, stepOutside_groupStarts, endWord_ready]
  rfl

end Reader

/-! ### Parts -/

open Reader (Reads resting ready)

/-- A part is read back after parts that it stands apart from, whatever follows it. -/
def Node.ReadsBack (node : Node) : Prop :=
  ∀ {groups : List OpenGroup} {parts nodes : List Node} {rest : List Char},
    (∀ last ∈ parts.head?, last.Apart node) → (node.isWord = true → rest.head? ≠ some '$') →
      (resting groups (node :: parts)).Reads rest nodes →
        (resting groups parts).Reads (node.print ++ rest) nodes

/-- What follows a word does not make a reference of its end. -/
theorem head?_print_ne {node next : Node} (hword : node.isWord = true) (h : node.Apart next)
    (rest : List Char) : (next.print ++ rest).head? ≠ some '$' := by
  cases next with
  | word text spaced =>
    cases h hword rfl
    simp [Node.print, space]
  | required key spaced | inline key spaced | series key separator required spaced
  | group children guard spaced =>
    cases spaced <;> simp [Node.print, space, bracketed, opening_ne_dollar]

/-- Parts are read back if each of them is. -/
theorem reads_print {children : List Node} (heach : ∀ node ∈ children, node.ReadsBack)
    (hapart : children.IsChain Node.Apart) {groups : List OpenGroup} {parts nodes : List Node}
    {rest : List Char} (hparts : ∀ last ∈ parts.head?, ∀ node ∈ children.head?, last.Apart node)
    (hrest : rest.head? ≠ some '$')
    (h : (resting groups (children.reverse ++ parts)).Reads rest nodes) :
    (resting groups parts).Reads (print children ++ rest) nodes := by
  induction children generalizing parts with
  | nil => exact h
  | cons node children ih =>
    rw [List.forall_mem_cons] at heach
    rw [List.isChain_cons] at hapart
    rw [print, List.append_assoc]
    refine heach.1 (fun last hlast => hparts last hlast node rfl) (fun hword => ?_) ?_
    · cases children with
      | nil => exact hrest
      | cons next children =>
        rw [print, List.append_assoc]
        exact head?_print_ne hword (hapart.1 next rfl) _
    · refine ih heach.2 hapart.2 ?_ (by simpa using h)
      rintro last hlast next hnext
      cases hlast
      exact hapart.1 next hnext

/-- **A well-formed part is read back as it was printed**, groups included. -/
theorem Node.WellFormed.readsBack {node : Node} (h : node.WellFormed) : node.ReadsBack := by
  induction h with
  | @word text spaced literal =>
    intro groups parts nodes rest hparts hrest h
    rw [Node.print, List.append_assoc]
    refine Reader.reads_space (Reader.reads_word literal (hrest rfl) ?_ h)
    -- without a space before it, the word must not go on another one
    rintro rfl last hlast
    refine Bool.eq_false_iff.2 fun hword => ?_
    cases hparts last hlast hword rfl
  | @required key spaced isKey =>
    intro groups parts nodes rest _ _ h
    rw [Node.print, List.append_assoc]
    exact Reader.reads_space (Reader.reads_reference (head?_of_isKey isKey)
      (closing_not_mem_of_isKey isKey true) (referenceNode_key isKey true spaced) rfl h)
  | @inline key spaced isKey =>
    intro groups parts nodes rest _ _ h
    rw [Node.print, List.append_assoc]
    exact Reader.reads_space (Reader.reads_reference (head?_of_isKey isKey)
      (closing_not_mem_of_isKey isKey false) (referenceNode_key isKey false spaced) rfl h)
  | @series key separator required spaced isKey isSeparator =>
    intro groups parts nodes rest _ _ h
    have hdollar : (key.toList ++ separator.toList ++ ['.', '.', '.']).head? = some '$' := by
      rw [List.append_assoc, List.head?_append, head?_of_isKey isKey, Option.some_or]
    have hdots : closing required ∉ ['.', '.', '.'] := by
      cases required <;> decide
    have hfree : closing required ∉ key.toList ++ separator.toList ++ ['.', '.', '.'] := by
      simp only [List.mem_append, not_or]
      exact ⟨⟨closing_not_mem_of_isKey isKey required, isSeparator.closing_not_mem⟩, hdots⟩
    rw [Node.print, List.append_assoc]
    exact Reader.reads_space (Reader.reads_reference hdollar hfree
      (referenceNode_series isKey isSeparator spaced) rfl h)
  | @group children guard spaced each apart first ih =>
    intro groups parts nodes rest _ _ h
    rw [Node.print, List.append_assoc, List.append_assoc]
    refine Reader.reads_space ?_
    rw [← List.append_assoc]
    refine Reader.reads_group ((firstKey?_eq each).trans first) (fun hends => ?_) h
    refine reads_print ih apart (by simp) (by simp) ?_
    rwa [List.append_nil]

/-- Well-formed parts are read back from their text. -/
theorem parseNodes_print {nodes : List Node} (h : AllWellFormed nodes) :
    parseNodes (print nodes) = .ok nodes := by
  have hend : (resting [] (nodes.reverse ++ [])).Reads [] nodes := by
    intro offset
    rw [Reader.run, Reader.finish_resting, List.append_nil, List.reverse_reverse]
  have hreads := reads_print (fun node hnode => (h.each node hnode).readsBack) h.apart
    (by simp) (by simp) hend
  rw [List.append_nil] at hreads
  exact hreads 0

/-- Every part has a character that is not blank. -/
theorem Node.WellFormed.solid_print_ne_nil {node : Node} (h : node.WellFormed) :
    Text.solid node.print ≠ [] := by
  cases h with
  | word literal =>
    rw [Node.print, Text.solid_append, solid_space, List.nil_append,
      Text.solid_eq_self fun c hc => (literal.plain c hc).1]
    exact literal.ne_nil
  | required | inline | series =>
    rw [Node.print, Text.solid_append, solid_bracketed]
    simp [bracketed]
  | group =>
    rw [Node.print, Text.solid_append, Text.solid_append, Text.solid_cons_of_not_blank rfl]
    simp

/-- Reading a text that parts are well formed. -/
theorem parse_of_wellFormed {nodes : List Node} (h : WellFormed nodes) (name : String) :
    parse (print nodes) name = .ok ⟨name, String.ofList (print nodes), nodes⟩ := by
  have hblank : ¬ (print nodes).all Text.isBlank = true := by
    rw [← Text.solid_eq_nil_iff]
    cases nodes with
    | nil => exact absurd rfl h.ne_nil
    | cons node rest =>
      rw [print, Text.solid_append]
      intro hnil
      exact (h.each node List.mem_cons_self).solid_print_ne_nil (List.append_eq_nil_iff.1 hnil).1
  simp only [parse, if_neg hblank, parseNodes_print h.toAllWellFormed]

/-- A grammar that is read. -/
theorem parse_eq_ok {grammar : List Char} {name : String} {template : Template}
    (h : parse grammar name = .ok template) :
    ¬ grammar.all Text.isBlank = true ∧ parseNodes grammar = .ok template.nodes := by
  unfold parse at h
  dsimp only at h
  split at h
  · cases h
  · rename_i hblank
    split at h
    · rename_i nodes hnodes
      cases h
      exact ⟨hblank, hnodes⟩
    · cases h

/-- Nothing has been read at the start. -/
theorem Reader.start_sound (next? : Option Char) : Reader.start.Sound next? :=
  ⟨.nil, by simp [Reader.start], by simp [Reader.start, Reading.Sound, EndsOpen]⟩

/-- **Reading and printing are inverse.** The parts of a grammar are read back from their text,
their text is the grammar up to blanks, and they are well formed; and all well-formed parts are read
back. -/
theorem parse_print_inverse (name : String) :
    (∀ grammar template, parse grammar name = .ok template →
      parse (print template.nodes) name =
          .ok ⟨name, String.ofList (print template.nodes), template.nodes⟩ ∧
        Text.solid (print template.nodes) = Text.solid grammar ∧ WellFormed template.nodes) ∧
      ∀ nodes, WellFormed nodes →
        parse (print nodes) name = .ok ⟨name, String.ofList (print nodes), nodes⟩ := by
  refine ⟨fun grammar template hparse => ?_, fun nodes h => parse_of_wellFormed h name⟩
  obtain ⟨hblank, hnodes⟩ := parse_eq_ok hparse
  have hsolid : Text.solid (print template.nodes) = Text.solid grammar := Reader.run_print hnodes
  have hall : AllWellFormed template.nodes := Reader.run_wellFormed (Reader.start_sound _) hnodes
  have hne : template.nodes ≠ [] := by
    intro hnil
    rw [hnil] at hsolid
    exact hblank (Text.solid_eq_nil_iff.1 hsolid.symm)
  have hwell : WellFormed template.nodes := ⟨hall, hne⟩
  exact ⟨parse_of_wellFormed hwell name, hsolid, hwell⟩

/-- A grammar with every kind of part, with blanks of several kinds and without some that could
stand. -/
def updateGrammar : List Char :=
  ("  UPDATE[$only]<$table>\n SET <$set ,...>\x7bWHERE <$where>" ++
    "\x7b a<b[$tags AND  OR ... ]\x7d \x7d;").toList

/-- Its parts. -/
def updateNodes : List Node :=
  [.word "UPDATE" true, .inline "$only" false, .required "$table" false, .word "SET" true,
    .series "$set" ", " true true,
    .group
      [.word "WHERE" false, .required "$where" true,
        .group [.word "a<b" true, .series "$tags" " AND  OR " false false] "$tags" false]
      "$where" false,
    .word ";" false]

theorem parse_updateGrammar :
    parse updateGrammar "update" = .ok ⟨"update", String.ofList updateGrammar, updateNodes⟩ := rfl

/-- A grammar with all kinds of parts, which is not printed as it was written. -/
theorem parse_print_inverse_updateGrammar :
    parse updateGrammar "update" = .ok ⟨"update", String.ofList updateGrammar, updateNodes⟩ ∧
      print updateNodes =
        (" UPDATE[$only]<$table> SET <$set, ...>\x7bWHERE <$where>" ++
          "\x7b a<b[$tags AND  OR ...]\x7d\x7d;").toList ∧
      parse (print updateNodes) "update" =
        .ok ⟨"update", String.ofList (print updateNodes), updateNodes⟩ ∧
      Text.solid (print updateNodes) = Text.solid updateGrammar ∧ WellFormed updateNodes := by
  obtain ⟨hback, hsolid, hwell⟩ := (parse_print_inverse "update").1 _ _ parse_updateGrammar
  exact ⟨parse_updateGrammar, rfl, hback, hsolid, hwell⟩

end QueryTree.Template
