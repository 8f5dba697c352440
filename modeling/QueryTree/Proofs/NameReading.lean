import QueryTree.Identifier

/-!
# Reading quoted names back

A quoted name is read back segment by segment: a star by itself, or characters between marks, where
two marks stand for one.  Reading finds the end of the name by itself, so what follows cannot become
a part of it and no name can run over its own end.

* `QuoteStyle.readBody`, `QuoteStyle.readSegment` and `QuoteStyle.readName` read characters and
  return what they did not read.
* `QuoteStyle.readBody_double` : a doubled text is read up to its closing mark, whatever run of
  marks it ends with.
* **`QuoteStyle.readName_joinSegments`** : quoted segments with dots between them are read back.
* **`QuoteStyle.name_reads_back`** : which names can be quoted, that they are read back up to the
  end, and that different names are quoted differently.
-/

namespace QueryTree

/-- Splitting a text is splitting a list. -/
theorem Text.split_eq_splitOn (sep : Char) (cs : List Char) : split sep cs = cs.splitOn sep := by
  induction cs with
  | nil => rfl
  | cons c rest ih =>
    have hcons := List.splitOnP_cons_eq_if_modifyHead (p := (· == sep)) c rest
    rw [List.splitOn, hcons, ← List.splitOn, ← ih, split]
    by_cases hc : c = sep
    · simp [hc]
    · simp only [hc, beq_iff_eq, if_false]
      cases hrest : split sep rest with
      | nil => exact absurd hrest (split_ne_nil sep rest)
      | cons first others => rfl

namespace QuoteStyle

variable {mark : Char}

/-! ## Readers -/

/-- Read up to the closing mark; two marks stand for one.  `none` if there is no closing mark. -/
def readBody (mark : Char) : List Char → Option (List Char × List Char)
  | [] => none
  | [c] => if c = mark then some ([], []) else none
  | c :: next :: rest =>
    if c = mark then
      if next = mark then (readBody mark rest).map fun (body, left) => (mark :: body, left)
      else some ([], next :: rest)
    else (readBody mark (next :: rest)).map fun (body, left) => (c :: body, left)

/-- Read a star, or the characters between two marks. -/
def readSegment (mark : Char) : List Char → Option (List Char × List Char)
  | [] => none
  | c :: rest =>
    if c = '*' then some (['*'], rest)
    else if c = mark then readBody mark rest
    else none

/-- Reading a quoted body uses up at least its closing mark. -/
theorem length_readBody {cs body left : List Char} (h : readBody mark cs = some (body, left)) :
    left.length < cs.length := by
  fun_induction readBody mark cs generalizing body with
  | case1 => cases h
  | case2 =>
    cases h
    exact Nat.one_pos
  | case3 c hc => cases h
  | case4 rest ih =>
    obtain ⟨⟨body', left'⟩, hread, heq⟩ := Option.map_eq_some_iff.1 h
    cases heq
    have := ih hread
    simp only [List.length_cons]
    omega
  | case5 next rest hnext =>
    cases h
    exact Nat.lt_succ_self _
  | case6 c next rest hc ih =>
    obtain ⟨⟨body', left'⟩, hread, heq⟩ := Option.map_eq_some_iff.1 h
    cases heq
    exact Nat.lt_succ_of_lt (ih hread)

theorem length_readSegment {cs body left : List Char}
    (h : readSegment mark cs = some (body, left)) : left.length < cs.length := by
  unfold readSegment at h
  split at h
  · cases h
  · split at h
    · cases h
      exact Nat.lt_succ_self _
    · split at h
      · exact Nat.lt_succ_of_lt (length_readBody h)
      · cases h

/-- Read segments as long as a dot follows. -/
def readName (mark : Char) (cs : List Char) : Option (List (List Char) × List Char) :=
  match _h : readSegment mark cs with
  | none => none
  | some (segment, '.' :: rest) =>
    (readName mark rest).map fun (segments, left) => (segment :: segments, left)
  | some (segment, left) => some ([segment], left)
termination_by cs.length
decreasing_by
  have := length_readSegment _h
  simp only [List.length_cons] at this
  omega

/-- A dot after a segment is followed by another one. -/
theorem readName_dot {cs segment rest : List Char}
    (h : readSegment mark cs = some (segment, '.' :: rest)) :
    readName mark cs =
      (readName mark rest).map fun (segments, left) => (segment :: segments, left) := by
  rw [readName]
  split
  · rename_i hread
    cases h.symm.trans hread
  · rename_i hread
    cases h.symm.trans hread
    rfl
  · rename_i hleft hread
    cases h.symm.trans hread
    exact absurd rfl (hleft rest)

/-- Without a dot the segment was the last one. -/
theorem readName_last {cs segment left : List Char} (h : readSegment mark cs = some (segment, left))
    (hleft : left.head? ≠ some '.') : readName mark cs = some ([segment], left) := by
  rw [readName]
  split
  · rename_i hread
    cases h.symm.trans hread
  · rename_i hread
    cases h.symm.trans hread
    exact absurd rfl hleft
  · rename_i hread
    cases h.symm.trans hread
    rfl

/-! ## What is read from quoted text -/

/-- A doubled text is read up to its closing mark. -/
theorem readBody_double (body : List Char) {rest : List Char} (hrest : rest.head? ≠ some mark) :
    readBody mark (double mark body ++ mark :: rest) = some (body, rest) := by
  induction body with
  | nil =>
    cases rest with
    | nil => simp [double, readBody]
    | cons next rest =>
      have hnext : next ≠ mark := by simpa using hrest
      simp [double, readBody, hnext]
  | cons c body ih =>
    by_cases hc : c = mark
    · subst hc
      simp only [double, if_true, List.cons_append, readBody, ih, Option.map_some]
    · -- what follows a character is never empty, as the closing mark comes last
      obtain ⟨next, tail, htail⟩ : ∃ next tail, double mark body ++ mark :: rest = next :: tail :=
        List.exists_cons_of_ne_nil (by simp)
      simp only [double, hc, if_false, List.cons_append, htail, readBody]
      rw [← htail, ih, Option.map_some]

variable {style : QuoteStyle}

/-- A segment is read back, unless another mark follows that would double the last one. -/
theorem readSegment_segmentChars (hstar : style.mark ≠ '*') (cs : List Char) {rest : List Char}
    (hrest : rest.head? ≠ some style.mark) :
    readSegment style.mark (style.segmentChars cs ++ rest) = some (cs, rest) := by
  unfold segmentChars
  split
  · rename_i hcs
    subst hcs
    rfl
  · simp only [List.cons_append, List.append_assoc, List.nil_append, readSegment, hstar, if_false,
      if_true]
    exact readBody_double cs hrest

/-- Quoted segments with dots between them are read back, up to where they end. -/
theorem readName_joinSegments (hstar : style.mark ≠ '*') (hdot : style.mark ≠ '.')
    {parts : List (List Char)} (hparts : parts ≠ []) {rest : List Char}
    (hmark : rest.head? ≠ some style.mark) (hrest : rest.head? ≠ some '.') :
    readName style.mark (style.joinSegments parts ++ rest) = some (parts, rest) := by
  induction parts with
  | nil => exact absurd rfl hparts
  | cons part others ih =>
    cases others with
    | nil =>
      rw [joinSegments, List.map_singleton, List.intercalate_singleton]
      exact readName_last (readSegment_segmentChars hstar part hmark) hrest
    | cons next others =>
      have hjoin : style.joinSegments (part :: next :: others) ++ rest =
          style.segmentChars part ++ '.' :: (style.joinSegments (next :: others) ++ rest) := by
        simp [joinSegments, List.intercalate_cons_cons]
      have hhead : ('.' :: (style.joinSegments (next :: others) ++ rest)).head? ≠
          some style.mark := by
        simpa using hdot.symm
      rw [hjoin, readName_dot (readSegment_segmentChars hstar part hhead),
        ih (List.cons_ne_nil next others), Option.map_some]

/-! ## Names -/

/-- The names that can be quoted, and how. -/
theorem name_eq_ok_iff {text quoted : String} :
    style.name text = .ok quoted ↔
      text ≠ "" ∧ [] ∉ text.toList.splitOn '.' ∧
        quoted = String.ofList (style.joinSegments (text.toList.splitOn '.')) := by
  have hempty : (segments text.toList).any List.isEmpty = true ↔ [] ∈ text.toList.splitOn '.' := by
    rw [segments, Text.split_eq_splitOn]
    simp [List.any_eq_true]
  unfold name
  simp only [String.isEmpty_iff]
  split
  · rename_i htext
    simp [htext]
  · rename_i htext
    split
    · rename_i hany
      simp [hempty.1 hany]
    · rename_i hany
      simp [htext, mt hempty.2 hany, segments, Text.split_eq_splitOn, eq_comm]

theorem readName_of_name (hstar : style.mark ≠ '*') (hdot : style.mark ≠ '.')
    {text quoted : String} (h : style.name text = .ok quoted) {rest : List Char}
    (hmark : rest.head? ≠ some style.mark) (hrest : rest.head? ≠ some '.') :
    readName style.mark (quoted.toList ++ rest) = some (text.toList.splitOn '.', rest) := by
  obtain ⟨_, _, rfl⟩ := name_eq_ok_iff.1 h
  rw [String.toList_ofList]
  exact readName_joinSegments hstar hdot (List.splitOnP_ne_nil _ _) hmark hrest

/-- Different names are quoted differently. -/
theorem name_injOn (hstar : style.mark ≠ '*') (hdot : style.mark ≠ '.')
    {text text' quoted : String} (h : style.name text = .ok quoted)
    (h' : style.name text' = .ok quoted) : text = text' := by
  have hread : ∀ {t}, style.name t = .ok quoted →
      readName style.mark (quoted.toList ++ []) = some (t.toList.splitOn '.', []) :=
    fun ht => readName_of_name hstar hdot ht (by simp) (by simp)
  have hsplit : text.toList.splitOn '.' = text'.toList.splitOn '.' := by
    simpa using (hread h).symm.trans (hread h')
  have hjoin := congrArg ['.'].intercalate hsplit
  rw [List.intercalate_splitOn, List.intercalate_splitOn] at hjoin
  exact String.toList_inj.1 hjoin

theorem readSegment_segment (hstar : style.mark ≠ '*') (text : String) {rest : List Char}
    (hrest : rest.head? ≠ some style.mark) :
    readSegment style.mark ((style.segment text).toList ++ rest) = some (text.toList, rest) := by
  rw [segment, String.toList_ofList]
  exact readSegment_segmentChars hstar text.toList hrest

theorem segment_injective (hstar : style.mark ≠ '*') {text text' : String}
    (h : style.segment text = style.segment text') : text = text' := by
  have hread : ∀ t, readSegment style.mark ((style.segment t).toList ++ []) = some (t.toList, []) :=
    fun t => readSegment_segment hstar t (by simp)
  have heq := (hread text).symm.trans (h ▸ hread text')
  exact String.toList_inj.1 (by simpa using heq)

/-- **A name can be quoted if it has no empty segment, and it is then read back up to the end of its
text, whatever follows.**  So different names have different texts, and so have different
segments. -/
theorem name_reads_back (hstyle : style ∈ [backtick, doubleQuote]) :
    (∀ text : String,
      (∃ quoted, style.name text = .ok quoted) ↔ text ≠ "" ∧ [] ∉ text.toList.splitOn '.') ∧
    (∀ text quoted rest : String, style.name text = .ok quoted →
      rest.toList.head? ≠ some style.mark → rest.toList.head? ≠ some '.' →
      readName style.mark (quoted ++ rest).toList =
        some (text.toList.splitOn '.', rest.toList)) ∧
    (∀ text text' quoted : String,
      style.name text = .ok quoted → style.name text' = .ok quoted → text = text') ∧
    (∀ text rest : String, rest.toList.head? ≠ some style.mark →
      readSegment style.mark (style.segment text ++ rest).toList =
        some (text.toList, rest.toList)) ∧
    style.segment "*" = "*" ∧ Function.Injective style.segment := by
  obtain ⟨hstar, hdot⟩ : style.mark ≠ '*' ∧ style.mark ≠ '.' := by
    simp only [List.mem_cons, List.not_mem_nil, or_false] at hstyle
    rcases hstyle with rfl | rfl
    · exact ⟨by decide, by decide⟩
    · exact ⟨by decide, by decide⟩
  refine ⟨fun text => ?_, fun text quoted rest h hmark hrest => ?_,
    fun _ _ _ => name_injOn hstar hdot, fun text rest hrest => ?_, rfl,
    fun _ _ => segment_injective hstar⟩
  · simp only [name_eq_ok_iff, exists_and_left, exists_eq, and_true]
  · rw [String.toList_append]
    exact readName_of_name hstar hdot h hmark hrest
  · rw [String.toList_append]
    exact readSegment_segment hstar text hrest

/-- A name with runs of marks at the ends of its segments, before a text that opens with a blank. -/
theorem doubleQuote_name_reads_back :
    doubleQuote ∈ [backtick, doubleQuote] ∧
      doubleQuote.name "a\"\".*.\"" = .ok "\"a\"\"\"\"\".*.\"\"\"\"" ∧
      readName '"' ("\"a\"\"\"\"\".*.\"\"\"\"" ++ " \".").toList =
        some ([['a', '"', '"'], ['*'], ['"']], [' ', '"', '.']) := by
  have hstyle : doubleQuote ∈ [backtick, doubleQuote] := by simp
  have hname : doubleQuote.name "a\"\".*.\"" = .ok "\"a\"\"\"\"\".*.\"\"\"\"" := rfl
  exact ⟨hstyle, hname,
    (name_reads_back hstyle).2.1 _ _ " \"." hname (by decide) (by decide)⟩

end QuoteStyle

end QueryTree
