import QueryTree.Proofs.Confinement
import QueryTree.Proofs.MissingNames

/-!
# The surface of a text

What stands outside of quotes and outside of parentheses decides how a text is cut into its parts.
A text whose quotes and parentheses match adds its surface to that of what stands around it, and
adds nothing inside parentheses.

* `Sql.surface` are the characters outside of quotes and parentheses.
* `Sql.IsSingle` : a text that is one operand, without a comma or a space on its surface.
* `Sql.Closed` : a text whose quotes and parentheses match; **`Clause.closed`** : every clause.
* **`IsSingle.enclosed`** : a word and a text in parentheses are one operand.
* **`length_items_commaList_eq_iff`** : a list has as many items as texts exactly if no text has a
  comma on its surface.
-/

namespace QueryTree

namespace Sql

/-- The characters outside of quotes and parentheses, from a place that is in quotes or not and at
some depth of parentheses. -/
def surfaceFrom (mark : Char) : Bool → Nat → List Char → List Char
  | _, _, [] => []
  | quoted, depth, c :: rest =>
    if c = mark then surfaceFrom mark (!quoted) depth rest
    else if quoted then surfaceFrom mark true depth rest
    else if c = '(' then surfaceFrom mark false (depth + 1) rest
    else if c = ')' then surfaceFrom mark false (depth - 1) rest
    else if depth = 0 then c :: surfaceFrom mark false 0 rest
    else surfaceFrom mark false depth rest

/-- The characters of a text outside of quotes and parentheses. -/
def surface (mark : Char) (text : String) : List Char :=
  surfaceFrom mark false 0 text.toList

/-- The text is one operand: it is not empty, and neither a comma nor a space stands outside of its
quotes and parentheses. -/
structure IsSingle (mark : Char) (text : String) : Prop where
  nonempty : text ≠ ""
  undivided : ∀ c ∈ surface mark text, c ≠ ',' ∧ c ≠ ' '

theorem IsSingle.comma_not_mem {mark : Char} {text : String} (h : IsSingle mark text) :
    ',' ∉ surface mark text :=
  fun hmem => (h.undivided _ hmem).1 rfl

instance (mark : Char) : DecidablePred (IsSingle mark) := fun text =>
  decidable_of_iff
    (text ≠ "" ∧ (surface mark text).all (fun c => c != ',' && c != ' ') = true)
    ⟨fun h => ⟨h.1, by simpa using h.2⟩, fun h => ⟨h.nonempty, by simpa using h.undivided⟩⟩

variable {mark : Char}

/-! ## Tokens -/

/-- Characters that neither quote nor enclose. -/
theorem surfaceFrom_plain {cs : List Char} (h : ∀ c ∈ cs, c ≠ mark ∧ c ≠ '(' ∧ c ≠ ')')
    (depth : Nat) (rest : List Char) :
    surfaceFrom mark false depth (cs ++ rest) =
      (if depth = 0 then cs else []) ++ surfaceFrom mark false depth rest := by
  induction cs with
  | nil => simp
  | cons c cs ih =>
    obtain ⟨⟨hmark, hopen, hclose⟩, hcs⟩ := List.forall_mem_cons.1 h
    simp only [List.cons_append, surfaceFrom, hmark, hopen, hclose, if_false, Bool.false_eq_true]
    by_cases hdepth : depth = 0
    · subst hdepth
      simpa using ih hcs
    · simpa [hdepth] using ih hcs

/-- A quoted name after its first mark. -/
theorem surfaceFrom_double (cs : List Char) (depth : Nat) (rest : List Char) :
    surfaceFrom mark true depth (QuoteStyle.double mark cs ++ mark :: rest) =
      surfaceFrom mark false depth rest := by
  induction cs with
  | nil => simp [QuoteStyle.double, surfaceFrom]
  | cons c cs ih =>
    unfold QuoteStyle.double
    split
    · rename_i hc
      subst hc
      simpa [surfaceFrom] using ih
    · rename_i hc
      simpa [surfaceFrom, hc] using ih

namespace Token

/-- The characters of a token outside of quotes and besides parentheses. -/
def bare : Token → List Char
  | .quoted _ => []
  | .word text => text
  | .slot digits => '$' :: digits
  | .symbol c => if c = '(' ∨ c = ')' then [] else [c]

/-- A comma and a space are tokens by themselves. -/
theorem eq_symbol_of_mem_bare {t : Token} (ht : t.isProper = true) {c : Char}
    (hword : isWordChar c = false) (hc : c ∈ t.bare) : t = .symbol c := by
  cases t with
  | quoted body => cases hc
  | word text | slot digits =>
    have hchar := isWordChar_of_mem_outside ht (by simp) c hc
    rw [hword] at hchar
    cases hchar
  | symbol c' =>
    rw [bare] at hc
    split at hc
    · cases hc
    · rw [List.mem_singleton.1 hc]

/-- A token adds its characters where no parenthesis is open. -/
theorem surfaceFrom_write (hmark : IsMark mark) {t : Token} (ht : t.isProper = true)
    {depth depth' : Nat} (hnest : nest depth [t] = some depth') (rest : List Char) :
    surfaceFrom mark false depth (t.write mark ++ rest) =
      (if depth = 0 then t.bare else []) ++ surfaceFrom mark false depth' rest := by
  have hword : ∀ c, isWordChar c = true → c ≠ mark ∧ c ≠ '(' ∧ c ≠ ')' := by
    intro c hc
    refine ⟨?_, ?_, ?_⟩
    · rintro rfl
      rw [hmark.wordChar] at hc
      cases hc
    · rintro rfl
      exact absurd hc (by decide)
    · rintro rfl
      exact absurd hc (by decide)
  cases t with
  | quoted body =>
    cases hnest
    simpa [write, bare, surfaceFrom] using surfaceFrom_double body depth rest
  | word text =>
    cases hnest
    exact surfaceFrom_plain
      (fun c hc => hword c (isWordChar_of_mem_outside ht (by simp) c hc)) depth rest
  | slot digits =>
    cases hnest
    exact surfaceFrom_plain
      (fun c hc => hword c (isWordChar_of_mem_outside ht (by simp) c hc)) depth rest
  | symbol c =>
    have hc : c ≠ mark := hmark.plain ht
    by_cases hopen : c = '('
    · subst hopen
      cases hnest
      simp [write, bare, surfaceFrom, hc]
    · by_cases hclose : c = ')'
      · subst hclose
        cases depth with
        | zero => cases hnest
        | succ depth =>
          cases hnest
          simp [write, surfaceFrom, hc]
      · have hdepth : depth = depth' := by simpa [nest, hopen, hclose] using hnest
        subst hdepth
        simpa [write, bare, hopen, hclose] using
          @surfaceFrom_plain mark [c] (by simp [hc, hopen, hclose]) depth rest

end Token

/-! ## Closed texts -/

/-- A text whose quotes and parentheses match: it adds its surface to that of what follows, and adds
nothing inside parentheses. -/
structure Closed (mark : Char) (text : String) : Prop where
  around : ∀ rest, surfaceFrom mark false 0 (text.toList ++ rest) =
    surface mark text ++ surfaceFrom mark false 0 rest
  inside : ∀ rest, surfaceFrom mark false 1 (text.toList ++ rest) = surfaceFrom mark false 1 rest

section

variable {ts : List Token} {depth depth' : Nat}

/-- The first of several tokens. -/
theorem nest_cons {t : Token} (h : nest depth (t :: ts) = some depth') :
    ∃ between, nest depth [t] = some between ∧ nest between ts = some depth' := by
  have happend := nest_append depth [t] ts
  rw [List.singleton_append, h] at happend
  exact Option.bind_eq_some_iff.1 happend.symm

theorem surfaceFrom_write_append (hmark : IsMark mark) (hts : ∀ t ∈ ts, t.isProper = true)
    (hnest : nest depth ts = some depth') (rest : List Char) :
    surfaceFrom mark false depth (write mark ts ++ rest) =
      surfaceFrom mark false depth (write mark ts) ++ surfaceFrom mark false depth' rest := by
  induction ts generalizing depth with
  | nil =>
    cases hnest
    rfl
  | cons t ts ih =>
    obtain ⟨ht, hothers⟩ := List.forall_mem_cons.1 hts
    obtain ⟨between, hfirst, hrest⟩ := nest_cons hnest
    have hwrite : write mark (t :: ts) = t.write mark ++ write mark ts := List.flatMap_cons
    rw [hwrite, List.append_assoc, Token.surfaceFrom_write hmark ht hfirst, ih hothers hrest,
      Token.surfaceFrom_write hmark ht hfirst, List.append_assoc]

/-- Inside parentheses tokens add nothing. -/
theorem surfaceFrom_write_inside (hmark : IsMark mark) (hts : ∀ t ∈ ts, t.isProper = true)
    (hnest : nest depth ts = some depth') (rest : List Char) :
    surfaceFrom mark false (depth + 1) (write mark ts ++ rest) =
      surfaceFrom mark false (depth' + 1) rest := by
  induction ts generalizing depth with
  | nil =>
    cases hnest
    rfl
  | cons t ts ih =>
    obtain ⟨ht, hothers⟩ := List.forall_mem_cons.1 hts
    obtain ⟨between, hfirst, hrest⟩ := nest_cons hnest
    have hwrite : write mark (t :: ts) = t.write mark ++ write mark ts := List.flatMap_cons
    rw [hwrite, List.append_assoc, Token.surfaceFrom_write hmark ht (nest_add hfirst 1),
      if_neg (Nat.succ_ne_zero depth), List.nil_append, ih hothers hrest]

/-- What is on the surface stands in one of the tokens. -/
theorem exists_mem_bare (hmark : IsMark mark) (hts : ∀ t ∈ ts, t.isProper = true)
    (hnest : nest depth ts = some depth') {c : Char}
    (hc : c ∈ surfaceFrom mark false depth (write mark ts)) : ∃ t ∈ ts, c ∈ t.bare := by
  induction ts generalizing depth with
  | nil => cases hc
  | cons t ts ih =>
    obtain ⟨ht, hothers⟩ := List.forall_mem_cons.1 hts
    obtain ⟨between, hfirst, hrest⟩ := nest_cons hnest
    have hwrite : write mark (t :: ts) = t.write mark ++ write mark ts := List.flatMap_cons
    rw [hwrite, Token.surfaceFrom_write hmark ht hfirst] at hc
    rcases List.mem_append.1 hc with hc | hc
    · split at hc
      · exact ⟨t, List.mem_cons_self, hc⟩
      · cases hc
    · obtain ⟨u, hu, hcu⟩ := ih hothers hrest hc
      exact ⟨u, List.mem_cons_of_mem _ hu, hcu⟩

end

section

variable {S : Scheme} {F : List Value} {n k : Nat} {text : String} {ts : List Token}
  {vs : List Value}

theorem Spelling.closed (h : Spelling S n text ts k) : Closed S.mark text where
  around rest := by
    rw [surface, h.written]
    exact surfaceFrom_write_append S.isMark h.phrase.proper.all (h.phrase.balanced 0) rest
  inside rest := by
    rw [h.written]
    exact surfaceFrom_write_inside S.isMark h.phrase.proper.all (h.phrase.balanced 0) rest

/-- The quotes and parentheses of a clause match. -/
theorem Clause.closed (h : Clause S F n text vs) : Closed S.mark text := by
  obtain ⟨ts, hts⟩ := h.spelling
  exact hts.closed

/-- A text without a comma and a space among its tokens is one operand. -/
theorem Spelling.isSingle (h : Spelling S n text ts k) (hne : ts ≠ [])
    (hts : ∀ t ∈ ts, t ≠ .symbol ',' ∧ t ≠ .symbol ' ') : IsSingle S.mark text where
  nonempty := by
    rintro rfl
    exact hne h.lex_eq.symm
  undivided c hc := by
    rw [surface, h.written] at hc
    obtain ⟨t, ht, hbare⟩ :=
      exists_mem_bare S.isMark h.phrase.proper.all (h.phrase.balanced 0) hc
    constructor
    · rintro rfl
      exact (hts t ht).1
        (Token.eq_symbol_of_mem_bare (h.phrase.proper.all t ht) (by decide) hbare)
    · rintro rfl
      exact (hts t ht).2
        (Token.eq_symbol_of_mem_bare (h.phrase.proper.all t ht) (by decide) hbare)

end

/-! ## Texts in parentheses -/

/-- A text without quotes and parentheses is closed. -/
theorem closed_of_all {text : String} (h : ∀ c ∈ text.toList, c ≠ mark ∧ c ≠ '(' ∧ c ≠ ')') :
    Closed mark text where
  around rest := by
    have hself := surfaceFrom_plain h 0 []
    rw [List.append_nil] at hself
    rw [surfaceFrom_plain h, surface, hself, if_pos rfl, surfaceFrom, List.append_nil]
  inside rest := by rw [surfaceFrom_plain h, if_neg Nat.one_ne_zero, List.nil_append]

theorem Closed.append {a b : String} (ha : Closed mark a) (hb : Closed mark b) :
    Closed mark (a ++ b) where
  around rest := by
    rw [surface, String.toList_append, List.append_assoc, ha.around, ha.around, hb.around,
      List.append_assoc]
    rfl
  inside rest := by rw [String.toList_append, List.append_assoc, ha.inside, hb.inside]

/-- Closed texts with commas between them are closed. -/
theorem Closed.commaList (hmark : IsMark mark) {parts : List String}
    (hparts : ∀ part ∈ parts, Closed mark part) : Closed mark (commaList parts) := by
  have hcomma : ',' ≠ mark := hmark.plain rfl
  have hspace : ' ' ≠ mark := hmark.plain rfl
  have hbetween : Closed mark ", " := closed_of_all (by simp [hcomma, hspace])
  induction parts with
  | nil => exact closed_of_all (by simp [QueryTree.commaList])
  | cons first rest ih =>
    obtain ⟨hfirst, hrest⟩ := List.forall_mem_cons.1 hparts
    cases rest with
    | nil => rwa [QueryTree.commaList, String.intercalate_singleton]
    | cons second others =>
      rw [QueryTree.commaList, String.intercalate_cons_cons]
      exact (hfirst.append hbetween).append (ih hrest)

/-- A word and a text in parentheses are one operand. -/
theorem IsSingle.enclosed (hmark : IsMark mark) (word : String)
    (hword : ∀ c ∈ word.toList, isWordStart c = true) {text : String} (htext : Closed mark text) :
    IsSingle mark (word ++ "(" ++ text ++ ")") where
  nonempty := by simp
  undivided := by
    have hplain : ∀ c ∈ word.toList, c ≠ mark ∧ c ≠ '(' ∧ c ≠ ')' := by
      intro c hc
      refine ⟨hmark.wordStart (hword c hc), ?_, ?_⟩
      · rintro rfl
        exact absurd (hword _ hc) (by decide)
      · rintro rfl
        exact absurd (hword _ hc) (by decide)
    have hopen : '(' ≠ mark := hmark.plain rfl
    have hclose : ')' ≠ mark := hmark.plain rfl
    have hsurface : surface mark (word ++ "(" ++ text ++ ")") = word.toList := by
      have htoList : (word ++ "(" ++ text ++ ")").toList =
          word.toList ++ '(' :: (text.toList ++ [')']) := by simp
      rw [surface, htoList, surfaceFrom_plain hplain]
      simp [surfaceFrom, hopen, hclose, htext.inside]
    intro c hc
    rw [hsurface] at hc
    constructor
    · rintro rfl
      exact absurd (hword _ hc) (by decide)
    · rintro rfl
      exact absurd (hword _ hc) (by decide)

/-- A text in parentheses is one operand. -/
theorem IsSingle.parenthesized (hmark : IsMark mark) {text : String} (htext : Closed mark text) :
    IsSingle mark ("(" ++ text ++ ")") := by
  simpa using IsSingle.enclosed hmark "" (by simp) htext

/-! ## Items of a list -/

/-- Items end at the commas of the surface. -/
theorem length_itemsFrom (quoted : Bool) (depth : Nat) (item cs : List Char) :
    (itemsFrom mark quoted depth item cs).length =
      (surfaceFrom mark quoted depth cs).count ',' + 1 := by
  induction cs generalizing quoted depth item with
  | nil => rfl
  | cons c rest ih =>
    unfold itemsFrom surfaceFrom
    by_cases hc : c = mark
    · simpa only [hc, if_true] using ih _ _ _
    cases quoted with
    | true => simpa only [hc, if_false, if_true] using ih _ _ _
    | false =>
      simp only [hc, if_false, Bool.false_eq_true]
      by_cases hitem : c = ',' ∧ depth = 0
      · obtain ⟨rfl, rfl⟩ := hitem
        simpa using ih false 0 []
      · by_cases hopen : c = '('
        · subst hopen
          simpa using ih false (depth + 1) _
        · by_cases hclose : c = ')'
          · subst hclose
            simpa using ih false (depth - 1) _
          · by_cases hdepth : depth = 0
            · subst hdepth
              have hne : c ≠ ',' := fun h => hitem ⟨h, rfl⟩
              simpa [hopen, hclose, hne] using ih false 0 _
            · simpa [hopen, hclose, hdepth] using ih false depth _

/-- The commas between the texts are all commas exactly if no text has one. -/
theorem count_surface_commaList (hmark : IsMark mark) {parts : List String} (hne : parts ≠ [])
    (hparts : ∀ part ∈ parts, Closed mark part) :
    parts.length ≤ (surface mark (commaList parts)).count ',' + 1 ∧
      ((surface mark (commaList parts)).count ',' + 1 = parts.length ↔
        ∀ part ∈ parts, ',' ∉ surface mark part) := by
  have hcomma : ',' ≠ mark := hmark.plain rfl
  have hspace : ' ' ≠ mark := hmark.plain rfl
  induction parts with
  | nil => exact absurd rfl hne
  | cons first rest ih =>
    obtain ⟨hfirst, hrest⟩ := List.forall_mem_cons.1 hparts
    cases rest with
    | nil => simp [commaList, List.count_eq_zero]
    | cons second others =>
      have hsurface : surface mark (commaList (first :: second :: others)) =
          surface mark first ++ ',' :: ' ' :: surface mark (commaList (second :: others)) := by
        rw [surface, toList_commaList_cons, hfirst.around]
        simp [surfaceFrom, hcomma, hspace, surface]
      have hskip : (' ' :: surface mark (commaList (second :: others))).count ',' =
          (surface mark (commaList (second :: others))).count ',' :=
        List.count_cons_of_ne (by decide)
      obtain ⟨hle, hiff⟩ := ih (by simp) hrest
      rw [hsurface, List.count_append, List.count_cons_self, hskip, List.length_cons,
        List.forall_mem_cons, ← hiff, ← List.count_eq_zero]
      omega

/-- A list has as many items as texts exactly if none of the texts has a comma on its surface. -/
theorem length_items_commaList_eq_iff (hmark : IsMark mark) {parts : List String}
    (hne : parts ≠ []) (hparts : ∀ part ∈ parts, Closed mark part) :
    (items mark (commaList parts)).length = parts.length ↔
      ∀ part ∈ parts, ',' ∉ surface mark part := by
  rw [items, length_itemsFrom]
  exact (count_surface_commaList hmark hne hparts).2

end Sql

end QueryTree
