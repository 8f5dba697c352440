import QueryTree.Dialect.Basic
import QueryTree.Proofs.Tokens

/-!
# Phrases of a statement

A statement is put together from texts that are each well formed on their own.  What "well formed"
means, and which ways of putting texts together keep it, is said here once and for all operators.

* `Sql.Scheme` is a style of quoting with a style of placeholders.
* `Sql.Phrase` : tokens that can be read back, whose parentheses match, and whose placeholders are
  the next ones in order.
* `Sql.IsKeyword`, `Sql.Separates` and `Sql.Encloses` are checks of the fixed texts that stand
  alone, between two others and around another one.
* `Sql.Spelling` : a text that is written with the tokens of a phrase.
* **`Spelling.sep`**, **`Spelling.enclose`**, **`Spelling.glue`** : putting texts together; `lead`
  and `trail` put fixed words before and after a text.
* **`Sql.Clause`** : a text that has a spelling with as many placeholders as there are values, the
  values being taken from a list of admissible ones.  Clauses are put together as their texts are.
* `Sql.Clauses` are the clauses of a list in a row; `Clauses.join` puts a separator between them.
-/

namespace QueryTree.Sql

/-! ## Schemes -/

/-- A mark for quoting and the tokens of the placeholders. -/
structure Scheme where
  mark : Char
  isMark : IsMark mark
  text : Placeholder
  token : Nat → Token
  written : ∀ n, (text n).toList = (token n).write mark
  isProper : ∀ n, (token n).isProper = true
  isPlaceholder : ∀ n, (token n).isPlaceholder = true
  level : ∀ n depth, nest depth [token n] = some depth

/-- Question marks. -/
def Scheme.question (mark : Char) (isMark : IsMark mark) : Scheme where
  mark := mark
  isMark := isMark
  text := .question
  token _ := .symbol '?'
  written _ := by simp [Placeholder.question, Token.write]
  isProper _ := rfl
  isPlaceholder _ := rfl
  level _ _ := rfl

/-- Dollar signs with the number of the placeholder. -/
def Scheme.numbered (mark : Char) (isMark : IsMark mark) : Scheme where
  mark := mark
  isMark := isMark
  text := .numbered
  token n := .slot (Nat.toDigits 10 n)
  written n := by
    simp [Placeholder.numbered, Token.write]
  isProper n := by
    simp only [Token.isProper, Bool.and_eq_true, Bool.not_eq_true', List.isEmpty_eq_false_iff,
      List.all_eq_true]
    exact ⟨Nat.toDigits_ne_nil, fun c hc => Nat.isDigit_of_mem_toDigits (by decide) (by decide) hc⟩
  isPlaceholder n := by
    simp [Token.isPlaceholder, Nat.toDigits_ne_nil]
  level _ _ := rfl

/-! ## Tokens in a row -/

/-- A character that stands for itself and ends a word or a number. -/
def isBreak (c : Char) : Bool :=
  isPlain c && !isWordChar c

/-- A symbol that ends a word or a number. -/
def Token.isBreak : Token → Bool
  | .symbol c => Sql.isBreak c
  | _ => false

theorem Token.apart_of_isBreak_right {t t' : Token} (h : t'.isBreak = true) :
    t.apart t' = true := by
  cases t' with
  | symbol c =>
    simp only [isBreak, Sql.isBreak, Bool.and_eq_true, Bool.not_eq_true'] at h
    cases t with
    | word text => simp [apart, h.2]
    | slot digits =>
      simp only [isWordChar, Char.isAlphanum, Bool.or_eq_false_iff] at h
      simp [apart, h.2.1.1.1.2]
    | quoted body => rfl
    | symbol c' => rfl
  | quoted body => cases h
  | word text => cases h
  | slot digits => cases h

theorem Token.apart_of_isBreak_left {t t' : Token} (h : t.isBreak = true) : t.apart t' = true := by
  cases t with
  | symbol c => cases t' <;> rfl
  | quoted body => cases h
  | word text => cases h
  | slot digits => cases h

/-- Only a symbol starts with a character that stands for itself. -/
theorem Token.eq_symbol_of_head? {mark : Char} (hmark : IsMark mark) {t : Token}
    (ht : t.isProper = true) {c : Char} (hc : c ∈ (t.write mark).head?)
    (hplain : isPlain c = true) : t = .symbol c := by
  obtain ⟨hstart, hdollar⟩ := not_wordStart_of_isPlain hplain
  rcases head?_write_cases ht hc with ⟨body, rfl, rfl⟩ | ⟨text, rfl, hword⟩ |
    ⟨digits, rfl, rfl⟩ | ⟨rfl, -⟩
  · exact absurd rfl (hmark.plain hplain)
  · rw [hstart] at hword
    cases hword
  · exact absurd rfl hdollar
  · rfl

/-- Proper tokens that stand apart where they meet. -/
theorem Proper.append {ts us : List Token} (hts : Proper ts) (hus : Proper us)
    (hmeet : ∀ t ∈ ts.getLast?, ∀ u ∈ us.head?, t.apart u = true) : Proper (ts ++ us) where
  all t ht := (List.mem_append.1 ht).elim (hts.all t) (hus.all t)
  chain := List.isChain_append.2 ⟨hts.chain, hus.chain, hmeet⟩

theorem write_append (mark : Char) (ts us : List Token) :
    write mark (ts ++ us) = write mark ts ++ write mark us :=
  List.flatMap_append

theorem placeholders_append (ts us : List Token) :
    placeholders (ts ++ us) = placeholders ts ++ placeholders us :=
  List.filter_append ..

theorem nest_append (depth : Nat) (ts us : List Token) :
    nest depth (ts ++ us) = (nest depth ts).bind (nest · us) := by
  fun_induction nest depth ts with
  | case1 depth => rfl
  | case2 depth rest ih => simpa [nest] using ih
  | case3 rest => simp [nest]
  | case4 rest _ depth ih => simpa [nest] using ih
  | case5 depth c rest hopen hclose ih => simpa [nest, hopen, hclose] using ih
  | case6 depth t rest hsymbol ih =>
    cases t with
    | symbol c => exact absurd rfl (hsymbol c)
    | quoted body => simpa [nest] using ih
    | word text => simpa [nest] using ih
    | slot digits => simpa [nest] using ih

/-- Counting from a greater depth. -/
theorem nest_add {depth depth' : Nat} {ts : List Token} (h : nest depth ts = some depth')
    (more : Nat) : nest (depth + more) ts = some (depth' + more) := by
  fun_induction nest depth ts with
  | case1 depth =>
    cases h
    rfl
  | case2 depth rest ih =>
    have := ih h
    rwa [Nat.add_right_comm] at this
  | case3 rest => cases h
  | case4 rest _ depth ih =>
    have := ih h
    rw [Nat.succ_add]
    simpa [nest] using this
  | case5 depth c rest hopen hclose ih => simpa [nest, hopen, hclose] using ih h
  | case6 depth t rest hsymbol ih =>
    cases t with
    | symbol c => exact absurd rfl (hsymbol c)
    | quoted body => exact ih h
    | word text => exact ih h
    | slot digits => exact ih h

/-! ## Phrases -/

/-- Tokens whose placeholders are the `k` that follow the first `n`. -/
structure Phrase (S : Scheme) (n : Nat) (ts : List Token) (k : Nat) : Prop where
  proper : Proper ts
  balanced : ∀ depth, nest depth ts = some depth
  slots : placeholders ts = (List.range' (n + 1) k).map S.token

namespace Phrase

variable {S : Scheme} {n k k' : Nat} {ts us : List Token}

theorem append (hts : Phrase S n ts k) (hus : Phrase S (n + k) us k')
    (hmeet : ∀ t ∈ ts.getLast?, ∀ u ∈ us.head?, t.apart u = true) :
    Phrase S n (ts ++ us) (k + k') where
  proper := hts.proper.append hus.proper hmeet
  balanced depth := by
    rw [nest_append, hts.balanced, Option.bind_some, hus.balanced]
  slots := by
    rw [placeholders_append, hts.slots, hus.slots, ← List.map_append, Nat.add_right_comm,
      List.range'_append_1]

/-- A phrase between tokens that are balanced together and without placeholders. -/
theorem enclose {before after : List Token} (h : Phrase S n ts k) (hbefore : Proper before)
    (hafter : Proper after) (hopen : nest 0 before = some 1) (hclose : nest 1 after = some 0)
    (hnone : placeholders before = [] ∧ placeholders after = [])
    (hlast : ∀ t ∈ before.getLast?, t.isBreak = true)
    (hhead : ∀ t ∈ after.head?, t.isBreak = true) : Phrase S n (before ++ ts ++ after) k where
  proper :=
    (hbefore.append h.proper fun t ht _ _ => Token.apart_of_isBreak_left (hlast t ht)).append hafter
      fun _ _ u hu => Token.apart_of_isBreak_right (hhead u hu)
  balanced depth := by
    have hopen' := nest_add hopen depth
    have hclose' := nest_add hclose depth
    rw [Nat.zero_add] at hopen' hclose'
    rw [nest_append, nest_append, hopen', Option.bind_some, h.balanced, Option.bind_some, hclose']
  slots := by
    rw [placeholders_append, placeholders_append, hnone.1, hnone.2, h.slots, List.nil_append,
      List.append_nil]

/-- A phrase of plain tokens. -/
theorem plain (hproper : Proper ts) (hnest : nest 0 ts = some 0) (hnone : placeholders ts = []) :
    Phrase S n ts 0 where
  proper := hproper
  balanced depth := by
    have h := nest_add hnest depth
    rwa [Nat.zero_add] at h
  slots := hnone

/-- A single token that is neither a parenthesis nor a placeholder. -/
theorem single {t : Token} (ht : t.isProper = true) (hnest : nest 0 [t] = some 0)
    (hnone : t.isPlaceholder = false) : Phrase S n [t] 0 :=
  .plain ⟨by simpa using ht, .singleton t⟩ hnest (by simp [placeholders, hnone])

theorem slot (n : Nat) : Phrase S n [S.token (n + 1)] 1 where
  proper := ⟨by simpa using S.isProper (n + 1), .singleton _⟩
  balanced := S.level (n + 1)
  slots := by simp [placeholders, S.isPlaceholder]

end Phrase

/-! ## Fixed texts -/

/-- The tokens of a text without quoted names. -/
def tokensOf (text : String) : List Token :=
  lex '\x60' text.toList

/-- A token that is the same in every scheme, and no placeholder. -/
def Token.isFixed : Token → Bool
  | .word text => isProper (.word text)
  | .symbol c => isPlain c && c != '?'
  | _ => false

/-- A text that reads the same in every scheme. -/
def IsFixed (text : String) : Prop :=
  write '\x60' (tokensOf text) = text.toList ∧ (∀ t ∈ tokensOf text, t.isFixed = true) ∧
    (tokensOf text).IsChain fun t t' => t.apart t' = true

instance : DecidablePred IsFixed := fun _ => inferInstanceAs (Decidable (_ ∧ _ ∧ _))

/-- A fixed text that stands alone. -/
def IsKeyword (text : String) : Prop :=
  IsFixed text ∧ nest 0 (tokensOf text) = some 0

instance : DecidablePred IsKeyword := fun _ => inferInstanceAs (Decidable (_ ∧ _))

/-- A fixed text that stands between two others and keeps them apart. -/
def Separates (text : String) : Prop :=
  IsKeyword text ∧ text.toList.head?.any isBreak = true ∧
    (tokensOf text).getLast?.any Token.isBreak = true

instance : DecidablePred Separates := fun _ => inferInstanceAs (Decidable (_ ∧ _ ∧ _))

/-- Two fixed texts with a parenthesis that the first opens and the second closes. -/
def Encloses (before after : String) : Prop :=
  (IsFixed before ∧ nest 0 (tokensOf before) = some 1 ∧
      (tokensOf before).getLast?.any Token.isBreak = true) ∧
    IsFixed after ∧ nest 1 (tokensOf after) = some 0 ∧
      (tokensOf after).head?.any Token.isBreak = true

instance : DecidableRel Encloses := fun _ _ => inferInstanceAs (Decidable ((_ ∧ _ ∧ _) ∧ _ ∧ _ ∧ _))

namespace IsFixed

variable {text : String}

theorem written (h : IsFixed text) (mark : Char) : text.toList = write mark (tokensOf text) := by
  rw [← h.1]
  refine List.flatMap_congr fun t ht => ?_
  have hfixed := h.2.1 t ht
  cases t with
  | word text => rfl
  | symbol c => rfl
  | quoted body => cases hfixed
  | slot digits => cases hfixed

theorem proper (h : IsFixed text) : Proper (tokensOf text) where
  all t ht := by
    have hfixed := h.2.1 t ht
    cases t with
    | word text => exact hfixed
    | symbol c =>
      simp only [Token.isFixed, Bool.and_eq_true] at hfixed
      exact hfixed.1
    | quoted body => cases hfixed
    | slot digits => cases hfixed
  chain := h.2.2

theorem placeholders_eq (h : IsFixed text) : placeholders (tokensOf text) = [] := by
  refine List.filter_eq_nil_iff.2 fun t ht => ?_
  have hfixed := h.2.1 t ht
  cases t with
  | word text => simp [Token.isPlaceholder]
  | symbol c =>
    simp only [Token.isFixed, Bool.and_eq_true, bne_iff_ne] at hfixed
    simp [Token.isPlaceholder, hfixed.2]
  | quoted body => cases hfixed
  | slot digits => cases hfixed

end IsFixed

theorem IsKeyword.phrase {text : String} (h : IsKeyword text) (S : Scheme) (n : Nat) :
    Phrase S n (tokensOf text) 0 :=
  .plain h.1.proper h.2 h.1.placeholders_eq

/-! ## Spellings -/

/-- A text that is written with the tokens `ts`, whose placeholders are the `k` that follow the
first `n`. -/
structure Spelling (S : Scheme) (n : Nat) (text : String) (ts : List Token) (k : Nat) : Prop where
  written : text.toList = write S.mark ts
  phrase : Phrase S n ts k

namespace Spelling

variable {S : Scheme} {n k k' : Nat} {a b : String} {ts ts' : List Token}

theorem keyword (h : IsKeyword a) : Spelling S n a (tokensOf a) 0 :=
  ⟨h.1.written S.mark, h.phrase S n⟩

theorem slot (n : Nat) : Spelling S n (S.text (n + 1)) [S.token (n + 1)] 1 :=
  ⟨by simp [write, S.written], .slot n⟩

/-- The tokens are those that the text is read as. -/
theorem lex_eq (h : Spelling S n a ts k) : lex S.mark a.toList = ts := by
  rw [h.written, lex_write S.isMark h.phrase.proper]

/-- Two texts, the second of which is empty or starts with a break. -/
theorem glue (ha : Spelling S n a ts k) (hb : Spelling S (n + k) b ts' k')
    (hmeet : ∀ c ∈ b.toList.head?, isBreak c = true) :
    Spelling S n (a ++ b) (ts ++ ts') (k + k') := by
  have hbreak : ∀ t ∈ ts'.head?, t.isBreak = true := by
    intro t ht
    cases ts' with
    | nil => cases ht
    | cons t' rest =>
      cases ht
      have hproper := hb.phrase.proper.all t List.mem_cons_self
      obtain ⟨c, cs, hwrite⟩ := t.exists_write_eq_cons S.mark hproper
      have hc : c ∈ (t.write S.mark).head? := by simp [hwrite]
      rw [hb.written, head?_write_cons S.mark hproper rest] at hmeet
      have hplain := hmeet c hc
      rw [Token.eq_symbol_of_head? S.isMark hproper hc (Bool.and_eq_true_iff.1 hplain).1]
      exact hplain
  refine ⟨by rw [String.toList_append, ha.written, hb.written, write_append], ?_⟩
  exact ha.phrase.append hb.phrase fun _ _ t ht => Token.apart_of_isBreak_right (hbreak t ht)

/-- A text with fixed words after it. -/
theorem trail {text : String} (htext : IsKeyword text ∧ text.toList.head?.all isBreak = true)
    (ha : Spelling S n a ts k) : Spelling S n (a ++ text) (ts ++ tokensOf text) k :=
  ha.glue (.keyword htext.1) fun c hc => by simpa [Option.mem_def.1 hc] using htext.2

/-- A text with fixed words before it. -/
theorem lead {text : String}
    (htext : IsKeyword text ∧ (tokensOf text).getLast?.any Token.isBreak = true)
    (ha : Spelling S n a ts k) : Spelling S n (text ++ a) (tokensOf text ++ ts) k := by
  refine ⟨?_, ?_⟩
  · rw [String.toList_append, ha.written, htext.1.1.written S.mark, write_append]
  · rw [← Nat.zero_add k]
    refine (htext.1.phrase S n).append ha.phrase fun t ht _ _ => Token.apart_of_isBreak_left ?_
    simpa [Option.mem_def.1 ht] using htext.2

/-- Two texts with a separator between them. -/
theorem sep {text : String} (hsep : Separates text) (ha : Spelling S n a ts k)
    (hb : Spelling S (n + k) b ts' k') :
    Spelling S n (a ++ text ++ b) (ts ++ (tokensOf text ++ ts')) (k + k') := by
  obtain ⟨hkeyword, hhead, hlast⟩ := hsep
  rw [String.append_assoc]
  refine ha.glue (hb.lead ⟨hkeyword, hlast⟩) fun c hc => ?_
  cases hfirst : text.toList.head? with
  | none =>
    rw [hfirst] at hhead
    cases hhead
  | some first =>
    rw [String.toList_append, List.head?_append, hfirst, Option.some_or, Option.mem_some_iff] at hc
    simpa [hfirst, hc] using hhead

/-- A text in parentheses. -/
theorem enclose {before after : String} (h : Encloses before after) (ha : Spelling S n a ts k) :
    Spelling S n (before ++ a ++ after) (tokensOf before ++ ts ++ tokensOf after) k := by
  obtain ⟨⟨hbefore, hopen, hlast⟩, hafter, hclose, hhead⟩ := h
  refine ⟨?_, ?_⟩
  · rw [String.toList_append, String.toList_append, ha.written, hbefore.written S.mark,
      hafter.written S.mark, write_append, write_append]
  · refine ha.phrase.enclose hbefore.proper hafter.proper hopen hclose
      ⟨hbefore.placeholders_eq, hafter.placeholders_eq⟩ (fun t ht => ?_) fun t ht => ?_
    · simpa [Option.mem_def.1 ht] using hlast
    · simpa [Option.mem_def.1 ht] using hhead

end Spelling

/-! ## Clauses -/

/-- A text with the values of its placeholders, which come after `n` others and are taken from
`admissible`. -/
structure Clause (S : Scheme) (admissible : List Value) (n : Nat) (text : String)
    (values : List Value) : Prop where
  spelling : ∃ ts, Spelling S n text ts values.length
  values_subset : values ⊆ admissible

namespace Clause

variable {S : Scheme} {F F' : List Value} {n : Nat} {a b : String} {us ws : List Value}

theorem mono (hF : F ⊆ F') (h : Clause S F n a us) : Clause S F' n a us :=
  ⟨h.spelling, List.Subset.trans h.values_subset hF⟩

/-- A text without placeholders. -/
theorem plain {ts : List Token} (hts : Phrase S n ts 0) (htext : a.toList = write S.mark ts) :
    Clause S F n a [] :=
  ⟨⟨ts, htext, hts⟩, List.nil_subset F⟩

theorem keyword (h : IsKeyword a) : Clause S F n a [] :=
  ⟨⟨_, .keyword h⟩, List.nil_subset F⟩

theorem empty : Clause S F n "" [] :=
  keyword (by decide)

/-- A placeholder. -/
theorem slot {v : Value} (hv : v ∈ F) : Clause S F n (S.text (n + 1)) [v] :=
  ⟨⟨_, .slot n⟩, by simpa using hv⟩

/-- A clause without text binds nothing. -/
theorem eq_nil_of_empty (h : Clause S F n "" us) : us = [] := by
  obtain ⟨ts, hts⟩ := h.spelling
  have hnil : ts = [] := hts.lex_eq.symm
  have hslots := congrArg List.length hts.phrase.slots
  rw [hnil] at hslots
  simpa [placeholders] using hslots.symm

/-- Two clauses, the second of which is empty or starts with a break. -/
theorem glue (ha : Clause S F n a us) (hb : Clause S F (n + us.length) b ws)
    (hmeet : ∀ c ∈ b.toList.head?, isBreak c = true) : Clause S F n (a ++ b) (us ++ ws) := by
  obtain ⟨⟨ts, hat⟩, hus⟩ := ha
  obtain ⟨⟨ts', hbt⟩, hws⟩ := hb
  refine ⟨⟨ts ++ ts', ?_⟩, List.append_subset.2 ⟨hus, hws⟩⟩
  rw [List.length_append]
  exact hat.glue hbt hmeet

/-- A clause with fixed words after it. -/
theorem trail {text : String} (htext : IsKeyword text ∧ text.toList.head?.all isBreak = true)
    (ha : Clause S F n a us) : Clause S F n (a ++ text) us := by
  obtain ⟨⟨ts, hat⟩, hus⟩ := ha
  exact ⟨⟨_, hat.trail htext⟩, hus⟩

/-- A clause with fixed words before it. -/
theorem lead {text : String}
    (htext : IsKeyword text ∧ (tokensOf text).getLast?.any Token.isBreak = true)
    (ha : Clause S F n a us) : Clause S F n (text ++ a) us := by
  obtain ⟨⟨ts, hat⟩, hus⟩ := ha
  exact ⟨⟨_, hat.lead htext⟩, hus⟩

/-- Two clauses with a separator between them. -/
theorem sep {text : String} (hsep : Separates text) (ha : Clause S F n a us)
    (hb : Clause S F (n + us.length) b ws) : Clause S F n (a ++ text ++ b) (us ++ ws) := by
  obtain ⟨⟨ts, hat⟩, hus⟩ := ha
  obtain ⟨⟨ts', hbt⟩, hws⟩ := hb
  refine ⟨⟨ts ++ (tokensOf text ++ ts'), ?_⟩, List.append_subset.2 ⟨hus, hws⟩⟩
  rw [List.length_append]
  exact hat.sep hsep hbt

/-- A clause in parentheses. -/
theorem enclose {before after : String} (h : Encloses before after) (ha : Clause S F n a us) :
    Clause S F n (before ++ a ++ after) us := by
  obtain ⟨⟨ts, hat⟩, hus⟩ := ha
  exact ⟨⟨_, hat.enclose h⟩, hus⟩

end Clause

/-! ## Clauses in a row -/

/-- Texts that are clauses one after another. -/
inductive Clauses (S : Scheme) (admissible : List Value) :
    Nat → List String → List Value → Prop where
  | nil {n : Nat} : Clauses S admissible n [] []
  | cons {n : Nat} {text : String} {texts : List String} {us ws : List Value}
      (first : Clause S admissible n text us)
      (rest : Clauses S admissible (n + us.length) texts ws) :
      Clauses S admissible n (text :: texts) (us ++ ws)

namespace Clauses

variable {S : Scheme} {F F' : List Value} {n : Nat} {texts texts' : List String}
  {vs ws : List Value}

theorem mono (hF : F ⊆ F') (h : Clauses S F n texts vs) : Clauses S F' n texts vs := by
  induction h with
  | nil => exact .nil
  | cons first _ ih => exact .cons (first.mono hF) ih

theorem singleton {text : String} (h : Clause S F n text vs) : Clauses S F n [text] vs := by
  have := Clauses.cons h .nil
  rwa [List.append_nil] at this

/-- Clauses without placeholders. -/
theorem plain (h : ∀ text ∈ texts, ∀ n, Clause S F n text []) : Clauses S F n texts [] := by
  induction texts with
  | nil => exact .nil
  | cons text texts ih =>
    exact .cons (h text List.mem_cons_self n) (ih fun t ht => h t (List.mem_cons_of_mem _ ht))

theorem append (h : Clauses S F n texts vs) (h' : Clauses S F (n + vs.length) texts' ws) :
    Clauses S F n (texts ++ texts') (vs ++ ws) := by
  induction h with
  | nil => exact h'
  | cons first _ ih =>
    rw [List.append_assoc]
    refine .cons first (ih ?_)
    rwa [Nat.add_assoc, ← List.length_append]

/-- Leaving out empty texts leaves out no values. -/
theorem dropEmpty (h : Clauses S F n texts vs) :
    Clauses S F n (texts.filter fun text => !text.isEmpty) vs := by
  induction h with
  | nil => exact .nil
  | @cons n text texts us ws first rest ih =>
    by_cases hempty : text.isEmpty = true
    · rw [String.isEmpty_iff] at hempty
      subst hempty
      have hus := first.eq_nil_of_empty
      subst hus
      simpa using ih
    · rw [List.filter_cons_of_pos (by simpa using hempty)]
      exact .cons first ih

/-- Clauses with a separator between them. -/
theorem join {text : String} (hsep : Separates text) (h : Clauses S F n texts vs) :
    Clause S F n (text.intercalate texts) vs := by
  induction h with
  | nil =>
    rw [String.intercalate_nil]
    exact .empty
  | cons first rest ih =>
    cases rest with
    | nil =>
      rw [String.intercalate_singleton, List.append_nil]
      exact first
    | cons second others =>
      rw [String.intercalate_cons_cons]
      exact .sep hsep first ih

end Clauses

end QueryTree.Sql
