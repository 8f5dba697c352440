import QueryTree.Proofs.FilterTree
import QueryTree.Proofs.Statements

/-!
# How comparisons are rendered

Every dialect of the library renders a comparison of a column with scalars, and the text has the
tokens of the comparison.

* `Sql.Attains` : a program that succeeds, with a result of a given kind; `Sql.InTurn` lists such
  results one after another.
* `Sql.Spelled` : a text that has given tokens, spaces and the numbers of placeholders apart.
* **`Filter.Test.attains`** : the reply of a dialect to a comparison.
* **`Filter.Atom.sentence`** : the tokens of a comparison are read as one comparison.
-/

namespace QueryTree

namespace Sql

/-! ## Programs that succeed -/

/-- However many values are bound before, the program yields something with the property `Q`. -/
def Attains {α : Type} (S : Scheme) (replies : ReplyRel) (Q : Nat → α → List Value → Prop)
    (x : Rendering α) : Prop :=
  ∀ n, ∃ a vs, x.Yields S.text replies n a vs ∧ Q n a vs

/-- Results one after another, each with the property `Q` of its own item. -/
inductive InTurn {ι α : Type} (Q : ι → Nat → α → List Value → Prop) :
    List ι → Nat → List α → List Value → Prop where
  | nil {n : Nat} : InTurn Q [] n [] []
  | cons {i : ι} {is : List ι} {n : Nat} {a : α} {as : List α} {us ws : List Value}
      (first : Q i n a us) (rest : InTurn Q is (n + us.length) as ws) :
      InTurn Q (i :: is) n (a :: as) (us ++ ws)

theorem InTurn.length_eq {ι α : Type} {Q : ι → Nat → α → List Value → Prop} {is : List ι}
    {n : Nat} {as : List α} {vs : List Value} (h : InTurn Q is n as vs) :
    as.length = is.length := by
  induction h with
  | nil => rfl
  | cons _ _ ih => rw [List.length_cons, ih, List.length_cons]

namespace Attains

variable {S : Scheme} {replies : ReplyRel} {α β γ ι : Type}
  {Q : Nat → α → List Value → Prop} {Q' : Nat → β → List Value → Prop}
  {R : Nat → γ → List Value → Prop}

/-- A result of a kind is one of a weaker kind. -/
theorem mono {Q' : Nat → α → List Value → Prop} {x : Rendering α} (hx : Attains S replies Q x)
    (h : ∀ {n a vs}, Q n a vs → Q' n a vs) : Attains S replies Q' x := by
  intro n
  obtain ⟨a, vs, hyields, ha⟩ := hx n
  exact ⟨a, vs, hyields, h ha⟩

theorem pure {a : α} (ha : ∀ n, Q n a []) : Attains S replies Q (pure a) := by
  intro n
  exact ⟨a, [], Rendering.yields_pure.2 ⟨rfl, rfl⟩, ha n⟩

/-- One program after another: the second succeeds on what the first one gives. -/
theorem bind {x : Rendering α} {f : α → Rendering β} (hx : Attains S replies Q x)
    (hf : ∀ {n a us}, Q n a us → ∃ b ws,
      (f a).Yields S.text replies (n + us.length) b ws ∧ Q' n b (us ++ ws)) :
    Attains S replies Q' (x >>= f) := by
  intro n
  obtain ⟨a, us, ha, hQ⟩ := hx n
  obtain ⟨b, ws, hb, hQ'⟩ := hf hQ
  exact ⟨b, us ++ ws, Rendering.yields_bind.2 ⟨a, us, ws, ha, hb, rfl⟩, hQ'⟩

theorem map {x : Rendering α} {f : α → γ} (hx : Attains S replies Q x)
    (hf : ∀ {n a vs}, Q n a vs → R n (f a) vs) :
    Attains S replies R (do let a ← x; return f a) := by
  refine hx.bind fun {n a us} ha => ⟨f a, [], Rendering.yields_pure.2 ⟨rfl, rfl⟩, ?_⟩
  rw [List.append_nil]
  exact hf ha

/-- Two programs whose results are put together in order. -/
theorem map₂ {x : Rendering α} {y : Rendering β} {f : α → β → γ} (hx : Attains S replies Q x)
    (hy : Attains S replies Q' y)
    (hf : ∀ {n a us b ws}, Q n a us → Q' (n + us.length) b ws → R n (f a b) (us ++ ws)) :
    Attains S replies R (do let a ← x; let b ← y; return f a b) := by
  refine hx.bind fun {n a us} ha => ?_
  obtain ⟨b, ws, hyields, hb⟩ := hy (n + us.length)
  exact ⟨f a b, ws, Rendering.yields_map.2 ⟨b, hyields, rfl⟩, hf ha hb⟩

/-- Three programs whose results are put together in order. -/
theorem map₃ {δ : Type} {R' : Nat → δ → List Value → Prop} {x : Rendering α} {y : Rendering β}
    {z : Rendering γ} {f : α → β → γ → δ} (hx : Attains S replies Q x)
    (hy : Attains S replies Q' y) (hz : Attains S replies R z)
    (hf : ∀ {n a us b ws c vs}, Q n a us → Q' (n + us.length) b ws →
      R (n + us.length + ws.length) c vs → R' n (f a b c) (us ++ (ws ++ vs))) :
    Attains S replies R' (do let a ← x; let b ← y; let c ← z; return f a b c) := by
  refine hx.bind fun {n a us} ha => ?_
  obtain ⟨b, ws, hyieldsb, hb⟩ := hy (n + us.length)
  obtain ⟨c, vs, hyieldsc, hc⟩ := hz (n + us.length + ws.length)
  refine ⟨f a b c, ws ++ vs, Rendering.yields_bind.2 ⟨b, ws, vs, hyieldsb, ?_, rfl⟩, hf ha hb hc⟩
  exact Rendering.yields_map.2 ⟨c, hyieldsc, rfl⟩

/-- A program for every item of a list that is made from others. -/
theorem each {P : ι → Nat → β → List Value → Prop} {g : ι → α} {f : α → Rendering β}
    {is : List ι} (hf : ∀ i ∈ is, Attains S replies (P i) (f (g i))) :
    Attains S replies (InTurn P is) (Rendering.each f (is.map g)) := by
  induction is with
  | nil => exact .pure fun _ => .nil
  | cons i is ih =>
    exact (hf i List.mem_cons_self).map₂ (ih fun j hj => hf j (List.mem_cons_of_mem _ hj))
      fun first rest => .cons first rest

end Attains

/-! ## Texts and their tokens -/

/-- Tokens are made alike one by one. -/
theorem normal_append (ts us : List Token) : normal (ts ++ us) = normal ts ++ normal us := by
  rw [normal, List.filter_append, List.map_append, normal, normal]

/-- Every placeholder is the same once its number is dropped. -/
theorem normal_slot (S : Scheme) (n : Nat) : normal [S.token n] = [.symbol '?'] := by
  have h := S.isPlaceholder n
  cases htoken : S.token n with
  | symbol c =>
    rw [htoken] at h
    simp only [Token.isPlaceholder, beq_iff_eq] at h
    rw [h]
    rfl
  | slot digits => rfl
  | quoted body | word text =>
    rw [htoken] at h
    cases h

/-- The tokens of a name are quoted segments, stars and dots. -/
theorem mem_nameTokens {parts : List (List Char)} {t : Token} (h : t ∈ nameTokens parts) :
    (∃ body, t = .quoted body) ∨ t = .symbol '*' ∨ t = .symbol '.' := by
  have hsegment : ∀ cs, t = segmentToken cs →
      (∃ body, t = .quoted body) ∨ t = .symbol '*' ∨ t = .symbol '.' := by
    intro cs ht
    rcases segmentToken_cases cs with hcs | hcs
    · exact .inr (.inl (ht.trans hcs))
    · exact .inl ⟨cs, ht.trans hcs⟩
  fun_induction nameTokens parts with
  | case1 => cases h
  | case2 cs => exact hsegment cs (List.mem_singleton.1 h)
  | case3 cs rest _ ih =>
    rcases List.mem_cons.1 h with h | h
    · exact hsegment cs h
    · rcases List.mem_cons.1 h with h | h
      · exact .inr (.inr h)
      · exact ih h

theorem normal_nameTokens (parts : List (List Char)) :
    normal (nameTokens parts) = nameTokens parts := by
  have hkept : ∀ t ∈ nameTokens parts, (t != .symbol ' ') = true ∧ t.unnumbered = t := by
    intro t ht
    rcases mem_nameTokens ht with ⟨body, rfl⟩ | rfl | rfl
    · exact ⟨rfl, rfl⟩
    · exact ⟨rfl, rfl⟩
    · exact ⟨rfl, rfl⟩
  rw [normal, List.filter_eq_self.2 fun t ht => (hkept t ht).1,
    List.map_congr_left fun t ht => (hkept t ht).2, List.map_id']

/-- A text that has the tokens `ts`, spaces and the numbers of placeholders apart; its placeholders
follow `n` others and stand for `vs`. -/
def Spelled (S : Scheme) (ts : List Token) (n : Nat) (text : String) (vs : List Value) : Prop :=
  ∃ us, Spelling S n text us vs.length ∧ normal us = ts

namespace Spelled

variable {S : Scheme} {n : Nat} {a b : String} {ts ts' : List Token} {us ws : List Value}

/-- A placeholder is spelled as a question mark. -/
theorem slot (n : Nat) (v : Value) : Spelled S [.symbol '?'] n (S.text (n + 1)) [v] :=
  ⟨_, .slot n, normal_slot S (n + 1)⟩

theorem trail {text : String} (htext : IsKeyword text ∧ text.toList.head?.all isBreak = true)
    (ha : Spelled S ts n a us) : Spelled S (ts ++ normal (tokensOf text)) n (a ++ text) us := by
  obtain ⟨ts, hts, rfl⟩ := ha
  exact ⟨_, hts.trail htext, normal_append _ _⟩

/-- Two texts with a word between them. -/
theorem sep {text : String} (hsep : Separates text) (ha : Spelled S ts n a us)
    (hb : Spelled S ts' (n + us.length) b ws) :
    Spelled S (ts ++ (normal (tokensOf text) ++ ts')) n (a ++ text ++ b) (us ++ ws) := by
  obtain ⟨ts, hts, rfl⟩ := ha
  obtain ⟨ts', hts', rfl⟩ := hb
  refine ⟨_, ?_, (normal_append _ _).trans (congrArg _ (normal_append _ _))⟩
  rw [List.length_append]
  exact hts.sep hsep hts'

theorem enclose {before after : String} (h : Encloses before after) (ha : Spelled S ts n a us) :
    Spelled S (normal (tokensOf before) ++ ts ++ normal (tokensOf after)) n
      (before ++ a ++ after) us := by
  obtain ⟨ts, hts, rfl⟩ := ha
  exact ⟨_, hts.enclose h, by rw [normal_append, normal_append]⟩

end Spelled

end Sql

open Sql

namespace Filter

/-! ## The tests of a column -/

section Tests

variable {S : Scheme} {ctx : Context} {replies : ReplyRel}

/-- The name of a column is quoted. -/
theorem ColumnName.attains (hmark : ctx.quoting.mark = S.mark) (column : ColumnName) :
    Attains S replies (Spelled S (nameTokens (QuoteStyle.segments column.text.toList)))
      (ctx.name column.text) := by
  have hquoted : ctx.quoting.name column.text =
      .ok (String.ofList (ctx.quoting.joinSegments (QuoteStyle.segments column.text.toList))) := by
    have hne : column.text.isEmpty = false := by
      refine Bool.eq_false_iff.2 fun hempty => ?_
      have hname := column.isName
      rw [String.isEmpty_iff.1 hempty] at hname
      cases hname
    simp [QuoteStyle.name, hne, column.isName]
  intro n
  refine ⟨_, [], Rendering.yields_ofExcept.2 ⟨?_, rfl⟩, _, .segments hmark n _,
    normal_nameTokens _⟩
  rw [hquoted]
  rfl

/-- A scalar is bound. -/
theorem Scalar.attains (operator : Option String) (operand : Scalar) :
    Attains S replies (Spelled S [.symbol '?']) (valueExpression ctx operator operand) := by
  intro n
  obtain ⟨v, hv⟩ := operand
  refine ⟨_, [v], ?_, .slot n v⟩
  cases v with
  | list items | object fields => cases hv
  | null | bool flag | int number | float number | str text =>
    exact Rendering.yields_bound.2 ⟨rfl, rfl⟩

/-- Placeholders with commas between them. -/
theorem spelled_commaList {first : Scalar} {rest : List Scalar} {n : Nat} {texts : List String}
    {vs : List Value} (h : InTurn (fun _ => Spelled S [.symbol '?']) (first :: rest) n texts vs) :
    Spelled S (Test.slotTokens rest.length) n (commaList texts) vs := by
  induction rest generalizing first n texts vs with
  | nil =>
    obtain ⟨⟩ | ⟨hfirst, ⟨⟩⟩ := h
    rw [commaList, String.intercalate_singleton, List.append_nil]
    exact hfirst
  | cons second rest ih =>
    obtain ⟨⟩ | ⟨hfirst, hrest⟩ := h
    have hothers := ih hrest
    obtain ⟨⟩ | ⟨hsecond, hmore⟩ := hrest
    rw [commaList, String.intercalate_cons_cons]
    exact hfirst.sep (by decide) hothers

/-- A word between a column and its operand, and the tokens that it has there. -/
theorem separates_of_mem {operator word : String}
    (known : (operator, word) ∈ comparisonWords ++ membershipWords) :
    Separates (" " ++ word ++ " ") ∧
      normal (tokensOf (" " ++ word ++ " ")) = normal (tokensOf word) := by
  have hwords : ∀ entry ∈ comparisonWords ++ membershipWords,
      Separates (" " ++ entry.2 ++ " ") ∧
        normal (tokensOf (" " ++ entry.2 ++ " ")) = normal (tokensOf entry.2) := by decide
  exact hwords (operator, word) known

/-- A test for a missing value after its column. -/
theorem spelled_missing {ts : List Token} {n : Nat} {a : String} {vs : List Value}
    (h : Spelled S ts n a vs) :
    Spelled S (ts ++ Test.missingTokens true) n (a ++ " IS NULL") vs ∧
      Spelled S (ts ++ Test.missingTokens false) n (a ++ " IS NOT NULL") vs := by
  have htrue : Test.missingTokens true = normal (tokensOf " IS NULL") := by decide
  have hfalse : Test.missingTokens false = normal (tokensOf " IS NOT NULL") := by decide
  rw [htrue, hfalse]
  exact ⟨h.trail (by decide), h.trail (by decide)⟩

namespace Test

/-- The operator of a test. -/
def handler : Test → Handler
  | .compare operator word _ _ => Operator.comparison operator word
  | .member operator word _ _ _ => Operator.membership operator word
  | .between _ _ => Operator.between
  | .missing _ => Operator.nullTest

/-- The operator of a test renders it. -/
theorem attains_handler (hmark : ctx.quoting.mark = S.mark) (column : ColumnName) (test : Test)
    (node : Fields) (combinator : Option Combinator) :
    Attains S replies (Spelled S (Atom.tokens ⟨column, test⟩))
      (test.handler.render ctx
        ⟨test.entry.1, test.entry.2, node, some column.text, combinator⟩) := by
  have hcolumn : Attains S replies
      (Spelled S (nameTokens (QuoteStyle.segments column.text.toList)))
      (ctx.name column.text) := column.attains hmark
  cases test with
  | compare operator word known operand =>
    obtain ⟨hsep, htokens⟩ := separates_of_mem (List.mem_append_left _ known)
    simp only [handler, Operator.comparison, Operator.testedColumn, entry, Atom.tokens, tokens]
    split
    · exact hcolumn.map fun ht => (spelled_missing ht).1
    · split
      · exact hcolumn.map fun ht => (spelled_missing ht).2
      · refine hcolumn.map₂ (operand.attains _) fun ha hb => ?_
        rw [← htokens]
        simpa only [String.append_assoc] using ha.sep hsep hb
  | member operator word known first rest =>
    obtain ⟨hsep, htokens⟩ := separates_of_mem (List.mem_append_right _ known)
    have hmembers : Attains S replies (InTurn (fun _ => Spelled S [.symbol '?']) (first :: rest))
        (Rendering.each (valueExpression ctx operator) ((first :: rest).map Subtype.val)) :=
      .each fun operand _ => operand.attains _
    refine hcolumn.map₂ hmembers fun {n left us members ws} ha hb => ?_
    have htext : left ++ " " ++ word ++ " (" ++ commaList members ++ ")" =
        left ++ (" " ++ word ++ " ") ++ ("(" ++ commaList members ++ ")") := by
      simp [← String.toList_inj]
    rw [htext, Atom.tokens, tokens, ← htokens, List.append_assoc]
    exact ha.sep hsep ((spelled_commaList hb).enclose (by decide))
  | between low high =>
    have htokens : [.keyword "BETWEEN", .symbol '?', .keyword "AND", .symbol '?'] =
        normal (tokensOf " BETWEEN ") ++
          ([.symbol '?'] ++ (normal (tokensOf " AND ") ++ [.symbol '?'])) := by decide
    refine hcolumn.map₃ (low.attains _) (high.attains _)
      fun {n left us a ws b vs} hleft ha hb => ?_
    have htext : left ++ " BETWEEN " ++ a ++ " AND " ++ b =
        left ++ " BETWEEN " ++ (a ++ " AND " ++ b) := by simp only [String.append_assoc]
    rw [htext, Atom.tokens, tokens, htokens]
    exact hleft.sep (by decide) (ha.sep (by decide) hb)
  | missing flag =>
    cases flag with
    | true => exact hcolumn.map fun ht => (spelled_missing ht).1
    | false => exact hcolumn.map fun ht => (spelled_missing ht).2

end Test

end Tests

/-! ## The replies of a dialect -/

section Replies

/-- A dialect of the library that is written in the scheme `S`. -/
structure Speaks (d : Dialect) (S : Scheme) : Prop where
  mem : d ∈ Dialect.library
  mark : d.quoting.mark = S.mark
  placeholder : d.placeholder = S.text

variable {d : Dialect} {S : Scheme}

/-- A call is answered as the operator renders it. -/
theorem Speaks.invoke (h : Speaks d S) {Q : Nat → String → List Value → Prop} {depth : Nat}
    {call : Call} {handler : Handler} (hfind : d.registry.find? call.operator = some handler)
    (hrender : Attains S (d.replies depth) Q
      (handler.render (d.context call.combinator) call)) :
    Attains S (d.replies (depth + 1)) Q (.invoke call) := by
  intro n
  obtain ⟨text, vs, hyields, hQ⟩ := hrender n
  rw [← h.placeholder] at hyields
  exact ⟨text, vs, Rendering.yields_invoke.2 ⟨handler, hfind, hyields⟩, hQ⟩

/-- Every dialect has the tests of the base dialect. -/
theorem Test.find?_entry (hd : d ∈ Dialect.library) (test : Test) :
    d.registry.find? test.entry.1 = some test.handler := by
  cases test with
  | compare operator word known operand =>
    simp only [comparisonWords, List.mem_cons, List.not_mem_nil, or_false, Prod.mk.injEq] at known
    rcases known with ⟨rfl, rfl⟩ | ⟨rfl, rfl⟩ | ⟨rfl, rfl⟩ | ⟨rfl, rfl⟩ | ⟨rfl, rfl⟩ | ⟨rfl, rfl⟩ |
      ⟨rfl, rfl⟩ <;>
    exact Dialect.find?_of_ansi hd rfl rfl rfl
  | member operator word known first rest =>
    simp only [membershipWords, List.mem_cons, List.not_mem_nil, or_false, Prod.mk.injEq] at known
    rcases known with ⟨rfl, rfl⟩ | ⟨rfl, rfl⟩
    · exact Dialect.find?_of_ansi hd rfl rfl rfl
    · exact Dialect.find?_of_ansi hd rfl rfl rfl
  | between low high => exact Dialect.find?_of_ansi hd rfl rfl rfl
  | missing flag => exact Dialect.find?_of_ansi hd rfl rfl rfl

/-- A dialect replies to a test with the text of the comparison. -/
theorem Test.attains (h : Speaks d S) (column : ColumnName) (test : Test) (node : Fields)
    (depth : Nat) (combinator : Option Combinator) :
    Attains S (d.replies (depth + 1)) (Spelled S (Atom.tokens ⟨column, test⟩))
      ((d.context combinator).invoke test.entry.1 test.entry.2 node (some column.text)) :=
  h.invoke (test.find?_entry h.mem) (test.attains_handler h.mark column node combinator)

end Replies

/-! ## Comparisons are read as such -/

section Tokens

/-- Tokens that neither open nor close anything do not end a comparison. -/
theorem walk_plain {ts : List Token}
    (h : ∀ t ∈ ts, Span.plain.isEnd t = false ∧ Span.plain.next t = .plain) :
    Span.plain.walk ts = some .plain := by
  induction ts with
  | nil => rfl
  | cons t ts ih =>
    obtain ⟨hend, hnext⟩ := h t List.mem_cons_self
    rw [Span.walk, hend, hnext]
    exact ih fun t' ht' => h t' (List.mem_cons_of_mem _ ht')

/-- No token of a name ends a comparison. -/
theorem walk_nameTokens {parts : List (List Char)} {ts : List Token} (h : ts ⊆ nameTokens parts) :
    Span.plain.walk ts = some .plain := by
  refine walk_plain fun t ht => ?_
  rcases mem_nameTokens (h ht) with ⟨body, rfl⟩ | rfl | rfl
  · exact ⟨rfl, rfl⟩
  · exact ⟨rfl, rfl⟩
  · exact ⟨rfl, rfl⟩

/-- The placeholders of a list stand inside its parentheses. -/
theorem walk_slotTokens (more : Nat) : Span.list.walk (Test.slotTokens more) = some .list := by
  have hmore : Span.list.walk (List.replicate more [Token.symbol ',', Token.symbol '?']).flatten =
      some .list := by
    induction more with
    | zero => rfl
    | succ more ih =>
      rw [List.replicate_succ, List.flatten_cons, Span.walk_append]
      exact ih
  exact hmore

/-- A comparison goes on to the end of its test. -/
theorem Test.walk_tokens (test : Test) : Span.plain.walk test.tokens = some .plain := by
  have hwords : ∀ entry ∈ comparisonWords ++ membershipWords,
      Span.plain.walk (normal (tokensOf entry.2)) = some .plain := by decide
  have hmissing : ∀ flag, Span.plain.walk (missingTokens flag) = some .plain := by decide
  cases test with
  | compare operator word known operand =>
    have hword := hwords (operator, word) (List.mem_append_left _ known)
    rw [tokens]
    split
    · exact hmissing true
    · split
      · exact hmissing false
      · rw [Span.walk_append, hword]
        rfl
  | member operator word known first rest =>
    have hword := hwords (operator, word) (List.mem_append_right _ known)
    rw [tokens, List.append_assoc, Span.walk_append, hword, Option.bind_some, List.cons_append,
      Span.walk, if_neg (by decide)]
    change Span.list.walk _ = _
    rw [Span.walk_append, walk_slotTokens]
    rfl
  | between low high => rfl
  | missing flag => exact hmissing flag

/-- A name starts with a segment. -/
theorem exists_nameTokens_eq {parts : List (List Char)} (h : parts ≠ []) :
    ∃ cs more, nameTokens parts = segmentToken cs :: more := by
  obtain ⟨cs, rest, rfl⟩ := List.exists_cons_of_ne_nil h
  cases rest with
  | nil => exact ⟨cs, [], rfl⟩
  | cons second rest => exact ⟨cs, _, rfl⟩

/-- The tokens of a comparison are read as that comparison. -/
theorem Atom.sentence (a : Atom) : Sentence a.tokens [[.atom a.tokens]] := by
  obtain ⟨cs, more, hname⟩ := exists_nameTokens_eq (Text.split_ne_nil '.' a.column.text.toList)
  have hmore : more ⊆ nameTokens (QuoteStyle.segments a.column.text.toList) :=
    fun t ht => hname ▸ List.mem_cons_of_mem _ ht
  have hfirst : Lexeme.ofToken? (segmentToken cs) = none := by
    rcases segmentToken_cases cs with h | h
    · rw [h]
      rfl
    · rw [h]
      rfl
  have htokens : a.tokens = segmentToken cs :: (more ++ a.test.tokens) :=
    congrArg (· ++ a.test.tokens) hname
  rw [htokens]
  refine .comparison hfirst ?_
  rw [Span.walk_append, walk_nameTokens hmore]
  exact a.test.walk_tokens

end Tokens

end Filter

end QueryTree
