import QueryTree.Proofs.Formula
import QueryTree.Proofs.Tokens

/-!
# Reading a condition

A condition is read as SQL reads it: NOT binds closer than AND, AND closer than OR, and parentheses
closer than all of them.  Comparisons are taken as they stand; the AND of a BETWEEN and the
parentheses of a list belong to the comparison.

* `Sql.normal` drops spaces and the numbers of placeholders.
* `Sql.scan` cuts the tokens into comparisons, connectives and parentheses.
* `Sql.Level` is what has been read between two parentheses, and `Sql.step` the effect of a lexeme.
* **`Sql.reading`** is the expression that a text stands for, over the tokens of its comparisons.
* `Sql.Chain` is an OR of ANDs as it is read.  **`Sql.Sentence`** : tokens that are read as a chain,
  whatever stands around them; `both`, `either`, `enclose` and `negate` put sentences together.
-/

namespace QueryTree.Sql

/-! ## Lexemes -/

/-- A placeholder without its number, and any other token as it is. -/
def Token.unnumbered : Token → Token
  | .slot _ => .symbol '?'
  | t => t

/-- Tokens without spaces and without the numbers of placeholders. -/
def normal (ts : List Token) : List Token :=
  (ts.filter (· != .symbol ' ')).map Token.unnumbered

/-- The token of a keyword. -/
def Token.keyword (text : String) : Token :=
  .word text.toList

/-- A part of a condition. -/
inductive Lexeme where
  | and
  | or
  | not
  | opening
  | closing
  | comparison (tokens : List Token)

/-- What a token is outside of comparisons, if it does not start one. -/
def Lexeme.ofToken? (t : Token) : Option Lexeme :=
  if t = .keyword "AND" then some .and
  else if t = .keyword "OR" then some .or
  else if t = .keyword "NOT" then some .not
  else if t = .symbol '(' then some .opening
  else if t = .symbol ')' then some .closing
  else none

/-- Where a token stands inside a comparison. -/
inductive Span where
  | plain
  /-- Between BETWEEN and its AND. -/
  | range
  /-- Inside the parentheses of a list. -/
  | list
  deriving DecidableEq

namespace Span

/-- Whether a token ends the comparison. -/
def isEnd (span : Span) (t : Token) : Bool :=
  span == .plain && [.keyword "AND", .keyword "OR", .symbol ')'].contains t

/-- Where the token after `t` stands. -/
def next : Span → Token → Span
  | .plain, t =>
    if t = .keyword "BETWEEN" then .range else if t = .symbol '(' then .list else .plain
  | .range, t => if t = .keyword "AND" then .plain else .range
  | .list, t => if t = .symbol ')' then .plain else .list

/-- The place after some tokens, if none of them ends the comparison. -/
def walk : Span → List Token → Option Span
  | span, [] => some span
  | span, t :: rest => if span.isEnd t then none else (span.next t).walk rest

/-- Tokens are walked over one after another. -/
theorem walk_append (span : Span) (ts us : List Token) :
    span.walk (ts ++ us) = (span.walk ts).bind fun span => span.walk us := by
  induction ts generalizing span with
  | nil => rfl
  | cons t ts ih =>
    rw [List.cons_append, walk, walk]
    split
    · rfl
    · exact ih (span.next t)

end Span

/-- The lexemes of tokens; `reading` is the place inside a comparison with the tokens of it that
were read, last one first. -/
def scan : Option (Span × List Token) → List Token → List Lexeme
  | none, [] => []
  | some (_, read), [] => [.comparison read.reverse]
  | none, t :: rest =>
    match Lexeme.ofToken? t with
    | some lexeme => lexeme :: scan none rest
    | none => scan (some (.plain, [t])) rest
  | some (span, read), t :: rest =>
    if span.isEnd t then .comparison read.reverse :: (Lexeme.ofToken? t).toList ++ scan none rest
    else scan (some (span.next t, t :: read)) rest

/-! ## Precedence -/

/-- An expression whose atoms are comparisons, given by their tokens. -/
abbrev Reading := Formula (List Token)

/-- What has been read since a parenthesis was opened: the alternatives before the last OR, and the
units of the one that is being read.  `awaited` tells whether a unit has to come next, and whether
it is negated. -/
structure Level where
  alternatives : List Reading
  units : List Reading
  awaited : Option Bool

namespace Level

/-- Nothing has been read. -/
def start : Level := ⟨[], [], some false⟩

/-- A unit is read. -/
def unit (l : Level) (φ : Reading) : Option Level :=
  l.awaited.map fun negated =>
    ⟨l.alternatives, l.units ++ [if negated then .neg φ else φ], none⟩

/-- The expression between two parentheses. -/
def formula (l : Level) : Reading :=
  .any (l.alternatives ++ [.all l.units])

end Level

/-- The effect of a lexeme; the innermost level comes first. -/
def step : List Level → Lexeme → Option (List Level)
  | l :: outer, .comparison ts => (l.unit (.atom ts)).map (· :: outer)
  | l :: outer, .not =>
    if l.awaited = some false then some ({ l with awaited := some true } :: outer) else none
  | l :: outer, .and =>
    if l.awaited = none then some ({ l with awaited := some false } :: outer) else none
  | l :: outer, .or =>
    if l.awaited = none then some (⟨l.alternatives ++ [.all l.units], [], some false⟩ :: outer)
    else none
  | l :: outer, .opening => if l.awaited.isSome then some (.start :: l :: outer) else none
  | l :: l' :: outer, .closing =>
    if l.awaited = none then (l'.unit l.formula).map (· :: outer) else none
  | _, _ => none

/-- The expression that lexemes stand for. -/
def parse (ls : List Lexeme) : Option Reading :=
  match ls.foldlM step [.start] with
  | some [l] => if l.awaited = none then some l.formula else none
  | _ => none

/-- The expression that a condition stands for; names are quoted with `mark`. -/
def reading (mark : Char) (text : String) : Option Reading :=
  parse (scan none (normal (lex mark text.toList)))

/-! ## Chains -/

/-- Alternatives as they are read, each of them as the units of a conjunction. -/
abbrev Chain := List (List Reading)

/-- The expression of a chain. -/
def Chain.formula (c : Chain) : Reading :=
  .any (c.map .all)

namespace Level

/-- The level after a chain was read. -/
def after (l : Level) : Chain → Level
  | [] => l
  | [run] => ⟨l.alternatives, l.units ++ run, none⟩
  | run :: run' :: rest => after ⟨l.alternatives ++ [.all (l.units ++ run)], [], some false⟩
      (run' :: rest)

theorem awaited_after (l : Level) {c : Chain} (hc : c ≠ []) : (l.after c).awaited = none := by
  fun_induction after l c with
  | case1 l => exact absurd rfl hc
  | case2 l run => rfl
  | case3 l run run' rest ih => exact ih (by simp)

/-- A chain after OR adds alternatives. -/
theorem after_append (l : Level) {c c' : Chain} (hc : c ≠ []) (hc' : c' ≠ []) :
    after ⟨(l.after c).alternatives ++ [.all (l.after c).units], [], some false⟩ c' =
      l.after (c ++ c') := by
  fun_induction after l c with
  | case1 l => exact absurd rfl hc
  | case2 l run =>
    obtain ⟨run', rest, rfl⟩ := List.exists_cons_of_ne_nil hc'
    rfl
  | case3 l run run' rest ih => exact ih (by simp)

/-- A chain after AND goes on with the alternative that is being read. -/
theorem after_meet (l : Level) {c c' : Chain} (hc : c ≠ []) (hc' : c' ≠ []) :
    after { l.after c with awaited := some false } c' = l.after (meet (· ++ ·) c c') := by
  fun_induction after l c with
  | case1 l => exact absurd rfl hc
  | case2 l run =>
    obtain ⟨run', rest, rfl⟩ := List.exists_cons_of_ne_nil hc'
    cases rest with
    | nil => simp [after, meet]
    | cons run'' rest => simp [after, meet]
  | case3 l run run' rest ih =>
    obtain ⟨first, others, hmeet⟩ :=
      List.exists_cons_of_ne_nil (meet_ne_nil (· ++ ·) (List.cons_ne_nil run' rest) c')
    rw [ih (by simp), meet, hmeet, after]

/-- Reading a chain adds its alternatives to those that were read before. -/
theorem formula_after (alternatives : List Reading) (awaited : Option Bool) {c : Chain}
    (hc : c ≠ []) :
    (after ⟨alternatives, [], awaited⟩ c).formula = .any (alternatives ++ c.map .all) := by
  induction c generalizing alternatives awaited with
  | nil => exact absurd rfl hc
  | cons run rest ih =>
    cases rest with
    | nil => rfl
    | cons run' rest =>
      rw [after, ih _ _ (by simp)]
      simp

end Level

/-- Lexemes that are read as a chain where a unit is awaited. -/
structure Reads (ls : List Lexeme) (c : Chain) : Prop where
  ne_nil : c ≠ []
  run : ∀ (l : Level) (outer : List Level), l.awaited = some false →
    ls.foldlM step (l :: outer) = some (l.after c :: outer)

namespace Reads

variable {ls ls' : List Lexeme} {c c' : Chain}

/-- A comparison is read as one alternative. -/
theorem comparison (ts : List Token) : Reads [.comparison ts] [[.atom ts]] where
  ne_nil := by simp
  run l outer hl := by simp [step, Level.unit, Level.after, hl]

/-- AND takes hold of the last alternative before it and the first one after it. -/
theorem both (h : Reads ls c) (h' : Reads ls' c') :
    Reads (ls ++ .and :: ls') (meet (· ++ ·) c c') where
  ne_nil := meet_ne_nil _ h.ne_nil c'
  run l outer hl := by
    rw [List.foldlM_append, h.run l outer hl, Option.bind_eq_bind, Option.bind_some,
      List.foldlM_cons, step, if_pos (l.awaited_after h.ne_nil), Option.bind_eq_bind,
      Option.bind_some, h'.run _ outer rfl, Level.after_meet l h.ne_nil h'.ne_nil]

/-- OR puts alternatives side by side. -/
theorem either (h : Reads ls c) (h' : Reads ls' c') : Reads (ls ++ .or :: ls') (c ++ c') where
  ne_nil := by simp [h.ne_nil]
  run l outer hl := by
    rw [List.foldlM_append, h.run l outer hl, Option.bind_eq_bind, Option.bind_some,
      List.foldlM_cons, step, if_pos (l.awaited_after h.ne_nil), Option.bind_eq_bind,
      Option.bind_some, h'.run _ outer rfl, Level.after_append l h.ne_nil h'.ne_nil]

/-- A chain in parentheses is one unit of the level around them, which may negate it. -/
theorem run_enclosed (h : Reads ls c) {l : Level} {negated : Bool} (hl : l.awaited = some negated)
    (outer : List Level) :
    (Lexeme.opening :: ls ++ [Lexeme.closing]).foldlM step (l :: outer) =
      some (⟨l.alternatives, l.units ++ [if negated then .neg c.formula else c.formula], none⟩ ::
        outer) := by
  have hformula : (Level.start.after c).formula = c.formula :=
    Level.formula_after [] (some false) h.ne_nil
  rw [List.cons_append, List.foldlM_cons, step, hl, Option.isSome_some, if_pos rfl,
    Option.bind_eq_bind, Option.bind_some, List.foldlM_append, h.run .start _ rfl,
    Option.bind_eq_bind, Option.bind_some, List.foldlM_cons, step,
    if_pos (Level.start.awaited_after h.ne_nil), hformula, Level.unit, hl]
  rfl

/-- Parentheses make one alternative of a chain. -/
theorem enclose (h : Reads ls c) : Reads (.opening :: ls ++ [.closing]) [[c.formula]] where
  ne_nil := by simp
  run l outer hl := by
    rw [h.run_enclosed hl]
    rfl

/-- So does a negation. -/
theorem negate (h : Reads ls c) :
    Reads (.not :: .opening :: ls ++ [.closing]) [[.neg c.formula]] where
  ne_nil := by simp
  run l outer hl := by
    rw [List.cons_append, List.foldlM_cons, step, if_pos hl, Option.bind_eq_bind, Option.bind_some,
      h.run_enclosed rfl]
    rfl

/-- What is read as a chain is parsed to its expression. -/
theorem parse_eq (h : Reads ls c) : parse ls = some c.formula := by
  have hformula : (Level.start.after c).formula = c.formula :=
    Level.formula_after [] (some false) h.ne_nil
  rw [parse, h.run .start [] rfl]
  simp only [Level.start.awaited_after h.ne_nil, if_pos, hformula]

end Reads

/-! ## Sentences -/

/-- Tokens before which a comparison ends. -/
def Stops (rest : List Token) : Prop :=
  ∀ t ∈ rest.head?, Span.plain.isEnd t = true

/-- Inside a comparison tokens are collected. -/
theorem scan_walk {span span' : Span} {ts : List Token} (h : span.walk ts = some span')
    (read rest : List Token) :
    scan (some (span, read)) (ts ++ rest) = scan (some (span', ts.reverse ++ read)) rest := by
  induction ts generalizing span read with
  | nil =>
    cases h
    rfl
  | cons t ts ih =>
    rw [Span.walk] at h
    split at h
    · cases h
    · rename_i hend
      rw [List.cons_append, scan, if_neg hend, ih h, List.reverse_cons, List.append_assoc,
        List.singleton_append]

/-- A comparison ends where a connective or a parenthesis comes. -/
theorem scan_of_stops {rest : List Token} (h : Stops rest) (read : List Token) :
    scan (some (.plain, read)) rest = .comparison read.reverse :: scan none rest := by
  cases rest with
  | nil => rfl
  | cons t rest =>
    have hend : Span.plain.isEnd t = true := h t (by simp)
    have hlexeme : ∃ lexeme, Lexeme.ofToken? t = some lexeme := by
      simp only [Span.isEnd, Bool.and_eq_true, List.contains_iff_mem, List.mem_cons,
        List.not_mem_nil, or_false] at hend
      obtain ⟨-, rfl | rfl | rfl⟩ := hend
      · exact ⟨.and, rfl⟩
      · exact ⟨.or, rfl⟩
      · exact ⟨.closing, rfl⟩
    obtain ⟨lexeme, hlexeme⟩ := hlexeme
    simp only [scan, hend, hlexeme, if_true, Option.toList_some, List.cons_append,
      List.nil_append]

/-- Tokens that are read as a chain if the next one ends a comparison. -/
def Sentence (ts : List Token) (c : Chain) : Prop :=
  ∃ ls, Reads ls c ∧ ∀ rest, Stops rest → scan none (ts ++ rest) = ls ++ scan none rest

namespace Sentence

variable {ts ts' : List Token} {c c' : Chain}

/-- A comparison: its first token starts it, and none of the others ends it. -/
theorem comparison {first : Token} {more : List Token} (hfirst : Lexeme.ofToken? first = none)
    (hmore : Span.plain.walk more = some .plain) :
    Sentence (first :: more) [[.atom (first :: more)]] := by
  refine ⟨[.comparison (first :: more)], .comparison _, fun rest hrest => ?_⟩
  rw [List.cons_append, scan, hfirst]
  simp only
  rw [scan_walk hmore, scan_of_stops hrest, List.reverse_append, List.reverse_reverse]
  rfl

theorem both (h : Sentence ts c) (h' : Sentence ts' c') :
    Sentence (ts ++ .keyword "AND" :: ts') (meet (· ++ ·) c c') := by
  obtain ⟨ls, hreads, hscan⟩ := h
  obtain ⟨ls', hreads', hscan'⟩ := h'
  refine ⟨_, hreads.both hreads', fun rest hrest => ?_⟩
  have hstop : Stops (.keyword "AND" :: (ts' ++ rest)) := by
    intro t ht
    cases ht
    rfl
  rw [List.append_assoc, List.cons_append, hscan _ hstop, List.append_assoc, List.cons_append,
    ← hscan' rest hrest]
  rfl

theorem either (h : Sentence ts c) (h' : Sentence ts' c') :
    Sentence (ts ++ .keyword "OR" :: ts') (c ++ c') := by
  obtain ⟨ls, hreads, hscan⟩ := h
  obtain ⟨ls', hreads', hscan'⟩ := h'
  refine ⟨_, hreads.either hreads', fun rest hrest => ?_⟩
  have hstop : Stops (.keyword "OR" :: (ts' ++ rest)) := by
    intro t ht
    cases ht
    rfl
  rw [List.append_assoc, List.cons_append, hscan _ hstop, List.append_assoc, List.cons_append,
    ← hscan' rest hrest]
  rfl

/-- The lexemes of tokens in parentheses. -/
theorem scan_enclosed {ls : List Lexeme}
    (hscan : ∀ rest, Stops rest → scan none (ts ++ rest) = ls ++ scan none rest)
    (rest : List Token) :
    scan none (.symbol '(' :: ts ++ [.symbol ')'] ++ rest) =
      .opening :: ls ++ [.closing] ++ scan none rest := by
  have hstop : Stops (.symbol ')' :: rest) := by
    intro t ht
    cases ht
    rfl
  have hopen : scan none (.symbol '(' :: (ts ++ .symbol ')' :: rest)) =
      .opening :: scan none (ts ++ .symbol ')' :: rest) := rfl
  have hclose : scan none (.symbol ')' :: rest) = .closing :: scan none rest := rfl
  rw [List.cons_append, List.cons_append, List.append_assoc, List.singleton_append, hopen,
    hscan _ hstop, hclose]
  simp

theorem enclose (h : Sentence ts c) :
    Sentence (.symbol '(' :: ts ++ [.symbol ')']) [[c.formula]] := by
  obtain ⟨ls, hreads, hscan⟩ := h
  exact ⟨_, hreads.enclose, fun rest _ => scan_enclosed hscan rest⟩

theorem negate (h : Sentence ts c) :
    Sentence (.keyword "NOT" :: .symbol '(' :: ts ++ [.symbol ')']) [[.neg c.formula]] := by
  obtain ⟨ls, hreads, hscan⟩ := h
  refine ⟨_, hreads.negate, fun rest _ => ?_⟩
  have hnot : scan none (.keyword "NOT" :: (.symbol '(' :: ts ++ [.symbol ')'] ++ rest)) =
      .not :: scan none (.symbol '(' :: ts ++ [.symbol ')'] ++ rest) := rfl
  have henclosed := scan_enclosed hscan rest
  simp only [List.cons_append] at hnot henclosed ⊢
  rw [hnot, henclosed]

/-- **A sentence is parsed to the expression of its chain.** -/
theorem parse_eq (h : Sentence ts c) : parse (scan none ts) = some c.formula := by
  obtain ⟨ls, hreads, hscan⟩ := h
  have hls := hscan [] (by simp [Stops])
  rw [List.append_nil] at hls
  rw [hls, show scan none [] = [] from rfl, List.append_nil, hreads.parse_eq]

end Sentence

end QueryTree.Sql
