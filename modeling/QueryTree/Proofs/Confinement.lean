import QueryTree.Proofs.Statements

/-!
# Names stay in their quotes

What a query says in its names can hold any character.  In the statement it stands between quotes,
and where a quoted name ends does not depend on what it holds.  Outside of the quotes there are only
letters, digits and a few signs, so no name can end its quotes, start a comment or end the
statement.

* `Sql.Piece` is a quoted name or a single character outside of quotes, and `Sql.IsSplit` says that
  a text is cut into pieces.
* **`IsSplit.unique`** : a text is cut in at most one way.
* `Sql.depth` counts the parentheses outside of quotes.
* **`compile_confines`** : the cut of a compiled query, and what stands outside of its quotes.
-/

namespace QueryTree

namespace Sql

/-! ## Pieces of a text -/

/-- A quoted name, its marks standing once, or a character outside of quotes. -/
inductive Piece where
  | quoted (body : List Char)
  | outside (c : Char)
  deriving Repr, DecidableEq

namespace Piece

/-- The text of a piece. -/
def write (mark : Char) : Piece → List Char
  | .quoted body => mark :: QuoteStyle.double mark body ++ [mark]
  | .outside c => [c]

def isQuoted : Piece → Bool
  | .quoted _ => true
  | .outside _ => false

/-- The character of a piece outside of quotes. -/
def outside? : Piece → Option Char
  | .quoted _ => none
  | .outside c => some c

end Piece

/-- The text outside of quotes. -/
def outsideOf (pieces : List Piece) : List Char :=
  pieces.filterMap Piece.outside?

/-- The text is cut into the pieces: no mark stands outside of quotes, and no two quoted names stand
side by side. -/
structure IsSplit (mark : Char) (pieces : List Piece) (text : List Char) : Prop where
  written : pieces.flatMap (Piece.write mark) = text
  unmarked : ∀ c, .outside c ∈ pieces → c ≠ mark
  apart : pieces.IsChain fun p p' => (p.isQuoted && p'.isQuoted) = false

/-- The characters that stand outside of quotes. -/
def isAllowed (c : Char) : Bool :=
  c.isAlpha || c.isDigit || "_ @$.,()=!<>*?".toList.contains c

/-- The depth of parentheses after some characters, if it never falls below zero. -/
def depth : Nat → List Char → Option Nat
  | n, [] => some n
  | n, c :: rest =>
    if c = '(' then depth (n + 1) rest
    else if c = ')' then
      match n with
      | 0 => none
      | n + 1 => depth n rest
    else depth n rest

/-! ## A text is cut in at most one way -/

/-- Where a quoted name ends. -/
theorem double_cancel {mark : Char} {body body' rest rest' : List Char}
    (hrest : ∀ c ∈ rest.head?, c ≠ mark) (hrest' : ∀ c ∈ rest'.head?, c ≠ mark)
    (h : QuoteStyle.double mark body ++ mark :: rest =
      QuoteStyle.double mark body' ++ mark :: rest') : body = body' ∧ rest = rest' := by
  induction body generalizing body' with
  | nil =>
    cases body' with
    | nil =>
      simp only [QuoteStyle.double, List.nil_append, List.cons.injEq, true_and] at h
      exact ⟨rfl, h⟩
    | cons c body' =>
      by_cases hc : c = mark
      · simp only [QuoteStyle.double, hc, if_true, List.nil_append, List.cons_append,
          List.cons.injEq, true_and] at h
        exact absurd rfl (hrest mark (by simp [h]))
      · simp only [QuoteStyle.double, hc, if_false, List.nil_append, List.cons_append,
          List.cons.injEq] at h
        exact absurd h.1.symm hc
  | cons c body ih =>
    cases body' with
    | nil =>
      by_cases hc : c = mark
      · simp only [QuoteStyle.double, hc, if_true, List.nil_append, List.cons_append,
          List.cons.injEq, true_and] at h
        exact absurd rfl (hrest' mark (by simp [← h]))
      · simp only [QuoteStyle.double, hc, if_false, List.nil_append, List.cons_append,
          List.cons.injEq] at h
        exact h.1.elim
    | cons c' body' =>
      by_cases hc : c = mark <;> by_cases hc' : c' = mark
      · simp only [QuoteStyle.double, hc, hc', if_true, List.cons_append, List.cons.injEq,
          true_and] at h
        obtain ⟨hbody, hrests⟩ := ih h
        exact ⟨by rw [hc, hc', hbody], hrests⟩
      · simp only [QuoteStyle.double, hc, hc', if_true, if_false, List.cons_append,
          List.cons.injEq] at h
        exact absurd h.1.symm hc'
      · simp only [QuoteStyle.double, hc, hc', if_true, if_false, List.cons_append,
          List.cons.injEq] at h
        exact h.1.elim
      · simp only [QuoteStyle.double, hc, hc', if_false, List.cons_append, List.cons.injEq] at h
        obtain ⟨hbody, hrests⟩ := ih h.2
        exact ⟨by rw [h.1, hbody], hrests⟩

namespace IsSplit

variable {mark : Char} {piece : Piece} {pieces pieces' : List Piece} {text : List Char}

theorem tail (h : IsSplit mark (piece :: pieces) text) :
    IsSplit mark pieces (pieces.flatMap (Piece.write mark)) where
  written := rfl
  unmarked c hc := h.unmarked c (List.mem_cons_of_mem _ hc)
  apart := h.apart.tail

/-- What follows a quoted name does not start with a mark. -/
theorem head_ne_mark {body : List Char} (h : IsSplit mark (.quoted body :: pieces) text) :
    ∀ c ∈ (pieces.flatMap (Piece.write mark)).head?, c ≠ mark := by
  intro c hc
  cases pieces with
  | nil => cases hc
  | cons next rest =>
    cases next with
    | quoted body' => exact absurd (List.isChain_cons_cons.1 h.apart).1 (by simp [Piece.isQuoted])
    | outside c' =>
      cases hc
      exact h.unmarked c (by simp)

/-- A text is cut in at most one way. -/
theorem unique (h : IsSplit mark pieces text) (h' : IsSplit mark pieces' text) :
    pieces = pieces' := by
  induction pieces generalizing pieces' text with
  | nil =>
    cases pieces' with
    | nil => rfl
    | cons piece' rest' =>
      have heq := h.written.trans h'.written.symm
      cases piece' <;> cases heq
  | cons piece rest ih =>
    cases pieces' with
    | nil =>
      have heq := h.written.trans h'.written.symm
      cases piece <;> cases heq
    | cons piece' rest' =>
      have heq := h.written.trans h'.written.symm
      cases piece with
      | quoted body =>
        cases piece' with
        | quoted body' =>
          simp only [List.flatMap_cons, Piece.write, List.cons_append, List.append_assoc,
            List.cons.injEq, true_and] at heq
          obtain ⟨hbody, hrest⟩ := double_cancel h.head_ne_mark h'.head_ne_mark heq
          have htail := h'.tail
          rw [← hrest] at htail
          rw [hbody, ih h.tail htail]
        | outside c' =>
          simp only [List.flatMap_cons, Piece.write, List.cons_append, List.cons.injEq] at heq
          exact absurd heq.1.symm (h'.unmarked c' List.mem_cons_self)
      | outside c =>
        cases piece' with
        | quoted body' =>
          simp only [List.flatMap_cons, Piece.write, List.cons_append, List.cons.injEq] at heq
          exact absurd heq.1 (h.unmarked c List.mem_cons_self)
        | outside c' =>
          simp only [List.flatMap_cons, Piece.write, List.cons_append, List.nil_append,
            List.cons.injEq] at heq
          have htail := h'.tail
          rw [← heq.2] at htail
          rw [heq.1, ih h.tail htail]

end IsSplit

/-! ## The pieces of tokens -/

namespace Token

/-- The characters of a token outside of quotes. -/
def outside : Token → List Char
  | .quoted _ => []
  | .word text => text
  | .slot digits => '$' :: digits
  | .symbol c => [c]

/-- The pieces of a token. -/
def pieces : Token → List Piece
  | .quoted body => [.quoted body]
  | t => t.outside.map .outside

/-- The pieces of a token are written as the token. -/
theorem write_pieces (mark : Char) (t : Token) :
    t.pieces.flatMap (Piece.write mark) = t.write mark := by
  have hchars : ∀ cs : List Char, (cs.map Piece.outside).flatMap (Piece.write mark) = cs := by
    intro cs
    simp [List.flatMap_map, Piece.write]
  cases t with
  | quoted body => simp [pieces, Piece.write, write]
  | word text | slot digits | symbol c => exact hchars _

/-- What is outside of quotes in a token. -/
theorem outsideOf_pieces (t : Token) : outsideOf t.pieces = t.outside := by
  have hchars : ∀ cs : List Char, outsideOf (cs.map .outside) = cs := by
    intro cs
    simp [outsideOf, List.filterMap_map, Function.comp_def, Piece.outside?]
  cases t with
  | quoted body => rfl
  | word text | slot digits | symbol c => exact hchars _

/-- Only a quoted name has a quoted piece. -/
theorem eq_quoted_of_mem_pieces {t : Token} {p : Piece} (hp : p ∈ t.pieces)
    (hquoted : p.isQuoted = true) : ∃ body, t = .quoted body := by
  cases t with
  | quoted body => exact ⟨body, rfl⟩
  | word text | slot digits | symbol c =>
    obtain ⟨c, -, rfl⟩ := List.mem_map.1 hp
    cases hquoted

/-- Quoted pieces of a token do not touch each other. -/
theorem pieces_apart (t : Token) :
    t.pieces.IsChain fun p p' => (p.isQuoted && p'.isQuoted) = false := by
  cases t with
  | quoted body => exact .singleton _
  | word text | slot digits | symbol c =>
    exact (List.isChain_map _).2 (List.pairwise_of_forall fun _ _ => rfl).isChain

theorem pieces_ne_nil {t : Token} (ht : t.isProper = true) : t.pieces ≠ [] := by
  cases t with
  | word text =>
    cases text with
    | nil => cases ht
    | cons c text => exact List.cons_ne_nil _ _
  | quoted body | slot digits | symbol c => exact List.cons_ne_nil _ _

/-- Every character of a word or of a numbered placeholder goes on a word. -/
theorem isWordChar_of_mem_outside {t : Token} (ht : t.isProper = true)
    (hsymbol : ∀ c, t ≠ .symbol c) : ∀ c ∈ t.outside, isWordChar c = true := by
  intro c hc
  cases t with
  | quoted body => cases hc
  | word text =>
    cases text with
    | nil => cases ht
    | cons first rest =>
      simp only [isProper, Bool.and_eq_true, List.all_eq_true] at ht
      rcases List.mem_cons.1 hc with rfl | hc
      · have hstart := ht.1
        simp only [isWordStart, Bool.or_eq_true] at hstart
        rcases hstart with h | h <;> simp [isWordChar, Char.isAlphanum, h]
      · exact ht.2 c hc
  | slot digits =>
    simp only [isProper, Bool.and_eq_true, List.all_eq_true] at ht
    rcases List.mem_cons.1 hc with rfl | hc
    · decide
    · simp [isWordChar, Char.isAlphanum, ht.2 c hc]
  | symbol c' => exact absurd rfl (hsymbol c')

/-- The characters of a token outside of quotes are allowed there. -/
theorem isAllowed_of_mem_outside {t : Token} (ht : t.isProper = true) :
    ∀ c ∈ t.outside, isAllowed c = true := by
  have hword : ∀ c, isWordChar c = true → isAllowed c = true := by
    intro c hc
    simp only [isWordChar, Char.isAlphanum, Bool.or_eq_true, beq_iff_eq] at hc
    rcases hc with (((hc | hc) | rfl) | rfl) | rfl
    · simp [isAllowed, hc]
    · simp [isAllowed, hc]
    · decide
    · decide
    · decide
  intro c hc
  cases t with
  | quoted body => cases hc
  | word text => exact hword c (isWordChar_of_mem_outside ht (by simp) c hc)
  | slot digits => exact hword c (isWordChar_of_mem_outside ht (by simp) c hc)
  | symbol c' =>
    rw [List.mem_singleton.1 hc]
    simp only [isProper, isPlain, Bool.or_eq_true] at ht
    rcases ht with ht | ht
    · simp [isAllowed, ht]
    · have hclass : " @.,()=!<>*?".toList.all isAllowed = true := by decide
      exact List.all_eq_true.1 hclass c' (by simpa using ht)

/-- Parentheses are symbols, so counting them in a token is counting them in its characters. -/
theorem depth_outside {t : Token} (ht : t.isProper = true) (n : Nat) (rest : List Char) :
    depth n (t.outside ++ rest) = (nest n [t]).bind (depth · rest) := by
  have hword : ∀ cs : List Char, (∀ c ∈ cs, isWordChar c = true) →
      depth n (cs ++ rest) = depth n rest := by
    intro cs hcs
    induction cs with
    | nil => rfl
    | cons c cs ih =>
      have hc := hcs c List.mem_cons_self
      have hopen : c ≠ '(' := by
        rintro rfl
        revert hc
        decide
      have hclose : c ≠ ')' := by
        rintro rfl
        revert hc
        decide
      simp only [List.cons_append, depth, if_neg hopen, if_neg hclose]
      exact ih fun c' hc' => hcs c' (List.mem_cons_of_mem _ hc')
  cases t with
  | quoted body => rfl
  | word text => exact hword _ (isWordChar_of_mem_outside ht (by simp))
  | slot digits => exact hword _ (isWordChar_of_mem_outside ht (by simp))
  | symbol c =>
    simp only [outside, List.singleton_append, depth, nest]
    split
    · rfl
    · split
      · cases n <;> rfl
      · rfl

end Token

/-! ## The cut of a phrase -/

/-- The pieces of tokens. -/
def piecesOf (ts : List Token) : List Piece :=
  ts.flatMap Token.pieces

/-- Parentheses are counted outside of quotes only. -/
theorem depth_piecesOf {ts : List Token} (hts : Proper ts) (n : Nat) :
    depth n (outsideOf (piecesOf ts)) = nest n ts := by
  obtain ⟨hall, -⟩ := hts
  induction ts generalizing n with
  | nil => rfl
  | cons t rest ih =>
    have hcons : outsideOf (piecesOf (t :: rest)) = t.outside ++ outsideOf (piecesOf rest) := by
      simp [piecesOf, outsideOf, ← Token.outsideOf_pieces]
    have hrest : (fun m => depth m (outsideOf (piecesOf rest))) = fun m => nest m rest := by
      funext m
      exact ih m fun t' ht' => hall t' (List.mem_cons_of_mem _ ht')
    have hnest : nest n (t :: rest) = (nest n [t]).bind (nest · rest) := nest_append n [t] rest
    rw [hcons, Token.depth_outside (hall t List.mem_cons_self), hrest, hnest]

/-- Outside of quotes there are only the characters of keywords and symbols. -/
theorem isAllowed_of_mem_outsideOf {ts : List Token} (hts : Proper ts) :
    ∀ c ∈ outsideOf (piecesOf ts), isAllowed c = true := by
  intro c hc
  obtain ⟨p, hp, hc⟩ := List.mem_filterMap.1 hc
  obtain ⟨t, ht, hp⟩ := List.mem_flatMap.1 hp
  refine t.isAllowed_of_mem_outside (hts.all t ht) c ?_
  rw [← t.outsideOf_pieces]
  exact List.mem_filterMap.2 ⟨p, hp, hc⟩

/-- The pieces of proper tokens cut their text. -/
theorem isSplit_piecesOf {mark : Char} (hmark : IsMark mark) {ts : List Token} (hts : Proper ts) :
    IsSplit mark (piecesOf ts) (write mark ts) where
  written := by
    simp only [piecesOf, write, List.flatMap_assoc, Token.write_pieces]
  unmarked c hc := by
    have hallowed := isAllowed_of_mem_outsideOf hts c (List.mem_filterMap.2 ⟨_, hc, rfl⟩)
    rintro rfl
    rcases hmark with rfl | rfl <;> revert hallowed <;> decide
  apart := by
    obtain ⟨hall, hchain⟩ := hts
    induction ts with
    | nil => exact .nil
    | cons t rest ih =>
      have hrest := ih (fun t' ht' => hall t' (List.mem_cons_of_mem _ ht')) hchain.tail
      refine List.isChain_append.2 ⟨t.pieces_apart, hrest, fun p hp p' hp' => ?_⟩
      by_contra hquoted
      simp only [Bool.not_eq_false, Bool.and_eq_true] at hquoted
      obtain ⟨body, rfl⟩ := Token.eq_quoted_of_mem_pieces (List.mem_of_getLast? hp) hquoted.1
      cases rest with
      | nil => cases hp'
      | cons t' rest =>
        have hhead : (piecesOf (t' :: rest)).head? = t'.pieces.head? := by
          have hne := Token.pieces_ne_nil (hall t' (by simp))
          obtain ⟨first, others, hpieces⟩ := List.exists_cons_of_ne_nil hne
          simp [piecesOf, hpieces]
        replace hp' : p' ∈ t'.pieces.head? := hhead ▸ hp'
        obtain ⟨body', rfl⟩ := Token.eq_quoted_of_mem_pieces (List.mem_of_head? hp') hquoted.2
        cases (List.isChain_cons_cons.1 hchain).1

end Sql

/-! ## Compiled queries -/

/-- **Names stay in their quotes.**  A compiled query is cut in exactly one way into quoted names,
no two of them side by side, and characters that are allowed outside of quotes; its parentheses
there match. -/
theorem compile_confines {d : Dialect} (hd : d ∈ Dialect.library) {query : Value}
    {statement : Statement} (h : d.compile query = .ok statement) :
    ∃ pieces, Sql.IsSplit d.quoting.mark pieces statement.sql.toList ∧
      (∀ others, Sql.IsSplit d.quoting.mark others statement.sql.toList → others = pieces) ∧
      (∀ c ∈ Sql.outsideOf pieces, Sql.isAllowed c = true) ∧
      Sql.depth 0 (Sql.outsideOf pieces) = some 0 := by
  obtain ⟨S, hmark, htext⟩ := Dialect.exists_scheme hd (Dialect.settled_of_mem hd).placeholder
  have hclause : Sql.Clause S query.leaves 0 statement.sql statement.values := by
    refine Dialect.clause_of_compile hd hmark ?_
    rw [← htext]
    exact h
  obtain ⟨ts, hwritten, hts⟩ := hclause.spelling
  have hsplit := Sql.isSplit_piecesOf S.isMark hts.proper
  rw [← hwritten, ← hmark] at hsplit
  refine ⟨Sql.piecesOf ts, hsplit, fun others hothers => hothers.unique hsplit,
    Sql.isAllowed_of_mem_outsideOf hts.proper, ?_⟩
  rw [Sql.depth_piecesOf hts.proper, hts.balanced]

/-- A query whose names close quotes and parentheses, end statements and open comments. -/
def breakoutQuery : Value :=
  .object
    [("$select", .object
      [("$columns", .list [.str "a\"; DROP TABLE t; --", .str "b)"]),
        ("$table", .str "t\"\" /* ' \\"),
        ("$where", .object
          [("c", .object
            [("$in", .object
              [("$select", .object
                [("$columns", .str "("), ("$table", .str "#u\n")])])])])])]

/-- The statement of `breakoutQuery` in the PostgreSQL dialect. -/
def breakoutStatement : Statement where
  sql :=
    "SELECT \"a\"\"; DROP TABLE t; --\", \"b)\" FROM \"t\"\"\"\" /* ' \\\" " ++
      "WHERE \"c\" IN (SELECT \"(\" FROM \"#u\n\")"
  values := []
  dialect := "postgresql"

set_option maxRecDepth 4000 in
theorem compile_breakoutQuery :
    Dialect.postgres.compile breakoutQuery = .ok breakoutStatement := by
  rw [Dialect.postgres_eq]
  rfl

/-- Names that try to leave their quotes stay in them. -/
theorem compile_confines_breakoutQuery :
    Dialect.postgres.compile breakoutQuery = .ok breakoutStatement ∧
      ∃ pieces, Sql.IsSplit Dialect.postgres.quoting.mark pieces breakoutStatement.sql.toList ∧
        (∀ others, Sql.IsSplit Dialect.postgres.quoting.mark others
          breakoutStatement.sql.toList → others = pieces) ∧
        (∀ c ∈ Sql.outsideOf pieces, Sql.isAllowed c = true) ∧
        Sql.depth 0 (Sql.outsideOf pieces) = some 0 := by
  have hmem : Dialect.postgres ∈ Dialect.library :=
    List.mem_cons_of_mem _ (List.mem_cons_of_mem _ List.mem_cons_self)
  exact ⟨compile_breakoutQuery, compile_confines hmem compile_breakoutQuery⟩

end QueryTree
