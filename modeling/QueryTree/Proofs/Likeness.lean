import QueryTree.Proofs.InStep
import QueryTree.Proofs.Positions

/-!
# Texts that are alike

Two renderings of one query can differ in the style of the dialect, in where the numbers of the
placeholders start, or in the connective around them.  What their texts have in common is a relation
that survives everything a rendering does with texts.

* `Likeness` is such a relation.  It counts the placeholders of a text, and it is told whether the
  text holds an expression that one rendering puts in parentheses and the other does not.
* `Likeness.Texts` is the same for lists of texts, and `Texts.intercalate`, `Texts.dropEmpty` are
  what is done with them.
* `Call.Like` and `Context.Like` say which calls and which contexts are taken for each other.
* **`Likeness.pairing`** makes it a pairing of programs; `Likeness.Renders` and
  `Likeness.RendersAll` are the programs in step that render a text or a list of texts.
-/

namespace QueryTree

open Rendering (InStep)

/-- A relation between texts that is closed under putting texts together.  `rel e k a a'` relates
texts with `k` placeholders; `e` says that `a'` has parentheses that `a` does not have. -/
structure Likeness where
  rel : Prop → Nat → String → String → Prop
  refl : ∀ text, rel False 0 text text
  append : ∀ {e f : Prop} {k l : Nat} {a a' b b' : String}, rel e k a a' → rel f l b b' →
    rel (e ∨ f) (k + l) (a ++ b) (a' ++ b')
  isEmpty_eq : ∀ {e : Prop} {k : Nat} {a a' : String}, rel e k a a' → a.isEmpty = a'.isEmpty
  of_isEmpty : ∀ {e : Prop} {k : Nat} {a a' : String}, rel e k a a' → a.isEmpty = true → ¬ e ∧ k = 0
  enclose : ∀ {e : Prop} {k : Nat} {a a' : String}, rel e k a a' → a.isEmpty = false →
    rel True k a ("(" ++ a' ++ ")")

namespace Likeness

section

variable (L : Likeness) {e f : Prop} {k l : Nat} {a a' b b' : String}

/-- What is said of the connective can be put in other words. -/
theorem congr (h : L.rel e k a a') (he : e ↔ f) (hk : k = l) : L.rel f l a a' := by
  rwa [← propext he, ← hk]

/-- A text after a common one. -/
theorem before (text : String) (h : L.rel e k a a') : L.rel e k (text ++ a) (text ++ a') :=
  L.congr (L.append (L.refl text) h) (by simp) (by simp)

/-- A text with a common one after it. -/
theorem after (text : String) (h : L.rel e k a a') : L.rel e k (a ++ text) (a' ++ text) :=
  L.congr (L.append h (L.refl text)) (by simp) (by simp)

/-- Two texts with a common one between them. -/
theorem join (text : String) (ha : L.rel e k a a') (hb : L.rel f l b b') :
    L.rel (e ∨ f) (k + l) (a ++ text ++ b) (a' ++ text ++ b') :=
  L.append (L.after text ha) hb

end

theorem isEmpty_append (a b : String) : (a ++ b).isEmpty = (a.isEmpty && b.isEmpty) := by
  rw [Bool.eq_iff_iff, Bool.and_eq_true, String.isEmpty_iff, String.isEmpty_iff, String.isEmpty_iff,
    String.append_eq_empty_iff]

/-- What every likeness says of empty texts, for two texts in a row. -/
theorem isEmpty_append_congr {e f : Prop} {k l : Nat} {a a' b b' : String}
    (ha : a.isEmpty = a'.isEmpty ∧ (a.isEmpty = true → ¬ e ∧ k = 0))
    (hb : b.isEmpty = b'.isEmpty ∧ (b.isEmpty = true → ¬ f ∧ l = 0)) :
    (a ++ b).isEmpty = (a' ++ b').isEmpty ∧
      ((a ++ b).isEmpty = true → ¬ (e ∨ f) ∧ k + l = 0) := by
  refine ⟨by rw [isEmpty_append, isEmpty_append, ha.1, hb.1], fun hempty => ?_⟩
  rw [isEmpty_append, Bool.and_eq_true] at hempty
  obtain ⟨he, rfl⟩ := ha.2 hempty.1
  obtain ⟨hf, rfl⟩ := hb.2 hempty.2
  exact ⟨not_or.2 ⟨he, hf⟩, rfl⟩

/-- A text in parentheses is not empty. -/
theorem isEmpty_enclose (text : String) : ("(" ++ text ++ ")").isEmpty = false := by
  rw [isEmpty_append, isEmpty_append]
  rfl

/-- A relation between texts that is closed under putting texts together. -/
structure Congruence where
  rel : Nat → String → String → Prop
  refl : ∀ text, rel 0 text text
  append : ∀ {k l : Nat} {a a' b b' : String}, rel k a a' → rel l b b' →
    rel (k + l) (a ++ b) (a' ++ b')

/-- The texts are related where no parentheses differ; empty texts stay apart from others. -/
def ofCongruence (C : Congruence) : Likeness where
  rel e k a a' :=
    a.isEmpty = a'.isEmpty ∧ (a.isEmpty = true → ¬ e ∧ k = 0) ∧ (¬ e → C.rel k a a')
  refl text := ⟨rfl, fun _ => ⟨id, rfl⟩, fun _ => C.refl text⟩
  append := by
    rintro e f k l a a' b b' ⟨ha, hae, haC⟩ ⟨hb, hbe, hbC⟩
    obtain ⟨hsame, hempty⟩ := isEmpty_append_congr ⟨ha, hae⟩ ⟨hb, hbe⟩
    refine ⟨hsame, hempty, fun hef => ?_⟩
    exact C.append (haC fun he => hef (.inl he)) (hbC fun hf => hef (.inr hf))
  isEmpty_eq h := h.1
  of_isEmpty h := h.2.1
  enclose := by
    rintro e k a a' - hempty
    refine ⟨hempty.trans (isEmpty_enclose a').symm, fun h => ?_, fun h => absurd trivial h⟩
    exact absurd (hempty.symm.trans h) Bool.false_ne_true

/-- Texts that are congruent and not empty are alike, whatever is around them. -/
theorem ofCongruence_rel {C : Congruence} {e : Prop} {k : Nat} {a a' : String}
    (ha : a.isEmpty = false) (ha' : a'.isEmpty = false) (h : C.rel k a a') :
    (ofCongruence C).rel e k a a' :=
  ⟨ha.trans ha'.symm, fun hempty => absurd (ha.symm.trans hempty) Bool.false_ne_true, fun _ => h⟩

/-! ## Lists of texts -/

/-- Lists of texts that are alike, one by one. -/
inductive Texts (L : Likeness) : Prop → Nat → List String → List String → Prop where
  | nil : Texts L False 0 [] []
  | cons {e f : Prop} {k l : Nat} {t t' : String} {ts ts' : List String} (first : L.rel e k t t')
      (rest : Texts L f l ts ts') : Texts L (e ∨ f) (k + l) (t :: ts) (t' :: ts')

namespace Texts

variable {L : Likeness} {e f : Prop} {k l : Nat} {a a' : String} {ts ts' us us' : List String}

theorem congr (h : L.Texts e k ts ts') (he : e ↔ f) (hk : k = l) : L.Texts f l ts ts' := by
  rwa [← propext he, ← hk]

theorem singleton (h : L.rel e k a a') : L.Texts e k [a] [a'] :=
  (Texts.cons h .nil).congr (by simp) (by simp)

/-- Lists of texts that are alike can be put together. -/
theorem append (h : L.Texts e k ts ts') (h' : L.Texts f l us us') :
    L.Texts (e ∨ f) (k + l) (ts ++ us) (ts' ++ us') := by
  induction h with
  | nil => exact h'.congr (by simp) (by simp)
  | cons first _ ih => exact (Texts.cons first ih).congr or_assoc.symm (Nat.add_assoc ..).symm

/-- Lists that are alike have as many texts. -/
theorem length_eq (h : L.Texts e k ts ts') : ts.length = ts'.length := by
  induction h with
  | nil => rfl
  | cons _ _ ih => rw [List.length_cons, List.length_cons, ih]

theorem isEmpty_eq (h : L.Texts e k ts ts') : ts.isEmpty = ts'.isEmpty := by
  cases h <;> rfl

/-- Texts with a common one between them. -/
theorem intercalate (text : String) (h : L.Texts e k ts ts') :
    L.rel e k (text.intercalate ts) (text.intercalate ts') := by
  induction h with
  | nil =>
    rw [String.intercalate_nil]
    exact L.refl ""
  | cons first rest ih =>
    cases rest with
    | nil =>
      rw [String.intercalate_singleton, String.intercalate_singleton]
      exact L.congr first (by simp) (by simp)
    | cons =>
      rw [String.intercalate_cons_cons, String.intercalate_cons_cons]
      exact L.join text first ih

/-- With commas between them the texts are alike as a whole. -/
theorem commaList (h : L.Texts e k ts ts') : L.rel e k (commaList ts) (commaList ts') :=
  h.intercalate ", "

/-- What is left out because it is empty in one list is left out of the other. -/
theorem dropEmpty (h : L.Texts e k ts ts') :
    L.Texts e k (ts.filter fun t => !t.isEmpty) (ts'.filter fun t => !t.isEmpty) := by
  induction h with
  | nil => exact .nil
  | cons first rest ih =>
    rw [List.filter_cons, List.filter_cons, ← L.isEmpty_eq first]
    split
    · exact .cons first ih
    · rename_i hempty
      obtain ⟨hexposed, rfl⟩ := L.of_isEmpty first (by simpa using hempty)
      exact ih.congr (by simp [hexposed]) (by simp)

end Texts

end Likeness

/-! ## Calls and contexts -/

/-- Whether a conjunction inside the connective stands in parentheses. -/
def Combinator.encloses (parent : Option Combinator) : Bool :=
  parent.isSome && parent != some .and

/-- A conjunction is put in parentheses inside `parent'`, and not inside `parent`. -/
def Combinator.Enters (parent parent' : Option Combinator) : Prop :=
  encloses parent = false ∧ encloses parent' = true

/-- Nothing is enclosed by staying where it is. -/
theorem Combinator.not_enters_self (parent : Option Combinator) : ¬ Enters parent parent := by
  rintro ⟨hfalse, htrue⟩
  rw [hfalse] at htrue
  cases htrue

/-- Two calls of one operator at operands that are alike. -/
structure Call.Like (vary : Value → Value → Prop) (c c' : Call) : Prop where
  operator : c.operator = c'.operator
  operand : Alike vary (.ofOperator c.operator) c.operand c'.operand
  nulls : ∀ key, (c.node.valueOf key).isNull = (c'.node.valueOf key).isNull
  column : c.column = c'.column
  encloses : Combinator.encloses c.combinator = true → Combinator.encloses c'.combinator = true

/-- Two contexts in which names are alike. -/
structure Context.Like (L : Likeness) (ctx ctx' : Context) : Prop where
  names : ∀ parts, L.rel False 0 (String.ofList (ctx.quoting.joinSegments parts))
    (String.ofList (ctx'.quoting.joinSegments parts))
  maxLimit : L.rel False 0 ctx.maxLimit ctx'.maxLimit
  isStatement : ctx.isStatement = ctx'.isStatement
  isPredicate : ctx.isPredicate = ctx'.isPredicate
  encloses : Combinator.encloses ctx.combinator = true →
    Combinator.encloses ctx'.combinator = true

namespace Likeness

variable {L : Likeness} {vary : Value → Value → Prop} {e f : Prop} {ctx ctx' : Context}

/-- Programs are paired if their texts are alike.  A reply differs by parentheses if its operand
holds an expression that enters another connective. -/
def pairing (L : Likeness) (vary : Value → Value → Prop) : Pairing where
  value v v' := v = v' ∨ vary v v'
  token := L.rel False 1
  call := Call.Like vary
  reply c c' := L.rel (Combinator.Enters c.combinator c'.combinator ∧
    Exposed (.ofOperator c.operator) c.operand)

/-- Two programs that render texts that are alike. -/
abbrev Renders (L : Likeness) (vary : Value → Value → Prop) (e : Prop) :
    Rendering String → Rendering String → Prop :=
  InStep (L.pairing vary) (L.rel e) 0

/-- Two programs that render lists of texts that are alike. -/
abbrev RendersAll (L : Likeness) (vary : Value → Value → Prop) (e : Prop) :
    Rendering (List String) → Rendering (List String) → Prop :=
  InStep (L.pairing vary) (L.Texts e) 0

/-- Where no values vary, the same values are bound. -/
theorem values_eq {us vs : List Value} (h : List.Forall₂ (fun v v' => v = v' ∨ False) us vs) :
    us = vs := by
  simpa using h

theorem Renders.congr {x y : Rendering String} (h : L.Renders vary e x y) (he : e ↔ f) :
    L.Renders vary f x y :=
  h.mono fun _ _ _ hrel => L.congr hrel he rfl

theorem RendersAll.congr {x y : Rendering (List String)} (h : L.RendersAll vary e x y)
    (he : e ↔ f) : L.RendersAll vary f x y :=
  h.mono fun _ _ _ htexts => htexts.congr he rfl

/-- Texts that are the same but for the style. -/
theorem Renders.of_not {x y : Rendering String} (h : L.Renders vary False x y) (he : ¬ e) :
    L.Renders vary e x y :=
  h.congr (iff_of_false id he)

/-- A text that does not depend on data is like itself. -/
theorem Renders.text (text : String) : L.Renders vary False (pure text) (pure text) :=
  .pure (L.refl text)

/-- A value that is bound may vary, since its placeholder does not. -/
theorem Renders.bound {v v' : Value} (h : v = v' ∨ vary v v') :
    L.Renders vary False (.bound v) (.bound v') :=
  (InStep.bound h).mono fun _ _ _ ⟨hk, htoken⟩ => hk ▸ htoken

/-- One of several holds for the first item or for one of the others. -/
theorem or_exists_mem {α : Type} {E : α → Prop} {item : α} {items : List α} :
    (E item ∨ ∃ a ∈ items, E a) ↔ ∃ a ∈ item :: items, E a := by
  simp only [List.mem_cons, exists_eq_or_imp]

/-- A condition on all items next to one of them. -/
theorem and_exists_mem {α : Type} {P : Prop} {E : α → Prop} {items : List α} :
    (P ∧ ∃ a ∈ items, E a) ↔ ∃ a ∈ items, P ∧ E a := by
  constructor
  · rintro ⟨hP, a, hmem, hE⟩
    exact ⟨a, hmem, hP, hE⟩
  · rintro ⟨a, hmem, hP, hE⟩
    exact ⟨hP, a, hmem, hE⟩

theorem RendersAll.each_length {α β : Type} {E : α → Prop} {f : α → Rendering String}
    {g : β → Rendering String} {items : List α} {items' : List β}
    (h : List.Forall₂ (fun a b => L.Renders vary (E a) (f a) (g b)) items items') :
    InStep (L.pairing vary)
      (fun k ts ts' => L.Texts (∃ a ∈ items, E a) k ts ts' ∧ ts.length = items.length) 0
      (Rendering.each f items) (Rendering.each g items') :=
  InStep.each (R := fun a => L.rel (E a))
    (S := fun items k ts ts' => L.Texts (∃ a ∈ items, E a) k ts ts' ∧ ts.length = items.length)
    ⟨Texts.nil.congr (by simp) rfl, rfl⟩
    (fun hfirst hrest =>
      ⟨(Texts.cons hfirst hrest.1).congr or_exists_mem rfl, congrArg (· + 1) hrest.2⟩) h

/-- A list of programs keeps in step if each of them does with its partner. -/
theorem RendersAll.each {α β : Type} {E : α → Prop} {f : α → Rendering String}
    {g : β → Rendering String} {items : List α} {items' : List β}
    (h : List.Forall₂ (fun a b => L.Renders vary (E a) (f a) (g b)) items items') :
    L.RendersAll vary (∃ a ∈ items, E a) (Rendering.each f items) (Rendering.each g items') :=
  (RendersAll.each_length h).mono fun _ _ _ htexts => htexts.1

/-- Programs for every item that each render several texts. -/
theorem RendersAll.each_flatten {α β : Type} {E : α → Prop} {f : α → Rendering (List String)}
    {g : β → Rendering (List String)} {items : List α} {items' : List β}
    (h : List.Forall₂ (fun a b => L.RendersAll vary (E a) (f a) (g b)) items items') :
    InStep (L.pairing vary)
      (fun k ts ts' => L.Texts (∃ a ∈ items, E a) k ts.flatten ts'.flatten) 0
      (Rendering.each f items) (Rendering.each g items') :=
  InStep.each (R := fun a => L.Texts (E a))
    (S := fun items k ts ts' => L.Texts (∃ a ∈ items, E a) k ts.flatten ts'.flatten)
    (Texts.nil.congr (by simp) rfl)
    (fun hfirst hrest => (Texts.append hfirst hrest).congr or_exists_mem rfl) h

end Likeness

end QueryTree
