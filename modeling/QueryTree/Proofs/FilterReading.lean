import QueryTree.Proofs.Comparisons
import QueryTree.Proofs.Equations
import QueryTree.Proofs.Precedence

/-!
# What the text of a filter says

A filter of comparisons is always rendered.  Its text, read with the precedence of SQL, is a Boolean
expression over the same comparisons in the same order.  It means what the filter means exactly if
the filter is guarded.

* `Sql.Stated` : a text that is read as a chain; `Stated.both`, `either`, `enclose` and `negate` put
  such texts together.
* **`Tree.rendered`** : a filter is rendered as a text that is read as its chain.
* **`condition_meaning_iff_guarded`** : the meaning of the text, and when it is that of the filter.
-/

namespace QueryTree

namespace Sql

/-! ## Texts that are read as a chain -/

/-- A text that is read as the chain `c`. -/
def Stated (S : Scheme) (c : Chain) (n : Nat) (text : String) (vs : List Value) : Prop :=
  ∃ ts, Spelled S ts n text vs ∧ Sentence ts c

namespace Stated

variable {S : Scheme} {n : Nat} {a b : String} {us ws : List Value} {c c' : Chain}

theorem ne_nil (h : Stated S c n a us) : c ≠ [] := by
  obtain ⟨ts, -, ls, hreads, -⟩ := h
  exact hreads.ne_nil

/-- Two texts with AND between them are read as the chains that meet. -/
theorem both (ha : Stated S c n a us) (hb : Stated S c' (n + us.length) b ws) :
    Stated S (meet (· ++ ·) c c') n (a ++ " AND " ++ b) (us ++ ws) := by
  obtain ⟨ts, hts, hc⟩ := ha
  obtain ⟨ts', hts', hc'⟩ := hb
  exact ⟨_, hts.sep (by decide) hts', hc.both hc'⟩

/-- Two texts with OR between them are read as the alternatives of both. -/
theorem either (ha : Stated S c n a us) (hb : Stated S c' (n + us.length) b ws) :
    Stated S (c ++ c') n (a ++ " OR " ++ b) (us ++ ws) := by
  obtain ⟨ts, hts, hc⟩ := ha
  obtain ⟨ts', hts', hc'⟩ := hb
  exact ⟨_, hts.sep (by decide) hts', hc.either hc'⟩

/-- A text in parentheses is read as one alternative. -/
theorem enclose (ha : Stated S c n a us) : Stated S [[c.formula]] n ("(" ++ a ++ ")") us := by
  obtain ⟨ts, hts, hc⟩ := ha
  exact ⟨_, hts.enclose (by decide), hc.enclose⟩

/-- So is a text that is negated. -/
theorem negate (ha : Stated S c n a us) :
    Stated S [[.neg c.formula]] n ("NOT (" ++ a ++ ")") us := by
  obtain ⟨ts, hts, hc⟩ := ha
  exact ⟨_, hts.enclose (by decide), hc.negate⟩

/-- The text is read as the expression of the chain. -/
theorem reading_eq (h : Stated S c n a us) : reading S.mark a = some c.formula := by
  obtain ⟨_, ⟨ts, hts, rfl⟩, hc⟩ := h
  rw [reading, hts.lex_eq, hc.parse_eq]

end Stated

end Sql

open Sql

namespace Filter

/-! ## Combinations -/

/-- The text between the parts of a combination. -/
def Junction.joiner : Junction → String
  | .and => " AND "
  | .or => " OR "

/-- Both connectives have a joining word. -/
theorem Junction.joiner?_combinator (kind : Junction) :
    kind.combinator.joiner? = some kind.joiner := by
  cases kind with
  | and | or => rfl

section Combinations

variable {S : Scheme} {ι : Type} {chain : ι → Chain} {is : List ι}

/-- Texts with a connective between them are read as their chains put together. -/
theorem stated_join (kind : Junction) {n : Nat} {texts : List String} {vs : List Value}
    (h : InTurn (fun i => Stated S (chain i)) is n texts vs) (hne : is ≠ []) :
    Stated S (kind.chain (is.map chain)) n (kind.joiner.intercalate texts) vs := by
  induction h with
  | nil => exact absurd rfl hne
  | cons first rest ih =>
    cases rest with
    | nil =>
      rw [String.intercalate_singleton, List.append_nil, List.map_singleton,
        kind.chain_singleton first.ne_nil]
      exact first
    | cons second others =>
      rw [String.intercalate_cons_cons]
      cases kind with
      | and => exact first.both (ih (by simp))
      | or => exact first.either (ih (by simp))

/-- A combination is read as its parts put together, in parentheses if the filter has them. -/
theorem stated_group (kind : Junction) {n : Nat} {texts : List String} {vs : List Value}
    (h : InTurn (fun i => Stated S (chain i)) is n texts vs) (hne : is ≠ [])
    (parent : Option Junction) :
    ∃ text, group kind.combinator texts (parent.map Junction.combinator) = pure text ∧
      Stated S (grouped kind (is.map chain) parent) n text vs := by
  have hjoin := stated_join kind h hne
  have hcondition : (1 < texts.length && (parent.map Junction.combinator).isSome &&
      parent.map Junction.combinator != some kind.combinator) =
      (1 < (is.map chain).length && parent.isSome && parent != some kind) := by
    rw [h.length_eq, List.length_map, Option.isSome_map]
    cases parent with
    | none => rfl
    | some outer =>
      cases outer with
      | and | or =>
        cases kind with
        | and | or => rfl
  rw [group, kind.joiner?_combinator]
  simp only [hcondition]
  unfold grouped
  split
  · exact ⟨_, rfl, hjoin.enclose⟩
  · exact ⟨_, rfl, hjoin⟩

/-- A group of texts is rendered, and read as the group of their chains. -/
theorem attains_group {replies : ReplyRel} {x : Rendering (List String)}
    (hx : Attains S replies (InTurn (fun i => Stated S (chain i)) is) x) (hne : is ≠ [])
    (kind : Junction) (parent : Option Junction) :
    Attains S replies (Stated S (grouped kind (is.map chain) parent))
      (x >>= fun parts => group kind.combinator parts (parent.map Junction.combinator)) := by
  refine hx.bind fun {n texts vs} h => ?_
  obtain ⟨text, hgroup, hstated⟩ := stated_group kind h hne parent
  rw [hgroup]
  exact ⟨text, [], Rendering.yields_pure.2 ⟨rfl, rfl⟩, by rwa [List.append_nil]⟩

end Combinations

/-! ## Trees -/

section Trees

variable {d : Dialect} {S : Scheme}

theorem Test.isOperatorKey_entry (test : Test) : isOperatorKey test.entry.1 = true := by
  have hwords : ∀ entry ∈ comparisonWords ++ membershipWords, isOperatorKey entry.1 = true := by
    decide
  cases test with
  | compare operator word known operand =>
    exact hwords (operator, word) (List.mem_append_left _ known)
  | member operator word known first rest =>
    exact hwords (operator, word) (List.mem_append_right _ known)
  | between low high =>
    change isOperatorKey "$between" = true
    decide
  | missing flag =>
    change isOperatorKey "$isNull" = true
    decide

/-- What is said of a column is rendered. -/
theorem Spec.attains (h : Speaks d S) (name : ColumnName) (spec : Spec) (depth : Nat)
    (combinator : Option Combinator) (parent : Option Junction) :
    Attains S (d.replies (depth + 1)) (Stated S ((Tree.column name spec).chain parent))
      (columnPredicate (d.context combinator) name.text spec.value
        (parent.map Junction.combinator)) := by
  have hsingle : ∀ test, spec.comparisons = [test] →
      [[.atom (Atom.tokens ⟨name, test⟩)]] = (Tree.column name spec).chain parent := by
    intro test hspec
    rw [Tree.chain, hspec, List.map_singleton, grouped_singleton _ (by simp)]
  have hatom : ∀ test node, Attains S (d.replies (depth + 1))
      (Stated S [[.atom (Atom.tokens ⟨name, test⟩)]])
      ((d.context combinator).invoke test.entry.1 test.entry.2 node (some name.text)) :=
    fun test node => (test.attains h name node depth combinator).mono
      fun ht => ⟨_, ht, Atom.sentence ⟨name, test⟩⟩
  cases spec with
  | missing =>
    rw [← hsingle _ rfl]
    refine (name.attains h.mark).map fun ht => ⟨_, (spelled_missing ht).1, ?_⟩
    exact Atom.sentence ⟨name, .missing true⟩
  | equal operand present =>
    rw [← hsingle _ rfl]
    have hscalar := hatom (.compare "$eq" "=" (by decide) operand) [("$eq", operand)]
    obtain ⟨v, hv⟩ := operand
    cases v with
    | null => cases present
    | list items | object fields => cases hv
    | bool flag | int number | float number | str text => exact hscalar
  | among first rest =>
    rw [← hsingle _ rfl]
    exact hatom (.member "$in" "IN" (by decide) first rest) _
  | tests first rest =>
    have hparts : Attains S (d.replies (depth + 1))
        (InTurn (fun test => Stated S [[.atom (Atom.tokens ⟨name, test⟩)]]) (first :: rest))
        (Rendering.each (columnTest (d.context combinator) name.text
          ((first :: rest).map Test.entry)) ((first :: rest).map Test.entry)) := by
      refine .each fun test _ => ?_
      rw [columnTest, if_pos test.isOperatorKey_entry]
      exact hatom test _
    rw [Tree.chain]
    exact attains_group hparts (by simp) .and parent

/-- The program that renders a filter, or an entry of the filter `node`, inside the connective
`parent`. -/
def Tree.program (ctx : Context) (node : Fields) (parent : Option Junction) :
    {place : Place} → Tree place → Rendering String
  | .object, t => condition ctx t.value (parent.map Junction.combinator)
  | .entry, t => conditionEntry ctx node t.key t.value (parent.map Junction.combinator)

/-- How deep calls may have to nest for a filter, or for an entry. -/
def Tree.depth : {place : Place} → Tree place → Nat
  | .object, t => t.value.size
  | .entry, t => t.value.size + 1

/-- Every dialect has the negation of the base dialect. -/
theorem negation_of_mem (hd : d ∈ Dialect.library) (combinator : Option Combinator) :
    d.registry.find? "$not" = some Operator.negation ∧
      (d.context combinator).isPredicate "$not" = true := by
  refine ⟨Dialect.find?_of_ansi hd rfl rfl rfl, ?_⟩
  simp [Dialect.context, (Dialect.settled_of_mem hd).predicates, Ansi.predicates]

/-- The name of a column is no connective. -/
theorem ColumnName.ofKey_eq (name : ColumnName) :
    Combinator.ofKey name.text = .other name.text := by
  have hne : ∀ key, isOperatorKey key = true → name.text ≠ key := by
    intro key hkey heq
    rw [← heq, name.isColumn] at hkey
    cases hkey
  rw [Combinator.ofKey, if_neg (hne "$and" (by decide)), if_neg (hne "$or" (by decide))]

theorem Junction.ofKey_key (kind : Junction) :
    Combinator.ofKey kind.combinator.key = kind.combinator := by
  cases kind with
  | and | or => rfl

/-- Where calls may nest deep enough, the filter is rendered and its text is read as its chain. -/
def Tree.Rendered (d : Dialect) (S : Scheme) {place : Place} (t : Tree place) : Prop :=
  ∀ (combinator : Option Combinator) (node : Fields) (parent : Option Junction) (depth : Nat),
    t.depth ≤ depth →
      Attains S (d.replies depth) (Stated S (t.chain parent))
        (t.program (d.context combinator) node parent)

namespace Tree.Rendered

/-- A condition on a column is read as its comparisons. -/
theorem column (h : Speaks d S) (name : ColumnName) (spec : Spec) :
    (Tree.column name spec).Rendered d S := by
  intro combinator node parent depth hdepth
  rw [Tree.depth, value] at hdepth
  obtain ⟨depth, rfl⟩ : ∃ k, depth = k + 1 := Nat.exists_eq_add_one.2 (by omega)
  rw [program, key, value, conditionEntry_of_other name.ofKey_eq, if_neg (by simp [name.isColumn])]
  exact spec.attains h name depth combinator parent

/-- A negation is read as that of its filter. -/
theorem negation (h : Speaks d S) {operand : Tree .object} (hoperand : operand.Rendered d S) :
    (Tree.negation operand).Rendered d S := by
  intro combinator node parent depth hdepth
  rw [Tree.depth, value] at hdepth
  obtain ⟨depth, rfl⟩ : ∃ k, depth = k + 1 := Nat.exists_eq_add_one.2 (by omega)
  obtain ⟨hfind, hpredicate⟩ := negation_of_mem h.mem combinator
  rw [program, key, value, conditionEntry_of_other rfl, if_pos (by decide), if_pos hpredicate,
    chain]
  -- the negation starts anew, outside of any connective
  have hinner := hoperand (parent.map Junction.combinator) [] none depth
    (Nat.le_of_succ_le_succ hdepth)
  exact h.invoke hfind (hinner.map fun ht => ht.negate)

/-- A combination is read as the group of its parts. -/
theorem combination {kind : Junction} {first : Tree .object} {rest : List (Tree .object)}
    (hparts : ∀ t ∈ first :: rest, t.Rendered d S) :
    (Tree.combination kind first rest).Rendered d S := by
  intro combinator node parent depth hdepth
  let items := (first :: rest).map fun t => t.value
  have heach : Attains S (d.replies depth)
      (InTurn (fun t => Stated S (t.chain (some kind))) (first :: rest))
      (Rendering.each (fun v => condition (d.context combinator) v (some kind.combinator))
        items) := by
    refine .each fun t ht => hparts t ht combinator [] (some kind) depth ?_
    have hsize : t.value.size < (Value.list items).size :=
      Value.size_lt_of_mem_items (List.mem_map_of_mem ht)
    rw [Tree.depth, value] at hdepth
    exact Nat.le_trans hsize.le (Nat.le_of_succ_le hdepth)
  have hkey : ∀ label, Combinator.ofKey kind.combinator.key ≠ .other label := by
    rw [kind.ofKey_key]
    cases kind with
    | and | or => simp [Junction.combinator]
  rw [program, key, value, conditionEntry_eq_combine _ _ _ _ hkey, kind.ofKey_key, combine_list,
    if_neg (by simp), chain]
  exact attains_group heach (by simp) kind parent

/-- An object is read as the conjunction of its entries. -/
theorem object {first : Tree .entry} {rest : List (Tree .entry)}
    (hparts : ∀ t ∈ first :: rest, t.Rendered d S) : (Tree.object first rest).Rendered d S := by
  intro combinator node parent depth hdepth
  let around := if rest.isEmpty then parent else some .and
  let fields := (first :: rest).map fun t => (t.key, t.value)
  have heach : Attains S (d.replies depth)
      (InTurn (fun t => Stated S (t.chain around)) (first :: rest))
      (Rendering.each (fun entry => conditionEntry (d.context combinator) fields entry.1 entry.2
        (around.map Junction.combinator)) fields) := by
    refine .each fun t ht => hparts t ht combinator fields around depth ?_
    have hsize : t.value.size < (Value.object fields).size :=
      Value.size_lt_of_mem_fields (List.mem_map_of_mem (f := fun t => (t.key, t.value)) ht)
    rw [Tree.depth, value] at hdepth
    exact Nat.le_trans hsize hdepth
  have haround : around.map Junction.combinator =
      if 1 < fields.length then some Combinator.and else parent.map Junction.combinator := by
    cases rest with
    | nil => rfl
    | cons second rest => simp [fields, around, Junction.combinator]
  rw [haround] at heach
  rw [program, value, condition_object, if_neg (by simp), chain]
  exact attains_group heach (by simp) .and parent

end Tree.Rendered

/-- Every filter is rendered. -/
theorem Tree.rendered (h : Speaks d S) {place : Place} (t : Tree place) : t.Rendered d S := by
  induction place, t using Tree.formula.induct with
  | case1 name spec => exact .column h name spec
  | case2 operand ih => exact .negation h ih
  | case3 kind first rest ih ihs => exact .combination (List.forall_mem_cons.2 ⟨ih, ihs⟩)
  | case4 first rest ih ihs => exact .object (List.forall_mem_cons.2 ⟨ih, ihs⟩)

end Trees

end Filter

/-! ## The meaning of a filter -/

/-- **Filters and their meaning.**  Every filter of comparisons is rendered, in every dialect.  Its
text is read, with NOT before AND before OR, as a Boolean expression over the comparisons of the
filter in their order.  That expression has the truth value of the filter under every assignment
exactly if the filter is guarded. -/
theorem condition_meaning_iff_guarded {d : Dialect} (hd : d ∈ Dialect.library)
    (f : Filter.Tree .object) :
    ∃ sql values φ,
      (d.runFor f.value (Filter.condition (d.context none) f.value none)).run.run #[] =
          (.ok sql, values) ∧
        Sql.reading d.quoting.mark sql = some φ ∧
        φ.atoms = f.formula.atoms.map Filter.Atom.tokens ∧
        ((∀ bs : List Bool, bs.length = f.formula.size → φ.eval bs = f.formula.eval bs) ↔
          f.guarded = true) := by
  obtain ⟨S, hmark, hstyle⟩ := Dialect.exists_scheme hd (Dialect.settled_of_mem hd).placeholder
  have hdepth : f.depth ≤ d.callBound f.value := by
    rw [Filter.Tree.depth, Dialect.callBound]
    omega
  obtain ⟨sql, values, hyields, hstated⟩ :=
    f.rendered ⟨hd, hmark, hstyle⟩ none [] none _ hdepth 0
  refine ⟨sql, values.toArray, (f.chain none).formula, ?_, ?_, (f.regular none).atoms, ?_⟩
  · rw [← hstyle] at hyields
    exact (d.runFor_eq_ok_iff _ _ _ _ _).2 ⟨values, by simp, hyields⟩
  · rw [hmark]
    exact hstated.reading_eq
  · exact f.agrees_iff_guarded none

/-- The filter that asks for one column to be a given number. -/
def Filter.columnIs (name : Filter.ColumnName) (number : Int) : Filter.Tree .object :=
  .object (.column name (.equal ⟨.int number, rfl⟩ rfl)) []

/-- Two alternatives that stand alone in a disjunction, which is a part of a conjunction. -/
def looseAlternatives : Filter.Tree .object :=
  .object (.combination .and
    (.object (.combination .or
      (.object (.combination .or (Filter.columnIs ⟨"a", by decide, by decide⟩ 1)
        [Filter.columnIs ⟨"b", by decide, by decide⟩ 2]) []) []) [])
    [Filter.columnIs ⟨"c", by decide, by decide⟩ 3]) []

theorem looseAlternatives_value : looseAlternatives.value =
    .object [("$and", .list [
      .object [("$or", .list [
        .object [("$or", .list [.object [("a", .int 1)], .object [("b", .int 2)]])]])],
      .object [("c", .int 3)]])] := by
  simp [looseAlternatives, Filter.columnIs, Filter.Tree.value, Filter.Tree.key, Filter.Spec.value,
    Filter.Junction.combinator, Combinator.key]

set_option maxRecDepth 4000 in
theorem condition_looseAlternatives :
    (Dialect.ansi.runFor looseAlternatives.value
        (Filter.condition (Dialect.ansi.context none) looseAlternatives.value none)).run.run #[] =
      (.ok "\x60a\x60 = ? OR \x60b\x60 = ? AND \x60c\x60 = ?", #[.int 1, .int 2, .int 3]) := by
  rw [looseAlternatives_value, Dialect.ansi_eq]
  rfl

/-- The parentheses around the alternatives are missing, so the AND takes hold of the second one
only. -/
theorem condition_meaning_iff_guarded_looseAlternatives :
    Dialect.ansi ∈ Dialect.library ∧ looseAlternatives.guarded = false ∧
      ∃ φ, Sql.reading Dialect.ansi.quoting.mark
          "\x60a\x60 = ? OR \x60b\x60 = ? AND \x60c\x60 = ?" = some φ ∧
        ∃ bs : List Bool, bs.length = looseAlternatives.formula.size ∧
          φ.eval bs ≠ looseAlternatives.formula.eval bs := by
  have hd : Dialect.ansi ∈ Dialect.library := by simp [Dialect.library]
  have hguarded : looseAlternatives.guarded = false := by
    simp [looseAlternatives, Filter.columnIs, Filter.Tree.guarded, Filter.Tree.keepsApart,
      Filter.Tree.isOpen]
  obtain ⟨sql, values, φ, hrun, hreading, -, hmeaning⟩ :=
    condition_meaning_iff_guarded hd looseAlternatives
  rw [condition_looseAlternatives] at hrun
  cases hrun
  obtain ⟨bs, hbs⟩ := not_forall.1 (mt hmeaning.1 (by simp [hguarded]))
  obtain ⟨hlength, hne⟩ := Classical.not_imp.1 hbs
  exact ⟨hd, hguarded, φ, hreading, bs, hlength, hne⟩

end QueryTree
