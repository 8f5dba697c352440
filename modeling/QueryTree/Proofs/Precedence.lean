import QueryTree.Proofs.FilterTree

/-!
# Filters and precedence

The text of a filter is read as a chain of alternatives, each of them a conjunction.  Where the
parts of a conjunction are single conjunctions, or stand in parentheses, the chain means what the
filter means.  Where one of them has open alternatives, the AND takes hold of the first or the last
of them only, and the chain means something else.

* `Tree.chain` is the chain that a filter is written as.
* `Part` is a chain with the expression that it is written for; it `Agrees` if the two are true
  together.
* `Part.Regular` : all alternatives of the chain and the expression can be made true at once, and
  false at once.
* **`Part.agrees_group_iff`** : when a combination agrees with what it stands for.
* **`Tree.agrees_iff_guarded`** : a filter is written as what it stands for exactly if it is
  guarded.
-/

namespace QueryTree.Filter

open Sql (Chain Reading)
open Formula (truths sizes atomsOf)

/-! ## How a filter is written -/

/-- Chains with a connective between them. -/
def Junction.chain : Junction → List Chain → Chain
  | .and, cs => cs.foldr (meet (· ++ ·)) [[]]
  | .or, cs => cs.flatten

/-- Chains with a connective between them, in parentheses if there are several and the connective
around them is another one. -/
def grouped (kind : Junction) (cs : List Chain) (parent : Option Junction) : Chain :=
  if 1 < cs.length && parent.isSome && parent != some kind then [[(kind.chain cs).formula]]
  else kind.chain cs

/-- The chain that a filter is written as inside the connective `parent`. -/
def Tree.chain : {place : Place} → Tree place → Option Junction → Chain
  | _, .column name spec, parent =>
    grouped .and (spec.comparisons.map fun test => [[.atom (Atom.tokens ⟨name, test⟩)]]) parent
  | _, .negation operand, _ => [[.neg (operand.chain none).formula]]
  | _, .combination kind first rest, parent =>
    grouped kind (first.chain (some kind) :: rest.map fun t => t.chain (some kind)) parent
  | _, .object first rest, parent =>
    let around := if rest.isEmpty then parent else some .and
    grouped .and (first.chain around :: rest.map fun t => t.chain around) parent

/-! ## Truth values that meet -/

section Meet

variable {β : Type} {op : β → β → β}

/-- What two lists give when they meet: what they had, or one member of each put together. -/
theorem mem_meet {xs ys : List β} {z : β} (h : z ∈ meet op xs ys) :
    z ∈ xs ∨ z ∈ ys ∨ ∃ x ∈ xs, ∃ y ∈ ys, z = op x y := by
  fun_induction meet op xs ys with
  | case1 ys => exact .inr (.inl h)
  | case2 x => exact .inl h
  | case3 x y ys =>
    rcases List.mem_cons.1 h with rfl | h
    · exact .inr (.inr ⟨x, by simp, y, by simp, rfl⟩)
    · exact .inr (.inl (List.mem_cons_of_mem _ h))
  | case4 x x' xs ys ih =>
    rcases List.mem_cons.1 h with rfl | h
    · exact .inl (by simp)
    · rcases ih h with h | h | ⟨a, ha, b, hb, rfl⟩
      · exact .inl (List.mem_cons_of_mem _ h)
      · exact .inr (.inl h)
      · exact .inr (.inr ⟨a, List.mem_cons_of_mem _ ha, b, hb, rfl⟩)

/-- A list that meets a single neutral member stays as it is. -/
theorem meet_unit {e : β} (hunit : ∀ x, op x e = x) {xs : List β} (hxs : xs ≠ []) :
    meet op xs [e] = xs := by
  induction xs with
  | nil => exact absurd rfl hxs
  | cons x rest ih =>
    cases rest with
    | nil => rw [meet, hunit]
    | cons x' rest => rw [meet, ih (by simp)]

/-- What stands after the place of meeting stays. -/
theorem mem_tail_meet (xs : List β) {ys : List β} {y : β} (h : y ∈ ys.tail) :
    y ∈ (meet op xs ys).tail := by
  fun_induction meet op xs ys with
  | case1 ys => exact h
  | case2 x => cases h
  | case3 x y' ys => exact h
  | case4 x x' xs ys ih => exact List.mem_of_mem_tail (ih h)

end Meet

/-! ## Outcomes -/

/-- A chain and the expression that it is written for. -/
structure Part where
  chain : Chain
  formula : Formula Atom

namespace Part

/-- The truth of the alternatives of the chain, and that of the expression. -/
def outcome (p : Part) (bs : List Bool) : List Bool × Bool :=
  (truths (p.chain.map .all) bs, p.formula.eval bs)

/-- The chain and the expression are true together. -/
def Agrees (p : Part) : Prop :=
  ∀ bs : List Bool, bs.length = p.formula.size → (p.outcome bs).1.any id = (p.outcome bs).2

/-- The chain has the comparisons of the expression in their order.  All of its alternatives and the
expression can be made true at once, and false at once. -/
structure Regular (p : Part) : Prop where
  ne_nil : p.chain ≠ []
  atoms : p.chain.formula.atoms = p.formula.atoms.map Atom.tokens
  steady : ∀ b, ∃ bs : List Bool, bs.length = p.formula.size ∧ (∀ x ∈ (p.outcome bs).1, x = b) ∧
    (p.outcome bs).2 = b

/-- The chain of a regular part has as many comparisons as its expression. -/
theorem Regular.sizes_eq {p : Part} (h : p.Regular) :
    sizes (p.chain.map .all) = p.formula.size := by
  have hlength := congrArg List.length h.atoms
  rw [List.length_map] at hlength
  exact hlength

/-- A regular part has at least one alternative. -/
theorem Regular.outcome_ne_nil {p : Part} (h : p.Regular) (bs : List Bool) :
    (p.outcome bs).1 ≠ [] := by
  rw [← List.length_pos_iff, outcome, Formula.length_truths, List.length_map, List.length_pos_iff]
  exact h.ne_nil

/-- The parts of a combination, put together without parentheses. -/
def join (kind : Junction) (ps : List Part) : Part :=
  ⟨kind.chain (ps.map chain), kind.formula (ps.map formula)⟩

end Part

/-- The outcomes of parts in a row. -/
def outcomes : List Part → List Bool → List (List Bool × Bool)
  | [], _ => []
  | p :: ps, bs => p.outcome (bs.take p.formula.size) :: outcomes ps (bs.drop p.formula.size)

theorem length_outcomes (ps : List Part) (bs : List Bool) :
    (outcomes ps bs).length = ps.length := by
  induction ps generalizing bs with
  | nil => rfl
  | cons p ps ih => rw [outcomes, List.length_cons, ih, List.length_cons]

/-- Parts in a row read the truth values of their comparisons one after another. -/
theorem outcomes_append (ps qs : List Part) {bs : List Bool}
    (hbs : bs.length = sizes (ps.map Part.formula)) (cs : List Bool) :
    outcomes (ps ++ qs) (bs ++ cs) = outcomes ps bs ++ outcomes qs cs := by
  induction ps generalizing bs with
  | nil =>
    rw [List.eq_nil_of_length_eq_zero hbs]
    rfl
  | cons p ps ih =>
    rw [List.map_cons, Formula.sizes_cons] at hbs
    rw [List.cons_append, outcomes, outcomes, List.take_append_of_le_length (by omega),
      List.drop_append_of_le_length (by omega), ih (by rw [List.length_drop]; omega),
      List.cons_append]

/-- What holds for the outcomes of each part holds for those of parts in a row. -/
theorem forall_outcomes {ps : List Part} {Q : List Bool × Bool → Prop}
    (h : ∀ p ∈ ps, ∀ bs : List Bool, bs.length = p.formula.size → Q (p.outcome bs)) {bs : List Bool}
    (hbs : bs.length = sizes (ps.map Part.formula)) : ∀ o ∈ outcomes ps bs, Q o := by
  induction ps generalizing bs with
  | nil => simp [outcomes]
  | cons p ps ih =>
    rw [List.map_cons, Formula.sizes_cons] at hbs
    rw [outcomes, List.forall_mem_cons]
    refine ⟨h p (by simp) _ (by rw [List.length_take]; omega), ?_⟩
    exact ih (fun q hq => h q (List.mem_cons_of_mem _ hq)) (by rw [List.length_drop]; omega)

/-- Regular parts in a row can be made true at once, and false at once. -/
theorem exists_outcomes {ps : List Part} (hps : ∀ p ∈ ps, p.Regular) (b : Bool) :
    ∃ bs : List Bool, bs.length = sizes (ps.map Part.formula) ∧
      ∀ o ∈ outcomes ps bs, (∀ x ∈ o.1, x = b) ∧ o.2 = b := by
  induction ps with
  | nil => exact ⟨[], rfl, by simp [outcomes]⟩
  | cons p ps ih =>
    obtain ⟨cs, hcs, hp⟩ := (hps p (by simp)).steady b
    obtain ⟨bs, hbs, hrest⟩ := ih fun q hq => hps q (List.mem_cons_of_mem _ hq)
    refine ⟨cs ++ bs, by simp [hcs, hbs], ?_⟩
    rw [outcomes, List.take_left' hcs, List.drop_left' hcs, List.forall_mem_cons]
    exact ⟨hp, hrest⟩

/-! ## The outcome of a combination -/

namespace Junction

/-- The alternatives of parts with the connective between them. -/
def merge : Junction → List (List Bool) → List Bool
  | .and, tss => tss.foldr (meet (· && ·)) [true]
  | .or, tss => tss.flatten

/-- The truth of a combination. -/
def fold : Junction → List Bool → Bool
  | .and, bs => bs.all id
  | .or, bs => bs.any id

/-- The truth of a part that leaves the others to decide. -/
def neutral : Junction → Bool
  | .and => true
  | .or => false

/-- A combination is true as the connective says of its members. -/
theorem eval_formula {α : Type} (kind : Junction) (φs : List (Formula α)) (bs : List Bool) :
    (kind.formula φs).eval bs = kind.fold (truths φs bs) := by
  cases kind with
  | and | or => rw [formula, Formula.eval, fold]

/-- A combination has the comparisons of its members, and no others. -/
theorem size_formula {α : Type} (kind : Junction) (φs : List (Formula α)) :
    (kind.formula φs).size = sizes φs := by
  cases kind with
  | and | or => rfl

/-- Among neutral members the one that is left decides. -/
theorem fold_neutral (kind : Junction) {xs ys : List Bool} (hxs : ∀ x ∈ xs, x = kind.neutral)
    (hys : ∀ y ∈ ys, y = kind.neutral) (b : Bool) : kind.fold (xs ++ b :: ys) = b := by
  cases kind with
  | and =>
    have hall : ∀ zs : List Bool, (∀ z ∈ zs, z = true) → zs.all id = true := by simp
    rw [fold, List.all_append, List.all_cons, hall xs hxs, hall ys hys]
    simp
  | or =>
    have hany : ∀ zs : List Bool, (∀ z ∈ zs, z = false) → zs.any id = false := by simp
    rw [fold, List.any_append, List.any_cons, hany xs hxs, hany ys hys]
    simp

/-- Members that are all alike decide together. -/
theorem fold_eq_of_forall (kind : Junction) {xs : List Bool} (hxs : xs ≠ []) {b : Bool}
    (h : ∀ x ∈ xs, x = b) : kind.fold xs = b := by
  obtain ⟨x, rest, rfl⟩ := List.exists_cons_of_ne_nil hxs
  obtain rfl := h x List.mem_cons_self
  have hrest : ∀ y ∈ rest, y = x := fun y hy => h y (List.mem_cons_of_mem _ hy)
  cases kind with
  | and =>
    cases x with
    | true => simpa [fold] using hrest
    | false => simp [fold]
  | or =>
    cases x with
    | true => simp [fold]
    | false => simpa [fold] using hrest

/-- Alternatives that are all alike stay so. -/
theorem eq_of_mem_merge (kind : Junction) {tss : List (List Bool)} (hne : tss ≠ [])
    (hts : ∀ ts ∈ tss, ts ≠ []) {b : Bool} (h : ∀ ts ∈ tss, ∀ x ∈ ts, x = b) :
    ∀ x ∈ kind.merge tss, x = b := by
  cases kind with
  | or =>
    intro x hx
    obtain ⟨ts, hmem, hx⟩ := List.mem_flatten.1 hx
    exact h ts hmem x hx
  | and =>
    simp only [merge]
    induction tss with
    | nil => exact absurd rfl hne
    | cons ts tss ih =>
      cases tss with
      | nil =>
        rw [List.foldr_cons, List.foldr_nil, meet_unit Bool.and_true (hts ts (by simp))]
        exact h ts (by simp)
      | cons ts' tss =>
        have hrest := ih (by simp) (fun us hus => hts us (List.mem_cons_of_mem _ hus))
          fun us hus => h us (List.mem_cons_of_mem _ hus)
        intro x hx
        rcases mem_meet hx with hx | hx | ⟨y, hy, z, hz, rfl⟩
        · exact h ts (by simp) x hx
        · exact hrest x hx
        · rw [h ts (by simp) y hy, hrest z hz, Bool.and_self]

/-- Where no AND stands next to open alternatives, the connective decides by the parts. -/
theorem any_merge (kind : Junction) {tss : List (List Bool)} (hts : ∀ ts ∈ tss, ts ≠ [])
    (h : kind = .or ∨ tss.length = 1 ∨ ∀ ts ∈ tss, ts.length = 1) :
    (kind.merge tss).any id = kind.fold (tss.map fun ts => ts.any id) := by
  cases kind with
  | or => simp [merge, fold, List.any_flatten]
  | and =>
    rcases h with h | h | h
    · cases h
    · obtain ⟨ts, rfl⟩ := List.length_eq_one_iff.1 h
      rw [merge, List.foldr_cons, List.foldr_nil, meet_unit Bool.and_true (hts ts (by simp))]
      simp [fold]
    · have hmerge : merge .and tss = [fold .and (tss.map fun ts => ts.any id)] := by
        clear hts
        induction tss with
        | nil => rfl
        | cons ts tss ih =>
          obtain ⟨x, rfl⟩ := List.length_eq_one_iff.1 (h ts (by simp))
          have hrest := ih fun us hus => h us (List.mem_cons_of_mem _ hus)
          rw [merge] at hrest ⊢
          rw [List.foldr_cons, hrest, meet]
          simp [fold]
      rw [hmerge]
      simp

/-- Open alternatives among parts that are true make an alternative true. -/
theorem true_mem_foldr_meet {tss : List (List Bool)} (h : ∀ ts ∈ tss, ∀ x ∈ ts, x = true)
    (hlong : ∃ ts ∈ tss, 1 < ts.length) (ys : List Bool) :
    true ∈ tss.foldr (meet (· && ·)) ys := by
  induction tss with
  | nil => simp at hlong
  | cons ts tss ih =>
    have hts := h ts List.mem_cons_self
    have hrest : ¬ 1 < ts.length → true ∈ tss.foldr (meet (· && ·)) ys := by
      intro hshort
      refine ih (fun us hus => h us (List.mem_cons_of_mem _ hus)) ?_
      obtain ⟨us, hus, hlong⟩ := hlong
      rcases List.mem_cons.1 hus with rfl | hus
      · exact absurd hlong hshort
      · exact ⟨us, hus, hlong⟩
    rw [List.foldr_cons]
    cases ts with
    | nil => exact hrest (by simp)
    | cons x others =>
      obtain rfl := hts x List.mem_cons_self
      cases others with
      | cons x' others =>
        rw [meet]
        exact List.mem_cons_self
      | nil =>
        have htrue := hrest (by simp)
        obtain ⟨y, ys', hys⟩ := List.exists_cons_of_ne_nil (List.ne_nil_of_mem htrue)
        rw [hys] at htrue ⊢
        rwa [meet, Bool.true_and]

/-- The alternatives after the first one are not met by anything before them. -/
theorem mem_tail_foldr_meet (tss : List (List Bool)) {ys : List Bool} {y : Bool}
    (h : y ∈ ys.tail) : y ∈ (tss.foldr (meet (· && ·)) ys).tail := by
  induction tss with
  | nil => exact h
  | cons ts tss ih => exact mem_tail_meet ts ih

end Junction

theorem truths_formulas (ps : List Part) (bs : List Bool) :
    truths (ps.map Part.formula) bs = (outcomes ps bs).map Prod.snd := by
  induction ps generalizing bs with
  | nil => rfl
  | cons p ps ih => rw [List.map_cons, truths, outcomes, List.map_cons, ih, Part.outcome]

/-- The alternatives of a joined chain come from those of its parts. -/
theorem truths_chain {ps : List Part} (hps : ∀ p ∈ ps, p.Regular) (kind : Junction)
    (bs : List Bool) :
    truths ((kind.chain (ps.map Part.chain)).map .all) bs =
      kind.merge ((outcomes ps bs).map Prod.fst) := by
  induction ps generalizing bs with
  | nil =>
    cases kind with
    | and => rfl
    | or => rfl
  | cons p ps ih =>
    have hrest := ih (fun q hq => hps q (List.mem_cons_of_mem _ hq)) (bs.drop p.formula.size)
    have hsizes := (hps p (by simp)).sizes_eq
    have hfirst : truths (p.chain.map .all) (bs.take p.formula.size) =
        truths (p.chain.map .all) bs := Formula.truths_take _ _ (by omega)
    cases kind with
    | and =>
      simp only [Junction.chain, Junction.merge] at hrest ⊢
      rw [List.map_cons, List.foldr_cons, Formula.truths_meet, hsizes, hrest, outcomes,
        List.map_cons, List.foldr_cons, Part.outcome, hfirst]
    | or =>
      simp only [Junction.chain, Junction.merge] at hrest ⊢
      rw [List.map_cons, List.flatten_cons, List.map_append, Formula.truths_append, hsizes, hrest,
        outcomes, List.map_cons, List.flatten_cons, Part.outcome, hfirst]

/-- The outcome of joined parts from their outcomes. -/
theorem outcome_join {ps : List Part} (hps : ∀ p ∈ ps, p.Regular) (kind : Junction)
    (bs : List Bool) :
    (Part.join kind ps).outcome bs =
      (kind.merge ((outcomes ps bs).map Prod.fst), kind.fold ((outcomes ps bs).map Prod.snd)) := by
  rw [Part.outcome, Part.join, truths_chain hps, kind.eval_formula, truths_formulas]

/-- Joined parts have the comparisons of all of them. -/
theorem size_join (kind : Junction) (ps : List Part) :
    (Part.join kind ps).formula.size = sizes (ps.map Part.formula) := by
  rw [Part.join, Junction.size_formula]

/-! ## When a combination agrees -/

/-- Some parts, one part with truth values of its own, and some parts again, those before and after
it being made alike. -/
theorem exists_outcomes_around {before after : List Part} {p : Part}
    (hbefore : ∀ q ∈ before, q.Regular) (hafter : ∀ q ∈ after, q.Regular) (b b' : Bool)
    {cs : List Bool} (hcs : cs.length = p.formula.size) :
    ∃ bs : List Bool, bs.length = sizes ((before ++ p :: after).map Part.formula) ∧
      ∃ os os', outcomes (before ++ p :: after) bs = os ++ p.outcome cs :: os' ∧
        (os.length = before.length ∧ ∀ o ∈ os, (∀ x ∈ o.1, x = b) ∧ o.2 = b) ∧
        os'.length = after.length ∧ ∀ o ∈ os', (∀ x ∈ o.1, x = b') ∧ o.2 = b' := by
  obtain ⟨bs, hbs, hos⟩ := exists_outcomes hbefore b
  obtain ⟨bs', hbs', hos'⟩ := exists_outcomes hafter b'
  refine ⟨bs ++ (cs ++ bs'), ?_, outcomes before bs, outcomes after bs', ?_,
    ⟨length_outcomes before bs, hos⟩, length_outcomes after bs', hos'⟩
  · simp [hbs, hcs, hbs']
  · rw [outcomes_append before _ hbs, outcomes, List.take_left' hcs, List.drop_left' hcs]

/-- Two truth values that are compared at once: an alternative is true, and a part is false. -/
theorem not_agrees_join_and {ps : List Part} (hps : ∀ p ∈ ps, p.Regular) {bs : List Bool}
    (hbs : bs.length = sizes (ps.map Part.formula))
    (htrue : true ∈ ((outcomes ps bs).map Prod.fst).foldr (meet (· && ·)) [true])
    (hfalse : false ∈ (outcomes ps bs).map Prod.snd) : ¬ (Part.join .and ps).Agrees := by
  intro hagrees
  have h := hagrees bs (by rw [hbs, size_join])
  rw [outcome_join hps] at h
  have hany : (Junction.and.merge ((outcomes ps bs).map Prod.fst)).any id = true :=
    List.any_eq_true.2 ⟨true, htrue, rfl⟩
  have hall : Junction.and.fold ((outcomes ps bs).map Prod.snd) = false :=
    List.all_eq_false.2 ⟨false, hfalse, by simp⟩
  rw [hany, hall] at h
  cases h

/-- A conjunction of several parts, one of them with open alternatives, does not agree. -/
theorem not_agrees_join_of_open {before after : List Part} {p : Part}
    (hps : ∀ q ∈ before ++ p :: after, q.Regular) (hopen : 1 < p.chain.length)
    (hseveral : before ≠ [] ∨ after ≠ []) : ¬ (Part.join .and (before ++ p :: after)).Agrees := by
  obtain ⟨hbefore, hrest⟩ := List.forall_mem_append.1 hps
  obtain ⟨hp, hafter⟩ := List.forall_mem_cons.1 hrest
  obtain ⟨cs, hcs, htrue, -⟩ := hp.steady true
  have hlong : 1 < (p.outcome cs).1.length := by
    rw [Part.outcome, Formula.length_truths, List.length_map]
    exact hopen
  cases after with
  | cons q after =>
    -- all is true up to the open alternatives, so the first of them is; all is false after them
    obtain ⟨bs, hbs, os, os', houtcomes, ⟨-, hos⟩, hlength, hos'⟩ :=
      exists_outcomes_around hbefore hafter true false hcs
    refine not_agrees_join_and hps hbs ?_ ?_
    · rw [houtcomes, List.map_append, List.map_cons, List.append_cons, List.foldr_append]
      refine Junction.true_mem_foldr_meet ?_ ⟨_, by simp, hlong⟩ _
      simp only [List.forall_mem_append, List.forall_mem_map, List.forall_mem_singleton]
      exact ⟨fun o ho => (hos o ho).1, htrue⟩
    · obtain ⟨o, others, rfl⟩ := List.exists_cons_of_ne_nil (List.ne_nil_of_length_pos
        (show 0 < os'.length by rw [hlength]; simp))
      rw [houtcomes]
      simp [(hos' o (by simp)).2]
  | nil =>
    -- all is false before the open alternatives, which are true, the last of them too
    obtain ⟨bs, hbs, os, os', houtcomes, ⟨hlength, hos⟩, hlength', -⟩ :=
      exists_outcomes_around hbefore hafter false false hcs
    obtain rfl := List.eq_nil_of_length_eq_zero hlength'
    refine not_agrees_join_and hps hbs ?_ ?_
    · obtain ⟨x, y, rest, hxy⟩ : ∃ x y rest, (p.outcome cs).1 = x :: y :: rest := by
        match hvalue : (p.outcome cs).1 with
        | [] | [_] => simp [hvalue] at hlong
        | x :: y :: rest => exact ⟨x, y, rest, rfl⟩
      have hy : y = true := htrue y (by simp [hxy])
      rw [houtcomes, List.map_append, List.map_singleton, List.foldr_append, List.foldr_cons,
        List.foldr_nil, meet_unit Bool.and_true (by simp [hxy])]
      refine List.mem_of_mem_tail (Junction.mem_tail_foldr_meet _ ?_)
      simp [hxy, hy]
    · have hne : before ≠ [] := hseveral.resolve_right (by simp)
      obtain ⟨o, others, rfl⟩ := List.exists_cons_of_ne_nil (List.ne_nil_of_length_pos
        (show 0 < os.length by rw [hlength]; exact List.length_pos_iff.2 hne))
      rw [houtcomes]
      simp [(hos o (by simp)).2]

/-- Parts that a connective keeps apart: AND only joins single conjunctions, unless there is just
one part. -/
def KeptApart (kind : Junction) (ps : List Part) : Prop :=
  kind = .or ∨ ps.length = 1 ∨ ∀ p ∈ ps, p.chain.length = 1

theorem outcomes_ne_nil {ps : List Part} (hps : ∀ p ∈ ps, p.Regular) {bs : List Bool}
    (hbs : bs.length = sizes (ps.map Part.formula)) : ∀ o ∈ outcomes ps bs, o.1 ≠ [] :=
  forall_outcomes (fun p hp bs _ => (hps p hp).outcome_ne_nil bs) hbs

/-- Where parts are kept apart, a joined chain is true exactly if the combination of its parts
is. -/
theorem any_merge_outcomes {ps : List Part} (hps : ∀ p ∈ ps, p.Regular) {kind : Junction}
    (hapart : KeptApart kind ps) {bs : List Bool} (hbs : bs.length = sizes (ps.map Part.formula)) :
    (kind.merge ((outcomes ps bs).map Prod.fst)).any id =
      kind.fold ((outcomes ps bs).map fun o => o.1.any id) := by
  rw [Junction.any_merge, List.map_map]
  · rfl
  · exact List.forall_mem_map.2 (outcomes_ne_nil hps hbs)
  · rcases hapart with h | h | h
    · exact .inl h
    · exact .inr (.inl (by rw [List.length_map, length_outcomes, h]))
    · refine .inr (.inr (List.forall_mem_map.2 (forall_outcomes (fun p hp bs _ => ?_) hbs)))
      rw [Part.outcome, Formula.length_truths, List.length_map]
      exact h p hp

/-- A combination that agrees keeps its parts apart. -/
theorem keptApart_of_agrees {ps : List Part} (hps : ∀ p ∈ ps, p.Regular) {kind : Junction}
    (hagrees : (Part.join kind ps).Agrees) : KeptApart kind ps := by
  cases kind with
  | or => exact .inl rfl
  | and =>
    by_contra hnot
    simp only [KeptApart, reduceCtorEq, false_or, not_or, not_forall] at hnot
    obtain ⟨hlength, p, hp, hopen⟩ := hnot
    obtain ⟨before, after, rfl⟩ := List.append_of_mem hp
    have hpos := List.length_pos_iff.2 (hps p hp).ne_nil
    refine not_agrees_join_of_open hps (by omega) ?_ hagrees
    by_contra hboth
    simp only [not_or, not_not] at hboth
    exact hlength (by simp [hboth.1, hboth.2])

/-- Each part of a combination that agrees does so: the others can be made to leave the decision to
it. -/
theorem agrees_of_agrees_join {ps : List Part} (hps : ∀ p ∈ ps, p.Regular) {kind : Junction}
    (hapart : KeptApart kind ps) (hagrees : (Part.join kind ps).Agrees) {p : Part} (hp : p ∈ ps) :
    p.Agrees := by
  intro cs hcs
  obtain ⟨before, after, rfl⟩ := List.append_of_mem hp
  obtain ⟨hbefore, hrest⟩ := List.forall_mem_append.1 hps
  obtain ⟨bs, hbs, os, os', houtcomes, ⟨-, hos⟩, -, hos'⟩ := exists_outcomes_around hbefore
    (List.forall_mem_cons.1 hrest).2 kind.neutral kind.neutral hcs
  have hne := outcomes_ne_nil hps hbs
  have h := hagrees bs (by rw [size_join, hbs])
  rw [outcome_join hps, any_merge_outcomes hps hapart hbs, houtcomes] at h
  rw [houtcomes] at hne
  have hany : ∀ o ∈ os ++ p.outcome cs :: os', (∀ x ∈ o.1, x = kind.neutral) →
      o.1.any id = kind.neutral :=
    fun o ho hx => Junction.fold_eq_of_forall .or (hne o ho) hx
  simp only [List.map_append, List.map_cons] at h
  rw [kind.fold_neutral, kind.fold_neutral] at h
  · exact h
  · exact List.forall_mem_map.2 fun o ho => (hos o ho).2
  · exact List.forall_mem_map.2 fun o ho => (hos' o ho).2
  · exact List.forall_mem_map.2 fun o ho => hany o (by simp [ho]) (hos o ho).1
  · exact List.forall_mem_map.2 fun o ho => hany o (by simp [ho]) (hos' o ho).1

/-- A combination agrees exactly if its parts do and are kept apart. -/
theorem agrees_join_iff {ps : List Part} (hps : ∀ p ∈ ps, p.Regular) (kind : Junction) :
    (Part.join kind ps).Agrees ↔ (∀ p ∈ ps, p.Agrees) ∧ KeptApart kind ps := by
  constructor
  · intro hagrees
    have hapart := keptApart_of_agrees hps hagrees
    exact ⟨fun p hp => agrees_of_agrees_join hps hapart hagrees hp, hapart⟩
  · rintro ⟨hagrees, hapart⟩ bs hbs
    rw [size_join] at hbs
    have hparts := forall_outcomes (Q := fun o => o.1.any id = o.2) hagrees hbs
    rw [outcome_join hps, any_merge_outcomes hps hapart hbs, List.map_congr_left hparts]

/-! ## Parts of a filter -/

/-- The chain of parts has their comparisons in order. -/
theorem atomsOf_chain {ps : List Part} (hps : ∀ p ∈ ps, p.Regular) (kind : Junction) :
    atomsOf ((kind.chain (ps.map Part.chain)).map .all) =
      (atomsOf (ps.map Part.formula)).map Atom.tokens := by
  induction ps with
  | nil =>
    cases kind with
    | and | or => rfl
  | cons p ps ih =>
    have hrest := ih fun q hq => hps q (List.mem_cons_of_mem _ hq)
    have hfirst : atomsOf (p.chain.map .all) = p.formula.atoms.map Atom.tokens :=
      (hps p (by simp)).atoms
    cases kind with
    | and =>
      rw [Junction.chain] at hrest ⊢
      rw [List.map_cons, List.foldr_cons, Formula.atomsOf_meet, hfirst, hrest, List.map_cons,
        atomsOf, List.map_append]
    | or =>
      rw [Junction.chain] at hrest ⊢
      rw [List.map_cons, List.flatten_cons, List.map_append, Formula.atomsOf_append, hfirst, hrest,
        List.map_cons, atomsOf, List.map_append]

namespace Part

/-- A part in parentheses. -/
def enclose (p : Part) : Part := ⟨[[p.chain.formula]], p.formula⟩

/-- A part in parentheses with NOT before it. -/
def negate (p : Part) : Part := ⟨[[.neg p.chain.formula]], .neg p.formula⟩

/-- A comparison. -/
def single (a : Atom) : Part := ⟨[[.atom a.tokens]], .atom a⟩

/-- Parts with a connective between them, in parentheses where they need them. -/
def group (kind : Junction) (ps : List Part) (parent : Option Junction) : Part :=
  ⟨grouped kind (ps.map chain) parent, kind.formula (ps.map formula)⟩

/-- A group is joined parts, with or without parentheses. -/
theorem group_eq (kind : Junction) (ps : List Part) (parent : Option Junction) :
    group kind ps parent = (join kind ps).enclose ∨ group kind ps parent = join kind ps := by
  unfold group grouped
  split
  · exact .inl rfl
  · exact .inr rfl

/-- Joined parts are regular, because each of them can be made true and false as needed. -/
theorem Regular.join {ps : List Part} (hps : ∀ p ∈ ps, p.Regular) (hne : ps ≠ [])
    (kind : Junction) : (Part.join kind ps).Regular where
  ne_nil := by
    obtain ⟨p, rest, rfl⟩ := List.exists_cons_of_ne_nil hne
    have hp := (hps p (by simp)).ne_nil
    cases kind with
    | and => exact meet_ne_nil _ hp _
    | or => simp [Part.join, Junction.chain, hp]
  atoms := by
    have h := atomsOf_chain hps kind
    cases kind with
    | and | or => exact h
  steady b := by
    obtain ⟨bs, hbs, hos⟩ := exists_outcomes hps b
    have hlength : outcomes ps bs ≠ [] := by
      rw [← List.length_pos_iff, length_outcomes]
      exact List.length_pos_iff.2 hne
    refine ⟨bs, by rw [hbs, size_join], ?_⟩
    rw [outcome_join hps]
    constructor
    · refine kind.eq_of_mem_merge (by simpa using hlength) ?_ ?_
      · exact List.forall_mem_map.2 (outcomes_ne_nil hps hbs)
      · exact List.forall_mem_map.2 fun o ho => (hos o ho).1
    · refine kind.fold_eq_of_forall (by simpa using hlength) ?_
      exact List.forall_mem_map.2 fun o ho => (hos o ho).2

/-- A chain is true if one of its alternatives is. -/
theorem eval_chain (p : Part) (bs : List Bool) :
    p.chain.formula.eval (bs.take p.chain.formula.size) = (p.outcome bs).1.any id := by
  rw [Chain.formula, Formula.eval, outcome]
  exact congrArg (List.any · id) (Formula.truths_take _ bs (Nat.le_refl _))

/-- In parentheses a chain has one alternative, which is true if one of them was. -/
theorem outcome_enclose (p : Part) (bs : List Bool) :
    p.enclose.outcome bs = ([(p.outcome bs).1.any id], (p.outcome bs).2) := by
  rw [outcome, enclose, Formula.truths_unit, eval_chain]
  rfl

/-- A negated chain has one alternative, which is true if none of them was. -/
theorem outcome_negate (p : Part) (bs : List Bool) :
    p.negate.outcome bs = ([!(p.outcome bs).1.any id], !(p.outcome bs).2) := by
  have hsize : (Formula.neg p.chain.formula).size = p.chain.formula.size := rfl
  rw [outcome, negate, Formula.truths_unit, Formula.eval, Formula.eval, hsize, eval_chain]
  rfl

/-- Parentheses change nothing about what a part stands for. -/
theorem agrees_enclose_iff (p : Part) : p.enclose.Agrees ↔ p.Agrees := by
  refine forall₂_congr fun bs _ => ?_
  rw [outcome_enclose]
  simp

/-- Nor does a negation, which has parentheses too. -/
theorem agrees_negate_iff (p : Part) : p.negate.Agrees ↔ p.Agrees := by
  refine forall₂_congr fun bs _ => ?_
  rw [outcome_negate]
  simp

/-- Alternatives that are all alike are so together. -/
theorem Regular.any_outcome {p : Part} (h : p.Regular) {bs : List Bool} {b : Bool}
    (hx : ∀ x ∈ (p.outcome bs).1, x = b) : (p.outcome bs).1.any id = b :=
  Junction.fold_eq_of_forall .or (h.outcome_ne_nil bs) hx

theorem Regular.enclose {p : Part} (h : p.Regular) : p.enclose.Regular where
  ne_nil := by simp [Part.enclose]
  atoms := by
    have hatoms := h.atoms
    simpa [Part.enclose, Chain.formula, Formula.atoms, atomsOf] using hatoms
  steady b := by
    obtain ⟨bs, hbs, hx, hb⟩ := h.steady b
    refine ⟨bs, hbs, ?_⟩
    rw [outcome_enclose, h.any_outcome hx, hb]
    simp

theorem Regular.negate {p : Part} (h : p.Regular) : p.negate.Regular where
  ne_nil := by simp [Part.negate]
  atoms := by
    have hatoms := h.atoms
    simpa [Part.negate, Chain.formula, Formula.atoms, atomsOf] using hatoms
  steady b := by
    obtain ⟨bs, hbs, hx, hb⟩ := h.steady !b
    refine ⟨bs, hbs, ?_⟩
    rw [outcome_negate, h.any_outcome hx, hb]
    simp

theorem outcome_single (a : Atom) (b : Bool) : (single a).outcome [b] = ([b], b) := by
  rw [outcome, single, Formula.truths_unit]
  rfl

theorem regular_single (a : Atom) : (single a).Regular where
  ne_nil := by simp [single]
  atoms := rfl
  steady b := ⟨[b], rfl, by simp [outcome_single]⟩

/-- A comparison stands for itself. -/
theorem agrees_single (a : Atom) : (single a).Agrees := by
  intro bs hbs
  obtain ⟨b, rfl⟩ := List.length_eq_one_iff.1 hbs
  simp [outcome_single]

/-- Groups are regular, with or without parentheses. -/
theorem Regular.group {ps : List Part} (hps : ∀ p ∈ ps, p.Regular) (hne : ps ≠ [])
    (kind : Junction) (parent : Option Junction) : (Part.group kind ps parent).Regular := by
  have hjoin := Regular.join hps hne kind
  rcases group_eq kind ps parent with h | h
  · rw [h]
    exact hjoin.enclose
  · rw [h]
    exact hjoin

/-- **When a group stands for the combination of its parts**: each of them agrees, and the
connective keeps them apart. -/
theorem agrees_group_iff {ps : List Part} (hps : ∀ p ∈ ps, p.Regular) (kind : Junction)
    (parent : Option Junction) :
    (Part.group kind ps parent).Agrees ↔ (∀ p ∈ ps, p.Agrees) ∧ KeptApart kind ps := by
  rw [← agrees_join_iff hps]
  rcases group_eq kind ps parent with h | h
  · rw [h, agrees_enclose_iff]
  · rw [h]

end Part

/-! ## Filters -/

namespace Tree

variable {place : Place}

/-- A filter as it is written inside `parent`, and what it stands for. -/
def part (t : Tree place) (parent : Option Junction) : Part :=
  ⟨t.chain parent, t.formula⟩

/-- A condition on a column is a conjunction of its comparisons. -/
theorem part_column (name : ColumnName) (spec : Spec) (parent : Option Junction) :
    (column name spec).part parent =
      .group .and (spec.comparisons.map fun test => .single ⟨name, test⟩) parent := by
  simp only [part, chain, formula, Part.group, List.map_map]
  rfl

/-- Under a negation no connective is around the filter. -/
theorem part_negation (operand : Tree .object) (parent : Option Junction) :
    (negation operand).part parent = (operand.part none).negate := by
  simp only [part, chain, formula, Part.negate]

/-- The parts of a combination are written inside its connective. -/
theorem part_combination (kind : Junction) (first : Tree .object) (rest : List (Tree .object))
    (parent : Option Junction) :
    (combination kind first rest).part parent =
      .group kind ((first :: rest).map fun t => t.part (some kind)) parent := by
  simp only [part, chain, formula, Part.group, List.map_map, List.map_cons]
  rfl

/-- The entries of an object are a conjunction; a single one is written inside whatever is around
the object. -/
theorem part_object (first : Tree .entry) (rest : List (Tree .entry)) (parent : Option Junction) :
    (object first rest).part parent =
      .group .and ((first :: rest).map fun t => t.part (if rest.isEmpty then parent else some .and))
        parent := by
  simp only [part, chain, formula, Part.group, List.map_map, List.map_cons]
  rfl

theorem comparisons_ne_nil (spec : Spec) : spec.comparisons ≠ [] := by
  cases spec with
  | missing | equal operand present | among first rest | tests first rest =>
    simp [Spec.comparisons]

/-- Every filter is written with its comparisons in order, and can be made true and false. -/
theorem regular (t : Tree place) (parent : Option Junction) : (t.part parent).Regular := by
  induction place, t using Tree.formula.induct generalizing parent with
  | case1 name spec =>
    rw [part_column]
    refine .group ?_ (by simpa using comparisons_ne_nil spec) .and parent
    exact List.forall_mem_map.2 fun test _ => Part.regular_single _
  | case2 operand ih =>
    rw [part_negation]
    exact (ih none).negate
  | case3 kind first rest ih ihs =>
    rw [part_combination]
    refine .group (List.forall_mem_map.2 (List.forall_mem_cons.2 ?_)) (by simp) kind parent
    exact ⟨ih (some kind), fun t ht => ihs t ht (some kind)⟩
  | case4 first rest ih ihs =>
    rw [part_object]
    refine .group (List.forall_mem_map.2 (List.forall_mem_cons.2 ?_)) (by simp) .and parent
    exact ⟨ih _, fun t ht => ihs t ht _⟩

/-- A disjunction keeps its parts apart, and so does a connective with one part; a conjunction of
several does if none of them is open. -/
theorem keepsApart_iff (kind : Junction) (parts : List (Tree place)) :
    keepsApart kind parts = true ↔
      kind = .or ∨ parts.length = 1 ∨ ∀ t ∈ parts, t.isOpen (some .and) = false := by
  simp [keepsApart, or_assoc]

/-- A combination is guarded if its connective keeps its parts apart and each of them is guarded. -/
theorem guarded_combination_iff (kind : Junction) (first : Tree .object)
    (rest : List (Tree .object)) :
    (combination kind first rest).guarded = true ↔
      keepsApart kind (first :: rest) = true ∧ ∀ t ∈ first :: rest, t.guarded = true := by
  simp [guarded, and_assoc]

/-- The same of an object, whose connective is AND. -/
theorem guarded_object_iff (first : Tree .entry) (rest : List (Tree .entry)) :
    (object first rest).guarded = true ↔
      keepsApart .and (first :: rest) = true ∧ ∀ t ∈ first :: rest, t.guarded = true := by
  simp [guarded, and_assoc]

end Tree

/-! ### Open alternatives -/

theorem Junction.chain_singleton (kind : Junction) {c : Chain} (hc : c ≠ []) :
    kind.chain [c] = c := by
  cases kind with
  | and => exact meet_unit List.append_nil hc
  | or => simp [chain]

/-- A group of one chain is that chain. -/
theorem grouped_singleton (kind : Junction) {c : Chain} (hc : c ≠ []) (parent : Option Junction) :
    grouped kind [c] parent = c := by
  rw [grouped, if_neg (by simp), kind.chain_singleton hc]

/-- Single conjunctions with AND between them are a single conjunction. -/
theorem length_grouped_and {cs : List Chain} (h : ∀ c ∈ cs, c.length = 1)
    (parent : Option Junction) : (grouped .and cs parent).length = 1 := by
  have hchain : (Junction.and.chain cs).length = 1 := by
    rw [Junction.chain]
    induction cs with
    | nil => rfl
    | cons c cs ih =>
      obtain ⟨run, rfl⟩ := List.length_eq_one_iff.1 (h c (by simp))
      obtain ⟨run', hrest⟩ :=
        List.length_eq_one_iff.1 (ih fun c' hc' => h c' (List.mem_cons_of_mem _ hc'))
      rw [List.foldr_cons, hrest, meet]
      rfl
  unfold grouped
  split
  · rfl
  · exact hchain

namespace Tree

variable {place : Place}

/-- Every filter is written as at least one alternative. -/
theorem chain_ne_nil (t : Tree place) (parent : Option Junction) : t.chain parent ≠ [] :=
  (t.regular parent).ne_nil

/-- In a conjunction of several parts that are kept apart none is open. -/
theorem isOpen_eq_false_of_keepsApart {parts : List (Tree place)} (hseveral : 1 < parts.length)
    (h : keepsApart .and parts = true) : ∀ t ∈ parts, t.isOpen (some .and) = false := by
  rcases (keepsApart_iff _ _).1 h with hor | hone | hclosed
  · cases hor
  · omega
  · exact hclosed

theorem chain_combination (kind : Junction) (first : Tree .object) (rest : List (Tree .object))
    (parent : Option Junction) :
    (combination kind first rest).chain parent =
      grouped kind ((first :: rest).map fun t => t.chain (some kind)) parent := by
  rw [chain]
  rfl

theorem chain_object_cons (first second : Tree .entry) (rest : List (Tree .entry))
    (parent : Option Junction) :
    (object first (second :: rest)).chain parent =
      grouped .and ((first :: second :: rest).map fun t => t.chain (some .and)) parent := by
  rw [chain]
  rfl

/-- Several alternatives are written in parentheses inside AND, and without them elsewhere. -/
theorem length_grouped_or (first second : Tree place) (rest : List (Tree place))
    (parent : Option Junction) :
    (grouped .or ((first :: second :: rest).map fun t => t.chain (some .or)) parent).length = 1 ↔
      parent = some .and := by
  have hlong : 1 < (Junction.or.chain
      ((first :: second :: rest).map fun t => t.chain (some .or))).length := by
    have hfirst := List.length_pos_iff.2 (first.chain_ne_nil (some .or))
    have hsecond := List.length_pos_iff.2 (second.chain_ne_nil (some .or))
    rw [Junction.chain, List.map_cons, List.map_cons, List.flatten_cons, List.flatten_cons,
      List.length_append, List.length_append]
    omega
  by_cases hparent : parent = some .and
  · simp [grouped, hparent]
  · have hbare : grouped .or ((first :: second :: rest).map fun t => t.chain (some .or)) parent =
        Junction.or.chain ((first :: second :: rest).map fun t => t.chain (some .or)) := by
      rw [grouped, if_neg]
      cases parent with
      | none => simp
      | some kind =>
        cases kind with
        | and => exact absurd rfl hparent
        | or => simp
    rw [hbare]
    simp only [hparent, iff_false]
    omega

/-- A guarded filter is written as several alternatives exactly if it is open. -/
theorem length_chain_eq_one_iff {t : Tree place} (h : t.guarded = true)
    (parent : Option Junction) : (t.chain parent).length = 1 ↔ t.isOpen parent = false := by
  induction place, t using Tree.formula.induct generalizing parent with
  | case1 name spec =>
    have hlength : ((column name spec).chain parent).length = 1 := by
      rw [chain]
      exact length_grouped_and (List.forall_mem_map.2 fun test _ => rfl) parent
    simp [hlength, isOpen]
  | case2 operand ih => simp [chain, isOpen]
  | case3 kind first rest ih ihs =>
    obtain ⟨hapart, hguarded⟩ := (guarded_combination_iff kind first rest).1 h
    have hparts := List.forall_mem_cons.2 ⟨ih, ihs⟩
    cases rest with
    | nil =>
      rw [chain, isOpen, List.map_nil, grouped_singleton kind (first.chain_ne_nil _)]
      exact ih (hguarded first (by simp)) (some kind)
    | cons second rest =>
      cases kind with
      | and =>
        have hclosed := isOpen_eq_false_of_keepsApart (by simp) hapart
        have hlength : ((combination .and first (second :: rest)).chain parent).length = 1 := by
          rw [chain_combination]
          exact length_grouped_and (List.forall_mem_map.2 fun t ht =>
            (hparts t ht (hguarded t ht) (some .and)).2 (hclosed t ht)) parent
        simp [hlength, isOpen]
      | or =>
        rw [chain_combination, length_grouped_or, isOpen]
        simp
  | case4 first rest ih ihs =>
    obtain ⟨hapart, hguarded⟩ := (guarded_object_iff first rest).1 h
    have hparts := List.forall_mem_cons.2 ⟨ih, ihs⟩
    cases rest with
    | nil =>
      rw [chain, isOpen, List.map_nil, grouped_singleton .and (first.chain_ne_nil _)]
      exact ih (hguarded first (by simp)) parent
    | cons second rest =>
      have hclosed := isOpen_eq_false_of_keepsApart (by simp) hapart
      have hlength : ((object first (second :: rest)).chain parent).length = 1 := by
        rw [chain_object_cons]
        exact length_grouped_and (List.forall_mem_map.2 fun t ht =>
          (hparts t ht (hguarded t ht) (some .and)).2 (hclosed t ht)) parent
      simp [hlength, isOpen]

/-- Guarded parts are kept apart exactly if none of them is open where AND joins several. -/
theorem keptApart_iff {parts : List (Tree place)} (hguarded : ∀ t ∈ parts, t.guarded = true)
    {kind : Junction} {around : Option Junction} (haround : parts.length = 1 ∨ around = some kind) :
    KeptApart kind (parts.map fun t => t.part around) ↔ keepsApart kind parts = true := by
  rw [keepsApart_iff, KeptApart, List.length_map, List.forall_mem_map]
  rcases haround with hone | rfl
  · simp [hone]
  · cases kind with
    | or => simp
    | and =>
      have hclosed : (∀ t ∈ parts, (t.part (some .and)).chain.length = 1) ↔
          ∀ t ∈ parts, t.isOpen (some .and) = false :=
        forall₂_congr fun t ht => length_chain_eq_one_iff (hguarded t ht) (some .and)
      rw [hclosed]

/-- The step of the induction: a group of filters agrees exactly if it is guarded. -/
theorem agrees_group_iff_guarded {parts : List (Tree place)}
    (hparts : ∀ t ∈ parts, ∀ parent, (t.part parent).Agrees ↔ t.guarded = true) {kind : Junction}
    {around : Option Junction} (haround : parts.length = 1 ∨ around = some kind)
    (parent : Option Junction) :
    (Part.group kind (parts.map fun t => t.part around) parent).Agrees ↔
      keepsApart kind parts = true ∧ ∀ t ∈ parts, t.guarded = true := by
  have hagrees : (∀ t ∈ parts, (t.part around).Agrees) ↔ ∀ t ∈ parts, t.guarded = true :=
    forall₂_congr fun t ht => hparts t ht around
  rw [Part.agrees_group_iff (List.forall_mem_map.2 fun t _ => t.regular around),
    List.forall_mem_map, hagrees, and_comm]
  exact and_congr_left fun hguarded => keptApart_iff hguarded haround

/-- A filter is written as what it stands for exactly if it is guarded. -/
theorem agrees_iff_guarded (t : Tree place) (parent : Option Junction) :
    (t.part parent).Agrees ↔ t.guarded = true := by
  induction place, t using Tree.formula.induct generalizing parent with
  | case1 name spec =>
    rw [part_column, Part.agrees_group_iff (List.forall_mem_map.2 fun _ _ => Part.regular_single _),
      guarded]
    simp only [iff_true]
    refine ⟨List.forall_mem_map.2 fun _ _ => Part.agrees_single _, .inr (.inr ?_)⟩
    exact List.forall_mem_map.2 fun _ _ => rfl
  | case2 operand ih => rw [part_negation, Part.agrees_negate_iff, ih, guarded]
  | case3 kind first rest ih ihs =>
    rw [part_combination, guarded_combination_iff]
    exact agrees_group_iff_guarded (List.forall_mem_cons.2 ⟨ih, ihs⟩) (.inr rfl) parent
  | case4 first rest ih ihs =>
    rw [part_object, guarded_object_iff]
    refine agrees_group_iff_guarded (List.forall_mem_cons.2 ⟨ih, ihs⟩) ?_ parent
    cases rest with
    | nil => exact .inl rfl
    | cons second rest => exact .inr rfl

end Tree

end QueryTree.Filter
