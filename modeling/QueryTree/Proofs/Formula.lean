import Mathlib.Data.List.Basic

/-!
# Boolean expressions

A filter and the text that it is rendered to are both Boolean expressions over the same comparisons,
in the same order.  They are compared by what they say for each choice of truth values, one for each
place where a comparison stands.

* `Formula` is a Boolean expression.
* `Formula.eval` evaluates it; the truth values are given from left to right.
* `Formula.truths` evaluates expressions in a row.
* `meet` puts two lists together where they meet.  **`truths_meet`** : runs of conjunctions that
  meet are true together.
-/

namespace QueryTree

/-- A Boolean expression over atoms. -/
inductive Formula (α : Type) where
  | atom (a : α)
  | neg (φ : Formula α)
  | all (φs : List (Formula α))
  | any (φs : List (Formula α))

namespace Formula

variable {α : Type}

mutual

/-- The atoms of an expression, from left to right and with repetitions. -/
def atoms : Formula α → List α
  | .atom a => [a]
  | .neg φ => φ.atoms
  | .all φs => atomsOf φs
  | .any φs => atomsOf φs
termination_by structural φ => φ

/-- The atoms of expressions in a row. -/
def atomsOf : List (Formula α) → List α
  | [] => []
  | φ :: φs => φ.atoms ++ atomsOf φs
termination_by structural φs => φs

end

/-- The number of places where an atom stands. -/
def size (φ : Formula α) : Nat :=
  φ.atoms.length

/-- The number of places where an atom stands in expressions in a row. -/
def sizes (φs : List (Formula α)) : Nat :=
  (atomsOf φs).length

mutual

/-- The truth of an expression, given the truth at each place of an atom from left to right. -/
def eval : Formula α → List Bool → Bool
  | .atom _, bs => bs.headD false
  | .neg φ, bs => !φ.eval bs
  | .all φs, bs => (truths φs bs).all id
  | .any φs, bs => (truths φs bs).any id
termination_by structural φ => φ

/-- The truth of each of some expressions in a row. -/
def truths : List (Formula α) → List Bool → List Bool
  | [], _ => []
  | φ :: φs, bs => φ.eval (bs.take φ.size) :: truths φs (bs.drop φ.size)
termination_by structural φs => φs

end

/-! ## Expressions in a row -/

@[simp] theorem sizes_nil : sizes ([] : List (Formula α)) = 0 := rfl

/-- The sizes of formulas add up. -/
@[simp] theorem sizes_cons (φ : Formula α) (φs : List (Formula α)) :
    sizes (φ :: φs) = φ.size + sizes φs := by
  rw [sizes, atomsOf, List.length_append, size, sizes]

/-- Formulas in a row have their atoms in that order. -/
theorem atomsOf_append (φs ψs : List (Formula α)) :
    atomsOf (φs ++ ψs) = atomsOf φs ++ atomsOf ψs := by
  induction φs with
  | nil => rw [List.nil_append, atomsOf, List.nil_append]
  | cons φ φs ih => rw [List.cons_append, atomsOf, atomsOf, ih, List.append_assoc]

@[simp] theorem sizes_append (φs ψs : List (Formula α)) :
    sizes (φs ++ ψs) = sizes φs + sizes ψs := by
  rw [sizes, atomsOf_append, List.length_append, sizes, sizes]

/-- There is one truth value for each formula. -/
theorem length_truths (φs : List (Formula α)) (bs : List Bool) :
    (truths φs bs).length = φs.length := by
  induction φs generalizing bs with
  | nil => rfl
  | cons φ φs ih => rw [truths, List.length_cons, ih, List.length_cons]

/-- Only the truth values of the atoms count. -/
theorem truths_take (φs : List (Formula α)) (bs : List Bool) {n : Nat} (hn : sizes φs ≤ n) :
    truths φs (bs.take n) = truths φs bs := by
  induction φs generalizing bs n with
  | nil => rw [truths, truths]
  | cons φ φs ih =>
    rw [sizes_cons] at hn
    have htake : (bs.take n).take φ.size = bs.take φ.size := by
      rw [List.take_take, Nat.min_eq_left (by omega)]
    rw [truths, truths, htake, List.drop_take, ih _ (by omega)]

/-- The second row of formulas reads the values that the first one leaves. -/
theorem truths_append (φs ψs : List (Formula α)) (bs : List Bool) :
    truths (φs ++ ψs) bs = truths φs bs ++ truths ψs (bs.drop (sizes φs)) := by
  induction φs generalizing bs with
  | nil => simp [truths]
  | cons φ φs ih =>
    rw [List.cons_append, truths, truths, ih, List.drop_drop, sizes_cons, List.cons_append]

/-! ## Lists that meet -/

end Formula

/-- Two lists one after the other, the last item of the first and the first item of the second being
made one by `op`. -/
def meet {β : Type} (op : β → β → β) : List β → List β → List β
  | [], ys => ys
  | [x], [] => [x]
  | [x], y :: ys => op x y :: ys
  | x :: x' :: xs, ys => x :: meet op (x' :: xs) ys

/-- Something is left where lists meet. -/
theorem meet_ne_nil {β : Type} (op : β → β → β) {xs : List β} (hxs : xs ≠ []) (ys : List β) :
    meet op xs ys ≠ [] := by
  fun_cases meet op xs ys with
  | case1 => exact absurd rfl hxs
  | case2 | case3 | case4 => simp

namespace Formula

variable {α : Type}

@[simp] theorem size_all (φs : List (Formula α)) : (all φs).size = sizes φs := by
  rw [size, atoms, sizes]

/-- A conjunction is true if all of its members are. -/
theorem eval_all (φs : List (Formula α)) (bs : List Bool) :
    (all φs).eval bs = (truths φs bs).all id := by
  rw [eval]

/-- A single unit. -/
theorem truths_unit (φ : Formula α) (bs : List Bool) :
    truths ([[φ]].map all) bs = [φ.eval (bs.take φ.size)] := by
  simp [truths, eval_all, List.take_take]

/-- Runs that meet keep their atoms in order. -/
theorem atomsOf_meet (runs runs' : List (List (Formula α))) :
    atomsOf ((meet (· ++ ·) runs runs').map all) =
      atomsOf (runs.map all) ++ atomsOf (runs'.map all) := by
  fun_induction meet (· ++ ·) runs runs' with
  | case1 ys => rfl
  | case2 run => simp [atomsOf]
  | case3 run run' rest => simp [atomsOf, atoms, atomsOf_append]
  | case4 run run' rest ys ih =>
    have hcons : atomsOf ((run :: run' :: rest).map all) =
        (all run).atoms ++ atomsOf ((run' :: rest).map all) := by
      rw [List.map_cons, atomsOf]
    rw [hcons, List.append_assoc, ← ih, List.map_cons, atomsOf]

/-- Runs of conjunctions that meet are true together. -/
theorem truths_meet (runs runs' : List (List (Formula α))) (bs : List Bool) :
    truths ((meet (· ++ ·) runs runs').map all) bs =
      meet (· && ·) (truths (runs.map all) bs)
        (truths (runs'.map all) (bs.drop (sizes (runs.map all)))) := by
  fun_induction meet (· ++ ·) runs runs' generalizing bs with
  | case1 ys => simp [truths, meet]
  | case2 run => simp [truths, meet]
  | case3 run run' rest =>
    simp only [List.map_cons, List.map_nil, truths, meet, eval_all, size_all, sizes_append,
      sizes_cons, sizes_nil, Nat.add_zero, truths_append, List.all_append, List.drop_drop]
    rw [truths_take run _ (Nat.le_add_right _ _), truths_take run _ (Nat.le_refl _),
      List.drop_take, Nat.add_sub_cancel_left]
  | case4 run run' rest ys ih =>
    simp only [List.map_cons, truths, meet, sizes_cons, ← List.drop_drop] at ih ⊢
    rw [ih]

end Formula

end QueryTree
