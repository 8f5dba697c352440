import QueryTree.Proofs.ExpressionClauses
import QueryTree.Template.Render

/-!
# Templates render clauses

A template joins the texts of its references with its own words.  Whether the result is a clause
depends on the template alone: on its words, and on where it leaves out the space between two parts.

* `Sql.Strung` : fragments that are clauses and stand apart from each other, some of them in
  parentheses; `Strung.join` puts them together to a clause.
* `Sql.Fits` : a list of parts whose fragments are always strung.
* `Sql.Supplies` : an object whose values are made of admissible leaves, a default for the columns
  of a result apart.
* **`template_renders`** : the operator of a template whose parts fit renders clauses.
-/

namespace QueryTree

namespace Sql

open Template (Node renderNode renderNodes)

variable {S : Scheme} {F : List Value} {n : Nat}

/-! ## Fragments -/

/-- Fragments that follow others: each is a clause with a space before it, a clause that starts with
a parenthesis, or a clause in parentheses of its own. -/
inductive Strung (S : Scheme) (admissible : List Value) :
    Nat → List Fragment → List Value → Prop where
  | nil {n : Nat} : Strung S admissible n [] []
  | spaced {n : Nat} {text : String} {fs : List Fragment} {us ws : List Value}
      (first : Clause S admissible n text us) (rest : Strung S admissible (n + us.length) fs ws) :
      Strung S admissible n (⟨text, true⟩ :: fs) (us ++ ws)
  | glued {n : Nat} {text : String} {fs : List Fragment} {us ws : List Value}
      (first : Clause S admissible n text us) (opens : text.toList.head? = some '(')
      (rest : Strung S admissible (n + us.length) fs ws) :
      Strung S admissible n (⟨text, false⟩ :: fs) (us ++ ws)
  | enclosed {n : Nat} {text : String} {fs : List Fragment} {us ws : List Value}
      (inner : Clause S admissible n text us) (rest : Strung S admissible (n + us.length) fs ws) :
      Strung S admissible n (⟨"(", true⟩ :: (Fragment.ofText text false ++ ⟨")", false⟩ :: fs))
        (us ++ ws)

namespace Strung

variable {fs fs' : List Fragment} {vs ws : List Value}

/-- Fragments that are strung can be put together. -/
theorem append (h : Strung S F n fs vs) (h' : Strung S F (n + vs.length) fs' ws) :
    Strung S F n (fs ++ fs') (vs ++ ws) := by
  induction h with
  | nil => exact h'
  | @spaced n text fs us vs first rest ih =>
    rw [List.length_append, ← Nat.add_assoc] at h'
    rw [List.append_assoc]
    exact .spaced first (ih h')
  | @glued n text fs us vs first opens rest ih =>
    rw [List.length_append, ← Nat.add_assoc] at h'
    rw [List.append_assoc]
    exact .glued first opens (ih h')
  | @enclosed n text fs us vs inner rest ih =>
    rw [List.length_append, ← Nat.add_assoc] at h'
    rw [List.append_assoc, List.cons_append, List.append_assoc, List.cons_append]
    exact .enclosed inner (ih h')

/-- A space before the first fragment does no harm. -/
theorem respace (h : Strung S F n fs vs) : Strung S F n (respace true fs) vs := by
  cases h with
  | nil => exact .nil
  | spaced first rest => exact .spaced first rest
  | glued first opens rest => exact .spaced first rest
  | enclosed inner rest => exact .enclosed inner rest

/-- Their texts follow each other. -/
theorem fragmentTail_append (fs fs' : List Fragment) :
    fragmentTail (fs ++ fs') = fragmentTail fs ++ fragmentTail fs' := by
  induction fs with
  | nil => simp [fragmentTail]
  | cons f fs ih => simp [fragmentTail, ih, String.append_assoc]

theorem fragmentTail_ofText (text : String) : fragmentTail (Fragment.ofText text false) = text := by
  unfold Fragment.ofText
  split
  · rename_i hempty
    exact (String.isEmpty_iff.1 hempty).symm
  · simp [fragmentTail]

/-- A clause in parentheses, as it stands between fragments. -/
theorem fragmentTail_enclosed (text : String) (fs : List Fragment) :
    fragmentTail (Fragment.ofText text false ++ ⟨")", false⟩ :: fs) =
      text ++ ")" ++ fragmentTail fs := by
  rw [fragmentTail_append, fragmentTail_ofText]
  simp [fragmentTail, String.append_assoc]

/-- The texts of fragments that follow others; they start with a break. -/
theorem tail (h : Strung S F n fs vs) :
    Clause S F n (fragmentTail fs) vs ∧ ∀ c ∈ (fragmentTail fs).toList.head?, isBreak c = true := by
  have hspace : isBreak ' ' = true := by decide
  have hopen : isBreak '(' = true := by decide
  induction h with
  | nil => exact ⟨.empty, by simp [fragmentTail]⟩
  | spaced first rest ih =>
    exact ⟨(Clause.lead (by decide) first).glue ih.1 ih.2, by simp [fragmentTail, hspace]⟩
  | @glued n text fs us ws first opens rest ih =>
    refine ⟨first.glue ih.1 ih.2, ?_⟩
    simp [fragmentTail, List.head?_append, opens, hopen]
  | @enclosed n text fs us ws inner rest ih =>
    have htext : fragmentTail (⟨"(", true⟩ :: (Fragment.ofText text false ++ ⟨")", false⟩ :: fs)) =
        " (" ++ text ++ ")" ++ fragmentTail fs := by
      rw [fragmentTail, fragmentTail_enclosed]
      simp [← String.toList_inj]
    rw [htext]
    exact ⟨(Clause.enclose (by decide) inner).glue ih.1 ih.2, by simp [hspace]⟩

/-- The texts of fragments, put together. -/
theorem join (h : Strung S F n fs vs) : Clause S F n (joinFragments fs) vs := by
  cases h with
  | nil => exact .empty
  | spaced first rest => exact first.glue rest.tail.1 rest.tail.2
  | glued first opens rest => exact first.glue rest.tail.1 rest.tail.2
  | @enclosed n text fs us ws inner rest =>
    have htext : joinFragments (⟨"(", true⟩ :: (Fragment.ofText text false ++ ⟨")", false⟩ :: fs)) =
        "(" ++ text ++ ")" ++ fragmentTail fs := by
      rw [joinFragments, fragmentTail_enclosed]
      simp only [String.append_assoc]
    rw [htext]
    exact (Clause.enclose (by decide) inner).glue rest.tail.1 rest.tail.2

/-- A text with a space before it, unless it is empty. -/
theorem ofText {text : String} (h : Clause S F n text vs) :
    Strung S F n (Fragment.ofText text true) vs := by
  unfold Fragment.ofText
  split
  · rename_i hempty
    rw [String.isEmpty_iff.1 hempty] at h
    rw [h.eq_nil_of_empty]
    exact .nil
  · have hstrung := Strung.spaced h .nil
    rwa [List.append_nil] at hstrung

end Strung

/-- A text without a space before it, if it starts with a parenthesis. -/
theorem Strung.ofText_glued {text : String} {vs : List Value} (h : Clause S F n text vs)
    (hopens : text.isEmpty = false → text.toList.head? = some '(') :
    Strung S F n (Fragment.ofText text false) vs := by
  cases hempty : text.isEmpty with
  | true =>
    rw [String.isEmpty_iff.1 hempty] at h ⊢
    rw [h.eq_nil_of_empty]
    exact .nil
  | false =>
    have hstrung := Strung.glued h (hopens hempty) .nil
    rw [List.append_nil] at hstrung
    simpa only [Fragment.ofText, hempty, Bool.false_eq_true, if_false] using hstrung

/-! ## What a body supplies -/

/-- A value of admissible leaves, or a name for the columns of a result. -/
def Supplied (admissible : List Value) (key : String) (v : Value) : Prop :=
  v.leaves ⊆ admissible ∨ key = "$columns" ∧ ∃ name, v = .str name

/-- An object whose values are all supplied. -/
def Supplies (admissible : List Value) (body : Fields) : Prop :=
  ∀ key v, body.get? key = some v → Supplied admissible key v

/-- The items of a value are supplied with it. -/
theorem Supplied.item {key : String} {v item : Value} (h : Supplied F key v)
    (hitem : item ∈ seriesItems v) : Supplied F key item := by
  rcases h with h | ⟨hkey, name, rfl⟩
  · left
    refine List.Subset.trans ?_ h
    cases v with
    | object fields =>
      obtain ⟨entry, hentry, rfl⟩ := List.mem_map.1 hitem
      exact Value.leaves_subset_of_subset (by simpa using hentry)
    | list items => exact Value.leaves_subset_of_mem_items hitem
    | null | bool flag | int number | float number | str text =>
      rw [List.mem_singleton.1 hitem]
      exact List.Subset.refl _
  · exact .inr ⟨hkey, name, List.mem_singleton.1 hitem⟩

theorem Supplies.self (fields : Fields) : Supplies (Value.object fields).leaves fields :=
  fun _ _ hget => .inl (Value.leaves_subset_of_get? hget)

/-- A reference that is given is supplied by the body. -/
theorem Supplies.valueOf {body : Fields} (h : Supplies F body) {key : String}
    (hnull : (body.valueOf key).isNull = false) : Supplied F key (body.valueOf key) := by
  rw [Fields.valueOf_eq] at hnull ⊢
  cases hget : body.get? key with
  | none =>
    rw [hget] at hnull
    cases hnull
  | some v => exact h key v hget

theorem Supplies.set {body : Fields} (h : Supplies F body) {key : String} {v : Value}
    (hv : Supplied F key v) : Supplies F (body.set key v) := by
  intro other w hget
  by_cases hkey : other = key
  · subst hkey
    rw [Fields.get?_set_self] at hget
    cases hget
    exact hv
  · rw [Fields.get?_set_of_ne hkey] at hget
    exact h other w hget

/-- Defaults supply what is missing. -/
theorem Supplies.withDefaults {body defaults : Fields} (h : Supplies F body)
    (hdefaults : ∀ entry ∈ defaults, Supplied F entry.1 entry.2) :
    Supplies F (body.withDefaults defaults) := by
  induction defaults generalizing body with
  | nil => exact h
  | cons entry rest ih =>
    obtain ⟨key, v⟩ := entry
    have hrest : ∀ entry ∈ rest, Supplied F entry.1 entry.2 :=
      fun e he => hdefaults e (List.mem_cons_of_mem _ he)
    rw [Fields.withDefaults_cons]
    split
    · exact ih (h.set (hdefaults _ List.mem_cons_self)) hrest
    · exact ih h hrest

/-! ## References -/

/-- What the text of a reference is. -/
def ReferenceText (S : Scheme) (admissible : List Value) (key : String) (n : Nat) (text : String)
    (values : List Value) : Prop :=
  Clause S admissible n text values ∧
    (key = "$length" → text.isEmpty = false → text.toList.head? = some '(')

variable {ctx : Context} {replies : ReplyRel} {body : Fields}

/-- A reference is answered by a clause with leaves of what it was given. -/
theorem Setting.reference (h : Setting S ctx replies) {key : String} {v : Value}
    (hv : Supplied F key v) (node : Fields) (column : Option String) :
    Ensures S replies (ReferenceText S F key) (ctx.invoke key v node column) := by
  intro n t vs hyields
  have hanswer := h.answered _ n t vs (Rendering.yields_invoke.1 hyields)
  refine ⟨?_, fun hkey _ => hanswer.sizes hkey⟩
  rcases hv with hleaves | ⟨hkey, name, rfl⟩
  · exact hanswer.clause.mono hleaves
  · obtain rfl := hanswer.names hkey name rfl
    exact ⟨hanswer.clause.spelling, List.nil_subset F⟩

/-- A part of a template that renders the text of one key. -/
inductive Refers : Node → String → Bool → Prop where
  | required (key : String) (spaced : Bool) : Refers (.required key spaced) key spaced
  | inline (key : String) (spaced : Bool) : Refers (.inline key spaced) key spaced
  | series {key separator : String} (required spaced : Bool) (separates : Separates separator)
      (other : key ≠ "$length") : Refers (.series key separator required spaced) key spaced

/-- All kinds of references are rendered to the answers for their keys. -/
theorem Refers.renders (h : Setting S ctx replies) (hbody : Supplies F body) {node : Node}
    {key : String} {spaced : Bool} (href : Refers node key spaced) (name : String)
    (column : Option String) :
    Ensures S replies
      (fun n fs vs => ∃ text, fs = Fragment.ofText text spaced ∧ ReferenceText S F key n text vs)
      (renderNode ctx name body column node) := by
  have hnothing : Ensures S replies
      (fun n fs vs => ∃ text, fs = Fragment.ofText text spaced ∧ ReferenceText S F key n text vs)
      (pure []) := .pure fun _ => ⟨"", rfl, .empty, fun _ hempty => by cases hempty⟩
  cases href with
  | required key spaced =>
    rw [renderNode]
    split
    · exact .refuse _
    · rename_i hnull
      exact (h.reference (hbody.valueOf (by simpa using hnull)) body column).map
        fun ht => ⟨_, rfl, ht⟩
  | inline key spaced =>
    rw [renderNode]
    split
    · exact hnothing
    · rename_i hnull
      exact (h.reference (hbody.valueOf (by simpa using hnull)) body column).map
        fun ht => ⟨_, rfl, ht⟩
  | series required spaced separates other =>
    rw [renderNode]
    split
    · rename_i hpresent
      have hsupplied := hbody.valueOf (Value.not_isNull_of_isPresent hpresent)
      have hitems : RendersAll S replies F
          (Rendering.each (fun item => ctx.invoke key item body column)
            (seriesItems (body.valueOf key))) :=
        .each fun item hitem n t vs ht =>
          (h.reference (hsupplied.item hitem) body column n t vs ht).1
      exact hitems.map fun ht =>
        ⟨_, rfl, ht.dropEmpty.join separates, fun hkey => absurd hkey other⟩
    · split
      · exact .refuse _
      · exact hnothing

/-! ## Parts that fit together -/

/-- Fragments that come first in a group or in a statement: a space before them does not count. -/
def begun (first : Bool) (fs : List Fragment) : List Fragment :=
  if first then respace true fs else fs

theorem begun_ofText (first spaced : Bool) (text : String) :
    begun first (Fragment.ofText text spaced) = Fragment.ofText text (first || spaced) := by
  cases first with
  | false => rfl
  | true =>
    unfold Fragment.ofText
    split <;> rfl

/-- A word with a space before it that may not count. -/
theorem begun_word {first spaced : Bool} (space : (first || spaced) = true) (text : String) :
    begun first [⟨text, spaced⟩] = [⟨text, true⟩] := by
  cases first with
  | true => rfl
  | false =>
    cases space
    rfl

/-- The space before the first fragment is not written. -/
theorem joinFragments_begun (first : Bool) (fs : List Fragment) :
    joinFragments (begun first fs) = joinFragments fs := by
  cases first with
  | false => rfl
  | true => cases fs <;> rfl

theorem Strung.begun_append {first : Bool} {fs fs' : List Fragment} {us ws : List Value}
    (h : Strung S F n (begun first fs) us) (h' : Strung S F (n + us.length) fs' ws) :
    Strung S F n (begun first (fs ++ fs')) (us ++ ws) := by
  cases first with
  | false => exact h.append h'
  | true =>
    cases fs with
    | nil =>
      cases h
      exact h'.respace
    | cons f fs => exact h.append h'

/-- Parts whose fragments stand apart from each other.  The flag says that a space before the first
of them does not count. -/
inductive Fits : Bool → List Node → Prop where
  | nil {first : Bool} : Fits first []
  | word {first spaced : Bool} {text : String} {rest : List Node} (keyword : IsKeyword text)
      (space : (first || spaced) = true) (others : Fits false rest) :
      Fits first (.word text spaced :: rest)
  | reference {first spaced : Bool} {node : Node} {key : String} {rest : List Node}
      (refers : Refers node key spaced) (space : (first || spaced) = true ∨ key = "$length")
      (others : Fits false rest) : Fits first (node :: rest)
  | group {first : Bool} {children rest : List Node} {guard : String}
      (inner : Fits true children) (others : Fits false rest) :
      Fits first (.group children guard true :: rest)
  | enclosed {first : Bool} {node : Node} {key : String} {rest : List Node}
      (refers : Refers node key false) (others : Fits false rest) :
      Fits first (.word "(" true :: node :: .word ")" false :: rest)

theorem checkAbsent_binds_nothing (node : Fields) (guard : String) (keys : List String) :
    Ensures S replies (fun _ _ vs => vs = []) (Template.checkAbsent node guard keys) := by
  induction keys with
  | nil => exact .pure fun _ => rfl
  | cons key rest ih =>
    rw [Template.checkAbsent]
    split
    · exact .refuse _
    · exact ih

/-- One part and the parts after it. -/
theorem strung_cons {first : Bool} {node : Node} {rest : List Node} {name : String}
    {column : Option String}
    (hnode : Ensures S replies (fun n fs vs => Strung S F n (begun first fs) vs)
      (renderNode ctx name body column node))
    (hrest : Ensures S replies (fun n fs vs => Strung S F n (begun false fs) vs)
      (renderNodes ctx name body column rest)) :
    Ensures S replies (fun n fs vs => Strung S F n (begun first fs) vs)
      (renderNodes ctx name body column (node :: rest)) := by
  rw [renderNodes]
  exact hnode.map₂ hrest fun hfirst hothers => hfirst.begun_append hothers

/-- A part in parentheses and the parts after it. -/
theorem strung_enclosed (h : Setting S ctx replies) (hbody : Supplies F body) {first : Bool}
    {node : Node} {key name : String} {rest : List Node} {column : Option String}
    (refers : Refers node key false)
    (hrest : Ensures S replies (fun n fs vs => Strung S F n (begun false fs) vs)
      (renderNodes ctx name body column rest)) :
    Ensures S replies (fun n fs vs => Strung S F n (begun first fs) vs)
      (renderNodes ctx name body column (.word "(" true :: node :: .word ")" false :: rest)) := by
  -- the closing parenthesis, the text before it, and the opening one
  have hclose : Ensures S replies
      (fun n fs vs => ∃ fs', fs = ⟨")", false⟩ :: fs' ∧ Strung S F n fs' vs)
      (renderNodes ctx name body column (.word ")" false :: rest)) := by
    rw [renderNodes, renderNode]
    exact hrest.map fun hstrung => ⟨_, rfl, hstrung⟩
  have hinner : Ensures S replies
      (fun n fs vs => ∃ text fs' us ws, fs = Fragment.ofText text false ++ ⟨")", false⟩ :: fs' ∧
        vs = us ++ ws ∧ Clause S F n text us ∧ Strung S F (n + us.length) fs' ws)
      (renderNodes ctx name body column (node :: .word ")" false :: rest)) := by
    rw [renderNodes]
    refine (refers.renders h hbody name column).map₂ hclose ?_
    rintro n _ us _ ws ⟨text, rfl, hclause, -⟩ ⟨fs', rfl, hstrung⟩
    exact ⟨text, fs', us, ws, rfl, rfl, hclause, hstrung⟩
  rw [renderNodes, renderNode]
  refine hinner.map ?_
  rintro n _ _ ⟨text, fs', us, ws, rfl, rfl, hclause, hstrung⟩
  cases first <;> exact .enclosed hclause hstrung

/-- The fragments of parts that fit are strung. -/
theorem Fits.strung (h : Setting S ctx replies) (hbody : Supplies F body) {first : Bool}
    {nodes : List Node} (hfits : Fits first nodes) (name : String) (column : Option String) :
    Ensures S replies (fun n fs vs => Strung S F n (begun first fs) vs)
      (renderNodes ctx name body column nodes) := by
  induction hfits with
  | @nil first =>
    rw [renderNodes]
    refine .pure fun n => ?_
    cases first <;> exact .nil
  | @word first spaced text rest keyword space others ih =>
    refine strung_cons ?_ ih
    rw [renderNode]
    refine .pure fun n => ?_
    rw [begun_word space]
    exact .spaced (.keyword keyword) .nil
  | @reference first spaced node key rest refers space others ih =>
    refine strung_cons (fun n fs vs hyields => ?_) ih
    obtain ⟨text, rfl, hclause, hsizes⟩ := refers.renders h hbody name column n fs vs hyields
    rw [begun_ofText]
    cases hspace : first || spaced with
    | true => exact .ofText hclause
    | false =>
      have hkey : key = "$length" := space.resolve_left (by simp [hspace])
      exact .ofText_glued hclause (hsizes hkey)
  | @group first children rest guard inner others ihInner ih =>
    refine strung_cons ?_ ih
    rw [renderNode]
    split
    · refine ihInner.map fun {n fs vs} hstrung => ?_
      cases first with
      | true => exact hstrung.respace
      | false => exact hstrung
    · refine (checkAbsent_binds_nothing body guard _).map fun {n _ vs} hnothing => ?_
      rw [hnothing]
      cases first <;> exact .nil
  | @enclosed first node key rest refers others ih => exact strung_enclosed h hbody refers ih

/-! ## The operator of a template -/

/-- The check of the keys binds nothing. -/
theorem checkKeys_binds_nothing (t : Template) (dialect : String) (keys : List String) :
    Ensures S replies (fun _ _ vs => vs = []) (t.checkKeys dialect keys) := by
  induction keys with
  | nil => exact .pure fun _ => rfl
  | cons key rest ih =>
    rw [Template.checkKeys]
    split
    · exact .refuse _
    · split
      · exact .refuse _
      · exact ih

/-- The operator of a template whose parts fit renders clauses. -/
theorem template_renders (h : Setting S ctx replies) {t : Template} (hfits : Fits true t.nodes)
    {defaults : Fields} (hdefaults : ∀ entry ∈ defaults, ∀ F, Supplied F entry.1 entry.2)
    (call : Call) :
    Renders S replies call.operand.leaves ((t.handler defaults).render ctx call) := by
  obtain ⟨operator, operand, node, column, combinator⟩ := call
  unfold Template.handler
  dsimp only
  cases operand with
  | object fields =>
    have hbody := (Supplies.self fields).withDefaults fun entry hentry => hdefaults entry hentry _
    have hrender : Renders S replies (Value.object fields).leaves
        (t.render ctx (Fields.withDefaults fields defaults) column) := by
      refine (hfits.strung h hbody t.name column).map fun {n fs vs} hstrung => ?_
      rw [← joinFragments_begun true]
      exact hstrung.join
    intro n text vs hyields
    obtain ⟨_, us, ws, hkeys, htext, rfl⟩ := Rendering.yields_bind.1 hyields
    obtain rfl := checkKeys_binds_nothing t ctx.dialect _ n _ us hkeys
    exact hrender n text ws htext
  | null | bool flag | int number | float number | str text | list items => exact .refuse _

end Sql

end QueryTree
