import Mathlib.Data.List.Forall2
import QueryTree.Context
import QueryTree.Proofs.Outcome

/-!
# Programs in step

Two renderings can go side by side: they bind values at the same points, make calls at the same
points, and refuse together.  What they may differ in, the values, the calls and the texts, is left
to a `Pairing`.

* `Pairing` says which values, placeholders, calls and replies are taken for each other.
* `Rendering.InStep` : two programs that keep in step.  It counts the values that were bound, so
  that what is said of the results can depend on their number.
* `InStep.bind`, `InStep.each` carry the relation through a program, `InStep.flip` turns it around.
* **`InStep.yields`** : what one of two programs in step yields, the other yields too, up to what
  the pairing leaves open.
* **`Dialect.replies_leads`** : if the handlers of two dialects keep in step, so do their replies,
  to any depth of nested calls.
-/

namespace QueryTree

/-- What is taken for each other in two programs.  A reply comes with the number of values that were
bound for it. -/
structure Pairing where
  value : Value → Value → Prop
  token : String → String → Prop
  call : Call → Call → Prop
  reply : Call → Call → Nat → String → String → Prop

/-- The pairing of the same programs in the other order. -/
def Pairing.flip (K : Pairing) : Pairing where
  value v v' := K.value v' v
  token t t' := K.token t' t
  call c c' := K.call c' c
  reply c c' k t t' := K.reply c' c k t' t

namespace Rendering

variable {K : Pairing} {α β γ δ : Type} {R : Nat → α → β → Prop} {S : Nat → γ → δ → Prop} {m : Nat}

/-- Two programs in step after `m` bound values; if they end, their results are related by `R` at
the number of values bound by then. -/
inductive InStep (K : Pairing) (R : Nat → α → β → Prop) :
    Nat → Rendering α → Rendering β → Prop where
  | done {m : Nat} {a : α} {b : β} (result : R m a b) : InStep K R m (.done a) (.done b)
  | refuse {m : Nat} {fault fault' : Fault} : InStep K R m (.refuse fault) (.refuse fault')
  | binds {m : Nat} {v v' : Value} {next : String → Rendering α} {next' : String → Rendering β}
      (value : K.value v v')
      (rest : ∀ t t', K.token t t' → InStep K R (m + 1) (next t) (next' t')) :
      InStep K R m (.bind v next) (.bind v' next')
  | calls {m : Nat} {c c' : Call} {next : String → Rendering α} {next' : String → Rendering β}
      (request : K.call c c')
      (rest : ∀ k t t', K.reply c c' k t t' → InStep K R (m + k) (next t) (next' t')) :
      InStep K R m (.call c next) (.call c' next')
  | counts {m : Nat} {next : Nat → Rendering α} {next' : Nat → Rendering β}
      (rest : ∀ i j, InStep K R m (next i) (next' j)) : InStep K R m (.count next) (.count next')

namespace InStep

/-! ## Building programs -/

theorem pure {a : α} {b : β} (h : R m a b) : InStep K R m (Pure.pure a) (Pure.pure b) :=
  .done h

theorem bound {v v' : Value} (h : K.value v v') :
    InStep K (fun k t t' => k = 1 ∧ K.token t t') 0 (bound v) (bound v') :=
  .binds h fun _ _ ht => .done ⟨rfl, ht⟩

theorem invoke {c c' : Call} (h : K.call c c') : InStep K (K.reply c c') 0 (invoke c) (invoke c') :=
  .calls h fun k t t' ht => .done (by rwa [Nat.zero_add])

/-- One program after another, at any number of values bound before. -/
theorem bind {x : Rendering α} {y : Rendering β} {f : α → Rendering γ} {g : β → Rendering δ}
    (hx : InStep K R 0 x y) (hf : ∀ k a b, R k a b → InStep K S (m + k) (f a) (g b)) :
    InStep K S m (x >>= f) (y >>= g) := by
  suffices h : ∀ k, InStep K R k x y → InStep K S (m + k) (x.andThen f) (y.andThen g) from h 0 hx
  clear hx
  intro k h
  induction h with
  | done result => exact hf _ _ _ result
  | refuse => exact .refuse
  | binds value _ ih => exact .binds value ih
  | calls request _ ih =>
    refine .calls request fun k t t' ht => ?_
    rw [Nat.add_assoc]
    exact ih k t t' ht
  | counts _ ih => exact .counts ih

/-- One program after another, from the start. -/
theorem andThen {x : Rendering α} {y : Rendering β} {f : α → Rendering γ} {g : β → Rendering δ}
    (hx : InStep K R 0 x y) (hf : ∀ k a b, R k a b → InStep K S k (f a) (g b)) :
    InStep K S 0 (x >>= f) (y >>= g) :=
  hx.bind fun k a b hab => by simpa using hf k a b hab

theorem mono {R' : Nat → α → β → Prop} (hR : ∀ k a b, R k a b → R' k a b) {x : Rendering α}
    {y : Rendering β} (h : InStep K R m x y) : InStep K R' m x y := by
  induction h with
  | done result => exact .done (hR _ _ _ result)
  | refuse => exact .refuse
  | binds value _ ih => exact .binds value ih
  | calls request _ ih => exact .calls request ih
  | counts _ ih => exact .counts ih

/-- A program whose result is put into a text. -/
theorem map {x : Rendering α} {y : Rendering β} {f : α → γ} {g : β → δ} (hx : InStep K R 0 x y)
    (hf : ∀ k a b, R k a b → S k (f a) (g b)) :
    InStep K S 0 (do let a ← x; return f a) (do let b ← y; return g b) :=
  hx.andThen fun k a b hab => .done (hf k a b hab)

/-- Two programs whose results are put together. -/
theorem map₂ {α' β' : Type} {R' : Nat → α' → β' → Prop} {x : Rendering α} {y : Rendering β}
    {x' : Rendering α'} {y' : Rendering β'} {f : α → α' → γ} {g : β → β' → δ}
    (hx : InStep K R 0 x y) (hy : InStep K R' 0 x' y')
    (hf : ∀ k a b l a' b', R k a b → R' l a' b' → S (k + l) (f a a') (g b b')) :
    InStep K S 0 (do let a ← x; let a' ← x'; return f a a')
      (do let b ← y; let b' ← y'; return g b b') :=
  hx.bind fun k a b hab => hy.bind fun l a' b' hab' =>
    .done (by simpa using hf k a b l a' b' hab hab')

/-- Three programs whose results are put together. -/
theorem map₃ {α' β' α'' β'' : Type} {R' : Nat → α' → β' → Prop} {R'' : Nat → α'' → β'' → Prop}
    {x : Rendering α} {y : Rendering β} {x' : Rendering α'} {y' : Rendering β'}
    {x'' : Rendering α''} {y'' : Rendering β''} {f : α → α' → α'' → γ} {g : β → β' → β'' → δ}
    (hx : InStep K R 0 x y) (hy : InStep K R' 0 x' y') (hz : InStep K R'' 0 x'' y'')
    (hf : ∀ k a b l a' b' m a'' b'', R k a b → R' l a' b' → R'' m a'' b'' →
      S (k + l + m) (f a a' a'') (g b b' b'')) :
    InStep K S 0 (do let a ← x; let a' ← x'; let a'' ← x''; return f a a' a'')
      (do let b ← y; let b' ← y'; let b'' ← y''; return g b b' b'') :=
  hx.bind fun k a b hab => hy.bind fun l a' b' hab' => hz.bind fun m a'' b'' hab'' =>
    .done (by simpa using hf k a b l a' b' m a'' b'' hab hab' hab'')

/-- A program before a refusal. -/
theorem andRefuse {x : Rendering α} {y : Rendering β} {fault : α → Fault} {fault' : β → Fault}
    (hx : InStep K R 0 x y) :
    InStep K S 0 (x >>= fun a => .refuse (fault a)) (y >>= fun b => .refuse (fault' b)) :=
  hx.bind fun _ _ _ _ => .refuse

/-- Programs for every item of two lists.  `S` is what the results of a list have in common, `R`
what those of an item have. -/
theorem each {as : List α} {bs : List β} {f : α → Rendering γ} {g : β → Rendering δ}
    {R : α → Nat → γ → δ → Prop} {S : List α → Nat → List γ → List δ → Prop}
    (hnil : S [] 0 [] [])
    (hcons : ∀ {a as k c d l cs ds}, R a k c d → S as l cs ds →
      S (a :: as) (k + l) (c :: cs) (d :: ds))
    (h : List.Forall₂ (fun a b => InStep K (R a) 0 (f a) (g b)) as bs) :
    InStep K (S as) 0 (Rendering.each f as) (Rendering.each g bs) := by
  induction h with
  | nil => exact .pure hnil
  | cons first _ ih => exact first.map₂ ih fun k c d l cs ds hfirst hrest => hcons hfirst hrest

/-- Programs in step, seen from the other one. -/
theorem flip {x : Rendering α} {y : Rendering β} (h : InStep K R m x y) :
    InStep K.flip (fun k b a => R k a b) m y x := by
  induction h with
  | done result => exact .done result
  | refuse => exact .refuse
  | binds value _ ih => exact .binds value fun t t' ht => ih t' t ht
  | calls request _ ih => exact .calls request fun k t t' ht => ih k t' t ht
  | counts _ ih => exact .counts fun i j => ih j i

end InStep

/-! ## What they yield -/

/-- Whatever is replied to a call after `p` values and some more, is replied to its counterpart
after `q` values and as many more. -/
def Leads (K : Pairing) (p q : Nat) (replies replies' : ReplyRel) : Prop :=
  ∀ ⦃c c' : Call⦄, K.call c c' → ∀ ⦃i : Nat⦄ ⦃t : String⦄ ⦃us : List Value⦄,
    replies c (p + i) t us →
      ∃ t' us', replies' c' (q + i) t' us' ∧ List.Forall₂ K.value us us' ∧
        K.reply c c' us.length t t'

/-- What one program yields, a program in step with it yields too. -/
theorem InStep.yields {token token' : Nat → String} {replies replies' : ReplyRel} {p q : Nat}
    (htoken : ∀ i, K.token (token (p + i + 1)) (token' (q + i + 1)))
    (hreplies : Leads K p q replies replies') {x : Rendering α} {y : Rendering β}
    (h : InStep K R m x y) {i : Nat} {a : α} {us : List Value}
    (hx : x.Yields token replies (p + i) a us) :
    ∃ b us', y.Yields token' replies' (q + i) b us' ∧ List.Forall₂ K.value us us' ∧
      R (m + us.length) a b := by
  induction h generalizing i us with
  | done result =>
    obtain ⟨rfl, rfl⟩ := hx
    exact ⟨_, [], ⟨rfl, rfl⟩, .nil, result⟩
  | refuse => exact hx.elim
  | binds value _ ih =>
    obtain ⟨ws, hnext, rfl⟩ := hx
    obtain ⟨b, ws', hnext', hws, hR⟩ := ih _ _ (htoken i) (i := i + 1) hnext
    refine ⟨b, _ :: ws', ⟨ws', hnext', rfl⟩, .cons value hws, ?_⟩
    rwa [List.length_cons, Nat.add_comm ws.length, ← Nat.add_assoc]
  | calls request _ ih =>
    obtain ⟨text, us, ws, hreply, hnext, rfl⟩ := hx
    obtain ⟨text', us', hreply', hus, htext⟩ := hreplies request hreply
    rw [Nat.add_assoc] at hnext
    obtain ⟨b, ws', hnext', hws, hR⟩ := ih _ _ _ htext (i := i + us.length) hnext
    refine ⟨b, us' ++ ws', ⟨text', us', ws', hreply', ?_, rfl⟩, List.rel_append hus hws, ?_⟩
    · rwa [← hus.length_eq, Nat.add_assoc]
    · rwa [List.length_append, ← Nat.add_assoc]
  | counts _ ih =>
    obtain ⟨b, us', hnext', hus, hR⟩ := ih (p + i) (q + i) hx
    exact ⟨b, us', hnext', hus, hR⟩

end Rendering

namespace Dialect

open Rendering (InStep Leads)

/-- If the handlers of two dialects keep in step, so do their replies. -/
theorem replies_leads {d d' : Dialect} {K : Pairing} {p q : Nat}
    (htoken : ∀ i, K.token (d.placeholder (p + i + 1)) (d'.placeholder (q + i + 1)))
    (hhandlers : ∀ c c', K.call c c' → ∀ handler, d.registry.find? c.operator = some handler →
      ∃ handler', d'.registry.find? c'.operator = some handler' ∧
        InStep K (K.reply c c') 0 (handler.render (d.context c.combinator) c)
          (handler'.render (d'.context c'.combinator) c')) (depth : Nat) :
    Leads K p q (d.replies depth) (d'.replies depth) := by
  induction depth with
  | zero =>
    intro c c' _ i t us h
    exact h.elim
  | succ depth ih =>
    rintro c c' hcall i t us ⟨handler, hfind, hyields⟩
    obtain ⟨handler', hfind', hstep⟩ := hhandlers c c' hcall handler hfind
    obtain ⟨t', us', hyields', hus, hreply⟩ := hstep.yields htoken ih hyields
    rw [Nat.zero_add] at hreply
    exact ⟨t', us', ⟨handler', hfind', hyields'⟩, hus, hreply⟩

end Dialect

end QueryTree
