import QueryTree.Dialect.Compile

/-!
# What a rendering yields

`Rendering.run` threads the list of bound values through a program.  Most laws of the library only
ask how a program can *succeed*, and for them a relation is easier to take apart than a run.

* `Rendering.Yields` relates a program to its result and to the values that it binds, given how many
  values were bound before.  A refusal yields nothing.
* **`Rendering.run_eq_ok_iff`** : a run succeeds exactly with what the program yields, and the bound
  values are those from before followed by those of the program.
* `Dialect.replies` is the same view of `Dialect.answer`, and **`Dialect.compile_eq_ok_iff`** of
  `Dialect.compile`.
* `Dialect.replies_induction` is the induction over nested calls: what every handler of a dialect
  keeps, given that the calls it makes keep it, holds for every reply of the dialect.
-/

namespace QueryTree

/-- Which texts a call can be replied with after `n` bound values, and the values bound for it. -/
abbrev ReplyRel := Call → Nat → String → List Value → Prop

namespace Rendering

variable {α β : Type} {token : Nat → String} {replies replies' : ReplyRel}

/-- `x.Yields token replies n a vs`: started after `n` bound values, `x` can end with `a`, having
bound `vs`. -/
def Yields (token : Nat → String) (replies : ReplyRel) :
    Rendering α → Nat → α → List Value → Prop
  | .done result, _, a, vs => a = result ∧ vs = []
  | .refuse _, _, _, _ => False
  | .bind value next, n, a, vs =>
    ∃ ws, (next (token (n + 1))).Yields token replies (n + 1) a ws ∧ vs = value :: ws
  | .call request next, n, a, vs =>
    ∃ text us ws, replies request n text us ∧
      (next text).Yields token replies (n + us.length) a ws ∧ vs = us ++ ws
  | .count next, n, a, vs => (next n).Yields token replies n a vs

/-! ## Taking a program apart -/

@[simp] theorem yields_pure {n : Nat} {a b : α} {vs : List Value} :
    (pure b : Rendering α).Yields token replies n a vs ↔ a = b ∧ vs = [] := Iff.rfl

@[simp] theorem yields_refuse {fault : Fault} {n : Nat} {a : α} {vs : List Value} :
    (.refuse fault : Rendering α).Yields token replies n a vs ↔ False := Iff.rfl

@[simp] theorem yields_bound {value : Value} {n : Nat} {t : String} {vs : List Value} :
    (bound value).Yields token replies n t vs ↔ t = token (n + 1) ∧ vs = [value] := by
  simp only [bound, Yields]
  constructor
  · rintro ⟨ws, ⟨rfl, rfl⟩, rfl⟩
    exact ⟨rfl, rfl⟩
  · rintro ⟨rfl, rfl⟩
    exact ⟨[], ⟨rfl, rfl⟩, rfl⟩

@[simp] theorem yields_invoke {request : Call} {n : Nat} {t : String} {vs : List Value} :
    (invoke request).Yields token replies n t vs ↔ replies request n t vs := by
  simp only [invoke, Yields]
  constructor
  · rintro ⟨text, us, ws, h, ⟨rfl, rfl⟩, rfl⟩
    rwa [List.append_nil]
  · intro h
    exact ⟨t, vs, [], h, ⟨rfl, rfl⟩, (List.append_nil vs).symm⟩

@[simp] theorem yields_ofExcept {e : Except Fault α} {n : Nat} {a : α} {vs : List Value} :
    (ofExcept e).Yields token replies n a vs ↔ e = .ok a ∧ vs = [] := by
  cases e with
  | ok b =>
    simp only [ofExcept, Yields, Except.ok.injEq]
    exact and_congr_left' eq_comm
  | error fault => simp [ofExcept]

/-- One program after another: the values of the first come before those of the second. -/
@[simp] theorem yields_bind {x : Rendering α} {f : α → Rendering β} {n : Nat} {b : β}
    {vs : List Value} :
    (x >>= f).Yields token replies n b vs ↔
      ∃ a us ws, x.Yields token replies n a us ∧
        (f a).Yields token replies (n + us.length) b ws ∧ vs = us ++ ws := by
  change (x.andThen f).Yields token replies n b vs ↔ _
  induction x generalizing n vs with
  | done result =>
    simp only [andThen, Yields]
    constructor
    · intro h
      exact ⟨result, [], vs, ⟨rfl, rfl⟩, h, rfl⟩
    · rintro ⟨a, us, ws, ⟨rfl, rfl⟩, h, rfl⟩
      exact h
  | refuse fault =>
    simp only [andThen, Yields]
    constructor
    · exact False.elim
    · rintro ⟨_, _, _, h, _⟩
      exact h
  | bind value next ih =>
    simp only [andThen, Yields, ih]
    constructor
    · rintro ⟨_, ⟨a, us, ws, hx, hf, rfl⟩, rfl⟩
      refine ⟨a, value :: us, ws, ⟨us, hx, rfl⟩, ?_, rfl⟩
      rwa [List.length_cons, Nat.add_comm us.length 1, ← Nat.add_assoc]
    · rintro ⟨a, _, ws, ⟨us, hx, rfl⟩, hf, rfl⟩
      refine ⟨us ++ ws, ⟨a, us, ws, hx, ?_, rfl⟩, rfl⟩
      rwa [List.length_cons, Nat.add_comm us.length 1, ← Nat.add_assoc] at hf
  | call request next ih =>
    simp only [andThen, Yields, ih]
    constructor
    · rintro ⟨text, rs, _, hr, ⟨a, us, ws, hx, hf, rfl⟩, rfl⟩
      refine ⟨a, rs ++ us, ws, ⟨text, rs, us, hr, hx, rfl⟩, ?_, by simp⟩
      rwa [List.length_append, ← Nat.add_assoc]
    · rintro ⟨a, _, ws, ⟨text, rs, us, hr, hx, rfl⟩, hf, rfl⟩
      refine ⟨text, rs, us ++ ws, hr, ⟨a, us, ws, hx, ?_, rfl⟩, by simp⟩
      rwa [List.length_append, ← Nat.add_assoc] at hf
  | count next ih => simp only [andThen, Yields, ih]

@[simp] theorem yields_map {f : α → β} {x : Rendering α} {n : Nat} {b : β} {vs : List Value} :
    (f <$> x).Yields token replies n b vs ↔ ∃ a, x.Yields token replies n a vs ∧ b = f a := by
  rw [map_eq_pure_bind, yields_bind]
  constructor
  · rintro ⟨a, us, ws, hx, ⟨rfl, rfl⟩, rfl⟩
    exact ⟨a, by rwa [List.append_nil], rfl⟩
  · rintro ⟨a, hx, rfl⟩
    exact ⟨a, vs, [], hx, ⟨rfl, rfl⟩, (List.append_nil vs).symm⟩

/-- A program yields no less if its calls have more replies. -/
theorem Yields.mono (hreplies : ∀ c n t vs, replies c n t vs → replies' c n t vs)
    {x : Rendering α} {n : Nat} {a : α} {vs : List Value} (h : x.Yields token replies n a vs) :
    x.Yields token replies' n a vs := by
  induction x generalizing n vs with
  | done result => exact h
  | refuse fault => exact h
  | bind value next ih =>
    obtain ⟨ws, hx, rfl⟩ := h
    exact ⟨ws, ih _ hx, rfl⟩
  | call request next ih =>
    obtain ⟨text, us, ws, hr, hx, rfl⟩ := h
    exact ⟨text, us, ws, hreplies _ _ _ _ hr, ih _ hx, rfl⟩
  | count next ih => exact ih _ h

/-! ## Runs -/

/-- A run succeeds exactly with what the program yields; the values bound before stay in front. -/
theorem run_eq_ok_iff {answer : Call → Compile String}
    (hanswer : ∀ c s t s', (answer c).run.run s = (.ok t, s') ↔
      ∃ us, s'.toList = s.toList ++ us ∧ replies c s.size t us)
    (x : Rendering α) (s : Array Value) (a : α) (s' : Array Value) :
    (x.run token answer).run.run s = (.ok a, s') ↔
      ∃ us, s'.toList = s.toList ++ us ∧ x.Yields token replies s.size a us := by
  induction x generalizing s with
  | done result =>
    change ((Except.ok result, s) : Except Fault α × Array Value) = (.ok a, s') ↔ _
    simp only [Prod.mk.injEq, Except.ok.injEq, Yields]
    constructor
    · rintro ⟨rfl, rfl⟩
      exact ⟨[], by simp, rfl, rfl⟩
    · rintro ⟨_, hs, rfl, rfl⟩
      exact ⟨rfl, Array.toList_inj.1 (by simpa using hs.symm)⟩
  | refuse fault =>
    change ((Except.error fault, s) : Except Fault α × Array Value) = (.ok a, s') ↔ _
    simp [Yields]
  | bind value next ih =>
    change ((next (token (s.push value).size)).run token answer).run.run (s.push value) = _ ↔ _
    rw [ih]
    simp only [Yields, Array.size_push, Array.toList_push, List.append_assoc, List.singleton_append]
    constructor
    · rintro ⟨us, hs, hx⟩
      exact ⟨value :: us, hs, us, hx, rfl⟩
    · rintro ⟨_, hs, us, hx, rfl⟩
      exact ⟨us, hs, hx⟩
  | call request next ih =>
    -- the rest of the program starts from the state after the call
    have hok : ∀ text s₁, (answer request).run.run s = (.ok text, s₁) →
        ((Rendering.call request next).run token answer).run.run s =
          ((next text).run token answer).run.run s₁ := by
      intro text s₁ hreq
      simp only [run, ExceptT.run_bind, StateT.run_bind, hreq]
      rfl
    have herror : ∀ fault s₁, (answer request).run.run s = (.error fault, s₁) →
        ((Rendering.call request next).run token answer).run.run s = (.error fault, s₁) := by
      intro fault s₁ hreq
      simp only [run, ExceptT.run_bind, StateT.run_bind, hreq]
      rfl
    constructor
    · intro h
      rcases hreq : (answer request).run.run s with ⟨fault | text, s₁⟩
      · rw [herror fault s₁ hreq] at h
        cases h
      · rw [hok text s₁ hreq] at h
        obtain ⟨us, hs₁, hr⟩ := (hanswer request s text s₁).1 hreq
        obtain ⟨ws, hs', hx⟩ := (ih text s₁).1 h
        have hsize : s₁.size = s.size + us.length := by
          rw [← Array.length_toList, hs₁, List.length_append, Array.length_toList]
        rw [hsize] at hx
        exact ⟨us ++ ws, by rw [hs', hs₁, List.append_assoc], text, us, ws, hr, hx, rfl⟩
    · rintro ⟨_, hs', text, us, ws, hr, hx, rfl⟩
      have hreq := (hanswer request s text (s.toList ++ us).toArray).2 ⟨us, rfl, hr⟩
      rw [hok text _ hreq]
      refine (ih text _).2 ⟨ws, by rw [hs', List.append_assoc], ?_⟩
      rwa [List.size_toArray, List.length_append, Array.length_toList]
  | count next ih =>
    change ((next s.size).run token answer).run.run s = _ ↔ _
    exact ih s.size s

end Rendering

namespace Dialect

open Rendering (Yields)

/-- The replies of a dialect to calls that nest at most `depth` deep. -/
def replies (d : Dialect) : Nat → ReplyRel
  | 0 => fun _ _ _ _ => False
  | depth + 1 => fun call n t vs =>
    ∃ handler, d.registry.find? call.operator = some handler ∧
      (handler.render (d.context call.combinator) call).Yields d.placeholder (d.replies depth) n t
        vs

/-- A call is answered exactly with the replies of the dialect. -/
theorem answer_eq_ok_iff (d : Dialect) (depth : Nat) (call : Call) (s : Array Value) (t : String)
    (s' : Array Value) :
    (d.answer depth call).run.run s = (.ok t, s') ↔
      ∃ us, s'.toList = s.toList ++ us ∧ d.replies depth call s.size t us := by
  induction depth generalizing call s t s' with
  | zero =>
    change ((Except.error Fault.tooDeep, s) : Except Fault String × Array Value) = (.ok t, s') ↔ _
    simp [replies]
  | succ depth ih =>
    simp only [answer, replies]
    cases d.registry.find? call.operator with
    | none =>
      change ((Except.error _, s) : Except Fault String × Array Value) = (.ok t, s') ↔ _
      simp
    | some handler =>
      simp only [Option.some.injEq, exists_eq_left']
      exact Rendering.run_eq_ok_iff ih _ s t s'

/-- A program of a dialect succeeds exactly with what it yields. -/
theorem runFor_eq_ok_iff {α : Type} (d : Dialect) (v : Value) (program : Rendering α)
    (s : Array Value) (a : α) (s' : Array Value) :
    (d.runFor v program).run.run s = (.ok a, s') ↔
      ∃ us, s'.toList = s.toList ++ us ∧
        program.Yields d.placeholder (d.replies (d.callBound v)) s.size a us :=
  Rendering.run_eq_ok_iff (d.answer_eq_ok_iff (d.callBound v)) program s a s'

/-- A query compiles exactly to the statements that its root yields. -/
theorem compile_eq_ok_iff (d : Dialect) (query : Value) (statement : Statement) :
    d.compile query = .ok statement ↔
      statement.dialect = d.name ∧
        (rootStatement (d.context none) query).Yields d.placeholder
          (d.replies (d.callBound query)) 0 statement.sql statement.values := by
  have hrun := d.runFor_eq_ok_iff query (rootStatement (d.context none) query) #[] statement.sql
    statement.values.toArray
  simp only [List.nil_append, exists_eq_left', Array.size_empty] at hrun
  rw [← hrun]
  unfold compile
  rcases (d.runFor query (rootStatement (d.context none) query)).run.run #[] with
    ⟨fault | sql, values⟩
  · constructor
    · intro h
      cases h
    · rintro ⟨_, h⟩
      cases h
  · obtain ⟨sql', values', name⟩ := statement
    constructor
    · intro h
      cases h
      exact ⟨rfl, rfl⟩
    · rintro ⟨rfl, h⟩
      cases h
      rfl

/-- Deeper nesting only adds replies. -/
theorem replies_mono (d : Dialect) {depth depth' : Nat} (hle : depth ≤ depth') {call : Call}
    {n : Nat} {t : String} {vs : List Value} (h : d.replies depth call n t vs) :
    d.replies depth' call n t vs := by
  induction depth generalizing depth' call n t vs with
  | zero => exact h.elim
  | succ depth ih =>
    cases depth' with
    | zero => omega
    | succ depth' =>
      obtain ⟨handler, hfind, hyields⟩ := h
      exact ⟨handler, hfind, hyields.mono fun _ _ _ _ => ih (by omega)⟩

/-- Induction over nested calls. -/
theorem replies_induction (d : Dialect) {P : ReplyRel}
    (step : ∀ replies : ReplyRel, (∀ c n t vs, replies c n t vs → P c n t vs) →
      ∀ call handler, d.registry.find? call.operator = some handler → ∀ n t vs,
        (handler.render (d.context call.combinator) call).Yields d.placeholder replies n t vs →
          P call n t vs)
    {depth : Nat} {call : Call} {n : Nat} {t : String} {vs : List Value}
    (h : d.replies depth call n t vs) : P call n t vs := by
  induction depth generalizing call n t vs with
  | zero => exact h.elim
  | succ depth ih =>
    obtain ⟨handler, hfind, hyields⟩ := h
    exact step (d.replies depth) (fun _ _ _ _ => ih) call handler hfind n t vs hyields

end Dialect

end QueryTree
