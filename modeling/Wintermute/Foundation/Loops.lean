import Mathlib.Data.List.Basic
import Mathlib.Data.List.Nodup
import Mathlib.Tactic

/-!
# Loops over a shared state

Two loop shapes are used by effectful services: a plain left fold over the
work list, and a loop that leaves the body at its first error and keeps the
state reached so far.  This module proves how such loops look through a
*projection* of the state that most iterations do not touch, and when two of them
stay related.

Main results:

- Theorem {lit}`foldl_filter_related`: two folds, one of them over the iterations of
  one key only.
- Theorem {lit}`tryEach_append`: an aborting loop over a concatenation.
- Theorem {lit}`tryEach_stop`: an aborted loop split at the iteration that
  failed.
- Theorem {lit}`tryEach_project`: through the projection of one key, an
  aborting loop either never reached that key or did exactly its iteration.
- Theorem {lit}`tryEach_related`: two loops whose bodies preserve a relation
  stop at the same iteration and end in related states.
-/

namespace Foundation

variable {α β σ τ κ ε : Type*}

/-! ## Two folds side by side -/

/-- A fold is related to the fold over the iterations of one key, if the other
iterations keep the relation on one side and the iterations of that key keep it on
both. -/
theorem foldl_filter_related (R : σ → σ → Prop) (p : α → Bool) (f : σ → α → σ) (l : List α)
    (hskip : ∀ a, p a = false → ∀ s t, R s t → R (f s a) t)
    (hboth : ∀ a, p a = true → ∀ s t, R s t → R (f s a) (f t a)) {s t : σ} (h : R s t) :
    R (l.foldl f s) ((l.filter p).foldl f t) := by
  induction l generalizing s t with
  | nil => exact h
  | cons a l ih =>
      cases ha : p a with
      | true =>
          rw [List.filter_cons_of_pos ha]
          exact ih (hboth a ha s t h)
      | false =>
          rw [List.filter_cons_of_neg (by simp [ha])]
          exact ih (hskip a ha s t h)

/-! ## Loops that stop at the first error -/

/-- Run {lit}`body` on the elements in order.  The first error ends the loop;
the state reached by then is kept. -/
def tryEach (body : σ → α → Except ε Unit × σ) : List α → σ → Except ε Unit × σ
  | [], s => (.ok (), s)
  | a :: as, s =>
      match body s a with
      | (.ok (), s') => tryEach body as s'
      | (.error e, s') => (.error e, s')

variable {body : σ → α → Except ε Unit × σ}

@[simp]
theorem tryEach_nil (s : σ) : tryEach body [] s = (.ok (), s) :=
  rfl

theorem tryEach_cons_ok {a : α} {as : List α} {s : σ} (h : (body s a).1 = .ok ()) :
    tryEach body (a :: as) s = tryEach body as (body s a).2 := by
  rw [tryEach]
  split
  · rename_i hb
    rw [hb]
  · rename_i hb
    rw [hb] at h
    cases h

theorem tryEach_cons_error {a : α} {as : List α} {s : σ} {e : ε}
    (h : (body s a).1 = .error e) :
    tryEach body (a :: as) s = (.error e, (body s a).2) := by
  rw [tryEach]
  split
  · rename_i hb
    rw [hb] at h
    cases h
  · rename_i hb
    rw [hb] at h ⊢
    cases h
    rfl

/-- Every outcome of an iteration is success or an error. -/
theorem outcome_cases (r : Except ε Unit) : r = .ok () ∨ ∃ e, r = .error e := by
  cases r with
  | ok u => exact Or.inl rfl
  | error e => exact Or.inr ⟨e, rfl⟩

/-- A loop over a concatenation runs the second part only after the first has
completed. -/
theorem tryEach_append (l₁ l₂ : List α) (s : σ) :
    tryEach body (l₁ ++ l₂) s =
      match tryEach body l₁ s with
      | (.ok (), s') => tryEach body l₂ s'
      | (.error e, s') => (.error e, s') := by
  induction l₁ generalizing s with
  | nil => rfl
  | cons a l₁ ih =>
      rw [List.cons_append]
      rcases outcome_cases (body s a).1 with h | ⟨e, h⟩
      · rw [tryEach_cons_ok h, tryEach_cons_ok h, ih]
      · rw [tryEach_cons_error h, tryEach_cons_error h]

theorem tryEach_append_ok {l₁ : List α} {s : σ} (h : (tryEach body l₁ s).1 = .ok ())
    (l₂ : List α) :
    tryEach body (l₁ ++ l₂) s = tryEach body l₂ (tryEach body l₁ s).2 := by
  rw [tryEach_append]
  split
  · rename_i hb
    rw [hb]
  · rename_i hb
    rw [hb] at h
    cases h

theorem tryEach_append_error {l₁ : List α} {s : σ} {e : ε}
    (h : (tryEach body l₁ s).1 = .error e) (l₂ : List α) :
    tryEach body (l₁ ++ l₂) s = tryEach body l₁ s := by
  rw [tryEach_append]
  split
  · rename_i hb
    rw [hb] at h
    cases h
  · rename_i hb
    rw [hb]

/-- A property of the state kept by every iteration is kept by the loop,
whether it completes or not. -/
theorem tryEach_invariant (J : σ → Prop) (l : List α)
    (hbody : ∀ a ∈ l, ∀ s, J s → J (body s a).2) (s : σ) (hs : J s) :
    J (tryEach body l s).2 := by
  induction l generalizing s with
  | nil => exact hs
  | cons a l ih =>
      have hJ : J (body s a).2 := hbody a List.mem_cons_self s hs
      have hrest := ih (fun b hb => hbody b (List.mem_cons_of_mem a hb))
      rcases outcome_cases (body s a).1 with h | ⟨e, h⟩
      · rw [tryEach_cons_ok h]
        exact hrest _ hJ
      · rw [tryEach_cons_error h]
        exact hJ

/-- A loop whose iterations succeed in every state satisfying an invariant
completes. -/
theorem tryEach_completes (J : σ → Prop) (l : List α)
    (hbody : ∀ a ∈ l, ∀ s, J s → J (body s a).2 ∧ (body s a).1 = .ok ())
    (s : σ) (hs : J s) : (tryEach body l s).1 = .ok () := by
  induction l generalizing s with
  | nil => rfl
  | cons a l ih =>
      obtain ⟨hJ, hok⟩ := hbody a List.mem_cons_self s hs
      rw [tryEach_cons_ok hok]
      exact ih (fun b hb => hbody b (List.mem_cons_of_mem a hb)) _ hJ

/-- An aborted loop completed a prefix, failed at the next element and never
saw the rest. -/
theorem tryEach_stop {l : List α} {s : σ} {e : ε} (h : (tryEach body l s).1 = .error e) :
    ∃ done a rest, l = done ++ a :: rest ∧ (tryEach body done s).1 = .ok () ∧
      body (tryEach body done s).2 a = (.error e, (tryEach body l s).2) := by
  induction l generalizing s with
  | nil => cases h
  | cons a l ih =>
      rcases outcome_cases (body s a).1 with hok | ⟨e', herr⟩
      · rw [tryEach_cons_ok hok] at h
        obtain ⟨done, b, rest, hl, hdone, hb⟩ := ih h
        refine ⟨a :: done, b, rest, by rw [hl]; rfl, ?_, ?_⟩
        · rw [tryEach_cons_ok hok]
          exact hdone
        · rw [tryEach_cons_ok hok, tryEach_cons_ok hok]
          exact hb
      · rw [tryEach_cons_error herr] at h ⊢
        cases h
        exact ⟨[], a, l, rfl, rfl, Prod.ext herr rfl⟩

/-- Leave a loop with its accumulator; an error drops it. -/
def collect (r : Except ε Unit × (β × σ)) : Except ε β × σ :=
  match r with
  | (.ok (), (out, s)) => (.ok out, s)
  | (.error e, (_, s)) => (.error e, s)

@[simp]
theorem collect_snd (r : Except ε Unit × (β × σ)) : (collect r).2 = r.2.2 := by
  obtain ⟨result, out, s⟩ := r
  cases result <;> rfl

theorem collect_ok {r : Except ε Unit × (β × σ)} (h : r.1 = .ok ()) :
    collect r = (.ok r.2.1, r.2.2) := by
  obtain ⟨result, out, s⟩ := r
  cases h
  rfl

theorem collect_error {r : Except ε Unit × (β × σ)} {e : ε} (h : r.1 = .error e) :
    collect r = (.error e, r.2.2) := by
  obtain ⟨result, out, s⟩ := r
  cases h
  rfl

/-- The loop is left with an accumulator exactly when it completed. -/
theorem collect_ok_iff (r : Except ε Unit × (β × σ)) :
    (∃ out, (collect r).1 = .ok out) ↔ r.1 = .ok () := by
  rcases outcome_cases r.1 with h | ⟨e, h⟩
  · rw [collect_ok h, h]
    simp
  · rw [collect_error h, h]
    simp

/-! ## Aborting loops seen through a projection -/

/-- An aborting loop none of whose iterations moves the projection leaves it
in place. -/
theorem tryEach_frame (π : σ → τ) (l : List α)
    (hframe : ∀ a ∈ l, ∀ s, π (body s a).2 = π s) (s : σ) :
    π (tryEach body l s).2 = π s :=
  tryEach_invariant (fun s' => π s' = π s) l
    (fun a ha s' hs' => (hframe a ha s').trans hs') s rfl

/-- Through the projection of one element's key, an aborting loop over elements
with distinct keys either stopped before that element, or ran its iteration
once, on an unchanged projection, and stopped there if the iteration failed. -/
theorem tryEach_project (body : σ → α → Except ε Unit × σ) (J : σ → Prop) (π : σ → τ)
    (key : α → κ) {l : List α} {a : α}
    (hnodup : (l.map key).Nodup) (ha : a ∈ l)
    (hJ : ∀ b ∈ l, ∀ s, J s → J (body s b).2)
    (hframe : ∀ b ∈ l, key b ≠ key a → ∀ s, π (body s b).2 = π s) (s : σ) (hs : J s) :
    (∃ e, (tryEach body l s).1 = .error e ∧ π (tryEach body l s).2 = π s) ∨
      ∃ s₁, J s₁ ∧ π s₁ = π s ∧ π (tryEach body l s).2 = π (body s₁ a).2 ∧
        ∀ e, (body s₁ a).1 = .error e → tryEach body l s = body s₁ a := by
  obtain ⟨before, after, rfl⟩ := List.append_of_mem ha
  have hsplit : (before.map key ++ key a :: after.map key).Nodup := by
    simpa using hnodup
  have hkey_before : ∀ b ∈ before, key b ≠ key a := by
    intro b hb heq
    have hdisjoint := List.disjoint_of_nodup_append hsplit
    exact hdisjoint (List.mem_map_of_mem hb) (by simp [heq])
  have hkey_after : ∀ b ∈ after, key b ≠ key a := by
    intro b hb heq
    have hcons := (List.nodup_append.mp hsplit).2.1
    exact (List.nodup_cons.mp hcons).1 (heq ▸ List.mem_map_of_mem hb)
  have hbefore : π (tryEach body before s).2 = π s :=
    tryEach_frame π before
      (fun b hb => hframe b (by simp [hb]) (hkey_before b hb)) s
  have hJbefore : J (tryEach body before s).2 :=
    tryEach_invariant J before (fun b hb => hJ b (by simp [hb])) s hs
  rcases outcome_cases (tryEach body before s).1 with hok | ⟨e, herr⟩
  · right
    refine ⟨(tryEach body before s).2, hJbefore, hbefore, ?_, ?_⟩
    · rw [tryEach_append_ok hok]
      rcases outcome_cases (body (tryEach body before s).2 a).1 with h | ⟨e, h⟩
      · rw [tryEach_cons_ok h]
        exact tryEach_frame π after
          (fun b hb => hframe b (by simp [hb]) (hkey_after b hb)) _
      · rw [tryEach_cons_error h]
    · intro e h
      rw [tryEach_append_ok hok, tryEach_cons_error h]
      exact Prod.ext h.symm rfl
  · left
    exact ⟨e, by rw [tryEach_append_error herr]; exact ⟨herr, hbefore⟩⟩

/-- Through a projection that the second part of a loop does not move, the loop
ends like its first part. -/
theorem tryEach_append_frame (π : σ → τ) (l₁ : List α) {l₂ : List α}
    (hframe : ∀ a ∈ l₂, ∀ s, π (body s a).2 = π s) (s : σ) :
    π (tryEach body (l₁ ++ l₂) s).2 = π (tryEach body l₁ s).2 := by
  rcases outcome_cases (tryEach body l₁ s).1 with hok | ⟨e, herror⟩
  · rw [tryEach_append_ok hok]
    exact tryEach_frame π l₂ hframe _
  · rw [tryEach_append_error herror]

/-- A loop that ends with an element on which it fails once it gets there, fails. -/
theorem tryEach_append_singleton_error (l : List α) (a : α) (s : σ)
    (hfail : (body (tryEach body l s).2 a).1 ≠ .ok ()) :
    ∃ e, (tryEach body (l ++ [a]) s).1 = .error e := by
  rcases outcome_cases (tryEach body l s).1 with hok | ⟨e, herror⟩
  · rw [tryEach_append_ok hok]
    rcases outcome_cases (body (tryEach body l s).2 a).1 with h | ⟨e, h⟩
    · exact absurd h hfail
    · exact ⟨e, by rw [tryEach_cons_error h]⟩
  · exact ⟨e, by rw [tryEach_append_error herror]; exact herror⟩

/-! ## Two loops side by side -/

/-- Two outcomes agree on success and end in related states. -/
def SameOutcome (R : σ → σ → Prop) (r₁ r₂ : Except ε Unit × σ) : Prop :=
  R r₁.2 r₂.2 ∧ (r₁.1 = .ok () ↔ r₂.1 = .ok ())

variable {body₁ body₂ : σ → α → Except ε Unit × σ}

/-- Two loops over the same list whose iterations have the same outcome have the
same outcome. -/
theorem tryEach_related (R : σ → σ → Prop) (l : List α)
    (hbody : ∀ a ∈ l, ∀ s₁ s₂, R s₁ s₂ → SameOutcome R (body₁ s₁ a) (body₂ s₂ a))
    {s₁ s₂ : σ} (hs : R s₁ s₂) :
    SameOutcome R (tryEach body₁ l s₁) (tryEach body₂ l s₂) := by
  induction l generalizing s₁ s₂ with
  | nil => exact ⟨hs, Iff.rfl⟩
  | cons a l ih =>
      obtain ⟨hR, hiff⟩ := hbody a List.mem_cons_self s₁ s₂ hs
      rcases outcome_cases (body₁ s₁ a).1 with h₁ | ⟨e₁, h₁⟩
      · have h₂ := hiff.mp h₁
        rw [tryEach_cons_ok h₁, tryEach_cons_ok h₂]
        exact ih (fun b hb => hbody b (List.mem_cons_of_mem a hb)) hR
      · rcases outcome_cases (body₂ s₂ a).1 with h₂ | ⟨e₂, h₂⟩
        · rw [hiff.mpr h₂] at h₁
          cases h₁
        · rw [tryEach_cons_error h₁, tryEach_cons_error h₂]
          exact ⟨hR, by simp⟩

/-- Two loops with the same outcome on their first parts, and from there on the
same outcome on their second parts. -/
theorem tryEach_append_related {R Q : σ → σ → Prop} (hRQ : ∀ t₁ t₂, R t₁ t₂ → Q t₁ t₂)
    {l₁ l₂ m₁ m₂ : List α} {s₁ s₂ : σ}
    (hfirst : SameOutcome R (tryEach body₁ l₁ s₁) (tryEach body₂ l₂ s₂))
    (hsecond : ∀ t₁ t₂, R t₁ t₂ → SameOutcome Q (tryEach body₁ m₁ t₁) (tryEach body₂ m₂ t₂)) :
    SameOutcome Q (tryEach body₁ (l₁ ++ m₁) s₁) (tryEach body₂ (l₂ ++ m₂) s₂) := by
  obtain ⟨hR, hiff⟩ := hfirst
  rcases outcome_cases (tryEach body₁ l₁ s₁).1 with h₁ | ⟨e₁, h₁⟩
  · rw [tryEach_append_ok h₁, tryEach_append_ok (hiff.mp h₁)]
    exact hsecond _ _ hR
  · rcases outcome_cases (tryEach body₂ l₂ s₂).1 with h₂ | ⟨e₂, h₂⟩
    · rw [hiff.mpr h₂] at h₁
      cases h₁
    · rw [tryEach_append_error h₁, tryEach_append_error h₂]
      exact ⟨hRQ _ _ hR, by rw [h₁, h₂]; simp⟩

end Foundation
