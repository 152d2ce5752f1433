import Mathlib.Logic.Relation
import Mathlib.Tactic.Common

/-!
Weakest preconditions for stateful computations that may stop with a fault.

`wp x post fault s` says that running `x` from `s` ends either normally, with a result
and a state related by `post`, or with a fault and a state related by `fault`. The rules
below compute it along the structure of a `do` block, so a specification of a function
is proved from the specifications of the functions it calls.
-/

namespace ViiCore

theorem except_bind_ok {ε α β : Type} {x : Except ε α} {f : α → Except ε β} {result : β} :
    (x >>= f) = .ok result ↔ ∃ value, x = .ok value ∧ f value = .ok result := by
  cases x with
  | error thrown => simp [bind, Except.bind]
  | ok value => simp [bind, Except.bind]

namespace Execution

variable {ε σ α β : Type}

def wp (x : EStateM ε σ α) (post : α → σ → Prop) (fault : ε → σ → Prop) (s : σ) : Prop :=
  match x s with
  | .ok a s' => post a s'
  | .error e s' => fault e s'

variable {post : α → σ → Prop} {fault : ε → σ → Prop} {s : σ}

theorem wp_of_ok {x : EStateM ε σ α} {a : α} {s' : σ} (ran : x s = .ok a s') :
    wp x post fault s ↔ post a s' := by
  unfold wp
  rw [ran]

theorem wp_of_eq {x y : EStateM ε σ α} {s' : σ} (same : x s = y s') :
    wp x post fault s ↔ wp y post fault s' := by
  unfold wp
  rw [same]

theorem bind_of_ok {x : EStateM ε σ α} {f : α → EStateM ε σ β} {a : α} {s' : σ}
    (ran : x s = .ok a s') : (x >>= f) s = f a s' := by
  change EStateM.bind x f s = f a s'
  unfold EStateM.bind
  rw [ran]

theorem bind_of_error {x : EStateM ε σ α} {f : α → EStateM ε σ β} {e : ε} {s' : σ}
    (ran : x s = .error e s') : (x >>= f) s = .error e s' := by
  change EStateM.bind x f s = .error e s'
  unfold EStateM.bind
  rw [ran]

theorem bind_ok {x : EStateM ε σ α} {f : α → EStateM ε σ β} {b : β} {s' : σ} :
    (x >>= f) s = .ok b s' ↔ ∃ a mid, x s = .ok a mid ∧ f a mid = .ok b s' := by
  cases ran : x s with
  | ok a mid =>
      rw [bind_of_ok ran]
      constructor
      · intro rest
        exact ⟨a, mid, rfl, rest⟩
      · intro ⟨_, _, same, rest⟩
        cases same
        exact rest
  | error e mid =>
      rw [bind_of_error ran]
      constructor
      · intro impossible
        cases impossible
      · intro ⟨_, _, impossible, _⟩
        cases impossible

@[simp] theorem wp_pure (a : α) : wp (pure a : EStateM ε σ α) post fault s ↔ post a s :=
  Iff.rfl

@[simp] theorem wp_throw (e : ε) : wp (throw e : EStateM ε σ α) post fault s ↔ fault e s :=
  Iff.rfl

@[simp] theorem wp_get {post : σ → σ → Prop} :
    wp (get : EStateM ε σ σ) post fault s ↔ post s s :=
  Iff.rfl

@[simp] theorem wp_set {post : PUnit → σ → Prop} (s' : σ) :
    wp (set s' : EStateM ε σ PUnit) post fault s ↔ post ⟨⟩ s' :=
  Iff.rfl

@[simp] theorem wp_modify {post : PUnit → σ → Prop} (f : σ → σ) :
    wp (modify f : EStateM ε σ PUnit) post fault s ↔ post ⟨⟩ (f s) :=
  Iff.rfl

@[simp] theorem wp_bind {post : β → σ → Prop} (x : EStateM ε σ α) (f : α → EStateM ε σ β) :
    wp (x >>= f) post fault s ↔ wp x (fun a s' => wp (f a) post fault s') fault s := by
  change wp (EStateM.bind x f) post fault s ↔ _
  unfold wp EStateM.bind
  cases x s <;> exact Iff.rfl

@[simp] theorem wp_map {post : β → σ → Prop} (f : α → β) (x : EStateM ε σ α) :
    wp (f <$> x) post fault s ↔ wp x (fun a s' => post (f a) s') fault s := by
  change wp (EStateM.map f x) post fault s ↔ _
  unfold wp EStateM.map
  cases x s <;> exact Iff.rfl

theorem wp_ite (c : Prop) [Decidable c] (x y : EStateM ε σ α) :
    wp (if c then x else y) post fault s ↔
      (c → wp x post fault s) ∧ (¬ c → wp y post fault s) := by
  by_cases holds : c <;> simp [holds]

theorem wp_mono {post' : α → σ → Prop} {fault' : ε → σ → Prop} {x : EStateM ε σ α}
    (proved : wp x post fault s) (ok : ∀ a s', post a s' → post' a s')
    (failed : ∀ e s', fault e s' → fault' e s') : wp x post' fault' s := by
  unfold wp at proved ⊢
  split
  · rename_i a s' ran
    rw [ran] at proved
    exact ok a s' proved
  · rename_i e s' ran
    rw [ran] at proved
    exact failed e s' proved

abbrev Ensures (x : EStateM ε σ α) (s : σ) (post : α → σ → Prop) : Prop :=
  wp x post (fun _ _ => True) s

theorem Ensures.mono {post' : α → σ → Prop} {x : EStateM ε σ α} (proved : Ensures x s post)
    (ok : ∀ a s', post a s' → post' a s') : Ensures x s post' :=
  wp_mono proved ok fun _ _ _ => trivial

theorem Ensures.bind {post' : β → σ → Prop} {x : EStateM ε σ α} {f : α → EStateM ε σ β}
    (first : Ensures x s post) (second : ∀ a s', post a s' → Ensures (f a) s' post') :
    Ensures (x >>= f) s post' := by
  rw [Ensures, wp_bind]
  exact Ensures.mono first second

theorem Ensures.and {post' : α → σ → Prop} {x : EStateM ε σ α} (one : Ensures x s post)
    (other : Ensures x s post') : Ensures x s fun a s' => post a s' ∧ post' a s' := by
  unfold Ensures wp at one other ⊢
  split
  · rename_i a s' ran
    rw [ran] at one other
    exact ⟨one, other⟩
  · trivial

theorem Ensures.of_ran {x : EStateM ε σ α} (holds : ∀ a s', x s = .ok a s' → post a s') :
    Ensures x s post := by
  unfold Ensures wp
  split
  · rename_i a s' ran
    exact holds a s' ran
  · trivial

theorem Ensures.pure {a : α} (holds : post a s) : Ensures (pure a : EStateM ε σ α) s post :=
  holds

def finalState (x : EStateM ε σ α) (s : σ) : σ :=
  match x s with
  | .ok _ s' => s'
  | .error _ s' => s'

def returned (x : EStateM ε σ α) (s : σ) : Option α :=
  match x s with
  | .ok a _ => some a
  | .error _ _ => none

theorem returned_eq_some {x : EStateM ε σ α} {a : α} :
    returned x s = some a ↔ ∃ s', x s = .ok a s' := by
  unfold returned
  cases x s with
  | ok other s' => simp
  | error e s' => simp

end Execution

end ViiCore
