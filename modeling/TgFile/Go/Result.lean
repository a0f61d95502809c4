import Mathlib.Data.List.Basic

/-! # Fallible computations

Go functions that return an error are read as computations in `Except`.  The lemmas here take a
successful run apart: a bind, a check that returns an error, and a loop that stops at the first
error. -/

namespace TgFile.Result

variable {ε α β σ : Type}

/-- Return an error unless the condition holds. -/
def require (condition : Prop) [Decidable condition] (error : ε) : Except ε Unit :=
  if condition then .ok () else .error error

@[simp]
lemma require_ok {condition : Prop} [Decidable condition] {error : ε} {u : Unit} :
    require condition error = .ok u ↔ condition := by
  unfold require
  split_ifs with holds <;> simp [holds]

/-- A sequence succeeds when both of its steps do. -/
@[simp]
lemma bind_ok {x : Except ε α} {f : α → Except ε β} {b : β} :
    x >>= f = .ok b ↔ ∃ a, x = .ok a ∧ f a = .ok b := by
  cases x with
  | error e =>
    refine ⟨fun same => ?_, fun ⟨_, same, _⟩ => ?_⟩
    · cases same
    · cases same
  | ok a =>
    refine ⟨fun same => ⟨a, rfl, same⟩, ?_⟩
    rintro ⟨_, same, run⟩
    cases same
    exact run

@[simp]
lemma pure_ok {a b : α} : (pure a : Except ε α) = .ok b ↔ a = b :=
  ⟨Except.ok.inj, congrArg Except.ok⟩

lemma map_ok {x : Except ε α} {f : α → β} {b : β} :
    f <$> x = .ok b ↔ ∃ a, x = .ok a ∧ f a = b := by
  cases x with
  | error e =>
    refine ⟨fun same => ?_, fun ⟨_, same, _⟩ => ?_⟩
    · cases same
    · cases same
  | ok a =>
    refine ⟨fun same => ⟨a, rfl, Except.ok.inj same⟩, ?_⟩
    rintro ⟨_, same, run⟩
    cases same
    exact congrArg Except.ok run

/-- What every pass of a loop preserves, the loop preserves. -/
lemma foldlM_ok {step : σ → α → Except ε σ} {items : List α} (inv : σ → Prop)
    (preserved : ∀ item ∈ items, ∀ s s', inv s → step s item = .ok s' → inv s')
    {s s' : σ} (holds : inv s) (run : items.foldlM step s = .ok s') : inv s' := by
  induction items generalizing s with
  | nil =>
    obtain rfl : s = s' := pure_ok.mp run
    exact holds
  | cons item items ih =>
    rw [List.foldlM_cons, bind_ok] at run
    obtain ⟨t, first, rest⟩ := run
    exact ih (fun later member => preserved later (List.mem_cons_of_mem _ member))
      (preserved item List.mem_cons_self s t holds first) rest

/-- A loop of checks passes when each of them does. -/
lemma forM_of_forall {check : α → Except ε Unit} {items : List α}
    (passed : ∀ item ∈ items, check item = .ok ()) : items.forM check = .ok () := by
  induction items with
  | nil => rfl
  | cons first rest ih =>
    change (check first >>= fun _ => rest.forM check) = .ok ()
    rw [passed first List.mem_cons_self]
    exact ih fun item member => passed item (List.mem_cons_of_mem _ member)

/-- What passes every check of a loop passes each of them. -/
lemma forM_ok {check : α → Except ε Unit} {items : List α} {u : Unit}
    (passed : items.forM check = .ok u) : ∀ item ∈ items, check item = .ok () := by
  induction items with
  | nil => intro item member; cases member
  | cons first rest ih =>
    change (check first >>= fun _ => rest.forM check) = .ok u at passed
    obtain ⟨_, here, later⟩ := bind_ok.mp passed
    intro item member
    rcases List.mem_cons.mp member with rfl | inRest
    · exact here
    · exact ih later item inRest

/-- The computation returns no error. -/
def succeeds (x : Except ε α) : Bool :=
  match x with
  | .ok _ => true
  | .error _ => false

lemma exists_of_succeeds {x : Except ε α} (ok : succeeds x = true) : ∃ a, x = .ok a := by
  cases x with
  | error e => cases ok
  | ok a => exact ⟨a, rfl⟩

section
variable {e : ε}

/-- The computation does not fail with the error. -/
def Avoids (e : ε) (x : Except ε α) : Prop := x ≠ .error e

@[simp]
lemma avoids_ok (a : α) : Avoids e (.ok a) := by simp [Avoids]

@[simp]
lemma avoids_pure (a : α) : Avoids e (pure a) := avoids_ok a

@[simp]
lemma avoids_error {e' : ε} : Avoids e (.error e' : Except ε α) ↔ e' ≠ e :=
  ⟨fun avoids same => avoids (congrArg _ same), fun other same => other (Except.error.inj same)⟩

@[simp]
lemma avoids_require {condition : Prop} [Decidable condition] {e' : ε} :
    Avoids e (require condition e') ↔ condition ∨ e' ≠ e := by
  unfold require
  split_ifs with holds <;> simp [holds]

@[simp]
lemma avoids_bind {x : Except ε α} {f : α → Except ε β} :
    Avoids e (x >>= f) ↔ Avoids e x ∧ ∀ a, x = .ok a → Avoids e (f a) := by
  cases x <;> simp [Avoids, bind, Except.bind]

@[simp]
lemma avoids_map {x : Except ε α} {f : α → β} : Avoids e (f <$> x) ↔ Avoids e x := by
  cases x <;> simp [Avoids]

@[simp]
lemma avoids_ite {condition : Prop} [Decidable condition] {x y : Except ε α} :
    Avoids e (if condition then x else y) ↔
      (condition → Avoids e x) ∧ (¬condition → Avoids e y) := by
  split_ifs with holds <;> simp [holds]

@[simp]
lemma avoids_foldlM {step : σ → α → Except ε σ} (each : ∀ s a, Avoids e (step s a))
    (items : List α) (s : σ) : Avoids e (items.foldlM step s) := by
  induction items generalizing s with
  | nil => exact avoids_pure s
  | cons item items ih => exact avoids_bind.mpr ⟨each s item, fun s _ => ih s⟩

@[simp]
lemma avoids_forM {check : α → Except ε Unit} (each : ∀ a, Avoids e (check a))
    (items : List α) : Avoids e (forM items check) := by
  induction items with
  | nil => exact avoids_ok ()
  | cons item items ih => exact avoids_bind.mpr ⟨each item, fun _ _ => ih⟩

end

end TgFile.Result
