import Mathlib.Data.Option.Basic
import Mathlib.Data.List.Basic

/-!
# Runs of a system of guarded actions

A system in which an action may or may not be possible: a step is a partial function of the
state and the action. A run takes the actions in order (`Transitions.run`), and there is none
if one of them is not possible where it stands.

Concurrency is the order of the actions: each is one section that nothing else can interrupt,
and a run is one interleaving of the sections of all who take part. What holds in every state
that is reached is an invariant (`Transitions.run_invariant`); the steps of the run may be
required to meet a condition (`Transitions.EachStep`), which is one on the state before the
step and the action.
-/

namespace Transitions

variable {σ α : Type} (step : σ → α → Option σ)

/-- **The state after these actions**, if they are all possible. -/
def run (s : σ) : List α → Option σ
  | [] => some s
  | a :: actions => (step s a).bind fun s' => run s' actions

/-- **Each step of the run meets the condition.** -/
def EachStep (φ : σ → α → Prop) (s : σ) : List α → Prop
  | [] => True
  | a :: actions => φ s a ∧ ∀ s', step s a = some s' → EachStep φ s' actions

variable {step}

theorem run_cons {s s'' : σ} {a : α} {actions : List α} :
    run step s (a :: actions) = some s'' ↔
      ∃ s', step s a = some s' ∧ run step s' actions = some s'' := by
  rw [run, Option.bind_eq_some_iff]

/-- **What every step that meets the condition keeps** holds after every run whose steps
do. -/
theorem run_invariant {φ : σ → α → Prop} (Inv : σ → Prop)
    (hstep : ∀ s a s', Inv s → φ s a → step s a = some s' → Inv s') {s s' : σ}
    {actions : List α} (hs : Inv s) (hφ : EachStep step φ s actions)
    (hrun : run step s actions = some s') : Inv s' := by
  induction actions generalizing s with
  | nil =>
      obtain rfl := Option.some.inj hrun
      exact hs
  | cons a actions ih =>
      obtain ⟨s₁, hone, hrest⟩ := run_cons.mp hrun
      exact ih (hstep s a s₁ hs hφ.1 hone) (hφ.2 s₁ hone) hrest

theorem run_append {s : σ} {before after : List α} :
    run step s (before ++ after) = (run step s before).bind fun s' => run step s' after := by
  induction before generalizing s with
  | nil => rfl
  | cons a before ih =>
      rw [List.cons_append, run, run, Option.bind_assoc]
      exact congrArg _ (funext fun _ => ih)

/-- **Each step meets the condition** if every action does in the state it is taken in. -/
theorem eachStep_iff {φ : σ → α → Prop} {s : σ} {actions : List α} :
    EachStep step φ s actions ↔ ∀ before a after, actions = before ++ a :: after →
      ∀ s', run step s before = some s' → φ s' a := by
  induction actions generalizing s with
  | nil => simp [EachStep]
  | cons b actions ih =>
      constructor
      · rintro ⟨hb, hrest⟩ before a after hsplit s' hrun
        rcases before with _ | ⟨b', before⟩
        · obtain ⟨rfl, rfl⟩ := List.cons.inj hsplit
          obtain rfl := Option.some.inj hrun
          exact hb
        · obtain ⟨rfl, hsplit'⟩ := List.cons.inj hsplit
          obtain ⟨s₁, hone, hrun⟩ := run_cons.mp hrun
          exact ih.mp (hrest s₁ hone) before a after hsplit' s' hrun
      · intro h
        refine ⟨h [] b actions rfl s rfl, fun s₁ hone => ih.mpr ?_⟩
        intro before a after hsplit s' hrun
        refine h (b :: before) a after (by rw [hsplit, List.cons_append]) s' ?_
        exact run_cons.mpr ⟨s₁, hone, hrun⟩

/-- The first steps of a run meet the condition if all do. -/
theorem EachStep.of_append {φ : σ → α → Prop} {s : σ} {before after : List α}
    (h : EachStep step φ s (before ++ after)) : EachStep step φ s before := by
  rw [eachStep_iff] at h ⊢
  rintro first a rest rfl s' hrun
  exact h first a (rest ++ after) (by simp) s' hrun

/-- There is a condition that every step meets. -/
theorem eachStep_true (s : σ) (actions : List α) : EachStep step (fun _ _ => True) s actions := by
  induction actions generalizing s with
  | nil => trivial
  | cons a actions ih => exact ⟨trivial, fun s' _ => ih s'⟩

theorem EachStep.and {φ ψ : σ → α → Prop} {s : σ} {actions : List α}
    (hφ : EachStep step φ s actions) (hψ : EachStep step ψ s actions) :
    EachStep step (fun s a => φ s a ∧ ψ s a) s actions := by
  induction actions generalizing s with
  | nil => trivial
  | cons a actions ih =>
      exact ⟨⟨hφ.1, hψ.1⟩, fun s' hs' => ih (hφ.2 s' hs') (hψ.2 s' hs')⟩

/-- A condition that an invariant implies is met by every step. -/
theorem eachStep_of_invariant {φ : σ → α → Prop} (Inv : σ → Prop)
    (hstep : ∀ s a s', Inv s → step s a = some s' → Inv s') (hφ : ∀ s a, Inv s → φ s a) {s : σ}
    (hs : Inv s) (actions : List α) : EachStep step φ s actions := by
  induction actions generalizing s with
  | nil => trivial
  | cons a actions ih => exact ⟨hφ s a hs, fun s' hone => ih (hstep s a s' hs hone)⟩

/-- A weaker condition is met where a stronger one is. -/
theorem EachStep.mono {φ ψ : σ → α → Prop} (h : ∀ s a, φ s a → ψ s a) {s : σ}
    {actions : List α} (hφ : EachStep step φ s actions) : EachStep step ψ s actions := by
  induction actions generalizing s with
  | nil => trivial
  | cons a actions ih => exact ⟨h s a hφ.1, fun s' hs' => ih (hφ.2 s' hs')⟩

/-- Whether the steps of a run meet a condition can be found out by running it. -/
instance decidableEachStep (φ : σ → α → Prop) [∀ s a, Decidable (φ s a)] :
    (s : σ) → (actions : List α) → Decidable (EachStep step φ s actions)
  | _, [] => isTrue trivial
  | s, a :: actions =>
      have : Decidable (∀ s', step s a = some s' → EachStep step φ s' actions) :=
        match h : step s a with
        | none => isTrue fun _ h' => absurd h' (by simp)
        | some s₁ =>
            have := decidableEachStep φ s₁ actions
            decidable_of_iff (EachStep step φ s₁ actions)
              ⟨fun hs s' h' => Option.some.inj h' ▸ hs, fun hs => hs s₁ rfl⟩
      inferInstanceAs (Decidable (_ ∧ _))

/-- **The state is reached** from one in which the system starts. -/
def Reaches (step : σ → α → Option σ) (Starts : σ → Prop) (s : σ) : Prop :=
  ∃ s₀, Starts s₀ ∧ ∃ actions, run step s₀ actions = some s

theorem Reaches.concat {Starts : σ → Prop} {s s' : σ} {a : α} (h : Reaches step Starts s)
    (hstep : step s a = some s') : Reaches step Starts s' := by
  obtain ⟨s₀, hs₀, actions, hrun⟩ := h
  refine ⟨s₀, hs₀, actions ++ [a], ?_⟩
  rw [run_append, hrun, Option.bind_some, run, hstep, Option.bind_some, run]

/-- **What every step keeps holds in every state that is reached.** -/
theorem Reaches.invariant {Starts Inv : σ → Prop} {s : σ} (h : Reaches step Starts s)
    (hstart : ∀ s, Starts s → Inv s)
    (hstep : ∀ s a s', Reaches step Starts s → Inv s → step s a = some s' → Inv s') : Inv s := by
  obtain ⟨s₀, hs₀, actions, hrun⟩ := h
  refine (run_invariant (φ := fun _ _ => True) (fun s => Reaches step Starts s ∧ Inv s) ?_
    ⟨⟨s₀, hs₀, [], rfl⟩, hstart s₀ hs₀⟩ (eachStep_true _ _) hrun).2
  rintro s a s' ⟨hreach, hinv⟩ - hone
  exact ⟨hreach.concat hone, hstep s a s' hreach hinv hone⟩

end Transitions
