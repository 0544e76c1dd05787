import Mathlib

/-!
# Messages that may come more than once

A receiver whose messages are delivered at least once, in its own terms: nothing here is
about a particular protocol. A step takes a state and a message, and gives the next state
and an answer; it may also fail.

The receiver *knows* some messages. If it knows what it has taken, keeps knowing it, and
lets what it knows pass without a change (`AtLeastOnce.Idempotent`), then it does not matter
how often, or when, a message is repeated: the run is that of the messages without their
repetitions (`AtLeastOnce.run_firsts`).
-/

namespace AtLeastOnce

variable {σ α β : Type}

/-! ### Without repetitions -/

/-- The messages without their repetitions: of those that repeat one another, the first. -/
def firsts (rep : α → α → Bool) (l : List α) : List α :=
  l.foldl (fun kept a => if kept.any (rep a) then kept else kept ++ [a]) []

theorem firsts_concat (rep : α → α → Bool) (l : List α) (a : α) :
    firsts rep (l ++ [a]) =
      if (firsts rep l).any (rep a) then firsts rep l else firsts rep l ++ [a] := by
  rw [firsts, List.foldl_append]
  rfl

theorem mem_of_mem_firsts {rep : α → α → Bool} {l : List α} {a : α} (h : a ∈ firsts rep l) :
    a ∈ l := by
  induction l using List.reverseRecOn with
  | nil => exact h
  | append_singleton l b ih =>
      rw [firsts_concat] at h
      split at h
      · exact List.mem_append_left _ (ih h)
      · rcases List.mem_append.mp h with h | h
        · exact List.mem_append_left _ (ih h)
        · exact List.mem_append_right _ h

/-! ### Runs -/

/-- The messages, one after the other. -/
def run (step : σ → α → Option (σ × β)) (s : σ) (l : List α) : Option σ :=
  l.foldlM (fun s a => (step s a).map Prod.fst) s

theorem run_append (step : σ → α → Option (σ × β)) (s : σ) (l l' : List α) :
    run step s (l ++ l') = (run step s l).bind fun s' => run step s' l' :=
  List.foldlM_append

theorem run_concat (step : σ → α → Option (σ × β)) (s : σ) (l : List α) (a : α) :
    run step s (l ++ [a]) = (run step s l).bind fun s' => (step s' a).map Prod.fst := by
  rw [run_append]
  refine congrArg _ (funext fun s' => ?_)
  rw [run, List.foldlM_cons]
  rcases step s' a with _ | _ <;> rfl

/-- What holds at first and is kept by each step holds of the whole run. -/
theorem run_induction {step : σ → α → Option (σ × β)} {P : List α → σ → Prop} {s₀ : σ}
    (hnil : P [] s₀)
    (hstep : ∀ l a s s' b, run step s₀ l = some s → P l s → step s a = some (s', b) →
      P (l ++ [a]) s') {l : List α} {s : σ} (h : run step s₀ l = some s) : P l s := by
  induction l using List.reverseRecOn generalizing s with
  | nil =>
      obtain rfl : s₀ = s := Option.some.inj h
      exact hnil
  | append_singleton l a ih =>
      rw [run_concat] at h
      obtain ⟨s₁, h₁, h⟩ := Option.bind_eq_some_iff.mp h
      obtain ⟨⟨s₂, b⟩, h₂, rfl⟩ := Option.map_eq_some_iff.mp h
      exact hstep l a s₁ s₂ b h₁ (ih h₁) h₂

/-- **A receiver that knows what it has taken**, and answers it with `again`. -/
structure Idempotent (step : σ → α → Option (σ × β)) (known : σ → α → Prop) (again : β) :
    Prop where
  /-- It knows what it takes. -/
  learns : ∀ {s a s' b}, step s a = some (s', b) → known s' a
  /-- It forgets nothing. -/
  keeps : ∀ {s a a' s' b}, known s a → step s a' = some (s', b) → known s' a
  /-- What it knows changes nothing. -/
  absorbs : ∀ {s a}, known s a → step s a = some (s, again)

section Idempotent

variable {step : σ → α → Option (σ × β)} {known : σ → α → Prop} {again : β}

/-- After a run the receiver knows every message of it. -/
theorem Idempotent.known_of_run (h : Idempotent step known again) {s₀ s : σ} {l : List α}
    (hrun : run step s₀ l = some s) : ∀ a ∈ l, known s a := by
  refine run_induction (P := fun l s => ∀ a ∈ l, known s a) (fun a ha => ?_) ?_ hrun
  · exact absurd ha List.not_mem_nil
  · intro l a s s' b _ ih hstep a' ha'
    rcases List.mem_append.mp ha' with ha' | ha'
    · exact h.keeps (ih a' ha') hstep
    · obtain rfl := List.mem_singleton.mp ha'
      exact h.learns hstep

/-- **Repetitions do not matter.** -/
theorem run_firsts (h : Idempotent step known again) {rep : α → α → Bool}
    (hrep : ∀ {s a b}, rep a b = true → known s b → known s a) (s₀ : σ) (l : List α) :
    run step s₀ (firsts rep l) = run step s₀ l := by
  induction l using List.reverseRecOn with
  | nil => rfl
  | append_singleton l a ih =>
      rw [firsts_concat]
      split
      · next hany =>
          obtain ⟨b, hb, hab⟩ := List.any_eq_true.mp hany
          rw [run_concat, ← ih]
          rcases hrun : run step s₀ (firsts rep l) with _ | s
          · rfl
          · -- what `a` repeats was taken before, so it is known, and so is `a`
            have hknown := hrep hab (h.known_of_run hrun b hb)
            rw [Option.bind_some, h.absorbs hknown]
            rfl
      · rw [run_concat, run_concat, ih]

end Idempotent

end AtLeastOnce
