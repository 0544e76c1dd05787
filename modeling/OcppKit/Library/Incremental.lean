import Mathlib

/-!
# Reading what arrives in pieces

A reader takes items off the front of a list that grows at its end. What it does with the
front is one *pass* (`Incremental.Pass`): it waits for more, fails, takes something off
and goes on, or takes something off and has an item. A reader is such a function of a state
and what has arrived (`Incremental.Reader`), with two laws: what it takes off is something,
and what it has decided it decides the same when more has arrived.

`Incremental.Reader.decode` passes until there is an item, `drain` decodes until there is
none, and `receive` drains each time something arrives. The two laws are all it takes for
the pieces not to matter: `Incremental.Reader.receive_eq_drain`.

The functions recurse on what is left, so what they do is said by one equation,
`Incremental.Reader.drain_eq`; nothing here unfolds them past it.
-/

namespace Incremental

variable {σ α β ε : Type*}

/-! ### Readers -/

/-- **One look at the front**: a state, and what is left, come out of it. -/
inductive Pass (σ α β ε : Type*) where
  /-- More has to arrive. -/
  | wait
  /-- What has arrived is no good. -/
  | fail (e : ε)
  /-- Something was taken off, and it was not an item yet. -/
  | next (s : σ) (rest : List α)
  /-- An item was taken off. -/
  | done (b : β) (s : σ) (rest : List α)

/-- The same with more behind it. -/
def Pass.append : Pass σ α β ε → List α → Pass σ α β ε
  | .wait, _ => .wait
  | .fail e, _ => .fail e
  | .next s rest, more => .next s (rest ++ more)
  | .done b s rest, more => .done b s (rest ++ more)

/-- What is left after it, if anything was taken off. -/
def Pass.rest : Pass σ α β ε → Option (List α)
  | .wait | .fail _ => none
  | .next _ rest | .done _ _ rest => some rest

/-- **A reader.** -/
structure Reader (σ α β ε : Type*) where
  /-- One look at the front. -/
  pass : σ → List α → Pass σ α β ε
  /-- Something was taken off. -/
  shrinks : ∀ s xs, ∀ rest ∈ (pass s xs).rest, rest.length < xs.length
  /-- What was decided stays decided. -/
  stable : ∀ s xs more, pass s xs ≠ .wait → pass s (xs ++ more) = (pass s xs).append more

/-- What came of reading: items, and then a failure, or a state and what is left. -/
abbrev Outcome (σ α β ε : Type*) := List β × Except ε (σ × List α)

/-- First these items. -/
def Outcome.after (bs : List β) (o : Outcome σ α β ε) : Outcome σ α β ε := (bs ++ o.1, o.2)

/-- And then something else, with the state and what is left. -/
def Outcome.andThen (o : Outcome σ α β ε) (f : σ → List α → Outcome σ α β ε) :
    Outcome σ α β ε :=
  match o.2 with
  | .error _ => o
  | .ok (s, rest) => (f s rest).after o.1

@[simp] theorem Outcome.after_nil (o : Outcome σ α β ε) : o.after [] = o := rfl

@[simp] theorem Outcome.after_after (bs bs' : List β) (o : Outcome σ α β ε) :
    (o.after bs').after bs = o.after (bs ++ bs') := by
  simp [after]

theorem Outcome.andThen_after (bs : List β) (o : Outcome σ α β ε)
    (f : σ → List α → Outcome σ α β ε) : (o.after bs).andThen f = (o.andThen f).after bs := by
  rcases o with ⟨bs', _ | ⟨s, rest⟩⟩
  · rfl
  · exact (Outcome.after_after bs bs' (f s rest)).symm

namespace Reader

variable (r : Reader σ α β ε)

/-- **Passes until there is an item**, or none for now. -/
def decode (s : σ) (xs : List α) : Except ε (Option β × σ × List α) :=
  match h : r.pass s xs with
  | .wait => .ok (none, s, xs)
  | .fail e => .error e
  | .next s' rest =>
      have : rest.length < xs.length := r.shrinks s xs rest (by rw [h]; rfl)
      decode s' rest
  | .done b s' rest => .ok (some b, s', rest)
termination_by xs.length

theorem decode_eq (s : σ) (xs : List α) : r.decode s xs =
    match r.pass s xs with
    | .wait => .ok (none, s, xs)
    | .fail e => .error e
    | .next s' rest => r.decode s' rest
    | .done b s' rest => .ok (some b, s', rest) := by
  rw [decode]
  split <;> simp_all

/-- An item takes something off. -/
theorem length_lt_of_decode {s s' : σ} {xs rest : List α} {b : β}
    (h : r.decode s xs = .ok (some b, s', rest)) : rest.length < xs.length := by
  induction hn : xs.length using Nat.strongRecOn generalizing s xs with
  | _ n ih =>
    rw [decode_eq] at h
    split at h
    · exact absurd (Except.ok.inj h) (by simp)
    · exact absurd h (by simp)
    next s'' rest' hpass =>
      have hlt := r.shrinks s xs rest' (by rw [hpass]; rfl)
      exact (ih rest'.length (hn ▸ hlt) h rfl).trans (hn ▸ hlt)
    next b' s'' rest' hpass =>
      have hlt := r.shrinks s xs rest' (by rw [hpass]; rfl)
      obtain ⟨-, -, rfl⟩ := by simpa using Except.ok.inj h
      exact hn ▸ hlt

/-- **Decodes until there is no item.** -/
def drain (s : σ) (xs : List α) : Outcome σ α β ε :=
  match h : r.decode s xs with
  | .error e => ([], .error e)
  | .ok (none, s', rest) => ([], .ok (s', rest))
  | .ok (some b, s', rest) =>
      have : rest.length < xs.length := r.length_lt_of_decode h
      (drain s' rest).after [b]
termination_by xs.length

/-- **Drains each time something arrives.** -/
def receive (s : σ) (buffer : List α) : List (List α) → Outcome σ α β ε
  | [] => ([], .ok (s, buffer))
  | read :: reads => (r.drain s (buffer ++ read)).andThen fun s' rest => receive s' rest reads

/-! ### The pieces do not matter -/

theorem drain_of_decode (s : σ) (xs : List α) : r.drain s xs =
    match r.decode s xs with
    | .error e => ([], .error e)
    | .ok (none, s', rest) => ([], .ok (s', rest))
    | .ok (some b, s', rest) => (r.drain s' rest).after [b] := by
  rw [drain]
  split <;> simp_all

/-- What a pass over this leads to. -/
def resume (s : σ) (xs : List α) : Pass σ α β ε → Outcome σ α β ε
  | .wait => ([], .ok (s, xs))
  | .fail e => ([], .error e)
  | .next s' rest => r.drain s' rest
  | .done b s' rest => (r.drain s' rest).after [b]

/-- **Draining is one pass, and draining what is left.** -/
theorem drain_eq (s : σ) (xs : List α) : r.drain s xs = r.resume s xs (r.pass s xs) := by
  rw [drain_of_decode, decode_eq]
  rcases hpass : r.pass s xs with _ | e | ⟨s', rest⟩ | ⟨b, s', rest⟩
  · rfl
  · rfl
  · exact (drain_of_decode r s' rest).symm
  · rfl

/-- **What arrives later is read later.** -/
theorem drain_append (s : σ) (xs ys : List α) : r.drain s (xs ++ ys) =
    (r.drain s xs).andThen fun s' rest => r.drain s' (rest ++ ys) := by
  induction hn : xs.length using Nat.strongRecOn generalizing s xs with
  | _ n ih =>
    have hshrinks := r.shrinks s xs
    have hstable := r.stable s xs ys
    rw [drain_eq r s xs]
    rcases hpass : r.pass s xs with _ | e | ⟨s', rest⟩ | ⟨b, s', rest⟩
    · rfl
    · rw [drain_eq, hstable (by rw [hpass]; simp), hpass]
      rfl
    · rw [drain_eq, hstable (by rw [hpass]; simp), hpass]
      exact ih rest.length (hn ▸ hshrinks rest (by rw [hpass]; rfl)) s' rest rfl
    · rw [drain_eq, hstable (by rw [hpass]; simp), hpass]
      simp only [Pass.append, resume, Outcome.andThen_after]
      rw [ih rest.length (hn ▸ hshrinks rest (by rw [hpass]; rfl)) s' rest rfl]

/-- What is left when an item is wanted is waited on. -/
theorem wait_of_drain {s s' : σ} {xs rest : List α} (h : (r.drain s xs).2 = .ok (s', rest)) :
    r.pass s' rest = .wait := by
  induction hn : xs.length using Nat.strongRecOn generalizing s xs with
  | _ n ih =>
    have hshrinks := r.shrinks s xs
    rw [drain_eq] at h
    rcases hpass : r.pass s xs with _ | e | ⟨s'', rest'⟩ | ⟨b, s'', rest'⟩
    · rw [hpass] at h
      obtain ⟨rfl, rfl⟩ := Prod.mk.inj (Except.ok.inj h)
      exact hpass
    · rw [hpass] at h
      exact absurd h (by simp [resume])
    · rw [hpass] at h
      exact ih rest'.length (hn ▸ hshrinks rest' (by rw [hpass]; rfl)) h rfl
    · rw [hpass] at h
      exact ih rest'.length (hn ▸ hshrinks rest' (by rw [hpass]; rfl)) h rfl

/-- What is waited on is not read. -/
theorem drain_of_wait {s : σ} {xs : List α} (h : r.pass s xs = .wait) :
    r.drain s xs = ([], .ok (s, xs)) := by
  rw [drain_eq, h, resume]

/-- **How it arrives does not matter**: it is read as if it had arrived at once. -/
theorem receive_eq_drain {s : σ} {buffer : List α} (h : r.pass s buffer = .wait)
    (reads : List (List α)) : r.receive s buffer reads = r.drain s (buffer ++ reads.flatten) := by
  induction reads generalizing s buffer with
  | nil =>
      rw [List.flatten_nil, List.append_nil, r.drain_of_wait h]
      rfl
  | cons read reads ih =>
      rw [receive, List.flatten_cons, ← List.append_assoc,
        r.drain_append s (buffer ++ read)]
      rcases hdrain : r.drain s (buffer ++ read) with ⟨bs, _ | ⟨s', rest⟩⟩
      · rfl
      · simp only [Outcome.andThen, ih (r.wait_of_drain (by rw [hdrain]))]

end Reader

end Incremental
