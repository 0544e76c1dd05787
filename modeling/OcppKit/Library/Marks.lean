import Mathlib.Data.List.Infix

/-!
# Reading up to a mark

A stream arrives in chunks, cut anywhere, and a part of it ends with a mark of several symbols.
Whoever reads it appends chunk after chunk to a buffer and looks for the mark in it
(`OcppKit.Marks.readUntil`), and gives up when the buffer has grown past a limit without one.

What comes of it depends on the stream alone where the mark is complete within the limit
(`OcppKit.Marks.readUntil_of_find`), and nothing that was read is lost: what stands after the mark
is in the buffer or in the chunks that are left. A mark that comes later than a chunk behind the
limit is never found (`OcppKit.Marks.readUntil_of_late`).
-/

namespace OcppKit.Marks

variable {α : Type*} [DecidableEq α]

/-! ### Where a mark stands -/

/-- **Where a mark first stands.** -/
def find (mark : List α) : List α → Option ℕ
  | [] => if mark = [] then some 0 else none
  | a :: rest => if mark <+: a :: rest then some 0 else (find mark rest).map (· + 1)

theorem find_of_isPrefix {mark l : List α} (h : mark <+: l) : find mark l = some 0 := by
  cases l with
  | nil => exact if_pos (List.prefix_nil.mp h)
  | cons a rest => exact if_pos h

theorem find_cons_of_not {mark : List α} {a : α} {rest : List α} (h : ¬mark <+: a :: rest) :
    find mark (a :: rest) = (find mark rest).map (· + 1) := if_neg h

/-- It is the first place where the mark is ahead. -/
theorem find_eq_some_iff {mark l : List α} {n : ℕ} : find mark l = some n ↔
    n ≤ l.length ∧ mark <+: l.drop n ∧ ∀ m < n, ¬mark <+: l.drop m := by
  induction l generalizing n with
  | nil =>
      by_cases hmark : mark = []
      · subst hmark
        rw [find_of_isPrefix List.nil_prefix]
        constructor
        · rintro ⟨⟩
          exact ⟨le_rfl, List.nil_prefix, fun m hm => absurd hm (Nat.not_lt_zero m)⟩
        · rintro ⟨hn, -, -⟩
          rw [List.length_nil, Nat.le_zero] at hn
          rw [hn]
      · rw [find, if_neg hmark]
        constructor
        · intro h
          cases h
        · rintro ⟨-, hpre, -⟩
          rw [List.drop_nil] at hpre
          exact absurd (List.prefix_nil.mp hpre) hmark
  | cons a rest ih =>
      by_cases hmark : mark <+: a :: rest
      · rw [find_of_isPrefix hmark]
        constructor
        · rintro ⟨⟩
          exact ⟨Nat.zero_le _, hmark, fun m hm => absurd hm (Nat.not_lt_zero m)⟩
        · rintro ⟨-, -, hfirst⟩
          rcases n with _ | n
          · rfl
          · exact absurd hmark (hfirst 0 (Nat.succ_pos n))
      · rw [find_cons_of_not hmark, Option.map_eq_some_iff]
        constructor
        · rintro ⟨m, hm, rfl⟩
          obtain ⟨hle, hpre, hfirst⟩ := ih.mp hm
          refine ⟨Nat.succ_le_succ hle, hpre, ?_⟩
          rintro (_ | k) hk
          · exact hmark
          · exact hfirst k (Nat.lt_of_succ_lt_succ hk)
        · rintro ⟨hle, hpre, hfirst⟩
          rcases n with _ | n
          · exact absurd hpre hmark
          · refine ⟨n, ih.mpr ⟨Nat.le_of_succ_le_succ hle, hpre, ?_⟩, rfl⟩
            intro m hm
            exact hfirst (m + 1) (Nat.succ_lt_succ hm)

/-- The mark is all there. -/
theorem le_length_of_find {mark l : List α} {n : ℕ} (h : find mark l = some n) :
    n + mark.length ≤ l.length := by
  obtain ⟨hle, hpre, -⟩ := find_eq_some_iff.mp h
  have hlength := hpre.length_le
  rw [List.length_drop] at hlength
  omega

/-- More of the stream does not move it. -/
theorem find_append {mark l : List α} {n : ℕ} (h : find mark l = some n) (more : List α) :
    find mark (l ++ more) = some n := by
  obtain ⟨hle, hpre, hfirst⟩ := find_eq_some_iff.mp h
  have hroom := le_length_of_find h
  refine find_eq_some_iff.mpr ⟨by rw [List.length_append]; omega, ?_, ?_⟩
  · rw [List.drop_append_of_le_length hle]
    exact hpre.trans (List.prefix_append _ _)
  · intro m hm hmark
    rw [List.drop_append_of_le_length (by omega)] at hmark
    refine hfirst m hm (List.prefix_of_prefix_length_le hmark (List.prefix_append _ _) ?_)
    rw [List.length_drop]
    omega

/-- A mark of the whole stream that is within its beginning is one of the beginning. -/
theorem find_of_append {mark l more : List α} {n : ℕ} (h : find mark (l ++ more) = some n)
    (hroom : n + mark.length ≤ l.length) : find mark l = some n := by
  obtain ⟨-, hpre, hfirst⟩ := find_eq_some_iff.mp h
  refine find_eq_some_iff.mpr ⟨by omega, ?_, ?_⟩
  · rw [List.drop_append_of_le_length (by omega)] at hpre
    refine List.prefix_of_prefix_length_le hpre (List.prefix_append _ _) ?_
    rw [List.length_drop]
    omega
  · intro m hm hmark
    refine hfirst m hm ?_
    rw [List.drop_append_of_le_length (by omega)]
    exact hmark.trans (List.prefix_append _ _)

/-! ### Reading -/

/-- Why reading ends without a mark. -/
inductive Failure where
  /-- The stream has ended. -/
  | closed
  /-- The limit has been passed. -/
  | tooLong
deriving DecidableEq, Repr

/-- **Reads chunks until the mark is in the buffer**: what has been read, where the mark stands,
and the chunks that are left. A chunk of nothing is the end of the stream. -/
def readUntil (mark : List α) (limit : ℕ) (buffer : List α) :
    List (List α) → Except Failure (List α × ℕ × List (List α))
  | [] => .error .closed
  | chunk :: chunks =>
    if chunk = [] then .error .closed
    else
      match find mark (buffer ++ chunk) with
      | some n => .ok (buffer ++ chunk, n, chunks)
      | none =>
        if limit < (buffer ++ chunk).length then .error .tooLong
        else readUntil mark limit (buffer ++ chunk) chunks

/-- **What is found is the first mark of the stream**, and what was read and what is left are
the stream. -/
theorem find_of_readUntil {mark : List α} {limit : ℕ} {buffer seen : List α} {n : ℕ}
    {chunks left : List (List α)} (h : readUntil mark limit buffer chunks = .ok (seen, n, left)) :
    find mark (buffer ++ chunks.flatten) = some n ∧
      seen ++ left.flatten = buffer ++ chunks.flatten ∧ n + mark.length ≤ seen.length := by
  induction chunks generalizing buffer with
  | nil => cases h
  | cons chunk chunks ih =>
      rw [readUntil] at h
      rw [List.flatten_cons, ← List.append_assoc]
      split at h
      · cases h
      · split at h
        · next m hfind =>
          cases h
          exact ⟨find_append hfind _, rfl, le_length_of_find hfind⟩
        · split at h
          · cases h
          · exact ih h

/-- **A mark that is complete within the limit is found**, however the stream is cut. -/
theorem readUntil_of_find {mark : List α} {limit : ℕ} {buffer : List α} {n : ℕ}
    {chunks : List (List α)} (hchunks : [] ∉ chunks) (hbuffer : find mark buffer = none)
    (hfind : find mark (buffer ++ chunks.flatten) = some n) (hroom : n + mark.length ≤ limit + 1) :
    ∃ seen left, readUntil mark limit buffer chunks = .ok (seen, n, left) := by
  induction chunks generalizing buffer with
  | nil =>
      rw [List.flatten_nil, List.append_nil, hbuffer] at hfind
      cases hfind
  | cons chunk chunks ih =>
      rw [List.mem_cons, not_or] at hchunks
      rw [List.flatten_cons, ← List.append_assoc] at hfind
      rw [readUntil, if_neg (Ne.symm hchunks.1)]
      rcases hnow : find mark (buffer ++ chunk) with _ | m
      · -- the mark is not complete yet, so that the limit has not been passed
        have hshort : (buffer ++ chunk).length < n + mark.length := by
          by_contra hle
          rw [find_of_append hfind (Nat.le_of_not_lt hle)] at hnow
          cases hnow
        dsimp only
        rw [if_neg (by omega)]
        exact ih hchunks.2 hnow hfind
      · rw [find_append hnow] at hfind
        obtain rfl := Option.some.inj hfind
        exact ⟨_, _, rfl⟩

/-- **A mark that comes too late is not found**, however the stream is cut: not one that comes
later than a chunk behind the limit. -/
theorem readUntil_of_late {mark : List α} {limit width : ℕ} {buffer : List α}
    {chunks : List (List α)} (hchunks : [] ∉ chunks)
    (hwidth : ∀ chunk ∈ chunks, chunk.length ≤ width)
    (hbuffer : buffer.length ≤ limit) (hlong : limit < (buffer ++ chunks.flatten).length)
    (hlate : ∀ n, find mark (buffer ++ chunks.flatten) = some n → limit + width < n + mark.length) :
    readUntil mark limit buffer chunks = .error .tooLong := by
  induction chunks generalizing buffer with
  | nil =>
      rw [List.flatten_nil, List.append_nil] at hlong
      omega
  | cons chunk chunks ih =>
      rw [List.mem_cons, not_or] at hchunks
      rw [List.flatten_cons, ← List.append_assoc] at hlong hlate
      rw [readUntil, if_neg (Ne.symm hchunks.1)]
      have hchunk := hwidth chunk List.mem_cons_self
      rcases hnow : find mark (buffer ++ chunk) with _ | m
      · dsimp only
        by_cases hpast : limit < (buffer ++ chunk).length
        · rw [if_pos hpast]
        · rw [if_neg hpast]
          exact ih hchunks.2 (fun c hc => hwidth c (List.mem_cons_of_mem _ hc)) (by omega) hlong
            hlate
      · have hend := hlate m (find_append hnow _)
        have hroom := le_length_of_find hnow
        rw [List.length_append] at hroom
        omega

end OcppKit.Marks
