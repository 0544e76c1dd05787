import OcppKit.Engine.FileStore

/-!
# What each file step leaves behind

The operations of `OcppKit.FileStore`, one lemma each, for every plan of the steps
on the files.

* An append (`OcppKit.FileStore.append_cases`) puts what the plan lets it put
  (`OcppKit.Disk.lands`) at the end of the file the store has open, and succeeds
  exactly when its two steps do.
* A rewrite (`OcppKit.FileStore.rewrite_cases`) ends in one of three ways: the
  journal is as it was; the journal holds the live messages, but the store has the
  replaced file open; or the journal holds the live messages and is open.
* When all goes well, both are computed outright.
-/

namespace OcppKit

/-! ### Sequencing -/

theorem bind_of_ok {ε σ α β : Type} {x : EStateM ε σ α} {f : α → EStateM ε σ β} {s t : σ} {a : α}
    (h : x s = .ok a t) : (x >>= f) s = f a t := by
  change EStateM.bind x f s = f a t
  rw [EStateM.bind, h]

theorem bind_of_error {ε σ α β : Type} {x : EStateM ε σ α} {f : α → EStateM ε σ β} {s t : σ} {e : ε}
    (h : x s = .error e t) : (x >>= f) s = .error e t := by
  change EStateM.bind x f s = .error e t
  rw [EStateM.bind, h]

/-- A computation that starts by looking at the state. -/
theorem get_bind {ε σ β : Type} (f : σ → EStateM ε σ β) (s : σ) :
    ((do let t ← get; f t : EStateM ε σ β)) s = f s s := rfl

variable [Externals] [JournalText]

open JournalText (Byte)

theorem onDisk_of_ok {α : Type} {x : DiskIo α} {s : StoreSession} {a : α} {d : Disk}
    (h : x s.disk = .ok a d) : onDisk x s = .ok a { s with disk := d } := by
  rw [onDisk, h]

theorem onDisk_of_error {α : Type} {x : DiskIo α} {s : StoreSession} {e : StoreError} {d : Disk}
    (h : x s.disk = .error e d) : onDisk x s = .error e { s with disk := d } := by
  rw [onDisk, h]

/-! ### Steps on the files -/

namespace Disk

/-- The same files, with another plan. -/
def withPlan (d : Disk) (plan : List Outcome) : Disk := { d with plan := plan }

@[simp] theorem withPlan_journal (d : Disk) (plan : List Outcome) :
    (d.withPlan plan).journal = d.journal := rfl

@[simp] theorem withPlan_plan (d : Disk) (plan : List Outcome) : (d.withPlan plan).plan = plan :=
  rfl

@[simp] theorem putJournal_journal (bytes : List Byte) (d : Disk) :
    (d.putJournal bytes).journal = d.journal.map fun content => content ++ bytes := rfl

@[simp] theorem putCompacting_journal (bytes : List Byte) (d : Disk) :
    (d.putCompacting bytes).journal = d.journal := rfl

/-- What a write puts into the file, the way the coming step goes. -/
def lands (plan : List Outcome) (bytes : List Byte) : List Byte :=
  match plan.head? with
  | some (.failed written _) => bytes.take written
  | _ => bytes

theorem lands_prefix (plan : List Outcome) (bytes : List Byte) : lands plan bytes <+: bytes := by
  rw [lands]
  split
  · exact List.take_prefix _ _
  · exact List.prefix_rfl

theorem lands_of_ok {plan : List Outcome} (h : plan.head?.getD .ok = .ok) (bytes : List Byte) :
    lands plan bytes = bytes := by
  rw [lands]
  split
  · next hhead => simp [hhead] at h
  · rfl

theorem step_cases (path : String) (d : Disk) :
    (d.plan.head?.getD .ok = .ok ∧ step path d = .ok () (d.withPlan d.plan.tail)) ∨
      ((∃ written error, d.plan.head? = some (.failed written error)) ∧
        ∃ e, step path d = .error e (d.withPlan d.plan.tail)) := by
  obtain ⟨journal, compacting, plan⟩ := d
  rcases plan with _ | ⟨_ | ⟨written, error⟩, rest⟩
  · exact Or.inl ⟨rfl, rfl⟩
  · exact Or.inl ⟨rfl, rfl⟩
  · exact Or.inr ⟨⟨written, error, rfl⟩, _, rfl⟩

theorem writeRecord_cases (put : List Byte → Disk → Disk) (path : String) (record : JournalRecord)
    (d : Disk) :
    (d.plan.head?.getD .ok = .ok ∧ writeRecord put path record d =
      .ok () (put (lands d.plan (Journal.line record)) (d.withPlan d.plan.tail))) ∨
      ((∃ written error, d.plan.head? = some (.failed written error)) ∧
        ∃ e, writeRecord put path record d =
          .error e (put (lands d.plan (Journal.line record)) (d.withPlan d.plan.tail))) := by
  obtain ⟨journal, compacting, plan⟩ := d
  rcases plan with _ | ⟨_ | ⟨written, error⟩, rest⟩
  · exact Or.inl ⟨rfl, rfl⟩
  · exact Or.inl ⟨rfl, rfl⟩
  · exact Or.inr ⟨⟨written, error, rfl⟩, _, rfl⟩

/-- A step that is not planned succeeds. -/
theorem step_of_nil {path : String} {d : Disk} (h : d.plan = []) : step path d = .ok () d := by
  obtain ⟨journal, compacting, plan⟩ := d
  obtain rfl : plan = [] := h
  rfl

theorem writeRecord_of_nil {put : List Byte → Disk → Disk} {path : String} {record : JournalRecord}
    {d : Disk} (h : d.plan = []) :
    writeRecord put path record d = .ok () (put (Journal.line record) d) := by
  obtain ⟨journal, compacting, plan⟩ := d
  obtain rfl : plan = [] := h
  rfl

end Disk

/-! ### Rewriting -/

namespace FileStore

/-- The records of some messages. -/
def pushesOf (entries : List (Seq × QueuedCall)) : List JournalRecord :=
  entries.map fun r => .push r.1 (StoredCall.fromCall r.2)

/-- The text of a journal that holds these messages and nothing else. -/
def compacted (live : SortedMap Seq QueuedCall) : List Byte :=
  Journal.text (pushesOf live.entries)

/-- The same files, with more text in the fresh journal. -/
def extended (d : Disk) (entries : List (Seq × QueuedCall)) (plan : List Outcome) : Disk where
  journal := d.journal
  compacting := d.compacting.map fun content => content ++ Journal.text (pushesOf entries)
  plan := plan

theorem extended_nil (d : Disk) : extended d [] d.plan = d := by
  obtain ⟨journal, compacting, plan⟩ := d
  rcases compacting with _ | compacting
  · rfl
  · simp [extended, pushesOf]

theorem extended_cons (d : Disk) (r : Seq × QueuedCall) (entries : List (Seq × QueuedCall))
    (plan plan' : List Outcome) :
    extended ((d.withPlan plan').putCompacting
        (Journal.line (JournalRecord.push r.1 (StoredCall.fromCall r.2)))) entries plan =
      extended d (r :: entries) plan := by
  obtain ⟨journal, compacting, plan''⟩ := d
  rcases compacting with _ | compacting
  · rfl
  · simp [extended, pushesOf, Disk.putCompacting, Disk.withPlan, Journal.text]

/-- Writing the messages into the fresh file leaves the journal alone, and puts
exactly them there if it succeeds. -/
theorem writeEntries_cases (path : String) (entries : List (Seq × QueuedCall)) :
    ∀ d : Disk, (∃ plan, writeEntries path entries d = .ok () (extended d entries plan)) ∨
      ∃ e t, writeEntries path entries d = .error e t ∧ t.journal = d.journal := by
  induction entries with
  | nil =>
      intro d
      exact Or.inl ⟨d.plan, congrArg _ (extended_nil d).symm⟩
  | cons r entries ih =>
      intro d
      rcases Disk.writeRecord_cases Disk.putCompacting path
          (.push r.1 (StoredCall.fromCall r.2)) d with
        ⟨hok, hwrite⟩ | ⟨-, e, hwrite⟩
      · rw [Disk.lands_of_ok hok] at hwrite
        rw [writeEntries, bind_of_ok hwrite]
        rcases ih
            (Disk.putCompacting (Journal.line (JournalRecord.push r.1 (StoredCall.fromCall r.2)))
              (d.withPlan d.plan.tail)) with ⟨plan, hrest⟩ | ⟨e, t, hrest, ht⟩
        · exact Or.inl ⟨plan, hrest.trans (congrArg _ (extended_cons d r entries plan _))⟩
        · exact Or.inr ⟨e, t, hrest, ht⟩
      · exact Or.inr ⟨e, _, bind_of_error hwrite, rfl⟩

theorem writeEntries_of_nil (path : String) (entries : List (Seq × QueuedCall)) :
    ∀ d : Disk, d.plan = [] → writeEntries path entries d = .ok () (extended d entries []) := by
  induction entries with
  | nil =>
      intro d hplan
      exact congrArg _ (hplan ▸ (extended_nil d).symm)
  | cons r entries ih =>
      intro d hplan
      rw [writeEntries, bind_of_ok (Disk.writeRecord_of_nil hplan)]
      exact (ih (d.putCompacting _) hplan).trans
        (congrArg _ (extended_cons d r entries [] d.plan))

/-- **The fresh journal takes the place of the old one, or nothing happened to the
journal.** -/
theorem writeCompacted_cases (store : FileStore) (d : Disk) :
    (∃ plan, writeCompacted store d = .ok () ⟨some (compacted store.live), none, plan⟩) ∨
      ∃ e t, writeCompacted store d = .error e t ∧ t.journal = d.journal := by
  rw [writeCompacted]
  rcases Disk.step_cases store.path.temporary d with ⟨-, hcreate⟩ | ⟨-, e, hcreate⟩
  swap
  · exact Or.inr ⟨e, _, bind_of_error hcreate, rfl⟩
  rw [bind_of_ok hcreate]
  have hclear : (modify fun d : Disk => { d with compacting := some [] } : DiskIo PUnit)
      (d.withPlan d.plan.tail) = .ok () ⟨d.journal, some [], d.plan.tail⟩ := rfl
  rw [bind_of_ok hclear]
  rcases writeEntries_cases store.path.temporary store.live.entries
      ⟨d.journal, some [], d.plan.tail⟩ with ⟨plan, hwrite⟩ | ⟨e, t, hwrite, ht⟩
  swap
  · exact Or.inr ⟨e, t, bind_of_error hwrite, ht⟩
  rw [bind_of_ok hwrite]
  rcases Disk.step_cases store.path.temporary _ with ⟨-, hsync⟩ | ⟨-, e, hsync⟩
  swap
  · exact Or.inr ⟨e, _, bind_of_error hsync, rfl⟩
  rw [bind_of_ok hsync]
  rcases Disk.step_cases store.path.path _ with ⟨-, hrename⟩ | ⟨-, e, hrename⟩
  swap
  · exact Or.inr ⟨e, _, bind_of_error hrename, rfl⟩
  rw [bind_of_ok hrename]
  exact Or.inl ⟨_, rfl⟩

theorem writeCompacted_of_nil {store : FileStore} {d : Disk} (h : d.plan = []) :
    writeCompacted store d = .ok () ⟨some (compacted store.live), none, []⟩ := by
  obtain ⟨journal, compacting, plan⟩ := d
  obtain rfl : plan = [] := h
  rw [writeCompacted, bind_of_ok (Disk.step_of_nil rfl)]
  have hclear : (modify fun d : Disk => { d with compacting := some [] } : DiskIo PUnit)
      ⟨journal, compacting, []⟩ = .ok () ⟨journal, some [], []⟩ := rfl
  rw [bind_of_ok hclear, bind_of_ok (writeEntries_of_nil _ _ _ rfl),
    bind_of_ok (Disk.step_of_nil rfl), bind_of_ok (Disk.step_of_nil rfl)]
  rfl

/-- **How a rewrite ends.** -/
theorem rewrite_cases (s : StoreSession) :
    (∃ e d, rewrite s = .error e ⟨d, s.store⟩ ∧ d.journal = s.disk.journal) ∨
      (∃ e plan, rewrite s = .error e
        ⟨⟨some (compacted s.store.live), none, plan⟩, { s.store with attached := false }⟩) ∨
      ∃ plan, rewrite s = .ok () ⟨⟨some (compacted s.store.live), none, plan⟩,
        { s.store with attached := true, written := s.store.live.size }⟩ := by
  rw [rewrite, get_bind]
  rcases writeCompacted_cases s.store s.disk with ⟨plan, hfile⟩ | ⟨e, d, hfile, hd⟩
  swap
  · exact Or.inl ⟨e, d, bind_of_error (onDisk_of_error hfile), hd⟩
  rw [bind_of_ok (onDisk_of_ok hfile)]
  have hdetach : modifyStore (fun store => { store with attached := false })
      { s with disk := ⟨some (compacted s.store.live), none, plan⟩ } =
        .ok () ⟨⟨some (compacted s.store.live), none, plan⟩,
          { s.store with attached := false }⟩ := rfl
  rw [bind_of_ok hdetach]
  rcases Disk.step_cases s.store.path.path ⟨some (compacted s.store.live), none, plan⟩ with
    ⟨-, hopen⟩ | ⟨-, e, hopen⟩
  · rw [bind_of_ok (onDisk_of_ok hopen)]
    exact Or.inr (Or.inr ⟨_, rfl⟩)
  · exact Or.inr (Or.inl ⟨e, _, bind_of_error (onDisk_of_error hopen)⟩)

theorem rewrite_of_nil {s : StoreSession} (h : s.disk.plan = []) :
    rewrite s = .ok () ⟨⟨some (compacted s.store.live), none, []⟩,
      { s.store with attached := true, written := s.store.live.size }⟩ := by
  rw [rewrite, get_bind, bind_of_ok (onDisk_of_ok (writeCompacted_of_nil h))]
  have hdetach : modifyStore (fun store => { store with attached := false })
      { s with disk := ⟨some (compacted s.store.live), none, []⟩ } =
        .ok () ⟨⟨some (compacted s.store.live), none, []⟩,
          { s.store with attached := false }⟩ := rfl
  rw [bind_of_ok hdetach, bind_of_ok (onDisk_of_ok (Disk.step_of_nil rfl))]
  rfl

/-! ### Appending -/

/-- The two steps of an append both succeed. -/
def Durable (plan : List Outcome) : Prop := ∀ outcome ∈ plan.take 2, outcome = .ok

instance (plan : List Outcome) : Decidable (Durable plan) := List.decidableBAll _ _

omit [Externals] [JournalText] in
@[simp] theorem durable_nil : Durable [] := by
  intro outcome h
  cases h

theorem lands_of_durable {plan : List Outcome} (h : Durable plan) (bytes : List Byte) :
    Disk.lands plan bytes = bytes := by
  refine Disk.lands_of_ok ?_ bytes
  rcases plan with _ | ⟨outcome, rest⟩
  · rfl
  · exact h outcome (by simp)

theorem put_withPlan (store : FileStore) (bytes : List Byte) (d : Disk) (plan : List Outcome) :
    store.put bytes (d.withPlan plan) = (store.put bytes d).withPlan plan := by
  rw [put, put]
  split <;> rfl

/-- **How an append ends**: the part of the record the plan lets through is at the end
of the file, and the append succeeds if both of its steps do. -/
theorem append_cases (record : JournalRecord) (s : StoreSession) :
    (Durable s.disk.plan ∧ append record s =
      .ok () ⟨(s.store.put (Journal.line record) s.disk).withPlan s.disk.plan.tail.tail,
        { s.store with written := s.store.written + 1 }⟩) ∨
      (¬ Durable s.disk.plan ∧ ∃ e plan, append record s = .error e
        ⟨(s.store.put (Disk.lands s.disk.plan (Journal.line record)) s.disk).withPlan plan,
          s.store⟩) := by
  rw [append, get_bind]
  have hfirst : ∀ {written error}, s.disk.plan.head? = some (.failed written error) →
      ¬ Durable s.disk.plan := by
    intro written error h hdurable
    rcases hplan : s.disk.plan with _ | ⟨outcome, rest⟩
    · simp [hplan] at h
    · obtain rfl : outcome = .failed written error := by simpa [hplan] using h
      exact absurd (hdurable (.failed written error) (by simp [hplan])) (by simp)
  rcases Disk.writeRecord_cases s.store.put s.store.path.path record s.disk with
    ⟨hok, hwrite⟩ | ⟨⟨written, error, hhead⟩, e, hwrite⟩
  swap
  · rw [put_withPlan] at hwrite
    exact Or.inr ⟨hfirst hhead, e, _, bind_of_error (onDisk_of_error hwrite)⟩
  rw [put_withPlan] at hwrite
  rw [bind_of_ok (onDisk_of_ok hwrite)]
  rcases Disk.step_cases s.store.path.path ((s.store.put (Disk.lands s.disk.plan
      (Journal.line record)) s.disk).withPlan s.disk.plan.tail) with
    ⟨hok', hsync⟩ | ⟨⟨written, error, hhead⟩, e, hsync⟩
  · have hdurable : Durable s.disk.plan := by
      rw [Disk.withPlan_plan] at hok'
      rcases hplan : s.disk.plan with _ | ⟨o, _ | ⟨o', rest⟩⟩
      · exact durable_nil
      · simpa [hplan, Durable] using hok
      · rw [hplan] at hok hok'
        intro x hx
        rcases List.mem_pair.mp hx with rfl | rfl
        · exact hok
        · exact hok'
    refine Or.inl ⟨hdurable, ?_⟩
    rw [bind_of_ok (onDisk_of_ok hsync), lands_of_durable hdurable]
    rfl
  · refine Or.inr ⟨?_, e, s.disk.plan.tail.tail, bind_of_error (onDisk_of_error hsync)⟩
    rw [Disk.withPlan_plan] at hhead
    intro hdurable
    rcases hplan : s.disk.plan with _ | ⟨o, _ | ⟨o', rest⟩⟩
    · simp [hplan] at hhead
    · simp [hplan] at hhead
    · obtain rfl : o' = .failed written error := by simpa [hplan] using hhead
      exact absurd (hdurable (.failed written error) (by simp [hplan])) (by simp)

theorem compactIfWorthwhile_eq (s : StoreSession) :
    compactIfWorthwhile s = .ok () s ∨ compactIfWorthwhile s = rewrite s := by
  rw [compactIfWorthwhile, get_bind]
  split
  · exact Or.inr rfl
  · exact Or.inl rfl

/-- **How an append ends that is followed by a compaction**, if one is worthwhile. -/
theorem append_compact_cases (record : JournalRecord) (s : StoreSession) :
    (Durable s.disk.plan ∧ ∃ plan, (s.disk.plan = [] → plan = []) ∧
      (append record >>= fun _ => compactIfWorthwhile) s =
        .ok () ⟨(s.store.put (Journal.line record) s.disk).withPlan plan,
          { s.store with written := s.store.written + 1 }⟩) ∨
      (Durable s.disk.plan ∧ ∃ plan, (s.disk.plan = [] → plan = []) ∧
        (append record >>= fun _ => compactIfWorthwhile) s =
          .ok () ⟨⟨some (compacted s.store.live), none, plan⟩,
            { s.store with attached := true, written := s.store.live.size }⟩) ∨
      (¬ Durable s.disk.plan ∧ ∃ e plan, (append record >>= fun _ => compactIfWorthwhile) s =
        .error e ⟨(s.store.put (Disk.lands s.disk.plan (Journal.line record)) s.disk).withPlan plan,
          s.store⟩) ∨
      (Durable s.disk.plan ∧ s.disk.plan ≠ [] ∧ ∃ e d,
        d.journal = (s.store.put (Journal.line record) s.disk).journal ∧
          (append record >>= fun _ => compactIfWorthwhile) s =
            .error e ⟨d, { s.store with written := s.store.written + 1 }⟩) ∨
      (Durable s.disk.plan ∧ s.disk.plan ≠ [] ∧ ∃ e plan,
        (append record >>= fun _ => compactIfWorthwhile) s =
          .error e ⟨⟨some (compacted s.store.live), none, plan⟩,
            { s.store with attached := false, written := s.store.written + 1 }⟩) := by
  rcases append_cases record s with ⟨hd, happend⟩ | ⟨hd, e, plan, happend⟩
  swap
  · exact Or.inr (Or.inr (Or.inl ⟨hd, e, plan, bind_of_error happend⟩))
  rw [bind_of_ok happend]
  rcases compactIfWorthwhile_eq _ with hcompact | hcompact
  · exact Or.inl ⟨hd, _, fun h => by rw [h]; rfl, hcompact⟩
  rw [hcompact]
  by_cases hnil : s.disk.plan = []
  · refine Or.inr (Or.inl ⟨hd, [], fun _ => rfl, ?_⟩)
    rw [rewrite_of_nil (by rw [hnil]; rfl)]
  rcases rewrite_cases ⟨(s.store.put (Journal.line record) s.disk).withPlan s.disk.plan.tail.tail,
      { s.store with written := s.store.written + 1 }⟩ with
    ⟨e, d, hrewrite, hj⟩ | ⟨e, plan, hrewrite⟩ | ⟨plan, hrewrite⟩
  · exact Or.inr (Or.inr (Or.inr (Or.inl ⟨hd, hnil, e, d, hj, hrewrite⟩)))
  · exact Or.inr (Or.inr (Or.inr (Or.inr ⟨hd, hnil, e, plan, hrewrite⟩)))
  · exact Or.inr (Or.inl ⟨hd, plan, fun h => absurd h hnil, hrewrite⟩)

end FileStore

end OcppKit
