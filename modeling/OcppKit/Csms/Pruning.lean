import OcppKit.Csms.Dedup
import OcppKit.Library.Transitions

/-!
# Numbers that are given out

A transaction whose events have no sequence numbers gets them from the ledger, one after the
other, so none of them is ever missing – as long as the ledger remembers the transaction.
The record and the counter are kept in two tables, and `OcppKit.Ledger.pruneEndedBefore`
forgets the first and not the second: the next event of a transaction that was pruned is
filed in a fresh record under the number that was next, and everything below it is missing.

`OcppKit.unsequenced_noGaps_iff`: in a run nothing is missing from the transactions that are
fed without numbers exactly if no event comes for one of them that was pruned.
-/

namespace OcppKit

/-! ### Runs -/

/-- What is done with a ledger. -/
inductive LedgerCall where
  /-- An event is taken in under its own number. -/
  | ingest (event : TransactionEvent)
  /-- An event is taken in under the next number. -/
  | ingestUnsequenced (event : TransactionEvent)
  /-- What ended before the cutoff is forgotten. -/
  | pruneEndedBefore (cutoff : DateTime)
deriving DecidableEq

/-- One call. -/
def Ledger.call (ledger : Ledger) : LedgerCall → Option Ledger
  | .ingest event => some (ledger.ingest event).1
  | .ingestUnsequenced event => (ledger.ingestUnsequenced event).map Prod.fst
  | .pruneEndedBefore cutoff => some (ledger.pruneEndedBefore cutoff)

/-- The transaction only ever receives events without numbers. -/
def OnlyUnsequenced (key : Key) (calls : List LedgerCall) : Prop :=
  ∀ event, .ingest event ∈ calls → event.key ≠ key

/-- The call is not an event of the transaction that comes after its record was pruned: where
there is no record, no number has been given out. -/
def Remembered (key : Key) (ledger : Ledger) : LedgerCall → Prop
  | .ingestUnsequenced event =>
      event.key = key → ledger.records key = none → ledger.nextSeq key = none
  | _ => True

instance (key : Key) (ledger : Ledger) : (call : LedgerCall) →
    Decidable (Remembered key ledger call)
  | .ingest _ => isTrue trivial
  | .ingestUnsequenced event => inferInstanceAs (Decidable (event.key = key →
      ledger.records key = none → ledger.nextSeq key = none))
  | .pruneEndedBefore _ => isTrue trivial

/-- Nothing is missing from the transaction. -/
def Ledger.NoGaps (ledger : Ledger) (key : Key) : Prop :=
  ∀ record, ledger.records key = some record → record.missing = []

/-! ### The invariants -/

namespace Ledger

/-- The counter of the transaction has been used. -/
def CounterUsed (ledger : Ledger) (key : Key) : Prop :=
  ∀ next, ledger.nextSeq key = some next → 0 < next

/-- The record of the transaction has seen exactly the numbers that were given out. -/
def InStep (ledger : Ledger) (key : Key) : Prop :=
  ∀ record, ledger.records key = some record → record.Topped ∧ ∃ next,
    ledger.nextSeq key = some next ∧ ∀ n, n ∈ record.seen ↔ 0 ≤ n ∧ n < next

/-- Where the record has seen what was given out, nothing is missing. -/
theorem InStep.noGaps {ledger : Ledger} {key : Key} (h : ledger.InStep key) :
    ledger.NoGaps key := by
  intro record hrecord
  obtain ⟨htopped, next, -, hseen⟩ := h record hrecord
  exact htopped.missing_eq_nil hseen

/-- **An event without a number**: its mark is known, or it is filed under the number that is
next. -/
theorem ingestUnsequenced_own {ledger ledger' : Ledger} {event : TransactionEvent} {b : Ingested}
    (h : ledger.ingestUnsequenced event = some (ledger', b)) :
    (ledger.hasMark event.key event.mark = true ∧ ledger' = ledger) ∨
    ∃ record, ledger'.records event.key = some record ∧
      record.seen = insert ((ledger.nextSeq event.key).getD 0) (ledger.entry event).seen ∧
      ((ledger.entry event).Topped → record.Topped) ∧
      ledger'.nextSeq event.key = some ((ledger.nextSeq event.key).getD 0 + 1) := by
  rcases ingestUnsequenced_cases h with ⟨hmark, rfl, -⟩ | ⟨-, record, hrecord, rfl⟩
  · exact Or.inl ⟨hmark, rfl⟩
  refine Or.inr ⟨_, records_put_self _ _ _, ?_⟩
  by_cases hseen : (ledger.numbered event).seqNo ∈
      ((ledger.counted event).entry (ledger.numbered event)).seen
  · rw [ingest, if_pos hseen] at hrecord ⊢
    obtain rfl := Option.some.inj ((records_put_self _ _ _).symm.trans hrecord)
    exact ⟨(Finset.insert_eq_of_mem hseen).symm, id, Function.update_self ..⟩
  · rw [ingest_of_not_seen hseen] at hrecord ⊢
    obtain rfl := Option.some.inj ((records_put_self _ _ _).symm.trans hrecord)
    obtain ⟨hfiled, -⟩ := Record.file_frame (ledger.entry event) (ledger.numbered event)
    have htopped : (ledger.entry event).Topped →
        ((ledger.entry event).file (ledger.numbered event)).Topped := fun htopped =>
      htopped.file (ledger.numbered event)
    have hentry : (ledger.counted event).entry (ledger.numbered event) = ledger.entry event := rfl
    rw [hentry]
    generalize (ledger.entry event).file (ledger.numbered event) = filed at hfiled htopped ⊢
    exact ⟨hfiled, htopped, Function.update_self ..⟩

/-- **What a call does to a transaction that has no numbers of its own**: nothing, or its
record is forgotten, or an event of it is filed. -/
theorem call_cases {ledger ledger' : Ledger} {call : LedgerCall} {key : Key}
    (honly : ∀ event, call = .ingest event → event.key ≠ key)
    (h : ledger.call call = some ledger') :
    (ledger'.records key = ledger.records key ∧ ledger'.nextSeq key = ledger.nextSeq key) ∨
    (ledger'.records key = none ∧ ledger'.nextSeq key = ledger.nextSeq key) ∨
    ∃ event, call = .ingestUnsequenced event ∧ event.key = key ∧ ∃ record,
      ledger'.records key = some record ∧
      record.seen = insert ((ledger.nextSeq key).getD 0) (ledger.entry event).seen ∧
      ((ledger.entry event).Topped → record.Topped) ∧
      ledger'.nextSeq key = some ((ledger.nextSeq key).getD 0 + 1) := by
  cases call with
  | ingest event =>
      obtain rfl := Option.some.inj h
      exact Or.inl (ingest_frame ledger event (honly event rfl).symm)
  | ingestUnsequenced event =>
      obtain ⟨⟨ledger₁, b⟩, hstep, rfl⟩ := Option.map_eq_some_iff.mp h
      by_cases hkey : event.key = key
      · subst hkey
        rcases ingestUnsequenced_own hstep with ⟨-, rfl⟩ | hfiled
        · exact Or.inl ⟨rfl, rfl⟩
        · exact Or.inr (Or.inr ⟨event, rfl, rfl, hfiled⟩)
      · have hdeliver : ledger.deliver ⟨.unsequenced, event⟩ = some (ledger₁, b) := hstep
        exact Or.inl (deliver_frame hdeliver (Ne.symm hkey))
  | pruneEndedBefore cutoff =>
      obtain rfl := Option.some.inj h
      rcases hrecord : ledger.records key with _ | record
      · exact Or.inr (Or.inl ⟨by simp [pruneEndedBefore, hrecord], rfl⟩)
      · rcases hkept : record.endedAt.all fun ended => cutoff.nanos ≤ ended.nanos with _ | _
        · exact Or.inr (Or.inl ⟨by simp [pruneEndedBefore, hrecord, hkept], rfl⟩)
        · exact Or.inl ⟨by simp [pruneEndedBefore, hrecord, hkept], rfl⟩

/-- A counter that has been used stays so. -/
theorem CounterUsed.call {ledger ledger' : Ledger} {call : LedgerCall} {key : Key}
    (hused : ledger.CounterUsed key) (honly : ∀ event, call = .ingest event → event.key ≠ key)
    (h : ledger.call call = some ledger') : ledger'.CounterUsed key := by
  intro next hnext
  rcases call_cases honly h with ⟨-, hsame⟩ | ⟨-, hsame⟩ | ⟨-, -, -, -, -, -, -, hfiled⟩
  · exact hused next (hsame ▸ hnext)
  · exact hused next (hsame ▸ hnext)
  · obtain rfl := Option.some.inj (hfiled.symm.trans hnext)
    rcases hbefore : ledger.nextSeq key with _ | before
    · exact Int.zero_lt_one
    · have hpos := hused before hbefore
      rw [Option.getD_some]
      omega

/-- **A call that does not come too late keeps record and counter in step.** -/
theorem InStep.call {ledger ledger' : Ledger} {call : LedgerCall} {key : Key}
    (hinstep : ledger.InStep key) (hused : ledger.CounterUsed key)
    (honly : ∀ event, call = .ingest event → event.key ≠ key)
    (hremembered : Remembered key ledger call) (h : ledger.call call = some ledger') :
    ledger'.InStep key := by
  intro record hrecord
  rcases call_cases honly h with ⟨hsame, hnext⟩ | ⟨hnone, -⟩ |
    ⟨event, rfl, rfl, record', hrecord', hseen, htopped, hnext⟩
  · rw [hnext]
    exact hinstep record (hsame ▸ hrecord)
  · exact absurd (hnone.symm.trans hrecord) (by simp)
  · obtain rfl := Option.some.inj (hrecord'.symm.trans hrecord)
    -- the numbers seen before are those below the counter, also when there is no record yet
    have hbefore : (ledger.entry event).Topped ∧ 0 ≤ (ledger.nextSeq event.key).getD 0 ∧
        ∀ n, n ∈ (ledger.entry event).seen ↔ 0 ≤ n ∧ n < (ledger.nextSeq event.key).getD 0 := by
      rw [entry]
      rcases hold : ledger.records event.key with _ | old
      · rw [hremembered rfl hold]
        refine ⟨Record.Topped.fresh _ _, le_rfl, fun n => ?_⟩
        simp only [Option.getD_none, Record.fresh, Finset.notMem_empty, false_iff]
        omega
      · obtain ⟨htop, next, hcount, hall⟩ := hinstep old hold
        rw [hcount]
        exact ⟨htop, (hused next hcount).le, hall⟩
    obtain ⟨htop, hpos, hall⟩ := hbefore
    refine ⟨htopped htop, _, hnext, fun n => ?_⟩
    rw [hseen, Finset.mem_insert, hall]
    omega

/-- **A call that comes too late leaves a gap.** -/
theorem not_noGaps_of_late {ledger ledger' : Ledger} {call : LedgerCall} {key : Key}
    (hused : ledger.CounterUsed key) (hlate : ¬Remembered key ledger call)
    (h : ledger.call call = some ledger') : ¬ledger'.NoGaps key := by
  cases call with
  | ingest event => exact absurd trivial hlate
  | pruneEndedBefore cutoff => exact absurd trivial hlate
  | ingestUnsequenced event =>
      obtain ⟨rfl, hnone, hcount⟩ : event.key = key ∧ ledger.records key = none ∧
          ledger.nextSeq key ≠ none := by simpa [Remembered] using hlate
      obtain ⟨next, hnext⟩ := Option.ne_none_iff_exists'.mp hcount
      obtain ⟨⟨ledger₁, b⟩, hstep, rfl⟩ := Option.map_eq_some_iff.mp h
      rcases ingestUnsequenced_own hstep with ⟨hmark, -⟩ | ⟨record, hrecord, hseen, htop, -⟩
      · obtain ⟨record, hrecord, -⟩ := hasMark_iff.mp hmark
        exact absurd (hnone.symm.trans hrecord) (by simp)
      · intro hgaps
        have hfresh : ledger.entry event = .fresh event.identity event.transactionId := by
          rw [entry, hnone, Option.getD_none]
        rw [hfresh] at hseen htop
        rw [hnext, Option.getD_some] at hseen
        -- the number is the only one that was seen, and zero lies below it
        have hpos := hused next hnext
        have hmissing : (0 : ℤ) ∈ record.missing := by
          refine (htop (Record.Topped.fresh _ _)).mem_missing.mpr ⟨le_rfl, ⟨next, ?_, hpos.le⟩, ?_⟩
          · rw [hseen]
            exact Finset.mem_insert_self _ _
          · rw [hseen, Finset.mem_insert]
            rintro (hzero | hzero)
            · omega
            · exact Finset.notMem_empty _ hzero
        rw [hgaps record hrecord] at hmissing
        exact absurd hmissing List.not_mem_nil

end Ledger

/-! ### Runs -/

/-- **When nothing is missing** from a transaction that is fed without numbers, in every state
a run goes through: exactly if none of its events comes after its record was pruned. -/
theorem unsequenced_noGaps_iff (calls : List LedgerCall) (key : Key)
    (honly : OnlyUnsequenced key calls) {last : Ledger}
    (hrun : Transitions.run Ledger.call Ledger.new calls = some last) :
    (∀ before after, calls = before ++ after → ∀ ledger,
      Transitions.run Ledger.call Ledger.new before = some ledger → ledger.NoGaps key) ↔
    Transitions.EachStep Ledger.call (Remembered key) Ledger.new calls := by
  have hnone : Ledger.new.CounterUsed key ∧ Ledger.new.InStep key :=
    ⟨fun _ h => absurd h (by simp [Ledger.new]), fun _ h => absurd h (by simp [Ledger.new])⟩
  have hother : Transitions.EachStep Ledger.call
      (fun _ call => ∀ event, call = .ingest event → event.key ≠ key) Ledger.new calls := by
    refine Transitions.eachStep_iff.mpr fun before call after hsplit _ _ event hcall => ?_
    exact honly event (hsplit ▸ List.mem_append_right _ (hcall ▸ List.mem_cons_self))
  -- a counter that is there has been used, in every state of the run
  have hused : ∀ before after, calls = before ++ after → ∀ ledger,
      Transitions.run Ledger.call Ledger.new before = some ledger → ledger.CounterUsed key := by
    rintro before after rfl ledger hledger
    exact Transitions.run_invariant (fun ledger => ledger.CounterUsed key)
      (fun _ _ _ hinv hφ hstep => hinv.call hφ hstep) hnone.1 hother.of_append hledger
  constructor
  · intro hgaps
    refine Transitions.eachStep_iff.mpr fun before call after hsplit ledger hledger => ?_
    by_contra hlate
    rw [hsplit, Transitions.run_append, hledger, Option.bind_some] at hrun
    obtain ⟨ledger', hcall, -⟩ := Transitions.run_cons.mp hrun
    refine Ledger.not_noGaps_of_late (hused before _ hsplit ledger hledger) hlate hcall ?_
    refine hgaps (before ++ [call]) after (by simp [hsplit]) ledger' ?_
    rw [Transitions.run_append, hledger, Option.bind_some]
    exact Transitions.run_cons.mpr ⟨ledger', hcall, rfl⟩
  · rintro hremembered before after rfl ledger hledger
    have hboth := hother.of_append.and hremembered.of_append
    have hinv := Transitions.run_invariant
      (fun ledger : Ledger => ledger.CounterUsed key ∧ ledger.InStep key)
      (fun _ _ _ hinv hφ hstep =>
        ⟨hinv.1.call hφ.1 hstep, hinv.2.call hinv.1 hφ.1 hφ.2 hstep⟩) hnone hboth hledger
    exact hinv.2.noGaps

end OcppKit

namespace OcppKit.Reference

/-! ### A 1.6 transaction -/

/-- An event of the transaction. -/
def eventOn (kind : EventKind) (nanos : ℤ) : LedgerCall :=
  .ingestUnsequenced { eventAt 0 kind none with timestamp := ⟨nanos⟩ }

/-- Its key. -/
def archivedKey : Key := (eventAt 0 .started none).key

/-- It starts, it is read, it ends, and later it is forgotten. -/
def archived : List LedgerCall :=
  [eventOn .started 0, eventOn .updated 30, eventOn .ended 60, .pruneEndedBefore ⟨86400⟩]

theorem onlyUnsequenced_of_all {calls : List LedgerCall} {key : Key}
    (h : calls.all (fun call => match call with | .ingest _ => false | _ => true) = true) :
    OnlyUnsequenced key calls :=
  fun _ hmem => absurd (List.all_eq_true.mp h _ hmem) (by simp)

/-- Nothing is missing from it when it ends. -/
theorem unsequenced_noGaps_iff_archived : ∃ ledger,
    Transitions.run Ledger.call Ledger.new (archived.take 3) = some ledger ∧
    (ledger.records archivedKey).isSome = true ∧ ledger.NoGaps archivedKey := by
  obtain ⟨last, hlast⟩ := Option.isSome_iff_exists.mp
    (show (Transitions.run Ledger.call Ledger.new archived).isSome = true by decide +kernel)
  have hgaps := (unsequenced_noGaps_iff archived archivedKey
    (onlyUnsequenced_of_all (by decide +kernel)) hlast).mpr (by decide +kernel)
  have hended : ((Transitions.run Ledger.call Ledger.new (archived.take 3)).map
    fun ledger => (ledger.records archivedKey).isSome) = some true := by decide +kernel
  obtain ⟨ledger, hledger, hsome⟩ := Option.map_eq_some_iff.mp hended
  exact ⟨ledger, hledger, hsome,
    hgaps (archived.take 3) [.pruneEndedBefore ⟨86400⟩] rfl ledger hledger⟩

/-- **A reading that arrives after that** is filed under number 3, and 0, 1 and 2 are
missing. -/
theorem late_gap : ¬∀ (calls : List LedgerCall) (key : Key), OnlyUnsequenced key calls →
    ∀ ledger, Transitions.run Ledger.call Ledger.new calls = some ledger → ledger.NoGaps key := by
  intro h
  have hmissing : ((Transitions.run Ledger.call Ledger.new
      (archived ++ [eventOn .updated 45])).bind fun ledger =>
        (ledger.records archivedKey).map Record.missing) = some [0, 1, 2] := by decide +kernel
  obtain ⟨ledger, hledger, hrecord⟩ := Option.bind_eq_some_iff.mp hmissing
  obtain ⟨record, hrecord, hthree⟩ := Option.map_eq_some_iff.mp hrecord
  have hgaps := h (archived ++ [eventOn .updated 45]) archivedKey
    (onlyUnsequenced_of_all (by decide +kernel)) ledger hledger record hrecord
  exact absurd (hgaps.symm.trans hthree) (by simp)

end OcppKit.Reference
