import OcppKit.Csms.Ledger
import OcppKit.Library.AtLeastOnce

/-!
# An event counts once

The ledger is a receiver that knows what it has taken (`AtLeastOnce.Idempotent`): an event
that comes again through the same entry point is answered as a duplicate and changes
nothing, at whatever time it comes and whatever has come in between. So a ledger is that of
the events without their repetitions.

What it lists is then counted over the first copies alone, as long as each transaction is fed
through one entry point: each of them adds its signed values once, and the numbers that are
missing are those that never came. `OcppKit.Filed` says how a transaction stands in the
ledger.
-/

namespace OcppKit

/-! ### Deliveries -/

/-- The two ways into the ledger. -/
inductive EntryPoint where
  /-- `ingest`. -/
  | sequenced
  /-- `ingest_unsequenced`. -/
  | unsequenced
deriving DecidableEq

/-- An event, and the way it is taken in. -/
structure Delivery where
  /-- The entry point. -/
  entry : EntryPoint
  /-- The event. -/
  event : TransactionEvent
deriving DecidableEq

/-- The kind and time of an event. -/
def TransactionEvent.mark (event : TransactionEvent) : EventKind × DateTime :=
  (event.kind, event.timestamp)

/-- Whether a delivery has what another is recognised by. -/
def Delivery.repeats (d d' : Delivery) : Bool :=
  d.entry = d'.entry && d.event.key = d'.event.key &&
    match d.entry with
    | .sequenced => decide (d.event.seqNo = d'.event.seqNo)
    | .unsequenced => decide (d.event.mark = d'.event.mark)

/-- One delivery. -/
def Ledger.deliver (ledger : Ledger) (d : Delivery) : Option (Ledger × Ingested) :=
  match d.entry with
  | .sequenced => some (ledger.ingest d.event)
  | .unsequenced => ledger.ingestUnsequenced d.event

/-- **The ledger after these deliveries**, if none of them panics. -/
def Ledger.after (deliveries : List Delivery) : Option Ledger :=
  AtLeastOnce.run Ledger.deliver Ledger.new deliveries

/-- The ledger knows the delivery. -/
def Ledger.Knows (ledger : Ledger) (d : Delivery) : Prop :=
  match d.entry with
  | .sequenced => ∃ record, ledger.records d.event.key = some record ∧
      d.event.seqNo ∈ record.seen
  | .unsequenced => ∃ record, ledger.records d.event.key = some record ∧
      d.event.mark ∈ record.unsequenced

/-! ### What filing an event leaves alone -/

namespace Record

theorem fileMeter_frame (record : Record) (event : TransactionEvent) (afterEnd : Bool) :
    ∃ start stop, record.fileMeter event afterEnd =
      { record with meterStartWh := start, meterStopWh := stop } := by
  rw [fileMeter]
  rcases event.meterWh with _ | wh
  · exact ⟨_, _, rfl⟩
  rcases event.kind with _ | _ | _
  · exact ⟨_, _, rfl⟩
  · dsimp only
    split <;> split <;> exact ⟨_, _, rfl⟩
  · exact ⟨_, _, rfl⟩

theorem fileKind_frame (record : Record) (event : TransactionEvent) :
    ∃ startedAt endedAt reason, record.fileKind event =
      { record with startedAt := startedAt, endedAt := endedAt, stoppedReason := reason } := by
  rw [fileKind]
  rcases event.kind with _ | _ | _ <;> exact ⟨_, _, _, rfl⟩

/-- The number is seen, the highest kept, the signed values listed; the marks stay. -/
theorem file_frame (record : Record) (event : TransactionEvent) :
    (record.file event).seen = insert event.seqNo record.seen ∧
    (record.file event).highest = max record.highest event.seqNo ∧
    (record.file event).signed = record.signed ++ event.signed ∧
    (record.file event).unsequenced = record.unsequenced := by
  obtain ⟨start, stop, hmeter⟩ := fileMeter_frame (record.fileEvent event) event
    record.endedAt.isSome
  obtain ⟨startedAt, endedAt, reason, hkind⟩ := fileKind_frame
    ((record.fileEvent event).fileMeter event record.endedAt.isSome) event
  rw [file, hkind, hmeter]
  exact ⟨rfl, rfl, rfl, rfl⟩

end Record

/-! ### The three steps of the ledger -/

namespace Ledger

theorem records_put (ledger : Ledger) (key key' : Key) (record : Record) :
    (ledger.put key record).records key' =
      if key' = key then some record else ledger.records key' :=
  Function.update_apply ..

@[simp] theorem records_put_self (ledger : Ledger) (key : Key) (record : Record) :
    (ledger.put key record).records key = some record := by
  rw [records_put, if_pos rfl]

/-- Putting back what stands there changes nothing. -/
theorem put_of_records {ledger : Ledger} {key : Key} {record : Record}
    (h : ledger.records key = some record) : ledger.put key record = ledger := by
  rw [put, ← h, Function.update_eq_self]

theorem entry_of_records {ledger : Ledger} {event : TransactionEvent} {record : Record}
    (h : ledger.records event.key = some record) : ledger.entry event = record := by
  rw [entry, h, Option.getD_some]

/-- A repeated number changes nothing. -/
theorem ingest_of_seen {ledger : Ledger} {event : TransactionEvent} {record : Record}
    (hrecord : ledger.records event.key = some record) (hseen : event.seqNo ∈ record.seen) :
    ledger.ingest event = (ledger, .duplicate) := by
  rw [ingest, entry_of_records hrecord, if_pos hseen, put_of_records hrecord]

/-- A new number is filed. -/
theorem ingest_of_not_seen {ledger : Ledger} {event : TransactionEvent}
    (h : event.seqNo ∉ (ledger.entry event).seen) :
    (ledger.ingest event).1 = ledger.put event.key ((ledger.entry event).file event) := by
  rw [ingest, if_neg h]

/-- It is no duplicate. -/
theorem ingest_ne_duplicate {ledger : Ledger} {event : TransactionEvent}
    (h : event.seqNo ∉ (ledger.entry event).seen) : (ledger.ingest event).2 ≠ .duplicate := by
  rw [ingest, if_neg h]
  dsimp only
  rw [Record.verdict]
  split
  · simp
  · split <;> simp

/-- Afterwards there is a record, and it has seen the number. -/
theorem records_ingest (ledger : Ledger) (event : TransactionEvent) :
    ∃ record, (ledger.ingest event).1.records event.key = some record ∧
      event.seqNo ∈ record.seen := by
  by_cases h : event.seqNo ∈ (ledger.entry event).seen
  · refine ⟨ledger.entry event, ?_, h⟩
    rw [ingest, if_pos h]
    exact records_put_self _ _ _
  · refine ⟨(ledger.entry event).file event, ?_, ?_⟩
    · rw [ingest_of_not_seen h]
      exact records_put_self _ _ _
    · rw [(Record.file_frame _ event).1]
      exact Finset.mem_insert_self _ _

/-- The event under the number that is given out. -/
def numbered (ledger : Ledger) (event : TransactionEvent) : TransactionEvent :=
  { event with seqNo := (ledger.nextSeq event.key).getD 0 }

/-- The ledger once the number is given out. -/
def counted (ledger : Ledger) (event : TransactionEvent) : Ledger :=
  let next := (ledger.nextSeq event.key).getD 0 + 1
  { ledger with nextSeq := Function.update ledger.nextSeq event.key (some next) }

theorem hasMark_iff {ledger : Ledger} {key : Key} {mark : EventKind × DateTime} :
    ledger.hasMark key mark = true ↔
      ∃ record, ledger.records key = some record ∧ mark ∈ record.unsequenced := by
  rw [hasMark]
  rcases ledger.records key with _ | record
  · simp
  · simp

/-- **What an event without a number does**: its mark is known, or it is taken in under the
next number and its mark is kept. -/
theorem ingestUnsequenced_cases {ledger ledger' : Ledger} {event : TransactionEvent}
    {b : Ingested} (h : ledger.ingestUnsequenced event = some (ledger', b)) :
    (ledger.hasMark event.key event.mark = true ∧ ledger' = ledger ∧ b = .duplicate) ∨
    (ledger.hasMark event.key event.mark = false ∧ ∃ record,
      ((ledger.counted event).ingest (ledger.numbered event)).1.records event.key = some record ∧
      ledger' = ((ledger.counted event).ingest (ledger.numbered event)).1.put event.key
        { record with unsequenced := insert event.mark record.unsequenced }) := by
  rw [ingestUnsequenced] at h
  dsimp only at h
  split at h
  · next hmark =>
      obtain ⟨rfl, rfl⟩ := Prod.mk.inj (Option.some.inj h)
      exact Or.inl ⟨hmark, rfl, rfl⟩
  · next hmark =>
      split at h
      · exact absurd h (by simp)
      · obtain ⟨rfl, -⟩ := Prod.mk.inj (Option.some.inj h)
        obtain ⟨record, hrecord, -⟩ := records_ingest (ledger.counted event)
          (ledger.numbered event)
        refine Or.inr ⟨Bool.eq_false_of_not_eq_true hmark, record, hrecord, ?_⟩
        change keepMark ((ledger.counted event).ingest (ledger.numbered event)).1 event.key
          event.mark = _
        rw [keepMark]
        have hrecord' : ((ledger.counted event).ingest (ledger.numbered event)).1.records
            event.key = some record := hrecord
        rw [hrecord']

/-- A new mark is taken in under the next number. -/
theorem ingestUnsequenced_of_not_last {ledger : Ledger} {event : TransactionEvent}
    (hmark : ledger.hasMark event.key event.mark = false)
    (hlast : (ledger.nextSeq event.key).getD 0 ≠ i32Max) :
    ledger.ingestUnsequenced event = some
      (((ledger.counted event).ingest (ledger.numbered event)).1.keepMark event.key event.mark,
        ((ledger.counted event).ingest (ledger.numbered event)).2) := by
  rw [ingestUnsequenced]
  exact (if_neg (Bool.eq_false_iff.mp hmark)).trans (if_neg hlast)

/-- Past the last number there is none. -/
theorem ingestUnsequenced_of_last {ledger : Ledger} {event : TransactionEvent}
    (hmark : ledger.hasMark event.key event.mark = false)
    (hlast : (ledger.nextSeq event.key).getD 0 = i32Max) :
    ledger.ingestUnsequenced event = none := by
  rw [ingestUnsequenced]
  exact (if_neg (Bool.eq_false_iff.mp hmark)).trans (if_pos hlast)

end Ledger

/-! ### The ledger only grows -/

/-- A record only grows. -/
structure Record.Grows (r r' : Record) : Prop where
  /-- No number is forgotten. -/
  seen : r.seen ⊆ r'.seen
  /-- No mark is forgotten. -/
  unsequenced : r.unsequenced ⊆ r'.unsequenced

theorem Record.Grows.refl (r : Record) : r.Grows r := ⟨Finset.Subset.rfl, Finset.Subset.rfl⟩

/-- Every record of the ledger stays, and only grows. -/
def Ledger.Grows (ledger ledger' : Ledger) : Prop :=
  ∀ key r, ledger.records key = some r → ∃ r', ledger'.records key = some r' ∧ r.Grows r'

theorem Ledger.Grows.refl (ledger : Ledger) : ledger.Grows ledger :=
  fun _ r h => ⟨r, h, Record.Grows.refl r⟩

theorem Ledger.Grows.trans {l l' l'' : Ledger} (h : l.Grows l') (h' : l'.Grows l'') :
    l.Grows l'' := by
  intro key r hr
  obtain ⟨r', hr', hseen, hmarks⟩ := h key r hr
  obtain ⟨r'', hr'', hseen', hmarks'⟩ := h' key r' hr'
  exact ⟨r'', hr'', hseen.trans hseen', hmarks.trans hmarks'⟩

theorem Ledger.grows_put {ledger : Ledger} {key : Key} {record : Record}
    (h : ∀ r, ledger.records key = some r → r.Grows record) :
    ledger.Grows (ledger.put key record) := by
  intro key' r hr
  rw [Ledger.records_put]
  split
  · next hkey =>
      subst hkey
      exact ⟨record, rfl, h r hr⟩
  · exact ⟨r, hr, Record.Grows.refl r⟩

theorem Ledger.grows_ingest (ledger : Ledger) (event : TransactionEvent) :
    ledger.Grows (ledger.ingest event).1 := by
  by_cases h : event.seqNo ∈ (ledger.entry event).seen
  · rw [Ledger.ingest, if_pos h]
    refine Ledger.grows_put fun r hr => ?_
    rw [Ledger.entry_of_records hr]
    exact Record.Grows.refl r
  · rw [Ledger.ingest_of_not_seen h]
    refine Ledger.grows_put fun r hr => ?_
    obtain ⟨hseen, -, -, hmarks⟩ := Record.file_frame r event
    rw [Ledger.entry_of_records hr]
    exact ⟨hseen ▸ Finset.subset_insert _ _, hmarks ▸ Finset.Subset.rfl⟩

theorem Ledger.grows_deliver {ledger ledger' : Ledger} {d : Delivery} {b : Ingested}
    (h : ledger.deliver d = some (ledger', b)) : ledger.Grows ledger' := by
  rw [Ledger.deliver] at h
  split at h
  · obtain ⟨rfl, -⟩ := Prod.mk.inj (Option.some.inj h)
    exact Ledger.grows_ingest ledger d.event
  · rcases Ledger.ingestUnsequenced_cases h with ⟨-, rfl, -⟩ | ⟨-, record, hrecord, rfl⟩
    · exact Ledger.Grows.refl _
    · have hcounted : ledger.Grows (ledger.counted d.event) := Ledger.Grows.refl ledger
      refine (hcounted.trans (Ledger.grows_ingest _ (ledger.numbered d.event))).trans ?_
      refine Ledger.grows_put fun r hr => ?_
      obtain rfl := Option.some.inj (hrecord.symm.trans hr)
      exact ⟨Finset.Subset.rfl, Finset.subset_insert _ _⟩

/-! ### It knows what it has taken -/

/-- **The ledger knows what it has taken**, and takes nothing twice. -/
theorem ledger_idempotent :
    AtLeastOnce.Idempotent Ledger.deliver Ledger.Knows Ingested.duplicate where
  learns := by
    intro ledger d ledger' b h
    rw [Ledger.deliver] at h
    rw [Ledger.Knows]
    split at h
    · obtain ⟨rfl, -⟩ := Prod.mk.inj (Option.some.inj h)
      exact Ledger.records_ingest ledger d.event
    · rcases Ledger.ingestUnsequenced_cases h with ⟨hmark, rfl, -⟩ | ⟨-, record, -, rfl⟩
      · exact Ledger.hasMark_iff.mp hmark
      · exact ⟨_, Ledger.records_put_self _ _ _, Finset.mem_insert_self _ _⟩
  keeps := by
    intro ledger d d' ledger' b hknown h
    have hgrows := Ledger.grows_deliver h
    rw [Ledger.Knows] at hknown ⊢
    split at hknown
    · obtain ⟨record, hrecord, hseen⟩ := hknown
      obtain ⟨record', hrecord', hmore⟩ := hgrows _ record hrecord
      exact ⟨record', hrecord', hmore.seen hseen⟩
    · obtain ⟨record, hrecord, hmark⟩ := hknown
      obtain ⟨record', hrecord', hmore⟩ := hgrows _ record hrecord
      exact ⟨record', hrecord', hmore.unsequenced hmark⟩
  absorbs := by
    intro ledger d hknown
    rw [Ledger.Knows] at hknown
    rw [Ledger.deliver]
    split at hknown
    · obtain ⟨record, hrecord, hseen⟩ := hknown
      exact congrArg some (Ledger.ingest_of_seen hrecord hseen)
    · have hmark := Ledger.hasMark_iff.mpr hknown
      rw [Ledger.ingestUnsequenced]
      exact if_pos hmark

/-- What is known has a record. -/
theorem Ledger.record_of_knows {ledger : Ledger} {d : Delivery} (h : ledger.Knows d) :
    ∃ record, ledger.records d.event.key = some record := by
  rw [Ledger.Knows] at h
  split at h
  · obtain ⟨record, hrecord, -⟩ := h
    exact ⟨record, hrecord⟩
  · obtain ⟨record, hrecord, -⟩ := h
    exact ⟨record, hrecord⟩

/-- What repeats an event that is known is known. -/
theorem Ledger.knows_of_repeats {ledger : Ledger} {d d' : Delivery} (h : d.repeats d' = true)
    (hknown : ledger.Knows d') : ledger.Knows d := by
  rw [Delivery.repeats, Bool.and_eq_true, Bool.and_eq_true, decide_eq_true_iff,
    decide_eq_true_iff] at h
  obtain ⟨⟨hentry, hkey⟩, hsame⟩ := h
  rw [Ledger.Knows, ← hentry, ← hkey] at hknown
  rw [Ledger.Knows]
  rcases hd : d.entry with _ | _
  · rw [hd] at hsame hknown
    have hseq : d.event.seqNo = d'.event.seqNo := decide_eq_true_iff.mp hsame
    rw [hseq]
    exact hknown
  · rw [hd] at hsame hknown
    have hmark : d.event.mark = d'.event.mark := decide_eq_true_iff.mp hsame
    rw [hmark]
    exact hknown

/-- **A ledger is that of the first copies**, whatever is left out, as long as it has what an
event that is kept is recognised by. -/
theorem after_firsts {rep : Delivery → Delivery → Bool}
    (hrep : ∀ d d', rep d d' = true → d.repeats d' = true) (deliveries : List Delivery) :
    Ledger.after (AtLeastOnce.firsts rep deliveries) = Ledger.after deliveries :=
  AtLeastOnce.run_firsts ledger_idempotent
    (fun h hknown => Ledger.knows_of_repeats (hrep _ _ h) hknown) Ledger.new deliveries

/-! ### How a transaction stands in the ledger -/

/-- Each transaction is fed through one entry point. -/
def OneEntry (deliveries : List Delivery) : Prop :=
  ∀ d ∈ deliveries, ∀ d' ∈ deliveries, d.event.key = d'.event.key → d.entry = d'.entry

/-- **How a transaction stands in the ledger** after the first copies of its events: it has
no record yet, or the events have their own numbers, or they are numbered by the ledger. -/
inductive Filed : List Delivery → Option Record → Option ℤ → Prop
  /-- No event has come. -/
  | absent : Filed [] none none
  /-- The events have their own numbers. -/
  | sequenced (l : List Delivery) (r : Record) : l ≠ [] → (∀ d ∈ l, d.entry = .sequenced) →
      (∀ n, n ∈ r.seen ↔ ∃ d ∈ l, d.event.seqNo = n) →
      r.signed = l.flatMap (fun d => d.event.signed) → Filed l (some r) none
  /-- The events are numbered by the ledger. -/
  | unsequenced (l : List Delivery) (r : Record) : l ≠ [] → (∀ d ∈ l, d.entry = .unsequenced) →
      (∀ n, n ∈ r.seen ↔ 0 ≤ n ∧ n < l.length) →
      (∀ mark, mark ∈ r.unsequenced ↔ ∃ d ∈ l, d.event.mark = mark) →
      r.signed = l.flatMap (fun d => d.event.signed) → Filed l (some r) (some l.length)

/-- What a transaction whose events have their own numbers stands at. -/
theorem Filed.entry_of_sequenced {l : List Delivery} {ledger : Ledger} {d : Delivery}
    (h : Filed l (ledger.records d.event.key) (ledger.nextSeq d.event.key))
    (hentry : d.entry = .sequenced) (hone : ∀ d' ∈ l, d'.entry = d.entry) :
    (∀ n, n ∈ (ledger.entry d.event).seen ↔ ∃ d' ∈ l, d'.event.seqNo = n) ∧
      (ledger.entry d.event).signed = l.flatMap (fun d => d.event.signed) ∧
      ledger.nextSeq d.event.key = none := by
  rw [Ledger.entry]
  generalize ledger.records d.event.key = record at h
  generalize ledger.nextSeq d.event.key = next at h
  cases h with
  | absent => simp [Record.fresh]
  | sequenced _ r _ _ hseen hsigned => exact ⟨hseen, hsigned, rfl⟩
  | unsequenced _ r hne hall _ _ _ =>
      obtain ⟨d', hd'⟩ := List.exists_mem_of_ne_nil l hne
      exact absurd ((hall d' hd').symm.trans ((hone d' hd').trans hentry)) (by simp)

/-- What a transaction whose events are numbered by the ledger stands at. -/
theorem Filed.entry_of_unsequenced {l : List Delivery} {ledger : Ledger} {d : Delivery}
    (h : Filed l (ledger.records d.event.key) (ledger.nextSeq d.event.key))
    (hentry : d.entry = .unsequenced) (hone : ∀ d' ∈ l, d'.entry = d.entry) :
    (∀ n, n ∈ (ledger.entry d.event).seen ↔ 0 ≤ n ∧ n < l.length) ∧
      (∀ mark, mark ∈ (ledger.entry d.event).unsequenced ↔ ∃ d' ∈ l, d'.event.mark = mark) ∧
      (ledger.entry d.event).signed = l.flatMap (fun d => d.event.signed) ∧
      (ledger.nextSeq d.event.key).getD 0 = l.length := by
  rw [Ledger.entry]
  generalize ledger.records d.event.key = record at h
  generalize ledger.nextSeq d.event.key = next at h
  cases h with
  | absent =>
      refine ⟨fun n => ?_, fun mark => ?_, rfl, rfl⟩
      · simp only [Option.getD_none, Record.fresh, List.length_nil, Finset.notMem_empty,
          false_iff]
        omega
      · simp [Record.fresh]
  | sequenced _ r hne hall _ _ =>
      obtain ⟨d', hd'⟩ := List.exists_mem_of_ne_nil l hne
      exact absurd ((hall d' hd').symm.trans ((hone d' hd').trans hentry)) (by simp)
  | unsequenced _ r _ _ hseen hmarks hsigned => exact ⟨hseen, hmarks, hsigned, rfl⟩

/-- A number of its own that is new has not been seen. -/
theorem Filed.seqNo_not_seen {l : List Delivery} {ledger : Ledger} {d : Delivery}
    (h : Filed l (ledger.records d.event.key) (ledger.nextSeq d.event.key))
    (hentry : d.entry = .sequenced) (hone : ∀ d' ∈ l, d'.entry = d.entry)
    (hnew : ∀ d' ∈ l, d'.event.seqNo ≠ d.event.seqNo) :
    d.event.seqNo ∉ (ledger.entry d.event).seen := by
  intro hmem
  obtain ⟨d', hd', hsame⟩ := ((h.entry_of_sequenced hentry hone).1 _).mp hmem
  exact hnew d' hd' hsame

/-- The number that is given out has not been seen. -/
theorem Filed.numbered_not_seen {l : List Delivery} {ledger : Ledger} {d : Delivery}
    (h : Filed l (ledger.records d.event.key) (ledger.nextSeq d.event.key))
    (hentry : d.entry = .unsequenced) (hone : ∀ d' ∈ l, d'.entry = d.entry) :
    (ledger.numbered d.event).seqNo ∉
      ((ledger.counted d.event).entry (ledger.numbered d.event)).seen := by
  obtain ⟨hseen, -, -, hnext⟩ := h.entry_of_unsequenced hentry hone
  have hnumber : (ledger.numbered d.event).seqNo = l.length := hnext
  rw [show (ledger.counted d.event).entry (ledger.numbered d.event) = ledger.entry d.event
    from rfl, hseen, hnumber]
  omega

/-- The mark of an event that is new is not kept. -/
theorem Filed.not_hasMark {l : List Delivery} {ledger : Ledger} {d : Delivery}
    (h : Filed l (ledger.records d.event.key) (ledger.nextSeq d.event.key))
    (hentry : d.entry = .unsequenced) (hone : ∀ d' ∈ l, d'.entry = d.entry)
    (hnew : ∀ d' ∈ l, d'.event.mark ≠ d.event.mark) :
    ledger.hasMark d.event.key d.event.mark = false := by
  refine Bool.eq_false_of_not_eq_true fun hmark => ?_
  obtain ⟨r, hr, hmem⟩ := Ledger.hasMark_iff.mp hmark
  rw [← Ledger.entry_of_records hr] at hmem
  obtain ⟨d', hd', hsame⟩ := ((h.entry_of_unsequenced hentry hone).2.1 _).mp hmem
  exact hnew d' hd' hsame

/-- One more that was fed in as the others were. -/
theorem entry_concat {l : List Delivery} {d : Delivery} {entry : EntryPoint}
    (hone : ∀ d' ∈ l, d'.entry = d.entry) (hentry : d.entry = entry) :
    ∀ d' ∈ l ++ [d], d'.entry = entry := by
  intro d' hd'
  rcases List.mem_append.mp hd' with hd' | hd'
  · exact (hone d' hd').trans hentry
  · rw [List.mem_singleton.mp hd']
    exact hentry

/-- A number of its own that is new is filed under it. -/
theorem Filed.ingest {l : List Delivery} {ledger : Ledger} {d : Delivery}
    (h : Filed l (ledger.records d.event.key) (ledger.nextSeq d.event.key))
    (hentry : d.entry = .sequenced) (hone : ∀ d' ∈ l, d'.entry = d.entry)
    (hnew : ∀ d' ∈ l, d'.event.seqNo ≠ d.event.seqNo) :
    Filed (l ++ [d]) ((ledger.ingest d.event).1.records d.event.key)
      ((ledger.ingest d.event).1.nextSeq d.event.key) := by
  obtain ⟨hseen, hsigned, hnext⟩ := h.entry_of_sequenced hentry hone
  have hnot := h.seqNo_not_seen hentry hone hnew
  obtain ⟨hseen', -, hsigned', -⟩ := Record.file_frame (ledger.entry d.event) d.event
  rw [Ledger.ingest_of_not_seen hnot, Ledger.records_put_self]
  change Filed _ _ (ledger.nextSeq d.event.key)
  rw [hnext]
  refine .sequenced _ _ (by simp) (entry_concat hone hentry) ?_ ?_
  · intro n
    rw [hseen', Finset.mem_insert, hseen]
    simp only [List.mem_append, List.mem_singleton, or_and_right, exists_or, exists_eq_left]
    rw [or_comm, eq_comm]
  · rw [hsigned', hsigned, List.flatMap_append, List.flatMap_singleton]

/-- An event that has no number and is new is filed under the next one. -/
theorem Filed.ingestUnsequenced {l : List Delivery} {ledger ledger' : Ledger} {d : Delivery}
    {b : Ingested} (h : Filed l (ledger.records d.event.key) (ledger.nextSeq d.event.key))
    (hentry : d.entry = .unsequenced) (hone : ∀ d' ∈ l, d'.entry = d.entry)
    (hnew : ∀ d' ∈ l, d'.event.mark ≠ d.event.mark)
    (hstep : ledger.ingestUnsequenced d.event = some (ledger', b)) :
    Filed (l ++ [d]) (ledger'.records d.event.key) (ledger'.nextSeq d.event.key) := by
  obtain ⟨hseen, hmarks, hsigned, hnext⟩ := h.entry_of_unsequenced hentry hone
  rcases Ledger.ingestUnsequenced_cases hstep with ⟨hmark, -, -⟩ | ⟨-, record, hrecord, rfl⟩
  · -- the mark would be that of an event that was taken before
    exact absurd hmark (by simp [h.not_hasMark hentry hone hnew])
  · have hentry' : (ledger.counted d.event).entry (ledger.numbered d.event) =
        ledger.entry d.event := rfl
    have hnot := h.numbered_not_seen hentry hone
    rw [Ledger.ingest_of_not_seen hnot, hentry'] at hrecord ⊢
    obtain rfl := Option.some.inj ((Ledger.records_put_self _ _ _).symm.trans hrecord)
    obtain ⟨hseen', -, hsigned', hmarks'⟩ := Record.file_frame (ledger.entry d.event)
      (ledger.numbered d.event)
    rw [Ledger.records_put_self]
    have hlength : (l.length : ℤ) + 1 = ((l ++ [d]).length : ℕ) := by
      rw [List.length_append]
      rfl
    change Filed _ (some _) (Function.update ledger.nextSeq d.event.key _ d.event.key)
    rw [Function.update_self, hnext, hlength]
    refine .unsequenced _ _ (by simp) (entry_concat hone hentry) ?_ ?_ ?_
    · intro n
      change n ∈ ((ledger.entry d.event).file (ledger.numbered d.event)).seen ↔ _
      rw [hseen', Finset.mem_insert, hseen, List.length_append, List.length_singleton]
      have hnumber : (ledger.numbered d.event).seqNo = l.length := hnext
      rw [hnumber]
      push_cast
      omega
    · intro mark
      rw [Finset.mem_insert, hmarks', hmarks]
      simp only [List.mem_append, List.mem_singleton, or_and_right, exists_or,
        exists_eq_left]
      rw [or_comm, eq_comm]
    · change ((ledger.entry d.event).file (ledger.numbered d.event)).signed = _
      rw [hsigned', hsigned, List.flatMap_append, List.flatMap_singleton]
      rfl

/-- **A first copy is not answered as a duplicate.** It is taken in, unless the numbers of its
transaction are used up. -/
theorem Filed.deliver_new {l : List Delivery} {ledger : Ledger} {d : Delivery}
    (h : Filed l (ledger.records d.event.key) (ledger.nextSeq d.event.key))
    (hone : ∀ d' ∈ l, d'.entry = d.entry)
    (hseq : d.entry = .sequenced → ∀ d' ∈ l, d'.event.seqNo ≠ d.event.seqNo)
    (hmark : d.entry = .unsequenced → ∀ d' ∈ l, d'.event.mark ≠ d.event.mark) :
    (∃ ledger' answer, ledger.deliver d = some (ledger', answer) ∧ answer ≠ .duplicate) ∨
      d.entry = .unsequenced ∧ (l.length : ℤ) = Ledger.i32Max ∧ ledger.deliver d = none := by
  rw [Ledger.deliver]
  rcases hentry : d.entry with _ | _
  · refine Or.inl ⟨_, _, rfl, ?_⟩
    exact Ledger.ingest_ne_duplicate (h.seqNo_not_seen hentry hone (hseq hentry))
  · have hknown := h.not_hasMark hentry hone (hmark hentry)
    obtain ⟨-, -, -, hnext⟩ := h.entry_of_unsequenced hentry hone
    by_cases hlast : (ledger.nextSeq d.event.key).getD 0 = Ledger.i32Max
    · exact Or.inr ⟨rfl, hnext.symm.trans hlast, Ledger.ingestUnsequenced_of_last hknown hlast⟩
    · refine Or.inl ⟨_, _, Ledger.ingestUnsequenced_of_not_last hknown hlast, ?_⟩
      exact Ledger.ingest_ne_duplicate (h.numbered_not_seen hentry hone)

theorem OneEntry.of_append {l l' : List Delivery} (h : OneEntry (l ++ l')) : OneEntry l :=
  fun d hd d' hd' => h d (List.mem_append_left _ hd) d' (List.mem_append_left _ hd')

theorem Ledger.ingest_frame (ledger : Ledger) (event : TransactionEvent) {key : Key}
    (h : key ≠ event.key) : (ledger.ingest event).1.records key = ledger.records key ∧
      (ledger.ingest event).1.nextSeq key = ledger.nextSeq key := by
  rw [Ledger.ingest]
  split
  · exact ⟨(Ledger.records_put _ _ _ _).trans (if_neg h), rfl⟩
  · exact ⟨(Ledger.records_put _ _ _ _).trans (if_neg h), rfl⟩

/-- An event of one transaction leaves the others alone. -/
theorem Ledger.deliver_frame {ledger ledger' : Ledger} {d : Delivery} {b : Ingested}
    (hstep : ledger.deliver d = some (ledger', b)) {key : Key} (h : key ≠ d.event.key) :
    ledger'.records key = ledger.records key ∧ ledger'.nextSeq key = ledger.nextSeq key := by
  rw [Ledger.deliver] at hstep
  split at hstep
  · obtain ⟨rfl, -⟩ := Prod.mk.inj (Option.some.inj hstep)
    exact Ledger.ingest_frame ledger d.event h
  · rcases Ledger.ingestUnsequenced_cases hstep with ⟨-, rfl, -⟩ | ⟨-, record, -, rfl⟩
    · exact ⟨rfl, rfl⟩
    · obtain ⟨hrecords, hnext⟩ := Ledger.ingest_frame (ledger.counted d.event)
        (ledger.numbered d.event) h
      constructor
      · rw [Ledger.records_put, if_neg h]
        exact hrecords
      · exact hnext.trans (Function.update_of_ne h _ _)

/-- What repeats none of the copies that are kept has another number than those of its
transaction, or another mark. -/
theorem new_of_not_repeats {deliveries : List Delivery} {d : Delivery}
    (hone : OneEntry (deliveries ++ [d]))
    (hnew : ∀ d' ∈ AtLeastOnce.firsts Delivery.repeats deliveries, d.repeats d' = false) :
    ∀ d' ∈ (AtLeastOnce.firsts Delivery.repeats deliveries).filter
        (fun d' => d'.event.key = d.event.key),
      d'.entry = d.entry ∧ (d.entry = .sequenced → d'.event.seqNo ≠ d.event.seqNo) ∧
        (d.entry = .unsequenced → d'.event.mark ≠ d.event.mark) := by
  intro d' hd'
  obtain ⟨hmem, hkey⟩ := List.mem_filter.mp hd'
  have hkey := decide_eq_true_iff.mp hkey
  have hl := List.mem_append_left [d] (AtLeastOnce.mem_of_mem_firsts hmem)
  have hentry' := hone d' hl d List.mem_concat_self hkey
  refine ⟨hentry', fun hentry hseq => ?_, fun hentry hmark => ?_⟩
  · exact absurd (hnew d' hmem) (by simp [Delivery.repeats, hentry', hentry, hkey, hseq])
  · exact absurd (hnew d' hmem) (by simp [Delivery.repeats, hentry', hentry, hkey, hmark])

/-- **How a transaction stands in the ledger.** -/
theorem filed_after {deliveries : List Delivery} {ledger : Ledger}
    (h : Ledger.after deliveries = some ledger) (hone : OneEntry deliveries) (key : Key) :
    Filed ((AtLeastOnce.firsts Delivery.repeats deliveries).filter fun d => d.event.key = key)
      (ledger.records key) (ledger.nextSeq key) := by
  let P (deliveries : List Delivery) (ledger : Ledger) : Prop := OneEntry deliveries →
    Filed ((AtLeastOnce.firsts Delivery.repeats deliveries).filter fun d => d.event.key = key)
      (ledger.records key) (ledger.nextSeq key)
  suffices hall : P deliveries ledger from hall hone
  refine AtLeastOnce.run_induction (P := P) ?_ ?_ h
  · exact fun _ => Filed.absent
  intro l d ledger ledger' b hrun ih hstep hone
  have hold := ih hone.of_append
  rw [AtLeastOnce.firsts_concat]
  split
  · next hany =>
      -- a repetition: nothing changes
      obtain ⟨d', hd', hrep⟩ := List.any_eq_true.mp hany
      have hknown := ledger_idempotent.known_of_run hrun d' (AtLeastOnce.mem_of_mem_firsts hd')
      have habsorbed := ledger_idempotent.absorbs (Ledger.knows_of_repeats hrep hknown)
      obtain ⟨rfl, -⟩ := Prod.mk.inj (Option.some.inj (habsorbed.symm.trans hstep))
      exact hold
  · next hany =>
      have hnew : ∀ d' ∈ AtLeastOnce.firsts Delivery.repeats l, d.repeats d' = false := by
        intro d' hd'
        exact Bool.eq_false_of_not_eq_true fun hrep => hany (List.any_eq_true.mpr ⟨d', hd', hrep⟩)
      rw [List.filter_append]
      by_cases hkey : d.event.key = key
      · subst hkey
        rw [show [d].filter (fun d' => d'.event.key = d.event.key) = [d] by simp]
        have hsame := new_of_not_repeats hone hnew
        rw [Ledger.deliver] at hstep
        split at hstep
        · next hentry =>
            obtain ⟨rfl, -⟩ := Prod.mk.inj (Option.some.inj hstep)
            exact hold.ingest hentry (fun d' hd' => (hsame d' hd').1)
              fun d' hd' => (hsame d' hd').2.1 hentry
        · next hentry =>
            exact hold.ingestUnsequenced hentry (fun d' hd' => (hsame d' hd').1)
              (fun d' hd' => (hsame d' hd').2.2 hentry) hstep
      · rw [show [d].filter (fun d' => d'.event.key = key) = [] by simp [hkey], List.append_nil]
        obtain ⟨hrecords, hnext⟩ := Ledger.deliver_frame hstep (Ne.symm hkey)
        rw [hrecords, hnext]
        exact hold

/-! ### What is missing -/

namespace Record

theorem mem_missing {record : Record} {n : ℤ} :
    n ∈ record.missing ↔ 0 ≤ n ∧ n ≤ record.highest ∧ n ∉ record.seen := by
  rw [missing, List.mem_filter, decide_eq_true_iff, List.mem_map]
  constructor
  · rintro ⟨⟨m, hm, rfl⟩, hn⟩
    rw [List.mem_range] at hm
    have hle : (m : ℤ) ≤ record.highest := by omega
    exact ⟨Int.natCast_nonneg m, hle, hn⟩
  · rintro ⟨hpos, hle, hn⟩
    refine ⟨⟨n.toNat, ?_, Int.toNat_of_nonneg hpos⟩, hn⟩
    rw [List.mem_range]
    omega

/-- The highest number is the greatest that was seen, or -1. -/
def Topped (record : Record) : Prop :=
  (∀ n ∈ record.seen, n ≤ record.highest) ∧ (record.highest = -1 ∨ record.highest ∈ record.seen)

/-- What is missing lies below a number that was seen. -/
theorem Topped.mem_missing {record : Record} (h : record.Topped) {n : ℤ} :
    n ∈ record.missing ↔ 0 ≤ n ∧ (∃ m ∈ record.seen, n ≤ m) ∧ n ∉ record.seen := by
  rw [Record.mem_missing]
  refine and_congr_right fun hpos => and_congr_left fun _ => ⟨fun hle => ?_, ?_⟩
  · rcases h.2 with hnone | htop
    · omega
    · exact ⟨_, htop, hle⟩
  · rintro ⟨m, hm, hle⟩
    exact hle.trans (h.1 m hm)

/-- Nothing is missing from a record that has seen the numbers up to some point. -/
theorem Topped.missing_eq_nil {record : Record} (h : record.Topped) {next : ℤ}
    (hseen : ∀ n, n ∈ record.seen ↔ 0 ≤ n ∧ n < next) : record.missing = [] := by
  refine List.eq_nil_iff_forall_not_mem.mpr fun n hn => ?_
  obtain ⟨hpos, ⟨m, hm, hle⟩, hnot⟩ := h.mem_missing.mp hn
  exact hnot ((hseen n).mpr ⟨hpos, hle.trans_lt ((hseen m).mp hm).2⟩)

theorem Topped.fresh (identity : Identity) (transactionId : String) :
    (Record.fresh identity transactionId).Topped :=
  ⟨fun _ h => absurd h (Finset.notMem_empty _), Or.inl rfl⟩

theorem Topped.file {record : Record} (h : record.Topped) (event : TransactionEvent) :
    (record.file event).Topped := by
  obtain ⟨hseen, hhighest, -, -⟩ := file_frame record event
  rw [Topped, hseen, hhighest]
  constructor
  · intro n hn
    rcases Finset.mem_insert.mp hn with rfl | hn
    · exact le_max_right _ _
    · exact le_max_of_le_left (h.1 n hn)
  · rcases le_total record.highest event.seqNo with hle | hle
    · rw [max_eq_right hle]
      exact Or.inr (Finset.mem_insert_self _ _)
    · rw [max_eq_left hle]
      exact h.2.imp_right Finset.mem_insert_of_mem

end Record

namespace Ledger

/-- Every record knows its highest number. -/
def Topped (ledger : Ledger) : Prop :=
  ∀ key record, ledger.records key = some record → record.Topped

theorem Topped.put {ledger : Ledger} (h : ledger.Topped) {record : Record} (hr : record.Topped)
    (key : Key) : (ledger.put key record).Topped := by
  intro key' r hput
  rw [records_put] at hput
  split at hput
  · obtain rfl := Option.some.inj hput
    exact hr
  · exact h key' r hput

theorem Topped.ingest {ledger : Ledger} (h : ledger.Topped) (event : TransactionEvent) :
    (ledger.ingest event).1.Topped := by
  have hentry : (ledger.entry event).Topped := by
    rw [entry]
    rcases hr : ledger.records event.key with _ | record
    · exact Record.Topped.fresh _ _
    · exact h _ record hr
  rw [Ledger.ingest]
  split
  · exact h.put hentry _
  · exact h.put (hentry.file event) _

theorem Topped.deliver {ledger ledger' : Ledger} (h : ledger.Topped) {d : Delivery}
    {b : Ingested} (hstep : ledger.deliver d = some (ledger', b)) : ledger'.Topped := by
  rw [Ledger.deliver] at hstep
  split at hstep
  · obtain ⟨rfl, -⟩ := Prod.mk.inj (Option.some.inj hstep)
    exact h.ingest d.event
  · rcases ingestUnsequenced_cases hstep with ⟨-, rfl, -⟩ | ⟨-, record, hrecord, rfl⟩
    · exact h
    · have hcounted : (ledger.counted d.event).Topped := h
      have hingested := hcounted.ingest (ledger.numbered d.event)
      have hrecord' : Record.Topped { record with
          unsequenced := insert d.event.mark record.unsequenced } := hingested _ record hrecord
      exact hingested.put hrecord' _

theorem topped_after {deliveries : List Delivery} {ledger : Ledger}
    (h : Ledger.after deliveries = some ledger) : ledger.Topped := by
  refine AtLeastOnce.run_induction (P := fun _ ledger => ledger.Topped) ?_ ?_ h
  · exact fun _ _ hnone => absurd hnone (by simp [Ledger.new])
  · exact fun _ _ _ _ _ _ ih hstep => ih.deliver hstep

end Ledger

/-- **The numbers events were taken in under**: their own, or their places. -/
def ingestedNumbers (l : List Delivery) : List ℤ :=
  l.mapIdx fun place d =>
    match d.entry with
    | .sequenced => d.event.seqNo
    | .unsequenced => place

/-- A record has seen the numbers its events were taken in under. -/
theorem Filed.mem_seen {l : List Delivery} {r : Record} {next : Option ℤ}
    (h : Filed l (some r) next) (n : ℤ) : n ∈ r.seen ↔ n ∈ ingestedNumbers l := by
  rw [ingestedNumbers, List.mem_mapIdx]
  cases h with
  | sequenced _ _ _ hall hseen _ =>
      rw [hseen]
      constructor
      · rintro ⟨d, hd, rfl⟩
        obtain ⟨place, hplace, rfl⟩ := List.mem_iff_getElem.mp hd
        exact ⟨place, hplace, by rw [hall _ hd]⟩
      · rintro ⟨place, hplace, rfl⟩
        have hd := List.getElem_mem hplace
        exact ⟨l[place], hd, by rw [hall _ hd]⟩
  | unsequenced _ _ _ hall hseen _ _ =>
      rw [hseen]
      constructor
      · rintro ⟨hpos, hlt⟩
        have hplace : n.toNat < l.length := by omega
        refine ⟨n.toNat, hplace, ?_⟩
        rw [hall _ (List.getElem_mem hplace)]
        exact Int.toNat_of_nonneg hpos
      · rintro ⟨place, hplace, rfl⟩
        rw [hall _ (List.getElem_mem hplace)]
        exact ⟨Int.natCast_nonneg place, Int.ofNat_lt.mpr hplace⟩

/-- A record lists the signed values of its events. -/
theorem Filed.signed {l : List Delivery} {r : Record} {next : Option ℤ}
    (h : Filed l (some r) next) : r.signed = l.flatMap fun d => d.event.signed := by
  cases h with
  | sequenced _ _ _ _ _ hsigned => exact hsigned
  | unsequenced _ _ _ _ _ _ hsigned => exact hsigned

/-- **An event counts once.** After any deliveries, each event has a record, and one that
comes again through the same entry point is a duplicate and changes nothing; the ledger is
that of the deliveries without their repetitions. Where each transaction is fed through one
entry point, an event that comes for the first time is not answered as a duplicate, unless
the numbers of its transaction are used up; and a record lists the signed values of the first
copies of its events, each once and in order, and is missing exactly the numbers up to the
highest under which none was taken in. -/
theorem event_countsOnce (deliveries : List Delivery) :
    (∀ ledger, Ledger.after deliveries = some ledger → ∀ d ∈ deliveries,
      (∃ record, ledger.records d.event.key = some record) ∧
        ledger.deliver d = some (ledger, .duplicate)) ∧
    Ledger.after (AtLeastOnce.firsts (fun d d' => d = d') deliveries) =
      Ledger.after deliveries ∧
    (∀ d, OneEntry (deliveries ++ [d]) → (∀ d' ∈ deliveries, d.repeats d' = false) →
      ∀ ledger, Ledger.after deliveries = some ledger →
        let copies := (AtLeastOnce.firsts Delivery.repeats deliveries).filter fun d' =>
          d'.event.key = d.event.key
        (∃ ledger' answer, ledger.deliver d = some (ledger', answer) ∧ answer ≠ .duplicate) ∨
        d.entry = .unsequenced ∧ (copies.length : ℤ) = Ledger.i32Max ∧
          ledger.deliver d = none) ∧
    (OneEntry deliveries → ∀ ledger, Ledger.after deliveries = some ledger →
      ∀ key record, ledger.records key = some record →
        let copies := (AtLeastOnce.firsts Delivery.repeats deliveries).filter fun d =>
          d.event.key = key
        record.signed = copies.flatMap (fun d => d.event.signed) ∧
        ∀ n, n ∈ record.missing ↔ 0 ≤ n ∧ (∃ m ∈ ingestedNumbers copies, n ≤ m) ∧
          n ∉ ingestedNumbers copies) := by
  refine ⟨fun ledger h d hd => ?_, after_firsts (fun d d' h => ?_) deliveries,
    fun d hone hnew ledger h => ?_, fun hone ledger h key record hrecord => ?_⟩
  · have hknown := ledger_idempotent.known_of_run h d hd
    exact ⟨Ledger.record_of_knows hknown, ledger_idempotent.absorbs hknown⟩
  · obtain rfl := decide_eq_true_iff.mp h
    rw [Delivery.repeats]
    rcases d.entry with _ | _ <;> simp
  · -- what is filed are the first copies, and among them it has none
    have hsame := new_of_not_repeats hone fun d' hd' =>
      hnew d' (AtLeastOnce.mem_of_mem_firsts hd')
    exact (filed_after h hone.of_append d.event.key).deliver_new (fun d' hd' => (hsame d' hd').1)
      (fun hentry d' hd' => (hsame d' hd').2.1 hentry)
      fun hentry d' hd' => (hsame d' hd').2.2 hentry
  · have hfiled := filed_after h hone key
    rw [hrecord] at hfiled
    refine ⟨hfiled.signed, fun n => ?_⟩
    rw [(Ledger.topped_after h key record hrecord).mem_missing]
    simp only [hfiled.mem_seen]

end OcppKit

namespace OcppKit.Reference

/-! ### A station that retries -/

/-- An event of the one transaction of the one station. -/
def eventAt (seqNo : ℤ) (kind : EventKind) (meterWh : Option Decimal) : TransactionEvent where
  identity := ⟨"CS-0001"⟩
  transactionId := "tx-1"
  seqNo := seqNo
  kind := kind
  timestamp := ⟨seqNo⟩
  meterWh := meterWh

/-- A signed value. -/
def beginReading : SignedReading := ⟨⟨"OCMF|begin", none, none, none⟩, none, none⟩

/-- The start carries a signed value and comes twice, around an event that leaves a gap. -/
def retried : List Delivery :=
  let start := { eventAt 0 .started none with signed := [beginReading] }
  [⟨.sequenced, start⟩, ⟨.sequenced, eventAt 2 .updated none⟩, ⟨.sequenced, start⟩]

theorem event_countsOnce_retried : ∃ ledger, Ledger.after retried = some ledger ∧
    (∀ d ∈ retried, ledger.deliver d = some (ledger, .duplicate)) ∧
    Ledger.after (AtLeastOnce.firsts (fun d d' => d = d') retried) = some ledger ∧
    (∃ ledger' answer, ledger.deliver ⟨.sequenced, eventAt 1 .updated none⟩ =
      some (ledger', answer) ∧ answer ≠ .duplicate) ∧
    ∃ record, ledger.records (⟨"CS-0001"⟩, "tx-1") = some record ∧
      record.signed = [beginReading] ∧ 1 ∈ record.missing := by
  obtain ⟨ledger, hledger⟩ := Option.isSome_iff_exists.mp
    (show (Ledger.after retried).isSome = true by decide +kernel)
  obtain ⟨hknown, hfirsts, hnew, hcounts⟩ := event_countsOnce retried
  obtain ⟨record, hrecord⟩ := (hknown ledger hledger _ List.mem_cons_self).1
  have hone : OneEntry (retried ++ [⟨.sequenced, eventAt 1 .updated none⟩]) := by
    unfold OneEntry
    decide +kernel
  obtain ⟨hsigned, hmissing⟩ := hcounts hone.of_append ledger hledger _ record hrecord
  refine ⟨ledger, hledger, fun d hd => (hknown ledger hledger d hd).2, hfirsts.trans hledger, ?_,
    record, hrecord, hsigned.trans (by decide +kernel), (hmissing 1).mpr (by decide +kernel)⟩
  refine (hnew _ hone (by decide +kernel) ledger hledger).resolve_right ?_
  rintro ⟨hentry, -⟩
  exact absurd hentry (by simp)

end OcppKit.Reference
