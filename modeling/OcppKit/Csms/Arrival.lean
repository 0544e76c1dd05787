import OcppKit.Csms.Dedup

/-!
# In whatever order the events come

The events of a transaction may come in any order. What the ledger makes of them is a fold
of `OcppKit.Record.file`, and each field of the record can be read off the list of events:
the two dates and the numbers depend on which events there are, but the two readings depend
on their order as well.

The start reading is that of the start, or the *first* reading of an update; the stop reading
is that of the end, or the *last* reading of an update that comes before it. So the order
matters exactly when the start has no reading and the updates disagree, or the end has none
and an update has: `OcppKit.arrival_order_iff`. Updates disagree also where they have the same
number with other digits, and the energy up to the end is a decimal for the one and not for
the other.
-/

namespace OcppKit

/-! ### One event after the other -/

/-- The ledger after these events. -/
def Ledger.ingestAll (ledger : Ledger) (events : List TransactionEvent) : Ledger :=
  events.foldl (fun ledger event => (ledger.ingest event).1) ledger

/-- The record a list of events makes. -/
def Record.fileAll (record : Record) (events : List TransactionEvent) : Record :=
  events.foldl Record.file record

/-- **The events of one transaction**: they have different numbers, one of them is the start
and one the end. -/
structure OneTransaction (key : Key) (events : List TransactionEvent) : Prop where
  /-- They belong to the transaction. -/
  key : ∀ event ∈ events, event.key = key
  /-- Their numbers are different. -/
  nodup : (events.map TransactionEvent.seqNo).Nodup
  /-- One is the start. -/
  started : events.countP (fun event => event.kind = .started) = 1
  /-- One is the end. -/
  ended : events.countP (fun event => event.kind = .ended) = 1

theorem OneTransaction.perm {key : Key} {l l' : List TransactionEvent} (h : OneTransaction key l)
    (hp : l'.Perm l) : OneTransaction key l' where
  key event hevent := h.key event (hp.mem_iff.mp hevent)
  nodup := (hp.map _).nodup_iff.mpr h.nodup
  started := (hp.countP_eq _).trans h.started
  ended := (hp.countP_eq _).trans h.ended

theorem Record.fileAll_append (record : Record) (l l' : List TransactionEvent) :
    record.fileAll (l ++ l') = (record.fileAll l).fileAll l' := List.foldl_append

theorem Record.fileAll_cons (record : Record) (e : TransactionEvent)
    (l : List TransactionEvent) : record.fileAll (e :: l) = (record.file e).fileAll l := rfl

theorem Record.seen_fileAll (record : Record) (events : List TransactionEvent) (n : ℤ) :
    n ∈ (record.fileAll events).seen ↔ n ∈ record.seen ∨ ∃ e ∈ events, e.seqNo = n := by
  induction events generalizing record with
  | nil => simp [fileAll]
  | cons e events ih =>
      rw [fileAll_cons, ih, (file_frame record e).1, Finset.mem_insert]
      simp only [List.mem_cons, or_and_right, exists_or, exists_eq_left]
      tauto

/-- Of a transaction that is new, the ledger makes the fold of its events. -/
theorem Ledger.records_ingestAll {ledger : Ledger} {key : Key}
    (hnew : ledger.records key = none) {events : List TransactionEvent}
    (hkey : ∀ event ∈ events, event.key = key) (hnodup : (events.map (·.seqNo)).Nodup) :
    (ledger.ingestAll events).records key =
      if events = [] then none else some ((Record.fresh key.1 key.2).fileAll events) := by
  induction events using List.reverseRecOn with
  | nil => exact hnew
  | append_singleton events e ih =>
      have hkey' : e.key = key := hkey e List.mem_concat_self
      have hnodup' : (events.map (·.seqNo)).Nodup ∧ ∀ e' ∈ events, e'.seqNo ≠ e.seqNo := by
        rw [List.map_append, List.nodup_append'] at hnodup
        refine ⟨hnodup.1, fun e' he' hsame => ?_⟩
        exact hnodup.2.2 (List.mem_map.mpr ⟨e', he', rfl⟩) (by simp [hsame])
      have ih := ih (fun e' he' => hkey e' (List.mem_append_left _ he')) hnodup'.1
      have hentry : (ledger.ingestAll events).entry e =
          (Record.fresh key.1 key.2).fileAll events := by
        rw [Ledger.entry, hkey', ih]
        split
        · next hnil =>
            subst hnil
            rw [← hkey']
            rfl
        · rfl
      have hnot : e.seqNo ∉ ((ledger.ingestAll events).entry e).seen := by
        rw [hentry, Record.seen_fileAll]
        rintro (hmem | ⟨e', he', hsame⟩)
        · exact absurd hmem (Finset.notMem_empty _)
        · exact hnodup'.2 e' he' hsame
      have hstep : ledger.ingestAll (events ++ [e]) =
          ((ledger.ingestAll events).ingest e).1 := List.foldl_append
      rw [hstep, Ledger.ingest_of_not_seen hnot, hentry, hkey', Ledger.records_put_self,
        if_neg (by simp)]
      rw [Record.fileAll_append]
      rfl

/-! ### The fields of a record -/

/-- The readings of the updates, in order. -/
def readings (events : List TransactionEvent) : List Decimal :=
  (events.filter fun event => event.kind = .updated).filterMap TransactionEvent.meterWh

/-- A reading is that of an update. -/
theorem exists_updated {events : List TransactionEvent} {x : Decimal} (hx : x ∈ readings events) :
    ∃ u ∈ events, u.kind = .updated ∧ u.meterWh = some x := by
  obtain ⟨u, hu, hux⟩ := List.mem_filterMap.mp hx
  obtain ⟨hmem, hk⟩ := List.mem_filter.mp hu
  exact ⟨u, hmem, of_decide_eq_true hk, hux⟩

theorem readings_append (l l' : List TransactionEvent) :
    readings (l ++ l') = readings l ++ readings l' := by
  rw [readings, List.filter_append, List.filterMap_append, readings, readings]

theorem readings_cons_updated {e : TransactionEvent} (h : e.kind = .updated)
    (l : List TransactionEvent) : readings (e :: l) = e.meterWh.toList ++ readings l := by
  rw [readings, List.filter_cons_of_pos (by simp [h])]
  rcases hwh : e.meterWh with _ | wh
  · rw [List.filterMap_cons_none hwh]
    rfl
  · rw [List.filterMap_cons_some hwh]
    rfl

theorem readings_cons_other {e : TransactionEvent} (h : e.kind ≠ .updated)
    (l : List TransactionEvent) : readings (e :: l) = readings l := by
  rw [readings, List.filter_cons_of_neg (by simp [h]), readings]

namespace Record

/-- What one event does to the dates and the readings. -/
theorem file_fields (record : Record) (event : TransactionEvent) :
    (record.file event).startedAt =
      (if event.kind = .started then some event.timestamp else record.startedAt) ∧
    (record.file event).endedAt =
      (if event.kind = .ended then some event.timestamp else record.endedAt) ∧
    (record.file event).meterStartWh = (match event.kind with
      | .started => event.meterWh.or record.meterStartWh
      | .updated => record.meterStartWh.or event.meterWh
      | .ended => record.meterStartWh) ∧
    (record.file event).meterStopWh = (match event.kind with
      | .started => record.meterStopWh
      | .updated =>
          if record.endedAt.isSome then record.meterStopWh
          else event.meterWh.or record.meterStopWh
      | .ended => event.meterWh.or record.meterStopWh) := by
  rw [file, fileMeter, fileKind]
  rcases event.meterWh with _ | wh <;> rcases event.kind with _ | _ | _ <;>
    rcases hstart : record.meterStartWh with _ | start <;>
    rcases hended : record.endedAt with _ | ended <;> simp [fileEvent, hstart, hended]

/-- Without a start among them, events leave its date, and the first reading stands. -/
theorem start_fileAll {l : List TransactionEvent} (h : ∀ e ∈ l, e.kind ≠ .started)
    (record : Record) : (record.fileAll l).startedAt = record.startedAt ∧
      (record.fileAll l).meterStartWh = record.meterStartWh.or (readings l).head? := by
  induction l generalizing record with
  | nil => exact ⟨rfl, (Option.or_none).symm⟩
  | cons e l ih =>
      obtain ⟨hdate, -, hstart, -⟩ := file_fields record e
      have hkind := h e List.mem_cons_self
      obtain ⟨ihdate, ihstart⟩ := ih (fun e' he' => h e' (List.mem_cons_of_mem _ he'))
        (record.file e)
      rw [if_neg hkind] at hdate
      refine ⟨ihdate.trans hdate, ihstart.trans ?_⟩
      rw [hstart]
      rcases hk : e.kind with _ | _ | _
      · exact absurd hk hkind
      · rw [readings_cons_updated hk, List.head?_append, Option.or_assoc]
        congr 2
        rcases e.meterWh with _ | wh <;> rfl
      · rw [readings_cons_other (by simp [hk])]

/-- Without an end among them, and before it, the last reading stands. -/
theorem stop_fileAll_open {l : List TransactionEvent} (h : ∀ e ∈ l, e.kind ≠ .ended)
    (record : Record) (hopen : record.endedAt = none) : (record.fileAll l).endedAt = none ∧
      (record.fileAll l).meterStopWh = (readings l).getLast?.or record.meterStopWh := by
  induction l generalizing record with
  | nil => exact ⟨hopen, (Option.none_or).symm⟩
  | cons e l ih =>
      obtain ⟨-, hdate, -, hstop⟩ := file_fields record e
      have hkind := h e List.mem_cons_self
      rw [if_neg hkind] at hdate
      obtain ⟨ihdate, ihstop⟩ := ih (fun e' he' => h e' (List.mem_cons_of_mem _ he'))
        (record.file e) (hdate.trans hopen)
      refine ⟨ihdate, ihstop.trans ?_⟩
      rw [hstop, hopen]
      rcases hk : e.kind with _ | _ | _
      · rw [readings_cons_other (by simp [hk])]
      · rw [readings_cons_updated hk, List.getLast?_append, Option.or_assoc]
        congr 2
        rcases e.meterWh with _ | wh <;> rfl
      · exact absurd hk hkind

/-- After the end, and without another, the stop reading stands. -/
theorem stop_fileAll_closed {l : List TransactionEvent} (h : ∀ e ∈ l, e.kind ≠ .ended)
    (record : Record) (hclosed : record.endedAt.isSome = true) :
    (record.fileAll l).endedAt = record.endedAt ∧
      (record.fileAll l).meterStopWh = record.meterStopWh := by
  induction l generalizing record with
  | nil => exact ⟨rfl, rfl⟩
  | cons e l ih =>
      obtain ⟨-, hdate, -, hstop⟩ := file_fields record e
      have hkind := h e List.mem_cons_self
      rw [if_neg hkind] at hdate
      obtain ⟨ihdate, ihstop⟩ := ih (fun e' he' => h e' (List.mem_cons_of_mem _ he'))
        (record.file e) (hdate ▸ hclosed)
      refine ⟨ihdate.trans hdate, ihstop.trans ?_⟩
      rw [hstop, hclosed]
      rcases hk : e.kind with _ | _ | _
      · rfl
      · rfl
      · exact absurd hk hkind

end Record

/-! ### Where the start and the end stand -/

/-- An event of a kind that stands once among them splits the others. -/
theorem split_of_countP {kind : EventKind} {l : List TransactionEvent}
    (h : l.countP (fun event => event.kind = kind) = 1) :
    ∃ (l₁ : List TransactionEvent) (e : TransactionEvent) (l₂ : List TransactionEvent),
      l = l₁ ++ e :: l₂ ∧ e.kind = kind ∧ (∀ e' ∈ l₁, e'.kind ≠ kind) ∧
        ∀ e' ∈ l₂, e'.kind ≠ kind := by
  obtain ⟨e, he, hkind⟩ := List.countP_pos_iff.mp (h ▸ Nat.one_pos)
  obtain ⟨l₁, l₂, rfl⟩ := List.append_of_mem he
  rw [List.countP_append, List.countP_cons, if_pos hkind] at h
  have h₁ : l₁.countP (fun event => event.kind = kind) = 0 := by omega
  have h₂ : l₂.countP (fun event => event.kind = kind) = 0 := by omega
  rw [List.countP_eq_zero] at h₁ h₂
  exact ⟨l₁, e, l₂, rfl, decide_eq_true_iff.mp hkind, fun e' he' hk => h₁ e' he' (by simp [hk]),
    fun e' he' hk => h₂ e' he' (by simp [hk])⟩

/-- There is an event of that kind. -/
theorem exists_of_countP {kind : EventKind} {l : List TransactionEvent}
    (h : l.countP (fun event => event.kind = kind) = 1) : ∃ e ∈ l, e.kind = kind := by
  obtain ⟨l₁, e, l₂, rfl, hk, -, -⟩ := split_of_countP h
  exact ⟨e, List.mem_append_right l₁ List.mem_cons_self, hk⟩

/-- There is one event of that kind. -/
theorem eq_of_countP {kind : EventKind} {l : List TransactionEvent}
    (h : l.countP (fun event => event.kind = kind) = 1) {e e' : TransactionEvent} (he : e ∈ l)
    (hk : e.kind = kind) (he' : e' ∈ l) (hk' : e'.kind = kind) : e = e' := by
  obtain ⟨l₁, e₀, l₂, rfl, -, h₁, h₂⟩ := split_of_countP h
  have hall : ∀ x ∈ l₁ ++ e₀ :: l₂, x.kind = kind → x = e₀ := by
    intro x hx hxk
    rcases List.mem_append.mp hx with hx | hx
    · exact absurd hxk (h₁ x hx)
    · rcases List.mem_cons.mp hx with rfl | hx
      · rfl
      · exact absurd hxk (h₂ x hx)
  exact (hall e he hk).trans (hall e' he' hk').symm

/-- **The start of a transaction, read off its events**: the date is that of the start, the
reading its reading or the first of an update. -/
theorem OneTransaction.start {key : Key} {l : List TransactionEvent} (h : OneTransaction key l)
    {s : TransactionEvent} (hs : s ∈ l) (hk : s.kind = .started) :
    ((Record.fresh key.1 key.2).fileAll l).startedAt = some s.timestamp ∧
      ((Record.fresh key.1 key.2).fileAll l).meterStartWh = s.meterWh.or (readings l).head? := by
  obtain ⟨l₁, s', l₂, rfl, hk', h₁, h₂⟩ := split_of_countP h.started
  obtain rfl := eq_of_countP h.started hs hk (List.mem_append_right _ List.mem_cons_self) hk'
  rw [Record.fileAll_append, Record.fileAll_cons]
  obtain ⟨-, hfirst⟩ := Record.start_fileAll h₁ (Record.fresh key.1 key.2)
  generalize (Record.fresh key.1 key.2).fileAll l₁ = record at hfirst
  obtain ⟨hdate, -, hstart, -⟩ := Record.file_fields record s
  obtain ⟨hdate', hstart'⟩ := Record.start_fileAll h₂ (record.file s)
  rw [if_pos hk] at hdate
  refine ⟨hdate'.trans hdate, hstart'.trans ?_⟩
  rw [hstart, hk, hfirst, readings_append, readings_cons_other (by simp [hk]), List.head?_append,
    Option.or_assoc]
  rfl

/-- **The end of a transaction, read off its events**: the date is that of the end, the
reading its reading or the last of an update that comes before it. -/
theorem stop_of_split (key : Key) {l₁ l₂ : List TransactionEvent} {t : TransactionEvent}
    (hk : t.kind = .ended) (h₁ : ∀ e ∈ l₁, e.kind ≠ .ended) (h₂ : ∀ e ∈ l₂, e.kind ≠ .ended) :
    ((Record.fresh key.1 key.2).fileAll (l₁ ++ t :: l₂)).endedAt = some t.timestamp ∧
      ((Record.fresh key.1 key.2).fileAll (l₁ ++ t :: l₂)).meterStopWh =
        t.meterWh.or (readings l₁).getLast? := by
  rw [Record.fileAll_append, Record.fileAll_cons]
  obtain ⟨-, hlast⟩ := Record.stop_fileAll_open h₁ (Record.fresh key.1 key.2) rfl
  generalize (Record.fresh key.1 key.2).fileAll l₁ = record at hlast
  obtain ⟨-, hdate, -, hstop⟩ := Record.file_fields record t
  rw [if_pos hk] at hdate
  obtain ⟨hdate', hstop'⟩ := Record.stop_fileAll_closed h₂ (record.file t)
    (hdate ▸ rfl)
  refine ⟨hdate'.trans hdate, hstop'.trans ?_⟩
  rw [hstop, hk, hlast]
  change t.meterWh.or ((readings l₁).getLast?.or none) = _
  rw [Option.or_none]

theorem OneTransaction.stop {key : Key} {l : List TransactionEvent} (h : OneTransaction key l) :
    ∃ (l₁ : List TransactionEvent) (t : TransactionEvent) (l₂ : List TransactionEvent),
      l = l₁ ++ t :: l₂ ∧ t.kind = .ended ∧ (∀ e ∈ l₁, e.kind ≠ .ended) ∧
      ((Record.fresh key.1 key.2).fileAll l).endedAt = some t.timestamp ∧
      ((Record.fresh key.1 key.2).fileAll l).meterStopWh =
        t.meterWh.or (readings l₁).getLast? := by
  obtain ⟨l₁, t, l₂, rfl, hk, h₁, h₂⟩ := split_of_countP h.ended
  obtain ⟨hdate, hstop⟩ := stop_of_split key hk h₁ h₂
  exact ⟨l₁, t, l₂, rfl, hk, h₁, hdate, hstop⟩

/-! ### Whatever the order -/

theorem Record.highest_fileAll (record : Record) (l : List TransactionEvent) :
    (record.fileAll l).highest = (l.map TransactionEvent.seqNo).foldl max record.highest := by
  induction l generalizing record with
  | nil => rfl
  | cons e l ih =>
      rw [fileAll_cons, ih, (file_frame record e).2.1]
      rfl

/-- The numbers that are missing do not depend on the order. -/
theorem Record.missing_fileAll_perm (record : Record) {l l' : List TransactionEvent}
    (h : l.Perm l') : (record.fileAll l).missing = (record.fileAll l').missing := by
  have hseen : (record.fileAll l).seen = (record.fileAll l').seen := by
    ext n
    simp only [seen_fileAll, h.mem_iff]
  have hhighest : (record.fileAll l).highest = (record.fileAll l').highest := by
    rw [highest_fileAll, highest_fileAll]
    exact (h.map _).foldl_op_eq
  rw [missing, missing, hseen, hhighest]

/-- **Two records agree** on what is billed, when, and on what is missing, where readings are
compared like this. -/
structure Record.Agrees (same : Decimal → Decimal → Prop) (r r' : Record) : Prop where
  /-- On the start reading. -/
  meterStartWh : Option.Rel same r.meterStartWh r'.meterStartWh
  /-- On the stop reading. -/
  meterStopWh : Option.Rel same r.meterStopWh r'.meterStopWh
  /-- On the energy. -/
  energyWh : Option.Rel same r.energyWh r'.energyWh
  /-- On when it started. -/
  startedAt : r.startedAt = r'.startedAt
  /-- On when it ended. -/
  endedAt : r.endedAt = r'.endedAt
  /-- On what is missing. -/
  missing : r.missing = r'.missing
  /-- On whether it is open. -/
  isOpen : r.isOpen = r'.isOpen

/-- **One reading may stand for another at the start**: they are the same, and so is the energy
up to the reading of the end. -/
structure Interchangeable (same : Decimal → Decimal → Prop) (events : List TransactionEvent)
    (x y : Decimal) : Prop where
  /-- They are the same. -/
  reading : same x y
  /-- So is the energy. -/
  energy : ∀ t ∈ events, t.kind = .ended → ∀ stop ∈ t.meterWh,
    Option.Rel same (stop.checkedSub x) (stop.checkedSub y)

/-- **The readings do not depend on the order**: the start has its reading, or those of the
updates may stand for one another; and the end has its reading, or no update has one. -/
def Settled (same : Decimal → Decimal → Prop) (events : List TransactionEvent) : Prop :=
  ((∃ s ∈ events, s.kind = .started ∧ s.meterWh.isSome = true) ∨
    ∀ x ∈ readings events, ∀ y ∈ readings events, Interchangeable same events x y) ∧
  ((∃ t ∈ events, t.kind = .ended ∧ t.meterWh.isSome = true) ∨ readings events = [])

theorem rel_refl {α : Type} {r : α → α → Prop} (hrefl : ∀ a, r a a) (o : Option α) :
    Option.Rel r o o := by
  cases o with
  | none => exact .none
  | some a => exact .some (hrefl a)

/-- A list whose elements may stand for one another begins alike in every order. -/
theorem head?_rel_of_perm {α : Type} {r : α → α → Prop} {l l' : List α} (h : l.Perm l')
    (hsame : ∀ x ∈ l, ∀ y ∈ l, r x y) : Option.Rel r l.head? l'.head? := by
  rcases l with _ | ⟨a, l⟩
  · rw [List.nil_perm.mp h]
    exact .none
  · rcases l' with _ | ⟨b, l'⟩
    · exact absurd h.symm (by simp)
    · have hb : b ∈ a :: l := h.mem_iff.mpr List.mem_cons_self
      exact .some (hsame a List.mem_cons_self b hb)

theorem readings_perm {l l' : List TransactionEvent} (h : l.Perm l') :
    (readings l).Perm (readings l') := (h.filter _).filterMap _

section Agreement

variable {same : Decimal → Decimal → Prop} {key : Key} {events l l' : List TransactionEvent}

/-- The start reading does not depend on the order, if it is settled. -/
theorem start_of_settled (hrefl : ∀ d, same d d) (h : OneTransaction key events)
    (hsettled : Settled same events) (hl : l.Perm events) (hl' : l'.Perm events) :
    ((Record.fresh key.1 key.2).fileAll l).startedAt =
        ((Record.fresh key.1 key.2).fileAll l').startedAt ∧
      Option.Rel (Interchangeable same events)
        ((Record.fresh key.1 key.2).fileAll l).meterStartWh
        ((Record.fresh key.1 key.2).fileAll l').meterStartWh := by
  obtain ⟨s, hs, hk⟩ := exists_of_countP h.started
  obtain ⟨hdate, hstart⟩ := (h.perm hl).start (hl.mem_iff.mpr hs) hk
  obtain ⟨hdate', hstart'⟩ := (h.perm hl').start (hl'.mem_iff.mpr hs) hk
  refine ⟨hdate.trans hdate'.symm, ?_⟩
  have hself : ∀ d, Interchangeable same events d d :=
    fun d => ⟨hrefl d, fun _ _ _ _ _ => rel_refl hrefl _⟩
  rw [hstart, hstart']
  rcases hwh : s.meterWh with _ | wh
  · rw [Option.none_or, Option.none_or]
    rcases hsettled.1 with ⟨s', hs', hk', hsome⟩ | hsame
    · obtain rfl := eq_of_countP h.started hs hk hs' hk'
      rw [hwh] at hsome
      exact absurd hsome (by simp)
    · have hmem : ∀ x ∈ readings l, x ∈ readings events :=
        fun x hx => (readings_perm hl).mem_iff.mp hx
      exact head?_rel_of_perm (readings_perm (hl.trans hl'.symm))
        fun x hx y hy => hsame x (hmem x hx) y (hmem y hy)
  · exact .some (hself wh)

/-- The stop reading is that of the end, if it is settled. -/
theorem stop_of_settled (h : OneTransaction key events) (hsettled : Settled same events) :
    ∃ t ∈ events, t.kind = .ended ∧ ∀ l, l.Perm events →
      ((Record.fresh key.1 key.2).fileAll l).endedAt = some t.timestamp ∧
      ((Record.fresh key.1 key.2).fileAll l).meterStopWh = t.meterWh := by
  obtain ⟨t, ht, hk⟩ := exists_of_countP h.ended
  refine ⟨t, ht, hk, fun l hl => ?_⟩
  obtain ⟨l₁, t', l₂, rfl, hk', -, hdate, hstop⟩ := (h.perm hl).stop
  obtain rfl := eq_of_countP h.ended ht hk
    (hl.mem_iff.mp (List.mem_append_right l₁ List.mem_cons_self)) hk'
  refine ⟨hdate, hstop.trans ?_⟩
  rcases hsettled.2 with ⟨t', ht', hk', hsome⟩ | hnone
  · obtain rfl := eq_of_countP h.ended ht hk ht' hk'
    obtain ⟨wh, hwh⟩ := Option.isSome_iff_exists.mp hsome
    rw [hwh]
    rfl
  · have hall := readings_perm hl
    rw [hnone, readings_append, List.perm_nil, List.append_eq_nil_iff] at hall
    rw [hall.1, List.getLast?_nil, Option.or_none]

/-- Where the readings do not depend on the order, the records agree. -/
theorem agrees_of_settled (hrefl : ∀ d, same d d) (h : OneTransaction key events)
    (hsettled : Settled same events) (hl : l.Perm events) (hl' : l'.Perm events) :
    ((Record.fresh key.1 key.2).fileAll l).Agrees same
      ((Record.fresh key.1 key.2).fileAll l') := by
  obtain ⟨hstarted, hstart⟩ := start_of_settled hrefl h hsettled hl hl'
  obtain ⟨t, ht, hk, hend⟩ := stop_of_settled h hsettled
  obtain ⟨hended, hstop⟩ := hend l hl
  obtain ⟨hended', hstop'⟩ := hend l' hl'
  have hmissing := Record.missing_fileAll_perm (Record.fresh key.1 key.2) (hl.trans hl'.symm)
  generalize (Record.fresh key.1 key.2).fileAll l = r at *
  generalize (Record.fresh key.1 key.2).fileAll l' = r' at *
  refine ⟨?_, ?_, ?_, hstarted, hended.trans hended'.symm, hmissing, ?_⟩
  · generalize r.meterStartWh = start at hstart
    generalize r'.meterStartWh = start' at hstart
    rcases hstart with ⟨hsame⟩ | _
    · exact .some hsame.reading
    · exact .none
  · rw [hstop, hstop']
    exact rel_refl hrefl _
  · rw [Record.energyWh, Record.energyWh, hstop, hstop']
    generalize r.meterStartWh = start at hstart
    generalize r'.meterStartWh = start' at hstart
    rcases hwh : t.meterWh with _ | stop
    · exact .none
    · rcases hstart with ⟨hsame⟩ | _
      · exact hsame.energy t ht hk stop hwh
      · exact .none
  · rw [Record.isOpen, Record.isOpen, hended, hended']

/-- An update with this reading, put first, gives the start reading. -/
theorem exists_first (h : OneTransaction key events) {s : TransactionEvent} (hs : s ∈ events)
    (hk : s.kind = .started) (hwh : s.meterWh = none) {x : Decimal} (hx : x ∈ readings events) :
    ∃ l, l.Perm events ∧ ((Record.fresh key.1 key.2).fileAll l).meterStartWh = some x := by
  obtain ⟨u, hu, hku, hux⟩ := exists_updated hx
  have hl : (u :: events.erase u).Perm events := (List.perm_cons_erase hu).symm
  refine ⟨_, hl, ?_⟩
  rw [((h.perm hl).start (hl.mem_iff.mpr hs) hk).2, hwh, readings_cons_updated hku, hux]
  rfl

/-- The stop reading is that of the end, if it has one. -/
theorem stop_of_read (h : OneTransaction key events) {t : TransactionEvent} (ht : t ∈ events)
    (hk : t.kind = .ended) {stop : Decimal} (hwh : t.meterWh = some stop) (hl : l.Perm events) :
    ((Record.fresh key.1 key.2).fileAll l).meterStopWh = some stop := by
  obtain ⟨l₁, t', l₂, rfl, hk', -, -, hstop⟩ := (h.perm hl).stop
  obtain rfl := eq_of_countP h.ended ht hk
    (hl.mem_iff.mp (List.mem_append_right l₁ List.mem_cons_self)) hk'
  rw [hstop, hwh]
  rfl

/-- The end, put first, leaves no stop reading, if it has none. -/
theorem exists_noStop (h : OneTransaction key events) {t : TransactionEvent} (ht : t ∈ events)
    (hk : t.kind = .ended) (hwh : t.meterWh = none) :
    ∃ l, l.Perm events ∧ ((Record.fresh key.1 key.2).fileAll l).meterStopWh = none := by
  have hl : (t :: events.erase t).Perm events := (List.perm_cons_erase ht).symm
  refine ⟨_, hl, ?_⟩
  obtain ⟨l₁, t', l₂, hsplit, hk', hnot, -, hstop⟩ := (h.perm hl).stop
  rcases l₁ with _ | ⟨c, l₁⟩
  · obtain ⟨rfl, -⟩ := List.cons.inj hsplit
    rw [hstop, hwh]
    rfl
  · obtain ⟨rfl, -⟩ := List.cons.inj hsplit
    exact absurd hk (hnot _ List.mem_cons_self)

/-- An update with a reading, put first, leaves a stop reading. -/
theorem exists_stop (h : OneTransaction key events) {x : Decimal} (hx : x ∈ readings events) :
    ∃ l, l.Perm events ∧ ((Record.fresh key.1 key.2).fileAll l).meterStopWh ≠ none := by
  obtain ⟨u, hu, hku, hux⟩ := exists_updated hx
  have hl : (u :: events.erase u).Perm events := (List.perm_cons_erase hu).symm
  refine ⟨_, hl, ?_⟩
  obtain ⟨l₁, t, l₂, hsplit, hk, -, -, hstop⟩ := (h.perm hl).stop
  rw [hstop, Ne, Option.or_eq_none_iff, not_and]
  rcases l₁ with _ | ⟨c, l₁⟩
  · obtain ⟨rfl, -⟩ := List.cons.inj hsplit
    exact absurd (hk.symm.trans hku) (by simp)
  · obtain ⟨rfl, -⟩ := List.cons.inj hsplit
    rw [readings_cons_updated hku, hux]
    simp

/-- **Where the records agree in every order, the readings do not depend on it**: otherwise
an update that comes first, or an end that does, makes the difference. -/
theorem settled_of_agrees (h : OneTransaction key events)
    (hagree : ∀ l l', l.Perm events → l'.Perm events →
      ((Record.fresh key.1 key.2).fileAll l).Agrees same
        ((Record.fresh key.1 key.2).fileAll l')) :
    Settled same events := by
  constructor
  · obtain ⟨s, hs, hk⟩ := exists_of_countP h.started
    rcases hwh : s.meterWh with _ | wh
    · refine Or.inr fun x hx y hy => ?_
      obtain ⟨l, hl, hstart⟩ := exists_first h hs hk hwh hx
      obtain ⟨l', hl', hstart'⟩ := exists_first h hs hk hwh hy
      refine ⟨?_, fun t ht hkt stop hstop => ?_⟩
      · have hsame := (hagree l l' hl hl').meterStartWh
        rw [hstart, hstart'] at hsame
        cases hsame with
        | some hsame => exact hsame
      · have hsame := (hagree l l' hl hl').energyWh
        rw [Record.energyWh, Record.energyWh, stop_of_read h ht hkt hstop hl,
          stop_of_read h ht hkt hstop hl', hstart, hstart'] at hsame
        exact hsame
    · exact Or.inl ⟨s, hs, hk, by rw [hwh]; rfl⟩
  · obtain ⟨t, ht, hk⟩ := exists_of_countP h.ended
    rcases hwh : t.meterWh with _ | wh
    · refine Or.inr (List.eq_nil_iff_forall_not_mem.mpr fun x hx => ?_)
      obtain ⟨l, hl, hnone⟩ := exists_noStop h ht hk hwh
      obtain ⟨l', hl', hsome⟩ := exists_stop h hx
      have hsame := (hagree l l' hl hl').meterStopWh
      rw [hnone] at hsame
      refine hsome ?_
      generalize ((Record.fresh key.1 key.2).fileAll l').meterStopWh = stop at hsame
      cases hsame
      rfl
    · exact Or.inl ⟨t, ht, hk, by rw [hwh]; rfl⟩

/-- The events of a transaction that is new, taken in in any two orders, make records that agree,
if and only if the readings do not depend on the order. -/
theorem agrees_iff_settled (hrefl : ∀ d, same d d) {ledger : Ledger}
    (hnew : ledger.records key = none) (h : OneTransaction key events) :
    (∀ l l', l.Perm events → l'.Perm events →
      ∃ r r', (ledger.ingestAll l).records key = some r ∧
        (ledger.ingestAll l').records key = some r' ∧ r.Agrees same r') ↔
      Settled same events := by
  have hrecord : ∀ {l : List TransactionEvent}, l.Perm events →
      (ledger.ingestAll l).records key = some ((Record.fresh key.1 key.2).fileAll l) := by
    intro l hl
    have hne : l ≠ [] := by
      rintro rfl
      exact absurd (h.perm hl).started (by simp)
    rw [Ledger.records_ingestAll hnew (h.perm hl).key (h.perm hl).nodup, if_neg hne]
  constructor
  · intro hagree
    refine settled_of_agrees h fun l l' hl hl' => ?_
    obtain ⟨r, r', hr, hr', hrr'⟩ := hagree l l' hl hl'
    obtain rfl := Option.some.inj ((hrecord hl).symm.trans hr)
    obtain rfl := Option.some.inj ((hrecord hl').symm.trans hr')
    exact hrr'
  · intro hsettled l l' hl hl'
    exact ⟨_, _, hrecord hl, hrecord hl', agrees_of_settled hrefl h hsettled hl hl'⟩

end Agreement

/-- Two readings are the same number. -/
def SameNumber (x y : Decimal) : Prop := x.same y = true

theorem sameNumber_refl (x : Decimal) : SameNumber x x := Decimal.same_iff.mpr rfl

/-- **In whatever order they come.** The events of a transaction that is new, taken in in any
two orders, make records that agree, if and only if the readings do not depend on the
order: as numbers, and to the digit. -/
theorem arrival_order_iff {ledger : Ledger} {key : Key} {events : List TransactionEvent}
    (hnew : ledger.records key = none) (h : OneTransaction key events) :
    ((∀ l l', l.Perm events → l'.Perm events →
      ∃ r r', (ledger.ingestAll l).records key = some r ∧
        (ledger.ingestAll l').records key = some r' ∧ r.Agrees SameNumber r') ↔
      Settled SameNumber events) ∧
    ((∀ l l', l.Perm events → l'.Perm events →
      ∃ r r', (ledger.ingestAll l).records key = some r ∧
        (ledger.ingestAll l').records key = some r' ∧ r.Agrees (· = ·) r') ↔
      Settled (· = ·) events) :=
  ⟨agrees_iff_settled sameNumber_refl hnew h, agrees_iff_settled (fun _ => rfl) hnew h⟩

end OcppKit

namespace OcppKit.Reference

/-! ### Two orders -/

/-- A whole number of Wh. -/
def wh (value : ℤ) (h : -2 ^ 63 ≤ value ∧ value < 2 ^ 63 := by decide) : Decimal :=
  .fromI64 value h

/-- A transaction whose start and end carry readings. -/
def readTransaction : List TransactionEvent :=
  [eventAt 0 .started (some (wh 1000)), eventAt 1 .updated (some (wh 2100)),
    eventAt 2 .ended (some (wh 3400))]

/-- In order and the wrong way round, its record is the same. -/
theorem arrival_order_iff_readTransaction :
    ∃ r r', (Ledger.new.ingestAll readTransaction).records (⟨"CS-0001"⟩, "tx-1") = some r ∧
      (Ledger.new.ingestAll readTransaction.reverse).records (⟨"CS-0001"⟩, "tx-1") = some r' ∧
      r.Agrees (· = ·) r' := by
  refine (arrival_order_iff rfl ⟨?_, by decide, by decide, by decide⟩).2.mpr
    ⟨Or.inl ?_, Or.inl ?_⟩ readTransaction readTransaction.reverse (List.Perm.refl _)
    (List.reverse_perm _)
  · decide
  · exact ⟨_, List.mem_cons_self, rfl, rfl⟩
  · exact ⟨_, List.mem_cons_of_mem _ (List.mem_cons_of_mem _ List.mem_cons_self), rfl, rfl⟩

/-- A transaction whose end carries no reading. -/
def unreadEnd : List TransactionEvent :=
  [eventAt 0 .started (some (wh 1000)), eventAt 1 .updated (some (wh 2100)), eventAt 2 .ended none]

/-- **The update that comes after the end is not billed.** -/
theorem arrival_order_matters : ¬∀ key events, OneTransaction key events →
    ∀ l l', l.Perm events → l'.Perm events →
      ∃ r r', (Ledger.new.ingestAll l).records key = some r ∧
        (Ledger.new.ingestAll l').records key = some r' ∧ r.Agrees SameNumber r' := by
  intro h
  have hperm : [eventAt 0 .started (some (wh 1000)), eventAt 2 .ended none,
      eventAt 1 .updated (some (wh 2100))].Perm unreadEnd := by decide
  obtain ⟨r, r', hr, hr', hagree⟩ := h (⟨"CS-0001"⟩, "tx-1") unreadEnd
    ⟨by decide, by decide, by decide, by decide⟩ unreadEnd _ (List.Perm.refl _) hperm
  have hsome : ((Ledger.new.ingestAll unreadEnd).records (⟨"CS-0001"⟩, "tx-1")).map
      Record.energyWh = some (some (wh 1100)) := by decide +kernel
  have hnone : ((Ledger.new.ingestAll [eventAt 0 .started (some (wh 1000)),
      eventAt 2 .ended none, eventAt 1 .updated (some (wh 2100))]).records
        (⟨"CS-0001"⟩, "tx-1")).map Record.energyWh = some none := by decide +kernel
  rw [hr, Option.map_some] at hsome
  rw [hr', Option.map_some] at hnone
  have henergy := hagree.energyWh
  rw [Option.some.inj hsome, Option.some.inj hnone] at henergy
  cases henergy

end OcppKit.Reference
