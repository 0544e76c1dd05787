import OcppKit.Station.Transactions
import OcppKit.Library.Transitions

/-!
# Starts that are not seen again

The transaction machine starts a transaction when a start point *begins* to hold. It compares
what is observed with what was observed before, and then forgets the latter: a start point that
begins to hold is seen to do so once.

While a transaction runs, the machine looks at its stop points only. So an observation in which
a stop point ceases to hold and a start point begins to ends the one transaction and does not
start the next, which nothing that is observed later makes up for as long as the start point
holds. This is the only way in which a start is lost (`OcppKit.startsKept_iff`), and with the
points of 1.6 it is not possible (`OcppKit.TransactionMachine.startsKept_withDefaults`): there
the one start point holds when both stop points do.
-/

namespace OcppKit

/-! ### All that happens to a machine -/

namespace TransactionMachine

/-- The machine with the points of 1.6: a transaction starts when a token is authorized and the
cable connected, and ends when one of the two is no longer so. -/
def withDefaults (ids : ℕ → String) : TransactionMachine :=
  new {.powerPathClosed} {.evConnected, .authorized} ids

/-- The machine with a transaction restored that was running before a reboot, and with what was
observed then. -/
def resume (machine : TransactionMachine) (transactionId : String) (nextSeq : ℤ)
    (conditions : Conditions) : TransactionMachine :=
  { machine with conditions := conditions, active := some ⟨transactionId, nextSeq⟩ }

end TransactionMachine

/-- What happens to a machine. -/
inductive MachineStep where
  /-- A call, which may send an event. -/
  | call (call : MachineCall)
  /-- A transaction is restored. -/
  | resume (transactionId : String) (nextSeq : ℤ) (conditions : Conditions)
deriving DecidableEq

namespace TransactionMachine

/-- The machine after a step. -/
def advance (machine : TransactionMachine) : MachineStep → Option TransactionMachine
  | .call call => (machine.call call).map Prod.fst
  | .resume transactionId nextSeq conditions =>
      some (machine.resume transactionId nextSeq conditions)

/-! ### Edges -/

/-- A start point begins to hold. -/
def StartsAt (machine : TransactionMachine) (conditions : Conditions) : Prop :=
  ∃ point ∈ machine.startPoints,
    machine.conditions.holds point = false ∧ conditions.holds point = true

/-- A stop point ceases to hold. -/
def StopsAt (machine : TransactionMachine) (conditions : Conditions) : Prop :=
  ∃ point ∈ machine.stopPoints,
    machine.conditions.holds point = true ∧ conditions.holds point = false

/-- **No start is lost**: where an observation leaves no transaction running, no start point
began to hold in it. -/
def KeepsStart (machine : TransactionMachine) : MachineStep → Prop
  | .call (.observe conditions now) => ∀ machine' events,
      machine.observe conditions now = some (machine', events) → machine'.active = none →
        ¬machine.StartsAt conditions
  | .call (.update ..) | .call (.abort ..) | .resume .. => True

/-- **A start point begins to hold where a stop point ends the transaction.** -/
def Coincides (machine : TransactionMachine) : MachineStep → Prop
  | .call (.observe conditions _) =>
      machine.active ≠ none ∧ machine.StopsAt conditions ∧ machine.StartsAt conditions
  | .call (.update ..) | .call (.abort ..) | .resume .. => False

theorem mem_all (point : TxPoint) : point ∈ TxPoint.all := by
  cases point <;> decide

/-- Nothing is found exactly where no point meets the condition. -/
theorem find_eq_none_iff {points : Finset TxPoint} {p : TxPoint → Bool} :
    find points p = none ↔ ∀ point ∈ points, p point = false := by
  simp only [find, List.find?_eq_none, List.mem_filter, mem_all, true_and, decide_eq_true_eq,
    Bool.not_eq_true]

variable {machine machine' : TransactionMachine} {conditions : Conditions}

theorem find_start_eq_none_iff :
    (find machine.startPoints fun p => !machine.conditions.holds p && conditions.holds p) = none ↔
      ¬machine.StartsAt conditions := by
  rw [find_eq_none_iff, StartsAt]
  push Not
  refine forall₂_congr fun point _ => ?_
  cases machine.conditions.holds point <;> simp

theorem find_stop_eq_none_iff :
    (find machine.stopPoints fun p => machine.conditions.holds p && !conditions.holds p) = none ↔
      ¬machine.StopsAt conditions := by
  rw [find_eq_none_iff, StopsAt]
  push Not
  refine forall₂_congr fun point _ => ?_
  cases machine.conditions.holds point <;> simp

/-- **Whether a transaction runs after an observation**: if there was none, one that has just
started, and otherwise the one there was, unless it has ended. -/
theorem active_observe {now : DateTime} {events : List TxEvent}
    (h : machine.observe conditions now = some (machine', events)) : machine'.active = none ↔
      (machine.active = none ∧ ¬machine.StartsAt conditions) ∨
        (machine.active ≠ none ∧ machine.StopsAt conditions) := by
  rw [observe] at h
  dsimp only at h
  split at h
  next hactive =>
    split at h
    next hfind =>
      obtain ⟨rfl, rfl⟩ := Prod.mk.inj (Option.some.inj h)
      have hstarts : machine.StartsAt conditions := by
        by_contra hnot
        exact absurd (find_start_eq_none_iff.mpr hnot) (by rw [hfind]; simp)
      simp [hactive, hstarts]
    next hfind =>
      obtain ⟨rfl, rfl⟩ := Prod.mk.inj (Option.some.inj h)
      simp [hactive, find_start_eq_none_iff.mp hfind]
  next active hactive =>
    split at h
    next hfind =>
      obtain ⟨rfl, rfl⟩ := Prod.mk.inj (Option.some.inj h)
      have hstops : machine.StopsAt conditions := by
        by_contra hnot
        exact absurd (find_stop_eq_none_iff.mpr hnot) (by rw [hfind]; simp)
      simp [hactive, hstops]
    next hfind =>
      have hstops := find_stop_eq_none_iff.mp hfind
      split at h
      · obtain ⟨bumped, -, h⟩ := Option.bind_eq_some_iff.mp h
        obtain ⟨rfl, rfl⟩ := Prod.mk.inj (Option.some.inj h)
        simp [hactive, hstops]
      · obtain ⟨rfl, rfl⟩ := Prod.mk.inj (Option.some.inj h)
        simp [hactive, hstops]

/-- An observation in which the transaction ends is one the machine takes. -/
theorem exists_observe (hactive : machine.active ≠ none) (hstops : machine.StopsAt conditions)
    (now : DateTime) : ∃ machine' events,
      machine.observe conditions now = some (machine', events) := by
  obtain ⟨active, hactive⟩ := Option.ne_none_iff_exists'.mp hactive
  obtain ⟨point, hpoint⟩ := Option.ne_none_iff_exists'.mp
    (mt find_stop_eq_none_iff.mp (not_not_intro hstops))
  refine ⟨{ machine with conditions := conditions, active := none },
    [.ended active.id active.nextSeq (triggerFor machine.conditions conditions)
      (stoppedReason point machine.conditions conditions) now], ?_⟩
  rw [observe]
  simp only [hactive, hpoint]

/-- **A start is lost exactly where it coincides with the stop of a transaction.** -/
theorem keepsStart_iff (machine : TransactionMachine) (step : MachineStep) :
    machine.KeepsStart step ↔ ¬machine.Coincides step := by
  rcases step with (⟨conditions, now⟩ | _ | _) | _
  · constructor
    · rintro hkeeps ⟨hactive, hstops, hstarts⟩
      obtain ⟨machine', events, hobserve⟩ := exists_observe hactive hstops now
      refine hkeeps machine' events hobserve ?_ hstarts
      exact (active_observe hobserve).mpr (Or.inr ⟨hactive, hstops⟩)
    · intro hnot machine' events hobserve hnone hstarts
      rcases (active_observe hobserve).mp hnone with ⟨-, hno⟩ | ⟨hactive, hstops⟩
      · exact hno hstarts
      · exact hnot ⟨hactive, hstops, hstarts⟩
  all_goals exact iff_of_true trivial id

/-! ### Runs -/

theorem points_of_emits_observe {now : DateTime} {events : List TxEvent}
    (h : machine.observe conditions now = some (machine', events)) :
    machine'.startPoints = machine.startPoints ∧ machine'.stopPoints = machine.stopPoints := by
  rw [observe] at h
  dsimp only at h
  split at h
  · split at h
    · obtain ⟨rfl, -⟩ := Prod.mk.inj (Option.some.inj h)
      exact ⟨rfl, rfl⟩
    · obtain ⟨rfl, -⟩ := Prod.mk.inj (Option.some.inj h)
      exact ⟨rfl, rfl⟩
  · split at h
    · obtain ⟨rfl, -⟩ := Prod.mk.inj (Option.some.inj h)
      exact ⟨rfl, rfl⟩
    · split at h
      · obtain ⟨bumped, -, h⟩ := Option.bind_eq_some_iff.mp h
        obtain ⟨rfl, -⟩ := Prod.mk.inj (Option.some.inj h)
        exact ⟨rfl, rfl⟩
      · obtain ⟨rfl, -⟩ := Prod.mk.inj (Option.some.inj h)
        exact ⟨rfl, rfl⟩

/-- The points are those the machine was made with. -/
theorem points_advance {step : MachineStep} (h : machine.advance step = some machine') :
    machine'.startPoints = machine.startPoints ∧ machine'.stopPoints = machine.stopPoints := by
  rcases step with (⟨conditions, now⟩ | ⟨trigger, now⟩ | ⟨reason, now⟩) | ⟨id, nextSeq, conditions⟩
  · obtain ⟨⟨machine₁, events⟩, hobserve, rfl⟩ := Option.map_eq_some_iff.mp h
    exact points_of_emits_observe hobserve
  · obtain ⟨⟨machine₁, events⟩, hcall, rfl⟩ := Option.map_eq_some_iff.mp h
    obtain ⟨⟨machine₂, event⟩, hupdate, hpair⟩ := Option.map_eq_some_iff.mp hcall
    obtain ⟨rfl, rfl⟩ := Prod.mk.inj hpair
    rw [update] at hupdate
    split at hupdate
    · obtain ⟨rfl, -⟩ := Prod.mk.inj (Option.some.inj hupdate)
      exact ⟨rfl, rfl⟩
    · obtain ⟨bumped, -, hupdate⟩ := Option.bind_eq_some_iff.mp hupdate
      obtain ⟨rfl, -⟩ := Prod.mk.inj (Option.some.inj hupdate)
      exact ⟨rfl, rfl⟩
  · obtain rfl : (machine.abort reason now).1 = machine' := Option.some.inj h
    rw [abort]
    split
    · exact ⟨rfl, rfl⟩
    · exact ⟨rfl, rfl⟩
  · obtain rfl := Option.some.inj h
    exact ⟨rfl, rfl⟩

/-- **With the points of 1.6 no start is lost.** -/
theorem startsKept_withDefaults (ids : ℕ → String) (steps : List MachineStep) :
    Transitions.EachStep advance KeepsStart (withDefaults ids) steps := by
  refine Transitions.eachStep_of_invariant (fun machine =>
    machine.startPoints = {.powerPathClosed} ∧ machine.stopPoints = {.evConnected, .authorized})
    ?_ ?_ ⟨rfl, rfl⟩ steps
  · rintro machine step machine' ⟨hstart, hstop⟩ hstep
    obtain ⟨hstart', hstop'⟩ := points_advance hstep
    exact ⟨hstart'.trans hstart, hstop'.trans hstop⟩
  · rintro machine step ⟨hstart, hstop⟩
    rw [keepsStart_iff]
    rcases step with (⟨conditions, now⟩ | _ | _) | _
    · -- both stop points hold where the start point does
      rintro ⟨-, ⟨point, hpoint, -, hceases⟩, ⟨point', hpoint', -, hholds⟩⟩
      rw [hstart, Finset.mem_singleton] at hpoint'
      subst hpoint'
      obtain ⟨hauthorized, hconnected⟩ := Bool.and_eq_true_iff.mp hholds
      rw [hstop, Finset.mem_insert, Finset.mem_singleton] at hpoint
      rcases hpoint with rfl | rfl
      · exact absurd (hceases.symm.trans hconnected) (by simp)
      · exact absurd (hceases.symm.trans hauthorized) (by simp)
    all_goals exact id

end TransactionMachine

/-- **A run loses no start exactly if no start coincides with the stop of a transaction.** -/
theorem startsKept_iff (startPoints stopPoints : Finset TxPoint) (ids : ℕ → String)
    (steps : List MachineStep) :
    Transitions.EachStep TransactionMachine.advance TransactionMachine.KeepsStart
        (.new startPoints stopPoints ids) steps ↔
      Transitions.EachStep TransactionMachine.advance (fun machine step => ¬machine.Coincides step)
        (.new startPoints stopPoints ids) steps := by
  constructor
  · exact Transitions.EachStep.mono fun machine step => (machine.keepsStart_iff step).mp
  · exact Transitions.EachStep.mono fun machine step => (machine.keepsStart_iff step).mpr

end OcppKit

namespace OcppKit.Reference

/-! ### One vehicle after the other -/

/-- A vehicle is detected. -/
def detected : Conditions := { parkingBayOccupied := true }

/-- It is gone, and a cable is connected. -/
def swapped : Conditions := { evConnected := true }

/-- **The second vehicle has no transaction.** -/
theorem start_swallowed : ¬∀ (startPoints stopPoints : Finset TxPoint) (ids : ℕ → String)
    (steps : List MachineStep),
    Transitions.EachStep TransactionMachine.advance TransactionMachine.KeepsStart
      (.new startPoints stopPoints ids) steps := by
  intro h
  obtain ⟨-, hfirst⟩ := h {.parkingBayOccupancy, .evConnected} {.parkingBayOccupancy}
    (fun n => String.ofList (List.replicate n 'x'))
    [.call (.observe detected ⟨0⟩), .call (.observe swapped ⟨1⟩)]
  obtain ⟨hsecond, -⟩ := hfirst _ rfl
  refine hsecond _ _ rfl rfl ?_
  exact ⟨.evConnected, by decide, rfl, rfl⟩

end OcppKit.Reference
