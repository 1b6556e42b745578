import Mathlib.Data.List.Basic
import Mathlib.Order.Defs.PartialOrder
import Mathlib.Tactic.Common

/-!
# Runs of labelled machines

A machine takes one labelled step at a time.  The label carries every choice
made outside the machine (the operation called, the clock reading, the answer
of an oracle), so a step is a partial function and can be evaluated.  A run
records each step as an event with the states around it.

The file proves the rules used for whole runs: an invariant preserved by one
step holds in every state of a run, a preorder that grows with one step grows
along a run, and a run can be cut at any event.
-/

namespace VerlVla
namespace Transition

universe u v w

/-- A labelled machine.  `none` means that the label is not enabled. -/
structure Machine (σ : Type u) (ι : Type v) (ω : Type w) where
  step : σ → ι → Option (ω × σ)

/-- One executed step together with the states around it. -/
structure Event (σ : Type u) (ι : Type v) (ω : Type w) where
  before : σ
  label : ι
  output : ω
  after : σ

variable {σ : Type u} {ι : Type v} {ω : Type w}

inductive Run (machine : Machine σ ι ω) (start : σ) :
    List (Event σ ι ω) → σ → Prop
  | nil : Run machine start [] start
  | snoc {state next : σ} {events : List (Event σ ι ω)}
      {label : ι} {output : ω}
      (hrun : Run machine start events state)
      (hstep : machine.step state label = some (output, next)) :
      Run machine start (events ++ [⟨state, label, output, next⟩]) next

def Machine.exec (machine : Machine σ ι ω) :
    σ → List ι → Option (List (Event σ ι ω) × σ)
  | state, [] => some ([], state)
  | state, label :: labels =>
    match machine.step state label with
    | none => none
    | some (output, next) =>
      match machine.exec next labels with
      | none => none
      | some (events, final) =>
        some (⟨state, label, output, next⟩ :: events, final)

namespace Run

variable {machine : Machine σ ι ω} {start middle final : σ}
  {events left right : List (Event σ ι ω)}

theorem single (hstep : machine.step state label = some (output, next)) :
    Run machine state [⟨state, label, output, next⟩] next := by
  simpa using Run.snoc Run.nil hstep

theorem append (hleft : Run machine start left middle)
    (hright : Run machine middle right final) :
    Run machine start (left ++ right) final := by
  induction hright with
  | nil => simpa using hleft
  | snoc _ hstep ih =>
    rw [← List.append_assoc]
    exact Run.snoc ih hstep

theorem cons {state next : σ} {label : ι} {output : ω}
    (hstep : machine.step state label = some (output, next))
    (hrun : Run machine next events final) :
    Run machine state (⟨state, label, output, next⟩ :: events) final := by
  simpa using (Run.single hstep).append hrun

/-- A run can be cut between any two of its events. -/
theorem split (hrun : Run machine start (left ++ right) final) :
    ∃ middle, Run machine start left middle ∧
      Run machine middle right final := by
  generalize hall : left ++ right = events at hrun
  induction hrun generalizing right with
  | nil =>
    obtain ⟨rfl, rfl⟩ := List.append_eq_nil_iff.mp hall
    exact ⟨_, .nil, .nil⟩
  | @snoc state next prior label output hprior hstep ih =>
    rcases List.eq_nil_or_concat' right with rfl | ⟨rest, event, rfl⟩
    · refine ⟨next, ?_, .nil⟩
      rw [List.append_nil] at hall
      exact hall ▸ Run.snoc hprior hstep
    · rw [← List.append_assoc] at hall
      obtain ⟨hinitial, hevent⟩ := List.append_inj' hall rfl
      obtain ⟨middle, hleft, hright⟩ := ih hinitial
      refine ⟨middle, hleft, ?_⟩
      rw [List.singleton_inj.mp hevent]
      exact Run.snoc hright hstep

theorem nil_inv (hrun : Run machine start [] final) : final = start := by
  generalize hall : ([] : List (Event σ ι ω)) = events at hrun
  cases hrun with
  | nil => rfl
  | snoc _ _ => simp at hall

theorem singleton_inv (hrun : Run machine start [event] final) :
    event.before = start ∧ event.after = final ∧
      machine.step event.before event.label =
        some (event.output, event.after) := by
  generalize hall : [event] = events at hrun
  cases hrun with
  | nil => simp at hall
  | snoc hprior hstep =>
    rcases List.append_eq_cons_iff.mp hall.symm with
      ⟨hnil, hevent⟩ | ⟨rest, _, hrest⟩
    · subst hnil
      obtain rfl := nil_inv hprior
      obtain rfl := List.head_eq_of_cons_eq hevent
      exact ⟨rfl, rfl, hstep⟩
    · exact absurd hrest.symm (by simp)

theorem at_event {event : Event σ ι ω}
    (hrun : Run machine start (left ++ event :: right) final) :
    Run machine start left event.before ∧
      machine.step event.before event.label =
        some (event.output, event.after) ∧
      Run machine event.after right final := by
  obtain ⟨middle, hleft, hright⟩ := hrun.split
  rw [← List.singleton_append] at hright
  obtain ⟨next, hevent, hrest⟩ := hright.split
  obtain ⟨rfl, rfl, hstep⟩ := hevent.singleton_inv
  exact ⟨hleft, hstep, hrest⟩

theorem step_of_mem (hrun : Run machine start events final)
    (hevent : event ∈ events) :
    machine.step event.before event.label =
      some (event.output, event.after) := by
  obtain ⟨left, right, rfl⟩ := List.append_of_mem hevent
  exact hrun.at_event.2.1

/-! ## Rules for whole runs -/

theorem guarded_invariant (guard : σ → ι → Prop) (invariant : σ → Prop)
    (hstep : ∀ state label output next, invariant state →
      guard state label → machine.step state label = some (output, next) →
      invariant next)
    (hrun : Run machine start events final)
    (hguard : ∀ event ∈ events, guard event.before event.label)
    (hstart : invariant start) : invariant final := by
  induction hrun with
  | nil => exact hstart
  | snoc _ hlast ih =>
    refine hstep _ _ _ _ (ih fun event hevent => ?_) ?_ hlast
    · exact hguard event (List.mem_append_left _ hevent)
    · exact hguard _ (List.mem_append_right _ (List.mem_singleton_self _))

/-- An invariant preserved by every step holds at the end of every run. -/
theorem invariant (invariant : σ → Prop)
    (hstep : ∀ state label output next, invariant state →
      machine.step state label = some (output, next) → invariant next)
    (hrun : Run machine start events final)
    (hstart : invariant start) : invariant final :=
  hrun.guarded_invariant (fun _ _ => True) invariant
    (fun _ _ _ _ hstate _ hlast => hstep _ _ _ _ hstate hlast)
    (fun _ _ => trivial) hstart

/-- Under the guard, the invariant also holds before each event. -/
theorem guarded_invariant_before (guard : σ → ι → Prop) (invariant : σ → Prop)
    (hstep : ∀ state label output next, invariant state →
      guard state label → machine.step state label = some (output, next) →
      invariant next) (hrun : Run machine start events final)
    (hguard : ∀ event ∈ events, guard event.before event.label)
    (hstart : invariant start) (hevent : event ∈ events) :
    invariant event.before := by
  obtain ⟨left, right, rfl⟩ := List.append_of_mem hevent
  refine hrun.at_event.1.guarded_invariant guard invariant hstep ?_ hstart
  exact fun earlier hearlier =>
    hguard earlier (List.mem_append_left _ hearlier)

/-- A preorder that grows with every step grows along every run. -/
theorem monotone (grows : σ → σ → Prop) (hrefl : ∀ state, grows state state)
    (htrans : ∀ {a b c}, grows a b → grows b c → grows a c)
    (hstep : ∀ state label output next,
      machine.step state label = some (output, next) → grows state next)
    (hrun : Run machine start events final) : grows start final := by
  induction hrun with
  | nil => exact hrefl _
  | snoc _ hlast ih => exact htrans ih (hstep _ _ _ _ hlast)

/-- A kind of step that latches a stable predicate happens at most once. -/
theorem countP_le_one (latched : σ → Prop) (fires : Event σ ι ω → Bool)
    (hstable : ∀ state label output next, latched state →
      machine.step state label = some (output, next) → latched next)
    (hfires : ∀ event : Event σ ι ω, machine.step event.before event.label =
        some (event.output, event.after) →
      fires event = true → ¬latched event.before ∧ latched event.after)
    (hrun : Run machine start events final) : events.countP fires ≤ 1 := by
  have hcount : events.countP fires = 0 ∨
      events.countP fires = 1 ∧ latched final := by
    induction hrun with
    | nil => exact .inl rfl
    | @snoc state next prior label output _ hstep ih =>
      have hlast := hfires ⟨state, label, output, next⟩ hstep
      rw [List.countP_append, List.countP_singleton]
      by_cases hfire : fires ⟨state, label, output, next⟩ = true
      · obtain ⟨hbefore, hafter⟩ := hlast hfire
        rcases ih with hzero | ⟨_, hlatched⟩
        · exact .inr ⟨by simp [hzero, hfire], hafter⟩
        · exact absurd hlatched hbefore
      · rcases ih with hzero | ⟨hone, hlatched⟩
        · exact .inl (by simp [hzero, hfire])
        · exact .inr ⟨by simp [hone, hfire], hstable _ _ _ _ hlatched hstep⟩
  omega

/-! ## Deterministic machines -/

theorem final_unique (hrun : Run machine start events final)
    (hother : Run machine start events other) : final = other := by
  induction hrun with
  | nil => exact hother.nil_inv.symm
  | snoc _ _ _ =>
    obtain ⟨_, _, hlast⟩ := hother.split
    exact hlast.singleton_inv.2.1

/-- Where at most one allowed label is enabled, of two runs with allowed labels
one continues the other. -/
theorem one_continues_other (allowed : ι → Prop)
    (hunique : ∀ state label other, allowed label → allowed other →
      (machine.step state label).isSome →
      (machine.step state other).isSome → label = other)
    (hleft : Run machine start left final)
    (hright : Run machine start right other)
    (hleftAllowed : ∀ event ∈ left, allowed event.label)
    (hrightAllowed : ∀ event ∈ right, allowed event.label) :
    left <+: right ∨ right <+: left := by
  induction hleft with
  | nil => exact .inl ⟨right, rfl⟩
  | @snoc state next prior label output hprior hstep ih =>
    have hpriorAllowed : ∀ event ∈ prior, allowed event.label :=
      fun event hevent => hleftAllowed event (List.mem_append_left _ hevent)
    rcases ih hpriorAllowed with ⟨rest, hrest⟩ | hshort
    · cases rest with
      | nil =>
        rw [List.append_nil] at hrest
        rw [← hrest]
        exact .inr (List.prefix_append _ _)
      | cons event rest =>
        subst hrest
        obtain ⟨hbefore, hevent, _⟩ := hright.at_event
        have hstate := hprior.final_unique hbefore
        have hlabel : label = event.label := by
          apply hunique state
          · exact hleftAllowed _ (List.mem_append_right _
              (List.mem_singleton_self _))
          · exact hrightAllowed _ (List.mem_append_right _ List.mem_cons_self)
          · rw [hstep]
            rfl
          · rw [hstate, hevent]
            rfl
        rw [← hstate, ← hlabel, hstep] at hevent
        have hsame : event = ⟨state, label, output, next⟩ := by
          obtain ⟨before, label', output', after⟩ := event
          simp only [Option.some.injEq, Prod.mk.injEq] at hevent
          simp only at hstate hlabel
          rw [← hstate, ← hlabel, hevent.1, hevent.2]
        rw [hsame]
        exact .inl ⟨rest, by simp⟩
    · exact .inr (hshort.trans (List.prefix_append _ _))

end Run

/-- Evaluation produces runs. -/
theorem Machine.run_of_exec {machine : Machine σ ι ω} {start final : σ}
    {labels : List ι} {events : List (Event σ ι ω)}
    (hexec : machine.exec start labels = some (events, final)) :
    Run machine start events final := by
  induction labels generalizing start events with
  | nil =>
    simp only [exec] at hexec
    cases hexec
    exact .nil
  | cons label labels ih =>
    simp only [exec] at hexec
    split at hexec
    · simp at hexec
    next output next hstep =>
      split at hexec
      · simp at hexec
      next rest _ hrest =>
        cases hexec
        exact Run.cons hstep (ih hrest)

theorem Machine.labels_of_exec {machine : Machine σ ι ω}
    {events : List (Event σ ι ω)}
    (hexec : machine.exec start labels = some (events, final)) :
    events.map Event.label = labels := by
  induction labels generalizing start events with
  | nil =>
    simp only [exec] at hexec
    cases hexec
    rfl
  | cons label labels ih =>
    simp only [exec] at hexec
    split at hexec
    · simp at hexec
    next output next hstep =>
      split at hexec
      · simp at hexec
      next rest _ hrest =>
        cases hexec
        rw [List.map_cons, ih hrest]

end Transition
end VerlVla
