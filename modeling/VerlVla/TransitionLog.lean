import VerlVla.TransitionRun

/-!
# Logs of runs

A machine whose steps write entries leaves a log.  An invariant may relate the
log to the state, and a law may ask of every entry something about the entries
before it.
-/

namespace VerlVla

open List hiding after cons nil
namespace Transition

universe u v w

variable {σ : Type u} {ι : Type v} {κ : Type w}

/-- The entries written along some events. -/
def log (events : List (Event σ ι (List κ))) : List κ :=
  events.flatMap Event.output

@[simp] theorem log_nil : log ([] : List (Event σ ι (List κ))) = [] := rfl

@[simp] theorem log_append (left right : List (Event σ ι (List κ))) :
    log (left ++ right) = log left ++ log right :=
  flatMap_append

@[simp] theorem log_singleton (event : Event σ ι (List κ)) :
    log [event] = event.output :=
  flatMap_singleton ..

def Lawful (law : List κ → κ → Prop) (entries : List κ) : Prop :=
  ∀ left entry right, entries = left ++ entry :: right → law left entry

section Laws

variable {law : List κ → κ → Prop} {entries : List κ}

theorem lawful_nil : Lawful law [] := by
  intro left entry right hentries
  exact absurd hentries.symm (by simp)

theorem Lawful.snoc {entry : κ} (hentries : Lawful law entries)
    (hentry : law entries entry) : Lawful law (entries ++ [entry]) := by
  intro left other right heq
  rcases eq_nil_or_concat' right with rfl | ⟨rest, last, rfl⟩
  · obtain ⟨hleft, hlast⟩ := append_inj' heq rfl
    cases hlast
    rw [← hleft]
    exact hentry
  · rw [← cons_append, ← append_assoc] at heq
    obtain ⟨hleft, _⟩ := append_inj' heq rfl
    exact hentries left other rest hleft

theorem Lawful.append (hentries : Lawful law entries)
    (hmore : ∀ left, ∀ entry ∈ more, law (entries ++ left) entry) :
    Lawful law (entries ++ more) := by
  induction more generalizing entries with
  | nil =>
    rw [append_nil]
    exact hentries
  | cons entry more ih =>
    rw [append_cons]
    apply ih
    · apply hentries.snoc
      have hentry := hmore [] entry mem_cons_self
      rw [append_nil] at hentry
      exact hentry
    · intro left other hother
      rw [← append_cons]
      exact hmore (entry :: left) other (mem_cons_of_mem _ hother)

theorem Lawful.left {left right : List κ}
    (hentries : Lawful law (left ++ right)) : Lawful law left := by
  intro before entry after heq
  apply hentries before entry (after ++ right)
  rw [heq, append_assoc, cons_append]

theorem Lawful.last (hentries : Lawful law (entries ++ [entry])) :
    law entries entry :=
  hentries entries entry [] rfl

theorem Lawful.of_mem (hentries : Lawful law entries)
    (hmember : entry ∈ entries) :
    ∃ left right, entries = left ++ entry :: right ∧ law left entry := by
  obtain ⟨left, right, heq⟩ := append_of_mem hmember
  exact ⟨left, right, heq, hentries left entry right heq⟩

end Laws

/-- An invariant of the state and the log that every step preserves. -/
theorem Run.log_invariant (guard : σ → ι → Prop)
    (invariant : List κ → σ → Prop)
    (hstep : ∀ entries state label output next, invariant entries state →
      guard state label → machine.step state label = some (output, next) →
      invariant (entries ++ output) next)
    (hrun : Run machine start events final)
    (hguard : ∀ event ∈ events, guard event.before event.label)
    (hstart : invariant [] start) : invariant (log events) final := by
  induction hrun with
  | nil => exact hstart
  | @snoc state next prior label output _ hlast ih =>
    rw [log_append, log_singleton]
    have hprior : ∀ event ∈ prior, guard event.before event.label := by
      intro event hevent
      exact hguard event (mem_append_left _ hevent)
    have hlabel := hguard ⟨state, label, output, next⟩
      (mem_append_right _ (mem_singleton_self _))
    exact hstep _ _ _ _ _ (ih hprior) hlabel hlast

/-- Counted steps lower a measure until the log meets a goal, so a run that
has not met it has taken few of them. -/
theorem Run.log_measure (invariant : List κ → σ → Prop) (goal : List κ → Prop)
    (measure : σ → ℕ) (counted : ι → Bool) (prior : List κ)
    (hgoal : ∀ entries output, goal entries → goal (entries ++ output))
    (hstep : ∀ entries state label output next, invariant entries state →
      machine.step state label = some (output, next) →
      goal (entries ++ output) ∨ invariant (entries ++ output) next ∧
        measure next + (counted label).toNat ≤ measure state)
    (hrun : Run machine start events final) (hstart : invariant prior start) :
    goal (prior ++ log events) ∨ invariant (prior ++ log events) final ∧
      measure final + events.countP (fun event => counted event.label) ≤
        measure start := by
  induction hrun with
  | nil =>
    right
    rw [log_nil, append_nil, countP_nil]
    exact ⟨hstart, Nat.le_refl _⟩
  | @snoc state next events label output _ hlast ih =>
    rw [log_append, log_singleton, ← append_assoc]
    rcases ih with hdone | ⟨hstate, hmeasure⟩
    · exact .inl (hgoal _ _ hdone)
    · rcases hstep _ _ _ _ _ hstate hlast with hdone | ⟨hnext, hlower⟩
      · exact .inl hdone
      · right
        rw [countP_append, countP_singleton]
        refine ⟨hnext, ?_⟩
        cases hcounted : counted label
        · rw [hcounted, Bool.toNat_false] at hlower
          simp only [Bool.false_eq_true, if_false]
          omega
        · rw [hcounted, Bool.toNat_true] at hlower
          simp only [if_true]
          omega

end Transition
end VerlVla
