import Mathlib.Data.List.Basic
import Mathlib.Tactic.Common

/-!
# The life of a leased work item

An item of a shared work queue is idle, leased under a ticket, or settled with
a verdict.  `Advance` lists what may happen to one item while tickets are
issued for it.  Two facts carry every queue built on this pattern: a settled
item stays as it is, and a ticket that was taken away is never held again
unless the same ticket is issued once more.
-/

namespace VerlVla
namespace LeaseLifecycle

universe u v

inductive Status (τ : Type u) (κ : Type v)
  | idle
  | leased (ticket : τ)
  | settled (verdict : κ)
deriving DecidableEq

variable {τ : Type u} {κ : Type v}

def Status.isSettled : Status τ κ → Prop
  | .settled _ => True
  | _ => False

/-- The item moves from the first status to the last one while the listed
tickets are issued for it, in this order. -/
inductive Advance (start : Status τ κ) : List τ → Status τ κ → Prop
  | refl : Advance start [] start
  | lease {issued : List τ} {status : Status τ κ} (ticket : τ)
      (hadvance : Advance start issued status) (hopen : ¬status.isSettled) :
      Advance start (issued ++ [ticket]) (.leased ticket)
  | drop {issued : List τ} {status : Status τ κ}
      (hadvance : Advance start issued status) (hopen : ¬status.isSettled) :
      Advance start issued .idle
  | settle {issued : List τ} {status : Status τ κ} (verdict : κ)
      (hadvance : Advance start issued status) (hopen : ¬status.isSettled) :
      Advance start issued (.settled verdict)

namespace Advance

theorem trans (hfirst : Advance start issued middle)
    (hsecond : Advance middle later final) :
    Advance start (issued ++ later) final := by
  induction hsecond with
  | refl => simpa using hfirst
  | lease ticket _ hopen ih =>
    rw [← List.append_assoc]
    exact ih.lease ticket hopen
  | drop _ hopen ih => exact ih.drop hopen
  | settle verdict _ hopen ih => exact ih.settle verdict hopen

theorem held_or_issued (hadvance : Advance start issued (.leased ticket)) :
    start = .leased ticket ∨ ticket ∈ issued := by
  generalize hfinal : Status.leased ticket = status at hadvance
  cases hadvance with
  | refl => exact .inl rfl
  | lease other _ _ =>
    injection hfinal with hticket
    exact .inr (by simp [hticket])
  | drop _ _ | settle _ _ _ => cases hfinal

end Advance

end LeaseLifecycle
end VerlVla
