import Mathlib.Data.List.Basic
import Mathlib.Data.List.GetD
import Mathlib.Tactic.Common

/-!
# Streams cut at their ends

Some elements of a stream are ends.  The stream is then a list of runs, each of
which ends at its last element and nowhere else, and a rest without an end.
A transducer reads a stream element by element.  What it puts out does not
depend on how the stream is cut into windows, and if it starts afresh after
each end it treats every run on its own.
-/

namespace VerlVla

open List hiding after cons nil

universe u v w

variable {α : Type u} {β : Type v} {σ : Type w}

/-! ## Runs -/

/-- A run ends at its last element and nowhere else. -/
def IsRun (ends : α → Bool) (run : List α) : Prop :=
  ∃ before last, run = before ++ [last] ∧
    (∀ x ∈ before, ends x = false) ∧ ends last = true

structure Cut (ends : α → Bool) (stream : List α) (runs : List (List α))
    (rest : List α) : Prop where
  joined : stream = runs.flatten ++ rest
  closed : ∀ run ∈ runs, IsRun ends run
  live : ∀ x ∈ rest, ends x = false

variable {ends : α → Bool} {stream run rest rest' before after : List α}
  {runs runs' : List (List α)} {last x : α}

theorem IsRun.cons (hx : ends x = false) (hrun : IsRun ends run) :
    IsRun ends (x :: run) := by
  obtain ⟨before, last, rfl, hbefore, hlast⟩ := hrun
  have hbefore' : ∀ y ∈ x :: before, ends y = false :=
    forall_mem_cons.mpr ⟨hx, hbefore⟩
  exact ⟨x :: before, last, rfl, hbefore', hlast⟩

namespace Cut

theorem of_live (hlive : ∀ x ∈ stream, ends x = false) :
    Cut ends stream [] stream :=
  ⟨rfl, by simp, hlive⟩

theorem cons_run (hrun : IsRun ends run) (hcut : Cut ends stream runs rest) :
    Cut ends (run ++ stream) (run :: runs) rest := by
  constructor
  · rw [hcut.joined, flatten_cons, append_assoc]
  · exact forall_mem_cons.mpr ⟨hrun, hcut.closed⟩
  · exact hcut.live

theorem existing (ends : α → Bool) (stream : List α) :
    ∃ runs rest, Cut ends stream runs rest := by
  induction stream with
  | nil => exact ⟨[], [], of_live (by simp)⟩
  | cons x stream ih =>
    obtain ⟨runs, rest, hcut⟩ := ih
    cases hx : ends x with
    | true =>
      have hrun : IsRun ends [x] := ⟨[], x, rfl, by simp, hx⟩
      exact ⟨[x] :: runs, rest, cons_run hrun hcut⟩
    | false =>
      cases runs with
      | nil =>
        have hlive : ∀ y ∈ x :: stream, ends y = false := by
          rw [hcut.joined, flatten_nil, nil_append]
          exact forall_mem_cons.mpr ⟨hx, hcut.live⟩
        exact ⟨[], x :: stream, of_live hlive⟩
      | cons run runs =>
        obtain ⟨hrun, hruns⟩ := forall_mem_cons.mp hcut.closed
        have hcut' : Cut ends (runs.flatten ++ rest) runs rest :=
          ⟨rfl, hruns, hcut.live⟩
        have hextended := cons_run (hrun.cons hx) hcut'
        rw [cons_append, ← append_assoc,
          ← flatten_cons, ← hcut.joined] at hextended
        exact ⟨(x :: run) :: runs, rest, hextended⟩

end Cut

/-! ## Transducers -/

def laneOf (lane : ℕ) (windows : List (List (List α))) : List α :=
  (windows.map fun window => window.getD lane []).flatten

/-- Reads one element at a time, and puts out what it has completed. -/
structure Transducer (σ : Type w) (α : Type u) (β : Type v) where
  start : σ
  step : σ → α → σ × List β

namespace Transducer

variable (machine : Transducer σ α β)

def feed (state : σ) : List α → σ × List β
  | [] => (state, [])
  | x :: stream =>
    let next := machine.step state x
    let final := feed next.1 stream
    (final.1, next.2 ++ final.2)

/-- The windows one after the other, with a change of the state after each of
them. -/
def feedWindows (store : σ → σ) (state : σ) : List (List α) → σ × List (List β)
  | [] => (state, [])
  | window :: windows =>
    let next := machine.feed state window
    let final := feedWindows store (store next.1) windows
    (final.1, next.2 :: final.2)

@[simp] theorem feed_nil (state : σ) : machine.feed state [] = (state, []) :=
  rfl

theorem feed_append (state : σ) (left right : List α) :
    machine.feed state (left ++ right) =
      ((machine.feed (machine.feed state left).1 right).1,
        (machine.feed state left).2 ++
          (machine.feed (machine.feed state left).1 right).2) := by
  induction left generalizing state with
  | nil => rfl
  | cons x left ih =>
    rw [cons_append, feed, feed, ih, append_assoc]

/-- The windows do not matter if the state stays as it is between them. -/
theorem feedWindows_of_stored (hstored : ∀ stem, stem <+: windows.flatten →
      store (machine.feed state stem).1 = (machine.feed state stem).1) :
    (machine.feedWindows store state windows).1 =
        (machine.feed state windows.flatten).1 ∧
      (machine.feedWindows store state windows).2.flatten =
        (machine.feed state windows.flatten).2 := by
  induction windows generalizing state with
  | nil => exact ⟨rfl, rfl⟩
  | cons window windows ih =>
    have hwindow : store (machine.feed state window).1 =
        (machine.feed state window).1 :=
      hstored window (by rw [flatten_cons]; exact window.prefix_append _)
    have hlater : ∀ stem, stem <+: windows.flatten →
        store (machine.feed (machine.feed state window).1 stem).1 =
          (machine.feed (machine.feed state window).1 stem).1 := by
      intro stem hstem
      have hjoined := hstored (window ++ stem) (by
        rw [flatten_cons]
        exact (prefix_append_right_inj window).mpr hstem)
      rw [feed_append] at hjoined
      exact hjoined
    obtain ⟨hstate, houtputs⟩ := ih hlater
    rw [feedWindows, flatten_cons, feed_append, flatten_cons,
      hwindow, hstate, houtputs]
    exact ⟨rfl, rfl⟩

theorem feedWindows_id (state : σ) (windows : List (List α)) :
    (machine.feedWindows id state windows).1 =
        (machine.feed state windows.flatten).1 ∧
      (machine.feedWindows id state windows).2.flatten =
        (machine.feed state windows.flatten).2 :=
  machine.feedWindows_of_stored fun _ _ => rfl

/-- Puts out nothing but at an end, and starts afresh there. -/
structure Fresh (ends : α → Bool) : Prop where
  silent : ∀ state x, ends x = false → (machine.step state x).2 = []
  afresh : ∀ state x, ends x = true → (machine.step state x).1 = machine.start

variable {machine}

namespace Fresh

theorem feed_live (hfresh : machine.Fresh ends) (state : σ)
    (hlive : ∀ x ∈ stream, ends x = false) :
    (machine.feed state stream).2 = [] := by
  induction stream generalizing state with
  | nil => rfl
  | cons x stream ih =>
    obtain ⟨hx, hlive⟩ := forall_mem_cons.mp hlive
    rw [feed, hfresh.silent state x hx, ih _ hlive, nil_append]

theorem feed_run (hfresh : machine.Fresh ends) (state : σ)
    (hrun : IsRun ends run) :
    (machine.feed state run).1 = machine.start := by
  obtain ⟨before, last, rfl, _, hlast⟩ := hrun
  rw [feed_append]
  exact hfresh.afresh _ last hlast

/-- Each run is read on its own. -/
theorem feed_cut (hfresh : machine.Fresh ends)
    (hcut : Cut ends stream runs rest) :
    machine.feed machine.start stream = ((machine.feed machine.start rest).1,
        (runs.map fun run => (machine.feed machine.start run).2).flatten) := by
  rw [hcut.joined]
  have hclosed := hcut.closed
  have hlive := hcut.live
  clear hcut
  induction runs with
  | nil =>
    rw [flatten_nil, nil_append, map_nil, flatten_nil,
      ← hfresh.feed_live machine.start hlive]
  | cons run runs ih =>
    obtain ⟨hrun, hclosed⟩ := forall_mem_cons.mp hclosed
    rw [flatten_cons, append_assoc, feed_append,
      hfresh.feed_run _ hrun, ih hclosed, map_cons, flatten_cons]

end Fresh

/-! ## Views -/

section Views

universe w' v'

variable {τ : Type w'} {γ : Type v'} {machine' : Transducer τ α γ}
  {view : σ → τ} {shown : β → γ}

/-- The second machine does what is seen of the first one. -/
structure Views (machine : Transducer σ α β) (machine' : Transducer τ α γ)
    (view : σ → τ) (shown : β → γ) : Prop where
  start : machine'.start = view machine.start
  step : ∀ state x, machine'.step (view state) x =
    (view (machine.step state x).1, (machine.step state x).2.map shown)

namespace Views

theorem feed (hviews : machine.Views machine' view shown) (state : σ)
    (stream : List α) :
    machine'.feed (view state) stream = (view (machine.feed state stream).1,
        (machine.feed state stream).2.map shown) := by
  induction stream generalizing state with
  | nil => rfl
  | cons x stream ih =>
    rw [Transducer.feed, hviews.step, ih, Transducer.feed, map_append]

/-- A change that is not seen does not matter between the windows. -/
theorem feedWindows (hviews : machine.Views machine' view shown)
    (store : σ → σ) (hstore : ∀ state, view (store state) = view state)
    (state : σ) (windows : List (List α)) :
    view (machine.feedWindows store state windows).1 =
        (machine'.feed (view state) windows.flatten).1 ∧
      (machine.feedWindows store state windows).2.flatten.map shown =
        (machine'.feed (view state) windows.flatten).2 := by
  induction windows generalizing state with
  | nil => exact ⟨rfl, rfl⟩
  | cons window windows ih =>
    obtain ⟨hstate, houtputs⟩ := ih (store (machine.feed state window).1)
    rw [hstore] at hstate houtputs
    rw [Transducer.feedWindows, flatten_cons, feed_append,
      hviews.feed, flatten_cons, map_append, hstate, houtputs]
    exact ⟨rfl, rfl⟩

end Views

end Views

/-! ## Lanes -/

def feedLanes (states : List σ) (window : List (List α)) : List (σ × List β) :=
  List.zipWith machine.feed states window

def feedLaneWindows (store : σ → σ) (states : List σ) :
    List (List (List α)) → List σ × List (List (List β))
  | [] => (states, [])
  | window :: windows =>
    let next := machine.feedLanes states window
    let final := feedLaneWindows store (next.map fun lane => store lane.1)
      windows
    (final.1, next.map (·.2) :: final.2)

theorem feedLaneWindows_lane (store : σ → σ)
    (hwidth : ∀ window ∈ windows, window.length = states.length)
    (hstate : states[lane]? = some state) :
    (machine.feedLaneWindows store states windows).1[lane]? =
        some (machine.feedWindows store state
          (windows.map fun window => window.getD lane [])).1 ∧
      laneOf lane (machine.feedLaneWindows store states windows).2 =
        (machine.feedWindows store state
          (windows.map fun window => window.getD lane [])).2.flatten := by
  induction windows generalizing states state with
  | nil => exact ⟨hstate, rfl⟩
  | cons window windows ih =>
    obtain ⟨hwindow, hwidth⟩ := forall_mem_cons.mp hwidth
    obtain ⟨hlane, _⟩ := List.getElem?_eq_some_iff.mp hstate
    have hsteps : window[lane]? = some (window.getD lane []) := by
      rw [getD_eq_getElem?_getD,
        getElem?_eq_getElem (hwindow ▸ hlane), Option.getD_some]
    have hnext : (machine.feedLanes states window)[lane]? =
        some (machine.feed state (window.getD lane [])) := by
      rw [feedLanes, getElem?_zipWith, hstate, hsteps]
    have hlength : ((machine.feedLanes states window).map
        fun lane => store lane.1).length = states.length := by
      rw [length_map, feedLanes, length_zipWith, hwindow, Nat.min_self]
    have hstored : ((machine.feedLanes states window).map
        fun lane => store lane.1)[lane]? =
          some (store (machine.feed state (window.getD lane [])).1) := by
      rw [getElem?_map, hnext, Option.map_some]
    have houtputs : ((machine.feedLanes states window).map
        (·.2)).getD lane [] =
          (machine.feed state (window.getD lane [])).2 := by
      rw [getD_eq_getElem?_getD, getElem?_map, hnext,
        Option.map_some, Option.getD_some]
    rw [← hlength] at hwidth
    obtain ⟨hfinal, hlater⟩ := ih hwidth hstored
    constructor
    · exact hfinal
    · rw [feedLaneWindows, laneOf, map_cons, flatten_cons,
        houtputs, map_cons, feedWindows, flatten_cons, ← hlater]
      rfl

end Transducer

end VerlVla
