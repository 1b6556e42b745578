import Mathlib.Tactic.Linarith
import VerlVla.BaseEnv

/-!
# The feedback of a serial chunk

The feedback of a tick is read from the merged step result.  An environment
that ended before the tick reports nothing, one that was stepped reports its
last step, and one whose policy action was skipped reports its last step of an
earlier tick again.  Feedback is conserved in a chunk exactly if nothing is
lost or repeated that way.
-/

namespace VerlVla
namespace BaseEnv

variable {n : ℕ} {A O : Type}

/-! ## Reports -/

structure Report where
  reward : ℚ
  terminated : Bool
  truncated : Bool
  success : Bool
  deriving DecidableEq

def Report.done (report : Report) : Bool :=
  report.terminated || report.truncated

def Report.nothing : Report where
  reward := 0
  terminated := false
  truncated := false
  success := false

def StepRow.report (row : StepRow O) : Report where
  reward := row.reward
  terminated := row.terminated
  truncated := row.truncated
  success := row.success

def StepFeedback.report (feedback : StepFeedback n) (e : Fin n) : Report where
  reward := feedback.reward e
  terminated := feedback.terminated e
  truncated := feedback.truncated e
  success := feedback.success e

def BackendCall.report (e : Fin n) : BackendCall n A O → Option Report
  | .step envIds _ _ _ result =>
    if envIds e then some (result e).report else none
  | .reset _ => none

def stepReports (e : Fin n) (calls : List (BackendCall n A O)) : List Report :=
  calls.filterMap (BackendCall.report e)

/-- One environment in one tick: what its steps returned, and what the tick
reports. -/
structure LaneTick where
  reports : List Report
  feedback : Report

structure ExecutedTick (n : ℕ) (A O : Type) where
  calls : List (BackendCall n A O)
  feedback : StepFeedback n

def executedTicks (env : EnvState n A O) (chunkStarted : Bool) :
    List (TickInput n A O) →
    Except (Raised n A O) (List (ExecutedTick n A O))
  | [] => .ok []
  | input :: inputs => do
    let next ← executeActionStep env input chunkStarted
    let rest ← executedTicks next.1 false inputs
    pure (⟨next.1.calls.drop env.calls.length, next.2⟩ :: rest)

def laneTicks (e : Fin n) (ticks : List (ExecutedTick n A O)) :
    List LaneTick :=
  ticks.map fun tick => ⟨stepReports e tick.calls, tick.feedback.report e⟩

theorem executedTicks_of_steps {env : EnvState n A O}
    (hsteps : executeSteps env chunkStarted inputs = .ok next) :
    ∃ ticks, executedTicks env chunkStarted inputs = .ok ticks ∧
      ticks.map (·.feedback) = next.2 := by
  induction inputs generalizing env chunkStarted next with
  | nil =>
    cases hsteps
    exact ⟨[], rfl, rfl⟩
  | cons input inputs ih =>
    obtain ⟨ticked, htick, htail⟩ := bind_eq_ok.mp hsteps
    obtain ⟨rest, hrest, hpure⟩ := bind_eq_ok.mp htail
    cases hpure
    obtain ⟨ticks, hticks, hfeedback⟩ := ih hrest
    refine ⟨⟨ticked.1.calls.drop env.calls.length, ticked.2⟩ :: ticks, ?_, ?_⟩
    · simp only [executedTicks, htick, hticks, bind, Except.bind, pure,
        Except.pure]
    · rw [List.map_cons, hfeedback]

structure LaneTick.FlagsAgree (tick : LaneTick) : Prop where
  terminated : tick.feedback.terminated = true ↔
    ∃ report ∈ tick.reports, report.terminated = true
  truncated : tick.feedback.truncated = true ↔
    ∃ report ∈ tick.reports, report.truncated = true
  success : tick.feedback.success = true ↔
    ∃ report ∈ tick.reports, report.success = true

def feedbackReward (ticks : List LaneTick) : ℚ :=
  (ticks.map (·.feedback.reward)).sum

def rewardSum (reports : List Report) : ℚ := (reports.map (·.reward)).sum

def stepReward (ticks : List LaneTick) : ℚ :=
  (ticks.map fun tick => rewardSum tick.reports).sum

structure FeedbackConserved (ticks : List LaneTick) : Prop where
  reward : feedbackReward ticks = stepReward ticks
  flags : ∀ tick ∈ ticks, tick.FlagsAgree
  idle : ∀ tick ∈ ticks, tick.reports = [] → tick.feedback = .nothing

/-! ## When nothing is lost or repeated -/

/-- After a last step that did not end the episode, a tick without a step
would report it again; it must have nothing to report. -/
def NothingRepeated : Option Report → List (List Report) → Prop
  | _, [] => True
  | last, reports :: rest =>
    (reports = [] → ∀ report ∈ last, report.done = false →
      report.reward = 0 ∧ report.success = false) ∧
    NothingRepeated (reports.getLast?.or last) rest

structure NothingLost (steps : List (List Report)) : Prop where
  /-- Steps followed by another step of the same tick. -/
  reward : (steps.map fun reports => rewardSum reports.dropLast).sum = 0
  success : ∀ reports ∈ steps, (∃ report ∈ reports, report.success = true) →
    ∃ report ∈ reports.getLast?, report.success = true

/-- How a tick treats one environment, given its last step in the chunk. -/
inductive Treatment (last : Option Report) : LaneTick → Prop
  | ended (hlast : ∀ report ∈ last, report.done = true) :
      Treatment last ⟨[], .nothing⟩
  | stepped {earlier : List Report} {report : Report}
      (hearlier : ∀ other ∈ earlier, other.done = false) :
      Treatment last ⟨earlier ++ [report], report⟩
  | skipped {report : Report} (hlast : last = some report)
      (hlive : report.done = false) : Treatment last ⟨[], report⟩

inductive Treated : Option Report → List LaneTick → Prop
  | nil {last : Option Report} : Treated last []
  | cons {last : Option Report} {tick : LaneTick} {ticks : List LaneTick}
      (htick : Treatment last tick)
      (hticks : Treated (tick.reports.getLast?.or last) ticks) :
      Treated last (tick :: ticks)

section Conservation

theorem flags_stepped (hearlier : ∀ other ∈ earlier, other.done = false) :
    LaneTick.FlagsAgree ⟨earlier ++ [report], report⟩ ↔
      ((∃ other ∈ earlier ++ [report], other.success = true) →
        report.success = true) := by
  constructor
  · intro hflags
    exact hflags.success.mpr
  · intro hsuccess
    constructor
    · constructor
      · intro hterminated
        exact ⟨report, by simp, hterminated⟩
      · rintro ⟨other, hother, hterminated⟩
        rcases List.mem_append.mp hother with hother | hother
        · have hlive := hearlier other hother
          rw [Report.done, hterminated, Bool.true_or] at hlive
          cases hlive
        · rwa [List.mem_singleton.mp hother] at hterminated
    · constructor
      · intro htruncated
        exact ⟨report, by simp, htruncated⟩
      · rintro ⟨other, hother, htruncated⟩
        rcases List.mem_append.mp hother with hother | hother
        · have hlive := hearlier other hother
          rw [Report.done, htruncated, Bool.or_true] at hlive
          cases hlive
        · rwa [List.mem_singleton.mp hother] at htruncated
    · constructor
      · intro hreport
        exact ⟨report, by simp, hreport⟩
      · exact hsuccess

theorem flags_skipped (hlive : report.done = false) :
    LaneTick.FlagsAgree ⟨[], report⟩ ↔ report.success = false := by
  rw [Report.done, Bool.or_eq_false_iff] at hlive
  constructor
  · intro hflags
    by_contra hsuccess
    rw [Bool.not_eq_false] at hsuccess
    obtain ⟨_, hmem, _⟩ := hflags.success.mp hsuccess
    cases hmem
  · intro hsuccess
    constructor
    · simp [hlive.1]
    · simp [hlive.2]
    · simp [hsuccess]

/-- Flags and idle ticks are right exactly if nothing is repeated and no
success is lost. -/
theorem flags_iff (htreated : Treated last ticks) :
    (∀ tick ∈ ticks, tick.FlagsAgree ∧
      (tick.reports = [] → tick.feedback = .nothing)) ↔
    NothingRepeated last (ticks.map (·.reports)) ∧
      ∀ reports ∈ ticks.map (·.reports),
        (∃ report ∈ reports, report.success = true) →
          ∃ report ∈ reports.getLast?, report.success = true := by
  induction htreated with
  | nil => simp [NothingRepeated]
  | @cons last tick ticks htick _ ih =>
    rw [List.forall_mem_cons, ih, List.map_cons, List.forall_mem_cons,
      NothingRepeated]
    have hhead : (tick.FlagsAgree ∧
        (tick.reports = [] → tick.feedback = .nothing)) ↔
        (tick.reports = [] → ∀ report ∈ last, report.done = false →
          report.reward = 0 ∧ report.success = false) ∧
        ((∃ report ∈ tick.reports, report.success = true) →
          ∃ report ∈ tick.reports.getLast?, report.success = true) := by
      cases htick with
      | ended hlast =>
        constructor
        · intro _
          constructor
          · intro _ report hreport hlive
            rw [hlast report hreport] at hlive
            cases hlive
          · rintro ⟨_, hmem, _⟩
            cases hmem
        · intro _
          exact ⟨(flags_skipped rfl).mpr rfl, fun _ => rfl⟩
      | stepped hearlier =>
        rw [flags_stepped hearlier]
        simp
      | @skipped report hlast hlive =>
        subst hlast
        rw [flags_skipped hlive]
        constructor
        · rintro ⟨hsuccess, hidle⟩
          constructor
          · intro _ other hother _
            cases hother
            have hnothing : report = .nothing := hidle rfl
            rw [hnothing]
            exact ⟨rfl, rfl⟩
          · rintro ⟨_, hmem, _⟩
            cases hmem
        · rintro ⟨hrepeated, _⟩
          obtain ⟨hreward, hsuccess⟩ := hrepeated rfl report rfl hlive
          refine ⟨hsuccess, fun _ => ?_⟩
          rw [Report.done, Bool.or_eq_false_iff] at hlive
          cases report
          simp_all [Report.nothing]
    rw [hhead]
    tauto

theorem feedbackReward_add (htreated : Treated last ticks)
    (hidle : ∀ tick ∈ ticks, tick.reports = [] → tick.feedback = .nothing) :
    feedbackReward ticks + (ticks.map fun tick =>
      rewardSum tick.reports.dropLast).sum = stepReward ticks := by
  induction htreated with
  | nil => simp [feedbackReward, stepReward]
  | @cons last tick ticks htick _ ih =>
    rw [List.forall_mem_cons] at hidle
    have hrest := ih hidle.2
    have hhead : tick.feedback.reward + rewardSum tick.reports.dropLast =
        rewardSum tick.reports := by
      cases htick with
      | ended => simp [rewardSum, Report.nothing]
      | stepped => simp [rewardSum, add_comm]
      | skipped =>
        have hnothing := hidle.1 rfl
        simp only at hnothing
        rw [hnothing]
        simp [rewardSum, Report.nothing]
    simp only [feedbackReward, stepReward, List.map_cons,
      List.sum_cons] at hrest ⊢
    linarith

theorem conserved_iff (htreated : Treated last ticks) :
    FeedbackConserved ticks ↔ NothingRepeated last (ticks.map (·.reports)) ∧
        NothingLost (ticks.map (·.reports)) := by
  have hflags := flags_iff htreated
  constructor
  · intro hconserved
    obtain ⟨hrepeated, hsuccess⟩ := hflags.mp fun tick htick =>
      ⟨hconserved.flags tick htick, hconserved.idle tick htick⟩
    refine ⟨hrepeated, ?_, hsuccess⟩
    have hsum := feedbackReward_add htreated hconserved.idle
    rw [hconserved.reward] at hsum
    rw [List.map_map]
    exact left_eq_add.mp hsum.symm
  · rintro ⟨hrepeated, hlost⟩
    have hticks := hflags.mpr ⟨hrepeated, hlost.success⟩
    have hidle := fun tick htick => (hticks tick htick).2
    have hsum := feedbackReward_add htreated hidle
    have hreward := hlost.reward
    rw [List.map_map] at hreward
    refine ⟨?_, fun tick htick => (hticks tick htick).1, hidle⟩
    rw [← hsum]
    exact (left_eq_add.mpr hreward)

end Conservation

end BaseEnv
end VerlVla
