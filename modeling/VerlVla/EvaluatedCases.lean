import VerlVla.NativeEval

/-!
# Every case is evaluated alone

A robot that has ended rests, whatever the others do.  So the vector gives
every case the outcome that the case has when it is evaluated alone for the
largest number of policy calls.
-/

namespace VerlVla
namespace NativeEval

open BaseEnv

/-! ## One case alone -/

structure RobotFeedback where
  terminated : Bool
  truncated : Bool
  success : Bool
  score : Option ℚ
  deriving DecidableEq

def RobotFeedback.done (feedback : RobotFeedback) : Bool :=
  feedback.terminated || feedback.truncated

/-- A case in the middle of its evaluation. -/
structure RobotRun (S : Type) where
  robot : S
  success : Bool
  done : Bool
  score : ℚ
  calls : ℕ
  deriving DecidableEq

section Alone

variable {S A O : Type} (simulator : RobotSimulator S A O)

def restFeedback : RobotFeedback where
  terminated := false
  truncated := false
  success := false
  score := simulator.processScore.map fun _ => 0

def actFeedback (robot : S) : RobotFeedback where
  terminated := succeeded simulator robot
  truncated := simulator.endFlag robot && !succeeded simulator robot
  success := succeeded simulator robot
  score := simulator.processScore.map fun score =>
    if succeeded simulator robot then 1 else score robot

def runRobot (robot : S) (done : Bool) :
    List A → (S × Bool) × List RobotFeedback
  | [] => ((robot, done), [])
  | action :: actions =>
    if done then
      let rest := runRobot robot true actions
      (rest.1, restFeedback simulator :: rest.2)
    else
      let moved := simulator.takeAction robot action
      let rest := runRobot moved (simulator.endFlag moved) actions
      (rest.1, actFeedback simulator moved :: rest.2)

def RobotRun.begin (case : ℤ × ℤ) : RobotRun S where
  robot := simulator.load case.1 case.2
  success := false
  done := false
  score := 0
  calls := 0

def nextScore (reduction : ScoreReduction) (run : RobotRun S)
    (steps : List RobotFeedback) : ℚ :=
  if simulator.processScore.isSome then
    let scores := steps.map fun step => step.score.getD 0
    match reduction with
    | .trajectoryMax => max run.score (rowMax scores)
    | .terminal =>
      if run.done then run.score
      else terminalOrLatestScore scores (steps.map RobotFeedback.done)
  else run.score

def policyCall (act : O → Option ℤ → Chunk A) (reduction : ScoreReduction)
    (policySeed : ℤ) (run : RobotRun S) : RobotRun S :=
  let chunk := act (simulator.observe run.robot) (some policySeed)
  let moved := runRobot simulator run.robot run.done (List.ofFn chunk)
  { robot := moved.1.1
    success := run.success || moved.2.any RobotFeedback.success
    done := run.done || (moved.2.any RobotFeedback.terminated) ||
      moved.2.any RobotFeedback.truncated
    score := nextScore simulator reduction run moved.2
    calls := if run.done then run.calls else run.calls + 1 }

def evaluateCase (act : O → Option ℤ → Chunk A) (reduction : ScoreReduction)
    (calls : ℕ) (case : ℤ × ℤ) : RobotRun S :=
  (policyCall simulator act reduction case.2)^[calls]
    (RobotRun.begin simulator case)

theorem done_actFeedback (robot : S) :
    (actFeedback simulator robot).done = simulator.endFlag robot := by
  simp only [RobotFeedback.done, actFeedback, succeeded]
  cases simulator.endFlag robot <;> cases simulator.success robot <;> rfl

theorem runRobot_done (robot : S) (actions : List A) :
    runRobot simulator robot true actions = ((robot, true),
        List.replicate actions.length (restFeedback simulator)) := by
  induction actions with
  | nil => rfl
  | cons action actions ih =>
    rw [runRobot, if_pos rfl, ih]
    rfl

theorem runRobot_ended (robot : S) (done : Bool) (actions : List A) :
    (runRobot simulator robot done actions).1.2 =
      (done || ((runRobot simulator robot done actions).2.any
          RobotFeedback.terminated) ||
        (runRobot simulator robot done actions).2.any
          RobotFeedback.truncated) := by
  induction actions generalizing robot done with
  | nil => simp [runRobot]
  | cons action actions ih =>
    cases done with
    | true => simp [runRobot_done]
    | false =>
      have hrest := ih (simulator.takeAction robot action)
        (simulator.endFlag (simulator.takeAction robot action))
      have hdone := done_actFeedback simulator
        (simulator.takeAction robot action)
      simp only [RobotFeedback.done] at hdone
      simp only [runRobot, Bool.false_eq_true, if_false, List.any_cons]
      rw [hrest, ← hdone]
      simp only [Bool.false_or]
      ac_rfl

theorem rowMax_replicate_zero (count : ℕ) :
    rowMax (List.replicate count 0) = 0 := by
  cases count with
  | zero => rfl
  | succ count =>
    rw [List.replicate_succ, rowMax]
    induction count with
    | zero => rfl
    | succ count ih =>
      rw [List.replicate_succ, List.foldl_cons, max_self]
      exact ih

theorem policyCall_done (hdone : run.done = true)
    (hscore : reduction = .trajectoryMax → 0 ≤ run.score) :
    policyCall simulator act reduction policySeed run = run := by
  have hnext : nextScore simulator reduction run
      (List.replicate 24 (restFeedback simulator)) = run.score := by
    unfold nextScore
    cases hscored : simulator.processScore with
    | none => simp
    | some score =>
      have hzero : (restFeedback simulator).score.getD 0 = 0 := by
        simp [restFeedback, hscored]
      cases reduction with
      | terminal => simp [hdone]
      | trajectoryMax =>
        simp only [List.map_replicate, hzero, rowMax_replicate_zero]
        exact max_eq_left (hscore rfl)
  unfold policyCall
  simp only [hdone, runRobot_done, List.length_ofFn]
  rw [hnext]
  cases run
  simp only at hdone
  simp [restFeedback, hdone]

theorem policyCall_score (act : O → Option ℤ → Chunk A) (policySeed : ℤ)
    (run : RobotRun S) : run.score ≤
      (policyCall simulator act .trajectoryMax policySeed run).score := by
  simp only [policyCall, nextScore]
  by_cases hscored : simulator.processScore.isSome
  · rw [if_pos hscored]
    exact le_max_left _ _
  · rw [if_neg hscored]

theorem evaluateCase_succ (act : O → Option ℤ → Chunk A)
    (reduction : ScoreReduction) (calls : ℕ) (case : ℤ × ℤ) :
    evaluateCase simulator act reduction (calls + 1) case =
      policyCall simulator act reduction case.2
        (evaluateCase simulator act reduction calls case) :=
  Function.iterate_succ_apply' _ _ _

theorem evaluateCase_score (act : O → Option ℤ → Chunk A) (calls : ℕ)
    (case : ℤ × ℤ) :
    0 ≤ (evaluateCase simulator act .trajectoryMax calls case).score := by
  induction calls with
  | zero => exact le_rfl
  | succ calls ih =>
    rw [evaluateCase_succ]
    exact le_trans ih (policyCall_score simulator act case.2 _)

theorem evaluateCase_of_done
    (hdone : (evaluateCase simulator act reduction calls case).done = true)
    (hlimit : calls ≤ limit) :
    evaluateCase simulator act reduction limit case =
      evaluateCase simulator act reduction calls case := by
  induction limit, hlimit using Nat.le_induction with
  | base => rfl
  | succ limit _ ih =>
    rw [evaluateCase_succ, ih]
    apply policyCall_done simulator hdone
    rintro rfl
    exact evaluateCase_score simulator act calls case

end Alone

end NativeEval
end VerlVla
