import VerlVla.ClusterRollouts
import VerlVla.TransitionLog

/-!
# Recorders

A recorder takes calls, one at a time.  A call returns an answer or raises, and
changes the recorder.  The log of a recorder that is driven by one caller lists
the calls of the caller, the calls applied to the recorder, and how each call
of the caller ended.
-/

namespace VerlVla

open List hiding after

open Transition

inductive RecorderCall (F : Type)
  | recordOnce (envId : ℕ) (frame : F)
  | saveEpisode (envId : ℕ)
  | clearEpisode (envId : ℕ)
  | setMode (mode : EnvMode)
  | popCompleted
  | flush
  | finalize
  deriving DecidableEq

def RecorderCall.synchronous {F : Type} : RecorderCall F → Bool
  | .setMode _ => true
  | .popCompleted => true
  | .flush => true
  | .finalize => true
  | _ => false

def RecorderCall.finalizes {F : Type} : RecorderCall F → Bool
  | .finalize => true
  | _ => false

theorem RecorderCall.eq_finalize {F : Type} {call : RecorderCall F}
    (hcall : call.finalizes = true) : call = .finalize := by
  cases call with
  | finalize => rfl
  | _ => cases hcall

def RecorderCall.completes {F : Type} : RecorderCall F → Bool
  | .saveEpisode _ => true
  | .popCompleted => true
  | _ => false

/-- A recorder with state `R`, frames `F`, exceptions `E` and answers `P`. -/
structure BaseRecorder (R F E P : Type) where
  apply : RecorderCall F → R → Except E P × R

namespace BaseRecorder

variable {R F E P : Type} (recorder : BaseRecorder R F E P)

def after (state : R) (calls : List (RecorderCall F)) : R :=
  calls.foldl (fun current call => (recorder.apply call current).2) state

@[simp] theorem after_nil (state : R) : recorder.after state [] = state := rfl

theorem after_append (state : R) (left right : List (RecorderCall F)) :
    recorder.after state (left ++ right) =
      recorder.after (recorder.after state left) right :=
  foldl_append ..

theorem after_singleton (state : R) (call : RecorderCall F) :
    recorder.after state [call] = (recorder.apply call state).2 :=
  rfl

end BaseRecorder

/-! ## The log of a caller -/

/-- What a call raises: the exception of the recorder itself, or a
`RuntimeError` of the wrapper around it. -/
inductive CallError (E : Type)
  | own (error : E)
  | workerFailed (cause : E)
  | finalized
  deriving DecidableEq

inductive RecorderEvent (F E P : Type)
  | called (call : RecorderCall F)
  | applied (call : RecorderCall F) (outcome : Except E P)
  | returned (call : RecorderCall F) (answer : Option P)
  | raised (call : RecorderCall F) (error : CallError E)
  deriving DecidableEq

section Logs

variable {R F E P : Type}

def RecorderEvent.ended (call : RecorderCall F) :
    Except (CallError E) P → RecorderEvent F E P
  | .ok answer => .returned call (some answer)
  | .error error => .raised call error

def RecorderEvent.called? : RecorderEvent F E P → Option (RecorderCall F)
  | .called call => some call
  | _ => none

def RecorderEvent.applied? : RecorderEvent F E P → Option (RecorderCall F)
  | .applied call _ => some call
  | _ => none

def RecorderEvent.isApplied : RecorderEvent F E P → Bool
  | .applied _ _ => true
  | _ => false

def calledCalls (entries : List (RecorderEvent F E P)) :
    List (RecorderCall F) :=
  entries.filterMap RecorderEvent.called?

def appliedCalls (entries : List (RecorderEvent F E P)) :
    List (RecorderCall F) :=
  entries.filterMap RecorderEvent.applied?

def Failed (entries : List (RecorderEvent F E P)) : Prop :=
  ∃ call error, .applied call (.error error) ∈ entries

/-- A `finalize` of the caller has ended. -/
def Ended (entries : List (RecorderEvent F E P)) : Prop :=
  (∃ answer, .returned .finalize answer ∈ entries) ∨
    ∃ error, .raised .finalize error ∈ entries

def CallOpen (entries left : List (RecorderEvent F E P))
    (call : RecorderCall F) : Prop :=
  ∃ right, entries = left ++ .called call :: right ∧
    ∀ entry ∈ right, entry.isApplied = true

def outcomeLaw (recorder : BaseRecorder R F E P) (start : R)
    (entries : List (RecorderEvent F E P)) : RecorderEvent F E P → Prop
  | .applied call outcome =>
    (recorder.apply call (recorder.after start (appliedCalls entries))).1 =
      outcome
  | _ => True

/-- A call that returns was made before any failure.  A synchronous call has
the answer that the recorder gives after all the calls made before, none of
which failed.  Only a repeated `finalize` returns without an answer. -/
def returnLaw (recorder : BaseRecorder R F E P) (start : R)
    (entries : List (RecorderEvent F E P)) : RecorderEvent F E P → Prop
  | .returned call answer =>
    ∃ left, CallOpen entries left call ∧
      (call = .finalize ∧ answer = none ∧ Ended left ∨
        ¬Failed left ∧ (call.synchronous = true → answer.isSome) ∧
          ∀ given, answer = some given → ¬Failed entries ∧ (recorder.apply call
              (recorder.after start (calledCalls left))).1 = .ok given)
  | _ => True

/-- A call raises because a call has failed, or after `finalize`. -/
def raiseLaw (entries : List (RecorderEvent F E P)) :
    RecorderEvent F E P → Prop
  | .raised call error =>
    (∃ left, CallOpen entries left call) ∧ match error with
      | .own error => ∃ other, .applied other (.error error) ∈ entries
      | .workerFailed cause => ∃ other, .applied other (.error cause) ∈ entries
      | .finalized => Ended entries
  | _ => True

/-- After a failure nothing is handed over. -/
def stopLaw (entries : List (RecorderEvent F E P)) : RecorderEvent F E P → Prop
  | .applied call _ => Failed entries → call.completes = false
  | _ => True

/-- Driven through a wrapper, a recorder is what its calls make of it: the
applied calls are calls of the caller in order, each with its own outcome, and
the caller is told of a failure by every later call. -/
structure Refines (recorder : BaseRecorder R F E P) (start : R)
    (entries : List (RecorderEvent F E P)) : Prop where
  applied : appliedCalls entries <+: calledCalls entries
  outcomes : Lawful (outcomeLaw recorder start) entries
  returns : Lawful (returnLaw recorder start) entries
  raises : Lawful raiseLaw entries

/-! ## Reading a longer log -/

variable {entries more left : List (RecorderEvent F E P)}
  {call : RecorderCall F}

@[simp] theorem calledCalls_append :
    calledCalls (entries ++ more) = calledCalls entries ++ calledCalls more :=
  filterMap_append

@[simp] theorem appliedCalls_append : appliedCalls (entries ++ more) =
      appliedCalls entries ++ appliedCalls more :=
  filterMap_append

@[simp] theorem calledCalls_ended (ending : Except (CallError E) P) :
    calledCalls [RecorderEvent.ended call ending] = [] := by
  cases ending <;> rfl

@[simp] theorem appliedCalls_ended (ending : Except (CallError E) P) :
    appliedCalls [RecorderEvent.ended call ending] = [] := by
  cases ending <;> rfl

theorem Failed.append (hfailed : Failed entries) : Failed (entries ++ more) := by
  obtain ⟨call, error, hentry⟩ := hfailed
  exact ⟨call, error, mem_append_left _ hentry⟩

theorem not_failed_nil : ¬Failed ([] : List (RecorderEvent F E P)) := by
  rintro ⟨call, error, hentry⟩
  cases hentry

theorem failed_append_iff (hmore : appliedCalls more = []) :
    Failed (entries ++ more) ↔ Failed entries := by
  constructor
  · rintro ⟨call, error, hentry⟩
    rcases mem_append.mp hentry with hentry | hentry
    · exact ⟨call, error, hentry⟩
    · have hcall : call ∈ appliedCalls more :=
        mem_filterMap.mpr ⟨_, hentry, rfl⟩
      simp [hmore] at hcall
  · exact Failed.append

theorem Ended.append (hended : Ended entries) : Ended (entries ++ more) := by
  rcases hended with ⟨answer, hentry⟩ | ⟨error, hentry⟩
  · exact .inl ⟨answer, mem_append_left _ hentry⟩
  · exact .inr ⟨error, mem_append_left _ hentry⟩

theorem ended_finalize (ending : Except (CallError E) P) :
    Ended (entries ++ [.ended .finalize ending]) := by
  cases ending with
  | ok answer =>
    exact .inl ⟨some answer, mem_append_right _ mem_cons_self⟩
  | error error =>
    exact .inr ⟨error, mem_append_right _ mem_cons_self⟩

theorem calledCalls_of_applied
    (hmore : ∀ entry ∈ more, entry.isApplied = true) :
    calledCalls more = [] := by
  apply filterMap_eq_nil_iff.mpr
  intro entry hentry
  cases entry with
  | called call => cases hmore _ hentry
  | _ => rfl

theorem callOpen_called : CallOpen (entries ++ [.called call]) entries call :=
  ⟨[], rfl, by simp⟩

theorem CallOpen.append (hopen : CallOpen entries left call)
    (hmore : ∀ entry ∈ more, entry.isApplied = true) :
    CallOpen (entries ++ more) left call := by
  obtain ⟨right, rfl, hright⟩ := hopen
  refine ⟨right ++ more, by simp, ?_⟩
  intro entry hentry
  rcases mem_append.mp hentry with hentry | hentry
  · exact hright entry hentry
  · exact hmore entry hentry

theorem CallOpen.calledCalls (hopen : CallOpen entries left call) :
    calledCalls entries = VerlVla.calledCalls left ++ [call] := by
  obtain ⟨right, rfl, hright⟩ := hopen
  rw [calledCalls_append, ← singleton_append, calledCalls_append,
    calledCalls_of_applied hright]
  rfl

end Logs

end VerlVla
