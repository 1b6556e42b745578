import Mathlib.Data.List.Nodup
import Mathlib.Logic.Function.Basic
import VerlVla.TransitionLog

/-!
# Frames for the subscribers of an observation store

A call chooses a frame under the lock of the store and puts it into the queues
of the subscribers afterwards, one queue at a time: it drops what the queue
holds and then puts the frame.  Other calls and the consumers act in between.
-/

namespace VerlVla

open List hiding after take

open Transition

variable {F : Type}

/-- A call that has left the lock, with the queues it still has to fill. -/
structure StoreCall (F : Type) where
  puts : List (ℕ × F)
  dropped : Bool
  answer : Option ℕ

/-- Queues are numbered as they are created and hold one frame. -/
structure ObsStore (F : Type) where
  latest : Option F
  subscribers : List ℕ
  created : ℕ
  returned : List ℕ
  queue : ℕ → Option F
  calls : ℕ → Option (StoreCall F)

inductive ObsLabel (F : Type)
  | update (call : ℕ) (frame : F) (subscribers : List ℕ)
  | subscribe (call : ℕ)
  | unsubscribe (subscriber : ℕ)
  | getNowait (call : ℕ)
  | putNowait (call : ℕ)
  | finish (call : ℕ)
  | take (subscriber : ℕ)

inductive ObsEvent (F : Type)
  | latest (frame : F)
  | taken (subscriber : ℕ) (frame : F)

namespace ObsStore

def initial : ObsStore F := ⟨none, [], 0, [], fun _ => none, fun _ => none⟩

def setCall (store : ObsStore F) (call : ℕ)
    (running : Option (StoreCall F)) : ObsStore F :=
  { store with calls := Function.update store.calls call running }

def setQueue (store : ObsStore F) (subscriber : ℕ) (held : Option F) :
    ObsStore F :=
  { store with queue := Function.update store.queue subscriber held }

def setLatest (store : ObsStore F) (frame : F) : ObsStore F :=
  { store with latest := some frame }

def addSubscriber (store : ObsStore F) : ObsStore F := { store with
    subscribers := store.subscribers ++ [store.created]
    created := store.created + 1 }

/-- The tuple of a set of subscribers is in any order. -/
def update (store : ObsStore F) (call : ℕ) (frame : F)
    (subscribers : List ℕ) : Option (List (ObsEvent F) × ObsStore F) :=
  if (store.calls call).isNone ∧ subscribers.Perm store.subscribers then
    some ([.latest frame], (store.setLatest frame).setCall call
      (some ⟨subscribers.map fun target => (target, frame), false, none⟩))
  else none

def subscribe (store : ObsStore F) (call : ℕ) :
    Option (List (ObsEvent F) × ObsStore F) :=
  if (store.calls call).isNone then
    some ([], store.addSubscriber.setCall call
      (some ⟨store.latest.toList.map fun frame => (store.created, frame),
        false, some store.created⟩))
  else none

def unsubscribe (store : ObsStore F) (subscriber : ℕ) :
    Option (List (ObsEvent F) × ObsStore F) :=
  if subscriber ∈ store.returned then
    some ([], { store with
      subscribers := store.subscribers.erase subscriber })
  else none

/-- The first half of `_put_latest`. -/
def getNowait (store : ObsStore F) (call : ℕ) :
    Option (List (ObsEvent F) × ObsStore F) :=
  match store.calls call with
  | some ⟨(target, frame) :: puts, false, answer⟩ =>
    some ([], (store.setQueue target none).setCall call
      (some ⟨(target, frame) :: puts, true, answer⟩))
  | _ => none

/-- The second half: a frame that came in between stays. -/
def putNowait (store : ObsStore F) (call : ℕ) :
    Option (List (ObsEvent F) × ObsStore F) :=
  match store.calls call with
  | some ⟨(target, frame) :: puts, true, answer⟩ =>
    some ([], (store.setQueue target
      (some ((store.queue target).getD frame))).setCall call
        (some ⟨puts, false, answer⟩))
  | _ => none

def finish (store : ObsStore F) (call : ℕ) :
    Option (List (ObsEvent F) × ObsStore F) :=
  match store.calls call with
  | some ⟨[], _, answer⟩ =>
    some ([], { store with
      returned := store.returned ++ answer.toList }.setCall call none)
  | _ => none

def take (store : ObsStore F) (subscriber : ℕ) :
    Option (List (ObsEvent F) × ObsStore F) :=
  if subscriber ∈ store.returned then
    (store.queue subscriber).map fun frame =>
      ([.taken subscriber frame], store.setQueue subscriber none)
  else none

def machine (F : Type) :
    Machine (ObsStore F) (ObsLabel F) (List (ObsEvent F)) where
  step store
    | .update call frame subscribers => store.update call frame subscribers
    | .subscribe call => store.subscribe call
    | .unsubscribe subscriber => store.unsubscribe subscriber
    | .getNowait call => store.getNowait call
    | .putNowait call => store.putNowait call
    | .finish call => store.finish call
    | .take subscriber => store.take subscriber

/-! ## What subscribers get -/

/-- The frames that became the latest, in order. -/
def published (entries : List (ObsEvent F)) : List F := entries.filterMap fun
    | .latest frame => some frame
    | .taken _ _ => none

def received (entries : List (ObsEvent F)) (subscriber : ℕ) : List F :=
  entries.filterMap fun
    | .latest _ => none
    | .taken other frame => if other = subscriber then some frame else none

/-- What a subscriber has received, and then what its queue holds. -/
def delivered (entries : List (ObsEvent F)) (store : ObsStore F)
    (subscriber : ℕ) : List F :=
  received entries subscriber ++ (store.queue subscriber).toList

/-- The queues that a call still has to fill. -/
def puts (store : ObsStore F) (call : ℕ) : List (ℕ × F) :=
  ((store.calls call).map StoreCall.puts).getD []

/-- A running call has yet to put this frame. -/
def Owed (store : ObsStore F) (subscriber : ℕ) (frame : F) : Prop :=
  ∃ call, (subscriber, frame) ∈ store.puts call

/-- No update chooses a frame while a subscriber is still owed one. -/
def Settled (store : ObsStore F) : ObsLabel F → Prop
  | .update _ _ _ => ∀ subscriber ∈ store.subscribers, ∀ frame,
      ¬store.Owed subscriber frame
  | _ => True

section Log

variable {frame : F} {subscriber other : ℕ}

@[simp] theorem published_latest :
    published (entries ++ [.latest frame]) = published entries ++ [frame] := by
  simp [published]

@[simp] theorem published_taken :
    published (entries ++ [.taken subscriber frame]) = published entries := by
  simp [published]

@[simp] theorem received_latest :
    received (entries ++ [.latest frame]) subscriber =
      received entries subscriber := by
  simp [received]

@[simp] theorem received_taken :
    received (entries ++ [.taken other frame]) subscriber =
      received entries subscriber ++
        if other = subscriber then [frame] else [] := by
  by_cases hsame : other = subscriber <;> simp [received, hsame]

end Log

/-! ## Running calls -/

section Calls

variable {store : ObsStore F} {call other subscriber target : ℕ} {frame : F}

@[simp] theorem queue_setQueue_self :
    (store.setQueue subscriber held).queue subscriber = held :=
  Function.update_self _ _ _

@[simp] theorem queue_setQueue_of_ne (hother : other ≠ subscriber) :
    (store.setQueue subscriber held).queue other = store.queue other :=
  Function.update_of_ne hother _ _

theorem delivered_setQueue_of_ne (entries : List (ObsEvent F))
    (hother : other ≠ subscriber) :
    delivered entries (store.setQueue subscriber held) other =
      delivered entries store other := by
  unfold delivered
  rw [queue_setQueue_of_ne hother]

@[simp] theorem calls_setCall_self :
    (store.setCall call running).calls call = running :=
  Function.update_self _ _ _

@[simp] theorem calls_setCall_of_ne (hother : other ≠ call) :
    (store.setCall call running).calls other = store.calls other :=
  Function.update_of_ne hother _ _

@[simp] theorem puts_setCall_self : (store.setCall call running).puts call =
    (running.map StoreCall.puts).getD [] := by
  simp [puts]

@[simp] theorem puts_setCall_of_ne (hother : other ≠ call) :
    (store.setCall call running).puts other = store.puts other := by
  simp [puts, hother]

theorem puts_eq_nil (hnone : (store.calls call).isNone) :
    store.puts call = [] := by
  rw [puts, Option.isNone_iff_eq_none.mp hnone]
  rfl

theorem owed_setCall (hnone : store.puts call = []) :
    (store.setCall call running).Owed subscriber frame ↔
      (subscriber, frame) ∈ (running.map StoreCall.puts).getD [] ∨
        store.Owed subscriber frame := by
  constructor
  · rintro ⟨other, hentry⟩
    by_cases hsame : other = call
    · rw [hsame, puts_setCall_self] at hentry
      exact Or.inl hentry
    · rw [puts_setCall_of_ne hsame] at hentry
      exact Or.inr ⟨other, hentry⟩
  · rintro (hentry | ⟨other, hentry⟩)
    · refine ⟨call, ?_⟩
      rw [puts_setCall_self]
      exact hentry
    · refine ⟨other, ?_⟩
      rw [puts_setCall_of_ne]
      · exact hentry
      · rintro rfl
        simp [hnone] at hentry

/-- A call that has the same queues to fill. -/
theorem owed_setCall_of_eq
    (hputs : (running.map StoreCall.puts).getD [] = store.puts call) :
    (store.setCall call running).Owed subscriber frame ↔
      store.Owed subscriber frame := by
  apply exists_congr
  intro other
  by_cases hsame : other = call
  · rw [hsame, puts_setCall_self, hputs]
  · rw [puts_setCall_of_ne hsame]

/-- No two puts into one queue are outstanding. -/
structure PutsInv (puts : ℕ → List (ℕ × F)) (created : ℕ) : Prop where
  targets : ∀ call, ((puts call).map Prod.fst).Nodup
  alone : ∀ call other, ∀ entry ∈ puts call, ∀ second ∈ puts other,
    entry.1 = second.1 → call = other
  created : ∀ call, ∀ entry ∈ puts call, entry.1 < created

theorem PutsInv.change {before after : ℕ → List (ℕ × F)}
    {created next : ℕ} (hinv : PutsInv before created)
    (hothers : ∀ other, other ≠ call → after other = before other)
    (htargets : ((after call).map Prod.fst).Nodup)
    (halone : ∀ entry ∈ after call, ∀ other, other ≠ call →
      ∀ second ∈ before other, entry.1 ≠ second.1)
    (hcreated : ∀ entry ∈ after call, entry.1 < next)
    (hle : created ≤ next) : PutsInv after next := by
  constructor
  · intro other
    by_cases hsame : other = call
    · rw [hsame]
      exact htargets
    · rw [hothers other hsame]
      exact hinv.targets other
  · intro first second entry hentry later hlater heq
    by_cases hfirst : first = call
    · by_cases hsecond : second = call
      · rw [hfirst, hsecond]
      · rw [hfirst] at hentry
        rw [hothers second hsecond] at hlater
        exact absurd heq (halone entry hentry second hsecond later hlater)
    · rw [hothers first hfirst] at hentry
      by_cases hsecond : second = call
      · rw [hsecond] at hlater
        exact absurd heq.symm (halone later hlater first hfirst entry hentry)
      · rw [hothers second hsecond] at hlater
        exact hinv.alone first second entry hentry later hlater heq
  · intro other entry hentry
    by_cases hsame : other = call
    · rw [hsame] at hentry
      exact hcreated entry hentry
    · rw [hothers other hsame] at hentry
      exact Nat.lt_of_lt_of_le (hinv.created other entry hentry) hle

/-- A call that has fewer queues to fill than before. -/
theorem PutsInv.shrink {created : ℕ} (hinv : PutsInv store.puts created)
    (hsub : ((running.map StoreCall.puts).getD []).Sublist (store.puts call)) :
    PutsInv (store.setCall call running).puts created := by
  apply hinv.change (fun _ => puts_setCall_of_ne) _ _ _ (Nat.le_refl _)
  · rw [puts_setCall_self]
    exact (hinv.targets call).sublist (hsub.map Prod.fst)
  · rw [puts_setCall_self]
    intro entry hentry other hother second hsecond heq
    exact hother (hinv.alone call other entry (hsub.mem hentry) second
      hsecond heq).symm
  · rw [puts_setCall_self]
    intro entry hentry
    exact hinv.created call entry (hsub.mem hentry)

/-- A queue that a call has emptied is empty until the call fills it. -/
def Dropped (store : ObsStore F) : Prop :=
  ∀ call target frame puts answer, store.calls call =
    some ⟨(target, frame) :: puts, true, answer⟩ → store.queue target = none

theorem Dropped.setQueue (hdropped : store.Dropped) (target : ℕ) :
    (store.setQueue target none).Dropped := by
  intro other second frame puts answer hother
  by_cases hsame : second = target
  · rw [hsame, queue_setQueue_self]
  · rw [queue_setQueue_of_ne hsame]
    exact hdropped other second frame puts answer hother

theorem Dropped.setCall (hdropped : store.Dropped)
    (hcall : ∀ target frame puts answer,
      running = some ⟨(target, frame) :: puts, true, answer⟩ →
        store.queue target = none) :
    (store.setCall call running).Dropped := by
  intro other target frame puts answer hother
  by_cases hsame : other = call
  · rw [hsame, calls_setCall_self] at hother
    exact hcall target frame puts answer hother
  · rw [calls_setCall_of_ne hsame] at hother
    exact hdropped other target frame puts answer hother

end Calls

/-- The state of a store between two steps, in a run that settles. -/
structure StoreInv (entries : List (ObsEvent F)) (store : ObsStore F) :
    Prop where
  latest : store.latest = (published entries).getLast?
  nodup : store.subscribers.Nodup
  subscribed : ∀ subscriber ∈ store.subscribers, subscriber < store.created
  puts : PutsInv store.puts store.created
  fresh : ∀ subscriber, store.created ≤ subscriber →
    delivered entries store subscriber = []
  dropped : store.Dropped
  ordered : ∀ subscriber,
    (delivered entries store subscriber).Sublist (published entries)
  owed : ∀ subscriber frame, store.Owed subscriber frame →
    (delivered entries store subscriber ++ [frame]).Sublist
        (published entries) ∧
      (subscriber ∈ store.subscribers → store.latest = some frame)
  newest : ∀ subscriber ∈ store.subscribers,
    (∀ frame, ¬store.Owed subscriber frame) →
      (delivered entries store subscriber).getLast? = store.latest

/-! ## Steps -/

section Steps

variable {store next : ObsStore F} {call subscriber : ℕ}

theorem StoreInv.update {frame : F} {subscribers : List ℕ}
    (hinv : StoreInv entries store)
    (hsettled : Settled store (.update call frame subscribers))
    (hstep : store.update call frame subscribers = some (more, next)) :
    StoreInv (entries ++ more) next := by
  unfold ObsStore.update at hstep
  split_ifs at hstep with hguard
  cases hstep
  obtain ⟨hfree, hperm⟩ := hguard
  have hnone : (store.setLatest frame).puts call = [] := puts_eq_nil hfree
  constructor
  · rw [published_latest, getLast?_concat]
    rfl
  · exact hinv.nodup
  · exact hinv.subscribed
  · apply hinv.puts.change (fun _ => puts_setCall_of_ne) _ _ _ (Nat.le_refl _)
    · rw [puts_setCall_self]
      simpa [Function.comp_def] using hperm.nodup_iff.mpr hinv.nodup
    · rw [puts_setCall_self]
      intro entry hentry other _ second hsecond heq
      obtain ⟨target, htarget, rfl⟩ := mem_map.mp hentry
      apply hsettled target (hperm.mem_iff.mp htarget) second.2
      refine ⟨other, ?_⟩
      rw [show target = second.1 from heq]
      exact hsecond
    · rw [puts_setCall_self]
      intro entry hentry
      obtain ⟨target, htarget, rfl⟩ := mem_map.mp hentry
      exact hinv.subscribed target (hperm.mem_iff.mp htarget)
  · intro subscriber hcreated
    unfold delivered
    rw [received_latest]
    exact hinv.fresh subscriber hcreated
  · apply Dropped.setCall hinv.dropped
    intro target old puts answer hcall
    have hflag := congrArg StoreCall.dropped (Option.some.inj hcall)
    cases hflag
  · intro subscriber
    unfold delivered
    rw [received_latest, published_latest]
    exact (hinv.ordered subscriber).trans (sublist_append_left _ _)
  · intro subscriber other howed
    unfold delivered
    rw [received_latest, published_latest]
    rcases (owed_setCall hnone).mp howed with hnew | hold
    · obtain ⟨target, _, heq⟩ := mem_map.mp hnew
      cases heq
      exact ⟨(hinv.ordered subscriber).append (Sublist.refl _), fun _ => rfl⟩
    · exact ⟨(hinv.owed subscriber other hold).1.trans
        (sublist_append_left _ _),
        fun hmember => absurd hold (hsettled subscriber hmember other)⟩
  · intro subscriber hmember hnever
    apply absurd _ (hnever frame)
    exact (owed_setCall hnone).mpr (Or.inl
      (mem_map_of_mem (hperm.mem_iff.mpr hmember)))

theorem StoreInv.subscribe (hinv : StoreInv entries store)
    (hstep : store.subscribe call = some (more, next)) :
    StoreInv (entries ++ more) next := by
  unfold ObsStore.subscribe at hstep
  split_ifs at hstep with hfree
  cases hstep
  rw [append_nil]
  have hnone : store.addSubscriber.puts call = [] := puts_eq_nil hfree
  have hempty := hinv.fresh store.created (Nat.le_refl _)
  have hfirst : ∀ {entry : ℕ × F},
      entry ∈ store.latest.toList.map (fun frame => (store.created, frame)) →
      entry.1 = store.created ∧ store.latest = some entry.2 := by
    intro entry hentry
    obtain ⟨frame, hframe, rfl⟩ := mem_map.mp hentry
    exact ⟨rfl, Option.mem_toList.mp hframe⟩
  constructor
  · exact hinv.latest
  · apply Nodup.append hinv.nodup (nodup_singleton _)
    intro subscriber hmember hnew
    have hlt := hinv.subscribed subscriber hmember
    rw [mem_singleton.mp hnew] at hlt
    exact Nat.lt_irrefl _ hlt
  · intro subscriber hmember
    rcases mem_append.mp hmember with hold | hnew
    · exact Nat.lt_succ_of_lt (hinv.subscribed subscriber hold)
    · rw [mem_singleton.mp hnew]
      exact Nat.lt_succ_self _
  · apply hinv.puts.change (fun _ => puts_setCall_of_ne) _ _ _ (Nat.le_succ _)
    · rw [puts_setCall_self]
      cases store.latest <;> simp
    · rw [puts_setCall_self]
      intro entry hentry other _ second hsecond heq
      have hlt := hinv.puts.created other second hsecond
      rw [← heq, (hfirst hentry).1] at hlt
      exact Nat.lt_irrefl _ hlt
    · rw [puts_setCall_self]
      intro entry hentry
      rw [(hfirst hentry).1]
      exact Nat.lt_succ_self _
  · intro subscriber hle
    exact hinv.fresh subscriber (Nat.le_of_succ_le hle)
  · apply Dropped.setCall hinv.dropped
    intro target old puts answer hcall
    have hflag := congrArg StoreCall.dropped (Option.some.inj hcall)
    cases hflag
  · exact hinv.ordered
  · intro subscriber frame howed
    rcases (owed_setCall hnone).mp howed with hnew | hold
    · obtain ⟨rfl, hlatest⟩ := hfirst hnew
      refine ⟨?_, fun _ => hlatest⟩
      change (delivered entries store store.created ++ [frame]).Sublist _
      rw [hempty, nil_append, singleton_sublist]
      apply mem_of_getLast?
      rw [← hinv.latest, hlatest]
    · refine ⟨(hinv.owed subscriber frame hold).1, fun hmember => ?_⟩
      apply (hinv.owed subscriber frame hold).2
      rcases mem_append.mp hmember with hmember | hnew
      · exact hmember
      · obtain ⟨other, hentry⟩ := hold
        have hlt := hinv.puts.created other _ hentry
        rw [mem_singleton.mp hnew] at hlt
        exact absurd hlt (Nat.lt_irrefl _)
  · intro subscriber hmember hnever
    rcases mem_append.mp hmember with hold | hnew
    · apply hinv.newest subscriber hold
      intro frame hframe
      exact hnever frame ((owed_setCall hnone).mpr (Or.inr hframe))
    · rw [mem_singleton.mp hnew] at hnever ⊢
      change (delivered entries store store.created).getLast? = store.latest
      rw [hempty]
      cases hlatest : store.latest with
      | none => rfl
      | some frame =>
        apply absurd _ (hnever frame)
        apply (owed_setCall hnone).mpr
        simp [hlatest]

theorem StoreInv.unsubscribe (hinv : StoreInv entries store)
    (hstep : store.unsubscribe subscriber = some (more, next)) :
    StoreInv (entries ++ more) next := by
  unfold ObsStore.unsubscribe at hstep
  split_ifs at hstep
  cases hstep
  rw [append_nil]
  have hmember : ∀ other ∈ store.subscribers.erase subscriber,
      other ∈ store.subscribers := fun _ => mem_of_mem_erase
  exact ⟨hinv.latest, hinv.nodup.erase _,
    fun other hother => hinv.subscribed other (hmember other hother),
    hinv.puts, hinv.fresh, hinv.dropped, hinv.ordered,
    fun other frame howed => ⟨(hinv.owed other frame howed).1,
      fun hother => (hinv.owed other frame howed).2 (hmember other hother)⟩,
    fun other hother => hinv.newest other (hmember other hother)⟩

theorem StoreInv.getNowait (hinv : StoreInv entries store)
    (hstep : store.getNowait call = some (more, next)) :
    StoreInv (entries ++ more) next := by
  unfold ObsStore.getNowait at hstep
  split at hstep
  · rename_i target frame puts answer hcall
    cases hstep
    rw [append_nil]
    have hputs : store.puts call = (target, frame) :: puts := by
      rw [ObsStore.puts, hcall]
      rfl
    have howed : ∀ subscriber other, ((store.setQueue target none).setCall
        call (some ⟨(target, frame) :: puts, true, answer⟩)).Owed subscriber
          other ↔ store.Owed subscriber other :=
      fun _ _ => owed_setCall_of_eq hputs.symm
    have hdelivered : ∀ subscriber, (delivered entries
        (store.setQueue target none) subscriber).Sublist
          (delivered entries store subscriber) := by
      intro subscriber
      by_cases hsame : subscriber = target
      · unfold delivered
        rw [hsame, queue_setQueue_self, Option.toList_none, append_nil]
        exact sublist_append_left _ _
      · rw [delivered_setQueue_of_ne entries hsame]
    constructor
    · exact hinv.latest
    · exact hinv.nodup
    · exact hinv.subscribed
    · apply PutsInv.shrink hinv.puts
      rw [hputs]
      exact Sublist.refl _
    · intro subscriber hle
      have hsub := hdelivered subscriber
      rw [hinv.fresh subscriber hle] at hsub
      exact sublist_nil.mp hsub
    · apply (hinv.dropped.setQueue target).setCall
      intro second old rest found heq
      cases heq
      exact queue_setQueue_self
    · intro subscriber
      exact (hdelivered subscriber).trans (hinv.ordered subscriber)
    · intro subscriber other hother
      obtain ⟨hsub, hlatest⟩ :=
        hinv.owed subscriber other ((howed subscriber other).mp hother)
      exact ⟨((hdelivered subscriber).append (Sublist.refl _)).trans
        hsub, hlatest⟩
    · intro subscriber hmember hnever
      have hsame : subscriber ≠ target := by
        rintro rfl
        apply hnever frame
        apply (howed subscriber frame).mpr
        refine ⟨call, ?_⟩
        rw [hputs]
        exact mem_cons_self
      have hnewest := hinv.newest subscriber hmember
        fun other hother => hnever other ((howed subscriber other).mpr hother)
      rw [← delivered_setQueue_of_ne entries hsame] at hnewest
      exact hnewest
  · cases hstep

theorem StoreInv.putNowait (hinv : StoreInv entries store)
    (hstep : store.putNowait call = some (more, next)) :
    StoreInv (entries ++ more) next := by
  unfold ObsStore.putNowait at hstep
  split at hstep
  · rename_i target frame puts answer hcall
    cases hstep
    rw [append_nil, hinv.dropped call target frame puts answer hcall,
      Option.getD_none]
    have hputs : store.puts call = (target, frame) :: puts := by
      rw [ObsStore.puts, hcall]
      rfl
    have hentry : (target, frame) ∈ store.puts call := by
      rw [hputs]
      exact mem_cons_self
    have htarget := hinv.owed target frame ⟨call, hentry⟩
    have hfilled : delivered entries (store.setQueue target (some frame))
        target = delivered entries store target ++ [frame] := by
      unfold delivered
      rw [hinv.dropped call target frame puts answer hcall,
        queue_setQueue_self]
      simp
    have howed : ∀ subscriber other, ((store.setQueue target
        (some frame)).setCall call (some ⟨puts, false, answer⟩)).Owed
          subscriber other ↔
        store.Owed subscriber other ∧ subscriber ≠ target := by
      intro subscriber other
      constructor
      · rintro ⟨owner, howner⟩
        by_cases hsame : owner = call
        · rw [hsame, puts_setCall_self] at howner
          refine ⟨⟨call, ?_⟩, ?_⟩
          · rw [hputs]
            exact mem_cons_of_mem _ howner
          · rintro rfl
            have htargets := hinv.puts.targets call
            rw [hputs, map_cons, nodup_cons] at htargets
            exact htargets.1 (mem_map.mpr ⟨_, howner, rfl⟩)
        · rw [puts_setCall_of_ne hsame] at howner
          refine ⟨⟨owner, howner⟩, ?_⟩
          rintro rfl
          exact hsame (hinv.puts.alone owner call _ howner _ hentry rfl)
      · rintro ⟨⟨owner, howner⟩, hother⟩
        refine ⟨owner, ?_⟩
        by_cases hsame : owner = call
        · rw [hsame, hputs, mem_cons, Prod.mk.injEq] at howner
          rw [hsame, puts_setCall_self]
          exact howner.resolve_left fun heq => hother heq.1
        · rw [puts_setCall_of_ne hsame]
          exact howner
    constructor
    · exact hinv.latest
    · exact hinv.nodup
    · exact hinv.subscribed
    · apply PutsInv.shrink hinv.puts
      change puts.Sublist (store.puts call)
      rw [hputs]
      exact sublist_cons_self _ _
    · intro subscriber hle
      have hlt := hinv.puts.created call _ hentry
      have hother : subscriber ≠ target := by
        rintro rfl
        exact Nat.lt_irrefl _ (Nat.lt_of_lt_of_le hlt hle)
      exact (delivered_setQueue_of_ne entries hother).trans
        (hinv.fresh subscriber hle)
    · intro owner second old rest found hother
      by_cases hsame : owner = call
      · rw [hsame, calls_setCall_self] at hother
        cases hother
      · rw [calls_setCall_of_ne hsame] at hother
        have hapart : second ≠ target := by
          rintro rfl
          apply hsame
          apply hinv.puts.alone owner call (second, old) _ _ hentry rfl
          have hputsOwner : store.puts owner = (second, old) :: rest := by
            unfold ObsStore.puts
            rw [show store.calls owner = _ from hother]
            rfl
          rw [hputsOwner]
          exact mem_cons_self
        exact (queue_setQueue_of_ne hapart).trans
          (hinv.dropped owner second old rest found hother)
    · intro subscriber
      change (delivered entries (store.setQueue target (some frame))
        subscriber).Sublist _
      by_cases hsame : subscriber = target
      · rw [hsame, hfilled]
        exact htarget.1
      · rw [delivered_setQueue_of_ne entries hsame]
        exact hinv.ordered subscriber
    · intro subscriber other hother
      obtain ⟨hold, hsame⟩ := (howed subscriber other).mp hother
      change (delivered entries (store.setQueue target (some frame))
        subscriber ++ [other]).Sublist _ ∧ _
      rw [delivered_setQueue_of_ne entries hsame]
      exact hinv.owed subscriber other hold
    · intro subscriber hmember hnever
      change (delivered entries (store.setQueue target (some frame))
        subscriber).getLast? = store.latest
      by_cases hsame : subscriber = target
      · rw [hsame] at hmember
        rw [hsame, hfilled, getLast?_concat, htarget.2 hmember]
      · rw [delivered_setQueue_of_ne entries hsame]
        apply hinv.newest subscriber hmember
        intro other hother
        exact hnever other ((howed subscriber other).mpr ⟨hother, hsame⟩)
  · cases hstep

theorem StoreInv.finish (hinv : StoreInv entries store)
    (hstep : store.finish call = some (more, next)) :
    StoreInv (entries ++ more) next := by
  unfold ObsStore.finish at hstep
  split at hstep
  · rename_i dropped answer hcall
    cases hstep
    rw [append_nil]
    have hputs : store.puts call = [] := by
      rw [ObsStore.puts, hcall]
      rfl
    have howed : ∀ subscriber frame,
        (store.setCall call none).Owed subscriber frame ↔
          store.Owed subscriber frame :=
      fun _ _ => owed_setCall_of_eq hputs.symm
    have hdropped : (store.setCall call none).Dropped := by
      apply hinv.dropped.setCall
      exact nofun
    exact ⟨hinv.latest, hinv.nodup, hinv.subscribed,
      PutsInv.shrink hinv.puts (nil_sublist _), hinv.fresh, hdropped,
      hinv.ordered,
      fun subscriber frame hframe =>
        hinv.owed subscriber frame ((howed subscriber frame).mp hframe),
      fun subscriber hmember hnever => hinv.newest subscriber hmember
        fun frame hframe =>
          hnever frame ((howed subscriber frame).mpr hframe)⟩
  · cases hstep

theorem StoreInv.take (hinv : StoreInv entries store)
    (hstep : store.take subscriber = some (more, next)) :
    StoreInv (entries ++ more) next := by
  unfold ObsStore.take at hstep
  split_ifs at hstep
  obtain ⟨frame, hframe, heq⟩ := Option.map_eq_some_iff.mp hstep
  cases heq
  have hdelivered : delivered (entries ++ [.taken subscriber frame])
      (store.setQueue subscriber none) = delivered entries store := by
    funext other
    unfold delivered
    rw [received_taken]
    by_cases hsame : subscriber = other
    · rw [← hsame, hframe, queue_setQueue_self]
      simp
    · rw [queue_setQueue_of_ne (Ne.symm hsame)]
      simp [hsame]
  constructor
  · rw [published_taken]
    exact hinv.latest
  · exact hinv.nodup
  · exact hinv.subscribed
  · exact hinv.puts
  · rw [hdelivered]
    exact hinv.fresh
  · exact hinv.dropped.setQueue subscriber
  · rw [hdelivered, published_taken]
    exact hinv.ordered
  · rw [hdelivered, published_taken]
    exact hinv.owed
  · rw [hdelivered]
    exact hinv.newest

theorem StoreInv.step (hinv : StoreInv entries store)
    (hsettled : Settled store label)
    (hstep : (machine F).step store label = some (more, next)) :
    StoreInv (entries ++ more) next := by
  cases label with
  | update call frame subscribers => exact hinv.update hsettled hstep
  | subscribe call => exact hinv.subscribe hstep
  | unsubscribe subscriber => exact hinv.unsubscribe hstep
  | getNowait call => exact hinv.getNowait hstep
  | putNowait call => exact hinv.putNowait hstep
  | finish call => exact hinv.finish hstep
  | take subscriber => exact hinv.take hstep

end Steps

theorem initial_inv : StoreInv [] (initial : ObsStore F) := by
  constructor
  · rfl
  · exact nodup_nil
  · exact nofun
  · constructor
    · exact fun _ => nodup_nil
    · exact nofun
    · exact nofun
  · exact fun _ _ => rfl
  · exact nofun
  · exact fun _ => nil_sublist _
  · rintro subscriber frame ⟨call, hentry⟩
    cases hentry
  · exact nofun

/-! ## Whole runs -/

/-- Every subscriber gets frames in the order in which they became the latest,
and it has the latest one when no call is running. -/
def NewestDelivered (entries : List (ObsEvent F)) (store : ObsStore F) :
    Prop :=
  (∀ subscriber,
    (delivered entries store subscriber).Sublist (published entries)) ∧
  ((∀ call, store.calls call = none) → ∀ subscriber ∈ store.subscribers,
    (delivered entries store subscriber).getLast? =
      (published entries).getLast?)

/-- It suffices that no update chooses a frame while a call has yet to put an
earlier one into the queue of a subscriber. -/
theorem newest_delivered {store : ObsStore F}
    {events : List (Event (ObsStore F) (ObsLabel F) (List (ObsEvent F)))}
    (hrun : Run (machine F) initial events store)
    (hsettled : ∀ event ∈ events, Settled event.before event.label) :
    store.latest = (published (log events)).getLast? ∧
      NewestDelivered (log events) store := by
  have hinv : StoreInv (log events) store :=
    hrun.log_invariant Settled StoreInv
      (fun _ _ _ _ _ hstate hlabel hstep => hstate.step hlabel hstep)
      hsettled initial_inv
  refine ⟨hinv.latest, hinv.ordered, ?_⟩
  intro hidle subscriber hmember
  rw [← hinv.latest]
  apply hinv.newest subscriber hmember
  rintro frame ⟨call, hentry⟩
  rw [puts, hidle call] at hentry
  cases hentry

def twoProducers : List (ObsLabel ℕ) :=
  [.subscribe 0, .finish 0, .update 1 0 [0], .update 2 1 [0], .getNowait 2,
    .putNowait 2, .finish 2, .take 0, .getNowait 1, .putNowait 1, .finish 1,
    .take 0]

/-- A new subscriber's first frame replaces one that came in between. -/
def lateSubscriber : List (ObsLabel ℕ) :=
  [.update 0 0 [], .finish 0, .subscribe 1, .update 2 1 [0], .getNowait 2,
    .putNowait 2, .finish 2, .getNowait 1, .putNowait 1, .finish 1]

theorem older_frame_put_last :
    (∃ events store, Run (machine ℕ) initial events store ∧
      events.map Event.label = twoProducers ∧
      published (log events) = [0, 1] ∧
      received (log events) 0 = [1, 0] ∧
      ¬NewestDelivered (log events) store) ∧
    ∃ events store, Run (machine ℕ) initial events store ∧
      events.map Event.label = lateSubscriber ∧
      store.latest = some 1 ∧ store.queue 0 = some 0 ∧
      ¬NewestDelivered (log events) store := by
  constructor
  · refine ⟨_, _, Machine.run_of_exec (rfl : (machine ℕ).exec initial
      twoProducers = some (_, _)), rfl, rfl, rfl, ?_⟩
    intro hnewest
    have hordered : [1, 0].Sublist [0, 1] := hnewest.1 0
    revert hordered
    decide
  · refine ⟨_, _, Machine.run_of_exec (rfl : (machine ℕ).exec initial
      lateSubscriber = some (_, _)), rfl, rfl, rfl, ?_⟩
    intro hnewest
    have hlast : [0].getLast? = [0, 1].getLast? := by
      apply hnewest.2 _ 0 (mem_singleton_self _)
      intro call
      match call with
      | 0 | 1 | 2 => rfl
      | _ + 3 => rfl
    revert hlast
    decide

/-- The second update waits until the subscriber has its first frame. -/
def promptSubscriber : List (ObsLabel ℕ) :=
  [.update 0 0 [], .finish 0, .subscribe 1, .getNowait 1, .putNowait 1,
    .finish 1, .take 0, .update 2 1 [0], .getNowait 2, .putNowait 2,
    .finish 2]

theorem newest_delivered_promptSubscriber :
    ∃ events store, Run (machine ℕ) initial events store ∧
      events.map Event.label = promptSubscriber ∧
      store.latest = some 1 ∧ NewestDelivered (log events) store := by
  refine ⟨_, _, Machine.run_of_exec (rfl : (machine ℕ).exec initial
    promptSubscriber = some (_, _)), rfl, rfl, ?_⟩
  apply (newest_delivered (Machine.run_of_exec (rfl : (machine ℕ).exec
    initial promptSubscriber = some (_, _))) _).2
  simp only [forall_mem_cons]
  refine ⟨?_, trivial, trivial, trivial, trivial, trivial, trivial, ?_,
    trivial, trivial, trivial, fun _ hnone => by cases hnone⟩
  · exact nofun
  · rintro subscriber _ frame ⟨call, hentry⟩
    match call with
    | 0 | 1 => cases hentry
    | _ + 2 => cases hentry

end ObsStore
end VerlVla
