import VerlVla.DatasetMerge

/-!
# Interrupted appends

An append keeps the episodes of the output either in the output or in the
aggregate beside it.  A later append looks for them in the output alone, so the
removal of the output is the only stretch of an append that cannot be cut.
-/

namespace VerlVla

open List hiding after cons count nil

open Transition

/-! ## What an append promises -/

def MergeEvent.isBegan : MergeEvent → Bool
  | .began _ _ => true
  | _ => false

def CurrentCall (entries : List MergeEvent) (output inputs : List ℕ) : Prop :=
  ∃ left right, entries = left ++ .began output inputs :: right ∧
    ∀ entry ∈ right, entry.isBegan = false

/-- Everything that some call found in the output is there, first. -/
def Keeps (entries : List MergeEvent) (episodes : List ℕ) : Prop :=
  ∀ output inputs, .began output inputs ∈ entries → output <+: episodes

/-- A call that returns lost no episode that an earlier call found in the
output, and added its inputs once. -/
def appendLaw (entries : List MergeEvent) : MergeEvent → Prop
  | .returned episodes =>
    Keeps entries episodes ∧ episodes.Nodup ∧
      ∃ output inputs, CurrentCall entries output inputs ∧
        episodes = output ++ inputs
  | _ => True

section Entries

variable {entries : List MergeEvent} {output inputs episodes : List ℕ}

theorem currentCall_began :
    CurrentCall (entries ++ [.began output inputs]) output inputs :=
  ⟨entries, [], rfl, fun _ hentry => absurd hentry not_mem_nil⟩

theorem Keeps.append (hkeeps : Keeps entries episodes)
    (hmore : ∀ entry ∈ more, entry.isBegan = false) :
    Keeps (entries ++ more) episodes := by
  intro output inputs hentry
  rcases mem_append.mp hentry with hentry | hentry
  · exact hkeeps output inputs hentry
  · cases hmore _ hentry

theorem Keeps.began (hkeeps : Keeps entries episodes) :
    Keeps (entries ++ [.began episodes inputs]) episodes := by
  intro output other hentry
  rcases mem_append.mp hentry with hentry | hentry
  · exact hkeeps output other hentry
  · cases mem_singleton.mp hentry
    exact prefix_refl _

theorem Keeps.grow (hkeeps : Keeps entries output) :
    Keeps entries (output ++ inputs) := by
  intro earlier other hentry
  exact (hkeeps earlier other hentry).trans (prefix_append _ _)

end Entries

/-! ## Directories -/

namespace MergeStore

section Directories

variable {Path : Type} {state : MergeStore Path}

theorem episodesAt_of_whole (hdir : state.dirs path = some (.whole episodes)) :
    state.episodesAt path = episodes := by
  rw [episodesAt, hdir]
  rfl

theorem isCompleteAt_of_whole (hdir : state.dirs path = some (.whole episodes)) :
    state.isCompleteAt path = true := by
  rw [isCompleteAt, hdir]
  rfl

theorem gathered_congr {other : MergeStore Path}
    (hsame : ∀ path ∈ sources, state.dirs path = other.dirs path) :
    state.gathered sources = other.gathered sources := by
  apply flatMap_congr
  intro path hpath
  rw [episodesAt, episodesAt, hsame path hpath]

theorem recorded_beginMerge (target : MergeTarget Path)
    (call : MergeCall Path) :
    (state.beginMerge target call).2.recorded = state.recorded := by
  unfold beginMerge
  simp only
  split_ifs <;> rfl

theorem dirs_beginMerge (target : MergeTarget Path) (call : MergeCall Path) :
    (state.beginMerge target call).2.dirs = state.dirs := by
  unfold beginMerge
  simp only
  split_ifs <;> rfl

theorem beginMerge_entries (target : MergeTarget Path)
    (call : MergeCall Path) :
    ∀ entry ∈ (state.beginMerge target call).1, ∀ entries,
      appendLaw entries entry := by
  intro entry hentry entries
  unfold beginMerge at hentry
  simp only at hentry
  split_ifs at hentry
  all_goals
    rcases mem_cons.mp hentry with rfl | hentry
    · trivial
  all_goals
    first
      | exact absurd hentry not_mem_nil
      | rw [mem_singleton.mp hentry]
        trivial

end Directories

variable {Path : Type} [DecidableEq Path] (target : MergeTarget Path)
  (state : MergeStore Path)

@[simp] theorem put_same (path : Path) (dir : Option DatasetDir) :
    (state.put path dir).dirs path = dir :=
  Function.update_self ..

theorem put_other (dir : Option DatasetDir) (hother : other ≠ path) :
    (state.put path dir).dirs other = state.dirs other :=
  Function.update_of_ne hother ..

/-! ## What a merge can do -/

/-- The steps, each with what it asks of the state before. -/
inductive Move : MergeLabel Path → List MergeEvent × MergeStore Path → Prop
  | record {path : Path} {count : ℕ} (hphase : state.phase = .idle)
      (hpath : path ≠ target.output ∧ path ≠ target.appendTmp) :
      Move (.record path count) ([], { state.put path (some (.whole
            (range' state.recorded count))) with
          recorded := state.recorded + count })
  | call {call : MergeCall Path} (hphase : state.phase = .idle) :
      Move (.call call) (state.beginMerge target call)
  | unlink {path : Path} {during after : MergePhase Path}
      {dir rest : DatasetDir}
      (hremoval : state.removal target = some (path, during, after))
      (hdir : state.dirs path = some dir) (hrest : dir.Shrinks rest)
      (hspared : state.spared target path = false) :
      Move (.unlink rest)
        ([], { state.put path (some rest) with phase := during })
  | removed {path : Path} {during after : MergePhase Path}
      (hremoval : state.removal target = some (path, during, after))
      (hspared : state.spared target path = false) :
      Move .removed ([], { state.put path none with phase := after })
  | passed {path : Path} {during after : MergePhase Path}
      (hremoval : state.removal target = some (path, during, after))
      (hspared : state.spared target path = true) :
      Move .removed ([], { state with phase := after })
  | write {call : MergeCall Path} {path : Path} {sources : List Path}
      {dir : DatasetDir} (hphase : state.phase = .aggregating call path sources)
      (hsources : path ∉ sources) :
      Move (.write dir) ([], state.put path (some dir))
  | aggregated {call : MergeCall Path} {path : Path} {sources : List Path}
      (hphase : state.phase = .aggregating call path sources)
      (hsources : path ∉ sources) :
      Move .aggregated
        ([], { state.put path (some (.whole (state.gathered sources))) with
          phase := afterAggregate target call path })
  | move {call : MergeCall Path} (hphase : state.phase = .moving call) :
      Move .move ([], { (state.put target.output
            (state.dirs target.appendTmp)).put target.appendTmp none with
          phase := .cleaning
            (if call.cleanupRoots then call.roots else []) })
  | finish (hphase : state.phase = .cleaning []) :
      Move .finish ([.returned (state.episodesAt target.output)],
        { state with phase := .idle })
  | raise {call : MergeCall Path} {path : Path} {sources : List Path}
      (hphase : state.phase = .aggregating call path sources) :
      Move .raise ([.raised .aggregate], { state with phase := .idle })
  | interrupt (hphase : state.phase ≠ .idle) :
      Move .interrupt ([.interrupted], { state with phase := .idle })

variable {target state}

theorem move_of_step (hstep : state.step target label = some result) :
    state.Move target label result := by
  cases label with
  | record path count =>
    cases hphase : state.phase with
    | idle =>
      simp only [step, hphase] at hstep
      split_ifs at hstep with hpath
      cases hstep
      exact .record hphase hpath
    | _ => simp [step, hphase] at hstep
  | call call =>
    cases hphase : state.phase with
    | idle =>
      simp only [step, hphase] at hstep
      cases hstep
      exact .call hphase
    | _ => simp [step, hphase] at hstep
  | unlink rest =>
    cases hremoval : state.removal target with
    | none => simp [step, hremoval] at hstep
    | some removal =>
      obtain ⟨path, during, after⟩ := removal
      cases hdir : state.dirs path with
      | none => simp [step, hremoval, hdir] at hstep
      | some dir =>
        simp only [step, hremoval, hdir] at hstep
        split_ifs at hstep with hrest
        cases hstep
        exact .unlink hremoval hdir hrest.1 hrest.2
  | removed =>
    cases hremoval : state.removal target with
    | none => simp [step, hremoval] at hstep
    | some removal =>
      obtain ⟨path, during, after⟩ := removal
      simp only [step, hremoval] at hstep
      cases hspared : state.spared target path with
      | true =>
        simp only [hspared, if_true] at hstep
        cases hstep
        exact .passed hremoval hspared
      | false =>
        simp only [hspared, Bool.false_eq_true, if_false] at hstep
        cases hstep
        exact .removed hremoval hspared
  | write dir =>
    cases hphase : state.phase with
    | aggregating call path sources =>
      simp only [step, hphase] at hstep
      split_ifs at hstep with hwrite
      cases hstep
      exact .write hphase hwrite.1
    | _ => simp [step, hphase] at hstep
  | aggregated =>
    cases hphase : state.phase with
    | aggregating call path sources =>
      simp only [step, hphase] at hstep
      split_ifs at hstep with hwrite
      cases hstep
      exact .aggregated hphase hwrite.1
    | _ => simp [step, hphase] at hstep
  | move =>
    cases hphase : state.phase with
    | moving call =>
      simp only [step, hphase] at hstep
      cases hstep
      exact .move hphase
    | _ => simp [step, hphase] at hstep
  | finish =>
    cases hphase : state.phase with
    | cleaning roots =>
      cases roots with
      | nil =>
        simp only [step, hphase] at hstep
        cases hstep
        exact .finish hphase
      | cons root roots => simp [step, hphase] at hstep
    | _ => simp [step, hphase] at hstep
  | raise =>
    cases hphase : state.phase with
    | aggregating call path sources =>
      simp only [step, hphase] at hstep
      cases hstep
      exact .raise hphase
    | _ => simp [step, hphase] at hstep
  | interrupt =>
    by_cases hphase : state.phase = .idle
    · simp [step, hphase] at hstep
    · have hresult : state.step target .interrupt =
          some ([.interrupted], { state with phase := .idle }) := by
        rw [step]
        split
        · contradiction
        · rfl
      rw [hresult] at hstep
      cases hstep
      exact .interrupt hphase

end MergeStore

/-! ## Appends that are cut elsewhere -/

/-- The files of the output are being removed, or are gone. -/
def MergePhase.replaces {Path : Type} : MergePhase Path → Bool
  | .replacing _ | .moving _ => true
  | _ => false

/-- A call appends directories whose episodes the output does not have, and the
process is not interrupted between the first file removed from the output and
the move of the aggregate. -/
def safeAppend {Path : Type} (target : MergeTarget Path)
    (state : MergeStore Path) : MergeLabel Path → Prop
  | .call call =>
    call.append = true ∧ call.roots.Nodup ∧
      ∀ root ∈ call.roots, ∀ episode ∈ state.episodesAt root,
        episode ∉ state.episodesAt target.output
  | .interrupt => state.phase.replaces = false
  | _ => True

instance {Path : Type} [DecidableEq Path] (target : MergeTarget Path)
    (state : MergeStore Path) :
    (label : MergeLabel Path) → Decidable (safeAppend target state label)
  | .call _ => inferInstanceAs (Decidable (_ ∧ _ ∧ _))
  | .interrupt => inferInstanceAs (Decidable (_ = _))
  | .record _ _ | .unlink _ | .removed | .write _ | .aggregated | .move
  | .finish | .raise => isTrue trivial

namespace MergeStore

/-- The directories that are not the target's hold different episodes. -/
structure Apart {Path : Type} (target : MergeTarget Path)
    (state : MergeStore Path) : Prop where
  nodup : ∀ path, path ≠ target.output → path ≠ target.appendTmp →
    (state.episodesAt path).Nodup
  below : ∀ path, path ≠ target.output → path ≠ target.appendTmp →
    ∀ episode ∈ state.episodesAt path, episode < state.recorded
  disjoint : ∀ path other, path ≠ other → path ≠ target.output →
    path ≠ target.appendTmp → other ≠ target.output →
    other ≠ target.appendTmp →
    (state.episodesAt path).Disjoint (state.episodesAt other)

/-- Recorded datasets beside a complete output. -/
structure MergeStart {Path : Type} (target : MergeTarget Path)
    (state : MergeStore Path) : Prop where
  idle : state.phase = .idle
  apart : state.Apart target
  complete : ∃ episodes, state.dirs target.output = some (.whole episodes) ∧
    episodes.Nodup

structure Appends (entries : List MergeEvent) (output inputs : List ℕ) :
    Prop where
  current : CurrentCall entries output inputs
  keeps : Keeps entries output
  nodup : (output ++ inputs).Nodup

def Held {Path : Type} (target : MergeTarget Path)
    (entries : List MergeEvent) (state : MergeStore Path) : Prop :=
  match state.phase with
  | .idle => ∃ output, state.dirs target.output = some (.whole output) ∧
      Keeps entries output ∧ output.Nodup
  | .clearing call path sources | .aggregating call path sources =>
    path = target.appendTmp ∧ sources = target.output :: call.roots ∧
      ∃ output, state.dirs target.output = some (.whole output) ∧
        Keeps entries output ∧ output.Nodup ∧
        (path ∉ sources → Appends entries output (state.gathered call.roots))
  | .merged _ => ∃ output inputs,
      state.dirs target.output = some (.whole output) ∧
        state.dirs target.appendTmp = some (.whole (output ++ inputs)) ∧
        Appends entries output inputs
  | .replacing _ | .moving _ => ∃ output inputs,
      state.dirs target.appendTmp = some (.whole (output ++ inputs)) ∧
        Appends entries output inputs
  | .cleaning _ => ∃ output inputs,
      state.dirs target.output = some (.whole (output ++ inputs)) ∧
        Appends entries output inputs

section Apartness

variable {Path : Type} {target : MergeTarget Path}
  {state next : MergeStore Path}

theorem Apart.of_sublist (hapart : state.Apart target)
    (hrecorded : next.recorded = state.recorded)
    (hsub : ∀ path, path ≠ target.output → path ≠ target.appendTmp →
      (next.episodesAt path).Sublist (state.episodesAt path)) :
    next.Apart target := by
  constructor
  · intro path houtput htmp
    exact (hapart.nodup path houtput htmp).sublist (hsub path houtput htmp)
  · intro path houtput htmp episode hepisode
    rw [hrecorded]
    exact hapart.below path houtput htmp episode
      ((hsub path houtput htmp).mem hepisode)
  · intro path other hne houtput htmp hotherOutput hotherTmp
    have hdisjoint := hapart.disjoint path other hne houtput htmp hotherOutput
      hotherTmp
    intro episode hepisode hother
    exact hdisjoint ((hsub path houtput htmp).mem hepisode)
      ((hsub other hotherOutput hotherTmp).mem hother)

theorem Apart.same (hapart : state.Apart target)
    (hrecorded : next.recorded = state.recorded)
    (hsame : ∀ path, path ≠ target.output → path ≠ target.appendTmp →
      next.dirs path = state.dirs path) : next.Apart target := by
  apply hapart.of_sublist hrecorded
  intro path houtput htmp
  rw [episodesAt, episodesAt, hsame path houtput htmp]

theorem Held.aside (hheld : state.Held target entries)
    (hphase : state.phase = .aggregating call path sources) :
    path = target.appendTmp := by
  rw [Held, hphase] at hheld
  exact hheld.1

theorem Held.stop (hheld : state.Held target entries)
    (hphase : state.phase.replaces = false) (hentry : entry.isBegan = false) :
    Held target (entries ++ [entry]) { state with phase := .idle } := by
  have hentry : ∀ other ∈ [entry], other.isBegan = false := by
    intro other hother
    rw [mem_singleton.mp hother]
    exact hentry
  unfold Held at hheld
  cases hstate : state.phase with
  | idle =>
    rw [hstate] at hheld
    obtain ⟨output, hdir, hkeeps, hnodup⟩ := hheld
    exact ⟨output, hdir, hkeeps.append hentry, hnodup⟩
  | clearing _ _ _ | aggregating _ _ _ =>
    rw [hstate] at hheld
    obtain ⟨_, _, output, hdir, hkeeps, hnodup, _⟩ := hheld
    exact ⟨output, hdir, hkeeps.append hentry, hnodup⟩
  | merged _ =>
    rw [hstate] at hheld
    obtain ⟨output, inputs, hdir, _, happends⟩ := hheld
    exact ⟨output, hdir, happends.keeps.append hentry,
      happends.nodup.of_append_left⟩
  | replacing call | moving call =>
    rw [hstate] at hphase
    cases hphase
  | cleaning _ =>
    rw [hstate] at hheld
    obtain ⟨output, inputs, hdir, happends⟩ := hheld
    exact ⟨output ++ inputs, hdir, happends.keeps.grow.append hentry,
      happends.nodup⟩

end Apartness

section Steps

variable {Path : Type} [DecidableEq Path] {target : MergeTarget Path}
  {state next : MergeStore Path} {entries : List MergeEvent}

theorem episodesAt_put_sublist (hdir : state.dirs path = some dir)
    (hrest : ∀ left ∈ rest, left.episodes.Sublist dir.episodes) (other : Path) :
    ((state.put path rest).episodesAt other).Sublist
      (state.episodesAt other) := by
  by_cases hother : other = path
  · subst hother
    rw [episodesAt, episodesAt, put_same, hdir]
    cases rest with
    | none => exact nil_sublist _
    | some left => exact hrest left rfl
  · rw [episodesAt, episodesAt, put_other _ _ hother]

theorem episodesAt_put_none (path other : Path) :
    ((state.put path none).episodesAt other).Sublist
      (state.episodesAt other) := by
  by_cases hother : other = path
  · subst hother
    rw [episodesAt, put_same]
    exact nil_sublist _
  · rw [episodesAt, episodesAt, put_other _ _ hother]

theorem Apart.record (hapart : state.Apart target) (path : Path) (count : ℕ) :
    Apart target { state.put path (some (.whole
      (range' state.recorded count))) with
        recorded := state.recorded + count } := by
  have hsame : ∀ other, other ≠ path → episodesAt
      { state.put path (some (.whole (range' state.recorded count))) with
        recorded := state.recorded + count } other =
      state.episodesAt other := by
    intro other hother
    rw [episodesAt, episodesAt]
    change Option.getD (Option.map _ ((state.put path _).dirs other)) _ = _
    rw [put_other _ _ hother]
  have hnew : episodesAt
      { state.put path (some (.whole (range' state.recorded count))) with
        recorded := state.recorded + count } path =
      range' state.recorded count :=
    episodesAt_of_whole (put_same ..)
  have hfresh : ∀ other, other ≠ path → other ≠ target.output →
      other ≠ target.appendTmp → ∀ episode ∈ state.episodesAt other,
        episode ∉ range' state.recorded count := by
    intro other _ houtput htmp episode hepisode hrange
    have hbelow := hapart.below other houtput htmp episode hepisode
    have hrange := (mem_range'_1.mp hrange).1
    omega
  constructor
  · intro other houtput htmp
    by_cases hother : other = path
    · rw [hother, hnew]
      exact nodup_range'
    · rw [hsame other hother]
      exact hapart.nodup other houtput htmp
  · intro other houtput htmp episode hepisode
    by_cases hother : other = path
    · rw [hother, hnew] at hepisode
      exact (mem_range'_1.mp hepisode).2
    · rw [hsame other hother] at hepisode
      have hbelow := hapart.below other houtput htmp episode hepisode
      change episode < state.recorded + count
      omega
  · intro left right hne houtput htmp hrightOutput hrightTmp episode hleft
      hright
    by_cases hpath : left = path
    · have hother : right ≠ path := by
        rw [← hpath]
        exact hne.symm
      rw [hpath, hnew] at hleft
      rw [hsame right hother] at hright
      exact hfresh right hother hrightOutput hrightTmp episode hright hleft
    · rw [hsame left hpath] at hleft
      by_cases hother : right = path
      · rw [hother, hnew] at hright
        exact hfresh left hpath houtput htmp episode hleft hright
      · rw [hsame right hother] at hright
        exact hapart.disjoint left right hne houtput htmp hrightOutput
          hrightTmp hleft hright

theorem Apart.step (hmove : state.Move target label (output, next))
    (hheld : state.Held target entries) (hapart : state.Apart target) :
    next.Apart target := by
  have hput : ∀ call path sources dir,
      state.phase = .aggregating call path sources →
        (state.put path dir).Apart target := by
    intro call path sources dir hphase
    refine hapart.same ?_ ?_
    · rfl
    · intro other _ htmp
      rw [hheld.aside hphase]
      exact put_other _ _ htmp
  generalize hresult : (output, next) = result at hmove
  cases hmove with
  | record _ _ =>
    cases hresult
    exact hapart.record _ _
  | @call call hphase =>
    obtain rfl : next = _ := congrArg Prod.snd hresult
    apply hapart.same (recorded_beginMerge target call)
    intro path _ _
    rw [dirs_beginMerge]
  | unlink _ hdir hrest _ =>
    cases hresult
    refine hapart.of_sublist ?_ ?_
    · rfl
    · intro other _ _
      apply episodesAt_put_sublist hdir
      intro left hleft
      rw [← Option.some.inj hleft]
      exact hrest.2.2
  | removed _ _ =>
    cases hresult
    refine hapart.of_sublist ?_ ?_
    · rfl
    · intro other _ _
      exact episodesAt_put_none _ other
  | write hphase _ =>
    cases hresult
    exact hput _ _ _ _ hphase
  | @aggregated call path sources hphase _ =>
    cases hresult
    have hwritten := hput _ _ _ (some (.whole (state.gathered sources))) hphase
    refine hwritten.same ?_ ?_
    · rfl
    · exact fun _ _ _ => rfl
  | move _ =>
    cases hresult
    refine hapart.same rfl ?_
    intro path houtput htmp
    change ((state.put target.output _).put target.appendTmp none).dirs path
      = _
    rw [put_other _ _ htmp, put_other _ _ houtput]
  | passed _ _ | finish _ | raise _ | interrupt _ =>
    cases hresult
    refine hapart.same ?_ ?_
    · rfl
    · exact fun _ _ _ => rfl

theorem Held.begin (hheld : state.Held target entries)
    (hapart : state.Apart target) (hphase : state.phase = .idle)
    (hsafe : safeAppend target state (.call call)) :
    (state.beginMerge target call).2.Held target
      (entries ++ (state.beginMerge target call).1) := by
  rw [Held, hphase] at hheld
  obtain ⟨output, hdir, hkeeps, hnodup⟩ := hheld
  obtain ⟨happend, hroots, hfresh⟩ := hsafe
  have hepisodes := episodesAt_of_whole hdir
  have hcomplete := isCompleteAt_of_whole hdir
  rw [hepisodes] at hfresh
  have hdisjoint : ∀ root ∈ call.roots,
      (state.episodesAt root).Disjoint output :=
    fun root hroot episode => hfresh root hroot episode
  have hbegan : Keeps (entries ++
      [.began output (state.gathered call.roots)]) output := hkeeps.began
  have hraised : ∀ error, Held target (entries ++
      [.began output (state.gathered call.roots), .raised error]) state := by
    intro error
    rw [Held, hphase]
    refine ⟨output, hdir, ?_, hnodup⟩
    rw [append_cons]
    apply hbegan.append
    intro entry hentry
    rw [mem_singleton.mp hentry]
    rfl
  have hinputs : target.appendTmp ∉ target.output :: call.roots →
      (state.gathered call.roots).Nodup := by
    intro htmp
    have htmp : target.appendTmp ∉ call.roots :=
      fun hroot => htmp (mem_cons_of_mem _ hroot)
    apply nodup_flatMap.mpr
    constructor
    · intro root hroot
      by_cases houtput : root = target.output
      · rw [houtput, hepisodes]
        exact hnodup
      · apply hapart.nodup root houtput
        intro heq
        exact htmp (heq ▸ hroot)
    · apply hroots.imp_of_mem
      intro root other hroot hother hne
      have hrootTmp : root ≠ target.appendTmp := fun heq => htmp (heq ▸ hroot)
      have hotherTmp : other ≠ target.appendTmp :=
        fun heq => htmp (heq ▸ hother)
      by_cases houtput : root = target.output
      · rw [Function.onFun, houtput, hepisodes]
        exact (hdisjoint other hother).symm
      · by_cases hotherOutput : other = target.output
        · rw [Function.onFun, hotherOutput, hepisodes]
          exact hdisjoint root hroot
        · exact hapart.disjoint root other hne houtput hrootTmp hotherOutput
            hotherTmp
  have happends : target.appendTmp ∉ target.output :: call.roots →
      Appends (entries ++ [.began output (state.gathered call.roots)]) output
        (state.gathered call.roots) := by
    intro htmp
    refine ⟨currentCall_began, hbegan, ?_⟩
    apply Nodup.append hnodup (hinputs htmp)
    intro episode houtput hinput
    obtain ⟨root, hroot, hepisode⟩ := mem_flatMap.mp hinput
    exact hdisjoint root hroot hepisode houtput
  unfold beginMerge
  simp only [hepisodes, hcomplete, happend, hdir]
  by_cases hnone : call.roots = []
  · rw [if_pos hnone]
    exact hraised .noRoots
  rw [if_neg hnone]
  by_cases hids : (call.repoIds.map List.length).getD call.roots.length ≠
      call.roots.length
  · rw [if_pos hids]
    exact hraised .repoIdsLength
  rw [if_neg hids]
  exact ⟨rfl, rfl, output, hdir, hbegan, hnodup, happends⟩

theorem Held.remove (hheld : state.Held target entries)
    (hremoval : state.removal target = some (path, during, after))
    (hspared : state.spared target path = false) (rest : Option DatasetDir) :
    Held target entries { state.put path rest with phase := during } ∧
      Held target entries { state.put path rest with phase := after } := by
  have houtput : path ≠ target.output →
      (state.put path rest).dirs target.output = state.dirs target.output :=
    fun hne => put_other _ _ hne.symm
  unfold Held at hheld
  cases hphase : state.phase with
  | idle | aggregating _ _ _ | moving _ =>
    simp [removal, hphase] at hremoval
  | clearing call temporary sources =>
    rw [hphase] at hheld
    simp only [removal, hphase] at hremoval
    cases hremoval
    obtain ⟨rfl, hsources, output, hdir, hkeeps, hnodup, happends⟩ := hheld
    have hkept := (houtput target.distinct).trans hdir
    have hsame : target.appendTmp ∉ sources → Appends entries output
          ((state.put target.appendTmp rest).gathered call.roots) := by
      intro htmp
      have hgathered : (state.put target.appendTmp rest).gathered
          call.roots = state.gathered call.roots := by
        apply gathered_congr
        intro root hroot
        apply put_other
        intro heq
        rw [hsources, ← heq] at htmp
        exact htmp (mem_cons_of_mem _ hroot)
      rw [hgathered]
      exact happends htmp
    exact ⟨⟨rfl, hsources, output, hkept, hkeeps, hnodup, hsame⟩,
      ⟨rfl, hsources, output, hkept, hkeeps, hnodup, hsame⟩⟩
  | merged call =>
    rw [hphase] at hheld
    simp only [removal, hphase] at hremoval
    cases hremoval
    obtain ⟨output, inputs, _, hdir, happends⟩ := hheld
    have hkept : (state.put target.output rest).dirs target.appendTmp =
        some (.whole (output ++ inputs)) :=
      (put_other _ _ target.distinct).trans hdir
    exact ⟨⟨output, inputs, hkept, happends⟩,
      ⟨output, inputs, hkept, happends⟩⟩
  | replacing call =>
    rw [hphase] at hheld
    simp only [removal, hphase] at hremoval
    cases hremoval
    obtain ⟨output, inputs, hdir, happends⟩ := hheld
    have hkept : (state.put target.output rest).dirs target.appendTmp =
        some (.whole (output ++ inputs)) :=
      (put_other _ _ target.distinct).trans hdir
    exact ⟨⟨output, inputs, hkept, happends⟩,
      ⟨output, inputs, hkept, happends⟩⟩
  | cleaning roots =>
    cases roots with
    | nil => simp [removal, hphase] at hremoval
    | cons root roots =>
      rw [hphase] at hheld
      simp only [removal, hphase, Option.some.injEq, Prod.mk.injEq] at hremoval
      obtain ⟨rfl, rfl, rfl⟩ := hremoval
      obtain ⟨output, inputs, hdir, happends⟩ := hheld
      have hne : root ≠ target.output := by
        simpa [spared, hphase] using hspared
      have hkept := (houtput hne).trans hdir
      exact ⟨⟨output, inputs, hkept, happends⟩,
        ⟨output, inputs, hkept, happends⟩⟩

theorem Held.step (hmove : state.Move target label (output, next))
    (hsafe : safeAppend target state label) (hheld : state.Held target entries)
    (hapart : state.Apart target) :
    next.Held target (entries ++ output) := by
  have hrunning := hheld
  unfold Held at hheld
  generalize hresult : (output, next) = result at hmove
  cases hmove with
  | @record path count hphase hpath =>
    obtain ⟨rfl, hnext⟩ := Prod.mk.inj hresult
    rw [hphase] at hheld
    obtain ⟨output, hdir, hkeeps, hnodup⟩ := hheld
    have hidle : next.phase = .idle := by
      rw [hnext]
      exact hphase
    have hkept : next.dirs target.output = state.dirs target.output := by
      rw [hnext]
      exact put_other _ _ hpath.1.symm
    rw [append_nil, Held, hidle]
    exact ⟨output, hkept.trans hdir, hkeeps, hnodup⟩
  | @call call hphase =>
    obtain ⟨rfl, rfl⟩ := Prod.mk.inj hresult
    exact hrunning.begin hapart hphase hsafe
  | unlink hremoval _ _ hspared =>
    cases hresult
    rw [append_nil]
    exact (hrunning.remove hremoval hspared _).1
  | removed hremoval hspared =>
    cases hresult
    rw [append_nil]
    exact (hrunning.remove hremoval hspared _).2
  | passed hremoval hspared =>
    cases hresult
    rw [append_nil]
    cases hphase : state.phase with
    | cleaning roots =>
      cases roots with
      | nil => simp [removal, hphase] at hremoval
      | cons root roots =>
        rw [hphase] at hheld
        simp only [removal, hphase] at hremoval
        cases hremoval
        exact hheld
    | _ => simp [spared, hphase] at hspared
  | @write call path sources dir hphase hsources =>
    obtain ⟨rfl, hnext⟩ := Prod.mk.inj hresult
    rw [hphase] at hheld
    obtain ⟨rfl, rfl, output, hdir, hkeeps, hnodup, happends⟩ := hheld
    have hsame : next.phase = state.phase := by
      rw [hnext]
      rfl
    have hkept : ∀ path ∈ target.output :: call.roots,
        next.dirs path = state.dirs path := by
      intro path hpath
      rw [hnext]
      apply put_other
      intro heq
      exact hsources (heq ▸ hpath)
    have hgathered : next.gathered call.roots = state.gathered call.roots :=
      gathered_congr fun root hroot =>
        hkept root (mem_cons_of_mem _ hroot)
    rw [append_nil, Held, hsame, hphase]
    refine ⟨rfl, rfl, output, ?_, hkeeps, hnodup, ?_⟩
    · exact (hkept _ mem_cons_self).trans hdir
    · rw [hgathered]
      exact happends
  | @aggregated call path sources hphase hsources =>
    obtain ⟨rfl, hnext⟩ := Prod.mk.inj hresult
    rw [hphase] at hheld
    obtain ⟨rfl, rfl, output, hdir, _, _, happends⟩ := hheld
    have hmerged : next.phase = .merged call := by
      rw [hnext]
      exact if_neg target.distinct
    have hgathered : state.gathered (target.output :: call.roots) =
        output ++ state.gathered call.roots := by
      rw [gathered, flatMap_cons, episodesAt_of_whole hdir]
      rfl
    rw [append_nil, Held, hmerged]
    refine ⟨output, state.gathered call.roots, ?_, ?_, happends hsources⟩
    · rw [hnext]
      exact (put_other _ _ target.distinct.symm).trans hdir
    · rw [hnext, ← hgathered]
      exact put_same ..
  | @move call hphase =>
    obtain ⟨rfl, hnext⟩ := Prod.mk.inj hresult
    rw [hphase] at hheld
    obtain ⟨output, inputs, hdir, happends⟩ := hheld
    have hcleaning : next.phase = .cleaning
        (if call.cleanupRoots then call.roots else []) := by
      rw [hnext]
    rw [append_nil, Held, hcleaning]
    refine ⟨output, inputs, ?_, happends⟩
    rw [hnext]
    change ((state.put target.output _).put target.appendTmp none).dirs
      target.output = _
    rw [put_other _ _ target.distinct.symm, put_same, hdir]
  | finish hphase | raise hphase =>
    cases hresult
    apply hrunning.stop
    · rw [hphase]
      rfl
    · rfl
  | interrupt _ =>
    cases hresult
    exact hrunning.stop hsafe rfl

theorem Held.lawful (hmove : state.Move target label (output, next))
    (hheld : state.Held target entries) (hentries : Lawful appendLaw entries) :
    Lawful appendLaw (entries ++ output) := by
  generalize hresult : (output, next) = result at hmove
  cases hmove with
  | call hphase =>
    obtain ⟨rfl, _⟩ := Prod.mk.inj hresult
    apply hentries.append
    intro left entry hentry
    exact beginMerge_entries target _ entry hentry _
  | finish hphase =>
    cases hresult
    apply hentries.snoc
    rw [Held, hphase] at hheld
    obtain ⟨output, inputs, hdir, happends⟩ := hheld
    rw [episodesAt_of_whole hdir]
    exact ⟨happends.keeps.grow, happends.nodup, output, inputs,
      happends.current, rfl⟩
  | raise _ | interrupt _ =>
    cases hresult
    exact hentries.snoc trivial
  | _ =>
    cases hresult
    rw [append_nil]
    exact hentries

end Steps

end MergeStore

/-! ## Runs of interrupted appends -/

/-- Whatever else is cut and retried, no append loses an episode of the output
and none is contained in it twice. -/
theorem appends_keep_every_episode {Path : Type} [DecidableEq Path]
    {target : MergeTarget Path} {start final : MergeStore Path}
    {events : List (Event (MergeStore Path) (MergeLabel Path)
      (List MergeEvent))}
    (hstart : start.MergeStart target)
    (hrun : Run (mergeMachine target) start events final)
    (hsafe : ∀ event ∈ events, safeAppend target event.before event.label) :
    Lawful appendLaw (log events) := by
  have hinvariant := hrun.log_invariant (safeAppend target)
    (fun entries state => state.Apart target ∧ state.Held target entries ∧
      Lawful appendLaw entries) ?_ hsafe ?_
  · exact hinvariant.2.2
  · intro entries state label output next hstate hlabel hstep
    obtain ⟨hapart, hheld, hlawful⟩ := hstate
    have hmove := MergeStore.move_of_step
      (show state.step target label = some (output, next) from hstep)
    exact ⟨hapart.step hmove hheld, hheld.step hmove hlabel hapart,
      hheld.lawful hmove hlawful⟩
  · obtain ⟨output, hdir, hnodup⟩ := hstart.complete
    refine ⟨hstart.apart, ?_, lawful_nil⟩
    rw [MergeStore.Held, hstart.idle]
    refine ⟨output, hdir, ?_, hnodup⟩
    intro before inputs hentry
    exact absurd hentry not_mem_nil

section Runs

/-- A dataset of two episodes at the output, and one of one episode. -/
def twoAndOne : MergeStore ℕ where
  dirs path := [some (.whole [0, 1]), none, some (.whole [2])].getD path none
  recorded := 3
  phase := .idle

def firstPaths : MergeTarget ℕ where
  output := 0
  appendTmp := 1
  distinct := Nat.one_ne_zero

def appendSecond : MergeCall ℕ where
  roots := [2]
  repoIds := none
  overwrite := false
  append := true
  cleanupRoots := true

theorem twoAndOne_start : twoAndOne.MergeStart firstPaths := by
  have hother : ∀ path, path ≠ 0 → path ≠ 1 → path ≠ 2 →
      twoAndOne.episodesAt path = [] := by
    intro path houtput htmp hroot
    match path with
    | 0 => contradiction
    | 1 => contradiction
    | 2 => contradiction
    | path + 3 => rfl
  have hroot : twoAndOne.episodesAt 2 = [2] := rfl
  refine ⟨rfl, ⟨?_, ?_, ?_⟩, [0, 1], rfl, by decide⟩
  · intro path houtput htmp
    by_cases hpath : path = 2
    · rw [hpath, hroot]
      decide
    · rw [hother path houtput htmp hpath]
      exact nodup_nil
  · intro path houtput htmp
    by_cases hpath : path = 2
    · rw [hpath, hroot]
      decide
    · rw [hother path houtput htmp hpath]
      exact fun _ hepisode => absurd hepisode not_mem_nil
  · intro path other hne houtput htmp hotherOutput hotherTmp
    by_cases hpath : path = 2
    · rw [hother other hotherOutput hotherTmp (hpath ▸ hne.symm)]
      exact disjoint_nil_right _
    · rw [hother path houtput htmp hpath]
      exact disjoint_nil_left _

/-- The append is cut while it aggregates, tried again, and another dataset is
appended later. -/
def cutWhileAggregating : List (MergeLabel ℕ) :=
  [.call appendSecond, .removed, .write ⟨∅, [0]⟩, .interrupt,
    .call appendSecond, .unlink ⟨∅, []⟩, .removed, .aggregated,
    .unlink ⟨∅, [1]⟩, .removed, .move, .removed, .finish, .record 2 2,
    .call appendSecond, .removed, .aggregated, .removed, .move, .removed,
    .finish]

theorem appends_keep_every_episode_retried : ∃ events final,
      Run (mergeMachine firstPaths) twoAndOne events final ∧
      events.map Event.label = cutWhileAggregating ∧
      .returned [0, 1, 2, 3, 4] ∈ log events ∧
      Lawful appendLaw (log events) := by
  have hchecked : (((mergeMachine firstPaths).exec twoAndOne
      cutWhileAggregating).map fun result => decide
        (.returned [0, 1, 2, 3, 4] ∈ log result.1 ∧
        ∀ event ∈ result.1,
          safeAppend firstPaths event.before event.label)) = some true := by
    decide +kernel
  obtain ⟨⟨events, final⟩, hexec, hall⟩ := Option.map_eq_some_iff.mp hchecked
  obtain ⟨hreturned, hsafe⟩ := of_decide_eq_true hall
  have hrun := Machine.run_of_exec hexec
  exact ⟨events, final, hrun, Machine.labels_of_exec hexec, hreturned,
    appends_keep_every_episode twoAndOne_start hrun hsafe⟩

/-- The output is removed, and the aggregate is not moved in its place. -/
def cutWhileReplacing : List (MergeLabel ℕ) :=
  [.call appendSecond, .removed, .aggregated, .removed, .interrupt,
    .call appendSecond, .aggregated, .removed, .finish]

def cutWhileCleaning : List (MergeLabel ℕ) :=
  [.call appendSecond, .removed, .aggregated, .removed, .move, .interrupt,
    .call appendSecond, .removed, .aggregated, .removed, .move, .removed,
    .finish]

/-- A retry loses the episodes of the output, or adds its inputs again. -/
theorem retried_append_loses_and_repeats : (∃ events final,
      Run (mergeMachine firstPaths) twoAndOne events final ∧
      events.map Event.label = cutWhileReplacing ∧
      log events = [.began [0, 1] [2], .interrupted, .began [] [2],
        .returned [2]] ∧ ¬Lawful appendLaw (log events)) ∧
    ∃ events final, Run (mergeMachine firstPaths) twoAndOne events final ∧
      events.map Event.label = cutWhileCleaning ∧
      log events = [.began [0, 1] [2], .interrupted, .began [0, 1, 2] [2],
        .returned [0, 1, 2, 2]] ∧ ¬Lawful appendLaw (log events) := by
  constructor
  · have hchecked : ((mergeMachine firstPaths).exec twoAndOne
        cutWhileReplacing).map (fun result => log result.1) =
          some [.began [0, 1] [2], .interrupted, .began [] [2],
            .returned [2]] := by
      decide +kernel
    obtain ⟨⟨events, final⟩, hexec, hlog⟩ := Option.map_eq_some_iff.mp hchecked
    refine ⟨events, final, Machine.run_of_exec hexec,
      Machine.labels_of_exec hexec, hlog, ?_⟩
    intro hlawful
    obtain ⟨hkeeps, _⟩ := hlawful
      [.began [0, 1] [2], .interrupted, .began [] [2]] (.returned [2]) [] hlog
    have hlost := hkeeps [0, 1] [2] mem_cons_self
    revert hlost
    decide
  · have hchecked : ((mergeMachine firstPaths).exec twoAndOne
        cutWhileCleaning).map (fun result => log result.1) =
          some [.began [0, 1] [2], .interrupted, .began [0, 1, 2] [2],
            .returned [0, 1, 2, 2]] := by
      decide +kernel
    obtain ⟨⟨events, final⟩, hexec, hlog⟩ := Option.map_eq_some_iff.mp hchecked
    refine ⟨events, final, Machine.run_of_exec hexec,
      Machine.labels_of_exec hexec, hlog, ?_⟩
    intro hlawful
    obtain ⟨_, htwice, _⟩ := hlawful
      [.began [0, 1] [2], .interrupted, .began [0, 1, 2] [2]]
      (.returned [0, 1, 2, 2]) [] hlog
    revert htwice
    decide

end Runs

end VerlVla
