import VerlVla.GrfpoTrainer

/-!
# What a restart can recover

At every moment the open window of the evidence can be loaded back from the
spool, no schedule slot is recorded twice, and the resume state is not ahead of
the checkpoint.  Each durable write keeps this.
-/

namespace VerlVla

open List hiding after cons nil

variable {config : GrfpoConfig} {files : DurableFiles}

def Recovers (config : GrfpoConfig) (spool : List SpoolEntry)
    (records : List CandidateRecord)
    (accepted : List AcceptedCandidate) : Prop :=
  Forall₂
    (fun record group => loadSpooledCandidate config spool record = .ok group)
    (records.filter (·.selectedForTraining)) accepted

theorem loadSpooledCandidate_spec :
    loadSpooledCandidate config spool record = .ok group ↔
      ∃ path entry, record.candidateSpoolPath = some path ∧
        (spool.find? fun other => other.path = path) = some entry ∧
        entry.matches config record = true ∧
        entry.rollout.length = config.groupSize ∧
        group = ⟨record, entry.rollout⟩ := by
  unfold loadSpooledCandidate
  cases hpath : record.candidateSpoolPath with
  | none => simp
  | some path =>
    cases hfind : spool.find? fun other => other.path = path with
    | none => simp [hfind]
    | some entry =>
      simp only [hfind, require_bind_eq_ok]
      constructor
      · rintro ⟨hmatches, hlength, hgroup⟩
        cases hgroup
        exact ⟨path, entry, rfl, hfind, hmatches, hlength, rfl⟩
      · rintro ⟨_, _, hpath', hfind', hmatches, hlength, rfl⟩
        cases hpath'
        rw [hfind] at hfind'
        cases hfind'
        exact ⟨hmatches, hlength, rfl⟩

theorem record_of_load
    (hload : loadSpooledCandidate config spool record = .ok group) :
    group.record = record := by
  obtain ⟨_, _, _, _, _, _, rfl⟩ := loadSpooledCandidate_spec.mp hload
  rfl

theorem load_append
    (hload : loadSpooledCandidate config spool record = .ok group) :
    loadSpooledCandidate config (spool ++ added) record = .ok group := by
  rw [loadSpooledCandidate_spec] at hload ⊢
  obtain ⟨path, entry, hpath, hfind, hrest⟩ := hload
  refine ⟨path, entry, hpath, ?_, hrest⟩
  rw [find?_append, hfind]
  rfl

theorem load_persisted
    (hpaths : ∀ entry ∈ files.spool, entry.path < files.spoolPaths)
    (record : CandidateRecord) (hrollout : rollout.length = config.groupSize) :
    loadSpooledCandidate config
        (persistAcceptedCandidate config files record rollout).1.spool
        (persistAcceptedCandidate config files record rollout).2 =
      .ok ⟨(persistAcceptedCandidate config files record rollout).2,
        rollout⟩ := by
  have hunused : (files.spool.find? fun other =>
      other.path = files.spoolPaths) = none := by
    apply find?_eq_none.mpr
    intro entry hentry
    have hlt := hpaths entry hentry
    simp only [decide_eq_true_eq]
    omega
  rw [loadSpooledCandidate_spec]
  refine ⟨files.spoolPaths,
    spoolEntry config files.spoolPaths record rollout, rfl, ?_, ?_,
    hrollout, rfl⟩
  · simp only [persistAcceptedCandidate]
    rw [find?_append, hunused]
    simp [spoolEntry]
  · simp [SpoolEntry.matches, spoolEntry, persistAcceptedCandidate]

theorem load_cleanup
    (hload : loadSpooledCandidate config files.spool record = .ok group)
    (hother : record.inWindow intended version = false) :
    loadSpooledCandidate config
        (cleanupCandidateSpoolWindow intended version files).spool record =
      .ok group := by
  rw [loadSpooledCandidate_spec] at hload ⊢
  obtain ⟨path, entry, hpath, hfind, hmatches, hrest⟩ := hload
  refine ⟨path, entry, hpath, ?_, hmatches, hrest⟩
  have hkept : ¬(entry.intendedUpdate = intended ∧
      entry.rolloutPolicyVersion = version) := by
    simp only [SpoolEntry.matches, decide_eq_true_eq] at hmatches
    simp only [CandidateRecord.inWindow, decide_eq_false_iff_not] at hother
    rw [hmatches.1, hmatches.2.1]
    exact hother
  obtain ⟨hfound, before, after, hsplit, hbefore⟩ :=
    find?_eq_some_iff_append.mp hfind
  apply find?_eq_some_iff_append.mpr
  refine ⟨hfound,
    before.filter fun other => ¬(other.intendedUpdate = intended ∧
      other.rolloutPolicyVersion = version),
    after.filter fun other => ¬(other.intendedUpdate = intended ∧
      other.rolloutPolicyVersion = version), ?_, ?_⟩
  · simp only [cleanupCandidateSpoolWindow, hsplit, filter_append]
    congr 1
    exact filter_cons_of_pos (decide_eq_true hkept)
  · intro other hmem
    exact hbefore other (mem_of_mem_filter hmem)

namespace Recovers

variable {spool other : List SpoolEntry} {accepted : List AcceptedCandidate}

section

variable (hrecovers : Recovers config spool records accepted)

include hrecovers

theorem map_record : accepted.map (·.record) =
      records.filter (·.selectedForTraining) := by
  unfold Recovers at hrecovers
  generalize records.filter (·.selectedForTraining) = selected at hrecovers ⊢
  induction hrecovers with
  | nil => rfl
  | cons hload _ ih =>
    rw [map_cons, ih, record_of_load hload]

theorem mono (hload : ∀ record ∈ records, ∀ group,
      loadSpooledCandidate config spool record = .ok group →
      loadSpooledCandidate config other record = .ok group) :
    Recovers config other records accepted := by
  have hmember : ∀ record ∈ records.filter (·.selectedForTraining),
      ∀ group, loadSpooledCandidate config spool record = .ok group →
        loadSpooledCandidate config other record = .ok group :=
    fun record hrecord => hload record (mem_of_mem_filter hrecord)
  unfold Recovers at hrecovers ⊢
  generalize records.filter (·.selectedForTraining) = selected
    at hrecovers hmember ⊢
  induction hrecovers with
  | nil => exact Forall₂.nil
  | cons hhead _ ih =>
    exact Forall₂.cons (hmember _ mem_cons_self _ hhead)
      (ih fun record hrecord =>
        hmember record (mem_cons_of_mem _ hrecord))

theorem reject (hrecord : record.selectedForTraining = false) :
    Recovers config spool (records ++ [record]) accepted := by
  unfold Recovers at hrecovers ⊢
  rw [filter_append, filter_singleton, hrecord]
  simpa using hrecovers

theorem select (hrecord : record.selectedForTraining = true)
    (hload : loadSpooledCandidate config spool record = .ok group) :
    Recovers config spool (records ++ [record]) (accepted ++ [group]) := by
  unfold Recovers at hrecovers ⊢
  rw [filter_append, filter_singleton, hrecord]
  exact rel_append hrecovers (Forall₂.cons hload Forall₂.nil)

end

end Recovers

structure FilesInv (config : GrfpoConfig) (files : DurableFiles) : Prop where
  slots_nodup : ((historicalCandidates files.evidence).map
    (·.candidateScheduleSlot)).Nodup
  paths_lt : ∀ entry ∈ files.spool, entry.path < files.spoolPaths
  recoverable (version : ℕ) : ∃ accepted, Recovers config files.spool
    (resumeCandidateRecords (version + 1) version files.evidence) accepted
  state_old : ∀ state, files.resumeState = some state →
    state.rolloutPolicyVersion ≤ files.checkpoint
  state_base : ∀ state, files.resumeState = some state →
    state.basePolicy = config.basePolicy
  slot_dvd : config.groupsPerWave ∣ resumeSlot files

namespace FilesInv

theorem initial : FilesInv config (TrainerState.initial config).files where
  slots_nodup := nodup_nil
  paths_lt := by
    exact nofun
  recoverable _ := ⟨[], Forall₂.nil⟩
  state_old := by
    exact nofun
  state_base := by
    exact nofun
  slot_dvd := dvd_zero _

variable (hfiles : FilesInv config files)

include hfiles

theorem close (intended version : ℕ) : FilesInv config (appendEvidence
      (.collectionWindowClosed intended version) files) where
  slots_nodup := by
    change ((historicalCandidates (files.evidence ++ _)).map _).Nodup
    rw [historicalCandidates_append]
    simpa [EvidenceLine.record?] using hfiles.slots_nodup
  paths_lt := hfiles.paths_lt
  recoverable other := by
    change ∃ accepted, Recovers config files.spool
      (resumeCandidateRecords (other + 1) other (files.evidence ++ _)) _
    rw [resumeCandidateRecords_append]
    simp only [resumeLine]
    split_ifs
    · exact ⟨[], Forall₂.nil⟩
    · exact hfiles.recoverable other
  state_old := hfiles.state_old
  state_base := hfiles.state_base
  slot_dvd := hfiles.slot_dvd

theorem record {record : CandidateRecord}
    (hslot : ∀ other ∈ historicalCandidates files.evidence,
      other.candidateScheduleSlot ≠ record.candidateScheduleSlot)
    (hload : record.selectedForTraining = true → ∃ group,
      loadSpooledCandidate config files.spool record = .ok group) :
    FilesInv config (appendEvidence (.candidateGroup record) files) where
  slots_nodup := by
    change ((historicalCandidates (files.evidence ++ _)).map _).Nodup
    rw [historicalCandidates_append, map_append, nodup_append]
    refine ⟨hfiles.slots_nodup, nodup_singleton _, ?_⟩
    intro slot hold other hnew
    obtain ⟨earlier, hearlier, rfl⟩ := mem_map.mp hold
    obtain rfl : other = record.candidateScheduleSlot := by
      simpa [EvidenceLine.record?] using hnew
    exact hslot earlier hearlier
  paths_lt := hfiles.paths_lt
  recoverable version := by
    obtain ⟨accepted, haccepted⟩ := hfiles.recoverable version
    change ∃ accepted, Recovers config files.spool
      (resumeCandidateRecords (version + 1) version (files.evidence ++ _)) _
    rw [resumeCandidateRecords_append]
    simp only [resumeLine]
    split_ifs
    · cases hselected : record.selectedForTraining with
      | false => exact ⟨accepted, haccepted.reject hselected⟩
      | true =>
        obtain ⟨group, hgroup⟩ := hload hselected
        exact ⟨accepted ++ [group], haccepted.select hselected hgroup⟩
    · exact ⟨accepted, haccepted⟩
  state_old := hfiles.state_old
  state_base := hfiles.state_base
  slot_dvd := hfiles.slot_dvd

theorem persist (record : CandidateRecord) (rollout : List SelectedCase) :
    FilesInv config
      (persistAcceptedCandidate config files record rollout).1 where
  slots_nodup := hfiles.slots_nodup
  paths_lt := by
    intro entry hentry
    change entry ∈ files.spool ++ [_] at hentry
    change entry.path < files.spoolPaths + 1
    rcases mem_append.mp hentry with hold | hnew
    · exact (hfiles.paths_lt entry hold).trans (Nat.lt_succ_self _)
    · rw [mem_singleton.mp hnew]
      exact Nat.lt_succ_self _
  recoverable version := by
    obtain ⟨accepted, haccepted⟩ := hfiles.recoverable version
    exact ⟨accepted, haccepted.mono fun _ _ _ => load_append⟩
  state_old := hfiles.state_old
  state_base := hfiles.state_base
  slot_dvd := hfiles.slot_dvd

theorem cleanup (hclosed : resumeCandidateRecords (version + 1) version
      files.evidence = []) :
    FilesInv config
      (cleanupCandidateSpoolWindow (version + 1) version files) where
  slots_nodup := hfiles.slots_nodup
  paths_lt entry hentry := hfiles.paths_lt entry (mem_of_mem_filter hentry)
  recoverable other := by
    change ∃ accepted, Recovers config _
      (resumeCandidateRecords (other + 1) other files.evidence) accepted
    by_cases hsame : other = version
    · rw [hsame, hclosed]
      exact ⟨[], Forall₂.nil⟩
    · obtain ⟨accepted, haccepted⟩ := hfiles.recoverable other
      refine ⟨accepted, haccepted.mono fun record hrecord group hgroup => ?_⟩
      apply load_cleanup hgroup
      have hwindow := inWindow_of_mem_resume hrecord
      simp only [CandidateRecord.inWindow, decide_eq_true_eq] at hwindow
      simp only [CandidateRecord.inWindow, decide_eq_false_iff_not]
      omega
  state_old := hfiles.state_old
  state_base := hfiles.state_base
  slot_dvd := hfiles.slot_dvd

theorem writeState
    (hwritten : writeCandidateResumeState config version intended attempt
      slot files = .ok written) (hversion : version ≤ files.checkpoint) :
    FilesInv config written := by
  unfold writeCandidateResumeState at hwritten
  rw [require_bind_eq_ok] at hwritten
  obtain ⟨hslot, hwritten⟩ := hwritten
  cases hwritten
  constructor
  · exact hfiles.slots_nodup
  · exact hfiles.paths_lt
  · exact hfiles.recoverable
  · intro state hstate
    cases hstate
    exact hversion
  · intro state hstate
    cases hstate
    rfl
  · exact Nat.dvd_of_mod_eq_zero hslot

theorem save (hstep : files.checkpoint ≤ step) :
    FilesInv config { files with checkpoint := step } where
  slots_nodup := hfiles.slots_nodup
  paths_lt := hfiles.paths_lt
  recoverable := hfiles.recoverable
  state_old state hstate := (hfiles.state_old state hstate).trans hstep
  state_base := hfiles.state_base
  slot_dvd := hfiles.slot_dvd

end FilesInv
end VerlVla
