import DealFlow360.Lib.Machine
import DealFlow360.Lib.Table
import DealFlow360.Types

/-!
# Job status

Every process keeps a tracker: a cache in memory in front of the status files
that all of them share. A cached record is answered as it is, whatever the file
holds by then. Otherwise the file is read, and it is found by a name in which
several ids can be the same.

The answers are compared with the records that were put, by anyone, so far.
What decides is the history of the calls alone: which records were put, and how
many of them when a tracker last put a record of the job or, where it has put
none, first found one (`StatusHistory`). What others put for the job after that
is what the tracker misses. `Recalls` ties the caches and the files to the
history, every call keeps it (`Recalls.call`), and after a run a call answers
by the latest records exactly if it misses nothing that makes a difference to
it.
-/

namespace DealFlow360.Jobs

/-! ## Records -/

inductive JobStatusName where
  | queued | processing | completed | failed | retrying
  deriving DecidableEq, Repr

structure JobStatusRecord where
  jobId : String
  type : String
  status : JobStatusName
  attempts : ℕ
  createdAt : Timestamp
  startedAt : Option Timestamp := none
  completedAt : Option Timestamp := none
  error : Option String := none
  progress : Option ℕ := none
  createdBy : Option String := none
  deriving DecidableEq, Repr

/-- The fields a patch has. One that a record may lack can be set to `undefined`. -/
structure JobStatusPatch where
  type : Option String := none
  status : Option JobStatusName := none
  attempts : Option ℕ := none
  createdAt : Option Timestamp := none
  startedAt : Option (Option Timestamp) := none
  completedAt : Option (Option Timestamp) := none
  error : Option (Option String) := none
  progress : Option (Option ℕ) := none
  createdBy : Option (Option String) := none
  deriving DecidableEq, Repr

/-- `{ ...current, ...patch }` with the id of the record. -/
def JobStatusRecord.patched (current : JobStatusRecord) (patch : JobStatusPatch) : JobStatusRecord where
  jobId := current.jobId
  type := patch.type.getD current.type
  status := patch.status.getD current.status
  attempts := patch.attempts.getD current.attempts
  createdAt := patch.createdAt.getD current.createdAt
  startedAt := patch.startedAt.getD current.startedAt
  completedAt := patch.completedAt.getD current.completedAt
  error := patch.error.getD current.error
  progress := patch.progress.getD current.progress
  createdBy := patch.createdBy.getD current.createdBy

/-- What a reader of the file takes for a record. -/
def JobStatusRecord.readable (record : JobStatusRecord) : Bool :=
  record.jobId ≠ "" && record.type ≠ ""

/-- The characters outside `[A-Za-z0-9._-]` become `_`, one for each UTF-16 code unit. -/
def safeFileId (jobId : String) : String :=
  String.ofList (jobId.toList.flatMap fun c =>
    if c.isAlphanum || c = '.' || c = '_' || c = '-' then [c]
    else if c.toNat < 0x10000 then ['_']
    else ['_', '_'])

def filePath (jobId : String) : String := safeFileId jobId ++ ".json"

/-! ## Trackers -/

/-- An entry of the cache. It stands under the id that was asked for. -/
structure CachedStatus where
  jobId : String
  record : JobStatusRecord
  deriving DecidableEq, Repr

structure StatusFile where
  name : String
  record : JobStatusRecord
  deriving DecidableEq, Repr

structure JobStatusTracker where
  memory : List CachedStatus := []
  deriving DecidableEq, Repr

abbrev StatusDirectory := List StatusFile

namespace JobStatusTracker

def cached (tracker : JobStatusTracker) (jobId : String) : Option JobStatusRecord :=
  (Table.lookup CachedStatus.jobId jobId tracker.memory).map CachedStatus.record

/-- `memory.set`. -/
def remember (jobId : String) (record : JobStatusRecord) (tracker : JobStatusTracker) : JobStatusTracker :=
  { tracker with memory := Table.upsert CachedStatus.jobId { jobId, record } tracker.memory }

end JobStatusTracker

namespace StatusDirectory

def file (directory : StatusDirectory) (jobId : String) : Option JobStatusRecord :=
  (Table.lookup StatusFile.name (filePath jobId) directory).map StatusFile.record

def read (directory : StatusDirectory) (jobId : String) : Option JobStatusRecord :=
  (directory.file jobId).filter JobStatusRecord.readable

def persist (record : JobStatusRecord) (directory : StatusDirectory) : StatusDirectory :=
  Table.upsert StatusFile.name { name := filePath record.jobId, record } directory

end StatusDirectory

namespace JobStatusTracker

variable (tracker : JobStatusTracker) (directory : StatusDirectory)

def put (record : JobStatusRecord) : JobStatusTracker × StatusDirectory :=
  (tracker.remember record.jobId record, directory.persist record)

def get (jobId : String) : JobStatusTracker × Option JobStatusRecord :=
  match tracker.cached jobId with
  | some record => (tracker, some record)
  | none =>
      match directory.read jobId with
      | none => (tracker, none)
      | some record => (tracker.remember jobId record, some record)

def patch (jobId : String) (patch : JobStatusPatch) :
    JobStatusTracker × StatusDirectory × Option JobStatusRecord :=
  match tracker.get directory jobId with
  | (tracker', none) => (tracker', directory, none)
  | (tracker', some current) =>
      let next := current.patched patch
      let written := tracker'.put directory next
      (written.1, written.2, some next)

end JobStatusTracker

/-! ## Calls of several trackers -/

/-- The trackers of the processes, by number, over one directory. -/
structure StatusState where
  directory : StatusDirectory := []
  trackers : ℕ → JobStatusTracker := fun _ => {}

inductive StatusCall where
  | put (tracker : ℕ) (record : JobStatusRecord)
  | patch (tracker : ℕ) (jobId : String) (patch : JobStatusPatch)
  | get (tracker : ℕ) (jobId : String)
  deriving DecidableEq, Repr

namespace StatusState

/-- A call, with the state after it and what it answers. -/
def call (s : StatusState) : StatusCall → StatusState × Option JobStatusRecord
  | .put i record =>
      let (tracker, directory) := (s.trackers i).put s.directory record
      ({ directory, trackers := Function.update s.trackers i tracker }, none)
  | .patch i jobId patch =>
      let (tracker, directory, answer) := (s.trackers i).patch s.directory jobId patch
      ({ directory, trackers := Function.update s.trackers i tracker }, answer)
  | .get i jobId =>
      let (tracker, answer) := (s.trackers i).get s.directory jobId
      ({ s with trackers := Function.update s.trackers i tracker }, answer)

abbrev step (s : StatusState) (c : StatusCall) : StatusState := (s.call c).1

abbrev run (s : StatusState) (calls : List StatusCall) : StatusState := Machine.run step s calls

/-- The record a call puts. -/
def puts (s : StatusState) : StatusCall → Option JobStatusRecord
  | .put _ record => some record
  | .patch i jobId patch => (s.call (.patch i jobId patch)).2
  | .get _ _ => none

/-- No process has put or read anything yet. -/
structure Fresh (s : StatusState) : Prop where
  directory : s.directory = []
  memory : ∀ i, (s.trackers i).memory = []

end StatusState

/-- The last of the records that is the job's. -/
def lastPut (records : List JobStatusRecord) (jobId : String) : Option JobStatusRecord :=
  (records.filter fun record => record.jobId = jobId).getLast?

/-- The last of the records that were put under the file name. -/
def lastUnder (records : List JobStatusRecord) (name : String) : Option JobStatusRecord :=
  (records.filter fun record => filePath record.jobId = name).getLast?

/-! ## Histories -/

/-- The records put so far, and how many they were when a tracker last put one of the job or first found
one. -/
structure StatusHistory where
  records : List JobStatusRecord := []
  marks : ℕ → String → Option ℕ := fun _ _ => none

namespace StatusHistory

variable (h : StatusHistory)

def mark (i : ℕ) (jobId : String) (n : ℕ) : StatusHistory :=
  { h with marks := Function.update h.marks i (Function.update (h.marks i) jobId (some n)) }

/-- The tracker looks for the job: the first time it finds a file of the name counts. -/
def looked (i : ℕ) (jobId : String) : StatusHistory :=
  if h.marks i jobId = none ∧ (lastUnder h.records (filePath jobId)).any JobStatusRecord.readable = true then
    h.mark i jobId h.records.length
  else h

/-- The tracker puts a record. -/
def wrote (i : ℕ) (record : JobStatusRecord) : StatusHistory :=
  { h with records := h.records ++ [record] }.mark i record.jobId (h.records.length + 1)

/-- The history after a call and the record it put. -/
def after : StatusCall → Option JobStatusRecord → StatusHistory
  | .put i record, _ => h.wrote i record
  | .patch i jobId _, none => h.looked i jobId
  | .patch i jobId _, some record => (h.looked i jobId).wrote i record
  | .get i jobId, _ => h.looked i jobId

/-- What the tracker had from the job's file was of the job, and what was put for the job since, if anything,
ends with a record that agrees with it. -/
def Knows (jobId : String) (n : ℕ) (agrees : JobStatusRecord → JobStatusRecord → Prop) : Prop :=
  ∃ had, lastUnder (h.records.take n) (filePath jobId) = some had ∧ had.jobId = jobId ∧
    ∀ later, lastPut (h.records.drop n) jobId = some later → agrees had later

/-- The last record under the job's file name is one of this job that can be read, or one that cannot be read
where none was put for the job, or there is none. -/
def Tells (jobId : String) : Prop :=
  match lastUnder h.records (filePath jobId) with
  | none => True
  | some record => if record.readable then record.jobId = jobId else lastPut h.records jobId = none

end StatusHistory

/-- A cached copy agrees with the latest record in what the patch leaves alone. -/
structure JobStatusPatch.Keeps (patch : JobStatusPatch) (copy latest : JobStatusRecord) : Prop where
  jobId : copy.jobId = latest.jobId
  type : patch.type = none → copy.type = latest.type
  status : patch.status = none → copy.status = latest.status
  attempts : patch.attempts = none → copy.attempts = latest.attempts
  createdAt : patch.createdAt = none → copy.createdAt = latest.createdAt
  startedAt : patch.startedAt = none → copy.startedAt = latest.startedAt
  completedAt : patch.completedAt = none → copy.completedAt = latest.completedAt
  error : patch.error = none → copy.error = latest.error
  progress : patch.progress = none → copy.progress = latest.progress
  createdBy : patch.createdBy = none → copy.createdBy = latest.createdBy

/-- A tracker that put or found the job before knows of all that was put for it since (for a `patch`, as far as the
patch does not set it), and for any other the file name tells. -/
def StatusHistory.UpToDate (h : StatusHistory) : StatusCall → Prop
  | .put _ _ => True
  | .patch i jobId patch =>
      match h.marks i jobId with
      | some n => h.Knows jobId n patch.Keeps
      | none => h.Tells jobId
  | .get i jobId =>
      match h.marks i jobId with
      | some n => h.Knows jobId n Eq
      | none => h.Tells jobId

namespace StatusState

/-- The history of a run, after one before it. -/
def historyOf (s : StatusState) (h : StatusHistory) : List StatusCall → StatusHistory
  | [] => h
  | c :: calls => historyOf (s.step c) (h.after c (s.puts c)) calls

/-- The call answers as if there were only the records put so far: a `get` the last one of the job, a
`patch` that record with the patch applied. -/
def Coherent (s : StatusState) (records : List JobStatusRecord) : StatusCall → Prop
  | .put _ _ => True
  | .patch i jobId patch =>
      (s.call (.patch i jobId patch)).2 = (lastPut records jobId).map (·.patched patch)
  | .get i jobId => (s.call (.get i jobId)).2 = lastPut records jobId

instance (s : StatusState) (records : List JobStatusRecord) (call : StatusCall) :
    Decidable (s.Coherent records call) := by
  cases call <;> unfold Coherent <;> infer_instance

end StatusState

/-! ## The records of a name and of a job -/

section Records

variable {records : List JobStatusRecord} {jobId name : String} {record : JobStatusRecord}

theorem lastUnder_concat : lastUnder (records ++ [record]) name =
    if filePath record.jobId = name then some record else lastUnder records name := by
  unfold lastUnder
  rw [List.filter_append]
  split_ifs with hname
  · have hthis : [record].filter (fun record => filePath record.jobId = name) = [record] := by simp [hname]
    rw [hthis, List.getLast?_concat]
  · have hnone : [record].filter (fun record => filePath record.jobId = name) = [] := by simp [hname]
    rw [hnone, List.append_nil]

theorem lastPut_jobId (h : lastPut records jobId = some record) : record.jobId = jobId := by
  have hmem := List.mem_of_getLast? h
  exact of_decide_eq_true (List.mem_filter.mp hmem).2

theorem lastPut_append (first last : List JobStatusRecord) (jobId : String) :
    lastPut (first ++ last) jobId = (lastPut last jobId).or (lastPut first jobId) := by
  unfold lastPut
  rw [List.filter_append, List.getLast?_append]

/-- The last record put under the name of a job is the last one put for it, if it is the job's at all. -/
theorem lastPut_of_lastUnder (h : lastUnder records (filePath jobId) = some record) (hid : record.jobId = jobId) :
    lastPut records jobId = some record := by
  obtain ⟨before, hbefore⟩ := List.getLast?_eq_some_iff.mp h
  -- the records of the job are among those of its name
  have hjob : records.filter (fun record => record.jobId = jobId) =
      (records.filter fun record => filePath record.jobId = filePath jobId).filter
        fun record => record.jobId = jobId := by
    rw [List.filter_filter]
    refine List.filter_congr fun other _ => ?_
    rw [Bool.eq_iff_iff, Bool.and_eq_true]
    simp only [decide_eq_true_eq]
    exact ⟨fun hother => ⟨hother, congrArg filePath hother⟩, And.left⟩
  have hthis : [record].filter (fun record => record.jobId = jobId) = [record] := by simp [hid]
  unfold lastPut
  rw [hjob, hbefore, List.filter_append, hthis, List.getLast?_concat]

/-- Where nothing was put under its name, nothing was put for the job. -/
theorem lastPut_of_lastUnder_eq_none (h : lastUnder records (filePath jobId) = none) :
    lastPut records jobId = none := by
  unfold lastUnder at h
  rw [List.getLast?_eq_none_iff, List.filter_eq_nil_iff] at h
  unfold lastPut
  rw [List.getLast?_eq_none_iff, List.filter_eq_nil_iff]
  intro record hrecord hid
  refine h record hrecord ?_
  rw [decide_eq_true_eq] at hid ⊢
  exact congrArg filePath hid

end Records

/-! ## What the latest records decide -/

section Latest

variable {h : StatusHistory} {jobId : String} {n : ℕ} {had : JobStatusRecord} {patch : JobStatusPatch}

/-- What can be read under the name is the last record put for the job if and only if the name tells. -/
theorem readable_eq_lastPut_iff :
    (lastUnder h.records (filePath jobId)).filter JobStatusRecord.readable = lastPut h.records jobId ↔
      h.Tells jobId := by
  unfold StatusHistory.Tells
  cases hlast : lastUnder h.records (filePath jobId) with
  | none => exact iff_of_true (lastPut_of_lastUnder_eq_none hlast).symm trivial
  | some record =>
      dsimp only
      rw [Option.filter_some]
      split
      · constructor
        · intro hread
          exact lastPut_jobId hread.symm
        · intro hid
          exact (lastPut_of_lastUnder hlast hid).symm
      · exact eq_comm

/-- A record the tracker had is as good as the latest one for `f` if and only if the tracker knows of the latest one
what `f` reads. -/
theorem knows_iff {α : Type} {f : JobStatusRecord → α} {agrees : JobStatusRecord → JobStatusRecord → Prop}
    (hagrees : ∀ copy latest, f copy = f latest ↔ agrees copy latest)
    (hid : ∀ copy latest, agrees copy latest → copy.jobId = latest.jobId)
    (hhad : lastUnder (h.records.take n) (filePath jobId) = some had) :
    some (f had) = (lastPut h.records jobId).map f ↔ h.Knows jobId n agrees := by
  have hlatest : lastPut h.records jobId =
      (lastPut (h.records.drop n) jobId).or (lastPut (h.records.take n) jobId) := by
    rw [← lastPut_append, List.take_append_drop]
  unfold StatusHistory.Knows
  rw [eq_comm, Option.map_eq_some_iff]
  constructor
  · rintro ⟨latest, hput, hsame⟩
    have hkeeps := (hagrees had latest).mp hsame.symm
    refine ⟨had, hhad, (hid had latest hkeeps).trans (lastPut_jobId hput), fun later hlater => ?_⟩
    rw [hlatest, hlater, Option.some_or] at hput
    exact (Option.some.inj hput) ▸ hkeeps
  · rintro ⟨had', hhad', hjob, hsince⟩
    obtain rfl := Option.some.inj (hhad.symm.trans hhad')
    rw [hlatest]
    cases hlater : lastPut (h.records.drop n) jobId with
    | none => exact ⟨had, by rw [Option.none_or, lastPut_of_lastUnder hhad hjob], rfl⟩
    | some later => exact ⟨later, rfl, ((hagrees had later).mpr (hsince later hlater)).symm⟩

theorem getD_eq_iff {α : Type} {o : Option α} {a b : α} : o.getD a = o.getD b ↔ (o = none → a = b) := by
  cases o with
  | none => exact ⟨fun h _ => h, fun h => h rfl⟩
  | some value => exact iff_of_true rfl fun h => absurd h (Option.some_ne_none value)

theorem patched_eq_iff {copy latest : JobStatusRecord} :
    copy.patched patch = latest.patched patch ↔ patch.Keeps copy latest := by
  unfold JobStatusRecord.patched
  rw [JobStatusRecord.mk.injEq]
  simp only [getD_eq_iff]
  constructor
  · rintro ⟨hid, htype, hstatus, hattempts, hcreated, hstarted, hcompleted, herror, hprogress, hby⟩
    exact ⟨hid, htype, hstatus, hattempts, hcreated, hstarted, hcompleted, herror, hprogress, hby⟩
  · rintro ⟨hid, htype, hstatus, hattempts, hcreated, hstarted, hcompleted, herror, hprogress, hby⟩
    exact ⟨hid, htype, hstatus, hattempts, hcreated, hstarted, hcompleted, herror, hprogress, hby⟩

end Latest

/-! ## What the caches and the files hold -/

/-- Every file holds the last record put under its name, and every cached copy is the last record under its name
that had been put by the time it was made. -/
structure Recalls (s : StatusState) (h : StatusHistory) : Prop where
  file : ∀ name, (Table.lookup StatusFile.name name s.directory).map StatusFile.record = lastUnder h.records name
  cached : ∀ i jobId, (s.trackers i).cached jobId =
    (h.marks i jobId).bind fun n => lastUnder (h.records.take n) (filePath jobId)
  marked : ∀ i jobId n, h.marks i jobId = some n →
    n ≤ h.records.length ∧ (lastUnder (h.records.take n) (filePath jobId)).isSome

section Calls

variable {s : StatusState} {h : StatusHistory} {i : ℕ} {jobId : String} {patch : JobStatusPatch}

@[simp] theorem marks_mark (n : ℕ) (i' : ℕ) (jobId' : String) :
    (h.mark i jobId n).marks i' jobId' = if i' = i ∧ jobId' = jobId then some n else h.marks i' jobId' := by
  unfold StatusHistory.mark
  dsimp only
  by_cases hi : i' = i
  · subst hi
    by_cases hjob : jobId' = jobId
    · subst hjob
      simp
    · simp [hjob]
  · simp [hi]

theorem cached_remember (tracker : JobStatusTracker) (record : JobStatusRecord) (jobId' : String) :
    (tracker.remember jobId record).cached jobId' = if jobId' = jobId then some record else tracker.cached jobId' := by
  unfold JobStatusTracker.remember JobStatusTracker.cached
  dsimp only
  rw [Table.lookup_upsert]
  by_cases hjob : jobId' = jobId
  · rw [if_pos hjob.symm, if_pos hjob]
    rfl
  · rw [if_neg (Ne.symm hjob), if_neg hjob]

theorem Recalls.read (hrecalls : Recalls s h) (jobId : String) :
    s.directory.read jobId = (lastUnder h.records (filePath jobId)).filter JobStatusRecord.readable := by
  unfold StatusDirectory.read StatusDirectory.file
  rw [hrecalls.file]

/-- The state after the tracker has another copy, and its history. -/
theorem Recalls.remember (hrecalls : Recalls s h) {record : JobStatusRecord} {n : ℕ} (hn : n ≤ h.records.length)
    (hrecord : lastUnder (h.records.take n) (filePath jobId) = some record) :
    Recalls { s with trackers := Function.update s.trackers i ((s.trackers i).remember jobId record) }
      (h.mark i jobId n) where
  file := hrecalls.file
  cached := by
    intro i' jobId'
    rw [marks_mark]
    change (Function.update s.trackers i _ i').cached jobId' =
      Option.bind _ fun n => lastUnder (h.records.take n) (filePath jobId')
    by_cases hi : i' = i
    · subst hi
      rw [Function.update_self, cached_remember]
      by_cases hjob : jobId' = jobId
      · subst hjob
        rw [if_pos rfl, if_pos ⟨rfl, rfl⟩]
        exact hrecord.symm
      · rw [if_neg hjob, if_neg fun hboth => hjob hboth.2]
        exact hrecalls.cached i' jobId'
    · rw [Function.update_of_ne hi, if_neg fun hboth => hi hboth.1]
      exact hrecalls.cached i' jobId'
  marked := by
    intro i' jobId' n' hmark
    rw [marks_mark] at hmark
    split_ifs at hmark with hboth
    · obtain rfl := Option.some.inj hmark
      obtain ⟨-, rfl⟩ := hboth
      exact ⟨hn, Option.isSome_iff_exists.mpr ⟨record, hrecord⟩⟩
    · exact hrecalls.marked i' jobId' n' hmark

/-- More records are put; the copies stay what they were. -/
theorem Recalls.persist (hrecalls : Recalls s h) (record : JobStatusRecord) :
    Recalls { s with directory := s.directory.persist record } { h with records := h.records ++ [record] } where
  file := by
    intro name
    unfold StatusDirectory.persist
    dsimp only
    rw [Table.lookup_upsert, lastUnder_concat, ← hrecalls.file]
    split_ifs
    · rfl
    · rfl
  cached := by
    intro i' jobId'
    rw [hrecalls.cached]
    cases hmark : h.marks i' jobId' with
    | none => rfl
    | some n =>
        dsimp only [Option.bind_some]
        rw [List.take_append_of_le_length (hrecalls.marked i' jobId' n hmark).1]
  marked := by
    intro i' jobId' n hmark
    obtain ⟨hn, hsome⟩ := hrecalls.marked i' jobId' n hmark
    rw [List.length_append, List.take_append_of_le_length hn]
    exact ⟨Nat.le_add_right_of_le hn, hsome⟩

/-- A tracker puts a record. -/
theorem Recalls.put (hrecalls : Recalls s h) (record : JobStatusRecord) :
    Recalls
      { directory := s.directory.persist record
        trackers := Function.update s.trackers i ((s.trackers i).remember record.jobId record) }
      (h.wrote i record) := by
  have hlength : h.records.length + 1 = (h.records ++ [record]).length := by
    rw [List.length_append, List.length_singleton]
  refine (hrecalls.persist record).remember (n := h.records.length + 1) hlength.le ?_
  rw [hlength, List.take_length, lastUnder_concat, if_pos rfl]

/-- A tracker looks for a job. -/
theorem Recalls.get (hrecalls : Recalls s h) (i : ℕ) (jobId : String) :
    Recalls { s with trackers := Function.update s.trackers i ((s.trackers i).get s.directory jobId).1 }
      (h.looked i jobId) := by
  have hsame : { s with trackers := Function.update s.trackers i (s.trackers i) } = s := by
    rw [Function.update_eq_self]
  unfold JobStatusTracker.get StatusHistory.looked
  rw [hrecalls.read]
  have hcached := hrecalls.cached i jobId
  cases hmark : h.marks i jobId with
  | some n =>
      obtain ⟨record, hrecord⟩ := Option.isSome_iff_exists.mp (hrecalls.marked i jobId n hmark).2
      rw [hmark, Option.bind_some, hrecord] at hcached
      rw [hcached, if_neg (by simp)]
      dsimp only
      rw [hsame]
      exact hrecalls
  | none =>
      rw [hmark, Option.bind_none] at hcached
      rw [hcached]
      dsimp only
      cases hlast : lastUnder h.records (filePath jobId) with
      | none =>
          rw [if_neg (by simp), Option.filter_none]
          dsimp only
          rw [hsame]
          exact hrecalls
      | some record =>
          rw [Option.filter_some]
          by_cases hreadable : record.readable = true
          · rw [if_pos hreadable, if_pos ⟨rfl, by simpa using hreadable⟩]
            exact hrecalls.remember le_rfl (by rw [List.take_length]; exact hlast)
          · rw [if_neg hreadable, if_neg (by simpa using hreadable)]
            dsimp only
            rw [hsame]
            exact hrecalls

theorem get_answer (tracker : JobStatusTracker) (directory : StatusDirectory) (jobId : String) :
    (tracker.get directory jobId).2 = (tracker.cached jobId).or (directory.read jobId) := by
  unfold JobStatusTracker.get
  cases tracker.cached jobId with
  | some record => rfl
  | none =>
      dsimp only
      cases directory.read jobId <;> rfl

theorem patch_answer (tracker : JobStatusTracker) (directory : StatusDirectory) (jobId : String)
    (patch : JobStatusPatch) : (tracker.patch directory jobId patch).2.2 =
      (tracker.get directory jobId).2.map (·.patched patch) := by
  unfold JobStatusTracker.patch
  rcases tracker.get directory jobId with ⟨tracker', _ | current⟩ <;> rfl

/-- A call puts what the history says of it. -/
theorem Recalls.call (hrecalls : Recalls s h) (call : StatusCall) :
    Recalls (s.step call) (h.after call (s.puts call)) := by
  cases call with
  | put i record => exact hrecalls.put record
  | get i jobId => exact hrecalls.get i jobId
  | patch i jobId patch =>
      have hlooked := hrecalls.get i jobId
      unfold StatusState.step StatusState.puts StatusState.call JobStatusTracker.patch
      dsimp only
      rcases hget : (s.trackers i).get s.directory jobId with ⟨tracker', _ | current⟩
      · rw [hget] at hlooked
        exact hlooked
      · rw [hget] at hlooked
        have hput := hlooked.put (i := i) (current.patched patch)
        dsimp only at hput
        rw [Function.update_self, Function.update_idem] at hput
        exact hput

theorem Recalls.run (hrecalls : Recalls s h) (calls : List StatusCall) :
    Recalls (s.run calls) (s.historyOf h calls) := by
  induction calls generalizing s h with
  | nil => exact hrecalls
  | cons call calls ih => exact ih (hrecalls.call call)

/-- A call answers by the latest records if and only if the history says so. -/
theorem Recalls.coherent_iff (hrecalls : Recalls s h) (call : StatusCall) :
    s.Coherent h.records call ↔ h.UpToDate call := by
  cases call with
  | put i record => exact Iff.rfl
  | get i jobId =>
      change ((s.trackers i).get s.directory jobId).2 = _ ↔ _
      rw [get_answer, hrecalls.read, hrecalls.cached]
      unfold StatusHistory.UpToDate
      dsimp only
      cases hmark : h.marks i jobId with
      | none => exact readable_eq_lastPut_iff
      | some n =>
          obtain ⟨had, hhad⟩ := Option.isSome_iff_exists.mp (hrecalls.marked i jobId n hmark).2
          have hknows : some had = (lastPut h.records jobId).map id ↔ h.Knows jobId n Eq :=
            knows_iff (fun _ _ => Iff.rfl) (fun _ _ => congrArg _) hhad
          rw [Option.map_id] at hknows
          rw [Option.bind_some, hhad, Option.some_or]
          exact hknows
  | patch i jobId patch =>
      change ((s.trackers i).patch s.directory jobId patch).2.2 = _ ↔ _
      rw [patch_answer, get_answer, hrecalls.read, hrecalls.cached]
      unfold StatusHistory.UpToDate
      dsimp only
      cases hmark : h.marks i jobId with
      | some n =>
          obtain ⟨had, hhad⟩ := Option.isSome_iff_exists.mp (hrecalls.marked i jobId n hmark).2
          rw [Option.bind_some, hhad, Option.some_or]
          exact knows_iff (fun _ _ => patched_eq_iff) (fun _ _ hkeeps => hkeeps.jobId) hhad
      | none =>
          rw [Option.bind_none, Option.none_or, ← readable_eq_lastPut_iff]
          refine ⟨fun hsame => ?_, congrArg _⟩
          cases hread : (lastUnder h.records (filePath jobId)).filter JobStatusRecord.readable with
          | none =>
              rw [hread, Option.map_none, eq_comm, Option.map_eq_none_iff] at hsame
              exact hsame.symm
          | some record =>
              rw [hread, Option.map_some, eq_comm, Option.map_eq_some_iff] at hsame
              obtain ⟨latest, hlatest, hpatched⟩ := hsame
              have hid : record.jobId = jobId :=
                (patched_eq_iff.mp hpatched).jobId.symm.trans (lastPut_jobId hlatest)
              exact (lastPut_of_lastUnder (Option.filter_eq_some_iff.mp hread).1 hid).symm

end Calls

/-- After every run of calls of any number of trackers, a call answers by the records put so far if and only if what
was put for its job since its tracker put or found one, if anything, ends with a record that makes no difference to
the call or, where the tracker has put and found none, the file name tells. -/
theorem status_coherent_iff (s₀ : StatusState) (hfresh : s₀.Fresh) (calls : List StatusCall)
    (call : StatusCall) :
    (s₀.run calls).Coherent (s₀.historyOf {} calls).records call ↔ (s₀.historyOf {} calls).UpToDate call := by
  have hstart : Recalls s₀ {} := by
    refine ⟨fun name => ?_, fun i jobId => ?_, fun i jobId n hmark => ?_⟩
    · rw [hfresh.directory]
      rfl
    · unfold JobStatusTracker.cached
      rw [hfresh.memory]
      rfl
    · cases hmark
  exact (hstart.run calls).coherent_iff call

/-- A worker that has not looked at the job before patches the record that the API has put, and from then on
answers it without the file; nobody else has put one since. -/
theorem status_coherent_first_look :
    let queued : JobStatusRecord :=
      { jobId := "mail-1", type := "email.send", status := .queued, attempts := 0, createdAt := 0 }
    let started : JobStatusPatch := { status := some .processing, attempts := some 1 }
    (StatusState.run {} [.put 0 queued]).Coherent (StatusState.historyOf {} {} [.put 0 queued]).records
        (.patch 1 "mail-1" started) ∧
      (StatusState.run {} [.put 0 queued, .patch 1 "mail-1" started]).Coherent
        (StatusState.historyOf {} {} [.put 0 queued, .patch 1 "mail-1" started]).records (.get 1 "mail-1") := by
  intro queued started
  constructor
  · refine (status_coherent_iff {} ⟨rfl, fun _ => rfl⟩ [.put 0 queued] _).mpr ?_
    have hnone : (StatusState.historyOf {} {} [.put 0 queued]).marks 1 "mail-1" = none := by decide
    have hlast : lastUnder (StatusState.historyOf {} {} [.put 0 queued]).records (filePath "mail-1") =
        some queued := by decide
    unfold StatusHistory.UpToDate StatusHistory.Tells
    dsimp only
    rw [hnone]
    dsimp only
    rw [hlast]
    decide
  · refine (status_coherent_iff {} ⟨rfl, fun _ => rfl⟩ [.put 0 queued, .patch 1 "mail-1" started] _).mpr ?_
    have hmark : (StatusState.historyOf {} {} [.put 0 queued, .patch 1 "mail-1" started]).marks 1 "mail-1" =
        some 2 := by decide
    unfold StatusHistory.UpToDate
    dsimp only
    rw [hmark]
    have hnothing : lastPut ((StatusState.historyOf {} {} [.put 0 queued, .patch 1 "mail-1" started]).records.drop 2)
        "mail-1" = none := by decide
    refine ⟨queued.patched started, by decide, by decide, fun later hlater => ?_⟩
    rw [hnothing] at hlater
    cases hlater

/-- The API that enqueued a job answers `queued` for ever, and its next patch takes the worker's fields
back. -/
theorem stale_status :
    let queued : JobStatusRecord :=
      { jobId := "mail-1", type := "email.send", status := .queued, attempts := 0, createdAt := 0 }
    let calls : List StatusCall :=
      [.put 0 queued, .patch 1 "mail-1" { status := some .completed, attempts := some 1 }]
    let s : StatusState := StatusState.run {} calls
    let records := (StatusState.historyOf {} {} calls).records
    ¬s.Coherent records (.get 0 "mail-1") ∧
      ¬s.Coherent records (.patch 0 "mail-1" { progress := some (some 50) }) := by
  decide

end DealFlow360.Jobs
