import Geofastmap.Calendar.DateTime
import Geofastmap.Style.Numbers

/-!
# Geofastmap.Jobs.Store

The job store (`job_store.py`): a dictionary of records in memory, or hashes of texts in Redis.

* `Memory.step`, `Server.step` : what a call does to either store.
* `Encodes` : the hash says what the record says; `Encodes.read` and `update_encodes` keep it so.
-/

namespace Geofastmap
namespace Jobs

open Calendar Import
open Calendar.DateTime (Stamp fromisoformat)

structure JobInfo where
  jobId : Text
  collectionId : Text
  status : Text
  message : Option Text
  itemsIn : Int
  itemsCreated : Int
  itemsFailed : Int
  createdAt : Stamp
  updatedAt : Stamp
  finishedAt : Option Stamp
  lastProgressAt : Option Stamp
  ownerId : Option Int
  jobLabel : Option Text

/-- The keyword arguments of `update_job`. -/
structure JobUpdate where
  status : Option Text := none
  message : Option Text := none
  itemsIn : Option Int := none
  itemsCreated : Option Int := none
  itemsFailed : Option Int := none
  finishedAt : Option DateTime := none

def terminalStatuses : List Text :=
  ["completed", "failed", "cancelled", "error", "success", "done", "succeeded"].map String.toList

/-- `status.lower() in _TERMINAL_STATUSES_FOR_FINISHED`. -/
def terminal (status : Text) : Bool := terminalStatuses.contains (status.map Char.toLower)

/-- `datetime.utcnow()` has no offset. -/
def naive (t : DateTime) : Stamp := ⟨t, false⟩

def JobInfo.created (jobId collectionId : Text) (ownerId : Option Int) (jobLabel : Option Text)
    (now : DateTime) : JobInfo where
  jobId := jobId
  collectionId := collectionId
  status := "pending".toList
  message := none
  itemsIn := 0
  itemsCreated := 0
  itemsFailed := 0
  createdAt := naive now
  updatedAt := naive now
  finishedAt := none
  lastProgressAt := none
  ownerId := ownerId
  jobLabel := jobLabel

/-- `_release_bulk_mutex_on_terminal`: the collection and the job whose mutex is released. -/
def releaseBulkMutexOnTerminal (jobId collectionId : Text) (status : Option Text) :
    Option (Text × Text) :=
  match status with
  | none => none
  | some st => if collectionId ≠ [] ∧ terminal st then some (collectionId, jobId) else none

/-- What a call returns, and the mutex that it releases. -/
structure Reply where
  job : Option JobInfo
  released : Option (Text × Text) := none

inductive Op where
  | create (jobId collectionId : Text) (ownerId : Option Int) (jobLabel : Option Text)
      (now : DateTime)
  | get (jobId : Text)
  | update (jobId : Text) (u : JobUpdate) (now : DateTime)
  /-- A key of Redis expires, seven days after the job was created. -/
  | expire (jobId : Text)

def Op.jobId : Op → Text
  | .create i .. | .get i | .update i .. | .expire i => i

/-! ## In memory -/

def JobUpdate.finishes (u : JobUpdate) (now : DateTime) (finishedAt : Option Stamp) :
    Option Stamp :=
  match u.finishedAt, u.status with
  | some t, _ => some (naive t)
  | none, some st => if terminal st && finishedAt.isNone then some (naive now) else finishedAt
  | none, none => finishedAt

def JobUpdate.apply (u : JobUpdate) (now : DateTime) (job : JobInfo) : JobInfo :=
  { job with
    status := u.status.getD job.status
    message := u.message.or job.message
    itemsIn := u.itemsIn.getD job.itemsIn
    itemsCreated := u.itemsCreated.getD job.itemsCreated
    itemsFailed := u.itemsFailed.getD job.itemsFailed
    finishedAt := u.finishes now job.finishedAt
    updatedAt := naive now
    lastProgressAt :=
      if u.status.isSome || u.itemsCreated.isSome || u.message.isSome then some (naive now)
      else job.lastProgressAt }

/-- `_mem_jobs`, the first job that was created first. -/
abbrev Memory := List JobInfo

def Memory.get (m : Memory) (i : Text) : Option JobInfo := m.find? (·.jobId == i)

def Memory.step (m : Memory) : Op → Reply × Memory
  | .create i c owner label now =>
    let job := JobInfo.created i c owner label now
    (⟨some job, none⟩, m ++ [job])
  | .get i => (⟨m.get i, none⟩, m)
  | .update i u now =>
    match m.get i with
    | none => (⟨none, none⟩, m)
    | some job =>
      (⟨some (u.apply now job), releaseBulkMutexOnTerminal i job.collectionId u.status⟩,
        m.map fun job => if job.jobId == i then u.apply now job else job)
  | .expire _ => (⟨none, none⟩, m)

/-! ## In Redis -/

inductive Field where
  | jobId | collectionId | status | message | itemsIn | itemsCreated | itemsFailed | createdAt
  | updatedAt | finishedAt | lastProgressAt | ownerId | jobLabel
deriving DecidableEq

def Field.name : Field → Text
  | .jobId => "job_id".toList
  | .collectionId => "collection_id".toList
  | .status => "status".toList
  | .message => "message".toList
  | .itemsIn => "items_in".toList
  | .itemsCreated => "items_created".toList
  | .itemsFailed => "items_failed".toList
  | .createdAt => "created_at".toList
  | .updatedAt => "updated_at".toList
  | .finishedAt => "finished_at".toList
  | .lastProgressAt => "last_progress_at".toList
  | .ownerId => "owner_id".toList
  | .jobLabel => "job_label".toList

/-- A hash of Redis; `none` is a field that is not there. -/
abbrev Hash := Field → Option Text

/-- `HSET`. -/
def Hash.set (h mapping : Hash) : Hash := fun f => (mapping f).or (h f)

def valueError : Raised := ("ValueError".toList, [])

/-- `str(n)`. -/
def str (n : Int) : Except Raised Text :=
  match Style.strInt n with
  | some s => .ok s
  | none => .error valueError

def strOf : Option Int → Except Raised (Option Text)
  | none => .ok none
  | some n => (str n).map some

/-- `t.isoformat() + "Z"`. -/
def stampText (t : Stamp) : Text := t.isoformat ++ ['Z']

/-- A text that is there and not empty. -/
def filled : Option Text → Option Text
  | none | some [] => none
  | some (ch :: s) => some (ch :: s)

/-- The mapping of `_create_job_redis`. -/
def createdMapping (job : JobInfo) : Except Raised Hash := do
  let itemsIn ← str job.itemsIn
  let itemsCreated ← str job.itemsCreated
  let itemsFailed ← str job.itemsFailed
  let ownerId ← strOf job.ownerId
  return fun
    | .jobId => some job.jobId
    | .collectionId => some job.collectionId
    | .status => some job.status
    | .message => some (job.message.getD [])
    | .itemsIn => some itemsIn
    | .itemsCreated => some itemsCreated
    | .itemsFailed => some itemsFailed
    | .createdAt => some (stampText job.createdAt)
    | .updatedAt => some (stampText job.updatedAt)
    | .finishedAt => job.finishedAt.map stampText
    | .lastProgressAt => job.lastProgressAt.map stampText
    | .ownerId => ownerId
    | .jobLabel => filled job.jobLabel

def JobUpdate.isEmpty (u : JobUpdate) : Bool :=
  u.status.isNone && u.message.isNone && u.itemsIn.isNone && u.itemsCreated.isNone &&
    u.itemsFailed.isNone && u.finishedAt.isNone

/-- The `updates` of `_update_job_redis`. -/
def JobUpdate.mapping (u : JobUpdate) (now : DateTime) (h : Hash) : Except Raised Hash := do
  let itemsIn ← strOf u.itemsIn
  let itemsCreated ← strOf u.itemsCreated
  let itemsFailed ← strOf u.itemsFailed
  let nowText := if u.isEmpty then none else some (stampText (naive now))
  return fun
    | .status => u.status
    | .message => u.message
    | .itemsIn => itemsIn
    | .itemsCreated => itemsCreated
    | .itemsFailed => itemsFailed
    | .finishedAt =>
      match u.finishedAt, u.status with
      | some t, _ => some (stampText (naive t))
      | none, some st =>
        if terminal st && (filled (h .finishedAt)).isNone then some (stampText (naive now)) else none
      | none, none => none
    | .updatedAt | .lastProgressAt => nowText
    | _ => none

/-- `raw[name]`. -/
def Hash.item (h : Hash) (f : Field) : Except Raised Text :=
  match h f with
  | some s => .ok s
  | none => .error ("KeyError".toList, f.name)

/-- `s.replace("Z", "+00:00")`. -/
def replaceZ (s : Text) : Text := s.flatMap fun ch => if ch = 'Z' then "+00:00".toList else [ch]

def readStamp (s : Text) : Except Raised Stamp :=
  match fromisoformat (replaceZ s) with
  | some t => .ok t
  | none => .error valueError

def readStampOf (s : Option Text) : Except Raised (Option Stamp) :=
  match filled s with
  | some s => (readStamp s).map some
  | none => .ok none

/-- `int(raw.get(name, 0))`. -/
def Hash.count (h : Hash) (f : Field) : Except Raised Int :=
  match h f with
  | none => .ok 0
  | some s =>
    match Style.intOf s with
    | some n => .ok n
    | none => .error valueError

/-- The record that `_get_job_redis` makes of a hash. -/
def Hash.read (h : Hash) : Except Raised JobInfo := do
  let finishedAt ← readStampOf (h .finishedAt)
  let lastProgressAt ← readStampOf (h .lastProgressAt)
  let jobId ← h.item .jobId
  let collectionId ← h.item .collectionId
  let status ← h.item .status
  let itemsIn ← h.count .itemsIn
  let itemsCreated ← h.count .itemsCreated
  let itemsFailed ← h.count .itemsFailed
  let createdAt ← h.item .createdAt
  let createdAt ← readStamp createdAt
  let updatedAt ← h.item .updatedAt
  let updatedAt ← readStamp updatedAt
  return { jobId, collectionId, status, message := filled (h .message), itemsIn, itemsCreated,
           itemsFailed, createdAt, updatedAt, finishedAt, lastProgressAt,
           ownerId := (filled (h .ownerId)).bind Style.intOf, jobLabel := filled (h .jobLabel) }

structure Server where
  hashes : Text → Option Hash
  /-- The lists of job ids by collection, the newest first. -/
  lists : Text → List Text

def Server.empty : Server := ⟨fun _ => none, fun _ => []⟩

def Server.setHash (s : Server) (i : Text) (h : Option Hash) : Server :=
  { s with hashes := fun i' => if i' = i then h else s.hashes i' }

/-- `LPUSH` and `LTRIM 0 49`. -/
def Server.push (s : Server) (c i : Text) : Server :=
  { s with lists := fun c' => if c' = c then (i :: s.lists c).take 50 else s.lists c' }

def Server.get (s : Server) (i : Text) : Except Raised (Option JobInfo) :=
  match s.hashes i with
  | none => .ok none
  | some h => h.read.map some

def Server.step (s : Server) : Op → Except Raised Reply × Server
  | .create i c owner label now =>
    let job := JobInfo.created i c owner label now
    match createdMapping job with
    | .error e => (.error e, s)
    | .ok mapping => (.ok ⟨some job, none⟩, (s.setHash i (some mapping)).push c i)
  | .get i => ((s.get i).map fun job => ⟨job, none⟩, s)
  | .update i u now =>
    match s.hashes i with
    | none => (.ok ⟨none, none⟩, s)
    | some h =>
      match u.mapping now h with
      | .error e => (.error e, s)
      | .ok mapping =>
        let s := s.setHash i (some (h.set mapping))
        let released := releaseBulkMutexOnTerminal i ((h .collectionId).getD []) u.status
        ((s.get i).map fun job => ⟨job, released⟩, s)
  | .expire i => (.ok ⟨none, none⟩, s.setHash i none)

/-! ## Listings -/

/-- `jobs.sort(key=lambda j: j.updated_at, reverse=True)`. -/
def sortByUpdate (jobs : List JobInfo) : List JobInfo :=
  jobs.mergeSort fun a b => decide (b.updatedAt.time.key ≤ a.updatedAt.time.key)

def Memory.listForCollection (m : Memory) (c : Text) (limit : Nat) : List JobInfo :=
  (sortByUpdate (m.filter (·.collectionId == c))).take limit

def Server.listForCollection (s : Server) (c : Text) (limit : Nat) :
    Except Raised (List JobInfo) := do
  let jobs ← ((s.lists c).take limit).mapM s.get
  return (sortByUpdate (jobs.filterMap id)).take limit

/-- `list_jobs_for_collection` asks for twice as many when it keeps those of one owner. -/
def rawLimit (limit : Nat) (ownerId : Option Int) : Nat :=
  if ownerId.isSome then limit * 2 else limit

def ofOwner (ownerId : Option Int) (limit : Nat) (raw : List JobInfo) : List JobInfo :=
  match ownerId with
  | none => raw.take limit
  | some n => (raw.filter (·.ownerId == some n)).take limit

def Memory.listJobs (m : Memory) (c : Text) (limit : Nat) (ownerId : Option Int) : List JobInfo :=
  ofOwner ownerId limit (m.listForCollection c (rawLimit limit ownerId))

def Server.listJobs (s : Server) (c : Text) (limit : Nat) (ownerId : Option Int) :
    Except Raised (List JobInfo) :=
  (s.listForCollection c (rawLimit limit ownerId)).map (ofOwner ownerId limit)

/-! ## What the two stores agree on -/

/-- A record up to what the two stores keep differently: Redis has no empty texts, gives the times
an offset, and notes progress at other updates. -/
structure View where
  jobId : Text
  collectionId : Text
  status : Text
  message : Text
  itemsIn : Int
  itemsCreated : Int
  itemsFailed : Int
  createdAt : DateTime
  updatedAt : DateTime
  finishedAt : Option DateTime
  ownerId : Option Int
  jobLabel : Text

def JobInfo.view (job : JobInfo) : View where
  jobId := job.jobId
  collectionId := job.collectionId
  status := job.status
  message := job.message.getD []
  itemsIn := job.itemsIn
  itemsCreated := job.itemsCreated
  itemsFailed := job.itemsFailed
  createdAt := job.createdAt.time
  updatedAt := job.updatedAt.time
  finishedAt := job.finishedAt.map Stamp.time
  ownerId := job.ownerId
  jobLabel := job.jobLabel.getD []

/-- The hash says what the record says. -/
structure Encodes (h : Hash) (job : JobInfo) : Prop where
  jobId : h .jobId = some job.jobId
  collectionId : h .collectionId = some job.collectionId
  status : h .status = some job.status
  message : h .message = some (job.message.getD [])
  itemsIn : h .itemsIn = some (Sql.intText job.itemsIn) ∧ Style.Printable job.itemsIn
  itemsCreated : h .itemsCreated = some (Sql.intText job.itemsCreated) ∧
    Style.Printable job.itemsCreated
  itemsFailed : h .itemsFailed = some (Sql.intText job.itemsFailed) ∧
    Style.Printable job.itemsFailed
  createdAt : h .createdAt = some (stampText (naive job.createdAt.time))
  updatedAt : h .updatedAt = some (stampText (naive job.updatedAt.time))
  finishedAt : h .finishedAt = job.finishedAt.map fun t => stampText (naive t.time)
  lastProgressAt : ∃ t : Option DateTime, h .lastProgressAt = t.map fun t => stampText (naive t)
  ownerId : h .ownerId = job.ownerId.map Sql.intText ∧ ∀ n ∈ job.ownerId, Style.Printable n
  jobLabel : h .jobLabel = filled job.jobLabel

theorem digit_ne_Z {n : Nat} (h : n < 10) : Date.digit n ≠ 'Z' := by
  revert n
  decide

theorem not_Z_of_mem_digits2 {n : Nat} (h : n < 100) {ch : Char} (hch : ch ∈ DateTime.digits2 n) :
    ch ≠ 'Z' := by
  simp only [DateTime.digits2, List.mem_cons, List.not_mem_nil, or_false] at hch
  rcases hch with rfl | rfl
  · exact digit_ne_Z (by omega)
  · exact digit_ne_Z (by omega)

theorem not_Z_of_mem_date {d : Date} {ch : Char} (hch : ch ∈ d.isoformat) : ch ≠ 'Z' := by
  have hyear := d.valid.year_le
  have hmonth := d.valid.month_le
  have hday := d.day_le
  simp only [Date.isoformat, List.mem_cons, List.not_mem_nil, or_false] at hch
  rcases hch with rfl | rfl | rfl | rfl | rfl | rfl | rfl | rfl | rfl | rfl <;>
    first
      | exact digit_ne_Z (by omega)
      | decide

theorem not_Z_of_mem_digits6 {n : Nat} (h : n < 1000000) {ch : Char}
    (hch : ch ∈ DateTime.digits6 n) : ch ≠ 'Z' := by
  simp only [DateTime.digits6, List.mem_cons, List.not_mem_nil, or_false] at hch
  rcases hch with rfl | rfl | rfl | rfl | rfl | rfl <;> exact digit_ne_Z (by omega)

theorem not_Z_of_mem_isoformat {t : DateTime} {ch : Char} (hch : ch ∈ t.isoformat) : ch ≠ 'Z' := by
  have hhour := t.hour_lt
  have hminute := t.minute_lt
  have hsecond := t.second_lt
  simp only [DateTime.isoformat, List.mem_append, List.mem_cons] at hch
  rcases hch with (((hch | rfl | hch) | rfl | hch) | rfl | hch) | hch
  · exact not_Z_of_mem_date hch
  · decide
  · exact not_Z_of_mem_digits2 (by omega) hch
  · decide
  · exact not_Z_of_mem_digits2 (by omega) hch
  · decide
  · exact not_Z_of_mem_digits2 (by omega) hch
  · split at hch
    · cases hch
    · rcases List.mem_cons.mp hch with rfl | hch
      · decide
      · exact not_Z_of_mem_digits6 t.microsecond_lt hch

theorem replaceZ_of_not_mem {s : Text} (h : ∀ ch ∈ s, ch ≠ 'Z') : replaceZ s = s := by
  unfold replaceZ
  induction s with
  | nil => rfl
  | cons ch s ih =>
    rw [List.flatMap_cons, if_neg (h ch List.mem_cons_self),
      ih fun x hx => h x (List.mem_cons_of_mem ch hx)]
    rfl

theorem replaceZ_stampText (t : DateTime) :
    replaceZ (stampText (naive t)) = Stamp.isoformat ⟨t, true⟩ := by
  have hiso : replaceZ t.isoformat = t.isoformat :=
    replaceZ_of_not_mem fun ch hch => not_Z_of_mem_isoformat hch
  have hZ : replaceZ ['Z'] = "+00:00".toList := rfl
  rw [stampText, Stamp.isoformat, naive, if_neg (by simp), List.append_nil, replaceZ,
    List.flatMap_append]
  exact congrArg₂ (· ++ ·) hiso hZ

/-- A time is read back, with the offset of UTC. -/
theorem readStamp_stampText (t : DateTime) :
    readStamp (stampText (naive t)) = .ok ⟨t, true⟩ := by
  rw [readStamp, replaceZ_stampText, DateTime.fromisoformat_isoformat]

theorem stampText_ne_nil (t : Stamp) : stampText t ≠ [] := by simp [stampText]

theorem filled_some {s : Text} (h : s ≠ []) : filled (some s) = some s := by
  cases s with
  | nil => exact absurd rfl h
  | cons ch s => rfl

@[simp] theorem getD_filled (s : Option Text) : (filled s).getD [] = s.getD [] := by
  match s with
  | none | some [] | some (_ :: _) => rfl

theorem filled_stampText (t : Stamp) : filled (some (stampText t)) = some (stampText t) :=
  filled_some (stampText_ne_nil t)

theorem readStampOf_map (t : Option DateTime) :
    readStampOf (t.map fun t => stampText (naive t)) = .ok (t.map fun t => ⟨t, true⟩) := by
  cases t with
  | none => rfl
  | some t =>
    rw [Option.map_some, readStampOf, filled_stampText]
    simp [readStamp_stampText, Except.map]

theorem count_intText {h : Hash} {f : Field} {n : Int}
    (hf : h f = some (Sql.intText n) ∧ Style.Printable n) : h.count f = .ok n := by
  rw [Hash.count, hf.1]
  simp [Style.intOf_intText hf.2]

theorem item_some {h : Hash} {f : Field} {s : Text} (hf : h f = some s) : h.item f = .ok s := by
  rw [Hash.item, hf]

/-- What is read from the hash of a record. -/
theorem Encodes.read {h : Hash} {job : JobInfo} (he : Encodes h job) :
    ∃ job', h.read = .ok job' ∧ job'.view = job.view := by
  obtain ⟨lastProgressAt, hlast⟩ := he.lastProgressAt
  have hfinished : readStampOf (h .finishedAt) =
      .ok ((job.finishedAt.map Stamp.time).map fun t => ⟨t, true⟩) := by
    rw [he.finishedAt, ← readStampOf_map, Option.map_map]
    rfl
  have hprogress : readStampOf (h .lastProgressAt) = .ok (lastProgressAt.map fun t => ⟨t, true⟩) := by
    rw [hlast, readStampOf_map]
  have howner : (filled (h .ownerId)).bind Style.intOf = job.ownerId := by
    rw [he.ownerId.1]
    cases hown : job.ownerId with
    | none => rfl
    | some n =>
      rw [Option.map_some, filled_some (Style.intText_ne_nil n), Option.bind_some,
        Style.intOf_intText (he.ownerId.2 n hown)]
  unfold Hash.read
  simp only [hfinished, hprogress, item_some he.jobId, item_some he.collectionId,
    item_some he.status, count_intText he.itemsIn, count_intText he.itemsCreated,
    count_intText he.itemsFailed, item_some he.createdAt, item_some he.updatedAt,
    readStamp_stampText, howner, bind, Except.bind, pure, Except.pure]
  refine ⟨_, rfl, ?_⟩
  simp only [JobInfo.view, he.message, he.jobLabel, getD_filled, Option.getD_some, View.mk.injEq,
    true_and, and_true]
  cases job.finishedAt <;> rfl

/-! ## Creating and updating -/

theorem str_ok {n : Int} (h : Style.Printable n) : str n = .ok (Sql.intText n) := by
  rw [str, Style.strInt_eq_some.mpr ⟨h, rfl⟩]

theorem strOf_ok {n : Option Int} (h : ∀ k ∈ n, Style.Printable k) :
    strOf n = .ok (n.map Sql.intText) := by
  cases n with
  | none => rfl
  | some k => simp [strOf, str_ok (h k rfl), Except.map]

theorem printable_zero : Style.Printable 0 := by decide

theorem created_encodes (i c : Text) {owner : Option Int} (label : Option Text) (now : DateTime)
    (howner : ∀ n ∈ owner, Style.Printable n) :
    ∃ h, createdMapping (JobInfo.created i c owner label now) = .ok h ∧
      Encodes h (JobInfo.created i c owner label now) := by
  unfold createdMapping
  simp only [JobInfo.created, str_ok printable_zero, strOf_ok howner, bind, Except.bind, pure,
    Except.pure]
  exact ⟨_, rfl, rfl, rfl, rfl, rfl, ⟨rfl, printable_zero⟩, ⟨rfl, printable_zero⟩,
    ⟨rfl, printable_zero⟩, rfl, rfl, rfl, ⟨none, rfl⟩, ⟨rfl, howner⟩, rfl⟩

/-- Every number that is given can be written. -/
structure JobUpdate.Valid (u : JobUpdate) : Prop where
  given : u.isEmpty = false
  itemsIn : ∀ n ∈ u.itemsIn, Style.Printable n
  itemsCreated : ∀ n ∈ u.itemsCreated, Style.Printable n
  itemsFailed : ∀ n ∈ u.itemsFailed, Style.Printable n

theorem update_count {old : Text} {n : Int} {new : Option Int}
    (hold : some old = some (Sql.intText n) ∧ Style.Printable n)
    (hnew : ∀ k ∈ new, Style.Printable k) :
    (new.map Sql.intText).or (some old) = some (Sql.intText (new.getD n)) ∧
      Style.Printable (new.getD n) := by
  cases new with
  | none => exact hold
  | some k => exact ⟨rfl, hnew k rfl⟩

/-- An update of the hash is the update of the record. -/
theorem update_encodes {h : Hash} {job : JobInfo} (he : Encodes h job) {u : JobUpdate}
    (hu : u.Valid) (now : DateTime) :
    ∃ mapping, u.mapping now h = .ok mapping ∧ Encodes (h.set mapping) (u.apply now job) := by
  unfold JobUpdate.mapping
  simp only [strOf_ok hu.itemsIn, strOf_ok hu.itemsCreated, strOf_ok hu.itemsFailed, hu.given,
    Bool.false_eq_true, if_false, bind, Except.bind, pure, Except.pure]
  refine ⟨_, rfl, ?_⟩
  have hcount : ∀ {f : Field} {n : Int} {new : Option Int},
      h f = some (Sql.intText n) ∧ Style.Printable n → (∀ k ∈ new, Style.Printable k) →
        (new.map Sql.intText).or (h f) = some (Sql.intText (new.getD n)) ∧
          Style.Printable (new.getD n) := by
    intro f n new hold hnew
    rw [hold.1]
    exact update_count ⟨rfl, hold.2⟩ hnew
  constructor
  case jobId => exact he.jobId
  case collectionId => exact he.collectionId
  case status =>
    change u.status.or (h .status) = some (u.status.getD job.status)
    rw [he.status]
    cases u.status <;> rfl
  case message =>
    change u.message.or (h .message) = some ((u.message.or job.message).getD [])
    rw [he.message]
    cases u.message <;> rfl
  case itemsIn => exact hcount he.itemsIn hu.itemsIn
  case itemsCreated => exact hcount he.itemsCreated hu.itemsCreated
  case itemsFailed => exact hcount he.itemsFailed hu.itemsFailed
  case createdAt => exact he.createdAt
  case updatedAt => rfl
  case finishedAt =>
    have hnone : (filled (h .finishedAt)).isNone = job.finishedAt.isNone := by
      rw [he.finishedAt]
      cases job.finishedAt with
      | none => rfl
      | some t => rw [Option.map_some, filled_stampText]; rfl
    simp only [Hash.set, hnone, JobUpdate.apply, JobUpdate.finishes]
    cases hgiven : u.finishedAt with
    | some t => rfl
    | none =>
      cases hstatus : u.status with
      | none => simpa using he.finishedAt
      | some st =>
        dsimp only
        split
        · rfl
        · simpa using he.finishedAt
  case lastProgressAt => exact ⟨some now, rfl⟩
  case ownerId => exact he.ownerId
  case jobLabel => exact he.jobLabel

end Jobs
end Geofastmap
