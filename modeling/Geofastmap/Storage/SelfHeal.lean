import Geofastmap.Bulk.State

/-!
# Geofastmap.Storage.SelfHeal

`run_storage_self_heal`: files that no job and no upload session refers to are deleted once they
are old enough. What is referred to is read from Redis: the queue (`LRANGE`), the registered jobs
(`SCAN`, and a `GET` for each), and the upload sessions (`SCAN`).

A `SCAN` that raises ends its pass. An `LRANGE` or a `GET` that raises is swallowed, and the keys it
would have returned are missing from the set that protects the files.

* `self_heal_safe_iff` : nothing that is needed is deleted exactly when no file that is due has all
  its references behind swallowed errors.
-/

namespace Geofastmap
namespace Storage

open Bulk

/-! ## What a pass reads -/

/-- Redis during the pass. An entry of the queue that `from_json` refuses is `none`. -/
structure Store where
  queue : List (Option BulkJobPayload)
  registered : JobId → Option Text
  sessions : List Text
  /-- The collections with a pending tile build. -/
  tilePending : List Text

/-- The replies to the `SCAN`s, call by call. A key that is there all the time is in one of them. -/
structure Replies (store : Store) where
  registered : List (List JobId)
  sessions : List (List Text)
  tilePending : List (List Text)
  registered_complete : ∀ j, (store.registered j).isSome → j ∈ registered.flatten
  sessions_complete : ∀ u ∈ store.sessions, u ∈ sessions.flatten

/-- The accesses to Redis. -/
inductive Read where
  | connect
  | lrange
  | scanRegistered (i : Nat)
  | get (j : JobId)
  | scanSessions (i : Nat)
  | scanTilePending (i : Nat)
deriving DecidableEq

/-- The accesses that raise, with the text of the exception. -/
abbrev Faults := Read → Option Text

/-- An entry of a directory. The age is `none` when `getmtime` raises; `unlinkError` is what
`unlink` raises, and `stays` that `rmtree` cannot remove the directory. -/
structure Entry where
  name : Text
  isFile : Bool
  isDir : Bool
  age : Option Nat
  unlinkError : Option Text
  stays : Bool
  nonempty : name ≠ []

/-- A directory: missing, or with what `listdir` returns or raises. -/
abbrev Listing := Option (Except Text (List Entry))

structure Volume where
  bulk : Listing
  uploads : Listing
  tiles : Listing

/-- Ages and graces count microseconds. -/
structure HealSettings where
  storageSelfHealEnabled : Bool
  bulkQueueRedis : Bool
  bulkStorageFilesystem : Bool
  storageSelfHealBulkGrace : Nat
  storageSelfHealTileTmpGrace : Nat

/-- `float(setting or 86400.0)`. -/
def graceOr (setting : Nat) : Nat := if setting = 0 then 86400000000 else setting

/-! ## Sweeping a directory -/

structure Swept where
  deleted : List Text
  errors : List Text
  /-- The entries that are gone, or of which something may be. -/
  lost : List Text

def Swept.none : Swept := ⟨[], [], []⟩

def Swept.failed (error : Text) : Swept := ⟨[], [error], []⟩

def Swept.append (a b : Swept) : Swept :=
  ⟨a.deleted ++ b.deleted, a.errors ++ b.errors, a.lost ++ b.lost⟩

/-- What removing an entry comes to. -/
structure Removal where
  error : Option Text
  lost : Bool

/-- `os.unlink`. -/
def unlink (label : String) (e : Entry) : Removal :=
  ⟨e.unlinkError.map fun msg => label.toList ++ ':' :: e.name ++ ':' :: msg, e.unlinkError.isNone⟩

/-- `shutil.rmtree(path, ignore_errors=True)`: files may be gone even when the directory stays. -/
def rmtree (e : Entry) : Removal :=
  ⟨if e.stays then some ("delete_uploads:".toList ++ e.name ++ ":still_exists".toList) else none,
    true⟩

def Entry.old (grace : Nat) (e : Entry) : Bool := e.age.any fun age => grace ≤ age

section
variable (due : Entry → Bool) (remove : Entry → Removal) (grace : Nat) (dryRun : Bool)

def sweepEntry (e : Entry) : Swept :=
  if !due e || !e.old grace then .none
  else if dryRun then ⟨[e.name], [], []⟩
  else
    ⟨if (remove e).error.isNone then [e.name] else [], (remove e).error.toList,
      if (remove e).lost then [e.name] else []⟩

def sweep : List Entry → Swept
  | [] => .none
  | e :: es => (sweepEntry due remove grace dryRun e).append (sweep es)

end

/-! ## The passes -/

section
variable (cfg : HealSettings) (store : Store) (replies : Replies store) (faults : Faults)
  (vol : Volume) (dryRun : Bool)

/-- `_scan_keys`, from the `i`-th call on. -/
def scanKeys {α : Type} (read : Nat → Read) : Nat → List (List α) → Except Text (List α)
  | _, [] => .ok []
  | i, batch :: rest =>
    match faults (read i) with
    | some e => .error e
    | none => (scanKeys read (i + 1) rest).map (batch ++ ·)

/-- The storage keys of the queued jobs, as far as they can be read. -/
def queuedKeys : List Text :=
  if (faults .lrange).isSome then []
  else store.queue.filterMap fun p => p.map BulkJobPayload.storageKey

/-- `r.get(meta_key)`: an error is swallowed, and an empty value left out. -/
def registeredKey (j : JobId) : Option Text :=
  if (faults (.get j)).isSome then none
  else (store.registered j).filter fun key => !key.isEmpty

def protectedBulkStorageKeys : Except Text (List Text) :=
  (scanKeys faults .scanRegistered 0 replies.registered).map fun metas =>
    queuedKeys store faults ++ metas.filterMap (registeredKey store faults)

def activeUploadSessionIds : Except Text (List Text) :=
  scanKeys faults .scanSessions 0 replies.sessions

def collectionsWithPendingTileBuild : Except Text (List Text) :=
  scanKeys faults .scanTilePending 0 replies.tilePending

/-- The names that `cleanup_orphan_bulk_files` passes over. -/
def skippedName (name : Text) : Bool :=
  Sql.startsWith ['.'] name || name == "_uploads".toList || Sql.contains "..".toList name ||
    name.contains '/'

def skippedUpload (name : Text) : Bool :=
  Sql.contains "..".toList name || name.contains '/' || Sql.startsWith ['.'] name

/-- The set of keys is read first, then the directory. -/
def pass (label dir : String) (keys : Except Text (List Text)) (listing : Listing)
    (clean : List Text → List Entry → Swept) : Swept :=
  match listing with
  | none => .none
  | some listing =>
    match keys with
    | .error e => .failed (label.toList ++ ':' :: e)
    | .ok keys =>
      match listing with
      | .error e => .failed (dir.toList ++ ':' :: e)
      | .ok entries => clean keys entries

def cleanupOrphanBulkFiles : Swept :=
  if !cfg.bulkQueueRedis || !cfg.bulkStorageFilesystem then .none
  else pass "redis_bulk_keys" "listdir_bulk" (protectedBulkStorageKeys store replies faults)
    vol.bulk fun keys => sweep
      (fun e => !skippedName e.name && e.isFile && !keys.contains e.name)
      (unlink "delete_bulk") (graceOr cfg.storageSelfHealBulkGrace) dryRun

def cleanupOrphanUploadParts : Swept :=
  if !cfg.bulkQueueRedis || !cfg.bulkStorageFilesystem then .none
  else pass "redis_upload_sessions" "listdir_uploads" (activeUploadSessionIds store replies faults)
    vol.uploads fun live => sweep
      (fun e => !skippedUpload e.name && !live.contains e.name && e.isDir)
      rmtree (graceOr cfg.storageSelfHealBulkGrace) dryRun

/-- A text without a suffix, whatever its case. -/
def dropSuffix (suffix : String) (s : Text) : Option Text :=
  if (Sql.lower (s.drop (s.length - suffix.length))) = suffix.toList ∧ suffix.length ≤ s.length then
    some (s.take (s.length - suffix.length))
  else none

/-- `_TILE_TMP_RE`, with its group `cid`: `$` also matches before a newline at the end. -/
def tileTmpCollection (name : Text) : Option Text := do
  let name := if name.getLast? = some '\n' then name.dropLast else name
  let body ← dropSuffix ".tmp" ((dropSuffix "-journal" name).getD name)
  let hex := body.drop (body.length - 32)
  if 32 ≤ body.length ∧ hex.all fun ch => ch.isDigit || ('a' ≤ ch.toLower && ch.toLower ≤ 'f') then
    let cid ← dropSuffix ".mbtiles." (body.take (body.length - 32))
    if cid.isEmpty || cid.contains '\n' then none else some cid
  else none

def cleanupStaleTileTmpFiles : Swept :=
  if !cfg.bulkQueueRedis then .none
  else pass "redis_tile_pending" "listdir_tiles"
    (collectionsWithPendingTileBuild store replies faults) vol.tiles fun pending => sweep
      (fun e => ((tileTmpCollection e.name).any fun cid => !pending.contains cid) && e.isFile)
      (unlink "delete_tile_tmp") (graceOr cfg.storageSelfHealTileTmpGrace) dryRun

structure SelfHealStats where
  bulk : Swept
  uploads : Swept
  tiles : Swept
  errors : List Text

/-- `run_storage_self_heal`. -/
def runStorageSelfHeal (bulk tiles : Bool) : SelfHealStats :=
  if !cfg.storageSelfHealEnabled then ⟨.none, .none, .none, []⟩
  else
    match if cfg.bulkQueueRedis then faults .connect else none with
    | some e => ⟨.none, .none, .none, ["redis_connect:".toList ++ e]⟩
    | none =>
      ⟨if bulk then cleanupOrphanBulkFiles cfg store replies faults vol dryRun else .none,
        if bulk then cleanupOrphanUploadParts cfg store replies faults vol dryRun else .none,
        if tiles then cleanupStaleTileTmpFiles cfg store replies faults vol dryRun else .none, []⟩

/-! ## What is needed -/

/-- The key of a queued job, or of one that is registered, as a running job is until it ends. -/
def Store.Needs (key : Text) : Prop :=
  (∃ p, some p ∈ store.queue ∧ p.storageKey = key) ∨ ∃ j, store.registered j = some key

/-- No file that a job needs is lost, and nothing of an open upload session. -/
def KeepsNeeded (out : SelfHealStats) : Prop :=
  (∀ name ∈ out.bulk.lost, ¬store.Needs name) ∧ ∀ u ∈ out.uploads.lost, u ∉ store.sessions

/-- The pass over the uploaded files reaches its directory. -/
def reaches (bulk : Bool) : Bool :=
  cfg.storageSelfHealEnabled && bulk && cfg.bulkQueueRedis && cfg.bulkStorageFilesystem &&
    !dryRun && (faults .connect).isNone &&
    (List.range replies.registered.length).all fun i => (faults (.scanRegistered i)).isNone

/-- A file that the pass deletes unless its key is in the set it has read. -/
def Entry.Due (e : Entry) : Prop :=
  skippedName e.name = false ∧ e.isFile = true ∧
    e.old (graceOr cfg.storageSelfHealBulkGrace) = true ∧ e.unlinkError = none

/-- A reference to the key is read: the queue is, or the registration of one of its jobs. -/
def ReferenceRead (key : Text) : Prop :=
  faults .lrange = none ∧ (∃ p, some p ∈ store.queue ∧ p.storageKey = key) ∨
    ∃ j, store.registered j = some key ∧ faults (.get j) = none

end

/-! ## What is lost -/

section
variable {due : Entry → Bool} {remove : Entry → Removal} {grace : Nat} {dryRun : Bool}

theorem mem_lost_sweepEntry {e : Entry} {name : Text} :
    name ∈ (sweepEntry due remove grace dryRun e).lost ↔
      due e = true ∧ e.old grace = true ∧ dryRun = false ∧ (remove e).lost = true ∧
        e.name = name := by
  unfold sweepEntry
  split
  · rename_i h
    simp only [Swept.none, List.not_mem_nil, false_iff]
    rintro ⟨hdue, hold, _⟩
    simp [hdue, hold] at h
  · rename_i h
    have hdue : due e = true ∧ e.old grace = true := by simpa using h
    split
    · rename_i hdry
      simp [hdry]
    · rename_i hdry
      have hdry : dryRun = false := by simpa using hdry
      cases hlost : (remove e).lost <;> simp [hdue, hdry, eq_comm]

theorem mem_lost_sweep {es : List Entry} {name : Text} :
    name ∈ (sweep due remove grace dryRun es).lost ↔
      ∃ e ∈ es, due e = true ∧ e.old grace = true ∧ dryRun = false ∧ (remove e).lost = true ∧
        e.name = name := by
  induction es with
  | nil => simp [sweep, Swept.none]
  | cons e es ih => simp [sweep, Swept.append, ih, mem_lost_sweepEntry]

end

section
variable {cfg : HealSettings} {store : Store} {replies : Replies store} {faults : Faults}
  {vol : Volume} {dryRun bulk tiles : Bool}

theorem scanKeys_ok {α : Type} {read : Nat → Read} {i : Nat} {batches : List (List α)}
    (h : ∀ k < batches.length, faults (read (i + k)) = none) :
    scanKeys faults read i batches = .ok batches.flatten := by
  induction batches generalizing i with
  | nil => rfl
  | cons batch rest ih =>
    have h0 : faults (read i) = none := h 0 (by simp)
    have hrest : scanKeys faults read (i + 1) rest = .ok rest.flatten := by
      refine ih fun k hk => ?_
      have := h (k + 1) (by simpa using hk)
      rwa [Nat.add_right_comm, Nat.add_assoc]
    simp only [scanKeys, h0, hrest, Except.map, List.flatten_cons]

theorem scanKeys_error {α : Type} {read : Nat → Read} {i : Nat} {batches : List (List α)}
    {k : Nat} (hk : k < batches.length) (hf : faults (read (i + k)) ≠ none) :
    ∃ e, scanKeys faults read i batches = .error e := by
  induction batches generalizing i k with
  | nil => cases hk
  | cons batch rest ih =>
    cases h0 : faults (read i) with
    | some e => exact ⟨e, by simp only [scanKeys, h0]⟩
    | none =>
      cases k with
      | zero => exact absurd h0 hf
      | succ k =>
        have hk' : k < rest.length := by simpa using hk
        have hf' : faults (read (i + 1 + k)) ≠ none := by
          rwa [Nat.add_right_comm, Nat.add_assoc]
        obtain ⟨e, he⟩ := ih hk' hf'
        exact ⟨e, by simp only [scanKeys, h0, he, Except.map]⟩

/-- A `SCAN` that comes to its end has returned every key. -/
theorem scanKeys_complete {α : Type} {read : Nat → Read} {batches : List (List α)} {keys : List α}
    (h : scanKeys faults read 0 batches = .ok keys) :
    (∀ k < batches.length, faults (read k) = none) ∧ keys = batches.flatten := by
  have hall : ∀ k < batches.length, faults (read (0 + k)) = none := by
    intro k hk
    by_contra hf
    obtain ⟨e, he⟩ := scanKeys_error hk hf
    rw [he] at h
    cases h
  rw [scanKeys_ok hall] at h
  exact ⟨fun k hk => by simpa using hall k hk, (Except.ok.inj h).symm⟩

theorem mem_protected {keys : List Text} {key : Text} (hne : key ≠ [])
    (h : protectedBulkStorageKeys store replies faults = .ok keys) :
    key ∈ keys ↔ ReferenceRead store faults key := by
  unfold protectedBulkStorageKeys at h
  cases hs : scanKeys faults .scanRegistered 0 replies.registered with
  | error e => rw [hs] at h; cases h
  | ok metas =>
    rw [hs] at h
    have hkeys : queuedKeys store faults ++ metas.filterMap (registeredKey store faults) = keys :=
      Except.ok.inj h
    have hmetas := (scanKeys_complete hs).2
    have hqueued : key ∈ queuedKeys store faults ↔
        faults .lrange = none ∧ ∃ p, some p ∈ store.queue ∧ p.storageKey = key := by
      unfold queuedKeys
      cases faults .lrange with
      | some e => simp
      | none => simp [List.mem_filterMap]
    have hget : ∀ j, registeredKey store faults j = some key ↔
        store.registered j = some key ∧ faults (.get j) = none := by
      intro j
      unfold registeredKey
      cases faults (.get j) with
      | some e => simp
      | none =>
        simp only [Option.isSome_none, Bool.false_eq_true, if_false, Option.filter_eq_some_iff,
          and_true]
        exact ⟨fun h => h.1, fun h => ⟨h, by simpa using hne⟩⟩
    rw [← hkeys, List.mem_append, List.mem_filterMap, hqueued]
    refine or_congr Iff.rfl ⟨fun ⟨j, _, hj⟩ => ⟨j, (hget j).mp hj⟩, fun ⟨j, hj⟩ => ⟨j, ?_, (hget j).mpr hj⟩⟩
    rw [hmetas]
    exact replies.registered_complete j (by simp [hj.1])

/-- A directory is swept when the keys and the directory can be read. -/
theorem mem_lost_pass {label dir : String} {keys : Except Text (List Text)} {listing : Listing}
    {clean : List Text → List Entry → Swept} {name : Text} :
    name ∈ (pass label dir keys listing clean).lost ↔
      ∃ ks es, keys = .ok ks ∧ listing = some (.ok es) ∧ name ∈ (clean ks es).lost := by
  unfold pass
  cases listing with
  | none => simp [Swept.none]
  | some listing =>
    cases keys with
    | error e => simp [Swept.failed]
    | ok ks =>
      cases listing with
      | error e => simp [Swept.failed]
      | ok es => simp

theorem protected_ok : (∃ keys, protectedBulkStorageKeys store replies faults = .ok keys) ↔
    ∀ i < replies.registered.length, faults (.scanRegistered i) = none := by
  constructor
  · rintro ⟨keys, h⟩
    unfold protectedBulkStorageKeys at h
    cases hs : scanKeys faults .scanRegistered 0 replies.registered with
    | error e => rw [hs] at h; cases h
    | ok metas => exact (scanKeys_complete hs).1
  · intro h
    have hs : scanKeys faults .scanRegistered 0 replies.registered = .ok _ :=
      scanKeys_ok fun k hk => by rw [Nat.zero_add]; exact h k hk
    exact ⟨_, by rw [protectedBulkStorageKeys, hs]; rfl⟩

/-- The files that are lost are those that are due, with no reference read. -/
theorem mem_lost_bulkFiles {name : Text} :
    name ∈ (cleanupOrphanBulkFiles cfg store replies faults vol dryRun).lost ↔
      cfg.bulkQueueRedis = true ∧ cfg.bulkStorageFilesystem = true ∧ dryRun = false ∧
      (∀ i < replies.registered.length, faults (.scanRegistered i) = none) ∧
      ∃ es, vol.bulk = some (.ok es) ∧ ∃ e ∈ es, e.Due cfg ∧
        ¬ReferenceRead store faults e.name ∧ e.name = name := by
  unfold cleanupOrphanBulkFiles
  split
  · rename_i hoff
    simp only [Swept.none, List.not_mem_nil, false_iff]
    rintro ⟨hr, hf, _⟩
    simp [hr, hf] at hoff
  · rename_i hon
    have hon : cfg.bulkQueueRedis = true ∧ cfg.bulkStorageFilesystem = true := by simpa using hon
    simp only [mem_lost_pass, mem_lost_sweep, hon, true_and, ← protected_ok]
    constructor
    · rintro ⟨keys, es, hkeys, hes, e, he, hdue, hold, hdry, hlost, hname⟩
      simp only [Bool.and_eq_true, Bool.not_eq_true', List.contains_eq_mem,
        decide_eq_false_iff_not] at hdue
      refine ⟨hdry, ⟨keys, hkeys⟩, es, hes, e, he, ⟨hdue.1.1, hdue.1.2, hold, ?_⟩, ?_, hname⟩
      · simpa [unlink] using hlost
      · exact fun hread => hdue.2 ((mem_protected e.nonempty hkeys).mpr hread)
    · rintro ⟨hdry, ⟨keys, hkeys⟩, es, hes, e, he, hdue, hread, hname⟩
      obtain ⟨hskip, hfile, hold, hunlink⟩ := hdue
      have hout : e.name ∉ keys := fun hm => hread ((mem_protected e.nonempty hkeys).mp hm)
      refine ⟨keys, es, hkeys, hes, e, he, ?_, hold, hdry, ?_, hname⟩
      · simp [hskip, hfile, hout]
      · simp [unlink, hunlink]

/-- An open session is in the set that is read, or nothing is deleted. -/
theorem session_not_lost {u : Text}
    (h : u ∈ (cleanupOrphanUploadParts cfg store replies faults vol dryRun).lost) :
    u ∉ store.sessions := by
  intro hu
  unfold cleanupOrphanUploadParts at h
  split at h
  · cases h
  · obtain ⟨live, es, hlive, _, hm⟩ := mem_lost_pass.mp h
    obtain ⟨e, _, hdue, _, _, _, rfl⟩ := mem_lost_sweep.mp hm
    have hin : e.name ∈ live := by
      rw [(scanKeys_complete hlive).2]
      exact replies.sessions_complete _ hu
    simp [hin] at hdue

theorem reaches_iff {bulk : Bool} : reaches cfg store replies faults dryRun bulk = true ↔
      cfg.storageSelfHealEnabled = true ∧ bulk = true ∧ faults .connect = none ∧
      cfg.bulkQueueRedis = true ∧ cfg.bulkStorageFilesystem = true ∧ dryRun = false ∧
      ∀ i < replies.registered.length, faults (.scanRegistered i) = none := by
  simp only [reaches, Bool.and_eq_true, Bool.not_eq_true', List.all_eq_true, List.mem_range,
    Option.isNone_iff_eq_none]
  tauto

theorem upload_not_lost {bulk tiles : Bool} {u : Text}
    (hu : u ∈ (runStorageSelfHeal cfg store replies faults vol dryRun bulk tiles).uploads.lost) :
    u ∉ store.sessions := by
  unfold runStorageSelfHeal at hu
  split at hu
  · cases hu
  · split at hu
    · cases hu
    · dsimp only at hu
      split at hu
      · exact session_not_lost hu
      · cases hu

/-- The bulk files that are lost are those that are due and have no reference that is read. -/
theorem mem_bulk_lost {bulk tiles : Bool} {name : Text} :
    name ∈ (runStorageSelfHeal cfg store replies faults vol dryRun bulk tiles).bulk.lost ↔
      reaches cfg store replies faults dryRun bulk = true ∧
        ∃ es, vol.bulk = some (.ok es) ∧ ∃ e ∈ es, e.Due cfg ∧
          ¬ReferenceRead store faults e.name ∧ e.name = name := by
  rw [reaches_iff]
  unfold runStorageSelfHeal
  split
  · rename_i hoff
    simp only [Swept.none, List.not_mem_nil, false_iff]
    rintro ⟨⟨hen, _⟩, _⟩
    simp [hen] at hoff
  · rename_i hen
    have hen : cfg.storageSelfHealEnabled = true := by simpa using hen
    split
    · rename_i e hcon
      simp only [Swept.none, List.not_mem_nil, false_iff]
      rintro ⟨⟨_, _, hnone, hredis, _⟩, _⟩
      simp [hredis, hnone] at hcon
    · rename_i hcon
      dsimp only
      cases bulk with
      | false => simp [Swept.none]
      | true =>
        rw [if_pos rfl, mem_lost_bulkFiles]
        constructor
        · rintro ⟨hr, hf, hd, hs, hes⟩
          exact ⟨⟨hen, rfl, by simpa [hr] using hcon, hr, hf, hd, hs⟩, hes⟩
        · rintro ⟨⟨_, _, _, hr, hf, hd, hs⟩, hes⟩
          exact ⟨hr, hf, hd, hs, hes⟩

/-- Nothing that is needed is lost exactly when, if the pass comes to the directory, every file
that is due and needed has a reference that is read. -/
theorem self_heal_safe_iff (cfg : HealSettings) (store : Store) (replies : Replies store)
    (faults : Faults) (vol : Volume) (dryRun bulk tiles : Bool) :
    KeepsNeeded store (runStorageSelfHeal cfg store replies faults vol dryRun bulk tiles) ↔
      (reaches cfg store replies faults dryRun bulk = true → ∀ es, vol.bulk = some (.ok es) →
        ∀ e ∈ es, e.Due cfg → store.Needs e.name → ReferenceRead store faults e.name) := by
  constructor
  · intro h hr es hes e he hdue hneed
    by_contra hread
    exact h.1 e.name (mem_bulk_lost.mpr ⟨hr, es, hes, e, he, hdue, hread, rfl⟩) hneed
  · refine fun h => ⟨fun name hname hneed => ?_, fun _ => upload_not_lost⟩
    obtain ⟨hr, es, hes, e, he, hdue, hread, rfl⟩ := mem_bulk_lost.mp hname
    exact hread (h hr es hes e he hdue hneed)

end

/-! ## A registration that cannot be read -/

def healSettings : HealSettings := ⟨true, true, true, 0, 0⟩

/-- The file of a running job, two days old. -/
def runningFile : Entry :=
  ⟨"job.geojson".toList, true, false, some 172800000000, none, false, by decide⟩

/-- A worker has taken the job from the queue. -/
def runningStore : Store where
  queue := []
  registered j := if j = importer then some "job.geojson".toList else none
  sessions := []
  tilePending := []

def runningReplies : Replies runningStore where
  registered := [[importer]]
  sessions := [[]]
  tilePending := [[]]
  registered_complete j hj := by
    by_cases h : j = importer
    · exact h ▸ List.mem_singleton_self importer
    · rw [show runningStore.registered j = none from if_neg h] at hj
      cases hj
  sessions_complete := nofun

/-- The `GET` of its registration raises, and the file is deleted while the job runs. -/
theorem unread_registration_loses_upload :
    ¬KeepsNeeded runningStore (runStorageSelfHeal healSettings runningStore runningReplies
      (fun r => if r = .get importer then some "Timeout".toList else none)
      ⟨some (.ok [runningFile]), none, none⟩ false true false) := by
  intro h
  exact h.1 "job.geojson".toList (by decide +kernel) (.inr ⟨importer, by decide⟩)

end Storage
end Geofastmap
