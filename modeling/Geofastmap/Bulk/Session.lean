import Geofastmap.Bulk.Cleanup

/-!
# Geofastmap.Bulk.Session

`run_bulk_import_sync` of `bulk_import.py`: features are inserted through a session that is
committed every `batch_size` features, and `created` is counted beside it.

* A `Session` is what its statements have written and no commit has made durable. A statement is
  checked against the tables and the rows pending; a rollback leaves an empty session.
* Reading the file is outside, as in `Load`: a `SourceFile` says what each of the two readers makes
  of it.
* `counted` is history: the rows of every feature that `created` counts.
-/

namespace Geofastmap
namespace Bulk

open Db Interleave

/-- A feature to insert, with the geometry of each of its rows. -/
structure Item where
  id : Text
  properties : Text
  geometries : List (Option Text)
  nonempty : geometries ≠ []
deriving DecidableEq

theorem oneNull_nonempty : [(none : Option Text)] ≠ [] := List.cons_ne_nil _ _

/-- An `INSERT` of a feature, or what the database raises on it. -/
abbrev Statement := Except (Text × Text) Item

/-- A geometry of a record: over the size limit, without a part that is not, or with the statement
for the parts that are left. -/
inductive Geometry where
  | tooLarge
  | noParts (oversize : Nat)
  | parts (oversize : Nat) (statement : Statement)

inductive LineContent where
  | blank
  /-- Not a JSON object, or a geometry that cannot be read or has no parts. -/
  | bad
  | feature (geometries : List Geometry)

/-- A line, and whether the heartbeat is due before it. -/
structure Line where
  beat : Bool
  content : LineContent

/-- A record of `fiona`; without geometries nothing is left of its geometry. -/
structure FionaRecord where
  beat : Bool
  geometries : List Geometry

/-- A file, or a member of an archive, as the two readers see it. They may raise after their
records. -/
structure SourceFile where
  /-- The driver is a GeoJSON one, and the file is not in an archive. -/
  geojson : Bool
  lines : List Line
  linesError : Option (Text × Text)
  records : List FionaRecord
  recordsError : Option (Text × Text)

inductive SourceList where
  | empty
  | unreadable (error : Text)
  /-- No shapefile in the archive, or a file type without a driver: the text that is returned. -/
  | refused (error : Text)
  | sources (files : List SourceFile)

inductive CountUpdate where
  | set (n : Nat)
  | add (n : Nat)
deriving DecidableEq

def CountUpdate.apply : CountUpdate → Nat → Nat
  | .set n, _ => n
  | .add n, m => m + n

structure Session where
  rows : List Row
  counts : List CountUpdate

def Session.fresh : Session := ⟨[], []⟩

/-- The state of one source. -/
structure Importing where
  created : Nat
  failed : Nat
  buffer : List Statement
  session : Session
  counted : List (List Row)

structure ImportResult where
  created : Nat
  failed : Nat
  err : Option Text
  counted : List (List Row)
deriving DecidableEq

def ImportResult.error (err : Text) : ImportResult := ⟨0, 0, some err, []⟩

section
variable (H : Digest) (cfg : Settings) (scan : Scan) (fuel : Nat) (c : CollectionId)
  (jobId : Option JobId) (progress : Status → Nat → Work Unit) (batchSize : Nat)

/-! ## The session -/

/-- `_run_db_retry` with an `on_retry`. -/
def runDbRetryNotice {α : Type} (notice : Work Unit) (p : Work α) : Nat → Work α
  | 0 => p
  | n + 1 => tryCatch p fun e =>
    if isRetryableDbError e then do
      notice
      runDbRetryNotice notice p n
    else throw e

/-- `_retry_notice`. -/
def retryNotice : Work Unit := progress .running 0

def Item.rows (now : Nat) (it : Item) : List Row :=
  it.geometries.mapIdx fun i g =>
    ⟨it.id, c, i, g, it.properties, jobId.map JobId.text, now, now⟩

/-- The rows a statement writes. -/
def statementRows (now : Nat) : Statement → List Row
  | .ok it => it.rows c jobId now
  | .error _ => []

/-- `session.execute` of an `INSERT`. -/
def sessionExecute (now : Nat) (se : Session) : Statement → Work Session
  | .error e => throw (raiseError e)
  | .ok it => do
    queryOr .db fun k => (k.insertFeatures (se.rows ++ it.rows c jobId now)).map fun _ => ()
    return { se with rows := se.rows ++ it.rows c jobId now }

/-- `session.commit()`. -/
def sessionCommit (se : Session) : Work Unit :=
  Prog.atomic (.commit !se.rows.isEmpty) fun s =>
    match s.catalog.insertFeatures se.rows with
    | .ok k => .ok ((), { s with
        catalog := k
        collections := s.collections.map fun col =>
          if col.id = c then
            { col with featureCount := se.counts.foldl (fun n u => u.apply n) col.featureCount }
          else col
        committed := s.committed ++ se.rows })
    | .error e => .error (Exn.ofDb e)

/-- `_run_db_retry` of `_do_commit`: a commit that raises is rolled back, so that the next one
finds an empty session. -/
def commitRetry : Nat → Session → Work Unit
  | 0, se => sessionCommit c se
  | n + 1, se => tryCatch (sessionCommit c se) fun e =>
    if isRetryableDbError e then do
      retryNotice progress
      commitRetry n Session.fresh
    else throw e

/-- `_commit_with_retry`: a last error is swallowed, and a new session takes over. -/
def commitWithRetry (se : Session) : Work Session := do
  tryCatch (commitRetry c progress (cfg.dbAttempts - 1) se) fun _ => pure ()
  return Session.fresh

/-- `_execute_with_retry`. -/
def executeWithRetry {α : Type} (p : Work α) : Work α :=
  runDbRetryNotice (retryNotice progress) p (cfg.dbAttempts - 1)

/-- The `UPDATE` of the feature count in the session. -/
def sessionCount (se : Session) (u : CountUpdate) : Work Session := do
  executeWithRetry cfg progress (Prog.write .db id)
  return { se with counts := se.counts ++ [u] }

/-! ## Both readers -/

/-- `created > 0 and created % batch_size == 0`. -/
def batchFull (created : Nat) : Work Bool :=
  if created = 0 then pure false
  else if batchSize = 0 then
    throw (.other "ZeroDivisionError".toList "integer modulo by zero".toList)
  else pure (created % batchSize == 0)

/-- A commit in the loop of a source. -/
def commitBatch (soFar : Nat) (st : Importing) : Work Importing := do
  let se ← commitWithRetry cfg c progress st.session
  raiseIfBulkCancelled cfg jobId
  progress .running (soFar + st.created)
  return { st with session := se }

/-! ## `_import_geojsonl_source` -/

/-- `session.begin_nested()`, at its start or its end, for `bulk_per_feature_savepoint`. -/
def savepoint : Work Unit :=
  if cfg.bulkPerFeatureSavepoint then Prog.write .db id else pure ()

/-- A statement is queued: when the end of the savepoint raises, it stays in the buffer and the
geometry counts as failed. -/
def queueStatement (buf : List Statement) (x : Statement) : Work (List Statement × Bool) := do
  let released ← attempt (savepoint cfg)
  match released with
  | .ok _ => return (buf ++ [x], true)
  | .error _ => return (buf ++ [x], false)

/-- `_queue_one_geometry`: the buffer, and whether the geometry counts as queued. -/
def queueOneGeometry (buf : List Statement) : Geometry → Work (List Statement × Bool)
  | .tooLarge => pure (buf, false)
  | .noParts _ => do
    let _ ← attempt (savepoint cfg)
    return (buf, false)
  | .parts _ x => do
    let begun ← attempt (savepoint cfg)
    match begun with
    | .ok _ => queueStatement cfg buf x
    | .error _ => return (buf, false)

def Geometry.rows (now : Nat) : Geometry → List Row
  | .parts _ x => statementRows c jobId now x
  | _ => []

/-- The state after a geometry, and the rows queued for the record. -/
def queued (now : Nat) (g : Geometry) (st : Importing) (fresh : List (List Row)) :
    List Statement × Bool → Importing × List (List Row)
  | (buf, true) => ({ st with buffer := buf }, fresh ++ [g.rows c jobId now])
  | (buf, false) => ({ st with buffer := buf, failed := st.failed + 1 }, fresh)

/-- The geometries of a record. -/
def queueGeometries (now : Nat) :
    List Geometry → Importing → List (List Row) → Work (Importing × List (List Row))
  | [], st, fresh => pure (st, fresh)
  | g :: gs, st, fresh => do
    raiseIfBulkCancelled cfg jobId
    let r ← queueOneGeometry cfg st.buffer g
    queueGeometries now gs (queued c jobId now g st fresh r).1 (queued c jobId now g st fresh r).2

/-- `feature_ok`: a record is one feature, whatever the number of its geometries. -/
def countFeature (st : Importing) (fresh : List (List Row)) : Importing :=
  if fresh.isEmpty then st
  else { st with created := st.created + 1, counted := st.counted ++ [fresh.flatten] }

def executeAll (now : Nat) : List Statement → Session → Work Session
  | [], se => pure se
  | x :: xs, se => do
    let se ← sessionExecute c jobId now se x
    executeAll now xs se

/-- `FeatureInsertBuffer.flush`. -/
def flushBuffer (now : Nat) (st : Importing) : Work Importing := do
  let se ← executeAll c jobId now st.buffer st.session
  return { st with buffer := [], session := se }

/-- `max(1, int(setting or 32))`. -/
def Settings.featuresPerInsert : Nat :=
  if cfg.bulkFeaturesPerInsert = 0 then 32 else cfg.bulkFeaturesPerInsert

def flushFilled (now : Nat) (st : Importing) : Work Importing :=
  if cfg.featuresPerInsert ≤ st.buffer.length then flushBuffer c jobId now st else pure st

/-- A batch in the loop: flushed and committed. -/
def writeBatch (now soFar : Nat) (st : Importing) : Work Importing := do
  let st ← flushBuffer c jobId now st
  commitBatch cfg c jobId progress soFar st

def importFeature (now soFar : Nat) (st : Importing) (gs : List Geometry) : Work Importing := do
  let r ← queueGeometries cfg c jobId now gs st []
  let st ← flushFilled cfg c jobId now (countFeature r.1 r.2)
  let full ← batchFull batchSize st.created
  if full then writeBatch cfg c jobId progress now soFar st else pure st

def importLine (now soFar : Nat) (st : Importing) (line : Line) : Work Importing := do
  raiseIfBulkCancelled cfg jobId
  heartbeat (progress .running) line.beat (soFar + st.created)
  match line.content with
  | .blank => pure st
  | .bad => pure { st with failed := st.failed + 1 }
  | .feature gs => importFeature cfg c jobId progress batchSize now soFar st gs

def importLines (now soFar : Nat) : List Line → Importing → Work Importing
  | [], st => pure st
  | line :: lines, st => do
    let st ← importLine cfg c jobId progress batchSize now soFar st line
    importLines now soFar lines st

/-- The rows of the last batch; `after` follows its commit. -/
def commitRest (after : Work Unit) (st : Importing) : Work Importing := do
  let full ← batchFull batchSize st.created
  if 0 < st.created ∧ full = false then
    let se ← commitWithRetry cfg c progress st.session
    after
    return { st with session := se }
  else return st

def raiseReader : Option (Text × Text) → Work Unit
  | some e => throw (raiseError e)
  | none => pure ()

def importGeojsonlSource (now soFar : Nat) (se : Session) (src : SourceFile) : Work Importing := do
  let st ← importLines cfg c jobId progress batchSize now soFar src.lines ⟨0, 0, [], se, []⟩
  raiseReader src.linesError
  let st ← flushBuffer c jobId now st
  commitRest cfg c progress batchSize (pure ()) st

/-! ## `_import_one_source` -/

/-- A statement of its own, in a savepoint: an error of the database counts as a failure. -/
def insertGeometry (now : Nat) (st : Importing) (x : Statement) : Work Importing := do
  let r ← attempt (sessionExecute c jobId now st.session x)
  match r with
  | .ok se => return { st with
      created := st.created + 1
      session := se
      counted := st.counted ++ [statementRows c jobId now x] }
  | .error e =>
    if e = .bulkImportCancelled then throw e
    else return { st with failed := st.failed + 1 }

def importGeometry (now : Nat) (st : Importing) : Geometry → Work Importing
  | .tooLarge => pure { st with failed := st.failed + 1 }
  | .noParts oversize => pure { st with failed := st.failed + oversize }
  | .parts oversize x =>
    insertGeometry c jobId now { st with failed := st.failed + oversize } x

def importGeometries (now : Nat) : List Geometry → Importing → Work Importing
  | [], st => pure st
  | g :: gs, st => do
    raiseIfBulkCancelled cfg jobId
    let st ← importGeometry c jobId now st g
    importGeometries now gs st

def importRecord (now soFar : Nat) (st : Importing) (rec : FionaRecord) : Work Importing := do
  raiseIfBulkCancelled cfg jobId
  heartbeat (progress .running) rec.beat (soFar + st.created)
  if rec.geometries.isEmpty then return { st with failed := st.failed + 1 }
  else
    let st ← importGeometries cfg c jobId now rec.geometries st
    let full ← batchFull batchSize st.created
    if full then commitBatch cfg c jobId progress soFar st else pure st

def importRecords (now soFar : Nat) : List FionaRecord → Importing → Work Importing
  | [], st => pure st
  | rec :: recs, st => do
    let st ← importRecord cfg c jobId progress batchSize now soFar st rec
    importRecords now soFar recs st

def importOneSource (now soFar : Nat) (se : Session) (src : SourceFile) : Work Importing := do
  let st ← importRecords cfg c jobId progress batchSize now soFar src.records ⟨0, 0, [], se, []⟩
  raiseReader src.recordsError
  commitRest cfg c progress batchSize (raiseIfBulkCancelled cfg jobId) st

/-! ## The import -/

/-- The counts over all sources. -/
structure Totals where
  created : Nat
  failed : Nat
  session : Session
  counted : List (List Row)

def Totals.add (t : Totals) (st : Importing) : Totals :=
  ⟨t.created + st.created, t.failed + st.failed, st.session, t.counted ++ st.counted⟩

def importSource (now : Nat) (t : Totals) (src : SourceFile) : Work Importing :=
  if cfg.bulkGeojsonlFastPath && src.geojson then
    importGeojsonlSource cfg c jobId progress batchSize now t.created t.session src
  else importOneSource cfg c jobId progress batchSize now t.created t.session src

def importSources (now : Nat) : List SourceFile → Totals → Work Totals
  | [], t => pure t
  | src :: rest, t => do
    raiseIfBulkCancelled cfg jobId
    let st ← importSource cfg c jobId progress batchSize now t src
    importSources now rest (t.add st)

/-- `bulk_import_features_trigger_disabled` around the sources. -/
def importAll (now : Nat) (files : List SourceFile) : Work Totals :=
  if cfg.bulkSkipFeaturesTouchTrigger then
    Prog.tryFinally
      (do
        Prog.write .db id
        importSources cfg c jobId progress batchSize now files ⟨0, 0, Session.fresh, []⟩)
      (tryCatch (Prog.write .db id) fun _ => pure ())
  else importSources cfg c jobId progress batchSize now files ⟨0, 0, Session.fresh, []⟩

/-- `refresh_collection_features_last_updated_sync`, with an exception swallowed. -/
def refreshLastUpdated : Work Unit :=
  if cfg.bulkSkipFeaturesTouchTrigger then tryCatch (Prog.write .db id) fun _ => pure ()
  else pure ()

def recomputeExtent (notice : Work Unit) : Work Unit :=
  match cfg.bulkExtentUpdateMode with
  | .deferred => pure ()
  | .immediate => runDbRetryNotice notice (Prog.write .db id) (cfg.dbAttempts - 1)
  | .bestEffort =>
    tryCatch (runDbRetryNotice notice (Prog.write .db id) (cfg.dbAttempts - 1)) fun _ => pure ()

/-- A row of the collection loses the tag of the job. -/
def untag (j : JobId) (r : Row) : Row :=
  if r.collectionId == c && taggedBy j r then { r with bulkImportJobId := none } else r

theorem untag_key (j : JobId) (r : Row) : (untag c j r).key = r.key := by
  unfold untag
  split <;> rfl

/-- `_clear_bulk_import_job_tags_sync`. -/
def clearBulkImportJobTags (j : JobId) : Work Unit :=
  runDbRetry (execute (.clearTags j) fun k =>
    .ok (k.onLive (Table.tame_update (untag c j) (untag_key c j)))) (cfg.dbAttempts - 1)

/-- `finalize_shadow_collection_import_sync`. -/
def finalizeShadowCollectionImport (j : JobId) (filters : List PropertyFilter) : Work Unit := do
  bulkActivity cfg
  Prog.tryFinally
    (do
      let _ ← ensureFeaturesPartition H c
      let _ ← deleteShadowStaleRows cfg scan c (some j) j.text filters fuel
      clearBulkImportJobTags cfg c j
      updateFeatureCount cfg c
      recomputeExtent cfg (pure ()))
    (bulkActivity cfg)

/-- The rows that a replace takes away before the import, when it is not a shadow one. -/
def prestage (filters : List PropertyFilter) (prestaged : Bool) : ImportMode → Work Unit
  | .replaceFiltered =>
    if !prestaged && !filters.isEmpty && !cfg.bulkReplaceShadowImport then do
      progress .replacing 0
      let _ ← executeWithRetry cfg progress
        (deleteFeaturesBatched cfg scan c jobId filters fuel)
      let _ ← commitWithRetry cfg c progress Session.fresh
      updateFeatureCount cfg c
    else pure ()
  | .plain .replace =>
    if !cfg.bulkReplaceShadowImport then do
      progress .replacing 0
      executeWithRetry cfg progress
        (truncateCollectionFeatures H cfg c jobId (progress .replacing 0))
      let se ← sessionCount cfg progress Session.fresh (.set 0)
      let _ ← commitWithRetry cfg c progress se
      pure ()
    else pure ()
  | .plain .append => pure ()
  | .unknown _ => pure ()

/-- The job of a shadow replace. -/
def shadowJob : ImportMode → Option JobId
  | .plain .replace => if cfg.bulkReplaceShadowImport then jobId else none
  | .replaceFiltered => if cfg.bulkReplaceShadowImport then jobId else none
  | .plain .append => none
  | .unknown _ => none

/-- How the feature count changes: a replace that has cleared the collection sets it. -/
def finalCount (created : Nat) : ImportMode → CountUpdate
  | .plain .replace => if cfg.bulkReplaceShadowImport then .add created else .set created
  | _ => .add created

/-- The statements before the last commit. -/
def finalizeStatements (mode : ImportMode) (filters : List PropertyFilter) (t : Totals) :
    Work Session :=
  match shadowJob cfg jobId mode with
  | some j => do
    finalizeShadowCollectionImport H cfg scan fuel c j filters
    return t.session
  | none => sessionCount cfg progress t.session (finalCount cfg t.created mode)

/-- The body of the session, after the partition is there. -/
def importInto (mode : ImportMode) (filters : List PropertyFilter) (prestaged : Bool)
    (files : List SourceFile) : Work ImportResult := do
  raiseIfBulkCancelled cfg jobId
  prestage H cfg scan fuel c jobId progress filters prestaged mode
  progress .running 0
  let now ← redisRead Sys.now
  let t ← importAll cfg c jobId progress batchSize now files
  refreshLastUpdated cfg
  let se ← finalizeStatements H cfg scan fuel c jobId progress mode filters t
  let _ ← commitWithRetry cfg c progress se
  recomputeExtent cfg (retryNotice progress)
  progress .completed t.created
  return ⟨t.created, t.failed, none, t.counted⟩

/-- The session: the collection is looked up and its partition made. -/
def importSession (mode : ImportMode) (filters : List PropertyFilter) (prestaged : Bool)
    (files : List SourceFile) : Work ImportResult := do
  let found ← Prog.read .db fun s => s.collections.any (·.id == c)
  if !found then return .error "Collection not found".toList
  else
    let ensured ← attempt (ensureFeaturesPartition H c)
    match ensured with
    | .error e => return .error ("Failed ensuring features partition: ".toList ++ e.text)
    | .ok _ => importInto H cfg scan fuel c jobId progress batchSize mode filters prestaged files

/-- The handlers: the rows of a cancelled job are taken back. -/
def sessionRaised : Exn → Work ImportResult
  | .bulkImportCancelled => do
    match jobId with
    | some j => syncDeleteBulkImportRowsAndRefresh H cfg c j
    | none => pure ()
    return .error cancelledText
  | e => do
    progress .failed 0
    return .error e.text

def importUpload (path : Text) (mode : ImportMode) (filters : List PropertyFilter)
    (prestaged : Bool) (there : Bool) (upload : SourceList) : Work ImportResult :=
  if !there then pure (.error ("Upload file not found: ".toList ++ path))
  else
    match upload with
    | .unreadable error =>
      pure (.error ("Cannot read upload file ".toList ++ path ++ ": ".toList ++ error))
    | .empty => pure (.error ("Upload file is empty: ".toList ++ path))
    | .refused error => pure (.error error)
    | .sources files =>
      tryCatch
        (importSession H cfg scan fuel c jobId progress batchSize mode filters prestaged files)
        (sessionRaised H cfg c jobId progress)

/-- `run_bulk_import_sync` for the file under a storage key. -/
def runBulkImport (path key : Text) (mode : ImportMode) (filters : List PropertyFilter)
    (prestaged : Bool) (upload : SourceList) : Work ImportResult := do
  bulkActivity cfg
  Prog.tryFinally
    (do
      let there ← Prog.read .storage fun s => s.uploads.contains key
      importUpload H cfg scan fuel c jobId progress batchSize path mode filters prestaged there
        upload)
    (bulkActivity cfg)

end

/-- The import of the bulk worker without COPY: `run_bulk_import_sync` for an upload. -/
def sessionImport (H : Digest) (cfg : Settings) (scan : Scan) (fuel : Nat)
    (payload : BulkJobPayload) (path : Text) (mode : ImportMode) (filters : List PropertyFilter)
    (upload : SourceList) : Work ImportResult :=
  runBulkImport H cfg scan fuel payload.collectionId (some payload.jobId)
    (reportProgress cfg payload) payload.batchSize path payload.storageKey mode filters false upload

/-! ## The steps around the session -/

section
variable {S : Label → (Sys → Sys) → Prop} {cfg : Settings} {c : CollectionId} {j : JobId} {α : Type}

theorem within_bulkActivity (hr : S .redis id) : (bulkActivity cfg).Within S := by
  unfold bulkActivity
  split
  · exact Prog.Within.pure ()
  · exact Prog.Within.retry (Prog.Within.bind (Prog.Within.write hr) fun _ =>
      Prog.Within.write hr) _

theorem within_raiseIfBulkCancelled (hsee : ∀ j, S (.seeJob j) id) (jobId : Option JobId) :
    (raiseIfBulkCancelled cfg jobId).Within S := by
  cases jobId with
  | none => exact Prog.Within.pure ()
  | some j =>
    refine Prog.Within.bind (Prog.Within.retry (Prog.Within.read _ (hsee j)) _) fun job => ?_
    cases job with
    | none => exact Prog.Within.pure ()
    | some job =>
      dsimp only
      split
      · exact Prog.Within.throw _
      · exact Prog.Within.pure ()

theorem within_refresh (hr : S .redis id) : (refreshCollectionBulkMutex cfg c j).Within S := by
  unfold refreshCollectionBulkMutex
  split
  · exact Prog.Within.pure ()
  · refine Prog.Within.retry (Prog.Within.bind (Prog.Within.read _ hr) fun held => ?_) _
    split
    · exact Prog.Within.write hr
    · exact Prog.Within.pure ()

theorem within_reportProgress {payload : BulkJobPayload} {st : Status} {n : Nat}
    (hr : S .redis id) (hsee : ∀ j, S (.seeJob j) id)
    (hset : S (.setStatus payload.jobId (some st)) fun s => s.updateJob payload.jobId
      { status := some st, itemsCreated := some n })
    (hrel : ∀ d, (releaseCollectionBulkMutex cfg d payload.jobId).Within S) :
    (reportProgress cfg payload st n).Within S := by
  refine Prog.Within.bind (Prog.Within.retry (Prog.Within.read _ (hsee _)) _) fun job => ?_
  split
  · exact Prog.Within.throw _
  · refine Prog.Within.tryCatch (Prog.Within.retry (Prog.Within.bind (within_refresh hr)
      fun _ => ?_) _) fun _ => Prog.Within.pure ()
    exact within_updateJob hr hrel hset

theorem within_runDbRetryNotice {notice : Work Unit} {p : Work α} (hn : notice.Within S)
    (hp : p.Within S) (n : Nat) : (runDbRetryNotice notice p n).Within S := by
  induction n with
  | zero => exact hp
  | succ n ih =>
    refine Prog.Within.tryCatch hp fun e => ?_
    split
    · exact Prog.Within.bind hn fun _ => ih
    · exact Prog.Within.throw e

theorem within_recomputeExtent {notice : Work Unit} (hdb : S .db id) (hn : notice.Within S) :
    (recomputeExtent cfg notice).Within S := by
  have hp := within_runDbRetryNotice hn (Prog.Within.write hdb) (cfg.dbAttempts - 1)
  unfold recomputeExtent
  split
  · exact Prog.Within.pure ()
  · exact hp
  · exact Prog.Within.tryCatch hp fun _ => Prog.Within.pure ()

theorem within_refreshLastUpdated (hdb : S .db id) : (refreshLastUpdated cfg).Within S := by
  unfold refreshLastUpdated
  split
  · exact Prog.Within.tryCatch (Prog.Within.write hdb) fun _ => Prog.Within.pure ()
  · exact Prog.Within.pure ()

end

end Bulk
end Geofastmap
