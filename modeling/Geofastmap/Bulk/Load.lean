import Geofastmap.Bulk.Watchdog

/-!
# Geofastmap.Bulk.Load

`bulk_copy_ingest.py`: a file is read record by record and copied to the staging table of its job
in batches, each of them a transaction of its own.

Reading the file is outside: an `Upload` says what the reader makes of the file, record by record,
and where it raises. A record carries whether the cancel check and the heartbeat come with it, so a
statement about every upload is one about every choice of those times.
-/

namespace Geofastmap
namespace Bulk

open Db Interleave

/-- The columns of a staged row that come from the file. -/
structure Part where
  id : Text
  partIndex : Nat
  geometry : Text
  properties : Text
deriving DecidableEq, Repr

/-- A record, or a batch of parsed lines: the rows of `_feature_rows_from_record`, the geometries
that were refused, and what is done around them. -/
structure Record where
  parts : List Part
  failed : Nat
  check : Bool
  beat : Bool
deriving DecidableEq, Repr

/-- A file or a member of an archive; the reader may raise after its records. -/
structure Source where
  records : List Record
  error : Option (Text × Text)
deriving DecidableEq, Repr

inductive Content where
  /-- No shapefile in the archive: the text of the `ValueError`. -/
  | badZip (error : Text)
  | unsupported
  | zip (members : List Source)
  | single (source : Source)
deriving DecidableEq, Repr

inductive Upload where
  /-- `os.path.getsize` is 0, or raises. -/
  | empty
  | unreadable (error : Text)
  | file (content : Content)
deriving DecidableEq, Repr

/-- A raster of an archive: the row of its footprint, or what its conversion raises. -/
abbrev Raster := Except (Text × Text) Row

inductive RasterEntry where
  /-- A path that is refused or missing, or an archive without rasters. -/
  | skipped (error : Text)
  | unknownKind (kind : Text)
  | geotiff (raster : Raster)
  | zip (members : List Raster)

/-- What the files under the storage keys hold, and where they are. -/
structure Files where
  path : Text → Text
  upload : Text → Upload
  /-- The manifest, or what reading the archive raises. -/
  archive : Text → Except (Text × Text) (List RasterEntry)

/-- Run `p` and keep what it raises as a value. -/
def attempt {α : Type} (p : Work α) : Work (Except Exn α) :=
  tryCatch (p >>= fun a => pure (.ok a)) fun e => pure (.error e)

def raiseError (e : Text × Text) : Exn := .other e.1 e.2

section
variable (H : Digest) (cfg : Settings)

/-! ## The copier -/

/-- `_copy_batch_size` and the bound of `_StagingCopier`. -/
def copyBatchSize : Nat := max 1000 (orElseNat cfg.bulkCopyBatchRows 20000)

def copyRow (c : CollectionId) (j : JobId) (now : Nat) (p : Part) : Row :=
  ⟨p.id, c, p.partIndex, some p.geometry, p.properties, some j.text, now, now⟩

/-- `_flush_batch`: a `COPY` and its commit. -/
def flushBatch (j : JobId) (batch : List Row) : Work Unit :=
  execute .db fun k => k.insertInto (stagingTableName j) batch

/-- The loop of `add`: full batches are written, the rest stays in the buffer. -/
def flushFull (j : JobId) : Nat → List Row → Work (List Row)
  | 0, buf => pure buf
  | n + 1, buf =>
    if copyBatchSize cfg ≤ buf.length then do
      flushBatch j (buf.take (copyBatchSize cfg))
      flushFull j n (buf.drop (copyBatchSize cfg))
    else pure buf

/-- `add`. -/
def addRows (j : JobId) (buf rows : List Row) : Work (List Row) :=
  if rows.isEmpty then pure buf
  else flushFull cfg j (buf.length + rows.length) (buf ++ rows)

/-- `flush_final`. -/
def flushFinal (j : JobId) (buf : List Row) : Work Unit :=
  if buf.isEmpty then pure () else flushBatch j buf

/-! ## Loading -/

/-- `_raise_if_cancelled`. -/
def raiseIfCancelled (j : JobId) : Work Unit := raiseIfBulkCancelled cfg (some j)

variable (c : CollectionId) (j : JobId) (onProgress : Nat → Work Unit)

/-- What a load counts: rows made, geometries refused, and the rows not written yet. -/
structure Loading where
  created : Nat
  failed : Nat
  buf : List Row

def cancelCheck (due : Bool) : Work Unit := if due then raiseIfCancelled cfg j else pure ()

def heartbeat (due : Bool) (created : Nat) : Work Unit :=
  if due then onProgress created else pure ()

/-- One record of `_load_fiona_source_into_staging` or `_load_geojson_seq_into_staging`. -/
def loadRecord (now : Nat) (st : Loading) (r : Record) : Work Loading := do
  cancelCheck cfg j r.check
  let rows := r.parts.map (copyRow c j now)
  let buf ← addRows cfg j st.buf rows
  heartbeat onProgress r.beat (st.created + rows.length)
  return ⟨st.created + rows.length, st.failed + r.failed, buf⟩

def loadRecords (now : Nat) : List Record → Loading → Work Loading
  | [], st => pure st
  | r :: rs, st => do
    let st ← loadRecord cfg c j onProgress now st r
    loadRecords now rs st

/-- A source to its end: the counts of rows made and geometries refused. -/
def loadSource (src : Source) : Work (Nat × Nat) := do
  let now ← redisRead Sys.now
  let st ← loadRecords cfg c j onProgress now src.records ⟨0, 0, []⟩
  match src.error with
  | some e => throw (raiseError e)
  | none =>
    flushFinal j st.buf
    return (st.created, st.failed)

/-- A member of an archive; progress is told before it when there are several. -/
def loadMember (many : Bool) (created : Nat) (src : Source) : Work (Nat × Nat) := do
  heartbeat onProgress many created
  loadSource cfg c j onProgress src

/-- The counts when all members are loaded, or when one of them raises. -/
def loadMembers (many : Bool) : List Source → Nat → Nat → Work (Nat × Nat × Option Exn)
  | [], created, failed => pure (created, failed, none)
  | src :: rest, created, failed => do
    let r ← attempt (loadMember cfg c j onProgress many created src)
    match r with
    | .ok (n, f) => loadMembers many rest (created + n) (failed + f)
    | .error e => pure (created, failed, some e)

/-- What a stage of the import comes to: the function returns at once, goes on with its counts, or
raises with the counts it had. -/
inductive Stage where
  | returns (created failed : Nat) (err : Option Text)
  | goes (created failed : Nat)
  | raises (created failed : Nat) (e : Exn)

def Stage.ofMembers : Nat × Nat × Option Exn → Stage
  | (created, failed, none) => .goes created failed
  | (created, failed, some e) => .raises created failed e

def loadContent : Content → Work Stage
  | .badZip error => pure (.returns 0 0 (some error))
  | .unsupported => pure (.returns 0 0 (some "Unsupported file type for COPY ingest".toList))
  | .zip members => do
    let r ← loadMembers cfg c j onProgress (decide (1 < members.length)) members 0 0
    return Stage.ofMembers r
  | .single src => do
    let r ← loadMembers cfg c j onProgress false [src] 0 0
    return Stage.ofMembers r

/-- A fresh staging table. -/
def prepareStaging : Work Unit := do
  let _ ← ensureFeaturesPartition H c
  createStagingTable j
  Prog.write (.load j false) fun s => { s with loaded := s.loaded.filter (· != j) }
  onProgress 0

/-- The value of `err` when the rows are staged and wait for the finalize worker. -/
def finalizeQueued : Text := "finalize_queued".toList

def cancelledText : Text := "cancelled".toList

/-- After the last row: the promotion is left to the finalize worker, or done here. -/
def finishLoad (mode : Mode) (created : Nat) : Work (Option Text) := do
  Prog.write (.load j true) fun s => { s with loaded := j :: s.loaded }
  raiseIfCancelled cfg j
  onProgress created
  if cfg.bulkQueueRedis && cfg.bulkFinalizeQueueEnabled then return (some finalizeQueued)
  else
    let _ ← promoteStaging H cfg c j mode
    finalizeAfterPromote cfg c
    return none

/-- The `except Exception` of the import: a replace job that has staged rows keeps them. -/
def keepOrDropStaging (mode : Mode) : Work Unit :=
  tryCatch
    (do
      let staged ← stagingRowCount j
      if staged > 0 ∧ mode = .replace then pure () else dropStagingTable j)
    fun _ => pure ()

/-- The handlers of the import, for an exception after the given counts. -/
def loadRaised (mode : Mode) (created failed : Nat) : Exn → Work (Nat × Nat × Option Text)
  | .bulkImportCancelled => do
    tryCatch (dropStagingTable j) fun _ => pure ()
    return (created, failed, some cancelledText)
  | e => do
    keepOrDropStaging j mode
    return (created, failed, some e.text)

/-- The rest of the import once the rows of the file are staged. -/
def loadStaged (mode : Mode) : Stage → Work (Nat × Nat × Option Text)
  | .returns created failed err => pure (created, failed, err)
  | .raises created failed e => loadRaised j mode created failed e
  | .goes created failed => do
    let r ← attempt (finishLoad H cfg c j onProgress mode created)
    match r with
    | .ok err => pure (created, failed, err)
    | .error e => loadRaised j mode created failed e

/-- The `try` of `run_bulk_copy_import_sync` with its handlers. -/
def copyImport (mode : Mode) (content : Content) : Work (Nat × Nat × Option Text) := do
  let r ← attempt (prepareStaging H c j onProgress)
  match r with
  | .error e => loadRaised j mode 0 0 e
  | .ok _ =>
    let stage ← loadContent cfg c j onProgress content
    loadStaged H cfg c j onProgress mode stage

/-- `incr_collection_bulk_activity` and its counterpart: the counters are of no use to a load. -/
def bulkActivity : Work Unit :=
  if !cfg.bulkQueueRedis then pure ()
  else
    runRedisRetry cfg.enqueueAttempts do
      redisWrite id
      redisWrite id

/-- `run_bulk_copy_import_sync`. -/
def runBulkCopyImport (files : Files) (key : Text) (mode : Mode) :
    Work (Nat × Nat × Option Text) := do
  let there ← Prog.read .storage fun s => s.uploads.contains key
  if !there then return (0, 0, some ("Upload file not found: ".toList ++ files.path key))
  else
    match files.upload key with
    | .empty => return (0, 0, some ("Upload file is empty: ".toList ++ files.path key))
    | .unreadable error =>
      return (0, 0, some ("Cannot read upload file ".toList ++ files.path key ++ ": ".toList ++
        error))
    | .file content =>
      bulkActivity cfg
      Prog.tryFinally (copyImport H cfg c j onProgress mode content) (bulkActivity cfg)

end

end Bulk
end Geofastmap
