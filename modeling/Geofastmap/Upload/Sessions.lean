import Mathlib.Data.List.Dedup
import Mathlib.Data.List.Sort
import Mathlib.Logic.Function.Basic
import Geofastmap.Bulk.State

/-!
# Geofastmap.Upload.Sessions

One resumable upload: the session in Redis (`bulk_upload_sessions.py`), the files of its parts
(`bulk_storage.py`), and the route of `items.py` that a client calls for each part.

* `uploadBulkSessionPart` : the file of the part is written chunk by chunk through a handle with an
  offset of its own; then the part is added to the list of the session, which is read, changed and
  written back.
* `assembleChunkParts` : the parts one after another into one file.

The steps `finish` and `leave` are history: a part was uploaded, and a call for a part is over.
-/

namespace Geofastmap
namespace Upload

open Db Bulk Interleave

abbrev Bytes := List UInt8

structure UploadSession where
  collectionId : CollectionId
  ownerId : Option Nat
  filename : Text
  mode : Text
  batchSize : Nat
  queueComputeTiles : Bool
  replaceFilters : List Text
  parts : List Nat
deriving DecidableEq

structure UploadState where
  session : Option UploadSession
  /-- The files of the parts, under `_uploads/`. -/
  part : Nat → Option Bytes
  /-- The uploaded files by storage key. -/
  files : Text → Option Bytes
  jobs : JobId → Option Status
  registered : JobId → Option Text
  bulkQueue : List BulkJobPayload
  /-- History: the content of the last completed upload of a part. -/
  completed : Nat → Option Bytes
  /-- History: the parts whose file was opened and whose upload was not completed since. -/
  unfinished : List Nat

inductive Label where
  /-- `GET` and `DEL` of the session. -/
  | getSession
  | deleteSession
  /-- The `GET` and the `SET` of a call that adds a part to the list. -/
  | readList (p : Nat)
  | writeList (p : Nat)
  | openPart (p : Nat)
  | writePart (p : Nat) (chunk : Bytes)
  | finish (p : Nat)
  | leave (p : Nat)
  /-- The record of a job, and the list of the jobs of its collection. -/
  | createJob
  | indexJob
  | openFile
  | copyPart (p : Nat)
  | deleteParts
  | listShp
  | register
  | enqueue
  | deleteFile
deriving DecidableEq

inductive Exn where
  | http (status : Nat)
  | valueError
  | fileNotFound
  | runtime
  | io
deriving DecidableEq

abbrev Call := Prog Label UploadState Exn

structure UploadSettings where
  redisRetryEnqueueMaxAttempts : Nat
  bulkImportBatchSize : Nat
  bulkCopyIngestEnabled : Bool

/-- `sorted(set(…))`. -/
def sortedSet (l : List Nat) : List Nat := l.dedup.insertionSort (· ≤ ·)

theorem mem_sortedSet {l : List Nat} {p : Nat} : p ∈ sortedSet l ↔ p ∈ l := by
  simp [sortedSet]

theorem sortedLT_sortedSet (l : List Nat) : (sortedSet l).SortedLT := by
  have hle : (sortedSet l).Pairwise (· ≤ ·) := List.pairwise_insertionSort (· ≤ ·) l.dedup
  have hnd : (sortedSet l).Nodup :=
    (List.perm_insertionSort (· ≤ ·) l.dedup).nodup_iff.mpr (List.nodup_dedup l)
  exact (hle.sortedLE).sortedLT_of_nodup hnd

theorem sortedSet_eq {l : List Nat} (h : l.SortedLT) : sortedSet l = l :=
  List.SortedLT.eq_of_mem_iff (sortedLT_sortedSet l) h fun _ => mem_sortedSet

section
variable (cfg : UploadSettings)

/-- `run_redis_retry` with the attempts of the setting. -/
def runRedisRetry {α : Type} (p : Call α) : Call α :=
  Prog.retry ((if cfg.redisRetryEnqueueMaxAttempts = 0 then 5
    else cfg.redisRetryEnqueueMaxAttempts) - 1) p

/-! ## Sessions -/

def getUploadSession (l : Label) : Call (Option UploadSession) :=
  runRedisRetry cfg (Prog.read l UploadState.session)

/-- `update_upload_session` with a patch that has every field. -/
def updateUploadSession (p : Nat) (patch : UploadSession) : Call (Option UploadSession) := do
  let s ← getUploadSession cfg .getSession
  match s with
  | none => return none
  | some _ =>
    runRedisRetry cfg (Prog.write (.writeList p) fun st => { st with session := some patch })
    return some patch

def UploadSession.add (s : UploadSession) (p : Nat) : UploadSession :=
  { s with parts := sortedSet (p :: s.parts) }

def addUploadedPart (p : Nat) : Call (Option UploadSession) := do
  let s ← getUploadSession cfg (.readList p)
  match s with
  | none => return none
  | some s => updateUploadSession cfg p (s.add p)

def deleteUploadSession : Call Unit :=
  runRedisRetry cfg (Prog.write .deleteSession fun st => { st with session := none })

/-! ## Parts -/

/-- A write through a handle at its offset; a gap before it reads as zeros. -/
def writeAt (offset : Nat) (chunk file : Bytes) : Bytes :=
  file.take offset ++ List.replicate (offset - file.length) 0 ++ chunk ++
    file.drop (offset + chunk.length)

/-- `open(part_path, "wb")`. -/
def openPart (p : Nat) : Call Unit :=
  Prog.write (.openPart p) fun st => { st with
    part := Function.update st.part p (some [])
    unfinished := p :: st.unfinished }

def writeChunks (p : Nat) : Nat → List Bytes → Call Unit
  | _, [] => pure ()
  | offset, chunk :: chunks => do
    Prog.write (.writePart p chunk) fun st =>
      { st with part := Function.update st.part p ((st.part p).map (writeAt offset chunk)) }
    writeChunks p (offset + chunk.length) chunks

/-- A call for a part. `permitted`: the collection is there, and the user may edit it. -/
structure PartRequest where
  permitted : Except Exn Unit
  collectionId : CollectionId
  userId : Option Nat
  partNo : Nat
  chunks : List Bytes

def PartRequest.content (req : PartRequest) : Bytes := req.chunks.flatten

/-- The session must be the one of the collection, and of the user. -/
def checkSession (req : PartRequest) (s : Option UploadSession) : Except Exn Unit :=
  match s with
  | none => .error (.http 404)
  | some s =>
    if s.collectionId ≠ req.collectionId then .error (.http 404)
    else
      match s.ownerId, req.userId with
      | some owner, some user => if owner ≠ user then .error (.http 403) else .ok ()
      | _, _ => .ok ()

/-- The file is written, and the part recorded. -/
def storePart (req : PartRequest) : Call Unit := do
  if req.partNo < 1 then throw .valueError
  else
    tryCatch
      (do
        openPart req.partNo
        writeChunks req.partNo 0 req.chunks)
      fun _ => throw (.http 500)
    let _ ← addUploadedPart cfg req.partNo
    Prog.write (.finish req.partNo) fun st => { st with
      completed := Function.update st.completed req.partNo (some req.content)
      unfinished := st.unfinished.filter (· != req.partNo) }

def liftCheck (r : Except Exn Unit) : Call Unit := .done r

def uploadBulkSessionPart (req : PartRequest) : Call Unit :=
  Prog.tryFinally
    (do
      liftCheck req.permitted
      let s ← getUploadSession cfg .getSession
      liftCheck (checkSession req s)
      storePart cfg req)
    (Prog.write (.leave req.partNo) id)

/-! ## Assembly -/

/-- `assemble_chunk_parts` after the output is opened: the parts in order. -/
def copyParts (key : Text) : List Nat → Call Unit
  | [] => pure ()
  | p :: ps => do
    if p < 1 then throw .valueError
    else
      Prog.atomic (.copyPart p) fun st =>
        match st.part p with
        | none => .error .fileNotFound
        | some bytes => .ok ((), { st with
            files := Function.update st.files key ((st.files key).map (· ++ bytes)) })
      copyParts key ps

def assembleChunkParts (parts : List Nat) (key : Text) : Call Unit := do
  if parts.isEmpty then throw .valueError
  else
    Prog.write .openFile fun st => { st with files := Function.update st.files key (some []) }
    copyParts key (sortedSet parts)

end

end Upload
end Geofastmap
