import Geofastmap.Bulk.Loops

/-!
# Geofastmap.Bulk.Services

The bulk worker, the reconcile pass and the watchdog as programs of steps of a kind, for any job.
`Serves` lists what the kind has to allow beyond `Covers`, and `Recovers` what is known where a
recovery path looks at a job; `M j mode` says that job `j` may be promoted in that mode. Then every
service keeps whatever the steps of the kind keep.
-/

namespace Geofastmap
namespace Bulk

open Db Interleave

theorem within_ite {S : Label → (Sys → Sys) → Prop} {α : Type} {p : Prop} [Decidable p]
    {a b : Work α} (ha : p → a.Within S) (hb : ¬p → b.Within S) :
    (if p then a else b).Within S := by
  split
  · rename_i h; exact ha h
  · rename_i h; exact hb h

theorem within_tryFinally {S : Label → (Sys → Sys) → Prop} {α : Type} {p : Work α}
    {c : Work Unit} (h : p.Within S) (hc : c.Within S) : (Prog.tryFinally p c).Within S := by
  refine Prog.Within.bind (Prog.Within.tryCatch h fun e => ?_) fun a => ?_
  · exact Prog.Within.bind hc fun _ => Prog.Within.throw e
  · exact Prog.Within.bind hc fun _ => Prog.Within.pure a

/-- What a kind of steps has to allow for the bulk services to be made of it. -/
structure Serves (S : Label → (Sys → Sys) → Prop) (H : Digest) (cfg : Settings)
    (M : JobId → Mode → Prop) : Prop where
  covers : ∀ j c, Covers S H cfg j c (M j)
  lock : ∀ op c j (g : Sys → Sys), (∀ s, g s = { s with mutex := (g s).mutex }) →
    S (.mutex op c j) g
  storage : ∀ g : Sys → Sys, (∀ s, g s = { s with uploads := (g s).uploads }) → S .storage g
  create : ∀ j, S .db (Sys.onDb fun k =>
    (k.drop (stagingTableName j)).createTable (stagingTableName j) true)
  stage : ∀ j rows, S .db (Sys.onDb fun k => k.insertInto (stagingTableName j) rows)
  insert : ∀ r, S .db (Sys.onDb fun k => k.insertFeature r)
  begin : ∀ j, S (.load j false) fun s => { s with loaded := s.loaded.filter (· != j) }
  finish : ∀ j, S (.load j true) fun s => { s with loaded := j :: s.loaded }
  prune : ∀ n, S .db (Sys.onDb fun k => .ok (k.drop n))
  detached : S .db (Sys.onDb fun k => .ok (cleanupDetachedOrphans H k))
  enqueue : ∀ payload force, M payload.jobId payload.mode →
    (enqueueFinalize cfg payload force).Within S

namespace Serves

variable {S : Label → (Sys → Sys) → Prop} {H : Digest} {cfg : Settings} {files : Files}
  {M : JobId → Mode → Prop} {j : JobId} {c : CollectionId} {α : Type}
variable (hS : Serves S H cfg M)
include hS

theorem quietly {p : Work α} (h : Quietly p) : p.Within S := h.mono (hS.covers importer []).quiet

theorem redis : S .redis id := (hS.covers importer []).quiet _ _ (quiet_redis Hushed.refl)

theorem seeJob (j : JobId) : S (.seeJob j) id :=
  (hS.covers importer []).quiet _ _ ⟨rfl, Hushed.refl⟩

theorem updateJob (j : JobId) (u : JobUpdate) : (updateJob cfg j u).Within S :=
  (hS.covers j []).updateJob u

theorem release (c : CollectionId) (j : JobId) : (releaseCollectionBulkMutex cfg c j).Within S :=
  (hS.covers j []).release c

theorem drop (j : JobId) : (dropStagingTable j).Within S := (hS.covers j []).drop

theorem dropQuietly (j : JobId) :
    (tryCatch (dropStagingTable j) fun _ => pure () : Work Unit).Within S :=
  Prog.Within.tryCatch (hS.drop j) fun _ => Prog.Within.pure ()

/-! ## The load -/

theorem flushBatch (j : JobId) (batch : List Row) : (flushBatch j batch).Within S :=
  within_execute (hS.stage j batch)

theorem addRows (buf rows : List Row) : (addRows cfg j buf rows).Within S := by
  have hfull : ∀ n buf, (flushFull cfg j n buf).Within S := by
    intro n
    induction n with
    | zero => exact fun buf => Prog.Within.pure buf
    | succ n ih =>
      exact fun buf => within_ite (fun _ => Prog.Within.bind (hS.flushBatch j _) fun _ => ih _)
        fun _ => Prog.Within.pure _
  exact within_ite (fun _ => Prog.Within.pure _) fun _ => hfull _ _

theorem raiseIfCancelled : (raiseIfCancelled cfg j).Within S :=
  within_raiseIfBulkCancelled hS.seeJob (some j)

section Load
variable {onProgress : Nat → Work Unit} (hp : ∀ n, (onProgress n).Within S)
include hp

theorem loadRecords (now : Nat) (rs : List Record) (st : Loading) :
    (loadRecords cfg c j onProgress now rs st).Within S := by
  induction rs generalizing st with
  | nil => exact Prog.Within.pure _
  | cons r rs ih =>
    refine Prog.Within.bind ?_ fun st => ih st
    refine Prog.Within.bind (within_ite (fun _ => hS.raiseIfCancelled) fun _ => Prog.Within.pure ())
      fun _ => ?_
    refine Prog.Within.bind (hS.addRows st.buf _) fun buf => ?_
    exact Prog.Within.bind (within_ite (fun _ => hp _) fun _ => Prog.Within.pure ()) fun _ =>
      Prog.Within.pure _

theorem loadSource (src : Source) : (loadSource cfg c j onProgress src).Within S := by
  refine Prog.Within.bind (hS.quietly (quietly_redisRead _)) fun now => ?_
  refine Prog.Within.bind (hS.loadRecords hp now _ _) fun st => ?_
  cases src.error with
  | some e => exact Prog.Within.throw _
  | none =>
    exact Prog.Within.bind (within_ite (fun _ => Prog.Within.pure ()) fun _ => hS.flushBatch j _)
      fun _ => Prog.Within.pure _

theorem loadMembers (many : Bool) (members : List Source) (created failed : Nat) :
    (loadMembers cfg c j onProgress many members created failed).Within S := by
  induction members generalizing created failed with
  | nil => exact Prog.Within.pure _
  | cons src rest ih =>
    have hmember : (loadMember cfg c j onProgress many created src).Within S :=
      Prog.Within.bind (within_ite (fun _ => hp _) fun _ => Prog.Within.pure ()) fun _ =>
        hS.loadSource hp src
    refine Prog.Within.bind (Prog.Within.tryCatch (Prog.Within.bind hmember fun _ =>
      Prog.Within.pure _) fun _ => Prog.Within.pure _) fun r => ?_
    cases r with
    | ok n => exact ih _ _
    | error e => exact Prog.Within.pure _

theorem loadContent (content : Content) : (loadContent cfg c j onProgress content).Within S := by
  cases content with
  | badZip error => exact Prog.Within.pure _
  | unsupported => exact Prog.Within.pure _
  | zip members => exact Prog.Within.bind (hS.loadMembers hp _ members 0 0) fun _ => Prog.Within.pure _
  | single src => exact Prog.Within.bind (hS.loadMembers hp false [src] 0 0) fun _ => Prog.Within.pure _

theorem prepareStaging : (prepareStaging H c j onProgress).Within S := by
  refine Prog.Within.bind (hS.covers j c).ensure fun _ => ?_
  refine Prog.Within.bind (within_execute (hS.create j)) fun _ => ?_
  exact Prog.Within.bind (Prog.Within.write (hS.begin j)) fun _ => hp 0

theorem finishLoad {mode : Mode} (hm : M j mode) (created : Nat) :
    (finishLoad H cfg c j onProgress mode created).Within S := by
  refine Prog.Within.bind (Prog.Within.write (hS.finish j)) fun _ => ?_
  refine Prog.Within.bind hS.raiseIfCancelled fun _ => Prog.Within.bind (hp created) fun _ => ?_
  refine within_ite (fun _ => Prog.Within.pure _) fun _ => ?_
  refine Prog.Within.bind ((hS.covers j c).promote mode hm) fun _ => ?_
  exact Prog.Within.bind ((hS.covers j c).afterPromote c) fun _ => Prog.Within.pure _

omit hp in
theorem loadRaised (mode : Mode) (created failed : Nat) (e : Exn) :
    (loadRaised j mode created failed e).Within S := by
  have hkeep : (keepOrDropStaging j mode).Within S :=
    Prog.Within.tryCatch (Prog.Within.bind (hS.quietly (quietly_query _)) fun _ =>
      within_ite (fun _ => Prog.Within.pure ()) fun _ => hS.drop j) fun _ => Prog.Within.pure ()
  cases e with
  | bulkImportCancelled => exact Prog.Within.bind (hS.dropQuietly j) fun _ => Prog.Within.pure _
  | _ => exact Prog.Within.bind hkeep fun _ => Prog.Within.pure _

theorem copyImport {mode : Mode} (hm : M j mode) (content : Content) :
    (copyImport H cfg c j onProgress mode content).Within S := by
  refine Prog.Within.bind (within_attempt (hS.prepareStaging hp)) fun r => ?_
  cases r with
  | error e => exact hS.loadRaised mode 0 0 e
  | ok _ =>
    refine Prog.Within.bind (hS.loadContent hp content) fun stage => ?_
    cases stage with
    | returns created failed err => exact Prog.Within.pure _
    | raises created failed e => exact hS.loadRaised mode created failed e
    | goes created failed =>
      refine Prog.Within.bind (within_attempt (hS.finishLoad hp hm created)) fun r => ?_
      cases r with
      | ok err => exact Prog.Within.pure _
      | error e => exact hS.loadRaised mode created failed e

theorem runBulkCopyImport {mode : Mode} (hm : M j mode) (key : Text) :
    (runBulkCopyImport H cfg c j onProgress files key mode).Within S := by
  have hact : (bulkActivity cfg).Within S := within_bulkActivity hS.redis
  refine Prog.Within.bind (Prog.Within.read _ (hS.storage id fun _ => rfl)) fun there => ?_
  refine within_ite (fun _ => Prog.Within.pure _) fun _ => ?_
  cases files.upload key with
  | empty => exact Prog.Within.pure _
  | unreadable error => exact Prog.Within.pure _
  | file content =>
    exact Prog.Within.bind hact fun _ => within_tryFinally (hS.copyImport hp hm content) hact

end Load

/-! ## The bulk worker -/

theorem updateJobRetry (j : JobId) (u : JobUpdate) : (updateJobRetry cfg j u).Within S :=
  Prog.Within.retry (hS.updateJob j u) _

theorem onProgress (payload : BulkJobPayload) (created : Nat) :
    (onProgress cfg payload created).Within S := by
  refine Prog.Within.bind (hS.quietly quietly_getJob) fun job => ?_
  refine within_ite (fun _ => Prog.Within.throw _) fun _ => ?_
  refine Prog.Within.tryCatch (Prog.Within.retry ?_ _) fun _ => Prog.Within.pure ()
  exact Prog.Within.bind (within_refresh hS.redis) fun _ => hS.updateJob _ _

theorem reclaim (c : CollectionId) : (reclaimStaleCollectionBulkMutex cfg c).Within S := by
  refine Prog.Within.bind (hS.quietly quietly_getHolder) fun holder => ?_
  cases holder with
  | none => exact Prog.Within.pure ()
  | some holder =>
    refine Prog.Within.bind (hS.quietly quietly_getJob) fun job => ?_
    refine Prog.Within.bind (hS.quietly (quietly_redisRead _)) fun now => ?_
    exact within_ite (fun _ => hS.release c holder) fun _ => Prog.Within.pure ()

theorem tryAcquire (c : CollectionId) (j : JobId) :
    (tryAcquireCollectionBulkMutex cfg c j).Within S := by
  refine within_ite (fun _ => Prog.Within.pure _) fun _ => Prog.Within.retry ?_ _
  refine Prog.Within.bind (Prog.Within.atomic (hS.lock .take c j _ fun s => ?_)) fun free => ?_
  · simp only [Sys.takeMutex]
    split
    · rfl
    · rfl
  · refine within_ite (fun _ => Prog.Within.pure _) fun _ => ?_
    exact Prog.Within.bind (Prog.Within.read _ (hS.lock .own c j id fun _ => rfl)) fun _ =>
      Prog.Within.pure _

theorem deferJob (payload : BulkJobPayload) (holder : Option JobId) (job : Option JobInfo) :
    (deferJob cfg payload holder job).Within S := by
  have hpush : (redisWrite fun s => { s with bulkQueue := payload :: s.bulkQueue }).Within S :=
    hS.quietly (quietly_redisWrite fun s => { Hushed.refl s with })
  refine Prog.Within.bind (Prog.Within.tryCatch (hS.updateJob _ _) fun _ => Prog.Within.pure ())
    fun _ => ?_
  refine Prog.Within.bind (Prog.Within.tryCatch ?_ fun _ => Prog.Within.pure ()) fun _ =>
    Prog.Within.pure _
  exact within_ite (fun _ => Prog.Within.tryCatch (Prog.Within.retry hpush _) fun _ =>
    Prog.Within.throw _) fun _ => hpush

theorem deferBulkJob (payload : BulkJobPayload) :
    (deferBulkJobForCollectionMutex cfg payload).Within S := by
  have hjob : ∀ holder, (holderJob cfg holder).Within S := by
    intro holder
    cases holder with
    | none => exact Prog.Within.pure _
    | some h => exact hS.quietly quietly_getJob
  have hholder : (getCollectionBulkMutexHolder cfg payload.collectionId).Within S :=
    hS.quietly quietly_getHolder
  have hacquire := hS.tryAcquire payload.collectionId payload.jobId
  have hdefer : ∀ holder job, (Bulk.deferJob cfg payload holder job).Within S := hS.deferJob payload
  refine Prog.Within.bind hacquire fun _ => within_ite (fun _ => Prog.Within.pure _) fun _ => ?_
  refine Prog.Within.bind hholder fun _ => Prog.Within.bind (hS.reclaim _) fun _ => ?_
  refine Prog.Within.bind hacquire fun _ => within_ite (fun _ => Prog.Within.pure _) fun _ => ?_
  refine Prog.Within.bind hholder fun holder => Prog.Within.bind (hjob holder) fun job => ?_
  refine within_ite (fun _ => ?_) fun _ => hdefer holder job
  refine Prog.Within.bind (hS.reclaim _) fun _ => Prog.Within.bind hacquire fun _ => ?_
  refine within_ite (fun _ => Prog.Within.pure _) fun _ => ?_
  exact Prog.Within.bind hholder fun holder => Prog.Within.bind (hjob holder) fun job =>
    hdefer holder job

theorem storageDelete (key : Text) : (storageDelete key).Within S :=
  Prog.Within.tryCatch (Prog.Within.write (hS.storage _ fun _ => rfl)) fun _ => Prog.Within.pure ()

theorem createRasterFeature (r : Raster) : (createRasterFeature r).Within S := by
  cases r with
  | error e => exact Prog.Within.throw _
  | ok r => exact within_execute (hS.insert r)

theorem rasterMembers (ms : List Raster) (n : RasterCount) :
    (rasterMembers cfg j ms n).Within S := by
  induction ms generalizing n with
  | nil => exact Prog.Within.pure _
  | cons r rest ih =>
    refine Prog.Within.bind (within_attempt (Prog.Within.bind hS.raiseIfCancelled
      fun _ => hS.createRasterFeature r)) fun raised => ?_
    cases raised with
    | error e => exact Prog.Within.pure _
    | ok _ => exact ih _

theorem rasterEntries (ents : List RasterEntry) (n : RasterCount) :
    (rasterEntries cfg j ents n).Within S := by
  have hprog : ∀ n, (rasterProgress cfg j n >>= fun _ => pure n : Work RasterCount).Within S :=
    fun n => Prog.Within.bind (hS.updateJob _ _) fun _ => Prog.Within.pure _
  induction ents generalizing n with
  | nil => exact Prog.Within.pure _
  | cons ent rest ih =>
    refine Prog.Within.bind hS.raiseIfCancelled fun _ => Prog.Within.bind ?_ fun n => ih n
    cases ent with
    | skipped error => exact Prog.Within.pure _
    | unknownKind kind => exact hprog _
    | geotiff r =>
      exact Prog.Within.bind (within_attempt (hS.createRasterFeature r)) fun _ => hprog _
    | zip members => exact Prog.Within.bind (hS.rasterMembers members n) fun n => hprog n

theorem runRasterBatch (key : Text) : (runRasterBatchJob cfg files j key).Within S := by
  have harchive : (readArchive files key).Within S := by
    refine Prog.Within.bind (Prog.Within.read _ (hS.storage id fun _ => rfl)) fun there => ?_
    refine within_ite (fun _ => Prog.Within.throw _) fun _ => ?_
    cases files.archive key with
    | ok ents => exact Prog.Within.pure _
    | error e => exact Prog.Within.throw _
  refine Prog.Within.bind harchive fun ents => Prog.Within.bind (hS.updateJob _ _) fun _ => ?_
  refine Prog.Within.bind (within_attempt (Prog.Within.bind (hS.quietly (quietly_query _))
    fun _ => hS.rasterEntries ents _)) fun r => ?_
  split
  · refine Prog.Within.bind (hS.updateJob _ _) fun _ => ?_
    exact within_ite (fun _ => hS.quietly (Prog.Within.write (quiet_db Hushed.refl)))
      fun _ => Prog.Within.pure ()
  · exact Prog.Within.bind (hS.quietly quietly_getJob) fun _ => hS.updateJob _ _
  · exact Prog.Within.throw _

theorem startImport {payload : BulkJobPayload}
    (hm : ∀ mode, payload.mode = .plain mode → M payload.jobId mode) :
    (startImport H cfg files payload).Within S := by
  have himport : (runVectorImport H cfg files payload).Within S := by
    unfold runVectorImport
    split
    · exact Prog.Within.pure _
    · exact Prog.Within.pure _
    · rename_i mode hmode
      exact hS.runBulkCopyImport (hS.onProgress payload) (hm mode hmode) _
  refine Prog.Within.bind (hS.updateJobRetry _ _) fun _ => ?_
  split
  · exact Prog.Within.bind (hS.updateJobRetry _ _) fun _ => himport
  · exact himport

theorem recordImport {payload : BulkJobPayload} (hm : M payload.jobId payload.mode.staged)
    (created failed : Nat) (err : Option Text) :
    (recordImport cfg payload created failed err).Within S := by
  have hdone : (completeImport cfg payload created failed).Within S :=
    Prog.Within.bind (hS.updateJob _ _) fun _ => hS.quietly (quietly_queueTileBuild _)
  cases err with
  | none => exact hdone
  | some err =>
    refine within_ite (fun _ => within_ite (fun _ => ?_) fun _ => ?_) fun _ =>
      within_ite (fun _ => hS.updateJob _ _) fun _ =>
      within_ite (fun _ => hdone) fun _ => hS.updateJob _ _
    · exact Prog.Within.bind (hS.dropQuietly _) fun _ => hS.updateJobRetry _ _
    · exact Prog.Within.bind (hS.enqueue _ _ hm) fun _ => hS.updateJobRetry _ _

theorem closeImport (payload : BulkJobPayload) : (closeImport cfg payload).Within S := by
  refine Prog.Within.bind (hS.release _ _) fun _ => ?_
  refine Prog.Within.bind (Prog.Within.tryCatch (Prog.Within.bind (hS.quietly quietly_getJob)
    fun _ => Prog.Within.pure _) fun _ => Prog.Within.pure _) fun queued => ?_
  refine Prog.Within.bind (hS.storageDelete _) fun _ => ?_
  exact within_ite (fun _ => hS.quietly quietly_unregister) fun _ => Prog.Within.pure ()

theorem importWithMutex {payload : BulkJobPayload}
    (hm : ∀ mode, payload.mode = .plain mode → M payload.jobId mode)
    (hstaged : M payload.jobId payload.mode.staged) :
    (importWithMutex H cfg files payload).Within S := by
  have hphase : (importPhase H cfg files payload).Within S := by
    refine Prog.Within.bind (hS.quietly quietly_getJob) fun job => ?_
    refine within_ite (fun _ => Prog.Within.pure _) fun _ => ?_
    exact Prog.Within.bind (within_attempt (hS.startImport hm)) fun _ => Prog.Within.pure _
  refine Prog.Within.bind (within_tryFinally hphase
    (Prog.Within.write (hS.lock .finish _ _ id fun _ => rfl))) fun phase => ?_
  cases phase with
  | none =>
    exact Prog.Within.bind (hS.release _ _) fun _ => Prog.Within.bind (hS.storageDelete _)
      fun _ => hS.quietly quietly_unregister
  | some r =>
    refine within_tryFinally (Prog.Within.tryCatch ?_ fun e => ?_) (hS.closeImport payload)
    · cases r with
      | error e => exact Prog.Within.throw e
      | ok r =>
        refine Prog.Within.bind (hS.quietly quietly_getJob) fun job => ?_
        exact within_ite (fun _ => Prog.Within.pure ()) fun _ => hS.recordImport hstaged _ _ _
    · cases e with
      | _ => exact hS.updateJob _ _

theorem processBulkJob {payload : BulkJobPayload}
    (hm : ∀ mode, payload.mode = .plain mode → M payload.jobId mode)
    (hstaged : M payload.jobId payload.mode.staged) :
    (processBulkJob H cfg files payload).Within S := by
  refine Prog.Within.bind (within_ite (fun _ => Prog.Within.throw _) fun _ => Prog.Within.pure ())
    fun _ => within_ite (fun _ => ?_) fun _ => ?_
  · refine within_tryFinally (Prog.Within.tryCatch (hS.runRasterBatch _) fun _ =>
      hS.updateJob _ _) ?_
    exact Prog.Within.bind (hS.storageDelete _) fun _ => hS.quietly quietly_unregister
  · refine Prog.Within.bind (hS.deferBulkJob payload) fun deferred => ?_
    exact within_ite (fun _ => Prog.Within.pure ()) fun _ => hS.importWithMutex hm hstaged

/-! ## The reconcile pass, once the mode is known -/

theorem completeSwapped (job : JobInfo) (rows : Nat) (note : Text) :
    (completeSwappedJob cfg job rows note).Within S :=
  Prog.Within.bind ((hS.covers job.jobId []).afterPromote _) fun _ =>
    Prog.Within.bind (hS.updateJob _ _) fun _ => hS.quietly quietly_closeFinalize

theorem reconcileGone (job : JobInfo) : (reconcileGone cfg job).Within S := by
  refine Prog.Within.bind (hS.quietly (quietly_query _)) fun live => ?_
  cases live with
  | none => exact Prog.Within.pure ()
  | some n =>
    refine within_ite (fun _ => ?_) fun _ => Prog.Within.pure ()
    exact Prog.Within.bind (Prog.Within.tryCatch (hS.quietly (quietly_queryOr _)) fun _ =>
      Prog.Within.pure _) fun _ => hS.completeSwapped _ _ _

theorem reconcileEmpty (job : JobInfo) : (reconcileEmpty cfg job).Within S := by
  refine Prog.Within.bind (hS.quietly (quietly_loadStillInProgress job)) fun loading => ?_
  refine within_ite (fun _ => Prog.Within.pure ()) fun _ => ?_
  refine Prog.Within.bind (hS.quietly (quietly_query _)) fun live => ?_
  have hrest : ∀ count : Nat, (if count ≠ 0 then
      completeSwappedJob cfg job count "live partition already has data (staging dropped)".toList
    else do
      tryCatch (dropStagingTable job.jobId) fun _ => pure ()
      Bulk.updateJob cfg job.jobId
        { status := some .failed
          message := some (if 0 < job.itemsCreated then
            ("Bulk import lost staged data before partition swap could complete. " ++
              "Please re-import this file.").toList
            else
            ("Bulk import produced no features (empty staging table). " ++
              "Check the source file and re-import.").toList)
          itemsCreated := some 0
          itemsFailed := some job.itemsFailed }
      closeFinalize cfg job.jobId : Work Unit).Within S := by
    intro count
    refine within_ite (fun _ => hS.completeSwapped _ _ _) fun _ => ?_
    exact Prog.Within.bind (hS.dropQuietly _) fun _ => Prog.Within.bind (hS.updateJob _ _) fun _ =>
      hS.quietly quietly_closeFinalize
  cases live with
  | none => exact hrest 0
  | some n =>
    refine within_ite (fun _ => hrest 0) fun _ => ?_
    exact Prog.Within.bind (Prog.Within.tryCatch (hS.quietly (quietly_queryOr _)) fun _ =>
      Prog.Within.pure _) fun _ => hrest _

theorem abandonDuplicate (job : JobInfo) (staged : Nat) (reason : Text) :
    (abandonDuplicateJob H cfg job staged reason).Within S :=
  (hS.covers job.jobId job.collectionId).abandon _ _ _

theorem orAbandon {job : JobInfo} {staged : Nat} {p next : Work Unit} (hp : p.Within S)
    (hnext : next.Within S) : (orAbandon H cfg job staged p next).Within S := by
  refine Prog.Within.bind (within_catchDuplicate (Prog.Within.bind hp fun _ => Prog.Within.pure _)
    fun _ => Prog.Within.pure _) fun dup => ?_
  cases dup with
  | some msg => exact hS.abandonDuplicate job staged msg
  | none => exact hnext

theorem reconcilePromote {job : JobInfo} {mode : Mode} (hm : M job.jobId mode)
    (message : Nat → Text) : (reconcilePromote H cfg job mode message).Within S := by
  refine Prog.Within.bind ((hS.covers job.jobId job.collectionId).promote mode hm) fun _ => ?_
  refine Prog.Within.bind ((hS.covers job.jobId []).afterPromote _) fun _ => ?_
  exact Prog.Within.bind (hS.updateJob _ _) fun _ => hS.quietly quietly_closeFinalize

theorem reconcileRequeue {job : JobInfo} {mode : Mode} (hm : M job.jobId mode) (staged : Nat)
    (err : Text) : (reconcileRequeue cfg job staged mode err).Within S := by
  refine Prog.Within.bind (hS.quietly quietly_isFinalizePending) fun pending => ?_
  split
  · exact hS.updateJob _ _
  · exact Prog.Within.bind (hS.enqueue _ _ hm) fun _ => hS.updateJob _ _

theorem reconcileStaged {job : JobInfo} {mode : Mode} (hm : M job.jobId mode) (staged : Nat) :
    (reconcileStaged H cfg job staged mode).Within S := by
  refine Prog.Within.tryCatch (hS.reconcilePromote hm _) fun e => ?_
  split
  · exact hS.abandonDuplicate job staged _
  · refine within_ite (fun _ => hS.orAbandon ?_ (Prog.Within.pure ())) fun _ =>
      hS.reconcileRequeue hm staged _
    exact Prog.Within.bind (hS.quietly quietly_prepareStagingForPromote) fun _ =>
      hS.reconcilePromote hm _

/-! ## The watchdog, but for the jobs it recovers -/

theorem scanMutexKeys : (scanMutexKeys cfg).Within S :=
  Prog.Within.tryCatch (Prog.Within.retry (hS.quietly (quietly_redisRead _)) _) fun _ =>
    Prog.Within.pure _

theorem failStalePendingHolder (c : CollectionId) : (failStalePendingHolder cfg c).Within S := by
  refine Prog.Within.bind (hS.quietly quietly_getHolder) fun holder => ?_
  cases holder with
  | none => exact Prog.Within.pure ()
  | some holder =>
    refine Prog.Within.bind (hS.quietly quietly_getJob) fun job => ?_
    cases job with
    | none => exact Prog.Within.pure ()
    | some job =>
      refine within_ite (fun _ => Prog.Within.pure ()) fun _ => ?_
      refine Prog.Within.bind (hS.quietly (quietly_redisRead _)) fun now => ?_
      refine within_ite (fun _ => Prog.Within.pure ()) fun _ => ?_
      exact Prog.Within.bind (hS.release c holder) fun _ =>
        Prog.Within.tryCatch (hS.updateJob _ _) fun _ => Prog.Within.pure ()

theorem failStalePendingHolders : (failStalePendingMutexHolders cfg).Within S := by
  refine within_ite (fun _ => Prog.Within.pure ()) fun _ => ?_
  refine Prog.Within.bind hS.scanMutexKeys fun keys => Prog.Within.forEach fun c _ => ?_
  exact within_ite (fun _ => Prog.Within.pure ()) fun _ => hS.failStalePendingHolder c

theorem failStaleFinalizing : (failStaleFinalizingJobs cfg).Within S := by
  refine within_ite (fun _ => Prog.Within.pure ()) fun _ => ?_
  refine Prog.Within.bind (hS.quietly (quietly_redisRead _)) fun now => ?_
  refine Prog.Within.bind (hS.quietly (quietly_listAllJobs 500)) fun jobs => ?_
  refine Prog.Within.forEach fun job _ => within_ite (fun _ => Prog.Within.pure ()) fun _ => ?_
  exact within_ite (fun _ => Prog.Within.pure ()) fun _ =>
    Prog.Within.tryCatch (hS.updateJob _ _) fun _ => Prog.Within.pure ()

theorem cleanupOrphans (ids : List JobId) : (cleanupOrphanStagingTables ids).Within S := by
  refine Prog.Within.bind (hS.quietly (quietly_query _)) fun names => ?_
  refine Prog.Within.forEach fun n _ => ?_
  exact within_ite (fun _ => Prog.Within.pure ()) fun _ => within_execute (hS.prune n)

theorem reclaimEnded (c : CollectionId) (holder : Option JobId) :
    (match holder with
      | none => pure ()
      | some holder => do
        let job ← getJob cfg holder
        let ended : Bool := match job with
          | none => true
          | some job => job.status.terminal || job.finishedAt.isSome
        if ended then reclaimStaleCollectionBulkMutex cfg c : Work Unit).Within S := by
  cases holder with
  | none => exact Prog.Within.pure ()
  | some holder =>
    refine Prog.Within.bind (hS.quietly quietly_getJob) fun job => ?_
    exact within_ite (fun _ => hS.reclaim c) fun _ => Prog.Within.pure ()

end Serves

/-! ## Where a recovery path looks at a job -/

/-- The stored state that a recovery path is given. -/
def Sys.stateOf (s : Sys) (cfg : Settings) (j : JobId) : Option FinalizeState :=
  if cfg.bulkQueueRedis then s.finalizeState.lookup j else none

/-- The mode that a job without a stored one is taken to have. -/
def modeRead (job : JobInfo) : Mode := if readsReplace job then .replace else .append

/-- The rows that a job has staged. -/
def Sys.stagedRows (s : Sys) (j : JobId) : Nat := rowCount s.catalog (stagingTableName j)

/-- What is known where a recovery path looks at the staged rows, or at the stored mode, of a
job. -/
structure Recovers (A : Assume Label Sys Exn) (K : Guarantee Label Sys) (cfg : Settings)
    (M : JobId → Mode → Prop) : Prop where
  must : ∀ path job s, K.inv s → A.may (.recover path job) s → K.must (.recover path job) s
  reconcile : ∀ job s, K.inv s → A.may (.recover .reconcile job) s → s.stagedRows job.jobId ≠ 0 →
    readsReplace job = true → M job.jobId .replace
  stored : ∀ job s, K.inv s → A.may (.recover .stored job) s → readsReplace job = false →
    M job.jobId (((s.stateOf cfg job.jobId).bind FinalizeState.mode).getD .append)
  watchdog : ∀ job s, K.inv s → A.may (.recover .watchdog job) s → s.stagedRows job.jobId ≠ 0 →
    M job.jobId (modeRead job)
  orphan : ∀ job s, K.inv s → A.may (.recover .orphanStored job) s →
    M job.jobId (((s.stateOf cfg job.jobId).bind FinalizeState.mode).getD (modeRead job))

section
variable {A : Assume Label Sys Exn} {K : Guarantee Label Sys} {cfg : Settings}
  {M : JobId → Mode → Prop} {α : Type} (hR : Recovers A K cfg M)
include hR

/-- A read of a recovery path, with what is known of the state it reads. -/
theorem Recovers.read {path : Path} {job : JobInfo} (f : Sys → α) {V : α → Prop}
    (hV : ∀ s, K.inv s → A.may (.recover path job) s → V (f s)) :
    Gives A K V (Prog.read (.recover path job) f) :=
  Triple.read _ f stable_true
    (fun s hs _ hmay => ⟨hR.must path job s hs hmay, by rintro a ⟨⟩; exact hV s hs hmay⟩)
    (by rintro b e s - - - a ⟨⟩)

theorem Recovers.stateAt {path : Path} {job : JobInfo} {V : Option FinalizeState → Prop}
    (hV : ∀ s, K.inv s → A.may (.recover path job) s → V (s.stateOf cfg job.jobId)) :
    Gives A K V (getFinalizeStateAt cfg path job) := by
  unfold getFinalizeStateAt
  split
  · rename_i hredis
    refine hR.read _ fun s hs hmay => ?_
    have := hV s hs hmay
    unfold Sys.stateOf at this
    simpa [show cfg.bulkQueueRedis = false by simpa using hredis] using this
  · rename_i hredis
    refine Gives.retry (hR.read _ fun s hs hmay => ?_) _
    have := hV s hs hmay
    unfold Sys.stateOf at this
    simpa [show cfg.bulkQueueRedis = true by simpa using hredis] using this

/-- `_infer_import_mode` gives a mode that is allowed. -/
theorem Recovers.inferImportMode {job : JobInfo}
    (hrep : readsReplace job = true → M job.jobId .replace) :
    Gives A K (M job.jobId) (inferImportMode cfg job) := by
  unfold Bulk.inferImportMode
  split
  · rename_i h
    exact Gives.pure (hrep h)
  · rename_i h
    have hstored : Gives A K (fun state : Option FinalizeState =>
        M job.jobId ((state.bind FinalizeState.mode).getD .append))
        (getFinalizeStateAt cfg .stored job) :=
      hR.stateAt fun s hs hmay => hR.stored job s hs hmay (by simpa using h)
    exact Gives.bind hstored fun _ hm => Gives.pure hm

end

section
variable {S : Label → (Sys → Sys) → Prop} {A : Assume Label Sys Exn} {K : Guarantee Label Sys}
  {H : Digest} {cfg : Settings} {M : JobId → Mode → Prop} {α : Type}
variable (hS : Serves S H cfg M) (hR : Recovers A K cfg M)
  (hK : ∀ l g, S l g → ∀ s, K.inv s → A.may l s → K.must l s ∧ K.inv (g s) ∧ K.rel s (g s))
include hS hR hK

theorem keeps_reconcilePending {job : JobInfo}
    (hrep : readsReplace job = true → M job.jobId .replace) (staged : Nat) :
    Keeps A K (reconcilePending H cfg job staged) := by
  refine Triple.bindValue (hR.inferImportMode hrep) fun mode hm => ?_
  refine Prog.Within.keeps ?_ hK
  have hprep : (do let _ ← prepareStagingForPromote job.jobId : Work Unit).Within S :=
    Prog.Within.bind (hS.quietly quietly_prepareStagingForPromote) fun _ => Prog.Within.pure ()
  refine Prog.Within.bind (hS.quietly (quietly_shouldAbandon job)) fun abandon => ?_
  refine hS.orAbandon ?_ (hS.orAbandon hprep (hS.reconcileStaged hm staged))
  exact within_ite (fun _ => hprep) fun _ => Prog.Within.pure ()

theorem keeps_reconcileOneJob (job : JobInfo) : Keeps A K (reconcileOneJob H cfg job) := by
  refine Keeps.bind (Prog.Within.keeps (hS.quietly (quietly_query _)) hK) fun there => ?_
  split
  · exact Prog.Within.keeps (hS.reconcileGone job) hK
  · have hstaged : Gives A K (fun n : Option Nat => ∀ k, n = some k → k ≠ 0 →
        readsReplace job = true → M job.jobId .replace)
        (tryCatch (do
          let n ← Prog.read (.recover .reconcile job) fun s =>
            rowCount s.catalog (stagingTableName job.jobId)
          pure (some n)) fun _ => pure none : Work (Option Nat)) := by
      have hread : Gives A K (fun k : Nat => k ≠ 0 → readsReplace job = true →
          M job.jobId .replace) (Prog.read (.recover .reconcile job) fun s =>
            rowCount s.catalog (stagingTableName job.jobId)) :=
        hR.read _ fun s hs hmay => hR.reconcile job s hs hmay
      refine Gives.tryCatch (Gives.bind hread fun n hn => Gives.pure ?_) fun _ => Gives.pure nofun
      rintro k ⟨⟩
      exact hn
    refine Triple.bindValue hstaged fun staged hrep => ?_
    cases staged with
    | none => exact Keeps.pure ()
    | some staged =>
      refine Keeps.bind (Prog.Within.keeps (hS.quietly (quietly_query _)) hK) fun complete => ?_
      split
      · exact Prog.Within.keeps (hS.completeSwapped _ _ _) hK
      · split
        · exact Prog.Within.keeps (hS.reconcileEmpty job) hK
        · rename_i hne
          exact keeps_reconcilePending hS hR hK (hrep staged rfl hne) staged

theorem keeps_reconcileCandidates (jobs : List JobInfo) :
    Keeps A K (reconcileCandidates H cfg jobs) := by
  refine Keeps.forEach fun job _ => ?_
  refine Keeps.bind (Prog.Within.keeps (hS.quietly (quietly_isReconcileCandidate job)) hK)
    fun candidate => ?_
  split
  · exact keeps_reconcileOneJob hS hR hK job
  · exact Keeps.pure ()

theorem keeps_reconcileAll (limit : Nat) :
    Keeps A K (reconcileAllStuckFinalizeJobs H cfg limit) := by
  have hlist : ∀ n, Keeps A K (listAllJobs n) := fun n =>
    Prog.Within.keeps (hS.quietly (quietly_listAllJobs n)) hK
  refine Keeps.bind (Prog.Within.keeps (within_execute hS.detached) hK) fun _ => ?_
  refine Keeps.bind (hlist limit) fun jobs => ?_
  refine Keeps.bind (keeps_reconcileCandidates hS hR hK jobs) fun _ => ?_
  refine Keeps.bind (hlist 5000) fun jobs => ?_
  refine Keeps.bind (Prog.Within.keeps (hS.quietly (quietly_query _)) hK) fun attached => ?_
  exact keeps_reconcileCandidates hS hR hK _

theorem keeps_recoverRunning (job : JobInfo) :
    Keeps A K (recoverRunningJobToFinalize cfg job) := by
  have hupdate : ∀ u, Keeps A K (updateJob cfg job.jobId u) := fun u =>
    Prog.Within.keeps (hS.updateJob _ u) hK
  have hstaged : Gives A K (fun n : Nat => n ≠ 0 → M job.jobId (modeRead job))
      (tryCatch (Prog.read (.recover .watchdog job) fun s =>
        rowCount s.catalog (stagingTableName job.jobId)) fun _ => pure 0 : Work Nat) :=
    Gives.tryCatch (hR.read _ fun s hs hmay => hR.watchdog job s hs hmay) fun _ =>
      Gives.pure fun h => absurd rfl h
  unfold recoverRunningJobToFinalize
  split
  · exact Keeps.pure _
  · refine Triple.bindValue hstaged fun staged hm => ?_
    split
    · exact Keeps.pure _
    · rename_i hne
      refine Keeps.bind (Prog.Within.keeps (hS.quietly quietly_isFinalizePending) hK)
        fun pending => ?_
      split
      · exact Keeps.bind (hupdate _) fun _ => Keeps.pure _
      · refine Keeps.bind (Prog.Within.keeps (hS.enqueue _ _ (hm hne)) hK) fun queued => ?_
        split
        · exact Keeps.pure _
        · refine Keeps.bind (hupdate _) fun _ => ?_
          exact Keeps.bind (Prog.Within.keeps (hS.release _ _) hK) fun _ => Keeps.pure _

theorem keeps_tryRecover (job : JobInfo) : Keeps A K (tryRecoverRunningJob cfg job) := by
  refine Keeps.bind (Prog.Within.keeps (hS.quietly (quietly_shouldAttemptRecovery job)) hK)
    fun attempt => ?_
  split
  · exact keeps_recoverRunning hS hR hK job
  · exact Keeps.pure _

theorem keeps_failStaleRunning (now : Nat) (job : JobInfo) :
    Keeps A K (failStaleRunningJob cfg now job) := by
  unfold failStaleRunningJob
  split
  · exact Keeps.pure ()
  · dsimp only
    split
    · exact Keeps.pure ()
    · refine Keeps.bind (keeps_tryRecover hS hR hK job) fun recovered => ?_
      split
      · exact Keeps.pure ()
      · refine Prog.Within.keeps (Prog.Within.bind (Prog.Within.tryCatch (Prog.Within.bind
          (hS.updateJob _ _) fun _ => Prog.Within.pure _) fun _ => Prog.Within.pure _)
          fun written => ?_) hK
        refine within_ite (fun _ => Prog.Within.pure ()) fun _ => ?_
        exact Prog.Within.bind (hS.release _ _) fun _ => hS.dropQuietly _

theorem keeps_failStaleRunningJobs : Keeps A K (failStaleRunningJobs cfg) := by
  unfold failStaleRunningJobs
  split
  · exact Keeps.pure ()
  · split
    · exact Keeps.pure ()
    · refine Keeps.bind (Prog.Within.keeps (hS.quietly (quietly_redisRead _)) hK) fun now => ?_
      refine Keeps.bind (Prog.Within.keeps (hS.quietly (quietly_listAllJobs 500)) hK) fun jobs => ?_
      refine Keeps.bind (Keeps.forEach fun job _ => keeps_failStaleRunning hS hR hK now job)
        fun _ => ?_
      exact Prog.Within.keeps (Prog.Within.tryCatch (hS.cleanupOrphans _) fun _ =>
        Prog.Within.pure ()) hK

theorem keeps_recoverStale : Keeps A K (recoverStaleRunningJobsWithStaging cfg) := by
  unfold recoverStaleRunningJobsWithStaging
  split
  · exact Keeps.pure ()
  · refine Keeps.bind (Prog.Within.keeps (hS.quietly (quietly_listAllJobs 500)) hK) fun jobs => ?_
    refine Keeps.forEach fun job _ => ?_
    split
    · exact Keeps.pure ()
    · exact Keeps.bind (keeps_tryRecover hS hR hK job) fun _ => Keeps.pure ()

theorem keeps_watchdog (fail : Option Bool) : Keeps A K (runBulkWatchdogPass cfg fail) := by
  unfold runBulkWatchdogPass
  split
  · exact Keeps.pure ()
  · refine Keeps.bind (Prog.Within.keeps hS.scanMutexKeys hK) fun keys => ?_
    refine Keeps.bind (Prog.Within.keeps (Prog.Within.forEach fun c _ => Prog.Within.bind
      (hS.quietly quietly_getHolder) fun holder => hS.reclaimEnded c holder) hK) fun _ => ?_
    refine Keeps.bind (Prog.Within.keeps hS.failStalePendingHolders hK) fun _ => ?_
    refine Keeps.bind (keeps_recoverStale hS hR hK) fun _ => ?_
    split
    · exact keeps_failStaleRunningJobs hS hR hK
    · exact Keeps.pure ()

theorem keeps_reconcileOrphan (job : JobInfo) :
    Keeps A K (reconcileOrphanFinalizeJob cfg job) := by
  have hstaged : Keeps A K (tryCatch (Prog.read (.recover .orphan job) fun s =>
      rowCount s.catalog (stagingTableName job.jobId)) fun _ => pure 0 : Work Nat) :=
    Keeps.tryCatch (Gives.keeps (hR.read _ (V := fun _ => True) fun _ _ _ => trivial))
      fun _ => Keeps.pure 0
  have hstate : Gives A K (fun state : Option FinalizeState =>
      M job.jobId ((state.bind FinalizeState.mode).getD (modeRead job)))
      (getFinalizeStateAt cfg .orphanStored job) := hR.stateAt (hR.orphan job)
  unfold reconcileOrphanFinalizeJob
  split
  · exact Keeps.pure ()
  · refine Keeps.bind (Prog.Within.keeps (hS.quietly quietly_isFinalizePending) hK)
      fun pending => ?_
    split
    · exact Keeps.pure ()
    · refine Keeps.bind hstaged fun staged => ?_
      split
      · exact Keeps.pure ()
      · refine Triple.bindValue hstate fun state hm => ?_
        dsimp only
        split
        · exact Keeps.pure ()
        · refine Keeps.bind (Prog.Within.keeps (hS.enqueue _ _ hm) hK) fun queued => ?_
          split
          · exact Prog.Within.keeps (hS.updateJob _ _) hK
          · exact Keeps.pure ()

theorem keeps_reconcileOrphans : Keeps A K (reconcileOrphanFinalizeJobs cfg) := by
  unfold reconcileOrphanFinalizeJobs
  split
  · exact Keeps.pure ()
  · refine Keeps.bind (Prog.Within.keeps (hS.quietly (quietly_listAllJobs 500)) hK) fun jobs => ?_
    exact Keeps.forEach fun job _ => keeps_reconcileOrphan hS hR hK job

end

end Bulk
end Geofastmap
