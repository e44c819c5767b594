import Geofastmap.Bulk.Session
import Geofastmap.Interleave.Logic

/-!
# Geofastmap.Bulk.Loops

The two readers of the session importer, once for all logics. `ImportRules` lists what an invariant
of the loops has to survive: a cancel check, a statement that is queued, a flush, an insert and a
commit. Then it survives both readers, and each of them leaves nothing in the buffer and nothing
pending in the session (`Drained`).
-/

namespace Geofastmap
namespace Bulk

open Db Interleave

/-- What `_queue_one_geometry` returns when its savepoints raise nothing. -/
def Geometry.enqueue (buf : List Statement) : Geometry → List Statement × Bool
  | .parts _ x => (buf ++ [x], true)
  | _ => (buf, false)

section
variable {S : Label → (Sys → Sys) → Prop} {α : Type} {cfg : Settings}

theorem within_attempt {p : Work α} (h : p.Within S) : (attempt p).Within S :=
  Prog.Within.tryCatch (Prog.Within.bind h fun _ => Prog.Within.pure _) fun _ => Prog.Within.pure _

theorem run_attempt {p : Work α} {s s' : Sys} {a : α} (h : p.run s = (.ok a, s')) :
    (attempt p).run s = (.ok (.ok a), s') := by
  unfold attempt
  rw [Prog.run_tryCatch, Prog.run_bind, h]
  rfl

theorem within_savepoint (hdb : S .db id) : (savepoint cfg).Within S := by
  unfold savepoint
  split
  · exact Prog.Within.write hdb
  · exact Prog.Within.pure ()

theorem run_savepoint (cfg : Settings) (s : Sys) : (savepoint cfg).run s = (.ok (), s) := by
  unfold savepoint
  split <;> rfl

theorem within_queueOneGeometry (hdb : S .db id) (buf : List Statement) (g : Geometry) :
    (queueOneGeometry cfg buf g).Within S := by
  have hsave : (attempt (savepoint cfg)).Within S := within_attempt (within_savepoint hdb)
  cases g with
  | tooLarge => exact Prog.Within.pure _
  | noParts n => exact Prog.Within.bind hsave fun _ => Prog.Within.pure _
  | parts n x =>
    refine Prog.Within.bind hsave fun begun => ?_
    cases begun with
    | error e => exact Prog.Within.pure _
    | ok _ =>
      refine Prog.Within.bind hsave fun released => ?_
      cases released with
      | error e => exact Prog.Within.pure _
      | ok _ => exact Prog.Within.pure _

theorem run_queueOneGeometry (buf : List Statement) (g : Geometry) (s : Sys) :
    (queueOneGeometry cfg buf g).run s = (.ok (g.enqueue buf), s) := by
  have hsave := run_attempt (run_savepoint cfg s)
  cases g with
  | tooLarge => rfl
  | noParts n => simp only [queueOneGeometry, Prog.run_bind, hsave, Prog.run_pure, Geometry.enqueue]
  | parts n x =>
    simp only [queueOneGeometry, queueStatement, Prog.run_bind, hsave, Prog.run_pure,
      Geometry.enqueue]

end

section
variable {W : Type} (L : ProgLogic Label Sys Exn W) (cfg : Settings) (c : CollectionId)
  (jobId : Option JobId) (now : Nat) (progress : Status → Nat → Work Unit)

/-- `I st fresh` is the invariant: `st` the state of the source, and `fresh` the rows queued for
the record that is being read. -/
structure ImportRules (I : Importing → List (List Row) → W → Prop) : Prop where
  raised : ∀ st fresh e w, I st fresh w → L.raised e w
  failed : ∀ st fresh n w, I st fresh w → I { st with failed := n } fresh w
  check : ∀ st fresh, L.judge (I st fresh) (raiseIfBulkCancelled cfg jobId) fun _ => I st fresh
  report : ∀ st n, L.judge (I st []) (progress .running n) fun _ => I st []
  queue : ∀ st fresh g, L.judge (I st fresh) (queueOneGeometry cfg st.buffer g)
    fun r w => r = g.enqueue st.buffer ∧ I st fresh w
  enqueue : ∀ st fresh x w, I st fresh w →
    I { st with buffer := st.buffer ++ [x] } (fresh ++ [statementRows c jobId now x]) w
  count : ∀ st fresh w, I st fresh w →
    I { st with created := st.created + 1, counted := st.counted ++ [fresh.flatten] } [] w
  flush : ∀ st, L.judge (I st []) (executeAll c jobId now st.buffer st.session)
    fun se => I { st with buffer := [], session := se } []
  insert : ∀ st x, L.judge (I st []) (attempt (sessionExecute c jobId now st.session x))
    fun r w => match r with
      | .ok se => I { st with
          created := st.created + 1
          session := se
          counted := st.counted ++ [statementRows c jobId now x] } [] w
      | .error _ => I st [] w
  commit : ∀ st, L.judge (I st []) (commitWithRetry cfg c progress st.session)
    fun se w => se = Session.fresh ∧ I { st with session := Session.fresh } [] w

end

/-- Nothing waits for a commit. -/
def Importing.Idle (st : Importing) : Prop := st.buffer = [] ∧ st.session.rows = []

/-- Between two records: nothing waits when the count is a multiple of the batch size. -/
def Importing.Drained (batchSize : Nat) (st : Importing) : Prop :=
  st.created % batchSize = 0 → st.Idle

theorem featuresPerInsert_pos (cfg : Settings) : 0 < cfg.featuresPerInsert := by
  unfold Settings.featuresPerInsert
  split
  · decide
  · omega

section
variable {W : Type} {L : ProgLogic Label Sys Exn W} {cfg : Settings} {c : CollectionId}
  {jobId : Option JobId} {now : Nat} {progress : Status → Nat → Work Unit}
  {I : Importing → List (List Row) → W → Prop}
  (h : ImportRules L cfg c jobId now progress I)
include h

theorem ImportRules.batchFull {st : Importing} {φ : Prop} (batchSize n : Nat) :
    L.judge (fun w => φ ∧ I st [] w) (batchFull batchSize n)
      fun full w => (φ ∧ if full then 0 < n ∧ n % batchSize = 0 else n = 0 ∨ n % batchSize ≠ 0) ∧
        I st [] w := by
  unfold Bulk.batchFull
  split
  · rename_i hn
    exact L.pure fun w hw => ⟨⟨hw.1, .inl hn⟩, hw.2⟩
  · rename_i hn
    split
    · exact L.throw fun w hw => h.raised st [] _ w hw.2
    · refine L.pure fun w hw => ⟨⟨hw.1, ?_⟩, hw.2⟩
      by_cases hm : n % batchSize = 0
      · simp [hm, Nat.pos_of_ne_zero hn]
      · simp [hm]

theorem ImportRules.heartbeat {st : Importing} (due : Bool) (n : Nat) :
    L.judge (I st []) (heartbeat (progress .running) due n) fun _ => I st [] := by
  unfold Bulk.heartbeat
  split
  · exact h.report st n
  · exact L.pure fun _ hw => hw

/-- The geometries of a record change the buffer only, and that only when one is queued. -/
theorem ImportRules.queueGeometries (gs : List Geometry) (st : Importing)
    (fresh : List (List Row)) :
    L.judge (I st fresh) (queueGeometries cfg c jobId now gs st fresh)
      fun r w => (r.1.created = st.created ∧ r.1.session = st.session ∧
        (r.2 = [] → r.1.buffer = st.buffer) ∧ (r.2 = [] → fresh = [])) ∧ I r.1 r.2 w := by
  induction gs generalizing st fresh with
  | nil => exact L.pure fun w hw => ⟨⟨rfl, rfl, fun _ => rfl, fun h => h⟩, hw⟩
  | cons g gs ih =>
    refine L.bind (h.check st fresh) fun _ => ?_
    refine L.bind (h.queue st fresh g) fun r => ?_
    refine L.lift ?_
    rintro rfl
    cases g with
    | tooLarge =>
      refine L.conseq (fun w hw => h.failed st fresh _ w hw) (ih _ fresh) fun r w hr => hr
    | noParts n =>
      refine L.conseq (fun w hw => h.failed st fresh _ w hw) (ih _ fresh) fun r w hr => hr
    | parts n x =>
      refine L.conseq (fun w hw => h.enqueue st fresh x w hw) (ih _ _) fun r w hr => ?_
      obtain ⟨⟨hcreated, hsession, _, hfresh⟩, hI⟩ := hr
      refine ⟨⟨hcreated, hsession, fun he => ?_, fun he => ?_⟩, hI⟩
      · exact absurd (hfresh he) (by simp)
      · exact absurd (hfresh he) (by simp)

theorem ImportRules.flushBuffer (st : Importing) :
    L.judge (I st []) (flushBuffer c jobId now st)
      fun st' w => (st'.created = st.created ∧ st'.buffer = []) ∧ I st' [] w :=
  L.bind (h.flush st) fun _ => L.pure fun _ hw => ⟨⟨rfl, rfl⟩, hw⟩

theorem ImportRules.commitBatch (soFar : Nat) (st : Importing) :
    L.judge (I st []) (commitBatch cfg c jobId progress soFar st)
      fun st' w => (st'.buffer = st.buffer ∧ st'.session.rows = []) ∧ I st' [] w := by
  refine L.bind (h.commit st) fun se => ?_
  refine L.lift ?_
  rintro rfl
  refine L.bind (h.check _ []) fun _ => ?_
  refine L.bind (h.report _ _) fun _ => ?_
  exact L.pure fun _ hw => ⟨⟨rfl, rfl⟩, hw⟩

/-- A counted feature: while none is counted nothing waits. -/
theorem ImportRules.importFeature (batchSize soFar : Nat) (st : Importing) (gs : List Geometry)
    (hd : st.Drained batchSize) :
    L.judge (I st []) (importFeature cfg c jobId progress batchSize now soFar st gs)
      fun st' w => st'.Drained batchSize ∧ I st' [] w := by
  refine L.bind (h.queueGeometries gs st []) fun r => ?_
  refine L.lift fun hr => ?_
  obtain ⟨hcreated, hsession, hbuffer, _⟩ := hr
  have hidle : (countFeature r.1 r.2).created = 0 → (countFeature r.1 r.2).Idle := by
    unfold countFeature
    split
    · rename_i he
      intro h0
      have hst := hd (by simp [← hcreated, h0])
      exact ⟨(hbuffer (List.isEmpty_iff.mp he)).trans hst.1, by rw [hsession]; exact hst.2⟩
    · intro h0
      exact absurd h0 (Nat.succ_ne_zero _)
  have hcount : L.judge (fun w => I r.1 r.2 w)
      (flushFilled cfg c jobId now (countFeature r.1 r.2))
      fun st' w => (st'.created = 0 → st'.Idle) ∧ I st' [] w := by
    have hI : ∀ w, I r.1 r.2 w → I (countFeature r.1 r.2) [] w := by
      intro w hw
      unfold countFeature
      split
      · rename_i he
        rwa [List.isEmpty_iff.mp he] at hw
      · exact h.count r.1 r.2 w hw
    unfold flushFilled
    split
    · rename_i hfull
      refine L.conseq hI (h.flushBuffer _) fun st' w hw => ⟨fun h0 => ?_, hw.2⟩
      have := (hidle (hw.1.1 ▸ h0)).1
      rw [this] at hfull
      exact absurd (featuresPerInsert_pos cfg) (Nat.not_lt.mpr hfull)
    · exact L.pure fun w hw => ⟨hidle, hI w hw⟩
  refine L.bind hcount fun st' => ?_
  refine L.bind (h.batchFull batchSize _) fun full => ?_
  refine L.lift fun hf => ?_
  obtain ⟨hzero, hfull⟩ := hf
  cases full with
  | false =>
    refine L.pure fun w hw => ⟨fun hm => ?_, hw⟩
    rcases hfull with h0 | hne
    · exact hzero h0
    · exact absurd hm hne
  | true =>
    refine L.bind (h.flushBuffer st') fun flushed => ?_
    refine L.lift fun hflushed => ?_
    exact L.conseq (fun _ hw => hw) (h.commitBatch soFar flushed)
      fun _ _ hw => ⟨fun _ => ⟨hw.1.1.trans hflushed.2, hw.1.2⟩, hw.2⟩

theorem ImportRules.importLine (batchSize soFar : Nat) (st : Importing) (line : Line)
    (hd : st.Drained batchSize) :
    L.judge (I st []) (importLine cfg c jobId progress batchSize now soFar st line)
      fun st' w => st'.Drained batchSize ∧ I st' [] w := by
  refine L.bind (h.check st []) fun _ => ?_
  refine L.bind (h.heartbeat line.beat _) fun _ => ?_
  cases line.content with
  | blank => exact L.pure fun _ hw => ⟨hd, hw⟩
  | bad => exact L.pure fun w hw => ⟨hd, h.failed st [] _ w hw⟩
  | feature gs => exact h.importFeature batchSize soFar st gs hd

theorem ImportRules.importLines (batchSize soFar : Nat) (lines : List Line) (st : Importing)
    (hd : st.Drained batchSize) :
    L.judge (I st []) (importLines cfg c jobId progress batchSize now soFar lines st)
      fun st' w => st'.Drained batchSize ∧ I st' [] w := by
  induction lines generalizing st with
  | nil => exact L.pure fun _ hw => ⟨hd, hw⟩
  | cons line lines ih =>
    refine L.bind (h.importLine batchSize soFar st line hd) fun st' => ?_
    exact L.lift fun hd' => ih st' hd'

/-- The last commit of a source. -/
theorem ImportRules.commitRest (batchSize : Nat) (after : Work Unit)
    (hafter : ∀ st, L.judge (I st []) after fun _ => I st []) (st : Importing)
    (hd : st.Drained batchSize) (hb : st.buffer = []) :
    L.judge (I st []) (commitRest cfg c progress batchSize after st)
      fun st' w => st'.Idle ∧ I st' [] w := by
  refine L.bind (L.conseq (fun _ hw => ⟨trivial, hw⟩) (h.batchFull batchSize _)
    fun _ _ hw => hw) fun full => ?_
  refine L.lift fun hf => ?_
  obtain ⟨_, hfull⟩ := hf
  split
  · refine L.bind (h.commit st) fun se => ?_
    refine L.lift ?_
    rintro rfl
    refine L.bind (hafter _) fun _ => ?_
    exact L.pure fun _ hw => ⟨⟨hb, rfl⟩, hw⟩
  · rename_i hrest
    refine L.pure fun _ hw => ⟨hd ?_, hw⟩
    cases full with
    | true => exact hfull.2
    | false =>
      have h0 : st.created = 0 := by
        by_contra hne
        exact hrest ⟨Nat.pos_of_ne_zero hne, rfl⟩
      simp [h0]

theorem ImportRules.raiseReader (st : Importing) (e : Option (Text × Text)) :
    L.judge (I st []) (raiseReader e) fun _ => I st [] := by
  cases e with
  | none => exact L.pure fun _ hw => hw
  | some e => exact L.throw fun w hw => h.raised st [] _ w hw

/-- A flush after the last record: what it finds is counted. -/
theorem ImportRules.flushRest (batchSize : Nat) (st : Importing) (hd : st.Drained batchSize) :
    L.judge (I st []) (Bulk.flushBuffer c jobId now st)
      fun st' w => (st'.Drained batchSize ∧ st'.buffer = []) ∧ I st' [] w := by
  by_cases hm : st.created % batchSize = 0
  · have hb := (hd hm).1
    have hst : { st with buffer := [] } = st := by rw [← hb]
    have hflush : Bulk.flushBuffer c jobId now st = pure st := by
      unfold Bulk.flushBuffer
      rw [hb]
      exact congrArg (fun st => (pure st : Work Importing)) hst
    rw [hflush]
    exact L.pure fun _ hw => ⟨⟨hd, hb⟩, hw⟩
  · exact L.conseq (fun _ hw => hw) (h.flushBuffer st) fun st' w hw =>
      ⟨⟨fun hm' => absurd (hw.1.1 ▸ hm') hm, hw.1.2⟩, hw.2⟩

theorem ImportRules.importGeojsonlSource (batchSize soFar : Nat) (se : Session) (src : SourceFile)
    (hse : se.rows = []) :
    L.judge (I ⟨0, 0, [], se, []⟩ [])
      (importGeojsonlSource cfg c jobId progress batchSize now soFar se src)
      fun st w => st.Idle ∧ I st [] w := by
  refine L.bind (h.importLines batchSize soFar src.lines _ fun _ => ⟨rfl, hse⟩) fun st => ?_
  refine L.lift fun hd => ?_
  refine L.bind (h.raiseReader st _) fun _ => ?_
  refine L.bind (h.flushRest batchSize st hd) fun st' => ?_
  refine L.lift fun hd' => ?_
  exact h.commitRest batchSize (pure ()) (fun _ => L.pure fun _ hw => hw) st' hd'.1 hd'.2

/-! ## `fiona` -/

/-- A geometry: while none is counted the session is as it was. -/
theorem ImportRules.importGeometry (st : Importing) (g : Geometry) (hd : st.created = 0 → st.Idle)
    (hb : st.buffer = []) :
    L.judge (I st []) (importGeometry c jobId now st g)
      fun st' w => ((st'.created = 0 → st'.Idle) ∧ st'.buffer = []) ∧ I st' [] w := by
  cases g with
  | tooLarge => exact L.pure fun w hw => ⟨⟨hd, hb⟩, h.failed st [] _ w hw⟩
  | noParts n => exact L.pure fun w hw => ⟨⟨hd, hb⟩, h.failed st [] _ w hw⟩
  | parts n x =>
    refine L.conseq (fun w hw => h.failed st [] (st.failed + n) w hw)
      (L.bind (h.insert { st with failed := st.failed + n } x) fun r => ?_) fun _ _ hw => hw
    cases r with
    | ok se => exact L.pure fun _ hw => ⟨⟨fun h0 => absurd h0 (Nat.succ_ne_zero _), hb⟩, hw⟩
    | error e =>
      dsimp only
      split
      · exact L.throw fun w hw => h.raised _ [] _ w hw
      · exact L.pure fun w hw => ⟨⟨hd, hb⟩,
          h.failed { st with failed := st.failed + n } [] _ w hw⟩

theorem ImportRules.importGeometries (gs : List Geometry) (st : Importing)
    (hd : st.created = 0 → st.Idle) (hb : st.buffer = []) :
    L.judge (I st []) (importGeometries cfg c jobId now gs st)
      fun st' w => ((st'.created = 0 → st'.Idle) ∧ st'.buffer = []) ∧ I st' [] w := by
  induction gs generalizing st with
  | nil => exact L.pure fun _ hw => ⟨⟨hd, hb⟩, hw⟩
  | cons g gs ih =>
    refine L.bind (h.check st []) fun _ => ?_
    refine L.bind (h.importGeometry st g hd hb) fun st' => ?_
    exact L.lift fun hst => ih st' hst.1 hst.2

theorem ImportRules.importRecord (batchSize soFar : Nat) (st : Importing) (rec : FionaRecord)
    (hd : st.Drained batchSize) (hb : st.buffer = []) :
    L.judge (I st []) (importRecord cfg c jobId progress batchSize now soFar st rec)
      fun st' w => (st'.Drained batchSize ∧ st'.buffer = []) ∧ I st' [] w := by
  refine L.bind (h.check st []) fun _ => ?_
  refine L.bind (h.heartbeat rec.beat _) fun _ => ?_
  split
  · exact L.pure fun w hw => ⟨⟨hd, hb⟩, h.failed st [] _ w hw⟩
  · refine L.bind (h.importGeometries rec.geometries st (fun h0 => hd (by simp [h0])) hb)
      fun st' => ?_
    refine L.bind (h.batchFull batchSize _) fun full => ?_
    refine L.lift fun hf => ?_
    obtain ⟨⟨hzero, hbuf⟩, hfull⟩ := hf
    cases full with
    | false =>
      refine L.pure fun w hw => ⟨⟨fun hm => ?_, hbuf⟩, hw⟩
      rcases hfull with h0 | hne
      · exact hzero h0
      · exact absurd hm hne
    | true =>
      refine L.conseq (fun _ hw => hw) (h.commitBatch soFar st') fun _ _ hw => ⟨⟨?_, ?_⟩, hw.2⟩
      · exact fun _ => ⟨hw.1.1.trans hbuf, hw.1.2⟩
      · exact hw.1.1.trans hbuf

theorem ImportRules.importRecords (batchSize soFar : Nat) (recs : List FionaRecord)
    (st : Importing) (hd : st.Drained batchSize) (hb : st.buffer = []) :
    L.judge (I st []) (importRecords cfg c jobId progress batchSize now soFar recs st)
      fun st' w => (st'.Drained batchSize ∧ st'.buffer = []) ∧ I st' [] w := by
  induction recs generalizing st with
  | nil => exact L.pure fun _ hw => ⟨⟨hd, hb⟩, hw⟩
  | cons rec recs ih =>
    refine L.bind (h.importRecord batchSize soFar st rec hd hb) fun st' => ?_
    exact L.lift fun hst => ih st' hst.1 hst.2

theorem ImportRules.importOneSource (batchSize soFar : Nat) (se : Session) (src : SourceFile)
    (hse : se.rows = []) :
    L.judge (I ⟨0, 0, [], se, []⟩ [])
      (importOneSource cfg c jobId progress batchSize now soFar se src)
      fun st w => st.Idle ∧ I st [] w := by
  refine L.bind (h.importRecords batchSize soFar src.records _ (fun _ => ⟨rfl, hse⟩) rfl)
    fun st => ?_
  refine L.lift fun hd => ?_
  refine L.bind (h.raiseReader st _) fun _ => ?_
  exact h.commitRest batchSize _ (fun st => h.check st []) st hd.1 hd.2

/-- A source, by either reader. -/
theorem ImportRules.importSource (batchSize : Nat) (t : Totals) (src : SourceFile)
    (hse : t.session.rows = []) :
    L.judge (I ⟨0, 0, [], t.session, []⟩ [])
      (importSource cfg c jobId progress batchSize now t src)
      fun st w => st.Idle ∧ I st [] w := by
  unfold Bulk.importSource
  split
  · exact h.importGeojsonlSource batchSize _ _ src hse
  · exact h.importOneSource batchSize _ _ src hse

end

end Bulk
end Geofastmap
