import Geofastmap.Bulk.Loops
import Geofastmap.Db.Promote

/-!
# Geofastmap.Bulk.Tally

The two readers of the session importer, each run alone and undisturbed. What a reader inserts and
counts is a function of the source: `SourceFile.queued` and the sums of `LineContent.created` and
`LineContent.failed` for the lines, `SourceFile.inserted` and those of `FionaRecord` for the records
of `fiona`.

* `run_importGeojsonlSource` — the reader of lines returns if and only if the file can be read to
  its end and no statement is refused; one refused statement loses the whole file.
* `run_importOneSource`      — the reader of records returns if and only if the file can be read to
  its end.
-/

namespace Geofastmap
namespace Bulk

open Db Interleave

/-! ## What the readers make of a record -/

def Geometry.statement : Geometry → Option Statement
  | .parts _ x => some x
  | _ => none

def LineContent.statements : LineContent → List Statement
  | .feature gs => gs.filterMap Geometry.statement
  | _ => []

/-- `feature_ok`. -/
def LineContent.created (l : LineContent) : Nat := if l.statements.isEmpty then 0 else 1

def LineContent.failed : LineContent → Nat
  | .blank => 0
  | .bad => 1
  | .feature gs => gs.countP fun g => g.statement.isNone

def SourceFile.queued (src : SourceFile) : List Statement :=
  src.lines.flatMap fun l => l.content.statements

/-- The feature a geometry leaves in the database. -/
def Geometry.item (g : Geometry) : Option Item := g.statement.bind Except.toOption

def Geometry.failures : Geometry → Nat
  | .tooLarge => 1
  | .noParts oversize => oversize
  | .parts oversize (.ok _) => oversize
  | .parts oversize (.error _) => oversize + 1

def FionaRecord.items (rec : FionaRecord) : List Item := rec.geometries.filterMap Geometry.item

def FionaRecord.failed (rec : FionaRecord) : Nat :=
  if rec.geometries.isEmpty then 1 else (rec.geometries.map Geometry.failures).sum

def SourceFile.inserted (src : SourceFile) : List Item := src.records.flatMap FionaRecord.items

/-! ## The rows sent to the database -/

/-- The rows can be inserted. -/
def Fits (k : Catalog) (rows : List Row) : Prop := ∃ k', k.insertFeatures rows = .ok k'

/-- The rows sent since `k₀`: those committed, and after them those pending. -/
def Sent (k₀ : Catalog) (sent pending : List Row) (k : Catalog) : Prop :=
  ∃ done, done ++ pending = sent ∧ k₀.insertFeatures done = .ok k

theorem insertFeatures_append {k k₁ : Catalog} {xs : List Row} (h : k.insertFeatures xs = .ok k₁)
    (ys : List Row) : k.insertFeatures (xs ++ ys) = k₁.insertFeatures ys := by
  unfold Catalog.insertFeatures at *
  rw [List.foldlM_append, h]
  rfl

section
variable {k₀ k k' : Catalog} {sent pending rows : List Row}

theorem Fits.left (h : Fits k (sent ++ rows)) : Fits k sent := by
  obtain ⟨k', hk⟩ := h
  unfold Catalog.insertFeatures at hk
  rw [List.foldlM_append] at hk
  obtain ⟨k₁, h₁, _⟩ := Catalog.bind_eq_ok.mp hk
  exact ⟨k₁, h₁⟩

theorem Sent.start (k : Catalog) : Sent k [] [] k := ⟨[], rfl, rfl⟩

theorem Sent.add (h : Sent k₀ sent pending k) : Sent k₀ (sent ++ rows) (pending ++ rows) k := by
  obtain ⟨done, rfl, hk⟩ := h
  exact ⟨done, by simp, hk⟩

theorem Sent.fits (h : Sent k₀ sent pending k) (hfit : Fits k₀ (sent ++ rows)) :
    Fits k (pending ++ rows) := by
  obtain ⟨done, rfl, hk⟩ := h
  obtain ⟨k', hk'⟩ := hfit
  rw [List.append_assoc, insertFeatures_append hk] at hk'
  exact ⟨k', hk'⟩

theorem Sent.commit (h : Sent k₀ sent pending k) (hk : k.insertFeatures pending = .ok k') :
    Sent k₀ sent [] k' := by
  obtain ⟨done, rfl, hdone⟩ := h
  exact ⟨done ++ pending, by simp, by rw [insertFeatures_append hdone, hk]⟩

/-- With nothing pending, all that was sent is there. -/
theorem Sent.all (h : Sent k₀ sent [] k) : k₀.insertFeatures sent = .ok k := by
  obtain ⟨done, rfl, hk⟩ := h
  simpa using hk

end

/-! ## Undisturbed runs -/

/-- In the states with `C` the job is not cancelled, a report of progress returns and leaves the
tables, and neither a report nor a commit leads out of them. -/
structure Undisturbed (cfg : Settings) (jobId : Option JobId) (progress : Status → Nat → Work Unit)
    (C : Sys → Prop) : Prop where
  check : ∀ s, C s → (raiseIfBulkCancelled cfg jobId).run s = (.ok (), s)
  report : ∀ st n s, C s →
    ∃ s', (progress st n).run s = (.ok (), s') ∧ s'.catalog = s.catalog ∧ C s'
  tables : ∀ s k cols rows, C s →
    C { s with catalog := k, collections := cols, committed := rows }

/-- Without a job and without a callback nothing disturbs an import. -/
theorem undisturbed_alone (cfg : Settings) :
    Undisturbed cfg none (fun _ _ => pure ()) fun _ => True where
  check _ _ := rfl
  report _ _ s _ := ⟨s, rfl, rfl, trivial⟩
  tables _ _ _ _ _ := trivial

/-- The state that the commit of a session leaves, with the tables it comes to. -/
def Sys.afterCommit (s : Sys) (c : CollectionId) (se : Session) (k : Catalog) : Sys :=
  { s with
    catalog := k
    collections := s.collections.map fun col =>
      if col.id = c then
        { col with featureCount := se.counts.foldl (fun n u => u.apply n) col.featureCount }
      else col
    committed := s.committed ++ se.rows }

section
variable {cfg : Settings} {c : CollectionId} {jobId : Option JobId} {now : Nat}
  {progress : Status → Nat → Work Unit} {C : Sys → Prop} {k₀ : Catalog} {E : Prop}

theorem run_sessionExecute {sent : List Row} {se : Session} {s : Sys} (it : Item)
    (h : Sent k₀ sent se.rows s.catalog) (hfit : Fits k₀ (sent ++ it.rows c jobId now)) :
    (sessionExecute c jobId now se (.ok it)).run s =
      (.ok { se with rows := se.rows ++ it.rows c jobId now }, s) := by
  obtain ⟨k', hk⟩ := h.fits hfit
  have hquery : (queryOr .db fun k =>
      (k.insertFeatures (se.rows ++ it.rows c jobId now)).map fun _ => ()).run s =
        (.ok (), s) := by
    simp [queryOr, transaction, Prog.run_atomic, hk, Except.map]
  simp [sessionExecute, hquery]

/-- What is pending can be committed, so that the first attempt does it. -/
theorem run_commitWithRetry (cfg : Settings) (c : CollectionId)
    (progress : Status → Nat → Work Unit) {sent : List Row} {se : Session} {s : Sys}
    (h : Sent k₀ sent se.rows s.catalog) (hfit : Fits k₀ sent) :
    ∃ k, (commitWithRetry cfg c progress se).run s = (.ok Session.fresh, s.afterCommit c se k) ∧
      Sent k₀ sent [] k := by
  obtain ⟨k, hk⟩ := h.fits (by rwa [List.append_nil])
  rw [List.append_nil] at hk
  refine ⟨k, ?_, h.commit hk⟩
  have hcommit : (sessionCommit c se).run s = (.ok (), s.afterCommit c se k) := by
    simp only [sessionCommit, Prog.run_atomic, hk]
    rfl
  have hretry : ∀ n, (commitRetry c progress n se).run s = (.ok (), s.afterCommit c se k) := by
    intro n
    cases n with
    | zero => exact hcommit
    | succ n => rw [commitRetry, Prog.run_tryCatch, hcommit]
  rw [commitWithRetry, Prog.run_bind, Prog.run_tryCatch, hretry]
  rfl

theorem run_batchFull {batchSize : Nat} (hb : 0 < batchSize) (n : Nat) (s : Sys) :
    (batchFull batchSize n).run s = (.ok (decide (0 < n ∧ n % batchSize = 0)), s) := by
  unfold batchFull
  split
  · rename_i h0
    simp [h0]
  · rename_i hn
    rw [if_neg (Nat.ne_of_gt hb)]
    simp [Nat.pos_of_ne_zero hn]
    rfl

end

/-! ## The lines -/

section
variable {cfg : Settings} {c : CollectionId} {jobId : Option JobId} {now : Nat}
  {progress : Status → Nat → Work Unit} {C : Sys → Prop} {k₀ : Catalog} {E : Prop}
  (hcalm : Undisturbed cfg jobId progress C)

/-- After the lines `ls` the counts are their sums, and of their statements a first part is in the
database and the rest in the buffer. -/
structure Reading (c : CollectionId) (jobId : Option JobId) (now : Nat) (C : Sys → Prop)
    (k₀ : Catalog) (ls : List LineContent) (st : Importing) (s : Sys) : Prop where
  calm : C s
  created : st.created = (ls.map LineContent.created).sum
  failed : st.failed = (ls.map LineContent.failed).sum
  sent : ∃ xs, xs ++ st.buffer = ls.flatMap LineContent.statements ∧
    (∀ x ∈ xs, x.isOk = true) ∧
    Sent k₀ (xs.flatMap (statementRows c jobId now)) st.session.rows s.catalog

include hcalm

theorem judge_check {P : Sys → Prop} (hP : ∀ s, P s → C s) :
    (runLogic Label Sys Exn E).judge P (raiseIfBulkCancelled cfg jobId) fun _ => P :=
  runLogic_of_run fun s hs => ⟨(), s, hcalm.check s (hP s hs), hs⟩

theorem judge_report {ls : List LineContent} {st : Importing} (status : Status) (n : Nat) :
    (runLogic Label Sys Exn E).judge (Reading c jobId now C k₀ ls st) (progress status n)
      fun _ => Reading c jobId now C k₀ ls st := by
  refine runLogic_of_run fun s hs => ?_
  obtain ⟨s', hrun, hk, hC⟩ := hcalm.report status n s hs.calm
  exact ⟨(), s', hrun, hC, hs.created, hs.failed, hk ▸ hs.sent⟩

theorem run_queueGeometries (gs : List Geometry) {s : Sys} (hs : C s) :
    ∀ (st : Importing) (fresh : List (List Row)), ∃ fresh',
      (queueGeometries cfg c jobId now gs st fresh).run s = (.ok ({ st with
        buffer := st.buffer ++ gs.filterMap Geometry.statement
        failed := st.failed + gs.countP fun g => g.statement.isNone }, fresh'), s) ∧
      fresh'.length = fresh.length + (gs.filterMap Geometry.statement).length := by
  induction gs with
  | nil => exact fun st fresh => ⟨fresh, by simp [queueGeometries], by simp⟩
  | cons g gs ih =>
    intro st fresh
    obtain ⟨fresh', hrun, hlen⟩ := ih (queued c jobId now g st fresh (g.enqueue st.buffer)).1
      (queued c jobId now g st fresh (g.enqueue st.buffer)).2
    refine ⟨fresh', ?_, ?_⟩
    · simp only [queueGeometries, Prog.run_bind, hcalm.check s hs, run_queueOneGeometry, hrun]
      cases g with
      | parts n x => simp [queued, Geometry.enqueue, Geometry.statement]
      | _ =>
        simp [queued, Geometry.enqueue, Geometry.statement, List.filterMap_cons]
        omega
    · rw [hlen]
      cases g with
      | parts n x =>
        simp [queued, Geometry.enqueue, Geometry.statement]
        omega
      | _ => simp [queued, Geometry.enqueue, Geometry.statement, List.filterMap_cons]

omit hcalm in
/-- A flush raises at a refused statement. -/
theorem judge_executeAll (xs : List Statement) (se : Session) (sent : List Row)
    (hE : ∀ x ∈ xs, x.isOk = false → E)
    (hfit : Fits k₀ (sent ++ xs.flatMap (statementRows c jobId now))) :
    (runLogic Label Sys Exn E).judge (fun s => C s ∧ Sent k₀ sent se.rows s.catalog)
      (executeAll c jobId now xs se) fun se' s => (∀ x ∈ xs, x.isOk = true) ∧ C s ∧
        Sent k₀ (sent ++ xs.flatMap (statementRows c jobId now)) se'.rows s.catalog := by
  induction xs generalizing se sent with
  | nil => exact (runLogic Label Sys Exn E).pure fun s hs => ⟨by simp, by simpa using hs⟩
  | cons x xs ih =>
    rw [List.flatMap_cons, ← List.append_assoc] at hfit ⊢
    cases x with
    | error e =>
      exact (runLogic Label Sys Exn E).bind (V := fun _ _ => False)
        ((runLogic Label Sys Exn E).throw fun _ _ => hE (.error e) (by simp) rfl)
        fun _ s hs => hs.elim
    | ok it =>
      refine (runLogic Label Sys Exn E).bind (runLogic_of_run fun s hs => ?_)
        fun se' => (runLogic Label Sys Exn E).conseq (fun _ h => h)
          (ih se' _ (fun x hx => hE x (by simp [hx])) hfit) fun _ _ h => ⟨?_, h.2⟩
      · exact ⟨_, s, run_sessionExecute it hs.2 hfit.left, hs.1, hs.2.add⟩
      · simpa [Except.isOk, Except.toBool] using h.1

section
variable {ls : List LineContent} {st : Importing} {batchSize : Nat}
  (hE : ∀ x ∈ ls.flatMap LineContent.statements, x.isOk = false → E)
  (hfit : Fits k₀ ((ls.flatMap LineContent.statements).flatMap (statementRows c jobId now)))

omit hcalm in
include hE hfit in
theorem judge_flushBuffer :
    (runLogic Label Sys Exn E).judge (Reading c jobId now C k₀ ls st) (flushBuffer c jobId now st)
      fun st' s => (st'.buffer = [] ∧ st'.created = st.created) ∧
        Reading c jobId now C k₀ ls st' s := by
  intro s hs
  obtain ⟨xs, hxs, hok, hsent⟩ := hs.sent
  have hexec := judge_executeAll (C := C) st.buffer st.session _
    (fun x hx => hE x (by rw [← hxs]; exact List.mem_append_right _ hx))
    (by rwa [← List.flatMap_append, hxs])
  refine (runLogic Label Sys Exn E).bind hexec
    (fun se => (runLogic Label Sys Exn E).pure fun s' hs' => ?_) s ⟨hs.calm, hsent⟩
  obtain ⟨hbuf, hcalm', hsent'⟩ := hs'
  refine ⟨⟨rfl, rfl⟩, hcalm', hs.created, hs.failed, _, List.append_nil _, ?_, ?_⟩
  · rw [← hxs]
    exact fun x hx => (List.mem_append.mp hx).elim (hok x) (hbuf x)
  · rwa [← hxs, List.flatMap_append]

include hfit

/-- The commit of what was flushed. -/
theorem judge_commit :
    (runLogic Label Sys Exn E).judge (fun s => st.buffer = [] ∧ Reading c jobId now C k₀ ls st s)
      (commitWithRetry cfg c progress st.session)
      fun se s => se = Session.fresh ∧
        Reading c jobId now C k₀ ls { st with session := Session.fresh } s := by
  refine runLogic_of_run fun s hs => ?_
  obtain ⟨hbuf, hs⟩ := hs
  obtain ⟨xs, hxs, hok, hsent⟩ := hs.sent
  rw [hbuf, List.append_nil] at hxs
  obtain ⟨k, hrun, hk⟩ := run_commitWithRetry cfg c progress hsent (hxs ▸ hfit)
  exact ⟨_, _, hrun, rfl, hcalm.tables _ _ _ _ hs.calm, hs.created, hs.failed, xs, by
    rw [hbuf, List.append_nil, hxs], hok, hk⟩

theorem judge_commitBatch (soFar : Nat) :
    (runLogic Label Sys Exn E).judge (fun s => st.buffer = [] ∧ Reading c jobId now C k₀ ls st s)
      (commitBatch cfg c jobId progress soFar st) fun st' s => Reading c jobId now C k₀ ls st' s := by
  refine (runLogic Label Sys Exn E).bind (judge_commit hcalm hfit) fun se => ?_
  refine (runLogic Label Sys Exn E).lift ?_
  rintro rfl
  refine (runLogic Label Sys Exn E).bind (judge_check hcalm fun _ h => h.calm) fun _ => ?_
  refine (runLogic Label Sys Exn E).bind (judge_report hcalm _ _) fun _ => ?_
  exact (runLogic Label Sys Exn E).pure fun _ h => h

end

omit hcalm in
theorem Reading.feature {ls : List LineContent} {st : Importing} {s : Sys} {gs : List Geometry}
    (h : Reading c jobId now C k₀ ls st s) {fresh : List (List Row)}
    (hfresh : fresh.length = (gs.filterMap Geometry.statement).length) :
    Reading c jobId now C k₀ (ls ++ [.feature gs]) (countFeature { st with
      buffer := st.buffer ++ gs.filterMap Geometry.statement
      failed := st.failed + gs.countP fun g => g.statement.isNone } fresh) s := by
  obtain ⟨xs, hxs, hok, hsent⟩ := h.sent
  have hempty : fresh.isEmpty = (gs.filterMap Geometry.statement).isEmpty := by
    rw [Bool.eq_iff_iff, List.isEmpty_iff, List.isEmpty_iff, ← List.length_eq_zero_iff, hfresh,
      List.length_eq_zero_iff]
  have hsent' : xs ++ (st.buffer ++ gs.filterMap Geometry.statement) =
      (ls ++ [LineContent.feature gs]).flatMap LineContent.statements := by
    rw [← List.append_assoc, hxs]
    simp [LineContent.statements]
  have hcreated : (countFeature { st with
      buffer := st.buffer ++ gs.filterMap Geometry.statement
      failed := st.failed + gs.countP fun g => g.statement.isNone } fresh).created =
        st.created + (LineContent.feature gs).created := by
    unfold countFeature LineContent.created LineContent.statements
    rw [hempty]
    split <;> rfl
  refine ⟨h.calm, ?_, ?_, xs, ?_, hok, ?_⟩
  · rw [hcreated, h.created]
    simp
  · have hfailed : ∀ st' : Importing, (countFeature st' fresh).failed = st'.failed := by
      intro st'
      unfold countFeature
      split <;> rfl
    rw [hfailed, h.failed]
    simp [LineContent.failed]
  · rw [← hsent']
    unfold countFeature
    split <;> rfl
  · unfold countFeature
    split <;> exact hsent

theorem judge_importFeature {ls : List LineContent} {batchSize : Nat} (hb : 0 < batchSize)
    (soFar : Nat) (st : Importing) (gs : List Geometry)
    (hE : ∀ x ∈ (ls ++ [LineContent.feature gs]).flatMap LineContent.statements,
      x.isOk = false → E)
    (hfit : Fits k₀ (((ls ++ [LineContent.feature gs]).flatMap LineContent.statements).flatMap
      (statementRows c jobId now))) :
    (runLogic Label Sys Exn E).judge (Reading c jobId now C k₀ ls st)
      (importFeature cfg c jobId progress batchSize now soFar st gs)
      (Reading c jobId now C k₀ (ls ++ [.feature gs])) := by
  have hqueue : (runLogic Label Sys Exn E).judge (Reading c jobId now C k₀ ls st)
      (queueGeometries cfg c jobId now gs st [])
      fun r => Reading c jobId now C k₀ (ls ++ [.feature gs]) (countFeature r.1 r.2) := by
    refine runLogic_of_run fun s hs => ?_
    obtain ⟨fresh, hrun, hlen⟩ := run_queueGeometries hcalm gs hs.calm st []
    exact ⟨_, s, hrun, hs.feature (by simpa using hlen)⟩
  refine (runLogic Label Sys Exn E).bind hqueue fun r => ?_
  have hfilled : (runLogic Label Sys Exn E).judge
      (Reading c jobId now C k₀ (ls ++ [.feature gs]) (countFeature r.1 r.2))
      (flushFilled cfg c jobId now (countFeature r.1 r.2))
      (Reading c jobId now C k₀ (ls ++ [.feature gs])) := by
    unfold flushFilled
    split
    · exact (runLogic Label Sys Exn E).conseq (fun _ h => h) (judge_flushBuffer hE hfit)
        fun _ _ h => h.2
    · exact (runLogic Label Sys Exn E).pure fun _ h => h
  refine (runLogic Label Sys Exn E).bind hfilled fun st' => ?_
  refine (runLogic Label Sys Exn E).bind (V := fun _ => Reading c jobId now C k₀ _ st')
    (runLogic_of_run fun s hs => ⟨_, s, run_batchFull hb _ s, hs⟩) fun full => ?_
  split
  · refine (runLogic Label Sys Exn E).bind (judge_flushBuffer hE hfit) fun st'' => ?_
    exact (runLogic Label Sys Exn E).conseq (fun _ h => ⟨h.1.1, h.2⟩)
      (judge_commitBatch hcalm hfit soFar) fun _ _ h => h
  · exact (runLogic Label Sys Exn E).pure fun _ h => h

theorem judge_importLine {ls : List LineContent} {batchSize : Nat} (hb : 0 < batchSize)
    (soFar : Nat) (st : Importing) (line : Line)
    (hE : ∀ x ∈ (ls ++ [line.content]).flatMap LineContent.statements, x.isOk = false → E)
    (hfit : Fits k₀ (((ls ++ [line.content]).flatMap LineContent.statements).flatMap
      (statementRows c jobId now))) :
    (runLogic Label Sys Exn E).judge (Reading c jobId now C k₀ ls st)
      (importLine cfg c jobId progress batchSize now soFar st line)
      (Reading c jobId now C k₀ (ls ++ [line.content])) := by
  refine (runLogic Label Sys Exn E).bind (judge_check hcalm fun _ h => h.calm) fun _ => ?_
  have hbeat : (runLogic Label Sys Exn E).judge (Reading c jobId now C k₀ ls st)
      (heartbeat (progress .running) line.beat (soFar + st.created))
      fun _ => Reading c jobId now C k₀ ls st := by
    unfold heartbeat
    split
    · exact judge_report hcalm _ _
    · exact (runLogic Label Sys Exn E).pure fun _ h => h
  refine (runLogic Label Sys Exn E).bind hbeat fun _ => ?_
  cases hl : line.content with
  | blank =>
    refine (runLogic Label Sys Exn E).pure fun s h => ⟨h.calm, ?_, ?_, ?_⟩
    · simpa [LineContent.created, LineContent.statements] using h.created
    · simpa [LineContent.failed] using h.failed
    · simpa [LineContent.statements] using h.sent
  | bad =>
    refine (runLogic Label Sys Exn E).pure fun s h => ⟨h.calm, ?_, ?_, ?_⟩
    · simpa [LineContent.created, LineContent.statements] using h.created
    · simpa [LineContent.failed] using h.failed
    · simpa [LineContent.statements] using h.sent
  | feature gs =>
    rw [hl] at hE hfit
    exact judge_importFeature hcalm hb soFar st gs hE hfit

theorem judge_importLines {batchSize : Nat} (hb : 0 < batchSize) (soFar : Nat) (rest : List Line)
    (ls : List LineContent) (st : Importing)
    (hE : ∀ x ∈ (ls ++ rest.map Line.content).flatMap LineContent.statements, x.isOk = false → E)
    (hfit : Fits k₀ (((ls ++ rest.map Line.content).flatMap LineContent.statements).flatMap
      (statementRows c jobId now))) :
    (runLogic Label Sys Exn E).judge (Reading c jobId now C k₀ ls st)
      (importLines cfg c jobId progress batchSize now soFar rest st)
      (Reading c jobId now C k₀ (ls ++ rest.map Line.content)) := by
  induction rest generalizing ls st with
  | nil => exact (runLogic Label Sys Exn E).pure fun _ h => by simpa using h
  | cons line rest ih =>
    rw [List.map_cons, List.append_cons] at hE hfit ⊢
    refine (runLogic Label Sys Exn E).bind (judge_importLine hcalm hb soFar st line ?_ ?_)
      fun st' => ih _ st' hE hfit
    · exact fun x hx => hE x (by rw [List.flatMap_append]; exact List.mem_append_left _ hx)
    · rw [List.flatMap_append, List.flatMap_append] at hfit
      exact hfit.left

end

/-- The loops leave nothing pending, whatever they insert. -/
theorem idleRules (cfg : Settings) (c : CollectionId) (jobId : Option JobId) (now : Nat)
    (progress : Status → Nat → Work Unit) :
    ImportRules (runLogic Label Sys Exn True) cfg c jobId now progress fun _ _ _ => True where
  raised _ _ _ _ _ := trivial
  failed _ _ _ _ _ := trivial
  check _ _ := runLogic_trivial _
  report _ _ := runLogic_trivial _
  queue st fresh g := runLogic_of_run fun s _ =>
    ⟨_, s, run_queueOneGeometry st.buffer g s, rfl, trivial⟩
  enqueue _ _ _ _ _ := trivial
  count _ _ _ _ := trivial
  flush _ := runLogic_trivial _
  insert st x := (runLogic Label Sys Exn True).conseq (fun _ h => h) (runLogic_trivial _)
    fun r s _ => by cases r <;> trivial
  commit st := (runLogic Label Sys Exn True).bind (runLogic_trivial _) fun _ =>
    (runLogic Label Sys Exn True).pure fun _ _ => ⟨rfl, trivial⟩

section
variable {cfg : Settings} {c : CollectionId} {jobId : Option JobId} {now : Nat}
  {progress : Status → Nat → Work Unit} {C : Sys → Prop}
  (hcalm : Undisturbed cfg jobId progress C) {batchSize : Nat} (hb : 0 < batchSize)
include hcalm hb

/-- Where the reader of lines raises: the file cannot be read to its end, or a statement is
refused. -/
def SourceFile.LinesRefused (src : SourceFile) : Prop :=
  src.linesError ≠ none ∨ ∃ x ∈ src.queued, x.isOk = false

theorem run_importGeojsonlSource (soFar : Nat) (se : Session) (hse : se.rows = [])
    (src : SourceFile) (k₀ : Catalog)
    (hfit : Fits k₀ (src.queued.flatMap (statementRows c jobId now))) :
    (runLogic Label Sys Exn src.LinesRefused).judge (fun s => C s ∧ s.catalog = k₀)
      (importGeojsonlSource cfg c jobId progress batchSize now soFar se src)
      fun st s => ¬src.LinesRefused ∧
        st.created = (src.lines.map fun l => l.content.created).sum ∧
        st.failed = (src.lines.map fun l => l.content.failed).sum ∧
        k₀.insertFeatures (src.queued.flatMap (statementRows c jobId now)) = .ok s.catalog := by
  have hqueued : (src.lines.map Line.content).flatMap LineContent.statements = src.queued := by
    rw [SourceFile.queued, List.flatMap_map]
  have hE : ∀ x ∈ ([] ++ src.lines.map Line.content).flatMap LineContent.statements,
      x.isOk = false → src.LinesRefused := by
    rw [List.nil_append, hqueued]
    exact fun x hx hbad => .inr ⟨x, hx, hbad⟩
  have hfit' : Fits k₀ ((([] ++ src.lines.map Line.content).flatMap
      LineContent.statements).flatMap (statementRows c jobId now)) := by
    rwa [List.nil_append, hqueued]
  have hread : (runLogic Label Sys Exn src.LinesRefused).judge (fun s => C s ∧ s.catalog = k₀)
      (importGeojsonlSource cfg c jobId progress batchSize now soFar se src)
      fun st s => (src.linesError = none ∧ st.buffer = []) ∧
        Reading c jobId now C k₀ ([] ++ src.lines.map Line.content) st s := by
    refine (runLogic Label Sys Exn _).bind ((runLogic Label Sys Exn _).conseq (fun s hs => ?_)
      (judge_importLines hcalm hb soFar src.lines [] ⟨0, 0, [], se, []⟩ hE hfit')
      fun _ _ h => h) fun st => ?_
    · exact ⟨hs.1, rfl, rfl, [], rfl, by simp, by rw [hse, hs.2]; exact Sent.start k₀⟩
    cases hl : src.linesError with
    | some e =>
      exact (runLogic Label Sys Exn _).bind (V := fun _ _ => False)
        ((runLogic Label Sys Exn _).throw fun _ _ => .inl (by simp [hl])) fun _ s hs => hs.elim
    | none =>
      refine (runLogic Label Sys Exn _).bind (V := fun _ => Reading c jobId now C k₀ _ st)
        ((runLogic Label Sys Exn _).pure fun _ h => h) fun _ => ?_
      refine (runLogic Label Sys Exn _).bind (judge_flushBuffer hE hfit') fun st' => ?_
      refine (runLogic Label Sys Exn _).bind (V := fun _ s =>
        (st'.buffer = [] ∧ st'.created = st.created) ∧ Reading c jobId now C k₀ _ st' s)
        (runLogic_of_run fun s hs => ⟨_, s, run_batchFull hb _ s, hs⟩) fun full => ?_
      split
      · refine (runLogic Label Sys Exn _).lift fun hst => ?_
        refine (runLogic Label Sys Exn _).bind ((runLogic Label Sys Exn _).conseq
          (fun _ h => ⟨hst.1, h⟩) (judge_commit hcalm hfit') fun _ _ h => h) fun se' => ?_
        refine (runLogic Label Sys Exn _).lift ?_
        rintro rfl
        exact (runLogic Label Sys Exn _).pure fun _ h => ⟨⟨rfl, hst.1⟩, h⟩
      · exact (runLogic Label Sys Exn _).pure fun _ h => ⟨⟨rfl, h.1.1⟩, h.2⟩
  refine (runLogic Label Sys Exn _).conseq (fun _ h => h) (runLogic_and hread
    ((runLogic Label Sys Exn _).conseq (fun _ _ => trivial)
      ((idleRules cfg c jobId now progress).importGeojsonlSource batchSize soFar se src hse)
      fun _ _ h => h.1)) fun st s h => ?_
  obtain ⟨⟨⟨herr, hbuf⟩, hreading⟩, hidle⟩ := h
  obtain ⟨xs, hxs, hok, hsent⟩ := hreading.sent
  rw [hbuf, List.append_nil, List.nil_append, hqueued] at hxs
  subst hxs
  rw [hidle.2] at hsent
  refine ⟨?_, by simpa [Function.comp_def] using hreading.created,
    by simpa [Function.comp_def] using hreading.failed, hsent.all⟩
  rintro (h | ⟨x, hx, hbad⟩)
  · exact h herr
  · rw [hok x hx] at hbad
    cases hbad

end

/-! ## The records of `fiona` -/

section
variable {cfg : Settings} {c : CollectionId} {jobId : Option JobId} {now : Nat}
  {progress : Status → Nat → Work Unit} {C : Sys → Prop} {k₀ : Catalog} {E : Prop}

/-- The features inserted so far are counted, and their rows are sent. -/
structure Recorded (c : CollectionId) (jobId : Option JobId) (now : Nat) (C : Sys → Prop)
    (k₀ : Catalog) (items : List Item) (failed : Nat) (st : Importing) (s : Sys) : Prop where
  calm : C s
  created : st.created = items.length
  failed : st.failed = failed
  sent : Sent k₀ (items.flatMap (Item.rows c jobId now)) st.session.rows s.catalog

theorem judge_importGeometry (items : List Item) (n : Nat) (st : Importing) (g : Geometry)
    (hfit : Fits k₀ ((items ++ g.item.toList).flatMap (Item.rows c jobId now))) :
    (runLogic Label Sys Exn E).judge (Recorded c jobId now C k₀ items n st)
      (importGeometry c jobId now st g)
      (Recorded c jobId now C k₀ (items ++ g.item.toList) (n + g.failures)) := by
  cases g with
  | tooLarge =>
    refine (runLogic Label Sys Exn E).pure fun s h => ⟨h.calm, ?_, ?_, ?_⟩
    · simpa [Geometry.item, Geometry.statement] using h.created
    · simp [Geometry.failures, h.failed]
    · simpa [Geometry.item, Geometry.statement] using h.sent
  | noParts oversize =>
    refine (runLogic Label Sys Exn E).pure fun s h => ⟨h.calm, ?_, ?_, ?_⟩
    · simpa [Geometry.item, Geometry.statement] using h.created
    · simp [Geometry.failures, h.failed]
    · simpa [Geometry.item, Geometry.statement] using h.sent
  | parts oversize x =>
    cases x with
    | error e =>
      refine runLogic_of_run fun s h => ⟨{ st with failed := st.failed + oversize + 1 }, s, ?_,
        h.calm, ?_, ?_, ?_⟩
      · simp [importGeometry, insertGeometry, attempt, sessionExecute, raiseError]
      · simpa [Geometry.item, Geometry.statement, Except.toOption] using h.created
      · simp [Geometry.failures, h.failed, Nat.add_assoc]
      · simpa [Geometry.item, Geometry.statement, Except.toOption] using h.sent
    | ok it =>
      have hitem : (Geometry.parts oversize (.ok it)).item.toList = [it] := rfl
      rw [hitem, List.flatMap_append, List.flatMap_singleton] at hfit
      refine runLogic_of_run fun s h => ⟨{ st with
        created := st.created + 1
        failed := st.failed + oversize
        session := { st.session with rows := st.session.rows ++ it.rows c jobId now }
        counted := st.counted ++ [it.rows c jobId now] }, s, ?_, h.calm, ?_, ?_, ?_⟩
      · rw [importGeometry, insertGeometry, Prog.run_bind,
          run_attempt (run_sessionExecute it h.sent hfit)]
        rfl
      · simp [hitem, h.created]
      · simp [Geometry.failures, h.failed]
      · rw [hitem, List.flatMap_append, List.flatMap_singleton]
        exact h.sent.add

variable (hcalm : Undisturbed cfg jobId progress C)
include hcalm

theorem judge_importGeometries (gs : List Geometry) (items : List Item) (n : Nat) (st : Importing)
    (hfit : Fits k₀ ((items ++ gs.filterMap Geometry.item).flatMap (Item.rows c jobId now))) :
    (runLogic Label Sys Exn E).judge (Recorded c jobId now C k₀ items n st)
      (importGeometries cfg c jobId now gs st)
      (Recorded c jobId now C k₀ (items ++ gs.filterMap Geometry.item)
        (n + (gs.map Geometry.failures).sum)) := by
  induction gs generalizing items n st with
  | nil => exact (runLogic Label Sys Exn E).pure fun _ h => by simpa using h
  | cons g gs ih =>
    have hitems : items ++ (g :: gs).filterMap Geometry.item =
        (items ++ g.item.toList) ++ gs.filterMap Geometry.item := by
      cases hg : g.item <;> simp [hg]
    rw [hitems] at hfit ⊢
    have hfirst : Fits k₀ ((items ++ g.item.toList).flatMap (Item.rows c jobId now)) := by
      rw [List.flatMap_append] at hfit
      exact hfit.left
    refine (runLogic Label Sys Exn E).bind (judge_check hcalm fun _ h => h.calm) fun _ => ?_
    refine (runLogic Label Sys Exn E).bind (judge_importGeometry items n st g hfirst)
      fun st' => ?_
    rw [List.map_cons, List.sum_cons, ← Nat.add_assoc]
    exact ih _ _ st' hfit

theorem judge_recordedReport {items : List Item} {n : Nat} {st : Importing} (status : Status)
    (m : Nat) :
    (runLogic Label Sys Exn E).judge (Recorded c jobId now C k₀ items n st) (progress status m)
      fun _ => Recorded c jobId now C k₀ items n st := by
  refine runLogic_of_run fun s hs => ?_
  obtain ⟨s', hrun, hk, hC⟩ := hcalm.report status m s hs.calm
  exact ⟨(), s', hrun, hC, hs.created, hs.failed, hk ▸ hs.sent⟩

theorem judge_recordedCommit {items : List Item} {n : Nat} {st : Importing}
    (hfit : Fits k₀ (items.flatMap (Item.rows c jobId now))) :
    (runLogic Label Sys Exn E).judge (Recorded c jobId now C k₀ items n st)
      (commitWithRetry cfg c progress st.session) fun se s => se = Session.fresh ∧
        Recorded c jobId now C k₀ items n { st with session := Session.fresh } s := by
  refine runLogic_of_run fun s hs => ?_
  obtain ⟨k, hrun, hk⟩ := run_commitWithRetry cfg c progress hs.sent hfit
  exact ⟨_, _, hrun, rfl, hcalm.tables _ _ _ _ hs.calm, hs.created, hs.failed, hk⟩

theorem judge_importRecord {batchSize : Nat} (hb : 0 < batchSize) (soFar : Nat)
    (items : List Item) (n : Nat) (st : Importing) (rec : FionaRecord)
    (hfit : Fits k₀ ((items ++ rec.items).flatMap (Item.rows c jobId now))) :
    (runLogic Label Sys Exn E).judge (Recorded c jobId now C k₀ items n st)
      (importRecord cfg c jobId progress batchSize now soFar st rec)
      (Recorded c jobId now C k₀ (items ++ rec.items) (n + rec.failed)) := by
  refine (runLogic Label Sys Exn E).bind (judge_check hcalm fun _ h => h.calm) fun _ => ?_
  have hbeat : (runLogic Label Sys Exn E).judge (Recorded c jobId now C k₀ items n st)
      (heartbeat (progress .running) rec.beat (soFar + st.created))
      fun _ => Recorded c jobId now C k₀ items n st := by
    unfold heartbeat
    split
    · exact judge_recordedReport hcalm _ _
    · exact (runLogic Label Sys Exn E).pure fun _ h => h
  refine (runLogic Label Sys Exn E).bind hbeat fun _ => ?_
  split
  · rename_i hempty
    have hnil := List.isEmpty_iff.mp hempty
    refine (runLogic Label Sys Exn E).pure fun s h => ⟨h.calm, ?_, ?_, ?_⟩
    · simpa [FionaRecord.items, hnil] using h.created
    · simp [FionaRecord.failed, hnil, h.failed]
    · simpa [FionaRecord.items, hnil] using h.sent
  · rename_i hfull
    rw [FionaRecord.failed, if_neg hfull]
    refine (runLogic Label Sys Exn E).bind (judge_importGeometries hcalm _ items n st hfit)
      fun st' => ?_
    refine (runLogic Label Sys Exn E).bind (V := fun _ => Recorded c jobId now C k₀ _ _ st')
      (runLogic_of_run fun s hs => ⟨_, s, run_batchFull hb _ s, hs⟩) fun full => ?_
    split
    · refine (runLogic Label Sys Exn E).bind (judge_recordedCommit hcalm hfit) fun se => ?_
      refine (runLogic Label Sys Exn E).lift ?_
      rintro rfl
      refine (runLogic Label Sys Exn E).bind (judge_check hcalm fun _ h => h.calm) fun _ => ?_
      refine (runLogic Label Sys Exn E).bind (judge_recordedReport hcalm _ _) fun _ => ?_
      exact (runLogic Label Sys Exn E).pure fun _ h => h
    · exact (runLogic Label Sys Exn E).pure fun _ h => h

theorem judge_importRecords {batchSize : Nat} (hb : 0 < batchSize) (soFar : Nat)
    (recs : List FionaRecord) (items : List Item) (n : Nat) (st : Importing)
    (hfit : Fits k₀ ((items ++ recs.flatMap FionaRecord.items).flatMap (Item.rows c jobId now))) :
    (runLogic Label Sys Exn E).judge (Recorded c jobId now C k₀ items n st)
      (importRecords cfg c jobId progress batchSize now soFar recs st)
      (Recorded c jobId now C k₀ (items ++ recs.flatMap FionaRecord.items)
        (n + (recs.map FionaRecord.failed).sum)) := by
  induction recs generalizing items n st with
  | nil => exact (runLogic Label Sys Exn E).pure fun _ h => by simpa using h
  | cons rec recs ih =>
    rw [List.flatMap_cons, ← List.append_assoc] at hfit ⊢
    rw [List.map_cons, List.sum_cons, ← Nat.add_assoc]
    have hfirst : Fits k₀ ((items ++ rec.items).flatMap (Item.rows c jobId now)) := by
      rw [List.flatMap_append] at hfit
      exact hfit.left
    exact (runLogic Label Sys Exn E).bind (judge_importRecord hcalm hb soFar items n st rec hfirst)
      fun st' => ih _ _ st' hfit

theorem run_importOneSource {batchSize : Nat} (hb : 0 < batchSize) (soFar : Nat) (se : Session)
    (hse : se.rows = []) (src : SourceFile) (k₀ : Catalog)
    (hfit : Fits k₀ (src.inserted.flatMap (Item.rows c jobId now))) :
    (runLogic Label Sys Exn (src.recordsError ≠ none)).judge (fun s => C s ∧ s.catalog = k₀)
      (importOneSource cfg c jobId progress batchSize now soFar se src)
      fun st s => src.recordsError = none ∧
        st.created = src.inserted.length ∧
        st.failed = (src.records.map FionaRecord.failed).sum ∧
        k₀.insertFeatures (src.inserted.flatMap (Item.rows c jobId now)) = .ok s.catalog := by
  have hread : (runLogic Label Sys Exn (src.recordsError ≠ none)).judge
      (fun s => C s ∧ s.catalog = k₀)
      (importOneSource cfg c jobId progress batchSize now soFar se src)
      fun st s => src.recordsError = none ∧
        Recorded c jobId now C k₀ src.inserted (src.records.map FionaRecord.failed).sum st s := by
    have hrecs := judge_importRecords (E := src.recordsError ≠ none) hcalm hb soFar src.records [] 0
      ⟨0, 0, [], se, []⟩ hfit
    rw [List.nil_append, Nat.zero_add] at hrecs
    refine (runLogic Label Sys Exn _).bind ((runLogic Label Sys Exn _).conseq (fun s hs => ?_)
      hrecs fun _ _ h => h) fun st => ?_
    · exact ⟨hs.1, rfl, rfl, by rw [hse, hs.2]; exact Sent.start k₀⟩
    cases he : src.recordsError with
    | some e =>
      exact (runLogic Label Sys Exn _).bind (V := fun _ _ => False)
        ((runLogic Label Sys Exn _).throw fun _ _ => Option.some_ne_none e) fun _ s hs => hs.elim
    | none =>
      refine (runLogic Label Sys Exn _).bind (V := fun _ => Recorded c jobId now C k₀ _ _ st)
        ((runLogic Label Sys Exn _).pure fun _ h => h) fun _ => ?_
      refine (runLogic Label Sys Exn _).bind (V := fun _ => Recorded c jobId now C k₀ _ _ st)
        (runLogic_of_run fun s hs => ⟨_, s, run_batchFull hb _ s, hs⟩) fun full => ?_
      split
      · refine (runLogic Label Sys Exn _).bind (judge_recordedCommit hcalm hfit) fun se' => ?_
        refine (runLogic Label Sys Exn _).lift ?_
        rintro rfl
        refine (runLogic Label Sys Exn _).bind (judge_check hcalm fun _ h => h.calm) fun _ => ?_
        exact (runLogic Label Sys Exn _).pure fun _ h => ⟨rfl, h⟩
      · exact (runLogic Label Sys Exn _).pure fun _ h => ⟨rfl, h⟩
  refine (runLogic Label Sys Exn _).conseq (fun _ h => h) (runLogic_and hread
    ((runLogic Label Sys Exn _).conseq (fun _ _ => trivial)
      ((idleRules cfg c jobId now progress).importOneSource batchSize soFar se src hse)
      fun _ _ h => h.1)) fun st s h => ?_
  obtain ⟨⟨herr, hrec⟩, hidle⟩ := h
  have hsent := hrec.sent
  rw [hidle.2] at hsent
  exact ⟨herr, hrec.created, hrec.failed, hsent.all⟩

end

end Bulk
end Geofastmap
