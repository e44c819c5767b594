import Geofastmap.Copy.Rows
import Geofastmap.Import.Readers

/-!
# Geofastmap.Copy.Load

`_load_geojson_seq_into_staging`: a file is parsed line by line, or in batches of lines by worker
processes, and the rows are copied to the staging table in batches of rows.

* `Copier`: what is in the table and what is buffered together are the rows added so far, whatever
  the size of a batch (`addRows_spec`).
* The batches under way and the lines read are in the order of the file, and they are drained from
  the front. One expression carries the parallel loop: the rows that the lines not drained yet will
  add (`Pending`).
-/

namespace Geofastmap
namespace Copy

open Import

/-- The sizes that the settings give; a copy batch has at least one row. -/
structure Tuning where
  workers : Nat
  batchRows : Nat
  parseLines : Nat
  maxInflight : Nat
  batchRows_pos : 0 < batchRows
  parseLines_pos : 0 < parseLines
  maxInflight_pos : 0 < maxInflight

/-- The settings of the `COPY` import. -/
structure CopySettings where
  bulkCopyParserWorkers : Int
  bulkCopyBatchRows : Int
  bulkCopyParseBatchLines : Int
  bulkCopyMaxInflightBatches : Int

/-- `_parser_worker_count` on a machine with this many processors. -/
def parserWorkerCount (s : CopySettings) (cpus : Nat) : Nat :=
  if 0 < s.bulkCopyParserWorkers then s.bulkCopyParserWorkers.toNat else max 1 (cpus - 1)

/-- `_copy_batch_size`. The copier takes the maximum with 1000 once more. -/
def copyBatchSize (s : CopySettings) : Nat :=
  max 1000 (if s.bulkCopyBatchRows = 0 then 20000 else s.bulkCopyBatchRows.toNat)

/-- `_parse_batch_lines`. -/
def parseBatchLines (s : CopySettings) : Nat :=
  max 500 (if s.bulkCopyParseBatchLines = 0 then 8000 else s.bulkCopyParseBatchLines.toNat)

/-- `_max_inflight_batches`. -/
def maxInflightBatches (s : CopySettings) (workers : Nat) : Nat :=
  if 0 < s.bulkCopyMaxInflightBatches then s.bulkCopyMaxInflightBatches.toNat
  else max 2 (workers * 2)

def CopySettings.tuning (s : CopySettings) (cpus : Nat) : Tuning where
  workers := parserWorkerCount s cpus
  batchRows := max 1000 (copyBatchSize s)
  parseLines := parseBatchLines s
  maxInflight := maxInflightBatches s (parserWorkerCount s cpus)
  batchRows_pos := by omega
  parseLines_pos := by
    unfold parseBatchLines
    omega
  maxInflight_pos := by
    unfold maxInflightBatches
    split <;> omega

inductive Failure where
  /-- `BulkImportCancelled`. -/
  | cancelled
  | parse (e : Raised)
  | copy (e : Raised)

/-- What a run meets: whether the job is cancelled when it is looked up for the n-th time, how the
n-th `COPY` ends, and after which lines the heartbeat is due. -/
structure World where
  cancelled : Nat → Bool
  copyExpert : Nat → List StagingRow → Except Raised Unit
  beat : Nat → Bool

/-- `_StagingCopier` and the variables of the loop. -/
structure State where
  /-- The rows committed to the staging table. -/
  staging : List StagingRow
  buf : List StagingRow
  copies : Nat
  checks : Nat
  accounts : Nat
  created : Nat
  failed : Nat
  /-- What `on_progress` was called with. -/
  reports : List Nat

def State.start : State := ⟨[], [], 0, 0, 0, 0, 0, []⟩

/-- A failure leaves the state that was reached. -/
abbrev Outcome := Except (Failure × State) State

/-- `_flush_batch`: a `COPY` that fails is rolled back. -/
def flushBatch (w : World) (batch : List StagingRow) (s : State) : Outcome :=
  match w.copyExpert s.copies batch with
  | .error e => .error (.copy e, { s with copies := s.copies + 1 })
  | .ok () => .ok { s with staging := s.staging ++ batch, copies := s.copies + 1 }

section
variable (w : World) (u : Tuning)

/-- `while len(self._buf) >= self._batch_size`. -/
def flushFull (buf : List StagingRow) (s : State) : Outcome :=
  if u.batchRows ≤ buf.length then
    match flushBatch w (buf.take u.batchRows) { s with buf := buf.drop u.batchRows } with
    | .error e => .error e
    | .ok s => flushFull (buf.drop u.batchRows) s
  else .ok { s with buf }
termination_by buf.length
decreasing_by
  have hpos := u.batchRows_pos
  rw [List.length_drop]
  omega

/-- `_StagingCopier.add`. -/
def addRows (rows : List StagingRow) (s : State) : Outcome := flushFull w u (s.buf ++ rows) s

/-- `_StagingCopier.flush_final`. -/
def flushFinal (s : State) : Outcome :=
  if s.buf.isEmpty then .ok s else flushBatch w s.buf { s with buf := [] }

/-- `_raise_if_cancelled`. -/
def raiseIfCancelled (s : State) : Outcome :=
  let s' := { s with checks := s.checks + 1 }
  if w.cancelled s.checks then .error (.cancelled, s') else .ok s'

/-- The heartbeat of `_account`. -/
def beat (s : State) : State :=
  { s with
    accounts := s.accounts + 1
    reports := if w.beat s.accounts then s.reports ++ [s.created] else s.reports }

/-- `_account`. -/
def account (parsed : List StagingRow × Nat) (s : State) : Outcome := do
  let s := { s with failed := s.failed + parsed.2 }
  let s ← (if parsed.1.isEmpty then .ok s
    else addRows w u parsed.1 { s with created := s.created + parsed.1.length } : Outcome)
  return beat w s

variable {G : Type} (P : Parser G) (T : Target)

/-- An exception of the parser, at the state in which it is met. -/
def raised (s : State) :
    Except Raised (List StagingRow × Nat) → Except (Failure × State) (List StagingRow × Nat)
  | .error e => .error (.parse e, s)
  | .ok parsed => .ok parsed

/-! ## One line at a time -/

/-- The loop for one worker, at the line with number `i`. -/
def loadLines (uuid : Nat → Text) : Nat → List Text → State → Outcome
  | _, [], s => .ok s
  | i, line :: lines, s => do
    let s ← (if i % 2000 = 0 then raiseIfCancelled w s else .ok s : Outcome)
    let parsed ← raised s (parseLineBytes P T (uuid i) line)
    let s ← account w u parsed s
    loadLines uuid (i + 1) lines s

/-! ## Batches -/

/-- The loop of `_parse_lines_batch`, at the line with number `j`. -/
def parseLinesFrom (uuid : Nat → Text) :
    Nat → List Text → List StagingRow × Nat → Except Raised (List StagingRow × Nat)
  | _, [], acc => .ok acc
  | j, line :: lines, (rows, failed) => do
    let (partRows, fail) ← parseLineBytes P T (uuid j) line
    parseLinesFrom uuid (j + 1) lines (rows ++ partRows, failed + fail)

/-- `_parse_lines_batch`. -/
def parseLinesBatch (uuid : Nat → Text) (lines : List Text) :
    Except Raised (List StagingRow × Nat) :=
  parseLinesFrom P T uuid 0 lines ([], 0)

/-- The futures that are not drained yet, the oldest first, and the lines of the next batch. -/
structure Feed where
  futures : List (Nat × List Text)
  submitted : Nat
  batch : List Text

/-- `_drain_one`. The process that parses a batch draws its own ids. -/
def drainOne (uuid : Nat → Nat → Text) (future : Nat × List Text) (s : State) : Outcome := do
  let parsed ← raised s (parseLinesBatch P T (uuid future.1) future.2)
  let s ← raiseIfCancelled w s
  account w u parsed s

/-- `while len(futures) >= limit`. -/
def drainTo (uuid : Nat → Nat → Text) (limit : Nat) :
    List (Nat × List Text) → State → Except (Failure × State) (List (Nat × List Text) × State)
  | [], s => .ok ([], s)
  | f :: futures, s =>
    if limit ≤ futures.length + 1 then do
      let s ← drainOne w u P T uuid f s
      drainTo uuid limit futures s
    else .ok (f :: futures, s)

/-- `batch.append(raw_line)`. -/
def Feed.push (feed : Feed) (line : Text) : Feed := { feed with batch := feed.batch ++ [line] }

/-- `pool.submit` of the batch. -/
def Feed.submit (feed : Feed) : Feed :=
  ⟨feed.futures ++ [(feed.submitted, feed.batch)], feed.submitted + 1, []⟩

/-- The loop over the lines of the file. -/
def feedLines (uuid : Nat → Nat → Text) :
    List Text → Feed → State → Except (Failure × State) (Feed × State)
  | [], feed, s => .ok (feed, s)
  | line :: lines, feed, s =>
    if (stripBytes line).isEmpty then feedLines uuid lines feed s
    else if u.parseLines ≤ (feed.push line).batch.length then do
      let (futures, s) ← drainTo w u P T uuid u.maxInflight (feed.push line).submit.futures s
      feedLines uuid lines { (feed.push line).submit with futures } s
    else feedLines uuid lines (feed.push line) s

/-- The loop for several workers: what is left is submitted, and all futures are drained. -/
def loadBatches (uuid : Nat → Nat → Text) (lines : List Text) (s : State) : Outcome := do
  let (feed, s) ← feedLines w u P T uuid lines ⟨[], 0, []⟩ s
  let feed := if feed.batch.isEmpty then feed else feed.submit
  let (_, s) ← drainTo w u P T uuid 1 feed.futures s
  return s

/-- `_load_geojson_seq_into_staging`: the state it ends in, with `(created, failed)` and the rows in
the staging table. -/
def loadGeojsonSeqIntoStaging (uuid : Nat → Nat → Text) (file : Text) : Outcome := do
  let s ← (if u.workers ≤ 1 then loadLines w u P T (uuid 0) 0 (rawLines file) .start
    else loadBatches w u P T uuid (rawLines file) .start : Outcome)
  flushFinal w s

/-- The branch that parses one line at a time. -/
def loadOneByOne (uuid : Nat → Text) (file : Text) : Outcome := do
  let s ← loadLines w u P T uuid 0 (rawLines file) .start
  flushFinal w s

end

/-! ## What a step adds -/

/-- The job is not cancelled and every `COPY` succeeds. -/
structure World.Calm (w : World) : Prop where
  cancelled : ∀ n, w.cancelled n = false
  copyExpert : ∀ n batch, w.copyExpert n batch = .ok ()

/-- The rows in the table and in the buffer. -/
def State.held (s : State) : List StagingRow := s.staging ++ s.buf

/-- Between two states these rows and failures were added; the rows are without what is generated. -/
structure Added (parsed : List StagingRow × Nat) (s s' : State) : Prop where
  held : s'.held.map StagingRow.scrub = s.held.map StagingRow.scrub ++ parsed.1
  created : s'.created = s.created + parsed.1.length
  failed : s'.failed = s.failed + parsed.2

theorem Added.refl (s : State) : Added ([], 0) s s := ⟨by simp, rfl, rfl⟩

theorem Added.trans {p q : List StagingRow × Nat} {s s' s'' : State} (h : Added p s s')
    (h' : Added q s' s'') : Added (p.1 ++ q.1, p.2 + q.2) s s'' where
  held := by rw [h'.held, h.held, List.append_assoc]
  created := by rw [h'.created, h.created, List.length_append, Nat.add_assoc]
  failed := by rw [h'.failed, h.failed, Nat.add_assoc]

section
variable {w : World} (hw : w.Calm) (u : Tuning)
include hw

theorem flushBatch_calm (batch : List StagingRow) (s : State) :
    flushBatch w batch s =
      .ok { s with staging := s.staging ++ batch, copies := s.copies + 1 } := by
  unfold flushBatch
  rw [hw.copyExpert]

/-- However large a batch is, nothing is lost between the buffer and the table. -/
theorem flushFull_spec (buf : List StagingRow) (s : State) :
    ∃ s', flushFull w u buf s = .ok s' ∧ s'.held = s.staging ++ buf ∧
      s'.created = s.created ∧ s'.failed = s.failed := by
  induction hn : buf.length using Nat.strong_induction_on generalizing buf s with
  | _ n ih =>
    rw [flushFull]
    split
    · have hpos := u.batchRows_pos
      rw [flushBatch_calm hw]
      obtain ⟨s', hs', hheld, hcreated, hfailed⟩ := ih (buf.drop u.batchRows).length
        (by rw [List.length_drop]; omega) (buf.drop u.batchRows)
        { s with
          staging := s.staging ++ buf.take u.batchRows
          buf := buf.drop u.batchRows
          copies := s.copies + 1 } rfl
      refine ⟨s', hs', ?_, hcreated, hfailed⟩
      rw [hheld, List.append_assoc, List.take_append_drop]
    · exact ⟨_, rfl, rfl, rfl, rfl⟩

theorem addRows_spec (rows : List StagingRow) (s : State) :
    ∃ s', addRows w u rows s = .ok s' ∧ s'.held = s.held ++ rows ∧
      s'.created = s.created ∧ s'.failed = s.failed := by
  obtain ⟨s', hs', hheld, hcounts⟩ := flushFull_spec hw u (s.buf ++ rows) s
  exact ⟨s', hs', by rw [hheld, State.held, List.append_assoc], hcounts⟩

theorem account_spec (parsed : List StagingRow × Nat) (s : State) :
    ∃ s', account w u parsed s = .ok s' ∧ Added (scrubbed parsed) s s' := by
  obtain ⟨rows, fail⟩ := parsed
  unfold account
  cases rows with
  | nil =>
    refine ⟨_, rfl, ?_⟩
    constructor <;> simp [beat, scrubbed, State.held]
  | cons r rows =>
    obtain ⟨s', hs', hheld, hcreated, hfailed⟩ := addRows_spec hw u (r :: rows)
      { s with failed := s.failed + fail, created := s.created + (r :: rows).length }
    refine ⟨beat w s', ?_, ?_⟩
    · simp only [List.isEmpty_cons, Bool.false_eq_true, if_false]
      rw [hs']
      rfl
    · have hbeat : (beat w s').held = s'.held := rfl
      constructor
      · rw [hbeat, hheld, List.map_append]
        rfl
      · rw [show (beat w s').created = s'.created from rfl, hcreated]
        simp [scrubbed]
      · rw [show (beat w s').failed = s'.failed from rfl, hfailed]
        rfl

theorem raiseIfCancelled_spec (s : State) :
    raiseIfCancelled w s = .ok { s with checks := s.checks + 1 } := by
  unfold raiseIfCancelled
  simp [hw.cancelled]

theorem flushFinal_spec (s : State) :
    ∃ s', flushFinal w s = .ok s' ∧ s'.staging = s.held ∧ s'.created = s.created ∧
      s'.failed = s.failed := by
  unfold flushFinal
  split
  · rename_i hbuf
    refine ⟨s, rfl, ?_, rfl, rfl⟩
    simp [State.held, List.isEmpty_iff.mp hbuf]
  · rw [flushBatch_calm hw]
    exact ⟨_, rfl, rfl, rfl, rfl⟩

end

/-! ## What a line adds -/

section
variable {G : Type} (P : Parser G) (T : Target)

/-- The rows and failures of a line. -/
def content (line : Text) : List StagingRow × Nat :=
  match (parseLineBytes P T [] line).map scrubbed with
  | .ok parsed => parsed
  | .error _ => ([], 0)

/-- The rows and failures of lines, in their order. -/
def contents (lines : List Text) : List StagingRow × Nat :=
  (lines.flatMap fun l => (content P T l).1, (lines.map fun l => (content P T l).2).sum)

/-- Parsing the line does not raise. -/
def Parses (line : Text) : Prop := ∀ id e, parseLineBytes P T id line ≠ .error e

theorem contents_append (lines more : List Text) :
    contents P T (lines ++ more) =
      ((contents P T lines).1 ++ (contents P T more).1,
        (contents P T lines).2 + (contents P T more).2) := by
  simp [contents]

theorem contents_cons (line : Text) (lines : List Text) :
    contents P T (line :: lines) =
      ((content P T line).1 ++ (contents P T lines).1,
        (content P T line).2 + (contents P T lines).2) := by
  simp [contents]

/-- A blank line adds nothing, so it does not matter which loop skips it. -/
theorem content_blank {line : Text} (h : (stripBytes line).isEmpty = true) :
    content P T line = ([], 0) := by
  unfold content parseLineBytes
  rw [if_pos h]
  rfl

theorem contents_filter (lines : List Text) :
    contents P T (lines.filter fun l => !(stripBytes l).isEmpty) = contents P T lines := by
  induction lines with
  | nil => rfl
  | cons line lines ih =>
    rw [List.filter_cons, contents_cons, ← ih]
    cases h : (stripBytes line).isEmpty with
    | true => simp [content_blank P T h]
    | false => simp [contents_cons]

variable {P T}

/-- At any time and with any id, a line adds the same. -/
theorem parse_content {T' : Target} (hT : T.Same T') {line : Text} (h : Parses P T line)
    (id : Text) :
    ∃ parsed, parseLineBytes P T' id line = .ok parsed ∧ scrubbed parsed = content P T line := by
  have hscrub := parseLineBytes_scrub P hT [] id line
  unfold content
  cases hp : parseLineBytes P T [] line with
  | error e => exact absurd hp (h [] e)
  | ok p =>
    rw [hp] at hscrub
    cases hp' : parseLineBytes P T' id line with
    | error e =>
      rw [hp'] at hscrub
      cases hscrub
    | ok p' =>
      rw [hp'] at hscrub
      exact ⟨p', rfl, (Except.ok.inj hscrub).symm⟩

theorem parseLinesFrom_spec {T' : Target} (hT : T.Same T') {lines : List Text}
    (h : ∀ l ∈ lines, Parses P T l) (uuid : Nat → Text) (j : Nat) (acc : List StagingRow × Nat) :
    ∃ parsed, parseLinesFrom P T' uuid j lines acc = .ok parsed ∧
      scrubbed parsed = ((scrubbed acc).1 ++ (contents P T lines).1,
        (scrubbed acc).2 + (contents P T lines).2) := by
  induction lines generalizing j acc with
  | nil => exact ⟨acc, rfl, by simp [contents]⟩
  | cons line lines ih =>
    obtain ⟨rows, failed⟩ := acc
    obtain ⟨⟨partRows, fail⟩, hline, hcontent⟩ := parse_content hT (h line (by simp)) (uuid j)
    obtain ⟨parsed, hparsed, hrest⟩ := ih (fun l hl => h l (List.mem_cons_of_mem _ hl)) (j + 1)
      (rows ++ partRows, failed + fail)
    refine ⟨parsed, ?_, ?_⟩
    · rw [parseLinesFrom, hline]
      exact hparsed
    · rw [hrest, contents_cons, ← hcontent]
      simp [scrubbed, Nat.add_assoc]

/-! ## The loops -/

section
variable {w : World} (hw : w.Calm) (u : Tuning) {T' : Target} (hT : T.Same T')
include hw hT

theorem loadLines_spec {lines : List Text} (h : ∀ l ∈ lines, Parses P T l) (uuid : Nat → Text)
    (i : Nat) (s : State) :
    ∃ s', loadLines w u P T' uuid i lines s = .ok s' ∧ Added (contents P T lines) s s' := by
  induction lines generalizing i s with
  | nil => exact ⟨s, rfl, Added.refl s⟩
  | cons line lines ih =>
    obtain ⟨s₁, hcheck, hadded⟩ : ∃ s₁, (if i % 2000 = 0 then raiseIfCancelled w s else .ok s) =
        .ok s₁ ∧ Added ([], 0) s s₁ := by
      split
      · exact ⟨_, raiseIfCancelled_spec hw s, by simp [State.held], rfl, rfl⟩
      · exact ⟨s, rfl, Added.refl s⟩
    obtain ⟨parsed, hline, hcontent⟩ := parse_content hT (h line (by simp)) (uuid i)
    obtain ⟨s₂, haccount, hadded₂⟩ := account_spec hw u parsed s₁
    obtain ⟨s₃, hrest, hadded₃⟩ := ih (fun l hl => h l (List.mem_cons_of_mem _ hl)) (i + 1) s₂
    refine ⟨s₃, ?_, ?_⟩
    · rw [loadLines, hcheck, hline]
      show (account w u parsed s₁ >>= _) = _
      rw [haccount]
      exact hrest
    · have hall := (hadded.trans hadded₂).trans hadded₃
      rw [hcontent] at hall
      simpa [contents_cons] using hall

theorem drainOne_spec {future : Nat × List Text} (h : ∀ l ∈ future.2, Parses P T l)
    (uuid : Nat → Nat → Text) (s : State) :
    ∃ s', drainOne w u P T' uuid future s = .ok s' ∧ Added (contents P T future.2) s s' := by
  obtain ⟨parsed, hparsed, hcontents⟩ := parseLinesFrom_spec hT h (uuid future.1) 0 ([], 0)
  obtain ⟨s', haccount, hadded⟩ := account_spec hw u parsed { s with checks := s.checks + 1 }
  refine ⟨s', ?_, ?_⟩
  · rw [drainOne, parseLinesBatch, hparsed]
    show (raiseIfCancelled w s >>= _) = _
    rw [raiseIfCancelled_spec hw]
    exact haccount
  · have hsame : Added ([], 0) s { s with checks := s.checks + 1 } :=
      ⟨by simp [State.held], rfl, rfl⟩
    have hall := hsame.trans hadded
    rw [hcontents] at hall
    simpa [scrubbed] using hall

/-- The lines of the futures, in the order of the file. -/
theorem drainTo_spec (limit : Nat) {futures : List (Nat × List Text)}
    (h : ∀ l ∈ futures.flatMap Prod.snd, Parses P T l) (uuid : Nat → Nat → Text) (s : State) :
    ∃ drained futures' s', drainTo w u P T' uuid limit futures s = .ok (futures', s') ∧
      futures = drained ++ futures' ∧ (limit ≤ 1 → futures' = []) ∧
      Added (contents P T (drained.flatMap Prod.snd)) s s' := by
  induction futures generalizing s with
  | nil => exact ⟨[], [], s, rfl, rfl, fun _ => rfl, Added.refl s⟩
  | cons f futures ih =>
    rw [List.flatMap_cons] at h
    rw [drainTo]
    split
    · obtain ⟨s₁, hone, hadded⟩ := drainOne_spec hw u hT
        (fun l hl => h l (List.mem_append_left _ hl)) uuid s
      obtain ⟨drained, futures', s₂, hrest, heq, hlimit, hadded'⟩ :=
        ih (fun l hl => h l (List.mem_append_right _ hl)) s₁
      refine ⟨f :: drained, futures', s₂, ?_, by rw [heq, List.cons_append], hlimit, ?_⟩
      · rw [hone]
        exact hrest
      · have hall := hadded.trans hadded'
        rw [List.flatMap_cons, contents_append]
        exact hall
    · rename_i hroom
      exact ⟨[], f :: futures, s, rfl, rfl, fun hlimit => by omega, Added.refl s⟩

/-- The lines that are read and not drained. -/
def Feed.pending (feed : Feed) : List Text := feed.futures.flatMap Prod.snd ++ feed.batch

omit hw hT in
theorem Feed.push_pending (feed : Feed) (line : Text) :
    (feed.push line).pending = feed.pending ++ [line] := by
  simp [Feed.pending, Feed.push]

omit hw hT in
theorem Feed.submit_pending (feed : Feed) : feed.submit.pending = feed.pending := by
  simp [Feed.pending, Feed.submit]

theorem feedLines_spec {lines : List Text} {feed : Feed} (h : ∀ l ∈ lines, Parses P T l)
    (hfeed : ∀ l ∈ feed.pending, Parses P T l) (uuid : Nat → Nat → Text) (s : State) :
    ∃ drained feed' s', feedLines w u P T' uuid lines feed s = .ok (feed', s') ∧
      feed.pending ++ lines.filter (fun l => !(stripBytes l).isEmpty) = drained ++ feed'.pending ∧
      Added (contents P T drained) s s' := by
  induction lines generalizing feed s with
  | nil => exact ⟨[], feed, s, rfl, by simp, Added.refl s⟩
  | cons line lines ih =>
    have hlines : ∀ l ∈ lines, Parses P T l := fun l hl => h l (List.mem_cons_of_mem _ hl)
    rw [feedLines]
    split
    · rename_i hblank
      have hskip : (line :: lines).filter (fun l => !(stripBytes l).isEmpty) =
          lines.filter (fun l => !(stripBytes l).isEmpty) := by simp [hblank]
      rw [hskip]
      exact ih hlines hfeed s
    · rename_i hline
      have hkeep : (line :: lines).filter (fun l => !(stripBytes l).isEmpty) =
          line :: lines.filter (fun l => !(stripBytes l).isEmpty) := by simp [hline]
      rw [hkeep]
      have hparses : ∀ l ∈ (feed.push line).pending, Parses P T l := by
        rw [Feed.push_pending]
        intro l hl
        rcases List.mem_append.mp hl with hl | hl
        · exact hfeed l hl
        · exact List.mem_singleton.mp hl ▸ h line (by simp)
      rw [List.append_cons feed.pending, ← Feed.push_pending]
      generalize feed.push line = full at hparses ⊢
      split
      · rw [← full.submit_pending] at hparses ⊢
        obtain ⟨first, futures', s₁, hdrain, heq, -, hadded⟩ := drainTo_spec hw u hT u.maxInflight
          (fun l hl => hparses l (List.mem_append_left _ hl)) uuid s
        have hpending : full.submit.pending =
            first.flatMap Prod.snd ++ ({ full.submit with futures := futures' } : Feed).pending := by
          rw [Feed.pending, heq, List.flatMap_append, List.append_assoc]
          rfl
        rw [hpending] at hparses ⊢
        obtain ⟨drained, feed', s₂, hrest, heq', hadded'⟩ :=
          ih hlines (fun l hl => hparses l (List.mem_append_right _ hl)) s₁
        refine ⟨first.flatMap Prod.snd ++ drained, feed', s₂, ?_, ?_, ?_⟩
        · rw [hdrain]
          exact hrest
        · rw [List.append_assoc, heq', List.append_assoc]
        · rw [contents_append]
          exact hadded.trans hadded'
      · exact ih hlines hparses s

theorem loadBatches_spec {lines : List Text} (h : ∀ l ∈ lines, Parses P T l)
    (uuid : Nat → Nat → Text) (s : State) :
    ∃ s', loadBatches w u P T' uuid lines s = .ok s' ∧ Added (contents P T lines) s s' := by
  have hempty : ∀ l ∈ Feed.pending ⟨[], 0, []⟩, Parses P T l := by simp [Feed.pending]
  obtain ⟨drained, feed, s₁, hfeed, heq, hadded⟩ := feedLines_spec hw u hT h hempty uuid s
  have hlines : lines.filter (fun l => !(stripBytes l).isEmpty) = drained ++ feed.pending := by
    simpa [Feed.pending] using heq
  have hleft : (if feed.batch.isEmpty then feed else feed.submit).futures.flatMap Prod.snd =
      feed.pending := by
    split
    · rename_i hnone
      simp [Feed.pending, List.isEmpty_iff.mp hnone]
    · simp [Feed.submit, Feed.pending]
  have hparses : ∀ l ∈ (if feed.batch.isEmpty then feed else feed.submit).futures.flatMap Prod.snd,
      Parses P T l := by
    rw [hleft]
    intro l hl
    have hin : l ∈ lines.filter (fun l => !(stripBytes l).isEmpty) := by
      rw [hlines]
      exact List.mem_append_right _ hl
    exact h l (List.mem_of_mem_filter hin)
  obtain ⟨last, futures', s₂, hdrain, heq', hnone, hadded'⟩ :=
    drainTo_spec hw u hT 1 hparses uuid s₁
  rw [hnone (Nat.le_refl 1), List.append_nil] at heq'
  refine ⟨s₂, ?_, ?_⟩
  · rw [loadBatches, hfeed]
    show (drainTo w u P T' uuid 1 _ s₁ >>= _) = _
    rw [hdrain]
    rfl
  · rw [← contents_filter, hlines, contents_append, ← hleft, heq']
    exact hadded.trans hadded'

end

end

/-! ## The two branches -/

theorem Added.final {w : World} (hw : w.Calm) {parsed : List StagingRow × Nat} {s : State}
    (h : Added parsed .start s) :
    ∃ s', flushFinal w s = .ok s' ∧ s'.staging.map StagingRow.scrub = parsed.1 ∧
      s'.created = parsed.1.length ∧ s'.failed = parsed.2 := by
  obtain ⟨s', hflush, hstaging, hcreated, hfailed⟩ := flushFinal_spec hw s
  refine ⟨s', hflush, ?_, ?_, ?_⟩
  · rw [hstaging, h.held]
    simp [State.held, State.start]
  · rw [hcreated, h.created]
    simp [State.start]
  · rw [hfailed, h.failed]
    simp [State.start]

section
variable {G : Type} {P : Parser G} {T T' : Target} (hT : T.Same T') {file : Text}
  (hparse : ∀ l ∈ rawLines file, Parses P T l) {w : World} (hw : w.Calm)
include hT hparse hw

/-- One line at a time, the table ends with the rows of the lines, in the order of the file. -/
theorem loadOneByOne_spec (u : Tuning) (uuid : Nat → Text) :
    ∃ s, loadOneByOne w u P T' uuid file = .ok s ∧
      s.staging.map StagingRow.scrub = (contents P T (rawLines file)).1 ∧
      s.created = (contents P T (rawLines file)).1.length ∧
      s.failed = (contents P T (rawLines file)).2 := by
  obtain ⟨s₁, hload, hadded⟩ := loadLines_spec hw u hT hparse uuid 0 .start
  obtain ⟨s, hs, hend⟩ := hadded.final hw
  exact ⟨s, by rw [loadOneByOne, hload]; exact hs, hend⟩

/-- So it does in both branches. -/
theorem load_spec (u : Tuning) (uuid : Nat → Nat → Text) :
    ∃ s, loadGeojsonSeqIntoStaging w u P T' uuid file = .ok s ∧
      s.staging.map StagingRow.scrub = (contents P T (rawLines file)).1 ∧
      s.created = (contents P T (rawLines file)).1.length ∧
      s.failed = (contents P T (rawLines file)).2 := by
  obtain ⟨s₁, hload, hadded⟩ : ∃ s₁, (if u.workers ≤ 1 then
      loadLines w u P T' (uuid 0) 0 (rawLines file) .start
      else loadBatches w u P T' uuid (rawLines file) .start) = .ok s₁ ∧
      Added (contents P T (rawLines file)) .start s₁ := by
    split
    · exact loadLines_spec hw u hT hparse (uuid 0) 0 .start
    · exact loadBatches_spec hw u hT hparse uuid .start
  obtain ⟨s, hs, hend⟩ := hadded.final hw
  exact ⟨s, by rw [loadGeojsonSeqIntoStaging, hload]; exact hs, hend⟩

end

/-- Both branches end with the rows of the lines, in the order of the file. -/
theorem load_eq_oneByOne {G : Type} (P : Parser G) (T T' : Target) (hT : T.Same T')
    (file : Text) (hparse : ∀ l ∈ rawLines file, Parses P T l) (w w' : World) (hw : w.Calm)
    (hw' : w'.Calm) (u u' : Tuning) (uuid : Nat → Nat → Text) (uuid' : Nat → Text) :
    ∃ s s', loadGeojsonSeqIntoStaging w u P T uuid file = .ok s ∧
      loadOneByOne w' u' P T' uuid' file = .ok s' ∧
      s.staging.map StagingRow.scrub = s'.staging.map StagingRow.scrub ∧
      s.staging.map StagingRow.scrub = (contents P T (rawLines file)).1 ∧
      (s.created, s.failed) = (s'.created, s'.failed) ∧
      s.created = s.staging.length ∧ s'.created = s'.staging.length := by
  obtain ⟨s, hs, hrows, hcreated, hfailed⟩ := load_spec ⟨rfl, rfl⟩ hparse hw u uuid
  obtain ⟨s', hs', hrows', hcreated', hfailed'⟩ := loadOneByOne_spec hT hparse hw' u' uuid'
  refine ⟨s, s', hs, hs', by rw [hrows, hrows'], hrows,
    by rw [hcreated, hcreated', hfailed, hfailed'], ?_, ?_⟩
  · rw [hcreated, ← hrows, List.length_map]
  · rw [hcreated', ← hrows', List.length_map]

/-- Neither the settings nor the machine can be told from the rows that are loaded. -/
theorem load_settings {G : Type} {P : Parser G} {T T' : Target} (hT : T.Same T') {file : Text}
    (hparse : ∀ l ∈ rawLines file, Parses P T l) {w w' : World} (hw : w.Calm) (hw' : w'.Calm)
    (settings settings' : CopySettings) (cpus cpus' : Nat) (uuid uuid' : Nat → Nat → Text) :
    ∃ s s', loadGeojsonSeqIntoStaging w (settings.tuning cpus) P T uuid file = .ok s ∧
      loadGeojsonSeqIntoStaging w' (settings'.tuning cpus') P T' uuid' file = .ok s' ∧
      s.staging.map StagingRow.scrub = s'.staging.map StagingRow.scrub ∧
      (s.created, s.failed) = (s'.created, s'.failed) := by
  obtain ⟨s, hs, hrows, hcreated, hfailed⟩ :=
    load_spec ⟨rfl, rfl⟩ hparse hw (settings.tuning cpus) uuid
  obtain ⟨s', hs', hrows', hcreated', hfailed'⟩ :=
    load_spec hT hparse hw' (settings'.tuning cpus') uuid'
  exact ⟨s, s', hs, hs', by rw [hrows, hrows'], by rw [hcreated, hcreated', hfailed, hfailed']⟩

/-! ## Two points -/

/-- One text that is JSON, with blanks around it, and one point. -/
def sampleParser : Parser Sample where
  loads text := if stripBytes text = westFeature.dumps then some westFeature else none
  shapely := samples
  toWkbHex _ := "0101000020E6100000".toList ++ List.replicate 32 '0'
  str
    | .str s => s
    | x => x.dumps
  limits := .default
  depth := 900

def sampleTarget : Target := ⟨"a".toList, "1".toList, "2024-06-01T00:00:00+00:00".toList⟩

/-- A feature, a blank line, a line that is no JSON, and a feature without a line end. -/
def sampleFile : Text := westFeature.dumps ++ "\n\nx\n".toList ++ westFeature.dumps

def calmWorld : World := ⟨fun _ => false, fun _ _ => .ok (), fun _ => false⟩

/-- Two workers, and every batch has one element. -/
def singleTuning : Tuning := ⟨2, 1, 1, 1, by decide, by decide, by decide⟩

theorem sampleParser_parses (line : Text) : Parses sampleParser sampleTarget line := by
  intro id e h
  unfold parseLineBytes at h
  split at h
  · cases h
  · have hloads : sampleParser.loads line =
        if stripBytes line = westFeature.dumps then some westFeature else none := rfl
    rw [hloads] at h
    split at h
    · rename_i hjson
      split at hjson
      · cases hjson
        cases h
      · cases hjson
    · cases h

theorem load_sample :
    ∃ s s', loadGeojsonSeqIntoStaging calmWorld singleTuning sampleParser sampleTarget
        (fun i j => List.replicate i 'a' ++ List.replicate j 'b') sampleFile = .ok s ∧
      loadOneByOne calmWorld singleTuning sampleParser sampleTarget (fun i => List.replicate i 'c')
        sampleFile = .ok s' ∧
      s.staging.map StagingRow.scrub = s'.staging.map StagingRow.scrub ∧
      s.created = 2 := by
  obtain ⟨s, s', hs, hs', hrows, hcontents, -, hcreated, -⟩ :=
    load_eq_oneByOne sampleParser sampleTarget sampleTarget ⟨rfl, rfl⟩ sampleFile
      (fun l _ => sampleParser_parses l) calmWorld calmWorld ⟨fun _ => rfl, fun _ _ => rfl⟩
      ⟨fun _ => rfl, fun _ _ => rfl⟩ singleTuning singleTuning
      (fun i j => List.replicate i 'a' ++ List.replicate j 'b') (fun i => List.replicate i 'c')
  have htwo : (contents sampleParser sampleTarget (rawLines sampleFile)).1.length = 2 := by
    decide +kernel
  refine ⟨s, s', hs, hs', hrows, ?_⟩
  rw [hcreated, ← htwo, ← hcontents, List.length_map]

end Copy
end Geofastmap
