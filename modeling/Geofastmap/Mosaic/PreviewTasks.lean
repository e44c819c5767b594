import Geofastmap.Mosaic.Previews

/-!
# Geofastmap.Mosaic.PreviewTasks

The footprints of plans from other workers (`mosaic_footprint_distributed.py`): the coordinator of a
job puts its specs into a queue, wave after wave, workers take them and report, each wave to a list
of its own, and what a wave lacks is fetched by the coordinator itself.

A run is any interleaving of coordinators, workers, workers that die, and keys that expire.

`footprints_agree` : a plan has only footprints of its own images, and unless a worker fails those
that `attach_footprint_displays_to_plan_result` gives it.
-/

namespace Geofastmap
namespace Mosaic
namespace Preview

open Import Stac

abbrev JobId := Text

structure Task where
  job : JobId
  batch : Nat
  spec : Spec
deriving DecidableEq

/-- `_footprint_task_id`, a hash of these. -/
abbrev TaskKey := JobId × Nat × Path

def Task.key (t : Task) : TaskKey := (t.job, t.batch, t.spec.path)

inductive Status where
  | completed | completedWithErrors | failed
deriving DecidableEq

structure Row where
  path : Path
  footprint : Option Footprint
  status : Status

/-! ## Workers -/

/-- How a subtask ends: the thumbnail was asked for, it could not be, something raised, or the
command that reports the result raised although it had its effect. -/
inductive Outcome where
  | answered | lost | failed | reportedTwice
deriving DecidableEq

variable (im : Images) (cfg : Settings)

/-- The row of a thumbnail that was asked for. -/
def answeredRow (spec : Spec) : Row :=
  match im.fetch spec.url spec.bbox4 with
  | some geo => ⟨spec.path, some geo, .completed⟩
  | none => ⟨spec.path, none, .completedWithErrors⟩

def failedRow (spec : Spec) : Row := ⟨spec.path, none, .failed⟩

/-- `_run_footprint_subtask`: the rows it reports. -/
def runFootprintSubtask (spec : Spec) : Outcome → List Row
  | .answered => [answeredRow im spec]
  | .lost => [⟨spec.path, none, .completedWithErrors⟩]
  | .failed => [failedRow spec]
  | .reportedTwice => [answeredRow im spec, failedRow spec]

/-! ## Coordinators -/

/-- Where `try_attach_footprints_distributed` is: before a wave, after it has enqueued `n` specs of
it, while it waits for more rows, or at its end. -/
inductive Phase where
  | clear
  | send (n : Nat)
  | await (remaining : Nat) (rows : List Row)
  | returned
  | raised

/-- `given`: the plan as it was at the beginning. -/
structure Coordinator where
  given : PlanResult
  features : List Item
  result : PlanResult
  batch : Nat
  rest : List Spec
  phase : Phase

/-- `max(1, int(s.mosaic_footprint_max_items or 200))`. -/
def distributedMaxItems : Nat := (max 1 (if cfg.maxItems = 0 then 200 else cfg.maxItems)).toNat

/-- `max(1, int(... or 16))`. -/
def waveSize : Nat := (max 1 (if cfg.wave = 0 then 16 else cfg.wave)).toNat

def begin (result : PlanResult) (features : List Item) : Coordinator :=
  let specs := buildFootprintDisplayWorkSpecs im result features (distributedMaxItems cfg)
  ⟨result, features, result, 0, specs, if specs.isEmpty then .returned else .clear⟩

namespace Coordinator

variable (c : Coordinator)

def specs : List Spec :=
  buildFootprintDisplayWorkSpecs im c.given c.features (distributedMaxItems cfg)

def wave : List Spec := c.rest.take (waveSize cfg)

/-- The patch of a row that has one. -/
def rowPatch (row : Row) : Option Patch :=
  match row.status with
  | .failed => none
  | _ => row.footprint.map (⟨row.path, ·⟩)

/-- After the rows of a wave: when some are missing the rest is fetched here. -/
def collect (rows : List Row) : Coordinator :=
  let result := applyFootprintDisplayPatches c.result (rows.filterMap rowPatch)
  if rows.length < (c.wave cfg).length then
    { c with result := attachFootprintDisplays im cfg result c.features, phase := .returned }
  else
    let rest := c.rest.drop (waveSize cfg)
    { c with result, rest, batch := c.batch + 1, phase := if rest.isEmpty then .returned else .clear }

end Coordinator

/-! ## Runs -/

structure State where
  queue : List Task
  running : List Task
  /-- The list of results of a job and a batch. -/
  results : JobId → Nat → List Row
  hashes : List TaskKey
  jobs : JobId → Option Coordinator

def State.setJob (s : State) (j : JobId) (c : Coordinator) : State :=
  { s with jobs := fun i => if i = j then some c else s.jobs i }

def State.setResults (s : State) (j : JobId) (batch : Nat) (rows : List Row) : State :=
  { s with results := fun i b => if i = j ∧ b = batch then rows else s.results i b }

/-- `enqueue_mosaic_footprint_display_subtask`. -/
def State.enqueue (s : State) (t : Task) : State :=
  if t.key ∈ s.hashes then s else { s with hashes := t.key :: s.hashes, queue := t :: s.queue }

inductive Event where
  | begin (j : JobId) (result : PlanResult) (features : List Item)
  | coordinator (j : JobId)
  | timeout (j : JobId)
  | abort (j : JobId)
  | take
  | finish (t : Task) (o : Outcome)
  | die (t : Task)
  | expire (k : TaskKey)

/-- The next step of a coordinator, if it does not have to wait; `brpop` takes the last row. -/
def advance (s : State) (j : JobId) (c : Coordinator) : Option State :=
  match c.phase with
  | .clear => some ((s.setResults j c.batch []).setJob j { c with phase := .send 0 })
  | .send n =>
    match (c.wave cfg)[n]? with
    | some spec => some ((s.enqueue ⟨j, c.batch, spec⟩).setJob j { c with phase := .send (n + 1) })
    | none => some (s.setJob j { c with phase := .await (c.wave cfg).length [] })
  | .await 0 rows => some (s.setJob j (c.collect im cfg rows))
  | .await (n + 1) rows =>
    match (s.results j c.batch).getLast? with
    | some row => some ((s.setResults j c.batch (s.results j c.batch).dropLast).setJob j
        { c with phase := .await n (rows ++ [row]) })
    | none => none
  | .returned => none
  | .raised => none

/-- A step, if it is possible. The id of a job is new, and a coordinator may raise anywhere. -/
def step (s : State) : Event → Option State
  | .begin j result features =>
    match s.jobs j with
    | some _ => none
    | none => some (s.setJob j (begin im cfg result features))
  | .coordinator j => (s.jobs j).bind (advance im cfg s j)
  | .timeout j =>
    match s.jobs j with
    | some c =>
      match c.phase with
      | .await (_ + 1) rows =>
        if (s.results j c.batch).isEmpty then some (s.setJob j (c.collect im cfg rows)) else none
      | _ => none
    | none => none
  | .abort j =>
    match s.jobs j with
    | some c =>
      match c.phase with
      | .returned => none
      | _ => some (s.setJob j { c with phase := .raised })
    | none => none
  | .take =>
    match s.queue.getLast? with
    | some t => some { s with
        queue := s.queue.dropLast, running := t :: s.running, hashes := t.key :: s.hashes }
    | none => none
  | .finish t o =>
    if t ∈ s.running then
      some { s.setResults t.job t.batch (s.results t.job t.batch ++ runFootprintSubtask im t.spec o)
        with running := s.running.erase t, hashes := t.key :: s.hashes }
    else none
  | .die t => if t ∈ s.running then some { s with running := s.running.erase t } else none
  | .expire k => some { s with hashes := s.hashes.filter (· ≠ k) }

/-- No job has begun. -/
def start : State := ⟨[], [], fun _ _ => [], [], fun _ => none⟩

def run (s : State) (es : List Event) : Option State := es.foldlM (step im cfg) s

/-! ## The invariant -/

/-- The specs of the wave that are enqueued. -/
def Coordinator.sent (c : Coordinator) : List Spec :=
  match c.phase with
  | .send n => (c.wave cfg).take n
  | .await _ _ => c.wave cfg
  | _ => []

/-- The rows that the coordinator has. -/
def Coordinator.held (c : Coordinator) : List Row :=
  match c.phase with
  | .await _ rows => rows
  | _ => []

def Coordinator.Ended (c : Coordinator) : Prop := c.phase = .returned ∨ c.phase = .raised

/-- A spec for which a job may have a task in a batch. -/
def Sent (job : Option Coordinator) (batch : Nat) (spec : Spec) : Prop :=
  ∃ c, job = some c ∧ (c.Ended ∨ batch < c.batch ∨ (batch = c.batch ∧ spec ∈ c.sent cfg))

/-- A row of a spec. `K`: no worker fails. -/
structure RowOf (K : Prop) (spec : Spec) (row : Row) : Prop where
  path : row.path = spec.path
  footprint : ∀ p, Coordinator.rowPatch row = some p → p ∈ patchesOf im [spec]
  answered : K → row = answeredRow im spec

/-- How often a task is in the queue or with a worker, or has a row in a list. -/
def onWay (s : State) (k : TaskKey) : Nat :=
  (s.queue.map Task.key).count k + (s.running.map Task.key).count k +
    ((s.results k.1 k.2.1).map Row.path).count k.2.2

/-- The specs of earlier waves, and the patches that were applied. -/
structure Progress (K : Prop) (c : Coordinator) (earlier : List Spec) (ps : List Patch) : Prop where
  specs : c.specs im cfg = earlier ++ c.rest
  result : c.result = applyFootprintDisplayPatches c.given ps
  own : ps ⊆ patchesOf im (c.specs im cfg)
  done : K → patchesOf im earlier ⊆ ps

def Coherent (K : Prop) (c : Coordinator) : Prop :=
  match c.phase with
  | .raised => True
  | .returned => ∃ ps, c.result = applyFootprintDisplayPatches c.given ps ∧
      ps ⊆ patchesOf im (c.specs im cfg) ∧
      (K → cfg.maxItems ≠ 0 → patchesOf im (c.specs im cfg) ⊆ ps)
  | .await remaining rows => (∃ earlier ps, Progress im cfg K c earlier ps) ∧
      (∀ row ∈ rows, ∃ spec ∈ c.wave cfg, RowOf im K spec row) ∧
      remaining + rows.length = (c.wave cfg).length
  | _ => ∃ earlier ps, Progress im cfg K c earlier ps

/-- What holds of one job. -/
structure Sound (K : Prop) (s : State) (j : JobId) : Prop where
  tasks : ∀ t, t ∈ s.queue ∨ t ∈ s.running → t.job = j → Sent cfg (s.jobs j) t.batch t.spec
  hashes : ∀ batch path, (j, batch, path) ∈ s.hashes →
    ∃ spec, Sent cfg (s.jobs j) batch spec ∧ spec.path = path
  rows : ∀ batch, ∀ row ∈ s.results j batch,
    ∃ spec, Sent cfg (s.jobs j) batch spec ∧ RowOf im K spec row
  coherent : ∀ c, s.jobs j = some c → Coherent im cfg K c
  once : K → ∀ c, s.jobs j = some c → ¬ c.Ended → ∀ path,
    onWay s (j, c.batch, path) + (c.held.map Row.path).count path ≤ 1

section Lemmas
variable {im cfg} {K : Prop}

@[simp] theorem rowPatch_answeredRow (spec : Spec) :
    Coordinator.rowPatch (answeredRow im spec) =
      (im.fetch spec.url spec.bbox4).map (⟨spec.path, ·⟩) := by
  unfold answeredRow Coordinator.rowPatch
  cases im.fetch spec.url spec.bbox4 <;> rfl

theorem mem_patchesOf_singleton {spec : Spec} {p : Patch} :
    p ∈ patchesOf im [spec] ↔ (im.fetch spec.url spec.bbox4).map (⟨spec.path, ·⟩) = some p := by
  unfold patchesOf
  rw [List.filterMap_cons, List.filterMap_nil]
  cases im.fetch spec.url spec.bbox4 with
  | none => simp
  | some geo => simp [eq_comm]

theorem patchesOf_subset {specs specs' : List Spec} (h : specs ⊆ specs') :
    patchesOf im specs ⊆ patchesOf im specs' := by
  intro p hp
  obtain ⟨spec, hspec, hpatch⟩ := mem_patchesOf.mp hp
  exact mem_patchesOf.mpr ⟨spec, h hspec, hpatch⟩

theorem answeredRow_path (spec : Spec) : (answeredRow im spec).path = spec.path := by
  unfold answeredRow
  cases im.fetch spec.url spec.bbox4 <;> rfl

/-- What a worker reports. -/
theorem rowOf_reported {spec : Spec} {o : Outcome} (ho : K → o = .answered) {row : Row}
    (h : row ∈ runFootprintSubtask im spec o) : RowOf im K spec row := by
  have hanswered : RowOf im K spec (answeredRow im spec) :=
    ⟨answeredRow_path spec, fun p hp => by
      rwa [rowPatch_answeredRow, ← mem_patchesOf_singleton] at hp, fun _ => rfl⟩
  cases o with
  | answered => exact List.mem_singleton.mp h ▸ hanswered
  | lost =>
    cases List.mem_singleton.mp h
    exact ⟨rfl, nofun, fun hK => by cases ho hK⟩
  | failed =>
    cases List.mem_singleton.mp h
    exact ⟨rfl, nofun, fun hK => by cases ho hK⟩
  | reportedTwice =>
    rcases List.mem_cons.mp h with rfl | h
    · exact hanswered
    · cases List.mem_singleton.mp h
      exact ⟨rfl, nofun, fun hK => by cases ho hK⟩

/-- Nothing is on its way for a path of which no spec was enqueued. -/
theorem Sound.onWay_eq_zero {s : State} {j : JobId} (h : Sound im cfg K s j) {batch : Nat}
    {path : Path} (hnone : ∀ spec, Sent cfg (s.jobs j) batch spec → spec.path ≠ path) :
    onWay s (j, batch, path) = 0 := by
  have htask : ∀ t, t ∈ s.queue ∨ t ∈ s.running → t.key ≠ (j, batch, path) := by
    intro t ht hkey
    obtain ⟨hjob, hrest⟩ := Prod.mk.inj hkey
    obtain ⟨hbatch, hpath⟩ := Prod.mk.inj hrest
    exact hnone t.spec (hbatch ▸ h.tasks t ht hjob) hpath
  have hqueue : (s.queue.map Task.key).count (j, batch, path) = 0 := by
    rw [List.count_eq_zero]
    intro hmem
    obtain ⟨t, ht, hkey⟩ := List.mem_map.mp hmem
    exact htask t (.inl ht) hkey
  have hrunning : (s.running.map Task.key).count (j, batch, path) = 0 := by
    rw [List.count_eq_zero]
    intro hmem
    obtain ⟨t, ht, hkey⟩ := List.mem_map.mp hmem
    exact htask t (.inr ht) hkey
  have hrows : ((s.results j batch).map Row.path).count path = 0 := by
    rw [List.count_eq_zero]
    intro hmem
    obtain ⟨row, hrow, hpath⟩ := List.mem_map.mp hmem
    obtain ⟨spec, hsent, hof⟩ := h.rows batch row hrow
    exact hnone spec hsent (hof.path.symm.trans hpath)
  simp only [onWay]
  omega

/-- A step that leaves the coordinator of a job alone. -/
theorem Sound.frame {s s' : State} {j : JobId} (h : Sound im cfg K s j)
    (hjobs : s'.jobs j = s.jobs j)
    (htasks : ∀ t, t ∈ s'.queue ∨ t ∈ s'.running → t.job = j → t ∈ s.queue ∨ t ∈ s.running)
    (hhashes : ∀ batch path, (j, batch, path) ∈ s'.hashes → (j, batch, path) ∈ s.hashes ∨
      ∃ spec, Sent cfg (s.jobs j) batch spec ∧ spec.path = path)
    (hrows : ∀ batch, ∀ row ∈ s'.results j batch, row ∈ s.results j batch ∨
      ∃ spec, Sent cfg (s.jobs j) batch spec ∧ RowOf im K spec row)
    (hway : K → ∀ batch path, onWay s' (j, batch, path) ≤ onWay s (j, batch, path)) :
    Sound im cfg K s' j where
  tasks t ht hjob := hjobs ▸ h.tasks t (htasks t ht hjob) hjob
  hashes batch path hmem := hjobs ▸ (hhashes batch path hmem).elim (h.hashes batch path) id
  rows batch row hrow := hjobs ▸ (hrows batch row hrow).elim (h.rows batch row) id
  coherent c hc := h.coherent c (hjobs ▸ hc)
  once hK c hc hended path := by
    have hle := hway hK c.batch path
    have hone := h.once hK c (hjobs ▸ hc) hended path
    omega

/-- A step of the coordinator itself. -/
theorem Sound.setJob {s : State} {j : JobId} {c c' : Coordinator} (h : Sound im cfg K s j)
    (hc : s.jobs j = some c)
    (hsent : ∀ batch spec, Sent cfg (some c) batch spec → Sent cfg (some c') batch spec)
    (hcoherent : Coherent im cfg K c')
    (honce : K → ¬ c'.Ended → ∀ path,
      onWay s (j, c'.batch, path) + (c'.held.map Row.path).count path ≤ 1) :
    Sound im cfg K (s.setJob j c') j := by
  have hjobs : (s.setJob j c').jobs j = some c' := if_pos rfl
  have hall : ∀ batch spec, Sent cfg (s.jobs j) batch spec →
      Sent cfg ((s.setJob j c').jobs j) batch spec := by
    intro batch spec h
    rw [hjobs]
    exact hsent batch spec (hc ▸ h)
  refine ⟨fun t ht hjob => hall _ _ (h.tasks t ht hjob), fun batch path hmem => ?_,
    fun batch row hrow => ?_, fun c'' hc'' => ?_, fun hK c'' hc'' hended => ?_⟩
  · obtain ⟨spec, hspec, hpath⟩ := h.hashes batch path hmem
    exact ⟨spec, hall _ _ hspec, hpath⟩
  · obtain ⟨spec, hspec, hof⟩ := h.rows batch row hrow
    exact ⟨spec, hall _ _ hspec, hof⟩
  · rw [hjobs] at hc''
    cases hc''
    exact hcoherent
  · rw [hjobs] at hc''
    cases hc''
    exact honce hK hended

/-- Another job. -/
theorem Sound.setJob_of_ne {s : State} {i j : JobId} (h : Sound im cfg K s j) (hne : j ≠ i)
    (c : Coordinator) : Sound im cfg K (s.setJob i c) j :=
  h.frame (if_neg hne) (fun _ ht _ => ht) (fun _ _ hmem => .inl hmem) (fun _ _ hrow => .inl hrow)
    fun _ _ _ => le_rfl

/-- A spec is enqueued of which nothing is on its way yet. -/
theorem Sound.enqueue {s : State} {j : JobId} {c : Coordinator} {spec : Spec}
    (h : Sound im cfg K s j) (hc : s.jobs j = some c)
    (hsent : Sent cfg (some c) c.batch spec) (hheld : c.held = [])
    (hzero : onWay s (j, c.batch, spec.path) = 0) :
    Sound im cfg K (s.enqueue ⟨j, c.batch, spec⟩) j := by
  unfold State.enqueue
  split
  · exact h
  · have hsent : Sent cfg (s.jobs j) c.batch spec := hc ▸ hsent
    refine ⟨fun t ht hjob => ?_, fun batch path hmem => ?_, h.rows, h.coherent,
      fun hK c' hc' hended path => ?_⟩
    · rcases ht with ht | ht
      · rcases List.mem_cons.mp ht with rfl | ht
        · exact hsent
        · exact h.tasks t (.inl ht) hjob
      · exact h.tasks t (.inr ht) hjob
    · rcases List.mem_cons.mp hmem with heq | hmem
      · obtain ⟨-, hrest⟩ := Prod.mk.inj heq
        obtain ⟨rfl, rfl⟩ := Prod.mk.inj hrest
        exact ⟨spec, hsent, rfl⟩
      · exact h.hashes batch path hmem
    · have hsame : c' = c := Option.some.inj (hc'.symm.trans hc)
      subst hsame
      have hone := h.once hK c' hc hended path
      simp only [onWay, hheld, List.map_nil, List.count_nil] at hone hzero ⊢
      rw [List.map_cons, List.count_cons]
      by_cases hpath : spec.path = path
      · subst hpath
        rw [if_pos (by simp [Task.key])]
        omega
      · rw [if_neg (by simpa [Task.key] using hpath)]
        omega

/-- When there are as many rows as specs and none comes twice, each spec has one. -/
theorem row_for {wave : List Spec} {rows : List Row}
    (hrows : ∀ row ∈ rows, ∃ spec ∈ wave, row.path = spec.path)
    (hnodup : (rows.map Row.path).Nodup) (hlength : wave.length ≤ rows.length) {spec : Spec}
    (hspec : spec ∈ wave) : ∃ row ∈ rows, row.path = spec.path := by
  have hsub : rows.map Row.path ⊆ wave.map Spec.path := by
    intro path hpath
    obtain ⟨row, hrow, rfl⟩ := List.mem_map.mp hpath
    obtain ⟨spec, hspec, heq⟩ := hrows row hrow
    exact List.mem_map.mpr ⟨spec, hspec, heq.symm⟩
  have hperm := (List.subperm_of_subset hnodup hsub).perm_of_length_le
    (by rwa [List.length_map, List.length_map])
  exact List.mem_map.mp (hperm.mem_iff.mpr (List.mem_map_of_mem hspec))

theorem nodup_wave {c : Coordinator} {earlier : List Spec} {ps : List Patch}
    (h : Progress im cfg K c earlier ps) : ((c.wave cfg).map Spec.path).Nodup := by
  have hnodup : ((c.specs im cfg).map Spec.path).Nodup := nodup_specs ..
  rw [h.specs, List.map_append] at hnodup
  exact hnodup.of_append_right.sublist ((List.take_sublist _ _).map _)

variable (im cfg) in
/-- What the coordinator fetches itself. -/
theorem localSpecs_subset (c : Coordinator) :
    buildFootprintDisplayWorkSpecs im c.given c.features (localMaxItems cfg) ⊆
        c.specs im cfg ∧
      (cfg.maxItems ≠ 0 →
        buildFootprintDisplayWorkSpecs im c.given c.features (localMaxItems cfg) =
          c.specs im cfg) := by
  by_cases hzero : cfg.maxItems = 0
  · refine ⟨?_, fun h => absurd hzero h⟩
    have hle : localMaxItems cfg ≤ distributedMaxItems cfg := by
      simp [localMaxItems, distributedMaxItems, hzero]
    unfold Coordinator.specs buildFootprintDisplayWorkSpecs
    split
    · exact List.Subset.refl _
    · exact (List.take_prefix_take_left hle).subset
  · have heq : localMaxItems cfg = distributedMaxItems cfg := by
      simp [localMaxItems, distributedMaxItems, hzero]
    rw [heq]
    exact ⟨List.Subset.refl _, fun _ => rfl⟩

/-- After a wave. -/
theorem coherent_collect {c : Coordinator} {rows : List Row} {earlier : List Spec}
    {ps : List Patch} (h : Progress im cfg K c earlier ps)
    (hrows : ∀ row ∈ rows, ∃ spec ∈ c.wave cfg, RowOf im K spec row)
    (hnodup : K → (rows.map Row.path).Nodup) :
    Coherent im cfg K (c.collect im cfg rows) := by
  have hwave : c.wave cfg ⊆ c.specs im cfg := by
    rw [h.specs]
    exact fun _ hspec => List.mem_append_right _ (List.mem_of_mem_take hspec)
  have hpatches : rows.filterMap Coordinator.rowPatch ⊆ patchesOf im (c.wave cfg) := by
    intro p hp
    obtain ⟨row, hrow, hpatch⟩ := List.mem_filterMap.mp hp
    obtain ⟨spec, hspec, hof⟩ := hrows row hrow
    exact patchesOf_subset (List.cons_subset.mpr ⟨hspec, List.nil_subset _⟩) (hof.footprint p hpatch)
  have hresult : applyFootprintDisplayPatches c.result (rows.filterMap Coordinator.rowPatch) =
      applyFootprintDisplayPatches c.given (ps ++ rows.filterMap Coordinator.rowPatch) := by
    rw [h.result, ← applyPatches_append]
  have hown : ps ++ rows.filterMap Coordinator.rowPatch ⊆ patchesOf im (c.specs im cfg) :=
    List.append_subset.mpr ⟨h.own, List.Subset.trans hpatches (patchesOf_subset hwave)⟩
  unfold Coordinator.collect
  dsimp only
  split
  · obtain ⟨hsub, heq⟩ := localSpecs_subset im cfg c
    refine ⟨ps ++ rows.filterMap Coordinator.rowPatch ++ patchesOf im
      (buildFootprintDisplayWorkSpecs im c.given c.features (localMaxItems cfg)), ?_, ?_, ?_⟩
    · rw [attach_eq, hresult, specs_applyPatches, ← applyPatches_append]
    · exact List.append_subset.mpr ⟨hown, patchesOf_subset hsub⟩
    · intro _ hmax
      rw [heq hmax]
      exact List.subset_append_right ..
  · rename_i hfull
    have hdone : K → patchesOf im (earlier ++ c.wave cfg) ⊆
        ps ++ rows.filterMap Coordinator.rowPatch := by
      intro hK p hp
      rw [patchesOf_append] at hp
      rcases List.mem_append.mp hp with hp | hp
      · exact List.mem_append_left _ (h.done hK hp)
      · obtain ⟨spec, hspec, hpath, hgeo⟩ := mem_patchesOf.mp hp
        obtain ⟨row, hrow, hrowpath⟩ := row_for
          (fun row hrow => by
            obtain ⟨spec, hspec, hof⟩ := hrows row hrow
            exact ⟨spec, hspec, hof.path⟩)
          (hnodup hK) (by omega) hspec
        obtain ⟨spec', hspec', hof⟩ := hrows row hrow
        have hsame : spec' = spec := List.inj_on_of_nodup_map (nodup_wave h) hspec' hspec
          (hof.path.symm.trans hrowpath)
        subst hsame
        refine List.mem_append_right _ (List.mem_filterMap.mpr ⟨row, hrow, ?_⟩)
        rw [hof.answered hK, rowPatch_answeredRow, hgeo, hpath]
        rfl
    have hspecs : c.specs im cfg = (earlier ++ c.wave cfg) ++ c.rest.drop (waveSize cfg) := by
      rw [h.specs, List.append_assoc, Coordinator.wave, List.take_append_drop]
    by_cases hrest : (c.rest.drop (waveSize cfg)).isEmpty = true
    · rw [if_pos hrest]
      rw [List.isEmpty_iff.mp hrest, List.append_nil] at hspecs
      refine ⟨_, hresult, hown, fun hK _ => ?_⟩
      change patchesOf im (c.specs im cfg) ⊆ _
      rw [hspecs]
      exact hdone hK
    · rw [if_neg hrest]
      exact ⟨_, _, hspecs, hresult, hown, hdone⟩

theorem sent_of_batch {c c' : Coordinator} (hbatch : c'.batch = c.batch)
    (hended : ¬ c.Ended) (hsub : c.sent cfg ⊆ c'.sent cfg) (batch : Nat) (spec : Spec)
    (h : Sent cfg (some c) batch spec) : Sent cfg (some c') batch spec := by
  obtain ⟨c₀, hc₀, h⟩ := h
  cases Option.some.inj hc₀
  refine ⟨c', rfl, .inr ?_⟩
  rw [hbatch]
  rcases h with h | h | ⟨hb, hspec⟩
  · exact absurd h hended
  · exact .inl h
  · exact .inr ⟨hb, hsub hspec⟩

theorem Progress.of_phase {c : Coordinator} {earlier : List Spec} {ps : List Patch}
    (h : Progress im cfg K c earlier ps) (phase : Phase) :
    Progress im cfg K { c with phase } earlier ps := ⟨h.specs, h.result, h.own, h.done⟩

/-- After a wave the coordinator goes on. -/
theorem Sound.collect {s : State} {j : JobId} {c : Coordinator} {n : Nat} {rows : List Row}
    (h : Sound im cfg K s j) (hc : s.jobs j = some c) (hphase : c.phase = .await n rows) :
    Sound im cfg K (s.setJob j (c.collect im cfg rows)) j := by
  have hended : ¬ c.Ended := by rintro (h | h) <;> rw [hphase] at h <;> cases h
  have hheld : c.held = rows := by rw [Coordinator.held, hphase]
  have hcoherent := h.coherent c hc
  simp only [Coherent, hphase] at hcoherent
  obtain ⟨⟨earlier, ps, hprogress⟩, hrows, -⟩ := hcoherent
  have hcollect := coherent_collect hprogress hrows fun hK => by
    rw [List.nodup_iff_count_le_one]
    intro path
    have hone := h.once hK c hc hended path
    rw [hheld] at hone
    omega
  have hnext : (c.collect im cfg rows).Ended ∨ (c.collect im cfg rows).batch = c.batch + 1 := by
    unfold Coordinator.collect
    dsimp only
    split
    · exact .inl (.inl rfl)
    · exact .inr rfl
  have hbefore : ∀ batch spec, Sent cfg (some c) batch spec → batch < c.batch + 1 := by
    rintro batch spec ⟨c₀, hc₀, h⟩
    cases Option.some.inj hc₀
    rcases h with h | h | ⟨h, -⟩
    · exact absurd h hended
    · omega
    · omega
  have hnone : (c.collect im cfg rows).held = [] := by
    unfold Coordinator.collect
    dsimp only
    split
    · rfl
    · by_cases hrest : (c.rest.drop (waveSize cfg)).isEmpty = true
      · simp only [Coordinator.held, hrest, if_true]
      · simp only [Coordinator.held, hrest, Bool.false_eq_true, if_false]
  refine h.setJob hc (fun batch spec hsent => ⟨_, rfl, ?_⟩) hcollect fun hK hgoes path => ?_
  · rcases hnext with hnext | hnext
    · exact .inl hnext
    · exact .inr (.inl (hnext ▸ hbefore batch spec hsent))
  · rw [hnone, List.map_nil, List.count_nil]
    have hzero : onWay s (j, (c.collect im cfg rows).batch, path) = 0 := by
      refine h.onWay_eq_zero fun spec hsent => ?_
      have hlt := hbefore _ spec (hc ▸ hsent)
      rcases hnext with hnext | hnext
      · exact absurd hnext hgoes
      · omega
    omega

/-- Rows are taken from a list. -/
theorem Sound.setResults {s : State} {j : JobId} (h : Sound im cfg K s j) (i : JobId) (batch : Nat)
    {rows : List Row} (hsub : rows.Sublist (s.results i batch)) :
    Sound im cfg K (s.setResults i batch rows) j := by
  have hrows : ∀ b, ((s.setResults i batch rows).results j b).Sublist (s.results j b) := by
    intro b
    simp only [State.setResults]
    split
    · rename_i heq
      obtain ⟨rfl, rfl⟩ := heq
      exact hsub
    · exact List.Sublist.refl _
  refine h.frame rfl (fun _ ht _ => ht) (fun _ _ hmem => .inl hmem)
    (fun b row hrow => .inl ((hrows b).subset hrow)) fun _ b path => ?_
  have hcount := ((hrows b).map Row.path).count_le path
  simp only [onWay]
  exact Nat.add_le_add_left hcount _

theorem Sound.enqueue_of_ne {s : State} {j : JobId} (h : Sound im cfg K s j) {t : Task}
    (hne : j ≠ t.job) : Sound im cfg K (s.enqueue t) j := by
  have hkey : ∀ batch path, (t.key == (j, batch, path)) = false := by
    intro batch path
    rw [beq_eq_false_iff_ne]
    intro heq
    exact hne (Prod.mk.inj heq).1.symm
  unfold State.enqueue
  split
  · exact h
  · refine h.frame rfl (fun t' ht' hjob => ?_) (fun batch path hmem => .inl ?_)
      (fun _ _ hrow => .inl hrow) fun _ batch path => ?_
    · rcases ht' with ht' | ht'
      · rcases List.mem_cons.mp ht' with rfl | ht'
        · exact absurd hjob.symm hne
        · exact .inl ht'
      · exact .inr ht'
    · rcases List.mem_cons.mp hmem with heq | hmem
      · exact absurd (Prod.mk.inj heq).1 hne
      · exact hmem
    · simp only [onWay, List.map_cons, List.count_cons, hkey, Bool.false_eq_true, if_false]
      omega

theorem Sound.advance_of_ne {s s' : State} {i j : JobId} {c : Coordinator}
    (h : Sound im cfg K s j) (hne : j ≠ i) (hstep : advance im cfg s i c = some s') :
    Sound im cfg K s' j := by
  unfold advance at hstep
  split at hstep
  · cases hstep
    exact (h.setResults i c.batch (List.nil_sublist _)).setJob_of_ne hne _
  · split at hstep
    · rename_i spec _
      cases hstep
      have henqueue := h.enqueue_of_ne (t := ⟨i, c.batch, spec⟩) hne
      exact henqueue.setJob_of_ne hne _
    · cases hstep
      exact h.setJob_of_ne hne _
  · cases hstep
    exact h.setJob_of_ne hne _
  · split at hstep
    · cases hstep
      exact (h.setResults i c.batch (List.dropLast_sublist _)).setJob_of_ne hne _
    · cases hstep
  · cases hstep
  · cases hstep

/-- The next step of a coordinator. -/
theorem Sound.advance {s s' : State} {j : JobId} {c : Coordinator} (h : Sound im cfg K s j)
    (hc : s.jobs j = some c) (hstep : advance im cfg s j c = some s') : Sound im cfg K s' j := by
  have hcoherent := h.coherent c hc
  have honce := fun hK => h.once hK c hc
  unfold Preview.advance at hstep
  split at hstep
  · -- the list of the wave is cleared
    rename_i hphase
    cases hstep
    have hended : ¬ c.Ended := by rintro (h | h) <;> rw [hphase] at h <;> cases h
    have hcleared := h.setResults j c.batch (List.nil_sublist _)
    simp only [Coherent, hphase] at hcoherent
    obtain ⟨earlier, ps, hprogress⟩ := hcoherent
    refine hcleared.setJob hc (sent_of_batch rfl hended ?_) ⟨earlier, ps, hprogress.of_phase _⟩
      fun hK _ path => ?_
    · simp [Coordinator.sent, hphase]
    · have hheld : c.held = [] := by rw [Coordinator.held, hphase]
      have hone := hcleared.once hK c hc hended path
      rw [hheld] at hone
      exact hone
  · rename_i n hphase
    have hended : ¬ c.Ended := by rintro (h | h) <;> rw [hphase] at h <;> cases h
    have hheld : c.held = [] := by rw [Coordinator.held, hphase]
    simp only [Coherent, hphase] at hcoherent
    obtain ⟨earlier, ps, hprogress⟩ := hcoherent
    have hsent : c.sent cfg = (c.wave cfg).take n := by rw [Coordinator.sent, hphase]
    split at hstep
    · -- a spec is enqueued
      rename_i spec hspec
      cases hstep
      obtain ⟨hn, rfl⟩ := List.getElem?_eq_some_iff.mp hspec
      have hnext : (c.wave cfg).take (n + 1) = (c.wave cfg).take n ++ [(c.wave cfg)[n]] :=
        List.take_succ_eq_append_getElem hn
      have hzero : onWay s (j, c.batch, (c.wave cfg)[n].path) = 0 := by
        refine h.onWay_eq_zero fun spec hspec hpath => ?_
        rw [hc] at hspec
        obtain ⟨c₀, hc₀, hspec⟩ := hspec
        cases Option.some.inj hc₀
        rcases hspec with hspec | hspec | ⟨-, hspec⟩
        · exact hended hspec
        · omega
        · rw [hsent] at hspec
          have hnodup := (nodup_wave hprogress).sublist
            ((List.take_sublist (n + 1) (c.wave cfg)).map Spec.path)
          rw [hnext, List.map_append, List.nodup_append] at hnodup
          exact hnodup.2.2 spec.path (List.mem_map_of_mem hspec) _ List.mem_cons_self hpath
      have hset : Sound im cfg K (s.setJob j { c with phase := .send (n + 1) }) j := by
        refine h.setJob hc (sent_of_batch rfl hended ?_) ⟨earlier, ps, hprogress.of_phase _⟩
          fun hK _ path => ?_
        · rw [hsent]
          change _ ⊆ (c.wave cfg).take (n + 1)
          rw [hnext]
          exact List.subset_append_left ..
        · have hone := honce hK hended path
          rw [hheld] at hone
          exact hone
      have hnew : (c.wave cfg)[n] ∈ (c.wave cfg).take (n + 1) := by
        rw [hnext]
        exact List.mem_append_right _ List.mem_cons_self
      have hqueued : Sound im cfg K ((s.setJob j { c with phase := .send (n + 1) }).enqueue
          ⟨j, c.batch, (c.wave cfg)[n]⟩) j :=
        hset.enqueue (c := { c with phase := .send (n + 1) }) (if_pos rfl)
          ⟨_, rfl, .inr (.inr ⟨rfl, hnew⟩)⟩ rfl hzero
      have hswap : (s.enqueue ⟨j, c.batch, (c.wave cfg)[n]⟩).setJob j
          { c with phase := .send (n + 1) } =
            (s.setJob j { c with phase := .send (n + 1) }).enqueue
              ⟨j, c.batch, (c.wave cfg)[n]⟩ := by
        unfold State.enqueue
        by_cases hkey : Task.key ⟨j, c.batch, (c.wave cfg)[n]⟩ ∈ s.hashes
        · rw [if_pos hkey, if_pos (show _ ∈ (s.setJob j _).hashes from hkey)]
        · rw [if_neg hkey, if_neg (show _ ∉ (s.setJob j _).hashes from hkey)]
          rfl
      rw [hswap]
      exact hqueued
    · -- the whole wave is enqueued
      rename_i hspec
      cases hstep
      have hall : (c.wave cfg).take n = c.wave cfg :=
        List.take_of_length_le (List.getElem?_eq_none_iff.mp hspec)
      refine h.setJob hc (sent_of_batch rfl hended ?_)
        ⟨⟨earlier, ps, hprogress.of_phase _⟩, nofun, rfl⟩ fun hK _ path => ?_
      · rw [hsent, hall]
        exact List.Subset.refl _
      · have hone := honce hK hended path
        rw [hheld] at hone
        exact hone
  · rename_i rows hphase
    cases hstep
    exact h.collect hc hphase
  · -- a row is received
    rename_i n rows hphase
    have hended : ¬ c.Ended := by rintro (h | h) <;> rw [hphase] at h <;> cases h
    have hheld : c.held = rows := by rw [Coordinator.held, hphase]
    simp only [Coherent, hphase] at hcoherent
    obtain ⟨⟨earlier, ps, hprogress⟩, hrows, hlength⟩ := hcoherent
    split at hstep
    · rename_i row hrow
      cases hstep
      have hmem : row ∈ s.results j c.batch := List.mem_of_getLast? hrow
      have hlast : s.results j c.batch = (s.results j c.batch).dropLast ++ [row] :=
        (List.dropLast_append_getLast? row hrow).symm
      have htaken := h.setResults j c.batch (List.dropLast_sublist (s.results j c.batch))
      refine htaken.setJob hc (sent_of_batch rfl hended ?_)
        ⟨⟨earlier, ps, hprogress.of_phase _⟩, fun row' hrow' => ?_, ?_⟩ fun hK _ path => ?_
      · simp only [Coordinator.sent, hphase]
        exact List.Subset.refl _
      · rcases List.mem_append.mp hrow' with hrow' | hrow'
        · exact hrows row' hrow'
        · cases List.mem_singleton.mp hrow'
          obtain ⟨spec, hspec, hof⟩ := h.rows c.batch row hmem
          rw [hc] at hspec
          obtain ⟨c₀, hc₀, hspec⟩ := hspec
          cases Option.some.inj hc₀
          rcases hspec with hspec | hspec | ⟨-, hspec⟩
          · exact absurd hspec hended
          · omega
          · rw [Coordinator.sent, hphase] at hspec
            exact ⟨spec, hspec, hof⟩
      · rw [List.length_append, List.length_singleton]
        change n + (rows.length + 1) = (c.wave cfg).length
        omega
      · have hone := honce hK hended path
        rw [hheld] at hone
        simp only [onWay, State.setResults, Coordinator.held, and_self, if_true] at hone ⊢
        rw [hlast, List.map_append, List.count_append] at hone
        rw [List.map_append, List.count_append]
        omega
    · cases hstep
  · cases hstep
  · cases hstep

/-- The step is none in which a worker fails with a task of the job. -/
def Event.Answers (j : JobId) : Event → Prop
  | .finish t o => t.job = j → o = .answered
  | _ => True

theorem Sound.finish {s : State} {j : JobId} (h : Sound im cfg K s j) {t : Task} {o : Outcome}
    (ht : t ∈ s.running) (ho : K → t.job = j → o = .answered) :
    Sound im cfg K { s.setResults t.job t.batch
        (s.results t.job t.batch ++ runFootprintSubtask im t.spec o) with
      running := s.running.erase t, hashes := t.key :: s.hashes } j := by
  have hresults : ∀ i b, (s.setResults t.job t.batch
      (s.results t.job t.batch ++ runFootprintSubtask im t.spec o)).results i b =
        if i = t.job ∧ b = t.batch then
          s.results t.job t.batch ++ runFootprintSubtask im t.spec o
        else s.results i b := fun _ _ => rfl
  have hqueue : (s.setResults t.job t.batch
      (s.results t.job t.batch ++ runFootprintSubtask im t.spec o)).queue = s.queue := rfl
  refine h.frame rfl (fun t' ht' _ => ht'.imp_right List.mem_of_mem_erase)
    (fun batch path hmem => ?_) (fun batch row hrow => ?_) fun hK batch path => ?_
  · rcases List.mem_cons.mp hmem with heq | hmem
    · obtain ⟨hjob, hrest⟩ := Prod.mk.inj heq
      obtain ⟨hbatch, hpath⟩ := Prod.mk.inj hrest
      exact .inr ⟨t.spec, hbatch ▸ h.tasks t (.inr ht) hjob.symm, hpath.symm⟩
    · exact .inl hmem
  · have hcases : row ∈ if j = t.job ∧ batch = t.batch then
        s.results t.job t.batch ++ runFootprintSubtask im t.spec o else s.results j batch := hrow
    split at hcases
    · rename_i heq
      obtain ⟨hjob, rfl⟩ := heq
      rcases List.mem_append.mp hcases with hold | hreported
      · exact .inl (hjob ▸ hold)
      · exact .inr ⟨t.spec, h.tasks t (.inr ht) hjob.symm,
          rowOf_reported (fun hK => ho hK hjob.symm) hreported⟩
    · exact .inl hcases
  · have hperm := (List.perm_cons_erase ht).map Task.key
    have hcount := hperm.count_eq (j, batch, path)
    rw [List.map_cons, List.count_cons] at hcount
    simp only [onWay, hresults, hqueue]
    split
    · rename_i heq
      obtain ⟨rfl, rfl⟩ := heq
      rw [ho hK rfl, runFootprintSubtask, List.map_append, List.count_append, List.map_singleton,
        List.count_singleton, answeredRow_path]
      by_cases hpath : t.spec.path = path
      · rw [if_pos (by simp [Task.key, hpath])] at hcount
        rw [if_pos (by simp [hpath])]
        omega
      · rw [if_neg (by simp [Task.key, hpath])] at hcount
        rw [if_neg (by simp [hpath])]
        omega
    · omega

theorem Sound.take {s : State} {j : JobId} (h : Sound im cfg K s j) {t : Task}
    (ht : s.queue.getLast? = some t) :
    Sound im cfg K { s with
      queue := s.queue.dropLast, running := t :: s.running, hashes := t.key :: s.hashes } j := by
  have hmem : t ∈ s.queue := List.mem_of_getLast? ht
  have hlast : s.queue = s.queue.dropLast ++ [t] := (List.dropLast_append_getLast? t ht).symm
  refine h.frame rfl (fun t' ht' _ => ?_) (fun batch path hkey => ?_) (fun _ _ hrow => .inl hrow)
    fun _ batch path => ?_
  · rcases ht' with ht' | ht'
    · exact .inl (List.mem_of_mem_dropLast ht')
    · rcases List.mem_cons.mp ht' with rfl | ht'
      · exact .inl hmem
      · exact .inr ht'
  · rcases List.mem_cons.mp hkey with heq | hkey
    · obtain ⟨hjob, hrest⟩ := Prod.mk.inj heq
      obtain ⟨hbatch, hpath⟩ := Prod.mk.inj hrest
      exact .inr ⟨t.spec, hbatch ▸ h.tasks t (.inl hmem) hjob.symm, hpath.symm⟩
    · exact .inl hkey
  · have hcount := congrArg (fun q => (q.map Task.key).count (j, batch, path)) hlast
    simp only [List.map_append, List.count_append, List.map_cons, List.map_nil] at hcount
    simp only [onWay, List.map_cons]
    rw [List.count_cons] at hcount ⊢
    simp only [List.count_nil] at hcount
    omega

theorem Sound.begin {s : State} {j : JobId} (h : Sound im cfg K s j) (hnew : s.jobs j = none)
    (result : PlanResult) (features : List Item) :
    Sound im cfg K (s.setJob j (begin im cfg result features)) j := by
  have hnone : ∀ batch spec, ¬ Sent cfg (s.jobs j) batch spec := by
    rintro batch spec ⟨c, hc, -⟩
    rw [hnew] at hc
    cases hc
  have hjobs : (s.setJob j (Preview.begin im cfg result features)).jobs j =
      some (Preview.begin im cfg result features) := if_pos rfl
  refine ⟨fun t ht hjob => absurd (h.tasks t ht hjob) (hnone _ _), fun batch path hmem => ?_,
    fun batch row hrow => ?_, fun c hc => ?_, fun hK c hc hended path => ?_⟩
  · obtain ⟨spec, hspec, -⟩ := h.hashes batch path hmem
    exact absurd hspec (hnone _ _)
  · obtain ⟨spec, hspec, -⟩ := h.rows batch row hrow
    exact absurd hspec (hnone _ _)
  · rw [hjobs] at hc
    cases hc
    by_cases hempty : (buildFootprintDisplayWorkSpecs im result features
        (distributedMaxItems cfg)).isEmpty = true
    · simp only [Coherent, Preview.begin, hempty, if_true]
      refine ⟨[], rfl, List.nil_subset _, fun _ _ => ?_⟩
      change patchesOf im (buildFootprintDisplayWorkSpecs im result features
        (distributedMaxItems cfg)) ⊆ []
      rw [List.isEmpty_iff.mp hempty]
      exact List.Subset.refl _
    · simp only [Coherent, Preview.begin, hempty, Bool.false_eq_true, if_false]
      exact ⟨[], [], rfl, rfl, List.nil_subset _, fun _ => List.Subset.refl _⟩
  · rw [hjobs] at hc
    cases hc
    have hheld : (Preview.begin im cfg result features).held = [] := by
      unfold Preview.begin Coordinator.held
      dsimp only
      cases (buildFootprintDisplayWorkSpecs im result features
        (distributedMaxItems cfg)).isEmpty <;> rfl
    have hzero : onWay s (j, (Preview.begin im cfg result features).batch, path) = 0 :=
      h.onWay_eq_zero fun spec hspec => absurd hspec (hnone _ _)
    rw [hheld, List.map_nil, List.count_nil]
    exact hzero.le.trans (Nat.zero_le 1)

theorem Sound.step {s s' : State} {j : JobId} {e : Event} (h : Sound im cfg K s j)
    (hstep : step im cfg s e = some s') (he : K → e.Answers j) : Sound im cfg K s' j := by
  cases e with
  | begin i result features =>
    simp only [Preview.step] at hstep
    split at hstep
    · cases hstep
    · rename_i hnew
      cases hstep
      by_cases hne : j = i
      · subst hne
        exact h.begin hnew result features
      · exact h.setJob_of_ne hne _
  | coordinator i =>
    obtain ⟨c, hc, hadvance⟩ := Option.bind_eq_some_iff.mp hstep
    by_cases hne : j = i
    · subst hne
      exact h.advance hc hadvance
    · exact h.advance_of_ne hne hadvance
  | timeout i =>
    simp only [Preview.step] at hstep
    split at hstep
    · rename_i c hc
      split at hstep
      · rename_i hphase
        split at hstep
        · cases hstep
          by_cases hne : j = i
          · subst hne
            exact h.collect hc hphase
          · exact h.setJob_of_ne hne _
        · cases hstep
      · cases hstep
    · cases hstep
  | abort i =>
    simp only [Preview.step] at hstep
    split at hstep
    · rename_i c hc
      have hraised : Sound im cfg K (s.setJob i { c with phase := .raised }) j := by
        by_cases hne : j = i
        · subst hne
          exact h.setJob hc (fun _ _ _ => ⟨_, rfl, .inl (.inr rfl)⟩) trivial
            fun _ hended => absurd (.inr rfl) hended
        · exact h.setJob_of_ne hne _
      split at hstep
      · cases hstep
      · cases hstep
        exact hraised
    · cases hstep
  | take =>
    simp only [Preview.step] at hstep
    split at hstep
    · rename_i t ht
      cases hstep
      exact h.take ht
    · cases hstep
  | finish t o =>
    simp only [Preview.step] at hstep
    split at hstep
    · rename_i ht
      cases hstep
      exact h.finish ht he
    · cases hstep
  | die t =>
    simp only [Preview.step] at hstep
    split at hstep
    · cases hstep
      have hsub : (s.running.erase t).Sublist s.running := List.erase_sublist
      refine h.frame rfl (fun _ ht _ => ht.imp_right fun ht => hsub.subset ht)
        (fun _ _ hmem => .inl hmem) (fun _ _ hrow => .inl hrow) fun _ batch path => ?_
      have hcount := (hsub.map Task.key).count_le (j, batch, path)
      simp only [onWay]
      omega
    · cases hstep
  | expire k =>
    cases hstep
    exact h.frame rfl (fun _ ht _ => ht) (fun _ _ hmem => .inl (List.mem_of_mem_filter hmem))
      (fun _ _ hrow => .inl hrow) fun _ _ _ => le_rfl

theorem Sound.run {s s' : State} {j : JobId} {es : List Event} (h : Sound im cfg K s j)
    (hrun : run im cfg s es = some s') (hes : K → ∀ e ∈ es, e.Answers j) :
    Sound im cfg K s' j := by
  induction es generalizing s with
  | nil =>
    cases hrun
    exact h
  | cons e es ih =>
    rw [Preview.run, List.foldlM_cons] at hrun
    obtain ⟨s₁, hstep, hrun⟩ := Option.bind_eq_some_iff.mp hrun
    exact ih (h.step hstep fun hK => hes hK e List.mem_cons_self) hrun
      fun hK e' he' => hes hK e' (List.mem_cons_of_mem _ he')

theorem sound_start (j : JobId) : Sound im cfg K start j where
  tasks t ht := by rcases ht with ht | ht <;> cases ht
  hashes _ _ hmem := by cases hmem
  rows _ _ hrow := by cases hrow
  coherent c hc := by cases hc
  once _ c hc := by cases hc

end Lemmas

/-- In every run, the plan of a job that returns has only footprints that were fetched for its own
entries, each at its entry; and unless a worker fails with a task of the job it is the plan that
`attach_footprint_displays_to_plan_result` makes, whatever came too late. -/
theorem footprints_agree {es : List Event} {s : State} (hrun : run im cfg start es = some s)
    {j : JobId} {c : Coordinator} (hjob : s.jobs j = some c) (hreturned : c.phase = .returned) :
    (∃ ps ⊆ patchesOf im (c.specs im cfg),
      c.result = applyFootprintDisplayPatches c.given ps) ∧
      ((∀ e ∈ es, e.Answers j) → cfg.maxItems ≠ 0 →
        c.result = attachFootprintDisplays im cfg c.given c.features) := by
  have hsound : Sound im cfg (∀ e ∈ es, e.Answers j) s j := (sound_start j).run hrun id
  have hcoherent := hsound.coherent c hjob
  simp only [Coherent, hreturned] at hcoherent
  obtain ⟨ps, hresult, hown, hall⟩ := hcoherent
  refine ⟨⟨ps, hown, hresult⟩, fun hanswers hmax => ?_⟩
  rw [attach_eq, (localSpecs_subset im cfg c).2 hmax, hresult]
  exact applyPatches_congr (patchesOf_functional (nodup_specs ..)) hown (hall hanswers hmax) _

/-- Every number is read as 0, and every thumbnail shows the same. -/
def plainImages : Images where
  float _ := some 0
  str := textOf
  fetch _ _ := some ⟨[("type".toList, .str "Polygon".toList)], by simp⟩

def oneThumbnail : Item where
  id := some ['a']
  collection := none
  properties := none
  members := [("bbox".toList, .arr [.null, .null, .null, .null]),
    ("assets".toList, .obj [("thumbnail".toList, .obj [("href".toList, .str "http://a".toList)])])]

def onePlan : PlanResult := ⟨[[("id".toList, .str ['a'])]], [], List.nodup_nil⟩

/-- The job, a worker that takes its task and reports, and the end of the job. -/
def oneWorker : List Event :=
  [.begin ['j'] onePlan [oneThumbnail], .coordinator ['j'], .coordinator ['j'], .coordinator ['j'],
    .take, .finish ⟨['j'], 0, .selected 0, "http://a".toList, [0, 0, 0, 0]⟩ .answered,
    .coordinator ['j'], .coordinator ['j']]

def afterOneWorker : State := (run plainImages {} start oneWorker).getD start

theorem footprints_agree_oneWorker : ∃ c,
    afterOneWorker.jobs ['j'] = some c ∧
      c.result = attachFootprintDisplays plainImages {} c.given c.features := by
  have hrun : run plainImages {} start oneWorker = some afterOneWorker := rfl
  have hphase : (afterOneWorker.jobs ['j']).map Coordinator.phase = some .returned := rfl
  obtain ⟨c, hc, hreturned⟩ := Option.map_eq_some_iff.mp hphase
  refine ⟨c, hc, (footprints_agree plainImages {} hrun hc hreturned).2 ?_ (by decide)⟩
  simp [oneWorker, Event.Answers]

end Preview
end Mosaic
end Geofastmap
