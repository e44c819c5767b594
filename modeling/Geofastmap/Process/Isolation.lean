import Mathlib.Data.Fintype.EquivFin
import Geofastmap.Process.Jobs

/-!
# Geofastmap.Process.Isolation

What a process job reads and writes. The worker clears the collection with the result id before it
reads its layers. `readsStart_iff` says for which requests and stores the rows written are
nevertheless the process's function of the rows at the start of the job, and no other collection
changes, whatever the processes compute.
-/

namespace Geofastmap
namespace Process

open Db

variable {D : Type} (hash : Text → Text) (engine : Engine D)

/-! ## Inputs as they were -/

/-- The process as a function of its inputs, nothing being cleared. -/
def Engine.intended (p : ProcessJobPayload D) (s : Store) : List Row :=
  if p.processId = measureId then engine.measured p (s.rows (resultId hash p))
  else engine.spec p (p.featureRows s.rows) (p.inputs s.rows)

/-- The rows written are those of the inputs at the start, and unless an update was requested, no
row of a collection that existed changes. -/
def ReadsStart (p : ProcessJobPayload D) (s : Store) : Prop :=
  ∀ s' out, runJob hash engine p s = some (s', out) →
    out = engine.intended hash p s ∧
    (p.updateExisting = false →
      ∀ c, c ≠ resultId hash p ∨ s.attrs c ≠ none → s'.rows c = s.rows c)

/-! ## Conditions on the request and the store -/

/-- The job fails, whatever the processes compute: there is no feature, no collection to update, or
no partition for the result. -/
def Doomed (p : ProcessJobPayload D) (s : Store) : Prop :=
  (p.isFeatureVsLayers = true ∧ p.featureRef.isSome = true ∧ p.featureRows s.rows = []) ∨
    (p.updateExisting = true ∧ p.named = true ∧ s.attrs (resultId hash p) = none) ∨
    (p.processId ≠ measureId ∧ p.updateExisting = false ∧ s.blocked (resultId hash p) = true)

/-- The layers have nothing to work on when the job starts. -/
def Idle (p : ProcessJobPayload D) (s : Store) : Prop :=
  p.idle ((p.inputs s.rows).map List.isEmpty) = true

/-- The result is one of the layers and loses rows that they need. -/
def ClearsInput (p : ProcessJobPayload D) (s : Store) : Prop :=
  resultId hash p ∈ p.layers ∧ p.selected (s.rows (resultId hash p)) ≠ [] ∧
    s.leftover (resultId hash p) = false

variable {hash engine}

theorem inputs_congr {p : ProcessJobPayload D} {rows rows' : CollectionId → List Row}
    (h : ∀ c ∈ p.layers, p.selected (rows c) = p.selected (rows' c)) :
    p.inputs rows = p.inputs rows' :=
  List.map_congr_left h

theorem map_isEmpty_inputs (p : ProcessJobPayload D) (rows : CollectionId → List Row) :
    (p.inputs rows).map List.isEmpty = p.layers.map fun c => (p.selected (rows c)).isEmpty := by
  simp [ProcessJobPayload.inputs, Function.comp_def]

/-- Fewer rows leave nothing more to work on. -/
theorem idle_mono {p : ProcessJobPayload D} {f g : CollectionId → Bool}
    (hfg : ∀ c ∈ p.layers, f c = true → g c = true) (h : p.idle (p.layers.map f) = true) :
    p.idle (p.layers.map g) = true := by
  unfold ProcessJobPayload.idle at h ⊢
  split at h
  next hf =>
    rw [if_pos hf]
    simp only [Bool.and_eq_true, List.all_map, List.all_eq_true] at h ⊢
    exact ⟨h.1, fun c hc => hfg c hc (h.2 c hc)⟩
  next hf =>
    rw [if_neg hf]
    split at h
    next hi =>
      rw [if_pos hi]
      simp only [List.any_map, List.any_eq_true] at h ⊢
      obtain ⟨c, hc, hfc⟩ := h
      exact ⟨c, hc, hfg c hc hfc⟩
    next hi =>
      rw [if_neg hi]
      have hlayers : p.layers = [p.collectionIdA, p.collectionIdB] := if_neg hf
      rw [hlayers] at h ⊢
      exact hfg p.collectionIdA (by simp [hlayers]) h

/-- A job that clears none of its inputs finds them as they were. -/
theorem inputs_clear {p : ProcessJobPayload D} {s : Store} (h : ¬ ClearsInput hash p s) :
    p.inputs (s.clear (resultId hash p)).rows = p.inputs s.rows := by
  apply inputs_congr
  intro c hc
  by_cases hrid : c = resultId hash p
  · subst hrid
    by_cases hleft : s.leftover (resultId hash p) = true
    · rw [s.clear_rows_self_iff.mpr (Or.inr hleft)]
    · have hnil : p.selected (s.rows (resultId hash p)) = [] := by
        by_contra hne
        exact h ⟨hc, hne, by simpa using hleft⟩
      rw [s.clear_rows, if_neg hleft, Function.update_self, hnil]
      rfl
  · rw [s.clear_rows_ne hrid]

theorem idle_clear {p : ProcessJobPayload D} {s : Store} (h : Idle p s) :
    p.idle ((p.inputs (s.clear (resultId hash p)).rows).map List.isEmpty) = true := by
  unfold Idle at h
  rw [map_isEmpty_inputs] at h ⊢
  apply idle_mono _ h
  intro c _ hc
  by_cases hrid : c = resultId hash p
  · subst hrid
    rw [s.clear_rows]
    split
    · exact hc
    · simp [ProcessJobPayload.selected]
  · rw [s.clear_rows_ne hrid]
    exact hc

theorem fails_of_doomed {p : ProcessJobPayload D} {s : Store} (h : Doomed hash p s) :
    Fails hash engine p s := by
  rcases h with ⟨hf, href, hnil⟩ | h
  · left
    rw [hnil]
    exact ⟨hf, engine.rejects_nil p href⟩
  · exact Or.inr h

theorem PairOp.processId_ne_measure (op : PairOp) : op.processId ≠ measureId := by
  cases op <;> decide

theorem LayerOp.processId_ne_measure (op : LayerOp D) : op.processId ≠ measureId := by
  cases op with
  | buffer distance =>
    show "buffer".toList ≠ measureId
    decide
  | explode =>
    show "explode".toList ≠ measureId
    decide
  | makeValid =>
    show "make_valid".toList ≠ measureId
    decide
  | union group =>
    show "union".toList ≠ measureId
    decide

theorem measure_of_processId {sub : Submission D} (h : sub.payload.processId = measureId) :
    ∃ c ids, sub = .measure c ids := by
  cases sub with
  | measure c ids => exact ⟨c, ids, rfl⟩
  | process request result update =>
    exfalso
    cases request with
    | pair op a b => exact op.processId_ne_measure h
    | layer op c ids => exact op.processId_ne_measure h
    | feature op source layers hl =>
      cases source with
      | reference c fid => exact op.processId_ne_measure h
      | geojson doc hdoc => exact op.processId_ne_measure h

/-- `measure` writes to its own layer, which it was asked to update. -/
theorem updateExisting_of_measure {sub : Submission D} (h : sub.payload.processId = measureId) :
    sub.payload.updateExisting = true := by
  obtain ⟨c, ids, rfl⟩ := measure_of_processId h
  rfl

/-! ## Processes that tell their inputs apart -/

instance : Infinite Row :=
  Infinite.of_injective (fun n : Nat => (⟨[], [], 0, none, [], none, n, 0⟩ : Row)) fun m n h => by
    simpa using h

theorem exists_new_row (rows : List Row) : ∃ r : Row, r ∉ rows := by
  obtain ⟨r, hr⟩ := Infinite.exists_notMem_finset rows.toFinset
  exact ⟨r, fun h => hr (List.mem_toFinset.mpr h)⟩

/-- Two rows say whether the job was given these inputs, and, where it matters, did not meet its
own output. -/
structure Probe where
  feature : List Row
  layers : List (List Row)
  meddles : Bool
  yes : Row
  no : Row

namespace Probe

open Classical in
/-- `measure` touches the time of the rows selected. -/
noncomputable def toEngine (probe : Probe) : Engine D where
  rejects p feature := p.featureRef.isSome && feature.isEmpty
  rejects_nil p h := by simp [h]
  spec p feature layers :=
    if p.idle (layers.map List.isEmpty) = true then []
    else if feature = probe.feature ∧ layers = probe.layers then [probe.yes] else [probe.no]
  spec_idle p feature layers h := if_pos h
  exec p rid feature layers :=
    if p.idle (layers.map List.isEmpty) = true then []
    else if feature = probe.feature ∧ layers = probe.layers ∧
        ¬ (probe.meddles = true ∧ p.Meets rid layers) then [probe.yes]
    else [probe.no]
  exec_idle p rid feature layers h := if_pos h
  exec_eq p rid feature layers h := by simp [h]
  measured p rows := rows.map fun r =>
    if r ∈ p.selected rows then { r with updatedAt := r.updatedAt + 1 } else r
  measured_idle p rows h := by simp [h]

variable {probe : Probe} {p : ProcessJobPayload D} {s : Store}

theorem not_fails (h : ¬ Doomed hash p s) : ¬ Fails hash (probe.toEngine : Engine D) p s := by
  rintro (⟨hf, hr⟩ | hrest)
  · apply h
    left
    refine ⟨hf, ?_⟩
    simpa [toEngine] using hr
  · exact h (Or.inr hrest)

/-- With one row for both answers, only idle jobs write nothing. -/
theorem exec_same (hsame : probe.no = probe.yes) (rid : CollectionId) (feature : List Row)
    (layers : List (List Row)) :
    (probe.toEngine : Engine D).exec p rid feature layers =
      if p.idle (layers.map List.isEmpty) = true then [] else [probe.yes] := by
  simp only [toEngine, hsame, ite_self]

variable (probe) in
/-- A job that is given other inputs, or meets its output, does not say `yes`. -/
theorem exec_ne_yes (hdiff : probe.yes ≠ probe.no) {rid : CollectionId} {feature : List Row}
    {layers : List (List Row)}
    (h : ¬ (feature = probe.feature ∧ layers = probe.layers ∧
      ¬ (probe.meddles = true ∧ p.Meets rid layers))) :
    (probe.toEngine : Engine D).exec p rid feature layers ≠ [probe.yes] := by
  simp only [toEngine, h, if_false]
  split
  · simp
  · simpa using Ne.symm hdiff

end Probe

/-! ## When a job reads its inputs as they were -/

variable (hash engine)

/-- The rows that existed stay when the result collection is new, or clearing it takes nothing away
and nothing is written. -/
theorem unchanged_of {p : ProcessJobPayload D} {s s' : Store} {out : List Row}
    (hrows : s'.rows = Function.update s.rows (resultId hash p)
      ((s.clear (resultId hash p)).rows (resultId hash p) ++ out))
    (h : s.attrs (resultId hash p) = none ∨
      ((s.rows (resultId hash p) = [] ∨ s.leftover (resultId hash p) = true) ∧ out = [])) :
    ∀ c, c ≠ resultId hash p ∨ s.attrs c ≠ none → s'.rows c = s.rows c := by
  intro c hc
  rw [hrows]
  by_cases hrid : c = resultId hash p
  · subst hrid
    rcases h with h | ⟨hclear, hout⟩
    · exact absurd h (hc.resolve_left (fun hne => hne rfl))
    · rw [Function.update_self, hout, List.append_nil]
      exact s.clear_rows_self_iff.mpr hclear
  · exact Function.update_of_ne hrid _ _

/-- A result collection whose rows stay, whatever the processes compute, lost nothing by the
clearing, and the job had nothing to work on. -/
theorem kept_result {p : ProcessJobPayload D} {s : Store}
    (h : ∀ probe : Probe, (s.clear (resultId hash p)).rows (resultId hash p) ++
      (probe.toEngine : Engine D).exec p (resultId hash p) (p.featureRows s.rows)
        (p.inputs (s.clear (resultId hash p)).rows) = s.rows (resultId hash p)) :
    (s.rows (resultId hash p) = [] ∨ s.leftover (resultId hash p) = true) ∧ Idle p s := by
  obtain ⟨r, hr⟩ := exists_new_row (s.rows (resultId hash p))
  have hprobe := h ⟨[], [], false, r, r⟩
  rw [Probe.exec_same rfl] at hprobe
  split at hprobe
  next hidle =>
    rw [List.append_nil] at hprobe
    have hclear := s.clear_rows_self_iff.mp hprobe
    refine ⟨hclear, ?_⟩
    unfold Idle
    have hkept : ¬ ClearsInput hash p s := by
      rintro ⟨-, hsel, hleft⟩
      rcases hclear with hnil | hleft'
      · rw [hnil] at hsel
        exact hsel rfl
      · rw [hleft] at hleft'
        cases hleft'
    rw [← inputs_clear hkept]
    exact hidle
  next hbusy =>
    exfalso
    apply hr
    rw [← hprobe]
    simp

/-- What a job must do with its inputs: it has nothing to work on, or clears no input and does not
meet its own output. -/
def KeepsInputs (p : ProcessJobPayload D) (s : Store) : Prop :=
  Idle p s ∨ (¬ ClearsInput hash p s ∧ ¬ p.Meets (resultId hash p) (p.inputs s.rows))

/-- A job that fails writes nothing, and `measure` changes the collection it was asked to update. -/
theorem readsStart_measure {p : ProcessJobPayload D} {s : Store} (hm : p.processId = measureId)
    (hu : p.updateExisting = true) : ReadsStart hash engine p s := by
  intro s' out hrun
  by_cases hfails : Fails hash engine p s
  · rw [runJob_fails hash engine hfails] at hrun
    cases hrun
  · obtain ⟨s'', hrun', -, -⟩ := runJob_ok hash engine hfails
    rw [hrun'] at hrun
    cases hrun
    exact ⟨by simp [Engine.output, Engine.intended, hm], by simp [hu]⟩

theorem readsStart_of {p : ProcessJobPayload D} {s : Store} (hm : p.processId ≠ measureId)
    (hreads : KeepsInputs hash p s)
    (hkeeps : p.updateExisting = true ∨ s.attrs (resultId hash p) = none ∨
      ((s.rows (resultId hash p) = [] ∨ s.leftover (resultId hash p) = true) ∧ Idle p s)) :
    ReadsStart hash engine p s := by
  intro s' out hrun
  by_cases hfails : Fails hash engine p s
  · rw [runJob_fails hash engine hfails] at hrun
    cases hrun
  obtain ⟨s'', hrun', hrows, -⟩ := runJob_ok hash engine hfails
  rw [hrun'] at hrun
  cases hrun
  simp only [Engine.output, Engine.intended, hm, if_false] at hrows ⊢
  constructor
  · rcases hreads with hidle | ⟨hclears, hmeets⟩
    · rw [engine.exec_idle _ _ _ _ (idle_clear hidle), engine.spec_idle _ _ _ hidle]
    · rw [inputs_clear hclears, engine.exec_eq _ _ _ _ hmeets]
  · intro hu
    apply unchanged_of hash hrows
    rcases hkeeps with hu' | hs | ⟨hclear, hidle⟩
    · rw [hu] at hu'
      cases hu'
    · exact Or.inl hs
    · exact Or.inr ⟨hclear, engine.exec_idle _ _ _ _ (idle_clear hidle)⟩

/-- Where every process reads its inputs as they were, so do the probes: what they write is what was
meant, and a collection that existed is kept. -/
theorem probe_readsStart {p : ProcessJobPayload D} {s : Store} (hdoomed : ¬ Doomed hash p s)
    (hm : p.processId ≠ measureId) (h : ∀ engine : Engine D, ReadsStart hash engine p s)
    (probe : Probe) :
    (probe.toEngine : Engine D).exec p (resultId hash p) (p.featureRows s.rows)
        (p.inputs (s.clear (resultId hash p)).rows) =
      (probe.toEngine : Engine D).spec p (p.featureRows s.rows) (p.inputs s.rows) ∧
    (p.updateExisting = false → s.attrs (resultId hash p) ≠ none →
      (s.clear (resultId hash p)).rows (resultId hash p) ++
        (probe.toEngine : Engine D).exec p (resultId hash p) (p.featureRows s.rows)
          (p.inputs (s.clear (resultId hash p)).rows) = s.rows (resultId hash p)) := by
  obtain ⟨s', hrun, hrows, -⟩ :=
    runJob_ok hash (probe.toEngine : Engine D) (Probe.not_fails hdoomed)
  obtain ⟨hout, hkeep⟩ := h probe.toEngine s' _ hrun
  simp only [Engine.output, Engine.intended, hm, if_false] at hout hrows
  refine ⟨hout, fun hu hs => ?_⟩
  have hkept := hkeep hu (resultId hash p) (Or.inr hs)
  rwa [hrows, Function.update_self] at hkept

/-- The probe that says `yes` to the inputs at the start, and never after it has met its output. -/
theorem keepsInputs_of {p : ProcessJobPayload D} {s : Store}
    (h : ∀ probe : Probe, (probe.toEngine : Engine D).exec p (resultId hash p)
        (p.featureRows s.rows) (p.inputs (s.clear (resultId hash p)).rows) =
      (probe.toEngine : Engine D).spec p (p.featureRows s.rows) (p.inputs s.rows)) :
    KeepsInputs hash p s := by
  by_cases hidle : Idle p s
  · exact Or.inl hidle
  right
  by_contra hbad
  obtain ⟨no, hno⟩ := exists_new_row []
  obtain ⟨yes, hyes⟩ := exists_new_row [no]
  let probe : Probe := ⟨p.featureRows s.rows, p.inputs s.rows, true, yes, no⟩
  have hspec : (probe.toEngine : Engine D).spec p (p.featureRows s.rows) (p.inputs s.rows) =
      [yes] := by
    have hbusy : ¬ p.idle ((p.inputs s.rows).map List.isEmpty) = true := hidle
    simp [Probe.toEngine, probe, hbusy]
  refine probe.exec_ne_yes (by simpa [probe] using hyes) ?_ ((h probe).trans hspec)
  rintro ⟨-, hsame, hmeets⟩
  have hsame' : p.inputs (s.clear (resultId hash p)).rows = p.inputs s.rows := hsame
  rw [hsame'] at hmeets
  apply hbad
  refine ⟨?_, fun h => hmeets ⟨rfl, h⟩⟩
  rintro ⟨hmem, hsel, hleft⟩
  have hrow := List.map_inj_left.mp hsame' _ hmem
  rw [s.clear_rows, hleft, if_neg (by simp), Function.update_self] at hrow
  exact hsel hrow.symm

/-- A job computes its process on the inputs at its start, and leaves the rest alone, whatever the
processes compute, exactly when it fails, or updates in place, or: it has nothing to work on, or
clears no input and does not meet its output, and the result collection is new, or an update was
requested, or there is nothing to lose and nothing to write. -/
theorem readsStart_iff (sub : Submission D) (s : Store) :
    (∀ engine : Engine D, ReadsStart hash engine sub.payload s) ↔
      Doomed hash sub.payload s ∨ sub.payload.processId = measureId ∨
        ((Idle sub.payload s ∨ (¬ ClearsInput hash sub.payload s ∧
            ¬ sub.payload.Meets (resultId hash sub.payload) (sub.payload.inputs s.rows))) ∧
          (sub.payload.updateExisting = true ∨ s.attrs (resultId hash sub.payload) = none ∨
            ((s.rows (resultId hash sub.payload) = [] ∨
                s.leftover (resultId hash sub.payload) = true) ∧
              Idle sub.payload s))) := by
  by_cases hdoomed : Doomed hash sub.payload s
  · refine iff_of_true (fun engine s' out hrun => ?_) (Or.inl hdoomed)
    rw [runJob_fails hash engine (fails_of_doomed hdoomed)] at hrun
    cases hrun
  by_cases hm : sub.payload.processId = measureId
  · exact iff_of_true
      (fun engine => readsStart_measure hash engine hm (updateExisting_of_measure hm))
      (Or.inr (Or.inl hm))
  simp only [hdoomed, hm, false_or]
  constructor
  · intro h
    have hprobe := probe_readsStart hash hdoomed hm h
    refine ⟨keepsInputs_of hash fun probe => (hprobe probe).1, ?_⟩
    by_cases hu : sub.payload.updateExisting = true
    · exact Or.inl hu
    by_cases hs : s.attrs (resultId hash sub.payload) = none
    · exact Or.inr (Or.inl hs)
    · exact Or.inr (Or.inr
        (kept_result hash fun probe => (hprobe probe).2 (by simpa using hu) hs))
  · rintro ⟨hreads, hkeeps⟩ engine
    exact readsStart_of hash engine hm hreads hkeeps

/-! ## A layer copied onto itself -/

/-- On layers of valid geometries `make_valid` copies them under new ids. -/
def copies : Engine Nat where
  rejects p feature := p.featureRef.isSome && feature.isEmpty
  rejects_nil p h := by simp [h]
  spec p _ layers :=
    if p.idle (layers.map List.isEmpty) = true then []
    else (layers.headD []).map fun r =>
      { r with id := 'n' :: r.id, collectionId := resultId sampleHash p }
  spec_idle p _ layers h := if_pos h
  exec p _ _ layers :=
    if p.idle (layers.map List.isEmpty) = true then []
    else (layers.headD []).map fun r =>
      { r with id := 'n' :: r.id, collectionId := resultId sampleHash p }
  exec_idle p _ _ layers h := if_pos h
  exec_eq _ _ _ _ _ := rfl
  measured _ rows := rows
  measured_idle _ _ _ := rfl

def makeValidOf (c result : CollectionId) : Submission Nat :=
  .process (.layer .makeValid c []) (some result) false

/-- The private layer `a` of user 1 has a row, the public layer `b` of user 2 has none. -/
def twoLayers : Store where
  attrs c :=
    if c = "a".toList then some ⟨some 1, .private, false, .vector, []⟩
    else if c = "b".toList then some ⟨some 2, .public, false, .vector, []⟩ else none
  finite := by
    apply (Set.toFinite {"a".toList, "b".toList}).subset
    intro c hc
    by_contra hne
    rw [Set.mem_insert_iff, Set.mem_singleton_iff, not_or] at hne
    exact hc (by rw [if_neg hne.1, if_neg hne.2])
  rows c :=
    if c = "a".toList then [⟨"f".toList, c, 0, some "POINT (0 0)".toList, [], none, 0, 0⟩] else []
  leftover _ := false
  blocked _ := false

/-- The copy of a layer under the layer's own id reads it after it is emptied. -/
theorem copy_onto_itself_is_empty :
    ¬ ReadsStart sampleHash copies (makeValidOf "a".toList "a".toList).payload twoLayers := by
  intro h
  obtain ⟨hout, -⟩ := h _ _ rfl
  revert hout
  decide

end Process
end Geofastmap
