import Geofastmap.Process.Isolation

/-!
# Geofastmap.Process.Access

Process jobs and permissions. The execution routes check that the collections of a request exist,
and the worker runs without the identity of the user; neither asks `can_see_collection` or
`can_edit_collection`.

- `noninterfering_iff`: when a job tells its user nothing about collections that the user may not
  see.
- `editsAllowed_iff`: when it changes only collections that the user may edit.
-/

namespace Geofastmap
namespace Process

open Db

variable {D : Type} (hash : Text → Text) (engine : Engine D) (shares : Shares) (u : User)

/-! ## What the user can read -/

open Classical in
/-- The output rows of a job that the user can read afterwards. -/
noncomputable def readableOutput (p : ProcessJobPayload D) (s : Store) : List Row :=
  match runJob hash engine p s with
  | none => []
  | some (s', out) => if CanRead shares u s'.attrs (resultId hash p) then out else []

def Store.withRows (s : Store) (rows : CollectionId → List Row) : Store := { s with rows := rows }

/-- Over the states with these collections and tables on which the request is accepted, the
readable output does not depend on the rows of hidden collections. -/
def Noninterfering (sub : Submission D) (s : Store) : Prop :=
  ∀ rows rows', sub.Accepted (s.withRows rows) → sub.Accepted (s.withRows rows') →
    (∀ c, ¬ Hidden shares u s.attrs c → rows c = rows' c) →
      readableOutput hash engine shares u sub.payload (s.withRows rows) =
        readableOutput hash engine shares u sub.payload (s.withRows rows')

/-- The result collection when the job is done. -/
def resultAttrs (p : ProcessJobPayload D) (cs : Collections) : Option Attrs :=
  if p.processId = measureId ∨ p.updateExisting = true then cs (resultId hash p)
  else some ((cs (resultId hash p)).getD ⟨none, .private, false, .vector, []⟩)

/-- The user sees the result collection when the job is done, or can make it the member of a
composite. -/
def ReadsResult (p : ProcessJobPayload D) (cs : Collections) : Prop :=
  ∃ a, resultAttrs hash p cs = some a ∧
    (shares.canSeeCollection (resultId hash p) a u = true ∨
      strip (resultId hash p) = resultId hash p)

/-- The layer is emptied before it is read. -/
def Store.clears (s : Store) (rid c : CollectionId) : Bool := c == rid && !s.leftover c

/-- The collections whose rows a job works on: none when what it empties leaves nothing to work
on. -/
def ProcessJobPayload.reads (p : ProcessJobPayload D) (rid : CollectionId) (s : Store) :
    List CollectionId :=
  if p.processId = measureId then [rid]
  else if p.idle (p.layers.map (s.clears rid)) then []
  else p.source.toList ++ p.layers.filter fun c => !s.clears rid c

variable {hash engine shares u}

variable (shares u) in
/-- Of a job that runs, the user reads all that was written, or nothing. -/
theorem readableOutput_ok {p : ProcessJobPayload D} {s : Store} (h : ¬ Fails hash engine p s) :
    ∃ cs : Collections, cs = (if p.processId = measureId ∨ p.updateExisting = true then s.attrs
        else (s.register (resultId hash p)).attrs) ∧
      (CanRead shares u cs (resultId hash p) →
        readableOutput hash engine shares u p s = engine.output hash p s) ∧
      (¬ CanRead shares u cs (resultId hash p) → readableOutput hash engine shares u p s = []) := by
  obtain ⟨s', hrun, -, hattrs⟩ := runJob_ok hash engine h
  refine ⟨s'.attrs, hattrs, fun hcan => ?_, fun hcan => ?_⟩
  · simp [readableOutput, hrun, hcan]
  · simp [readableOutput, hrun, hcan]

theorem readableOutput_fails {p : ProcessJobPayload D} {s : Store} (h : Fails hash engine p s) :
    readableOutput hash engine shares u p s = [] := by
  simp [readableOutput, runJob_fails hash engine h]

theorem readableOutput_nil {p : ProcessJobPayload D} {s : Store}
    (h : engine.output hash p s = []) : readableOutput hash engine shares u p s = [] := by
  by_cases hfails : Fails hash engine p s
  · exact readableOutput_fails hfails
  · obtain ⟨cs, -, hyes, hno⟩ := readableOutput_ok shares u hfails
    by_cases hcan : CanRead shares u cs (resultId hash p)
    · rw [hyes hcan, h]
    · exact hno hcan

/-- Whether the result can be read is settled by its row in `collections`. -/
theorem canRead_result {p : ProcessJobPayload D} {s : Store} {a : Attrs}
    (ha : resultAttrs hash p s.attrs = some a) :
    CanRead shares u (if p.processId = measureId ∨ p.updateExisting = true then s.attrs
        else (s.register (resultId hash p)).attrs) (resultId hash p) ↔
      ReadsResult hash shares u p s.attrs := by
  have hreads : ReadsResult hash shares u p s.attrs ↔
      (shares.canSeeCollection (resultId hash p) a u = true ∨
        strip (resultId hash p) = resultId hash p) := by
    simp [ReadsResult, ha]
  rw [hreads]
  unfold resultAttrs at ha
  split at ha
  next hkind =>
    rw [if_pos hkind]
    exact canRead_iff s.finite ha (resultId_ne_nil hash p)
  next hkind =>
    rw [if_neg hkind]
    exact canRead_iff (s.register (resultId hash p)).finite (s.register_attrs.trans ha)
      (resultId_ne_nil hash p)

theorem readableOutput_reads {p : ProcessJobPayload D} {s : Store}
    (h : ReadsResult hash shares u p s.attrs) {rows : CollectionId → List Row}
    (hruns : ¬ Fails hash engine p (s.withRows rows)) :
    readableOutput hash engine shares u p (s.withRows rows) =
      engine.output hash p (s.withRows rows) := by
  obtain ⟨a, ha, -⟩ := id h
  obtain ⟨cs, rfl, hyes, -⟩ := readableOutput_ok shares u hruns
  exact hyes ((canRead_result (s := s.withRows rows) ha).mpr h)

theorem readableOutput_not_reads {p : ProcessJobPayload D} {s : Store} {a : Attrs}
    (ha : resultAttrs hash p s.attrs = some a) (h : ¬ ReadsResult hash shares u p s.attrs) :
    readableOutput hash engine shares u p s = [] := by
  by_cases hfails : Fails hash engine p s
  · exact readableOutput_fails hfails
  · obtain ⟨cs, rfl, -, hno⟩ := readableOutput_ok shares u hfails
    exact hno fun hcan => h ((canRead_result ha).mp hcan)

/-! ## What a job reads -/

theorem source_layers_mem {p : ProcessJobPayload D} {rid : CollectionId} {s : Store}
    (hm : p.processId ≠ measureId) (hbusy : ¬ p.idle (p.layers.map (s.clears rid)) = true)
    {c : CollectionId} :
    c ∈ p.reads rid s ↔ p.source = some c ∨ (c ∈ p.layers ∧ s.clears rid c = false) := by
  simp [ProcessJobPayload.reads, hm, hbusy]

theorem clear_rows_of_clears {s : Store} {rid c : CollectionId} (h : s.clears rid c = true) :
    (s.clear rid).rows c = [] := by
  obtain ⟨hc, hleft⟩ := Bool.and_eq_true_iff.mp h
  have hc' : c = rid := by simpa using hc
  subst hc'
  rw [s.clear_rows, if_neg (by simpa using hleft), Function.update_self]

theorem clear_rows_of_not_clears {s : Store} {rid c : CollectionId} (h : s.clears rid c = false) :
    (s.clear rid).rows c = s.rows c := by
  by_cases hc : c = rid
  · subst hc
    have hleft : s.leftover c = true := by simpa [Store.clears] using h
    rw [s.clear_rows, if_pos hleft]
  · exact s.clear_rows_ne hc

/-- What is emptied counts as empty, whatever the rows were. -/
theorem idle_of_clears {p : ProcessJobPayload D} {rid : CollectionId} {s : Store}
    (h : p.idle (p.layers.map (s.clears rid)) = true) :
    p.idle ((p.inputs (s.clear rid).rows).map List.isEmpty) = true := by
  rw [map_isEmpty_inputs]
  apply idle_mono _ h
  intro c _ hc
  rw [clear_rows_of_clears hc]
  rfl

theorem featureRows_congr {p : ProcessJobPayload D} {rows rows' : CollectionId → List Row}
    (hf : p.isFeatureVsLayers = true) (h : ∀ c, p.source = some c → rows c = rows' c) :
    p.featureRows rows = p.featureRows rows' := by
  unfold ProcessJobPayload.featureRows
  cases href : p.featureRef with
  | none => rfl
  | some ref =>
    have hsource : p.source = some ref.1 := by simp [ProcessJobPayload.source, hf, href]
    simp only [h ref.1 hsource]

theorem featureRef_of_submission {sub : Submission D} (hf : sub.payload.isFeatureVsLayers = false) :
    sub.payload.featureRef = none := by
  cases sub with
  | measure c ids => rfl
  | process request result update =>
    cases request with
    | pair op a b => rfl
    | layer op c ids => rfl
    | feature op source layers hl =>
      exfalso
      cases source with
      | reference c fid =>
        simp [Submission.payload, Request.payload, ProcessJobPayload.isFeatureVsLayers, hl] at hf
      | geojson doc hdoc =>
        simp [Submission.payload, Request.payload, ProcessJobPayload.isFeatureVsLayers, hl,
          hdoc] at hf

/-- Jobs that run alike and write the same show the same. -/
theorem readableOutput_congr {p : ProcessJobPayload D} {s : Store}
    {rows rows' : CollectionId → List Row}
    (hfails : Fails hash engine p (s.withRows rows) ↔ Fails hash engine p (s.withRows rows'))
    (hout : engine.output hash p (s.withRows rows) = engine.output hash p (s.withRows rows')) :
    readableOutput hash engine shares u p (s.withRows rows) =
      readableOutput hash engine shares u p (s.withRows rows') := by
  by_cases h : Fails hash engine p (s.withRows rows)
  · rw [readableOutput_fails h, readableOutput_fails (hfails.mp h)]
  obtain ⟨cs, hcs, hyes, hno⟩ := readableOutput_ok shares u h
  obtain ⟨cs', hcs', hyes', hno'⟩ :=
    readableOutput_ok shares u fun h' => h (hfails.mpr h')
  have hsame : cs' = cs := by
    rw [hcs, hcs', Store.register, Store.register]
    cases hattrs : s.attrs (resultId hash p) with
    | none => simp only [Store.withRows, hattrs]
    | some a => simp only [Store.withRows, hattrs]
  subst hsame
  by_cases hcan : CanRead shares u cs' (resultId hash p)
  · rw [hyes hcan, hyes' hcan, hout]
  · rw [hno hcan, hno' hcan]

/-- What a job shows depends on the rows of the collections that it reads. -/
theorem readableOutput_of_reads {sub : Submission D} {s : Store}
    {rows rows' : CollectionId → List Row}
    (h : ∀ c ∈ sub.payload.reads (resultId hash sub.payload) s, rows c = rows' c) :
    readableOutput hash engine shares u sub.payload (s.withRows rows) =
      readableOutput hash engine shares u sub.payload (s.withRows rows') := by
  by_cases hm : sub.payload.processId = measureId
  · have hrid : rows (resultId hash sub.payload) = rows' (resultId hash sub.payload) :=
      h _ (by simp [ProcessJobPayload.reads, hm])
    have hf : sub.payload.isFeatureVsLayers = false := by
      obtain ⟨c, ids, rfl⟩ := measure_of_processId hm
      rfl
    apply readableOutput_congr
    · simp [Fails, hf, Store.withRows]
    · simp [Engine.output, hm, Store.withRows, hrid]
  by_cases hidle : sub.payload.idle (sub.payload.layers.map (s.clears (resultId hash sub.payload))) =
      true
  · have hnil : ∀ rs : CollectionId → List Row,
        engine.output hash sub.payload (s.withRows rs) = [] := by
      intro rs
      rw [Engine.output, if_neg hm]
      exact engine.exec_idle _ _ _ _ (idle_of_clears (s := s.withRows rs) hidle)
    rw [readableOutput_nil (hnil rows), readableOutput_nil (hnil rows')]
  have hfeature : sub.payload.featureRows rows = sub.payload.featureRows rows' := by
    by_cases hf : sub.payload.isFeatureVsLayers = true
    · exact featureRows_congr hf fun c hc => h c ((source_layers_mem hm hidle).mpr (Or.inl hc))
    · simp [ProcessJobPayload.featureRows, featureRef_of_submission (by simpa using hf)]
  have hinputs : sub.payload.inputs ((s.withRows rows).clear (resultId hash sub.payload)).rows =
      sub.payload.inputs ((s.withRows rows').clear (resultId hash sub.payload)).rows := by
    apply inputs_congr
    intro c hc
    cases hclears : s.clears (resultId hash sub.payload) c with
    | true =>
      rw [clear_rows_of_clears (s := s.withRows rows) hclears,
        clear_rows_of_clears (s := s.withRows rows') hclears]
    | false =>
      rw [clear_rows_of_not_clears (s := s.withRows rows) hclears,
        clear_rows_of_not_clears (s := s.withRows rows') hclears]
      show sub.payload.selected (rows c) = sub.payload.selected (rows' c)
      rw [h c ((source_layers_mem hm hidle).mpr (Or.inr ⟨hc, hclears⟩))]
  apply readableOutput_congr
  · unfold Fails
    simp only [Store.withRows, hfeature]
  · simp only [Engine.output, hm, if_false, hinputs]
    simp only [Store.withRows, hfeature]

/-! ## Two stores that a job tells apart -/

variable (hash) in
/-- The job fails on every state with these collections and tables. -/
def Stuck (p : ProcessJobPayload D) (s : Store) : Prop :=
  p.processId ≠ measureId ∧ p.updateExisting = false ∧ s.blocked (resultId hash p) = true

theorem target_exists {sub : Submission D} {cs : Collections} (h : sub.Checked cs)
    (hu : sub.payload.updateExisting = true) (hr : sub.payload.named = true) :
    cs (resultId hash sub.payload) ≠ none := by
  obtain ⟨c, hc, hs⟩ := h.2.2 hu
  have hrid : resultId hash sub.payload = c := by
    cases c with
    | nil => simp [ProcessJobPayload.named, hc] at hr
    | cons ch rest => simp [resultId, hc, hu]
  rwa [hrid]

variable (hash) in
/-- The result of a process that is accepted is a collection when it is done. -/
theorem resultAttrs_some {sub : Submission D} {cs : Collections} (h : sub.Checked cs)
    (hm : sub.payload.processId ≠ measureId) : ∃ a, resultAttrs hash sub.payload cs = some a := by
  unfold resultAttrs
  split
  next hupdate =>
    have hu := hupdate.resolve_left hm
    apply Option.ne_none_iff_exists'.mp
    apply target_exists h hu
    cases sub with
    | measure c ids => exact absurd rfl hm
    | process request result update =>
      obtain ⟨c, hc, -⟩ := h.2.2 hu
      have hresult : (Submission.process request result update).payload.resultCollectionId =
          result.filter fun r => !r.isEmpty := rfl
      rw [hresult] at hc
      obtain ⟨-, hne⟩ := Option.filter_eq_some_iff.mp hc
      rw [ProcessJobPayload.named, hresult, hc]
      exact hne
  · exact ⟨_, rfl⟩

/-- A row that every process works on. -/
def ProcessJobPayload.workRow (p : ProcessJobPayload D) (part : Nat) : Row :=
  ⟨(p.featureRef.map Prod.snd).getD (p.featureIds.headD []), [], part, some [], [], none, 0, 0⟩

/-- Every collection has rows, and all of them are worked on. -/
def ProcessJobPayload.Busy (p : ProcessJobPayload D) (rows : CollectionId → List Row) : Prop :=
  ∀ c, rows c ≠ [] ∧ ∀ r ∈ rows c, ∃ part, r = p.workRow part

section

variable {sub : Submission D} {s : Store} {rows : CollectionId → List Row}

theorem selected_busy (h : sub.payload.Busy rows) (c : CollectionId) :
    sub.payload.selected (rows c) = rows c := by
  apply List.filter_eq_self.mpr
  intro r hr
  obtain ⟨part, rfl⟩ := (h c).2 r hr
  cases hids : sub.payload.featureIds with
  | nil => rfl
  | cons id ids =>
    -- features are named for one layer, where no feature stands against it
    have href : sub.payload.featureRef = none := by
      cases sub with
      | measure c ids => rfl
      | process request result update =>
        cases request with
        | pair op a b => rfl
        | layer op c ids => rfl
        | feature op source layers hl => cases source <;> cases hids
    simp [ProcessJobPayload.workRow, href, hids]

theorem featureRows_busy {p : ProcessJobPayload D} (h : p.Busy rows) {c : CollectionId}
    {fid : Text} (href : p.featureRef = some (c, fid)) : p.featureRows rows = rows c := by
  unfold ProcessJobPayload.featureRows
  rw [href]
  apply List.filter_eq_self.mpr
  intro r hr
  obtain ⟨part, rfl⟩ := (h c).2 r hr
  simp [ProcessJobPayload.workRow, href]

theorem accepted_busy (hchecked : sub.Checked s.attrs) (h : sub.payload.Busy rows) :
    sub.Accepted (s.withRows rows) := by
  refine ⟨hchecked, fun c fid href => ?_⟩
  obtain ⟨r, hr⟩ := List.exists_mem_of_ne_nil _ (h c).1
  obtain ⟨part, rfl⟩ := (h c).2 r hr
  exact ⟨_, hr, by simp [ProcessJobPayload.workRow, href]⟩

theorem runs_busy (probe : Probe) (hchecked : sub.Checked s.attrs)
    (hstuck : ¬ Stuck hash sub.payload s) (h : sub.payload.Busy rows) :
    ¬ Fails hash (probe.toEngine : Engine D) sub.payload (s.withRows rows) := by
  apply Probe.not_fails
  rintro (⟨-, href, hnil⟩ | ⟨hu, hr, hnone⟩ | hblocked)
  · obtain ⟨⟨c, fid⟩, href⟩ := Option.isSome_iff_exists.mp href
    exact (h c).1 ((featureRows_busy h href).symm.trans hnil)
  · exact target_exists hchecked hu hr hnone
  · exact hstuck hblocked

/-- Only what is emptied leaves a busy job without work. -/
theorem idle_busy (h : sub.payload.Busy rows) (rid : CollectionId) :
    sub.payload.idle ((sub.payload.inputs ((s.withRows rows).clear rid).rows).map List.isEmpty) =
      sub.payload.idle (sub.payload.layers.map (s.clears rid)) := by
  rw [map_isEmpty_inputs]
  congr 1
  apply List.map_congr_left
  intro c _
  cases hclears : s.clears rid c with
  | true =>
    rw [clear_rows_of_clears (s := s.withRows rows) hclears]
    rfl
  | false =>
    rw [clear_rows_of_not_clears (s := s.withRows rows) hclears]
    show (sub.payload.selected (rows c)).isEmpty = false
    rw [selected_busy h]
    simpa using (h c).1

end

theorem busy_const (p : ProcessJobPayload D) : p.Busy fun _ => [p.workRow 0] :=
  fun _ => ⟨by simp, fun _ hr => ⟨0, List.mem_singleton.mp hr⟩⟩

theorem busy_update (p : ProcessJobPayload D) (c : CollectionId) :
    p.Busy (Function.update (fun _ => [p.workRow 0]) c [p.workRow 0, p.workRow 1]) := by
  intro d
  by_cases hd : d = c
  · subst hd
    rw [Function.update_self]
    refine ⟨by simp, fun r hr => ?_⟩
    rcases List.mem_pair.mp hr with rfl | rfl
    · exact ⟨0, rfl⟩
    · exact ⟨1, rfl⟩
  · rw [Function.update_of_ne hd]
    exact busy_const p d

/-- `measure` writes as many rows as it is given. -/
theorem measure_tells_apart (probe : Probe) {p : ProcessJobPayload D} {s : Store}
    (hm : p.processId = measureId) {rows rows' : CollectionId → List Row}
    (hlength : (rows (resultId hash p)).length ≠ (rows' (resultId hash p)).length) :
    (probe.toEngine : Engine D).output hash p (s.withRows rows) ≠
      (probe.toEngine : Engine D).output hash p (s.withRows rows') := by
  unfold Engine.output
  simp only [hm, if_true]
  intro heq
  apply hlength
  simpa [Probe.toEngine, Store.withRows] using congrArg List.length heq

/-- Of two states with work to do, a collection that a job reads is the same in both if the job is
given the same rows. -/
theorem rows_of_given {sub : Submission D} {s : Store} {c : CollectionId}
    (hm : sub.payload.processId ≠ measureId)
    (hbusy : ¬ sub.payload.idle
      (sub.payload.layers.map (s.clears (resultId hash sub.payload))) = true)
    (hc : c ∈ sub.payload.reads (resultId hash sub.payload) s)
    {rows rows' : CollectionId → List Row} (h : sub.payload.Busy rows)
    (h' : sub.payload.Busy rows')
    (hfeature : sub.payload.featureRows rows = sub.payload.featureRows rows')
    (hinputs : sub.payload.inputs ((s.withRows rows).clear (resultId hash sub.payload)).rows =
      sub.payload.inputs ((s.withRows rows').clear (resultId hash sub.payload)).rows) :
    rows c = rows' c := by
  rcases (source_layers_mem hm hbusy).mp hc with hsource | ⟨hlayer, hclears⟩
  · unfold ProcessJobPayload.source at hsource
    split at hsource
    · obtain ⟨⟨d, fid⟩, href, rfl⟩ := Option.map_eq_some_iff.mp hsource
      rw [← featureRows_busy h href, ← featureRows_busy h' href]
      exact hfeature
    · cases hsource
  · have hrow := List.map_inj_left.mp hinputs c hlayer
    rw [clear_rows_of_not_clears (s := s.withRows rows) hclears,
      clear_rows_of_not_clears (s := s.withRows rows') hclears] at hrow
    rw [← selected_busy h c, ← selected_busy h' c]
    exact hrow

/-- For a collection that a job reads there is a computation that tells two states apart which
differ in the rows of the collection only. -/
theorem tells_apart {sub : Submission D} {s : Store} {c : CollectionId}
    (hc : c ∈ sub.payload.reads (resultId hash sub.payload) s)
    {rows rows' : CollectionId → List Row} (h : sub.payload.Busy rows)
    (h' : sub.payload.Busy rows') (hlength : (rows c).length ≠ (rows' c).length) :
    ∃ probe : Probe, (probe.toEngine : Engine D).output hash sub.payload (s.withRows rows) ≠
      (probe.toEngine : Engine D).output hash sub.payload (s.withRows rows') := by
  let probe : Probe :=
    ⟨sub.payload.featureRows rows,
      sub.payload.inputs ((s.withRows rows).clear (resultId hash sub.payload)).rows, false,
      sub.payload.workRow 0, sub.payload.workRow 1⟩
  refine ⟨probe, ?_⟩
  by_cases hm : sub.payload.processId = measureId
  · have hrid : c = resultId hash sub.payload := by
      simpa [ProcessJobPayload.reads, hm] using hc
    subst hrid
    exact measure_tells_apart probe hm hlength
  have hbusy : ¬ sub.payload.idle
      (sub.payload.layers.map (s.clears (resultId hash sub.payload))) = true := by
    intro hidle
    simp [ProcessJobPayload.reads, hm, hidle] at hc
  have hyes : (probe.toEngine : Engine D).exec sub.payload (resultId hash sub.payload)
      (sub.payload.featureRows (s.withRows rows).rows)
      (sub.payload.inputs ((s.withRows rows).clear (resultId hash sub.payload)).rows) =
      [probe.yes] := by
    have hwork := hbusy
    rw [← idle_busy h] at hwork
    show (if _ then _ else _) = _
    rw [if_neg hwork, if_pos ⟨rfl, rfl, by simp [probe]⟩]
  unfold Engine.output
  simp only [hm, if_false]
  rw [hyes]
  apply Ne.symm
  apply probe.exec_ne_yes (by simp [probe, ProcessJobPayload.workRow])
  rintro ⟨hfeature, hinputs, -⟩
  apply hlength
  rw [rows_of_given hm hbusy hc h h' hfeature.symm hinputs.symm]

variable (hash shares u)

/-- Only the layer of a `measure` job can be missing at its end, and then it is not hidden. -/
theorem not_hidden_of_no_result {sub : Submission D} {s : Store} (hchecked : sub.Checked s.attrs)
    (hnone : resultAttrs hash sub.payload s.attrs = none) {c : CollectionId}
    (hc : c ∈ sub.payload.reads (resultId hash sub.payload) s) : ¬ Hidden shares u s.attrs c := by
  have hm : sub.payload.processId = measureId := by
    by_contra hm
    obtain ⟨a, ha⟩ := resultAttrs_some hash hchecked hm
    rw [hnone] at ha
    cases ha
  have hrid : c = resultId hash sub.payload := by
    simpa [ProcessJobPayload.reads, hm] using hc
  subst hrid
  rintro ⟨a, ha, -⟩
  rw [resultAttrs, if_pos (Or.inl hm), ha] at hnone
  cases hnone

/-- With some computation, a job that works on a hidden collection gives it away to whoever can read
the result. -/
theorem interferes {sub : Submission D} {s : Store} (hchecked : sub.Checked s.attrs)
    (hreads : ReadsResult hash shares u sub.payload s.attrs)
    (hstuck : ¬ Stuck hash sub.payload s) {c : CollectionId}
    (hc : c ∈ sub.payload.reads (resultId hash sub.payload) s)
    (hhidden : Hidden shares u s.attrs c) :
    ∃ engine : Engine D, ¬ Noninterfering hash engine shares u sub s := by
  have hb := busy_const sub.payload
  have hb' := busy_update sub.payload c
  obtain ⟨probe, hdiff⟩ := tells_apart hc hb hb' (by simp)
  refine ⟨probe.toEngine, fun h => hdiff ?_⟩
  have hsame := h _ _ (accepted_busy hchecked hb) (accepted_busy hchecked hb') (by
    intro d hd
    have hdc : d ≠ c := by
      rintro rfl
      exact hd hhidden
    rw [Function.update_of_ne hdc])
  rwa [readableOutput_reads hreads (runs_busy probe hchecked hstuck hb),
    readableOutput_reads hreads (runs_busy probe hchecked hstuck hb')] at hsame

/-- A job tells its user nothing about hidden collections, whatever the processes compute, exactly
when the user can read the result neither as such nor in a composite, or the job always fails, or
none of the collections that it works on is hidden. -/
theorem noninterfering_iff (sub : Submission D) (s : Store) (hchecked : sub.Checked s.attrs) :
    (∀ engine : Engine D, Noninterfering hash engine shares u sub s) ↔
      ¬ ReadsResult hash shares u sub.payload s.attrs ∨ Stuck hash sub.payload s ∨
        ∀ c ∈ sub.payload.reads (resultId hash sub.payload) s, ¬ Hidden shares u s.attrs c := by
  constructor
  · intro h
    by_contra hno
    push Not at hno
    obtain ⟨hreads, hstuck, c, hc, hhidden⟩ := hno
    obtain ⟨engine, hengine⟩ := interferes hash shares u hchecked hreads hstuck hc hhidden
    exact hengine (h engine)
  · intro h engine rows rows' _ _ hagree
    rcases h with hreads | hstuck | hvisible
    · cases ha : resultAttrs hash sub.payload s.attrs with
      | some a =>
        rw [readableOutput_not_reads (s := s.withRows rows) ha hreads,
          readableOutput_not_reads (s := s.withRows rows') ha hreads]
      | none =>
        exact readableOutput_of_reads fun c hc =>
          hagree c (not_hidden_of_no_result hash shares u hchecked ha hc)
    · have hfails : ∀ rs : CollectionId → List Row,
          Fails hash engine sub.payload (s.withRows rs) := fun _ => Or.inr (Or.inr hstuck)
      rw [readableOutput_fails (hfails rows), readableOutput_fails (hfails rows')]
    · exact readableOutput_of_reads fun c hc => hagree c (hvisible c hc)

/-! ## What the job changes -/

variable (engine)

/-- The job changes rows only of a collection that the user could edit when the request was
accepted, or that the job created. -/
def EditsAllowed (accepted : Collections) (p : ProcessJobPayload D) (s : Store) : Prop :=
  ∀ s' out, runJob hash engine p s = some (s', out) → ∀ c, s'.rows c ≠ s.rows c →
    (∃ a, accepted c = some a ∧ shares.canEditCollection c a u = true) ∨
      (s.attrs c = none ∧ s'.attrs c ≠ none)

/-- There is nothing to clear, and nothing to write. -/
def Leaves (p : ProcessJobPayload D) (s : Store) : Prop :=
  if p.processId = measureId then p.selected (s.rows (resultId hash p)) = []
  else (s.rows (resultId hash p) = [] ∨ s.leftover (resultId hash p) = true) ∧ Idle p s

variable {hash engine shares u}

theorem created_iff {p : ProcessJobPayload D} {s s' : Store}
    (hattrs : s'.attrs = (if p.processId = measureId ∨ p.updateExisting = true then s.attrs
      else (s.register (resultId hash p)).attrs)) :
    (s.attrs (resultId hash p) = none ∧ s'.attrs (resultId hash p) ≠ none) ↔
      (s.attrs (resultId hash p) = none ∧ p.processId ≠ measureId ∧ p.updateExisting = false) := by
  apply and_congr_right
  intro hnone
  rw [hattrs]
  split
  next hkind =>
    simp only [hnone, ne_eq, not_true_eq_false, false_iff]
    rintro ⟨hm, hu⟩
    rcases hkind with hkind | hkind
    · exact hm hkind
    · rw [hu] at hkind
      cases hkind
  next hkind =>
    obtain ⟨hm, hu⟩ := not_or.mp hkind
    simp [Store.register_attrs, hm, hu]

/-- A job that leaves the result as it is changes nothing. -/
theorem leaves_rows {p : ProcessJobPayload D} {s s' : Store} (h : Leaves hash p s)
    (hrows : s'.rows = Function.update s.rows (resultId hash p)
      (if p.processId = measureId then engine.output hash p s
        else (s.clear (resultId hash p)).rows (resultId hash p) ++ engine.output hash p s)) :
    s'.rows = s.rows := by
  rw [hrows]
  unfold Leaves at h
  unfold Engine.output
  split at h
  next hm => simp [hm, engine.measured_idle p _ h]
  next hm =>
    obtain ⟨hclear, hidle⟩ := h
    simp only [hm, if_false]
    rw [engine.exec_idle _ _ _ _ (idle_clear hidle), List.append_nil,
      s.clear_rows_self_iff.mpr hclear, Function.update_eq_self]

/-- A result that no computation changes is left as it is. -/
theorem leaves_of_kept {p : ProcessJobPayload D} {s : Store}
    (h : ∀ probe : Probe, (if p.processId = measureId then
        (probe.toEngine : Engine D).output hash p s
      else (s.clear (resultId hash p)).rows (resultId hash p) ++
        (probe.toEngine : Engine D).output hash p s) = s.rows (resultId hash p)) :
    Leaves hash p s := by
  unfold Leaves
  unfold Engine.output at h
  split
  next hm =>
    have hprobe := h ⟨[], [], false, p.workRow 0, p.workRow 0⟩
    simp only [hm, if_true, Probe.toEngine] at hprobe
    by_contra hne
    obtain ⟨r, hr⟩ := List.exists_mem_of_ne_nil _ hne
    have hmem : r ∈ s.rows (resultId hash p) := List.mem_of_mem_filter hr
    have hkept := List.map_inj_left.mp (hprobe.trans (List.map_id _).symm) r hmem
    rw [if_pos hr] at hkept
    simpa using congrArg Row.updatedAt hkept
  next hm =>
    simp only [hm, if_false] at h
    exact kept_result hash h

variable (hash shares u)

theorem editsAllowed_iff (accepted : Collections) (p : ProcessJobPayload D) (s : Store) :
    (∀ engine : Engine D, EditsAllowed hash engine shares u accepted p s) ↔
      Doomed hash p s ∨ Leaves hash p s ∨
        (∃ a, accepted (resultId hash p) = some a ∧
          shares.canEditCollection (resultId hash p) a u = true) ∨
        (s.attrs (resultId hash p) = none ∧ p.processId ≠ measureId ∧
          p.updateExisting = false) := by
  constructor
  · intro h
    by_contra hno
    push Not at hno
    obtain ⟨hdoomed, hleaves, hedit, hcreated⟩ := hno
    apply hleaves
    apply leaves_of_kept
    intro probe
    obtain ⟨s', hrun, hrows, hattrs⟩ :=
      runJob_ok hash (probe.toEngine : Engine D) (Probe.not_fails hdoomed)
    by_contra hne
    have hchange : s'.rows (resultId hash p) ≠ s.rows (resultId hash p) := by
      rwa [hrows, Function.update_self]
    rcases h probe.toEngine s' _ hrun _ hchange with ⟨a, ha, hcan⟩ | hmade
    · exact hedit a ha hcan
    · obtain ⟨hnone, hm, hu⟩ := (created_iff hattrs).mp hmade
      exact hcreated hnone hm hu
  · intro h engine s' out hrun c hc
    by_cases hfails : Fails hash engine p s
    · rw [runJob_fails hash engine hfails] at hrun
      cases hrun
    obtain ⟨s'', hrun', hrows, hattrs⟩ := runJob_ok hash engine hfails
    rw [hrun'] at hrun
    cases hrun
    have hrid : c = resultId hash p := by
      by_contra hne
      rw [hrows, Function.update_of_ne hne] at hc
      exact hc rfl
    subst hrid
    rcases h with hdoomed | hleaves | hedit | hcreated
    · exact absurd (fails_of_doomed hdoomed) hfails
    · rw [leaves_rows hleaves hrows] at hc
      exact absurd rfl hc
    · exact Or.inl hedit
    · exact Or.inr ((created_iff hattrs).mpr hcreated)

/-- When an accepted job respects the permissions of its user, whatever the processes compute: what
it tells, and what it changes. -/
theorem access_iff (sub : Submission D) (accepted start : Store) (h : sub.Accepted accepted) :
    ((∀ engine : Engine D, Noninterfering hash engine shares u sub accepted) ↔
      ¬ ReadsResult hash shares u sub.payload accepted.attrs ∨ Stuck hash sub.payload accepted ∨
        ∀ c ∈ sub.payload.reads (resultId hash sub.payload) accepted,
          ¬ Hidden shares u accepted.attrs c) ∧
    ((∀ engine : Engine D, EditsAllowed hash engine shares u accepted.attrs sub.payload start) ↔
      Doomed hash sub.payload start ∨ Leaves hash sub.payload start ∨
        (∃ a, accepted.attrs (resultId hash sub.payload) = some a ∧
          shares.canEditCollection (resultId hash sub.payload) a u = true) ∨
        (start.attrs (resultId hash sub.payload) = none ∧
          sub.payload.processId ≠ measureId ∧ sub.payload.updateExisting = false)) :=
  ⟨noninterfering_iff hash shares u sub accepted h.1,
    editsAllowed_iff hash shares u accepted.attrs sub.payload start⟩

def owner (id : Nat) : User := ⟨id, [], false⟩

theorem makeValidOf_accepted {c result : CollectionId} {s : Store} (h : s.attrs c ≠ none) :
    (makeValidOf c result).Accepted s := by
  have hlayers : (makeValidOf c result).payload.layers = [c, c] := rfl
  have hsource : (makeValidOf c result).payload.source = none := rfl
  have hupdate : (makeValidOf c result).payload.updateExisting = false := rfl
  have href : (makeValidOf c result).payload.featureRef = none := rfl
  simp [Submission.Accepted, Submission.Checked, ProcessJobPayload.FeatureFound, hlayers, hsource,
    hupdate, href, h]

/-- The owner of `a` copies the public layer `b` into it. -/
theorem copy_into_own_layer :
    (∀ engine : Engine Nat, Noninterfering sampleHash engine (fun _ _ => none) (owner 1)
        (makeValidOf "b".toList "a".toList) twoLayers) ∧
      ∀ engine : Engine Nat, EditsAllowed sampleHash engine (fun _ _ => none) (owner 1)
        twoLayers.attrs (makeValidOf "b".toList "a".toList).payload twoLayers := by
  have haccess := access_iff sampleHash (fun _ _ => none) (owner 1)
    (makeValidOf "b".toList "a".toList) twoLayers twoLayers (makeValidOf_accepted (by decide))
  constructor
  · apply haccess.1.mpr
    right
    right
    intro c hc ⟨a, ha, hsee⟩
    have hreads : (makeValidOf "b".toList "a".toList).payload.reads
        (resultId sampleHash (makeValidOf "b".toList "a".toList).payload) twoLayers =
        ["b".toList, "b".toList] := by
      decide
    rw [hreads] at hc
    have hb : c = "b".toList := by simpa using hc
    subst hb
    cases ha
    revert hsee
    decide
  · apply haccess.2.mpr
    right
    right
    left
    have hrid : resultId sampleHash (makeValidOf "b".toList "a".toList).payload = "a".toList := by
      decide
    rw [hrid]
    exact ⟨_, rfl, by decide⟩

/-- User 2 copies the private layer `a` of user 1 into a layer of their own, and overwrites it. -/
theorem private_layer_is_copied_and_overwritten :
    ¬ Noninterfering sampleHash copies (fun _ _ => none) (owner 2)
        (makeValidOf "a".toList "b".toList) twoLayers ∧
      ¬ EditsAllowed sampleHash copies (fun _ _ => none) (owner 2) twoLayers.attrs
        (makeValidOf "b".toList "a".toList).payload twoLayers := by
  constructor
  · intro h
    have hreads : ReadsResult sampleHash (fun _ _ => none) (owner 2)
        (makeValidOf "a".toList "b".toList).payload twoLayers.attrs := by
      refine ⟨⟨some 2, .public, false, .vector, []⟩, ?_, Or.inl rfl⟩
      have hrid : resultId sampleHash (makeValidOf "a".toList "b".toList).payload = "b".toList := by
        decide
      rw [resultAttrs, hrid]
      rfl
    have hruns : ∀ rows, ¬ Fails sampleHash copies (makeValidOf "a".toList "b".toList).payload
        (twoLayers.withRows rows) := by
      rintro rows (⟨-, hrejects⟩ | ⟨hu, -⟩ | ⟨-, -, hblocked⟩)
      · cases hrejects
      · cases hu
      · cases hblocked
    have hsame := h twoLayers.rows (fun _ => []) (makeValidOf_accepted (by decide))
      (makeValidOf_accepted (by decide)) (by
        intro c hc
        by_cases hca : c = "a".toList
        · subst hca
          exact absurd ⟨_, rfl, by decide⟩ hc
        · exact if_neg hca)
    rw [readableOutput_reads hreads (hruns _),
      readableOutput_reads hreads (hruns _)] at hsame
    revert hsame
    decide
  · intro h
    have hallowed := h _ _ rfl "a".toList (by decide)
    rcases hallowed with ⟨a, ha, hedit⟩ | ⟨hnone, -⟩
    · cases ha
      revert hedit
      decide
    · revert hnone
      decide

end Process
end Geofastmap
