import Geofastmap.Process.Jobs

/-!
# Geofastmap.Process.Recovery

What is removed for a process job that did not finish: after a restart of the worker, by what the
queue kept about the job, and after a cancel, by the worker itself.

The queue keeps the result id as it was submitted, or none. `recover_confined_iff` and
`cancel_confined_iff` say when a collection that is older than the job is left alone.
-/

namespace Geofastmap
namespace Process

open Db

variable {D : Type} (hash : Text → Text)

/-! ## What the queue keeps -/

/-- The fields of the hash that `store_process_job_meta` writes, as far as the recovery reads
them. -/
structure ProcessMeta where
  processId : Text
  collectionIdA : Text
  collectionIdB : Text
  collectionIds : List Text
  featureId : Option Text
  resultCollectionId : Option Text
deriving DecidableEq

/-- `text[:limit]` of a text that is not empty. -/
def shortened (limit : Nat) (text : Option Text) : Option Text :=
  (text.filter fun t => !t.isEmpty).map (·.take limit)

/-- What `enqueue_process_job` stores. -/
def storedMeta (p : ProcessJobPayload D) : ProcessMeta :=
  if p.isFeatureVsLayers then
    ⟨p.processId, [], [], p.collectionIds, shortened 200 (p.featureRef.map Prod.snd),
      shortened 200 p.resultCollectionId⟩
  else
    ⟨p.processId, p.collectionIdA, p.collectionIdB, [], none, shortened 200 p.resultCollectionId⟩

/-- A job that the recovery finds. -/
structure OrphanJob (D : Type) where
  payload : ProcessJobPayload D
  running : Bool
  /-- The hash has not expired. -/
  hasMeta : Bool
  /-- The worker stopped after `set_process_job_result` and before the final status. -/
  recorded : Bool
  /-- The store when the job was submitted. -/
  before : Store

variable (job : OrphanJob D)

/-- `get_process_job_meta`. -/
def OrphanJob.meta : Option ProcessMeta :=
  if job.hasMeta then
    some (if job.recorded then
      { storedMeta job.payload with resultCollectionId := some (resultId hash job.payload) }
    else storedMeta job.payload)
  else none

/-- The id under which `_recover_orphaned_running_jobs` looks for the result. -/
def recoveredId (m : ProcessMeta) : Option Text :=
  match m.resultCollectionId with
  | some rid => some rid
  | none =>
    if m.collectionIdA ≠ [] ∧ m.collectionIdB ≠ [] then
      some (defaultResultCollectionId hash m.processId m.collectionIdA m.collectionIdB)
    else
      match m.featureId with
      | none => none
      | some fid =>
        if m.collectionIds ≠ [] then
          some (defaultResultCollectionIdFeature hash m.processId fid m.collectionIds)
        else none

/-- One turn of the loop of `_recover_orphaned_running_jobs`. -/
def recoverJob (s : Store) : Store :=
  if job.running then
    match (job.meta hash).bind (recoveredId hash) with
    | none => s
    | some rid => if rid.isEmpty then s else s.remove rid
  else s

/-- `_recover_orphaned_running_jobs`. -/
def recoverOrphanedRunningJobs (s : Store) (jobs : List (OrphanJob D)) : Store :=
  jobs.foldl (fun s job => recoverJob hash job s) s

/-- `_cleanup_after_process_cancel`. -/
def cleanupAfterProcessCancel (p : ProcessJobPayload D) (rid : Text) (s : Store) : Store :=
  if rid.isEmpty then s
  else if p.processId = measureId then s
  else if p.updateExisting then s.clear rid
  else s.remove rid

/-! ## What must stay -/

/-- Of the collections that are in the older store, those that are still there stay, and so do
their rows. -/
def Spares (old s s' : Store) : Prop :=
  ∀ c, old.attrs c ≠ none → s.attrs c ≠ none →
    s'.attrs c ≠ none ∧ ∀ r ∈ old.rows c, r ∈ s.rows c → r ∈ s'.rows c

/-- No clean-up of the pass touches what is older than its job. -/
def RecoveryConfined (s : Store) : List (OrphanJob D) → Prop
  | [] => True
  | job :: jobs => Spares job.before s (recoverJob hash job s) ∧
      RecoveryConfined (recoverJob hash job s) jobs

/-- The id that the job was submitted with, its first two hundred characters, or else the default
id of its inputs; for a GeoJSON feature there is none. -/
def ProcessJobPayload.knownAs (p : ProcessJobPayload D) : Option Text :=
  match p.resultCollectionId with
  | some (ch :: rid) => some ((ch :: rid).take 200)
  | _ =>
    if p.isFeatureVsLayers then
      match p.featureRef with
      | some (_, ch :: fid) =>
        some (defaultResultCollectionIdFeature hash p.processId ((ch :: fid).take 200)
          p.collectionIds)
      | _ => none
    else if p.collectionIdA ≠ [] ∧ p.collectionIdB ≠ [] then
      some (defaultResultCollectionId hash p.processId p.collectionIdA p.collectionIdB)
    else none

/-- The collection that the recovery takes for the output of the job. -/
def OrphanJob.target : Option Text :=
  if job.running && job.hasMeta then
    if job.recorded then some (resultId hash job.payload) else job.payload.knownAs hash
  else none

/-! ## The recovery -/

theorem shortened_cons (limit : Nat) (ch : Char) (text : Text) :
    shortened limit (some (ch :: text)) = some ((ch :: text).take limit) := rfl

theorem shortened_eq_none {limit : Nat} {text : Option Text}
    (h : ∀ ch rest, text ≠ some (ch :: rest)) : shortened limit text = none := by
  rcases text with _ | ⟨_ | ⟨ch, rest⟩⟩
  · rfl
  · rfl
  · exact absurd rfl (h ch rest)

theorem collectionIds_ne_nil {p : ProcessJobPayload D} (h : p.isFeatureVsLayers = true) :
    p.collectionIds ≠ [] := by
  intro hnil
  simp [ProcessJobPayload.isFeatureVsLayers, hnil] at h

/-- The queue keeps enough to know the job by the id it was submitted with, or by its inputs. -/
theorem recoveredId_storedMeta (p : ProcessJobPayload D) :
    recoveredId hash (storedMeta p) = p.knownAs hash := by
  unfold ProcessJobPayload.knownAs
  split
  next ch rid hrid =>
    unfold storedMeta
    split <;> simp [recoveredId, hrid, shortened_cons]
  next hnone =>
    have hshort : shortened 200 p.resultCollectionId = none := shortened_eq_none hnone
    by_cases hf : p.isFeatureVsLayers = true
    · rw [if_pos hf]
      split
      next c ch fid href =>
        simp [storedMeta, hf, recoveredId, hshort, href, shortened_cons, collectionIds_ne_nil hf]
      next hfid =>
        have hfshort : shortened 200 (p.featureRef.map Prod.snd) = none := by
          apply shortened_eq_none
          intro ch rest he
          obtain ⟨⟨c, f⟩, href, hf'⟩ := Option.map_eq_some_iff.mp he
          exact hfid c ch rest (href.trans (congrArg some (Prod.ext rfl hf')))
        simp [storedMeta, hf, recoveredId, hshort, hfshort]
    · rw [if_neg hf]
      by_cases hab : p.collectionIdA ≠ [] ∧ p.collectionIdB ≠ []
      · simp [storedMeta, hf, recoveredId, hshort, hab]
      · simp [storedMeta, hf, recoveredId, hshort, hab]

theorem knownAs_ne_nil {p : ProcessJobPayload D} {rid : Text} (h : p.knownAs hash = some rid) :
    rid ≠ [] := by
  unfold ProcessJobPayload.knownAs at h
  split at h
  · cases h
    simp
  · split at h
    · split at h
      · cases h
        exact take_ne_nil (by simp) (by decide)
      · cases h
    · split at h
      · cases h
        exact take_ne_nil (by simp) (by decide)
      · cases h

/-- The recovery removes the target and nothing else. -/
theorem recoverJob_eq (s : Store) :
    recoverJob hash job s = (match job.target hash with
      | none => s
      | some rid => s.remove rid) := by
  unfold recoverJob OrphanJob.target OrphanJob.meta
  cases hrun : job.running with
  | false => simp
  | true =>
    cases hmeta : job.hasMeta with
    | false => simp
    | true =>
      cases hrec : job.recorded with
      | true => simp [recoveredId, resultId_ne_nil]
      | false =>
        simp only [if_true, Bool.and_self, Option.bind_some, Bool.false_eq_true, if_false,
          recoveredId_storedMeta]
        cases hk : job.payload.knownAs hash with
        | none => rfl
        | some rid => simp [knownAs_ne_nil hash hk]

theorem spares_refl (old s : Store) : Spares old s s := fun _ _ h => ⟨h, fun _ _ hr => hr⟩

theorem spares_remove_iff (old s : Store) (c : CollectionId) :
    Spares old s (s.remove c) ↔ old.attrs c = none ∨ s.attrs c = none := by
  constructor
  · intro h
    by_contra hno
    obtain ⟨hold, hnow⟩ := not_or.mp hno
    exact (h c hold hnow).1 (s.remove_attrs_self)
  · intro h d hd hs
    have hne : d ≠ c := by
      rintro rfl
      rcases h with h | h
      · exact hd h
      · exact hs h
    rw [s.remove_attrs_ne hne, s.remove_rows_ne hne]
    exact ⟨hs, fun _ _ hr => hr⟩

/-- A job spares what is older exactly when no older collection that is still there has the id the
job is known by. -/
theorem spares_recoverJob_iff (s : Store) :
    Spares job.before s (recoverJob hash job s) ↔
      ∀ rid, job.target hash = some rid → job.before.attrs rid = none ∨ s.attrs rid = none := by
  rw [recoverJob_eq]
  cases ht : job.target hash with
  | none => simp [spares_refl]
  | some rid => simp [spares_remove_iff]

theorem recoverJob_attrs (s : Store) (c : CollectionId) :
    (recoverJob hash job s).attrs c = if job.target hash = some c then none else s.attrs c := by
  rw [recoverJob_eq]
  cases ht : job.target hash with
  | none => simp
  | some rid =>
    by_cases hc : rid = c
    · subst hc
      simp
    · simp [hc, s.remove_attrs_ne (Ne.symm hc)]

/-- The pass is confined exactly when the first job that is known by the id of a collection is
never younger than the collection. -/
theorem recovery_confined_iff (s : Store) (jobs : List (OrphanJob D)) :
    RecoveryConfined hash s jobs ↔
      ∀ earlier job later, jobs = earlier ++ job :: later → ∀ rid, job.target hash = some rid →
        (∀ j ∈ earlier, j.target hash ≠ some rid) → s.attrs rid ≠ none →
          job.before.attrs rid = none := by
  induction jobs generalizing s with
  | nil => simp [RecoveryConfined]
  | cons j jobs ih =>
    unfold RecoveryConfined
    rw [spares_recoverJob_iff, ih]
    constructor
    · rintro ⟨hj, hjobs⟩ earlier job later heq rid ht hearlier hs
      cases earlier with
      | nil =>
        obtain ⟨rfl, -⟩ := List.cons.inj heq
        exact (hj rid ht).resolve_right hs
      | cons j' earlier =>
        obtain ⟨rfl, hrest⟩ := List.cons.inj heq
        rw [List.forall_mem_cons] at hearlier
        apply hjobs earlier job later hrest rid ht hearlier.2
        rw [recoverJob_attrs, if_neg hearlier.1]
        exact hs
    · intro h
      constructor
      · intro rid ht
        by_cases hs : s.attrs rid = none
        · exact Or.inr hs
        · exact Or.inl (h [] j jobs rfl rid ht (by simp) hs)
      · intro earlier job later heq rid ht hearlier hs
        rw [recoverJob_attrs] at hs
        split at hs
        · exact absurd rfl hs
        next hne =>
          apply h (j :: earlier) job later (by rw [heq]; rfl) rid ht _ hs
          rw [List.forall_mem_cons]
          exact ⟨hne, hearlier⟩

/-- The pass is confined when each of its turns is, on the store that the turns before it left. -/
theorem recoveryConfined_iff_pass (s : Store) (jobs : List (OrphanJob D)) :
    RecoveryConfined hash s jobs ↔
      ∀ earlier job later, jobs = earlier ++ job :: later →
        Spares job.before (recoverOrphanedRunningJobs hash s earlier)
          (recoverOrphanedRunningJobs hash s (earlier ++ [job])) := by
  induction jobs generalizing s with
  | nil => simp [RecoveryConfined]
  | cons j jobs ih =>
    unfold RecoveryConfined
    rw [ih]
    constructor
    · rintro ⟨hj, hjobs⟩ earlier job later heq
      cases earlier with
      | nil =>
        obtain ⟨rfl, -⟩ := List.cons.inj heq
        exact hj
      | cons j' earlier =>
        obtain ⟨rfl, hrest⟩ := List.cons.inj heq
        exact hjobs earlier job later hrest
    · intro h
      refine ⟨h [] j jobs rfl, fun earlier job later heq => ?_⟩
      exact h (j :: earlier) job later (by rw [heq]; rfl)

/-! ## The clean-up after a cancel -/

/-- The store when a job that started on `s` is cancelled and has written `written` so far, `none`
when the job cannot get that far. -/
def cancelledStore (p : ProcessJobPayload D) (s : Store) (written : List Row) : Option Store :=
  if p.processId = measureId then some s
  else
    (if p.updateExisting then some s else s.ensure (resultId hash p)).map fun s' =>
      let cleared := s'.clear (resultId hash p)
      cleared.setRows (resultId hash p) (cleared.rows (resultId hash p) ++ written)

/-- The clean-up of a cancelled job touches nothing that is older than the job. -/
def CancelConfined (p : ProcessJobPayload D) (old s : Store) (written : List Row) : Prop :=
  ∀ cancelled, cancelledStore hash p s written = some cancelled →
    Spares old cancelled (cleanupAfterProcessCancel p (resultId hash p) cancelled)

theorem spares_clear_iff (old s : Store) (c : CollectionId) :
    Spares old s (s.clear c) ↔
      old.attrs c = none ∨ s.attrs c = none ∨ s.leftover c = true ∨
        ∀ r ∈ old.rows c, r ∉ s.rows c := by
  constructor
  · intro h
    by_contra hno
    push Not at hno
    obtain ⟨hold, hnow, hleft, r, hr, hrs⟩ := hno
    have hkept := (h c hold hnow).2 r hr hrs
    rw [s.clear_rows, if_neg hleft, Function.update_self] at hkept
    cases hkept
  · intro h d hd hs
    rw [s.clear_attrs]
    refine ⟨hs, fun r hr hrs => ?_⟩
    by_cases hdc : d = c
    · subst hdc
      rcases h with h | h | h | h
      · exact absurd h hd
      · exact absurd h hs
      · rwa [s.clear_rows, if_pos h]
      · exact absurd hrs (h r hr)
    · rwa [s.clear_rows_ne hdc]

theorem cancel_confined_iff (p : ProcessJobPayload D) (old s : Store) (written : List Row) :
    CancelConfined hash p old s written ↔
      p.processId = measureId ∨ old.attrs (resultId hash p) = none ∨
        (p.updateExisting = false ∧ s.blocked (resultId hash p) = true) ∨
        (p.updateExisting = true ∧
          (s.attrs (resultId hash p) = none ∨ s.leftover (resultId hash p) = true ∨
            ∀ r ∈ old.rows (resultId hash p), r ∉ written)) := by
  have hrid : (resultId hash p).isEmpty = false := by simpa using resultId_ne_nil hash p
  unfold CancelConfined cleanupAfterProcessCancel cancelledStore
  rw [hrid]
  by_cases hm : p.processId = measureId
  · simp [hm, spares_refl]
  · cases hu : p.updateExisting with
    | true =>
      simp only [hm, if_false, if_true, Bool.false_eq_true, Option.map_some, Option.some.injEq,
        forall_eq']
      rw [spares_clear_iff, Store.setRows_attrs, Store.setRows_leftover, Store.setRows_rows,
        s.clear_attrs, s.clear_leftover, s.clear_rows]
      cases s.leftover (resultId hash p) <;> simp
    | false =>
      simp only [hm, if_false, Bool.false_eq_true, Store.ensure]
      cases s.blocked (resultId hash p) with
      | true => simp
      | false =>
        simp only [Bool.false_eq_true, if_false, Option.map_some, Option.some.injEq, forall_eq']
        rw [spares_remove_iff]
        simp [Store.register_attrs]

/-! ## Both -/

/-- What is removed for unfinished jobs is confined to their own output exactly under these
conditions on the ids they are known by. -/
theorem cleanup_confined_iff (s : Store) (jobs : List (OrphanJob D)) (p : ProcessJobPayload D)
    (old start : Store) (written : List Row) :
    (RecoveryConfined hash s jobs ↔
      ∀ earlier job later, jobs = earlier ++ job :: later → ∀ rid, job.target hash = some rid →
        (∀ j ∈ earlier, j.target hash ≠ some rid) → s.attrs rid ≠ none →
          job.before.attrs rid = none) ∧
    (CancelConfined hash p old start written ↔
      p.processId = measureId ∨ old.attrs (resultId hash p) = none ∨
        (p.updateExisting = false ∧ start.blocked (resultId hash p) = true) ∨
        (p.updateExisting = true ∧
          (start.attrs (resultId hash p) = none ∨ start.leftover (resultId hash p) = true ∨
            ∀ r ∈ old.rows (resultId hash p), r ∉ written))) :=
  ⟨recovery_confined_iff hash s jobs, cancel_confined_iff hash p old start written⟩

/-- A store with one collection, which has no rows. -/
def oneCollection (c : CollectionId) : Store where
  attrs d := if d = c then some ⟨some 1, .private, false, .vector, []⟩ else none
  finite := by
    apply (Set.finite_singleton c).subset
    intro d hd
    by_contra hne
    exact hd (if_neg hne)
  rows _ := []
  leftover _ := false
  blocked _ := false

/-- A job that is found running, with its hash. -/
def interrupted (sub : Submission Nat) : OrphanJob Nat where
  payload := sub.payload
  running := true
  hasMeta := true
  recorded := false
  before := oneCollection "a".toList

/-- A layer that is being measured is removed at the restart, and so is a result that a cancelled
job was asked to create under the id of another collection. -/
theorem measured_layer_is_removed :
    ¬ RecoveryConfined sampleHash (oneCollection "a".toList)
        [interrupted (.measure "a".toList [])] ∧
      ¬ CancelConfined sampleHash
        (Submission.process (.layer (.buffer 1) "a".toList []) (some "a".toList) false).payload
        (oneCollection "a".toList) (oneCollection "a".toList) [] := by
  constructor
  · intro h
    have hnone := (recovery_confined_iff sampleHash _ _).mp h [] _ [] rfl "a".toList rfl (by simp)
      (by simp [oneCollection])
    simp [interrupted, oneCollection] at hnone
  · intro h
    have hcond := (cancel_confined_iff sampleHash _ _ _ _).mp h
    revert hcond
    decide

end Process
end Geofastmap
