import Geofastmap.Bulk.Loops

/-!
# Geofastmap.Bulk.Honest

The session importer in append mode, under every pattern of commits that raise.

A commit that raises before it takes effect is rolled back, and what is tried again is the commit of
an empty session. The rows are lost and stay counted. `Owes` weighs, at every point of the import,
the rows in the collection, in the session and in the buffer against the rows before the import and
the rows counted; `commit_honest_iff` is what is left of it at the end.
-/

namespace Geofastmap
namespace Bulk

open Db Interleave

/-- A commit with rows to write that raised before it took effect. -/
def lostCommit : Label × Bool := (.commit true, false)

/-- The faults of the importer: commits of its session. -/
def commitFaults (l : Label) (_ : Bool) : Prop := ∃ rows, l = .commit rows

/-- The rows that `live` is made of, by the faults so far: all that are due, or fewer. -/
structure Due (live due : List Row) (past : Past Label) : Prop where
  kept : lostCommit ∉ past → live.Perm due
  short : lostCommit ∈ past → live.length < due.length

/-- The state of the import at a point: rows pending in the session can be committed, and with the
rows of the collection and `rest` they make up what is due. -/
structure Owes (c : CollectionId) (rest due pending : List Row) (k : Catalog)
    (past : Past Label) : Prop where
  ready : ∃ k', k.insertFeatures pending = .ok k'
  own : ∀ r ∈ pending, r.collectionId = c
  due : Due (k.rowsOf c ++ pending ++ rest) due past

theorem Due.length_le {live due : List Row} {past : Past Label} (h : Due live due past) :
    live.length ≤ due.length := by
  by_cases hl : lostCommit ∈ past
  · exact Nat.le_of_lt (h.short hl)
  · exact Nat.le_of_eq (h.kept hl).length_eq

/-- The same rows on both sides. -/
theorem Due.add {live live' due due' : List Row} {past : Past Label} (h : Due live due past)
    (more : List Row) (hl : live'.Perm (live ++ more)) (hd : due'.Perm (due ++ more)) : Due live' due' past where
  kept hp := hl.trans (((h.kept hp).append_right more).trans hd.symm)
  short hp := by
    have := h.short hp
    rw [hl.length_eq, hd.length_eq, List.length_append, List.length_append]
    omega

theorem Due.perm {live live' due : List Row} {past : Past Label} (h : Due live due past)
    (hl : live'.Perm live) : Due live' due past :=
  h.add [] (by simpa using hl) (by simp)

/-- A fault that loses nothing. -/
theorem Due.pass {live due : List Row} {past : Past Label} {x : Label × Bool}
    (h : Due live due past) (hx : x ≠ lostCommit) : Due live due (past ++ [x]) where
  kept hp := h.kept fun hm => hp (by simp [hm])
  short hp := h.short (by simpa [hx.symm] using hp)

/-- A fault that loses rows. -/
theorem Due.lose {live live' due : List Row} {past : Past Label} (h : Due live due past)
    (hl : live'.length < live.length) : Due live' due (past ++ [lostCommit]) where
  kept hp := absurd (by simp) hp
  short _ := Nat.lt_of_lt_of_le hl h.length_le

section
variable {c : CollectionId} {rest due : List Row} {α : Type}

/-- Steps that are no commit and leave the tables. -/
def Beside (l : Label) (g : Sys → Sys) : Prop :=
  (∀ rows, l ≠ .commit rows) ∧ ∀ s, (g s).catalog = s.catalog

/-- What is known of the tables stays known. -/
theorem tried_beside {P : Sys → Past Label → Prop}
    (hP : ∀ s t past, t.catalog = s.catalog → P s past → P t past) {p : Work α}
    (h : p.Within Beside) : Tried commitFaults P p fun _ s past => P s past := by
  refine Tried.of_run (h.mono fun l g hl late ⟨rows, hr⟩ => hl.1 rows hr) fun s past hp => ?_
  refine hP s _ past ?_ hp
  exact h.run (R := fun s t => t.catalog = s.catalog) (fun _ => rfl)
    (fun _ _ _ h1 h2 => h2.trans h1) (fun _ _ hg => hg.2) s

theorem returns_beside {P : Sys → Past Label → Prop}
    (hP : ∀ s t past, t.catalog = s.catalog → P s past → P t past) {p : Work α}
    (h : p.Within Beside) : Returns commitFaults P p fun _ s past => P s past :=
  (tried_beside hP h).conseq (fun _ _ hp => hp) fun _ _ _ hq _ _ => hq

theorem returns_transaction {P : Sys → Past Label → Prop} {V : α → Sys → Past Label → Prop}
    {l : Label} (hl : ∀ rows, l ≠ .commit rows) {f : Catalog → Except DbError (α × Catalog)}
    (h : ∀ s past a k, P s past → f s.catalog = .ok (a, k) → V a { s with catalog := k } past) :
    Returns commitFaults P (transaction l f) V := by
  have hno : ∀ {late}, ¬commitFaults l late := fun ⟨rows, hr⟩ => hl rows hr
  refine Tried.atomic (fun s past a s' hp hf => ⟨?_, fun e h => absurd h hno⟩)
    (fun s past e _ _ => ⟨nofun, fun e' h => absurd h hno⟩) fun s past e _ h => absurd h hno
  cases hk : f s.catalog with
  | error e => simp only [hk] at hf; cases hf
  | ok r =>
    simp only [hk, Except.ok.injEq, Prod.mk.injEq] at hf
    obtain ⟨rfl, rfl⟩ := hf
    rintro _ ⟨⟩
    exact h s past r.1 r.2 hp hk

/-- A commit empties the session, whatever comes of it. -/
theorem tried_sessionCommit {se : Session} :
    Tried commitFaults (fun s past => Owes c rest due se.rows s.catalog past) (sessionCommit c se)
      fun _ s past => Owes c rest due [] s.catalog past := by
  have hnil : ∀ k : Catalog, ∃ k', k.insertFeatures [] = .ok k' := fun k => ⟨k, rfl⟩
  have hdone : ∀ {k k' : Catalog} {past}, Owes c rest due se.rows k past →
      k.insertFeatures se.rows = .ok k' → Owes c rest due [] k' past := by
    intro k k' past h hk
    refine ⟨hnil _, by simp, h.due.perm ?_⟩
    have hrows := Catalog.insertFeatures_ok hk c
    rw [List.filter_eq_self.mpr fun r hr => by simp [h.own r hr]] at hrows
    simpa using hrows.append_right rest
  have hlate : ∀ {k : Catalog} {past}, Owes c rest due [] k past →
      Owes c rest due [] k (past ++ [(.commit !se.rows.isEmpty, true)]) :=
    fun h => ⟨h.ready, h.own, h.due.pass (by simp [lostCommit])⟩
  refine Tried.atomic (fun s past a s' hp hf => ?_) (fun s past e hp hf => ?_)
    fun s past e hp _ => ?_
  · obtain ⟨k, hk⟩ := hp.ready
    simp only [hk, Except.ok.injEq, Prod.mk.injEq] at hf
    obtain ⟨_, rfl⟩ := hf
    exact ⟨hdone hp hk, fun e _ => hlate (hdone hp hk)⟩
  · obtain ⟨k, hk⟩ := hp.ready
    simp only [hk] at hf
    cases hf
  · cases hr : se.rows with
    | nil =>
      rw [hr] at hp
      exact ⟨hp.ready, hp.own, hp.due.pass (by simp [lostCommit])⟩
    | cons r rs =>
      have hless : (s.catalog.rowsOf c ++ [] ++ rest).length <
          (s.catalog.rowsOf c ++ se.rows ++ rest).length := by
        simp only [List.length_append, List.length_nil, hr, List.length_cons]
        omega
      exact ⟨hnil _, by simp, hp.due.lose hless⟩

section
variable {progress : Status → Nat → Work Unit} (hprog : ∀ st n, (progress st n).Within Beside)
include hprog

theorem tried_commitRetry (n : Nat) (se : Session) :
    Tried commitFaults (fun s past => Owes c rest due se.rows s.catalog past)
      (commitRetry c progress n se) fun _ s past => Owes c rest due [] s.catalog past := by
  induction n generalizing se with
  | zero => exact tried_sessionCommit
  | succ n ih =>
    refine Tried.tryCatch tried_sessionCommit (fun _ _ _ h => h) fun e => ?_
    split
    · exact Tried.bind (tried_beside (fun _ _ _ hk h => hk ▸ h) (hprog _ _)) (fun _ => ih Session.fresh) fun _ _ _ h => h
    · exact Tried.throw e fun _ _ h => h

theorem returns_commitWithRetry {cfg : Settings} (se : Session) :
    Returns commitFaults (fun s past => Owes c rest due se.rows s.catalog past)
      (commitWithRetry cfg c progress se)
      fun se' s past => se' = Session.fresh ∧ Owes c rest due [] s.catalog past := by
  refine Returns.bind (V := fun _ s past => Owes c rest due [] s.catalog past) ?_ fun _ => ?_
  · refine Tried.tryCatch (tried_commitRetry hprog _ se) (fun _ _ _ h _ _ => h) fun e => ?_
    exact Tried.pure () fun _ _ h _ _ => h
  · exact Returns.pure fun _ _ h => ⟨rfl, h⟩

end

end

/-! ## The loops -/

section
variable {cfg : Settings} {c : CollectionId} {jobId : Option JobId} {now : Nat} {base : List Row}

/-- What holds of a source in the loop: `base` is due before its features, and `fresh` are rows of
the record that is being read. -/
structure Honest (c : CollectionId) (jobId : Option JobId) (now : Nat) (base : List Row)
    (st : Importing) (fresh : List (List Row)) (k : Catalog) (past : Past Label) : Prop where
  count : st.created = st.counted.length
  owes : Owes c (st.buffer.flatMap (statementRows c jobId now))
    (base ++ st.counted.flatten ++ fresh.flatten) st.session.rows k past

theorem Item.mem_rows {it : Item} {r : Row} (h : r ∈ it.rows c jobId now) : r.collectionId = c := by
  obtain ⟨i, hi, rfl⟩ := List.mem_mapIdx.mp h
  rfl

/-- The rows of a statement come into the session. -/
theorem returns_sessionExecute {rest due : List Row} (se : Session) (x : Statement) :
    Returns commitFaults
      (fun s past => Owes c (statementRows c jobId now x ++ rest) due se.rows s.catalog past)
      (sessionExecute c jobId now se x) fun se' s past => Owes c rest due se'.rows s.catalog past := by
  cases x with
  | error e => exact Returns.throw _
  | ok it =>
    refine Returns.bind (V := fun _ s past => (∃ k', s.catalog.insertFeatures
      (se.rows ++ it.rows c jobId now) = .ok k') ∧
        Owes c (it.rows c jobId now ++ rest) due se.rows s.catalog past) ?_ fun _ => ?_
    · refine returns_transaction (by simp) fun s past a k hp hf => ?_
      cases hk : s.catalog.insertFeatures (se.rows ++ it.rows c jobId now) with
      | error e => simp only [hk, Except.map] at hf; cases hf
      | ok k' =>
        simp only [hk, Except.map, Except.ok.injEq, Prod.mk.injEq] at hf
        obtain ⟨_, rfl⟩ := hf
        exact ⟨⟨k', hk⟩, hp⟩
    · refine Returns.pure fun s past h => ⟨h.1, fun r hr => ?_, h.2.due.perm ?_⟩
      · rcases List.mem_append.mp hr with hr | hr
        · exact h.2.own r hr
        · exact Item.mem_rows hr
      · simp [List.append_assoc]

theorem returns_executeAll {due : List Row} (xs : List Statement) (se : Session) :
    Returns commitFaults
      (fun s past => Owes c (xs.flatMap (statementRows c jobId now)) due se.rows s.catalog past)
      (executeAll c jobId now xs se) fun se' s past => Owes c [] due se'.rows s.catalog past := by
  induction xs generalizing se with
  | nil => exact Returns.pure fun _ _ h => h
  | cons x xs ih => exact Returns.bind (returns_sessionExecute se x) fun se' => ih se'

theorem beside_read {l : Label} (hl : ∀ rows, l ≠ .commit rows) : Beside l id :=
  ⟨hl, fun _ => rfl⟩

theorem beside_cancelCheck (jobId : Option JobId) :
    (raiseIfBulkCancelled cfg jobId).Within Beside :=
  within_raiseIfBulkCancelled (fun _ => beside_read (by simp)) jobId

theorem beside_sessionExecute (c : CollectionId) (jobId : Option JobId) (now : Nat) (se : Session)
    (x : Statement) :
    (sessionExecute c jobId now se x).Within Beside := by
  cases x with
  | error e => exact Prog.Within.throw _
  | ok it =>
    exact Prog.Within.bind (within_queryOr (beside_read (by simp))) fun _ => Prog.Within.pure _

/-- The value of `attempt p` is what `p` comes to. -/
theorem returns_attempt {α : Type} {P : Sys → Past Label → Prop}
    {Q : Except Exn α → Sys → Past Label → Prop} {p : Work α} (h : Tried commitFaults P p Q) :
    Returns commitFaults P (attempt p) Q := by
  refine Tried.tryCatch (V := fun r s past => match r with
    | .ok a => Q a s past
    | .error e => Q (.error e) s past) (Tried.bind h (fun a => ?_) fun _ _ _ hq => hq) ?_ fun e => ?_
  · exact Tried.pure _ fun _ _ hq => hq
  · rintro a s past hq _ ⟨⟩
    exact hq
  · exact Returns.pure fun _ _ hq => hq

/-- A statement in a savepoint: what it raises leaves the tables and the session. -/
theorem returns_insert (st : Importing) (x : Statement) :
    Returns commitFaults (fun s past => Honest c jobId now base st [] s.catalog past)
      (attempt (sessionExecute c jobId now st.session x)) fun r s past =>
        match r with
        | .ok se => Honest c jobId now base { st with
            created := st.created + 1
            session := se
            counted := st.counted ++ [statementRows c jobId now x] } [] s.catalog past
        | .error _ => Honest c jobId now base st [] s.catalog past := by
  refine returns_attempt fun fs s past h hR => ?_
  have howes : Owes c (statementRows c jobId now x ++
      st.buffer.flatMap (statementRows c jobId now))
      (base ++ st.counted.flatten ++ statementRows c jobId now x) st.session.rows s.catalog past := by
    refine ⟨h.owes.ready, h.owes.own, h.owes.due.add (statementRows c jobId now x) ?_ (by simp)⟩
    rw [List.append_assoc (s.catalog.rowsOf c ++ st.session.rows)]
    exact List.perm_append_comm.append_left _
  have hexec := returns_sessionExecute st.session x fs s past howes hR
  have hkept := tried_beside (P := fun s past => Honest c jobId now base st [] s.catalog past)
    (fun _ _ _ hk h => hk ▸ h) (beside_sessionExecute c jobId now st.session x) fs s past h hR
  cases hr : ((sessionExecute c jobId now st.session x).trial fs s).result with
  | ok se =>
    refine ⟨by simp [h.count], ?_⟩
    simpa [List.append_assoc] using hexec se hr
  | error e => exact hkept

theorem honest_beside {α : Type} {p : Work α} (h : p.Within Beside) (st : Importing)
    (fresh : List (List Row)) :
    Returns commitFaults (fun s past => Honest c jobId now base st fresh s.catalog past) p
      fun _ s past => Honest c jobId now base st fresh s.catalog past :=
  returns_beside (fun _ _ _ hk h => hk ▸ h) h

theorem honest_flush (st : Importing) :
    Returns commitFaults (fun s past => Honest c jobId now base st [] s.catalog past)
      (executeAll c jobId now st.buffer st.session) fun se s past =>
        Honest c jobId now base { st with buffer := [], session := se } [] s.catalog past :=
  fun fs s past h hR se hse =>
    ⟨h.count, returns_executeAll st.buffer st.session fs s past h.owes hR se hse⟩

theorem honest_commit {progress : Status → Nat → Work Unit}
    (hprog : ∀ st n, (progress st n).Within Beside) (st : Importing) :
    Returns commitFaults (fun s past => Honest c jobId now base st [] s.catalog past)
      (commitWithRetry cfg c progress st.session) fun se s past => se = Session.fresh ∧
        Honest c jobId now base { st with session := Session.fresh } [] s.catalog past :=
  ((returns_commitWithRetry hprog st.session).frame (st.created = st.counted.length)).conseq
    (fun _ _ h => ⟨h.count, h.owes⟩)
    fun _ _ _ h se hse => ⟨(h se hse).2.1, (h se hse).1, (h se hse).2.2⟩

theorem honest_queue (st : Importing) (fresh : List (List Row)) (g : Geometry) :
    Returns commitFaults (fun s past => Honest c jobId now base st fresh s.catalog past)
      (queueOneGeometry cfg st.buffer g) fun r s past => r = g.enqueue st.buffer ∧
        Honest c jobId now base st fresh s.catalog past := by
  have hwithin : (queueOneGeometry cfg st.buffer g).Within Beside :=
    within_queueOneGeometry (beside_read (by simp)) st.buffer g
  refine Tried.of_run (hwithin.mono fun l _ hl late ⟨rows, hr⟩ => hl.1 rows hr) fun s past h => ?_
  rw [run_queueOneGeometry]
  rintro r ⟨⟩
  exact ⟨rfl, h⟩

/-- `Honest` is an invariant of the loops. -/
theorem honestRules {progress : Status → Nat → Work Unit}
    (hprog : ∀ st n, (progress st n).Within Beside) :
    ImportRules (triedLogic Exn commitFaults) cfg c jobId now progress
      fun st fresh w => Honest c jobId now base st fresh w.1.catalog w.2 where
  raised _ _ _ _ _ := trivial
  failed _ _ _ _ h := ⟨h.count, h.owes⟩
  check st fresh := honest_beside (beside_cancelCheck jobId) st fresh
  report st n := honest_beside (hprog _ n) st []
  queue st fresh g := honest_queue st fresh g
  enqueue st fresh x w h := by
    refine ⟨h.count, ⟨h.owes.ready, h.owes.own, h.owes.due.add (statementRows c jobId now x) ?_ ?_⟩⟩
    · simp [List.append_assoc]
    · simp [List.append_assoc]
  count st fresh w h := by
    refine ⟨by simp [h.count], ⟨h.owes.ready, h.owes.own, ?_⟩⟩
    simpa using h.owes.due
  flush st := honest_flush st
  insert st x := returns_insert st x
  commit st := honest_commit hprog st

section
variable {progress : Status → Nat → Work Unit} (hprog : ∀ st n, (progress st n).Within Beside)
include hprog

/-- The counts over the sources so far; nothing is pending between two sources. -/
theorem returns_importSources (batchSize : Nat) (files : List SourceFile) (t : Totals)
    (hse : t.session.rows = []) :
    Returns commitFaults
      (fun s past => t.created = t.counted.length ∧
        Owes c [] (base ++ t.counted.flatten) [] s.catalog past)
      (importSources cfg c jobId progress batchSize now files t)
      fun t' s past => t'.created = t'.counted.length ∧
        Owes c [] (base ++ t'.counted.flatten) t'.session.rows s.catalog past := by
  induction files generalizing t with
  | nil => exact Returns.pure fun _ _ h => ⟨h.1, hse ▸ h.2⟩
  | cons src rest ih =>
    refine Returns.bind (returns_beside (fun _ _ _ hk h => hk ▸ h)
      (beside_cancelCheck jobId)) fun _ => ?_
    have hrules : ImportRules (triedLogic Exn commitFaults) cfg c jobId now progress
        fun st fresh w =>
          Honest c jobId now (base ++ t.counted.flatten) st fresh w.1.catalog w.2 :=
      honestRules hprog
    have hsource : Returns commitFaults
        (fun s past => Owes c [] (base ++ t.counted.flatten) [] s.catalog past)
        (importSource cfg c jobId progress batchSize now t src) fun st s past =>
          st.Idle ∧ Honest c jobId now (base ++ t.counted.flatten) st [] s.catalog past :=
      fun fs s past h hR => hrules.importSource batchSize t src hse fs s past
        ⟨rfl, by simpa [hse] using h⟩ hR
    refine Returns.bind (hsource.frame (t.created = t.counted.length)) fun st => ?_
    intro fs s past h hR
    obtain ⟨ht, hidle, hcount, howes⟩ := h
    refine ih (t.add st) hidle.2 fs s past ⟨by simp [Totals.add, ht, hcount], ?_⟩ hR
    rw [hidle.1, hidle.2] at howes
    simpa [Totals.add, List.append_assoc] using howes

theorem returns_sessionCount {rest due : List Row} (se : Session) (u : CountUpdate) {φ : Prop} :
    Returns commitFaults (fun s past => φ ∧ Owes c rest due se.rows s.catalog past)
      (sessionCount cfg progress se u)
      fun se' s past => φ ∧ Owes c rest due se'.rows s.catalog past := by
  refine Returns.bind (returns_beside (fun _ _ _ hk h => hk ▸ h) (within_runDbRetryNotice
    (hprog _ _) (Prog.Within.write (beside_read (by simp))) _)) fun _ => ?_
  exact Returns.pure fun _ _ h => h

theorem returns_importAll (batchSize : Nat) (files : List SourceFile) :
    Returns commitFaults (fun s past => Owes c [] base [] s.catalog past)
      (importAll cfg c jobId progress batchSize now files)
      fun t s past => t.created = t.counted.length ∧
        Owes c [] (base ++ t.counted.flatten) t.session.rows s.catalog past := by
  have hdb : Beside .db id := beside_read (by simp)
  have hsources : Returns commitFaults (fun s past => Owes c [] base [] s.catalog past)
      (importSources cfg c jobId progress batchSize now files ⟨0, 0, Session.fresh, []⟩)
      fun t s past => t.created = t.counted.length ∧
        Owes c [] (base ++ t.counted.flatten) t.session.rows s.catalog past :=
    (returns_importSources hprog batchSize files ⟨0, 0, Session.fresh, []⟩ rfl).conseq
      (fun s past h => ⟨rfl, by simpa using h⟩) fun _ _ _ h => h
  unfold importAll
  split
  · refine Returns.tryFinally (Returns.bind (returns_beside (fun _ _ _ hk h => hk ▸ h)
      (Prog.Within.write hdb)) fun _ => hsources) fun t => ?_
    exact returns_beside (fun _ _ _ hk h => hk ▸ h)
      (Prog.Within.tryCatch (Prog.Within.write hdb) fun _ => Prog.Within.pure ())
  · exact hsources

/-- What holds of a result: when it reports no error, nothing is pending and what is counted is
due. -/
def Settled (c : CollectionId) (base : List Row) (r : ImportResult) (k : Catalog)
    (past : Past Label) : Prop :=
  r.err = none → r.created = r.counted.length ∧
    Owes c [] (base ++ r.counted.flatten) [] k past

theorem returns_importInto {H : Digest} {scan : Scan} {fuel : Nat} (batchSize : Nat)
    (filters : List PropertyFilter) (prestaged : Bool) (files : List SourceFile) :
    Returns commitFaults (fun s past => Owes c [] base [] s.catalog past)
      (importInto H cfg scan fuel c jobId progress batchSize (.plain .append) filters prestaged files)
      fun r s past => Settled c base r s.catalog past := by
  refine Returns.bind (returns_beside (fun _ _ _ hk h => hk ▸ h)
    (beside_cancelCheck jobId)) fun _ => ?_
  refine Returns.bind (returns_beside (fun _ _ _ hk h => hk ▸ h) (Prog.Within.pure () :
    (prestage H cfg scan fuel c jobId progress filters prestaged (.plain .append)).Within Beside))
    fun _ => ?_
  refine Returns.bind (returns_beside (fun _ _ _ hk h => hk ▸ h) (hprog _ _)) fun _ => ?_
  refine Returns.bind (returns_beside (fun _ _ _ hk h => hk ▸ h)
    (Prog.Within.read _ (beside_read (by simp)))) fun now => ?_
  refine Returns.bind (returns_importAll hprog batchSize files) fun t => ?_
  refine Returns.bind (returns_beside (fun _ _ _ hk h => hk ▸ h)
    (within_refreshLastUpdated (beside_read (by simp)))) fun _ => ?_
  refine Returns.bind (returns_sessionCount hprog t.session _) fun se => ?_
  refine Returns.bind ((returns_commitWithRetry hprog se).frame
    (t.created = t.counted.length)) fun _ => ?_
  refine Returns.bind (returns_beside (fun _ _ _ hk h => hk ▸ h)
    (within_recomputeExtent (beside_read (by simp)) (hprog _ _))) fun _ => ?_
  refine Returns.bind (returns_beside (fun _ _ _ hk h => hk ▸ h) (hprog _ _)) fun _ => ?_
  exact Returns.pure fun _ _ h _ => ⟨h.1, h.2.2⟩

end

end

theorem returns_error {c : CollectionId} {base : List Row} {P : Sys → Past Label → Prop}
    (err : Text) :
    Returns commitFaults P (pure (ImportResult.error err) : Work ImportResult)
      fun r s past => Settled c base r s.catalog past :=
  Returns.pure fun _ _ _ => nofun

/-- Whatever the handlers do, they report an error. -/
theorem returns_sessionRaised {H : Digest} {cfg : Settings} {c : CollectionId}
    {jobId : Option JobId} {progress : Status → Nat → Work Unit} {base : List Row}
    {P : Sys → Past Label → Prop} (e : Exn) :
    Returns commitFaults P (sessionRaised H cfg c jobId progress e)
      fun r s past => Settled c base r s.catalog past := by
  have hany : ∀ (p : Work Unit) (err : Text), Returns commitFaults P
      (p >>= fun _ => pure (ImportResult.error err))
      fun r s past => Settled c base r s.catalog past := fun p err =>
    Tried.bind (V := fun _ _ _ => True) (fun _ _ _ _ _ => trivial) (fun _ => returns_error err)
      fun _ _ _ _ => nofun
  cases e with
  | bulkImportCancelled =>
    cases jobId with
    | none => exact returns_error _
    | some j => exact hany _ _
  | _ => exact hany _ _

/-- The rows of the collection before the session: the partition is made, and nothing else. -/
theorem returns_ensure {H : Digest} {c : CollectionId} {base : List Row} :
    Returns commitFaults
      (fun s past => s.catalog.Grounded ∧ (s.catalog.rowsOf c).Perm base ∧ lostCommit ∉ past)
      (ensureFeaturesPartition H c) fun _ s past => Owes c [] base [] s.catalog past := by
  have howes : ∀ {k : Catalog} {past : Past Label}, (k.rowsOf c).Perm base → lostCommit ∉ past →
      Owes c [] base [] k past := fun hrows hpast =>
    ⟨⟨_, rfl⟩, by simp, ⟨fun _ => by simpa using hrows, fun h => absurd h hpast⟩⟩
  refine Returns.bind (returns_beside (fun _ _ _ hk h => hk ▸ h)
    (Prog.Within.read _ (beside_read (by simp)))) fun existing => ?_
  cases existing with
  | some n =>
    refine returns_transaction (by simp) fun s past a k h hk => ?_
    rw [Catalog.ensureExisting_ok h.1 hk]
    exact howes h.2.1 h.2.2
  | none =>
    refine returns_transaction (by simp) fun s past a k h hk => ?_
    exact howes ((Catalog.ensureMissing_ok h.1 hk).rows.trans h.2.1) h.2.2

section
variable {cfg : Settings} {c : CollectionId} {jobId : Option JobId} {base : List Row}
  {progress : Status → Nat → Work Unit} (hprog : ∀ st n, (progress st n).Within Beside)
include hprog

theorem returns_importSession {H : Digest} {scan : Scan} {fuel : Nat} (batchSize : Nat)
    (filters : List PropertyFilter) (prestaged : Bool) (files : List SourceFile) :
    Returns commitFaults
      (fun s past => s.catalog.Grounded ∧ (s.catalog.rowsOf c).Perm base ∧ lostCommit ∉ past)
      (importSession H cfg scan fuel c jobId progress batchSize (.plain .append) filters prestaged
        files)
      fun r s past => Settled c base r s.catalog past := by
  refine Returns.bind (returns_beside (fun _ _ _ hk h => hk ▸ h)
    (Prog.Within.read _ (beside_read (by simp)))) fun found => ?_
  split
  · exact returns_error _
  · refine Returns.bind (returns_attempt returns_ensure) fun ensured => ?_
    cases ensured with
    | error e => exact returns_error _
    | ok n =>
      exact (returns_importInto hprog batchSize filters prestaged files).conseq
        (fun _ _ h => h n rfl) fun _ _ _ h => h

theorem returns_importUpload {H : Digest} {scan : Scan} {fuel : Nat} (batchSize : Nat) (path : Text)
    (filters : List PropertyFilter) (prestaged there : Bool) (upload : SourceList) :
    Returns commitFaults
      (fun s past => s.catalog.Grounded ∧ (s.catalog.rowsOf c).Perm base ∧ lostCommit ∉ past)
      (importUpload H cfg scan fuel c jobId progress batchSize path (.plain .append) filters
        prestaged there upload)
      fun r s past => Settled c base r s.catalog past := by
  unfold importUpload
  split
  · exact returns_error _
  · cases upload with
    | unreadable error => exact returns_error _
    | empty => exact returns_error _
    | refused error => exact returns_error _
    | sources files =>
      exact Tried.tryCatch (returns_importSession hprog batchSize filters prestaged files)
        (fun _ _ _ h => h) fun e => returns_sessionRaised e

theorem returns_runBulkImport {H : Digest} {scan : Scan} {fuel : Nat} (batchSize : Nat)
    (path key : Text) (filters : List PropertyFilter) (prestaged : Bool) (upload : SourceList) :
    Returns commitFaults
      (fun s past => s.catalog.Grounded ∧ (s.catalog.rowsOf c).Perm base ∧ lostCommit ∉ past)
      (runBulkImport H cfg scan fuel c jobId progress batchSize path key (.plain .append) filters
        prestaged upload)
      fun r s past => Settled c base r s.catalog past := by
  have hact : (bulkActivity cfg).Within Beside := within_bulkActivity (beside_read (by simp))
  refine Returns.bind (returns_beside (fun _ _ _ hk h => hk ▸ h) hact) fun _ => ?_
  refine Returns.tryFinally (Returns.bind (returns_beside (fun _ _ _ hk h => hk ▸ h)
    (Prog.Within.read _ (beside_read (by simp)))) fun there => ?_) fun r => ?_
  · exact returns_importUpload hprog batchSize path filters prestaged there upload
  · exact returns_beside (fun _ _ _ hk h => hk ▸ h) hact

end

theorem beside_reportProgress {cfg : Settings} (payload : BulkJobPayload) (st : Status) (n : Nat) :
    (reportProgress cfg payload st n).Within Beside :=
  within_reportProgress (beside_read (by simp)) (fun _ => beside_read (by simp))
    ⟨by simp, fun _ => rfl⟩ fun _ => within_release (beside_read (by simp)) ⟨by simp, fun _ => rfl⟩

/-- When commits of the session fail and an append import reports no error, the collection has the
rows it had and those of the features counted if and only if no commit that had rows to write
raised before it took effect. -/
theorem commit_honest_iff (H : Digest) (cfg : Settings) (scan : Scan) (fuel : Nat)
    (payload : BulkJobPayload) (path : Text) (filters : List PropertyFilter) (upload : SourceList)
    (fs : List (Fault Exn)) (s : Sys) (hground : s.catalog.Grounded) :
    let t := (sessionImport H cfg scan fuel payload path (.plain .append) filters upload).trial fs s
    (∀ x ∈ t.struck, commitFaults x.1 x.2) → ∀ r, t.result = .ok r → r.err = none →
      r.created = r.counted.length ∧
        ((t.state.catalog.rowsOf payload.collectionId).Perm
          (s.catalog.rowsOf payload.collectionId ++ r.counted.flatten) ↔ lostCommit ∉ t.struck) := by
  intro t hstruck r hr herr
  have hsettled := returns_runBulkImport (beside_reportProgress payload) payload.batchSize path
    payload.storageKey filters false upload fs s [] ⟨hground, .refl _, by simp⟩ hstruck r hr herr
  obtain ⟨hcount, howes⟩ := hsettled
  have hdue := howes.due
  simp only [List.nil_append, List.append_nil] at hdue
  refine ⟨hcount, fun hperm hlost => ?_, hdue.kept⟩
  exact absurd hperm.length_eq (Nat.ne_of_lt (hdue.short hlost))

instance (l : Label) (late : Bool) : Decidable (commitFaults l late) :=
  inferInstanceAs (Decidable (∃ rows, l = .commit rows))

/-! ## Runs -/

def appendJob : BulkJobPayload :=
  ⟨importer, "a".toList, "a.geojson".toList, .plain .append, 1000, none, false, .single⟩

/-- A running append job on an empty collection. -/
def appendRunning : Sys :=
  { Sys.idle Catalog.initial with
    collections := [⟨"a".toList, 0⟩]
    jobs := [⟨importer, "a".toList, .running, [], 0, 0, 0, 0, none, none, none⟩]
    uploads := [appendJob.storageKey] }

/-- A file with one feature of one row. -/
def oneFeature : SourceList :=
  .sources [⟨true, [⟨false, .feature [.parts 0 (.ok ⟨"f".toList, "{}".toList, [none], oneNull_nonempty⟩)]⟩],
    none, [], none⟩]

def featureRow : Row := ⟨"f".toList, "a".toList, 0, none, "{}".toList, some importer.text, 0, 0⟩

/-- The commit of the feature raises, before or after it takes effect. -/
def failingCommit (late : Bool) : List (Fault Exn) :=
  List.replicate 17 none ++ [some (.other "OperationalError".toList [], late)]

def importOne (late : Bool) : Trial Label Sys Exn ImportResult :=
  (sessionImport plainDigest Settings.default .inOrder 0 appendJob [] (.plain .append) []
    oneFeature).trial (failingCommit late) appendRunning

/-- A commit that raises before it takes effect is tried again without the feature: one feature is
reported, and none is there. -/
theorem retried_commit_loses_feature :
    (∀ x ∈ (importOne false).struck, commitFaults x.1 x.2) ∧
      (importOne false).result = .ok ⟨1, 0, none, [[featureRow]]⟩ ∧
      (importOne false).state.catalog.rowsOf "a".toList = [] := by
  decide +kernel

theorem late_error_keeps_feature :
    ((importOne true).state.catalog.rowsOf "a".toList).Perm
      (appendRunning.catalog.rowsOf "a".toList ++ [[featureRow]].flatten) := by
  have hground : appendRunning.catalog.Grounded := Catalog.grounded_of_bound (by decide +kernel)
  exact (commit_honest_iff plainDigest Settings.default .inOrder 0 appendJob [] [] oneFeature
    (failingCommit true) appendRunning hground (by decide +kernel) ⟨1, 0, none, [[featureRow]]⟩
    (by decide +kernel) rfl).2.mpr (by decide +kernel)

end Bulk
end Geofastmap
