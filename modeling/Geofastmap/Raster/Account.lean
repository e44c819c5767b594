import Geofastmap.Raster.Batch

/-!
# Geofastmap.Raster.Account

What a raster batch that nobody cancels does with its GeoTIFFs. The conversions of an entry are
tried one after the other up to the first that raises, which counts as one failure.

* `processEntries_ran` : the tries of a run, and what it counts for them.
* `accounted_iff`      : every GeoTIFF is tried exactly when no member but the last one of a ZIP
  fails and no name has two dots in a row.
-/

namespace Geofastmap
namespace Raster

open Upload

/-! ## The archive -/

/-- `_ALLOWED_SUFFIX`. -/
def allowedSuffixes : List Text := [".tif", ".tiff", ".geotiff"].map String.toList

/-- `zip_tiff_members`, from the names in a ZIP; those of directories end with a slash. -/
def zipTiffMembers (infolist : List Text) : List Text :=
  infolist.filter fun filename => filename.getLast? != some '/' &&
    allowedSuffixes.contains (Sql.lower (pathSuffix filename))

/-- The files of an archive, and the conversions. -/
structure Archive where
  isFile : Text → Bool
  /-- The names in a ZIP, or the error it is opened with. -/
  infolist : Text → Except Text (List Text)
  convert : Nat → RasterFeature → Option Text
  collectionIsDem : Bool
  collectionDemEncoding : Text

def Archive.env (a : Archive) : Env where
  isFile := a.isFile
  members name := (a.infolist name).map zipTiffMembers
  convert := a.convert
  collectionIsDem := a.collectionIsDem
  collectionDemEncoding := a.collectionDemEncoding

/-- A path that stays inside the archive. -/
def inArchive (name : Text) : Bool :=
  name.head? != some '/' && !(name.splitOn '/').contains "..".toList

variable (env : Env) (m : Manifest)

/-- The GeoTIFFs of an entry: its file, or the members of a ZIP that can be read. -/
def entryGeotiffs (ent : Entry) : List Text :=
  if inArchive ent.name && env.isFile ent.name then
    if ent.kind = "geotiff".toList then [ent.name]
    else if ent.kind = "zip".toList then
      match env.members ent.name with
      | .ok members => members.map (vsizipMemberPath ent.name)
      | .error _ => []
    else []
  else []

def geotiffs : List Text := m.entries.flatMap (entryGeotiffs env)

/-! ## The tries -/

def memberFeature (path member : Text) : RasterFeature :=
  feature env m (vsizipMemberPath path member) (some (pathStem member))

def entryFeature (ent : Entry) : RasterFeature :=
  feature env m ent.name (some (orText (ent.title.getD []) (pathStem ent.name)))

/-- The members that are tried from a step on, each with the step of its conversion. -/
def memberTries (path : Text) : Nat → List Text → List (Nat × RasterFeature)
  | _, [] => []
  | clock, member :: members =>
    (clock + 1, memberFeature env m path member) ::
      if (env.convert (clock + 1) (memberFeature env m path member)).isSome then []
      else memberTries path (clock + 2) members

def entryTries (clock : Nat) (ent : Entry) : List (Nat × RasterFeature) :=
  if Sql.contains "..".toList ent.name ∨ ent.name.head? = some '/' then []
  else if !env.isFile ent.name then []
  else if ent.kind = "geotiff".toList then [(clock, entryFeature env m ent)]
  else if ent.kind = "zip".toList then
    match env.members ent.name with
    | .error _ => []
    | .ok members => memberTries env m ent.name clock members
  else []

def entriesTries : Nat → List Entry → List (Nat × RasterFeature)
  | _, [] => []
  | clock, ent :: entries =>
    entryTries env m (clock + 1) ent ++
      entriesTries (clock + 1 + (entryOps env m (clock + 1) ent).length) entries

/-- The conversions that a batch tries. -/
def tries : List (Nat × RasterFeature) := entriesTries env m 1 m.entries

def sources (ts : List (Nat × RasterFeature)) : List Text := ts.map fun t => t.2.source

/-- The tries that store a raster. -/
def stored (ts : List (Nat × RasterFeature)) : List (Nat × RasterFeature) :=
  ts.filter fun t => (env.convert t.1 t.2).isNone

def someFails (ts : List (Nat × RasterFeature)) : Bool := ts.any fun t => (env.convert t.1 t.2).isSome

/-! ## What is claimed, and when it is so -/

/-- A batch that is not cancelled before its last step returns with every GeoTIFF tried, and with
counts that account for them. -/
def Accounted : Prop :=
  ∀ cancelAt job, (jobOps env m).length ≤ cancelAt →
    ∃ s, processEntries env m cancelAt m.entries (start cancelAt job) = .ok s ∧
      s.features = stored env (tries env m) ∧ s.created = s.features.length ∧
      sources (tries env m) = geotiffs env m ∧ (geotiffs env m).length ≤ s.created + s.failed

/-- No member but the last one fails. -/
def OnlyLastFails (path : Text) : Nat → List Text → Prop
  | _, [] => True
  | _, [_] => True
  | clock, member :: next :: members =>
    env.convert (clock + 1) (memberFeature env m path member) = none ∧
      OnlyLastFails path (clock + 2) (next :: members)

/-- An entry with GeoTIFFs has no two dots in a row in its name and, if it is a ZIP, no member but
the last one that fails. -/
def EntryGood (clock : Nat) (ent : Entry) : Prop :=
  entryGeotiffs env ent ≠ [] → Sql.contains "..".toList ent.name = false ∧
    (ent.kind = "zip".toList → ∀ members, env.members ent.name = .ok members →
      OnlyLastFails env m ent.name clock members)

def EntriesGood : Nat → List Entry → Prop
  | _, [] => True
  | clock, ent :: entries =>
    EntryGood env m (clock + 1) ent ∧
      EntriesGood (clock + 1 + (entryOps env m (clock + 1) ent).length) entries

/-! ## Tries and GeoTIFFs -/

theorem memberTries_initial (path : Text) (members : List Text) (clock : Nat) :
    sources (memberTries env m path clock members) <+: members.map (vsizipMemberPath path) := by
  induction members generalizing clock with
  | nil => exact List.prefix_refl _
  | cons member members ih =>
    rw [memberTries, sources, List.map_cons, List.map_cons]
    refine List.cons_prefix_cons.mpr ⟨rfl, ?_⟩
    split
    · exact List.nil_prefix
    · exact ih (clock + 2)

/-- All members are tried where only the last one may fail. -/
theorem memberTries_all_iff (path : Text) (members : List Text) (clock : Nat) :
    sources (memberTries env m path clock members) = members.map (vsizipMemberPath path) ↔
      OnlyLastFails env m path clock members := by
  induction members generalizing clock with
  | nil => exact iff_of_true rfl trivial
  | cons member members ih =>
    rw [memberTries, sources, List.map_cons, List.map_cons]
    have hsource : (clock + 1, memberFeature env m path member).2.source =
      vsizipMemberPath path member := rfl
    rw [hsource, List.cons.injEq, and_iff_right rfl]
    cases members with
    | nil =>
      refine iff_of_true ?_ trivial
      split <;> rfl
    | cons next members =>
      rw [OnlyLastFails, ← ih (clock + 2)]
      cases hconvert : env.convert (clock + 1) (memberFeature env m path member) with
      | none => simp [sources]
      | some e => simp

/-- Only the last try can be one that fails. -/
theorem memberTries_length (path : Text) (members : List Text) (clock : Nat) :
    (memberTries env m path clock members).length =
      (stored env (memberTries env m path clock members)).length +
        if someFails env (memberTries env m path clock members) then 1 else 0 := by
  induction members generalizing clock with
  | nil => rfl
  | cons member members ih =>
    rw [memberTries]
    cases hconvert : env.convert (clock + 1) (memberFeature env m path member) with
    | none =>
      have hstored : ∀ rest, stored env ((clock + 1, memberFeature env m path member) :: rest) =
          (clock + 1, memberFeature env m path member) :: stored env rest :=
        fun rest => List.filter_cons_of_pos (by simp [hconvert])
      have hfails : ∀ rest, someFails env ((clock + 1, memberFeature env m path member) :: rest) =
          someFails env rest := fun rest => by simp [someFails, hconvert]
      rw [if_neg (by simp), hstored, hfails, List.length_cons, List.length_cons, ih (clock + 2),
        Nat.add_right_comm]
    | some e => simp [stored, someFails, hconvert]

/-- A text is inside the one it is a piece of. -/
theorem infix_intercalate {sep piece : Text} {pieces : List Text} (h : piece ∈ pieces) :
    piece <:+: sep.intercalate pieces := by
  induction pieces with
  | nil => cases h
  | cons first pieces ih =>
    cases pieces with
    | nil =>
      rw [List.mem_singleton.mp h, List.intercalate_singleton]
    | cons next pieces =>
      rw [List.intercalate_cons_cons]
      rcases List.mem_cons.mp h with rfl | h
      · exact ⟨[], sep ++ sep.intercalate (next :: pieces), by simp⟩
      · exact (ih h).trans (List.suffix_append _ _).isInfix

/-- The names that the job takes stay inside the archive. -/
theorem inArchive_of_taken {name : Text} (hdots : Sql.contains "..".toList name = false)
    (hslash : name.head? ≠ some '/') : inArchive name = true := by
  have hpieces : "..".toList ∉ name.splitOn '/' := by
    intro h
    have hinfix := @infix_intercalate ['/'] _ _ h
    rw [List.intercalate_splitOn] at hinfix
    exact of_decide_eq_false hdots hinfix
  simp only [inArchive, Bool.and_eq_true, bne_iff_ne, Bool.not_eq_true', List.contains_eq_mem,
    decide_eq_false_iff_not]
  exact ⟨hslash, hpieces⟩

theorem head_of_inArchive {name : Text} (h : inArchive name = true) : name.head? ≠ some '/' := by
  simp only [inArchive, Bool.and_eq_true, bne_iff_ne, ne_eq] at h
  exact h.1

/-- The GeoTIFFs of an entry that the job takes. -/
theorem entryTries_initial (clock : Nat) (ent : Entry) :
    sources (entryTries env m clock ent) <+: entryGeotiffs env ent := by
  unfold entryTries
  split
  · exact List.nil_prefix
  · rename_i hname
    obtain ⟨hdots, hslash⟩ := not_or.mp hname
    split
    · exact List.nil_prefix
    · rename_i hfile
      have hin : (inArchive ent.name && env.isFile ent.name) = true := by
        rw [inArchive_of_taken (by simpa using hdots) hslash]
        simpa using hfile
      rw [entryGeotiffs, if_pos hin]
      split
      · exact List.prefix_refl _
      · split
        · split
          · exact List.nil_prefix
          · rename_i members hmembers
            rw [hmembers]
            exact memberTries_initial env m ent.name members clock
        · exact List.nil_prefix

theorem entryTries_all_iff (clock : Nat) (ent : Entry) :
    sources (entryTries env m clock ent) = entryGeotiffs env ent ↔ EntryGood env m clock ent := by
  unfold EntryGood
  by_cases hin : (inArchive ent.name && env.isFile ent.name) = true
  · obtain ⟨harchive, hfile⟩ := Bool.and_eq_true_iff.mp hin
    have hslash := head_of_inArchive harchive
    by_cases hdots : Sql.contains "..".toList ent.name = true
    · have hnone : entryTries env m clock ent = [] := if_pos (Or.inl hdots)
      rw [hnone]
      constructor
      · exact fun h hne => absurd h.symm hne
      · intro h
        by_contra hne
        have hgood := (h fun hnil => hne hnil.symm).1
        rw [hdots] at hgood
        cases hgood
    · have htaken : ¬ (Sql.contains "..".toList ent.name = true ∨ ent.name.head? = some '/') :=
        not_or.mpr ⟨hdots, hslash⟩
      rw [Bool.not_eq_true] at hdots
      unfold entryTries entryGeotiffs
      rw [if_neg htaken, if_neg (by simp [hfile]), if_pos hin]
      by_cases hgeotiff : ent.kind = "geotiff".toList
      · have hzip : ent.kind ≠ "zip".toList := by
          rw [hgeotiff]
          decide
        rw [if_pos hgeotiff, if_pos hgeotiff]
        exact iff_of_true rfl fun _ => ⟨hdots, fun h => absurd h hzip⟩
      · rw [if_neg hgeotiff, if_neg hgeotiff]
        by_cases hzip : ent.kind = "zip".toList
        · rw [if_pos hzip, if_pos hzip]
          cases hmembers : env.members ent.name with
          | error e => exact iff_of_true rfl fun h => absurd rfl h
          | ok members =>
            dsimp only
            rw [memberTries_all_iff]
            constructor
            · intro h _
              refine ⟨hdots, fun _ members' hmembers' => ?_⟩
              cases hmembers'
              exact h
            · intro h
              cases members with
              | nil => trivial
              | cons member members => exact (h (by simp)).2 hzip _ rfl
        · rw [if_neg hzip, if_neg hzip]
          exact iff_of_true rfl fun h => absurd rfl h
  · have hgeotiffs : entryGeotiffs env ent = [] := if_neg hin
    rw [hgeotiffs]
    refine iff_of_true ?_ fun h => absurd rfl h
    exact List.prefix_nil.mp (hgeotiffs ▸ entryTries_initial env m clock ent)

/-- Lists of parts that are no longer agree only part by part. -/
theorem append_eq_iff_of_length_le {α : Type} {a b c d : List α} (hab : a.length ≤ b.length)
    (hcd : c.length ≤ d.length) : a ++ c = b ++ d ↔ a = b ∧ c = d := by
  constructor
  · intro h
    have hlen := congrArg List.length h
    rw [List.length_append, List.length_append] at hlen
    exact List.append_inj h (by omega)
  · rintro ⟨rfl, rfl⟩
    rfl

/-! ## What a run counts -/

/-- Steps that make some tries, with the failures that they count. -/
structure Ran (s s' : State) (ts : List (Nat × RasterFeature)) (failures steps : Nat) : Prop where
  running : s'.job.status = .running
  clock : s'.clock = s.clock + steps
  features : s'.features = s.features ++ stored env ts
  created : s'.created = s.created + (stored env ts).length
  failed : s'.failed = s.failed + failures

section
variable {env} {m} {cancelAt : Nat} {s : State}

theorem stored_append (ts ts' : List (Nat × RasterFeature)) :
    stored env (ts ++ ts') = stored env ts ++ stored env ts' := List.filter_append ..

theorem Ran.refl (h : s.job.status = .running) : Ran env s s [] 0 0 where
  running := h
  clock := rfl
  features := (List.append_nil _).symm
  created := rfl
  failed := rfl

theorem Ran.trans {s' s'' : State} {ts ts' : List (Nat × RasterFeature)}
    {failures failures' steps steps' : Nat} (h : Ran env s s' ts failures steps)
    (h' : Ran env s' s'' ts' failures' steps') :
    Ran env s s'' (ts ++ ts') (failures + failures') (steps + steps') where
  running := h'.running
  clock := by rw [h'.clock, h.clock, Nat.add_assoc]
  features := by rw [h'.features, h.features, stored_append, List.append_assoc]
  created := by rw [h'.created, h.created, stored_append, List.length_append, Nat.add_assoc]
  failed := by rw [h'.failed, h.failed, Nat.add_assoc]

theorem Ran.fail (h : s.job.status = .running) (err : Text) :
    Ran env s (Raster.fail err s) [] 1 0 where
  running := h
  clock := rfl
  features := (List.append_nil _).symm
  created := rfl
  failed := rfl

/-- A write of the progress. -/
theorem Ran.write {s' : State} {ts : List (Nat × RasterFeature)} {failures steps : Nat}
    (h : Ran env s s' ts failures steps) (hcalm : s.clock + steps ≠ cancelAt) :
    Ran env s (writeProgress cancelAt s') ts failures (steps + 1) := by
  unfold writeProgress
  rw [arrive_ne cancelAt (by rw [h.clock]; exact hcalm)]
  exact ⟨rfl, by rw [tick_clock, h.clock, Nat.add_assoc], h.features, h.created, h.failed⟩

variable (env) in
/-- A check of the record. -/
theorem raiseIfCancelled_ran (h : s.job.status = .running) (hcalm : s.clock ≠ cancelAt) :
    raiseIfCancelled cancelAt s = .ok (tick s) ∧ Ran env s (tick s) [] 0 1 := by
  constructor
  · unfold raiseIfCancelled
    rw [arrive_ne cancelAt hcalm]
    exact if_neg (by simp [h])
  · exact ⟨h, rfl, (List.append_nil _).symm, rfl, rfl⟩

variable (env) in
/-- One try, and the error that it ends with. -/
theorem createFeature_ran (h : s.job.status = .running) (hcalm : s.clock ≠ cancelAt)
    (f : RasterFeature) :
    Ran env s (createFeature env cancelAt f s).1 [(s.clock, f)] 0 1 ∧
      (createFeature env cancelAt f s).2 = env.convert s.clock f := by
  unfold createFeature
  rw [arrive_ne cancelAt hcalm]
  dsimp only
  cases hconvert : env.convert s.clock f with
  | none =>
    have hstored : stored env [(s.clock, f)] = [(s.clock, f)] := by simp [stored, hconvert]
    exact ⟨⟨h, rfl, by rw [hstored]; rfl, by rw [hstored]; rfl, rfl⟩, rfl⟩
  | some e =>
    have hstored : stored env [(s.clock, f)] = [] := by simp [stored, hconvert]
    exact ⟨⟨h, rfl, by rw [hstored, List.append_nil]; rfl, by rw [hstored]; rfl, rfl⟩, rfl⟩

theorem processMembers_ran (path : Text) (members : List Text) {s : State}
    (h : s.job.status = .running)
    (hcalm : s.clock + (memberOps env m path s.clock members).length ≤ cancelAt) :
    Ran env s (processMembers env m cancelAt path members s).1
        (memberTries env m path s.clock members) 0 (memberOps env m path s.clock members).length ∧
      (processMembers env m cancelAt path members s).2.isSome =
        someFails env (memberTries env m path s.clock members) := by
  induction members generalizing s with
  | nil => exact ⟨Ran.refl h, rfl⟩
  | cons member members ih =>
    rw [memberOps, List.length_cons, List.length_cons] at hcalm
    have hnow : s.clock ≠ cancelAt := by omega
    have hnext : (tick s).clock ≠ cancelAt := by
      rw [tick_clock]
      omega
    obtain ⟨hcheck, hchecked⟩ := raiseIfCancelled_ran env h hnow
    obtain ⟨hcreate, herr⟩ := createFeature_ran env hchecked.running hnext
      (memberFeature env m path member)
    have hone := hchecked.trans hcreate
    have hfeature : feature env m (vsizipMemberPath path member) (some (pathStem member)) =
        memberFeature env m path member := rfl
    rw [processMembers, hcheck, memberOps, memberTries]
    dsimp only at hcalm ⊢
    rw [hfeature] at hcalm ⊢
    generalize createFeature env cancelAt (memberFeature env m path member) (tick s) = res at *
    obtain ⟨s', err⟩ := res
    rw [tick_clock] at hone herr
    dsimp only at hone herr
    subst herr
    cases hconvert : env.convert (s.clock + 1) (memberFeature env m path member) with
    | none =>
      rw [hconvert, Option.isSome_none, if_neg Bool.false_ne_true] at hcalm
      have hclock : s'.clock = s.clock + 2 := hone.clock
      obtain ⟨hrest, hsome⟩ := ih hone.running (by rw [hclock]; omega)
      rw [hclock] at hrest hsome
      rw [Option.isSome_none, if_neg Bool.false_ne_true, if_neg Bool.false_ne_true,
        List.length_cons, List.length_cons]
      refine ⟨?_, ?_⟩
      · have hsteps : (memberOps env m path (s.clock + 2) members).length + 1 + 1 =
            1 + 1 + (memberOps env m path (s.clock + 2) members).length := by omega
        rw [hsteps]
        exact hone.trans hrest
      · rw [hsome]
        simp [someFails, hconvert]
    | some e =>
      rw [Option.isSome_some, if_pos rfl, if_pos rfl]
      exact ⟨hone, by simp [someFails, hconvert]⟩

/-- The end of an entry: what it raised counts as one failure. -/
theorem record_ran {r : State × Option Text} {ts : List (Nat × RasterFeature)} {steps : Nat}
    (h : Ran env s r.1 ts 0 steps) (hcalm : s.clock + steps ≠ cancelAt) :
    Ran env s (record cancelAt r) ts (if r.2.isSome then 1 else 0) (steps + 1) := by
  obtain ⟨s', err⟩ := r
  cases err with
  | none => exact h.write hcalm
  | some e =>
    have hfail := h.trans (Ran.fail h.running (e.take 500))
    rw [List.append_nil] at hfail
    exact hfail.write hcalm

/-- An entry: every try is stored or counted as failed. -/
theorem processEntry_ran (ent : Entry) {s : State} (h : s.job.status = .running)
    (hcalm : s.clock + (entryOps env m s.clock ent).length ≤ cancelAt) :
    ∃ failures, Ran env s (processEntry env m cancelAt ent s) (entryTries env m s.clock ent) failures
        (entryOps env m s.clock ent).length ∧
      (entryTries env m s.clock ent).length ≤
        (stored env (entryTries env m s.clock ent)).length + failures := by
  have hskip : ∀ err, ∃ failures, Ran env s (fail err s) [] failures 0 ∧
      ([] : List (Nat × RasterFeature)).length ≤ (stored env []).length + failures :=
    fun err => ⟨1, Ran.fail h err, Nat.zero_le _⟩
  have hwrite : ∀ {r : State × Option Text} {ts : List (Nat × RasterFeature)} {steps : Nat},
      s.clock + (steps + 1) ≤ cancelAt → Ran env s r.1 ts 0 steps →
      ts.length ≤ (stored env ts).length + (if r.2.isSome then 1 else 0) →
      ∃ failures, Ran env s (record cancelAt r) ts failures (steps + 1) ∧
        ts.length ≤ (stored env ts).length + failures :=
    fun hcalm hran hlen => ⟨_, record_ran hran (by omega), hlen⟩
  unfold processEntry entryTries entryOps at *
  by_cases hname : Sql.contains "..".toList ent.name = true ∨ ent.name.head? = some '/'
  · simp only [if_pos hname]
    exact hskip _
  · simp only [if_neg hname] at hcalm ⊢
    by_cases hfile : (!env.isFile ent.name) = true
    · simp only [if_pos hfile]
      exact hskip _
    · simp only [if_neg hfile] at hcalm ⊢
      by_cases hgeotiff : ent.kind = "geotiff".toList
      · simp only [if_pos hgeotiff] at hcalm ⊢
        have hnow : s.clock ≠ cancelAt := by
          rw [List.length_cons] at hcalm
          omega
        obtain ⟨hcreate, herr⟩ := createFeature_ran env h hnow (entryFeature env m ent)
        have hlen : [(s.clock, entryFeature env m ent)].length ≤
            (stored env [(s.clock, entryFeature env m ent)]).length +
              if (createFeature env cancelAt (entryFeature env m ent) s).2.isSome then 1 else 0 := by
          rw [herr]
          cases hconvert : env.convert s.clock (entryFeature env m ent) with
          | none => simp [stored, hconvert]
          | some e => simp
        exact hwrite hcalm hcreate hlen
      · simp only [if_neg hgeotiff] at hcalm ⊢
        by_cases hzip : ent.kind = "zip".toList
        · simp only [if_pos hzip] at hcalm ⊢
          cases hmembers : env.members ent.name with
          | error e =>
            simp only [hmembers] at hcalm ⊢
            exact hwrite hcalm (Ran.refl h) (Nat.zero_le _)
          | ok members =>
            cases members with
            | nil => exact hskip _
            | cons member members =>
              simp only [hmembers, List.length_append, List.length_singleton] at hcalm ⊢
              obtain ⟨hran, hsome⟩ := processMembers_ran ent.name (member :: members) h
                (Nat.le_trans (Nat.le_succ _) hcalm)
              refine hwrite hcalm hran ?_
              rw [hsome, memberTries_length]
        · simp only [if_neg hzip] at hcalm ⊢
          have hnow : s.clock + 0 ≠ cancelAt := by
            rw [List.length_singleton] at hcalm
            omega
          exact ⟨1, (Ran.fail h _).write hnow, Nat.zero_le _⟩

/-- The loop over the entries of a batch that nobody cancels. -/
theorem processEntries_ran (entries : List Entry) {s : State} (h : s.job.status = .running)
    (hcalm : s.clock + (entriesOps env m s.clock entries).length ≤ cancelAt) :
    ∃ s' failures, processEntries env m cancelAt entries s = .ok s' ∧
      Ran env s s' (entriesTries env m s.clock entries) failures
        (entriesOps env m s.clock entries).length ∧
      (entriesTries env m s.clock entries).length ≤
        (stored env (entriesTries env m s.clock entries)).length + failures := by
  induction entries generalizing s with
  | nil => exact ⟨s, 0, rfl, Ran.refl h, Nat.zero_le _⟩
  | cons ent entries ih =>
    rw [entriesOps] at hcalm ⊢
    simp only [List.length_append, List.length_cons] at hcalm ⊢
    have hnow : s.clock ≠ cancelAt := by omega
    obtain ⟨hcheck, hchecked⟩ := raiseIfCancelled_ran env h hnow
    have hentryCalm : (tick s).clock + (entryOps env m (tick s).clock ent).length ≤ cancelAt := by
      rw [tick_clock]
      omega
    obtain ⟨first, hentry, hfirst⟩ := processEntry_ran ent hchecked.running hentryCalm
    rw [tick_clock] at hentry hfirst
    have hclock : (processEntry env m cancelAt ent (tick s)).clock =
        s.clock + 1 + (entryOps env m (s.clock + 1) ent).length := hentry.clock
    obtain ⟨s', rest, hrun, hran, hrest⟩ := ih hentry.running (by rw [hclock]; omega)
    rw [hclock] at hran hrest
    rw [processEntries, hcheck, entriesTries]
    refine ⟨s', 0 + first + rest, hrun, ?_, ?_⟩
    · have hsteps : (entryOps env m (s.clock + 1) ent).length + 1 +
          (entriesOps env m (s.clock + 1 + (entryOps env m (s.clock + 1) ent).length)
            entries).length =
          1 + (entryOps env m (s.clock + 1) ent).length +
            (entriesOps env m (s.clock + 1 + (entryOps env m (s.clock + 1) ent).length)
              entries).length := by omega
      rw [hsteps]
      exact (hchecked.trans hentry).trans hran
    · rw [stored_append, List.length_append, List.length_append]
      omega

end

/-! ## Every GeoTIFF -/

theorem entriesTries_length_le (entries : List Entry) (clock : Nat) :
    (sources (entriesTries env m clock entries)).length ≤
      (entries.flatMap (entryGeotiffs env)).length := by
  induction entries generalizing clock with
  | nil => exact Nat.le_refl _
  | cons ent entries ih =>
    rw [entriesTries, sources, List.map_append, List.flatMap_cons, List.length_append,
      List.length_append]
    exact Nat.add_le_add (entryTries_initial env m (clock + 1) ent).length_le (ih _)

theorem entriesTries_all_iff (entries : List Entry) (clock : Nat) :
    sources (entriesTries env m clock entries) = entries.flatMap (entryGeotiffs env) ↔
      EntriesGood env m clock entries := by
  induction entries generalizing clock with
  | nil => exact iff_of_true rfl trivial
  | cons ent entries ih =>
    rw [entriesTries, sources, List.map_append, List.flatMap_cons, EntriesGood,
      ← entryTries_all_iff, ← ih]
    exact append_eq_iff_of_length_le (entryTries_initial env m (clock + 1) ent).length_le
      (entriesTries_length_le env m entries _)

theorem start_counts (cancelAt : Nat) (job : JobInfo) : (start cancelAt job).created = 0 ∧
    (start cancelAt job).failed = 0 ∧ (start cancelAt job).features = [] := by
  unfold start arrive
  dsimp only
  split <;> exact ⟨rfl, rfl, rfl⟩

/-- For each manifest and each pattern of failures. -/
theorem accounted_iff (a : Archive) (m : Manifest) :
    Accounted a.env m ↔ EntriesGood a.env m 1 m.entries := by
  rw [← entriesTries_all_iff]
  constructor
  · intro h
    obtain ⟨s, -, -, -, hall, -⟩ := h (jobOps a.env m).length pendingJob (Nat.le_refl _)
    exact hall
  · intro hall cancelAt job hcalm
    obtain ⟨hstart, hclock⟩ := start_running cancelAt job
    have hbefore : (start cancelAt job).clock +
        (entriesOps a.env m (start cancelAt job).clock m.entries).length ≤ cancelAt := by
      rw [jobOps, List.length_append, List.length_cons, List.length_singleton] at hcalm
      rw [hclock]
      omega
    obtain ⟨s, failures, hrun, hran, hlen⟩ := processEntries_ran m.entries hstart.status hbefore
    rw [hclock] at hran hlen
    obtain ⟨hcreated₀, hfailed₀, hfeatures₀⟩ := start_counts cancelAt job
    have hfeatures : s.features = stored a.env (tries a.env m) := by
      rw [hran.features, hfeatures₀]
      rfl
    have hcreated : s.created = (stored a.env (tries a.env m)).length := by
      rw [hran.created, hcreated₀, Nat.zero_add]
      rfl
    have hfailed : s.failed = failures := by rw [hran.failed, hfailed₀, Nat.zero_add]
    refine ⟨s, hrun, hfeatures, by rw [hfeatures, hcreated], hall, ?_⟩
    · have hcount := congrArg List.length hall
      rw [sources, List.length_map] at hcount
      rw [geotiffs, ← hcount, hcreated, hfailed]
      exact hlen

/-- A ZIP of two GeoTIFFs, the first of which cannot be converted. -/
def brokenFirst : Archive where
  isFile _ := true
  infolist _ := .ok ["a.tif".toList, "b.tif".toList]
  convert _ f := if f.source = "/vsizip/x.zip/a.tif".toList then some "broken".toList else none
  collectionIsDem := false
  collectionDemEncoding := "terrainrgb".toList

def oneZip : Manifest where
  entries := [⟨"zip".toList, "x.zip".toList, none⟩]
  sourceCrs := none
  isDem := false
  demEncoding := none

/-- The second one is not tried. -/
theorem failing_member_hides_next : ¬ ∀ (a : Archive) (m : Manifest), Accounted a.env m := by
  intro h
  obtain ⟨s, -, -, -, hall, -⟩ := h brokenFirst oneZip (jobOps brokenFirst.env oneZip).length
    pendingJob (Nat.le_refl _)
  revert hall
  decide

end Raster
end Geofastmap
