import Geofastmap.Db.Resolve

/-!
# Geofastmap.Db.Promote

What the transactions of a promotion do to the rows of the collection they are for.

* `insertFeatures_ok` — an `INSERT INTO features` adds its rows and touches no other table;
  `insertFeatures_open` says when it succeeds.
* `migrate_eq`        — moving rows out of the default partition has nothing to move, or raises.
* `ensure_ok`         — after `ensure_features_partition_sync` the collection has the same rows.
* `swap_ok`           — after a swap the rows of the collection are the ones of the staging table.
-/

namespace Geofastmap
namespace Db
namespace Catalog

/-- The table `features_default` is the default partition. -/
def Grounded (k : Catalog) : Prop :=
  ∀ t, k.find featuresDefault = some t → t.bound = some .default

theorem grounded_of_find {k k' : Catalog} (hk : k.Grounded)
    (h : ∀ t', k'.find featuresDefault = some t' →
      ∃ t, k.find featuresDefault = some t ∧ t'.bound = t.bound) : k'.Grounded := by
  intro t' ht'
  obtain ⟨t, ht, hb⟩ := h t' ht'
  rw [hb, hk t ht]

theorem grounded_of_bound {k : Catalog}
    (h : (k.find featuresDefault).map Table.bound = some (some .default)) : k.Grounded := by
  intro t ht
  rw [ht] at h
  exact Option.some.inj h

/-! ## Inserting rows -/

/-- No row of `rs` is routed to the table `m`. -/
def Unrouted (k : Catalog) (m : RelName) (rs : List Row) : Prop :=
  ∀ t, k.find m = some t → t.bound ≠ some .default ∧ ∀ r ∈ rs, r.collectionId ∉ t.values

theorem insertFeature_ok {k k' : Catalog} {r : Row} (h : k.insertFeature r = .ok k') :
    ∃ t t', ∃ ht hi htake, k.route r.collectionId = some t ∧ t.attached = true ∧
      k' = k.fill t t' [r] ht hi htake := by
  unfold insertFeature at h
  split at h
  · cases h
  · rename_i t hroute
    obtain ⟨u, t', hu, hi, htake, hfind, rfl⟩ := insertInto_ok h
    obtain ⟨htm, hplace⟩ := route_some hroute
    have hut : u = t := by
      have := find_of_mem htm
      rw [hfind] at this
      exact Option.some.inj this
    subst hut
    refine ⟨u, t', hu, hi, htake, hroute, ?_, rfl⟩
    rcases hplace with hv | ⟨hd, _⟩
    · cases hb : u.bound with
      | none => simp [Table.values, hb] at hv
      | some b => simp [Table.attached, hb]
    · simp [Table.attached, hd]

theorem insertFeature_rows {k k' : Catalog} {r : Row} (h : k.insertFeature r = .ok k')
    (d : CollectionId) :
    (k'.rowsOf d).Perm (k.rowsOf d ++ [r].filter (·.collectionId == d)) := by
  obtain ⟨t, t', ht, hi, htake, _, hatt, rfl⟩ := insertFeature_ok h
  have hp := @rowsOf_fill k t t' [r] ht hi htake d
  rwa [if_pos hatt] at hp

theorem insertFeature_bounds {k k' : Catalog} {r : Row} (h : k.insertFeature r = .ok k')
    (m : RelName) : (k'.find m).map Table.bound = (k.find m).map Table.bound := by
  obtain ⟨t, t', ht, hi, htake, _, _, rfl⟩ := insertFeature_ok h
  rw [find_fill, Option.map_map]
  cases hm : k.find m with
  | none => rfl
  | some u =>
    by_cases hn : u.name = t.name
    · have := eq_of_name (find_mem hm).1 ht hn
      simp [(Table.insert_eq hi).2.1, this]
    · simp [hn]

theorem insertFeature_find {k k' : Catalog} {r : Row} (h : k.insertFeature r = .ok k')
    {m : RelName} (hm : k.Unrouted m [r]) : k'.find m = k.find m := by
  obtain ⟨t, t', ht, hi, htake, hroute, _, rfl⟩ := insertFeature_ok h
  rw [find_fill]
  cases hf : k.find m with
  | none => rfl
  | some u =>
    obtain ⟨hd, hv⟩ := hm u hf
    have hne : u.name ≠ t.name := by
      intro hn
      have hut := eq_of_name (find_mem hf).1 ht hn
      rcases (route_some hroute).2 with hrv | ⟨hrd, _⟩
      · exact hv r (by simp) (hut ▸ hrv)
      · exact hd (hut ▸ hrd)
    simp [hne]

theorem insertFeatures_cons {k k' : Catalog} {r : Row} {rs : List Row}
    (h : k.insertFeatures (r :: rs) = .ok k') :
    ∃ k₁, k.insertFeature r = .ok k₁ ∧ k₁.insertFeatures rs = .ok k' := by
  rw [insertFeatures, List.foldlM_cons] at h
  exact bind_eq_ok.mp h

/-- An `INSERT` adds its rows to the collections they are of. -/
theorem insertFeatures_ok {rs : List Row} : ∀ {k k' : Catalog}, k.insertFeatures rs = .ok k' →
    ∀ d, (k'.rowsOf d).Perm (k.rowsOf d ++ rs.filter (·.collectionId == d)) := by
  induction rs with
  | nil => intro k k' h d; cases h; simp
  | cons r rs ih =>
    intro k k' h d
    obtain ⟨k₁, h₁, h₂⟩ := insertFeatures_cons h
    have hp := (ih h₂ d).trans ((insertFeature_rows h₁ d).append_right _)
    rwa [List.append_assoc, ← List.filter_append, List.singleton_append] at hp

theorem insertFeatures_bounds {rs : List Row} : ∀ {k k' : Catalog},
    k.insertFeatures rs = .ok k' → ∀ m, (k'.find m).map Table.bound = (k.find m).map Table.bound := by
  induction rs with
  | nil => intro k k' h m; cases h; rfl
  | cons r rs ih =>
    intro k k' h m
    obtain ⟨k₁, h₁, h₂⟩ := insertFeatures_cons h
    rw [ih h₂ m, insertFeature_bounds h₁ m]

theorem insertFeatures_find {rs : List Row} : ∀ {k k' : Catalog}, k.insertFeatures rs = .ok k' →
    ∀ {m : RelName}, k.Unrouted m rs → k'.find m = k.find m := by
  induction rs with
  | nil => intro k k' h m _; cases h; rfl
  | cons r rs ih =>
    intro k k' h m hm
    obtain ⟨k₁, h₁, h₂⟩ := insertFeatures_cons h
    have hstep : k₁.find m = k.find m :=
      insertFeature_find h₁ fun t ht => ⟨(hm t ht).1, fun q hq =>
        (hm t ht).2 q (by simp [List.mem_singleton.mp hq])⟩
    rw [ih h₂ fun t ht => ⟨(hm t (hstep ▸ ht)).1, fun q hq => (hm t (hstep ▸ ht)).2 q (by simp [hq])⟩]
    exact hstep

theorem route_fill {k : Catalog} {t t' : Table} {rs : List Row} {ht hi htake} (c : CollectionId) :
    (k.fill t t' rs ht hi htake).route c =
      (k.route c).map fun u => if u.name = t.name then t' else u := by
  have hbound : ∀ u ∈ k.tables, (if u.name = t.name then t' else u).bound = u.bound := by
    intro u hu
    by_cases hn : u.name = t.name
    · rw [if_pos hn, (Table.insert_eq hi).2.1, eq_of_name hu ht hn]
    · rw [if_neg hn]
  have hfind : ∀ p : Table → Bool, (∀ u v : Table, u.bound = v.bound → p u = p v) →
      (k.fill t t' rs ht hi htake).tables.find? p =
        (k.tables.find? p).map fun u => if u.name = t.name then t' else u := by
    intro p hp
    simp only [fill, List.find?_map]
    congr 1
    have hcong : ∀ l : List Table, (∀ u ∈ l, u ∈ k.tables) →
        l.find? (p ∘ fun u => if u.name = t.name then t' else u) = l.find? p := by
      intro l hl
      induction l with
      | nil => rfl
      | cons u us ih =>
        have hu : p (if u.name = t.name then t' else u) = p u := hp _ _ (hbound u (hl u (by simp)))
        rw [List.find?_cons, List.find?_cons, ih fun v hv => hl v (by simp [hv])]
        simp only [Function.comp, hu]
    exact hcong k.tables fun _ h => h
  have hvalues : ∀ u v : Table, u.bound = v.bound → decide (c ∈ u.values) = decide (c ∈ v.values) := by
    intro u v h
    unfold Table.values
    rw [h]
  unfold route
  rw [hfind _ hvalues, hfind _ fun u v h => by simp [h]]
  cases k.tables.find? fun t => decide (c ∈ t.values) <;> rfl

theorem insertInto_of_takes {k : Catalog} {n : RelName} {t t' : Table} {rs : List Row}
    (hf : k.find n = some t) (ht : t ∈ k.tables) (hi : t.insert rs = some t')
    (htake : ∀ r ∈ rs, k.Takes t r) : k.insertInto n rs = .ok (k.fill t t' rs ht hi htake) := by
  unfold insertInto
  split
  · rename_i hf'
    rw [hf] at hf'
    cases hf'
  · rename_i u hf'
    obtain rfl : t = u := Option.some.inj (hf.symm.trans hf')
    rw [dif_pos htake]
    split
    · rename_i hi'
      rw [hi] at hi'
      cases hi'
    · rename_i u' hi'
      obtain rfl : t' = u' := Option.some.inj (hi.symm.trans hi')
      rfl

/-- Rows of `c` have a place, and the table there wants no other collection. -/
def Open (k : Catalog) (c : CollectionId) : Prop :=
  ∃ t, k.route c = some t ∧ ∀ q ∈ t.checks, c = q.2

/-- A row of a new key is inserted. -/
theorem insertFeature_open {k : Catalog} {r : Row} (h : k.Open r.collectionId)
    (hkey : ∀ q ∈ k.rowsOf r.collectionId, q.key ≠ r.key) :
    ∃ k', k.insertFeature r = .ok k' ∧ k'.Open r.collectionId := by
  obtain ⟨t, hroute, hchecks⟩ := h
  obtain ⟨ht, hplace⟩ := route_some hroute
  have hatt : t.attached = true := by
    rcases hplace with hv | ⟨hd, _⟩
    · cases hb : t.bound with
      | none => simp [Table.values, hb] at hv
      | some b => simp [Table.attached, hb]
    · simp [Table.attached, hd]
  have htake : ∀ q ∈ [r], k.Takes t q := by
    intro q hq
    rw [List.mem_singleton.mp hq]
    refine ⟨hchecks, ?_⟩
    rcases hplace with hv | ⟨hd, hno⟩
    · cases hb : t.bound with
      | none => trivial
      | some b =>
        cases b with
        | default => simp [Table.values, hb] at hv
        | values vs =>
          rw [Table.values, hb] at hv
          exact hv
    · rw [hd]
      exact hno
  have hnodup : ((t.rows ++ [r]).map Row.key).Nodup := by
    rw [List.map_append, List.nodup_append]
    refine ⟨t.pk_rows, by simp, fun a ha b hb => ?_⟩
    obtain ⟨q, hq, rfl⟩ := List.mem_map.mp ha
    rw [List.mem_singleton.mp hb]
    intro he
    have hc : q.collectionId = r.collectionId := congrArg (·.2.1) he
    exact hkey q (mem_rowsOf.mpr ⟨mem_live.mpr ⟨t, ht, hatt, hq⟩, hc⟩) he
  obtain ⟨t', ht'⟩ := Option.isSome_iff_exists.mp ((t.insert_isSome_iff [r]).mpr hnodup)
  have hinto : k.insertFeature r = .ok (k.fill t t' [r] ht ht' htake) := by
    unfold insertFeature
    rw [hroute]
    exact insertInto_of_takes (find_of_mem ht) ht ht' htake
  refine ⟨_, hinto, t', ?_, ?_⟩
  · rw [route_fill, hroute]
    simp
  · rw [Table.insert_checks ht']
    exact hchecks

/-- Rows of `c` with new keys are inserted. -/
theorem insertFeatures_open {c : CollectionId} {rs : List Row} :
    ∀ {k : Catalog}, k.Open c → (∀ r ∈ rs, r.collectionId = c) →
      ((k.rowsOf c ++ rs).map Row.key).Nodup → ∃ k', k.insertFeatures rs = .ok k' := by
  induction rs with
  | nil => exact fun {k} _ _ _ => ⟨k, rfl⟩
  | cons r rs ih =>
    intro k hopen hrs hnodup
    have hr := hrs r (by simp)
    subst hr
    rw [List.map_append, List.nodup_append] at hnodup
    obtain ⟨k₁, h₁, hopen₁⟩ := insertFeature_open hopen fun q hq =>
      hnodup.2.2 _ (List.mem_map_of_mem hq) _ (by simp)
    have hrows := insertFeature_rows h₁ r.collectionId
    obtain ⟨k', hk'⟩ := ih hopen₁ (fun q hq => hrs q (by simp [hq])) (by
      refine ((hrows.append_right rs).map Row.key).nodup_iff.mpr ?_
      simpa [List.append_assoc] using List.nodup_append.mpr hnodup)
    refine ⟨k', ?_⟩
    rw [insertFeatures, List.foldlM_cons, h₁]
    exact hk'

theorem grounded_of_bounds {k k' : Catalog} (hk : k.Grounded)
    (h : ∀ m, (k'.find m).map Table.bound = (k.find m).map Table.bound) : k'.Grounded := by
  refine grounded_of_find hk fun t' ht' => ?_
  have := h featuresDefault
  rw [ht'] at this
  cases hf : k.find featuresDefault with
  | none => rw [hf] at this; cases this
  | some t => rw [hf] at this; exact ⟨t, rfl, by simpa using this⟩

/-! ## The default partition -/

theorem keep_eq_self {f : Row → Bool} {t : Table} (h : ∀ r ∈ t.rows, f r = true) :
    t.keep f = t := by
  cases t with
  | mk name heap bound unlogged checks pk =>
    simp only [Table.keep, Table.mk.injEq, true_and, and_true]
    conv_rhs => rw [← List.map_id heap]
    refine List.map_congr_left fun o ho => ?_
    cases o with
    | none => rfl
    | some r =>
      have : f r = true := h r (by simpa [Table.rows, List.reduceOption_mem_iff] using ho)
      simp [Option.filter, this]

theorem onTable_keep_eq_self {k : Catalog} {n : RelName} {f : Row → Bool}
    (h : ∀ t, k.find n = some t → ∀ r ∈ t.rows, f r = true) :
    k.onTable n (Table.tame_keep f) = k := by
  refine ext_tables ?_
  simp only [onTable, mapTables]
  conv_rhs => rw [← List.map_id k.tables]
  refine List.map_congr_left fun t ht => ?_
  by_cases hn : t.name = n
  · have : k.find n = some t := hn ▸ find_of_mem ht
    simp [hn, keep_eq_self (h t this)]
  · simp [hn]

/-- A row of `c` in the default partition can only be routed back to it. -/
theorem route_default {k : Catalog} (hk : k.Grounded) {t : Table}
    (ht : k.find featuresDefault = some t) {r : Row} (hr : r ∈ t.rows) {u : Table}
    (hu : k.route r.collectionId = some u) : u = t := by
  obtain ⟨hum, hplace⟩ := route_some hu
  have htm := (find_mem ht).1
  rcases hplace with hv | ⟨hd, _⟩
  · exact absurd hv (k.spare t htm (hk t ht) r hr u hum)
  · exact eq_of_name hum htm (k.single u hum t htm hd (hk t ht))

theorem migrate_eq {k k' : Catalog} (hk : k.Grounded) {c : CollectionId}
    (h : k.migrateDefaultRowsToPartition c = .ok k') : k' = k := by
  unfold migrateDefaultRowsToPartition at h
  obtain ⟨t, ht, h⟩ := bind_eq_ok.mp h
  obtain ⟨k₁, h₁, h⟩ := bind_eq_ok.mp h
  have ht := need_eq_ok.mp ht
  cases hrs : t.rows.filter (·.collectionId == c) with
  | nil =>
    rw [hrs] at h₁
    cases h₁
    rw [deleteFrom_ok h]
    refine onTable_keep_eq_self fun u hu r hr => ?_
    rw [ht] at hu
    cases hu
    simpa using List.filter_eq_nil_iff.mp hrs r hr
  | cons r rs =>
    rw [hrs] at h₁
    obtain ⟨k₂, h₂, _⟩ := insertFeatures_cons h₁
    obtain ⟨u, u', hu, hi, _, hroute, _, _⟩ := insertFeature_ok h₂
    have hr : r ∈ t.rows := List.mem_of_mem_filter (hrs ▸ List.mem_cons_self)
    have hut := route_default hk ht hr hroute
    have hnd := u'.pk_rows
    rw [(Table.insert_eq hi).2.2, hut, List.map_append, List.nodup_append] at hnd
    exact absurd rfl (hnd.2.2 r.key (List.mem_map_of_mem hr) r.key (by simp))

/-- The rows of `c` that leave the default partition, and the ones that stay. -/
theorem rowsOf_deleteDefault {k : Catalog} (hk : k.Grounded) {t : Table}
    (ht : k.find featuresDefault = some t) (c : CollectionId)
    (hfree : (k.onTable featuresDefault (Table.tame_keep fun r => !(r.collectionId == c))).Free c) :
    k.rowsOf c = t.rows.filter (·.collectionId == c) := by
  have hatt : t.attached = true := by simp [Table.attached, hk t ht]
  have hpart : t.part c = t.rows.filter (·.collectionId == c) := by simp [Table.part, hatt]
  rw [← hpart, rowsOf_eq]
  refine flatMap_eq_of_unique k.names.of_map (find_mem ht).1 fun u hu hne => ?_
  -- another table is for other ids, as none is for `c` after the rows are gone
  have hname : u.name ≠ featuresDefault := fun hn =>
    hne (eq_of_name hu (find_mem ht).1 (hn.trans (find_mem ht).2.symm))
  have hmem : u ∈ (k.onTable featuresDefault
      (Table.tame_keep fun r => !(r.collectionId == c))).tables := by
    refine List.mem_map.mpr ⟨u, hu, ?_⟩
    simp [hname]
  cases hb : u.bound with
  | none => simp [Table.part, Table.attached, hb]
  | some b =>
    cases b with
    | default => exact part_eq_nil ((hfree u hmem).2 hb)
    | values vs =>
      refine part_of_values hu hb fun hc => (hfree u hmem).1 ?_
      simpa [Table.values, hb] using hc

theorem rowsOf_free {k : Catalog} {c : CollectionId} (h : k.Free c) : k.rowsOf c = [] := by
  rw [rowsOf_eq, List.flatMap_eq_nil_iff]
  intro t ht
  cases hb : t.bound with
  | none => simp [Table.part, Table.attached, hb]
  | some b =>
    cases b with
    | default => exact part_eq_nil ((h t ht).2 hb)
    | values vs =>
      refine part_of_values ht hb fun hc => (h t ht).1 ?_
      simpa [Table.values, hb] using hc

/-! ## The partition of a collection -/

variable {H : Digest}

theorem append_ne_of_underscore {p a x y : Text} (h : '_' ∉ a) : p ++ a ≠ p ++ x ++ '_' :: y := by
  intro he
  rw [List.append_assoc, List.append_cancel_left_eq] at he
  exact h (by rw [he]; simp)

theorem featuresDefault_ne_safe (c : CollectionId) : featuresDefault ≠ safePartitionName H c := by
  have hsplit : featuresDefault = "features_".toList ++ "default".toList := by decide
  have hplain : '_' ∉ "default".toList := by decide
  exact fun h => append_ne_of_underscore hplain (hsplit.symm.trans h)

/-- A new partition is empty, so nothing becomes live. -/
theorem createPartition_ok {k k' : Catalog} {n : RelName} {c : CollectionId}
    (h : k.createPartition n c = .ok k') :
    k.Free c ∧ k'.rowsOf c = [] ∧ (∃ t, k'.find n = some t ∧ t.bound = some (.values [c])) ∧
      ∀ m, m ≠ n → k'.find m = k.find m := by
  obtain ⟨k₁, h₁, h₂⟩ := bind_eq_ok.mp h
  obtain ⟨t, ht, _, _, hfree, hf, hrows, rfl⟩ := attachPartition_ok h₂
  have hfind := find_createTable h₁
  have htn := hfind n
  rw [ht, if_pos rfl] at htn
  refine ⟨fun u hu => hfree u ?_, ?_, ?_, fun m hm => ?_⟩
  · rw [(createTable_ok h₁).2]; exact List.mem_append_left _ hu
  · rw [rowsOf_bindTo ht, Option.some.inj htn]; rfl
  · refine ⟨{ t with bound := some (.values [c]) }, ?_, rfl⟩
    rw [find_bindTo, ht, Option.map_some, if_pos (find_mem ht).2]
  · rw [find_bindTo, hfind m, if_neg hm]
    cases hkm : k.find m with
    | none => rfl
    | some u => simp [(find_mem hkm).2, hm]

/-- What `ensure_features_partition_sync` keeps. -/
structure Ensured (H : Digest) (c : CollectionId) (k k' : Catalog) : Prop where
  rows : (k'.rowsOf c).Perm (k.rowsOf c)
  grounded : k'.Grounded
  find : ∀ m, m ≠ featuresDefault → m ≠ safePartitionName H c → k'.find m = k.find m

theorem Ensured.refl {k : Catalog} (hk : k.Grounded) (c : CollectionId) : Ensured H c k k :=
  ⟨.refl _, hk, fun _ _ _ => rfl⟩

theorem ensureExisting_ok {k k' : Catalog} (hk : k.Grounded) {c : CollectionId} {n n' : RelName}
    (h : k.ensureExisting c n = .ok (n', k')) : k' = k := by
  obtain ⟨k₁, h₁, h⟩ := bind_eq_ok.mp h
  cases h
  exact migrate_eq hk h₁

theorem ensureMissing_ok {k k' : Catalog} (hk : k.Grounded) {c : CollectionId} {n : RelName}
    (h : k.ensureMissing H c = .ok (n, k')) : Ensured H c k k' := by
  unfold ensureMissing at h
  split at h
  · rw [ensureExisting_ok hk h]
    exact Ensured.refl hk c
  · obtain ⟨t, ht, h⟩ := bind_eq_ok.mp h
    have ht := need_eq_ok.mp ht
    dsimp only at h
    split at h
    · obtain ⟨k₁, h₁, h⟩ := bind_eq_ok.mp h
      cases h
      obtain ⟨hfree, hrows, _, hfind⟩ := createPartition_ok h₁
      refine ⟨by rw [hrows, rowsOf_free hfree], ?_, fun m _ hm => hfind m hm⟩
      refine grounded_of_find hk fun u hu => ?_
      rw [hfind _ (featuresDefault_ne_safe c)] at hu
      exact ⟨u, hu, rfl⟩
    · obtain ⟨k₁, h₁, h⟩ := bind_eq_ok.mp h
      obtain ⟨k₂, h₂, h⟩ := bind_eq_ok.mp h
      obtain ⟨k₃, h₃, h⟩ := bind_eq_ok.mp h
      cases h
      obtain ⟨hfree, hrows, ⟨u, hu, hub⟩, hfind⟩ := createPartition_ok h₂
      have hk₁ := deleteFrom_ok h₁
      have hgone : ∀ m, m ≠ featuresDefault → k₁.find m = k.find m := by
        intro m hm
        rw [hk₁, find_onTable, if_neg hm]
      have hground : k₂.Grounded := by
        refine grounded_of_find hk fun v hv => ?_
        rw [hfind _ (featuresDefault_ne_safe c), hk₁, find_onTable, if_pos rfl, ht] at hv
        cases hv
        exact ⟨t, ht, rfl⟩
      have hall : ∀ r ∈ t.rows.filter (·.collectionId == c), r.collectionId = c := by
        intro r hr
        simpa using (List.mem_filter.mp hr).2
      refine ⟨?_, grounded_of_bounds hground (insertFeatures_bounds h₃), fun m hm hms => ?_⟩
      · have hp := insertFeatures_ok h₃ c
        have hself : (t.rows.filter (·.collectionId == c)).filter (·.collectionId == c) =
            t.rows.filter (·.collectionId == c) := by rw [List.filter_filter]; simp
        rw [hrows, List.nil_append, hself] at hp
        rw [rowsOf_deleteDefault hk ht c (hk₁ ▸ hfree)]
        exact hp
      · rw [insertFeatures_find h₃, hfind m hms, hgone m hm]
        intro v hv
        have hvk : k.find m = some v := by rw [← hgone m hm, ← hfind m hms]; exact hv
        refine ⟨fun hd => hm ?_, fun r hr hc => ?_⟩
        · have := k.single v (find_mem hvk).1 t (find_mem ht).1 hd (hk t ht)
          rw [← (find_mem hvk).2, this, (find_mem ht).2]
        · rw [hall r hr] at hc
          have := eq_of_value (find_mem hv).1 (find_mem hu).1 hc (by simp [Table.values, hub])
          exact hms (by rw [← (find_mem hv).2, this, (find_mem hu).2])

/-- `n` is the partition of `c`. -/
def IsPartition (k : Catalog) (c : CollectionId) (n : RelName) : Prop :=
  (k.find n).map Table.bound = some (some (.values [c]))

theorem isPartition_iff {k : Catalog} {c : CollectionId} {n : RelName} :
    k.IsPartition c n ↔ ∃ t, k.find n = some t ∧ t.bound = some (.values [c]) := by
  simp [IsPartition, Option.map_eq_some_iff]

theorem noLookalike_of_bounds {k k' : Catalog} {c : CollectionId} (hk : k.NoLookalike c)
    (h : ∀ m, m ≠ featuresDefault → k'.IsPartition c m ∨
      (k'.find m).map Table.bound = (k.find m).map Table.bound) : k'.NoLookalike c := by
  intro t ht hl x hb hx
  have hf := find_of_mem ht
  rcases h t.name hl.1 with hc | hsame
  · obtain ⟨u, hu, hub⟩ := isPartition_iff.mp hc
    rw [hf] at hu
    cases hu
    rw [hb] at hub
    simpa using hub
  · rw [hf, Option.map_some] at hsame
    obtain ⟨u, hu, hub⟩ := Option.map_eq_some_iff.mp hsame.symm
    obtain ⟨hmem, hname⟩ := find_mem hu
    exact hk u hmem ⟨hname ▸ hl.1, hname ▸ hl.2⟩ x (hub.trans hb) hx

theorem isPartition_of_resolves {k : Catalog} {c : CollectionId} (hk : k.NoLookalike c)
    {n : RelName} (h : k.resolveFeaturesPartitionRelname c = some n) : k.IsPartition c n :=
  isPartition_iff.mpr (resolves_of_noLookalike hk n h)

/-- `ensure_features_partition_sync` returns the partition, and changes no other bound. -/
theorem ensureMissing_bounds {k k' : Catalog} (hk : k.Grounded) {c : CollectionId}
    (hl : k.NoLookalike c) {n : RelName} (h : k.ensureMissing H c = .ok (n, k')) :
    k'.IsPartition c n ∧ ∀ m, k'.IsPartition c m ∨
      (k'.find m).map Table.bound = (k.find m).map Table.bound := by
  unfold ensureMissing at h
  split at h
  · rename_i existing hres
    have hn : n = existing := by
      obtain ⟨_, _, h⟩ := bind_eq_ok.mp h
      cases h
      rfl
    rw [ensureExisting_ok hk h, hn]
    exact ⟨isPartition_of_resolves hl hres, fun _ => .inr rfl⟩
  · obtain ⟨t, ht, h⟩ := bind_eq_ok.mp h
    dsimp only at h
    split at h
    · obtain ⟨k₁, h₁, h⟩ := bind_eq_ok.mp h
      cases h
      obtain ⟨_, _, hnew, hfind⟩ := createPartition_ok h₁
      refine ⟨isPartition_iff.mpr hnew, fun m => ?_⟩
      by_cases hm : m = safePartitionName H c
      · exact .inl (hm ▸ isPartition_iff.mpr hnew)
      · exact .inr (by rw [hfind m hm])
    · obtain ⟨k₁, h₁, h⟩ := bind_eq_ok.mp h
      obtain ⟨k₂, h₂, h⟩ := bind_eq_ok.mp h
      obtain ⟨k₃, h₃, h⟩ := bind_eq_ok.mp h
      cases h
      obtain ⟨_, _, hnew, hfind⟩ := createPartition_ok h₂
      have hb := insertFeatures_bounds h₃
      have hpart : k'.IsPartition c (safePartitionName H c) := by
        rw [IsPartition, hb]
        exact isPartition_iff.mpr hnew
      refine ⟨hpart, fun m => ?_⟩
      by_cases hm : m = safePartitionName H c
      · exact .inl (hm ▸ hpart)
      · refine .inr ?_
        rw [hb, hfind m hm, deleteFrom_ok h₁, find_onTable]
        split
        · rw [Option.map_map]; rfl
        · rfl

/-- `TRUNCATE` of the partition of `c` leaves no row of it. -/
theorem rowsOf_truncate {k k' : Catalog} {c : CollectionId} {n : RelName} (hn : k.IsPartition c n)
    (h : k.truncateTable n = .ok k') : k'.rowsOf c = [] := by
  obtain ⟨t, ht, hb⟩ := isPartition_iff.mp hn
  have hf : k'.find n = some t.truncate := by
    rw [truncateTable_ok h, find_onTable, if_pos rfl, ht]
    rfl
  have hc : c ∈ t.truncate.values := by simp [Table.values, Table.truncate, hb]
  rw [rowsOf_of_value (find_mem hf).1 hc]
  exact part_eq_nil fun r hr => by simp [Table.rows, Table.truncate] at hr

/-! ## The staging table -/

/-- The rows of a table and its place in `features`. -/
def view (k : Catalog) (m : RelName) : Option (List Row × Option Bound) :=
  (k.find m).map fun t => (t.rows, t.bound)

theorem view_some {k : Catalog} {m : RelName} {rs : List Row} {b : Option Bound} :
    k.view m = some (rs, b) ↔ ∃ t, k.find m = some t ∧ t.rows = rs ∧ t.bound = b := by
  simp only [view, Option.map_eq_some_iff, Prod.mk.injEq]

theorem view_of_find {k k' : Catalog} {m : RelName} (h : k'.find m = k.find m) :
    k'.view m = k.view m := by
  simp only [view, h]

theorem view_drop (k : Catalog) (n m : RelName) :
    (k.drop n).view m = if m = n then none else k.view m := by
  simp only [view, find_drop]
  split <;> rfl

theorem grounded_of_view {k k' : Catalog} (hk : k.Grounded)
    (h : k'.view featuresDefault = k.view featuresDefault) : k'.Grounded := by
  refine grounded_of_find hk fun t' ht' => ?_
  obtain ⟨t, ht, _, hb⟩ := view_some.mp (h ▸ view_some.mpr ⟨t', ht', rfl, rfl⟩)
  exact ⟨t, ht, hb.symm⟩

/-- The rows of a collection with a partition of its own are the ones in that table. -/
theorem rowsOf_of_view {k : Catalog} {m : RelName} {c : CollectionId} {rs : List Row}
    (h : k.view m = some (rs, some (.values [c]))) : k.rowsOf c = rs := by
  obtain ⟨t, ht, rfl, hb⟩ := view_some.mp h
  have hmem := (find_mem ht).1
  rw [rowsOf_of_value hmem (by simp [Table.values, hb])]
  simp only [Table.part, Table.attached, hb, Option.isSome_some, if_true]
  refine List.filter_eq_self.mpr fun r hr => ?_
  simpa using k.fits t hmem [c] hb r hr

theorem prepare_view {k k' : Catalog} {c : CollectionId} {staging : RelName}
    (h : k.prepareStagingForAttach c staging = .ok k') (m : RelName) : k'.view m = k.view m := by
  unfold prepareStagingForAttach at h
  have hsame : ∀ (k : Catalog) {f : Table → Table} (hf : Table.Tame f),
      (∀ t, (f t).rows = t.rows ∧ (f t).bound = t.bound) →
        (k.onTable staging hf).view m = k.view m := by
    intro k f hf hsame
    rw [view, view, find_onTable]
    split
    · rw [Option.map_map]
      congr 1
      funext t
      exact Prod.ext (hsame t).1 (hsame t).2
    · rfl
  have hcheck : ∀ k₁ : Catalog,
      (if k₁.hasCheck staging (checkName staging) then pure k₁
        else k₁.addCheck staging (checkName staging) c) = .ok k' → k'.view m = k₁.view m := by
    intro k₁ h
    split at h
    · cases h; rfl
    · rw [addCheck_ok h]
      exact hsame k₁ _ fun _ => ⟨rfl, rfl⟩
  split at h
  · obtain ⟨k₁, h₁, h⟩ := bind_eq_ok.mp h
    rw [hcheck k₁ h, setLogged_ok h₁]
    exact hsame k _ fun _ => ⟨rfl, rfl⟩
  · exact hcheck k h

theorem dropOrphan_find (k : Catalog) (staging canonicalOld : RelName) {m : RelName}
    (hm : m = staging ∨ m ≠ canonicalOld) :
    (k.dropOrphanDetachedPartition staging canonicalOld).find m = k.find m := by
  unfold dropOrphanDetachedPartition
  split
  · rfl
  · rename_i hne
    have hcs : canonicalOld ≠ staging := by
      intro he; exact hne (by simp [he])
    split
    · rfl
    · split
      · rfl
      · rw [find_drop, if_neg]
        rcases hm with rfl | hm
        · exact hcs.symm
        · exact hm

/-- A table that is attached to `features` for `c` is its partition. -/
theorem resolve_attached {k : Catalog} {c : CollectionId} {n : RelName}
    (h : k.resolveFeaturesPartitionRelname c = some n) : k.partitionIsAttached n = true := by
  obtain ⟨t, ht, _, x, hb, _⟩ := resolve_some h
  simp [partitionIsAttached, ht, Table.attached, hb]

/-- What a swap does to a staging table that is not live, and to the rows of the collection. -/
structure Swapped (c : CollectionId) (staging : RelName) (rows : List Row) (k' : Catalog) :
    Prop where
  view : k'.view staging = some (rows, some (.values [c]))
  rows : k'.rowsOf c = rows
  grounded : k'.Grounded

theorem attach_swapped {k k' : Catalog} (hk : k.Grounded) {c : CollectionId} {staging : RelName}
    (hs : staging ≠ featuresDefault) {rows : List Row} {b : Option Bound}
    (hv : k.view staging = some (rows, b)) (h : k.attachPartition staging c = .ok k') :
    Swapped c staging rows k' := by
  obtain ⟨t, ht, rfl, rfl⟩ := view_some.mp hv
  obtain ⟨u, hu, _, _, _, hfree, hrows, rfl⟩ := attachPartition_ok h
  rw [ht] at hu
  cases hu
  refine ⟨view_some.mpr ⟨{ t with bound := some (.values [c]) }, ?_, rfl, rfl⟩,
    rowsOf_bindTo ht, grounded_of_find hk fun v hv => ?_⟩
  · rw [find_bindTo, ht, Option.map_some, if_pos (find_mem ht).2]
  · rw [find_bindTo] at hv
    obtain ⟨w, hw, hwv⟩ := Option.map_eq_some_iff.mp hv
    rw [(find_mem hw).2, if_neg hs.symm] at hwv
    exact ⟨w, hw, by rw [hwv]⟩

/-- The two ways a swap succeeds: the staging table is attached already, or it is attached now. -/
theorem swap_cases {k k' : Catalog} (hk : k.Grounded) {c : CollectionId} {staging : RelName}
    (hs : staging ≠ featuresDefault)
    (h : k.swapStagingIntoCollectionPartition H c staging = .ok k') :
    k.partitionIsAttached staging = true ∧ k'.Grounded ∧ k'.view staging = k.view staging ∨
    k.partitionIsAttached staging = false ∧ ∃ k₂ : Catalog, k₂.Grounded ∧
      k₂.find staging = k.find staging ∧ k₂.attachPartition staging c = .ok k' := by
  have hdefault := featuresDefault_ne_safe (H := H) c
  unfold swapStagingIntoCollectionPartition at h
  obtain ⟨k₁, h₁, h⟩ := bind_eq_ok.mp h
  have hk₁ := deleteFrom_ok h₁
  have hfind₁ : k₁.find staging = k.find staging := by rw [hk₁, find_onTable, if_neg hs]
  have hground₁ : k₁.Grounded := by
    refine grounded_of_find hk fun v hv => ?_
    rw [hk₁, find_onTable, if_pos rfl] at hv
    obtain ⟨w, hw, rfl⟩ := Option.map_eq_some_iff.mp hv
    exact ⟨w, hw, rfl⟩
  have hatt : k₁.partitionIsAttached staging = k.partitionIsAttached staging := by
    simp only [partitionIsAttached, hfind₁]
  -- clearing away an old partition that is not attached touches neither table
  have horphan : ∀ k₂ : Catalog, k₂.Grounded →
      (k₂.dropOrphanDetachedPartition staging (safePartitionName H c)).Grounded ∧
        (k₂.dropOrphanDetachedPartition staging (safePartitionName H c)).find staging =
          k₂.find staging := by
    intro k₂ hk₂
    exact ⟨grounded_of_view hk₂ (view_of_find (dropOrphan_find _ _ _ (.inr hdefault))),
      dropOrphan_find _ _ _ (.inl rfl)⟩
  cases hin : k₁.partitionIsAttached staging with
  | true =>
    rw [if_pos hin] at h
    cases h
    obtain ⟨hg, hf⟩ := horphan k₁ hground₁
    exact .inl ⟨hatt ▸ hin, hg, view_of_find (hf.trans hfind₁)⟩
  | false =>
    simp only [hin, Bool.false_eq_true, if_false] at h
    refine .inr ⟨hatt ▸ hin, ?_⟩
    split at h
    · rename_i oldPart hold
      have hne : oldPart ≠ staging := by
        rintro rfl
        exact Bool.false_ne_true (hin.symm.trans (resolve_attached hold))
      obtain ⟨u, hu, hlisted, _⟩ := resolve_some hold
      rw [if_neg hne] at h
      obtain ⟨k₂, h₂, h⟩ := bind_eq_ok.mp h
      obtain ⟨k₃, h₃, h⟩ := bind_eq_ok.mp h
      obtain ⟨_, _, _, hk₂⟩ := detachPartition_ok h₂
      rw [dropTable_ok h₃, hk₂] at h
      have hother : ∀ m, m ≠ oldPart →
          ((k₁.onTable oldPart Table.tame_detach).drop oldPart).find m = k₁.find m := by
        intro m hm
        rw [find_drop, if_neg hm, find_onTable, if_neg hm]
      have hfd : featuresDefault ≠ oldPart := by
        rw [← (find_mem hu).2]; exact hlisted.1.symm
      obtain ⟨hg, hf⟩ := horphan _ (grounded_of_view hground₁ (view_of_find (hother _ hfd)))
      exact ⟨_, hg, hf.trans ((hother _ hne.symm).trans hfind₁), h⟩
    · obtain ⟨hg, hf⟩ := horphan k₁ hground₁
      exact ⟨_, hg, hf.trans hfind₁, h⟩

theorem swap_ok {k k' : Catalog} (hk : k.Grounded) {c : CollectionId} {staging : RelName}
    (hs : staging ≠ featuresDefault) {rows : List Row}
    (hv : k.view staging = some (rows, none) ∨ k.view staging = some (rows, some (.values [c])))
    (h : k.swapStagingIntoCollectionPartition H c staging = .ok k') :
    Swapped c staging rows k' := by
  rcases swap_cases hk hs h with ⟨hatt, hg, hview⟩ | ⟨hatt, k₂, hg, hfind, hattach⟩
  · have hin : k.view staging = some (rows, some (.values [c])) := by
      refine hv.resolve_left fun hout => ?_
      obtain ⟨t, ht, _, hb⟩ := view_some.mp hout
      simp [partitionIsAttached, ht, Table.attached, hb] at hatt
    exact ⟨hview.trans hin, rowsOf_of_view (hview.trans hin), hg⟩
  · rcases hv with hv | hv
    · exact attach_swapped hg hs ((view_of_find hfind).trans hv) hattach
    · exact attach_swapped hg hs ((view_of_find hfind).trans hv) hattach

/-- A swap needs the staging table. -/
theorem swap_exists {k k' : Catalog} (hk : k.Grounded) {c : CollectionId} {staging : RelName}
    (hs : staging ≠ featuresDefault)
    (h : k.swapStagingIntoCollectionPartition H c staging = .ok k') : k.view staging ≠ none := by
  rcases swap_cases hk hs h with ⟨hatt, _⟩ | ⟨_, k₂, _, hfind, hattach⟩
  · intro hnone
    rw [view, Option.map_eq_none_iff] at hnone
    simp [partitionIsAttached, hnone] at hatt
  · obtain ⟨t, ht, _⟩ := attachPartition_ok hattach
    rw [hfind] at ht
    simp [view, ht]

end Catalog
end Db
end Geofastmap
