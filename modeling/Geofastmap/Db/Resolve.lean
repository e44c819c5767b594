import Geofastmap.Db.Partitions

/-!
# Geofastmap.Db.Resolve

Which child of `features` the text comparison finds, and what the operations that act on it do to
the other collections.

* `expr_eq_literal_iff` — the rendered bound agrees with the one of `c` exactly for the bounds of
  one value that differs from `c` in blanks only.
* `Kept`                — the rows of a collection and the partition that holds them stay.
* `resolve_exact_iff`   — the lookup is exact, and the operations keep every other collection, if
  and only if no other id of the attached partitions differs from `c` in blanks only.
-/

namespace Geofastmap
namespace Db

/-- The beginning of a list bound, without blanks. -/
def valuesIn : Text := "FORVALUESIN(".toList

theorem despace_valuesIn : Sql.despace "FOR VALUES IN (".toList = valuesIn := by decide

theorem despace_intercalate (vs : List CollectionId) :
    Sql.despace (", ".toList.intercalate (vs.map Sql.literal)) =
      [','].intercalate (vs.map fun x => Sql.literal (Sql.despace x)) := by
  have hsep : Sql.despace ", ".toList = [','] := by decide
  induction vs with
  | nil => rfl
  | cons x xs ih =>
    cases xs with
    | nil => simp only [List.map_cons, List.map_nil, List.intercalate_singleton, Sql.despace_literal]
    | cons y ys =>
      simp only [List.map_cons, List.intercalate_cons_cons, Sql.despace_append,
        Sql.despace_literal, hsep] at ih ⊢
      rw [ih]

theorem despace_expr_values (vs : List CollectionId) :
    Sql.despace (Bound.values vs).expr =
      valuesIn ++ [','].intercalate (vs.map fun x => Sql.literal (Sql.despace x)) ++ [')'] := by
  have h : Sql.despace [')'] = [')'] := by decide
  simp only [Bound.expr_values, Sql.despace_append, despace_intercalate, despace_valuesIn, h]

theorem partitionBoundLiteral_eq (c : CollectionId) :
    partitionBoundLiteral c = valuesIn ++ Sql.literal (Sql.despace c) ++ [')'] := by
  have h1 : Sql.despace "FOR VALUES IN ('".toList = valuesIn ++ ['\''] := by decide
  have h2 : Sql.despace "')".toList = ['\'', ')'] := by decide
  simp only [partitionBoundLiteral, Sql.despace_append, h1, h2, Sql.despace_doubleQuotes,
    Sql.literal, List.append_assoc, List.cons_append, List.nil_append]

/-- The bounds that read like the bound of `c`. -/
theorem expr_eq_literal_iff (b : Bound) (c : CollectionId) :
    Sql.despace b.expr = partitionBoundLiteral c ↔
      ∃ x, b = .values [x] ∧ Sql.despace x = Sql.despace c := by
  rw [partitionBoundLiteral_eq]
  cases b with
  | default =>
    refine iff_of_false (fun h => ?_) (by rintro ⟨x, h, _⟩; cases h)
    have h1 : (Sql.despace Bound.default.expr).head? = some 'D' := by decide
    have h2 : valuesIn = 'F' :: valuesIn.tail := by decide
    rw [h, h2] at h1
    exact absurd h1 (by simp)
  | values vs =>
    rw [despace_expr_values, List.append_assoc, List.append_assoc, List.append_cancel_left_eq]
    match vs with
    | [] =>
      refine iff_of_false (fun h => ?_) (by rintro ⟨x, h, _⟩; simp at h)
      exact absurd (congrArg List.head? h) (by simp [Sql.literal])
    | [x] =>
      simp only [List.map_cons, List.map_nil, List.intercalate_singleton]
      constructor
      · intro h
        exact ⟨x, rfl, (Sql.literal_append_inj (by decide) (by decide) h).1⟩
      · rintro ⟨y, hy, h⟩
        simp only [Bound.values.injEq, List.cons.injEq, and_true] at hy
        rw [hy, h]
    | x :: y :: ys =>
      refine iff_of_false (fun h => ?_) (by rintro ⟨z, h, _⟩; simp at h)
      simp only [List.map_cons, List.intercalate_cons_cons, List.append_assoc] at h
      have := (Sql.literal_append_inj (by simp) (by decide) h).2
      exact absurd (congrArg List.head? this) (by simp)

namespace Catalog

/-- The children that the partition list can name. -/
def Listed (t : Table) : Prop := t.name ≠ featuresDefault ∧ t.name ≠ []

theorem mem_partitionList {k : Catalog} {n : RelName} {b : Bound} :
    (n, b) ∈ k.partitionList ↔
      ∃ t ∈ k.tables, t.name = n ∧ t.bound = some b ∧ n ≠ featuresDefault := by
  simp only [partitionList, List.mem_filterMap]
  refine exists_congr fun t => and_congr_right fun _ => ?_
  by_cases h : t.name = featuresDefault
  · simp only [h, if_true]
    refine iff_of_false (by simp) ?_
    rintro ⟨rfl, _, hn⟩
    exact hn rfl
  · simp only [h, if_false, Option.map_eq_some_iff, Prod.mk.injEq]
    constructor
    · rintro ⟨b', hb, rfl, rfl⟩; exact ⟨rfl, hb, h⟩
    · rintro ⟨rfl, hb, _⟩; exact ⟨b, hb, rfl, rfl⟩

theorem resolve_some {k : Catalog} {c : CollectionId} {n : RelName}
    (h : k.resolveFeaturesPartitionRelname c = some n) :
    ∃ t, k.find n = some t ∧ Listed t ∧
      ∃ x, t.bound = some (.values [x]) ∧ Sql.despace x = Sql.despace c := by
  unfold resolveFeaturesPartitionRelname at h
  split at h
  · cases h
  · rename_i row hrow
    split at h
    · cases h
    · rename_i hne
      cases h
      obtain ⟨t, ht, hn, hb, hd⟩ := mem_partitionList.mp (List.mem_of_find?_eq_some hrow)
      have hx := (expr_eq_literal_iff row.2 c).mp (by simpa using List.find?_some hrow)
      obtain ⟨x, hx, he⟩ := hx
      refine ⟨t, ?_, ⟨by rwa [hn], fun h0 => hne (by simp [← hn, h0])⟩, x, by rw [hb, hx], he⟩
      rw [← hn]; exact find_of_mem ht

/-- The lookup returns a child whose bound is the one value `c`, or nothing. -/
def ResolvesExactly (k : Catalog) (c : CollectionId) : Prop :=
  ∀ n, k.resolveFeaturesPartitionRelname c = some n →
    ∃ t, k.find n = some t ∧ t.bound = some (.values [c])

/-- No attached partition is for another id that differs from `c` in blanks only. -/
def NoLookalike (k : Catalog) (c : CollectionId) : Prop :=
  ∀ t ∈ k.tables, Listed t → ∀ x, t.bound = some (.values [x]) →
    Sql.despace x = Sql.despace c → x = c

theorem resolves_of_noLookalike {k : Catalog} {c : CollectionId} (h : k.NoLookalike c) :
    k.ResolvesExactly c := by
  intro n hn
  obtain ⟨t, ht, hl, x, hb, hx⟩ := resolve_some hn
  have := h t (find_mem ht).1 hl x hb hx
  exact ⟨t, ht, by rw [hb, this]⟩

/-- The same tables in another order. -/
def permute (k : Catalog) (ts : List Table) (h : ts.Perm k.tables) : Catalog where
  tables := ts
  names := (h.map Table.name).nodup_iff.mpr k.names
  fits := fun t ht => k.fits t (h.mem_iff.mp ht)
  apart := by
    have hs : ∀ {t u : Table}, (∀ c ∈ t.values, c ∉ u.values) → ∀ c ∈ u.values, c ∉ t.values :=
      fun hd c hu ht => hd c ht hu
    exact (h.pairwise_iff hs).mpr k.apart
  spare := fun t ht hd r hr u hu => k.spare t (h.mem_iff.mp ht) hd r hr u (h.mem_iff.mp hu)
  single := fun t ht u hu => k.single t (h.mem_iff.mp ht) u (h.mem_iff.mp hu)

/-- A lookalike that comes first is found. -/
theorem resolve_cons {k : Catalog} {t : Table} {ts : List Table} (hk : k.tables = t :: ts)
    (hl : Listed t) {x c : CollectionId} (hb : t.bound = some (.values [x]))
    (hx : Sql.despace x = Sql.despace c) : k.resolveFeaturesPartitionRelname c = some t.name := by
  have he : Sql.despace (Bound.values [x]).expr = partitionBoundLiteral c :=
    (expr_eq_literal_iff _ c).mpr ⟨x, rfl, hx⟩
  have hlist : ∃ rest, k.partitionList = (t.name, .values [x]) :: rest := by
    simp [partitionList, hk, hl.1, hb]
  obtain ⟨rest, hlist⟩ := hlist
  simp [resolveFeaturesPartitionRelname, hlist, he, hl.2]

theorem noLookalike_of_resolves {k : Catalog} {c : CollectionId}
    (h : ∀ k' : Catalog, k'.tables.Perm k.tables → k'.ResolvesExactly c) : k.NoLookalike c := by
  intro t ht hl x hb hx
  have hp : (t :: k.tables.erase t).Perm k.tables := (List.perm_cons_erase ht).symm
  obtain ⟨u, hu, hbu⟩ := h (k.permute _ hp) hp t.name (resolve_cons rfl hl hb hx)
  have : u = t := by
    obtain ⟨hmem, hn⟩ := find_mem hu
    exact eq_of_name (hp.mem_iff.mp hmem) ht hn
  rw [this, hb] at hbu
  simpa using hbu

/-! ## What an operation on one collection does to the others -/

/-- `t` is the partition of `d`, or one with live rows of it. -/
def Holds (d : CollectionId) (t : Table) : Prop :=
  t.attached = true ∧ (d ∈ t.values ∨ t.part d ≠ [])

/-- The rows of `d` stay, and the children that hold them stay attached. -/
structure Kept (d : CollectionId) (k k' : Catalog) : Prop where
  rows : k'.rowsOf d = k.rowsOf d
  child : ∀ t ∈ k.tables, Holds d t →
    ∃ t' ∈ k'.tables, t'.name = t.name ∧ t'.bound = t.bound ∧ t'.part d = t.part d

theorem Kept.refl (d : CollectionId) (k : Catalog) : Kept d k k :=
  ⟨rfl, fun t ht _ => ⟨t, ht, rfl, rfl, rfl⟩⟩

theorem Kept.trans {d : CollectionId} {k₁ k₂ k₃ : Catalog} (h₁ : Kept d k₁ k₂)
    (h₂ : Kept d k₂ k₃) : Kept d k₁ k₃ := by
  refine ⟨h₂.rows.trans h₁.rows, fun t ht hold => ?_⟩
  obtain ⟨u, hu, hn, hb, hp⟩ := h₁.child t ht hold
  have hold' : Holds d u := by
    simpa [Holds, Table.attached, Table.values, hb, hp] using hold
  obtain ⟨v, hv, hn', hb', hp'⟩ := h₂.child u hu hold'
  exact ⟨v, hv, hn'.trans hn, hb'.trans hb, hp'.trans hp⟩

theorem kept_mapTables {d : CollectionId} {k : Catalog} {sel : Table → Bool} {f : Table → Table}
    {hf : Table.Tame f} (hpart : ∀ t ∈ k.tables, sel t = true → (f t).part d = t.part d)
    (hbound : ∀ t ∈ k.tables, sel t = true → Holds d t → (f t).bound = t.bound) :
    Kept d k (k.mapTables sel hf) := by
  refine ⟨rowsOf_mapTables hf hpart, fun t ht hold => ?_⟩
  refine ⟨_, List.mem_map_of_mem ht, ?_⟩
  by_cases hs : sel t = true
  · simp only [hs, if_true]
    exact ⟨hf.name t, hbound t ht hs hold, hpart t ht hs⟩
  · simp [hs]

theorem kept_drop {d : CollectionId} {k : Catalog} {n : RelName}
    (h : ∀ t, k.find n = some t → ¬ Holds d t) : Kept d k (k.drop n) := by
  have hn : ∀ t ∈ k.tables, t.name = n → ¬ Holds d t :=
    fun t ht hn => h t (hn ▸ find_of_mem ht)
  refine ⟨rowsOf_drop fun t ht htn => ?_, fun t ht hold => ⟨t, ?_, rfl, rfl, rfl⟩⟩
  · by_contra hp
    by_cases ha : t.attached = true
    · exact hn t ht htn ⟨ha, .inr hp⟩
    · exact hp (by simp [Table.part, ha])
  · exact List.mem_filter.mpr ⟨ht, by simpa using fun htn => hn t ht htn hold⟩

/-- A partition for `c` alone holds nothing of `d`. -/
theorem not_holds_of_bound {k : Catalog} {t : Table} (ht : t ∈ k.tables) {c d : CollectionId}
    (hb : t.bound = some (.values [c])) (hd : d ≠ c) : ¬ Holds d t := by
  rintro ⟨_, hv | hp⟩
  · simp [Table.values, hb, hd] at hv
  · exact hp (part_of_values ht hb (by simpa using hd))

theorem not_holds_of_unattached {t : Table} {d : CollectionId} (h : t.attached = false) :
    ¬ Holds d t := by
  rintro ⟨ha, _⟩; rw [h] at ha; cases ha

theorem kept_deleteFrom {k k' : Catalog} {n : RelName} {c d : CollectionId} (hd : d ≠ c)
    (h : k.deleteFrom n (·.collectionId == c) = .ok k') : Kept d k k' := by
  rw [deleteFrom_ok h]
  refine kept_mapTables (fun t _ _ => part_keep_ne hd t) fun _ _ _ _ => rfl

/-- A detached partition of `c` is none of `d`. -/
theorem kept_detach_drop {k k' : Catalog} {n : RelName} {c d : CollectionId} (hd : d ≠ c)
    {t : Table} (ht : k.find n = some t) (hb : t.bound = some (.values [c]))
    (h : k.detachPartition n = .ok k') : Kept d k (k'.drop n) := by
  obtain ⟨_, _, _, rfl⟩ := detachPartition_ok h
  have hone : ∀ u ∈ k.tables, (u.name == n) = true → u = t := by
    intro u hu hn
    exact eq_of_name hu (find_mem ht).1 ((by simpa using hn : u.name = n).trans (find_mem ht).2.symm)
  have hnot := not_holds_of_bound (find_mem ht).1 hb hd
  refine Kept.trans (kept_mapTables (fun u hu hs => ?_) fun u hu hs hold => ?_) (kept_drop ?_)
  · rw [hone u hu hs, part_of_values (find_mem ht).1 hb (by simpa using hd)]
    simp [Table.part, Table.attached, Table.detach]
  · exact absurd (hone u hu hs ▸ hold) hnot
  · intro u hu
    change (k.onTable n Table.tame_detach).find n = some u at hu
    rw [find_onTable, if_pos rfl, ht, Option.map_some, Option.some.injEq] at hu
    rw [← hu]
    exact not_holds_of_unattached rfl

theorem kept_dropOrphan (k : Catalog) (staging canonicalOld : RelName) (d : CollectionId) :
    Kept d k (k.dropOrphanDetachedPartition staging canonicalOld) := by
  unfold dropOrphanDetachedPartition
  split
  · exact Kept.refl d k
  · split
    · exact Kept.refl d k
    · split
      · exact Kept.refl d k
      · rename_i ha
        refine kept_drop fun t ht => not_holds_of_unattached ?_
        simpa [partitionIsAttached, ht] using ha

theorem kept_attach {k k' : Catalog} {n : RelName} {c d : CollectionId} (hd : d ≠ c)
    (h : k.attachPartition n c = .ok k') : Kept d k k' := by
  obtain ⟨t, ht, hb, _, _, hfree, hrows, rfl⟩ := attachPartition_ok h
  refine ⟨rowsOf_bindTo_ne hd, fun u hu hold => ⟨u, ?_, rfl, rfl, rfl⟩⟩
  have hne : u.name ≠ n := by
    intro hn
    have := eq_of_name hu (find_mem ht).1 (hn.trans (find_mem ht).2.symm)
    rw [this] at hold
    exact not_holds_of_unattached (by simp [Table.attached, hb]) hold
  exact List.mem_map.mpr ⟨u, hu, by simp [hne]⟩

section
variable {H : Digest}

theorem kept_dropCollection {k k' : Catalog} {c d : CollectionId} (hd : d ≠ c)
    (hk : k.ResolvesExactly c) {o : Option RelName}
    (h : k.dropCollectionFeaturesData H c = .ok (o, k')) : Kept d k k' := by
  obtain ⟨k₁, h₁, h⟩ := bind_eq_ok.mp h
  obtain ⟨k₂, h₂, h⟩ := bind_eq_ok.mp h
  have hk₁ : Kept d k k₁ := by
    unfold detachAndDrop at h₁
    split at h₁
    · rename_i p hp
      obtain ⟨kd, hdet, hdrop⟩ := bind_eq_ok.mp h₁
      cases hdrop
      obtain ⟨t, ht, hb⟩ := hk p hp
      exact kept_detach_drop hd ht hb hdet
    · cases h₁; exact Kept.refl d k
  have hk₂ : Kept d k k₂ := hk₁.trans (kept_deleteFrom hd h₂)
  split at h
  · rename_i hc
    cases h
    refine hk₂.trans (kept_drop fun t ht => not_holds_of_unattached ?_)
    simpa [partitionIsAttached, ht] using (Bool.and_eq_true_iff.mp hc).2
  · cases h; exact hk₂

theorem kept_prepare {k k' : Catalog} {c : CollectionId} {staging : RelName}
    (h : k.prepareStagingForAttach c staging = .ok k') (d : CollectionId) : Kept d k k' := by
  unfold prepareStagingForAttach at h
  have hset : ∀ k₁, k.setLogged staging = .ok k₁ → Kept d k k₁ := by
    intro k₁ h₁
    rw [setLogged_ok h₁]
    exact kept_mapTables (fun _ _ _ => rfl) fun _ _ _ _ => rfl
  have hcheck : ∀ k₁, Kept d k k₁ →
      (if k₁.hasCheck staging (checkName staging) then pure k₁
        else k₁.addCheck staging (checkName staging) c) = .ok k' → Kept d k k' := by
    intro k₁ hk₁ h
    split at h
    · cases h; exact hk₁
    · rw [addCheck_ok h]
      exact hk₁.trans (kept_mapTables (fun _ _ _ => rfl) fun _ _ _ _ => rfl)
  split at h
  · obtain ⟨k₁, h₁, h⟩ := bind_eq_ok.mp h
    exact hcheck k₁ (hset k₁ h₁) h
  · exact hcheck k (Kept.refl d k) h

theorem kept_swap {k k' : Catalog} {c d : CollectionId} {staging : RelName} (hd : d ≠ c)
    (hk : ∀ k₁, k.deleteFrom featuresDefault (·.collectionId == c) = .ok k₁ → k₁.ResolvesExactly c)
    (h : k.swapStagingIntoCollectionPartition H c staging = .ok k') : Kept d k k' := by
  unfold swapStagingIntoCollectionPartition at h
  obtain ⟨k₁, h₁, h⟩ := bind_eq_ok.mp h
  have hk₁ := kept_deleteFrom hd h₁
  split at h
  · cases h; exact hk₁.trans (kept_dropOrphan ..)
  · split at h
    · rename_i oldPart hold
      split at h
      · cases h; exact hk₁.trans (kept_dropOrphan ..)
      · obtain ⟨k₂, h₂, h⟩ := bind_eq_ok.mp h
        obtain ⟨k₃, h₃, h⟩ := bind_eq_ok.mp h
        obtain ⟨t, ht, hb⟩ := hk k₁ h₁ oldPart hold
        rw [dropTable_ok h₃] at h
        exact hk₁.trans ((kept_detach_drop hd ht hb h₂).trans
          ((kept_dropOrphan ..).trans (kept_attach hd h)))
    · exact hk₁.trans ((kept_dropOrphan ..).trans (kept_attach hd h))

/-! ## Partitions by name -/

theorem append_underscore_inj {a b x y : Text} (hx : '_' ∉ x) (hy : '_' ∉ y)
    (h : a ++ '_' :: x = b ++ '_' :: y) : x = y := by
  rcases List.append_eq_append_iff.mp h with ⟨m, _, hm⟩ | ⟨m, _, hm⟩
  · cases m with
    | nil => simpa using hm
    | cons ch m =>
      simp only [List.cons_append, List.cons.injEq] at hm
      exact absurd (by simp [hm.2]) hx
  · cases m with
    | nil => simpa using hm.symm
    | cons ch m =>
      simp only [List.cons_append, List.cons.injEq] at hm
      exact absurd (by simp [hm.2]) hy

theorem safePartitionName_inj {c d : CollectionId}
    (h : safePartitionName H c = safePartitionName H d) : c = d :=
  H.inj (append_underscore_inj (H.plain c) (H.plain d) h)

/-- An attached partition that has the name of a collection is for that collection. -/
def Named (H : Digest) (k : Catalog) : Prop :=
  ∀ t ∈ k.tables, t.attached = true → ∀ c, t.name = safePartitionName H c →
    t.bound = some (.values [c])

theorem named_mapTables {k : Catalog} (hk : k.Named H) (sel : Table → Bool) {f : Table → Table}
    (hf : Table.Tame f) : (k.mapTables sel hf).Named H := by
  intro t ht ha c hn
  obtain ⟨u, hu, rfl⟩ := List.mem_map.mp ht
  by_cases hs : sel u = true
  · simp only [hs, if_true] at ha hn ⊢
    rcases hf.bound u with hb | hb
    · rw [hb]
      exact hk u hu (by simpa [Table.attached, hb] using ha) c (hf.name u ▸ hn)
    · simp [Table.attached, hb] at ha
  · simp only [hs] at ha hn ⊢
    exact hk u hu ha c hn

theorem named_createTable {k k' : Catalog} (hk : k.Named H) {n : RelName} {u : Bool}
    (h : k.createTable n u = .ok k') : k'.Named H := by
  intro t ht
  rw [(createTable_ok h).2] at ht
  rcases List.mem_append.mp ht with ht | ht
  · exact hk t ht
  · rw [List.mem_singleton.mp ht]
    intro ha; cases ha

/-- A table may be attached for `c` when its name is not the one of another collection. -/
theorem named_attach {k k' : Catalog} (hk : k.Named H) {n : RelName} {c : CollectionId}
    (hn : ∀ d, n = safePartitionName H d → d = c) (h : k.attachPartition n c = .ok k') :
    k'.Named H := by
  obtain ⟨_, _, _, _, _, hfree, hrows, rfl⟩ := attachPartition_ok h
  intro t ht ha d hd
  obtain ⟨u, hu, rfl⟩ := List.mem_map.mp ht
  by_cases hun : u.name = n
  · simp only [hun, if_true] at hd ⊢
    rw [hn d hd]
  · simp only [hun, if_false] at ha hd ⊢
    exact hk u hu ha d hd

theorem named_insertInto {k k' : Catalog} (hk : k.Named H) {n : RelName} {rs : List Row}
    (h : k.insertInto n rs = .ok k') : k'.Named H := by
  obtain ⟨t, t', ht, hi, htake, _, rfl⟩ := insertInto_ok h
  obtain ⟨hn, hb, _⟩ := Table.insert_eq hi
  intro u hu ha d hd
  obtain ⟨v, hv, rfl⟩ := List.mem_map.mp hu
  by_cases hvn : v.name = t.name
  · simp only [hvn, if_true] at ha hd ⊢
    rw [hb]
    exact hk t ht (by simpa [Table.attached, hb] using ha) d (hn ▸ hd)
  · simp only [hvn, if_false] at ha hd ⊢
    exact hk v hv ha d hd

theorem named_insertFeatures {rs : List Row} :
    ∀ {k k' : Catalog}, k.Named H → k.insertFeatures rs = .ok k' → k'.Named H := by
  induction rs with
  | nil => intro k k' hk h; cases h; exact hk
  | cons r rs ih =>
    intro k k' hk h
    obtain ⟨k₁, h₁, h⟩ := bind_eq_ok.mp h
    refine ih ?_ h
    unfold insertFeature at h₁
    split at h₁
    · cases h₁
    · exact named_insertInto hk h₁

/-- The `TRUNCATE` by name reaches the rows of its collection only. -/
theorem kept_clear {k : Catalog} {c d : CollectionId} (hk : k.Named H) (hd : d ≠ c) :
    Kept d k (k.clearResultCollection H c) := by
  unfold clearResultCollection
  split
  · rename_i k' h
    rw [truncateTable_ok h]
    have hpart : ∀ t ∈ k.tables, (t.name == safePartitionName H c) = true → t.part d = [] := by
      intro t ht hn
      by_cases ha : t.attached = true
      · exact part_of_values ht (hk t ht ha c (by simpa using hn)) (by simpa using hd)
      · simp [Table.part, ha]
    refine kept_mapTables (fun t ht hn => ?_) fun _ _ _ _ => rfl
    rw [hpart t ht hn]
    exact part_eq_nil fun r hr => by simp [Table.truncate, Table.rows] at hr
  · exact kept_mapTables (fun t _ _ => part_keep_ne hd t) fun _ _ _ _ => rfl

/-! ## The lookup is exact -/

/-- What the operations that name a partition of `c` leave of every other collection. -/
structure Confined (H : Digest) (k : Catalog) (c : CollectionId) : Prop where
  exact : k.ResolvesExactly c
  dropCollection : ∀ d ≠ c, ∀ o k', k.dropCollectionFeaturesData H c = .ok (o, k') → Kept d k k'
  prepare : ∀ d ≠ c, ∀ staging k', k.prepareStagingForAttach c staging = .ok k' → Kept d k k'
  swap : ∀ d ≠ c, ∀ staging k', k.swapStagingIntoCollectionPartition H c staging = .ok k' →
    Kept d k k'
  clear : k.Named H → ∀ d ≠ c, Kept d k (k.clearResultCollection H c)

theorem noLookalike_mapTables {k : Catalog} {c : CollectionId} (hk : k.NoLookalike c)
    (sel : Table → Bool) {f : Table → Table} (hf : Table.Tame f) :
    (k.mapTables sel hf).NoLookalike c := by
  intro t ht hl x hb hx
  obtain ⟨u, hu, rfl⟩ := List.mem_map.mp ht
  by_cases hs : sel u = true
  · simp only [hs, if_true] at hl hb
    rcases hf.bound u with hbu | hbu
    · exact hk u hu (by simpa [Listed, hf.name] using hl) x (hbu ▸ hb) hx
    · rw [hbu] at hb; cases hb
  · simp only [hs] at hl hb
    exact hk u hu hl x hb hx

/-- **Resolution is exact, for every order of the children, if and only if no other attached id
differs from `c` in blanks only.** Then no operation on `c` touches the partition of another
collection. -/
theorem resolve_exact_iff (H : Digest) (k : Catalog) (c : CollectionId) :
    (∀ k' : Catalog, k'.tables.Perm k.tables → k'.Confined H c) ↔ k.NoLookalike c := by
  constructor
  · intro h
    exact noLookalike_of_resolves fun k' hp => (h k' hp).exact
  · intro h k' hp
    have hk' : k'.NoLookalike c := fun t ht => h t (hp.mem_iff.mp ht)
    have hex := resolves_of_noLookalike hk'
    refine ⟨hex, fun d hd o k₁ h₁ => kept_dropCollection hd hex h₁,
      fun d _ staging k₁ h₁ => kept_prepare h₁ d, fun d hd staging k₁ h₁ => ?_,
      fun hn d hd => kept_clear hn hd⟩
    refine kept_swap hd (fun k₂ h₂ => ?_) h₁
    rw [deleteFrom_ok h₂]
    exact resolves_of_noLookalike (noLookalike_mapTables hk' _ _)

end

/-! The collection `ab` has no partition, and the collection `a b` has one. -/

def blanksDigest : Digest :=
  .ofList [("ab".toList, "fb8e20fc".toList), ("a b".toList, "c8687a08".toList)]
    (by decide) (by decide)

def blanksRow : Row := ⟨"f1".toList, "a b".toList, 0, none, "{}".toList, none, 0, 0⟩

def blanksCatalog : Except DbError Catalog := do
  let (_, k) ← initial.ensureMissing blanksDigest "a b".toList
  k.insertFeatures [blanksRow]

/-- Deleting `ab` finds the partition of `a b` and drops it with its rows. -/
theorem drop_ab_loses_a_b :
    (blanksCatalog.map fun k => (k.resolveFeaturesPartitionRelname "ab".toList,
        (k.find "features_a_b_c8687a08".toList).map Table.bound, k.rowsOf "a b".toList)) =
      .ok (some "features_a_b_c8687a08".toList, some (some (.values ["a b".toList])),
        [blanksRow]) ∧
    ((do
      let k ← blanksCatalog
      let (dropped, k) ← k.dropCollectionFeaturesData blanksDigest "ab".toList
      return (dropped, k.rowsOf "a b".toList)) : Except DbError _) =
      .ok (some "features_a_b_c8687a08".toList, []) := by
  decide +kernel

end Catalog
end Db
end Geofastmap
