import Mathlib.Data.List.Flatten
import Geofastmap.Cache.Keys
import Geofastmap.Copy.Sources

/-!
# Geofastmap.Copy.Keys

The primary keys of the rows that an import stages.

The rows of a record have its id and are numbered from 0 (`recordRows_key`), so two rows collide
exactly when two records with rows have the same id: `staged_keys_distinct_iff`. Ids come from the
file, and fiona gives every record of a shapefile its position, so two shapefiles in a ZIP collide
unless a property tells their records apart (`two_shapefiles_collide`).
-/

namespace Geofastmap
namespace Copy

open Import

/-! ## Numbered groups -/

/-- Groups that are numbered from 0 are told apart by the names of those that are not empty. -/
theorem nodup_numbered_iff {α β : Type} (name : α → β) (count : α → Nat) (xs : List α) :
    (xs.flatMap fun x => (List.range (count x)).map fun i => (name x, i)).Nodup ↔
      ((xs.filter fun x => 0 < count x).map name).Nodup := by
  induction xs with
  | nil => simp
  | cons x xs ih =>
    rw [List.flatMap_cons, List.nodup_append, ih]
    by_cases hx : 0 < count x
    · have hgroup : ((List.range (count x)).map fun i => (name x, i)).Nodup :=
        List.nodup_range.map fun i j h => (Prod.mk.inj h).2
      have hfirst : (∀ a ∈ (List.range (count x)).map fun i => (name x, i),
          ∀ b ∈ xs.flatMap fun x => (List.range (count x)).map fun i => (name x, i), a ≠ b) ↔
          name x ∉ (xs.filter fun x => 0 < count x).map name := by
        simp only [List.mem_map, List.mem_range, List.mem_flatMap, List.mem_filter,
          decide_eq_true_eq]
        constructor
        · rintro h ⟨y, ⟨hy, hpos⟩, hname⟩
          exact h (name x, 0) ⟨0, hx, rfl⟩ (name x, 0) ⟨y, hy, 0, hpos, by rw [hname]⟩ rfl
        · rintro h a ⟨i, -, rfl⟩ b ⟨y, hy, j, hj, rfl⟩ heq
          exact h ⟨y, ⟨hy, by omega⟩, (Prod.mk.inj heq).1.symm⟩
      rw [List.filter_cons_of_pos (by simpa using hx), List.map_cons, List.nodup_cons, hfirst]
      tauto
    · have hzero : count x = 0 := by omega
      simp [hzero]

/-! ## The rows of a record -/

section
variable {G : Type} (P : Parser G) (T : Target)

/-- The primary key without the collection, which is the same for all rows. -/
def StagingRow.key (r : StagingRow) : Text × Nat := (r.id.text, r.partIndex)

/-- The record has a part that is stored. -/
def storesRows (rec : List (Text × Json)) : Bool :=
  (Json.dict (Json.get rec "properties".toList)).isOk &&
    !(allParts P (recordGeoms P rec)).1.isEmpty

theorem recordRows_cases (uuid : Text) (rec : List (Text × Json)) :
    (recordRows P T uuid rec = [] ∧ storesRows P rec = false) ∨
      ∃ failed, RecordRows P T uuid rec (recordRows P T uuid rec) failed ∧
        (0 < (recordRows P T uuid rec).length ↔ storesRows P rec = true) := by
  cases hdict : Json.dict (Json.get rec "properties".toList) with
  | error e =>
    left
    have hraise : featureRowsFromRecord P T uuid rec = .error e := by
      unfold featureRowsFromRecord
      rw [hdict]
      rfl
    constructor
    · rw [recordRows, hraise]
    · unfold storesRows
      rw [hdict]
      rfl
  | ok props =>
    right
    obtain ⟨rows, failed, hok, hspec⟩ := featureRowsFromRecord_ok P T uuid hdict
    have hrows : recordRows P T uuid rec = rows := by rw [recordRows, hok]
    refine ⟨failed, hrows ▸ hspec, ?_⟩
    have hlength := congrArg List.length hspec.geometries
    rw [List.length_map, List.length_map] at hlength
    unfold storesRows
    rw [hrows, hlength, List.length_pos_iff, hdict]
    simp [Except.isOk, Except.toBool]

theorem recordRows_pos_iff (uuid : Text) (rec : List (Text × Json)) :
    0 < (recordRows P T uuid rec).length ↔ storesRows P rec = true := by
  rcases recordRows_cases P T uuid rec with ⟨hnone, hstores⟩ | ⟨failed, -, hpos⟩
  · simp [hnone, hstores]
  · exact hpos

theorem recordRows_partIndex (uuid : Text) (rec : List (Text × Json)) :
    (recordRows P T uuid rec).map StagingRow.partIndex =
      List.range (recordRows P T uuid rec).length := by
  rcases recordRows_cases P T uuid rec with ⟨hnone, -⟩ | ⟨failed, hspec, -⟩
  · simp [hnone]
  · exact hspec.partIndexes

theorem recordRows_id (uuid : Text) (rec : List (Text × Json)) :
    ∀ r ∈ recordRows P T uuid rec, r.id = recordId P uuid rec := by
  rcases recordRows_cases P T uuid rec with ⟨hnone, -⟩ | ⟨failed, hspec, -⟩
  · simp [hnone]
  · exact hspec.ids

theorem recordRows_key (uuid : Text) (rec : List (Text × Json)) :
    (recordRows P T uuid rec).map StagingRow.key =
      (List.range (recordRows P T uuid rec).length).map
        fun i => ((recordId P uuid rec).text, i) := by
  rw [← recordRows_partIndex, List.map_map]
  refine List.map_congr_left fun r hr => ?_
  simp [StagingRow.key, recordRows_id P T uuid rec r hr]

/-! ## The ids of an upload -/

/-- The id that a record with rows brings along. -/
def givenId (rec : List (Text × Json)) : Option Text :=
  if storesRows P rec then
    match recordId P [] rec with
    | .given id => some id
    | .uuid7 _ => none
  else none

def drawId (d : Tag × List (Text × Json)) : Option Text := givenId P d.2

/-- The records of an upload, in their order. -/
def Upload.records : Upload → List (List (Text × Json))
  | .zip shapefiles => shapefiles.flatten.map Feat.record
  | .geojsonSeq file => (rawLines file).filterMap (asRecord P)
  | .single feats => feats.map Feat.record

def Upload.givenIds (up : Upload) : List Text := (up.records P).filterMap (givenId P)

/-- No two records with rows bring along the same id. -/
def Upload.IdsDistinct (up : Upload) : Prop := (up.givenIds P).Nodup

/-- No two draws of `uuid7` are the same, and none is an id of the file. -/
structure Fresh (uuid : Nat → Nat → Text) (ids : List Text) : Prop where
  distinct : ∀ t t' : Tag, uuid t.1 t.2 = uuid t'.1 t'.2 → t = t'
  unused : ∀ t : Tag, uuid t.1 t.2 ∉ ids

theorem recordId_cases (rec : List (Text × Json)) :
    (∃ id, ∀ uuid, recordId P uuid rec = .given id) ∨ ∀ uuid, recordId P uuid rec = .uuid7 uuid := by
  unfold recordId
  cases Json.get rec "id".toList with
  | null => exact Or.inr fun _ => rfl
  | _ => exact Or.inl ⟨_, fun _ => rfl⟩

theorem ids_nodup_iff {uuid : Nat → Nat → Text} {draws : List (Tag × List (Text × Json))}
    (hfresh : Fresh uuid (draws.filterMap (drawId P)))
    (htags : (draws.map Prod.fst).Nodup) :
    ((draws.filter fun d => storesRows P d.2).map
        fun d => (recordId P (uuid d.1.1 d.1.2) d.2).text).Nodup ↔
      (draws.filterMap (drawId P)).Nodup := by
  induction draws with
  | nil => simp
  | cons d draws ih =>
    rw [List.map_cons, List.nodup_cons] at htags
    have hsub : ∀ id, id ∈ (draws.filterMap (drawId P)) →
        id ∈ ((d :: draws).filterMap (drawId P)) := fun id hid => by
      rw [List.filterMap_cons]
      split
      · exact hid
      · exact List.mem_cons_of_mem _ hid
    have hrest := ih ⟨hfresh.distinct, fun t ht => hfresh.unused t (hsub _ ht)⟩ htags.2
    cases hstores : storesRows P d.2 with
    | false =>
      rw [List.filter_cons_of_neg (by simp [hstores]),
        List.filterMap_cons_none (by simp [drawId, givenId, hstores])]
      exact hrest
    | true =>
      rw [List.filter_cons_of_pos (by simp [hstores]), List.map_cons, List.nodup_cons, hrest]
      rcases recordId_cases P d.2 with ⟨id, hid⟩ | hid
      · have hgiven : drawId P d = some id := by simp [drawId, givenId, hstores, hid]
        rw [List.filterMap_cons_some hgiven, List.nodup_cons, hid]
        -- the same id is brought along by another record, as no draw is like it
        have hsame : id ∈ ((draws.filter fun d => storesRows P d.2).map
            fun d => (recordId P (uuid d.1.1 d.1.2) d.2).text) ↔
            id ∈ draws.filterMap (drawId P) := by
          simp only [List.mem_map, List.mem_filter, List.mem_filterMap]
          constructor
          · rintro ⟨e, ⟨he, hes⟩, htext⟩
            refine ⟨e, he, ?_⟩
            rcases recordId_cases P e.2 with ⟨id', hid'⟩ | hid'
            · rw [hid'] at htext
              have hgive : drawId P e = some id' := by simp [drawId, givenId, hes, hid']
              rw [hgive]
              exact congrArg some htext
            · rw [hid'] at htext
              have hmem : uuid e.1.1 e.1.2 ∈ (d :: draws).filterMap (drawId P) := by
                rw [List.filterMap_cons_some hgiven]
                exact htext ▸ List.mem_cons_self
              exact absurd hmem (hfresh.unused e.1)
          · rintro ⟨e, he, hgive⟩
            unfold drawId givenId at hgive
            split at hgive
            · rename_i hes
              refine ⟨e, ⟨he, hes⟩, ?_⟩
              rcases recordId_cases P e.2 with ⟨id', hid'⟩ | hid'
              · rw [hid'] at hgive ⊢
                exact Option.some.inj hgive
              · rw [hid'] at hgive
                cases hgive
            · cases hgive
        rw [show (FeatureId.given id).text = id from rfl, hsame]
      · have hnone : drawId P d = none := by simp [drawId, givenId, hid]
        rw [List.filterMap_cons_none hnone, hid]
        refine and_iff_right ?_
        intro hmem
        obtain ⟨e, he, htext⟩ := List.mem_map.mp hmem
        obtain ⟨he, hes⟩ := List.mem_filter.mp he
        rcases recordId_cases P e.2 with ⟨id', hid'⟩ | hid'
        · rw [hid'] at htext
          have hgive : drawId P e = some id' := by simp [drawId, givenId, hes, hid']
          have hin : id' ∈ draws.filterMap (drawId P) :=
            List.mem_filterMap.mpr ⟨e, he, hgive⟩
          rw [show id' = uuid d.1.1 d.1.2 from htext] at hin
          exact hfresh.unused d.1 (hsub _ hin)
        · rw [hid'] at htext
          have htag := hfresh.distinct e.1 d.1 htext
          exact htags.1 (htag ▸ List.mem_map_of_mem he)

/-! ## The draws of an upload -/

theorem sublist_filterMap {α β : Type} {g : α → Option β} {tag : α → β} {xs : List α}
    (h : ∀ x ∈ xs, g x = none ∨ g x = some (tag x)) : (xs.filterMap g).Sublist (xs.map tag) := by
  induction xs with
  | nil => exact List.Sublist.refl _
  | cons x xs ih =>
    have hrest := ih fun y hy => h y (List.mem_cons_of_mem x hy)
    rcases h x List.mem_cons_self with hx | hx
    · rw [List.filterMap_cons_none hx, List.map_cons]
      exact hrest.cons _
    · rw [List.filterMap_cons_some hx, List.map_cons]
      exact hrest.cons_cons _

theorem lineTag_injective (u : Tuning) : Function.Injective (lineTag u) := by
  intro i j h
  unfold lineTag at h
  split at h
  · exact (Prod.mk.inj h).2
  · obtain ⟨hdiv, hmod⟩ := Prod.mk.inj h
    rw [← Nat.div_add_mod i u.parseLines, hdiv, hmod, Nat.div_add_mod]

theorem nodup_map_zipIdx {α β : Type} {f : Nat → β} (hf : Function.Injective f) (xs : List α) :
    (xs.zipIdx.map fun x => f x.2).Nodup := by
  have hmap : xs.zipIdx.map (fun x => f x.2) = (xs.zipIdx.map Prod.snd).map f := by
    rw [List.map_map]
    rfl
  rw [hmap, List.zipIdx_map_snd]
  exact (List.nodup_range' ..).map hf

theorem Upload.draws_tags (u : Tuning) (up : Upload) : ((up.draws P u).map Prod.fst).Nodup := by
  cases up with
  | zip shapefiles =>
    have hgroups : ((Upload.zip shapefiles).draws P u).map Prod.fst =
        shapefiles.zipIdx.flatMap fun source =>
          (List.range source.1.length).map fun i => (source.2, i) := by
      rw [Upload.draws, List.map_flatMap]
      refine List.flatMap_congr fun source _ => ?_
      rw [List.range_eq_range', ← List.zipIdx_map_snd, List.map_map, List.map_map]
      rfl
    rw [hgroups, nodup_numbered_iff]
    have hnames := nodup_map_zipIdx (f := fun i => i) (fun _ _ h => h) shapefiles
    exact hnames.sublist (List.filter_sublist.map _)
  | single feats =>
    rw [Upload.draws, List.map_map]
    exact nodup_map_zipIdx (f := fun i => ((0, i) : Tag)) (fun i j h => (Prod.mk.inj h).2) feats
  | geojsonSeq file =>
    rw [Upload.draws, List.map_filterMap]
    refine (nodup_map_zipIdx (lineTag_injective u) (countedLines u file)).sublist
      (sublist_filterMap fun l _ => ?_)
    cases asRecord P l.1 with
    | none => exact Or.inl rfl
    | some rec => exact Or.inr rfl

theorem filterMap_zipIdx {α β : Type} (g : α → Option β) (xs : List α) (i : Nat) :
    (xs.zipIdx i).filterMap (fun x => g x.1) = xs.filterMap g := by
  conv_rhs => rw [← List.zipIdx_map_fst i xs, List.filterMap_map]
  rfl

theorem Upload.draws_records (u : Tuning) (up : Upload) :
    (up.draws P u).map Prod.snd = up.records P := by
  cases up with
  | zip shapefiles =>
    rw [Upload.draws, Upload.records, List.map_flatMap, List.map_flatten, ← List.flatMap_def,
      ← List.zipIdx_map_fst 0 shapefiles, List.flatMap_map, List.zipIdx_map_fst]
    refine List.flatMap_congr fun source _ => ?_
    rw [List.map_map, ← List.zipIdx_map_fst 0 source.1, List.map_map, List.zipIdx_map_fst]
    rfl
  | single feats =>
    rw [Upload.draws, Upload.records, List.map_map, ← List.zipIdx_map_fst 0 feats, List.map_map,
      List.zipIdx_map_fst]
    rfl
  | geojsonSeq file =>
    rw [Upload.draws, Upload.records, List.map_filterMap]
    have hmap : (countedLines u file).zipIdx.filterMap (fun l =>
        ((asRecord P l.1).map fun rec => (lineTag u l.2, rec)).map Prod.snd) =
        (countedLines u file).filterMap (asRecord P) := by
      rw [← filterMap_zipIdx (asRecord P) _ 0]
      refine List.filterMap_congr fun l _ => ?_
      cases asRecord P l.1 <;> rfl
    rw [hmap, countedLines]
    split
    · rfl
    · rw [List.filterMap_filter]
      refine List.filterMap_congr fun line _ => ?_
      unfold asRecord
      cases (stripBytes line).isEmpty <;> rfl

theorem Upload.givenIds_eq (u : Tuning) (up : Upload) :
    (up.draws P u).filterMap (drawId P) = up.givenIds P := by
  rw [Upload.givenIds, ← up.draws_records P u, List.filterMap_map]
  rfl

/-! ## The staging table -/

theorem Upload.rows_key_nodup_iff (u : Tuning) {uuid : Nat → Nat → Text} {up : Upload}
    (hfresh : Fresh uuid (up.givenIds P)) :
    ((up.rows P T u uuid).map StagingRow.key).Nodup ↔ up.IdsDistinct P := by
  have hkeys : (up.rows P T u uuid).map StagingRow.key = (up.draws P u).flatMap fun d =>
      (List.range (recordRows P T (uuid d.1.1 d.1.2) d.2).length).map
        fun i => ((recordId P (uuid d.1.1 d.1.2) d.2).text, i) := by
    rw [Upload.rows, List.map_flatMap]
    exact List.flatMap_congr fun d _ => recordRows_key P T _ _
  have hstores : ((up.draws P u).filter
      fun d => 0 < (recordRows P T (uuid d.1.1 d.1.2) d.2).length) =
      (up.draws P u).filter fun d => storesRows P d.2 := by
    refine List.filter_congr fun d _ => ?_
    rw [Bool.eq_iff_iff, decide_eq_true_eq]
    exact recordRows_pos_iff P T _ _
  rw [← up.givenIds_eq P u] at hfresh
  rw [hkeys, nodup_numbered_iff, hstores, ids_nodup_iff P hfresh (up.draws_tags P u),
    up.givenIds_eq P u, Upload.IdsDistinct]

/-- For each run, also one that fails: with different ids the staged rows have different keys, and
without, a run that returns has staged two rows with one key. The rows of a record are numbered. -/
theorem staged_keys_distinct_iff (w : World) (u : Tuning) (uuid : Nat → Nat → Text) (up : Upload)
    (hfresh : Fresh uuid (up.givenIds P)) :
    let o := loadUpload w u P T uuid up
    (up.IdsDistinct P → ((finalState o).staging.map StagingRow.key).Nodup) ∧
      (∀ s, o = .ok s → (s.staging.map StagingRow.key).Nodup → up.IdsDistinct P) ∧
      (finalState o).staging <+:
        ((up.draws P u).flatMap fun d => recordRows P T (uuid d.1.1 d.1.2) d.2) ∧
      ∀ d ∈ up.draws P u, (∀ r ∈ recordRows P T (uuid d.1.1 d.1.2) d.2,
          r.id = recordId P (uuid d.1.1 d.1.2) d.2) ∧
        (recordRows P T (uuid d.1.1 d.1.2) d.2).map StagingRow.partIndex =
          List.range (recordRows P T (uuid d.1.1 d.1.2) d.2).length := by
  intro o
  have hkeys := Upload.rows_key_nodup_iff P T u hfresh
  have hsends := loadUpload_sends w u P T uuid up
  have hfirst : (finalState o).staging <+: up.rows P T u uuid := by
    cases hrun : loadUpload w u P T uuid up with
    | ok s =>
      rw [hrun] at hsends
      simp only [o, hrun, finalState]
      rw [show s.staging = _ from hsends]
    | error e =>
      rw [hrun] at hsends
      simp only [o, hrun, finalState]
      exact hsends
  refine ⟨fun hids => ?_, fun s hs hnodup => ?_, hfirst, fun d _ => ⟨?_, ?_⟩⟩
  · exact (hkeys.mpr hids).sublist (hfirst.sublist.map _)
  · simp only [o] at hs
    rw [hs] at hsends
    rw [show s.staging = _ from hsends] at hnodup
    exact hkeys.mp hnodup
  · exact recordRows_id P T _ d.2
  · exact recordRows_partIndex P T _ d.2

/-! ## Shapefiles -/

/-- What fiona gives as the id of a record of a shapefile. -/
def Positions (feats : List Feat) : Prop :=
  ∀ (i : Nat) (f : Feat), feats[i]? = some f → f.id = .str (Sql.digits i)

/-- No property named `id` that counts. -/
def Feat.Anonymous (f : Feat) : Prop := (Json.get f.properties "id".toList).truthy = false

theorem Feat.record_id (f : Feat) : Json.get f.record "id".toList = f.fid := by
  unfold Feat.record
  cases f.fid <;> rfl

theorem givenId_record {f : Feat} (hanon : f.Anonymous) {s : Text} (hid : f.id = .str s) :
    givenId P f.record = if storesRows P f.record then some (P.str (.str s)) else none := by
  have hfid : Json.get f.record "id".toList = .str s := by
    have hnone : ¬ (Json.get f.properties "id".toList).truthy = true := by
      rw [show (Json.get f.properties "id".toList).truthy = false from hanon]
      exact Bool.false_ne_true
    rw [Feat.record_id, Feat.fid, ← hid, if_neg hnone]
  unfold givenId recordId
  rw [hfid]

/-- One shapefile is loaded without a collision. -/
theorem shapefile_ids_distinct (hstr : ∀ s, P.str (.str s) = s) {feats : List Feat}
    (hpos : Positions feats) (hanon : ∀ f ∈ feats, f.Anonymous) :
    (Upload.zip [feats]).IdsDistinct P := by
  have hids : (Upload.zip [feats]).givenIds P =
      feats.zipIdx.filterMap fun x => givenId P x.1.record := by
    rw [Upload.givenIds, Upload.records, List.flatten_singleton, List.filterMap_map,
      ← filterMap_zipIdx _ _ 0]
    rfl
  rw [Upload.IdsDistinct, hids]
  refine (nodup_map_zipIdx digits_injective feats).sublist (sublist_filterMap fun x hx => ?_)
  obtain ⟨f, i⟩ := x
  have hget : feats[i]? = some f := List.mem_zipIdx_iff_getElem?.mp hx
  rw [givenId_record P (hanon f (List.mem_of_getElem? hget)) (hpos i f hget), hstr]
  split
  · exact Or.inr rfl
  · exact Or.inl rfl

/-- Two shapefiles of which the first records have rows, and no property named `id`, collide. -/
theorem two_shapefiles_collide {shapefiles : List (List Feat)} {a b : List Feat}
    (hab : [a, b].Sublist shapefiles) (ha : Positions a) (hb : Positions b) {f g : Feat}
    (hf : a.head? = some f) (hg : b.head? = some g) (hfa : f.Anonymous) (hga : g.Anonymous)
    (hfs : storesRows P f.record = true) (hgs : storesRows P g.record = true) :
    ¬ (Upload.zip shapefiles).IdsDistinct P := by
  have hfirst : ∀ {c : List Feat} {h : Feat}, Positions c → c.head? = some h →
      h.id = .str (Sql.digits 0) := fun {c h} hpos hhead => by
    rw [List.head?_eq_getElem?] at hhead
    exact hpos 0 h hhead
  have hsub : [f, g].Sublist shapefiles.flatten := by
    have hflat : (a ++ b).Sublist shapefiles.flatten := by simpa using hab.flatten
    refine List.Sublist.trans ?_ hflat
    exact (List.singleton_sublist.mpr (List.mem_of_mem_head? hf)).append
      (List.singleton_sublist.mpr (List.mem_of_mem_head? hg))
  have hids := ((hsub.map Feat.record).filterMap (givenId P))
  simp only [List.map_cons, List.map_nil, List.filterMap_cons, List.filterMap_nil,
    givenId_record P hfa (hfirst ha hf), givenId_record P hga (hfirst hb hg), hfs, hgs,
    if_true] at hids
  intro hdistinct
  have hnodup := List.Nodup.sublist hids hdistinct
  simp at hnodup

end

/-! ## Points -/

/-- A point without properties, at a position of a shapefile. -/
def pointFeat (i : Nat) : Feat := ⟨.str (Sql.digits i), westPoint, []⟩

def sampleUuid (i j : Nat) : Text := Sql.digits i ++ ':' :: Sql.digits j

theorem colon_notMem_digits (n : Nat) : ':' ∉ Sql.digits n := fun h => by
  have hdigit := isDigit_of_mem_digits h
  revert hdigit
  decide

theorem sampleUuid_fresh {ids : List Text} (h : ∀ id ∈ ids, ':' ∉ id) : Fresh sampleUuid ids where
  distinct t t' heq := by
    obtain ⟨hfirst, hsecond⟩ := append_sep_inj (colon_notMem_digits t.2)
      (colon_notMem_digits t'.2) heq
    exact Prod.ext (digits_injective hfirst) (digits_injective hsecond)
  unused t hmem := h _ hmem (by simp [sampleUuid])

theorem staged_keys_distinct_points :
    ((finalState (loadUpload calmWorld singleTuning sampleParser sampleTarget sampleUuid
      (.zip [[pointFeat 0, pointFeat 1]]))).staging.map StagingRow.key).Nodup :=
  (staged_keys_distinct_iff sampleParser sampleTarget calmWorld singleTuning sampleUuid
    (.zip [[pointFeat 0, pointFeat 1]]) (sampleUuid_fresh (by decide +kernel))).1
    (by unfold Upload.IdsDistinct; decide +kernel)

/-- The first records of two shapefiles have one key. -/
theorem shapefiles_collide :
    ¬ ∀ shapefiles : List (List Feat), (∀ feats ∈ shapefiles, Positions feats) →
      ∀ uuid, Fresh uuid ((Upload.zip shapefiles).givenIds sampleParser) →
        (((Upload.zip shapefiles).rows sampleParser sampleTarget singleTuning uuid).map
          StagingRow.key).Nodup := by
  intro h
  have hpos : Positions [pointFeat 0] := by
    intro i f hf
    obtain ⟨hi, rfl⟩ := List.getElem?_eq_some_iff.mp hf
    rw [List.length_singleton] at hi
    obtain rfl : i = 0 := by omega
    rfl
  have hnodup := h [[pointFeat 0], [pointFeat 0]] (by simpa using hpos) sampleUuid
    (sampleUuid_fresh (by decide +kernel))
  revert hnodup
  decide +kernel

end Copy
end Geofastmap
