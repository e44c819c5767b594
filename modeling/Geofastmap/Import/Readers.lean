import Mathlib.Algebra.Order.BigOperators.Group.List
import Mathlib.Algebra.Order.Group.Nat
import Geofastmap.Import.Agree

/-!
# Geofastmap.Import.Readers

For which files the fast reader agrees with the generic one (`readers_agree_iff`).

* One feature on each line: the readers agree if and only if every feature is `Plain`. The fast
  reader counts a feature once and the generic one each of its parts, and the generic one counts each
  piece that is too large.
* A collection on one line: the fast reader takes it for one feature without a geometry.
* A collection on several lines: its first line is no JSON, and so it counts as a failure.
-/

namespace Geofastmap
namespace Import

open Bulk Db Interleave

/-! ## One feature on each line -/

def LineParts.isBlank : LineParts → Bool
  | .blank => true
  | _ => false

/-- The line of a feature with these parts. -/
def lineOf : List Part → LineParts
  | [] => .bad
  | p :: ps => .feature (p :: ps)

/-- The parts of a feature, none when its geometry cannot be read. -/
def partsOf {G : Type} (env : Env G) (f : Feature) : List Part :=
  match readRecord env f with
  | .ok ps => ps
  | .error _ => []

/-- Each line that is not blank is a feature. -/
def PerLine {G : Type} (env : Env G) (text : Text) (fs : List Feature) : Prop :=
  (textLines text).map (fun l => (env.loads l).bind asFeature) = fs.map some

/-- Nothing of a part is counted by one reader only. -/
def Part.Plain : Part → Prop
  | .tooLarge => True
  | .noPieces oversize => oversize = 1
  | .insert oversize draft => oversize = 0 ∧ draft.isOk = true

/-- The geometry can be read, at most one part of it is inserted, and the parts are plain. -/
def Feature.Plain {G : Type} (env : Env G) (f : Feature) : Prop :=
  ∃ ps, readRecord env f = .ok ps ∧ (∀ p ∈ ps, p.Plain) ∧ (ps.filterMap Part.draft).length ≤ 1

theorem drafts_lineOf (ps : List Part) : (lineOf ps).drafts = ps.filterMap Part.draft := by
  cases ps <;> rfl

theorem toOption_lineOf (ps : List Part) :
    (lineOf ps).drafts.filterMap Except.toOption = recordDrafts ps := by
  rw [drafts_lineOf, List.filterMap_filterMap]
  rfl

theorem length_accepted {xs : List (Except Raised Draft)} (h : ∀ x ∈ xs, x.isOk = true) :
    (xs.filterMap Except.toOption).length = xs.length := by
  induction xs with
  | nil => rfl
  | cons x xs ih =>
    have ih := ih fun y hy => h y (by simp [hy])
    have hx := h x (by simp)
    cases x with
    | error e => cases hx
    | ok d => simpa [Except.toOption] using ih

theorem length_recordDrafts {ps : List Part} (h : ∀ x ∈ (lineOf ps).drafts, x.isOk = true) :
    (recordDrafts ps).length = (ps.filterMap Part.draft).length := by
  rw [← toOption_lineOf, length_accepted h, drafts_lineOf]

theorem created_lineOf {ps : List Part} (h : ∀ x ∈ (lineOf ps).drafts, x.isOk = true) :
    (lineOf ps).created ≤ (recordDrafts ps).length ∧
      ((lineOf ps).created = (recordDrafts ps).length ↔ (ps.filterMap Part.draft).length ≤ 1) := by
  rw [length_recordDrafts h, LineParts.created, drafts_lineOf]
  cases ps.filterMap Part.draft with
  | nil => simp
  | cons x xs =>
    simp only [List.isEmpty_cons, Bool.false_eq_true, if_false, List.length_cons]
    omega

/-- A part fails at most as often for the fast reader as for the other. -/
theorem failures_plain {p : Part} (h : ∀ x ∈ p.draft, x.isOk = true)
    (hsound : ∀ n, p = .noPieces n → 1 ≤ n) :
    (if p.draft.isNone then 1 else 0) ≤ p.failures ∧
      ((if p.draft.isNone then 1 else 0) = p.failures ↔ p.Plain) := by
  cases p with
  | tooLarge => exact ⟨Nat.le_refl 1, iff_of_true rfl trivial⟩
  | noPieces n => exact ⟨hsound n rfl, eq_comm⟩
  | insert n x =>
    have hx := h x rfl
    cases x with
    | error e => cases hx
    | ok draft => exact ⟨Nat.zero_le n, eq_comm.trans ⟨fun h => ⟨h, rfl⟩, fun h => h.1⟩⟩

theorem failed_lineOf {ps : List Part} (h : ∀ x ∈ (lineOf ps).drafts, x.isOk = true)
    (hsound : ∀ n, Part.noPieces n ∈ ps → 1 ≤ n) :
    (lineOf ps).failed ≤ recordFailed ps ∧
      ((lineOf ps).failed = recordFailed ps ↔ ∀ p ∈ ps, p.Plain) := by
  have hsum : (ps.countP fun p => p.draft.isNone) ≤ (ps.map Part.failures).sum ∧
      ((ps.countP fun p => p.draft.isNone) = (ps.map Part.failures).sum ↔ ∀ p ∈ ps, p.Plain) := by
    rw [drafts_lineOf] at h
    induction ps with
    | nil => simp
    | cons p ps ih =>
      have hmem : ∀ q ∈ p :: ps, ∀ x ∈ q.draft, x.isOk = true := fun q hq x hx =>
        h x (List.mem_filterMap.mpr ⟨q, hq, hx⟩)
      have hrest : ∀ x ∈ ps.filterMap Part.draft, x.isOk = true := by
        intro x hx
        obtain ⟨q, hq, hx⟩ := List.mem_filterMap.mp hx
        exact hmem q (by simp [hq]) x hx
      obtain ⟨hle, hiff⟩ := ih hrest fun n hn => hsound n (by simp [hn])
      obtain ⟨hple, hpiff⟩ := failures_plain (hmem p (by simp)) fun n hn => hsound n (by simp [hn])
      rw [List.countP_cons, List.map_cons, List.sum_cons, List.forall_mem_cons, ← hiff, ← hpiff]
      omega
  cases ps with
  | nil => simp [lineOf, LineParts.failed, recordFailed]
  | cons p ps => exact hsum

/-- Sums of terms of which none exceeds its counterpart. -/
theorem eq_of_sum_eq {α : Type} {f g : α → Nat} {l : List α} (hle : ∀ x ∈ l, f x ≤ g x)
    (h : (l.map f).sum = (l.map g).sum) : ∀ x ∈ l, f x = g x := by
  induction l with
  | nil => simp
  | cons x xs ih =>
    have hx := hle x (by simp)
    have hxs : (xs.map f).sum ≤ (xs.map g).sum :=
      List.sum_le_sum fun y hy => hle y (by simp [hy])
    rw [List.map_cons, List.map_cons, List.sum_cons, List.sum_cons] at h
    intro y hy
    rcases List.mem_cons.mp hy with rfl | hy
    · omega
    · exact ih (fun z hz => hle z (by simp [hz])) (by omega) y hy

section
variable {G : Type} {env : Env G}

theorem dict_mapping {x : Json} (h : x.isMapping = true) : ∃ props, x.dict = .ok props := by
  cases x with
  | null => exact ⟨[], rfl⟩
  | obj members =>
    unfold Json.dict
    split
    · exact ⟨members, rfl⟩
    · exact ⟨[], rfl⟩
  | _ => cases h

theorem asFeature_some {j : Json} {f : Feature} (h : asFeature j = some f) :
    f.properties.isMapping = true ∧ ∃ members, j = .obj members ∧
      f = ⟨Json.get members "geometry".toList, Json.get members "properties".toList⟩ := by
  cases j with
  | obj members =>
    unfold asFeature at h
    dsimp only at h
    split at h
    · rename_i hf
      cases h
      simp only [Bool.and_eq_true] at hf
      exact ⟨hf.2, members, rfl, rfl⟩
    · cases h
  | _ => cases h

theorem readStripped_feature {line : Text} {f : Feature} (hl : line.isEmpty = false)
    (h : (env.loads line).bind asFeature = some f) :
    readStripped env line = .ok (lineOf (partsOf env f)) := by
  obtain ⟨j, hj, hf⟩ := Option.bind_eq_some_iff.mp h
  obtain ⟨hmap, members, rfl, rfl⟩ := asFeature_some hf
  obtain ⟨props, hprops⟩ := dict_mapping hmap
  dsimp only at hprops
  have hrec : readRecord env ⟨Json.get members "geometry".toList, Json.get members "properties".toList⟩ =
      recordParts env (Json.get members "geometry".toList) props := by
    rw [readRecord, hprops]
    rfl
  rw [readStripped, if_neg (by simp [hl]), hj, partsOf, hrec]
  simp only [hprops, bind, Except.bind]
  cases recordParts env (Json.get members "geometry".toList) props with
  | error e => rfl
  | ok ps => cases ps <;> rfl

theorem readAll_map_stripBytes (raws : List Text) :
    readAll (readLine env) raws = readAll (readStripped env) (raws.map stripBytes) := by
  induction raws with
  | nil => rfl
  | cons raw raws ih => simp only [readAll, List.map_cons, readLine, ih]

/-- The lines of a file that are read without an exception. -/
theorem readAll_nonblank {ts : List Text} {ls : List LineParts}
    (h : (ts.filter fun l => !l.isEmpty).map (readStripped env) = ls.map .ok)
    (hls : ∀ l ∈ ls, l.isBlank = false) :
    ∃ out, readAll (readStripped env) ts = (out, none) ∧ (out.filter fun l => !l.isBlank) = ls := by
  induction ts generalizing ls with
  | nil =>
    cases ls with
    | nil => exact ⟨[], rfl, rfl⟩
    | cons l ls => cases h
  | cons t ts ih =>
    rw [List.filter_cons] at h
    split at h
    · cases ls with
      | nil => cases h
      | cons l ls =>
        obtain ⟨hl, hrest⟩ := List.cons.inj h
        obtain ⟨out, hout, hfilter⟩ := ih hrest fun x hx => hls x (by simp [hx])
        refine ⟨l :: out, by simp [readAll, hl, hout], ?_⟩
        rw [List.filter_cons, hls l (by simp), hfilter]
        rfl
    · rename_i ht
      obtain ⟨out, hout, hfilter⟩ := ih h hls
      have hread : readStripped env t = .ok .blank := by
        rw [readStripped, if_pos (by simpa using ht)]
      exact ⟨.blank :: out, by simp [readAll, hread, hout], hfilter⟩

theorem readAll_features {text : Text} {fs : List Feature} (h : PerLine env text fs) :
    ∃ out, readAll (readLine env) (rawLines text) = (out, none) ∧
      (out.filter fun l => !l.isBlank) = fs.map fun f => lineOf (partsOf env f) := by
  rw [readAll_map_stripBytes]
  refine readAll_nonblank ?_ fun l hl => ?_
  · change (textLines text).map _ = _
    have hne : ∀ l ∈ textLines text, l.isEmpty = false := fun l hl => by
      simpa using (List.mem_filter.mp hl).2
    rw [PerLine] at h
    generalize textLines text = ts at h hne
    induction ts generalizing fs with
    | nil =>
      cases fs with
      | nil => rfl
      | cons f fs => cases h
    | cons t ts ih =>
      cases fs with
      | nil => cases h
      | cons f fs =>
        obtain ⟨hf, hrest⟩ := List.cons.inj h
        have hrest := ih hrest fun l hl => hne l (by simp [hl])
        rw [List.map_cons, hrest, readStripped_feature (hne t (by simp)) hf]
        rfl
  · obtain ⟨f, _, rfl⟩ := List.mem_map.mp hl
    cases partsOf env f <;> rfl

/-- Blank lines count for nothing. -/
theorem sum_nonblank {f : LineParts → Nat} (h : f .blank = 0) (ls : List LineParts) :
    (ls.map f).sum = ((ls.filter fun l => !l.isBlank).map f).sum := by
  induction ls with
  | nil => rfl
  | cons l ls ih =>
    cases l with
    | blank => simp [LineParts.isBlank, h, ih]
    | _ => simp [LineParts.isBlank, ih]

theorem drafts_nonblank (ls : List LineParts) :
    ls.flatMap LineParts.drafts = (ls.filter fun l => !l.isBlank).flatMap LineParts.drafts := by
  induction ls with
  | nil => rfl
  | cons l ls ih =>
    cases l with
    | blank => simp [LineParts.isBlank, LineParts.drafts, ih]
    | _ => simp [LineParts.isBlank, ih]

theorem readRecord_sound {f : Feature} {ps : List Part} (h : readRecord env f = .ok ps) :
    ∀ n, Part.noPieces n ∈ ps → 1 ≤ n := by
  obtain ⟨props, _, h⟩ := Catalog.bind_eq_ok.mp h
  unfold recordParts at h
  intro n hn
  split at h
  · obtain ⟨base, _, h⟩ := Catalog.bind_eq_ok.mp h
    obtain ⟨geoms, _, h⟩ := Catalog.bind_eq_ok.mp h
    cases h
    obtain ⟨g, _, hg⟩ := List.mem_map.mp hn
    exact partOf_noPieces hg
  · cases h
    rw [List.mem_singleton] at hn
    exact partOf_noPieces hn.symm

theorem partsOf_eq {f : Feature} {ps : List Part} (h : readRecord env f = .ok ps) :
    partsOf env f = ps := by
  rw [partsOf, h]

theorem sameTally_perLine {text : Text} {fs : List Feature} (h : PerLine env text fs) :
    SameTally (readAll (readLine env) (rawLines text)) (readAll (readRecord env) fs) ↔
      ∀ f ∈ fs, f.Plain env := by
  obtain ⟨out, hout, hfilter⟩ := readAll_features h
  rw [hout]
  have hdrafts : out.flatMap LineParts.drafts =
      fs.flatMap fun f => (lineOf (partsOf env f)).drafts := by
    rw [drafts_nonblank, hfilter, List.flatMap_map]
  have hsum : ∀ F : LineParts → Nat, F .blank = 0 →
      (out.map F).sum = (fs.map fun f => F (lineOf (partsOf env f))).sum := by
    intro F hF
    rw [sum_nonblank hF, hfilter, List.map_map]
    rfl
  have hrecords : (∀ f ∈ fs, ∃ ps, readRecord env f = .ok ps) →
      readAll (readRecord env) fs = (fs.map (partsOf env), none) := by
    intro hread
    refine readAll_of_ok fun f hf => ?_
    obtain ⟨ps, hps⟩ := hread f hf
    rw [hps, partsOf_eq hps]
  constructor
  · intro ht
    have hread : ∀ f ∈ fs, ∃ ps, readRecord env f = .ok ps := fun f hf => by
      obtain ⟨ps, _, hps⟩ := ok_of_readAll ht.recordsRead f hf
      exact ⟨ps, hps⟩
    rw [hrecords hread] at ht
    have hok : ∀ f ∈ fs, ∀ x ∈ (lineOf (partsOf env f)).drafts, x.isOk = true := fun f hf x hx =>
      ht.accepted x (by rw [hdrafts]; exact List.mem_flatMap.mpr ⟨f, hf, hx⟩)
    have hsound : ∀ f ∈ fs, ∀ n, Part.noPieces n ∈ partsOf env f → 1 ≤ n := fun f hf => by
      obtain ⟨ps, hps⟩ := hread f hf
      rw [partsOf_eq hps]
      exact readRecord_sound hps
    have hcreated := ht.created
    rw [hsum _ rfl, List.flatMap_map, List.length_flatMap] at hcreated
    have hfailed := ht.failed
    rw [hsum _ rfl, List.map_map] at hfailed
    have hc := eq_of_sum_eq (fun f hf => (created_lineOf (hok f hf)).1) hcreated
    have hf := eq_of_sum_eq (fun f hf => (failed_lineOf (hok f hf) (hsound f hf)).1) hfailed
    intro f hmem
    obtain ⟨ps, hps⟩ := hread f hmem
    refine ⟨ps, hps, ?_, ?_⟩
    · rw [← partsOf_eq hps]
      exact (failed_lineOf (hok f hmem) (hsound f hmem)).2.mp (hf f hmem)
    · rw [← partsOf_eq hps]
      exact (created_lineOf (hok f hmem)).2.mp (hc f hmem)
  · intro hplain
    have hread : ∀ f ∈ fs, ∃ ps, readRecord env f = .ok ps := fun f hf => by
      obtain ⟨ps, hps, _⟩ := hplain f hf
      exact ⟨ps, hps⟩
    have hparts : ∀ f ∈ fs, (∀ p ∈ partsOf env f, p.Plain) ∧
        ((partsOf env f).filterMap Part.draft).length ≤ 1 := fun f hf => by
      obtain ⟨ps, hps, hp⟩ := hplain f hf
      rw [partsOf_eq hps]
      exact hp
    have hok : ∀ f ∈ fs, ∀ x ∈ (lineOf (partsOf env f)).drafts, x.isOk = true := by
      intro f hf x hx
      rw [drafts_lineOf] at hx
      obtain ⟨p, hp, hx⟩ := List.mem_filterMap.mp hx
      have hpp := (hparts f hf).1 p hp
      cases p with
      | insert n y =>
        cases hx
        exact hpp.2
      | _ => cases hx
    rw [hrecords hread]
    refine ⟨rfl, ?_, rfl, ?_, ?_, ?_⟩
    · rw [hdrafts]
      intro x hx
      obtain ⟨f, hf, hx⟩ := List.mem_flatMap.mp hx
      exact hok f hf x hx
    · rw [hsum _ rfl, List.flatMap_map, List.length_flatMap]
      congr 1
      exact List.map_congr_left fun f hf => (created_lineOf (hok f hf)).2.mpr (hparts f hf).2
    · rw [hsum _ rfl, List.map_map]
      congr 1
      refine List.map_congr_left fun f hf => ?_
      obtain ⟨ps, hps⟩ := hread f hf
      exact (failed_lineOf (hok f hf) (partsOf_eq hps ▸ readRecord_sound hps)).2.mpr (hparts f hf).1
    · rw [hdrafts, List.filterMap_flatMap, List.flatMap_map]
      refine List.Perm.of_eq (congrArg _ (List.flatMap_congr fun f _ => toOption_lineOf _))

/-! ## A collection -/

/-- The whole text is one collection. -/
def Collection (env : Env G) (text : Text) (fs : List Feature) : Prop :=
  (env.loads (stripBytes text)).bind asCollection = some fs

omit env in
theorem asCollection_some {j : Json} {fs : List Feature} (h : asCollection j = some fs) :
    ∃ members, j = .obj members ∧ Json.get members "geometry".toList = .null ∧
      Json.get members "properties".toList = .null := by
  cases j with
  | obj members =>
    rw [asCollection] at h
    split at h
    · rename_i hm
      simp only [Bool.and_eq_true, Option.isNone_iff_eq_none] at hm
      exact ⟨members, rfl, by rw [Json.get, hm.1.2]; rfl, by rw [Json.get, hm.2]; rfl⟩
    · cases h
  | _ => cases h

/-- The rows of a feature without geometry and properties. -/
def nothing : Draft := ⟨[], [none], oneNull_nonempty⟩

theorem readAll_oneLine {text l : Text} {fs : List Feature} (hl : textLines text = [l])
    (h : Collection env text fs) :
    ∃ out, readAll (readLine env) (rawLines text) = (out, none) ∧
      (out.filter fun l => !l.isBlank) = [.feature [.insert 0 (.ok nothing)]] := by
  have hstrip : stripBytes text = l := by
    obtain ⟨a, b, hab, ha, hb⟩ := split_textLines hl
    rw [flatten_rawLines] at hab
    rw [hab, stripBytes_append_right (stripBytes_eq_nil.mp (hb.mpr rfl)), ha]
  obtain ⟨j, hj, hfs⟩ := Option.bind_eq_some_iff.mp h
  obtain ⟨members, rfl, hgeom, hprops⟩ := asCollection_some hfs
  rw [hstrip] at hj
  have hne : l.isEmpty = false := by
    have : l ∈ textLines text := by rw [hl]; simp
    simpa using (List.mem_filter.mp this).2
  have hread : readStripped env l = .ok (.feature [.insert 0 (.ok nothing)]) := by
    rw [readStripped, if_neg (by simp [hne]), hj]
    dsimp only
    rw [hgeom, hprops]
    rfl
  rw [readAll_map_stripBytes]
  refine readAll_nonblank ?_ (by simp [LineParts.isBlank])
  change (textLines text).map _ = _
  rw [hl, List.map_singleton, hread]
  rfl

/-- The geometry can be read and is not empty, no part and no piece of it is too large, and every
part is inserted. -/
def Feature.Flawless (env : Env G) (f : Feature) : Prop :=
  ∃ ps, readRecord env f = .ok ps ∧ ps ≠ [] ∧ ∀ p ∈ ps, ∃ draft, p = .insert 0 (.ok draft)

theorem flawless_iff {f : Feature} {ps : List Part} (h : readRecord env f = .ok ps) :
    f.Flawless env ↔ recordFailed ps = 0 := by
  have hpart : ∀ p ∈ ps, (∃ draft, p = .insert 0 (.ok draft)) ↔ p.failures = 0 := by
    intro p hp
    cases p with
    | tooLarge => simp [Part.failures]
    | noPieces n =>
      have := readRecord_sound h n hp
      simp only [Part.failures, reduceCtorEq, exists_false, false_iff]
      omega
    | insert n x => cases x <;> simp [Part.failures]
  unfold recordFailed
  constructor
  · rintro ⟨ps', hps, hne, hall⟩
    obtain rfl : ps = ps' := by rw [h] at hps; exact Except.ok.inj hps
    rw [if_neg (by simpa using hne), List.sum_eq_zero_iff_forall_eq_nat]
    intro n hn
    obtain ⟨p, hp, rfl⟩ := List.mem_map.mp hn
    exact (hpart p hp).mp (hall p hp)
  · intro h0
    split at h0
    · cases h0
    · rename_i hne
      refine ⟨ps, h, by simpa using hne, fun p hp => (hpart p hp).mpr ?_⟩
      exact List.sum_eq_zero_iff_forall_eq_nat.mp h0 _ (List.mem_map_of_mem hp)

theorem length_flawless {ps : List Part} (h : ∀ p ∈ ps, ∃ draft, p = .insert 0 (.ok draft)) :
    (recordDrafts ps).length = ps.length := by
  induction ps with
  | nil => rfl
  | cons p ps ih =>
    obtain ⟨draft, rfl⟩ := h p (by simp)
    have ih := ih fun q hq => h q (by simp [hq])
    simpa [recordDrafts, Part.draft, Except.toOption] using ih

/-- A feature that leaves one row with nothing in it has neither geometry nor properties. -/
theorem falsy_of_nothing {f : Feature} {draft : Draft}
    (h : readRecord env f = .ok [.insert 0 (.ok draft)]) (hd : draft.contents = nothing.contents) :
    f.geometry.truthy = false ∧ f.properties.truthy = false := by
  obtain ⟨g, hg⟩ : ∃ g, draft.geometries = [g] := by
    have hlen := congrArg List.length hd
    rw [Draft.contents, List.length_map] at hlen
    exact List.length_eq_one_iff.mp hlen
  rw [Draft.contents, hg] at hd
  obtain ⟨rfl, hprops⟩ : g = none ∧ draft.properties = [] := by simpa [Draft.contents, nothing] using hd
  obtain ⟨props, hdict, h⟩ := Catalog.bind_eq_ok.mp h
  unfold recordParts at h
  split at h
  · obtain ⟨base, _, h⟩ := Catalog.bind_eq_ok.mp h
    obtain ⟨geoms, hgeoms, h⟩ := Catalog.bind_eq_ok.mp h
    obtain ⟨part, hpart⟩ := List.map_eq_singleton_iff.mp (Except.ok.inj h)
    have hempty := explodeToSimpleParts_nonempty env.depth base geoms hgeoms part (by simp [hpart.1])
    exact absurd (by rw [hg]; simp) (partOf_geometries hempty hpart.2)
  · rename_i hgeom
    refine ⟨by simpa using hgeom, ?_⟩
    have hinsert := List.singleton_inj.mp (Except.ok.inj h)
    obtain ⟨_, hdraft⟩ := Part.insert.inj hinsert
    obtain ⟨column, hcolumn, hdraft⟩ := Catalog.bind_eq_ok.mp hdraft
    cases hdraft
    dsimp only at hprops
    rw [hprops] at hcolumn
    rw [propertiesColumn_nil hcolumn] at hdict
    exact Json.dict_nil hdict

theorem sameTally_oneLine {text l : Text} {fs : List Feature} (hl : textLines text = [l])
    (h : Collection env text fs) :
    SameTally (readAll (readLine env) (rawLines text)) (readAll (readRecord env) fs) ↔
      ∃ f, fs = [f] ∧ f.geometry.truthy = false ∧ f.properties.truthy = false := by
  obtain ⟨out, hout, hfilter⟩ := readAll_oneLine hl h
  rw [hout]
  have hcreated : (out.map LineParts.created).sum = 1 := by
    rw [sum_nonblank rfl, hfilter]
    rfl
  have hfailed : (out.map LineParts.failed).sum = 0 := by
    rw [sum_nonblank rfl, hfilter]
    rfl
  have hdrafts : out.flatMap LineParts.drafts = [.ok nothing] := by
    rw [drafts_nonblank, hfilter]
    rfl
  constructor
  · intro ht
    have hread : ∀ f ∈ fs, readRecord env f = .ok (partsOf env f) := fun f hf => by
      obtain ⟨ps, _, hps⟩ := ok_of_readAll ht.recordsRead f hf
      rw [hps, partsOf_eq hps]
    rw [readAll_of_ok hread] at ht
    have hflawless : ∀ f ∈ fs, f.Flawless env := by
      intro f hf
      have h0 := ht.failed
      rw [hfailed] at h0
      exact (flawless_iff (hread f hf)).mpr (List.sum_eq_zero_iff_forall_eq_nat.mp h0.symm _
        (List.mem_map_of_mem (List.mem_map_of_mem hf)))
    have hlength : ∀ f ∈ fs, (recordDrafts (partsOf env f)).length = (partsOf env f).length ∧
        1 ≤ (partsOf env f).length := by
      intro f hf
      obtain ⟨ps, hps, hne, hall⟩ := hflawless f hf
      rw [partsOf_eq hps]
      exact ⟨length_flawless hall, List.length_pos_iff.mpr hne⟩
    have hone := ht.created
    rw [hcreated, List.flatMap_map, List.length_flatMap] at hone
    cases fs with
    | nil => cases hone
    | cons f fs =>
      obtain ⟨hf, hf1⟩ := hlength f (by simp)
      rw [List.map_cons, List.sum_cons, hf] at hone
      have hnil : fs = [] := by
        cases fs with
        | nil => rfl
        | cons g fs =>
          obtain ⟨hg, hg1⟩ := hlength g (by simp)
          rw [List.map_cons, List.sum_cons, hg] at hone
          omega
      subst hnil
      obtain ⟨p, hp⟩ := List.length_eq_one_iff.mp (by simpa using hone.symm :
        (partsOf env f).length = 1)
      obtain ⟨ps, hps, _, hall⟩ := hflawless f (by simp)
      rw [partsOf_eq hps] at hp
      subst hp
      obtain ⟨draft, rfl⟩ := hall p (by simp)
      refine ⟨f, rfl, falsy_of_nothing hps ?_⟩
      have hrows := ht.rows
      rw [hdrafts, List.map_singleton, partsOf_eq hps] at hrows
      have hrows' : nothing.contents.Perm draft.contents := by
        simpa [recordDrafts, Part.draft, Except.toOption] using hrows
      exact List.singleton_perm.mp hrows' |>.symm
  · rintro ⟨f, rfl, hgeom, hprops⟩
    have hrec : readRecord env f = .ok [.insert 0 (.ok nothing)] := by
      rw [readRecord, Json.dict_of_falsy hprops]
      change recordParts env f.geometry [] = _
      unfold recordParts
      rw [if_neg (by simp [hgeom])]
      rfl
    have hall : readAll (readRecord env) [f] = ([[.insert 0 (.ok nothing)]], none) := by
      simp [readAll, hrec]
    rw [hall]
    refine ⟨rfl, ?_, rfl, ?_, ?_, ?_⟩
    · rw [hdrafts]
      simp [Except.isOk, Except.toBool]
    · rw [hcreated]
      rfl
    · rw [hfailed]
      rfl
    · rw [hdrafts]
      exact List.Perm.refl _

theorem not_sameTally_manyLines {text : Text} {fs : List Feature}
    (hl : 2 ≤ (textLines text).length) (h : Collection env text fs)
    (hflawless : ∀ f ∈ fs, f.Flawless env) :
    ¬SameTally (readAll (readLine env) (rawLines text)) (readAll (readRecord env) fs) := by
  intro ht
  have hfailed : ((readAll (readRecord env) fs).1.map recordFailed).sum = 0 := by
    have hread : ∀ f ∈ fs, readRecord env f = .ok (partsOf env f) := fun f hf => by
      obtain ⟨ps, hps, _⟩ := hflawless f hf
      rw [hps, partsOf_eq hps]
    rw [readAll_of_ok hread, List.sum_eq_zero_iff_forall_eq_nat]
    intro n hn
    obtain ⟨ps, hps, rfl⟩ := List.mem_map.mp hn
    obtain ⟨f, hf, rfl⟩ := List.mem_map.mp hps
    exact (flawless_iff (hread f hf)).mp (hflawless f hf)
  obtain ⟨l, l', ls, hls⟩ : ∃ l l' ls, textLines text = l :: l' :: ls := by
    match textLines text, hl with
    | l :: l' :: ls, _ => exact ⟨l, l', ls, rfl⟩
  obtain ⟨a, b, hab, ha, hb⟩ := split_textLines hls
  rw [flatten_rawLines] at hab
  have hmem : l ∈ textLines text := by rw [hls]; simp
  obtain ⟨hmem, hne⟩ := List.mem_filter.mp hmem
  obtain ⟨raw, hraw, hl⟩ := List.mem_map.mp hmem
  have hloads : env.loads l = none := by
    obtain ⟨j, hj, hfs⟩ := Option.bind_eq_some_iff.mp h
    obtain ⟨members, rfl, _⟩ := asCollection_some hfs
    rw [hab] at hj
    rw [← ha]
    refine env.loads_whole a b members hj ?_ fun he => ?_
    · rw [ha]
      simpa using hne
    · cases hb.mp he
  have hbad : readLine env raw = .ok .bad := by
    rw [readLine, hl, readStripped, if_neg (by simpa using hne), hloads]
  obtain ⟨line, hline, hread⟩ := ok_of_readAll ht.linesRead raw hraw
  rw [hbad] at hread
  cases hread
  have hone := List.sum_eq_zero_iff_forall_eq_nat.mp (ht.failed.trans hfailed) 1
    (List.mem_map.mpr ⟨.bad, hline, rfl⟩)
  cases hone

end

section
variable {G : Type} {cfg : Settings} {c : CollectionId} {jobId : Option JobId}
  {progress : Status → Nat → Work Unit} {batchSize : Nat} {d d' : Draws} {C : Sys → Prop} {s : Sys}

/-- Where the fast reader agrees with the generic one. A file with a feature on each line: if and
only if every feature is plain. A collection on one line: if and only if it is one feature without
geometry and properties. A collection on several lines: not when none of its features fails. -/
theorem readers_agree_iff (env : Env G) (hready : Ready cfg c jobId progress batchSize d d' C s)
    (now soFar : Nat) (text : Text) (fs : List Feature) :
    let agree := Agree c s
      (importGeojsonlSource cfg c jobId progress batchSize now soFar Session.fresh
        (sourceFile env d d' text fs))
      (importOneSource cfg c jobId progress batchSize now soFar Session.fresh
        (sourceFile env d d' text fs))
    (PerLine env text fs → (agree ↔ ∀ f ∈ fs, f.Plain env)) ∧
      (Collection env text fs → (textLines text).length = 1 →
        (agree ↔ ∃ f, fs = [f] ∧ f.geometry.truthy = false ∧ f.properties.truthy = false)) ∧
      (Collection env text fs → 2 ≤ (textLines text).length →
        (∀ f ∈ fs, f.Flawless env) → ¬agree) := by
  intro agree
  have hagree := agree_iff_sameTally env hready now soFar text fs
  refine ⟨fun h => hagree.trans (sameTally_perLine h), fun h hl => ?_, fun h hl hf ha => ?_⟩
  · obtain ⟨l, hl⟩ := List.length_eq_one_iff.mp hl
    exact hagree.trans (sameTally_oneLine hl h)
  · exact not_sameTally_manyLines hl h hf (hagree.mp ha)

end

/-! ## Runs -/

theorem length_stripBytes_lt {a b : Text} (ha : stripBytes a ≠ []) (hb : stripBytes b ≠ []) :
    (stripBytes a).length < (stripBytes (a ++ b)).length := by
  have ha' : (a.dropWhile isByteSpace).isEmpty = false := by
    rw [List.isEmpty_eq_false_iff]
    exact fun he => ha (stripBytes_eq_nil.mpr (List.dropWhile_eq_nil_iff.mp he))
  have hb' : (b.reverse.dropWhile isByteSpace).isEmpty = false := by
    rw [List.isEmpty_eq_false_iff]
    exact fun he => hb (stripBytes_eq_nil.mpr fun ch hch =>
      List.dropWhile_eq_nil_iff.mp he ch (List.mem_reverse.mpr hch))
  have hpos : 0 < (b.reverse.dropWhile isByteSpace).length :=
    List.length_pos_iff.mpr (List.isEmpty_eq_false_iff.mp hb')
  have hle : ((a.dropWhile isByteSpace).reverse.dropWhile isByteSpace).length ≤
      (a.dropWhile isByteSpace).length := by
    have h := (List.dropWhile_sublist (p := isByteSpace) (l := (a.dropWhile isByteSpace).reverse)).length_le
    rwa [List.length_reverse] at h
  unfold stripBytes
  rw [List.dropWhile_append, if_neg (by simp [ha']), List.reverse_append, List.dropWhile_append,
    if_neg (by simp [hb'])]
  simp only [List.length_reverse, List.length_append]
  omega

/-- Two points, and the geometry of both. -/
inductive Sample where
  | nowhere | west | east | both
deriving DecidableEq

def samples : Shapely Sample where
  shape
    | .obj [(_, .str _), (_, .arr [])] => .ok .nowhere
    | .obj [(_, .str _), (_, .arr [.num x, .num _])] =>
      .ok (if x = "0".toList then .west else .east)
    | .obj [(_, .str _), (_, .arr [.arr _, .arr _])] => .ok .both
    | _ => .error ("GeometryTypeError".toList, "Unknown geometry type".toList)
  kind g := if g = .both then .multiPoint else .point
  isEmpty g := g = .nowhere
  isValid _ := true
  makeValid g := .ok (some g)
  geoms g := if g = .both then [.west, .east] else []
  coords _ := 1
  exterior _ := 0
  interiors _ := []
  bounds _ := (0, 0, 1, 0)
  box _ _ _ _ := .both
  intersection g _ := .ok g
  wkbLength g := if g = .both then 51 else 21
  wkt
    | .nowhere => "POINT EMPTY".toList
    | .west => "POINT (0 0)".toList
    | .east => "POINT (1 0)".toList
    | .both => "MULTIPOINT (0 0, 1 0)".toList
  wkt_nonempty g hg := by
    cases g with
    | nowhere => cases hg
    | _ => decide

/-- Geometries are stored as they are sent. -/
def plainPostgis : Postgis where
  subdivide text _ := .ok ⟨[text], by simp⟩
  force2d text := .ok text
  jsonb text := if h : text ≠ [] then .ok ⟨text, h⟩ else .error ("DataError".toList, [])

/-- A file with one JSON text in it. -/
def sampleEnv (j : Json) : Env Sample where
  loads text := if text = j.dumps then some j else none
  loads_whole a b members h ha hb := by
    have hab : stripBytes (a ++ b) = j.dumps := by
      by_contra hne
      rw [if_neg hne] at h
      cases h
    refine if_neg fun he => ?_
    have := length_stripBytes_lt ha hb
    rw [hab, he] at this
    exact absurd this (Nat.lt_irrefl _)
  shapely := samples
  postgis := plainPostgis
  limits := .default
  depth := 900

def westPoint : Json :=
  .obj [("type".toList, .str "Point".toList),
    ("coordinates".toList, .arr [.num "0".toList, .num "0".toList])]

def westFeature : Json :=
  .obj [("type".toList, .str "Feature".toList), ("geometry".toList, westPoint),
    ("properties".toList, .null)]

def westCollection : Json :=
  .obj [("type".toList, .str "FeatureCollection".toList), ("features".toList, .arr [westFeature])]

def sampleDraws : Draws where
  uuid n i := List.replicate n '0' ++ '1' :: List.replicate i '0'
  beat _ := false

theorem sampleDraws_distinct : sampleDraws.Distinct := by
  intro n i m j h
  have hfirst := congrArg (fun s => (s.takeWhile (· == '0')).length) h
  have hlength := congrArg List.length h
  simp [sampleDraws] at hfirst hlength
  omega

/-- An empty collection. -/
def emptyCollection : Sys := { Sys.idle Catalog.initial with collections := [⟨"a".toList, 0⟩] }

theorem sampleReady : Ready Settings.default "a".toList none (fun _ _ => pure ()) 1000 sampleDraws
    sampleDraws (fun _ => True) emptyCollection where
  calm := undisturbed_alone _
  state := trivial
  batch := by decide
  place := ⟨_, rfl, by simp⟩
  distinct := sampleDraws_distinct
  distinct' := sampleDraws_distinct
  unused := by
    have hrows : emptyCollection.catalog.rowsOf "a".toList = [] := by decide +kernel
    rw [hrows]
    simp

theorem sampleEnv_loads (j : Json) : (sampleEnv j).loads j.dumps = some j := if_pos rfl

/-- Both readers on the text of a document with one feature of the west point. -/
def agreeOn (j : Json) : Prop :=
  Agree "a".toList emptyCollection
    (importGeojsonlSource Settings.default "a".toList none (fun _ _ => pure ()) 1000 0 0 Session.fresh
      (sourceFile (sampleEnv j) sampleDraws sampleDraws j.dumps [⟨westPoint, .null⟩]))
    (importOneSource Settings.default "a".toList none (fun _ _ => pure ()) 1000 0 0 Session.fresh
      (sourceFile (sampleEnv j) sampleDraws sampleDraws j.dumps [⟨westPoint, .null⟩]))

theorem collection_line_disagrees :
    Collection (sampleEnv westCollection) westCollection.dumps [⟨westPoint, .null⟩] ∧
      (textLines westCollection.dumps).length = 1 ∧ ¬agreeOn westCollection := by
  have hone : (textLines westCollection.dumps).length = 1 := by decide +kernel
  have hcollection :
      Collection (sampleEnv westCollection) westCollection.dumps [⟨westPoint, .null⟩] := by
    have hstrip : stripBytes westCollection.dumps = westCollection.dumps := by decide +kernel
    rw [Collection, hstrip, sampleEnv_loads]
    rfl
  refine ⟨hcollection, hone, fun h => ?_⟩
  obtain ⟨l, hl⟩ := List.length_eq_one_iff.mp hone
  obtain ⟨f, hf, hgeom, _⟩ := (sameTally_oneLine hl hcollection).mp
    ((agree_iff_sameTally _ sampleReady 0 0 _ _).mp h)
  cases hf
  cases hgeom

theorem feature_line_agrees : agreeOn westFeature := by
  refine ((readers_agree_iff (sampleEnv westFeature) sampleReady 0 0 westFeature.dumps
    [⟨westPoint, .null⟩]).1 ?_).mpr ?_
  · have hlines : textLines westFeature.dumps = [westFeature.dumps] := by decide +kernel
    rw [PerLine, hlines, List.map_singleton, sampleEnv_loads]
    rfl
  · intro f hf
    rw [List.mem_singleton.mp hf]
    refine ⟨[.insert 0 (.ok ⟨[], [some "POINT (0 0)".toList], by simp⟩)], by rfl, ?_, by decide⟩
    intro p hp
    rw [List.mem_singleton.mp hp]
    exact ⟨rfl, rfl⟩

end Import
end Geofastmap
