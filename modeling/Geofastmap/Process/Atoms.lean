import Geofastmap.Import.Parts
import Geofastmap.Process.Batches

/-!
# Geofastmap.Process.Atoms

The two recursions that take a geometry apart into its single parts: `_explode_to_simple_parts` of
`bulk_import.py`, on a valid geometry, and `_flatten_make_valid_geometry` of `process_worker.py`.

`exploded_exact`: each returns the parts that are not empty, from left to right. The first leaves a
linear ring as it is and the second returns the line of its coordinates; they differ nowhere else.
-/

namespace Geofastmap
namespace Process

open Import

variable {A D K : Type}

/-! ## The tree -/

/-- Induction over a geometry, with the hypothesis at each member of a collection. -/
@[elab_as_elim]
theorem Geom.induct {motive : Geom A → Prop}
    (atom : ∀ kind part, motive (.atom kind part))
    (multi : ∀ kind parts, motive (.multi kind parts))
    (collection : ∀ geoms, (∀ g ∈ geoms, motive g) → motive (.collection geoms)) :
    ∀ g, motive g
  | .atom kind part => atom kind part
  | .multi kind parts => multi kind parts
  | .collection geoms => collection geoms fun g _ => Geom.induct atom multi collection g

def Geom.kind : Geom A → Kind
  | .atom .point _ => .point
  | .atom .lineString _ => .lineString
  | .atom .polygon _ => .polygon
  | .atom .linearRing _ => .linearRing
  | .multi .multiPoint _ => .multiPoint
  | .multi .multiLineString _ => .multiLineString
  | .multi .multiPolygon _ => .multiPolygon
  | .collection _ => .geometryCollection

/-- `geom.geoms`. -/
def Geom.geoms : Geom A → List (Geom A)
  | .atom _ _ => []
  | .multi kind parts => parts.map (.atom kind.part)
  | .collection geoms => geoms

mutual

/-- The single parts of a geometry from left to right, empty ones among them. -/
def Geom.leaves : Geom A → List (AtomKind × A)
  | .atom kind part => [(kind, part)]
  | .multi kind parts => parts.map fun part => (kind.part, part)
  | .collection geoms => Geom.allLeaves geoms

def Geom.allLeaves : List (Geom A) → List (AtomKind × A)
  | [] => []
  | g :: geoms => g.leaves ++ Geom.allLeaves geoms

end

mutual

/-- How many collections lie around a single part or a `Multi*` geometry. -/
def Geom.nesting : Geom A → Nat
  | .atom _ _ => 0
  | .multi _ _ => 0
  | .collection geoms => Geom.deepest geoms + 1

def Geom.deepest : List (Geom A) → Nat
  | [] => 0
  | g :: geoms => max g.nesting (Geom.deepest geoms)

end

/-- The single parts that are not empty, as geometries. -/
def Geom.atoms (empty : A → Bool) (g : Geom A) : List (Geom A) :=
  (g.leaves.filter fun leaf => !empty leaf.2).map fun leaf => .atom leaf.1 leaf.2

theorem Geom.allLeaves_eq (geoms : List (Geom A)) :
    Geom.allLeaves geoms = geoms.flatMap Geom.leaves := by
  induction geoms with
  | nil => rfl
  | cons g geoms ih => rw [Geom.allLeaves, ih, List.flatMap_cons]

theorem Geom.allEmpty_eq (empty : A → Bool) (geoms : List (Geom A)) :
    Geom.allEmpty empty geoms = geoms.all (Geom.isEmpty empty) := by
  induction geoms with
  | nil => rfl
  | cons g geoms ih => rw [Geom.allEmpty, ih, List.all_cons]

theorem Geom.nesting_le_deepest {g : Geom A} {geoms : List (Geom A)} (hg : g ∈ geoms) :
    g.nesting ≤ Geom.deepest geoms := by
  induction geoms with
  | nil => cases hg
  | cons first geoms ih =>
    rw [Geom.deepest]
    rcases List.mem_cons.mp hg with rfl | hg
    · exact Nat.le_max_left _ _
    · exact Nat.le_trans (ih hg) (Nat.le_max_right _ _)

section
variable (empty : A → Bool)

theorem Geom.atoms_atom (kind : AtomKind) (part : A) :
    (Geom.atom kind part).atoms empty = if empty part then [] else [.atom kind part] := by
  cases h : empty part <;> simp [Geom.atoms, Geom.leaves, h]

theorem Geom.atoms_multi (kind : MultiKind) (parts : List A) :
    (Geom.multi kind parts).atoms empty =
      (parts.filter fun part => !empty part).map (.atom kind.part) := by
  simp [Geom.atoms, Geom.leaves, List.filter_map, Function.comp_def]

theorem Geom.atoms_collection (geoms : List (Geom A)) :
    (Geom.collection geoms).atoms empty = geoms.flatMap (Geom.atoms empty) := by
  rw [Geom.atoms, Geom.leaves, Geom.allLeaves_eq, List.filter_flatMap, List.map_flatMap]
  rfl

theorem Geom.isEmpty_iff_atoms (g : Geom A) : g.isEmpty empty = true ↔ g.atoms empty = [] := by
  induction g using Geom.induct with
  | atom kind part => cases h : empty part <;> simp [Geom.isEmpty, Geom.atoms_atom, h]
  | multi kind parts => simp [Geom.isEmpty, Geom.atoms_multi]
  | collection geoms ih =>
    rw [Geom.isEmpty, Geom.allEmpty_eq, Geom.atoms_collection, List.all_eq_true,
      List.flatMap_eq_nil_iff]
    exact forall₂_congr ih

theorem Geom.mem_atoms {g p : Geom A} :
    p ∈ g.atoms empty ↔
      ∃ kind part, (kind, part) ∈ g.leaves ∧ empty part = false ∧ p = .atom kind part := by
  simp only [Geom.atoms, List.mem_map, List.mem_filter, Bool.not_eq_true', Prod.exists]
  grind

end

/-! ## The two recursions -/

/-- A linear ring as the line of its coordinates. -/
def asLineString (shp : Shapely A D) : Geom A → Geom A
  | .atom .linearRing ring => .atom .lineString ((shp.lineString ring).getD ring)
  | g => g

/-- The two sides of Shapely are about the same geometries. -/
structure Trees (shp : Shapely A D) (S : Import.Shapely (Geom A) K) : Prop where
  kind : S.kind = Geom.kind
  isEmpty : S.isEmpty = Geom.isEmpty shp.empty
  geoms : S.geoms = Geom.geoms
  /-- The members of a valid collection are valid. -/
  members : ∀ geoms, S.isValid (.collection geoms) = true → ∀ g ∈ geoms, S.isValid g = true
  /-- The coordinates of a ring that is not empty make a line that is not empty. -/
  line : ∀ ring, shp.empty ring = false →
    ∃ line, shp.lineString ring = some line ∧ shp.empty line = false

section
variable {shp : Shapely A D} {S : Import.Shapely (Geom A) K}

theorem flattenGeoms_eq (geoms : List (Geom A)) :
    flattenGeoms shp geoms = geoms.flatMap (flattenMakeValidGeometry shp) := by
  induction geoms with
  | nil => rfl
  | cons g geoms ih => rw [flattenGeoms, ih, List.flatMap_cons]

theorem flatten_empty {g : Geom A} (hg : g.isEmpty shp.empty = true) :
    flattenMakeValidGeometry shp g = [] := by
  cases g with
  | atom kind part => exact if_pos hg
  | multi kind parts =>
    simpa [flattenMakeValidGeometry, multiParts, Geom.isEmpty] using hg
  | collection geoms => exact if_pos hg

/-- The test for an empty collection saves only time. -/
theorem flatten_collection (geoms : List (Geom A)) :
    flattenMakeValidGeometry shp (.collection geoms) =
      geoms.flatMap (flattenMakeValidGeometry shp) := by
  rw [flattenMakeValidGeometry]
  split
  · rename_i hempty
    rw [Geom.allEmpty_eq, List.all_eq_true] at hempty
    exact (List.flatMap_eq_nil_iff.mpr fun g hg => flatten_empty (hempty g hg)).symm
  · exact flattenGeoms_eq geoms

theorem flatten_eq_atoms (h : Trees shp S) (g : Geom A) :
    flattenMakeValidGeometry shp g = (g.atoms shp.empty).map (asLineString shp) := by
  induction g using Geom.induct with
  | atom kind part =>
    by_cases hpart : shp.empty part = true
    · rw [Geom.atoms_atom, if_pos hpart, List.map_nil]
      exact flatten_empty hpart
    · rw [Geom.atoms_atom, if_neg hpart]
      cases kind with
      | linearRing =>
        obtain ⟨line, hline, _⟩ := h.line part (by simpa using hpart)
        simp [flattenMakeValidGeometry, asLineString, hpart, hline]
      | _ => exact if_neg hpart
  | multi kind parts =>
    rw [Geom.atoms_multi, List.map_map]
    refine List.map_congr_left fun part _ => ?_
    cases kind <;> rfl
  | collection geoms ih =>
    rw [flatten_collection, Geom.atoms_collection, List.map_flatMap]
    exact List.flatMap_congr ih

theorem explodeValid_eq_atoms (h : Trees shp S) {explode : Geom A → Except Raised (List (Geom A))}
    {g : Geom A} (hg : g.isEmpty shp.empty = false)
    (hmembers : ∀ m ∈ g.geoms, g.kind = .geometryCollection → explode m = .ok (m.atoms shp.empty)) :
    explodeValid S explode g = .ok (g.atoms shp.empty) := by
  unfold explodeValid
  rw [h.kind]
  cases g with
  | atom kind part =>
    rw [Geom.atoms_atom, if_neg (by simpa [Geom.isEmpty] using hg)]
    cases kind <;> rfl
  | multi kind parts =>
    have hparts : nonemptyGeoms S (.multi kind parts) = (Geom.multi kind parts).atoms shp.empty := by
      rw [Geom.atoms_multi, nonemptyGeoms, h.geoms, h.isEmpty, Geom.geoms, List.filter_map]
      rfl
    rw [← hparts]
    cases kind <;> rfl
  | collection geoms =>
    rw [Geom.atoms_collection, h.geoms]
    exact explodeAll_ok fun m hm => hmembers m hm rfl

theorem explode_step (h : Trees shp S) {depth : Nat} {g : Geom A} (hvalid : S.isValid g = true)
    (hmembers : ∀ m ∈ g.geoms, g.kind = .geometryCollection →
      explodeToSimpleParts S depth m = .ok (m.atoms shp.empty)) :
    explodeToSimpleParts S (depth + 1) g = .ok (g.atoms shp.empty) := by
  rw [explodeToSimpleParts, h.isEmpty, if_pos hvalid]
  split
  · rename_i hempty
    rw [(Geom.isEmpty_iff_atoms _ g).mp hempty]
  · rename_i hg
    exact explodeValid_eq_atoms h (by simpa using hg) hmembers

/-- One more turn than the collections that are nested is enough. -/
theorem explode_eq_atoms (h : Trees shp S) (g : Geom A) : S.isValid g = true →
    ∀ depth, g.nesting ≤ depth →
      explodeToSimpleParts S (depth + 1) g = .ok (g.atoms shp.empty) := by
  induction g using Geom.induct with
  | atom kind part =>
    intro hvalid depth _
    exact explode_step h hvalid fun m hm => absurd hm List.not_mem_nil
  | multi kind parts =>
    intro hvalid depth _
    exact explode_step h hvalid fun m _ hkind => by cases kind <;> cases hkind
  | collection geoms ih =>
    intro hvalid depth hdepth
    rw [Geom.nesting] at hdepth
    cases depth with
    | zero => exact absurd hdepth (Nat.not_succ_le_zero _)
    | succ depth =>
      refine explode_step h hvalid fun m hm _ => ?_
      have hle : m.nesting ≤ Geom.deepest geoms := Geom.nesting_le_deepest hm
      exact ih m hm (h.members geoms hvalid m hm) depth (by omega)

theorem asLineString_eq_self_iff {kind : AtomKind} {part : A} :
    asLineString shp (.atom kind part) = .atom kind part ↔ kind ≠ .linearRing := by
  cases kind <;> simp [asLineString]

/-- Only a linear ring tells the two results apart. -/
theorem atoms_eq_lines_iff (g : Geom A) :
    g.atoms shp.empty = (g.atoms shp.empty).map (asLineString shp) ↔
      ∀ part, (.linearRing, part) ∈ g.leaves → shp.empty part = true := by
  have hself : g.atoms shp.empty = (g.atoms shp.empty).map (asLineString shp) ↔
      ∀ p ∈ g.atoms shp.empty, asLineString shp p = p := by
    rw [eq_comm, ← List.map_inj_left, List.map_id']
  rw [hself]
  constructor
  · intro hall part hpart
    by_contra hempty
    have hp := (Geom.mem_atoms shp.empty).mpr ⟨_, part, hpart, by simpa using hempty, rfl⟩
    exact asLineString_eq_self_iff.mp (hall _ hp) rfl
  · intro hrings p hp
    obtain ⟨kind, part, hleaf, hempty, rfl⟩ := (Geom.mem_atoms shp.empty).mp hp
    rw [asLineString_eq_self_iff]
    rintro rfl
    rw [hrings part hleaf] at hempty
    cases hempty

theorem flatten_single (h : Trees shp S) {g p : Geom A}
    (hp : p ∈ flattenMakeValidGeometry shp g) :
    ∃ kind part, kind ≠ .linearRing ∧ shp.empty part = false ∧ p = .atom kind part := by
  rw [flatten_eq_atoms h] at hp
  obtain ⟨q, hq, rfl⟩ := List.mem_map.mp hp
  obtain ⟨kind, part, _, hempty, rfl⟩ := (Geom.mem_atoms shp.empty).mp hq
  cases kind with
  | linearRing =>
    obtain ⟨line, hline, hfull⟩ := h.line part hempty
    exact ⟨.lineString, line, by simp, hfull, by rw [asLineString, hline]; rfl⟩
  | _ => exact ⟨_, part, by simp, hempty, rfl⟩

theorem exploded_exact (h : Trees shp S) (g : Geom A) :
    (S.isValid g = true → ∀ depth, g.nesting < depth →
        explodeToSimpleParts S depth g = .ok (g.atoms shp.empty)) ∧
      flattenMakeValidGeometry shp g = (g.atoms shp.empty).map (asLineString shp) ∧
      (∀ p ∈ g.atoms shp.empty, ∃ kind part, shp.empty part = false ∧ p = .atom kind part) ∧
      (∀ p ∈ flattenMakeValidGeometry shp g,
        ∃ kind part, kind ≠ .linearRing ∧ shp.empty part = false ∧ p = .atom kind part) ∧
      (S.isValid g = true → ∀ depth, g.nesting < depth →
        (explodeToSimpleParts S depth g = .ok (flattenMakeValidGeometry shp g) ↔
          ∀ part, (.linearRing, part) ∈ g.leaves → shp.empty part = true)) := by
  have hexplode : S.isValid g = true → ∀ depth, g.nesting < depth →
      explodeToSimpleParts S depth g = .ok (g.atoms shp.empty) := by
    intro hvalid depth hdepth
    cases depth with
    | zero => exact absurd hdepth (Nat.not_lt_zero _)
    | succ depth => exact explode_eq_atoms h g hvalid depth (Nat.le_of_lt_succ hdepth)
  refine ⟨hexplode, flatten_eq_atoms h g, fun p hp => ?_, fun p hp => flatten_single h hp, ?_⟩
  · obtain ⟨kind, part, _, hempty, rfl⟩ := (Geom.mem_atoms shp.empty).mp hp
    exact ⟨kind, part, hempty, rfl⟩
  · intro hvalid depth hdepth
    rw [hexplode hvalid depth hdepth, flatten_eq_atoms h, Except.ok.injEq]
    exact atoms_eq_lines_iff g

end

/-! ## Geometries on integer coordinates -/

/-- A part as its coordinates; a polygon as those of its outer ring. -/
def plane : Shapely (List (Int × Int)) Int where
  loads _ := none
  empty := List.isEmpty
  buffer g _ := some g
  isValid _ := true
  makeValid g := some g
  lineString ring := some ring
  number d := .num (Sql.digits d.toNat)

/-- The same geometries for the import. They are not read from GeoJSON, and nothing is cut. -/
def planeImport : Import.Shapely (Geom (List (Int × Int))) Int where
  shape _ := .error ("GeometryTypeError".toList, "Unknown geometry type".toList)
  kind := Geom.kind
  isEmpty := Geom.isEmpty List.isEmpty
  isValid _ := true
  makeValid g := .ok (some g)
  geoms := Geom.geoms
  coords g := (g.leaves.map fun leaf => leaf.2.length).sum
  exterior g := (g.leaves.map fun leaf => leaf.2.length).sum
  interiors _ := []
  bounds _ := (0, 0, 0, 0)
  box minx miny maxx maxy :=
    .atom .polygon [(maxx, miny), (maxx, maxy), (minx, maxy), (minx, miny), (maxx, miny)]
  intersection g _ := .ok g
  wkbLength g := 5 + (g.leaves.map fun leaf => 9 + 16 * leaf.2.length).sum
  wkt g := if g.isEmpty List.isEmpty then "POINT EMPTY".toList else "POINT (0 0)".toList
  wkt_nonempty g hg := by
    rw [if_neg (by simp [hg])]
    decide

theorem plane_trees : Trees plane planeImport where
  kind := rfl
  isEmpty := rfl
  geoms := rfl
  members _ _ _ _ := rfl
  line ring hring := ⟨ring, rfl, hring⟩

/-- `LINEARRING (0 0, 2 0, 0 2, 0 0)`. -/
def triangle : List (Int × Int) := [(0, 0), (2, 0), (0, 2), (0, 0)]

/-- Collections in collections, with a ring, parts that are empty and a collection without
members. -/
def nested : Geom (List (Int × Int)) :=
  .collection [
    .collection [.collection [.atom .linearRing triangle], .collection []],
    .multi .multiPoint [[], [(5, 5)], [(6, 5)]],
    .atom .lineString [],
    .multi .multiPolygon [triangle, []],
    .atom .point [(7, 7)]]

theorem exploded_exact_nested :
    explodeToSimpleParts planeImport 4 nested =
        .ok [.atom .linearRing triangle, .atom .point [(5, 5)], .atom .point [(6, 5)],
          .atom .polygon triangle, .atom .point [(7, 7)]] ∧
      flattenMakeValidGeometry plane nested =
        [.atom .lineString triangle, .atom .point [(5, 5)], .atom .point [(6, 5)],
          .atom .polygon triangle, .atom .point [(7, 7)]] := by
  obtain ⟨hexplode, hflatten, _⟩ := exploded_exact plane_trees nested
  exact ⟨hexplode rfl 4 (by decide), hflatten⟩

/-- A collection with one linear ring comes apart in two ways. -/
theorem ring_explodes_apart :
    ¬ ∀ (A D K : Type) (shp : Shapely A D) (S : Import.Shapely (Geom A) K), Trees shp S →
      ∀ g, S.isValid g = true → ∀ depth, g.nesting < depth →
        explodeToSimpleParts S depth g = .ok (flattenMakeValidGeometry shp g) := by
  intro h
  have hring : (.ok [Geom.atom .linearRing triangle] : Except Raised _) =
      .ok [.atom .lineString triangle] :=
    h _ _ _ plane planeImport plane_trees (.collection [.atom .linearRing triangle]) rfl 2
      (by decide)
  cases hring

end Process
end Geofastmap
