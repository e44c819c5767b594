import Geofastmap.Copy.Load

/-!
# Geofastmap.Copy.Account

What a line of an import comes to: rows, or failures that are counted.

`_parse_line_bytes` catches what `orjson.loads` and `shape` raise, but `dict(...)` of the properties
is outside of a `try`, and of the pieces of a subdivided part those over the size limit are left out
without being counted. Where neither happens every line is accounted for: `line_accounted_iff`.
-/

namespace Geofastmap

namespace Import
namespace Json

/-- An element from which `dict(...)` takes a key and a value. -/
def IsPair : Json → Prop
  | .arr [k, _] => k.keyText.isSome = true
  | .str [_, _] => True
  | .obj [_, _] => True
  | _ => False

/-- A value that `dict(x or {})` takes: false or empty, an object, or a list of pairs. -/
def IsMapping (x : Json) : Prop :=
  x.truthy = false ∨
    match x with
    | .obj _ => True
    | .arr items => ∀ item ∈ items, item.IsPair
    | _ => False

theorem pair_ok_iff (i : Nat) (x : Json) : (∃ p, pair i x = .ok p) ↔ x.IsPair := by
  cases x with
  | arr items =>
    match items with
    | [k, v] => cases hk : k.keyText <;> simp [pair, IsPair, hk]
    | [] | [_] | _ :: _ :: _ :: _ => simp [pair, IsPair]
  | str s =>
    match s with
    | [] | [_] | [_, _] | _ :: _ :: _ :: _ => simp [pair, IsPair]
  | obj members =>
    match members with
    | [] | [_] | [_, _] | _ :: _ :: _ :: _ => simp [pair, IsPair]
  | _ => simp [pair, IsPair]

theorem pairs_ok_iff (i : Nat) (items : List Json) :
    (∃ ps, pairs i items = .ok ps) ↔ ∀ item ∈ items, item.IsPair := by
  induction items generalizing i with
  | nil => simp [pairs]
  | cons x xs ih =>
    rw [List.forall_mem_cons, ← pair_ok_iff i x, ← ih (i + 1), pairs]
    constructor
    · rintro ⟨ps, h⟩
      obtain ⟨p, hp, h⟩ := Db.Catalog.bind_eq_ok.mp h
      obtain ⟨qs, hqs, -⟩ := Db.Catalog.bind_eq_ok.mp h
      exact ⟨⟨p, hp⟩, ⟨qs, hqs⟩⟩
    · rintro ⟨⟨p, hp⟩, ⟨qs, hqs⟩⟩
      refine ⟨p :: qs, ?_⟩
      rw [hp, hqs]
      rfl

theorem dict_ok_iff (x : Json) : (∃ members, x.dict = .ok members) ↔ x.IsMapping := by
  unfold IsMapping
  cases htruthy : x.truthy with
  | false => simp [dict_of_falsy htruthy]
  | true =>
    unfold dict
    rw [if_pos htruthy]
    cases x with
    | arr items =>
      have hpairs := pairs_ok_iff 0 items
      cases h : pairs 0 items with
      | error e => simpa [h, Except.map] using hpairs
      | ok ps => simpa [h, Except.map] using hpairs
    | _ => simp

end Json
end Import

namespace Copy

open Import

section
variable {G : Type} (P : Parser G) (T : Target)

/-- The parts of a record that are not empty. -/
def keptGeoms (geoms : List G) : List G := geoms.filter fun g => !P.shapely.isEmpty g

/-- The pieces of a part that is subdivided. -/
def piecesOf (g : G) : List G :=
  subdivideGeometryByVertices P.shapely P.limits.maxVertices P.depth g

/-- The rows of a line account for its parts: each is staged, whole or as all the pieces of its
subdivision, or it is one of the failures. -/
structure PartsAccounted (geoms : List G) (rows : List StagingRow) (failed : Nat) : Prop where
  staged : rows.map StagingRow.geometry =
    ((keptGeoms P geoms).filterMap (storedParts P)).flatten.map P.toWkbHex
  failures : (keptGeoms P geoms).countP (fun g => (storedParts P g).isNone) ≤ failed
  parts : ∀ g ∈ keptGeoms P geoms, storedParts P g = none ∨ storedParts P g = some [g] ∨
    storedParts P g = some (piecesOf P g)

/-- Parsing the line does not raise; a line that is not blank gives a row or a failure, and its parts
are accounted for. -/
def LineAccounted (uuid line : Text) : Prop :=
  ∃ rows failed, parseLineBytes P T uuid line = .ok (rows, failed) ∧
    ((stripBytes line).isEmpty = false → (rows ≠ [] ∨ 0 < failed) ∧
      ∀ rec, P.loads line = some (.obj rec) → PartsAccounted P (recordGeoms P rec) rows failed)

/-- Where a part is subdivided, no piece is over the size limit, or all pieces are, or only the part
itself, uncut, is within it. -/
def KeptWhole (g : G) : Prop :=
  exceedsLimit P.shapely P.limits g = false →
    maxCoordsForDbSubdivide < coordCount P.shapely P.depth g →
      (∀ p ∈ piecesOf P g, exceedsLimit P.shapely P.limits p = false) ∨
      (∀ p ∈ piecesOf P g, exceedsLimit P.shapely P.limits p = true) ∨
      (piecesOf P g).filter (fun p => !exceedsLimit P.shapely P.limits p) = [g]

/-- A line that is blank, is no JSON object, or has properties that are a mapping and parts of which
no piece is lost. -/
def Loadable (line : Text) : Prop :=
  (stripBytes line).isEmpty = false → ∀ rec, P.loads line = some (.obj rec) →
    (Json.get rec "properties".toList).IsMapping ∧ ∀ g ∈ recordGeoms P rec, KeptWhole P g

/-! ## Parts -/

theorem storedParts_accounted_iff {g : G} (hg : P.shapely.isEmpty g = false) :
    (storedParts P g = none ∨ storedParts P g = some [g] ∨
      storedParts P g = some (piecesOf P g)) ↔ KeptWhole P g := by
  unfold storedParts KeptWhole
  cases hlimit : exceedsLimit P.shapely P.limits g with
  | true => simp
  | false =>
    rw [if_neg (by simp)]
    by_cases hcount : maxCoordsForDbSubdivide < coordCount P.shapely P.depth g
    · obtain ⟨hne, hnonempty⟩ := subdivide_nonempty (S := P.shapely) P.limits.maxVertices P.depth g hg
      have hfilter : (subdivideGeometryByVertices P.shapely P.limits.maxVertices P.depth g).filter
          (fun p => !P.shapely.isEmpty p && !exceedsLimit P.shapely P.limits p) =
            (piecesOf P g).filter fun p => !exceedsLimit P.shapely P.limits p :=
        List.filter_congr fun p hp => by simp [hnonempty p hp]
      have hall : (piecesOf P g).filter (fun p => !exceedsLimit P.shapely P.limits p) = piecesOf P g ↔
          ∀ p ∈ piecesOf P g, exceedsLimit P.shapely P.limits p = false := by
        simp [List.filter_eq_self]
      have hnone : (piecesOf P g).filter (fun p => !exceedsLimit P.shapely P.limits p) = [] ↔
          ∀ p ∈ piecesOf P g, exceedsLimit P.shapely P.limits p = true := by
        simp [List.filter_eq_nil_iff]
      rw [if_pos hcount, hfilter, ← hall, ← hnone]
      simp only [hcount, forall_const]
      cases hkept : (piecesOf P g).filter fun p => !exceedsLimit P.shapely P.limits p with
      | nil => simp
      | cons p ps =>
        simp only [Option.some.injEq, reduceCtorEq, false_or]
        exact or_comm
    · rw [if_neg hcount]
      simp [hcount]

theorem allParts_eq (geoms : List G) : allParts P geoms =
    (((keptGeoms P geoms).filterMap (storedParts P)).flatten,
      (keptGeoms P geoms).countP fun g => (storedParts P g).isNone) := rfl

theorem partsAccounted_iff {uuid : Text} {rec : List (Text × Json)} {rows : List StagingRow}
    {failed : Nat} (h : RecordRows P T uuid rec rows failed) :
    PartsAccounted P (recordGeoms P rec) rows failed ↔ ∀ g ∈ recordGeoms P rec, KeptWhole P g := by
  have hkept : ∀ g ∈ keptGeoms P (recordGeoms P rec), P.shapely.isEmpty g = false := fun g hg => by
    simpa using (List.mem_filter.mp hg).2
  constructor
  · intro hacc g hg
    cases hempty : P.shapely.isEmpty g with
    | false =>
      have hmem : g ∈ keptGeoms P (recordGeoms P rec) :=
        List.mem_filter.mpr ⟨hg, by simp [hempty]⟩
      exact (storedParts_accounted_iff P hempty).mp (hacc.parts g hmem)
    | true =>
      -- an empty geometry has no coordinates
      intro _ hcount
      have hzero : coordCount P.shapely P.depth g = 0 := by
        unfold coordCount
        simp [hempty]
      omega
  · intro hwhole
    constructor
    · rw [h.geometries, allParts_eq]
    · exact h.failures
    · intro g hg
      exact (storedParts_accounted_iff P (hkept g hg)).mpr (hwhole g (List.mem_filter.mp hg).1)

/-! ## Lines -/

/-- A record raises exactly where its properties are no mapping. -/
theorem featureRowsFromRecord_ok_iff (uuid : Text) (rec : List (Text × Json)) :
    (∃ parsed, featureRowsFromRecord P T uuid rec = .ok parsed) ↔
      (Json.get rec "properties".toList).IsMapping := by
  rw [← Json.dict_ok_iff]
  constructor
  · rintro ⟨parsed, h⟩
    obtain ⟨props, hprops, -⟩ := Db.Catalog.bind_eq_ok.mp h
    exact ⟨props, hprops⟩
  · rintro ⟨props, hprops⟩
    obtain ⟨rows, failed, h, -⟩ := featureRowsFromRecord_ok P T uuid hprops
    exact ⟨_, h⟩

theorem parseLineBytes_obj {uuid line : Text} (hline : (stripBytes line).isEmpty = false)
    {rec : List (Text × Json)} (hrec : P.loads line = some (.obj rec)) :
    parseLineBytes P T uuid line = featureRowsFromRecord P T uuid rec := by
  unfold parseLineBytes
  rw [if_neg (by simp [hline]), hrec]

theorem parseLineBytes_skip {uuid line : Text} (hline : (stripBytes line).isEmpty = false)
    (hrec : ∀ rec, P.loads line ≠ some (.obj rec)) :
    parseLineBytes P T uuid line = .ok ([], 1) := by
  unfold parseLineBytes
  rw [if_neg (by simp [hline])]
  split
  · rename_i rec hloads
    exact absurd hloads (hrec rec)
  · rfl

theorem line_accounted_iff (uuid line : Text) : LineAccounted P T uuid line ↔ Loadable P line := by
  unfold LineAccounted Loadable
  cases hline : (stripBytes line).isEmpty with
  | true =>
    have hblank : parseLineBytes P T uuid line = .ok ([], 0) := by
      unfold parseLineBytes
      rw [if_pos hline]
    simp [hblank]
  | false =>
    by_cases hobj : ∃ rec, P.loads line = some (.obj rec)
    · obtain ⟨rec, hrec⟩ := hobj
      have honly : ∀ rec', P.loads line = some (.obj rec') → rec' = rec := fun rec' h => by
        rw [hrec] at h
        cases h
        rfl
      rw [parseLineBytes_obj P T hline hrec]
      constructor
      · rintro ⟨rows, failed, hparse, hacc⟩ - rec' hrec'
        obtain rfl := honly rec' hrec'
        have hmapping := (featureRowsFromRecord_ok_iff P T uuid rec').mp ⟨_, hparse⟩
        obtain ⟨props, hprops⟩ := (Json.dict_ok_iff _).mpr hmapping
        obtain ⟨rows', failed', hok, hspec⟩ := featureRowsFromRecord_ok P T uuid hprops
        rw [hok] at hparse
        cases hparse
        exact ⟨hmapping, (partsAccounted_iff P T hspec).mp ((hacc rfl).2 rec' hrec')⟩
      · intro h
        obtain ⟨hmapping, hwhole⟩ := h rfl rec hrec
        obtain ⟨props, hprops⟩ := (Json.dict_ok_iff _).mpr hmapping
        obtain ⟨rows, failed, hok, hspec⟩ := featureRowsFromRecord_ok P T uuid hprops
        refine ⟨rows, failed, hok, fun _ => ⟨hspec.counted, ?_⟩⟩
        intro rec' hrec'
        obtain rfl := honly rec' hrec'
        exact (partsAccounted_iff P T hspec).mpr hwhole
    · have hskip : parseLineBytes P T uuid line = .ok ([], 1) :=
        parseLineBytes_skip P T hline fun rec hrec => hobj ⟨rec, hrec⟩
      rw [hskip]
      constructor
      · intro _ _ rec hrec
        exact absurd ⟨rec, hrec⟩ hobj
      · intro _
        exact ⟨[], 1, rfl, fun _ => ⟨Or.inr Nat.one_pos, fun rec hrec => absurd ⟨rec, hrec⟩ hobj⟩⟩

/-- A line of which everything is accounted for is loaded in either way of `load_eq_oneByOne`. -/
theorem Loadable.parses {line : Text} (h : Loadable P line) : Parses P T line := by
  intro id e herror
  obtain ⟨rows, failed, hok, -⟩ := (line_accounted_iff P T id line).mpr h
  rw [hok] at herror
  cases herror

end

/-! ## A list of properties -/

/-- `{"properties": [1]}`. -/
def listedProperties : Json := .obj [("properties".toList, .arr [.num "1".toList])]

/-- One text that is JSON. -/
def listedParser : Parser Sample :=
  { sampleParser with
    loads := fun text => if text = listedProperties.dumps then some listedProperties else none }

theorem listed_properties_raise :
    ¬ ∀ uuid line, LineAccounted listedParser sampleTarget uuid line := by
  intro h
  have hloads : listedParser.loads listedProperties.dumps = some listedProperties := by
    simp [listedParser]
  have hload := (line_accounted_iff listedParser sampleTarget [] _).mp (h [] listedProperties.dumps)
  obtain ⟨hmapping, -⟩ := hload (by decide) _ hloads
  rcases hmapping with hfalsy | hpairs
  · revert hfalsy
    decide
  · exact hpairs (.num "1".toList) (by simp)

end Copy
end Geofastmap
