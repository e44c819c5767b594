import Geofastmap.Composite.Items

/-!
# Geofastmap.Composite.Export

The GeoJSONL export of a composite collection: `stream_composite_features_geojsonl` passes on what
the streams of the members yield, and the export route writes one line for each element.

The composite generator expects lines of bytes and gives each a composite id; the streams of the
members yield rows. On a row `decode` raises, and the handler around it passes the row on as it
is. `composite_export_iff` says what is left of the export.
-/

namespace Geofastmap
namespace Composite

open Db Import Items

/-- An element of a stream: a row object, or the bytes of a line. -/
inductive Element where
  | row (e : Exported)
  | line (text : Text)

inductive ExportError where
  | pg (e : PgError)
  | attributeError
  | raised (r : Raised)
deriving DecidableEq, Repr

/-- Python's `json` module and `str`. -/
structure Py where
  /-- `json.loads(row.decode("utf-8").strip())`; `none` raises. -/
  loads : Text → Option Json
  dumps : Json → Text
  str : Json → Text

def memberCollectionKey : Text := "_member_collection_id".toList

def memberFeatureKey : Text := "_member_feature_id".toList

/-- `rec.get("id") or (rec.get("properties") or {}).get("id")`. -/
def recordId (members : List (Text × Json)) : Except ExportError Json :=
  let own := Json.get members idKey
  if own.truthy then .ok own
  else
    let props := Json.get members "properties".toList
    if props.truthy then
      match props with
      | .obj ps => .ok (Json.get ps idKey)
      | _ => .error .attributeError
    else .ok .null

/-- What the composite generator makes of an element of the stream of `mid`. A row has no
`decode`; the exception is caught and the row passed on. -/
def relabel (py : Py) (mid : CollectionId) : Element → Except ExportError Element
  | .row e => .ok (.row e)
  | .line text =>
    match py.loads text with
    | some (.obj members) =>
      match recordId members with
      | .error e => .error e
      | .ok .null => .ok (.line text)
      | .ok fid =>
        match (Json.get members "properties".toList).dict with
        | .error r => .error (.raised r)
        | .ok props =>
        let props := setKey (setKey props memberCollectionKey (.str mid)) memberFeatureKey
          (.str (py.str fid))
        let members := setKey (setKey members idKey (.str (formatCompositeItemId mid (py.str fid))))
          "properties".toList (.obj props)
        .ok (.line (py.dumps (.obj members) ++ ['\n']))
    | _ => .ok (.line text)

/-- A line of the export, by the value that `orjson.dumps` writes. -/
structure Line where
  id : Json
  geometry : Option (List Text)
  properties : List (Text × Json)

variable {κ N : Type} [LinearOrder κ] [LinearOrder N] (pg : Pg κ N)

/-- The route writes a row as a line; bytes have no `properties`. -/
def routeLine (keys : Option (List Text)) : Element → Except ExportError Line
  | .line _ => .error .attributeError
  | .row e =>
    let props := (pg.properties e.properties).getD []
    let props := match keys with
      | none => props
      | some names => props.filter fun kv => names.contains kv.1
    let props := if props.any (·.1 == idKey) then props else props ++ [(idKey, .str e.id)]
    .ok ⟨.str e.id, e.geometry, props⟩

/-- One element through the generator and the route. -/
def compositeLine (py : Py) (keys : Option (List Text)) (mid : CollectionId) (e : Element) :
    Except ExportError Line :=
  match relabel py mid e with
  | .error err => .error err
  | .ok e' => routeLine pg keys e'

/-- Elements up to the first that raises. -/
def compositeLines (py : Py) (keys : Option (List Text)) (mid : CollectionId) :
    List Element → List Line × Option ExportError
  | [] => ([], none)
  | e :: es =>
    match compositeLine pg py keys mid e with
    | .error err => ([], some err)
    | .ok line =>
      let (lines, err) := compositeLines py keys mid es
      (line :: lines, err)

/-- The export of a composite collection, member by member. -/
def compositeExport (py : Py) (keys : Option (List Text)) (ch : CollectionId → Nat → Choice N)
    (db : Database) (x : Export N) (fuel : Nat) :
    List CollectionId → List Line × Paging.Ending ExportError
  | [] => ([], .done)
  | m :: ms =>
    let (yielded, ending) := streamFeaturesGeojsonl pg (ch m) (db.rows m) x fuel
    match compositeLines pg py keys m (yielded.map Element.row), ending with
    | (lines, some err), _ => (lines, .raised err)
    | (lines, none), .raised e => (lines, .raised (.pg e))
    | (lines, none), .running => (lines, .running)
    | (lines, none), .done =>
      let (rest, ending) := compositeExport py keys ch db x fuel ms
      (lines ++ rest, ending)

/-- The line of an element under its composite id. -/
def Labelled (pair : CollectionId × Exported) (line : Line) : Prop :=
  line.id = .str (formatCompositeItemId pair.1 pair.2.id) ∧
    line.properties.lookup memberCollectionKey = some (.str pair.1) ∧
      line.properties.lookup memberFeatureKey = some (.str pair.2.id)

/-- What the streams of the members yield, member by member. -/
def memberRows (ch : CollectionId → Nat → Choice N) (db : Database) (x : Export N) (fuel : Nat)
    (members : List CollectionId) : List (CollectionId × Exported) :=
  members.flatMap fun m => (streamFeaturesGeojsonl pg (ch m) (db.rows m) x fuel).1.map (m, ·)

/-- Whatever PostgreSQL chooses, the export ends, with one labelled line for each element that the
streams of the members yield. -/
def CompositeExportRight (py : Py) (keys : Option (List Text)) (db : Database) (x : Export N)
    (members : List CollectionId) : Prop :=
  ∀ ch : CollectionId → Nat → Choice N, ∃ bound, ∀ fuel, bound ≤ fuel → ∃ lines,
    compositeExport pg py keys ch db x fuel members = (lines, .done) ∧
      List.Forall₂ Labelled (memberRows pg ch db x fuel members) lines

/-! ## Rows pass through unchanged -/

variable (py : Py) (keys : Option (List Text))

omit [LinearOrder κ] [LinearOrder N] in
theorem compositeLines_rows (mid : CollectionId) (yielded : List Exported) :
    ∃ lines, compositeLines pg py keys mid (yielded.map Element.row) = (lines, none) ∧
      List.Forall₂ (fun e line => line.id = Json.str e.id) yielded lines := by
  induction yielded with
  | nil => exact ⟨[], rfl, .nil⟩
  | cons e es ih =>
    obtain ⟨lines, hl, hf⟩ := ih
    simp only [List.map_cons, compositeLines, compositeLine, relabel, routeLine, hl]
    exact ⟨_, rfl, .cons rfl hf⟩

/-- The composite id of a feature is never its own id. -/
theorem formatCompositeItemId_ne (m f : Text) : formatCompositeItemId m f ≠ f := by
  intro h
  have hlen := congrArg List.length h
  simp [formatCompositeItemId] at hlen
  omega

/-- An export that ends has read the stream of every member to its end, and each line carries the
id of its element. -/
theorem compositeExport_done {ch : CollectionId → Nat → Choice N} {db : Database} {x : Export N}
    {fuel : Nat} {members : List CollectionId} {lines : List Line}
    (h : compositeExport pg py keys ch db x fuel members = (lines, .done)) :
    (∀ m ∈ members, (streamFeaturesGeojsonl pg (ch m) (db.rows m) x fuel).2 = .done) ∧
      List.Forall₂ (fun pair line => line.id = Json.str pair.2.id)
        (memberRows pg ch db x fuel members) lines := by
  induction members generalizing lines with
  | nil =>
    cases h
    exact ⟨by simp, .nil⟩
  | cons m ms ih =>
    rcases hstream : streamFeaturesGeojsonl pg (ch m) (db.rows m) x fuel with ⟨yielded, ending⟩
    obtain ⟨own, hown, hids⟩ := compositeLines_rows pg py keys m yielded
    cases ending with
    | raised e => simp [compositeExport, hstream, hown] at h
    | running => simp [compositeExport, hstream, hown] at h
    | done =>
      rcases hrest : compositeExport pg py keys ch db x fuel ms with ⟨rest, ending⟩
      simp only [compositeExport, hstream, hown, hrest, Prod.mk.injEq] at h
      obtain ⟨rfl, rfl⟩ := h
      obtain ⟨hdone, hforall⟩ := ih hrest
      refine ⟨by simpa [hstream] using hdone, ?_⟩
      have hown' : List.Forall₂ (fun pair line => line.id = Json.str pair.2.id)
          (yielded.map (m, ·)) own := by
        rw [List.forall₂_map_left_iff]
        exact hids
      simp only [memberRows, List.flatMap_cons, hstream]
      exact List.rel_append hown' hforall

theorem compositeExport_nil {ch : CollectionId → Nat → Choice N} {db : Database} {x : Export N}
    {fuel : Nat} {members : List CollectionId}
    (h : ∀ m ∈ members, streamFeaturesGeojsonl pg (ch m) (db.rows m) x fuel = ([], .done)) :
    compositeExport pg py keys ch db x fuel members = ([], .done) ∧
      memberRows pg ch db x fuel members = [] := by
  induction members with
  | nil => exact ⟨rfl, rfl⟩
  | cons m ms ih =>
    have hm := h m (by simp)
    obtain ⟨h1, h2⟩ := ih fun m' hm' => h m' (by simp [hm'])
    simp only [memberRows] at h2
    exact ⟨by simp [compositeExport, hm, compositeLines, h1], by simp [memberRows, hm, h2]⟩

/-- The streams of members without matches, for enough fuel. -/
theorem streams_nil (ch : CollectionId → Nat → Choice N) (db : Database) (x : Export N)
    (members : List CollectionId)
    (h : ∀ m ∈ members, Safe pg x.clauses (db.rows m) ∧ matching pg x.clauses (db.rows m) = []) :
    ∃ bound, ∀ fuel, bound ≤ fuel → ∀ m ∈ members,
      streamFeaturesGeojsonl pg (ch m) (db.rows m) x fuel = ([], .done) := by
  induction members with
  | nil => exact ⟨0, by simp⟩
  | cons m ms ih =>
    obtain ⟨hsafe, hnone⟩ := h m (by simp)
    obtain ⟨b, hb⟩ := stream_nil_iff pg (exportComplete_of_safe pg (db.keyed m) hsafe) (ch m)
    obtain ⟨b', hb'⟩ := ih fun m' hm' => h m' (by simp [hm'])
    refine ⟨max b b', fun fuel hf m' hm' => ?_⟩
    rcases List.mem_cons.mp hm' with rfl | hm'
    · obtain ⟨out, hout, hiff⟩ := hb fuel (by omega)
      rw [hout, hiff.mpr hnone]
    · exact hb' fuel (by omega) m' hm'

/-- A right export exports nothing: the first element of a stream would need a line with two
ids. -/
theorem nothing_of_right {db : Database} {x : Export N} {members : List CollectionId}
    (h : CompositeExportRight pg py keys db x members) :
    ∀ m ∈ members, Safe pg x.clauses (db.rows m) ∧ matching pg x.clauses (db.rows m) = [] := by
  intro m hm
  obtain ⟨bound, hb⟩ := h fun _ _ => .hasty pg
  have hsafe : Safe pg x.clauses (db.rows m) := by
    by_contra hsafe
    obtain ⟨lines, hlines, -⟩ := hb (bound + 1) (by omega)
    obtain ⟨e, he⟩ := stream_hasty pg hsafe bound
    have hdone := (compositeExport_done pg py keys hlines).1 m hm
    simp [he] at hdone
  obtain ⟨bound', hb'⟩ := stream_nil_iff pg (exportComplete_of_safe pg (db.keyed m) hsafe)
    fun _ => .hasty pg
  obtain ⟨lines, hlines, hlabel⟩ := hb (max bound bound') (by omega)
  obtain ⟨out, hout, hiff⟩ := hb' (max bound bound') (by omega)
  have hown := (compositeExport_done pg py keys hlines).2
  have hnil : memberRows pg (fun _ _ => .hasty pg) db x (max bound bound') members = [] := by
    cases hrows : memberRows pg (fun _ _ => .hasty pg) db x (max bound bound') members with
    | nil => rfl
    | cons pair pairs =>
      rw [hrows] at hlabel hown
      obtain ⟨line, lines', hl, -, rfl⟩ := List.forall₂_cons_left_iff.mp hlabel
      obtain ⟨line', lines'', hl', -, heq⟩ := List.forall₂_cons_left_iff.mp hown
      cases heq
      have hid := hl.1.symm.trans hl'
      exact absurd (Json.str.inj hid) (formatCompositeItemId_ne _ _)
  have hm' := List.flatMap_eq_nil_iff.mp hnil m hm
  rw [hout] at hm'
  exact ⟨hsafe, hiff.mp (List.map_eq_nil_iff.mp hm')⟩

/-- The export is right exactly when there is nothing to export: no member has a matching row (and
no conjunct raises on a row). -/
theorem composite_export_iff (db : Database) (x : Export N) (members : List CollectionId) :
    CompositeExportRight pg py keys db x members ↔
      ∀ m ∈ members, Safe pg x.clauses (db.rows m) ∧ matching pg x.clauses (db.rows m) = [] := by
  refine ⟨nothing_of_right pg py keys, fun h ch => ?_⟩
  obtain ⟨bound, hb⟩ := streams_nil pg ch db x members h
  refine ⟨bound, fun fuel hf => ?_⟩
  obtain ⟨h1, h2⟩ := compositeExport_nil pg py keys (hb fuel hf)
  exact ⟨[], h1, h2 ▸ .nil⟩

/-- One member with one feature, exported without filters. -/
def wholeExport : Export Nat where
  bbox := none
  datetimeStart := none
  datetimeEnd := none
  propertyFilters := []
  structuredFilters := []
  fulltextQ := none
  batchSize := 2000

/-- Python's readers play no part: the elements are rows. -/
def samplePy : Py where
  loads _ := none
  dumps _ := []
  str _ := []

/-- The one feature of the member `m` is exported under the id `c`, not `m:c`. -/
theorem one_feature_mislabelled :
    ¬ CompositeExportRight samplePg samplePy none (oneFeature ['m']) wholeExport [['m']] := by
  intro h
  have hnone := (nothing_of_right samplePg samplePy none h ['m'] (by simp)).2
  have hone : matching samplePg wholeExport.clauses ((oneFeature ['m']).rows ['m']) =
      [sampleRow 'c' 5] := by decide
  rw [hone] at hnone
  cases hnone

end Composite
end Geofastmap
