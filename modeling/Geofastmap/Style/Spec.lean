import Mathlib.Algebra.Order.Field.Rat
import Mathlib.Data.Prod.Lex
import Mathlib.Order.WithBot
import Geofastmap.Style.Numbers

/-!
# Geofastmap.Style.Spec

`normalize_raster_style_spec` (`raster_style_spec.py`): the style of a raster is checked and brought
into the form in which it is stored. Colours and classes come as JSON values or as texts of them,
and every pixel value becomes a text.

An error is a `RasterStyleSpecError` or anything else that Python raises on the way.
-/

namespace Geofastmap
namespace Style

open Import (Raised)

/-- A JSON value as Python has it. -/
inductive Value (F : Type) where
  | null
  | bool (b : Bool)
  | int (n : Int)
  | float (x : FloatValue F)
  | str (s : Text)
  | arr (items : List (Value F))
  | obj (members : List (Text × Value F))

abbrev Members (F : Type) := List (Text × Value F)

/-- `json.loads` raises a `JSONDecodeError`, or something else: a number is too long, or the nesting
too deep. -/
inductive LoadsError where
  | decode (message : Text)
  | other (e : Raised)

/-- What the code asks of Python's library. -/
structure Python extends Floats where
  loads : Text → Except LoadsError (Value Finite)
  /-- `str(x)` of a list or a mapping, or what it raises. -/
  containerStr : Value Finite → Except Raised Text
  /-- `repr(x)`. -/
  repr : Value Finite → Text

inductive Exn where
  /-- `RasterStyleSpecError` -/
  | style (message : Text)
  | other (e : Raised)

def refuse {α : Type} (message : String) : Except Exn α := .error (.style message.toList)

/-- The `ValueError` of `str(n)`. -/
def tooManyDigits : Exn :=
  .other ("ValueError".toList, ("Exceeds the limit (4300 digits) for integer string conversion; " ++
    "use sys.set_int_max_str_digits() to increase the limit").toList)

variable (py : Python)

/-! ## Single values -/

def typeName : Value py.Finite → Text
  | .null => "NoneType".toList
  | .bool _ => "bool".toList
  | .int _ => "int".toList
  | .float _ => "float".toList
  | .str _ => "str".toList
  | .arr _ => "list".toList
  | .obj _ => "dict".toList

/-- `bool(x)`. -/
def truthy : Value py.Finite → Bool
  | .null => false
  | .bool b => b
  | .int n => n ≠ 0
  | .float (.finite x) => py.value x ≠ 0
  | .float (.inf _) => true
  | .float .nan => true
  | .str s => !s.isEmpty
  | .arr items => !items.isEmpty
  | .obj members => !members.isEmpty

def printInt (n : Int) : Except Exn Text :=
  match strInt n with
  | some s => .ok s
  | none => .error tooManyDigits

/-- `str(x)`. -/
def strOf : Value py.Finite → Except Exn Text
  | .null => .ok "None".toList
  | .bool b => .ok (if b then "True".toList else "False".toList)
  | .int n => printInt n
  | .float (.finite x) => .ok (py.str x)
  | .float (.inf negative) => .ok (if negative then "-inf".toList else "inf".toList)
  | .float .nan => .ok "nan".toList
  | .str s => .ok s
  | .arr items => (py.containerStr (.arr items)).mapError .other
  | .obj members => (py.containerStr (.obj members)).mapError .other

/-- `_normalize_pixel_value_key`. -/
def normalizePixelValueKey : Value py.Finite → Except Exn Text
  | .bool _ => refuse "Boolean pixel values are not allowed"
  | .int n => printInt n
  | .float (.finite x) =>
    if (py.value x).den = 1 then printInt (py.value x).num else .ok (py.str x)
  | .float (.inf _) => refuse "Invalid pixel value"
  | .float .nan => refuse "Invalid pixel value"
  | .str s =>
    if (strip s).isEmpty then refuse "Empty pixel value key" else .ok (strip s)
  | raw => .error (.style ("Invalid pixel value type: ".toList ++ typeName py raw))

/-- `parse_nodata_value`; `none` is `None`. -/
def parseNodataValue : Value py.Finite → Except Exn (Option (Value py.Finite))
  | .null => .ok none
  | .bool _ => refuse "nodata cannot be a boolean"
  | .int n => .ok (some (.int n))
  | .float (.finite x) => .ok (some (.float (.finite x)))
  | .float (.inf _) => refuse "Invalid nodata value"
  | .float .nan => refuse "Invalid nodata value"
  | .str raw =>
    let s := strip raw
    if s.isEmpty then .ok none
    else if '.' ∈ s ∨ 'e' ∈ Sql.lower s then
      match py.parse s with
      | some x => .ok (some (.float x))
      | none => .ok (some (.str s))
    else
      match intOf s with
      | some n => .ok (some (.int n))
      | none => .ok (some (.str s))
  | raw => .error (.style ("Invalid nodata type: ".toList ++ typeName py raw))

def isHexDigit (ch : Char) : Bool :=
  ch.isDigit || ('A' ≤ ch && ch ≤ 'F') || ('a' ≤ ch && ch ≤ 'f')

/-- `_HEX_COLOR_RE`, of a text that does not end with a line break. -/
def isHexColor : Text → Bool
  | '#' :: ds => (ds.length == 3 || ds.length == 6) && ds.all isHexDigit
  | _ => false

/-- `normalize_hex_color`. -/
def normalizeHexColor : Value py.Finite → Except Exn Text
  | .str raw =>
    let s := strip raw
    if !isHexColor s then .error (.style ("Invalid hex color: ".toList ++ py.repr (.str raw)))
    else if s.length = 4 then .ok ('#' :: (s.tail.map Char.toUpper).flatMap fun ch => [ch, ch])
    else .ok ('#' :: s.tail.map Char.toUpper)
  | _ => refuse "Color must be a hex string"

/-! ## Colours and classes -/

/-- `_parse_json_input`. -/
def parseJsonInput (raw : Value py.Finite) (fieldName : String) : Except Exn (Value py.Finite) :=
  match raw with
  | .str s =>
    if (strip s).isEmpty then .ok .null
    else
      match py.loads (strip s) with
      | .ok v => .ok v
      | .error (.decode e) =>
        .error (.style (fieldName.toList ++ ": invalid JSON (".toList ++ e ++ [')']))
      | .error (.other e) => .error (.other e)
  | raw => .ok raw

abbrev Colormap := List (Text × Text)

def parseColormapEntries : Members py.Finite → Colormap → Except Exn Colormap
  | [], out => .ok out
  | (k, v) :: members, out => do
    let key ← normalizePixelValueKey py (.str k)
    if (out.lookup key).isSome then
      .error (.style ("Duplicate pixel value in colormap: ".toList ++ key))
    else
      let color ← normalizeHexColor py v
      parseColormapEntries members (out ++ [(key, color)])

/-- `_parse_colormap_dict`. -/
def parseColormapDict : Value py.Finite → Except Exn Colormap
  | .null => .ok []
  | .obj members => parseColormapEntries py members []
  | _ => refuse "Colormap must be a JSON object (value → hex color)"

structure ClassEntry where
  value : Text
  name : Text
  color : Text
deriving DecidableEq, Repr

/-- `d.get(key)`. -/
def get {F : Type} (members : Members F) (key : String) : Value F :=
  (members.lookup key.toList).getD .null

/-- `f"classes[{label}] {rest}"`. -/
def classError {α : Type} (label : Text) (rest : String) : Except Exn α :=
  .error (.style ("classes[".toList ++ label ++ "] ".toList ++ rest.toList))

/-- The name of a class. -/
def className (label : Text) (item : Members py.Finite) : Except Exn Text :=
  match get item "name" with
  | .str s =>
    if (strip s).isEmpty then classError label "missing or empty name"
    else .ok (strip s)
  | _ => classError label "missing or empty name"

/-- The colour of a class. -/
def classColor (label : Text) (item : Members py.Finite) : Except Exn Text :=
  match get item "color" with
  | .null => classError label "missing color"
  | raw => normalizeHexColor py raw

def parseClassBody (label value : Text) (item : Members py.Finite) : Except Exn ClassEntry := do
  let name ← className py label item
  let color ← classColor py label item
  return ⟨value, name, color⟩

/-- An element of a list of classes. -/
def parseClassItem (i : Nat) : Value py.Finite → Except Exn ClassEntry
  | .obj item =>
    match item.lookup "value".toList with
    | none => classError (Sql.digits i) "missing value"
    | some raw => do
      let value ← normalizePixelValueKey py raw
      parseClassBody py (Sql.digits i) value item
  | _ => classError (Sql.digits i) "must be an object"

/-- A member of a mapping of classes. -/
def parseClassMember (member : Text × Value py.Finite) : Except Exn ClassEntry := do
  let value ← normalizePixelValueKey py (.str member.1)
  match member.2 with
  | .obj item => parseClassBody py value value item
  | _ => classError value "must be an object"

/-- `_parse_classes_list`. -/
def parseClassesList : Value py.Finite → Except Exn (List ClassEntry)
  | .null => .ok []
  | .arr items => items.zipIdx.mapM fun item => parseClassItem py item.2 item.1
  | .obj members => members.mapM (parseClassMember py)
  | _ => refuse "classes must be a JSON array or object"

/-- The loop that brings the colours of the classes into the colormap. -/
def mergeClasses : List ClassEntry → Colormap → Except Exn (Colormap × List ClassEntry)
  | [], colormap => .ok (colormap, [])
  | entry :: classes, colormap =>
    match colormap.lookup entry.value with
    | none => do
      let (colormap, classes) ← mergeClasses classes (colormap ++ [(entry.value, entry.color)])
      return (colormap, entry :: classes)
    | some color =>
      if color.map Char.toUpper ≠ entry.color.map Char.toUpper then
        .error (.style ("Color mismatch for value ".toList ++ entry.value ++ ": colormap has ".toList ++
          color ++ ", class has ".toList ++ entry.color))
      else do
        let (colormap, classes) ← mergeClasses classes colormap
        return (colormap, { entry with color := color } :: classes)

/-! ## The order of the classes -/

/-- A number, one of the infinities, or nothing. -/
abbrev Rank := WithBot (WithTop ℚ)

/-- Texts that are no number come last. -/
abbrev SortKey := Bool ×ₗ Rank ×ₗ Text

/-- Where a float stands. NaN has no place of its own; no text with a point is one. -/
def rank : FloatValue py.Finite → Rank
  | .finite x => ((py.value x : WithTop ℚ) : Rank)
  | .inf negative => if negative then ⊥ else ((⊤ : WithTop ℚ) : Rank)
  | .nan => ((⊤ : WithTop ℚ) : Rank)

def numberKey (r : Rank) (v : Text) : SortKey := toLex (false, toLex (r, v))

def textKey (v : Text) : SortKey := toLex (true, toLex (⊥, v))

/-- `_sort_key`. -/
def sortKey (v : Text) : Except Exn SortKey :=
  if '.' ∈ v then
    match py.parse v with
    | some x => .ok (numberKey (rank py x) v)
    | none => .ok (textKey v)
  else
    match intOf v with
    | some n =>
      match py.ofInt n with
      | some x => .ok (numberKey (rank py (.finite x)) v)
      | none => .error (.other ("OverflowError".toList, "int too large to convert to float".toList))
    | none => .ok (textKey v)

/-- `sorted(classes, key=_sort_key)`. -/
def sortClasses (classes : List ClassEntry) : Except Exn (List ClassEntry) := do
  let keyed ← classes.mapM fun entry => do
    let key ← sortKey py entry.value
    return (key, entry)
  return (keyed.insertionSort fun a b => a.1 ≤ b.1).map Prod.snd

/-- `MAX_CLASSIFICATION_ENTRIES`. -/
def maxClassificationEntries : Nat := 256

/-- `parse_classification_inputs` up to the check of the number of entries. -/
def collectInputs (colormapRaw classesRaw : Value py.Finite) :
    Except Exn (Colormap × List ClassEntry) := do
  let colormap ← parseColormapDict py (← parseJsonInput py colormapRaw "colormap")
  let classes ← parseClassesList py (← parseJsonInput py classesRaw "classes")
  if colormap.isEmpty && classes.isEmpty then
    refuse "Classification style requires colormap and/or classes JSON"
  else
    let (colormap, classes) ← mergeClasses classes colormap
    if maxClassificationEntries < colormap.length then
      refuse "Too many classification entries (max 256)"
    else return (colormap, classes)

/-- The classes of a style; without any, each colour is one with its value for a name. -/
def classesOr (colormap : Colormap) (classes : List ClassEntry) : List ClassEntry :=
  if classes.isEmpty then colormap.map fun c => ⟨c.1, c.1, c.2⟩ else classes

/-- `parse_classification_inputs`. -/
def parseClassificationInputs (colormapRaw classesRaw : Value py.Finite) :
    Except Exn (Colormap × List ClassEntry) := do
  let (colormap, classes) ← collectInputs py colormapRaw classesRaw
  let sorted ← sortClasses py (classesOr colormap classes)
  return (colormap, sorted)

/-! ## The whole style -/

def colormapValue (colormap : Colormap) : Value py.Finite :=
  .obj (colormap.map fun c => (c.1, .str c.2))

def classValue (entry : ClassEntry) : Value py.Finite :=
  .obj [("value".toList, .str entry.value), ("name".toList, .str entry.name),
    ("color".toList, .str entry.color)]

def classesValue (classes : List ClassEntry) : Value py.Finite :=
  .arr (classes.map (classValue py))

/-- The texts of a list of bands that are not blank. -/
def bandTexts : List (Value py.Finite) → Except Exn (List Text)
  | [] => .ok []
  | .null :: items => bandTexts items
  | item :: items => do
    let s ← strOf py item
    let rest ← bandTexts items
    return if (strip s).isEmpty then rest else s :: rest

def orFirstBand (bands : List Text) : List Text := if bands.isEmpty then ["1".toList] else bands

/-- `bidx_list`. -/
def bidxList : Value py.Finite → Except Exn (List Text)
  | .null => .ok ["1".toList]
  | .arr items => do
    let bands ← bandTexts py items
    return orFirstBand bands
  | bidx => do
    let s ← strOf py bidx
    return orFirstBand (if (strip s).isEmpty then [] else [strip s])

/-- `str(asset).strip()` of an asset that is there and not blank. -/
def assetText : Value py.Finite → Except Exn (Option Text)
  | .null => .ok none
  | asset => do
    let s ← strOf py asset
    return if (strip s).isEmpty then none else some (strip s)

/-- The members of a classification style. -/
def styleMembers (colormap : Colormap) (classes : List ClassEntry) (bidx : List Text)
    (asset : Option Text) (nodata : Option (Value py.Finite)) : Members py.Finite :=
  [("style_type".toList, .str "classification".toList),
    ("colormap".toList, colormapValue py colormap),
    ("colormap_type".toList, .str "explicit".toList),
    ("classes".toList, classesValue py classes),
    ("bidx".toList, .arr (bidx.map .str))] ++
  (asset.map fun s => ("asset".toList, .str s)).toList ++
  (nodata.map fun v => ("nodata".toList, v)).toList

/-- `build_classification_style_spec`. -/
def buildClassificationStyleSpec (base : Members py.Finite)
    (colormapRaw classesRaw : Value py.Finite) : Except Exn (Members py.Finite) := do
  let (colormap, classes) ← parseClassificationInputs py colormapRaw classesRaw
  let bidx ← bidxList py (get base "bidx")
  let asset ← assetText py (get base "asset")
  let nodata ← parseNodataValue py (get base "nodata")
  return styleMembers py colormap classes bidx asset nodata

/-- `(spec.get("style_type") or "continuous").strip().lower()`. -/
def styleType (spec : Members py.Finite) : Except Exn Text :=
  let raw := get spec "style_type"
  if truthy py raw then
    match raw with
    | .str s => .ok (Sql.lower (strip s))
    | raw => .error (.other ("AttributeError".toList,
        ['\''] ++ typeName py raw ++ "' object has no attribute 'strip'".toList))
  else .ok "continuous".toList

/-- `out["nodata"] = nodata`, or `out.pop("nodata", None)`. -/
def setNodata (nodata : Option (Value py.Finite)) (spec : Members py.Finite) : Members py.Finite :=
  match nodata with
  | none => spec.filter (·.1 != "nodata".toList)
  | some v => spec.map fun p => if p.1 = "nodata".toList then (p.1, v) else p

def isNull : Value py.Finite → Bool
  | .null => true
  | _ => false

/-- `normalize_raster_style_spec` of a mapping. -/
def normalizeRasterStyleSpec (spec : Members py.Finite) : Except Exn (Members py.Finite) := do
  if spec.isEmpty then return []
  else
    let styleType ← styleType py spec
    if styleType ≠ "continuous".toList ∧ styleType ≠ "classification".toList then
      .error (.style ("Unknown style_type: ".toList ++ py.repr (.str styleType)))
    else if styleType ≠ "classification".toList then
      let nodata ← parseNodataValue py (get spec "nodata")
      return setNodata py nodata spec
    else if !isNull py (get spec "colormap") || !isNull py (get spec "classes") then
      let (colormap, classes) ← parseClassificationInputs py (get spec "colormap") (get spec "classes")
      buildClassificationStyleSpec py
        [("asset".toList, get spec "asset"), ("bidx".toList, get spec "bidx"),
          ("nodata".toList, get spec "nodata")]
        (colormapValue py colormap) (classesValue py classes)
    else refuse "Classification style_spec requires colormap and/or classes"

end Style
end Geofastmap
