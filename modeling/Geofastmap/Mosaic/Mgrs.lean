import Geofastmap.Mosaic.Collect

/-!
# Geofastmap.Mosaic.Mgrs

The Sentinel-2 tile of an item, two digits and three letters, from its properties or from its id
(`mgrs_tile_from_feature`), and from a saved row that has the tile of the item but not its
properties (`_mgrs_tile_from_saved_item`).

* `mgrsTileFromSavedItem_eq` : a row saved with the tile of an item gives that tile again.
-/

namespace Geofastmap
namespace Mosaic

open Import Stac

/-! ## Characters -/

/-- The zeros of the scripts that have decimal digits. -/
def decimalZeros : List Nat :=
  [0x30, 0x660, 0x6f0, 0x7c0, 0x966, 0x9e6, 0xa66, 0xae6, 0xb66, 0xbe6, 0xc66, 0xce6, 0xd66, 0xde6,
    0xe50, 0xed0, 0xf20, 0x1040, 0x1090, 0x17e0, 0x1810, 0x1946, 0x19d0, 0x1a80, 0x1a90, 0x1b50,
    0x1bb0, 0x1c40, 0x1c50, 0xa620, 0xa8d0, 0xa900, 0xa9d0, 0xa9f0, 0xaa50, 0xabf0, 0xff10, 0x104a0,
    0x10d30, 0x11066, 0x110f0, 0x11136, 0x111d0, 0x112f0, 0x11450, 0x114d0, 0x11650, 0x116c0,
    0x11730, 0x118e0, 0x11950, 0x11c50, 0x11d50, 0x11da0, 0x11f50, 0x16a60, 0x16ac0, 0x16b50,
    0x1d7ce, 0x1d7d8, 0x1d7e2, 0x1d7ec, 0x1d7f6, 0x1e140, 0x1e2f0, 0x1e4f0, 0x1e950, 0x1fbf0]

/-- `\d`. -/
def isDecimal (ch : Char) : Bool := decimalZeros.any fun z => z ≤ ch.toNat && ch.toNat < z + 10

/-- `[A-Z]` where the case is ignored: four letters outside ASCII have an ASCII letter as a case. -/
def isLetter (ch : Char) : Bool :=
  ch.isAlpha || ['\u0130', '\u0131', '\u017F', '\u212A'].contains ch

/-- The letters outside ASCII whose upper case has an ASCII letter. -/
def asciiUppers : List (Char × Text) :=
  [('\u00DF', ['S', 'S']), ('\u0131', ['I']), ('\u0149', ['\u02BC', 'N']), ('\u017F', ['S']),
    ('\u01F0', ['J', '\u030C']), ('\u1E96', ['H', '\u0331']), ('\u1E97', ['T', '\u0308']),
    ('\u1E98', ['W', '\u030A']), ('\u1E99', ['Y', '\u030A']), ('\u1E9A', ['A', '\u02BE']),
    ('\uFB00', ['F', 'F']), ('\uFB01', ['F', 'I']), ('\uFB02', ['F', 'L']),
    ('\uFB03', ['F', 'F', 'I']), ('\uFB04', ['F', 'F', 'L']), ('\uFB05', ['S', 'T']),
    ('\uFB06', ['S', 'T'])]

/-- `s.upper()`, as far as a search for ASCII words can see it. -/
def upper (s : Text) : Text := s.flatMap fun ch => (asciiUppers.lookup ch).getD [ch.toUpper]

/-! ## Tiles -/

/-- `_MGRS_5.match(s)`, of a text that does not end with a line break. -/
def mgrs5 : Text → Bool
  | [a, b, c, d, e] => isDecimal a && isDecimal b && c.isUpper && d.isUpper && e.isUpper
  | _ => false

/-- `(\d{2}[A-Z]{3})_` at the beginning of a text, where the case is ignored. -/
def tileAt : Text → Option Text
  | a :: b :: c :: d :: e :: '_' :: _ =>
    if isDecimal a && isDecimal b && isLetter c && isLetter d && isLetter e then some [a, b, c, d, e]
    else none
  | _ => none

/-- `_RE_TILE_T.search(s)`. -/
def reTileT (s : Text) : Option Text :=
  s.tails.findSome? fun
    | '_' :: ch :: t => if ch = 'T' ∨ ch = 't' then tileAt t else none
    | _ => none

/-- `S2[AB]_(\d{2}[A-Z]{3})_` at the beginning of a text. -/
def s2abAt : Text → Option Text
  | s :: '2' :: ab :: '_' :: t =>
    if ['S', 's', '\u017F'].contains s && ['A', 'a', 'B', 'b'].contains ab then tileAt t else none
  | _ => none

/-- `_RE_TILE_S2AB.search(s)`. -/
def reTileS2ab (s : Text) : Option Text :=
  (s2abAt s).or (s.tails.findSome? fun
    | '_' :: t => s2abAt t
    | _ => none)

/-- `mgrs_tile_from_stac_item_id`. -/
def mgrsTileFromStacItemId (itemId : Text) : Option Text :=
  (((reTileT (strip itemId)).or (reTileS2ab (strip itemId))).map upper).filter mgrs5

/-- A tile from the text of a property, or from a part of it between underscores and blanks. -/
def mgrsTileFromText (v : Text) : Option Text :=
  let raw := upper (strip v)
  if mgrs5 raw then some raw
  else (raw.splitOnP fun ch => ch == '_' || isSpace ch).find? mgrs5

/-- `mgrs_tile_from_feature`. -/
def mgrsTileFromFeature (f : Item) : Option Text :=
  (["mgrs_tile", "s2:mgrs_tile", "MGRS_TILE", "sentinel:mgrs_tile", "s2:granule_id"].findSome?
    fun key => match f.property key with
      | .str v => mgrsTileFromText v
      | _ => none).or (f.id.bind mgrsTileFromStacItemId)

/-- A selected image as it is saved with a mosaic. -/
structure SavedItem where
  key : Option Text
  catalogId : Json
  stacCollectionId : Json
  stacItemId : Option Text
  id : Option Text
  href : Option Text
  thumbnail : Option Text
  cloudCover : Option Rat
  footprint : Option Dict
  mgrsTile : Option Text
  properties : Option Dict

/-- `a or b`. -/
def orText (a b : Option Text) : Option Text := (a.filter fun s => !s.isEmpty).or b

/-- `_mgrs_tile_from_saved_item`. -/
def mgrsTileFromSavedItem (it : SavedItem) : Option Text :=
  (it.mgrsTile.bind fun v =>
    let x := upper (strip v)
    if mgrs5 x then some x else none).or
  (mgrsTileFromFeature ⟨orText it.stacItemId it.id, none, it.properties, []⟩)

/-! ## A saved tile is read back -/

theorem isDecimal_iff {ch : Char} :
    isDecimal ch = true ↔ ∃ z ∈ decimalZeros, ∃ k < 10, ch.toNat = z + k := by
  simp only [isDecimal, List.any_eq_true, Bool.and_eq_true, decide_eq_true_eq]
  constructor
  · rintro ⟨z, hz, hle, hlt⟩
    exact ⟨z, hz, ch.toNat - z, by omega, by omega⟩
  · rintro ⟨z, hz, k, hk, hch⟩
    exact ⟨z, hz, by omega, by omega⟩

theorem isDecimal_isSpace {ch : Char} (h : isDecimal ch = true) : isSpace ch = false := by
  obtain ⟨z, hz, k, hk, hch⟩ := isDecimal_iff.mp h
  have hfar : ∀ z ∈ decimalZeros, z = 0x30 ∨ (0x660 ≤ z ∧ z + 10 ≤ 0x1680) ∨
      (0x1680 < z ∧ z + 10 ≤ 0x2000) ∨ 0x3000 < z := by decide
  have hz := hfar z hz
  simp [isSpace, hch]
  omega

theorem isUpper_iff {ch : Char} : ch.isUpper = true ↔ 65 ≤ ch.toNat ∧ ch.toNat ≤ 90 := by
  change decide (65 ≤ ch.val ∧ ch.val ≤ 90) = true ↔ _
  simp [UInt32.le_iff_toNat_le]

/-- A character of a tile is no lower case letter. -/
theorem not_lower_of_tile {ch : Char} (h : isDecimal ch = true ∨ ch.isUpper = true) :
    ¬ (97 ≤ ch.toNat ∧ ch.toNat ≤ 122) := by
  rcases h with h | h
  · obtain ⟨z, hz, k, hk, hch⟩ := isDecimal_iff.mp h
    have hfar : ∀ z ∈ decimalZeros, z = 0x30 ∨ 0x660 ≤ z := by decide
    have hz := hfar z hz
    omega
  · have hrange := isUpper_iff.mp h
    omega

/-- A character of a tile is no blank. -/
theorem isSpace_of_tile {ch : Char} (h : isDecimal ch = true ∨ ch.isUpper = true) :
    isSpace ch = false := by
  rcases h with h | h
  · exact isDecimal_isSpace h
  · have hrange := isUpper_iff.mp h
    simp [isSpace]
    omega

/-- A character of a tile is its own upper case. -/
theorem upper_of_tile {ch : Char} (h : isDecimal ch = true ∨ ch.isUpper = true) :
    (asciiUppers.lookup ch).getD [ch.toUpper] = [ch] := by
  have htoUpper : ch.toUpper = ch := by
    unfold Char.toUpper
    exact dif_neg (not_lower_of_tile h)
  have hnone : asciiUppers.lookup ch = none := by
    rw [List.lookup_eq_none_iff]
    intro p hp
    have hkeys : ∀ p ∈ asciiUppers, isDecimal p.1 = false ∧ p.1.isUpper = false := by decide
    obtain ⟨hdecimal, hupper⟩ := hkeys p hp
    rw [bne_iff_ne]
    rintro rfl
    simp [hdecimal, hupper] at h
  rw [hnone, Option.getD_none, htoUpper]

theorem mgrs5_iff {s : Text} : mgrs5 s = true ↔ ∃ a b c d e, s = [a, b, c, d, e] ∧
    isDecimal a = true ∧ isDecimal b = true ∧ c.isUpper = true ∧ d.isUpper = true ∧
    e.isUpper = true := by
  unfold mgrs5
  split
  · simp [and_assoc]
  next hlen =>
    constructor
    · intro h
      cases h
    · rintro ⟨a, b, c, d, e, rfl, -⟩
      exact (hlen a b c d e rfl).elim

theorem strip_upper_of_mgrs5 {s : Text} (h : mgrs5 s = true) : upper (strip s) = s := by
  obtain ⟨a, b, c, d, e, rfl, ha, hb, hc, hd, he⟩ := mgrs5_iff.mp h
  simp [strip, upper, isSpace_of_tile, upper_of_tile, ha, hb, hc, hd, he]

theorem mgrsTileFromFeature_mgrs5 {f : Item} {t : Text} (h : mgrsTileFromFeature f = some t) :
    mgrs5 t = true := by
  unfold mgrsTileFromFeature at h
  rcases Option.or_eq_some_iff.mp h with h | ⟨-, h⟩
  · obtain ⟨key, -, hkey⟩ := List.exists_of_findSome?_eq_some h
    split at hkey
    · dsimp only [mgrsTileFromText] at hkey
      split at hkey
      · cases hkey
        assumption
      · exact List.find?_some hkey
    · cases hkey
  · obtain ⟨i, -, hi⟩ := Option.bind_eq_some_iff.mp h
    exact (Option.filter_eq_some_iff.mp hi).2

/-- Without its properties, an item without a tile has none. -/
theorem mgrsTileFromFeature_none {f : Item} (h : mgrsTileFromFeature f = none) :
    mgrsTileFromFeature ⟨orText f.id none, none, none, []⟩ = none := by
  unfold mgrsTileFromFeature at h
  have hid := (Option.or_eq_none_iff.mp h).2
  have hnone : (orText f.id none).bind mgrsTileFromStacItemId = none := by
    rw [Option.bind_eq_none_iff]
    intro i hi
    unfold orText at hi
    rw [Option.or_none] at hi
    exact Option.bind_eq_none_iff.mp hid i (Option.filter_eq_some_iff.mp hi).1
  simp [mgrsTileFromFeature, Item.property, Json.get, hnone]

theorem mgrsTileFromSavedItem_eq {f : Item} {it : SavedItem}
    (hid : it.stacItemId = f.id) (hother : it.id = none) (hprops : it.properties = none)
    (htile : it.mgrsTile = mgrsTileFromFeature f) :
    mgrsTileFromSavedItem it = mgrsTileFromFeature f := by
  unfold mgrsTileFromSavedItem
  rw [htile, hid, hother, hprops]
  cases ht : mgrsTileFromFeature f with
  | none => simp [mgrsTileFromFeature_none ht]
  | some t =>
    have hmgrs := mgrsTileFromFeature_mgrs5 ht
    simp [strip_upper_of_mgrs5 hmgrs, hmgrs]

example : mgrsTileFromStacItemId "S2A_23KNS_20250810_0_L2A".toList = some "23KNS".toList := by
  decide

end Mosaic
end Geofastmap
