import Geofastmap.Sql.Text

/-!
# Geofastmap.Import.Json

JSON values as Python holds them: what `orjson.loads` returns, `dict(...)` of a value and
`json.dumps` of a mapping.
-/

namespace Geofastmap
namespace Import

/-- A number is the text that Python prints for it; the keys of an object are different. -/
inductive Json where
  | null
  | bool (b : Bool)
  | num (text : Text)
  | str (s : Text)
  | arr (items : List Json)
  | obj (members : List (Text × Json))

/-- The class and the text of an exception. -/
abbrev Raised := Text × Text

/-! ## Members -/

/-- `d[key] = value`. -/
def setKey (members : List (Text × Json)) (key : Text) (value : Json) : List (Text × Json) :=
  if members.any (·.1 == key) then
    members.map fun kv => if kv.1 == key then (key, value) else kv
  else members ++ [(key, value)]

theorem setKey_ne_nil (members : List (Text × Json)) (key : Text) (value : Json) :
    setKey members key value ≠ [] := by
  unfold setKey
  split
  next h =>
    obtain ⟨m, hm, -⟩ := List.any_eq_true.mp h
    exact List.ne_nil_of_mem (List.mem_map_of_mem hm)
  next => simp

theorem lookup_replace (props : List (Text × Json)) (key k : Text) (value : Json) :
    (props.map fun kv => if kv.1 == key then (key, value) else kv).lookup k =
      if k = key then (if props.any (·.1 == key) then some value else none)
      else props.lookup k := by
  induction props with
  | nil => simp
  | cons p ps ih =>
    obtain ⟨k', v⟩ := p
    rw [List.map_cons, List.lookup_cons, List.lookup_cons]
    by_cases hk' : k' = key
    · subst hk'
      by_cases hk : k = k'
      · simp [hk]
      · have hne : (k == k') = false := by simpa using hk
        simp only [beq_self_eq_true, if_true, hne, ih, if_neg hk]
    · have hne : (k' == key) = false := by simpa using hk'
      by_cases hk : k = key
      · subst hk
        have hne' : (k == k') = false := by simpa using Ne.symm hk'
        simp only [hne, hne', Bool.false_eq_true, if_false, ih, if_true, List.any_cons,
          Bool.false_or]
      · simp only [hne, Bool.false_eq_true, if_false, ih, if_neg hk]

theorem lookup_eq_none_iff {props : List (Text × Json)} {key : Text} :
    props.lookup key = none ↔ props.any (·.1 == key) = false := by
  rw [List.lookup_eq_none_iff, List.any_eq_false]
  constructor
  · intro h p hp
    have hne := h p hp
    simp only [beq_iff_eq, bne_iff_ne, ne_eq] at hne ⊢
    exact fun he => hne he.symm
  · intro h p hp
    have hne := h p hp
    simp only [beq_iff_eq, bne_iff_ne, ne_eq] at hne ⊢
    exact fun he => hne he.symm

theorem lookup_setKey (props : List (Text × Json)) (key k : Text) (value : Json) :
    (setKey props key value).lookup k = if k = key then some value else props.lookup k := by
  unfold setKey
  split
  · rename_i hany
    rw [lookup_replace, if_pos hany]
  · rename_i hany
    rw [Bool.not_eq_true] at hany
    rw [List.lookup_append, List.lookup_cons, List.lookup_nil]
    by_cases hk : k = key
    · subst hk
      simp [lookup_eq_none_iff.mpr hany]
    · have hne : (k == key) = false := by simpa using hk
      simp [hne, hk]

theorem setKey_setKey (props : List (Text × Json)) (key : Text) (value value' : Json) :
    setKey (setKey props key value) key value' = setKey props key value' := by
  by_cases hany : props.any (·.1 == key) = true
  · have hstill : (props.map fun kv => if kv.1 == key then (key, value) else kv).any
        (·.1 == key) = true := by
      obtain ⟨kv, hkv, hkey⟩ := List.any_eq_true.mp hany
      exact List.any_eq_true.mpr ⟨_, List.mem_map_of_mem hkv, by simp [hkey]⟩
    simp only [setKey, hany, if_true, hstill, List.map_map]
    refine List.map_congr_left fun kv _ => ?_
    by_cases hkey : kv.1 = key <;> simp [hkey]
  · have hkept : (props.map fun kv => if kv.1 = key then (key, value') else kv) = props := by
      refine (List.map_congr_left fun kv hkv => if_neg fun h => hany ?_).trans (List.map_id props)
      exact List.any_eq_true.mpr ⟨kv, hkv, by simpa using h⟩
    simp [setKey, hany, hkept]

namespace Json

/-- `d.get(key)`. -/
def get (members : List (Text × Json)) (key : Text) : Json := (members.lookup key).getD .null

theorem get_setKey (members : List (Text × Json)) (key k : Text) (value : Json) :
    get (setKey members key value) k = if k = key then value else get members k := by
  unfold get
  rw [lookup_setKey]
  split <;> rfl

/-- `bool(x)`. -/
def truthy : Json → Bool
  | .null => false
  | .bool b => b
  | .num text => ! (["0", "0.0", "-0.0"].any fun zero => text == zero.toList)
  | .str s => !s.isEmpty
  | .arr items => !items.isEmpty
  | .obj members => !members.isEmpty

/-- The text under which `json.dumps` writes a key; a list or a mapping is no key. -/
def keyText : Json → Option Text
  | .null => some "null".toList
  | .bool b => some (if b then "true".toList else "false".toList)
  | .num text => some text
  | .str s => some s
  | .arr _ => none
  | .obj _ => none

def unhashable : Raised := ("TypeError".toList, "unhashable type".toList)

def badLength (i n : Nat) : Raised :=
  ("ValueError".toList, "dictionary update sequence element #".toList ++ Sql.digits i ++
    " has length ".toList ++ Sql.digits n ++ "; 2 is required".toList)

/-- An element of the sequence that `dict(...)` is given. -/
def pair (i : Nat) : Json → Except Raised (Text × Json)
  | .arr [k, v] =>
    match k.keyText with
    | some key => .ok (key, v)
    | none => .error unhashable
  | .arr items => .error (badLength i items.length)
  | .str [k, v] => .ok ([k], .str [v])
  | .str s => .error (badLength i s.length)
  | .obj [(k, _), (v, _)] => .ok (k, .str v)
  | .obj members => .error (badLength i members.length)
  | .null | .bool _ | .num _ =>
    .error ("TypeError".toList, "cannot convert dictionary update sequence element #".toList ++
      Sql.digits i ++ " to a sequence".toList)

def pairs (i : Nat) : List Json → Except Raised (List (Text × Json))
  | [] => .ok []
  | x :: xs => do
    let p ← pair i x
    let ps ← pairs (i + 1) xs
    return p :: ps

/-- `dict(x or {})`. -/
def dict (x : Json) : Except Raised (List (Text × Json)) :=
  if x.truthy then
    match x with
    | .obj members => .ok members
    | .arr items => (pairs 0 items).map fun ps => ps.foldl (fun d kv => setKey d kv.1 kv.2) []
    | .str _ => .error (badLength 0 1)
    | .null | .bool _ | .num _ =>
      .error ("TypeError".toList, "object is not iterable".toList)
  else .ok []

theorem foldl_setKey_ne_nil {ps members : List (Text × Json)} (h : members ≠ []) :
    ps.foldl (fun d kv => setKey d kv.1 kv.2) members ≠ [] := by
  induction ps generalizing members with
  | nil => exact h
  | cons p ps ih => exact ih (setKey_ne_nil members p.1 p.2)

/-- Only what is false or empty is a mapping without members. -/
theorem dict_nil {x : Json} (h : x.dict = .ok []) : x.truthy = false := by
  by_contra hx
  rw [Bool.not_eq_false] at hx
  unfold dict at h
  rw [if_pos hx] at h
  cases x with
  | obj members =>
    cases h
    cases hx
  | arr items =>
    cases items with
    | nil => cases hx
    | cons x xs =>
      simp only [pairs] at h
      cases hp : pair 0 x with
      | error e => rw [hp] at h; cases h
      | ok p =>
        cases hps : pairs 1 xs with
        | error e => rw [hp, Nat.zero_add, hps] at h; cases h
        | ok ps =>
          rw [hp, Nat.zero_add, hps] at h
          exact foldl_setKey_ne_nil (setKey_ne_nil [] p.1 p.2) (Except.ok.inj h)
  | str s => cases h
  | _ => cases h

theorem dict_of_falsy {x : Json} (h : x.truthy = false) : x.dict = .ok [] := by
  unfold dict
  rw [if_neg (by simp [h])]

/-! ## `json.dumps` -/

def hexDigit (n : Nat) : Char := "0123456789abcdef".toList.getD n '0'

/-- `\uXXXX`. -/
def unicodeEscape (n : Nat) : Text :=
  '\\' :: 'u' :: [n / 4096, n / 256 % 16, n / 16 % 16, n % 16].map hexDigit

def escapeChar (ch : Char) : Text :=
  if ch = '"' then "\\\"".toList
  else if ch = '\\' then "\\\\".toList
  else if ch = '\n' then "\\n".toList
  else if ch = '\r' then "\\r".toList
  else if ch = '\t' then "\\t".toList
  else if ch.toNat = 8 then "\\b".toList
  else if ch.toNat = 12 then "\\f".toList
  else if 32 ≤ ch.toNat ∧ ch.toNat ≤ 126 then [ch]
  else if ch.toNat < 65536 then unicodeEscape ch.toNat
  else
    unicodeEscape (55296 + (ch.toNat - 65536) / 1024) ++
      unicodeEscape (56320 + (ch.toNat - 65536) % 1024)

def dumpsStr (s : Text) : Text := '"' :: s.flatMap escapeChar ++ ['"']

mutual

def dumps : Json → Text
  | .null => "null".toList
  | .bool b => if b then "true".toList else "false".toList
  | .num text => text
  | .str s => dumpsStr s
  | .arr items => '[' :: dumpsItems items ++ [']']
  | .obj members => '\x7b' :: dumpsMembers members ++ ['\x7d']

def dumpsItems : List Json → Text
  | [] => []
  | [x] => dumps x
  | x :: xs => dumps x ++ ", ".toList ++ dumpsItems xs

def dumpsMembers : List (Text × Json) → Text
  | [] => []
  | [(k, v)] => dumpsStr k ++ ": ".toList ++ dumps v
  | (k, v) :: ms => dumpsStr k ++ ": ".toList ++ dumps v ++ ", ".toList ++ dumpsMembers ms

end

end Json

end Import
end Geofastmap
