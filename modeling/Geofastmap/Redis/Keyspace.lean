import Geofastmap.Sql.Text

/-!
# Geofastmap.Redis.Keyspace

String keys of a Redis server: `GET`, `SET`, and the deletion of every key that
`SCAN ... MATCH pattern` reports. Keys are byte strings; they are written here as texts with one
character for each byte.

A pattern is read into atoms first (`atoms`) and the atoms are matched afterwards (`accepts`), in
the order of the server's own matcher: `*`, `?`, `[...]` with ranges and a leading `^`, and a
backslash before a character taken as it stands.

* `glob_append` : a text without special characters matches itself at the head of a pattern.
* `get_sweep`   : what a read returns after a sweep.
-/

namespace Geofastmap
namespace Redis

/-! ## Patterns -/

inductive Atom where
  | star
  | any
  | oneOf (negated : Bool) (ranges : List (Char × Char))
  | lit (ch : Char)
deriving DecidableEq, Repr

/-- The class that `[` opened, while its end is not read yet. -/
abbrev OpenClass := Option (Bool × List (Char × Char))

/-- A range of a class, whichever end is written first. -/
def range (a b : Char) : Char × Char := if a ≤ b then (a, b) else (b, a)

/-- Reads a pattern. A class that is never closed ends with the pattern. -/
def atoms : OpenClass → Text → List Atom
  | none, [] => []
  | none, '*' :: p => .star :: atoms none p
  | none, '?' :: p => .any :: atoms none p
  | none, '[' :: '^' :: p => atoms (some (true, [])) p
  | none, '[' :: p => atoms (some (false, [])) p
  | none, '\\' :: ch :: p => .lit ch :: atoms none p
  | none, ch :: p => .lit ch :: atoms none p
  | some (neg, rs), [] => [.oneOf neg rs]
  | some (neg, rs), '\\' :: ch :: p => atoms (some (neg, (ch, ch) :: rs)) p
  | some (neg, rs), ']' :: p => .oneOf neg rs :: atoms none p
  | some (neg, rs), a :: '-' :: b :: p => atoms (some (neg, range a b :: rs)) p
  | some (neg, rs), a :: p => atoms (some (neg, (a, a) :: rs)) p

/-- Whether an atom other than `*` takes this character. -/
def Atom.takes : Atom → Char → Bool
  | .star, _ => true
  | .any, _ => true
  | .oneOf neg rs, ch => (rs.any fun r => r.1 ≤ ch && ch ≤ r.2) != neg
  | .lit a, ch => a == ch

def accepts : List Atom → Text → Bool
  | [], s => s.isEmpty
  | .star :: p, s => s.tails.any (accepts p)
  | a :: p, ch :: s => a.takes ch && accepts p s
  | _ :: _, [] => false

/-- Whether a key matches a pattern. -/
def glob (pattern key : Text) : Bool := accepts (atoms none pattern) key

/-- Characters that stand for themselves in a pattern. -/
def Plain (s : Text) : Prop := ∀ ch ∈ s, ch ≠ '*' ∧ ch ≠ '?' ∧ ch ≠ '[' ∧ ch ≠ '\\'

instance (s : Text) : Decidable (Plain s) := List.decidableBAll _ s

theorem atoms_plain {h : Text} (hh : Plain h) (p : Text) :
    atoms none (h ++ p) = h.map .lit ++ atoms none p := by
  induction h with
  | nil => rfl
  | cons ch h ih =>
    obtain ⟨h1, h2, h3, h4⟩ := hh ch (by simp)
    have ih := ih fun x hx => hh x (by simp [hx])
    rw [List.cons_append, List.map_cons, List.cons_append, ← ih]
    simp [atoms, h3, h4]

theorem accepts_lits (h : Text) (p : List Atom) (s : Text) :
    accepts (h.map .lit ++ p) s = true ↔ ∃ t, s = h ++ t ∧ accepts p t = true := by
  induction h generalizing s with
  | nil => simp
  | cons ch h ih =>
    cases s with
    | nil => simp [accepts]
    | cons x s =>
      simp only [List.map_cons, List.cons_append, accepts, Atom.takes, Bool.and_eq_true, beq_iff_eq,
        ih, List.cons.injEq]
      constructor
      · rintro ⟨rfl, t, rfl, ht⟩
        exact ⟨t, ⟨rfl, rfl⟩, ht⟩
      · rintro ⟨t, ⟨rfl, rfl⟩, ht⟩
        exact ⟨rfl, t, rfl, ht⟩

theorem glob_plain {h : Text} (hh : Plain h) (p s : Text) :
    glob (h ++ p) s = true ↔ ∃ t, s = h ++ t ∧ glob p t = true := by
  unfold glob
  rw [atoms_plain hh, accepts_lits]

/-- A head of a pattern without special characters is matched by itself. -/
theorem glob_append {h : Text} (hh : Plain h) (p s : Text) :
    glob (h ++ p) (h ++ s) = glob p s := by
  rw [Bool.eq_iff_iff, glob_plain hh]
  constructor
  · rintro ⟨t, ht, hp⟩
    rw [List.append_cancel_left ht]
    exact hp
  · intro hp
    exact ⟨s, rfl, hp⟩

/-- Heads that part before either of them ends do not match. -/
theorem glob_other {h h' : Text} (hh : Plain h) (h1 : ¬h <+: h') (h2 : ¬h' <+: h) (p s : Text) :
    glob (h ++ p) (h' ++ s) = false := by
  rw [Bool.eq_false_iff]
  intro hg
  obtain ⟨t, ht, -⟩ := (glob_plain hh p (h' ++ s)).mp hg
  have hp : h <+: h' ++ s := ⟨t, ht.symm⟩
  rcases List.prefix_or_prefix_of_prefix hp (List.prefix_append h' s) with hc | hc
  · exact h1 hc
  · exact h2 hc

theorem glob_star (s : Text) : glob ['*'] s = true := by
  have : ([] : Text) ∈ s.tails := by simp
  exact List.any_eq_true.mpr ⟨[], this, rfl⟩

/-! ## The keyspace -/

/-- The string keys of the server with their values. -/
abbrev Keyspace (V : Type) := List (Text × V)

namespace Keyspace

variable {V : Type}

/-- `GET key`. -/
def get (ks : Keyspace V) (key : Text) : Option V := (ks.find? (·.1 == key)).map (·.2)

/-- `SET key value`. -/
def set (ks : Keyspace V) (key : Text) (value : V) : Keyspace V :=
  (key, value) :: ks.filter (·.1 != key)

/-- `DEL` of every key that a full `SCAN ... MATCH pattern` reports. -/
def sweep (ks : Keyspace V) (pattern : Text) : Keyspace V :=
  ks.filter fun e => !glob pattern e.1

@[simp] theorem get_nil (key : Text) : get ([] : Keyspace V) key = none := rfl

theorem get_filter (ks : Keyspace V) (f : Text → Bool) (key : Text) :
    get (ks.filter fun e => f e.1) key = if f key then get ks key else none := by
  induction ks with
  | nil => simp
  | cons e ks ih =>
    by_cases he : e.1 = key
    · subst he
      by_cases hf : f e.1 = true
      · simp [get, hf]
      · simp only [List.filter_cons, hf, Bool.false_eq_true, if_false, ih]
    · have hcons (l : Keyspace V) : get (e :: l) key = get l key := by simp [get, he]
      rw [List.filter_cons, hcons ks]
      split
      · rw [hcons, ih]
      · exact ih

theorem get_set (ks : Keyspace V) (key : Text) (value : V) (k : Text) :
    get (ks.set key value) k = if k = key then some value else get ks k := by
  by_cases hk : k = key
  · simp [set, get, hk]
  · have hne : ¬key = k := fun h => hk h.symm
    have : get (ks.set key value) k = get (ks.filter (·.1 != key)) k := by
      simp [set, get, hne]
    rw [this, get_filter ks (· != key) k]
    simp [hk]

theorem get_sweep (ks : Keyspace V) (pattern key : Text) :
    get (ks.sweep pattern) key = if glob pattern key then none else get ks key := by
  unfold sweep
  rw [get_filter ks (fun k => !glob pattern k) key]
  cases glob pattern key <;> rfl

end Keyspace
end Redis
end Geofastmap
