import Geofastmap.Sql.Text

/-!
# Geofastmap.Sql.Like

`s LIKE p ESCAPE '\'` and globs: two languages of patterns over texts. `likeEscape` decides the
first one, with backtracking at each `%`.
-/

namespace Geofastmap
namespace Sql

/-! ## `LIKE` with an escape character -/

/-- `%` is any text, `_` any one character, and a character after a backslash stands for itself. A
pattern that ends with the backslash has no meaning. -/
inductive LikeMatches : Text → Text → Prop where
  | nil : LikeMatches [] []
  | percent {p s : Text} (u : Text) : LikeMatches p s → LikeMatches ('%' :: p) (u ++ s)
  | underscore {p s : Text} (x : Char) : LikeMatches p s → LikeMatches ('_' :: p) (x :: s)
  | escaped {p s : Text} (x : Char) : LikeMatches p s → LikeMatches ('\\' :: x :: p) (x :: s)
  | char {p s : Text} {x : Char} : x ≠ '%' → x ≠ '_' → x ≠ '\\' → LikeMatches p s →
      LikeMatches (x :: p) (x :: s)

/-- The pattern does not end with a backslash that escapes nothing. -/
def finished : Text → Bool
  | [] => true
  | ['\\'] => false
  | '\\' :: _ :: p => finished p
  | _ :: p => finished p

def likeEscape : Text → Text → Bool
  | [], s => s.isEmpty
  | '%' :: p, s => s.tails.any fun t => likeEscape p t
  | '_' :: p, s =>
    match s with
    | [] => false
    | _ :: s => likeEscape p s
  | ['\\'], _ => false
  | '\\' :: x :: p, s =>
    match s with
    | [] => false
    | y :: s => x == y && likeEscape p s
  | x :: p, s =>
    match s with
    | [] => false
    | y :: s => x == y && likeEscape p s

/-- Where the match of a text comes to the pattern: at its beginning, or behind a `%`, anywhere. -/
def places (wild : Bool) (s : Text) : List Text := if wild then s.tails else [s]

/-- The matcher of PostgreSQL comes to a backslash that ends the pattern: with text left, or right
behind wildcards with a `%` among them, which it skips before it looks at the text. -/
def reachesEscape : Bool → Text → Text → Bool
  | _, [], _ => false
  | wild, '%' :: p, s => (wild || !s.isEmpty) && reachesEscape true p s
  | wild, '_' :: p, s =>
    match s with
    | [] => false
    | _ :: s => reachesEscape wild p s
  | wild, ['\\'], s => wild || !s.isEmpty
  | wild, '\\' :: x :: p, s => (places wild s).any fun t =>
    match t with
    | [] => false
    | y :: t => x == y && reachesEscape false p t
  | wild, x :: p, s => (places wild s).any fun t =>
    match t with
    | [] => false
    | y :: t => x == y && reachesEscape false p t

theorem reachesEscape_finished {p : Text} (h : finished p = true) :
    ∀ wild s, reachesEscape wild p s = false := by
  fun_induction finished p with
  | case1 => exact fun _ _ => rfl
  | case2 => cases h
  | case3 x p ih =>
    intro wild s
    have hrest := ih h false
    simp only [reachesEscape, List.any_eq_false]
    intro t _
    cases t with
    | nil => simp
    | cons y t => simp [hrest]
  | case4 x p hlast hmore ih =>
    intro wild s
    have hrest := ih h
    by_cases hpercent : x = '%'
    · subst hpercent
      simp [reachesEscape, hrest]
    by_cases hone : x = '_'
    · subst hone
      cases s <;> simp [reachesEscape, hrest]
    · have hplain : reachesEscape wild (x :: p) s = (places wild s).any fun t =>
          match t with
          | [] => false
          | y :: t => x == y && reachesEscape false p t := by
        rw [reachesEscape] <;> simp_all
      rw [hplain, List.any_eq_false]
      intro t _
      cases t with
      | nil => simp
      | cons y t => simp [hrest]

theorem likeMatches_nil {s : Text} : LikeMatches [] s ↔ s = [] := by
  constructor
  · intro h
    cases h
    rfl
  · rintro rfl
    exact .nil

theorem likeMatches_percent {p s : Text} :
    LikeMatches ('%' :: p) s ↔ ∃ u t, s = u ++ t ∧ LikeMatches p t := by
  constructor
  · intro h
    cases h with
    | percent u h => exact ⟨u, _, rfl, h⟩
    | char hne => exact absurd rfl hne
  · rintro ⟨u, t, rfl, h⟩
    exact .percent u h

theorem likeMatches_underscore {p s : Text} :
    LikeMatches ('_' :: p) s ↔ ∃ y t, s = y :: t ∧ LikeMatches p t := by
  constructor
  · intro h
    cases h with
    | underscore y h => exact ⟨y, _, rfl, h⟩
    | char _ hne => exact absurd rfl hne
  · rintro ⟨y, t, rfl, h⟩
    exact .underscore y h

theorem likeMatches_escaped {x : Char} {p s : Text} :
    LikeMatches ('\\' :: x :: p) s ↔ ∃ t, s = x :: t ∧ LikeMatches p t := by
  constructor
  · intro h
    cases h with
    | escaped _ h => exact ⟨_, rfl, h⟩
    | char _ _ hne => exact absurd rfl hne
  · rintro ⟨t, rfl, h⟩
    exact .escaped x h

theorem likeMatches_char {x : Char} (h1 : x ≠ '%') (h2 : x ≠ '_') (h3 : x ≠ '\\') {p s : Text} :
    LikeMatches (x :: p) s ↔ ∃ t, s = x :: t ∧ LikeMatches p t := by
  constructor
  · intro h
    cases h with
    | percent => exact absurd rfl h1
    | underscore => exact absurd rfl h2
    | escaped => exact absurd rfl h3
    | char _ _ _ h => exact ⟨_, rfl, h⟩
  · rintro ⟨t, rfl, h⟩
    exact .char h1 h2 h3 h

/-- What is neither at the end nor before a character is no escape. -/
theorem not_escape {x : Char} {p : Text} (hend : x = '\\' → p = [] → False)
    (hmore : ∀ y q, x = '\\' → p = y :: q → False) : x ≠ '\\' := by
  intro hx
  cases p with
  | nil => exact hend hx rfl
  | cons y q => exact hmore y q hx rfl

theorem likeEscape_iff (p s : Text) : likeEscape p s = true ↔ LikeMatches p s := by
  fun_induction likeEscape p s with
  | case1 s => rw [List.isEmpty_iff, likeMatches_nil]
  | case2 p s ih =>
    simp only [List.any_eq_true, ih, likeMatches_percent, List.mem_tails]
    constructor
    · rintro ⟨t, ⟨u, rfl⟩, h⟩
      exact ⟨u, t, rfl, h⟩
    · rintro ⟨u, t, rfl, h⟩
      exact ⟨t, List.suffix_append u t, h⟩
  | case3 p => simp [likeMatches_underscore]
  | case4 p y s ih => simp [likeMatches_underscore, ih]
  | case5 s =>
    constructor
    · intro h
      cases h
    · intro h
      cases h with
      | char _ _ hne => exact absurd rfl hne
  | case6 x p => simp [likeMatches_escaped]
  | case7 x p y s ih =>
    rw [Bool.and_eq_true, beq_iff_eq, ih, likeMatches_escaped]
    constructor
    · rintro ⟨rfl, h⟩
      exact ⟨s, rfl, h⟩
    · rintro ⟨t, heq, h⟩
      cases heq
      exact ⟨rfl, h⟩
  | case8 x p h1 h2 h3 h4 =>
    have hx : x ≠ '\\' := not_escape h3 h4
    simp [likeMatches_char h1 h2 hx]
  | case9 x p h1 h2 h3 h4 y s ih =>
    have hx : x ≠ '\\' := not_escape h3 h4
    rw [Bool.and_eq_true, beq_iff_eq, ih, likeMatches_char h1 h2 hx]
    constructor
    · rintro ⟨rfl, h⟩
      exact ⟨s, rfl, h⟩
    · rintro ⟨t, heq, h⟩
      cases heq
      exact ⟨rfl, h⟩

/-! ## Globs -/

/-- `*` is any text, and every other character stands for itself. -/
inductive GlobMatches : Text → Text → Prop where
  | nil : GlobMatches [] []
  | star {v s : Text} (u : Text) : GlobMatches v s → GlobMatches ('*' :: v) (u ++ s)
  | char {v s : Text} {x : Char} : x ≠ '*' → GlobMatches v s → GlobMatches (x :: v) (x :: s)

theorem globMatches_nil {s : Text} : GlobMatches [] s ↔ s = [] := by
  constructor
  · intro h
    cases h
    rfl
  · rintro rfl
    exact .nil

theorem globMatches_star {v s : Text} :
    GlobMatches ('*' :: v) s ↔ ∃ u t, s = u ++ t ∧ GlobMatches v t := by
  constructor
  · intro h
    cases h with
    | star u h => exact ⟨u, _, rfl, h⟩
    | char hne => exact absurd rfl hne
  · rintro ⟨u, t, rfl, h⟩
    exact .star u h

theorem globMatches_char {x : Char} (hx : x ≠ '*') {v s : Text} :
    GlobMatches (x :: v) s ↔ ∃ t, s = x :: t ∧ GlobMatches v t := by
  constructor
  · intro h
    cases h with
    | star => exact absurd rfl hx
    | char _ h => exact ⟨_, rfl, h⟩
  · rintro ⟨t, rfl, h⟩
    exact .char hx h

/-- A glob without a star is the text itself. -/
theorem globMatches_plain {v : Text} (h : '*' ∉ v) (s : Text) : GlobMatches v s ↔ s = v := by
  induction v generalizing s with
  | nil => exact globMatches_nil
  | cons x v ih =>
    rw [List.mem_cons, not_or] at h
    obtain ⟨hx, hv⟩ := h
    rw [globMatches_char (Ne.symm hx)]
    constructor
    · rintro ⟨t, rfl, ht⟩
      rw [(ih hv t).mp ht]
    · rintro rfl
      exact ⟨v, rfl, (ih hv v).mpr rfl⟩

end Sql
end Geofastmap
