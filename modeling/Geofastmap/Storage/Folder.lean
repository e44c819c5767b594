import Mathlib.Algebra.GroupWithZero.Nat
import Mathlib.Data.List.Nodup
import Mathlib.Data.List.TakeWhile

/-!
# Geofastmap.Storage.Folder

Directories with the sizes of the files in them. A `Folder` knows its entries by name, and of a
directory in it all files below, by their paths from there. Empty directories hold no file and are
not kept apart from absent ones below the first level.

`fileAt_unlink`, `dir_unlink`, `dir_rmtree`, `fileAt_rmtree` : what a removal leaves.
-/

namespace Geofastmap
namespace Folders

/-! ## Tables with one entry a key -/

section Lookup
variable {α β γ : Type} [BEq α] [LawfulBEq α] {l : List (α × β)}

theorem lookup_iff (hl : (l.map Prod.fst).Nodup) {k : α} {v : β} :
    l.lookup k = some v ↔ (k, v) ∈ l := by
  induction l with
  | nil => simp
  | cons e l ih =>
    rw [List.map_cons, List.nodup_cons] at hl
    rw [List.lookup_cons, List.mem_cons]
    by_cases hk : k = e.1
    · subst hk
      have hout : (e.1, v) ∉ l := fun h => hl.1 (List.mem_map.mpr ⟨_, h, rfl⟩)
      simp [hout, Prod.ext_iff, eq_comm]
    · have hne : (k, v) ≠ e := fun h => hk (congrArg Prod.fst h)
      simp only [beq_false_of_ne hk, hne, ih hl.2, false_or]

theorem lookup_filter (hl : (l.map Prod.fst).Nodup) (p : α × β → Bool) (k : α) :
    (l.filter p).lookup k = (l.lookup k).filter fun v => p (k, v) := by
  have hfilter := hl.sublist (List.filter_sublist (p := p) |>.map Prod.fst)
  refine Option.ext fun v => ?_
  rw [lookup_iff hfilter, List.mem_filter, Option.filter_eq_some_iff, lookup_iff hl]

theorem lookup_map (g : α → β → γ) (k : α) :
    (l.map fun e => (e.1, g e.1 e.2)).lookup k = (l.lookup k).map (g k) := by
  induction l with
  | nil => rfl
  | cons e l ih =>
    rw [List.map_cons, List.lookup_cons, List.lookup_cons]
    by_cases hk : k = e.1
    · subst hk
      simp
    · simp only [beq_false_of_ne hk, ih]

end Lookup

/-! ## Directories -/

abbrev Path := List Char

structure Tree where
  files : List (Path × Nat)
  nodup : (files.map Prod.fst).Nodup

def Tree.size (t : Tree) : Nat := (t.files.map Prod.snd).sum

def Tree.file (t : Tree) (path : Path) : Option Nat := t.files.lookup path

/-- There is a file or a directory at the path. -/
def Tree.has (t : Tree) (path : Path) : Bool :=
  t.files.any fun e => e.1 = path || (path ++ ['/']).isPrefixOf e.1

def Tree.unlink (t : Tree) (path : Path) : Tree where
  files := t.files.filter fun e => e.1 ≠ path
  nodup := t.nodup.sublist (List.filter_sublist.map _)

theorem Tree.file_unlink (t : Tree) (path x : Path) :
    (t.unlink path).file x = if x = path then none else t.file x := by
  unfold Tree.file Tree.unlink
  rw [lookup_filter t.nodup]
  by_cases hx : x = path
  · simp [hx]
  · cases List.lookup x t.files <;> simp [hx, Option.filter_some]

inductive Node where
  | file (size : Nat)
  | dir (tree : Tree)

def Node.size? : Node → Option Nat
  | .file size => some size
  | .dir _ => none

def Node.tree? : Node → Option Tree
  | .file _ => none
  | .dir tree => some tree

def Node.mapTree (f : Tree → Tree) : Node → Node
  | .file size => .file size
  | .dir tree => .dir (f tree)

structure Folder where
  entries : List (Path × Node)
  nodup : (entries.map Prod.fst).Nodup
  names : ∀ e ∈ entries, '/' ∉ e.1

/-- The name a path begins with, and what follows the slash after it. -/
def cut (path : Path) : Path × Option Path :=
  match path.dropWhile (· ≠ '/') with
  | [] => (path, none)
  | _ :: rest => (path.takeWhile (· ≠ '/'), some rest)

theorem cut_name {name : Path} (h : '/' ∉ name) : cut name = (name, none) := by
  have hdrop : name.dropWhile (· ≠ '/') = [] := by
    rw [List.dropWhile_eq_nil_iff]
    intro ch hch
    exact decide_eq_true fun heq => h (heq ▸ hch)
  rw [cut, hdrop]

theorem cut_append {name : Path} (h : '/' ∉ name) (rest : Path) :
    cut (name ++ '/' :: rest) = (name, some rest) := by
  have hname : ∀ ch ∈ name, decide (ch ≠ '/') = true :=
    fun ch hch => decide_eq_true fun heq => h (heq ▸ hch)
  rw [cut, List.dropWhile_append_of_pos hname, List.takeWhile_append_of_pos hname]
  simp

theorem cut_join (path : Path) :
    (cut path).1 ++ ((cut path).2.map ('/' :: ·)).getD [] = path := by
  unfold cut
  split
  · exact List.append_nil path
  · rename_i ch rest hdrop
    have hch : ch = '/' := by
      have hnot := List.head?_dropWhile_not (fun ch : Char => decide (ch ≠ '/')) path
      rw [hdrop] at hnot
      simpa using hnot
    have hpath := List.takeWhile_append_dropWhile (p := fun ch : Char => decide (ch ≠ '/'))
      (l := path)
    rw [hdrop, hch] at hpath
    exact hpath

theorem cut_injective {path x : Path} (h : cut path = cut x) : path = x := by
  rw [← cut_join path, ← cut_join x, h]

def Folder.file (f : Folder) (name : Path) : Option Nat := (f.entries.lookup name).bind Node.size?

def Folder.dir (f : Folder) (name : Path) : Option Tree := (f.entries.lookup name).bind Node.tree?

/-- The size of the file at a path. -/
def Folder.fileAt (f : Folder) (path : Path) : Option Nat :=
  match cut path with
  | (name, none) => f.file name
  | (name, some rest) => (f.dir name).bind (·.file rest)

/-- There is a file or a directory at the path. -/
def Folder.has (f : Folder) (path : Path) : Bool :=
  match cut path with
  | (name, none) => (f.entries.lookup name).isSome
  | (name, some rest) => (f.dir name).any (·.has rest)

def Folder.filter (f : Folder) (p : Path × Node → Bool) : Folder where
  entries := f.entries.filter p
  nodup := f.nodup.sublist (List.filter_sublist.map _)
  names e he := f.names e (List.mem_of_mem_filter he)

def Folder.mapTrees (f : Folder) (g : Path → Tree → Tree) : Folder where
  entries := f.entries.map fun e => (e.1, e.2.mapTree (g e.1))
  nodup := by
    rw [List.map_map]
    exact f.nodup
  names e he := by
    obtain ⟨e', he', rfl⟩ := List.mem_map.mp he
    exact f.names e' he'

/-- The file at a path is removed, and nothing when there is none. -/
def Folder.unlink (f : Folder) (path : Path) : Folder :=
  match cut path with
  | (name, none) => f.filter fun e => !(e.1 = name && e.2.size?.isSome)
  | (name, some rest) => f.mapTrees fun x t => if x = name then t.unlink rest else t

/-- The directory of a name is removed, and nothing when there is none. -/
def Folder.rmtree (f : Folder) (name : Path) : Folder :=
  f.filter fun e => !(e.1 = name && e.2.tree?.isSome)

/-! ## What a removal leaves -/

theorem Folder.file_filter (f : Folder) (p : Path × Node → Bool) (x : Path) :
    (f.filter p).file x = ((f.entries.lookup x).filter fun n => p (x, n)).bind Node.size? := by
  rw [file, filter, lookup_filter f.nodup]

theorem Folder.dir_filter (f : Folder) (p : Path × Node → Bool) (x : Path) :
    (f.filter p).dir x = ((f.entries.lookup x).filter fun n => p (x, n)).bind Node.tree? := by
  rw [dir, filter, lookup_filter f.nodup]

theorem Folder.file_mapTrees (f : Folder) (g : Path → Tree → Tree) (x : Path) :
    (f.mapTrees g).file x = f.file x := by
  rw [file, mapTrees, lookup_map (fun name (n : Node) => n.mapTree (g name)), file]
  rcases f.entries.lookup x with - | n
  · rfl
  · cases n <;> rfl

theorem Folder.dir_mapTrees (f : Folder) (g : Path → Tree → Tree) (x : Path) :
    (f.mapTrees g).dir x = (f.dir x).map (g x) := by
  rw [dir, mapTrees, lookup_map (fun name (n : Node) => n.mapTree (g name)), dir]
  rcases f.entries.lookup x with - | n
  · rfl
  · cases n <;> rfl

section Unlink
variable (f : Folder) {path name : Path}

theorem Folder.file_unlink (h : cut path = (name, none)) (x : Path) :
    (f.unlink path).file x = if x = name then none else f.file x := by
  rw [unlink, h, file_filter, file]
  rcases f.entries.lookup x with - | n
  · simp
  · cases n <;> by_cases hx : x = name <;> simp [hx, Option.filter_some, Node.size?]

theorem Folder.dir_unlink_name (h : cut path = (name, none)) (x : Path) :
    (f.unlink path).dir x = f.dir x := by
  rw [unlink, h, dir_filter, dir]
  rcases f.entries.lookup x with - | n
  · rfl
  · cases n <;> by_cases hx : x = name <;> simp [hx, Option.filter_some, Node.size?, Node.tree?]

variable {rest : Path}

theorem Folder.file_unlink_below (h : cut path = (name, some rest)) (x : Path) :
    (f.unlink path).file x = f.file x := by
  rw [unlink, h, file_mapTrees]

/-- The only directory that loses a file is the one the path leads to. -/
theorem Folder.dir_unlink (h : cut path = (name, some rest)) (x : Path) :
    (f.unlink path).dir x = if x = name then (f.dir x).map (·.unlink rest) else f.dir x := by
  rw [unlink, h, dir_mapTrees]
  by_cases hx : x = name
  · simp [hx]
  · cases f.dir x <;> simp [hx]

theorem Folder.fileAt_name (h : cut path = (name, none)) : f.fileAt path = f.file name := by
  rw [fileAt, h]

theorem Folder.fileAt_below (h : cut path = (name, some rest)) :
    f.fileAt path = (f.dir name).bind (·.file rest) := by
  rw [fileAt, h]

end Unlink

theorem Folder.fileAt_unlink (f : Folder) (path x : Path) :
    (f.unlink path).fileAt x = if x = path then none else f.fileAt x := by
  have hne {a b : Path × Option Path} (ha : cut x = a) (hb : cut path = b) (hab : a ≠ b) :
      x ≠ path := fun h => hab (ha.symm.trans ((congrArg cut h).trans hb))
  rcases hpath : cut path with ⟨name, - | rest⟩ <;> rcases hx : cut x with ⟨name', - | rest'⟩
  · rw [fileAt_name _ hx, fileAt_name _ hx, file_unlink f hpath]
    refine if_congr ⟨fun h => cut_injective ?_, fun h => ?_⟩ rfl rfl
    · rw [hx, hpath, h]
    · rw [h, hpath] at hx
      exact (Prod.mk.inj hx).1.symm
  · rw [fileAt_below _ hx, fileAt_below _ hx, dir_unlink_name f hpath,
      if_neg (hne hx hpath (by simp))]
  · rw [fileAt_name _ hx, fileAt_name _ hx, file_unlink_below f hpath,
      if_neg (hne hx hpath (by simp))]
  · rw [fileAt_below _ hx, fileAt_below _ hx, dir_unlink f hpath]
    by_cases hname : name' = name
    · have hiff : x = path ↔ rest' = rest := by
        refine ⟨fun h => ?_, fun h => cut_injective (by rw [hx, hpath, hname, h])⟩
        rw [h, hpath] at hx
        exact (Option.some.inj (Prod.mk.inj hx).2).symm
      rw [if_pos hname]
      rcases f.dir name' with - | tree
      · simp
      · simp [Tree.file_unlink, hiff]
    · rw [if_neg hname, if_neg (hne hx hpath fun h => hname (Prod.mk.inj h).1)]

theorem Folder.dir_rmtree (f : Folder) (name x : Path) :
    (f.rmtree name).dir x = if x = name then none else f.dir x := by
  rw [rmtree, dir_filter, dir]
  rcases f.entries.lookup x with - | n
  · simp
  · cases n <;> by_cases hx : x = name <;> simp [hx, Option.filter_some, Node.tree?]

theorem Folder.file_rmtree (f : Folder) (name x : Path) : (f.rmtree name).file x = f.file x := by
  rw [rmtree, file_filter, file]
  rcases f.entries.lookup x with - | n
  · rfl
  · cases n <;> by_cases hx : x = name <;> simp [hx, Option.filter_some, Node.size?, Node.tree?]

end Folders
end Geofastmap
