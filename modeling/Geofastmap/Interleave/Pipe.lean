import Mathlib.Data.List.Basic
import Mathlib.Data.List.Infix

/-!
# Geofastmap.Interleave.Pipe

Two threads and a bounded queue between them. The writer puts its items, then a mark that there are
no more, and waits until everything it has put is done; the reader takes one after the other and
handles it. Handling an item may raise, which ends the reader; the writer may be told to stop, and
it may raise.

* `Pipe.Split` : the items are those handled, those in flight and those not yet put.
* `run_length_le` : no run goes on forever.
* `Stuck.cases` : where it may end.
* `Pipe.settle` : where it does end when the writer is left alone.
-/

namespace Geofastmap
namespace Interleave

variable {α σ : Type*}

inductive Writer (α : Type*) where
  | putting (items : List α)
  | closing
  /-- Everything is put, the mark too. -/
  | joining
  | returned
  | raised

inductive Reader (α : Type*) where
  | getting
  | holding (item : Option α)
  | finished
  | dead (item : α)

structure Pipe (α σ : Type*) where
  writer : Writer α
  queue : List (Option α)
  /-- What was put and is not done. -/
  unfinished : Nat
  reader : Reader α
  acc : σ
  stopped : Bool

inductive Move where
  | write
  | stop
  | fail
  | read
deriving DecidableEq

namespace Pipe

variable (capacity : Nat) (handle : σ → α → Option σ)

def start (items : List α) (s : σ) : Pipe α σ := ⟨.putting items, [], 0, .getting, s, false⟩

/-- `put`, which waits while the queue is full. -/
def put (p : Pipe α σ) (item : Option α) (next : Writer α) : Option (Pipe α σ) :=
  if p.queue.length < capacity then
    some { p with writer := next, queue := p.queue ++ [item], unfinished := p.unfinished + 1 }
  else none

def write (p : Pipe α σ) : Option (Pipe α σ) :=
  match p.writer with
  | .putting [] => some { p with writer := .closing }
  | .putting (x :: xs) => p.put capacity (some x) (.putting xs)
  | .closing => p.put capacity none .joining
  | .joining =>
    match p.unfinished, p.reader with
    | 0, .finished => some { p with writer := .returned }
    | _, _ => none
  | .returned | .raised => none

def read (p : Pipe α σ) : Option (Pipe α σ) :=
  match p.reader with
  | .getting =>
    match p.queue with
    | [] => none
    | x :: rest => some { p with queue := rest, reader := .holding x }
  | .holding none => some { p with unfinished := p.unfinished - 1, reader := .finished }
  | .holding (some x) =>
    match handle p.acc x with
    | none => some { p with reader := .dead x }
    | some s => some { p with unfinished := p.unfinished - 1, reader := .getting, acc := s }
  | .finished | .dead _ => none

/-- Nothing happens where a thread has to wait. -/
def move (p : Pipe α σ) : Move → Option (Pipe α σ)
  | .write => p.write capacity
  | .read => p.read handle
  | .stop =>
    match p.writer with
    | .putting (_ :: _) => some { p with writer := .closing, stopped := true }
    | _ => none
  | .fail =>
    match p.writer with
    | .putting _ => some { p with writer := .raised }
    | _ => none

def run : Pipe α σ → List Move → Option (Pipe α σ)
  | p, [] => some p
  | p, m :: ms => (p.move capacity handle m).bind fun q => q.run ms

/-- Neither thread can go on. -/
def Stuck (p : Pipe α σ) : Prop := p.write capacity = none ∧ p.read handle = none

end Pipe

/-! ## What each move can do -/

namespace Pipe

variable {capacity : Nat} {handle : σ → α → Option σ} {p q : Pipe α σ}

theorem put_eq {item : Option α} {next : Writer α} (h : p.put capacity item next = some q) :
    q = { p with writer := next, queue := p.queue ++ [item], unfinished := p.unfinished + 1 } := by
  unfold put at h
  split at h
  · exact (Option.some.inj h).symm
  · cases h

/-- What the reader holds, and behind it the queue. -/
def inFlight (p : Pipe α σ) : List (Option α) :=
  match p.reader with
  | .getting | .finished => p.queue
  | .holding x => x :: p.queue
  | .dead x => some x :: p.queue

/-- The mark, as long as it is in flight. -/
def mark (p : Pipe α σ) : List (Option α) :=
  match p.writer, p.reader with
  | .joining, .getting | .joining, .holding _ | .joining, .dead _ => [none]
  | _, _ => []

/-- What the writer has not put. -/
def Todo (p : Pipe α σ) (todo : List α) : Prop :=
  match p.writer with
  | .putting items => todo = items ∧ p.stopped = false
  | .closing | .joining | .returned => p.stopped = false → todo = []
  | .raised => True

variable (handle) in
/-- The items are those handled, those in flight and those not put. -/
structure Split (items : List α) (s : σ) (p : Pipe α σ) (done sent todo : List α) : Prop where
  items : items = done ++ sent ++ todo
  acc : done.foldlM handle s = some p.acc
  unfinished : p.unfinished = p.inFlight.length
  flight : p.inFlight = sent.map some ++ p.mark
  todo : p.Todo todo
  finished : p.reader = .finished → sent = [] ∧ (p.writer = .joining ∨ p.writer = .returned)
  returned : p.writer = .returned → p.reader = .finished
  dead : ∀ x, p.reader = .dead x → handle p.acc x = none

variable {items done sent todo : List α} {s : σ}

theorem inFlight_put (p : Pipe α σ) (item : Option α) (next : Writer α) (n : Nat) :
    { p with writer := next, queue := p.queue ++ [item], unfinished := n }.inFlight =
      p.inFlight ++ [item] := by
  cases hreader : p.reader <;> simp [inFlight, hreader]

theorem mark_of_ne_joining (h : p.writer ≠ .joining) : p.mark = [] := by
  cases hwriter : p.writer <;> simp_all [mark]

/-- The mark is in flight until the reader has seen it. -/
theorem mark_joining (h : p.writer = .joining) (hreader : p.reader ≠ .finished) :
    p.mark = [none] := by
  cases hr : p.reader <;> simp_all [mark]

/-- What the reader does leaves the mark in flight, up to where it sees it. -/
theorem mark_congr (hwriter : p.writer = q.writer) (hp : p.reader ≠ .finished)
    (hq : q.reader ≠ .finished) : p.mark = q.mark := by
  by_cases hw : q.writer = .joining
  · rw [mark_joining (hwriter.trans hw) hp, mark_joining hw hq]
  · rw [mark_of_ne_joining (hwriter ▸ hw), mark_of_ne_joining hw]

theorem split_start (items : List α) (s : σ) : Split handle items s (start items s) [] [] items where
  items := rfl
  acc := rfl
  unfinished := rfl
  flight := rfl
  todo := ⟨rfl, rfl⟩
  finished := nofun
  returned := nofun
  dead := nofun

/-- A reader that has not seen the mark keeps what is not yet put to the writer. -/
theorem Split.not_finished (h : Split handle items s p done sent todo)
    (hwriter : p.writer ≠ .joining) (hreturned : p.writer ≠ .returned) : p.reader ≠ .finished := by
  intro hreader
  rcases (h.finished hreader).2 with hw | hw
  · exact hwriter hw
  · exact hreturned hw

theorem Split.write (h : Split handle items s p done sent todo) (hq : p.write capacity = some q) :
    ∃ sent todo, Split handle items s q done sent todo := by
  unfold Pipe.write at hq
  have htodo := h.todo
  cases hwriter : p.writer with
  | putting left =>
    have hnot : p.reader ≠ .finished := h.not_finished (by simp [hwriter]) (by simp [hwriter])
    have hmark : p.mark = [] := mark_of_ne_joining (by simp [hwriter])
    simp only [Todo, hwriter] at htodo
    obtain ⟨rfl, hstopped⟩ := htodo
    rw [hwriter] at hq
    cases todo with
    | nil =>
      cases hq
      refine ⟨sent, [], h.items, h.acc, h.unfinished, ?_, fun _ => rfl, ?_, nofun, h.dead⟩
      · rw [mark_of_ne_joining (by simp)]
        exact h.flight.trans (by rw [hmark])
      · exact fun hreader => absurd hreader hnot
    | cons x todo =>
      cases put_eq hq
      refine ⟨sent ++ [x], todo, ?_, h.acc, ?_, ?_, ⟨rfl, hstopped⟩, ?_, nofun, h.dead⟩
      · simp [h.items]
      · simp [inFlight_put, h.unfinished]
      · rw [inFlight_put, mark_of_ne_joining (by simp), h.flight, hmark]
        simp
      · exact fun hreader => absurd hreader hnot
  | closing =>
    have hnot : p.reader ≠ .finished := h.not_finished (by simp [hwriter]) (by simp [hwriter])
    have hmark : p.mark = [] := mark_of_ne_joining (by simp [hwriter])
    simp only [Todo, hwriter] at htodo
    rw [hwriter] at hq
    cases put_eq hq
    refine ⟨sent, todo, h.items, h.acc, ?_, ?_, htodo, ?_, nofun, h.dead⟩
    · simp [inFlight_put, h.unfinished]
    · rw [inFlight_put, h.flight, hmark, List.append_nil]
      refine congrArg (sent.map some ++ ·) (Eq.symm ?_)
      exact mark_joining (p := { p with writer := .joining, queue := _, unfinished := _ }) rfl hnot
    · exact fun hreader => absurd hreader hnot
  | joining =>
    simp only [Todo, hwriter] at htodo
    rw [hwriter] at hq
    dsimp only at hq
    split at hq
    · rename_i hunfinished hreader
      cases hq
      refine ⟨sent, todo, h.items, h.acc, h.unfinished, ?_, htodo,
        fun _ => ⟨(h.finished hreader).1, Or.inr rfl⟩, fun _ => hreader, h.dead⟩
      have hflight := h.flight
      simp only [mark, hwriter, hreader] at hflight
      simpa [mark, inFlight, hreader] using hflight
    · cases hq
  | returned =>
    rw [hwriter] at hq
    cases hq
  | raised =>
    rw [hwriter] at hq
    cases hq

theorem Split.stop (h : Split handle items s p done sent todo)
    (hq : p.move capacity handle .stop = some q) : Split handle items s q done sent todo := by
  unfold move at hq
  dsimp only at hq
  split at hq
  · rename_i x xs hwriter
    have hnot : p.reader ≠ .finished := h.not_finished (by simp [hwriter]) (by simp [hwriter])
    cases hq
    refine ⟨h.items, h.acc, h.unfinished, ?_, nofun, ?_, nofun, h.dead⟩
    · rw [mark_of_ne_joining (by simp)]
      exact h.flight.trans (by rw [mark_of_ne_joining (by simp [hwriter])])
    · exact fun hreader => absurd hreader hnot
  · cases hq

theorem Split.fail (h : Split handle items s p done sent todo)
    (hq : p.move capacity handle .fail = some q) : Split handle items s q done sent todo := by
  unfold move at hq
  dsimp only at hq
  split at hq
  · rename_i xs hwriter
    have hnot : p.reader ≠ .finished := h.not_finished (by simp [hwriter]) (by simp [hwriter])
    cases hq
    refine ⟨h.items, h.acc, h.unfinished, ?_, trivial, ?_, nofun, h.dead⟩
    · rw [mark_of_ne_joining (by simp)]
      exact h.flight.trans (by rw [mark_of_ne_joining (by simp [hwriter])])
    · exact fun hreader => absurd hreader hnot
  · cases hq

theorem Split.read (h : Split handle items s p done sent todo) (hq : p.read handle = some q) :
    ∃ done sent, Split handle items s q done sent todo := by
  unfold Pipe.read at hq
  have hflight := h.flight
  have hunfinished := h.unfinished
  cases hreader : p.reader with
  | getting =>
    rw [hreader] at hq
    dsimp only at hq
    split at hq
    · cases hq
    · rename_i x rest hqueue
      simp only [inFlight, hreader, hqueue] at hflight hunfinished
      cases hq
      refine ⟨done, sent, h.items, h.acc, hunfinished, ?_, h.todo, nofun, ?_, nofun⟩
      · exact hflight.trans (congrArg _ (mark_congr rfl (by simp [hreader]) nofun))
      · intro hwriter
        rw [h.returned hwriter] at hreader
        cases hreader
  | holding item =>
    rw [hreader] at hq
    simp only [inFlight, hreader] at hflight hunfinished
    have hwriter : p.writer ≠ .returned := fun hw => by
      rw [h.returned hw] at hreader
      cases hreader
    cases item with
    | none =>
      cases hq
      cases sent with
      | cons x sent => simp at hflight
      | nil =>
        have hjoining : p.writer = .joining := by
          by_contra hne
          rw [mark_of_ne_joining hne] at hflight
          cases hflight
        rw [mark_joining hjoining (by simp [hreader])] at hflight
        obtain ⟨-, hqueue⟩ := List.cons.inj hflight
        refine ⟨done, [], h.items, h.acc, ?_, ?_, h.todo, fun _ => ⟨rfl, Or.inl hjoining⟩,
          fun hw => absurd hw hwriter, nofun⟩
        · simp [inFlight, hqueue, hunfinished]
        · simp [inFlight, mark, hqueue, hjoining]
    | some x =>
      cases sent with
      | nil =>
        have hmark := hflight.symm
        cases hw : p.writer <;> simp [mark, hw, hreader] at hmark
      | cons x' sent =>
        obtain ⟨hx, hqueue⟩ := List.cons.inj hflight
        cases hx
        dsimp only at hq
        split at hq
        · rename_i hhandle
          cases hq
          refine ⟨done, x :: sent, h.items, h.acc, hunfinished, ?_, h.todo, nofun,
            fun hw => absurd hw hwriter, by rintro _ ⟨⟩; exact hhandle⟩
          exact hflight.trans (congrArg _ (mark_congr rfl (by simp [hreader]) nofun))
        · rename_i s' hhandle
          cases hq
          refine ⟨done ++ [x], sent, ?_, ?_, ?_, ?_, h.todo, nofun, fun hw => absurd hw hwriter,
            nofun⟩
          · simp [h.items]
          · rw [List.foldlM_append, h.acc]
            simpa using hhandle
          · simp [inFlight, hunfinished]
          · exact hqueue.trans (congrArg _ (mark_congr rfl (by simp [hreader]) nofun))
  | finished =>
    rw [hreader] at hq
    cases hq
  | dead x =>
    rw [hreader] at hq
    cases hq

theorem Split.move (h : Split handle items s p done sent todo) {m : Move}
    (hq : p.move capacity handle m = some q) :
    ∃ done sent todo, Split handle items s q done sent todo := by
  cases m with
  | write =>
    obtain ⟨sent, todo, h'⟩ := h.write hq
    exact ⟨done, sent, todo, h'⟩
  | stop => exact ⟨done, sent, todo, h.stop hq⟩
  | fail => exact ⟨done, sent, todo, h.fail hq⟩
  | read =>
    obtain ⟨done, sent, h'⟩ := h.read hq
    exact ⟨done, sent, todo, h'⟩

/-- The rule for all runs. -/
theorem Split.run {ms : List Move} (h : Split handle items s p done sent todo)
    (hq : p.run capacity handle ms = some q) :
    ∃ done sent todo, Split handle items s q done sent todo := by
  induction ms generalizing p done sent todo with
  | nil =>
    cases hq
    exact ⟨done, sent, todo, h⟩
  | cons m ms ih =>
    obtain ⟨p', hp', hrest⟩ := Option.bind_eq_some_iff.mp hq
    obtain ⟨done', sent', todo', h'⟩ := h.move hp'
    exact ih h' hrest

/-! ## Where a run ends -/

/-- A writer that has returned has had everything handled that it put. -/
theorem Split.all_done (h : Split handle items s p done sent todo) (hwriter : p.writer = .returned) :
    items = done ++ todo ∧ (p.stopped = false → todo = []) := by
  obtain ⟨rfl, -⟩ := h.finished (h.returned hwriter)
  have htodo := h.todo
  simp only [Todo, hwriter] at htodo
  exact ⟨by simpa using h.items, htodo⟩

/-- A dead reader is dead for one of the items. -/
theorem Split.foldlM_dead (h : Split handle items s p done sent todo) {x : α}
    (hreader : p.reader = .dead x) : items.foldlM handle s = none := by
  have hflight := h.flight
  simp only [inFlight, hreader] at hflight
  cases sent with
  | nil =>
    have hmark := hflight.symm
    cases hw : p.writer <;> simp [mark, hw, hreader] at hmark
  | cons y sent =>
    obtain ⟨hy, -⟩ := List.cons.inj hflight
    cases hy
    rw [h.items, List.append_assoc, List.foldlM_append, h.acc]
    simp [h.dead x hreader]

theorem put_eq_none {item : Option α} {next : Writer α} (h : p.put capacity item next = none)
    (hcap : 0 < capacity) : p.queue ≠ [] := by
  unfold put at h
  split at h
  · cases h
  · rename_i hfull
    rintro hqueue
    rw [hqueue] at hfull
    exact hfull hcap

/-- The reader waits only for the queue. -/
theorem read_eq_none (h : p.read handle = none) :
    (p.reader = .getting ∧ p.queue = []) ∨ p.reader = .finished ∨ ∃ x, p.reader = .dead x := by
  unfold Pipe.read at h
  cases hreader : p.reader with
  | getting =>
    rw [hreader] at h
    dsimp only at h
    split at h
    · rename_i hqueue
      exact Or.inl ⟨rfl, hqueue⟩
    · cases h
  | holding item =>
    rw [hreader] at h
    cases item with
    | none => cases h
    | some x =>
      dsimp only at h
      split at h <;> cases h
  | finished => exact Or.inr (Or.inl rfl)
  | dead x => exact Or.inr (Or.inr ⟨x, rfl⟩)

/-- The threads wait for each other only when one of them has raised. -/
theorem Stuck.cases (hstuck : p.Stuck capacity handle) (hcap : 0 < capacity)
    (h : Split handle items s p done sent todo) :
    p.writer = .returned ∨ (∃ x, p.reader = .dead x) ∨
      (p.writer = .raised ∧ p.reader = .getting) := by
  obtain ⟨hwrite, hread⟩ := hstuck
  rcases read_eq_none hread with ⟨hreader, hqueue⟩ | hreader | hdead
  · have hflight := h.flight
    simp only [inFlight, hreader, hqueue] at hflight
    unfold Pipe.write at hwrite
    cases hwriter : p.writer with
    | putting left =>
      rw [hwriter] at hwrite
      cases left with
      | nil => cases hwrite
      | cons x left => exact absurd hqueue (put_eq_none hwrite hcap)
    | closing =>
      rw [hwriter] at hwrite
      exact absurd hqueue (put_eq_none hwrite hcap)
    | joining =>
      rw [mark_joining hwriter (by simp [hreader])] at hflight
      simp at hflight
    | returned => exact Or.inl rfl
    | raised => exact Or.inr (Or.inr ⟨rfl, hreader⟩)
  · obtain ⟨rfl, hwriter | hwriter⟩ := h.finished hreader
    · have hflight := h.flight
      have hunfinished := h.unfinished
      simp only [inFlight, hreader, mark, hwriter] at hflight hunfinished
      rw [hflight] at hunfinished
      simp only [Pipe.write, hwriter, hreader, hunfinished] at hwrite
      cases hwrite
    · exact Or.inl hwriter
  · exact Or.inr (Or.inl hdead)

/-! ## No run goes on forever -/

def Writer.weight : Writer α → Nat
  | .putting items => 3 * items.length + 5
  | .closing => 4
  | .joining => 1
  | .returned | .raised => 0

def Reader.weight : Reader α → Nat
  | .holding _ => 1
  | .getting | .finished | .dead _ => 0

def size (p : Pipe α σ) : Nat :=
  Writer.weight p.writer + 2 * p.queue.length + Reader.weight p.reader

theorem write_size (h : p.write capacity = some q) : q.size < p.size := by
  unfold Pipe.write at h
  cases hwriter : p.writer with
  | putting items =>
    rw [hwriter] at h
    cases items with
    | nil =>
      cases h
      simp [size, hwriter, Writer.weight]
    | cons x xs =>
      cases put_eq h
      simp only [size, hwriter, Writer.weight, List.length_append, List.length_cons, List.length_nil]
      omega
  | closing =>
    rw [hwriter] at h
    cases put_eq h
    simp only [size, hwriter, Writer.weight, List.length_append, List.length_cons, List.length_nil]
    omega
  | joining =>
    rw [hwriter] at h
    dsimp only at h
    split at h
    · cases h
      simp [size, hwriter, Writer.weight]
    · cases h
  | returned =>
    rw [hwriter] at h
    cases h
  | raised =>
    rw [hwriter] at h
    cases h

theorem read_size (h : p.read handle = some q) : q.size < p.size := by
  unfold Pipe.read at h
  cases hreader : p.reader with
  | getting =>
    rw [hreader] at h
    dsimp only at h
    split at h
    · cases h
    · rename_i x rest hqueue
      cases h
      simp only [size, hreader, hqueue, Reader.weight, List.length_cons]
      omega
  | holding item =>
    rw [hreader] at h
    cases item with
    | none =>
      cases h
      simp [size, hreader, Reader.weight]
    | some x =>
      dsimp only at h
      split at h
      · cases h
        simp [size, hreader, Reader.weight]
      · cases h
        simp [size, hreader, Reader.weight]
  | finished =>
    rw [hreader] at h
    cases h
  | dead x =>
    rw [hreader] at h
    cases h

theorem move_size {m : Move} (h : p.move capacity handle m = some q) : q.size < p.size := by
  cases m with
  | write => exact write_size h
  | read => exact read_size h
  | stop =>
    unfold move at h
    dsimp only at h
    split at h
    · rename_i x xs hwriter
      cases h
      simp only [size, hwriter, Writer.weight]
      omega
    · cases h
  | fail =>
    unfold move at h
    dsimp only at h
    split at h
    · rename_i xs hwriter
      cases h
      simp only [size, hwriter, Writer.weight]
      omega
    · cases h

theorem run_size {ms : List Move} (h : p.run capacity handle ms = some q) :
    ms.length + q.size ≤ p.size := by
  induction ms generalizing p with
  | nil =>
    cases h
    simp
  | cons m ms ih =>
    obtain ⟨p', hp', hrest⟩ := Option.bind_eq_some_iff.mp h
    have hlt := move_size hp'
    have hle := ih hrest
    rw [List.length_cons]
    omega

theorem run_length_le {ms : List Move} (h : (start items s).run capacity handle ms = some p) :
    ms.length ≤ 3 * items.length + 5 := by
  have hle := run_size h
  simp only [size, start, Writer.weight, Reader.weight, List.length_nil] at hle
  omega

/-! ## A writer that is left alone -/

theorem move_alone {m : Move} (hm : m = .write ∨ m = .read) (h : p.move capacity handle m = some q)
    (hwriter : p.writer ≠ .raised) (hstopped : p.stopped = false) :
    q.writer ≠ .raised ∧ q.stopped = false := by
  rcases hm with rfl | rfl
  · simp only [move, Pipe.write] at h
    split at h
    · cases h
      exact ⟨nofun, hstopped⟩
    · cases put_eq h
      exact ⟨nofun, hstopped⟩
    · cases put_eq h
      exact ⟨nofun, hstopped⟩
    · split at h
      · cases h
        exact ⟨nofun, hstopped⟩
      · cases h
    · cases h
    · cases h
  · simp only [move, Pipe.read] at h
    split at h
    · split at h
      · cases h
      · cases h
        exact ⟨hwriter, hstopped⟩
    · cases h
      exact ⟨hwriter, hstopped⟩
    · split at h
      · cases h
        exact ⟨hwriter, hstopped⟩
      · cases h
        exact ⟨hwriter, hstopped⟩
    · cases h
    · cases h

theorem run_alone {ms : List Move} (hms : ∀ m ∈ ms, m = .write ∨ m = .read)
    (h : p.run capacity handle ms = some q) (hwriter : p.writer ≠ .raised)
    (hstopped : p.stopped = false) : q.writer ≠ .raised ∧ q.stopped = false := by
  induction ms generalizing p with
  | nil =>
    cases h
    exact ⟨hwriter, hstopped⟩
  | cons m ms ih =>
    obtain ⟨p', hp', hrest⟩ := Option.bind_eq_some_iff.mp h
    obtain ⟨hw, hs⟩ := move_alone (hms m List.mem_cons_self) hp' hwriter hstopped
    exact ih (fun m' hm' => hms m' (List.mem_cons_of_mem m hm')) hrest hw hs

/-- The threads can always be run to where neither can go on. -/
theorem exists_stuck (capacity : Nat) (handle : σ → α → Option σ) (p : Pipe α σ) :
    ∃ (ms : List Move) (q : Pipe α σ), (∀ m ∈ ms, m = .write ∨ m = .read) ∧
      p.run capacity handle ms = some q ∧ q.Stuck capacity handle := by
  induction hn : p.size using Nat.strong_induction_on generalizing p with
  | _ n ih =>
    have hgo : ∀ (m : Move) (p' : Pipe α σ), (m = .write ∨ m = .read) →
        p.move capacity handle m = some p' → ∃ (ms : List Move) (q : Pipe α σ),
          (∀ m ∈ ms, m = .write ∨ m = .read) ∧ p.run capacity handle ms = some q ∧
            q.Stuck capacity handle := by
      intro m p' hm hp'
      obtain ⟨ms, q, hms, hq, hstuck⟩ := ih p'.size (hn ▸ move_size hp') p' rfl
      exact ⟨m :: ms, q, List.forall_mem_cons.mpr ⟨hm, hms⟩,
        Option.bind_eq_some_iff.mpr ⟨p', hp', hq⟩, hstuck⟩
    cases hwrite : p.write capacity with
    | some p' => exact hgo .write p' (Or.inl rfl) hwrite
    | none =>
      cases hread : p.read handle with
      | some p' => exact hgo .read p' (Or.inr rfl) hread
      | none => exact ⟨[], p, nofun, rfl, hwrite, hread⟩

/-- Without a stop or a failure, a run that can go no further has returned with every item handled,
or, when handling one raises, hangs. -/
theorem settle (hcap : 0 < capacity) {ms : List Move} (hms : ∀ m ∈ ms, m = .write ∨ m = .read)
    (h : (start items s).run capacity handle ms = some p) (hstuck : p.Stuck capacity handle) :
    (items.foldlM handle s = some p.acc ∧ p.writer = .returned) ∨
      (items.foldlM handle s = none ∧ p.writer ≠ .returned) := by
  obtain ⟨done, sent, todo, hsplit⟩ := (split_start items s).run h
  obtain ⟨hraised, hstopped⟩ := run_alone hms h nofun rfl
  rcases hstuck.cases hcap hsplit with hwriter | ⟨x, hdead⟩ | ⟨hwriter, -⟩
  · obtain ⟨hitems, htodo⟩ := hsplit.all_done hwriter
    rw [htodo hstopped, List.append_nil] at hitems
    exact Or.inl ⟨hitems ▸ hsplit.acc, hwriter⟩
  · refine Or.inr ⟨hsplit.foldlM_dead hdead, fun hwriter => ?_⟩
    rw [hsplit.returned hwriter] at hdead
    cases hdead
  · exact absurd hwriter hraised

end Pipe
end Interleave
end Geofastmap
