import Geofastmap.Interleave.Typestate
import Geofastmap.Upload.Sessions

/-!
# Geofastmap.Upload.Parts

When the parts of an upload arrive whole. A call for a part writes its file (`writing`), reads the
list of the session (`recording`) and writes the list back with its part (`recorded`). These are
own states of the calls; any number of them run at the same time, in several processes.

The list is read and written back in two commands, and the file of a part is truncated when it is
opened. So parts get lost when two calls record at the same time, and a file is mixed when two
calls write it at the same time (`PartsCondition` excludes both).

* `tracked_step` : what one step of one call keeps, whatever the others are doing.
* `upload_lossless` : after every run the list has all parts, and the assembled file is their
  contents in order.
-/

namespace Geofastmap
namespace Upload

open Db Interleave

/-- Where a call for a part stands. -/
inductive Phase where
  | idle
  /-- The file is open; `done` has been written. -/
  | writing (p : Nat) (done : Bytes)
  /-- The list was read as `seen`. -/
  | recording (p : Nat) (content : Bytes) (seen : Option UploadSession)
  | recorded (p : Nat) (content : Bytes)
deriving DecidableEq

/-- The part whose file a call is responsible for, and what the file holds. -/
def Phase.file : Phase → Option (Nat × Bytes)
  | .idle => none
  | .writing p done => some (p, done)
  | .recording p content _ => some (p, content)
  | .recorded p content => some (p, content)

def Phase.part (φ : Phase) : Option Nat := φ.file.map Prod.fst

def Phase.isRecording : Phase → Bool
  | .recording _ _ _ => true
  | _ => false

def setPart (p : Nat) (bytes : Option Bytes) (st : UploadState) : UploadState :=
  { st with part := Function.update st.part p bytes }

def setSession (u : Option UploadSession) (st : UploadState) : UploadState :=
  { st with session := u }

def beginPart (p : Nat) (st : UploadState) : UploadState := { st with
  part := Function.update st.part p (some [])
  unfinished := p :: st.unfinished }

def finishPart (p : Nat) (content : Bytes) (st : UploadState) : UploadState := { st with
  completed := Function.update st.completed p (some content)
  unfinished := st.unfinished.filter (· != p) }

/-- The calls for the parts `1..n`. -/
def phaseState (n : Nat) : Typestate Label UploadState Phase where
  after l s φ :=
    match l, φ with
    | .getSession, .recording p c seen => if s.session.isNone then .recording p c none
        else .recording p c seen
    | .readList _, .writing p c => .recording p c s.session
    | .writeList _, .recording p c _ => .recorded p c
    | .openPart p, _ => .writing p []
    | .writePart _ chunk, .writing p done => .writing p (done ++ chunk)
    | .finish _, _ => .idle
    | .leave _, _ => .idle
    | _, φ => φ
  failed l φ :=
    match l with
    | .openPart _ => .idle
    | .writePart _ _ => .idle
    | _ => φ
  allows φ l g :=
    match l with
    | .getSession => g = id
    | .readList p => (∃ c, φ = .writing p c) ∧ g = id
    | .writeList p => ∃ c u, φ = .recording p c (some u) ∧ g = setSession (some (u.add p))
    | .openPart p => φ = .idle ∧ 1 ≤ p ∧ p ≤ n ∧ g = beginPart p
    | .writePart p chunk => ∃ done, φ = .writing p done ∧
        g = fun st => setPart p ((st.part p).map (writeAt done.length chunk)) st
    | .finish p => ∃ c, (φ = .recorded p c ∨ φ = .recording p c none) ∧ g = finishPart p c
    | .leave _ => g = id
    | _ => False
  raises l := (∀ p, l ≠ .finish p) ∧ ∀ p, l ≠ .leave p

/-! ## The calls -/

section Calls
variable {cfg : UploadSettings} {n p : Nat} {c : Bytes}

theorem typed_getSession {l : Label} {φ : Phase} (hl : (phaseState n).allows φ l id)
    (hf : (phaseState n).failed l φ = φ) :
    (getUploadSession cfg l).Typed (phaseState n) (fun r φ' => match r with
      | .ok a => ∃ s : UploadState, a = s.session ∧ φ' = (phaseState n).after l s φ
      | .error _ => φ' = φ) φ := by
  refine Prog.Typed.retry ?_ ?_ _
  · exact Prog.Typed.read hl (fun s => ⟨s, rfl, rfl⟩) fun _ => hf
  · intro e φ' h
    exact h

/-- What a call has got when the list is written, or the session is gone. -/
def Recorded (p : Nat) (c : Bytes) (φ : Phase) : Prop := φ = .recorded p c ∨ φ = .recording p c none

theorem typed_updateSession (u : UploadSession) :
    (updateUploadSession cfg p (u.add p)).Typed (phaseState n) (fun r φ' => match r with
      | .ok _ => Recorded p c φ'
      | .error _ => True) (.recording p c (some u)) := by
  refine Prog.Typed.bind (typed_getSession rfl rfl) ?_ fun _ _ _ => trivial
  rintro a φ' ⟨s, rfl, rfl⟩
  cases hs : s.session with
  | none =>
    simp only [phaseState, hs, Option.isNone_none, if_true]
    exact Or.inr rfl
  | some v =>
    simp only [phaseState, hs, Option.isNone_some, Bool.false_eq_true, if_false]
    refine Prog.Typed.bind (R := fun r φ' => match r with
      | .ok _ => φ' = .recorded p c
      | .error _ => φ' = .recording p c (some u)) ?_ (fun _ φ' h => .inl h) fun _ _ _ => trivial
    refine Prog.Typed.retry ?_ (fun _ _ h => h) _
    exact Prog.Typed.write ⟨c, u, rfl, rfl⟩ (fun _ => rfl) fun _ => rfl

theorem typed_addUploadedPart :
    (addUploadedPart cfg p).Typed (phaseState n) (fun r φ' => match r with
      | .ok _ => Recorded p c φ'
      | .error _ => True) (.writing p c) := by
  refine Prog.Typed.bind (typed_getSession ⟨⟨c, rfl⟩, rfl⟩ rfl) ?_ fun _ _ _ => trivial
  rintro a φ' ⟨s, rfl, rfl⟩
  cases hs : s.session with
  | none =>
    simp only [phaseState, hs]
    exact Or.inr rfl
  | some u =>
    simp only [phaseState, hs]
    exact typed_updateSession u

/-- The handle's offset is the length of what was written. -/
theorem typed_writeChunks (chunks : List Bytes) : ∀ done : Bytes,
    (writeChunks p done.length chunks).Typed (phaseState n) (fun r φ' => match r with
      | .ok _ => φ' = .writing p (done ++ chunks.flatten)
      | .error _ => φ' = .idle) (.writing p done) := by
  induction chunks with
  | nil =>
    intro done
    change Phase.writing p done = _
    simp
  | cons chunk chunks ih =>
    intro done
    refine Prog.Typed.bind (R := fun r φ' => match r with
      | .ok _ => φ' = .writing p (done ++ chunk)
      | .error _ => φ' = .idle) ?_ ?_ fun _ _ h => h
    · exact Prog.Typed.write ⟨done, rfl, rfl⟩ (fun _ => rfl) fun _ => rfl
    · rintro _ φ' rfl
      have := ih (done ++ chunk)
      simpa [List.length_append] using this

theorem typed_storePart (req : PartRequest) (hn : req.partNo ≤ n) :
    (storePart cfg req).Typed (phaseState n) (fun _ _ => True) .idle := by
  unfold storePart
  split
  · trivial
  · rename_i h1
    refine Prog.Typed.bind (R := fun r φ' => match r with
      | .ok _ => φ' = .writing req.partNo req.content
      | .error _ => True) ?_ ?_ fun _ _ _ => trivial
    · refine Prog.Typed.tryCatch (R := fun r φ' => match r with
        | .ok _ => φ' = .writing req.partNo req.content
        | .error _ => φ' = .idle) ?_ (fun _ _ h => h) fun _ _ _ => trivial
      refine Prog.Typed.bind (R := fun r φ' => match r with
        | .ok _ => φ' = .writing req.partNo []
        | .error _ => φ' = .idle) ?_ ?_ fun _ _ h => h
      · exact Prog.Typed.write ⟨rfl, by omega, hn, rfl⟩ (fun _ => rfl) fun _ => rfl
      · rintro _ φ' rfl
        exact typed_writeChunks req.chunks []
    · rintro _ φ' rfl
      refine Prog.Typed.bind typed_addUploadedPart ?_ fun _ _ _ => trivial
      intro _ φ' h
      exact Prog.Typed.write ⟨req.content, h, rfl⟩ (fun _ => trivial) fun _ => trivial

theorem typed_uploadPart (req : PartRequest) (hn : req.partNo ≤ n) :
    (uploadBulkSessionPart cfg req).Typed (phaseState n) (fun _ _ => True) .idle := by
  have hcheck : ∀ r : Except Exn Unit, Restores (phaseState n) .idle (liftCheck r) := fun _ => rfl
  refine Prog.Typed.tryFinally (R := fun _ _ => True) ?_ fun r φ' _ => ?_
  · refine (hcheck _).then (fun _ => ?_) fun _ => trivial
    refine Prog.Typed.bind (typed_getSession rfl rfl) ?_ fun _ _ _ => trivial
    rintro a φ' ⟨s, rfl, rfl⟩
    refine (hcheck _).then (fun _ => ?_) fun _ => trivial
    exact typed_storePart req hn
  · exact Prog.Typed.write rfl (fun _ => trivial) fun _ => trivial

end Calls

/-! ## The invariant -/

theorem UploadSession.mem_add {u : UploadSession} {p q : Nat} :
    q ∈ (u.add p).parts ↔ q = p ∨ q ∈ u.parts := by
  simp [UploadSession.add, mem_sortedSet]

/-- The session lists a part. -/
def UploadState.Lists (s : UploadState) (p : Nat) : Prop := ∃ u, s.session = some u ∧ p ∈ u.parts

/-- What holds of the file and of the list while a call is in a phase. -/
structure Phase.Ok (s : UploadState) (φ : Phase) : Prop where
  file : ∀ p c, φ.file = some (p, c) → s.part p = some c ∧ p ∈ s.unfinished
  seen : ∀ p c seen, φ = .recording p c seen →
    ∃ u, seen = some u ∧ (s.session = some u ∨ s.session = some (u.add p))
  listed : ∀ p c, φ = .recorded p c → s.Lists p

/-- Two calls do not write one file, and do not record at the same time. -/
def Phase.Apart (φ ψ : Phase) : Prop :=
  (∀ p, φ.part = some p → ψ.part ≠ some p) ∧ ¬(φ.isRecording = true ∧ ψ.isRecording = true)

structure Tracked (n : Nat) (s : UploadState) (φs : List Phase) : Prop where
  session : ∃ u, s.session = some u
  parts : ∀ u, s.session = some u → u.parts.SortedLT ∧ ∀ p ∈ u.parts, 1 ≤ p ∧ p ≤ n
  phases : ∀ φ ∈ φs, φ.Ok s
  range : ∀ φ ∈ φs, ∀ p, φ.part = some p → 1 ≤ p ∧ p ≤ n
  apart : φs.Pairwise Phase.Apart
  completed : ∀ p c, s.completed p = some c → s.Lists p ∧ (p ∉ s.unfinished → s.part p = some c)

/-- The interleavings in which no part is lost: a file is opened only when no other call has it,
and the list is read only when no other call is about to write it back. -/
def PartsCondition : Condition Label UploadState Phase := fun l _ _ φs =>
  match l with
  | .openPart p => ∀ ψ ∈ φs, ψ.part ≠ some p
  | .readList _ => ∀ ψ ∈ φs, ψ.isRecording = false
  | _ => True

theorem Phase.Apart.symm {φ ψ : Phase} (h : φ.Apart ψ) : ψ.Apart φ :=
  ⟨fun p hψ hφ => h.1 p hφ hψ, fun hr => h.2 ⟨hr.2, hr.1⟩⟩

theorem Phase.apart_idle (ψ : Phase) : Phase.idle.Apart ψ := by
  simp [Phase.Apart, Phase.part, Phase.file, Phase.isRecording]

theorem Phase.ok_idle (s : UploadState) : Phase.idle.Ok s := by
  constructor <;> simp [Phase.file]

section Step
variable {n p : Nat} {c : Bytes} {s t : UploadState} {φ ψ : Phase} {φs : List Phase}

theorem Phase.part_eq {p : Nat} {c : Bytes} (h : φ.file = some (p, c)) : φ.part = some p := by
  simp [Phase.part, h]

/-- A step that leaves the list, and the file of the part. -/
theorem Phase.Ok.frame (h : φ.Ok s) (hs : t.session = s.session)
    (hp : ∀ p, φ.part = some p → t.part p = s.part p ∧ (p ∈ s.unfinished → p ∈ t.unfinished)) :
    φ.Ok t := by
  refine ⟨fun p c hf => ?_, fun p c seen hf => ?_, fun p c hf => ?_⟩
  · obtain ⟨h1, h2⟩ := h.file p c hf
    obtain ⟨h3, h4⟩ := hp p (Phase.part_eq hf)
    exact ⟨h3.trans h1, h4 h2⟩
  · rw [hs]
    exact h.seen p c seen hf
  · obtain ⟨u, hu, hmem⟩ := h.listed p c hf
    exact ⟨u, hs.trans hu, hmem⟩

/-- A step that changes the list only, while the call does not record. -/
theorem Phase.Ok.relist {u : Option UploadSession} (h : φ.Ok s) (hrec : φ.isRecording = false)
    (hgrow : ∀ p, s.Lists p → (setSession u s).Lists p) : φ.Ok (setSession u s) := by
  refine ⟨fun p c hf => h.file p c hf, ?_, fun p c hf => hgrow p (h.listed p c hf)⟩
  rintro p c seen rfl
  cases hrec

/-- A call moves on, and the others keep what they have. -/
theorem Tracked.move (h : Tracked n s (φ :: φs)) (hψ : ψ.Ok t)
    (hrange : ∀ p, ψ.part = some p → 1 ≤ p ∧ p ≤ n) (hap : ∀ χ ∈ φs, ψ.Apart χ)
    (hothers : ∀ χ ∈ φs, χ.Ok t) (hsession : ∃ u, t.session = some u)
    (hparts : ∀ u, t.session = some u → u.parts.SortedLT ∧ ∀ p ∈ u.parts, 1 ≤ p ∧ p ≤ n)
    (hcompleted : ∀ p c, t.completed p = some c →
      t.Lists p ∧ (p ∉ t.unfinished → t.part p = some c)) : Tracked n t (ψ :: φs) := by
  refine ⟨hsession, hparts, ?_, ?_, ?_, hcompleted⟩
  · exact List.forall_mem_cons.mpr ⟨hψ, hothers⟩
  · exact List.forall_mem_cons.mpr ⟨hrange, fun χ hχ => h.range χ (by simp [hχ])⟩
  · exact List.pairwise_cons.mpr ⟨hap, (List.pairwise_cons.mp h.apart).2⟩

theorem Tracked.others (h : Tracked n s (φ :: φs)) {χ : Phase} (hχ : χ ∈ φs) :
    χ.Ok s ∧ φ.Apart χ :=
  ⟨h.phases χ (by simp [hχ]), (List.pairwise_cons.mp h.apart).1 χ hχ⟩

theorem Tracked.drop (h : Tracked n s (φ :: φs)) : Tracked n s φs :=
  ⟨h.session, h.parts, fun χ hχ => h.phases χ (by simp [hχ]),
    fun χ hχ => h.range χ (by simp [hχ]), (List.pairwise_cons.mp h.apart).2, h.completed⟩

theorem Tracked.add_idle (h : Tracked n s φs) : Tracked n s (.idle :: φs) := by
  refine ⟨h.session, h.parts, ?_, ?_, ?_, h.completed⟩
  · exact List.forall_mem_cons.mpr ⟨Phase.ok_idle s, h.phases⟩
  · exact List.forall_mem_cons.mpr ⟨fun p hp => (by cases hp), h.range⟩
  · exact List.pairwise_cons.mpr ⟨fun χ _ => Phase.apart_idle χ, h.apart⟩

/-- The list is read, or the call has written it. -/
theorem Tracked.rephase (h : Tracked n s (φ :: φs)) (hψ : ψ.Ok s) (hpart : ψ.part = φ.part)
    (hrec : ψ.isRecording = true → ∀ χ ∈ φs, χ.isRecording = false) :
    Tracked n s (ψ :: φs) := by
  refine h.move hψ (fun p hp => ?_) (fun χ hχ => ⟨fun p hp => ?_, ?_⟩)
    (fun χ hχ => (h.others hχ).1) h.session h.parts h.completed
  · exact h.range φ (by simp) p (hpart ▸ hp)
  · exact (h.others hχ).2.1 p (hpart ▸ hp)
  · rintro ⟨h1, h2⟩
    rw [hrec h1 χ hχ] at h2
    cases h2

theorem Tracked.begin (h : Tracked n s (.idle :: φs)) (hp : 1 ≤ p ∧ p ≤ n)
    (hfree : ∀ ψ ∈ φs, ψ.part ≠ some p) : Tracked n (beginPart p s) (.writing p [] :: φs) := by
  refine h.move ?_ ?_ (fun χ hχ => ⟨?_, ?_⟩) (fun χ hχ => ?_) h.session h.parts ?_
  · constructor <;> simp [Phase.file, beginPart]
  · simpa [Phase.part, Phase.file] using hp
  · simpa [Phase.part, Phase.file] using hfree χ hχ
  · simp [Phase.isRecording]
  · refine (h.others hχ).1.frame rfl fun q hq => ?_
    have hne : q ≠ p := by
      rintro rfl
      exact hfree χ hχ hq
    simp [beginPart, hne]
  · intro q c hc
    obtain ⟨h1, h2⟩ := h.completed q c hc
    refine ⟨h1, fun hq => ?_⟩
    obtain ⟨hne, hq⟩ : q ≠ p ∧ q ∉ s.unfinished := by simpa [beginPart] using hq
    simpa [beginPart, Function.update_of_ne hne] using h2 hq

theorem writeAt_end (done chunk : Bytes) : writeAt done.length chunk done = done ++ chunk := by
  simp [writeAt]

theorem Tracked.write {done : Bytes} (h : Tracked n s (.writing p done :: φs)) (chunk : Bytes) :
    Tracked n (setPart p ((s.part p).map (writeAt done.length chunk)) s)
      (.writing p (done ++ chunk) :: φs) := by
  obtain ⟨hfile, hopen⟩ := (h.phases (.writing p done) (by simp)).file p done rfl
  refine h.move ?_ ?_ (fun χ hχ => (h.others hχ).2) (fun χ hχ => ?_) h.session h.parts ?_
  · constructor
    · rintro q c ⟨⟩
      simp [setPart, hfile, writeAt_end, hopen]
    · simp
    · simp
  · exact h.range (.writing p done) (by simp)
  · refine (h.others hχ).1.frame rfl fun q hq => ?_
    have hne : q ≠ p := by
      rintro rfl
      exact (h.others hχ).2.1 q rfl hq
    simp [setPart, Function.update_of_ne hne]
  · intro q c hc
    obtain ⟨h1, h2⟩ := h.completed q c hc
    refine ⟨h1, fun hq => ?_⟩
    have hne : q ≠ p := by
      rintro rfl
      exact hq hopen
    simpa [setPart, Function.update_of_ne hne] using h2 hq

/-- The list is written back: it has the part now, and what it had. -/
theorem Tracked.setList {u : UploadSession} (h : Tracked n s (.recording p c (some u) :: φs)) :
    Tracked n (setSession (some (u.add p)) s) (.recording p c (some u) :: φs) := by
  have hme := h.phases (.recording p c (some u)) (by simp)
  obtain ⟨v, hv, hs⟩ := hme.seen p c (some u) rfl
  cases hv
  have hgrow : ∀ q, s.Lists q → (setSession (some (u.add p)) s).Lists q := by
    rintro q ⟨w, hw, hq⟩
    refine ⟨u.add p, rfl, ?_⟩
    rcases hs with hs | hs
    · cases hs.symm.trans hw
      exact UploadSession.mem_add.mpr (.inr hq)
    · cases hs.symm.trans hw
      exact hq
  have hp := h.range (.recording p c (some u)) (by simp) p rfl
  refine h.move ?_ (h.range _ (by simp)) (fun χ hχ => (h.others hχ).2) (fun χ hχ => ?_)
    ⟨_, rfl⟩ ?_ ?_
  · refine ⟨hme.file, ?_, by simp⟩
    rintro q d seen ⟨⟩
    exact ⟨u, rfl, .inr rfl⟩
  · refine (h.others hχ).1.relist ?_ hgrow
    have := (h.others hχ).2.2
    simpa [Phase.isRecording] using this
  · rintro w ⟨⟩
    refine ⟨sortedLT_sortedSet _, fun q hq => ?_⟩
    rcases UploadSession.mem_add.mp hq with rfl | hq
    · exact hp
    · rcases hs with hs | hs
      · exact (h.parts _ hs).2 q hq
      · exact (h.parts _ hs).2 q (UploadSession.mem_add.mpr (.inr hq))
  · intro q d hc
    obtain ⟨h1, h2⟩ := h.completed q d hc
    exact ⟨hgrow q h1, h2⟩

theorem Tracked.finish (h : Tracked n s (.recorded p c :: φs)) :
    Tracked n (finishPart p c s) (.idle :: φs) := by
  have hme := h.phases (.recorded p c) (by simp)
  refine h.move (Phase.ok_idle _) (fun q hq => by cases hq) (fun χ _ => Phase.apart_idle χ)
    (fun χ hχ => ?_) h.session h.parts ?_
  · refine (h.others hχ).1.frame rfl fun q hq => ?_
    have hne : q ≠ p := by
      rintro rfl
      exact (h.others hχ).2.1 q rfl hq
    simp [finishPart, hne]
  · intro q d hc
    by_cases hq : q = p
    · subst hq
      obtain rfl : c = d := by simpa [finishPart] using hc
      exact ⟨hme.listed q c rfl, fun _ => (hme.file q c rfl).1⟩
    · obtain ⟨h1, h2⟩ := h.completed q d (by simpa [finishPart, Function.update_of_ne hq] using hc)
      exact ⟨h1, fun hu => h2 (by simpa [finishPart, hq] using hu)⟩

end Step

theorem tracked_step {n : Nat} {l : Label} {g : UploadState → UploadState} {s : UploadState}
    {φ : Phase} {φs : List Phase} (h : Tracked n s (φ :: φs)) (hl : (phaseState n).allows φ l g)
    (hm : PartsCondition l s φ φs) :
    Tracked n (g s) ((phaseState n).after l s φ :: φs) := by
  cases l with
  | getSession =>
    obtain rfl : g = id := hl
    obtain ⟨u, hu⟩ := h.session
    cases φ with
    | recording p c seen => simpa [phaseState, hu] using h
    | _ => exact h
  | readList p =>
    obtain ⟨⟨c, rfl⟩, rfl⟩ := hl
    refine h.rephase (ψ := .recording p c s.session) ⟨?_, ?_, by simp⟩ rfl fun _ => hm
    · exact (h.phases (.writing p c) (by simp)).file
    · rintro q d seen ⟨⟩
      obtain ⟨u, hu⟩ := h.session
      exact ⟨u, hu, .inl hu⟩
  | writeList p =>
    obtain ⟨c, u, rfl, rfl⟩ := hl
    refine h.setList.rephase (ψ := .recorded p c) ⟨?_, by simp, ?_⟩ rfl
      (by simp [Phase.isRecording])
    · exact (h.phases (.recording p c (some u)) (by simp)).file
    · rintro q d ⟨⟩
      exact ⟨u.add p, rfl, UploadSession.mem_add.mpr (.inl rfl)⟩
  | openPart p =>
    obtain ⟨rfl, h1, h2, rfl⟩ := hl
    exact h.begin ⟨h1, h2⟩ hm
  | writePart p chunk =>
    obtain ⟨done, rfl, rfl⟩ := hl
    exact h.write chunk
  | finish p =>
    obtain ⟨c, rfl | rfl, rfl⟩ := hl
    · exact h.finish
    · obtain ⟨u, hu, _⟩ := (h.phases (.recording p c none) (by simp)).seen p c none rfl
      cases hu
  | leave p =>
    obtain rfl : g = id := hl
    exact h.drop.add_idle
  | _ => exact hl.elim

/-- A step that raises after its effect. -/
theorem tracked_late {n : Nat} {l : Label} {g : UploadState → UploadState} {s : UploadState}
    {φ : Phase} {φs : List Phase} (h : Tracked n s (φ :: φs)) (hl : (phaseState n).allows φ l g)
    (hr : (phaseState n).raises l) (hm : PartsCondition l s φ φs) :
    Tracked n (g s) ((phaseState n).failed l φ :: φs) := by
  have hstep := tracked_step h hl hm
  cases l with
  | getSession =>
    obtain rfl : g = id := hl
    exact h
  | readList p =>
    obtain ⟨_, rfl⟩ := hl
    exact h
  | writeList p =>
    obtain ⟨c, u, rfl, rfl⟩ := hl
    exact h.setList
  | openPart p => exact hstep.drop.add_idle
  | writePart p chunk => exact hstep.drop.add_idle
  | finish p => exact absurd rfl (hr.1 p)
  | leave p => exact absurd rfl (hr.2 p)
  | _ => exact hl.elim

theorem tracked_fault {n : Nat} {l : Label} {s : UploadState} {φ : Phase} {φs : List Phase}
    (h : Tracked n s (φ :: φs)) : Tracked n s ((phaseState n).failed l φ :: φs) := by
  cases l with
  | openPart p => exact h.drop.add_idle
  | writePart p chunk => exact h.drop.add_idle
  | _ => exact h

/-- A client uploads the parts `1..n`. -/
def PartRequest.within (n : Nat) (req : PartRequest) : UploadState → List Phase → Prop :=
  fun _ _ => req.partNo ≤ n

theorem tracked_invariant (n : Nat) : Invariant (phaseState n)
    (fun (_ : PartRequest) _ => Phase.idle) PartsCondition (PartRequest.within n) (Tracked n) where
  perm s φs φs' hp h := by
    refine ⟨h.session, h.parts, fun φ hφ => h.phases φ (hp.mem_iff.mpr hφ),
      fun φ hφ => h.range φ (hp.mem_iff.mpr hφ), ?_, h.completed⟩
    exact (hp.pairwise_iff fun hap => hap.symm).mp h.apart
  step l g s φ φs h hl hm := tracked_step h hl hm
  late l g s φ φs h hl hr hm := tracked_late h hl hr hm
  fault l g s φ φs h _ _ := tracked_fault h
  spawn a s φs h _ := h.add_idle
  crash s φ φs h := h.drop

/-! ## Assembly -/

section Assembly
variable {st : UploadState} {key : Text}

theorem run_copyParts {done : Bytes} (ps : List Nat) : ∀ {st : UploadState},
    st.files key = some done → (∀ p ∈ ps, 1 ≤ p ∧ (st.part p).isSome) →
    ((copyParts key ps).run st).1 = .ok () ∧ ((copyParts key ps).run st).2.files key =
      some (done ++ ps.flatMap fun p => (st.part p).getD []) := by
  induction ps generalizing done with
  | nil =>
    intro st hd _
    simpa [copyParts] using hd
  | cons p ps ih =>
    intro st hd hps
    obtain ⟨h1, h2⟩ := hps p (by simp)
    obtain ⟨bytes, hb⟩ := Option.isSome_iff_exists.mp h2
    have hp : ¬p < 1 := by omega
    simp only [copyParts, hp, if_false, Prog.run_bind, Prog.run_atomic, hb]
    have := @ih (done ++ bytes)
      { st with files := Function.update st.files key ((st.files key).map (· ++ bytes)) }
      (by simp [hd]) fun q hq => hps q (by simp [hq])
    simpa [hb] using this

theorem run_assemble {parts : List Nat} (hne : parts ≠ []) (hlt : parts.SortedLT)
    (hps : ∀ p ∈ parts, 1 ≤ p ∧ (st.part p).isSome) :
    ((assembleChunkParts parts key).run st).1 = .ok () ∧
      ((assembleChunkParts parts key).run st).2.files key =
        some (parts.flatMap fun p => (st.part p).getD []) := by
  have hemp : ¬parts.isEmpty = true := by simpa using hne
  rw [assembleChunkParts, if_neg hemp, sortedSet_eq hlt]
  have := @run_copyParts key [] parts
    { st with files := Function.update st.files key (some []) } (by simp) hps
  simpa using this

end Assembly

/-- When every part `1..n` was uploaded, the session has them all, and the file assembled from
them is the contents of their last completed uploads in order. -/
def Lossless (n : Nat) (st : UploadState) : Prop :=
  (∀ p ∈ List.range' 1 n, (st.completed p).isSome) →
    ∃ u, st.session = some u ∧ u.parts = List.range' 1 n ∧ ∀ key,
      ((assembleChunkParts u.parts key).run st).1 = .ok () ∧
        ((assembleChunkParts u.parts key).run st).2.files key =
          some ((List.range' 1 n).flatMap fun p => (st.completed p).getD [])

/-- No part was opened again after its last completed upload and left unfinished. -/
def Settled (n : Nat) (st : UploadState) : Prop := ∀ p ∈ List.range' 1 n, p ∉ st.unfinished

instance (n : Nat) (st : UploadState) : Decidable (Settled n st) :=
  inferInstanceAs (Decidable (∀ p ∈ List.range' 1 n, p ∉ st.unfinished))

/-- A session without parts. -/
def Begun (st : UploadState) : Prop :=
  (∀ p, st.completed p = none) ∧ ∃ u, st.session = some u ∧ u.parts = []

theorem tracked_of_begun {st : UploadState} (h : Begun st) (n : Nat) : Tracked n st [] := by
  obtain ⟨hc, u, hu, hparts⟩ := h
  refine ⟨⟨u, hu⟩, fun v hv => ?_, by simp, by simp, .nil, fun p c hp => ?_⟩
  · cases hu.symm.trans hv
    rw [hparts]
    exact ⟨List.Pairwise.nil.sortedLT, by simp⟩
  · cases (hc p).symm.trans hp

theorem lossless_of_tracked {n : Nat} (hn : 0 < n) {st : UploadState} {φs : List Phase}
    (h : Tracked n st φs) (hs : Settled n st) : Lossless n st := by
  intro hall
  obtain ⟨u, hu⟩ := h.session
  obtain ⟨hlt, hrange⟩ := h.parts u hu
  have hcontent : ∀ p ∈ List.range' 1 n, st.part p = st.completed p ∧ p ∈ u.parts := by
    intro p hp
    obtain ⟨c, hc⟩ := Option.isSome_iff_exists.mp (hall p hp)
    obtain ⟨⟨v, hv, hmem⟩, hfile⟩ := h.completed p c hc
    cases hu.symm.trans hv
    exact ⟨(hfile (hs p hp)).trans hc.symm, hmem⟩
  have hparts : u.parts = List.range' 1 n := by
    refine List.SortedLT.eq_of_mem_iff hlt (List.sortedLT_range' _ _ Nat.one_ne_zero) fun p => ?_
    refine ⟨fun hp => ?_, fun hp => (hcontent p hp).2⟩
    have := hrange p hp
    simp only [List.mem_range'_1]
    omega
  refine ⟨u, hu, hparts, fun key => ?_⟩
  rw [hparts]
  have hne : List.range' 1 n ≠ [] := by simpa using hn.ne'
  have hpresent : ∀ p ∈ List.range' 1 n, 1 ≤ p ∧ (st.part p).isSome := by
    intro p hp
    refine ⟨(List.mem_range'_1.mp hp).1, ?_⟩
    rw [(hcontent p hp).1]
    exact hall p hp
  obtain ⟨h1, h2⟩ := @run_assemble st key _ hne (List.sortedLT_range' _ _ Nat.one_ne_zero) hpresent
  refine ⟨h1, h2.trans (congrArg some ?_)⟩
  refine List.flatMap_congr fun p hp => ?_
  rw [(hcontent p hp).1]

section Runs
variable (cfg : UploadSettings) (n : Nat)

/-- Any number of calls for the parts, in any number of processes. -/
def uploadRun (st : UploadState) (cs : List (Choice PartRequest Exn)) :
    Threads Label UploadState Exn Phase :=
  (Threads.mk st []).exec (phaseState n) (uploadBulkSessionPart cfg) (fun _ _ => Phase.idle) cs

def UploadMeets (st : UploadState) (cs : List (Choice PartRequest Exn)) : Prop :=
  MeetsAll (phaseState n) (uploadBulkSessionPart cfg) (fun _ _ => Phase.idle) PartsCondition
    (PartRequest.within n) ⟨st, []⟩ cs

theorem upload_lossless (hn : 0 < n) (st : UploadState) (hst : Begun st)
    (cs : List (Choice PartRequest Exn)) (h : UploadMeets cfg n st cs)
    (hs : Settled n (uploadRun cfg n st cs).st) : Lossless n (uploadRun cfg n st cs).st := by
  have hgood : (uploadRun cfg n st cs).Good (phaseState n) (Tracked n) := by
    refine exec_inv (tracked_invariant n) (fun req _ _ hreq => typed_uploadPart req hreq) cs ?_ h
    exact ⟨tracked_of_begun hst n, by simp⟩
  exact lossless_of_tracked hn hgood.inv hs

end Runs

/-! ## Two calls at the same time -/

instance : ∀ l s φ φs, Decidable (PartsCondition l s φ φs)
  | .openPart p, _, _, φs => inferInstanceAs (Decidable (∀ ψ ∈ φs, ψ.part ≠ some p))
  | .readList _, _, _, φs => inferInstanceAs (Decidable (∀ ψ ∈ φs, ψ.isRecording = false))
  | .getSession, _, _, _ | .deleteSession, _, _, _ | .writeList _, _, _, _
  | .writePart _ _, _, _, _ | .finish _, _, _, _ | .leave _, _, _, _ | .createJob, _, _, _
  | .indexJob, _, _, _ | .openFile, _, _, _ | .copyPart _, _, _, _ | .deleteParts, _, _, _
  | .listShp, _, _, _ | .register, _, _, _ | .enqueue, _, _, _ | .deleteFile, _, _, _ =>
    isTrue trivial

instance (n : Nat) (req : PartRequest) (s : UploadState) (φs : List Phase) :
    Decidable (req.within n s φs) :=
  inferInstanceAs (Decidable (req.partNo ≤ n))

def Label.isHistory : Label → Bool
  | .finish _ | .leave _ => true
  | _ => false

instance (n : Nat) (l : Label) : Decidable ((phaseState n).raises l) :=
  decidable_of_iff (l.isHistory = false) (by cases l <;> simp [phaseState, Label.isHistory])

def plainUpload : UploadSettings := ⟨1, 1000, true⟩

def newSession : UploadSession :=
  ⟨"a".toList, none, "roads.geojson".toList, "append".toList, 1000, false, [], []⟩

def newUpload : UploadState where
  session := some newSession
  part _ := none
  files _ := none
  jobs _ := none
  registered _ := none
  bulkQueue := []
  completed _ := none
  unfinished := []

def partOf (p : Nat) : PartRequest := ⟨.ok (), "a".toList, none, p, [[p.toUInt8]]⟩

theorem begun_newUpload : Begun newUpload := ⟨fun _ => rfl, newSession, rfl, rfl⟩

/-- Two parts; the second call runs to its end while the first is about to write the list. -/
def overlapping : List (Choice PartRequest Exn) :=
  [.spawn (partOf 1), .spawn (partOf 2)] ++ List.replicate 5 (.step 0) ++
    List.replicate 8 (.step 1) ++ List.replicate 3 (.step 0)

/-- Both calls return, and the session has only the first part. -/
theorem concurrent_part_is_lost :
    Begun newUpload ∧ Settled 2 (uploadRun plainUpload 2 newUpload overlapping).st ∧
      ¬Lossless 2 (uploadRun plainUpload 2 newUpload overlapping).st := by
  refine ⟨begun_newUpload, by decide +kernel, fun h => ?_⟩
  obtain ⟨u, hu, hparts, _⟩ := h (by decide +kernel)
  have hlist : ((uploadRun plainUpload 2 newUpload overlapping).st.session.map (·.parts)) =
      some [1] := by decide +kernel
  rw [hu, Option.map_some, hparts] at hlist
  exact absurd hlist (by decide)

/-- The parts in the other order, the second call after the first. -/
def inTurn : List (Choice PartRequest Exn) :=
  [.spawn (partOf 2), .spawn (partOf 1)] ++ List.replicate 8 (.step 0) ++
    List.replicate 8 (.step 1)

theorem parts_in_turn_lossless : Lossless 2 (uploadRun plainUpload 2 newUpload inTurn).st :=
  upload_lossless plainUpload 2 (by decide) newUpload begun_newUpload inTurn
    (by unfold UploadMeets; decide +kernel) (by decide +kernel)

end Upload
end Geofastmap
