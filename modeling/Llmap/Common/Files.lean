import Llmap.Common.Journal
import Llmap.Common.Rust
/-!
# Files that are created exclusively

Processes that share a disk and do not know of each other may still share no
file, if each of them writes to a file and removes it only after it has created
it under a name that was free (`createNew`, which is `O_EXCL`). What a process
may do is then said by its own past alone: the files it holds (`holding`), and
what it may do with them (`Permits`).

Any number of such processes, in any order of steps, with operations that fail
and processes that stop anywhere, leave every file that was there before as it
was; and what one of them holds is on the disk as it wrote it (`Kept`).
-/

namespace Llmap

namespace Files

/-- Why an operation fails. -/
inductive IoError where
  | alreadyExists
  | notFound
  | other (text : String)
deriving DecidableEq

/-- A file: the mode it was created with, of which the process's own mask is
taken off, and what it holds. -/
structure File where
  mode : ℕ
  content : Bytes
deriving DecidableEq

/-- **A disk.** Names are of files, and a file that is created is a new one. -/
structure Disk (P : Type) where
  dir : P → Option ℕ
  file : ℕ → File
  next : ℕ
  fresh : ∀ p h, dir p = some h → h < next

/-- What a process asks for. -/
inductive Op (P : Type) where
  /-- `Path::exists`. -/
  | pathExists (p : P)
  /-- `create_dir_all`. -/
  | createDirAll (p : P)
  /-- `open`, with `create_new`. -/
  | createNew (p : P) (mode : ℕ)
  /-- `write_all`. -/
  | writeAll (h : ℕ) (bytes : Bytes)
  /-- `sync_all`. -/
  | syncAll (h : ℕ)
  /-- Opens the file of a name, and puts other content in. -/
  | replaceContent (p : P) (bytes : Bytes)
  /-- `fs::read`. -/
  | read (p : P)
  /-- `remove_file`. -/
  | removeFile (p : P)
  /-- Anything that does not change a file. -/
  | ask (question : String)

/-- What it is answered. -/
abbrev Op.Resp {P : Type} : Op P → Type
  | .pathExists _ => Bool
  | .createNew .. => Except IoError ℕ
  | .createDirAll _ | .writeAll .. | .syncAll _ | .replaceContent .. | .removeFile _ =>
      Except IoError Unit
  | .read _ => Except IoError Bytes
  | .ask _ => Except IoError String

/-- How an operation fails: a write has come so far, or left something else. -/
structure Fault where
  text : String
  written : ℕ
  left : Bytes

/-- **What is around the disk**: which operations fail, and what questions are
answered. -/
structure Outside (ω : Type) where
  fault : ω → ω × Option Fault
  ask : ω → String → Except IoError String

section Disk

variable {P : Type} [DecidableEq P]

namespace Disk

omit [DecidableEq P] in
/-- The file of a name. -/
def find? (disk : Disk P) (p : P) : Option File := (disk.dir p).map disk.file

/-- A new file, under a name that is free. -/
def create (disk : Disk P) (p : P) (mode : ℕ) : Disk P where
  dir := Function.update disk.dir p (some disk.next)
  file := Function.update disk.file disk.next ⟨mode, []⟩
  next := disk.next + 1
  fresh q h hq := by
    by_cases hp : q = p
    · subst hp
      rw [Function.update_self] at hq
      have : disk.next = h := Option.some.inj hq
      omega
    · rw [Function.update_of_ne hp] at hq
      have := disk.fresh q h hq
      omega

/-- A file with other content. -/
def put (disk : Disk P) (h : ℕ) (content : Bytes) : Disk P :=
  { disk with file := Function.update disk.file h { disk.file h with content := content } }

/-- The file of a name, with other content. -/
def rewrite (disk : Disk P) (p : P) (content : Bytes) : Disk P :=
  (disk.dir p).elim disk (disk.put · content)

omit [DecidableEq P] in
@[simp] theorem put_put (disk : Disk P) (h : ℕ) (content content' : Bytes) :
    (disk.put h content).put h content' = disk.put h content' := by
  simp [put]

omit [DecidableEq P] in
theorem put_self {disk : Disk P} {h : ℕ} {content : Bytes}
    (hcontent : (disk.file h).content = content) : disk.put h content = disk := by
  subst hcontent
  simp [put]

/-- A name that is free again. -/
def unlink (disk : Disk P) (p : P) : Disk P where
  dir := Function.update disk.dir p none
  file := disk.file
  next := disk.next
  fresh q h hq := by
    by_cases hp : q = p
    · subst hp
      rw [Function.update_self] at hq
      cases hq
    · rw [Function.update_of_ne hp] at hq
      exact disk.fresh q h hq

/-- An operation that has nothing to do but may fail. -/
def tried (disk : Disk P) (fault : Option Fault) : Disk P × Except IoError Unit :=
  (disk, fault.elim (.ok ()) fun fault => .error (.other fault.text))

/-- Carries an operation out, or lets it fail. -/
def perform (disk : Disk P) (fault : Option Fault) (answer : String → Except IoError String) :
    (o : Op P) → Disk P × o.Resp
  | .pathExists p => (disk, fault.isNone && (disk.dir p).isSome)
  | .createDirAll _ => disk.tried fault
  | .createNew p mode =>
      match fault, disk.dir p with
      | some fault, _ => (disk, .error (.other fault.text))
      | none, some _ => (disk, .error .alreadyExists)
      | none, none => (disk.create p mode, .ok disk.next)
  | .writeAll h bytes =>
      match fault with
      | some fault =>
          (disk.put h ((disk.file h).content ++ bytes.take fault.written),
            .error (.other fault.text))
      | none => (disk.put h ((disk.file h).content ++ bytes), .ok ())
  | .syncAll _ => disk.tried fault
  | .replaceContent p bytes =>
      match fault, disk.dir p with
      | some fault, some h => (disk.put h fault.left, .error (.other fault.text))
      | some fault, none => (disk, .error (.other fault.text))
      | none, some h => (disk.put h bytes, .ok ())
      -- a name that is free gets a file that everybody may read
      | none, none => ((disk.create p 0o644).put disk.next bytes, .ok ())
  | .read p =>
      (disk, match fault, disk.dir p with
        | some fault, _ => .error (.other fault.text)
        | none, none => .error .notFound
        | none, some h => .ok (disk.file h).content)
  | .removeFile p =>
      match fault, disk.dir p with
      | some fault, _ => (disk, .error (.other fault.text))
      | none, none => (disk, .error .notFound)
      | none, some _ => (disk.unlink p, .ok ())
  | .ask question => (disk, answer question)

end Disk

/-- Carries an operation out, as what is around the disk lets it. -/
def Outside.exec {ω : Type} (outside : Outside ω) (s : Disk P × ω) (o : Op P) :
    (Disk P × ω) × o.Resp :=
  let done := s.1.perform (outside.fault s.2).2 (outside.ask s.2) o
  ((done.1, (outside.fault s.2).1), done.2)

/-- Where no operation fails. -/
def Outside.calm : Outside Unit := ⟨fun _ => ((), none), fun _ _ => .error .notFound⟩

end Disk

/-! ## What a process holds -/

section Holding

variable {P : Type} [DecidableEq P]

/-- A file that a process has created, and what it knows to be in it. -/
structure Held (P : Type) where
  path : P
  handle : ℕ
  mode : ℕ
  content : Option Bytes
deriving DecidableEq

/-- What it knows is so. -/
def Held.Describes (held : Held P) (file : File) : Prop :=
  file.mode = held.mode ∧ ∀ content, held.content = some content → file.content = content

/-- What a process holds after an operation. -/
def hold (held : List (Held P)) : (o : Op P) → o.Resp → List (Held P)
  | .createNew p mode, .ok h => ⟨p, h, mode, some []⟩ :: held
  | .writeAll h bytes, written => held.map fun x => { x with
      content := if x.handle ≠ h then x.content else
        if written = .ok () then x.content.map (· ++ bytes) else none }
  | .replaceContent p bytes, replaced => held.map fun x => { x with
      content := if x.path ≠ p then x.content else if replaced = .ok () then some bytes else none }
  | .removeFile p, .ok () => held.filter fun x => x.path ≠ p
  | _, _ => held

/-- What a process holds by its past. -/
def holding (past : List ((o : Op P) × o.Resp)) : List (Held P) :=
  past.foldl (fun held event => hold held event.1 event.2) []

/-- **What a process may do**: write to the files it holds, and remove them. -/
def Permits (held : List (Held P)) : Op P → Prop
  | .writeAll h _ => ∃ x ∈ held, x.handle = h
  | .replaceContent p _ | .removeFile p => ∃ x ∈ held, x.path = p
  | _ => True

/-- A program that keeps to the files it holds. -/
abbrev Keeping {α : Type} (Q : List (Held P) → α → Prop) (past : List ((o : Op P) × o.Resp))
    (p : Prog (Op P) Op.Resp α) : Prop :=
  p.ByPast (fun past o => Permits (holding past) o) (fun past a => Q (holding past) a) past

/-- What each of them holds by a journal. -/
def holdings {ι : Type} [DecidableEq ι] (journal : Journal ι (Op P) Op.Resp) (i : ι) :
    List (Held P) :=
  holding (Journal.own i journal)

@[simp] theorem holding_nil : holding ([] : List ((o : Op P) × o.Resp)) = [] := rfl

@[simp] theorem holding_append_singleton (past : List ((o : Op P) × o.Resp)) (o : Op P)
    (r : o.Resp) : holding (past ++ [⟨o, r⟩]) = hold (holding past) o r := by
  simp [holding]

theorem holdings_append_singleton {ι : Type} [DecidableEq ι] (journal : Journal ι (Op P) Op.Resp)
    (i : ι) (o : Op P) (r : o.Resp) :
    holdings (journal ++ [(i, ⟨o, r⟩)]) =
      Function.update (holdings journal) i (hold (holdings journal i) o r) := by
  funext j
  by_cases hj : j = i
  · subst hj
    rw [Function.update_self, holdings, Journal.own_append, Journal.own_cons_self]
    exact holding_append_singleton ..
  · rw [Function.update_of_ne hj, holdings, Journal.own_append]
    simp [holdings, Journal.own, Ne.symm hj]

end Holding

/-! ## What the disk keeps -/

section Kept

variable {P ι : Type} [DecidableEq P] [DecidableEq ι]

/-- **The disk and its processes.** What was there is as it was, and what is
held is there, as it is known; and no file is held by two, or twice. -/
structure Kept (start : Disk P) (holds : ι → List (Held P)) (disk : Disk P) : Prop where
  next_le : start.next ≤ disk.next
  dir : ∀ p h, start.dir p = some h → disk.dir p = some h
  file : ∀ h, h < start.next → disk.file h = start.file h
  newer : ∀ i, ∀ x ∈ holds i, start.next ≤ x.handle ∧ x.handle < disk.next
  held : ∀ i, ∀ x ∈ holds i, disk.dir x.path = some x.handle ∧ x.Describes (disk.file x.handle)
  apart : ∀ i j, ∀ x ∈ holds i, ∀ y ∈ holds j, x.handle = y.handle → i = j
  distinct : ∀ i, ((holds i).map Held.handle).Nodup

omit [DecidableEq P] [DecidableEq ι] in
theorem kept_start (start : Disk P) : Kept start (fun _ : ι => []) start :=
  ⟨le_refl _, fun _ _ h => h, fun _ _ => rfl, (fun _ _ hx => by cases hx),
    (fun _ _ hx => by cases hx), (fun _ _ _ hx => by cases hx), fun _ => List.nodup_nil⟩

variable {start disk disk' : Disk P} {holds : ι → List (Held P)} {i : ι}

omit [DecidableEq P] in
/-- **A step of a process that keeps to its own.** What it does not hold it
leaves, and what it holds then it has held before, or is new. -/
theorem Kept.step (h : Kept start holds disk) {held : List (Held P)}
    (hnext : disk.next ≤ disk'.next)
    (hdir : ∀ p k, disk.dir p = some k → (∀ x ∈ holds i, x.handle ≠ k) → disk'.dir p = some k)
    (hfile : ∀ k, k < disk.next → (∀ x ∈ holds i, x.handle ≠ k) → disk'.file k = disk.file k)
    (hheld : ∀ x ∈ held, disk'.dir x.path = some x.handle ∧ x.Describes (disk'.file x.handle) ∧
      ((∃ y ∈ holds i, y.handle = x.handle) ∨ disk.next ≤ x.handle))
    (hdistinct : (held.map Held.handle).Nodup) :
    Kept start (Function.update holds i held) disk' := by
  have hle := h.next_le
  -- a file is the process's own, or another's, who holds it as before
  have hcases : ∀ j, ∀ x ∈ Function.update holds i held j,
      j = i ∧ x ∈ held ∨ j ≠ i ∧ x ∈ holds j ∧ ∀ y ∈ holds i, y.handle ≠ x.handle := by
    intro j x hx
    by_cases hj : j = i
    · subst hj
      rw [Function.update_self] at hx
      exact .inl ⟨rfl, hx⟩
    · rw [Function.update_of_ne hj] at hx
      exact .inr ⟨hj, hx, fun y hy heq => hj (h.apart i j y hy x hx heq).symm⟩
  have hnotOld : ∀ k, k < start.next → ∀ x ∈ holds i, x.handle ≠ k := by
    intro k hk x hx
    have := (h.newer i x hx).1
    omega
  refine ⟨le_trans hle hnext, fun p k hp => ?_, fun k hk => ?_, fun j x hx => ?_, fun j x hx => ?_,
    fun j k x hx y hy heq => ?_, fun j => ?_⟩
  · exact hdir p k (h.dir p k hp) (hnotOld k (start.fresh p k hp))
  · rw [hfile k (by omega) (hnotOld k hk), h.file k hk]
  · rcases hcases j x hx with ⟨rfl, hown⟩ | ⟨-, hothers, -⟩
    · obtain ⟨hthere, -, ⟨y, hy, hsame⟩ | hnew⟩ := hheld x hown
      · exact ⟨hsame ▸ (h.newer j y hy).1, disk'.fresh _ _ hthere⟩
      · exact ⟨by omega, disk'.fresh _ _ hthere⟩
    · obtain ⟨hlow, hhigh⟩ := h.newer j x hothers
      exact ⟨hlow, by omega⟩
  · rcases hcases j x hx with ⟨rfl, hown⟩ | ⟨-, hothers, hne⟩
    · exact ⟨(hheld x hown).1, (hheld x hown).2.1⟩
    · obtain ⟨hthere, hdescribes⟩ := h.held j x hothers
      refine ⟨hdir _ _ hthere hne, ?_⟩
      rw [hfile _ (h.newer j x hothers).2 hne]
      exact hdescribes
  · -- what is new to one process was nobody's
    have hmeets : ∀ x ∈ held, ∀ k, ∀ y ∈ holds k, x.handle = y.handle → k = i := by
      intro x hx k y hy heq
      obtain ⟨-, -, ⟨z, hz, hsame⟩ | hnew⟩ := hheld x hx
      · exact (h.apart i k z hz y hy (hsame.trans heq)).symm
      · have := (h.newer k y hy).2
        omega
    rcases hcases j x hx with ⟨rfl, hown⟩ | ⟨-, hothers, -⟩
    · rcases hcases k y hy with ⟨rfl, -⟩ | ⟨-, hothers, -⟩
      · rfl
      · exact (hmeets x hown k y hothers heq).symm
    · rcases hcases k y hy with ⟨rfl, hown⟩ | ⟨-, hothers', -⟩
      · exact hmeets y hown j x hothers heq.symm
      · exact h.apart j k x hothers y hothers' heq
  · by_cases hj : j = i
    · subst hj
      rwa [Function.update_self]
    · rw [Function.update_of_ne hj]
      exact h.distinct j

omit [DecidableEq P] [DecidableEq ι] in
/-- A file that is held is held once. -/
theorem Kept.eq_of_handle (h : Kept start holds disk) {x y : Held P} (hx : x ∈ holds i)
    (hy : y ∈ holds i) (heq : x.handle = y.handle) : x = y :=
  List.inj_on_of_nodup_map (h.distinct i) hx hy heq

omit [DecidableEq P] in
/-- A step that leaves the disk, and what is known of it. -/
theorem Kept.rest (h : Kept start holds disk) :
    Kept start (Function.update holds i (holds i)) disk :=
  h.step (le_refl _) (fun _ _ hp _ => hp) (fun _ _ _ => rfl)
    (fun x hx => ⟨(h.held i x hx).1, (h.held i x hx).2, .inl ⟨x, hx, rfl⟩⟩) (h.distinct i)

omit [DecidableEq P] [DecidableEq ι] in
/-- **What is put into a file that was there**, by whoever holds none, might
have been there from the start. -/
theorem Kept.put_start (h : Kept start holds disk) {k : ℕ} (hk : k < start.next)
    (content : Bytes) : Kept (start.put k content) holds (disk.put k content) := by
  refine ⟨h.next_le, h.dir, fun k' hk' => ?_, h.newer, fun i x hx => ?_, h.apart, h.distinct⟩
  · simp only [Disk.put, h.file k hk, Function.update_apply, h.file k' hk']
  · obtain ⟨hthere, hdescribes⟩ := h.held i x hx
    have hne : x.handle ≠ k := by
      have := (h.newer i x hx).1
      omega
    refine ⟨hthere, ?_⟩
    simpa only [Disk.put, Function.update_of_ne hne] using hdescribes

/-- **A new file** is the process's own. -/
theorem Kept.create (h : Kept start holds disk) {p : P} (hfree : disk.dir p = none) (mode : ℕ) :
    Kept start (Function.update holds i (⟨p, disk.next, mode, some []⟩ :: holds i))
      (disk.create p mode) := by
  have hname : ∀ q k, disk.dir q = some k → (disk.create p mode).dir q = some k := by
    intro q k hq
    have hne : q ≠ p := by
      rintro rfl
      rw [hq] at hfree
      cases hfree
    exact (Function.update_of_ne hne ..).trans hq
  have hfile : ∀ k, k < disk.next → (disk.create p mode).file k = disk.file k :=
    fun k hk => Function.update_of_ne (by omega) ..
  refine h.step (Nat.le_succ _) (fun q k hq _ => hname q k hq) (fun k hk _ => hfile k hk)
    (fun x hx => ?_) (List.nodup_cons.mpr ⟨fun hmem => ?_, h.distinct i⟩)
  · rcases List.mem_cons.mp hx with rfl | hx
    · refine ⟨Function.update_self .., ?_, .inr (le_refl _)⟩
      simp [Disk.create, Held.Describes]
    · obtain ⟨hthere, hdescribes⟩ := h.held i x hx
      refine ⟨hname _ _ hthere, ?_, .inl ⟨x, hx, rfl⟩⟩
      rw [hfile _ (h.newer i x hx).2]
      exact hdescribes
  · obtain ⟨y, hy, heq⟩ := List.mem_map.mp hmem
    have hlt := (h.newer i y hy).2
    rw [heq] at hlt
    exact absurd hlt (Nat.lt_irrefl _)

omit [DecidableEq P] in
/-- **Other content** in a file that the process holds. What it knows of that
file then is what was put there, or nothing. -/
theorem Kept.put (h : Kept start holds disk) {x : Held P} (hx : x ∈ holds i) {content : Bytes}
    {know : Held P → Option Bytes}
    (hknow : ∀ y ∈ holds i, ∀ found, know y = some found →
      y.handle = x.handle ∧ found = content ∨ y.handle ≠ x.handle ∧ y.content = some found) :
    Kept start (Function.update holds i ((holds i).map fun y => { y with content := know y }))
      (disk.put x.handle content) := by
  refine h.step (le_refl _) (fun _ _ hp _ => hp)
    (fun k _ hothers => Function.update_of_ne (fun heq => hothers x hx heq.symm) ..)
    (fun z hz => ?_) (by rw [List.map_map]; exact h.distinct i)
  obtain ⟨y, hy, rfl⟩ := List.mem_map.mp hz
  obtain ⟨hthere, hmode, hcontent⟩ := h.held i y hy
  refine ⟨hthere, ⟨?_, fun found hfound => ?_⟩, .inl ⟨y, hy, rfl⟩⟩
  · simp only [Disk.put, Function.update_apply]
    split
    · rename_i heq
      rw [← heq]
      exact hmode
    · exact hmode
  · rcases hknow y hy found hfound with ⟨heq, rfl⟩ | ⟨hne, hsame⟩
    · simp [Disk.put, heq]
    · simp only [Disk.put, Function.update_of_ne hne]
      exact hcontent found hsame

/-- **Removing** what the process holds. -/
theorem Kept.unlink (h : Kept start holds disk) {x : Held P} (hx : x ∈ holds i) :
    Kept start (Function.update holds i ((holds i).filter fun y => y.path ≠ x.path))
      (disk.unlink x.path) := by
  have hthere := (h.held i x hx).1
  refine h.step (le_refl _) (fun q k hq hothers => ?_) (fun _ _ _ => rfl) (fun y hy => ?_)
    ((h.distinct i).sublist (List.filter_sublist.map _))
  · have hne : q ≠ x.path := by
      rintro rfl
      exact hothers x hx (Option.some.inj (hthere.symm.trans hq))
    exact (Function.update_of_ne hne ..).trans hq
  · obtain ⟨hy, hne⟩ := List.mem_filter.mp hy
    obtain ⟨hythere, hdescribes⟩ := h.held i y hy
    exact ⟨(Function.update_of_ne (by simpa using hne) ..).trans hythere, hdescribes,
      .inl ⟨y, hy, rfl⟩⟩

/-- **An operation that a process may do** keeps the disk. -/
theorem Kept.perform (h : Kept start holds disk) (fault : Option Fault)
    (answer : String → Except IoError String) {o : Op P} (hok : Permits (holds i) o) :
    Kept start (Function.update holds i (hold (holds i) o (disk.perform fault answer o).2))
      (disk.perform fault answer o).1 := by
  cases o with
  | pathExists | createDirAll | syncAll | read | ask => exact h.rest
  | createNew p mode =>
      simp only [Disk.perform]
      split
      · exact h.rest
      · exact h.rest
      · rename_i hfree
        exact h.create hfree mode
  | writeAll k bytes =>
      obtain ⟨x, hx, rfl⟩ := hok
      have hcontent := (h.held i x hx).2.2
      simp only [Disk.perform]
      split
      · refine h.put hx fun y hy found hfound => ?_
        split at hfound
        · exact .inr ⟨‹_›, hfound⟩
        · cases hfound
      · refine h.put hx fun y hy found hfound => ?_
        split at hfound
        · exact .inr ⟨‹_›, hfound⟩
        · rename_i heq
          rw [not_not] at heq
          obtain ⟨was, hwas, rfl⟩ := Option.map_eq_some_iff.mp hfound
          rw [← heq, (h.held i y hy).2.2 was hwas]
          exact .inl ⟨rfl, rfl⟩
  | replaceContent p bytes =>
      obtain ⟨x, hx, rfl⟩ := hok
      have hthere := (h.held i x hx).1
      -- a file has one name only
      have hnames : ∀ y ∈ holds i, y.path ≠ x.path → y.handle ≠ x.handle :=
        fun y hy hne heq => hne (congrArg Held.path (h.eq_of_handle hy hx heq))
      have hsame : ∀ y ∈ holds i, y.path = x.path → y.handle = x.handle := by
        intro y hy heq
        have hy' := (h.held i y hy).1
        rw [heq, hthere] at hy'
        exact (Option.some.inj hy').symm
      cases fault with
      | some fault =>
          simp only [Disk.perform, hthere]
          refine h.put hx fun y hy found hfound => ?_
          split at hfound
          · exact .inr ⟨hnames y hy ‹_›, hfound⟩
          · cases hfound
      | none =>
          simp only [Disk.perform, hthere]
          refine h.put hx fun y hy found hfound => ?_
          split at hfound
          · exact .inr ⟨hnames y hy ‹_›, hfound⟩
          · rename_i heq
            exact .inl ⟨hsame y hy (not_not.mp heq), (Option.some.inj hfound).symm⟩
  | removeFile p =>
      obtain ⟨x, hx, rfl⟩ := hok
      cases fault with
      | some fault => exact h.rest
      | none =>
          simp only [Disk.perform, (h.held i x hx).1]
          exact h.unlink hx

/-! ## Any interleaving -/

variable {ω : Type} {outside : Outside ω} {s : ω} {journal : Journal ι (Op P) Op.Resp}

/-- **Steps in a row**, each of which its process may do. -/
theorem kept_of_serial (hserial : journal.Serial outside.exec (start, s))
    (hok : ∀ before i o r after, journal = before ++ (i, ⟨o, r⟩) :: after →
      Permits (holding (Journal.own i before)) o) :
    Kept start (holdings journal) (journal.state outside.exec (start, s)).1 := by
  induction journal using List.reverseRecOn with
  | nil => exact kept_start start
  | append_singleton journal entry ih =>
      obtain ⟨hbefore, hlast⟩ := Journal.serial_append.mp hserial
      have hkept := ih hbefore fun before j o' r' after heq =>
        hok before j o' r' (after ++ [entry]) (by rw [heq, List.append_assoc, List.cons_append])
      obtain ⟨i, o, r⟩ := entry
      let reached := Journal.state outside.exec (start, s) journal
      obtain rfl : r = (outside.exec reached o).2 := hlast.1
      have hstep := hkept.perform (outside.fault reached.2).2
        (outside.ask reached.2) (hok journal i o _ [] rfl)
      rw [holdings_append_singleton, Journal.state_append]
      exact hstep

/-- **The rule for processes that keep to the files they hold.** Wherever any
number of them have got to, what was on the disk is as it was, and what each of
them holds is there. -/
theorem kept_of_keeping {α : Type} {Q : ι → List (Held P) → α → Prop} (outside : Outside ω)
    (pool : Pool ι (Disk P × ω) (Op P) Op.Resp α) (hpool : ∀ i, Keeping (Q i) [] (pool.procs i))
    (schedule : List ι) :
    Kept pool.shared.1 (holdings (pool.journal outside.exec schedule))
        (Run.final (Pool.turn outside.exec) pool schedule).shared.1 ∧
      ∀ i a, ((Run.final (Pool.turn outside.exec) pool schedule).procs i).result? = some a →
        Q i (holdings (pool.journal outside.exec schedule) i) a := by
  obtain ⟨hserial, hstate⟩ := pool.journal_serial outside.exec schedule
  refine ⟨?_, fun i a hresult => ?_⟩
  · rw [hstate]
    exact kept_of_serial hserial fun before i o r after hsplit =>
      Pool.byPast_of_journal (hpool i) hsplit
  · have hreaches := pool.reaches_own outside.exec schedule i
    rw [Prog.eq_ret_of_result? hresult] at hreaches
    exact (hpool i).of_ret hreaches

omit [DecidableEq P] [DecidableEq ι] in
/-- What was there, still is. -/
theorem Kept.find?_start (h : Kept start holds disk) {p : P} {file : File}
    (hfile : start.find? p = some file) : disk.find? p = some file := by
  obtain ⟨k, hk, rfl⟩ := Option.map_eq_some_iff.mp hfile
  simp [Disk.find?, h.dir p k hk, h.file k (start.fresh p k hk)]

omit [DecidableEq P] [DecidableEq ι] in
/-- What is held is there. -/
theorem Kept.find?_held (h : Kept start holds disk) {x : Held P} (hx : x ∈ holds i)
    {content : Bytes} (hcontent : x.content = some content) :
    disk.find? x.path = some ⟨x.mode, content⟩ := by
  obtain ⟨hdir, hmode, hknown⟩ := h.held i x hx
  simp [Disk.find?, hdir, ← hmode, ← hknown content hcontent]

omit [DecidableEq P] [DecidableEq ι] in
/-- Two processes hold no name together. -/
theorem Kept.path_ne (h : Kept start holds disk) {j : ι} (hne : i ≠ j) {x y : Held P}
    (hx : x ∈ holds i) (hy : y ∈ holds j) : x.path ≠ y.path := by
  intro hpath
  have hdir := (h.held i x hx).1
  rw [hpath, (h.held j y hy).1] at hdir
  exact hne (h.apart i j x hx y hy (Option.some.inj hdir).symm)

end Kept

end Files

end Llmap
