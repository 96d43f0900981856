import Llmap.Common.Prog
/-!
# Journals

What programs that share an object call, in the order it is carried out,
each call with the program that made it and with its answer. A journal is
a serial execution: the state a call finds is the one the calls before it
lead to (`Journal.Serial`). And each program's own calls are a way through
it (`Prog.Reaches`), whatever the others do in between.

So what is to be shown of a call in an interleaving comes apart: what its
program called before, which is read off the program alone (`Prog.ByPast`),
and what the shared state was then, which is read off the journal alone.

A program may be written over operations that are programs themselves
(`Prog.subst`). Its calls are then those of its operations, one after
another, the last of them not yet complete (`Prog.Reaches.of_subst`).
-/

namespace Llmap

namespace Prog

variable {O : Type} {Resp : O → Type} {α β : Type}

/-! ## Ways through a program -/

/-- **A way through a program**: what it calls and is answered, and where
it has got to then. -/
inductive Reaches : Prog O Resp α → List ((o : O) × Resp o) → Prog O Resp α → Prop
  | refl (p : Prog O Resp α) : Reaches p [] p
  | call {o : O} {k : Resp o → Prog O Resp α} (r : Resp o) {past : List ((o : O) × Resp o)}
      {q : Prog O Resp α} (h : Reaches (k r) past q) : Reaches (.call o k) (⟨o, r⟩ :: past) q

variable {p q : Prog O Resp α} {past : List ((o : O) × Resp o)}

/-- A way can be stopped at any of its calls. -/
theorem Reaches.split {before after : List ((o : O) × Resp o)} {o : O} {r : Resp o}
    (h : p.Reaches (before ++ ⟨o, r⟩ :: after) q) :
    ∃ k, p.Reaches before (.call o k) ∧ (k r).Reaches after q := by
  induction before generalizing p with
  | nil =>
      cases h with
      | call r h => exact ⟨_, .refl _, h⟩
  | cons event before ih =>
      cases h with
      | call r h =>
          obtain ⟨k, hbefore, hafter⟩ := ih h
          exact ⟨k, .call _ hbefore, hafter⟩

/-- A program that is answered as promised calls what it may on the way, and
goes on to. -/
theorem Reaches.obeys {pre : O → Prop} {post : (o : O) → Resp o → Prop} {P : α → Prop}
    (h : p.Reaches past q) (hp : p.Obeys pre post P)
    (hpast : ∀ event ∈ past, post event.1 event.2) :
    (∀ event ∈ past, pre event.1) ∧ q.Obeys pre post P := by
  induction h with
  | refl p => exact ⟨nofun, hp⟩
  | call r h ih =>
      obtain ⟨hcalled, hrest⟩ := ih (hp.2 r (hpast _ List.mem_cons_self))
        fun event hmem => hpast event (List.mem_cons_of_mem _ hmem)
      refine ⟨fun event hmem => ?_, hrest⟩
      rcases List.mem_cons.mp hmem with rfl | hmem
      · exact hp.1
      · exact hcalled event hmem

/-- The way through a single call. -/
theorem Reaches.op_eq {o : O} {r : Resp o} (h : (op o).Reaches past (.ret r)) :
    past = [⟨o, r⟩] := by
  cases h with
  | call r h =>
      cases h
      rfl

/-! ## What a program goes by -/

/-- **A program that goes by its past.** Every operation it calls is
permitted by what it has called before and was answered, and what it returns
is right by all of that. -/
def ByPast (ok : List ((o : O) × Resp o) → O → Prop) (Q : List ((o : O) × Resp o) → α → Prop)
    (past : List ((o : O) × Resp o)) (p : Prog O Resp α) : Prop :=
  p.Follows (fun past o r => past ++ [⟨o, r⟩]) ok Q past

variable {ok : List ((o : O) × Resp o) → O → Prop} {Q : List ((o : O) × Resp o) → α → Prop}

theorem ByPast.bind {P : List ((o : O) × Resp o) → α → Prop}
    {Q : List ((o : O) × Resp o) → β → Prop} {f : α → Prog O Resp β} (hp : p.ByPast ok P past)
    (hf : ∀ past a, P past a → (f a).ByPast ok Q past) : (p >>= f).ByPast ok Q past :=
  Follows.bind hp hf

/-- What was called before a program is still past when it returns. -/
theorem ByPast.weaken {Q' : List ((o : O) × Resp o) → α → Prop} (hp : p.ByPast ok Q past)
    (h : ∀ later a, past ⊆ later → Q later a → Q' later a) : p.ByPast ok Q' past := by
  induction p generalizing past with
  | ret a => exact h past a (List.Subset.refl _) hp
  | call o k ih =>
      refine ⟨hp.1, fun r => ih r (hp.2 r) fun later a hsub => ?_⟩
      exact h later a (List.Subset.trans (List.subset_append_left ..) hsub)

/-- It does so wherever it has got to. -/
theorem ByPast.reaches {later : List ((o : O) × Resp o)} (hp : p.ByPast ok Q past)
    (h : p.Reaches later q) : q.ByPast ok Q (past ++ later) := by
  induction h generalizing past with
  | refl p => simpa using hp
  | call r h ih => simpa using ih (hp.2 r)

theorem ByPast.of_call {later : List ((o : O) × Resp o)} {o : O} {k : Resp o → Prog O Resp α}
    (hp : p.ByPast ok Q past) (h : p.Reaches later (.call o k)) : ok (past ++ later) o :=
  (hp.reaches h).1

theorem ByPast.of_ret {later : List ((o : O) × Resp o)} {a : α} (hp : p.ByPast ok Q past)
    (h : p.Reaches later (.ret a)) : Q (past ++ later) a :=
  hp.reaches h

/-- A program that obeys goes by any past that permits what it may call, as
long as the past goes on to permit it. -/
theorem ByPast.of_obeys {pre : O → Prop} {P : α → Prop} {I : List ((o : O) × Resp o) → Prop}
    (hp : p.Obeys pre (fun _ _ => True) P) (hpast : I past)
    (hnext : ∀ past o r, I past → I (past ++ [⟨o, r⟩])) (hok : ∀ past o, I past → pre o → ok past o)
    (hret : ∀ past a, I past → P a → Q past a) : p.ByPast ok Q past := by
  induction p generalizing past with
  | ret a => exact hret past a hpast hp
  | call o k ih =>
      exact ⟨hok past o hpast hp.1, fun r => ih r (hp.2 r trivial) (hnext past o r hpast)⟩

theorem eq_ret_of_result? {a : α} (h : p.result? = some a) : p = .ret a := by
  cases p with
  | ret b => exact congrArg ret (Option.some.inj h)
  | call o k => cases h

/-! ## Programs over programs -/

theorem obeys_trivial (p : Prog O Resp α) :
    p.Obeys (fun _ => True) (fun _ _ => True) (fun _ => True) := by
  induction p with
  | ret a => exact trivial
  | call o k ih => exact ⟨trivial, fun r _ => ih r⟩

/-- A program that obeys under fewer promises does under more. -/
theorem Obeys.imp {pre pre' : O → Prop} {post post' : (o : O) → Resp o → Prop} {P : α → Prop}
    (hp : p.Obeys pre post P) (hpre : ∀ o, pre o → pre' o)
    (hpost : ∀ o r, post' o r → post o r) : p.Obeys pre' post' P := by
  induction p with
  | ret a => exact hp
  | call o k ih => exact ⟨hpre o hp.1, fun r hr => ih r (hp.2 r (hpost o r hr))⟩

/-- What comes first in a program that obeys, obeys. -/
theorem Obeys.of_bind {pre : O → Prop} {post : (o : O) → Resp o → Prop} {P : β → Prop}
    {f : α → Prog O Resp β} (h : (p >>= f).Obeys pre post P) :
    p.Obeys pre post (fun _ => True) := by
  induction p with
  | ret a => exact trivial
  | call o k ih => exact ⟨h.1, fun r hr => ih r (h.2 r hr)⟩

section Subst

variable {O' : Type} {Resp' : O' → Type} {f : (o : O) → Prog O' Resp' (Resp o)}

theorem subst_bind (p : Prog O Resp α) (g : α → Prog O Resp β) :
    (p >>= g).subst f = p.subst f >>= fun a => (g a).subst f := by
  induction p with
  | ret a => rfl
  | call o k ih =>
      change (f o >>= fun r => (k r >>= g).subst f) = (f o >>= fun r => (k r).subst f) >>= _
      rw [bind_assoc]
      exact congrArg (f o >>= ·) (funext ih)

/-- A program calls nothing but what its operations call. -/
theorem obeys_subst {pre : O' → Prop} {post : (o : O') → Resp' o → Prop}
    (hf : ∀ o, (f o).Obeys pre post (fun _ => True)) (p : Prog O Resp α) :
    (p.subst f).Obeys pre post (fun _ => True) := by
  induction p with
  | ret a => exact trivial
  | call o k ih => exact (hf o).bind fun r _ => ih r

/-- What a program obeys, it obeys under other names. -/
theorem Obeys.lift {g : O → O'} {back : ∀ o, Resp' (g o) → Resp o} {pre : O → Prop}
    {pre' : O' → Prop} {post : (o : O) → Resp o → Prop} {post' : (o : O') → Resp' o → Prop}
    {P : α → Prop} (hp : p.Obeys pre post P) (hpre : ∀ o, pre o → pre' (g o))
    (hpost : ∀ o r, post' (g o) r → post o (back o r)) : (p.lift g back).Obeys pre' post' P := by
  induction p with
  | ret a => exact hp
  | call o k ih => exact ⟨hpre o hp.1, fun r hr => ih _ (hp.2 _ (hpost o r hr))⟩

/-- What a program goes by, it goes by under other names, where no other call is
seen. -/
theorem ByPast.lift {g : O → O'} {back : ∀ o, Resp' (g o) → Resp o}
    (see : (o : O') × Resp' o → Option ((o : O) × Resp o))
    {ok' : List ((o : O') × Resp' o) → O' → Prop} {Q' : List ((o : O') × Resp' o) → α → Prop}
    {past : List ((o : O') × Resp' o)} (hsee : ∀ o r, see ⟨g o, r⟩ = some ⟨o, back o r⟩)
    (hp : p.ByPast ok Q (past.filterMap see))
    (hok : ∀ past o, ok (past.filterMap see) o → ok' past (g o))
    (hQ : ∀ past a, Q (past.filterMap see) a → Q' past a) :
    (p.lift g back).ByPast ok' Q' past := by
  induction p generalizing past with
  | ret a => exact hQ past a hp
  | call o k ih =>
      refine ⟨hok past o hp.1, fun r => ih _ ?_⟩
      rw [List.filterMap_append, List.filterMap_cons_some (hsee o r), List.filterMap_nil]
      exact hp.2 (back o r)

/-- **Calls spelled out**: each of them by the way through the program it
stands for, to its answer. -/
inductive Spelled (f : (o : O) → Prog O' Resp' (Resp o)) :
    List ((o : O) × Resp o) → List ((o : O') × Resp' o) → Prop
  | nil : Spelled f [] []
  | cons {o : O} {r : Resp o} {past : List ((o : O) × Resp o)}
      {first rest : List ((o : O') × Resp' o)} (hfirst : (f o).Reaches first (.ret r))
      (hrest : Spelled f past rest) : Spelled f (⟨o, r⟩ :: past) (first ++ rest)

/-- A way through a sequence, to a call, is one through its first part, or
goes on in the second. -/
theorem Reaches.of_bind {f : α → Prog O Resp β} {o : O} {k : Resp o → Prog O Resp β}
    (h : (p >>= f).Reaches past (.call o k)) :
    (∃ k, p.Reaches past (.call o k)) ∨
      ∃ first rest a, past = first ++ rest ∧ p.Reaches first (.ret a) ∧
        (f a).Reaches rest (.call o k) := by
  induction p generalizing past with
  | ret a => exact .inr ⟨[], past, a, rfl, .refl _, h⟩
  | call o' k' ih =>
      cases h with
      | refl => exact .inl ⟨k', .refl _⟩
      | call r h =>
          rcases ih r h with ⟨k, hk⟩ | ⟨first, rest, a, rfl, hfirst, hrest⟩
          · exact .inl ⟨k, .call r hk⟩
          · exact .inr ⟨_ :: first, rest, a, rfl, .call r hfirst, hrest⟩

/-- **The calls of a program over programs**: those that are complete,
spelled out, and then what the program of the next one has called. -/
theorem Reaches.of_subst {calls : List ((o : O') × Resp' o)} {o' : O'}
    {k' : Resp' o' → Prog O' Resp' α} (h : (p.subst f).Reaches calls (.call o' k')) :
    ∃ past o k complete part k', p.Reaches past (.call o k) ∧ Spelled f past complete ∧
      calls = complete ++ part ∧ (f o).Reaches part (.call o' k') := by
  induction p generalizing calls with
  | ret a => cases h
  | call o k ih =>
      rcases Reaches.of_bind h with ⟨k', hk'⟩ | ⟨first, rest, r, rfl, hfirst, hrest⟩
      · exact ⟨[], o, k, [], calls, k', .refl _, .nil, rfl, hk'⟩
      · obtain ⟨past, o₁, k₁, complete, part, k', hpast, hspelled, rfl, hend⟩ := ih r hrest
        exact ⟨⟨o, r⟩ :: past, o₁, k₁, first ++ complete, part, k', .call r hpast,
          .cons hfirst hspelled, (List.append_assoc ..).symm, hend⟩

/-- Each call is spelled out somewhere. -/
theorem Spelled.of_mem {past : List ((o : O) × Resp o)} {calls : List ((o : O') × Resp' o)} {o : O}
    {r : Resp o} (h : Spelled f past calls) (hmem : ⟨o, r⟩ ∈ past) :
    ∃ own, (f o).Reaches own (.ret r) ∧ own ⊆ calls := by
  induction h with
  | nil => cases hmem
  | @cons o' r' past first rest hfirst hrest ih =>
      rcases List.mem_cons.mp hmem with heq | hmem
      · obtain ⟨rfl, hr⟩ := Sigma.mk.inj heq
        obtain rfl := eq_of_heq hr
        exact ⟨first, hfirst, List.subset_append_left ..⟩
      · obtain ⟨own, hown, hsub⟩ := ih hmem
        exact ⟨own, hown, List.subset_append_of_subset_right _ hsub⟩

/-- **What is seen of calls that are spelled out**: of each call that is seen
itself, what is seen of its part, and of the others nothing. -/
theorem Spelled.forall₂_filterMap {γ δ : Type} {see : (o : O) × Resp o → Option γ}
    {see' : (o : O') × Resp' o → Option δ} {R : γ → List δ → Prop}
    {past : List ((o : O) × Resp o)} {calls : List ((o : O') × Resp' o)} (h : Spelled f past calls)
    (hnone : ∀ {o : O} {r : Resp o} {own : List ((o : O') × Resp' o)}, see ⟨o, r⟩ = none →
      (f o).Reaches own (.ret r) → own.filterMap see' = [])
    (hsome : ∀ {o : O} {r : Resp o} {own : List ((o : O') × Resp' o)} {c : γ},
      see ⟨o, r⟩ = some c → (f o).Reaches own (.ret r) → R c (own.filterMap see')) :
    ∃ parts, List.Forall₂ R (past.filterMap see) parts ∧
      calls.filterMap see' = parts.flatten := by
  induction h with
  | nil => exact ⟨[], .nil, rfl⟩
  | @cons o r past first rest hfirst hrest ih =>
      obtain ⟨parts, hparts, heq⟩ := ih
      cases hsee : see ⟨o, r⟩ with
      | none =>
          refine ⟨parts, ?_, ?_⟩
          · rwa [List.filterMap_cons_none hsee]
          · rw [List.filterMap_append, hnone hsee hfirst, heq, List.nil_append]
      | some c =>
          refine ⟨first.filterMap see' :: parts, ?_, ?_⟩
          · rw [List.filterMap_cons_some hsee]
            exact .cons (hsome hsee hfirst) hparts
          · rw [List.filterMap_append, heq, List.flatten_cons]

end Subst

end Prog

/-! ## Journals -/

/-- What was called, by whom, and what was answered. -/
abbrev Journal (ι : Type) (O : Type) (Resp : O → Type) := List (ι × (o : O) × Resp o)

namespace Journal

variable {ι σ : Type} {O : Type} {Resp : O → Type} {exec : σ → (o : O) → σ × Resp o}
variable {journal before after : Journal ι O Resp} {i : ι} {s : σ}

/-- What one of them called. -/
def own [DecidableEq ι] (i : ι) (journal : Journal ι O Resp) : List ((o : O) × Resp o) :=
  (journal.filter fun entry => entry.1 = i).map Prod.snd

/-- The state a journal leads to. -/
def state (exec : σ → (o : O) → σ × Resp o) (s : σ) (journal : Journal ι O Resp) : σ :=
  journal.foldl (fun s entry => (exec s entry.2.1).1) s

/-- **A journal of what was carried out in a row**: each call is answered
by the state that the calls before it lead to. -/
def Serial (exec : σ → (o : O) → σ × Resp o) : σ → Journal ι O Resp → Prop
  | _, [] => True
  | s, (_, ⟨o, r⟩) :: rest => r = (exec s o).2 ∧ Serial exec (exec s o).1 rest

@[simp] theorem own_append [DecidableEq ι] (i : ι) (before after : Journal ι O Resp) :
    own i (before ++ after) = own i before ++ own i after := by
  simp [own]

@[simp] theorem own_cons_self [DecidableEq ι] (i : ι) (event : (o : O) × Resp o)
    (journal : Journal ι O Resp) : own i ((i, event) :: journal) = event :: own i journal := by
  simp [own]

theorem mem_of_mem_own [DecidableEq ι] {event : (o : O) × Resp o} (h : event ∈ own i journal) :
    (i, event) ∈ journal := by
  obtain ⟨⟨j, event⟩, hmem, rfl⟩ := List.mem_map.mp h
  obtain ⟨hentry, hj⟩ := List.mem_filter.mp hmem
  obtain rfl : j = i := by simpa using hj
  exact hentry

@[simp] theorem state_nil (s : σ) : state exec s ([] : Journal ι O Resp) = s := rfl

@[simp] theorem state_append (s : σ) (before after : Journal ι O Resp) :
    state exec s (before ++ after) = state exec (state exec s before) after :=
  List.foldl_append

@[simp] theorem state_cons (s : σ) (entry : ι × (o : O) × Resp o) (journal : Journal ι O Resp) :
    state exec s (entry :: journal) = state exec (exec s entry.2.1).1 journal := rfl

theorem serial_append :
    Serial exec s (before ++ after) ↔
      Serial exec s before ∧ Serial exec (state exec s before) after := by
  induction before generalizing s with
  | nil => simp [Serial]
  | cons entry before ih =>
      rw [List.cons_append, state_cons, Serial, Serial, ih, and_assoc]

/-- What a call is answered, by the state it finds. -/
theorem Serial.answer {o : O} {r : Resp o}
    (h : Serial exec s (before ++ (i, ⟨o, r⟩) :: after)) : r = (exec (state exec s before) o).2 :=
  (serial_append.mp h).2.1

/-- A journal up to one of its calls is one. -/
theorem Serial.upTo (h : Serial exec s (before ++ after)) : Serial exec s before :=
  (serial_append.mp h).1

/-- **The rule for journals.** What holds at the start, and goes on to hold
when a call is carried out and put down, holds of every journal and the
state it leads to. -/
theorem Serial.final_induct {I : Journal ι O Resp → σ → Prop} (h : Serial exec s journal)
    (hstart : I [] s)
    (hcall : ∀ past s i o, I past s → I (past ++ [(i, ⟨o, (exec s o).2⟩)]) (exec s o).1) :
    I journal (state exec s journal) := by
  induction journal using List.reverseRecOn with
  | nil => exact hstart
  | append_singleton journal entry ih =>
      obtain ⟨hbefore, hlast⟩ := serial_append.mp h
      obtain ⟨i, o, r⟩ := entry
      obtain rfl : r = _ := hlast.1
      rw [state_append]
      exact hcall journal _ i o (ih hbefore)

/-- A call of one of them is somewhere in the journal. -/
theorem exists_of_own_eq [DecidableEq ι] {past later : List ((o : O) × Resp o)}
    {event : (o : O) × Resp o} (h : own i journal = past ++ event :: later) :
    ∃ before after, journal = before ++ (i, event) :: after ∧ own i before = past ∧
      own i after = later := by
  induction journal generalizing past with
  | nil => simp [own] at h
  | cons entry journal ih =>
      obtain ⟨j, event'⟩ := entry
      by_cases hj : j = i
      · subst hj
        rw [own_cons_self] at h
        cases past with
        | nil =>
            obtain ⟨rfl, rfl⟩ := List.cons.inj h
            exact ⟨[], journal, rfl, rfl, rfl⟩
        | cons first past =>
            obtain ⟨rfl, hrest⟩ := List.cons.inj h
            obtain ⟨before, after, rfl, rfl, rfl⟩ := ih hrest
            exact ⟨(j, event') :: before, after, rfl, own_cons_self .., rfl⟩
      · have hskip : ∀ rest : Journal ι O Resp, own i ((j, event') :: rest) = own i rest := by
          intro rest
          simp [own, hj]
        rw [hskip] at h
        obtain ⟨before, after, rfl, rfl, rfl⟩ := ih h
        exact ⟨(j, event') :: before, after, rfl, hskip before, rfl⟩

/-- **A call that one of them made**, and the state that answered it. -/
theorem Serial.of_mem_own [DecidableEq ι] {o : O} {r : Resp o} (h : Serial exec s journal)
    (hmem : ⟨o, r⟩ ∈ own i journal) :
    ∃ before after, journal = before ++ (i, ⟨o, r⟩) :: after ∧ Serial exec s before ∧
      r = (exec (state exec s before) o).2 := by
  obtain ⟨past, later, hown⟩ := List.append_of_mem hmem
  obtain ⟨before, after, rfl, -, -⟩ := exists_of_own_eq hown
  exact ⟨before, after, rfl, h.upTo, h.answer⟩

/-- What a state is, it stays, if every call keeps it that is made. -/
theorem state_induct {I : σ → Prop} {ok : O → Prop} (hexec : ∀ s o, I s → ok o → I (exec s o).1)
    (hs : I s) (hok : ∀ entry ∈ journal, ok entry.2.1) : I (state exec s journal) := by
  induction journal generalizing s with
  | nil => exact hs
  | cons entry journal ih =>
      exact ih (hexec s _ hs (hok entry List.mem_cons_self))
        fun later hlater => hok later (List.mem_cons_of_mem _ hlater)

/-- **A call of a newcomer** comes after what was called when it had called
nothing. -/
theorem exists_between [DecidableEq ι] {early since earlier later : Journal ι O Resp} {i j : ι}
    {event event' : (o : O) × Resp o}
    (h : early ++ (j, event) :: since = earlier ++ (i, event') :: later)
    (hnew : own i early = []) (hne : event ≠ event') :
    ∃ between, earlier = early ++ (j, event) :: between ∧ between ⊆ since := by
  rcases List.append_eq_append_iff.mp h with ⟨rest, rfl, hrest⟩ | ⟨rest, rfl, hrest⟩
  · cases rest with
    | nil => exact absurd (Prod.mk.inj (List.cons.inj hrest).1).2 hne
    | cons first between =>
        obtain ⟨rfl, rfl⟩ := List.cons.inj hrest
        exact ⟨between, rfl, List.subset_append_left ..⟩
  · cases rest with
    | nil => exact absurd (Prod.mk.inj (List.cons.inj hrest).1).2.symm hne
    | cons first between =>
        obtain ⟨rfl, -⟩ := List.cons.inj hrest
        simp at hnew

end Journal

/-! ## The journal of a pool -/

namespace Pool

variable {ι σ α : Type} [DecidableEq ι] {O : Type} {Resp : O → Type}
variable (exec : σ → (o : O) → σ × Resp o)

/-- The journal of a schedule. -/
def journal : Pool ι σ O Resp α → List ι → Journal ι O Resp
  | _, [] => []
  | pool, i :: schedule =>
      (pool.made exec i).map (fun event => (i, event)) ++ journal (pool.turn exec i) schedule

variable (pool : Pool ι σ O Resp α) (schedule : List ι)

/-- **It is a serial execution** that leads to the state of the pool. -/
theorem journal_serial :
    (pool.journal exec schedule).Serial exec pool.shared ∧
      (Run.final (turn exec) pool schedule).shared =
        (pool.journal exec schedule).state exec pool.shared := by
  induction schedule generalizing pool with
  | nil => exact ⟨trivial, rfl⟩
  | cons i schedule ih =>
      obtain ⟨hserial, hstate⟩ := ih (pool.turn exec i)
      rw [journal, Run.final_cons]
      cases hproc : pool.procs i with
      | ret a =>
          rw [turn_of_ret hproc] at hserial hstate ⊢
          rw [made, hproc]
          exact ⟨hserial, hstate⟩
      | call o k =>
          rw [turn_of_call hproc] at hserial hstate ⊢
          rw [made, hproc]
          exact ⟨⟨rfl, hserial⟩, hstate⟩

/-- **Each program's own calls are a way through it**, to where it has got
to. -/
theorem reaches_own (i : ι) :
    (pool.procs i).Reaches (Journal.own i (pool.journal exec schedule))
      ((Run.final (turn exec) pool schedule).procs i) := by
  induction schedule generalizing pool with
  | nil => exact .refl _
  | cons j schedule ih =>
      have hrest := ih (pool.turn exec j)
      rw [journal, Run.final_cons, Journal.own_append]
      cases hproc : pool.procs j with
      | ret a =>
          rw [turn_of_ret hproc] at hrest ⊢
          rw [made, hproc]
          exact hrest
      | call o k =>
          rw [made, hproc]
          by_cases hj : j = i
          · subst hj
            have hturn : (pool.turn exec j).procs j = k (exec pool.shared o).2 := by
              rw [turn_of_call hproc]
              exact Function.update_self ..
            rw [hturn] at hrest
            rw [hproc, List.map_cons, Journal.own_cons_self]
            exact .call _ hrest
          · have hother : Journal.own i [(j, (⟨o, (exec pool.shared o).2⟩ : (o : O) × Resp o))] =
                [] := by
              simp [Journal.own, hj]
            rw [turn_procs_of_ne (Ne.symm hj)] at hrest
            rw [List.map_cons, List.map_nil, hother]
            exact hrest

/-- **A program that is left alone** comes to its end, as when it is run. -/
theorem exists_alone {i : ι} {p : Prog O Resp α} (h : pool.procs i = p) :
    ∃ n, (Run.final (turn exec) pool (List.replicate n i)).shared = (p.run exec pool.shared).1 ∧
      (Run.final (turn exec) pool (List.replicate n i)).procs i =
        .ret (p.run exec pool.shared).2 := by
  induction p generalizing pool with
  | ret a => exact ⟨0, rfl, h⟩
  | call o k ih =>
      have hturn : pool.turn exec i = _ := turn_of_call h
      have hnext : (pool.turn exec i).procs i = k (exec pool.shared o).2 := by
        rw [hturn]
        exact Function.update_self ..
      obtain ⟨n, hshared, hproc⟩ := ih _ (pool.turn exec i) hnext
      rw [hturn] at hshared hproc
      refine ⟨n + 1, ?_, ?_⟩
      · rw [List.replicate_succ, Run.final_cons, hturn, hshared]
        rfl
      · rw [List.replicate_succ, Run.final_cons, hturn, hproc]
        rfl

variable {exec} {pool schedule}

/-- **A call in an interleaving**: its program had got to it by its own
calls before, and the state it found is the one the journal says. -/
theorem exists_of_journal {before after : Journal ι O Resp} {i : ι} {o : O} {r : Resp o}
    (h : pool.journal exec schedule = before ++ (i, ⟨o, r⟩) :: after) :
    r = (exec (before.state exec pool.shared) o).2 ∧
      ∃ k, (pool.procs i).Reaches (Journal.own i before) (.call o k) := by
  have hserial := (pool.journal_serial exec schedule).1
  have hreaches := pool.reaches_own exec schedule i
  rw [h] at hserial
  rw [h, Journal.own_append, Journal.own_cons_self] at hreaches
  obtain ⟨k, hbefore, -⟩ := hreaches.split
  exact ⟨hserial.answer, k, hbefore⟩

/-- **What a program goes by holds in every interleaving.** -/
theorem byPast_of_journal {ok : List ((o : O) × Resp o) → O → Prop}
    {Q : List ((o : O) × Resp o) → α → Prop} {before after : Journal ι O Resp} {i : ι} {o : O}
    {r : Resp o} (hp : (pool.procs i).ByPast ok Q [])
    (h : pool.journal exec schedule = before ++ (i, ⟨o, r⟩) :: after) :
    ok (Journal.own i before) o := by
  obtain ⟨-, k, hreaches⟩ := exists_of_journal h
  exact hp.of_call hreaches

end Pool

end Llmap
