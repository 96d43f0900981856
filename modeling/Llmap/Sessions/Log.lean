import Llmap.Sessions.Model
/-!
# Sessions and their log

What sessions are for, without a table of them: a log of what was
granted, used, issued and logged out of (`Event`), and from it alone
whether a token is to be accepted (`Accepts`). The manager keeps a table
instead, takes the expired out of it at one time or another, and agrees
with the log whatever calls are made of it and however their sections
interleave.

Between the two stands what a log says of one token (`track`), read from
its start to its end. A session in the table is what its token's `track`
says it is, and a token with a `track` and no session has expired.
-/

namespace Llmap

namespace Sessions

/-- What happens to sessions. -/
inductive Event where
  | granted (token csrfToken : String) (at_ : DateTime)
  | used (token : String) (at_ : DateTime)
  | issued (token csrfToken : String)
  | loggedOut (token : String)
deriving DecidableEq

namespace Event

/-- The token an event is about. -/
def token : Event → String
  | granted token _ _ => token
  | used token _ => token
  | issued token _ => token
  | loggedOut token => token

/-- The token a grant is of. -/
def grant? : Event → Option String
  | granted token _ _ => some token
  | _ => none

/-- The time of a use of a token. -/
def usedAt? (token : String) : Event → Option DateTime
  | used token' time => if token' = token then some time else none
  | _ => none

/-- The CSRF token issued for a token. -/
def issued? (token : String) : Event → Option String
  | issued token' csrfToken => if token' = token then some csrfToken else none
  | _ => none

end Event

/-- The event a section and its answer are. One that fails is none, and
neither is a count. -/
def Entry.event? : Entry → Option Event
  | ⟨.login _ _ _ _ _ now, .ok grant⟩ => some (.granted grant.token grant.csrfToken now)
  | ⟨.authenticate sessionToken _ _ now, .ok ()⟩ => some (.used sessionToken now)
  | ⟨.storeCsrf sessionToken _, .ok csrfToken⟩ => some (.issued sessionToken csrfToken)
  | ⟨.logout sessionToken, ()⟩ => some (.loggedOut sessionToken)
  | _ => none

/-- The log of a history. -/
def logOf (history : List Entry) : List Event := history.filterMap Entry.event?

/-! ## By the log -/

/-- The time of the latest use of a token granted at a time. -/
def lastUse (token : String) (createdAt : DateTime) (since : List Event) : DateTime :=
  (since.filterMap (Event.usedAt? token)).getLastD createdAt

/-- The CSRF token most recently issued, for a token granted with one. -/
def lastCsrf (token csrfToken : String) (since : List Event) : String :=
  (since.filterMap (Event.issued? token)).getLastD csrfToken

/-- Neither timeout has passed. -/
def SessionPolicy.Within (policy : SessionPolicy) (createdAt lastUse now : DateTime) : Prop :=
  now < createdAt + policy.absoluteTimeout ∧ now ≤ lastUse + policy.idleTimeout

instance (policy : SessionPolicy) (createdAt lastUse now : DateTime) :
    Decidable (policy.Within createdAt lastUse now) :=
  inferInstanceAs (Decidable (_ ∧ _))

/-- What a log says of a token that was granted and not logged out of:
when it was granted, when it was used last, and the CSRF token. Every use
of it was within the timeouts. -/
def Stands (policy : SessionPolicy) (log : List Event) (token : String)
    (createdAt last : DateTime) (csrfToken : String) : Prop :=
  ∃ before first since, log = before ++ .granted token first createdAt :: since ∧
    .loggedOut token ∉ since ∧
    (∀ earlier time later, since = earlier ++ .used token time :: later →
      policy.Within createdAt (lastUse token createdAt earlier) time) ∧
    last = lastUse token createdAt since ∧ csrfToken = lastCsrf token first since

/-- **What is to be accepted**: a token that was granted and not logged
out of, within the timeouts, with the CSRF token if one is required. -/
def Accepts (policy : SessionPolicy) (log : List Event) (token : String)
    (csrfToken : Option String) (requireCsrf : Bool) (now : DateTime) : Prop :=
  ∃ createdAt last current, Stands policy log token createdAt last current ∧
    policy.Within createdAt last now ∧ (requireCsrf = true → csrfToken = some current)

/-! ## From its start to its end -/

/-- What is known of a token. -/
structure Standing where
  createdAt : DateTime
  lastUse : DateTime
  csrfToken : String

/-- What an event makes of it. -/
def follow (policy : SessionPolicy) (token : String) (standing : Option Standing) :
    Event → Option Standing
  | .granted token' csrfToken now =>
      if token' = token then some ⟨now, now, csrfToken⟩ else standing
  | .used token' now =>
      if token' = token then
        (standing.filter fun s => policy.Within s.createdAt s.lastUse now).map
          fun s => { s with lastUse := now }
      else standing
  | .issued token' csrfToken =>
      if token' = token then standing.map fun s => { s with csrfToken := csrfToken } else standing
  | .loggedOut token' => if token' = token then none else standing

/-- What a log says of a token. -/
def track (policy : SessionPolicy) (token : String) (log : List Event) : Option Standing :=
  log.foldl (follow policy token) none

@[simp] theorem track_append (policy : SessionPolicy) (token : String) (log : List Event)
    (event : Event) :
    track policy token (log ++ [event]) = follow policy token (track policy token log) event := by
  simp [track]

theorem lastUse_append (token : String) (createdAt : DateTime) (since : List Event)
    (event : Event) :
    lastUse token createdAt (since ++ [event]) =
      (event.usedAt? token).getD (lastUse token createdAt since) := by
  rw [lastUse, List.filterMap_append]
  cases h : event.usedAt? token <;> simp [h, lastUse]

theorem lastCsrf_append (token first : String) (since : List Event) (event : Event) :
    lastCsrf token first (since ++ [event]) =
      (event.issued? token).getD (lastCsrf token first since) := by
  rw [lastCsrf, List.filterMap_append]
  cases h : event.issued? token <;> simp [h, lastCsrf]

variable {policy : SessionPolicy} {log : List Event} {token csrfToken : String}
variable {createdAt last : DateTime}

/-- What stands was granted. -/
theorem Stands.granted (h : Stands policy log token createdAt last csrfToken) :
    ∃ first, .granted token first createdAt ∈ log := by
  obtain ⟨before, first, since, rfl, -⟩ := h
  exact ⟨first, by simp⟩

/-- **What one more event makes of a standing**: it is the grant, or it
goes on from one that stood. -/
theorem stands_append_iff {event : Event} :
    Stands policy (log ++ [event]) token createdAt last csrfToken ↔
      (event = .granted token csrfToken createdAt ∧ last = createdAt) ∨
      ∃ last' csrfToken', Stands policy log token createdAt last' csrfToken' ∧
        event ≠ .loggedOut token ∧
        (∀ time, event = .used token time → policy.Within createdAt last' time) ∧
        last = (event.usedAt? token).getD last' ∧
        csrfToken = (event.issued? token).getD csrfToken' := by
  constructor
  · rintro ⟨before, first, since, hlog, hout, huses, rfl, rfl⟩
    rcases List.eq_nil_or_concat since with rfl | ⟨since, event', rfl⟩
    · obtain ⟨-, hevent⟩ := List.append_inj' hlog rfl
      exact .inl ⟨List.singleton_inj.mp hevent, rfl⟩
    · rw [List.concat_eq_append] at hlog hout huses ⊢
      rw [← List.cons_append, ← List.append_assoc] at hlog
      obtain ⟨hbefore, hevent⟩ := List.append_inj' hlog rfl
      obtain rfl := List.singleton_inj.mp hevent
      refine .inr ⟨_, _, ⟨before, first, since, hbefore, fun hmem => ?_, ?_, rfl, rfl⟩, ?_, ?_,
        lastUse_append .., lastCsrf_append ..⟩
      · exact hout (List.mem_append_left _ hmem)
      · rintro earlier time later rfl
        exact huses earlier time (later ++ [event]) (by simp)
      · rintro rfl
        exact hout (by simp)
      · rintro time rfl
        exact huses since time [] rfl
  · rintro (⟨rfl, rfl⟩ | ⟨last', csrfToken', ⟨before, first, since, rfl, hout, huses, rfl, rfl⟩,
      hne, hwithin, rfl, rfl⟩)
    · exact ⟨log, csrfToken, [], rfl, by simp, by simp, rfl, rfl⟩
    · refine ⟨before, first, since ++ [event], by simp, ?_, ?_, (lastUse_append ..).symm,
        (lastCsrf_append ..).symm⟩
      · simpa [hout] using hne.symm
      · intro earlier time later hsince
        rcases List.eq_nil_or_concat later with rfl | ⟨later, event', rfl⟩
        · -- the event itself
          obtain ⟨rfl, hevent⟩ := List.append_inj' hsince rfl
          exact hwithin time (List.singleton_inj.mp hevent)
        · rw [List.concat_eq_append, ← List.cons_append, ← List.append_assoc] at hsince
          obtain ⟨hearlier, -⟩ := List.append_inj' hsince rfl
          exact huses earlier time later hearlier

/-- What an event makes of a standing, in the same terms. -/
theorem follow_eq_some_iff {standing : Option Standing} {event : Event} :
    follow policy token standing event = some ⟨createdAt, last, csrfToken⟩ ↔
      (event = .granted token csrfToken createdAt ∧ last = createdAt) ∨
      event.grant? ≠ some token ∧ ∃ last' csrfToken',
        standing = some ⟨createdAt, last', csrfToken'⟩ ∧
        event ≠ .loggedOut token ∧
        (∀ time, event = .used token time → policy.Within createdAt last' time) ∧
        last = (event.usedAt? token).getD last' ∧
        csrfToken = (event.issued? token).getD csrfToken' := by
  -- whether there was a standing and which event comes, each read off `follow`
  rcases standing with _ | ⟨c, u, csrf⟩ <;> cases event <;>
    grind [follow, Event.grant?, Event.usedAt?, Event.issued?]

/-- **Where no token is granted twice**, what a log says of one is what
its events make of it, one after another. -/
theorem stands_iff_track (hfresh : (log.filterMap Event.grant?).Nodup) :
    Stands policy log token createdAt last csrfToken ↔
      track policy token log = some ⟨createdAt, last, csrfToken⟩ := by
  -- the induction is on the log, from its end
  induction log using List.reverseRecOn generalizing createdAt last csrfToken with
  | nil => simp [Stands, track]
  | append_singleton log event ih =>
      rw [List.filterMap_append, List.nodup_append] at hfresh
      obtain ⟨hpast, -, hnew⟩ := hfresh
      rw [track_append, stands_append_iff, follow_eq_some_iff]
      refine or_congr_right ⟨?_, ?_⟩
      · rintro ⟨last', csrf, hstands, hrest⟩
        refine ⟨fun hgrant => ?_, last', csrf, (ih hpast).mp hstands, hrest⟩
        -- a token that is granted now did not stand before
        obtain ⟨first, hgranted⟩ := hstands.granted
        exact hnew token (List.mem_filterMap.mpr ⟨_, hgranted, rfl⟩) token
          (by simp [hgrant]) rfl
      · rintro ⟨-, last', csrf, htrack, hrest⟩
        exact ⟨last', csrf, (ih hpast).mpr htrack, hrest⟩

/-- What is to be accepted, in the same terms. -/
theorem accepts_iff_track {csrf : Option String} {requireCsrf : Bool} {now : DateTime}
    (hfresh : (log.filterMap Event.grant?).Nodup) :
    Accepts policy log token csrf requireCsrf now ↔
      ∃ standing, track policy token log = some standing ∧
        policy.Within standing.createdAt standing.lastUse now ∧
        (requireCsrf = true → csrf = some standing.csrfToken) := by
  simp only [Accepts, stands_iff_track hfresh]
  constructor
  · rintro ⟨createdAt, last, current, htrack, hwithin, hcsrf⟩
    exact ⟨⟨createdAt, last, current⟩, htrack, hwithin, hcsrf⟩
  · rintro ⟨standing, htrack, hwithin, hcsrf⟩
    exact ⟨_, _, _, htrack, hwithin, hcsrf⟩

theorem SessionPolicy.Within.of_le {now earlier : DateTime}
    (h : policy.Within createdAt last now) (hle : earlier ≤ now) :
    policy.Within createdAt last earlier :=
  ⟨hle.trans_lt h.1, hle.trans h.2⟩

/-- An event about another token makes no difference. -/
theorem follow_of_ne {standing : Option Standing} {event : Event} (h : event.token ≠ token) :
    follow policy token standing event = standing := by
  cases event <;> exact if_neg h

/-- An event is put down of its own token. -/
theorem track_append_of_ne {event : Event} {token' : String} (h : token' ≠ event.token) :
    track policy token' (log ++ [event]) = track policy token' log := by
  rw [track_append, follow_of_ne h.symm]

/-- What is tracked is put down somewhere. -/
theorem exists_of_track {standing : Standing} (h : track policy token log = some standing) :
    ∃ event ∈ log, event.token = token := by
  by_contra hnone
  push Not at hnone
  have htrack : track policy token log = none := by
    induction log using List.reverseRecOn with
    | nil => rfl
    | append_singleton log event ih =>
        have hne : token ≠ event.token := (hnone event (by simp)).symm
        rw [track_append_of_ne hne] at h ⊢
        exact ih h fun event' hevent' => hnone event' (List.mem_append_left _ hevent')
  rw [htrack] at h
  cases h

end Sessions

end Llmap
