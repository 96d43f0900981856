import Llmap.Common.Timestamp
import Llmap.Plain
import Llmap.Storage.Model
/-!
# The audit history

`audit_events` keeps the instants of its events as text, and the store
compares and sorts them as text. `prune_audit_before` deletes what is
textually before a cutoff, and `recent_audit` answers the rows in descending
order of text and id.

For events of the years 0000 to 9999 that is the order of time, whatever
their precision. A cutoff may be before these years, but not after them: the
text of the year 10000 starts with a plus sign, and nothing is before it.
-/

namespace Llmap

namespace Storage

open Calendar Providers

/-- **The text of an instant**: `chrono` writes instants in UTC as RFC 3339
does, with the fewest groups of three digits behind the point that lose
nothing. -/
class PrintsRfc3339 [Chrono] : Prop where
  toRfc3339_eq : ∀ instant : DateTime, Chrono.toRfc3339 instant = String.ofList (timestamp instant)

/-! ## The store -/

section Store

variable [Serde] [Chrono]

/-- The database after events have been appended, one after another. -/
def appended (database : Database) (events : List AuditEvent) : Database :=
  events.foldl (fun database event => ((appendAudit event).run Database.exec database).1) database

/-- `ORDER BY occurred_at DESC, id DESC`: whether a row, with its id, may stand
before another. -/
def auditOrder (left right : AuditRow × ℕ) : Bool :=
  right.1.occurredAt < left.1.occurredAt ∨
    left.1.occurredAt = right.1.occurredAt ∧ right.2 ≤ left.2

/-- An event, read from its row. `parseError` is what `chrono` says of a text
that is no instant. -/
def auditEventOf (parseError : String → String) (row : AuditRow) :
    Except StorageError AuditEvent :=
  match Chrono.parseFromRfc3339 row.occurredAt with
  | none => .error (.invalidAccount (parseError row.occurredAt))
  | some occurredAt => .ok {
      occurredAt := occurredAt
      actor := row.actor
      action := row.action
      accountId := row.accountId
      provider := row.provider
      model := row.model
      sessionId := row.sessionId
      status := row.status
      outcome := row.outcome
      latencyMs := row.latencyMs }

/-- `SqliteStore::recent_audit`. -/
def recentAudit (parseError : String → String) (limit : ℕ) (database : Database) :
    Except StorageError (List AuditEvent) :=
  ((database.auditEvents.zipIdx.mergeSort auditOrder).take (min (max limit 1) 1000)).mapM
    fun row => auditEventOf parseError row.1

/-- `SqliteStore::prune_audit_before`: the database, and how many rows it has
lost. -/
def pruneAuditBefore (cutoff : DateTime) (database : Database) : Database × ℕ :=
  ({ database with
     auditEvents := database.auditEvents.filter fun row =>
       ¬ row.occurredAt < Chrono.toRfc3339 cutoff },
   database.auditEvents.countP fun row => row.occurredAt < Chrono.toRfc3339 cutoff)

/-- Appending writes the rows of the events, in their order. -/
theorem appended_eq (database : Database) (events : List AuditEvent) :
    appended database events =
      { database with auditEvents := database.auditEvents ++ events.map auditRow } := by
  induction events generalizing database with
  | nil => simp [appended]
  | cons event events ih =>
      have hstep : appended database (event :: events) =
        appended { database with auditEvents := database.auditEvents ++ [auditRow event] } events :=
        rfl
      rw [hstep, ih]
      simp

/-- What `prune_audit_before` deletes, of events that its comparison tells
apart as `expired` does. -/
theorem pruneAuditBefore_appended (cutoff : DateTime) (expired : AuditEvent → Bool)
    {events : List AuditEvent} (hexpired : ∀ event ∈ events,
      Chrono.toRfc3339 event.occurredAt < Chrono.toRfc3339 cutoff ↔ expired event = true)
    {database : Database} (hnone : database.auditEvents = []) :
    pruneAuditBefore cutoff (appended database events) =
      (appended database (events.filter fun event => !expired event),
        (events.filter expired).length) := by
  simp only [pruneAuditBefore, appended_eq, hnone, List.nil_append, List.filter_map,
    List.countP_map, ← List.countP_eq_length_filter]
  congr 1
  · congr 2
    refine List.filter_congr fun event hmem => ?_
    rw [Bool.eq_iff_iff]
    simpa [auditRow] using not_congr (hexpired event hmem)
  · refine List.countP_congr fun event hmem => ?_
    simpa [auditRow] using hexpired event hmem

end Store

/-! ## The order of time -/

/-- The order `recent_audit` is for: descending instants, and the later of two
events of one instant first. -/
def Newer (left right : AuditEvent × ℕ) : Prop :=
  right.1.occurredAt < left.1.occurredAt ∨
    left.1.occurredAt = right.1.occurredAt ∧ right.2 < left.2

/-- The same order, as the sort decides it. -/
def newestFirst (left right : AuditEvent × ℕ) : Bool :=
  right.1.occurredAt < left.1.occurredAt ∨
    left.1.occurredAt = right.1.occurredAt ∧ right.2 ≤ left.2

/-- An event's instant and place, in the order of a dictionary. -/
def age (event : AuditEvent × ℕ) : DateTime ×ₗ ℕ := toLex (event.1.occurredAt, event.2)

theorem newestFirst_iff {left right : AuditEvent × ℕ} :
    newestFirst left right = true ↔ age right ≤ age left := by
  rw [age, age, Prod.Lex.toLex_le_toLex, newestFirst, decide_eq_true_eq, eq_comm]

theorem newer_iff {left right : AuditEvent × ℕ} : Newer left right ↔ age right < age left := by
  rw [age, age, Prod.Lex.toLex_lt_toLex, Newer, eq_comm]

/-- Events with their places, sorted. -/
def ranking (events : List AuditEvent) : List (AuditEvent × ℕ) :=
  events.zipIdx.mergeSort newestFirst

theorem ranking_perm (events : List AuditEvent) : (ranking events).Perm events.zipIdx :=
  List.mergeSort_perm _ _

/-- **The ranking is in the order of time**, and strictly, since no two events
have one place. -/
theorem pairwise_ranking (events : List AuditEvent) : (ranking events).Pairwise Newer := by
  have hsorted : (ranking events).Pairwise fun left right => newestFirst left right = true := by
    refine List.pairwise_mergeSort (fun a b c hab hbc => ?_) (fun a b => ?_) _
    · rw [newestFirst_iff] at hab hbc ⊢
      exact hbc.trans hab
    · rw [Bool.or_eq_true, newestFirst_iff, newestFirst_iff]
      exact le_total _ _
  have hplaces : (ranking events).Pairwise fun left right => left.2 ≠ right.2 := by
    rw [← List.pairwise_map (f := Prod.snd) (R := fun left right => left ≠ right)]
    have hnodup : (events.zipIdx.map Prod.snd).Nodup := by
      rw [List.zipIdx_map_snd]
      exact List.nodup_range'
    exact ((ranking_perm events).map Prod.snd).nodup_iff.mpr hnodup
  refine (hsorted.and hplaces).imp fun {left right} h => ?_
  rw [newer_iff]
  refine lt_of_le_of_ne (newestFirst_iff.mp h.1) fun hsame => h.2 ?_
  exact (congrArg (fun event => (ofLex event).2) hsame).symm

/-! ## Text and time -/

theorem dayOf_lt_of_lt {cutoff : DateTime} (h : cutoff < seconds 253402300800) :
    dayOf cutoff < yearStart 10000 := by
  have hstart : yearStart 10000 = 3652425 := by decide
  have hday (cutoff : Int) (h : cutoff < 253402300800 * 1000000000) :
      dayOf cutoff < yearStart 10000 := by
    unfold dayOf
    omega
  exact hday cutoff h

section Laws

variable [Chrono] [PrintsRfc3339]

/-- Texts are in the order of the instants they are of. -/
theorem toRfc3339_lt_iff {instant cutoff : DateTime} (hyear : FourDigitYear instant)
    (hcutoff : cutoff < seconds 253402300800) :
    Chrono.toRfc3339 instant < Chrono.toRfc3339 cutoff ↔ instant < cutoff := by
  rw [PrintsRfc3339.toRfc3339_eq, PrintsRfc3339.toRfc3339_eq, String.lt_iff_toList_lt,
    String.toList_ofList, String.toList_ofList]
  exact timestamp_lt_iff_of_early (fourDigitYear_iff.mp hyear) (dayOf_lt_of_lt hcutoff)

/-- No text is before one of the year 10000 or later. -/
theorem not_toRfc3339_lt {instant cutoff : DateTime} (hyear : FourDigitYear instant)
    (hcutoff : ¬ cutoff < seconds 253402300800) :
    ¬ Chrono.toRfc3339 instant < Chrono.toRfc3339 cutoff := by
  rw [PrintsRfc3339.toRfc3339_eq, PrintsRfc3339.toRfc3339_eq, String.lt_iff_toList_lt,
    String.toList_ofList, String.toList_ofList]
  refine not_timestamp_lt (fourDigitYear_iff.mp hyear) fun hlate => hcutoff ?_
  exact (fourDigitYear_iff.mpr hlate).2

theorem toRfc3339_eq_iff {instant instant' : DateTime} (hyear : FourDigitYear instant)
    (hyear' : FourDigitYear instant') :
    Chrono.toRfc3339 instant = Chrono.toRfc3339 instant' ↔ instant = instant' := by
  refine ⟨fun h => ?_, congrArg _⟩
  rw [PrintsRfc3339.toRfc3339_eq, PrintsRfc3339.toRfc3339_eq] at h
  refine timestamp_injective (fourDigitYear_iff.mp hyear) (fourDigitYear_iff.mp hyear') ?_
  exact String.ofList_injective h

variable {events : List AuditEvent} (hyears : ∀ event ∈ events, FourDigitYear event.occurredAt)

include hyears

/-- The rows are sorted as the events are. -/
theorem mergeSort_auditRow :
    (events.map auditRow).zipIdx.mergeSort auditOrder =
      (ranking events).map (Prod.map auditRow id) := by
  rw [ranking, List.map_mergeSort, List.zipIdx_map]
  intro left hleft right hright
  have hleftYear := hyears left.1 (List.fst_mem_of_mem_zipIdx hleft)
  have hrightYear := hyears right.1 (List.fst_mem_of_mem_zipIdx hright)
  simp only [newestFirst, auditOrder, auditRow, Prod.map, id,
    toRfc3339_lt_iff hrightYear hleftYear.2, toRfc3339_eq_iff hleftYear hrightYear]

/-- **The newest events** are what `recent_audit` answers. -/
theorem recentAudit_appended [Serde] [LawfulChrono] (parseError : String → String) (limit : ℕ)
    {database : Database} (hnone : database.auditEvents = []) :
    recentAudit parseError limit (appended database events) =
      .ok (((ranking events).take (min (max limit 1) 1000)).map Prod.fst) := by
  have hread : ∀ ranked ∈ (ranking events).take (min (max limit 1) 1000),
      auditEventOf parseError (auditRow ranked.1) = .ok ranked.1 := by
    intro ranked hmem
    have hyear := hyears ranked.1 (List.fst_mem_of_mem_zipIdx
      ((ranking_perm events).mem_iff.mp (List.mem_of_mem_take hmem)))
    rw [auditEventOf, auditRow, LawfulChrono.parse_toRfc3339, if_pos hyear]
  rw [recentAudit, appended_eq, hnone, List.nil_append, mergeSort_auditRow hyears, ← List.map_take,
    mapM_eq_ok_iff, List.forall₂_map_left_iff, List.forall₂_map_right_iff, List.forall₂_same]
  exact hread

end Laws

/-! ## Events of a calendar -/

theorem prints_plain : @PrintsRfc3339 Chrono.plain :=
  @PrintsRfc3339.mk Chrono.plain fun _ => rfl

/-- An event of an instant. -/
def eventAt (instant : DateTime) : AuditEvent where
  occurredAt := instant
  actor := "admin"
  action := "account.upsert"
  accountId := none
  provider := none
  model := none
  sessionId := none
  status := none
  outcome := "success"
  latencyMs := none

/-- **Retention and order follow time.** Of events of the years 0000 to 9999,
of any precision, a cutoff up to the year 9999 deletes and counts those that
are before it, and a later cutoff deletes none. The recent events are the
first ones, as many as the limit allows, in descending order of time and,
within one instant, of insertion. -/
theorem audit_follows_time [Serde] [Chrono] [LawfulChrono] [PrintsRfc3339]
    (parseError : String → String) (database : Database) (hnone : database.auditEvents = [])
    (events : List AuditEvent) (hyears : ∀ event ∈ events, FourDigitYear event.occurredAt) :
    (∀ cutoff : DateTime, cutoff < seconds 253402300800 →
      pruneAuditBefore cutoff (appended database events) =
        (appended database (events.filter fun event => !decide (event.occurredAt < cutoff)),
          (events.filter fun event => event.occurredAt < cutoff).length)) ∧
    (∀ cutoff : DateTime, ¬ cutoff < seconds 253402300800 →
      pruneAuditBefore cutoff (appended database events) = (appended database events, 0)) ∧
    ∀ limit, ∃ ranked : List (AuditEvent × ℕ), ranked.Perm events.zipIdx ∧
      ranked.Pairwise Newer ∧
      recentAudit parseError limit (appended database events) =
        .ok ((ranked.take (min (max limit 1) 1000)).map Prod.fst) := by
  refine ⟨fun cutoff hcutoff => ?_, fun cutoff hcutoff => ?_, fun limit => ?_⟩
  · refine pruneAuditBefore_appended cutoff _ (fun event hmem => ?_) hnone
    rw [toRfc3339_lt_iff (hyears event hmem) hcutoff, decide_eq_true_eq]
  · have hnever := pruneAuditBefore_appended cutoff (fun _ => false)
      (fun event hmem => iff_of_false (not_toRfc3339_lt (hyears event hmem) hcutoff)
        Bool.false_ne_true) hnone
    simpa using hnever
  · exact ⟨ranking events, ranking_perm events, pairwise_ranking events,
      recentAudit_appended hyears parseError limit hnone⟩

/-- Events of three precisions, which are not appended in their order. -/
def mixedEvents : List AuditEvent :=
  [eventAt 0, eventAt 1000000, eventAt 1, eventAt 1000000000]

open scoped Plain in
/-- A cutoff of one millisecond deletes the two events before it, and the two
newest events are answered whatever their precision. -/
theorem audit_follows_time_mixed :
    (pruneAuditBefore 1000000 (appended Database.empty mixedEvents)).2 = 2 ∧
      ∃ ranked : List (AuditEvent × ℕ), ranked.Perm mixedEvents.zipIdx ∧
        ranked.Pairwise Newer ∧
        recentAudit (fun _ => "") 2 (appended Database.empty mixedEvents) =
          .ok ((ranked.take 2).map Prod.fst) := by
  have := prints_plain
  obtain ⟨hprune, -, hrecent⟩ :=
    audit_follows_time (fun _ => "") Database.empty rfl mixedEvents (by decide)
  refine ⟨?_, hrecent 2⟩
  rw [hprune 1000000 (by decide)]
  decide

open scoped Plain in
/-- The first instant of the year 10000 is after one of 1970, and a cutoff
there does not delete it. -/
theorem prune_from_year_10000 :
    FourDigitYear (eventAt 0).occurredAt ∧
      (eventAt 0).occurredAt < seconds 253402300800 ∧
      pruneAuditBefore (seconds 253402300800) (appended Database.empty [eventAt 0]) =
        (appended Database.empty [eventAt 0], 0) := by
  refine ⟨by decide, by decide, ?_⟩
  decide +kernel

end Storage

end Llmap
