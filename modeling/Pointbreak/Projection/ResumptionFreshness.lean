import Pointbreak.Projection.ResumptionSafety

/-!
# Projection.ResumptionFreshness

What a response is fresh against. The latest checkpoint is the latest in time where texts sort as
the instants they stand for (`TimesTold`). A response to a request on another checkpoint is then
stale, unless it carries the fingerprint of the latest one.
-/

namespace Pointbreak

open Std KeyedLog

section Latest

variable {checkpoints : List TaskCheckpointSummary} {latest : TaskCheckpointSummary}

/-- Different carriers have different instants, and their texts sort as the instants do. -/
structure TimesTold (checkpoints : List TaskCheckpointSummary) : Prop where
  distinct : ∀ checkpoint ∈ checkpoints, ∀ other ∈ checkpoints,
    compareEventInstants checkpoint.envelope.occurredAt other.envelope.occurredAt = .eq →
      checkpoint = other
  sorted : ∀ checkpoint ∈ checkpoints, ∀ other ∈ checkpoints,
    compare checkpoint.envelope.occurredAt other.envelope.occurredAt =
      compareEventInstants checkpoint.envelope.occurredAt other.envelope.occurredAt

/-- The last carrier of a checkpoint, later than the last carriers of the others. -/
structure LatestInTime (checkpoints : List TaskCheckpointSummary) (latest : TaskCheckpointSummary) :
    Prop where
  last : (lastCheckpoints checkpoints)[latest.checkpointId]? = some latest
  later : ∀ (id : CheckpointId) (other : TaskCheckpointSummary),
    (lastCheckpoints checkpoints)[id]? = some other → other = latest ∨
      compareEventInstants other.envelope.occurredAt latest.envelope.occurredAt = .lt

theorem TimesTold.latestAmong_eq_some (h : TimesTold checkpoints) :
    latestAmong checkpoints = some latest ↔ LatestInTime checkpoints latest := by
  have hlatest : ∀ found, latestAmong checkpoints = some found → LatestInTime checkpoints found := by
    intro found hfound
    obtain ⟨hlast, hle⟩ := latestAmong_spec hfound
    refine ⟨hlast, fun id other hother => ?_⟩
    have hin := (of_get_lastCheckpoints hlast).1
    have hin' := (of_get_lastCheckpoints hother).1
    have htime : (compareEventInstants other.envelope.occurredAt found.envelope.occurredAt).isLE := by
      rw [← h.sorted other hin' found hin]
      exact stampOrder_isLE_fst (hle id other hother)
    rw [Ordering.isLE_iff_eq_lt_or_eq_eq] at htime
    exact htime.symm.imp_left (h.distinct other hin' found hin)
  refine ⟨hlatest latest, fun his => ?_⟩
  cases hfound : latestAmong checkpoints with
  | none =>
    have hmem := (of_get_lastCheckpoints his.last).1
    rw [latestAmong_eq_none.mp hfound] at hmem
    cases hmem
  | some found =>
    have hfound := hlatest found hfound
    rcases his.later _ found hfound.last with rfl | hlt
    · rfl
    · rcases hfound.later _ latest his.last with rfl | hgt
      · rfl
      · exact absurd hgt (OrientedCmp.not_lt_of_lt hlt)

end Latest

section Stale

variable {reader : ResumptionReader} {attempt : AttemptState} {records : List TaskInputRequestRecord}

/-- The request is on another checkpoint, and its response does not carry the fingerprint of the
latest one. -/
def AnsweredElsewhere (latest : TaskCheckpointSummary) (record : TaskInputRequestRecord) : Prop :=
  ∃ id response, record.view.target = .task (.checkpoint id) ∧ latest.checkpointId ≠ id ∧
    record.responses.head? = some response ∧ (latest.checkpointFingerprint = none ∨
      latest.checkpointFingerprint ≠ response.targetFingerprint)

theorem AnsweredElsewhere.isStale {latest : TaskCheckpointSummary} {record : TaskInputRequestRecord}
    (h : AnsweredElsewhere latest record) (hid : attempt.latestCheckpoint = some latest.checkpointId)
    (hfingerprint : attempt.latestCheckpointFingerprint = latest.checkpointFingerprint) :
    isStale attempt record = true := by
  obtain ⟨id, response, htarget, hother, hresponse, hunlike⟩ := h
  rw [Pointbreak.isStale, hresponse, Option.any_some, AttemptState.freshness, hid, hfingerprint]
  unfold freshnessForTaskTarget
  split
  · rename_i latest' carried hlatest hcarried
    have hne : latest' ≠ carried := by simpa [hlatest, hcarried] using hunlike
    rw [if_neg hne]
    rfl
  · simp [htarget, hother, FreshnessBasis.isStale]

variable {V B : Type} {rt : StoreRuntime V B} {events : List (StoredEvent V)}
  {taskAttemptId : WorkObjectId}

/-- The latest checkpoint is the one with the greatest instant. A response to a request on another one
does not let the agent resume, and is reported as stale where nothing comes before it. -/
theorem stale_against_latest {summary : TaskAttemptSummary}
    (hsummary : taskAttemptSummaryFromEvents rt events taskAttemptId reader.readerActorId =
      .ok (some summary))
    (htimes : TimesTold (events.filterMap (checkpointOf rt taskAttemptId)))
    (latest : TaskCheckpointSummary) :
    (summary.latestCheckpoint = some latest ↔
      LatestInTime (events.filterMap (checkpointOf rt taskAttemptId)) latest) ∧
    ∀ projection, summary.latestCheckpoint = some latest →
      agentResumptionWithPrincipalPolicy rt events taskAttemptId reader = .ok projection →
      ∀ record ∈ operativeRecords rt events reader, AnsweredElsewhere latest record →
        projection.mayResume = false ∧
        ((∀ other ∈ operativeRecords rt events reader, other.responses.length = 1) →
          (operativeRecords rt events reader).find? (fails reader summary.attemptState) =
            some record → projection.state = .stale) := by
  have hstate := attemptState_eq hsummary
  obtain ⟨-, hmade⟩ := taskAttemptSummaryFromEvents_eq_ok.mp hsummary
  obtain ⟨envelope, henvelope, hmade⟩ := Option.map_eq_some_iff.mp hmade
  have hfound : summary.latestCheckpoint =
      latestAmong (events.filterMap (checkpointOf rt taskAttemptId)) := by
    rw [← hmade, latestAmong, ← attemptFold_checkpoints]
  refine ⟨by rw [hfound, htimes.latestAmong_eq_some], ?_⟩
  intro projection hlatest hprojection record hrecord helsewhere
  obtain ⟨-, hrun⟩ := agentResumption_eq_ok.mp hprojection
  rw [if_pos (attemptFold_isSome.mp (by rw [henvelope]; rfl)), ← hstate] at hrun
  obtain ⟨-, rfl⟩ := hrun
  have hstale : isStale summary.attemptState record = true := by
    apply helsewhere.isStale <;> simp [TaskAttemptSummary.attemptState, hlatest]
  constructor
  · rw [← Bool.not_eq_true, resumptionOver_mayResume]
    intro hall
    obtain ⟨response, hresponse, hsatisfies⟩ := hall record hrecord
    rw [isStale, hresponse, List.head?_cons, Option.any_some, hsatisfies.fresh] at hstale
    cases hstale
  · intro hsingle hfirst
    change (resumptionOver reader summary.attemptState _).outline.state = .stale
    have hanswered : ∀ other ∈ operativeRecords rt events reader, other.responses ≠ [] :=
      fun other hother => List.length_pos_iff.mp (by rw [hsingle other hother]; exact Nat.one_pos)
    have hone : ∀ other ∈ operativeRecords rt events reader, ¬ 1 < other.responses.length :=
      fun other hother => by rw [hsingle other hother]; exact Nat.lt_irrefl 1
    rw [resumptionOver_single hanswered hone, evaluateAnswered_outline, hfirst]
    simp [hstale]

end Stale

namespace StoreRecorded

def checkpointRuntime : StoreRuntime StorePayload StoredRecord :=
  { runtime.toStoreRuntime with
    taskCheckpointCaptured
      | .other id => .ok
          { checkpointId := ⟨id⟩, parentTaskAttemptId := attemptId, assistantMessageId := text "m",
            toolUseIds := [], checkpointFingerprint := some id }
      | _ => .error (text "not a checkpoint") }

def checkpointedTask (checkpoints : List (Text × Text)) (fingerprint : Option Text) :
    List (StoredEvent StorePayload) :=
  taskEvent (text "evt:1") (attempted attemptId) ::
    checkpoints.map (fun (id, time) =>
      { event .taskCheckpointCaptured time (.other id) with occurredAt := time }) ++
  [taskEvent (text "evt:2") (.inputRequestOpened
      { requestPayload (text "A") attemptId with taskTarget := some (.checkpoint ⟨text "c1"⟩) }),
    taskEvent (text "evt:3") (.inputRequestResponded
      { inputRequestResponseId := ⟨text "r"⟩, inputRequestId := ⟨text "A"⟩, revisionId := none,
        taskTarget := some (.taskAttempt attemptId), outcome := .approved, reason := none,
        reasonContentType := .textPlain, reasonArtifactPath := none, reasonContentHash := none,
        targetFingerprint := fingerprint })]

def verdictOf (events : List (StoredEvent StorePayload)) :
    Option (AgentResumptionState × Option CheckpointId) :=
  (agentResumptionWithPrincipalPolicy checkpointRuntime events attemptId localReader).toOption.map
    fun projection => (projection.state, projection.latestCheckpoint)

def june (day : String) : Text := text "2026-06-" ++ text day ++ text "T00:00:00Z"

def olderTask : List (StoredEvent StorePayload) :=
  checkpointedTask [(text "c1", june "10"), (text "c2", june "11")] none

theorem older_checkpoint_stale : ∃ latest projection,
    LatestInTime (olderTask.filterMap (checkpointOf checkpointRuntime attemptId)) latest ∧
    agentResumptionWithPrincipalPolicy checkpointRuntime olderTask attemptId localReader =
      .ok projection ∧ projection.mayResume = false ∧ projection.state = .stale := by
  have hsome : ((taskAttemptSummaryFromEvents checkpointRuntime olderTask attemptId
      localReader.readerActorId).toOption.join.bind (·.latestCheckpoint)).map
        (fun latest => (latest.checkpointId, latest.checkpointFingerprint)) =
      some (⟨text "c2"⟩, some (text "c2")) := by decide +kernel
  obtain ⟨latest, hsome, hc2⟩ := Option.map_eq_some_iff.mp hsome
  obtain ⟨hid, hfingerprint⟩ := Prod.mk.inj hc2
  obtain ⟨summary, hsummary, hlatest⟩ := Option.bind_eq_some_iff.mp hsome
  replace hsummary := Result.toOption_eq_some.mp (Option.join_eq_some_iff.mp hsummary)
  obtain ⟨projection, hprojection, -⟩ := Option.map_eq_some_iff.mp
    (by decide +kernel : verdictOf olderTask = some (.stale, some ⟨text "c2"⟩))
  replace hprojection := Result.toOption_eq_some.mp hprojection
  have hfails : ((operativeRecords checkpointRuntime olderTask localReader).find?
      (fails localReader (attemptStateOf checkpointRuntime attemptId olderTask))).map
        (fun record => (record.view.target, record.responses.map (·.targetFingerprint))) =
      some (.task (.checkpoint ⟨text "c1"⟩), [none]) := by decide +kernel
  obtain ⟨record, hfirst, hrecord⟩ := Option.map_eq_some_iff.mp hfails
  obtain ⟨htarget, hresponses⟩ := Prod.mk.inj hrecord
  obtain ⟨response, hresponse, hnone⟩ := List.map_eq_singleton_iff.mp hresponses
  obtain ⟨hiff, hstale⟩ := stale_against_latest hsummary
    ⟨by decide +kernel, by decide +kernel⟩ latest
  have helsewhere : AnsweredElsewhere latest record :=
    ⟨_, response, htarget, by rw [hid]; decide, by rw [hresponse]; rfl,
      .inr (by rw [hfingerprint, hnone]; nofun)⟩
  obtain ⟨hno, hstate⟩ := hstale projection hlatest hprojection record
    (List.mem_of_find?_eq_some hfirst) helsewhere
  rw [attemptState_eq hsummary] at hstate
  exact ⟨latest, projection, hiff.mp hlatest, hprojection, hno, hstate (by decide +kernel) hfirst⟩

/-- It is not reported as stale if it carries the latest fingerprint, if another request is open or if
texts do not sort as instants; and the last carrier of a checkpoint counts, even if an earlier one. -/
theorem older_checkpoint_not_stale :
    verdictOf (checkpointedTask [(text "c1", june "10"), (text "c2", june "11")]
      (some (text "c2"))) = some (.ready, some ⟨text "c2"⟩) ∧
    verdictOf (olderTask ++ [taskEvent (text "evt:4") (asked (text "B") attemptId)]) =
      some (.blocked, some ⟨text "c2"⟩) ∧
    verdictOf (checkpointedTask [(text "c1", text "unix-ms:9"), (text "c2", text "unix-ms:10")]
      none) = some (.ready, some ⟨text "c1"⟩) ∧
    parseEventInstant (text "unix-ms:9") = some 9 ∧ parseEventInstant (text "unix-ms:10") = some 10 ∧
    verdictOf (checkpointedTask [(text "c1", june "12"), (text "c2", june "11"),
      (text "c1", june "10")] none) = some (.stale, some ⟨text "c2"⟩) := by
  decide +kernel

end StoreRecorded

end Pointbreak
