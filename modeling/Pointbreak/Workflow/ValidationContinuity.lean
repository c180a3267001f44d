import Pointbreak.Lib.Latest
import Pointbreak.Workflow.Attention

/-!
# Workflow.ValidationContinuity

How a validation record takes part in the history of its check. A failure is outstanding while no
record that was not skipped is strictly later, in the order of instants (`outstanding_iff`). The
attention list reads the same records, but finds the latest of them by the spelling of the times;
`failed_validation_item_iff` says when that makes no difference.
-/

namespace Pointbreak

open Std KeyedLog BTreeMap ValidationStatus Result List

/-! ## The classification -/

structure ValidationCheckView where
  id : ValidationCheckId
  eventId : EventId
  trackId : TrackId
  checkName : Text
  status : ValidationStatus
  completedAt : Option Text
  createdAt : Text

inductive ValidationCheckDisposition where
  | outstanding | current | resolvedByLaterPass | historical | skipped
deriving DecidableEq

structure ValidationContinuitySummary where
  outstandingFailedCount : Nat := 0
  outstandingErroredCount : Nat := 0
  recoveredCount : Nat := 0
  passedCount : Nat := 0
  skippedOnlyCount : Nat := 0

structure ValidationContinuityView where
  summary : ValidationContinuitySummary := {}
  checks : BTreeMap ValidationCheckId ValidationCheckDisposition := ∅

inductive ValidationGroupState where
  | outstandingFailed | outstandingErrored | recovered | passed | skippedOnly
deriving DecidableEq

def effectiveTime (check : ValidationCheckView) : Text := check.completedAt.getD check.createdAt

def isEffectiveTime (check : ValidationCheckView) (time : Text) : Bool :=
  compareEventInstants (effectiveTime check) time = .eq

def isStrictlyLaterThan (time : Text) (check : ValidationCheckView) : Bool :=
  compareEventInstants time (effectiveTime check) = .gt

def latestNonSkippedTime (group : List ValidationCheckView) : Option Text :=
  maxBy compareEventInstants ((group.filter (·.status ≠ .skipped)).map effectiveTime)

def latestTimeForStatus (group : List ValidationCheckView) (status : ValidationStatus) :
    Option Text :=
  maxBy compareEventInstants ((group.filter (·.status = status)).map effectiveTime)

/-- Failed and errored records at the latest time count as errored. -/
def groupState (group : List ValidationCheckView) : Option Text → ValidationGroupState
  | none => .skippedOnly
  | some latestTime =>
    let latest := group.filter fun check =>
      check.status ≠ .skipped && isEffectiveTime check latestTime
    if latest.any (·.status = .errored) then .outstandingErrored
    else if latest.any (·.status = .failed) then .outstandingFailed
    else if group.any (·.status.isFailing) then .recovered
    else .passed

def dispositionFor (check : ValidationCheckView) (state : ValidationGroupState)
    (latestTime latestPassTime : Option Text) : ValidationCheckDisposition :=
  match check.status with
  | .skipped => .skipped
  | .failed | .errored =>
    if latestPassTime.any fun passTime => isStrictlyLaterThan passTime check then
      .resolvedByLaterPass
    else if (state = .outstandingFailed || state = .outstandingErrored) &&
        latestTime.any fun latest => isEffectiveTime check latest then .outstanding
    else .historical
  | .passed =>
    if (state = .passed || state = .recovered) &&
        latestTime.any fun latest => isEffectiveTime check latest then .current
    else .historical

def ValidationContinuitySummary.count (summary : ValidationContinuitySummary) :
    ValidationGroupState → ValidationContinuitySummary
  | .outstandingFailed =>
    { summary with outstandingFailedCount := summary.outstandingFailedCount + 1 }
  | .outstandingErrored =>
    { summary with outstandingErroredCount := summary.outstandingErroredCount + 1 }
  | .recovered => { summary with recoveredCount := summary.recoveredCount + 1 }
  | .passed => { summary with passedCount := summary.passedCount + 1 }
  | .skippedOnly => { summary with skippedOnlyCount := summary.skippedOnlyCount + 1 }

def classifyGroup (view : ValidationContinuityView) (group : List ValidationCheckView) :
    ValidationContinuityView :=
  let latestTime := latestNonSkippedTime group
  let latestPassTime := latestTimeForStatus group .passed
  let state := groupState group latestTime
  { summary := view.summary.count state
    checks := group.foldl (fun checks check =>
      checks.insert check.id (dispositionFor check state latestTime latestPassTime)) view.checks }

def validationViewLE (a b : ValidationCheckView) : Prop :=
  ((compareEventInstants (effectiveTime a) (effectiveTime b)).then
    (compare a.eventId b.eventId)).isLE = true

instance : DecidableRel validationViewLE := fun _ _ => inferInstanceAs (Decidable (_ = true))

def ValidationCheckView.historyKey (check : ValidationCheckView) : TrackId × Text :=
  (check.trackId, check.checkName)

def validationHistories (checks : List ValidationCheckView) :
    BTreeMap (TrackId × Text) (List ValidationCheckView) :=
  checks.foldl (fun groups check =>
    groups.alter check.historyKey fun group => some (group.getD [] ++ [check])) ∅

def classifyValidationContinuity (checks : List ValidationCheckView) : ValidationContinuityView :=
  (validationHistories checks).vals.foldl
    (fun view group => classifyGroup view (group.insertionSort validationViewLE)) {}

/-! ## What the members of a group say -/

section Group

variable (group : List ValidationCheckView) (check : ValidationCheckView)

/-- No record of the group that was not skipped is strictly later. -/
def IsLatest : Prop :=
  ∀ other ∈ group, other.status ≠ .skipped →
    compareEventInstants (effectiveTime other) (effectiveTime check) ≠ .gt

/-- A failure with nothing later. -/
def Unanswered : Prop :=
  check.status.isFailing = true ∧ IsLatest group check

def PassedLater : Prop :=
  ∃ pass ∈ group, pass.status = .passed ∧
    compareEventInstants (effectiveTime pass) (effectiveTime check) = .gt

instance : Decidable (IsLatest group check) :=
  inferInstanceAs (Decidable (∀ other ∈ group, _ → (_ : Ordering) ≠ .gt))

instance : Decidable (Unanswered group check) :=
  inferInstanceAs (Decidable (_ ∧ _))

instance : Decidable (PassedLater group check) :=
  inferInstanceAs (Decidable (∃ pass ∈ group, _ ∧ _))

/-- The state of a group, whatever the order of its records. -/
def stateOf : ValidationGroupState :=
  if ∀ check ∈ group, check.status = .skipped then .skippedOnly
  else if ∃ check ∈ group, check.status = .errored ∧ IsLatest group check then .outstandingErrored
  else if ∃ check ∈ group, check.status = .failed ∧ IsLatest group check then .outstandingFailed
  else if ∃ check ∈ group, check.status.isFailing = true then .recovered
  else .passed

def dispositionOf : ValidationCheckDisposition :=
  match check.status with
  | .skipped => .skipped
  | .failed | .errored =>
    if PassedLater group check then .resolvedByLaterPass
    else if IsLatest group check then .outstanding
    else .historical
  | .passed =>
    if IsLatest group check ∧ ∀ other ∈ group, ¬ Unanswered group other then .current
    else .historical

def dispositionIn : ValidationCheckDisposition :=
  dispositionFor check (groupState group (latestNonSkippedTime group)) (latestNonSkippedTime group)
    (latestTimeForStatus group .passed)

variable {group check} {group' : List ValidationCheckView}

theorem ValidationStatus.ne_skipped_of_isFailing {status : ValidationStatus}
    (h : status.isFailing = true) : status ≠ .skipped := by
  rintro rfl
  cases h

theorem latestNonSkippedTime_spec {time : Text} (h : latestNonSkippedTime group = some time) :
    (∃ other ∈ group, other.status ≠ .skipped ∧ effectiveTime other = time) ∧
      ∀ other ∈ group, other.status ≠ .skipped →
        compareEventInstants (effectiveTime other) time ≠ .gt := by
  obtain ⟨hmem, hmax⟩ := maxBy_spec h
  simp only [mem_map, mem_filter, decide_eq_true_eq] at hmem hmax
  obtain ⟨other, ⟨hother, hstatus⟩, htime⟩ := hmem
  exact ⟨⟨other, hother, hstatus, htime⟩,
    fun other hother hstatus => hmax _ ⟨other, ⟨hother, hstatus⟩, rfl⟩⟩

theorem isLatest_iff {time : Text} (hmem : check ∈ group) (hstatus : check.status ≠ .skipped)
    (htime : latestNonSkippedTime group = some time) :
    IsLatest group check ↔ isEffectiveTime check time = true := by
  obtain ⟨⟨last, hlast, hskipped, rfl⟩, hmax⟩ := latestNonSkippedTime_spec htime
  rw [isEffectiveTime, decide_eq_true_eq]
  constructor
  · intro h
    exact OrientedCmp.isLE_antisymm (Ordering.isLE_iff_ne_gt.mpr (hmax check hmem hstatus))
      (Ordering.isLE_iff_ne_gt.mpr (h last hlast hskipped))
  · intro heq other hother hstatus'
    rw [TransCmp.congr_right heq]
    exact hmax other hother hstatus'

theorem passedLater_iff : PassedLater group check ↔
    (latestTimeForStatus group .passed).any (isStrictlyLaterThan · check) = true := by
  simp only [Option.any_eq_true, isStrictlyLaterThan, decide_eq_true_eq]
  constructor
  · rintro ⟨pass, hpass, hstatus, hgt⟩
    have hmem : effectiveTime pass ∈ (group.filter (·.status = .passed)).map effectiveTime :=
      mem_map_of_mem (mem_filter.mpr ⟨hpass, decide_eq_true hstatus⟩)
    obtain ⟨time, htime⟩ : ∃ time, latestTimeForStatus group .passed = some time :=
      maxBy_isSome hmem
    refine ⟨time, htime, ?_⟩
    have hle := Ordering.isLE_iff_ne_gt.mpr ((maxBy_spec htime).2 _ hmem)
    rw [OrientedCmp.gt_iff_lt] at hgt ⊢
    exact TransCmp.lt_of_lt_of_isLE hgt hle
  · rintro ⟨time, htime, hgt⟩
    obtain ⟨hpassed, -⟩ := maxBy_spec htime
    simp only [mem_map, mem_filter, decide_eq_true_eq] at hpassed
    obtain ⟨pass, ⟨hpass, hstatus⟩, rfl⟩ := hpassed
    exact ⟨pass, hpass, hstatus, hgt⟩

theorem groupState_eq (group : List ValidationCheckView) :
    groupState group (latestNonSkippedTime group) = stateOf group := by
  cases htime : latestNonSkippedTime group with
  | none =>
    have hskipped : ∀ check ∈ group, check.status = .skipped := by
      simpa [latestNonSkippedTime, maxBy_eq_none] using htime
    rw [stateOf, if_pos hskipped, groupState]
  | some time =>
    have hnot : ¬ ∀ check ∈ group, check.status = .skipped := by
      obtain ⟨⟨last, hlast, hstatus, -⟩, -⟩ := latestNonSkippedTime_spec htime
      exact fun h => hstatus (h last hlast)
    have hany : ∀ status, status ≠ .skipped →
        ((group.filter fun check => check.status ≠ .skipped && isEffectiveTime check time).any
          (·.status = status) = true ↔
          ∃ check ∈ group, check.status = status ∧ IsLatest group check) := by
      intro status hstatus
      simp only [any_eq_true, mem_filter, Bool.and_eq_true, decide_eq_true_eq]
      refine exists_congr fun check => ?_
      constructor
      · rintro ⟨⟨hmem, hne, htimely⟩, rfl⟩
        exact ⟨hmem, rfl, (isLatest_iff hmem hne htime).mpr htimely⟩
      · rintro ⟨hmem, rfl, hlatest⟩
        exact ⟨⟨hmem, hstatus, (isLatest_iff hmem hstatus htime).mp hlatest⟩, rfl⟩
    rw [stateOf, if_neg hnot]
    exact if_congr (hany .errored (by simp)) rfl
      (if_congr (hany .failed (by simp)) rfl (if_congr any_eq_true rfl rfl))

theorem stateOf_outstanding :
    (stateOf group = .outstandingFailed ∨ stateOf group = .outstandingErrored) ↔
      ∃ check ∈ group, Unanswered group check := by
  have hfailing : (∃ check ∈ group, Unanswered group check) ↔
      (∃ check ∈ group, check.status = .errored ∧ IsLatest group check) ∨
        ∃ check ∈ group, check.status = .failed ∧ IsLatest group check := by
    rw [← exists_or]
    refine exists_congr fun check => ?_
    rw [Unanswered, ← and_or_left, ← or_and_right]
    cases check.status <;> simp [isFailing]
  rw [hfailing, stateOf]
  split
  · rename_i hskipped
    simp only [reduceCtorEq, or_self, false_iff]
    rintro (⟨check, hmem, hstatus, -⟩ | ⟨check, hmem, hstatus, -⟩) <;>
      simp [hskipped check hmem] at hstatus
  · split
    · rename_i herrored
      simp [herrored]
    · rename_i herrored
      split
      · rename_i hfailed
        simp [hfailed]
      · rename_i hfailed
        split <;> simp [herrored, hfailed]

theorem dispositionIn_eq (hmem : check ∈ group) :
    dispositionIn group check = dispositionOf group check := by
  by_cases hskipped : check.status = .skipped
  · simp only [dispositionIn, dispositionFor, dispositionOf, hskipped]
  obtain ⟨time, htime⟩ : ∃ time, latestNonSkippedTime group = some time :=
    maxBy_isSome (mem_map_of_mem (mem_filter.mpr ⟨hmem, by simpa using hskipped⟩))
  have hlatest := isLatest_iff hmem hskipped htime
  have hstate := @stateOf_outstanding group
  have hnot : stateOf group ≠ .skippedOnly := by
    rw [stateOf, if_neg fun h => hskipped (h check hmem)]
    split_ifs <;> simp
  have hanswered : (stateOf group = .passed ∨ stateOf group = .recovered) ↔
      ∀ other ∈ group, ¬ Unanswered group other := by
    have hnone : (∀ other ∈ group, ¬ Unanswered group other) ↔
        ¬ ∃ check ∈ group, Unanswered group check := by simp
    rw [hnone, ← hstate]
    revert hnot
    cases stateOf group <;> simp
  have hfailing : check.status.isFailing = true → IsLatest group check →
      stateOf group = .outstandingFailed ∨ stateOf group = .outstandingErrored :=
    fun hf hl => hstate.mpr ⟨check, hmem, hf, hl⟩
  rw [dispositionIn, groupState_eq, htime, dispositionOf, dispositionFor]
  cases hstatus : check.status with
  | skipped => exact absurd hstatus hskipped
  | passed =>
    refine if_congr ?_ rfl rfl
    rw [Option.any_some, Bool.and_eq_true, Bool.or_eq_true, decide_eq_true_eq, decide_eq_true_eq,
      hanswered, hlatest, and_comm]
  | failed | errored =>
    rw [hstatus] at hfailing
    refine if_congr passedLater_iff.symm rfl (if_congr ?_ rfl rfl)
    rw [Option.any_some, Bool.and_eq_true, Bool.or_eq_true, decide_eq_true_eq, decide_eq_true_eq,
      ← hlatest, and_iff_right_of_imp (hfailing rfl)]

theorem isLatest_congr (h : ∀ x, x ∈ group ↔ x ∈ group') (check : ValidationCheckView) :
    IsLatest group check ↔ IsLatest group' check := by
  simp only [IsLatest, h]

theorem dispositionOf_congr (h : ∀ x, x ∈ group ↔ x ∈ group') :
    dispositionOf group check = dispositionOf group' check := by
  have hpassed : PassedLater group check ↔ PassedLater group' check := by
    simp only [PassedLater, h]
  rw [dispositionOf, dispositionOf]
  cases check.status with
  | skipped => rfl
  | passed =>
    refine if_congr (and_congr (isLatest_congr h check) ?_) rfl rfl
    simp only [h, Unanswered, isLatest_congr h]
  | failed | errored => exact if_congr hpassed rfl (if_congr (isLatest_congr h check) rfl rfl)

theorem stateOf_congr (h : ∀ x, x ∈ group ↔ x ∈ group') : stateOf group = stateOf group' := by
  have hsome : ∀ status, (∃ check ∈ group, check.status = status ∧ IsLatest group check) ↔
      ∃ check ∈ group', check.status = status ∧ IsLatest group' check := by
    simp [h, isLatest_congr h]
  rw [stateOf, stateOf]
  exact if_congr (by simp only [h]) rfl (if_congr (hsome _) rfl (if_congr (hsome _) rfl
    (if_congr (by simp only [h]) rfl rfl)))

theorem dispositionOf_eq_resolved : dispositionOf group check = .resolvedByLaterPass ↔
    check.status.isFailing = true ∧ PassedLater group check := by
  cases hstatus : check.status with
  | skipped => simp [dispositionOf, hstatus, isFailing]
  | passed | failed | errored =>
    simp only [dispositionOf, hstatus]
    split_ifs <;> simp_all [isFailing]

theorem dispositionOf_eq_outstanding :
    dispositionOf group check = .outstanding ↔ Unanswered group check := by
  have hlater : PassedLater group check → ¬ IsLatest group check := by
    rintro ⟨pass, hpass, hstatus, hgt⟩ hlatest
    exact hlatest pass hpass (by simp [hstatus]) hgt
  rw [Unanswered]
  cases hstatus : check.status with
  | skipped => simp [dispositionOf, hstatus, isFailing]
  | passed | failed | errored =>
    simp only [dispositionOf, hstatus]
    split_ifs <;> simp_all [isFailing]

theorem dispositionOf_eq_current (h : dispositionOf group check = .current) :
    ∀ other ∈ group, ¬ Unanswered group other := by
  cases hstatus : check.status with
  | skipped => simp [dispositionOf, hstatus] at h
  | passed =>
    simp only [dispositionOf, hstatus] at h
    split_ifs at h with hcurrent
    exact hcurrent.2
  | failed | errored =>
    simp only [dispositionOf, hstatus] at h
    split_ifs at h

end Group

section Histories

variable {checks checks' : List ValidationCheckView}

def historyOf (checks : List ValidationCheckView) (key : TrackId × Text) :
    List ValidationCheckView :=
  checks.filter fun check => check.historyKey = key

theorem keys_validationHistories :
    (validationHistories checks).keys.Perm (checks.map (·.historyKey)).dedup := by
  refine (perm_ext_iff_of_nodup ExtTreeMap.nodup_keys (nodup_dedup _)).mpr fun key => ?_
  rw [mem_keys_iff, mem_dedup, mem_map]
  constructor
  · rintro ⟨group, hgroup⟩
    exact (get_grouped_eq_some.mp hgroup).2
  · exact fun h => ⟨_, get_grouped_eq_some.mpr ⟨rfl, h⟩⟩

theorem vals_validationHistories : (validationHistories checks).vals =
    (validationHistories checks).keys.map (historyOf checks) := by
  rw [vals, ← ExtTreeMap.map_fst_toList_eq_keys, map_map]
  refine map_congr_left fun entry hentry => ?_
  rw [← (get_grouped_eq_some.mp (mem_toList_iff.mp hentry)).1, map_id']
  rfl

def dispositions (checks : List ValidationCheckView) :
    List (ValidationCheckId × ValidationCheckDisposition) :=
  (validationHistories checks).vals.flatMap fun group =>
    (group.insertionSort validationViewLE).map fun check =>
      (check.id, dispositionIn (group.insertionSort validationViewLE) check)

theorem foldl_classifyGroup (groups : List (List ValidationCheckView))
    (view : ValidationContinuityView) :
    (groups.foldl (fun view group => classifyGroup view (group.insertionSort validationViewLE))
        view).checks =
      (groups.flatMap fun group => (group.insertionSort validationViewLE).map fun check =>
        (check.id, dispositionIn (group.insertionSort validationViewLE) check)).foldl
        (fun checks entry => checks.insert entry.1 entry.2) view.checks := by
  rw [foldl_flatMap]
  simp only [foldl_map]
  exact (foldl_hom ValidationContinuityView.checks fun _ _ => rfl).symm

theorem mem_dispositions {entry : ValidationCheckId × ValidationCheckDisposition} :
    entry ∈ dispositions checks ↔ ∃ check ∈ checks,
      (check.id, dispositionOf (historyOf checks check.historyKey) check) = entry := by
  have hsorted : ∀ {key check}, check ∈ historyOf checks key →
      dispositionIn ((historyOf checks key).insertionSort validationViewLE) check =
        dispositionOf (historyOf checks key) check := by
    intro key check hcheck
    rw [dispositionIn_eq ((mem_insertionSort _).mpr hcheck)]
    exact dispositionOf_congr fun x => mem_insertionSort _
  simp only [dispositions, vals_validationHistories, mem_flatMap, mem_map,
    mem_insertionSort, keys_validationHistories.mem_iff, mem_dedup]
  constructor
  · rintro ⟨_, ⟨key, -, rfl⟩, check, hcheck, rfl⟩
    rw [hsorted hcheck]
    obtain ⟨hcheck, hkey⟩ := mem_filter.mp hcheck
    exact ⟨check, hcheck, by rw [of_decide_eq_true hkey]⟩
  · rintro ⟨check, hcheck, rfl⟩
    have hmem : check ∈ historyOf checks check.historyKey := by simp [historyOf, hcheck]
    exact ⟨_, ⟨_, ⟨check, hcheck, rfl⟩, rfl⟩, check, hmem, by rw [hsorted hmem]⟩

theorem classify_get (hids : (checks.map (·.id)).Nodup) {id : ValidationCheckId}
    {disposition : ValidationCheckDisposition} :
    (classifyValidationContinuity checks).checks[id]? = some disposition ↔ ∃ check ∈ checks,
      (check.id, dispositionOf (historyOf checks check.historyKey) check) = (id, disposition) := by
  have hfunctional : Functional some (dispositions checks) := by
    rw [functional_iff]
    rintro entry hentry _ ⟨⟩ entry' hentry' _ ⟨⟩ hkey
    obtain ⟨c, hc, rfl⟩ := mem_dispositions.mp hentry
    obtain ⟨c', hc', rfl⟩ := mem_dispositions.mp hentry'
    rw [inj_on_of_nodup_map hids hc hc' hkey]
  rw [← mem_dispositions, ← get_foldl_insert hfunctional, classifyValidationContinuity,
    foldl_classifyGroup]
  rfl

theorem classify_get_of_mem (hids : (checks.map (·.id)).Nodup) {check : ValidationCheckView}
    (hcheck : check ∈ checks) : (classifyValidationContinuity checks).checks[check.id]? =
      some (dispositionOf (historyOf checks check.historyKey) check) :=
  (classify_get hids).mpr ⟨check, hcheck, rfl⟩

/-- A failing record is outstanding exactly when none that was not skipped is strictly later, among
the records of its check on its track. -/
theorem outstanding_iff (hids : (checks.map (·.id)).Nodup) {check : ValidationCheckView}
    (hcheck : check ∈ checks) (hfailing : check.status.isFailing = true) :
    (classifyValidationContinuity checks).checks[check.id]? = some .outstanding ↔
      IsLatest (historyOf checks check.historyKey) check := by
  rw [classify_get_of_mem hids hcheck, Option.some.injEq, dispositionOf_eq_outstanding, Unanswered,
    and_iff_right hfailing]

def ValidationContinuitySummary.countOf (summary : ValidationContinuitySummary) :
    ValidationGroupState → Nat
  | .outstandingFailed => summary.outstandingFailedCount
  | .outstandingErrored => summary.outstandingErroredCount
  | .recovered => summary.recoveredCount
  | .passed => summary.passedCount
  | .skippedOnly => summary.skippedOnlyCount

theorem countOf_foldl (groups : List (List ValidationCheckView)) (view : ValidationContinuityView)
    (state : ValidationGroupState) :
    (groups.foldl (fun view group => classifyGroup view (group.insertionSort validationViewLE))
        view).summary.countOf state =
      view.summary.countOf state + (groups.map stateOf).count state := by
  induction groups generalizing view with
  | nil => rfl
  | cons group groups ih =>
    have hstate : groupState (group.insertionSort validationViewLE)
        (latestNonSkippedTime (group.insertionSort validationViewLE)) = stateOf group :=
      (groupState_eq _).trans (stateOf_congr fun x => mem_insertionSort _)
    rw [foldl_cons, ih, classifyGroup, hstate, map_cons, count_cons]
    cases stateOf group <;> cases state <;>
      simp [ValidationContinuitySummary.count, ValidationContinuitySummary.countOf] <;> omega

def historyStates (checks : List ValidationCheckView) : List ValidationGroupState :=
  (checks.map (·.historyKey)).dedup.map fun key => stateOf (historyOf checks key)

theorem countOf_classify (state : ValidationGroupState) :
    (classifyValidationContinuity checks).summary.countOf state =
      (historyStates checks).count state := by
  have hzero : ({} : ValidationContinuityView).summary.countOf state = 0 := by cases state <;> rfl
  rw [classifyValidationContinuity, countOf_foldl, hzero, Nat.zero_add, vals_validationHistories,
    map_map]
  exact (keys_validationHistories.map _).count_eq _

namespace ValidationContinuitySummary

def outstandingCount (summary : ValidationContinuitySummary) : Nat :=
  summary.outstandingFailedCount + summary.outstandingErroredCount

def total (summary : ValidationContinuitySummary) : Nat :=
  summary.outstandingCount + summary.recoveredCount + summary.passedCount + summary.skippedOnlyCount

theorem ext_countOf {s t : ValidationContinuitySummary}
    (h : ∀ state, s.countOf state = t.countOf state) : s = t := by
  obtain ⟨⟩ := s
  obtain ⟨⟩ := t
  rw [mk.injEq]
  exact ⟨h .outstandingFailed, h .outstandingErrored, h .recovered, h .passed, h .skippedOnly⟩

end ValidationContinuitySummary

theorem count_states (l : List ValidationGroupState) :
    l.count .outstandingFailed + l.count .outstandingErrored + l.count .recovered +
      l.count .passed + l.count .skippedOnly = l.length := by
  induction l with
  | nil => rfl
  | cons state l ih =>
    rw [length_cons, ← ih]
    cases state <;> simp <;> omega

theorem count_outstanding (l : List ValidationGroupState) :
    l.count .outstandingFailed + l.count .outstandingErrored =
      l.countP fun state => state = .outstandingFailed ∨ state = .outstandingErrored := by
  induction l with
  | nil => rfl
  | cons state l ih =>
    rw [countP_cons, ← ih]
    cases state <;> simp <;> omega

theorem historyStates_perm (hperm : checks'.Perm checks) :
    (historyStates checks').Perm (historyStates checks) := by
  have hstate : (fun key => stateOf (historyOf checks' key)) =
      fun key => stateOf (historyOf checks key) := by
    funext key
    exact stateOf_congr fun x => (hperm.filter _).mem_iff
  rw [historyStates, hstate]
  exact (hperm.map _).dedup.map _

theorem classify_perm (hids : (checks.map (·.id)).Nodup) (hperm : checks'.Perm checks) :
    classifyValidationContinuity checks' = classifyValidationContinuity checks := by
  have hsummary : (classifyValidationContinuity checks').summary =
      (classifyValidationContinuity checks).summary := by
    refine ValidationContinuitySummary.ext_countOf fun state => ?_
    rw [countOf_classify, countOf_classify, (historyStates_perm hperm).count_eq]
  have hchecks : (classifyValidationContinuity checks').checks =
      (classifyValidationContinuity checks).checks := by
    refine ExtTreeMap.ext_getElem? fun id => Option.ext fun disposition => ?_
    rw [classify_get ((hperm.map _).nodup_iff.mpr hids), classify_get hids]
    refine exists_congr fun check => and_congr hperm.mem_iff ?_
    rw [historyOf, dispositionOf_congr fun x => (hperm.filter _).mem_iff, ← historyOf]
  exact (ValidationContinuityView.mk.injEq ..).mpr ⟨hsummary, hchecks⟩

/-- The view of a list of records is that of each of its permutations. Its counts partition the
histories, and each record has the disposition that its history gives it. -/
theorem validation_continuity_partition (hids : (checks.map (·.id)).Nodup)
    (hperm : checks'.Perm checks) :
    classifyValidationContinuity checks' = classifyValidationContinuity checks ∧
    (classifyValidationContinuity checks).summary.total =
      (checks.map (·.historyKey)).dedup.length ∧
    (classifyValidationContinuity checks).summary.outstandingCount =
      ((checks.map (·.historyKey)).dedup.filter fun key =>
        ∃ check ∈ historyOf checks key, Unanswered (historyOf checks key) check).length ∧
    (∀ check ∈ checks,
      ((classifyValidationContinuity checks).checks[check.id]? = some .resolvedByLaterPass ↔
        check.status.isFailing = true ∧ PassedLater (historyOf checks check.historyKey) check) ∧
      ((classifyValidationContinuity checks).checks[check.id]? = some .outstanding ↔
        Unanswered (historyOf checks check.historyKey) check)) ∧
    ∀ key, ∀ check ∈ historyOf checks key, ∀ other ∈ historyOf checks key,
      (classifyValidationContinuity checks).checks[check.id]? = some .outstanding →
      (classifyValidationContinuity checks).checks[other.id]? ≠ some .current := by
  refine ⟨classify_perm hids hperm, ?_, ?_, fun check hcheck => ⟨?_, ?_⟩, ?_⟩
  · have hstates := count_states (historyStates checks)
    simp only [← countOf_classify] at hstates
    rw [← length_map (f := fun key => stateOf (historyOf checks key))]
    exact hstates
  · have hfailed := @countOf_classify checks .outstandingFailed
    have herrored := @countOf_classify checks .outstandingErrored
    have hcount := count_outstanding (historyStates checks)
    rw [← hfailed, ← herrored, historyStates, countP_map,
      countP_eq_length_filter] at hcount
    simp only [← stateOf_outstanding]
    exact hcount
  · rw [classify_get_of_mem hids hcheck, Option.some.injEq, dispositionOf_eq_resolved]
  · rw [classify_get_of_mem hids hcheck, Option.some.injEq, dispositionOf_eq_outstanding]
  · intro key check hcheck other hother hout hcurrent
    obtain ⟨hcheck, hkey⟩ := mem_filter.mp hcheck
    obtain ⟨hother, hkey'⟩ := mem_filter.mp hother
    rw [classify_get_of_mem hids hcheck, Option.some.injEq, dispositionOf_eq_outstanding] at hout
    rw [classify_get_of_mem hids hother, Option.some.injEq] at hcurrent
    refine dispositionOf_eq_current hcurrent check (mem_filter.mpr ⟨hcheck, ?_⟩) ?_
    · rw [of_decide_eq_true hkey', hkey]
    · rwa [of_decide_eq_true hkey', ← of_decide_eq_true hkey]

/-- A check that failed, and passed a second later. -/
def retried : List ValidationCheckView :=
  [⟨⟨text "check:1"⟩, ⟨text "evt:1"⟩, ⟨text "agent:1"⟩, text "lint", .failed, none,
      text "2026-01-01T00:00:00Z"⟩,
    ⟨⟨text "check:2"⟩, ⟨text "evt:2"⟩, ⟨text "agent:1"⟩, text "lint", .passed, none,
      text "2026-01-01T00:00:01Z"⟩]

theorem retried_is_recovered :
    classifyValidationContinuity retried.reverse = classifyValidationContinuity retried ∧
    (classifyValidationContinuity retried).checks[(⟨text "check:1"⟩ : ValidationCheckId)]? =
      some .resolvedByLaterPass ∧
    (classifyValidationContinuity retried).summary.outstandingCount = 0 := by
  obtain ⟨hperm, -, hcount, hall, -⟩ :=
    validation_continuity_partition (by decide +kernel) retried.reverse_perm
  refine ⟨hperm, ((hall _ (.head _)).1).mpr (by decide +kernel), ?_⟩
  rw [hcount]
  decide +kernel

end Histories

section Items

variable {V : Type} {rt : Runtime V} {E : List (ShoreEvent V)}
  {records : BTreeMap ValidationCheckId (ValidationRecord V)} {supersession : SupersessionView}
  {current : BTreeMap RevisionId (List AttentionAssessmentRecord)}

/-- The checks of the log, the record with the lowest event id for each. -/
def collectValidationRecords (rt : Runtime V) (events : List (ShoreEvent V)) :
    Result (BTreeMap ValidationCheckId (ValidationRecord V)) :=
  (events.filter fun event => event.eventType = .validationCheckRecorded).foldlM
    (collectValidationRecord rt) ∅

theorem id_of_collected (h : collectValidationRecords rt E = .ok records) {id : ValidationCheckId}
    {record : ValidationRecord V} (hrecord : records[id]? = some record) :
    record.payload.validationCheckId = id := by
  have htable : ∀ (id : ValidationCheckId) (record : ValidationRecord V),
      (∅ : BTreeMap ValidationCheckId (ValidationRecord V))[id]? = some record →
        record.payload.validationCheckId = id := by simp
  rw [collectValidationRecords] at h
  generalize E.filter _ = log at h
  generalize (∅ : BTreeMap ValidationCheckId (ValidationRecord V)) = table at h htable
  induction log generalizing table with
  | nil =>
    cases h
    exact htable id record hrecord
  | cons event log ih =>
    rw [foldlM_cons, bind_eq_ok] at h
    obtain ⟨table', hstep, hrun⟩ := h
    refine ih table' hrun fun id record hget => ?_
    simp only [collectValidationRecord, bind_eq_ok] at hstep
    obtain ⟨payload, -, trackId, -, hstep⟩ := hstep
    cases hstep
    rw [insertLeast] at hget
    split at hget
    · rw [get_insert] at hget
      split at hget
      · rename_i hid
        cases hget
        exact hid
      · exact htable id record hget
    · exact htable id record hget

theorem nodup_collected (h : collectValidationRecords rt E = .ok records) :
    (records.vals.map (·.payload.validationCheckId)).Nodup := by
  have hkeys : records.vals.map (·.payload.validationCheckId) = records.toList.map Prod.fst := by
    rw [vals, map_map]
    exact map_congr_left fun entry hentry => id_of_collected h (mem_toList_iff.mp hentry)
  rw [hkeys]
  exact nodup_fst records

def groupOf (records : BTreeMap ValidationCheckId (ValidationRecord V)) (f : ValidationRecord V) :
    List (ValidationRecord V) :=
  records.vals.filter fun record => record.groupKey = f.groupKey

theorem get_groupValidations {key : RevisionId × TrackId × Text} {l group : List (ValidationRecord V)} :
    (groupValidations l)[key]? = some group ↔
      l.filter (·.groupKey = key) = group ∧ ∃ f ∈ l, f.groupKey = key := by
  refine get_grouped_eq_some.trans ?_
  rw [map_id']

/-- No record of the group has a time that is spelled with a greater text. -/
def IsLastSpelled (group : List (ValidationRecord V)) (f : ValidationRecord V) : Prop :=
  ∀ record ∈ group, record.payload.status ≠ .skipped → compare record.sortTime f.sortTime ≠ .gt

instance (group : List (ValidationRecord V)) (f : ValidationRecord V) :
    Decidable (IsLastSpelled group f) :=
  inferInstanceAs (Decidable (∀ record ∈ group, _ → compare record.sortTime f.sortTime ≠ .gt))

theorem maxText_eq_some_iff {group : List (ValidationRecord V)} {f : ValidationRecord V}
    (hf : f ∈ group) (hstatus : f.payload.status ≠ .skipped) :
    maxText ((group.filter (·.payload.status ≠ .skipped)).map (·.sortTime)) = some f.sortTime ↔
      IsLastSpelled group f := by
  have hmem : f.sortTime ∈ (group.filter (·.payload.status ≠ .skipped)).map (·.sortTime) :=
    mem_map_of_mem (mem_filter.mpr ⟨hf, by simpa using hstatus⟩)
  refine (maxBy_eq_some_iff hmem).trans ?_
  simp only [IsLastSpelled, forall_mem_map, mem_filter, decide_eq_true_eq, and_imp]

variable {item : AttentionItem}

theorem mem_failedItems :
    item ∈ (groupValidations records.vals).toList.flatMap (failedGroupItems supersession current) ↔
      ∃ f ∈ records.vals, f.payload.status.isFailing = true ∧
        f.payload.revisionId ∈ supersession.heads ∧ IsLastSpelled (groupOf records f) f ∧
        assessmentSubsumesFailure id (current[f.payload.revisionId]?.getD []) f.sortTime = false ∧
        item = f.item supersession f.payload.revisionId := by
  rw [mem_flatMap]
  constructor
  · rintro ⟨⟨key, group⟩, hentry, hitem⟩
    obtain ⟨rfl, -⟩ := get_groupValidations.mp (mem_toList_iff.mp hentry)
    rw [failedGroupItems] at hitem
    split at hitem
    · cases hitem
    · rename_i hhead
      split at hitem
      · cases hitem
      · rename_i maxTime hmax
        split at hitem
        · cases hitem
        · rename_i hsubsumed
          simp only [mem_map, mem_filter, mem_insertionSort, Bool.and_eq_true,
            decide_eq_true_eq] at hitem
          obtain ⟨f, ⟨⟨hf, rfl⟩, rfl, hfailing⟩, rfl⟩ := hitem
          have hlast := (maxText_eq_some_iff (mem_filter.mpr ⟨hf, decide_eq_true rfl⟩)
            (ne_skipped_of_isFailing hfailing)).mp hmax
          exact ⟨f, hf, hfailing, not_not.mp hhead, hlast, (Bool.not_eq_true _).mp hsubsumed, rfl⟩
  · rintro ⟨f, hf, hfailing, hhead, hlast, hsubsumed, rfl⟩
    have hmem : f ∈ groupOf records f := by simp [groupOf, hf]
    have hstatus := ne_skipped_of_isFailing hfailing
    refine ⟨(f.groupKey, groupOf records f),
      mem_toList_iff.mpr (get_groupValidations.mpr ⟨rfl, f, hf, rfl⟩), ?_⟩
    have hkey : f.groupKey.1 = f.payload.revisionId := rfl
    rw [failedGroupItems, if_neg (not_not.mpr (hkey ▸ hhead)),
      (maxText_eq_some_iff hmem hstatus).mpr hlast]
    simp only [hkey, hsubsumed, Bool.false_eq_true, if_false, mem_map, mem_filter,
      mem_insertionSort, Bool.and_eq_true, decide_eq_true_eq]
    exact ⟨f, ⟨hmem, rfl, hfailing⟩, rfl⟩

/-! ## The attention list -/

def AttentionItem.failedCheck (item : AttentionItem) : Option ValidationCheckId :=
  match item.detail with
  | .failedValidation id _ _ _ _ _ _ => some id
  | _ => none

theorem failedCheck_openInputRequestItems {requests : InputRequestProjectionRecords V}
    {items : List AttentionItem} (h : openInputRequestItems rt requests supersession = .ok items)
    (hitem : item ∈ items) : item.failedCheck = none := by
  rw [openInputRequestItems, bind_eq_ok] at h
  obtain ⟨rows, hrows, h⟩ := h
  cases h
  obtain ⟨row, hrow, hsome⟩ := mem_filterMap.mp hitem
  obtain ⟨entry, -, hentry⟩ := (mapM_spec hrows).2 row hrow
  rw [openInputRequestItem] at hentry
  split at hentry
  · cases hentry
    cases hsome
  · rw [bind_eq_ok] at hentry
    obtain ⟨subject, -, hentry⟩ := hentry
    cases hentry
    obtain ⟨revisionId, -, rfl⟩ := Option.map_eq_some_iff.mp hsome
    rfl

/-- Of the whole list, the failing checks are reported by their own items only. -/
theorem failedCheck_attention {legacy : SupersessionView} {changes : ChangeProjection}
    {projection : AttentionProjection} {id : ValidationCheckId}
    (hlegacy : SupersessionView.fromEvents rt E = .ok legacy)
    (hcurrent : currentAssessmentRecordsByRevision rt E = .ok current)
    (hrecords : collectValidationRecords rt E = .ok records)
    (hrun : attentionFromEventsWithChanges rt E none changes = .ok projection) :
    (∃ item ∈ projection.items, item.failedCheck = some id) ↔
      ∃ item ∈ (groupValidations records.vals).toList.flatMap
        (failedGroupItems (changeAwareSupersession legacy changes).replacement current),
        item.failedCheck = some id := by
  simp only [attentionFromEventsWithChanges, hlegacy, hcurrent, bind_eq_ok] at hrun
  obtain ⟨_, ⟨⟩, _, ⟨⟩, capturedAt, -, requests, -, requestItems, hrequests, failedItems, hitems,
    hrun⟩ := hrun
  rw [failedValidationItems, ← collectValidationRecords, hrecords] at hitems
  cases hitems
  cases hrun
  have hnone : ∀ {item : AttentionItem} {P : Prop}, item.failedCheck = none →
      item.failedCheck = some id → P := by
    intro item P hnone hsome
    rw [hnone] at hsome
    cases hsome
  constructor
  · rintro ⟨item, hitem, hid⟩
    simp only [Option.elim_none, mem_insertionSort, mem_append] at hitem
    obtain ((((hitem | hitem) | hitem) | hitem) | hitem) | hitem := hitem
    · exact hnone (failedCheck_openInputRequestItems hrequests hitem) hid
    · obtain ⟨entry, -, hitem⟩ := mem_filterMap.mp hitem
      rw [ambiguousItem, Option.ite_none_left_eq_some, Option.ite_none_left_eq_some] at hitem
      obtain ⟨-, -, ⟨⟩⟩ := hitem
      exact hnone rfl hid
    · obtain ⟨component, -, hitem⟩ := mem_filterMap.mp hitem
      rw [competingHeadsItem, Option.ite_none_left_eq_some, Option.map_eq_some_iff] at hitem
      obtain ⟨-, smallest, -, rfl⟩ := hitem
      exact hnone rfl hid
    · obtain ⟨entry, -, hitem⟩ := mem_flatMap.mp hitem
      rw [staleItemsOf] at hitem
      split_ifs at hitem
      · cases hitem
      · cases hitem
      · obtain ⟨record, -, rfl⟩ := mem_map.mp hitem
        exact hnone rfl hid
    · exact ⟨item, hitem, hid⟩
    · obtain ⟨entry, -, hitem⟩ := mem_flatMap.mp hitem
      obtain ⟨record, -, hitem⟩ := mem_filterMap.mp hitem
      rw [followUpItem, Option.ite_none_left_eq_some, Option.ite_none_left_eq_some] at hitem
      obtain ⟨-, -, ⟨⟩⟩ := hitem
      exact hnone rfl hid
  · rintro ⟨item, hitem, hid⟩
    refine ⟨item, ?_, hid⟩
    simp only [Option.elim_none, mem_insertionSort, mem_append]
    exact .inl (.inr hitem)

/-! ## When a failing check is reported -/

/-- The judgments all accept, and one of the whole Revision is strictly later than this instant. A
text that is no instant has nothing later than it. -/
def AcceptedLater (judgments : List AttentionAssessmentRecord) (time : Text) : Prop :=
  (∀ record ∈ judgments, record.assessment.isAccepting = true) ∧
    ∃ record ∈ judgments, record.revisionScoped = true ∧ (parseEventInstant time).isSome = true ∧
      compareEventInstants record.recordedAt time = .gt

theorem assessmentSubsumesFailure_iff {judgments : List AttentionAssessmentRecord} {time : Text} :
    assessmentSubsumesFailure id judgments time = true ↔ AcceptedLater judgments time := by
  rw [assessmentSubsumesFailure, AcceptedLater]
  by_cases hall : ∀ record ∈ judgments, record.assessment.isAccepting = true
  · cases judgments with
    | nil => simp
    | cons first rest =>
      have haccepting : ((first :: rest).isEmpty ||
          !(first :: rest).all fun record => (id record).assessment.isAccepting) = false := by
        simpa using hall
      rw [haccepting]
      cases htime : parseEventInstant time with
      | none => simp
      | some failure =>
        simp only [Bool.false_eq_true, if_false, any_eq_true, Bool.and_eq_true, id,
          Option.isSome_some, true_and]
        refine (and_iff_right hall).symm.trans (and_congr_right fun _ => ?_)
        refine exists_congr fun record => and_congr_right fun _ => and_congr_right fun _ => ?_
        rw [compareEventInstants, htime]
        cases parseEventInstant record.recordedAt <;> simp [Int.compare_eq_gt]
  · simp [hall]

def ValidationRecord.view (record : ValidationRecord V) : ValidationCheckView where
  id := record.payload.validationCheckId
  eventId := record.event.eventId
  trackId := record.trackId
  checkName := record.payload.checkName
  status := record.payload.status
  completedAt := record.payload.completedAt
  createdAt := record.event.occurredAt

/-- No record of the group that was not skipped has a strictly later instant. -/
def NoneLater (group : List (ValidationRecord V)) (f : ValidationRecord V) : Prop :=
  ∀ record ∈ group, record.payload.status ≠ .skipped →
    compareEventInstants record.sortTime f.sortTime ≠ .gt

instance (group : List (ValidationRecord V)) (f : ValidationRecord V) :
    Decidable (NoneLater group f) :=
  inferInstanceAs
    (Decidable (∀ record ∈ group, _ → compareEventInstants record.sortTime f.sortTime ≠ .gt))

def recordsOf (records : BTreeMap ValidationCheckId (ValidationRecord V)) (r : RevisionId) :
    List (ValidationRecord V) :=
  records.vals.filter fun record => record.payload.revisionId = r

theorem mem_groupOf {f record : ValidationRecord V} :
    record ∈ groupOf records f ↔ record ∈ recordsOf records f.payload.revisionId ∧
      record.view.historyKey = f.view.historyKey := by
  simp [groupOf, recordsOf, ValidationRecord.groupKey, ValidationCheckView.historyKey,
    ValidationRecord.view, and_assoc]

theorem outstanding_iff_noneLater (h : collectValidationRecords rt E = .ok records)
    {f : ValidationRecord V} (hf : f ∈ records.vals) (hfailing : f.payload.status.isFailing = true)
    {checks : List ValidationCheckView}
    (hchecks : checks.Perm ((recordsOf records f.payload.revisionId).map (·.view))) :
    (classifyValidationContinuity checks).checks[f.payload.validationCheckId]? =
      some .outstanding ↔ NoneLater (groupOf records f) f := by
  have hids : (checks.map (·.id)).Nodup := by
    rw [(hchecks.map _).nodup_iff, map_map]
    exact (filter_sublist.map _).nodup (nodup_collected h)
  have hview : f.view ∈ checks :=
    hchecks.mem_iff.mpr (mem_map_of_mem (by simp [recordsOf, hf]))
  refine (outstanding_iff hids hview hfailing).trans ?_
  constructor
  · intro hlatest record hrecord hstatus
    obtain ⟨hrecord, hkey⟩ := mem_groupOf.mp hrecord
    refine hlatest record.view (mem_filter.mpr ⟨?_, by simpa using hkey⟩) hstatus
    exact hchecks.mem_iff.mpr (mem_map_of_mem hrecord)
  · intro hnone other hother hstatus
    obtain ⟨hother, hkey⟩ := mem_filter.mp hother
    obtain ⟨record, hrecord, rfl⟩ := mem_map.mp (hchecks.mem_iff.mp hother)
    exact hnone record (mem_groupOf.mpr ⟨hrecord, of_decide_eq_true hkey⟩) hstatus

/-- A failing check of a head is on the attention list as long as nothing strictly later clears it,
and without judgments exactly while it is outstanding, in those histories where the spelling of the
times finds the same latest records as the instants. -/
theorem failed_validation_item_iff {legacy : SupersessionView} {changes : ChangeProjection}
    {projection : AttentionProjection}
    (hlegacy : SupersessionView.fromEvents rt E = .ok legacy)
    (hcurrent : currentAssessmentRecordsByRevision rt E = .ok current)
    (hrecords : collectValidationRecords rt E = .ok records)
    (hrun : attentionFromEventsWithChanges rt E none changes = .ok projection)
    {f : ValidationRecord V} (hf : f ∈ records.vals)
    (hhead : f.payload.revisionId ∈ (changeAwareSupersession legacy changes).replacement.heads)
    (hfailing : f.payload.status.isFailing = true) {checks : List ValidationCheckView}
    (hchecks : checks.Perm ((recordsOf records f.payload.revisionId).map (·.view))) :
    (((∃ item ∈ projection.items, item.failedCheck = some f.payload.validationCheckId) ↔
        NoneLater (groupOf records f) f ∧
          ¬ AcceptedLater (current[f.payload.revisionId]?.getD []) f.sortTime) ↔
      AcceptedLater (current[f.payload.revisionId]?.getD []) f.sortTime ∨
        (IsLastSpelled (groupOf records f) f ↔ NoneLater (groupOf records f) f)) ∧
    (current[f.payload.revisionId]?.getD [] = [] →
      (((∃ item ∈ projection.items, item.failedCheck = some f.payload.validationCheckId) ↔
          (classifyValidationContinuity checks).checks[f.payload.validationCheckId]? =
            some .outstanding) ↔
        (IsLastSpelled (groupOf records f) f ↔ NoneLater (groupOf records f) f))) := by
  have hitem : (∃ item ∈ projection.items,
      item.failedCheck = some f.payload.validationCheckId) ↔
      IsLastSpelled (groupOf records f) f ∧
        ¬ AcceptedLater (current[f.payload.revisionId]?.getD []) f.sortTime := by
    rw [failedCheck_attention hlegacy hcurrent hrecords hrun,
      ← assessmentSubsumesFailure_iff, Bool.not_eq_true]
    constructor
    · rintro ⟨item, hitem, hid⟩
      obtain ⟨g, hg, -, -, hlast, hsubsumed, rfl⟩ := mem_failedItems.mp hitem
      obtain rfl : g = f :=
        inj_on_of_nodup_map (nodup_collected hrecords) hg hf (Option.some.inj hid)
      exact ⟨hlast, hsubsumed⟩
    · rintro ⟨hlast, hsubsumed⟩
      exact ⟨_, mem_failedItems.mpr ⟨f, hf, hfailing, hhead, hlast, hsubsumed, rfl⟩, rfl⟩
  rw [outstanding_iff_noneLater hrecords hf hfailing hchecks, hitem]
  constructor
  · tauto
  · intro hnone
    have hno : ¬ AcceptedLater (current[f.payload.revisionId]?.getD []) f.sortTime := by
      rw [hnone]
      rintro ⟨-, record, hrecord, -⟩
      cases hrecord
    simp [hno]

end Items

section Spellings

open Recorded

def buildCheck (n : Nat) : ValidationCheckId := ⟨text "validation:" ++ Text.hexOf 2 n []⟩

def buildRun (n r : Nat) (status : ValidationStatus) (completedAt : Text) : WirePayload :=
  .validationCheckRecorded
    { validationCheckId := buildCheck n, target := .revision (rev r), checkName := text "build", status,
      exitCode := none, completedAt := some completedAt, logArtifactContentHashes := [] }

/-- A build that passes on the first of January and fails on the first of June. -/
def mixedSpellings : List (ShoreEvent WirePayload) :=
  journal 1 [proposed 1, buildRun 1 1 .passed (text "unix-ms:1767225600000"),
    buildRun 2 1 .failed (text "2026-06-01T00:00:00Z")]

/-- The pass is spelled with the greater text, so the later failure is not reported. -/
theorem mixed_spellings_hide_failure :
    ∃ legacy records projection f, SupersessionView.fromEvents runtime mixedSpellings = .ok legacy ∧
      collectValidationRecords runtime mixedSpellings = .ok records ∧
      attentionFromEventsWithChanges runtime mixedSpellings none ⟨∅, []⟩ = .ok projection ∧
      records[buildCheck 2]? = some f ∧ f.payload.status = .failed ∧
      f.payload.revisionId ∈ (changeAwareSupersession legacy ⟨∅, []⟩).replacement.heads ∧
      (currentAssessmentRecordsByRevision runtime mixedSpellings).toOption.map (·.size) = some 0 ∧
      NoneLater (groupOf records f) f ∧
      (classifyValidationContinuity ((recordsOf records (rev 1)).map (·.view))).checks[buildCheck 2]? =
        some .outstanding ∧
      ¬ ∃ item ∈ projection.items, item.failedCheck = some (buildCheck 2) := by
  simp only [exists_and_left]
  decide +kernel

/-- The same build with both times spelled alike. -/
def oneSpelling : List (ShoreEvent WirePayload) :=
  journal 1 [proposed 1, buildRun 1 1 .passed (text "2026-01-01T00:00:00Z"),
    buildRun 2 1 .failed (text "2026-06-01T00:00:00Z")]

theorem one_spelling_reports_failure :
    ∃ records projection, collectValidationRecords runtime oneSpelling = .ok records ∧
      attentionFromEventsWithChanges runtime oneSpelling none ⟨∅, []⟩ = .ok projection ∧
      ((∃ item ∈ projection.items, item.failedCheck = some (buildCheck 2)) ↔
        (classifyValidationContinuity
          ((recordsOf records (rev 1)).map (·.view))).checks[buildCheck 2]? = some .outstanding) := by
  have hrun : ∃ legacy, SupersessionView.fromEvents runtime oneSpelling = .ok legacy ∧
      ∃ current, currentAssessmentRecordsByRevision runtime oneSpelling = .ok current ∧
      ∃ records, collectValidationRecords runtime oneSpelling = .ok records ∧
      ∃ projection, attentionFromEventsWithChanges runtime oneSpelling none ⟨∅, []⟩ =
        .ok projection ∧
      ∃ f ∈ records[buildCheck 2]?,
      f.payload.revisionId = rev 1 ∧ f.payload.validationCheckId = buildCheck 2 ∧
      f.payload.status.isFailing = true ∧
      f.payload.revisionId ∈ (changeAwareSupersession legacy ⟨∅, []⟩).replacement.heads ∧
      current[f.payload.revisionId]?.getD [] = [] ∧
      IsLastSpelled (groupOf records f) f ∧ NoneLater (groupOf records f) f := by
    decide +kernel
  obtain ⟨legacy, hlegacy, current, hcurrent, records, hrecords, projection, hprojection, f, hf,
    hrevision, hid, hfailing, hhead, hnone, hspelled, hlater⟩ := hrun
  have hmain := (failed_validation_item_iff hlegacy hcurrent hrecords hprojection
    (mem_vals_iff.mpr ⟨_, hf⟩) hhead hfailing (.refl _)).2 hnone
  rw [hid, hrevision] at hmain
  exact ⟨records, projection, hrecords, hprojection,
    hmain.mpr ⟨fun _ => hlater, fun _ => hspelled⟩⟩

end Spellings

end Pointbreak
