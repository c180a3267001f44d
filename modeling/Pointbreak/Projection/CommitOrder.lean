import Pointbreak.Semantic.Revision

/-!
# Projection.CommitOrder

The commits of a Revision as a two-phase set. A builder keeps the last capture, the last association
of an id and its last withdrawal, so the order of the events shows wherever some of them disagree,
and only there (`commit_range_two_phase_iff`).
-/

namespace Pointbreak

open Std BTreeMap ExtTreeMap RevisionCommitRangeProjection List

section Values

variable {ε ι α ω : Type}

def OneValue (l : List α) : Prop := ∀ a ∈ l, ∀ b ∈ l, a = b

theorem OneValue.getLast?_eq_some {l : List α} (h : OneValue l) {a : α} :
    l.getLast? = some a ↔ a ∈ l := by
  refine ⟨mem_of_getLast?, fun ha => ?_⟩
  have hne := ne_nil_of_mem ha
  rw [getLast?_eq_some_getLast hne, h _ (getLast_mem hne) a ha]

/-- The last value is the same in every order exactly when there is one value. -/
theorem oneValue_iff {f : ε → Option α} {l : List ε} :
    OneValue (l.filterMap f) ↔
      ∀ l' : List ε, l'.Perm l → (l'.filterMap f).getLast? = (l.filterMap f).getLast? := by
  constructor
  · intro h l' hp
    have hmem : ∀ a, a ∈ l'.filterMap f ↔ a ∈ l.filterMap f := fun _ => (hp.filterMap f).mem_iff
    have h' : OneValue (l'.filterMap f) := fun a ha b hb =>
      h a ((hmem a).mp ha) b ((hmem b).mp hb)
    refine Option.ext fun a => ?_
    rw [h'.getLast?_eq_some, h.getLast?_eq_some, hmem]
  · -- An order in which a given value comes last.
    intro h a ha b hb
    have hlast : ∀ c ∈ l.filterMap f, (l.filterMap f).getLast? = some c := by
      intro c hc
      obtain ⟨e, he, hf⟩ := mem_filterMap.mp hc
      obtain ⟨s, t, rfl⟩ := append_of_mem he
      have hp : (s ++ t ++ [e]).Perm (s ++ e :: t) :=
        (perm_append_singleton e (s ++ t)).trans perm_middle.symm
      rw [← h _ hp]
      simp [hf]
    exact Option.some.inj ((hlast a ha).symm.trans (hlast b hb))

theorem axisAlike_perm_iff [Ord ι] [TransOrd ι] [LawfulEqOrd ι] [DecidableEq ι]
    {association : ι → ε → Option α} {withdrawal : ι → ε → Option ω}
    {A : List ε → BTreeMap ι α} {W : List ε → BTreeMap ι ω}
    (hA : ∀ l (id : ι), (A l)[id]? = (l.filterMap (association id)).getLast?)
    (hW : ∀ l (id : ι), (W l)[id]? = (l.filterMap (withdrawal id)).getLast?) {l : List ε} :
    (∀ l', l'.Perm l → AxisAlike (A l') (A l) (W l') (W l)) ↔
      (∀ id, OneValue (l.filterMap (association id))) ∧
        ∀ id, ∀ a ∈ l.filterMap (association id), OneValue (l.filterMap (withdrawal id)) := by
  have hmem : ∀ l (id : ι), id ∈ A l ↔ ∃ a, a ∈ l.filterMap (association id) := by
    intro l id
    rw [mem_iff_isSome_getElem?, hA, getLast?_isSome]
    exact ⟨exists_mem_of_ne_nil _, fun h => ne_nil_of_mem h.choose_spec⟩
  constructor
  · intro h
    refine ⟨fun id => oneValue_iff.mpr fun l' hp => ?_,
      fun id a ha => oneValue_iff.mpr fun l' hp => ?_⟩
    · rw [← hA, ← hA, (h l' hp).associated]
    · have hid := (hmem l id).mpr ⟨a, ha⟩
      rw [← (h l' hp).associated] at hid
      rw [← hW, ← hW, (h l' hp).history id hid]
  · rintro ⟨hassociated, hwithdrawn⟩ l' hp
    have hsame : A l' = A l := ext_getElem? fun id => by
      rw [hA, hA]
      exact oneValue_iff.mp (hassociated id) l' hp
    refine ⟨hsame, fun id => ?_, fun id hid => ?_⟩
    · rw [mem_iff_isSome_getElem?, mem_iff_isSome_getElem?, hW, hW,
        getLast?_isSome, getLast?_isSome, ← length_pos_iff, ← length_pos_iff,
        (hp.filterMap (withdrawal id)).length_eq]
    · rw [hsame, hmem] at hid
      obtain ⟨a, ha⟩ := hid
      rw [hW, hW]
      exact oneValue_iff.mp (hwithdrawn id a ha) l' hp

end Values

section Order

variable {V : Type} (rt : Runtime V) (r : RevisionId)

def heed (e : ShoreEvent V) : Option RangeRecord :=
  ((rangeRecord rt e).filter RangeRecord.atRevision).filter fun record => record.revisionId = r

def heeded (E : List (ShoreEvent V)) : List RangeRecord := E.filterMap (heed rt r)

def heard {α : Type} (read : RangeEntry → Option α) (e : ShoreEvent V) : Option α :=
  (heed rt r e).bind fun record => read record.entry

def sayings (E : List (ShoreEvent V)) : List RangeEntry := (heeded rt r E).map RangeRecord.entry

/-- Captures that end in a commit, associations under one id and the withdrawals of an id that has an
association agree. -/
structure Agreed (entries : List RangeEntry) : Prop where
  captured : ∀ c, .captured (some c) ∈ entries → ∀ c', .captured (some c') ∈ entries → c = c'
  commits : ∀ id c, .commitAssociated id c ∈ entries →
    ∀ c', .commitAssociated id c' ∈ entries → c = c'
  commitWithdrawals : ∀ id c, .commitAssociated id c ∈ entries →
    ∀ w, .commitWithdrawn id w ∈ entries → ∀ w', .commitWithdrawn id w' ∈ entries → w = w'
  refs : ∀ id ref, .refAssociated id ref ∈ entries →
    ∀ ref', .refAssociated id ref' ∈ entries → ref = ref'
  refWithdrawals : ∀ id ref, .refAssociated id ref ∈ entries →
    ∀ w, .refWithdrawn id w ∈ entries → ∀ w', .refWithdrawn id w' ∈ entries → w = w'

variable {rt r} {E E' : List (ShoreEvent V)} {p : RevisionCommitRangeProjection}

theorem latest_heeded {α : Type} (read : RangeEntry → Option α) :
    latest read (heeded rt r E) = (E.filterMap (heard rt r read)).getLast? := by
  rw [latest, heeded, filterMap_filterMap]
  rfl

theorem fromEvents_eq_ok : RevisionCommitRangeProjection.fromEvents rt E = .ok p ↔
    (∀ e ∈ E, ∃ b, CommitRangeBuilders.apply rt ∅ e = .ok b) ∧
      ((atRevision (E.filterMap (rangeRecord rt))).foldl (CommitRangeBuilders.enter true) ∅).finish =
        p := by
  simp only [fromEvents, Result.bind_eq_ok, Except.ok.injEq,
    foldlM_apply_eq_ok]
  constructor
  · rintro ⟨_, ⟨hall, rfl⟩, hp⟩
    exact ⟨hall, hp⟩
  · rintro ⟨hall, hp⟩
    exact ⟨_, ⟨hall, rfl⟩, hp⟩

theorem get_fromEvents (hp : RevisionCommitRangeProjection.fromEvents rt E = .ok p) :
    p.units[r]? = viewOf true r (heeded rt r E) := by
  rw [← (fromEvents_eq_ok.mp hp).2, get_units, atRevision, filter_filterMap,
    filter_filterMap]
  rfl

theorem fromEvents_perm (hp : RevisionCommitRangeProjection.fromEvents rt E = .ok p)
    (hperm : E'.Perm E) : ∃ p', RevisionCommitRangeProjection.fromEvents rt E' = .ok p' :=
  ⟨_, fromEvents_eq_ok.mpr ⟨fun e he => (fromEvents_eq_ok.mp hp).1 e (hperm.mem_iff.mp he), rfl⟩⟩

section Read

variable {α : Type} {read : RangeEntry → Option α} {mk : α → RangeEntry}
  (hread : ∀ entry a, read entry = some a ↔ entry = mk a)

include hread

theorem mem_heard {a : α} :
    a ∈ E.filterMap (heard rt r read) ↔ mk a ∈ sayings rt r E := by
  have hflat : E.filterMap (heard rt r read) =
      (heeded rt r E).filterMap fun record => read record.entry := by
    rw [heeded, filterMap_filterMap]
    rfl
  rw [hflat, mem_filterMap, sayings, mem_map]
  simp only [hread]

theorem latest_eq_none :
    latest read (heeded rt r E) = none ↔ ∀ a, mk a ∉ sayings rt r E := by
  rw [latest_heeded, getLast?_eq_none_iff, eq_nil_iff_forall_not_mem]
  simp only [mem_heard hread]

theorem latest_eq_some
    (h : ∀ a, mk a ∈ sayings rt r E → ∀ b, mk b ∈ sayings rt r E → a = b) {a : α} :
    latest read (heeded rt r E) = some a ↔ mk a ∈ sayings rt r E := by
  simp only [← mem_heard hread] at h
  rw [latest_heeded, OneValue.getLast?_eq_some h, mem_heard hread]

end Read

theorem capture_eq_some (entry : RangeEntry) (c : Text × Text) :
    entry.capture.join = some c ↔ entry = .captured (some c) := by
  cases entry <;> simp [RangeEntry.capture]

theorem commit_eq_some {id : CommitAssociationId} (entry : RangeEntry) (c : Text × Text) :
    entry.commit id = some c ↔ entry = .commitAssociated id c := by
  cases entry <;> simp [RangeEntry.commit]

theorem commitWithdrawal_eq_some {id : CommitAssociationId} (entry : RangeEntry)
    (w : CommitWithdrawalId) :
    entry.commitWithdrawal id = some w ↔ entry = .commitWithdrawn id w := by
  cases entry <;> simp [RangeEntry.commitWithdrawal]

theorem ref_eq_some {id : RefAssociationId} (entry : RangeEntry) (ref : Text × Text) :
    entry.ref id = some ref ↔ entry = .refAssociated id ref := by
  cases entry <;> simp [RangeEntry.ref]

theorem refWithdrawal_eq_some {id : RefAssociationId} (entry : RangeEntry) (w : RefWithdrawalId) :
    entry.refWithdrawal id = some w ↔ entry = .refWithdrawn id w := by
  cases entry <;> simp [RangeEntry.refWithdrawal]

theorem agreed_iff : Agreed (sayings rt r E) ↔ ∀ E', E'.Perm E →
    (built true (heeded rt r E')).Alike (built true (heeded rt r E)) := by
  have hcommits := axisAlike_perm_iff (l := E)
    (fun E id => (get_associatedCommits true (heeded rt r E) id).trans (latest_heeded _))
    (fun E id => (get_withdrawnCommits true (heeded rt r E) id).trans (latest_heeded _))
  have hrefs := axisAlike_perm_iff (l := E)
    (fun E id => (get_associatedRefs true (heeded rt r E) id).trans (latest_heeded _))
    (fun E id => (get_withdrawnRefs true (heeded rt r E) id).trans (latest_heeded _))
  have hcaptured := oneValue_iff (l := E) (f := heard rt r fun entry => entry.capture.join)
  simp only [OneValue, mem_heard capture_eq_some, mem_heard commit_eq_some, mem_heard ref_eq_some,
    mem_heard commitWithdrawal_eq_some, mem_heard refWithdrawal_eq_some, ← latest_heeded,
    ← captureTarget_keep] at hcaptured hcommits hrefs
  constructor
  · rintro ⟨hc, ha, hw, ha', hw'⟩ E' hp
    exact ⟨hcaptured.mp hc E' hp, hcommits.mpr ⟨ha, hw⟩ E' hp, hrefs.mpr ⟨ha', hw'⟩ E' hp⟩
  · intro h
    obtain ⟨ha, hw⟩ := hcommits.mp fun E' hp => (h E' hp).commits
    obtain ⟨ha', hw'⟩ := hrefs.mp fun E' hp => (h E' hp).refs
    exact ⟨hcaptured.mpr fun E' hp => (h E' hp).captureTarget, ha, hw, ha', hw'⟩

theorem latest_isSome_perm (hperm : E'.Perm E) {α : Type} (read : RangeEntry → Option α) :
    (latest read (heeded rt r E')).isSome = (latest read (heeded rt r E)).isSome := by
  rw [Bool.eq_iff_iff, latest_heeded, latest_heeded, getLast?_isSome, getLast?_isSome,
    ← length_pos_iff, ← length_pos_iff, (hperm.filterMap _).length_eq]

theorem viewOf_perm_iff (hperm : E'.Perm E) :
    viewOf true r (heeded rt r E') = viewOf true r (heeded rt r E) ↔
      (built true (heeded rt r E')).Alike (built true (heeded rt r E)) := by
  refine Iff.trans ?_ (CommitRangeBuilder.finish_eq_iff ?_ ?_ r)
  · have hlength : (heeded rt r E').length = (heeded rt r E).length :=
      (hperm.filterMap _).length_eq
    have hnil : heeded rt r E' = [] ↔ heeded rt r E = [] := by
      rw [← length_eq_zero_iff, hlength, length_eq_zero_iff]
    by_cases hE : heeded rt r E = []
    · rw [hnil.mpr hE, hE]
      exact ⟨fun _ => rfl, fun _ => rfl⟩
    · rw [viewOf, viewOf, if_neg hE, if_neg fun h => hE (hnil.mp h), Option.some.injEq]
  · intro id hid
    rw [mem_iff_isSome_getElem?, get_withdrawnCommits] at hid ⊢
    rwa [← latest_isSome_perm hperm]
  · intro id hid
    rw [mem_iff_isSome_getElem?, get_withdrawnRefs] at hid ⊢
    rwa [← latest_isSome_perm hperm]

/-- The view of a Revision as a two-phase set. -/
structure TwoPhase (entries : List RangeEntry) (r : RevisionId) (view : RevisionCommitRangeView) :
    Prop where
  current : ∀ commit, commit ∈ view.currentCommits ↔
    (∃ c, .captured (some c) ∈ entries ∧ .ofCapture c = commit) ∨
      ∃ id c, .commitAssociated id c ∈ entries ∧ (∀ w, .commitWithdrawn id w ∉ entries) ∧
        .ofAssociation (id, c) = commit
  withdrawnCommits : ∀ id c w, .commitAssociated id c ∈ entries →
    .commitWithdrawn id w ∈ entries → .ofWithdrawal (id, c, w) ∈ view.withdrawnCommits
  withdrawnRefs : ∀ id ref w, .refAssociated id ref ∈ entries →
    .refWithdrawn id w ∈ entries → .ofWithdrawal (id, ref, w) ∈ view.withdrawnRefs
  missing : ∀ d, d ∈ view.diagnostics ∧ d.code = RETRACTION_TARGET_MISSING_CODE ↔
    (∃ id w, .commitWithdrawn id w ∈ entries ∧ (∀ c, .commitAssociated id c ∉ entries) ∧
      missingDiagnostic r id.asStr = d) ∨
    ∃ id w, .refWithdrawn id w ∈ entries ∧ (∀ ref, .refAssociated id ref ∉ entries) ∧
      missingDiagnostic r id.asStr = d

theorem Agreed.twoPhase (h : Agreed (sayings rt r E)) :
    TwoPhase (sayings rt r E) r ((built true (heeded rt r E)).finish r) where
  current commit := by
    simp [CommitRangeBuilder.finish, CommitRangeBuilder.mem_currentCommits, mem_current,
      captureTarget_keep, get_associatedCommits, get_withdrawnCommits,
      latest_eq_some capture_eq_some h.captured, latest_eq_some commit_eq_some (h.commits _),
      latest_eq_none commitWithdrawal_eq_some, and_assoc]
  withdrawnCommits id c w hc hw := by
    simp only [CommitRangeBuilder.finish, mem_insertionSort, mem_map]
    refine ⟨(id, c, w), mem_withdrawn.mpr ⟨?_, ?_⟩, rfl⟩
    · rwa [get_associatedCommits, latest_eq_some commit_eq_some (h.commits id)]
    · rwa [get_withdrawnCommits,
        latest_eq_some commitWithdrawal_eq_some (h.commitWithdrawals id c hc)]
  withdrawnRefs id ref w hr hw := by
    simp only [CommitRangeBuilder.finish, mem_insertionSort, mem_map]
    refine ⟨(id, ref, w), mem_withdrawn.mpr ⟨?_, ?_⟩, rfl⟩
    · rwa [get_associatedRefs, latest_eq_some ref_eq_some (h.refs id)]
    · rwa [get_withdrawnRefs, latest_eq_some refWithdrawal_eq_some (h.refWithdrawals id ref hr)]
  missing d := by
    have hfilter := congrArg (d ∈ ·) ((built true (heeded rt r E)).filter_missing r)
    simp only [mem_filter, decide_eq_true_eq] at hfilter
    simp [hfilter, mem_missingTargets, mem_iff_isSome_getElem?,
      Option.isSome_iff_ne_none, get_associatedCommits, get_withdrawnCommits, get_associatedRefs,
      get_withdrawnRefs, latest_eq_none commit_eq_some, latest_eq_none commitWithdrawal_eq_some,
      latest_eq_none ref_eq_some, latest_eq_none refWithdrawal_eq_some, not_forall, not_not,
      and_assoc]

/-- Every order of the events shows one view of the Revision, as a two-phase set, exactly when its
captures, its associations under one id and the withdrawals of these agree. -/
theorem commit_range_two_phase_iff
    (hp : RevisionCommitRangeProjection.fromEvents rt E = .ok p) :
    ((∀ E', E'.Perm E → ∃ p', RevisionCommitRangeProjection.fromEvents rt E' = .ok p' ∧
        p'.units[r]? = p.units[r]?) ∧
      ∀ view ∈ p.units[r]?, TwoPhase (sayings rt r E) r view) ↔ Agreed (sayings rt r E) := by
  rw [get_fromEvents hp]
  constructor
  · rintro ⟨horder, -⟩
    rw [agreed_iff]
    intro E' hperm
    obtain ⟨p', hp', hview⟩ := horder E' hperm
    rw [get_fromEvents hp', viewOf_perm_iff hperm] at hview
    exact hview
  · intro h
    refine ⟨fun E' hperm => ?_, fun view hview => ?_⟩
    · obtain ⟨p', hp'⟩ := fromEvents_perm hp hperm
      exact ⟨p', hp', by
        rw [get_fromEvents hp', viewOf_perm_iff hperm]
        exact agreed_iff.mp h E' hperm⟩
    · unfold viewOf at hview
      split at hview
      · cases hview
      · cases hview
        exact h.twoPhase

end Order

section Instances

open Recorded

def capturedTwice : List (ShoreEvent WirePayload) :=
  journal 1 [captured 1 (some landed) [],
    captured 1 (some { landed with target := .gitCommit (text "tip") (text "tip-tree") }) []]

def shownOids (events : List (ShoreEvent WirePayload)) : Option (List Text) :=
  (RevisionCommitRangeProjection.fromEvents runtime events).toOption.bind fun projection =>
    projection.units[rev 1]?.map fun view => view.currentCommits.map (·.commitOid)

/-- The commit of the capture that is read last is shown, and the other is not. -/
theorem last_capture_hides_first :
    (capturedTwice.map (·.eventId)).Nodup ∧ capturedTwice.reverse.Perm capturedTwice ∧
      shownOids capturedTwice = some [text "tip"] ∧
      shownOids capturedTwice.reverse = some [text "head"] :=
  ⟨by decide, capturedTwice.reverse_perm, by decide +kernel, by decide +kernel⟩

deriving instance DecidableEq for RangeEntry

theorem withdrawal_first_shown_alike :
    ∃ p p', RevisionCommitRangeProjection.fromEvents runtime withdrawn = .ok p ∧
      RevisionCommitRangeProjection.fromEvents runtime withdrawn.reverse = .ok p' ∧
      p'.units[rev 1]? = p.units[rev 1]? ∧ shownOids withdrawn = some [text "head"] := by
  have hrun : (fromEvents runtime withdrawn).toOption.isSome = true ∧
      shownOids withdrawn = some [text "head"] ∧ sayings runtime (rev 1) withdrawn =
        [.captured (some (text "head", text "head-tree")),
          .commitAssociated ⟨text "assoc-commit:01"⟩ (text "tip", text "tip-tree"),
          .commitWithdrawn ⟨text "assoc-commit:01"⟩ ⟨text "withdraw-commit:01"⟩] := by
    decide +kernel
  obtain ⟨p, hp⟩ := Option.isSome_iff_exists.mp hrun.1
  have hp := Result.toOption_eq_some.mp hp
  have hagreed : Agreed (sayings runtime (rev 1) withdrawn) := by
    rw [hrun.2.2]
    constructor <;> simp
  obtain ⟨p', hp', hview⟩ :=
    ((commit_range_two_phase_iff hp).mpr hagreed).1 _ withdrawn.reverse_perm
  exact ⟨p, p', hp, hp', hview, hrun.2.1⟩

end Instances

end Pointbreak
