import StoreSync.Expression.Table
import StoreSync.Proofs.Schedules

/-!
# A dry run predicts the real run

A dry run leaves the destination as it is, so each of its units finds the initial entries.  In a
real run every unit changes the destination that the next ones find.  As long as the pivots are
independent this makes no difference to what a unit plans, and what the dry run holds back is
exactly what the real run applies.

Both runs settle every pivot by its fate (`Pass.Sound.concluded`), so they can be compared fate by
fate and mark by mark:

* `Task.fate_ne_refused` — a change that aims at a free place is not refused;
* `Task.fate_withDryRun` — the fate in the dry run is that of the real run, rehearsed;
* `Mark.figures_foldl_rehearse`, `Mark.proposals_rehearse` and `Mark.onCondition_rehearse` — what
  marks have in common with the same marks rehearsed.
-/

namespace StoreSync

/-- The same task with other kinds of change suppressed. -/
def Task.withDryRun {σ : Type} (t : Task σ) (d : DryRun) : Task σ :=
  { t with config := { t.config with dryRun := d } }

/-- What a change is to do for which pivot. -/
def AuditRecord.proposal (r : AuditRecord) :
    String × Modification × String × Option String × List AttributeOperation :=
  (r.pivot, r.change.modification, r.change.identifier, r.change.newIdentifier,
    r.change.operations)

/-- The change was held back because its condition is false. -/
def AuditRecord.isOnCondition (r : AuditRecord) : Bool := r.suppressed = some .condition

/-! ## Marks that are rehearsed -/

/-- What the dry run makes of a fate. -/
def Fate.rehearse : Fate → Fate
  | .applied c => .held c .dryRun
  | fate => fate

namespace Mark

/-- What the dry run notes in the place of a mark. -/
def rehearse : Mark → Mark
  | .applied pivot c => .held pivot c .dryRun
  | m => m

variable {marks : List Mark} {n n' : Counters} {task : String}

lemma marks_rehearse (pivot : String) {fate : Fate} (h : ∀ c, fate ≠ .refused c) :
    fate.rehearse.marks pivot = (fate.marks pivot).map rehearse := by
  cases fate with
  | refused c => exact absurd rfl (h c)
  | _ => rfl

/-- The counters that do not depend on what was applied. -/
def figures (n : Counters) : Nat × Nat × Nat := (n.seen, n.attempted, n.errored)

lemma figures_count_rehearse (m : Mark) (h : figures n = figures n') :
    figures (count n m.rehearse) = figures (count n' m) := by
  simp only [figures, Prod.mk.injEq] at h ⊢
  cases m <;>
    simp [rehearse, count, Counters.recordSeen, Counters.recordAttempted, Counters.recordError,
      Counters.recordApplied, h]

lemma figures_foldl_rehearse (h : figures n = figures n') :
    figures ((marks.map rehearse).foldl count n) = figures (marks.foldl count n') := by
  induction marks generalizing n n' with
  | nil => exact h
  | cons m rest ih => exact ih (figures_count_rehearse m h)

/-- The proposal of a record that has lost its time. -/
def proposalOf (r : String × String × Change × Option Suppression) :
    String × Modification × String × Option String × List AttributeOperation :=
  (r.2.1, r.2.2.1.modification, r.2.2.1.identifier, r.2.2.1.newIdentifier, r.2.2.1.operations)

lemma proposals_rehearse :
    ((marks.map rehearse).filterMap (record? task)).map proposalOf =
      (marks.filterMap (record? task)).map proposalOf := by
  rw [List.filterMap_map, List.map_filterMap, List.map_filterMap]
  congr 1
  funext m
  cases m <;> rfl

lemma onCondition_rehearse :
    ((marks.map rehearse).filterMap (record? task)).filter (·.2.2.2 = some .condition) =
      (marks.filterMap (record? task)).filter (·.2.2.2 = some .condition) := by
  rw [List.filterMap_map, List.filter_filterMap, List.filter_filterMap]
  congr 1
  funext m
  cases m <;> rfl

end Mark

/-! ## Fates that are rehearsed -/

namespace Task

variable {σ : Type} {t : Task σ} {src dst : MemoryStore} {p : Pivot} {c : Change}

/-- The place that the change of a pivot aims at is not that of another entry. -/
def AimsFree (t : Task σ) (src dst : MemoryStore) (p : Pivot) : Prop :=
  ∀ c ∈ t.change? src dst p, ∀ k ∈ c.aim?,
    dst.entries.contains k = true → dst.foundKey? p = some k

instance : Decidable (t.AimsFree src dst p) :=
  inferInstanceAs (Decidable (∀ c ∈ t.change? src dst p, ∀ k ∈ c.aim?,
    dst.entries.contains k = true → dst.foundKey? p = some k))

/-- A change is only refused because of the place that it aims at: the record that it is about is
there. -/
lemma fate_ne_refused (hkeyed : MemoryStore.Keyed dst.records) (hfree : t.AimsFree src dst p) :
    t.fate src dst p ≠ .refused c := by
  intro hrefused
  have hchange := change?_of_fate (Or.inr hrefused)
  have hnone := enact_of_fate_refused hrefused
  have hplace : ∀ k, c.aim? = some k → dst.records.contains k = true → dst.foundKey? p = some k :=
    fun k hk hcontains => hfree c hchange k hk ((dst.contains_records k).symm ▸ hcontains)
  rcases shape_of_change? hchange with ⟨hfound, id, ops, rfl⟩ | ⟨k, d, id, hfound, hid, hshape⟩
  · by_cases hcontains : dst.records.contains (Text.fold id) = true
    · have hkey := hplace _ rfl hcontains
      simp [MemoryStore.foundKey?, hfound] at hkey
    · simp [Change.enact, Change.create, hcontains] at hnone
  · have hget := MemoryStore.get?_of_found? hfound
    obtain rfl := hkeyed k d id hget hid
    rcases hshape with ⟨ops, rfl⟩ | ⟨new, rfl⟩
    · simp [Change.enact, Change.update, hget] at hnone
    · by_cases hcontains : dst.records.contains (Text.fold new) = true
      · have hkey := hplace _ rfl hcontains
        have hsame : Text.fold new = Text.fold id := by
          simpa [MemoryStore.foundKey?, hfound, eq_comm] using hkey
        simp [Change.enact, Change.rename, hsame, hget] at hnone
      · simp [Change.enact, Change.rename, hcontains, hget] at hnone

/-- What is planned does not depend on what is suppressed; the dry run holds back what the real run
goes on to apply. -/
lemma fate_withDryRun (h : ∀ c, (t.withDryRun .none).fate src dst p ≠ .refused c) :
    (t.withDryRun .all).fate src dst p = ((t.withDryRun .none).fate src dst p).rehearse := by
  have hsame : ∀ d, (t.withDryRun d).foreseen src dst p = t.foreseen src dst p := fun _ => rfl
  simp only [fate, hsame] at h ⊢
  cases hplan : t.foreseen src dst p with
  | error e => rfl
  | ok plan =>
    cases plan with
    | none => rfl
    | some planned =>
      obtain ⟨change, allowed⟩ := planned
      cases allowed with
      | false => rfl
      | true =>
        have hall : (t.withDryRun .all).suppression? ⟨change, true⟩ = some .dryRun := by
          cases hm : change.modification <;>
            simp [suppression?, withDryRun, DryRun.all, DryRun.suppresses, hm]
        have hnone : (t.withDryRun .none).suppression? ⟨change, true⟩ = none := by
          cases hm : change.modification <;>
            simp [suppression?, withDryRun, DryRun.none, DryRun.suppresses, hm]
        simp only [hplan, hnone] at h
        simp only [hall, hnone]
        split at h
        next henact => rw [if_pos henact, Fate.rehearse]
        · exact absurd rfl (h change)

lemma marks_withDryRun {pivots : List Pivot}
    (h : ∀ p ∈ pivots, ∀ c, (t.withDryRun .none).fate src dst p ≠ .refused c) :
    (t.withDryRun .all).marks src dst pivots =
      ((t.withDryRun .none).marks src dst pivots).map Mark.rehearse := by
  induction pivots with
  | nil => rfl
  | cons p rest ih =>
    have hp := h p List.mem_cons_self
    rw [marks_cons, marks_cons, List.map_append, fate_withDryRun hp, Mark.marks_rehearse _ hp,
      ih fun q hq => h q (List.mem_cons_of_mem _ hq)]

end Task

/-! ## The two runs -/

namespace Pass

variable {t : Task (MemoryStore × MemoryStore)} {src dst : MemoryStore} {pivots : List Pivot}

lemma Undisturbed.withDryRun (h : Undisturbed t src dst pivots) (d : DryRun) :
    Undisturbed (t.withDryRun d) src dst pivots := by
  refine ⟨⟨h.joins.source, h.joins.destination⟩, h.keyed, h.source, h.destination, h.loss, ?_⟩
  exact h.independent.imp fun h =>
    ⟨⟨h.1.entry, h.1.value, h.1.place, h.1.aim⟩, ⟨h.2.entry, h.2.value, h.2.place, h.2.aim⟩⟩

/-- What the report and the records of a dry run say of those of the real run. -/
structure Predicts (r r' : PassReport) (records records' : List AuditRecord) : Prop where
  /-- The same changes for the same pivots, ... -/
  proposals : (records.map AuditRecord.proposal).Perm (records'.map AuditRecord.proposal)
  seen : r.counters.seen = r'.counters.seen
  attempted : r.counters.attempted = r'.counters.attempted
  errored : r.counters.errored = r'.counters.errored
  /-- ... and up to their times the same records of changes whose condition is false. -/
  onCondition : ((records.filter (·.isOnCondition)).map AuditRecord.untimed).Perm
    ((records'.filter (·.isOnCondition)).map AuditRecord.untimed)

lemma proposals_eq (records : List AuditRecord) :
    records.map AuditRecord.proposal = (records.map AuditRecord.untimed).map Mark.proposalOf := by
  rw [List.map_map]
  rfl

lemma onCondition_eq (records : List AuditRecord) :
    (records.filter (·.isOnCondition)).map AuditRecord.untimed =
      (records.map AuditRecord.untimed).filter (·.2.2.2 = some .condition) := by
  rw [List.filter_map]
  rfl

/-- Runs that have settled the same pivots, one without and one with their changes applied. -/
lemma predicts_of_concluded {r r' : PassReport} {w w' : World (MemoryStore × MemoryStore)}
    (hmarks : (t.withDryRun .all).marks src dst pivots =
      ((t.withDryRun .none).marks src dst pivots).map Mark.rehearse)
    (h : Concluded (t.withDryRun .all) src dst pivots [] w r)
    (h' : Concluded (t.withDryRun .none) src dst pivots [] w' r') :
    Predicts r r' w.audit w'.audit := by
  have hfigures : Mark.figures r.counters = Mark.figures r'.counters := by
    rw [h.counters, h'.counters, hmarks]
    exact Mark.figures_foldl_rehearse rfl
  simp only [Mark.figures, Prod.mk.injEq] at hfigures
  obtain ⟨hseen, hattempted, herrored⟩ := hfigures
  have haudit := h.audit
  have haudit' := h'.audit
  rw [List.nil_append, hmarks] at haudit
  rw [List.nil_append] at haudit'
  refine ⟨?_, hseen, hattempted, herrored, ?_⟩
  · rw [proposals_eq, proposals_eq]
    refine (haudit.map _).trans ?_
    rw [Mark.proposals_rehearse]
    exact (haudit'.map _).symm
  · rw [onCondition_eq, onCondition_eq]
    refine (haudit.filter _).trans ?_
    rw [Mark.onCondition_rehearse]
    exact (haudit'.filter _).symm

/-- **A dry run predicts the real run.**  Take a pass over pivots between two stores twice, once
with every kind of change suppressed and once with none, on any schedules that the time limit does
not end.  The pivots are independent, and none aims at the place of another entry.  Each run can be
continued until the pass reports, and when both have reported, the dry run has predicted the
changes, the counters and the refusals of the real run. -/
theorem predicts_of_rehearsal (ht : t.Joins src dst) (hreachable : dst.Reachable)
    (hsrc : src.connectionLost = false) (hdst : dst.connectionLost = false)
    (hloss : ∀ p ∈ pivots, ∀ e, t.foreseen src dst p = .error e → e.isConnectionLost = false)
    (hind : pivots.Pairwise fun p q => t.Independent src dst p q ∧ t.Independent src dst q p)
    (hfree : ∀ p ∈ pivots, t.AimsFree src dst p)
    {now now' : Nat} {kind kind' : PassKind} {w w' : World (MemoryStore × MemoryStore)}
    {y y' : Pass × World (MemoryStore × MemoryStore)}
    (hw : w.stores = (src, dst)) (haudit : w.audit = [])
    (hw' : w'.stores = (src, dst)) (haudit' : w'.audit = [])
    (hrun : Run (t.withDryRun .all) InTime
      (.reconciling (t.withDryRun .all).config kind pivots now, w) y)
    (hrun' : Run (t.withDryRun .none) InTime
      (.reconciling (t.withDryRun .none).config kind' pivots now', w') y') :
    (0 < t.config.timeLimitSeconds →
      (∃ z, Run (t.withDryRun .all) InTime y z ∧ ∀ time, (z.1.report? t.config time).isSome) ∧
      ∃ z, Run (t.withDryRun .none) InTime y' z ∧ ∀ time, (z.1.report? t.config time).isSome) ∧
    ∀ time time' r r', y.1.report? t.config time = some r →
      y'.1.report? t.config time' = some r' →
      r.status = .completed ∧ r'.status = .completed ∧ Predicts r r' y.2.audit y'.2.audit := by
  have hsetting : Undisturbed t src dst pivots :=
    ⟨ht, hreachable.keyed, hsrc, hdst, hloss, hind⟩
  have hsound := sound_of_run (hsetting.withDryRun .all) hw hrun
  have hsound' := sound_of_run (hsetting.withDryRun .none) hw' hrun'
  refine ⟨fun hlimit => ?_, fun time time' r r' hr hr' => ?_⟩
  · have hlimit : 0 < t.config.timeLimit := by
      show 0 < t.config.timeLimitSeconds * 1000
      omega
    obtain ⟨z, hz, hreport⟩ := hsound.exists_report (hsetting.withDryRun .all) hlimit
    obtain ⟨z', hz', hreport'⟩ := hsound'.exists_report (hsetting.withDryRun .none) hlimit
    exact ⟨⟨z, hz, hreport t.config⟩, ⟨z', hz', hreport' t.config⟩⟩
  · have hmarks := Task.marks_withDryRun fun p hp c =>
      Task.fate_ne_refused (t := t.withDryRun .none) (c := c) hreachable.keyed (hfree p hp)
    have hend := hsound.concluded hr
    have hend' := hsound'.concluded hr'
    rw [haudit] at hend
    rw [haudit'] at hend'
    exact ⟨hend.status, hend'.status, predicts_of_concluded hmarks hend hend'⟩

/-! The staff once more, now without permission to create entries. -/

def frozen : Task (MemoryStore × MemoryStore) :=
  { staffing with config := { staffing.config with
      policy := { Policy.empty with conditions := { Conditions.always with create := .never } } } }

theorem predicts_of_frozen :
    (staffPivots.map ((frozen.withDryRun .all).fate staff directory) =
      [.held (.create "uid=1" [⟨.add, "mail", [.string "a@x"]⟩]) .condition,
        .held (.update "UID=2"
          [⟨.replace, "mail", [.string "b@x"]⟩, ⟨.replace, "room", [.integer 7]⟩]) .dryRun,
        .held (.rename "uid=9" "uid=3") .dryRun]) ∧
    ∃ y y' : Pass × World (MemoryStore × MemoryStore), ∃ r r' : PassReport,
      Run (frozen.withDryRun .all) InTime
        (.reconciling (frozen.withDryRun .all).config .full staffPivots 0,
          ⟨(staff, directory), [], [], ⟨0⟩⟩) y ∧
      Run (frozen.withDryRun .none) InTime
        (.reconciling (frozen.withDryRun .none).config .full staffPivots 0,
          ⟨(staff, directory), [], [], ⟨0⟩⟩) y' ∧
      y.1.report? frozen.config 0 = some r ∧ y'.1.report? frozen.config 0 = some r' ∧
      Predicts r r' y.2.audit y'.2.audit := by
  have hreachable : directory.Reachable := (MemoryStore.Filled.insertAll (.empty rfl) _).reachable
  have hok : ∀ p ∈ staffPivots, (frozen.foreseen staff directory p).toOption.isSome := by
    decide +kernel
  have hloss : ∀ p ∈ staffPivots, ∀ e, frozen.foreseen staff directory p = .error e →
      e.isConnectionLost = false := by
    intro p hp e he
    have hsome := hok p hp
    rw [he] at hsome
    simp [Except.toOption] at hsome
  have hind : staffPivots.Pairwise fun p q => frozen.Independent staff directory p q ∧
      frozen.Independent staff directory q p := by
    decide +kernel
  have hfree : ∀ p ∈ staffPivots, frozen.AimsFree staff directory p := by decide +kernel
  have hpredicts := fun y y' => @predicts_of_rehearsal frozen staff directory staffPivots
    ⟨rfl, rfl⟩ hreachable rfl rfl hloss hind hfree 0 0 .full .full
    ⟨(staff, directory), [], [], ⟨0⟩⟩ ⟨(staff, directory), [], [], ⟨0⟩⟩ y y' rfl rfl rfl rfl
  obtain ⟨⟨y, hrun, hreport⟩, y', hrun', hreport'⟩ := (hpredicts _ _ .refl .refl).1 (by decide)
  obtain ⟨r, hr⟩ := Option.isSome_iff_exists.1 (hreport 0)
  obtain ⟨r', hr'⟩ := Option.isSome_iff_exists.1 (hreport' 0)
  exact ⟨by decide +kernel, y, y', r, r', hrun, hrun', hr, hr',
    ((hpredicts y y' hrun hrun').2 0 0 r r' hr hr').2.2⟩

end Pass

end StoreSync
