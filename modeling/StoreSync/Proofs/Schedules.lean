import StoreSync.Expression.Table
import StoreSync.Proofs.Interleaving

/-!
# The outcome of a pass does not depend on its schedule

Units of independent pivots meet the fates that they would meet alone, so two passes over the same
pivots have the same outcome, whatever the numbers of their workers and the order of their turns
(`Pass.outcome_of_schedules`).
-/

namespace StoreSync

/-- The same task with another number of workers. -/
def Task.withWorkers {σ : Type} (t : Task σ) (n : Nat) : Task σ :=
  { t with config := { t.config with workers := n } }

namespace Pass

variable {t : Task (MemoryStore × MemoryStore)} {src dst : MemoryStore} {pivots : List Pivot}

lemma Undisturbed.withWorkers (h : Undisturbed t src dst pivots) (n : Nat) :
    Undisturbed (t.withWorkers n) src dst pivots := by
  refine ⟨⟨h.joins.source, h.joins.destination⟩, h.keyed, h.source, h.destination, h.loss, ?_⟩
  exact h.independent.imp fun h =>
    ⟨⟨h.1.entry, h.1.value, h.1.place, h.1.aim⟩, ⟨h.2.entry, h.2.value, h.2.place, h.2.aim⟩⟩

lemma enacted_of_withWorkers {n : Nat} {m : TextMap Entity}
    (h : (t.withWorkers n).Enacted src dst pivots m) : t.Enacted src dst pivots m :=
  ⟨h.own, h.rest⟩

/-- A run of a pass whose pivots are independent. -/
lemma sound_of_run (hsetting : Undisturbed t src dst pivots) {kind : PassKind} {now : Nat}
    {w : World (MemoryStore × MemoryStore)} {y : Pass × World (MemoryStore × MemoryStore)}
    (hw : w.stores = (src, dst))
    (hrun : Run t InTime (.reconciling t.config kind pivots now, w) y) :
    Sound t src dst pivots (w.audit.map AuditRecord.untimed) y :=
  (sound_of_start hw).run hsetting hrun

/-- **The schedule does not matter.**  Take two passes over the same independent pivots between
the same two stores, with any numbers of workers, and any runs of theirs that the time limit does
not end.  Each run can be continued until the pass reports; and when both have reported, they have
completed with the same counters, they have left the same entities under the same keys, and up to
their order and their times the same audit records. -/
theorem outcome_of_schedules (ht : t.Joins src dst) (hreachable : dst.Reachable)
    (hsrc : src.connectionLost = false) (hdst : dst.connectionLost = false)
    (hloss : ∀ p ∈ pivots, ∀ e, t.foreseen src dst p = .error e → e.isConnectionLost = false)
    (hind : pivots.Pairwise fun p q => t.Independent src dst p q ∧ t.Independent src dst q p)
    {n n' now now' : Nat} {kind kind' : PassKind} {w w' : World (MemoryStore × MemoryStore)}
    {y y' : Pass × World (MemoryStore × MemoryStore)}
    (hw : w.stores = (src, dst)) (haudit : w.audit = [])
    (hw' : w'.stores = (src, dst)) (haudit' : w'.audit = [])
    (hrun : Run (t.withWorkers n) InTime
      (.reconciling (t.withWorkers n).config kind pivots now, w) y)
    (hrun' : Run (t.withWorkers n') InTime
      (.reconciling (t.withWorkers n').config kind' pivots now', w') y') :
    (0 < t.config.timeLimitSeconds →
      ∃ z, Run (t.withWorkers n) InTime y z ∧ ∀ time, (z.1.report? t.config time).isSome) ∧
    ∀ time time' r r', y.1.report? t.config time = some r →
      y'.1.report? t.config time' = some r' →
      r.status = .completed ∧ r'.status = .completed ∧ r.counters = r'.counters ∧
        y.2.stores.2.records = y'.2.stores.2.records ∧
        (y.2.audit.map AuditRecord.untimed).Perm (y'.2.audit.map AuditRecord.untimed) := by
  have hsetting : Undisturbed t src dst pivots :=
    ⟨ht, hreachable.keyed, hsrc, hdst, hloss, hind⟩
  have hsound := sound_of_run (hsetting.withWorkers n) hw hrun
  have hsound' := sound_of_run (hsetting.withWorkers n') hw' hrun'
  refine ⟨fun hlimit => ?_, fun time time' r r' hr hr' => ?_⟩
  · have hlimit : 0 < (t.withWorkers n).config.timeLimit := by
      show 0 < t.config.timeLimitSeconds * 1000
      omega
    obtain ⟨z, hz, hreport⟩ := hsound.exists_report (hsetting.withWorkers n) hlimit
    exact ⟨z, hz, hreport t.config⟩
  · have hend := hsound.concluded hr
    have hend' := hsound'.concluded hr'
    refine ⟨hend.status, hend'.status, hend.counters.trans hend'.counters.symm, ?_, ?_⟩
    · exact (enacted_of_withWorkers hend.enacted).eq (enacted_of_withWorkers hend'.enacted)
    · rw [haudit] at hend
      rw [haudit'] at hend'
      exact hend.audit.trans hend'.audit.symm

/-! A source with three entries: one is missing in the destination, one differs there, and one has
another identifier there. -/

def staff : MemoryStore :=
  (MemoryStore.new "staff" "mail").insertAll
    [(Entity.putAll (.named "uid=1") [("mail", [.string "a@x"])], ⟨0⟩),
      (Entity.putAll (.named "uid=2") [("mail", [.string "b@x"]), ("room", [.integer 7])], ⟨0⟩),
      (Entity.putAll (.named "uid=3") [("mail", [.string "c@x"])], ⟨0⟩)]

def directory : MemoryStore :=
  (MemoryStore.new "directory" "mail").insertAll
    [(Entity.putAll (.named "UID=2") [("mail", [.string "B@x"]), ("room", [.string "8"])], ⟨0⟩),
      (Entity.putAll (.named "uid=9") [("mail", [.string "c@x"])], ⟨0⟩)]

def staffing : Task (MemoryStore × MemoryStore) :=
  ⟨.new "staffing", (MemoryStore.adapter "staff" true).first,
    (MemoryStore.adapter "directory" true).second, .ofTable []⟩

def staffPivots : List Pivot :=
  [(Pivot.ofId "uid=1").withAttribute "mail" "a@x",
    (Pivot.ofId "uid=2").withAttribute "mail" "b@x",
    (Pivot.ofId "uid=3").withAttribute "mail" "c@x"]

theorem outcome_of_staffing :
    (staffPivots.map (staffing.fate staff directory) =
      [.applied (.create "uid=1" [⟨.add, "mail", [.string "a@x"]⟩]),
        .applied (.update "UID=2"
          [⟨.replace, "mail", [.string "b@x"]⟩, ⟨.replace, "room", [.integer 7]⟩]),
        .applied (.rename "uid=9" "uid=3")]) ∧
    ∃ y y' : Pass × World (MemoryStore × MemoryStore), ∃ r r' : PassReport,
      Run (staffing.withWorkers 1) InTime
        (.reconciling (staffing.withWorkers 1).config .full staffPivots 0,
          ⟨(staff, directory), [], [], ⟨0⟩⟩) y ∧
      Run (staffing.withWorkers 3) InTime
        (.reconciling (staffing.withWorkers 3).config .full staffPivots 0,
          ⟨(staff, directory), [], [], ⟨0⟩⟩) y' ∧
      y.1.report? staffing.config 0 = some r ∧ y'.1.report? staffing.config 0 = some r' ∧
      r.counters = r'.counters ∧ y.2.stores.2.records = y'.2.stores.2.records := by
  have hreachable : directory.Reachable := (MemoryStore.Filled.insertAll (.empty rfl) _).reachable
  have hok : ∀ p ∈ staffPivots, (staffing.foreseen staff directory p).toOption.isSome := by
    decide +kernel
  have hloss : ∀ p ∈ staffPivots, ∀ e, staffing.foreseen staff directory p = .error e →
      e.isConnectionLost = false := by
    intro p hp e he
    have hsome := hok p hp
    rw [he] at hsome
    simp [Except.toOption] at hsome
  have hind : staffPivots.Pairwise fun p q => staffing.Independent staff directory p q ∧
      staffing.Independent staff directory q p := by
    decide +kernel
  have houtcome := fun n n' y y' => @outcome_of_schedules staffing staff directory staffPivots
    ⟨rfl, rfl⟩ hreachable rfl rfl hloss hind n n' 0 0 .full .full
    ⟨(staff, directory), [], [], ⟨0⟩⟩ ⟨(staff, directory), [], [], ⟨0⟩⟩ y y'
  obtain ⟨y, hrun, hreport⟩ := (houtcome 1 1 _ _ rfl rfl rfl rfl .refl .refl).1 (by decide)
  obtain ⟨y', hrun', hreport'⟩ := (houtcome 3 3 _ _ rfl rfl rfl rfl .refl .refl).1 (by decide)
  obtain ⟨r, hr⟩ := Option.isSome_iff_exists.1 (hreport 0)
  obtain ⟨r', hr'⟩ := Option.isSome_iff_exists.1 (hreport' 0)
  obtain ⟨-, -, hcounters, hrecords, -⟩ :=
    (houtcome 1 3 y y' rfl rfl rfl rfl hrun hrun').2 0 0 r r' hr hr'
  exact ⟨by decide +kernel, y, y', r, r', hrun, hrun', hr, hr', hcounters, hrecords⟩

end Pass

end StoreSync
