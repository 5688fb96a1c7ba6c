import StoreSync.Proofs.Sessions

/-!
# Errors of the configuration

A configuration is checked before a session is begun, and each task once more when its turn has
come.  What the second check refuses and the first one does not (`Session.Overlooked`) comes out
late: the passes of the tasks before have been run by then, and their destinations saved.

* `Session.task_of_valid` — what can be wrong with a task of a configuration that was checked;
* `Session.halted_of_runs_runEach` — passes that end with an error of the configuration have been
  run up to a task that could not be built;
* `Session.misconfigured_of_run` — what has been done when a run ends with an error of the
  configuration (`Session.Misconfigured`).  If the check overlooks nothing, nothing has.
-/

namespace StoreSync

/-- The error is about the configuration, or the names that were asked for. -/
def CommandError.isConfiguration : CommandError → Bool
  | .configuration _ | .noSuchTask _ | .sync (.configuration _) => true
  | _ => false

/-! ## Checks -/

namespace TaskConfig

variable {c : TaskConfig}

lemma validate_eq_ok_iff : c.validate = .ok () ↔ c.defect? = none := by
  unfold validate
  cases c.defect? <;> simp

lemma defect?_eq_none_iff : c.defect? = none ↔
    Policy.isBlankText c.name = false ∧ c.workers ≠ 0 ∧ c.timeLimitSeconds ≠ 0 ∧
      c.pollIntervalSeconds ≠ 0 ∧ Policy.isBlankText c.timestampAttribute = false ∧
      c.policy.defect? = none := by
  unfold defect?
  repeat' split
  all_goals simp_all

/-- The settings that a task is built with: under overrides, with the source's name for the time of
a change. -/
def bound (o : Overrides) (f : StoreFile) (c : TaskConfig) : TaskConfig :=
  { c.under o with timestampAttribute := f.timestampAttribute }

/-- A valid task stays so, unless the overrides or the name are what is wrong with it. -/
lemma validate_bound_eq_ok_iff (h : c.validate = .ok ()) (o : Overrides) (f : StoreFile) :
    (c.bound o f).validate = .ok () ↔ o.workers ≠ some 0 ∧ o.timeLimitSeconds ≠ some 0 ∧
      Policy.isBlankText f.timestampAttribute = false := by
  obtain ⟨hname, hworkers, htime, hpoll, -, hpolicy⟩ :=
    defect?_eq_none_iff.1 (validate_eq_ok_iff.1 h)
  have hgetD : ∀ {x : Option Nat} {n : Nat}, n ≠ 0 → (x.getD n ≠ 0 ↔ x ≠ some 0) := by
    intro x n hn
    cases x <;> simp [hn]
  rw [validate_eq_ok_iff, defect?_eq_none_iff]
  simp only [bound, under, hname, hpolicy, hgetD hworkers, hgetD htime, ne_eq, hpoll,
    not_false_eq_true, true_and, and_true]

end TaskConfig

namespace Task

variable {σ : Type} {config : TaskConfig} {source destination : Adapter σ}

lemma exists_new_iff : (∃ t, Task.new config source destination = .ok t) ↔
    config.validate = .ok () ∧ ∃ evaluator, evaluatorFor config = .ok evaluator := by
  unfold Task.new
  cases config.validate with
  | error e => simp [bind, Except.bind]
  | ok =>
    cases evaluatorFor config with
    | error e => simp [bind, Except.bind]
    | ok evaluator => simp [bind, Except.bind, pure, Except.pure]

end Task

namespace Configuration

variable {c : Configuration} {e : TaskEntry}

lemma isSome_of_entryDefect? {before : List String} (h : c.entryDefect? before e = none) :
    (c.stores.get? e.source).isSome = true ∧ (c.stores.get? e.destination).isSome = true := by
  unfold entryDefect? at h
  split at h
  · simp at h
  · split at h
    · simp at h
    · split at h
      · simp at h
      next hsource =>
        split at h
        · simp at h
        next hdestination =>
          exact ⟨by simpa [TextMap.contains, Option.isSome_iff_ne_none] using hsource,
            by simpa [TextMap.contains, Option.isSome_iff_ne_none] using hdestination⟩

lemma entry_of_validateEntries {before : List String} {entries : List TaskEntry}
    (h : c.validateEntries before entries = .ok ()) (he : e ∈ entries) :
    (c.stores.get? e.source).isSome = true ∧ (c.stores.get? e.destination).isSome = true ∧
      e.task.validate = .ok () := by
  induction entries generalizing before with
  | nil => simp at he
  | cons first rest ih =>
    rw [validateEntries] at h
    cases hdefect : c.entryDefect? before first with
    | some d => simp [hdefect] at h
    | none =>
      simp only [hdefect] at h
      cases hfirst : first.task.validate with
      | error err => simp [hfirst, Except.mapError, bind, Except.bind] at h
      | ok =>
        simp only [hfirst, Except.mapError, bind, Except.bind] at h
        rcases List.mem_cons.1 he with rfl | he
        · obtain ⟨hsource, hdestination⟩ := isSome_of_entryDefect? hdefect
          exact ⟨hsource, hdestination, hfirst⟩
        · exact ih h he

/-- What is certain of the tasks of a configuration that was checked. -/
lemma entry_of_validate (h : c.validate = .ok ()) (he : e ∈ c.tasks) :
    (c.stores.get? e.source).isSome = true ∧ (c.stores.get? e.destination).isSome = true ∧
      e.task.validate = .ok () := by
  unfold validate at h
  cases hentries : c.validateEntries [] c.tasks with
  | error err => simp [hentries, bind, Except.bind] at h
  | ok => exact entry_of_validateEntries hentries he

lemma mem_tasks_of_select {requested : List String} {entries : List TaskEntry}
    (h : c.select requested = .ok entries) (he : e ∈ entries) : e ∈ c.tasks := by
  unfold select at h
  repeat' split at h
  all_goals simp at h
  · exact h ▸ he
  · exact (List.mem_filter.1 (h ▸ he)).1

end Configuration

namespace Session

variable {c : Configuration} {o : Overrides} {s s' : Session} {folder folder' : Folder}
  {e : TaskEntry} {err : CommandError} {name : String}

/-! ## Building tasks -/

/-- What the check of a configuration does not see: the store that is the source of a task has a
blank name for the time of a change, or the library of the task cannot be read. -/
def Overlooked (c : Configuration) (e : TaskEntry) : Prop :=
  (∃ f, c.stores.get? e.source = some f ∧ Policy.isBlankText f.timestampAttribute = true) ∨
    ∃ err, Task.evaluatorFor e.task = .error err

/-- No pass can start under the overrides. -/
def Unfit (o : Overrides) : Prop := o.workers = some 0 ∨ o.timeLimitSeconds = some 0

/-- The tasks of a session depend on its stores in nothing. -/
lemma task_congr (hconfiguration : s'.configuration = s.configuration)
    (hoverrides : s'.overrides = s.overrides) : s'.task e = s.task e := by
  simp only [task, lookup, hconfiguration, hoverrides]

lemma task_eq {f g : StoreFile} (hsource : s.configuration.stores.get? e.source = some f)
    (hdestination : s.configuration.stores.get? e.destination = some g) :
    s.task e = (Task.new (e.task.bound s.overrides f) (adapter e.source f)
      (adapter e.destination g)).mapError .sync := by
  simp only [task, lookup, hsource, hdestination, bind, Except.bind, TaskConfig.bound]

/-- A task of a configuration that was checked can be built, unless no pass can start under the
overrides or the check has overlooked something. -/
lemma exists_task_iff (hvalid : s.configuration.validate = .ok ())
    (he : e ∈ s.configuration.tasks) :
    (∃ t, s.task e = .ok t) ↔ ¬ Unfit s.overrides ∧ ¬ Overlooked s.configuration e := by
  obtain ⟨hsource, hdestination, htask⟩ := Configuration.entry_of_validate hvalid he
  obtain ⟨f, hf⟩ := Option.isSome_iff_exists.1 hsource
  obtain ⟨g, hg⟩ := Option.isSome_iff_exists.1 hdestination
  rw [task_eq hf hg]
  have hmapped : ∀ x : Except SyncError (Task Stores),
      (∃ t, x.mapError CommandError.sync = .ok t) ↔ ∃ t, x = .ok t := by
    intro x
    cases x <;> simp [Except.mapError]
  have hlibrary : Task.evaluatorFor (e.task.bound s.overrides f) = Task.evaluatorFor e.task := rfl
  rw [hmapped, Task.exists_new_iff, TaskConfig.validate_bound_eq_ok_iff htask, hlibrary]
  have hblank : (∃ f', s.configuration.stores.get? e.source = some f' ∧
      Policy.isBlankText f'.timestampAttribute = true) ↔
      Policy.isBlankText f.timestampAttribute = true := by
    simp [hf]
  rw [Unfit, Overlooked, hblank]
  cases Task.evaluatorFor e.task with
  | error err => simp
  | ok evaluator => simp [not_or, and_assoc]

/-! ## Passes that are not run -/

variable {pass : Task Stores → Timed (Engine Stores) → PassReport × Timed (Engine Stores)}
  {es : List TaskEntry} {run : PassRun} {runs : List PassRun}

/-- Every store of the configuration is there. -/
def Stocked (s : Session) : Prop :=
  ∀ n f, s.configuration.stores.get? n = some f →
    ∃ store, s.stores.get? n = some store ∧ store.Filed

lemma stocked_of_begin (h : folder.runs (Session.begin c o) = (.ok s, folder')) : Stocked s := by
  obtain ⟨-, rfl, -, hstores⟩ := runs_begin h
  intro n f hf
  obtain ⟨store, hopened, hstore⟩ := hstores n f hf
  exact ⟨store, hstore, (filed_of_opened hopened).1⟩

/-- A pass takes no store away. -/
lemma Stocked.behind (h : Stocked s) (hpass : Conducts pass) {t : Task Stores}
    (htask : s.task e = .ok t) (time : Instant) :
    Stocked { s with stores := (pass t ⟨0, .new s.stores time⟩).2.state.world.stores } := by
  obtain ⟨hlinks, hsource, hdestination⟩ := links_of_task htask
  obtain ⟨f, hf⟩ := Option.isSome_iff_exists.1 hsource
  obtain ⟨g, hg⟩ := Option.isSome_iff_exists.1 hdestination
  obtain ⟨origin, horigin, -⟩ := h _ _ hf
  obtain ⟨store, hstore, hfiled⟩ := h _ _ hg
  obtain ⟨kind, handed, pivots, log, workers, hconducted⟩ := hpass t s.stores time
  obtain ⟨hframe, store', hstore', hfiled', -⟩ :=
    Pass.confined_of_conducted hlinks (by simp [Engine.new, horigin]) hstore hfiled hconducted
  intro n f' hf'
  by_cases hn : n = e.destination
  · exact ⟨store', hn ▸ hstore', hfiled'⟩
  · obtain ⟨other, hother, hfiledOther⟩ := h n f' hf'
    exact ⟨other, (hframe n hn).trans hother, hfiledOther⟩

/-- Saving a store that is there does not fail for a reason of the configuration. -/
lemma Stocked.runs_save (h : Stocked s)
    (hname : (s.configuration.stores.get? name).isSome = true)
    (hsave : folder.runs (s.save name) = (.error err, folder')) :
    err.isConfiguration = false := by
  obtain ⟨f, hf⟩ := Option.isSome_iff_exists.1 hname
  obtain ⟨store, hstore, -⟩ := h _ _ hf
  simp only [save, hf, hstore, Folder.runs_bind, Folder.runs_writeFile] at hsave
  cases hwrite : folder.write (s.configuration.storePath f) (store.toRecords f.schema).pretty with
  | error failure =>
    simp only [hwrite, Folder.runs_throw, Prod.mk.injEq, Except.error.injEq] at hsave
    rw [← hsave.1]
    rfl
  | ok folder₁ => simp [hwrite] at hsave

/-- A pass that was run, as far as other passes are concerned. -/
lemma Stocked.runPass (h : Stocked s) (hpass : Conducts pass)
    (hrun : folder.runs (s.runPass pass e) = (.ok (run, s'), folder')) :
    Stocked s' ∧ s'.configuration = s.configuration ∧ s'.overrides = s.overrides ∧
      ∃ t, s.task e = .ok t := by
  obtain ⟨t, htask, rfl, -⟩ := runs_runPass hrun
  exact ⟨h.behind hpass htask _, rfl, rfl, t, htask⟩

/-- A pass that ends with an error of the configuration has not begun. -/
lemma Stocked.unbuilt_of_runPass (h : Stocked s) (hpass : Conducts pass)
    (hkind : err.isConfiguration = true)
    (hrun : folder.runs (s.runPass pass e) = (.error err, folder')) :
    s.task e = .error err ∧ folder' = folder := by
  simp only [Session.runPass, Folder.runs_bind, Folder.runs_liftExcept, Folder.runs_newRunName,
    Folder.runs_now] at hrun
  cases htask : s.task e with
  | error err' =>
    simp only [htask, Prod.mk.injEq, Except.error.injEq] at hrun
    exact ⟨by rw [hrun.1], hrun.2.symm⟩
  | ok t =>
    simp only [htask] at hrun
    split at hrun
    · simp at hrun
    next err' folder₁ hsave =>
      obtain ⟨herr, -⟩ := Prod.mk.inj hrun
      obtain rfl := Except.error.inj herr
      have hnot := (h.behind hpass htask folder.time).runs_save (links_of_task htask).2.2 hsave
      rw [hkind] at hnot
      simp at hnot

/-- Passes of `es` that have been run up to a task that could not be built. -/
structure Halts (pass : Task Stores → Timed (Engine Stores) → PassReport × Timed (Engine Stores))
    (s : Session) (folder : Folder) (es : List TaskEntry) (err : CommandError)
    (done : List TaskEntry) (e : TaskEntry) (folder' : Folder) : Prop where
  next : ∃ rest, es = done ++ e :: rest
  unbuilt : s.task e = .error err
  built : ∀ x ∈ done, ∃ t, s.task x = .ok t
  ran : ∃ runs s', folder.runs (s.runEach pass done) = (.ok (runs, s'), folder')

lemma Stocked.runEach (h : Stocked s) (hpass : Conducts pass)
    (hrun : folder.runs (s.runEach pass es) = (.ok (runs, s'), folder')) :
    Stocked s' ∧ s'.configuration = s.configuration ∧ s'.overrides = s.overrides ∧
      ∀ e ∈ es, ∃ t, s.task e = .ok t := by
  induction es generalizing s folder runs with
  | nil =>
    obtain ⟨hpair, -⟩ := Folder.runs_pure_eq_ok.1 hrun
    obtain ⟨-, rfl⟩ := Prod.mk.inj hpair
    exact ⟨h, rfl, rfl, by simp⟩
  | cons e rest ih =>
    rw [Session.runEach] at hrun
    obtain ⟨⟨run, s₁⟩, folder₁, hfirst, hrun⟩ := Folder.runs_bind_eq_ok.1 hrun
    obtain ⟨⟨more, s₂⟩, folder₂, hmore, hdone⟩ := Folder.runs_bind_eq_ok.1 hrun
    obtain ⟨hpair, rfl⟩ := Folder.runs_pure_eq_ok.1 hdone
    obtain ⟨-, rfl⟩ := Prod.mk.inj hpair
    obtain ⟨h₁, hconfiguration, hoverrides, hfirst⟩ := h.runPass hpass hfirst
    obtain ⟨h₂, hconfiguration', hoverrides', hrest⟩ := ih h₁ hmore
    refine ⟨h₂, hconfiguration'.trans hconfiguration, hoverrides'.trans hoverrides, ?_⟩
    refine List.forall_mem_cons.2 ⟨hfirst, fun x hx => ?_⟩
    rw [← task_congr hconfiguration hoverrides]
    exact hrest x hx

/-- Passes that end with an error of the configuration have been run up to a task that could not be
built. -/
lemma Stocked.exists_halts (h : Stocked s) (hpass : Conducts pass)
    (hkind : err.isConfiguration = true)
    (hrun : folder.runs (s.runEach pass es) = (.error err, folder')) :
    ∃ done e, Halts pass s folder es err done e folder' := by
  induction es generalizing s folder with
  | nil => simp [Session.runEach] at hrun
  | cons e rest ih =>
    rw [Session.runEach, Folder.runs_bind] at hrun
    cases hfirst : folder.runs (s.runPass pass e) with
    | mk result folder₁ =>
      cases result with
      | error err' =>
        simp only [hfirst, Prod.mk.injEq, Except.error.injEq] at hrun
        obtain ⟨rfl, rfl⟩ := hrun
        obtain ⟨hunbuilt, rfl⟩ := h.unbuilt_of_runPass hpass hkind hfirst
        exact ⟨[], e, ⟨rest, rfl⟩, hunbuilt, by simp, [], s, rfl⟩
      | ok first =>
        obtain ⟨run, s₁⟩ := first
        simp only [hfirst, Folder.runs_bind] at hrun
        cases hmore : folder₁.runs (s₁.runEach pass rest) with
        | mk result folder₂ =>
          cases result with
          | ok more => simp [hmore] at hrun
          | error err' =>
            simp only [hmore, Prod.mk.injEq, Except.error.injEq] at hrun
            obtain ⟨rfl, rfl⟩ := hrun
            obtain ⟨h₁, hconfiguration, hoverrides, hbuilt⟩ := h.runPass hpass hfirst
            have hcongr : ∀ x, s₁.task x = s.task x :=
              fun x => task_congr hconfiguration hoverrides
            obtain ⟨done, e', ⟨after, hafter⟩, hunbuilt, hall, runs, s₂, hran⟩ := ih h₁ hmore
            refine ⟨e :: done, e', ⟨after, by rw [hafter]; rfl⟩, hcongr e' ▸ hunbuilt,
              List.forall_mem_cons.2 ⟨hbuilt, fun x hx => hcongr x ▸ hall x hx⟩,
              run :: runs, s₂, ?_⟩
            rw [Session.runEach]
            exact Folder.runs_bind_eq_ok.2 ⟨_, _, hfirst,
              Folder.runs_bind_eq_ok.2 ⟨_, _, hran, rfl⟩⟩

/-! ## Runs -/

lemma mem_tasks_of_selected {requested : List String} (h : s.selected requested = .ok es)
    (he : e ∈ es) : e ∈ s.configuration.tasks := by
  unfold selected at h
  split at h
  · obtain rfl := Except.ok.inj h
    simp at he
  · exact Configuration.mem_tasks_of_select h he

lemma Halts.eq_of_nil {done : List TaskEntry} (h : Halts pass s folder es err done e folder')
    (hdone : done = []) : folder' = folder := by
  obtain ⟨runs, s', hran⟩ := h.ran
  subst hdone
  exact (Folder.runs_pure_eq_ok.1 hran).2.symm

/-- Passes of a run, first full and then clean ones, that have been run up to a task. -/
inductive StopsAt (s : Session) (folder : Folder) (full clean : List TaskEntry)
    (err : CommandError) : List TaskEntry → TaskEntry → Folder → Prop
  | full {done : List TaskEntry} {e : TaskEntry} {folder' : Folder}
      (h : Halts Engine.sync s folder full err done e folder') :
      StopsAt s folder full clean err done e folder'
  | clean {runs : List PassRun} {s₁ : Session} {folder₁ folder' : Folder} {done : List TaskEntry}
      {e : TaskEntry} (hfull : folder.runs (s.runEach Engine.sync full) = (.ok (runs, s₁), folder₁))
      (h : Halts Engine.clean s₁ folder₁ clean err done e folder') :
      StopsAt s folder full clean err (full ++ done) e folder'

/-- What is certain of a run that ends with an error of the configuration. -/
structure Misconfigured (s : Session) (folder : Folder) (synchronization cleaning : List String)
    (err : CommandError) (folder' : Folder) : Prop where
  /-- Either the names that were asked for match no task, or the passes have been run up to a task
  that cannot be built.  If it is not the first one, the check has overlooked what is wrong with
  it. -/
  stopped : (s.selected synchronization = .error err ∨ s.selected cleaning = .error err) ∧
      folder' = folder ∨
    ∃ full clean done e, s.selected synchronization = .ok full ∧ s.selected cleaning = .ok clean ∧
      StopsAt s folder full clean err done e folder' ∧ s.task e = .error err ∧
      (∀ x ∈ done, ∃ t, s.task x = .ok t) ∧ (done = [] → folder' = folder) ∧
      (done ≠ [] → Overlooked s.configuration e)
  /-- If the check overlooks nothing, no pass has been run and no file has been written. -/
  untouched : (∀ e ∈ s.configuration.tasks, ¬ Overlooked s.configuration e) → folder' = folder

/-- Behind a task that could be built, only what was overlooked keeps a task from being built. -/
lemma overlooked_of_unbuilt (hvalid : s.configuration.validate = .ok ())
    {done : List TaskEntry} (hdone : ∀ x ∈ done, x ∈ s.configuration.tasks)
    (hbuilt : ∀ x ∈ done, ∃ t, s.task x = .ok t) (he : e ∈ s.configuration.tasks)
    (hunbuilt : s.task e = .error err) (hne : done ≠ []) : Overlooked s.configuration e := by
  obtain ⟨first, hfirst⟩ := List.exists_mem_of_ne_nil _ hne
  obtain ⟨hfit, -⟩ := (exists_task_iff hvalid (hdone first hfirst)).1 (hbuilt first hfirst)
  by_contra hseen
  obtain ⟨t, ht⟩ := (exists_task_iff hvalid he).2 ⟨hfit, hseen⟩
  simp [ht] at hunbuilt

/-- What is certain of a task at which a run stops. -/
lemma StopsAt.spec {full clean done : List TaskEntry} (hs : Stocked s)
    (h : StopsAt s folder full clean err done e folder') :
    e ∈ full ++ clean ∧ (∀ x ∈ done, x ∈ full ++ clean) ∧ s.task e = .error err ∧
      (∀ x ∈ done, ∃ t, s.task x = .ok t) ∧ (done = [] → folder' = folder) := by
  cases h with
  | full h =>
    obtain ⟨rest, rfl⟩ := h.next
    exact ⟨by simp, fun x hx => by simp [hx], h.unbuilt, h.built, h.eq_of_nil⟩
  | @clean runs s₁ folder₁ _ done _ hfull h =>
    obtain ⟨-, hconfiguration, hoverrides, hbuilt⟩ := hs.runEach conducts_sync hfull
    have hcongr : ∀ x, s₁.task x = s.task x := fun x => task_congr hconfiguration hoverrides
    obtain ⟨rest, rfl⟩ := h.next
    refine ⟨by simp, ?_, hcongr e ▸ h.unbuilt, ?_, fun hnil => ?_⟩
    · intro x hx
      rcases List.mem_append.1 hx with hx | hx <;> simp [hx]
    · exact List.forall_mem_append.2 ⟨hbuilt, fun x hx => hcongr x ▸ h.built x hx⟩
    · obtain ⟨rfl, rfl⟩ := List.append_eq_nil_iff.1 hnil
      exact (h.eq_of_nil rfl).trans (Folder.runs_pure_eq_ok.1 hfull).2.symm

/-- How a run ends with an error of the configuration. -/
lemma Stocked.stops (h : Stocked s) {synchronization cleaning : List String}
    (hkind : err.isConfiguration = true)
    (hrun : folder.runs (s.run synchronization cleaning) = (.error err, folder')) :
    (s.selected synchronization = .error err ∨ s.selected cleaning = .error err) ∧
        folder' = folder ∨
      ∃ full clean done e, s.selected synchronization = .ok full ∧
        s.selected cleaning = .ok clean ∧ StopsAt s folder full clean err done e folder' := by
  simp only [Session.run, Folder.runs_bind, Folder.runs_liftExcept] at hrun
  cases hfull : s.selected synchronization with
  | error e =>
    simp only [hfull, Prod.mk.injEq, Except.error.injEq] at hrun
    exact Or.inl ⟨Or.inl (by rw [hrun.1]), hrun.2.symm⟩
  | ok full =>
    cases hclean : s.selected cleaning with
    | error e =>
      simp only [hfull, hclean, Prod.mk.injEq, Except.error.injEq] at hrun
      exact Or.inl ⟨Or.inr (by rw [hrun.1]), hrun.2.symm⟩
    | ok clean =>
      refine Or.inr ⟨full, clean, ?_⟩
      simp only [hfull, hclean] at hrun
      rcases hfirst : folder.runs (s.runEach Engine.sync full) with ⟨_ | ⟨runs, s₁⟩, folder₁⟩
      · simp only [hfirst, Prod.mk.injEq, Except.error.injEq] at hrun
        obtain ⟨rfl, rfl⟩ := hrun
        obtain ⟨done, e, hhalts⟩ := h.exists_halts conducts_sync hkind hfirst
        exact ⟨done, e, rfl, rfl, .full hhalts⟩
      · simp only [hfirst] at hrun
        rcases hsecond : folder₁.runs (s₁.runEach Engine.clean clean) with ⟨_ | more, folder₂⟩
        · simp only [hsecond, Prod.mk.injEq, Except.error.injEq] at hrun
          obtain ⟨rfl, rfl⟩ := hrun
          have h₁ := (h.runEach conducts_sync hfirst).1
          obtain ⟨done, e, hhalts⟩ := h₁.exists_halts conducts_clean hkind hsecond
          exact ⟨full ++ done, e, rfl, rfl, .clean hfirst hhalts⟩
        · simp [hsecond] at hrun

/-- **An error of the configuration comes before anything is run, or was overlooked.** -/
theorem misconfigured_of_run {synchronization cleaning : List String} {folder₁ folder₂ : Folder}
    (hvalid : c.validate = .ok ()) (hbegin : folder.runs (Session.begin c o) = (.ok s, folder₁))
    (hrun : folder₁.runs (s.run synchronization cleaning) = (.error err, folder₂))
    (hkind : err.isConfiguration = true) :
    Misconfigured s folder₁ synchronization cleaning err folder₂ := by
  have hs : Stocked s := stocked_of_begin hbegin
  obtain ⟨-, rfl, -, -⟩ := runs_begin hbegin
  rcases hs.stops hkind hrun with hunselected | ⟨full, clean, done, e, hfull, hclean, hstops⟩
  · exact ⟨Or.inl hunselected, fun _ => hunselected.2⟩
  · obtain ⟨he, hdone, hunbuilt, hbuilt, hearly⟩ := hstops.spec hs
    have htasks : ∀ x ∈ full ++ clean, x ∈ s.configuration.tasks := fun x hx =>
      (List.mem_append.1 hx).elim (mem_tasks_of_selected hfull) (mem_tasks_of_selected hclean)
    have hlate : done ≠ [] → Overlooked s.configuration e :=
      overlooked_of_unbuilt hvalid (fun x hx => htasks x (hdone x hx)) hbuilt (htasks e he) hunbuilt
    refine ⟨Or.inr ⟨full, clean, done, e, hfull, hclean, hstops, hunbuilt, hbuilt, hearly, hlate⟩,
      fun hseen => hearly ?_⟩
    by_contra hne
    exact hseen e (htasks e he) (hlate hne)

/-! Guests are enrolled in the directory, too, from a store without a name for the time of a change.
-/

def visitorFile : StoreFile := { staffFile with path := "crm.json", timestampAttribute := " " }

def guests : TaskEntry := ⟨"crm", "ldap", .new "guests"⟩

def reception : Configuration :=
  ⟨.ofList [("crm", visitorFile), ("hr", staffFile), ("ldap", directoryFile true)],
    [people, guests], ""⟩

/-- The session that is begun at the reception. -/
def receiving : Session :=
  ⟨reception, ⟨.none, none, none⟩,
    (enrolling true).stores.insert "crm" (fresh "crm" visitorFile)⟩

/-- Why guests cannot be enrolled. -/
def unheard : CommandError :=
  .sync (.configuration "task 'guests': timestamp_attribute must not be empty")

lemma runs_begin_reception :
    premises.runs (Session.begin reception ⟨.none, none, none⟩) = (.ok receiving, premises) := by
  obtain ⟨-, -, -, hopened⟩ := runs_begin (runs_begin_enrolment true)
  have hentries : reception.stores.entries =
      [("crm", visitorFile), ("hr", staffFile), ("ldap", directoryFile true)] :=
    rfl
  have hcrm : opened reception premises "crm" visitorFile = .ok (fresh "crm" visitorFile) := by
    exact opened_eq_ok_iff.2 (Or.inl ⟨rfl, rfl⟩)
  have hstaff : opened reception premises "hr" staffFile = .ok staff := by
    obtain ⟨store, hstore, hget⟩ := hopened "hr" staffFile rfl
    obtain rfl : staff = store :=
      Option.some.inj ((TextMap.get?_insert_self ..).symm.trans hget)
    exact hstore
  have hdirectory : opened reception premises "ldap" (directoryFile true) =
      .ok (fresh "ldap" (directoryFile true)) := by
    exact opened_eq_ok_iff.2 (Or.inl ⟨rfl, rfl⟩)
  rw [Session.begin, Folder.runs_bind, hentries]
  simp only [loadStores, Folder.runs_bind, runs_loadStore, hcrm, hstaff, hdirectory,
    Folder.runs_pure, receiving, enrolling]

lemma stocked_receiving : Stocked receiving := stocked_of_begin runs_begin_reception

/-- The pass of the people is run, and their directory is saved. -/
lemma runs_people : ∃ run s₁ folder',
    premises.runs (receiving.runPass Engine.sync people) = (.ok (run, s₁), folder') ∧
      folder'.holds "ldap.json" = true := by
  have htask : receiving.task people = .ok (enrol true) := rfl
  have hfile : receiving.configuration.stores.get? "ldap" = some (directoryFile true) := rfl
  have hpath : receiving.configuration.storePath (directoryFile true) = "ldap.json" := rfl
  obtain ⟨store, hstore, -⟩ :=
    stocked_receiving.behind conducts_sync htask premises.time "ldap" _ hfile
  obtain ⟨folder', hwrite⟩ : ∃ folder', Folder.write ⟨premises.contents, premises.environment,
      premises.time, premises.named + 1⟩ "ldap.json"
      (store.toRecords (directoryFile true).schema).pretty = .ok folder' := by
    have hresolve : Folder.resolve ⟨premises.contents, premises.environment,
        premises.time, premises.named + 1⟩ "ldap.json" = .ok ["ldap.json"] :=
      rfl
    have habsent : Folder.at? ⟨premises.contents, premises.environment,
        premises.time, premises.named + 1⟩ ["ldap.json"] = none :=
      rfl
    simp [Folder.write, hresolve, habsent, bind, Except.bind, pure, Except.pure]
  have hrun : ∃ run s₁, premises.runs (receiving.runPass Engine.sync people) =
      (.ok (run, s₁), folder') := by
    simp only [Session.runPass, Folder.runs_bind, Folder.runs_liftExcept, Folder.runs_newRunName,
      Folder.runs_now, htask, Session.save]
    simp only [people, hstore, hfile]
    simp only [Folder.runs_bind, Folder.runs_writeFile, hpath, hwrite, Folder.runs_pure]
    exact ⟨_, _, rfl⟩
  obtain ⟨run, s₁, hrun⟩ := hrun
  exact ⟨run, s₁, folder', hrun, (Folder.read_of_write hwrite).1⟩

/-- The people have been enrolled by the time that the guests are found to be wrong. -/
theorem misconfigured_of_reception : ∃ folder',
    reception.validate = .ok () ∧
      premises.runs (Session.begin reception ⟨.none, none, none⟩) = (.ok receiving, premises) ∧
      premises.runs (receiving.run ["all"] []) = (.error unheard, folder') ∧
      unheard.isConfiguration = true ∧
      Misconfigured receiving premises ["all"] [] unheard folder' ∧
      premises.holds "ldap.json" = false ∧ folder'.holds "ldap.json" = true := by
  have hvalid : reception.validate = .ok () := rfl
  have hselected : receiving.selected ["all"] = .ok [people, guests] := rfl
  have hnone : receiving.selected [] = .ok [] := rfl
  obtain ⟨run, s₁, folder', hpeople, hheld⟩ := runs_people
  obtain ⟨-, hconfiguration, hoverrides, -⟩ := stocked_receiving.runPass conducts_sync hpeople
  have hguests : s₁.task guests = .error unheard :=
    (task_congr hconfiguration hoverrides).trans rfl
  have hrun : premises.runs (receiving.run ["all"] []) = (.error unheard, folder') := by
    simp only [Session.run, Session.runEach, Folder.runs_bind, Folder.runs_liftExcept, hselected,
      hnone, hpeople]
    simp only [Session.runPass, Folder.runs_bind, Folder.runs_liftExcept, hguests]
  exact ⟨folder', hvalid, runs_begin_reception, hrun, rfl,
    misconfigured_of_run hvalid runs_begin_reception hrun rfl, rfl, hheld⟩

end Session

end StoreSync
