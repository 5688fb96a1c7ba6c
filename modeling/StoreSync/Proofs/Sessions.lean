import StoreSync.Proofs.Confinement
import StoreSync.Proofs.Folders

/-!
# Sessions over the files of an earlier one

A session that has run its passes leaves its stores in files.  When the stores are kept in different
files, and the schema of each destination holds what the run left in it, a later session opens every
store as it was in memory (`Session.reopened_of_run`).  A destination with an attribute that its
schema does not declare is saved all the same, and no session is begun over the files any more
(`Session.refused_of_run`).

`Session.Kept` says how a session stands to its folder: the file of every destination so far holds
its records, and every other store is what its file is opened as.  `Session.Kept.runPass` is the
step from pass to pass.
-/

namespace StoreSync

/-! ## Commands in a folder -/

/-- What a command does that works in a folder. -/
abbrev Shell := ExceptT CommandError (StateM Folder)

namespace Folder

variable {α β : Type}

/-- The result of a command in a folder, and the folder that it leaves. -/
def runs (folder : Folder) (x : Shell α) : Except CommandError α × Folder := x.run.run folder

variable (folder : Folder)

@[simp] lemma runs_pure (a : α) : folder.runs (pure a) = (.ok a, folder) := rfl

@[simp] lemma runs_throw (e : CommandError) :
    folder.runs (throw e : Shell α) = (.error e, folder) := rfl

variable {folder} in
lemma runs_pure_eq_ok {a b : α} {folder' : Folder} :
    folder.runs (pure a) = (.ok b, folder') ↔ a = b ∧ folder = folder' := by
  simp

lemma runs_bind (x : Shell α) (f : α → Shell β) :
    folder.runs (x >>= f) = match folder.runs x with
      | (.ok a, folder') => folder'.runs (f a)
      | (.error e, folder') => (.error e, folder') := by
  have hx : folder.runs x = x folder := rfl
  show (match x folder with
    | (result, folder') => (ExceptT.bindCont f result : StateM Folder _) folder') = _
  rw [hx]
  rcases x folder with ⟨result, folder'⟩
  cases result <;> rfl

lemma runs_bind_eq_ok {folder : Folder} {x : Shell α} {f : α → Shell β} {b : β}
    {folder'' : Folder} : folder.runs (x >>= f) = (.ok b, folder'') ↔
      ∃ a folder', folder.runs x = (.ok a, folder') ∧ folder'.runs (f a) = (.ok b, folder'') := by
  rw [runs_bind]
  cases hx : folder.runs x with
  | mk result folder' => cases result <;> simp

@[simp] lemma runs_isPresent (path : String) :
    folder.runs (liftM (Host.isPresent (m := StateM Folder) path)) =
      (.ok (folder.holds path), folder) := rfl

@[simp] lemma runs_readFile (path : String) :
    folder.runs (liftM (Host.readFile (m := StateM Folder) path)) =
      (.ok (folder.read path), folder) := rfl

@[simp] lemma runs_now :
    folder.runs (liftM (Host.now (m := StateM Folder))) = (.ok folder.time, folder) := rfl

@[simp] lemma runs_newRunName :
    folder.runs (liftM (Host.newRunName (m := StateM Folder))) =
      (.ok ("run " ++ toString (folder.named + 1)), { folder with named := folder.named + 1 }) :=
  rfl

lemma runs_writeFile (path text : String) :
    folder.runs (liftM (Host.writeFile (m := StateM Folder) path text)) =
      match folder.write path text with
      | .ok folder' => (.ok (.ok ()), folder')
      | .error e => (.ok (.error e), folder) := by
  have hwrite : (Host.writeFile path text : StateM Folder (Except FileError Unit)) folder =
      match folder.write path text with
      | .ok folder' => (.ok (), folder')
      | .error e => (.error e, folder) := by
    show (match folder.write path text with
      | .ok f => (do set f; return .ok ())
      | .error e => return .error e : StateM Folder (Except FileError Unit)) folder = _
    cases folder.write path text <;> rfl
  show (match (Host.writeFile path text : StateM Folder (Except FileError Unit)) folder with
    | (result, folder') => ((.ok result : Except CommandError _), folder')) = _
  rw [hwrite]
  cases folder.write path text <;> rfl

/-- A command that only asks has the same result as an `Except`. -/
lemma runs_liftExcept (x : Except CommandError α) :
    folder.runs (liftM x : Shell α) = (x, folder) := by
  cases x <;> rfl

end Folder

namespace Session

variable {c : Configuration} {o : Overrides} {folder folder' : Folder} {name : String}
  {file : StoreFile}

/-! ## Opening -/

/-- A store without entries, as a configuration has it. -/
def fresh (name : String) (file : StoreFile) : MemoryStore :=
  { MemoryStore.new name file.pivotAttribute with
    timestampAttribute := file.timestampAttribute, changeFeed := file.changeFeed }

/-- The store that is loaded from a folder. -/
def opened (c : Configuration) (folder : Folder) (name : String) (file : StoreFile) :
    Except CommandError MemoryStore :=
  if folder.holds (c.storePath file) then
    match folder.read (c.storePath file) with
    | .error e => .error (.store name (.io e.message))
    | .ok text =>
      match (fresh name file).load file.schema folder.time (Json.parse? text) with
      | (store, .ok _) => .ok store
      | (_, .error e) => .error (.store name e)
  else .ok (fresh name file)

/-- A store is opened empty where its file is missing, and else as what could be loaded. -/
lemma opened_eq_ok_iff {store : MemoryStore} : opened c folder name file = .ok store ↔
    folder.holds (c.storePath file) = false ∧ store = fresh name file ∨
      folder.holds (c.storePath file) = true ∧ ∃ text n,
        folder.read (c.storePath file) = .ok text ∧
        (fresh name file).load file.schema folder.time (Json.parse? text) = (store, .ok n) := by
  unfold opened
  cases hholds : folder.holds (c.storePath file) with
  | false => simp [eq_comm]
  | true =>
    cases hread : folder.read (c.storePath file) with
    | error e => simp
    | ok text =>
      cases hload : (fresh name file).load file.schema folder.time (Json.parse? text) with
      | mk loaded result => cases result <;> simp [hload]

lemma runs_loadStore (c : Configuration) (name : String) (file : StoreFile) (folder : Folder) :
    folder.runs (loadStore c name file) = (opened c folder name file, folder) := by
  unfold loadStore opened
  simp only [Folder.runs_bind, Folder.runs_isPresent]
  by_cases hpresent : folder.holds (c.storePath file) = true
  · simp only [hpresent, if_true, Folder.runs_bind, Folder.runs_readFile]
    cases hread : folder.read (c.storePath file) with
    | error e => rfl
    | ok text =>
      simp only [Folder.runs_bind, Folder.runs_now]
      rw [fresh]
      cases hload : MemoryStore.load file.schema folder.time _ (Json.parse? text) with
      | mk store result => cases result <;> rfl
  · simp only [if_neg hpresent]
    rfl

/-- What was loaded from the files of a folder. -/
lemma opened_of_runs_loadStores {files : List (String × StoreFile)}
    (hascending : files.Pairwise fun a b => a.1 < b.1) {stores : Stores}
    (h : folder.runs (loadStores c files) = (.ok stores, folder')) :
    folder' = folder ∧ ∀ a ∈ files, ∃ store,
      opened c folder a.1 a.2 = .ok store ∧ stores.get? a.1 = some store := by
  induction files generalizing stores folder' with
  | nil =>
    obtain ⟨-, rfl⟩ := Prod.mk.inj h
    exact ⟨rfl, by simp⟩
  | cons a rest ih =>
    obtain ⟨hhead, htail⟩ := List.pairwise_cons.1 hascending
    rw [loadStores] at h
    obtain ⟨store, folder₁, hload, hloads⟩ := Folder.runs_bind_eq_ok.1 h
    obtain ⟨loaded, folder₂, hrest, hall⟩ := Folder.runs_bind_eq_ok.1 hloads
    rw [runs_loadStore] at hload
    obtain ⟨hstore, rfl⟩ := Prod.mk.inj hload
    obtain ⟨rfl, hloaded⟩ := ih htail hrest
    obtain ⟨rfl, rfl⟩ := Folder.runs_pure_eq_ok.1 hall
    refine ⟨rfl, fun b hb => ?_⟩
    rcases List.mem_cons.1 hb with rfl | hb
    · exact ⟨store, hstore, TextMap.get?_insert_self ..⟩
    · obtain ⟨store', hstore', hget⟩ := hloaded b hb
      refine ⟨store', hstore', ?_⟩
      rw [TextMap.get?_insert_of_ne _ fun heq => String.lt_irrefl _ (heq ▸ hhead b hb)]
      exact hget

lemma exists_runs_loadStores {files : List (String × StoreFile)}
    (h : ∀ a ∈ files, ∃ store, opened c folder a.1 a.2 = .ok store) :
    ∃ stores, folder.runs (loadStores c files) = (.ok stores, folder) := by
  induction files with
  | nil => exact ⟨∅, rfl⟩
  | cons a rest ih =>
    obtain ⟨store, hstore⟩ := h a List.mem_cons_self
    obtain ⟨stores, hrest⟩ := ih fun b hb => h b (List.mem_cons_of_mem _ hb)
    refine ⟨stores.insert a.1 store, ?_⟩
    rw [loadStores, Folder.runs_bind, runs_loadStore, hstore]
    simp only [Folder.runs_bind, hrest]
    rfl

lemma runs_begin {s : Session} (h : folder.runs (Session.begin c o) = (.ok s, folder')) :
    folder' = folder ∧ s.configuration = c ∧ s.overrides = o ∧
      ∀ name file, c.stores.get? name = some file → ∃ store,
        opened c folder name file = .ok store ∧ s.stores.get? name = some store := by
  rw [Session.begin] at h
  obtain ⟨stores, folder₁, hload, hbegun⟩ := Folder.runs_bind_eq_ok.1 h
  obtain ⟨rfl, hopened⟩ := opened_of_runs_loadStores c.stores.ascending hload
  obtain ⟨rfl, rfl⟩ := Folder.runs_pure_eq_ok.1 hbegun
  exact ⟨rfl, rfl, rfl, fun name file hfile =>
    hopened (name, file) ((TextMap.mem_entries_iff _).2 hfile)⟩

lemma exists_runs_begin (o : Overrides)
    (h : ∀ name file, c.stores.get? name = some file → ∃ store,
      opened c folder name file = .ok store) :
    ∃ s, folder.runs (Session.begin c o) = (.ok s, folder) := by
  have hfiles : ∀ a ∈ c.stores.entries, ∃ store, opened c folder a.1 a.2 = .ok store :=
    fun a ha => h a.1 a.2 ((TextMap.mem_entries_iff _).1 ha)
  obtain ⟨stores, hload⟩ := exists_runs_loadStores hfiles
  refine ⟨⟨c, o, stores⟩, ?_⟩
  rw [Session.begin, Folder.runs_bind, hload]
  rfl

/-- When a store is opened decides nothing but the times of its entries. -/
lemma exists_opened_at (later : Instant) {store : MemoryStore}
    (h : opened c folder name file = .ok store) :
    ∃ store', opened c { folder with time := later } name file = .ok store' ∧
      store'.records = store.records := by
  rcases opened_eq_ok_iff.1 h with ⟨habsent, rfl⟩ | ⟨hholds, text, n, hread, hload⟩
  · exact ⟨fresh name file, opened_eq_ok_iff.2 (Or.inl ⟨habsent, rfl⟩), rfl⟩
  · obtain ⟨hresult, hrecords⟩ := MemoryStore.load_at (fresh name file) file.schema folder.time
      later (Json.parse? text)
    rw [hload] at hresult hrecords
    exact ⟨_, opened_eq_ok_iff.2 (Or.inr ⟨hholds, text, n, hread, Prod.ext rfl hresult⟩), hrecords⟩

/-! ## Saving -/

lemma write_of_runs_save {s : Session} (h : folder.runs (s.save name) = (.ok (), folder')) :
    ∃ store file, s.stores.get? name = some store ∧
      s.configuration.stores.get? name = some file ∧
      folder.write (s.configuration.storePath file) (store.toRecords file.schema).pretty =
        .ok folder' := by
  rw [save] at h
  split at h
  next store file hstore hfile =>
    refine ⟨store, file, hstore, hfile, ?_⟩
    obtain ⟨result, folder₁, hwrite, h⟩ := Folder.runs_bind_eq_ok.1 h
    rw [Folder.runs_writeFile] at hwrite
    cases hfolder : folder.write (s.configuration.storePath file)
        (store.toRecords file.schema).pretty with
    | error e =>
      simp only [hfolder, Prod.mk.injEq, Except.ok.injEq] at hwrite
      obtain ⟨rfl, rfl⟩ := hwrite
      simp at h
    | ok folder₂ =>
      simp only [hfolder, Prod.mk.injEq, Except.ok.injEq] at hwrite
      obtain ⟨rfl, rfl⟩ := hwrite
      obtain ⟨-, rfl⟩ := Prod.mk.inj h
      rfl
  · simp at h

/-! ## Passes -/

lemma runs_runPass {s s' : Session} {e : TaskEntry} {run : PassRun}
    {pass : Task Stores → Timed (Engine Stores) → PassReport × Timed (Engine Stores)}
    (h : folder.runs (s.runPass pass e) = (.ok (run, s'), folder')) :
    ∃ t, s.task e = .ok t ∧
      s' = { s with stores :=
        (pass t ⟨0, .new s.stores folder.time⟩).2.state.world.stores } ∧
      ({ folder with named := folder.named + 1 } : Folder).runs (s'.save e.destination) =
        (.ok (), folder') := by
  simp only [runPass, Folder.runs_bind, Folder.runs_liftExcept, Folder.runs_newRunName,
    Folder.runs_now] at h
  cases htask : s.task e with
  | error err => simp [htask] at h
  | ok t =>
    simp only [htask] at h
    split at h
    next u folder₁ hsave =>
      obtain ⟨hpair, rfl⟩ := Folder.runs_pure_eq_ok.1 h
      obtain ⟨-, rfl⟩ := Prod.mk.inj hpair
      exact ⟨t, rfl, rfl, hsave⟩
    · simp at h

/-- A task of a session works between the stores that its entry names. -/
lemma links_of_task {s : Session} {e : TaskEntry} {t : Task Stores} (h : s.task e = .ok t) :
    t.Links e.source e.destination ∧
      (s.configuration.stores.get? e.source).isSome = true ∧
      (s.configuration.stores.get? e.destination).isSome = true := by
  unfold task lookup at h
  cases hsource : s.configuration.stores.get? e.source with
  | none => simp [hsource, bind, Except.bind] at h
  | some f =>
    cases hdestination : s.configuration.stores.get? e.destination with
    | none => simp [hsource, hdestination, bind, Except.bind] at h
    | some g =>
      simp only [hsource, hdestination, bind, Except.bind] at h
      refine ⟨?_, rfl, rfl⟩
      set config : TaskConfig :=
        { e.task.under s.overrides with timestampAttribute := f.timestampAttribute } with hconfig
      unfold Task.new at h
      cases hvalid : config.validate with
      | error err => simp [hvalid, bind, Except.bind, Except.mapError] at h
      | ok u =>
        cases hevaluator : Task.evaluatorFor config with
        | error err => simp [hvalid, hevaluator, bind, Except.bind, Except.mapError] at h
        | ok evaluator =>
          simp only [hvalid, hevaluator, bind, Except.bind, Except.mapError, pure, Except.pure]
            at h
          obtain rfl := Except.ok.inj h
          exact ⟨⟨f, rfl⟩, ⟨g, rfl⟩⟩

/-! ## What is kept from pass to pass -/

/-- Something that runs a whole pass of a task. -/
def Conducts (pass : Task Stores → Timed (Engine Stores) → PassReport × Timed (Engine Stores)) :
    Prop :=
  ∀ (t : Task Stores) (stores : Stores) (began : Instant), ∃ kind handed pivots log workers,
    Pass.Conducted t kind handed (Engine.new stores began).world pivots log workers
      (pass t ⟨0, .new stores began⟩).2.state.world (pass t ⟨0, .new stores began⟩).1

lemma conducts_sync : Conducts Engine.sync := fun t stores began => by
  obtain ⟨pivots, log, workers, h⟩ :=
    Engine.conducted_of_conduct t .full [] (Engine.new stores began).world 0
  rw [← Engine.sync_eq_conduct] at h
  exact ⟨.full, [], pivots, log, workers, h⟩

lemma conducts_clean : Conducts Engine.clean := fun t stores began => by
  obtain ⟨pivots, log, workers, h⟩ :=
    Engine.conducted_of_conduct t .clean [] (Engine.new stores began).world 0
  rw [← Engine.clean_eq_conduct] at h
  exact ⟨.clean, [], pivots, log, workers, h⟩

/-- The stores of a configuration are kept in different files. -/
def Separate (c : Configuration) (folder : Folder) : Prop :=
  ∀ n n' f f', c.stores.get? n = some f → c.stores.get? n' = some f' → n ≠ n' →
    folder.Apart (c.storePath f) (c.storePath f')

/-- The file of a store holds its records. -/
def Saved (c : Configuration) (folder : Folder) (file : StoreFile) (store : MemoryStore) : Prop :=
  folder.holds (c.storePath file) = true ∧
    folder.read (c.storePath file) = .ok (store.toRecords file.schema).pretty

/-- How a session stands to its folder behind the passes of `done`: the file of each destination
holds its records, and each other store is still what its file is opened as. -/
structure Kept (c : Configuration) (done : List TaskEntry) (s : Session) (folder : Folder) :
    Prop where
  configuration : s.configuration = c
  separate : Separate c folder
  stores : ∀ n f, c.stores.get? n = some f → ∃ store, s.stores.get? n = some store ∧
    store.Filed ∧ store.pivotAttribute = f.pivotAttribute ∧
    ((∃ e ∈ done, e.destination = n) ∧ Saved c folder f store ∨
      (∀ e ∈ done, e.destination ≠ n) ∧ opened c folder n f = .ok store)

lemma fresh_entries (name : String) (file : StoreFile) : (fresh name file).entries = ∅ := rfl

lemma filed_of_opened {store : MemoryStore} (h : opened c folder name file = .ok store) :
    store.Filed ∧ store.pivotAttribute = file.pivotAttribute := by
  have hfresh : (fresh name file).Filed := MemoryStore.filed_of_empty (fresh_entries name file)
  rcases opened_eq_ok_iff.1 h with ⟨-, rfl⟩ | ⟨-, text, n, -, hload⟩
  · exact ⟨hfresh, rfl⟩
  · obtain rfl : ((fresh name file).load file.schema folder.time (Json.parse? text)).1 = store := by
      rw [hload]
    exact hfresh.load _

lemma kept_of_begin {s : Session} (hseparate : Separate c folder)
    (h : folder.runs (Session.begin c o) = (.ok s, folder')) : Kept c [] s folder' := by
  obtain ⟨rfl, hconfiguration, -, hstores⟩ := runs_begin h
  refine ⟨hconfiguration, hseparate, fun n f hf => ?_⟩
  obtain ⟨store, hopened, hstore⟩ := hstores n f hf
  obtain ⟨hfiled, hpivot⟩ := filed_of_opened hopened
  exact ⟨store, hstore, hfiled, hpivot, Or.inr ⟨by simp, hopened⟩⟩

lemma opened_congr (hholds : folder'.holds (c.storePath file) = folder.holds (c.storePath file))
    (hread : folder.holds (c.storePath file) = true →
      folder'.read (c.storePath file) = folder.read (c.storePath file))
    (htime : folder'.time = folder.time) :
    opened c folder' name file = opened c folder name file := by
  unfold opened
  rw [hholds, htime]
  split
  next hpresent => rw [hread hpresent]
  · rfl

/-- A name for a run is no matter of the files. -/
lemma Kept.named {done : List TaskEntry} {s : Session} (h : Kept c done s folder) (n : Nat) :
    Kept c done s { folder with named := n } :=
  ⟨h.configuration, h.separate, h.stores⟩

lemma Kept.runPass {done : List TaskEntry} {s s' : Session} {e : TaskEntry} {run : PassRun}
    {pass : Task Stores → Timed (Engine Stores) → PassReport × Timed (Engine Stores)}
    (hpass : Conducts pass) (h : Kept c done s folder)
    (hrun : folder.runs (s.runPass pass e) = (.ok (run, s'), folder')) :
    Kept c (done ++ [e]) s' folder' := by
  obtain ⟨t, htask, hs', hsave⟩ := runs_runPass hrun
  obtain ⟨hlinks, hsource, hdestination⟩ := links_of_task htask
  obtain ⟨hconfiguration, hseparate, hstores⟩ := h.named (folder.named + 1)
  rw [hconfiguration] at hsource hdestination
  obtain ⟨f, hf⟩ := Option.isSome_iff_exists.1 hsource
  obtain ⟨g, hg⟩ := Option.isSome_iff_exists.1 hdestination
  obtain ⟨origin, horigin, -⟩ := hstores _ _ hf
  obtain ⟨store, hstore, hfiled, hpivot, -⟩ := hstores _ _ hg
  obtain ⟨kind, handed, pivots, log, workers, hconducted⟩ := hpass t s.stores folder.time
  obtain ⟨hframe, store', hstore', hfiled', hpivot'⟩ :=
    Pass.confined_of_conducted hlinks (by simp [Engine.new, horigin]) hstore hfiled hconducted
  have hstores' : s'.stores =
      (pass t ⟨0, .new s.stores folder.time⟩).2.state.world.stores := by rw [hs']
  have hconfiguration' : s'.configuration = c := by rw [hs', ← hconfiguration]
  rw [← hstores'] at hframe hstore'
  obtain ⟨saved, file, hsaved, hfile, hwrite⟩ := write_of_runs_save hsave
  rw [hconfiguration'] at hfile hwrite
  obtain rfl : saved = store' := Option.some.inj (hsaved.symm.trans hstore')
  obtain rfl : file = g := Option.some.inj (hfile.symm.trans hg)
  have halike := Folder.alike_of_write hwrite
  refine ⟨hconfiguration', fun n n' f f' hf hf' hne =>
    halike.apart (hseparate n n' f f' hf hf' hne), fun n f' hf' => ?_⟩
  -- The destination is behind what was saved just now; what is known of any other store was about
  -- another file, and saving left that file alone.
  by_cases hn : n = e.destination
  · subst hn
    obtain rfl : f' = file := Option.some.inj (hf'.symm.trans hg)
    exact ⟨saved, hsaved, hfiled', hpivot'.trans hpivot,
      Or.inl ⟨⟨e, by simp, rfl⟩, Folder.read_of_write hwrite⟩⟩
  · obtain ⟨other, hother, hfiledOther, hpivotOther, hfileOther⟩ := hstores n f' hf'
    obtain ⟨hholds, hread⟩ := Folder.read_of_write_of_apart hwrite
      (hseparate _ _ _ _ hg hf' (Ne.symm hn))
    refine ⟨other, (hframe n hn).trans hother, hfiledOther, hpivotOther, ?_⟩
    rcases hfileOther with ⟨⟨d, hd, hdn⟩, hthere, htext⟩ | ⟨hnone, hopened⟩
    · exact Or.inl ⟨⟨d, List.mem_append_left _ hd, hdn⟩, hholds.trans hthere,
        (hread hthere).trans htext⟩
    · refine Or.inr ⟨fun d hd => ?_,
        (opened_congr hholds hread (Folder.time_of_write hwrite)).trans hopened⟩
      rcases List.mem_append.1 hd with hd | hd
      · exact hnone d hd
      · rw [List.mem_singleton.1 hd]
        exact Ne.symm hn

lemma Kept.runEach {done es : List TaskEntry} {s s' : Session} {runs : List PassRun}
    {pass : Task Stores → Timed (Engine Stores) → PassReport × Timed (Engine Stores)}
    (hpass : Conducts pass) (h : Kept c done s folder)
    (hrun : folder.runs (s.runEach pass es) = (.ok (runs, s'), folder')) :
    Kept c (done ++ es) s' folder' := by
  induction es generalizing done s folder runs with
  | nil =>
    obtain ⟨hpair, rfl⟩ := Folder.runs_pure_eq_ok.1 hrun
    obtain ⟨-, rfl⟩ := Prod.mk.inj hpair
    simpa using h
  | cons e rest ih =>
    rw [Session.runEach] at hrun
    obtain ⟨⟨run, s₁⟩, folder₁, hfirst, hrun⟩ := Folder.runs_bind_eq_ok.1 hrun
    obtain ⟨⟨more, s₂⟩, folder₂, hmore, hdone⟩ := Folder.runs_bind_eq_ok.1 hrun
    obtain ⟨hpair, rfl⟩ := Folder.runs_pure_eq_ok.1 hdone
    obtain ⟨-, rfl⟩ := Prod.mk.inj hpair
    have hkept := ih (h.runPass hpass hfirst) hmore
    rwa [List.append_assoc] at hkept

lemma Kept.run {s s' : Session} {runs : List PassRun} {synchronization cleaning : List String}
    {full clean : List TaskEntry} (h : Kept c [] s folder)
    (hfull : s.selected synchronization = .ok full) (hclean : s.selected cleaning = .ok clean)
    (hrun : folder.runs (s.run synchronization cleaning) = (.ok (runs, s'), folder')) :
    Kept c (full ++ clean) s' folder' := by
  simp only [Session.run, Folder.runs_bind, Folder.runs_liftExcept, hfull, hclean] at hrun
  split at hrun
  next first folder₁ hfirst =>
    split at hrun
    next second folder₂ hsecond =>
      obtain ⟨hpair, rfl⟩ := Folder.runs_pure_eq_ok.1 hrun
      obtain ⟨-, rfl⟩ := Prod.mk.inj hpair
      exact (h.runEach conducts_sync hfirst).runEach conducts_clean hsecond
    · simp at hrun
  · simp at hrun

/-- A store whose file holds its records is opened as it was. -/
lemma exists_opened_of_saved {store : MemoryStore} (h : Saved c folder file store)
    (hfiled : store.Filed) (hpivot : store.pivotAttribute = file.pivotAttribute)
    (hholds : ∀ e ∈ store.entities, file.schema.holds e = true) (name : String) :
    ∃ store', opened c folder name file = .ok store' ∧ store.Same store' := by
  obtain ⟨store', n, hload, hsame⟩ :=
    MemoryStore.exists_load_toRecords folder.time (fresh_entries name file) hpivot.symm hfiled
      hholds
  exact ⟨store', opened_eq_ok_iff.2 (Or.inr ⟨h.1, _, n, h.2, hload⟩), hsame⟩

/-- **What a run saves can be opened again.**  When the stores are kept in different files and the
schema of each destination holds the entities that the run left in it, a later session is begun
over the files that the run left, and every store has the entries that it had in memory. -/
theorem reopened_of_run {s s' : Session} {folder₁ folder₂ : Folder} {runs : List PassRun}
    {synchronization cleaning : List String} {full clean : List TaskEntry}
    (hseparate : Separate c folder)
    (hbegin : folder.runs (Session.begin c o) = (.ok s, folder₁))
    (hfull : s.selected synchronization = .ok full) (hclean : s.selected cleaning = .ok clean)
    (hrun : folder₁.runs (s.run synchronization cleaning) = (.ok (runs, s'), folder₂))
    (hholds : ∀ e ∈ full ++ clean, ∀ f store, c.stores.get? e.destination = some f →
      s'.stores.get? e.destination = some store → ∀ x ∈ store.entities, f.schema.holds x = true)
    (later : Instant) (o' : Overrides) :
    ∃ s'', ({ folder₂ with time := later } : Folder).runs (Session.begin c o') =
        (.ok s'', { folder₂ with time := later }) ∧
      ∀ n f, c.stores.get? n = some f → ∃ store store', s'.stores.get? n = some store ∧
        s''.stores.get? n = some store' ∧ store.Same store' := by
  have hkept := (kept_of_begin hseparate hbegin).run hfull hclean hrun
  have hopened : ∀ n f, c.stores.get? n = some f → ∃ store store',
      s'.stores.get? n = some store ∧
      opened c { folder₂ with time := later } n f = .ok store' ∧ store.Same store' := by
    intro n f hf
    obtain ⟨store, hstore, hfiled, hpivot, ⟨⟨e, he, rfl⟩, hsaved⟩ | ⟨-, hopened⟩⟩ :=
      hkept.stores n f hf
    · obtain ⟨store', hopened, hsame⟩ := exists_opened_of_saved
        (show Saved c { folder₂ with time := later } f store from hsaved) hfiled hpivot
        (hholds e he f store hf hstore) e.destination
      exact ⟨store, store', hstore, hopened, hsame⟩
    · obtain ⟨store', hopened', hrecords⟩ := exists_opened_at later hopened
      exact ⟨store, store', hstore, hopened', MemoryStore.same_of_records hrecords⟩
  obtain ⟨s'', hs''⟩ := exists_runs_begin o' fun n f hf =>
    let ⟨_, store', _, hstore', _⟩ := hopened n f hf
    ⟨store', hstore'⟩
  obtain ⟨-, -, -, hstores⟩ := runs_begin hs''
  refine ⟨s'', hs'', fun n f hf => ?_⟩
  obtain ⟨store, store', hstore, hopened', hsame⟩ := hopened n f hf
  obtain ⟨store'', hopened'', hstore''⟩ := hstores n f hf
  obtain rfl := Except.ok.inj (hopened'.symm.trans hopened'')
  exact ⟨store, store', hstore, hstore'', hsame⟩

/-! A person is enrolled from the records of the staff in a directory.  Whether the directory can be
opened again depends on what its schema declares. -/

def staffFile : StoreFile :=
  ⟨"hr.json", "uid", "modifyTimestamp", true,
    ⟨"person", some "id", [⟨"uid", .string⟩, ⟨"mail", .string⟩]⟩⟩

def staffRecords : Json :=
  .array [.members [("id", .string "uid=1"), ("mail", .string "a@x"), ("uid", .string "1")]]

/-- The directory, whose schema may lack an attribute. -/
def directoryFile (complete : Bool) : StoreFile :=
  ⟨"ldap.json", "uid", "modifyTimestamp", true, ⟨"person", some "dn",
    if complete then [⟨"uid", .string⟩, ⟨"mail", .string⟩] else [⟨"uid", .string⟩]⟩⟩

def people : TaskEntry := ⟨"hr", "ldap", .new "people"⟩

def enrolment (complete : Bool) : Configuration :=
  ⟨.ofList [("hr", staffFile), ("ldap", directoryFile complete)], [people], ""⟩

def premises : Folder := .ofList [("hr.json", some staffRecords.pretty)] ∅ ⟨0⟩

def staff : MemoryStore :=
  ((fresh "hr" staffFile).load staffFile.schema ⟨0⟩ (some staffRecords)).1

/-- The session that is begun on the premises. -/
def enrolling (complete : Bool) : Session :=
  ⟨enrolment complete, ⟨.none, none, none⟩,
    (TextMap.insert ∅ "ldap" (fresh "ldap" (directoryFile complete))).insert "hr" staff⟩

/-- The task between the two stores. -/
def enrol (complete : Bool) : Task Stores :=
  ⟨.new "people", adapter "hr" staffFile, adapter "ldap" (directoryFile complete),
    Script.evaluator .standard .empty⟩

/-- The stores when the person is enrolled. -/
def enrolled (complete : Bool) : Stores :=
  (Engine.reconcile (enrol complete) .full [(Pivot.ofId "uid=1").withAttribute "uid" "1"]
    ⟨0, .new (enrolling complete).stores ⟨0⟩⟩).2.state.world.stores

section Enrolment

variable (complete : Bool)

lemma storePath_staffFile : (enrolment complete).storePath staffFile = "hr.json" := by
  cases complete <;> rfl

lemma storePath_directoryFile :
    (enrolment complete).storePath (directoryFile complete) = "ldap.json" := by
  cases complete <;> rfl

lemma entries_enrolment : (enrolment complete).stores.entries =
    [("hr", staffFile), ("ldap", directoryFile complete)] := by
  cases complete <;> rfl

lemma separate_enrolment : Separate (enrolment complete) premises := by
  have hhr : premises.resolve "hr.json" = .ok ["hr.json"] := rfl
  have hldap : premises.resolve "ldap.json" = .ok ["ldap.json"] := rfl
  have hkeys : Folder.key ["hr.json"] ≠ Folder.key ["ldap.json"] := by decide
  intro n n' f f' hf hf' hne p q hp hq
  have hf := (TextMap.mem_entries_iff _).2 hf
  have hf' := (TextMap.mem_entries_iff _).2 hf'
  simp only [entries_enrolment, List.mem_cons, Prod.mk.injEq, List.not_mem_nil, or_false] at hf hf'
  rcases hf with ⟨rfl, rfl⟩ | ⟨rfl, rfl⟩ <;> rcases hf' with ⟨rfl, rfl⟩ | ⟨rfl, rfl⟩
  · exact absurd rfl hne
  · rw [storePath_staffFile, hhr] at hp
    rw [storePath_directoryFile, hldap] at hq
    rwa [← Except.ok.inj hp, ← Except.ok.inj hq]
  · rw [storePath_directoryFile, hldap] at hp
    rw [storePath_staffFile, hhr] at hq
    rw [← Except.ok.inj hp, ← Except.ok.inj hq]
    exact hkeys.symm
  · exact absurd rfl hne

lemma runs_begin_enrolment :
    premises.runs (Session.begin (enrolment complete) ⟨.none, none, none⟩) =
      (.ok (enrolling complete), premises) := by
  have hstaff : opened (enrolment complete) premises "hr" staffFile = .ok staff := by
    have hholds : premises.holds "hr.json" = true := rfl
    have hread : premises.read "hr.json" = .ok staffRecords.pretty := rfl
    have hparse : Json.parse? staffRecords.pretty = some staffRecords :=
      Json.parse?_pretty _ ⟨⟨by decide +kernel, trivial, trivial, trivial, trivial⟩, trivial⟩
        (by decide +kernel)
    have hload : (fresh "hr" staffFile).load staffFile.schema premises.time (some staffRecords) =
        (staff, .ok 1) :=
      rfl
    refine opened_eq_ok_iff.2 (Or.inr ?_)
    rw [storePath_staffFile]
    exact ⟨hholds, _, 1, hread, by rw [hparse, hload]⟩
  have hdirectory : opened (enrolment complete) premises "ldap" (directoryFile complete) =
      .ok (fresh "ldap" (directoryFile complete)) := by
    refine opened_eq_ok_iff.2 (Or.inl ⟨?_, rfl⟩)
    rw [storePath_directoryFile]
    rfl
  rw [Session.begin, Folder.runs_bind, entries_enrolment]
  simp only [loadStores, Folder.runs_bind, runs_loadStore, hstaff, hdirectory, Folder.runs_pure]
  rfl

lemma sync_enrol : Engine.sync (enrol complete) ⟨0, .new (enrolling complete).stores ⟨0⟩⟩ =
    Engine.reconcile (enrol complete) .full [(Pivot.ofId "uid=1").withAttribute "uid" "1"]
    ⟨0, .new (enrolling complete).stores ⟨0⟩⟩ := by
  have hpivots : staff.list = .ok [(Pivot.ofId "uid=1").withAttribute "uid" "1"] := by
    have hkeyed : (staff.entities.filterMap fun e =>
        (staff.pivotOf? e).map (MemoryStore.depth e, ·)) =
        [(5, (Pivot.ofId "uid=1").withAttribute "uid" "1")] :=
      rfl
    have hconnection : staff.checkConnection = .ok () := rfl
    rw [MemoryStore.list, hconnection, MemoryStore.orderedPivots, hkeyed]
    simp only [List.mergeSort_singleton]
    rfl
  have hstaff : (enrolling complete).stores.get? "hr" = some staff := TextMap.get?_insert_self ..
  have hlist : (enrol complete).source.list (enrolling complete).stores =
      (.ok [(Pivot.ofId "uid=1").withAttribute "uid" "1"], (enrolling complete).stores) :=
    (list_adapter staffFile hstaff).trans (by rw [hpivots])
  simp only [Engine.sync, Engine.new, hlist]

lemma selected_people : (enrolling complete).selected ["people"] = .ok [people] := by
  cases complete <;> rfl

lemma selected_none : (enrolling complete).selected [] = .ok [] := rfl

lemma runs_run_enrolment : ∃ runs folder',
    premises.runs ((enrolling complete).run ["people"] []) =
      (.ok (runs, { enrolling complete with stores := enrolled complete }), folder') := by
  have htask : (enrolling complete).task people = .ok (enrol complete) := by
    cases complete <;> rfl
  have hsync : (Engine.sync (enrol complete)
      ⟨0, .new (enrolling complete).stores premises.time⟩).2.state.world.stores =
      enrolled complete :=
    congrArg (·.2.state.world.stores) (sync_enrol complete)
  obtain ⟨store, hstore⟩ : ∃ store, (enrolled complete).get? "ldap" = some store :=
    Option.isSome_iff_exists.1 (by cases complete <;> rfl)
  have hfile : (enrolling complete).configuration.stores.get? "ldap" =
      some (directoryFile complete) := by
    cases complete <;> rfl
  have hpath : (enrolling complete).configuration.storePath (directoryFile complete) =
      "ldap.json" :=
    storePath_directoryFile complete
  obtain ⟨folder', hwrite⟩ : ∃ folder', Folder.write ⟨premises.contents, premises.environment,
      premises.time, premises.named + 1⟩ "ldap.json"
      (store.toRecords (directoryFile complete).schema).pretty = .ok folder' := by
    have hresolve : Folder.resolve ⟨premises.contents, premises.environment,
        premises.time, premises.named + 1⟩ "ldap.json" = .ok ["ldap.json"] :=
      rfl
    have habsent : Folder.at? ⟨premises.contents, premises.environment,
        premises.time, premises.named + 1⟩ ["ldap.json"] = none :=
      rfl
    simp [Folder.write, hresolve, habsent, bind, Except.bind, pure, Except.pure]
  simp only [Session.run, selected_people, selected_none, Session.runEach, Session.runPass,
    Folder.runs_bind, Folder.runs_liftExcept, Folder.runs_newRunName, Folder.runs_now, htask, hsync]
  simp only [Session.save, people, hstore, hfile]
  simp only [Folder.runs_bind, Folder.runs_writeFile, hpath, hwrite, Folder.runs_pure]
  exact ⟨_, _, rfl⟩

end Enrolment

/-- With the whole schema, the directory is opened with the person in it. -/
theorem reopened_of_enrolment : Separate (enrolment true) premises ∧ ∃ s s' runs folder',
    premises.runs (Session.begin (enrolment true) ⟨.none, none, none⟩) = (.ok s, premises) ∧
    s.selected ["people"] = .ok [people] ∧ s.selected [] = .ok [] ∧
    premises.runs (s.run ["people"] []) = (.ok (runs, s'), folder') ∧
    (∃ store, s'.stores.get? "ldap" = some store ∧
      (∀ x ∈ store.entities, (directoryFile true).schema.holds x = true) ∧
      store.entities.map (fun x => (x.identifier, x.values "mail")) =
        [(some "uid=1", ["a@x"])]) ∧
    ∃ s'', folder'.runs (Session.begin (enrolment true) ⟨.none, none, none⟩) = (.ok s'', folder') ∧
      ∃ store store', s'.stores.get? "ldap" = some store ∧ s''.stores.get? "ldap" = some store' ∧
        store.Same store' := by
  have hfile : (enrolment true).stores.get? "ldap" = some (directoryFile true) := rfl
  have hheld : ((enrolled true).get? "ldap").any (fun store =>
      store.entities.all (directoryFile true).schema.holds &&
      decide (store.entities.map (fun x => (x.identifier, x.values "mail")) =
        [(some "uid=1", ["a@x"])])) = true :=
    rfl
  obtain ⟨store, hstore, hheld⟩ := (Option.any_eq_true _ _).1 hheld
  obtain ⟨hholds, hentities⟩ := (Bool.and_eq_true _ _).mp hheld
  have hholds : ∀ x ∈ store.entities, (directoryFile true).schema.holds x = true :=
    List.all_eq_true.1 hholds
  obtain ⟨runs, folder', hrun⟩ := runs_run_enrolment true
  have hdestination : ∀ e ∈ [people] ++ [], ∀ f store, (enrolment true).stores.get? e.destination =
      some f → (enrolled true).get? e.destination = some store →
      ∀ x ∈ store.entities, f.schema.holds x = true := by
    intro e he f store₁ hf hstore₁
    obtain rfl : e = people := by simpa using he
    obtain rfl : directoryFile true = f := Option.some.inj (hfile.symm.trans hf)
    obtain rfl : store = store₁ := Option.some.inj (hstore.symm.trans hstore₁)
    exact hholds
  obtain ⟨s'', hbegin, hsame⟩ := reopened_of_run (separate_enrolment true)
    (runs_begin_enrolment true) (selected_people true) (selected_none true) hrun hdestination
    folder'.time ⟨.none, none, none⟩
  exact ⟨separate_enrolment true, _, _, runs, folder', runs_begin_enrolment true,
    selected_people true, selected_none true, hrun,
    ⟨store, hstore, hholds, of_decide_eq_true hentities⟩, s'', hbegin,
    hsame "ldap" (directoryFile true) hfile⟩

/-- **What a run saves cannot always be opened.**  Where the run left an attribute in a destination
that the schema of the store does not declare, no session is begun over the files any more. -/
theorem refused_of_run {s s' : Session} {folder₁ folder₂ : Folder} {runs : List PassRun}
    {synchronization cleaning : List String} {full clean : List TaskEntry}
    (hseparate : Separate c folder)
    (hbegin : folder.runs (Session.begin c o) = (.ok s, folder₁))
    (hfull : s.selected synchronization = .ok full) (hclean : s.selected cleaning = .ok clean)
    (hrun : folder₁.runs (s.run synchronization cleaning) = (.ok (runs, s'), folder₂))
    {e : TaskEntry} (he : e ∈ full ++ clean) {f : StoreFile} {store : MemoryStore}
    (hf : c.stores.get? e.destination = some f)
    (hstore : s'.stores.get? e.destination = some store) {x : Entity} {a : Attribute}
    (hx : x ∈ store.entities) (ha : a ∈ x.attributeList)
    (hundeclared : f.schema.attribute? a.name = none)
    (hapart : f.schema.isIdentifierField a.name = false) (later : Instant) (o' : Overrides)
    (s'' : Session) (folder₃ : Folder) :
    ({ folder₂ with time := later } : Folder).runs (Session.begin c o') ≠ (.ok s'', folder₃) := by
  have hkept := (kept_of_begin hseparate hbegin).run hfull hclean hrun
  obtain ⟨store₁, hstore₁, -, -, ⟨-, hheld, htext⟩ | ⟨hnone, -⟩⟩ := hkept.stores _ f hf
  · obtain rfl : store₁ = store := Option.some.inj (hstore₁.symm.trans hstore)
    obtain ⟨err, herror⟩ := MemoryStore.exists_error_load_toRecords
      (fresh e.destination f) later hx ha hundeclared hapart
    intro hbegun
    obtain ⟨-, -, -, hopened⟩ := runs_begin hbegun
    obtain ⟨store₂, hopened, -⟩ := hopened _ f hf
    rcases opened_eq_ok_iff.1 hopened with ⟨habsent, -⟩ | ⟨-, text, n, hread, hload⟩
    · exact Bool.false_ne_true (habsent.symm.trans hheld)
    · obtain rfl := Except.ok.inj (htext.symm.trans hread)
      simp [hload] at herror
  · exact absurd rfl (hnone e he)

/-- With a schema that lacks an attribute, it is not opened any more. -/
theorem refused_of_enrolment : Separate (enrolment false) premises ∧ ∃ s s' runs folder',
    premises.runs (Session.begin (enrolment false) ⟨.none, none, none⟩) = (.ok s, premises) ∧
    premises.runs (s.run ["people"] []) = (.ok (runs, s'), folder') ∧
    ∀ s'' folder'', folder'.runs (Session.begin (enrolment false) ⟨.none, none, none⟩) ≠
      (.ok s'', folder'') := by
  have hfile : (enrolment false).stores.get? "ldap" = some (directoryFile false) := rfl
  have hheld : ((enrolled false).get? "ldap").any (fun store => store.entities.any fun x =>
      x.attributeList.any fun a =>
        ((directoryFile false).schema.attribute? a.name).isNone &&
        !(directoryFile false).schema.isIdentifierField a.name) = true :=
    rfl
  obtain ⟨store, hstore, hheld⟩ := (Option.any_eq_true _ _).1 hheld
  obtain ⟨x, hx, hheld⟩ := List.any_eq_true.1 hheld
  obtain ⟨a, ha, hheld⟩ := List.any_eq_true.1 hheld
  obtain ⟨hundeclared, hapart⟩ := (Bool.and_eq_true _ _).mp hheld
  obtain ⟨runs, folder', hrun⟩ := runs_run_enrolment false
  refine ⟨separate_enrolment false, _, _, runs, folder', runs_begin_enrolment false, hrun, ?_⟩
  exact refused_of_run (separate_enrolment false) (runs_begin_enrolment false)
    (selected_people false) (selected_none false) hrun (e := people) (by simp) hfile hstore hx ha
    (by simpa using hundeclared) (by simpa using hapart) folder'.time ⟨.none, none, none⟩

end Session

end StoreSync
