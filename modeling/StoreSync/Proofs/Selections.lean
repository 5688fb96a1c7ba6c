import Mathlib.Data.Finset.Card
import StoreSync.Proofs.Misconfigurations

/-!
# Tasks that are asked for

Tasks are asked for by name, in any ASCII case, and there is a name for all of them.  That a request
is answered with one task for each name, and that the stores of these tasks are there when they are
built and saved, follows from three places taken together: a configuration is checked for names that
agree and for stores that it does not have, names are matched when tasks are selected, and stores
are looked up when a session is under way.

* `Configuration.Distinct` — what the check says about the names of the tasks
  (`Configuration.distinct_of_validate`);
* `Configuration.exists_error_iff`, `Configuration.exists_answers` — the two ways in which a request
  is answered;
* `Session.Ready` — a task that finds its stores, in a session that was begun with the configuration
  and that may have run passes since (`Session.Opened.ready`);
* `Session.answered_of_validate` — all of this in one.
-/

namespace StoreSync

namespace Configuration

variable {c : Configuration} {e : TaskEntry} {requested : List String} {entries : List TaskEntry}

/-! ## Names -/

/-- A name by which a task is matched. -/
def key (e : TaskEntry) : String := Text.asciiLower e.name

/-- The names of the tasks differ, also without regard to case, and none is kept for other uses. -/
structure Distinct (entries : List TaskEntry) : Prop where
  pairwise : entries.Pairwise fun e e' => key e ≠ key e'
  unreserved : ∀ e ∈ entries, key e ≠ everyTask

lemma sameAsciiFolded_iff {a b : String} :
    Text.sameAsciiFolded a b = true ↔ Text.asciiLower a = Text.asciiLower b := by
  simp [Text.sameAsciiFolded]

lemma asciiLower_everyTask : Text.asciiLower everyTask = everyTask := by decide

lemma key_ne_of_entryDefect? {before : List String} (h : c.entryDefect? before e = none) :
    key e ≠ everyTask ∧ ∀ name ∈ before, key e ≠ Text.asciiLower name := by
  unfold entryDefect? at h
  split at h
  · cases h
  next hreserved =>
    split at h
    · cases h
    next hrepeated =>
      rw [sameAsciiFolded_iff, asciiLower_everyTask] at hreserved
      refine ⟨hreserved, fun name hname heq => hrepeated (List.any_eq_true.2 ⟨name, hname, ?_⟩)⟩
      exact sameAsciiFolded_iff.2 heq

lemma distinct_of_validateEntries {before : List String}
    (h : c.validateEntries before entries = .ok ()) :
    Distinct entries ∧ ∀ e ∈ entries, ∀ name ∈ before, key e ≠ Text.asciiLower name := by
  induction entries generalizing before with
  | nil => exact ⟨⟨.nil, by simp⟩, by simp⟩
  | cons e rest ih =>
    rw [validateEntries] at h
    cases hdefect : c.entryDefect? before e with
    | some d => simp [hdefect] at h
    | none =>
      obtain ⟨hreserved, hbefore⟩ := key_ne_of_entryDefect? hdefect
      simp only [hdefect] at h
      cases hfirst : e.task.validate with
      | error err => simp [hfirst, Except.mapError, bind, Except.bind] at h
      | ok =>
        simp only [hfirst, Except.mapError, bind, Except.bind] at h
        obtain ⟨⟨hpairwise, hunreserved⟩, hrest⟩ := ih h
        refine ⟨⟨List.pairwise_cons.2 ⟨fun e' he' heq => ?_, hpairwise⟩,
          List.forall_mem_cons.2 ⟨hreserved, hunreserved⟩⟩,
          List.forall_mem_cons.2 ⟨hbefore, fun e' he' name hname =>
            hrest e' he' name (List.mem_cons_of_mem _ hname)⟩⟩
        exact hrest e' he' e.name List.mem_cons_self heq.symm

lemma distinct_of_validate (h : c.validate = .ok ()) : Distinct c.tasks := by
  unfold validate at h
  cases hentries : c.validateEntries [] c.tasks with
  | error err => simp [hentries, bind, Except.bind] at h
  | ok => exact (distinct_of_validateEntries hentries).1

/-! ## Requests -/

/-- All tasks are asked for. -/
def AsksForAll (requested : List String) : Prop :=
  ∃ name ∈ requested, Text.asciiLower name = everyTask

/-- A task is asked for by name. -/
def AsksFor (requested : List String) (e : TaskEntry) : Prop :=
  ∃ name ∈ requested, key e = Text.asciiLower name

/-- No task can be given for the request. -/
def Unmatched (c : Configuration) (requested : List String) : Prop :=
  (¬ AsksForAll requested ∧ ∃ name ∈ requested, ∀ e ∈ c.tasks, key e ≠ Text.asciiLower name) ∨
    (AsksForAll requested ∧ c.tasks = [])

instance : Decidable (AsksForAll requested) :=
  inferInstanceAs (Decidable (∃ name ∈ requested, Text.asciiLower name = everyTask))

instance : Decidable (c.Unmatched requested) :=
  inferInstanceAs (Decidable ((¬ AsksForAll requested ∧
    ∃ name ∈ requested, ∀ e ∈ c.tasks, key e ≠ Text.asciiLower name) ∨
      (AsksForAll requested ∧ c.tasks = [])))

/-- The tasks with which a request is answered. -/
structure Answers (c : Configuration) (requested : List String) (entries : List TaskEntry) :
    Prop where
  /-- They come in the order of the configuration, -/
  sublist : entries.Sublist c.tasks
  /-- each once, -/
  once : (entries.map key).Nodup
  /-- and are those that are asked for. -/
  mem_iff : ∀ e ∈ c.tasks, e ∈ entries ↔ AsksForAll requested ∨ AsksFor requested e
  /-- Unless all are asked for, there is one for every name, in whatever case it is repeated. -/
  length_eq : ¬ AsksForAll requested →
    entries.length = (requested.map Text.asciiLower).toFinset.card

lemma any_everyTask_iff :
    requested.any (Text.sameAsciiFolded · everyTask) = true ↔ AsksForAll requested := by
  simp only [List.any_eq_true, sameAsciiFolded_iff, asciiLower_everyTask, AsksForAll]

lemma any_name_iff :
    requested.any (Text.sameAsciiFolded e.name) = true ↔ AsksFor requested e := by
  simp only [List.any_eq_true, sameAsciiFolded_iff, AsksFor, key]

/-- The first name that no task has. -/
def unmatched? (c : Configuration) (requested : List String) : Option String :=
  requested.find? fun name => !c.tasks.any (Text.sameAsciiFolded ·.name name)

lemma matches_iff {name : String} :
    c.tasks.any (Text.sameAsciiFolded ·.name name) = true ↔
      ∃ e ∈ c.tasks, key e = Text.asciiLower name := by
  simp only [List.any_eq_true, sameAsciiFolded_iff, key]

lemma unmatched?_eq_none_iff : c.unmatched? requested = none ↔
    ∀ name ∈ requested, ∃ e ∈ c.tasks, key e = Text.asciiLower name := by
  simp only [unmatched?, List.find?_eq_none, Bool.not_eq_true, Bool.not_eq_false', matches_iff]

lemma unmatched_iff : c.Unmatched requested ↔
    (¬ AsksForAll requested ∧ (c.unmatched? requested).isSome = true) ∨
      (AsksForAll requested ∧ c.tasks = []) := by
  rw [Unmatched, Option.isSome_iff_ne_none, Ne, unmatched?_eq_none_iff]
  push Not
  rfl

/-- What a request is answered with: all tasks, or those with the names if every name has one. -/
lemma select_eq (c : Configuration) (requested : List String) :
    (AsksForAll requested ∧ c.tasks = [] ∧
        c.select requested = .error (.noSuchTask everyTask)) ∨
      (AsksForAll requested ∧ c.tasks ≠ [] ∧ c.select requested = .ok c.tasks) ∨
      (¬ AsksForAll requested ∧ ∃ name, c.unmatched? requested = some name ∧
        c.select requested = .error (.noSuchTask name)) ∨
      (¬ AsksForAll requested ∧ c.unmatched? requested = none ∧ c.select requested =
        .ok (c.tasks.filter fun e => requested.any (Text.sameAsciiFolded e.name))) := by
  unfold select
  split
  next hall =>
    replace hall := any_everyTask_iff.1 hall
    split
    next hnone => exact Or.inl ⟨hall, List.isEmpty_iff.1 hnone, rfl⟩
    next hsome => exact Or.inr (Or.inl ⟨hall, fun hnil => hsome (by rw [hnil]; rfl), rfl⟩)
  next hall =>
    replace hall : ¬ AsksForAll requested := fun h => hall (any_everyTask_iff.2 h)
    split
    next name hname => exact Or.inr (Or.inr (Or.inl ⟨hall, name, hname, rfl⟩))
    next hname => exact Or.inr (Or.inr (Or.inr ⟨hall, hname, rfl⟩))

lemma exists_error_iff : (∃ name, c.select requested = .error (.noSuchTask name)) ↔
    c.Unmatched requested := by
  rw [unmatched_iff]
  rcases c.select_eq requested with ⟨hall, hnil, hselect⟩ | ⟨hall, hne, hselect⟩ |
    ⟨hall, name, hname, hselect⟩ | ⟨hall, hname, hselect⟩
  · simp [hselect, hall, hnil]
  · simp [hselect, hall, hne]
  · simp [hselect, hall, hname]
  · simp [hselect, hall, hname]

/-- Tasks whose names differ answer a request with one task for each name. -/
lemma answers_filter (h : Distinct c.tasks) (hall : ¬ AsksForAll requested)
    (hnames : c.unmatched? requested = none) :
    c.Answers requested
      (c.tasks.filter fun e => requested.any (Text.sameAsciiFolded e.name)) := by
  rw [unmatched?_eq_none_iff] at hnames
  have hmem : ∀ e, e ∈ c.tasks.filter (fun e => requested.any (Text.sameAsciiFolded e.name)) ↔
      e ∈ c.tasks ∧ AsksFor requested e := fun e => by rw [List.mem_filter, any_name_iff]
  have honce : ((c.tasks.filter fun e => requested.any (Text.sameAsciiFolded e.name)).map
      key).Nodup :=
    List.pairwise_map.2 (h.pairwise.sublist List.filter_sublist)
  refine ⟨List.filter_sublist, honce, fun e he => ?mem_iff, fun _ => ?length_eq⟩
  case mem_iff =>
    rw [hmem]
    exact ⟨fun he => Or.inr he.2, fun hasked => ⟨he, hasked.resolve_left hall⟩⟩
  case length_eq =>
    -- Every name has a task, and every task that is left has a name.
    have hkeys : ((c.tasks.filter fun e => requested.any (Text.sameAsciiFolded e.name)).map
        key).toFinset = (requested.map Text.asciiLower).toFinset := by
      ext k
      simp only [List.mem_toFinset, List.mem_map, hmem]
      constructor
      · rintro ⟨e, ⟨-, name, hname, hkey⟩, rfl⟩
        exact ⟨name, hname, hkey.symm⟩
      · rintro ⟨name, hname, rfl⟩
        obtain ⟨e, he, hkey⟩ := hnames name hname
        exact ⟨e, ⟨he, name, hname, hkey⟩, hkey⟩
    rw [← hkeys, List.toFinset_card_of_nodup honce, List.length_map]

lemma answers_tasks (h : Distinct c.tasks) (hall : AsksForAll requested) :
    c.Answers requested c.tasks where
  sublist := List.Sublist.refl _
  once := List.pairwise_map.2 h.pairwise
  mem_iff _ he := ⟨fun _ => Or.inl hall, fun _ => he⟩
  length_eq hnot := absurd hall hnot

lemma exists_answers (h : Distinct c.tasks) (hmatched : ¬ c.Unmatched requested) :
    ∃ entries, c.select requested = .ok entries ∧ c.Answers requested entries := by
  rcases c.select_eq requested with ⟨-, -, hselect⟩ | ⟨hall, -, hselect⟩ | ⟨-, name, -, hselect⟩ |
    ⟨hall, hnames, hselect⟩
  · exact absurd (exists_error_iff.1 ⟨_, hselect⟩) hmatched
  · exact ⟨_, hselect, answers_tasks h hall⟩
  · exact absurd (exists_error_iff.1 ⟨_, hselect⟩) hmatched
  · exact ⟨_, hselect, answers_filter h hall hnames⟩

end Configuration

namespace Session

variable {c : Configuration} {o : Overrides} {s : Session} {folder folder' : Folder} {e : TaskEntry}
  {name : String}

/-! ## Stores of the tasks -/

/-- A session that finds a store by its name, when a task is built and when the store is saved. -/
structure Finds (s : Session) (name : String) (f : StoreFile) (store : MemoryStore) : Prop where
  file_eq : s.configuration.stores.get? name = some f
  store_eq : s.stores.get? name = some store
  lookup_eq : s.lookup name = .ok (adapter name f)
  /-- Only writing the file can go wrong. -/
  runs_save : ∀ folder : Folder, folder.runs (s.save name) =
    match folder.write (s.configuration.storePath f) (store.toRecords f.schema).pretty with
    | .ok written => (.ok (), written)
    | .error failure => (.error (.store name (.io failure.message)), folder)

/-- A task that finds its stores.  Whether it can be built depends on its settings alone. -/
def Ready (s : Session) (e : TaskEntry) : Prop :=
  ∃ f g source destination, s.Finds e.source f source ∧ s.Finds e.destination g destination ∧
    s.task e = (Task.new (e.task.bound s.overrides f) (adapter e.source f)
      (adapter e.destination g)).mapError .sync

lemma Stocked.exists_finds (h : Stocked s)
    (hname : (s.configuration.stores.get? name).isSome = true) :
    ∃ f store, s.Finds name f store := by
  obtain ⟨f, hf⟩ := Option.isSome_iff_exists.1 hname
  obtain ⟨store, hstore, -⟩ := h name f hf
  refine ⟨f, store, hf, hstore, by simp [lookup, hf], fun folder => ?_⟩
  simp only [save, hf, hstore, Folder.runs_bind, Folder.runs_writeFile]
  cases folder.write (s.configuration.storePath f) (store.toRecords f.schema).pretty <;> rfl

/-- A session of a configuration, between two passes or behind one that has not been saved yet. -/
inductive Opened (c : Configuration) : Session → Prop
  | begun {o : Overrides} {folder folder' : Folder} {s : Session}
      (h : folder.runs (Session.begin c o) = (.ok s, folder')) : Opened c s
  | passed {s : Session} {e : TaskEntry} {t : Task Stores}
      {pass : Task Stores → Timed (Engine Stores) → PassReport × Timed (Engine Stores)}
      (h : Opened c s) (hpass : Conducts pass) (htask : s.task e = .ok t) (time : Instant) :
      Opened c { s with stores := (pass t ⟨0, .new s.stores time⟩).2.state.world.stores }

lemma Opened.stocked (h : Opened c s) : Stocked s ∧ s.configuration = c := by
  induction h with
  | begun h =>
    obtain ⟨-, rfl, -, -⟩ := runs_begin h
    exact ⟨stocked_of_begin h, rfl⟩
  | passed _ hpass htask time ih => exact ⟨ih.1.behind hpass htask time, ih.2⟩

lemma Opened.ready (h : Opened c s) (hvalid : c.validate = .ok ()) (he : e ∈ c.tasks) :
    s.Ready e := by
  obtain ⟨hstocked, rfl⟩ := h.stocked
  obtain ⟨hsource, hdestination, -⟩ := Configuration.entry_of_validate hvalid he
  obtain ⟨f, source, hf⟩ := hstocked.exists_finds hsource
  obtain ⟨g, destination, hg⟩ := hstocked.exists_finds hdestination
  exact ⟨f, g, source, destination, hf, hg, task_eq hf.file_eq hg.file_eq⟩

/-- **A request is answered with the tasks that it names, or with the name that matches none.**  The
tasks of a configuration that was checked are selected in their order and once each, however often
and in whatever case they are named, and every one of them finds its stores in a session that was
begun with the configuration, whatever passes have been run in it. -/
theorem answered_of_validate (hvalid : c.validate = .ok ()) (requested : List String) :
    ((∃ name, c.select requested = .error (.noSuchTask name)) ↔ c.Unmatched requested) ∧
      (¬ c.Unmatched requested → ∃ entries, c.select requested = .ok entries ∧
        c.Answers requested entries ∧ ∀ e ∈ entries, ∀ s, Opened c s → s.Ready e) := by
  refine ⟨Configuration.exists_error_iff, fun hmatched => ?_⟩
  obtain ⟨entries, hselect, hanswers⟩ :=
    Configuration.exists_answers (Configuration.distinct_of_validate hvalid) hmatched
  exact ⟨entries, hselect, hanswers, fun e he s hopened =>
    hopened.ready hvalid (hanswers.sublist.subset he)⟩

/-- The session at the reception, once the people are enrolled and not yet saved. -/
def peopled : Session :=
  { receiving with
    stores :=
      (Engine.sync (enrol true) ⟨0, .new receiving.stores premises.time⟩).2.state.world.stores }

/-- Both tasks of the reception are given for three names, two of which are alike, and nothing is
given for a name that none of them has. -/
theorem answered_of_reception :
    reception.validate = .ok () ∧
      (∃ name, reception.select ["people", "nobody"] = .error (.noSuchTask name)) ∧
      reception.select ["GUESTS", "People", "guests"] = .ok [people, guests] ∧
      reception.Answers ["GUESTS", "People", "guests"] [people, guests] ∧
      receiving.Ready people ∧ peopled.Ready people ∧ peopled.Ready guests := by
  have hvalid : reception.validate = .ok () := rfl
  have hselect : reception.select ["GUESTS", "People", "guests"] = .ok [people, guests] := rfl
  have hnobody : reception.Unmatched ["people", "nobody"] := by decide
  have hmatched : ¬ reception.Unmatched ["GUESTS", "People", "guests"] := by decide
  obtain ⟨entries, hentries, hanswers, hready⟩ := (answered_of_validate hvalid _).2 hmatched
  obtain rfl : [people, guests] = entries := Except.ok.inj (hselect.symm.trans hentries)
  have hreceiving : Opened reception receiving := .begun runs_begin_reception
  have hpeopled : Opened reception peopled :=
    hreceiving.passed (e := people) conducts_sync rfl premises.time
  have hpeople : people ∈ [people, guests] := List.mem_cons_self
  exact ⟨hvalid, (answered_of_validate hvalid _).1.2 hnobody, hselect, hanswers,
    hready _ hpeople _ hreceiving, hready _ hpeople _ hpeopled, hready _ (by simp) _ hpeopled⟩

end Session

end StoreSync
